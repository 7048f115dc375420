/-
Module: MultiConnect.HashOrder
Layer: Model
Purpose: The operations that go through the `HashMap` of endpoints, with the order in which it yields
  them left open: each loop over the endpoints has an order of its own, any one that yields each
  endpoint once. The operations that look endpoints up by their id are those of the manager, and the
  event loops perform the same operations for an event.
Trusted boundary: a loop over a `HashMap` yields each entry once
Main exports: Iteration, ManagerOp.applyIn, serverStepIn, clientStepIn
-/
import MultiConnect.EventLoops

namespace MultiConnect

/-- An order in which a `HashMap` yields its entries. -/
structure Iteration where
  order : OrdMap EndpointId Endpoint → List (EndpointId × Endpoint)
  perm : ∀ endpoints, (order endpoints).Perm endpoints.entries

namespace ConnectionManager

/-! ### Loops over the endpoints -/

/-- Visit every endpoint, which the visit may change, and collect what is put out. -/
def visitEndpoints (manager : ConnectionManager) (iteration : Iteration)
    (visit : EndpointId → Endpoint → Endpoint × List Output) : ConnectionManager × List Output :=
  (iteration.order manager.endpoints).foldl
    (fun visited entry => (visited.1.setEndpoint entry.1 (visit entry.1 entry.2).1,
      visited.2 ++ (visit entry.1 entry.2).2))
    (manager, [])

def removeEmptiedIn (manager : ConnectionManager) (iteration : Iteration) : ConnectionManager :=
  let toBeRemoved :=
    ((iteration.order manager.endpoints).filter fun entry => !entry.2.hasConnections).map (·.1)
  toBeRemoved.foldl removeEndpoint manager

def removeConnectionIn (manager : ConnectionManager) (iteration : Iteration) (id : EndpointId)
    (interfaceName : String) (address : SocketAddr) : ConnectionManager :=
  (manager.dropConnection id interfaceName address).removeEmptiedIn iteration

/-- The broken connections are listed in one pass; each removal has a pass of its own. -/
def removeDisconnectedIn (manager : ConnectionManager) (iterations : Nat → Iteration) :
    ConnectionManager :=
  let toBeRemoved := ((iterations 0).order manager.endpoints).flatMap fun (id, endpoint) =>
    (endpoint.connections.filter fun entry => entry.connection.state == .disconnected).map
      fun entry => (id, entry.interfaceName, entry.interfaceAddress)
  toBeRemoved.zipIdx.foldl
    (fun manager removed => manager.removeConnectionIn (iterations (removed.2 + 1)) removed.1.1
      removed.1.2.1 removed.1.2.2)
    manager

def greetAllEndpointsIn (manager : ConnectionManager) (iteration : Iteration)
    (sends : EndpointId → Nat → SendResult) : ConnectionManager × List Output :=
  manager.visitEndpoints iteration fun id endpoint =>
    let greeted := endpoint.greet manager.ownId manager.ownStaticRoutes (sends id)
    (greeted.1, greeted.2.map .write)

def handleSelectiveDuplicationCommandIn (manager : ConnectionManager) (iteration : Iteration)
    (duplicationCommand : Option DuplicationCommands) : ConnectionManager :=
  match duplicationCommand with
  | some (.interfaceState state) =>
      (manager.visitEndpoints iteration fun _ endpoint =>
        (if state.enabled then endpoint.enableInterface state.interfaceName
          else endpoint.disableInterface state.interfaceName, [])).1
  | none => manager

end ConnectionManager

/-! ### Operations and event loops -/

def ManagerOp.applyIn (iterations : Nat → Iteration) (manager : ConnectionManager) :
    ManagerOp → Option (ConnectionManager × List Output)
  | .removeConnection id interfaceName address =>
      some (manager.removeConnectionIn (iterations 0) id interfaceName address, [])
  | .removeDisconnected => some (manager.removeDisconnectedIn iterations, [])
  | .greetAllEndpoints sends => some (manager.greetAllEndpointsIn (iterations 0) sends)
  | .handleSelectiveDuplicationCommand duplicationCommand =>
      some (manager.handleSelectiveDuplicationCommandIn (iterations 0) duplicationCommand, [])
  | op => ManagerOp.apply manager op

/-- The operations of one iteration of an event loop, each with its own orders. -/
def runIn (iterations : Nat → Nat → Iteration) (manager : ConnectionManager) (ops : List ManagerOp) :
    Option (ConnectionManager × List Output) :=
  Run.run (fun manager (op : ManagerOp × Nat) => ManagerOp.applyIn (iterations op.2) manager op.1)
    manager ops.zipIdx

def serverStepIn (manager : ConnectionManager) (event : ServerEvent × (Nat → Nat → Iteration)) :
    Option (ConnectionManager × List Output) :=
  match serverOps manager event.1 with
  | some ops => runIn event.2 manager ops
  | none => none

def clientStepIn (settings : ClientSettings) (manager : ConnectionManager)
    (event : ClientEvent × (Nat → Nat → Iteration)) : Option (ConnectionManager × List Output) :=
  match clientOps settings manager event.1 with
  | some ops => runIn event.2 manager ops
  | none => none

end MultiConnect
