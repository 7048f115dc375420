/-
Module: MultiConnect.EventLoops
Layer: Model
Purpose: The event loops of the client and of the server (the two `main.rs`). One iteration waits for
  one event and performs the operations that the event leads to; an iteration is the list of these
  operations, and running the loop is running the lists. An event that cannot come in a state, and one
  on which the program panics, has no iteration. Which of several events that are ready comes first is
  left open. The logs are added to the iterations in a module of their own.
Trusted boundary: `select_all` panics on an empty list; the runtime's `race` and `or`
Main exports: LoopEvent, ClientSettings, ClientEvent, ServerEvent, clientStart, clientStep, serverStep
-/
import MultiConnect.ConnectionManager

namespace MultiConnect

/-- The events that both loops wait for, with what the outside answers while they are handled. -/
inductive LoopEvent where
  | newEstablishedMessage (id : EndpointId) (index : Nat) (packetBytes : Option Messages)
      (openSocket : OpenSocket) (ack : Nat → SendResult) (now : Instant)
  | establishedError
  | connectionTimeout (id : EndpointId) (index : Nat) (now : Instant)
  | packetSorter (id : EndpointId) (now : Instant)
  | tunnelPacket (sliced : SlicedPacket) (bytes : List UInt8) (sends : EndpointId → Nat → SendResult)
  | tunnelError
  | newSortedPacket (id : EndpointId) (tunSent : Except ErrorKind Unit)
  | duplicationMessage (duplicationCommand : Option DuplicationCommands)

/-- The operations that an event of both loops leads to. -/
def LoopEvent.ops (manager : ConnectionManager) : LoopEvent → Option (List ManagerOp)
  | .newEstablishedMessage id index packetBytes openSocket ack now =>
      (manager.awaitIncoming id index packetBytes).map fun readInfo =>
        [.handleEstablishedMessage readInfo openSocket ack now]
  | .establishedError => some []
  | .connectionTimeout id index now =>
      (manager.awaitTimeout id index now).map fun (_, endpoint, interfaceName, socket) =>
        [.awaitTimeout id index now, .removeConnection endpoint interfaceName socket]
  | .packetSorter id now =>
      (manager.awaitPacketSorters id now).map fun (_, endpointId) =>
        [.awaitPacketSorters id now, .handlePacketSorterDeadline endpointId now]
  | .tunnelPacket sliced bytes sends => some [.handlePacketFromTun sliced bytes sends]
  | .tunnelError => some []
  | .newSortedPacket id tunSent =>
      match tunSent with
      | .ok () => some [.awaitEndpointSortedPackets id]
      | .error _ => none
  | .duplicationMessage duplicationCommand =>
      some [.handleSelectiveDuplicationCommand duplicationCommand]

/-! ### The client -/

/-- One interface of the client's configuration (`settings.rs`). -/
structure Interface where
  interfaceName : String
  bindAddress : SocketAddr
  serverAddress : SocketAddr
deriving DecidableEq, Repr

/-- What the client's loop reads of its configuration. -/
structure ClientSettings where
  interfaces : List Interface
  serverId : EndpointId
deriving DecidableEq, Repr

/-- The links of a configuration, all to the server. -/
def ClientSettings.connectionInfo (settings : ClientSettings) : List ConnectionInfo :=
  settings.interfaces.map fun interface =>
    ⟨interface.interfaceName, interface.bindAddress, interface.serverAddress, settings.serverId⟩

inductive ClientEvent where
  | loop (event : LoopEvent)
  | sendKeepalive (sends : EndpointId → Nat → SendResult) (dials : Nat → Dial)
  | restart (dials : Nat → Dial)

/-- The first connections, made before the loop begins; one that fails panics. -/
def clientStart (settings : ClientSettings) (dials : Nat → Dial) (manager : ConnectionManager) :
    Option (ConnectionManager × List Output) :=
  Run.run
    (fun manager (attempt : ConnectionInfo × Nat) =>
      match manager.openLink attempt.1 (dials attempt.2) with
      | some (next, writes, .ok ()) => some (next, writes)
      | _ => none)
    manager settings.connectionInfo.zipIdx

/-- The operations of one iteration: with endpoints, one event is handled and broken connections are
    removed; without, every link is opened again. -/
def clientOps (settings : ClientSettings) (manager : ConnectionManager) :
    ClientEvent → Option (List ManagerOp)
  | .loop event =>
      if manager.hasEndpoints then (event.ops manager).map (· ++ [.removeDisconnected]) else none
  | .sendKeepalive sends dials =>
      if manager.hasEndpoints then
        some [.greetAllEndpoints sends,
          .ensureEndpointConnections settings.serverId settings.connectionInfo dials,
          .removeDisconnected]
      else none
  | .restart dials =>
      if manager.hasEndpoints then none
      else some (settings.connectionInfo.zipIdx.map fun (info, index) =>
        .createNewConnection info (dials index))

def clientStep (settings : ClientSettings) (manager : ConnectionManager) (event : ClientEvent) :
    Option (ConnectionManager × List Output) :=
  match clientOps settings manager event with
  | some ops => Run.run ManagerOp.apply manager ops
  | none => none

/-! ### The server -/

/-- The name that the server gives every interface a connection comes in on. -/
def serverInterfaceName : String := "DYN-interface"

inductive ServerEvent where
  | newConnection (message : Option Messages) (sourceAddress : SocketAddr) (openSocket : OpenSocket)
      (firstAck lastAck : Nat → SendResult) (now : Instant)
  | loop (event : LoopEvent)
  | flushInterfaceLog

/-- The operations of one iteration: with endpoints, one event is handled and broken connections are
    removed; without, only a new connection is waited for. -/
def serverOps (manager : ConnectionManager) : ServerEvent → Option (List ManagerOp)
  | .newConnection message sourceAddress openSocket firstAck lastAck now =>
      let hello := ManagerOp.handleHello message sourceAddress serverInterfaceName openSocket
        firstAck lastAck now
      if manager.hasEndpoints then some [hello, .removeDisconnected] else some [hello]
  | .loop event =>
      if manager.hasEndpoints then (event.ops manager).map (· ++ [.removeDisconnected]) else none
  | .flushInterfaceLog =>
      if manager.hasEndpoints then some [.removeDisconnected] else none

def serverStep (manager : ConnectionManager) (event : ServerEvent) :
    Option (ConnectionManager × List Output) :=
  match serverOps manager event with
  | some ops => Run.run ManagerOp.apply manager ops
  | none => none

end MultiConnect
