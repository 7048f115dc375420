/-
Module: MultiConnect.ConnectionManager
Layer: Model
Purpose: The state machine of a peer (`connection_manager.rs`): the table of endpoints, the history of
  sessions, the routes, and every operation that the event loops perform on them. An operation answers
  `none` where the source panics. What it writes on its sockets and what it reads from the sorted
  channels is listed as its output. The order in which a hash map lists its endpoints is that of their
  ids here; no operation depends on it. Addresses of the TUN device are not modelled; the logs are in a
  module of their own.
Trusted boundary: what the operating system answers to binding, connecting and sending; a connected
  socket reports the address that it was connected to as its peer; `Uuid::new_v4`
Main exports: ConnectionManager, Dial, ConnectionManager.handleHello,
  ConnectionManager.handleEstablishedMessage, ConnectionManager.createNewConnection,
  ConnectionManager.handlePacketFromTun, ConnectionManager.removeConnection,
  ConnectionManager.removeDisconnected, ManagerOp, ManagerOp.apply, Installs, handleHello_cases,
  openLink_cases, awaitTimeout_eq_some
-/
import MultiConnect.Endpoint
import MultiConnect.Router

namespace MultiConnect

structure ConnectionManager where
  endpoints : OrdMap EndpointId Endpoint
  localAddress : SocketAddr
  ownId : EndpointId
  sessionHistory : List Uuid
  routes : Router
  ownStaticRoutes : Option (List Route)
  connectionTimeout : UInt64
  packetSorterDeadline : UInt64
deriving DecidableEq

/-- What an operation hands to the outside: a message on a socket, or a packet of a sorted channel. -/
inductive Output where
  | write (write : Write)
  | sorted (endpointId : EndpointId) (packet : Packet)
deriving DecidableEq

/-- What making a socket and binding it to a network device answers; any failure but a missing device
    panics, also that of making the socket. -/
inductive DeviceBinding where
  | bound
  | noSuchDevice
  | failed
deriving DecidableEq, Repr

/-- What the outside answers to one attempt to open a connection. -/
structure Dial where
  device : DeviceBinding
  bind : Except ErrorKind Unit
  connect : Except ErrorKind SocketAddr
  newSession : Uuid
  send : SendResult
  now : Instant

/-- The socket of an attempt was made and connected. -/
structure Dial.Reaches (dial : Dial) (localAddr : SocketAddr) : Prop where
  device : dial.device = .bound
  bind : dial.bind = .ok ()
  connect : dial.connect = .ok localAddr

/-- `make_socket` of `lib.rs` for a given local address. -/
def makeSocket (dial : Dial) : Option (Except ErrorKind Unit) :=
  match dial.device with
  | .bound => some dial.bind
  | .noSuchDevice => some (.error .other)
  | .failed => none

namespace ConnectionManager

def new (localAddress : SocketAddr) (ownId : EndpointId) (ownStaticRoutes : Option (List Route))
    (connectionTimeout packetSorterDeadline : UInt64) : ConnectionManager where
  endpoints := OrdMap.empty
  localAddress := localAddress
  ownId := ownId
  sessionHistory := []
  routes := Router.new
  ownStaticRoutes := ownStaticRoutes
  connectionTimeout := connectionTimeout
  packetSorterDeadline := packetSorterDeadline

/-- Store an endpoint under its id. -/
def setEndpoint (manager : ConnectionManager) (id : EndpointId) (endpoint : Endpoint) :
    ConnectionManager :=
  { manager with endpoints := manager.endpoints.insert id endpoint }

/-! ### Hellos on the listening socket -/

/-- Install a fresh endpoint under the session of a hello and note the session. -/
def installFresh (manager : ConnectionManager) (hello : Hello) (now : Instant) : ConnectionManager :=
  { manager with
    endpoints := manager.endpoints.insert hello.id
      (Endpoint.new hello.id hello.sessionId manager.packetSorterDeadline now)
    sessionHistory := manager.sessionHistory ++ [hello.sessionId] }

/-- Add the connection of a hello and acknowledge it, twice when the connection was added. -/
def addAndAcknowledge (manager : ConnectionManager) (endpoint : Endpoint)
    (sourceAddress : SocketAddr) (interfaceName : String) (openSocket : OpenSocket)
    (firstAck lastAck : Nat → SendResult) (now : Instant) : Endpoint × List Write :=
  match endpoint.addConnection sourceAddress interfaceName manager.localAddress
      manager.connectionTimeout openSocket now with
  | .ok added =>
      let first := added.acknowledge manager.ownId added.sessionId manager.ownStaticRoutes firstAck
      let last := first.1.acknowledge manager.ownId first.1.sessionId manager.ownStaticRoutes lastAck
      (last.1, first.2 ++ last.2)
  | .error _ =>
      endpoint.acknowledge manager.ownId endpoint.sessionId manager.ownStaticRoutes lastAck

/-- Take in a hello whose session is accepted: its connection, and the routes it announces. -/
def admitHello (manager : ConnectionManager) (hello : Hello) (sourceAddress : SocketAddr)
    (interfaceName : String) (openSocket : OpenSocket) (firstAck lastAck : Nat → SendResult)
    (now : Instant) : ConnectionManager × List Output :=
  match manager.endpoints.get? hello.id with
  | none => (manager, [])
  | some endpoint =>
      let acknowledged := manager.addAndAcknowledge endpoint sourceAddress interfaceName openSocket
        firstAck lastAck now
      ({ manager with
          endpoints := manager.endpoints.insert hello.id acknowledged.1
          routes := manager.routes.insertRoutes (hello.staticRoutes.getD []) hello.id },
        acknowledged.2.map .write)

/-- Handles new incoming connections and keeps existing connections alive. -/
def handleHello (manager : ConnectionManager) (message : Option Messages)
    (sourceAddress : SocketAddr) (interfaceName : String) (openSocket : OpenSocket)
    (firstAck lastAck : Nat → SendResult) (now : Instant) : ConnectionManager × List Output :=
  match message with
  | some (.hello hello) =>
      let ensured :=
        if manager.endpoints.contains hello.id then manager else manager.installFresh hello now
      match ensured.endpoints.get? hello.id with
      | some endpoint =>
          if endpoint.sessionId ≠ hello.sessionId then
            -- a session that was used before is refused, a new one overwrites the endpoint
            if hello.sessionId ∈ ensured.sessionHistory then (ensured, [])
            else (ensured.installFresh hello now).admitHello hello sourceAddress interfaceName
              openSocket firstAck lastAck now
          else ensured.admitHello hello sourceAddress interfaceName openSocket firstAck lastAck now
      | none => (ensured, [])
  | _ => (manager, [])

/-! ### Messages on established connections -/

/-- A hello acknowledgement came in on a connection: it is connected, and its timer starts again. -/
def acknowledged (readInfo : ReadInfo) (now : Instant) (entry : ConnectionEntry) : ConnectionEntry :=
  if entry.interfaceAddress = readInfo.sourceAddress ∧ entry.interfaceName = readInfo.interfaceName then
    let connected := if entry.connection.state = .startup then entry.setState .connected else entry
    if connected.connection.state = .connected then connected.resetHelloTimeout now else connected
  else entry

def handleEstablishedMessage (manager : ConnectionManager) (readInfo : ReadInfo)
    (openSocket : OpenSocket) (ack : Nat → SendResult) (now : Instant) :
    Option (ConnectionManager × List Output) :=
  match readInfo.packetBytes with
  | some (.packet packet) =>
      match manager.endpoints.get? readInfo.endpointId with
      | some endpoint =>
          some (manager.setEndpoint readInfo.endpointId
            { endpoint with packetSorter := (endpoint.packetSorter.insertPacket packet now).1 }, [])
      | none => some (manager, [])
  | some (.hello hello) =>
      match manager.endpoints.get? hello.id with
      | some endpoint =>
          let noted := { endpoint with
            helloPathLatency := endpoint.helloPathLatency.insertNewTimestamp hello.helloSeq now }
          match noted.addConnection readInfo.sourceAddress readInfo.interfaceName
              manager.localAddress manager.connectionTimeout openSocket now with
          | .ok added =>
              let acknowledged := added.acknowledge manager.ownId added.sessionId
                manager.ownStaticRoutes ack
              some (manager.setEndpoint hello.id acknowledged.1, acknowledged.2.map .write)
          | .error _ => none
      | none => some (manager, [])
  | some (.helloAck helloAck) =>
      match manager.endpoints.get? helloAck.id with
      | some endpoint =>
          let noted := { endpoint with
            helloAckPathLatency :=
              endpoint.helloAckPathLatency.insertNewTimestamp helloAck.helloAckSeq now
            connections := endpoint.connections.map (acknowledged readInfo now) }
          some ({ manager with
            endpoints := manager.endpoints.insert helloAck.id noted
            routes := manager.routes.insertRoutes (helloAck.staticRoutes.getD []) helloAck.id }, [])
      | none => some (manager, [])
  | none => some (manager, [])

/-! ### Opening connections -/

/-- The entry of a connection that this side opened. -/
def outgoingEntry (interfaceName : String) (destinationAddress localAddr : SocketAddr)
    (connectionTimeout : UInt64) (now : Instant) : ConnectionEntry where
  interfaceName := interfaceName
  interfaceAddress := destinationAddress
  connection :=
    Connection.new ⟨localAddr, destinationAddress⟩ (some interfaceName) connectionTimeout now

/-- Get the endpoint that a connection is opened to, creating it under a new session. -/
def ensureDestination (manager : ConnectionManager) (id : EndpointId) (dial : Dial) :
    ConnectionManager × Endpoint :=
  match manager.endpoints.get? id with
  | some endpoint => (manager, endpoint)
  | none =>
      let endpoint := Endpoint.new id dial.newSession manager.packetSorterDeadline dial.now
      (manager.setEndpoint id endpoint, endpoint)

/-- Open a connection and greet the peer on it. The endpoint stays, and its hello counter has moved on,
    when the greeting cannot be sent. -/
def createNewConnection (manager : ConnectionManager) (interfaceName : String)
    (localAddress destinationAddress : SocketAddr) (destinationEndpointId : EndpointId)
    (dial : Dial) : Option (ConnectionManager × List Output × Except ErrorKind Unit) :=
  match localAddress with
  | .v6 .. => none
  | .v4 .. =>
      match makeSocket dial with
      | none => none
      | some (.error e) => some (manager, [], .error e)
      | some (.ok ()) =>
          match dial.connect with
          | .error e => some (manager, [], .error e)
          | .ok localAddr =>
              let (ensured, endpoint) := manager.ensureDestination destinationEndpointId dial
              let hello := Messages.hello
                ⟨manager.ownId, endpoint.sessionId, manager.ownStaticRoutes, endpoint.helloCounter⟩
              let greeted := { endpoint with helloCounter := endpoint.helloCounter + 1 }
              match dial.send with
              | .error e =>
                  some (ensured.setEndpoint destinationEndpointId greeted, [], .error e)
              | .ok _ =>
                  let entry := outgoingEntry interfaceName destinationAddress localAddr
                    manager.connectionTimeout dial.now
                  some (ensured.setEndpoint destinationEndpointId
                      { greeted with connections := greeted.connections ++ [entry] },
                    [.write ⟨endpoint.id, endpoint.sessionId, entry, hello⟩], .ok ())

/-- `create_new_connection` for a configured link. -/
def openLink (manager : ConnectionManager) (info : ConnectionInfo) (dial : Dial) :
    Option (ConnectionManager × List Output × Except ErrorKind Unit) :=
  manager.createNewConnection info.interfaceName info.localAddress info.destinationAddress
    info.destinationEndpointId dial

/-! ### Packets from the TUN device -/

def getRoute (manager : ConnectionManager) (sliced : SlicedPacket) : Option (List EndpointId) :=
  match sliced with
  | .error => none
  | .ipv4 destination => some (manager.routes.lookup destination)
  | .ipv6 => none
  | .noIp => none

/-- One turn of the loop over the endpoints of a route; an endpoint that is missing panics. -/
def tunnelTo (bytes : List UInt8) (sends : EndpointId → Nat → SendResult)
    (manager : ConnectionManager) (id : EndpointId) : Option (ConnectionManager × List Output) :=
  match manager.endpoints.get? id with
  | some endpoint =>
      let tunnelled := endpoint.tunnel bytes (sends id)
      some (manager.setEndpoint id tunnelled.1, tunnelled.2.map .write)
  | none => none

def handlePacketFromTun (manager : ConnectionManager) (sliced : SlicedPacket) (bytes : List UInt8)
    (sends : EndpointId → Nat → SendResult) : Option (ConnectionManager × List Output) :=
  match manager.getRoute sliced with
  | some endpointIds => Run.run (tunnelTo bytes sends) manager endpointIds
  | none => some (manager, [])

/-! ### Removing connections -/

/-- Remove one endpoint and the routes to it. -/
def removeEndpoint (manager : ConnectionManager) (id : EndpointId) : ConnectionManager :=
  { manager with
    endpoints := manager.endpoints.erase id
    routes := manager.routes.removeRouteToEndpoint id }

/-- Remove every endpoint that has lost all its connections. -/
def removeEmptied (manager : ConnectionManager) : ConnectionManager :=
  let toBeRemoved :=
    (manager.endpoints.entries.filter fun entry => !entry.2.hasConnections).map (·.1)
  toBeRemoved.foldl removeEndpoint manager

/-- Drop the first connection of an endpoint for an interface and an address. -/
def dropConnection (manager : ConnectionManager) (id : EndpointId) (interfaceName : String)
    (address : SocketAddr) : ConnectionManager :=
  match manager.endpoints.get? id with
  | some endpoint =>
      manager.setEndpoint id { endpoint with
        connections := endpoint.connections.eraseP (ConnectionEntry.isFor interfaceName address) }
  | none => manager

def removeConnection (manager : ConnectionManager) (id : EndpointId) (interfaceName : String)
    (address : SocketAddr) : ConnectionManager :=
  (manager.dropConnection id interfaceName address).removeEmptied

/-- The connections that are known to be broken. -/
def disconnected (manager : ConnectionManager) : List (EndpointId × String × SocketAddr) :=
  manager.endpoints.entries.flatMap fun (id, endpoint) =>
    (endpoint.connections.filter fun entry => entry.connection.state == .disconnected).map
      fun entry => (id, entry.interfaceName, entry.interfaceAddress)

def removeDisconnected (manager : ConnectionManager) : ConnectionManager :=
  manager.disconnected.foldl
    (fun manager (id, interfaceName, address) => manager.removeConnection id interfaceName address)
    manager

/-! ### Keepalive -/

def greetAllEndpoints (manager : ConnectionManager) (sends : EndpointId → Nat → SendResult) :
    ConnectionManager × List Output :=
  ({ manager with
      endpoints := manager.endpoints.mapVals fun id endpoint =>
        (endpoint.greet manager.ownId manager.ownStaticRoutes (sends id)).1 },
    manager.endpoints.entries.flatMap fun (id, endpoint) =>
      (endpoint.greet manager.ownId manager.ownStaticRoutes (sends id)).2.map .write)

/-- One turn of a loop that opens links and goes on when opening one fails. -/
def tryLink (manager : ConnectionManager) (attempt : ConnectionInfo × Dial) :
    Option (ConnectionManager × List Output) :=
  (manager.openLink attempt.1 attempt.2).map fun (next, writes, _) => (next, writes)

/-- Reopen the links of an endpoint that it had no connection for when the loop began. -/
def ensureEndpointConnections (manager : ConnectionManager) (endpointId : EndpointId)
    (connectionInfos : List ConnectionInfo) (dials : Nat → Dial) :
    Option (ConnectionManager × List Output) :=
  match manager.endpoints.get? endpointId with
  | some endpoint =>
      let dead := connectionInfos.zipIdx.filter fun (info, _) =>
        (info.interfaceName, info.destinationAddress) ∉ endpoint.getAliveConnections
      Run.run tryLink manager (dead.map fun (info, index) => (info, dials index))
  | none => some (manager, [])

/-! ### Commands, deadlines and reads -/

def handleSelectiveDuplicationCommand (manager : ConnectionManager)
    (duplicationCommand : Option DuplicationCommands) : ConnectionManager :=
  match duplicationCommand with
  | some (.interfaceState state) =>
      { manager with
        endpoints := manager.endpoints.mapVals fun _ endpoint =>
          if state.enabled then endpoint.enableInterface state.interfaceName
          else endpoint.disableInterface state.interfaceName }
  | none => manager

def handlePacketSorterDeadline (manager : ConnectionManager) (endpointId : EndpointId)
    (now : Instant) : ConnectionManager :=
  match manager.endpoints.get? endpointId with
  | some endpoint =>
      manager.setEndpoint endpointId
        { endpoint with packetSorter := (endpoint.packetSorter.advanceQueue now).1 }
  | none => manager

def hasEndpoints (manager : ConnectionManager) : Bool := manager.endpoints.size != 0

/-- The endpoints that the `await` operations build a future for; `select_all` panics when there are
    none. -/
def awaited (manager : ConnectionManager) : List Endpoint :=
  manager.endpoints.values.filter Endpoint.hasConnections

/-- A connection of an endpoint yields a datagram. -/
def awaitIncoming (manager : ConnectionManager) (id : EndpointId) (index : Nat)
    (packetBytes : Option Messages) : Option ReadInfo :=
  match manager.endpoints.get? id with
  | some endpoint => endpoint.awaitConnections index packetBytes
  | none => none

/-- The timer of a connection of an endpoint fires. -/
def awaitTimeout (manager : ConnectionManager) (id : EndpointId) (index : Nat) (now : Instant) :
    Option (ConnectionManager × EndpointId × String × SocketAddr) :=
  match manager.endpoints.get? id with
  | some endpoint =>
      match endpoint.awaitConnectionTimeouts index now with
      | some (fired, timeout) => some (manager.setEndpoint id fired, timeout)
      | none => none
  | none => none

/-- The deadline of an endpoint's sorter fires. -/
def awaitPacketSorters (manager : ConnectionManager) (id : EndpointId) (now : Instant) :
    Option (ConnectionManager × EndpointId) :=
  match manager.endpoints.get? id with
  | some endpoint =>
      if endpoint.hasConnections then
        match endpoint.awaitPacketSorterDeadline now with
        | some (fired, endpointId) => some (manager.setEndpoint id fired, endpointId)
        | none => none
      else none
  | none => none

/-- An endpoint's sorted channel yields a packet. -/
def awaitEndpointSortedPackets (manager : ConnectionManager) (id : EndpointId) :
    Option (ConnectionManager × EndpointId × Packet) :=
  match manager.endpoints.get? id with
  | some endpoint =>
      if endpoint.hasConnections then
        match endpoint.awaitSortedPacket with
        | some (read, sorted) => some (manager.setEndpoint id read, sorted)
        | none => none
      else none
  | none => none

end ConnectionManager

/-! ### Operations as data -/

/-- One call of an operation, with what the outside answers to it. -/
inductive ManagerOp where
  | handleHello (message : Option Messages) (sourceAddress : SocketAddr) (interfaceName : String)
      (openSocket : OpenSocket) (firstAck lastAck : Nat → SendResult) (now : Instant)
  | handleEstablishedMessage (readInfo : ReadInfo) (openSocket : OpenSocket)
      (ack : Nat → SendResult) (now : Instant)
  | createNewConnection (info : ConnectionInfo) (dial : Dial)
  | handlePacketFromTun (sliced : SlicedPacket) (bytes : List UInt8)
      (sends : EndpointId → Nat → SendResult)
  | removeConnection (id : EndpointId) (interfaceName : String) (address : SocketAddr)
  | removeDisconnected
  | greetAllEndpoints (sends : EndpointId → Nat → SendResult)
  | ensureEndpointConnections (endpointId : EndpointId) (connectionInfos : List ConnectionInfo)
      (dials : Nat → Dial)
  | handleSelectiveDuplicationCommand (duplicationCommand : Option DuplicationCommands)
  | handlePacketSorterDeadline (endpointId : EndpointId) (now : Instant)
  | awaitTimeout (id : EndpointId) (index : Nat) (now : Instant)
  | awaitPacketSorters (id : EndpointId) (now : Instant)
  | awaitEndpointSortedPackets (id : EndpointId)

/-- Perform one operation; `none` where it panics, or where what it awaits does not come. -/
def ManagerOp.apply (manager : ConnectionManager) :
    ManagerOp → Option (ConnectionManager × List Output)
  | .handleHello message sourceAddress interfaceName openSocket firstAck lastAck now =>
      some (manager.handleHello message sourceAddress interfaceName openSocket firstAck lastAck now)
  | .handleEstablishedMessage readInfo openSocket ack now =>
      manager.handleEstablishedMessage readInfo openSocket ack now
  | .createNewConnection info dial => manager.tryLink (info, dial)
  | .handlePacketFromTun sliced bytes sends => manager.handlePacketFromTun sliced bytes sends
  | .removeConnection id interfaceName address =>
      some (manager.removeConnection id interfaceName address, [])
  | .removeDisconnected => some (manager.removeDisconnected, [])
  | .greetAllEndpoints sends => some (manager.greetAllEndpoints sends)
  | .ensureEndpointConnections endpointId connectionInfos dials =>
      manager.ensureEndpointConnections endpointId connectionInfos dials
  | .handleSelectiveDuplicationCommand duplicationCommand =>
      some (manager.handleSelectiveDuplicationCommand duplicationCommand, [])
  | .handlePacketSorterDeadline endpointId now =>
      some (manager.handlePacketSorterDeadline endpointId now, [])
  | .awaitTimeout id index now =>
      (manager.awaitTimeout id index now).map fun (fired, _) => (fired, [])
  | .awaitPacketSorters id now =>
      (manager.awaitPacketSorters id now).map fun (fired, _) => (fired, [])
  | .awaitEndpointSortedPackets id =>
      (manager.awaitEndpointSortedPackets id).map fun (read, endpointId, packet) =>
        (read, [.sorted endpointId packet])

/-! ### What a hello on the listening socket does -/

namespace ConnectionManager

theorem get?_installFresh (manager : ConnectionManager) (hello : Hello) (now : Instant) :
    (manager.installFresh hello now).endpoints.get? hello.id =
      some (Endpoint.new hello.id hello.sessionId manager.packetSorterDeadline now) :=
  OrdMap.get?_insert_self ..

/-- A hello for an id under a session installs a fresh endpoint: none is there, or one under another
    session while this session was not used before. -/
def Installs (manager : ConnectionManager) (k : EndpointId) (session : Uuid) : Prop :=
  ∀ old, manager.endpoints.get? k = some old →
    old.sessionId ≠ session ∧ session ∉ manager.sessionHistory

/-- A hello installs a fresh endpoint and is admitted, is admitted under the session in place, or is
    refused because it would bring back a session. -/
theorem handleHello_cases (manager : ConnectionManager) (hello : Hello) (sourceAddress : SocketAddr)
    (interfaceName : String) (openSocket : OpenSocket) (firstAck lastAck : Nat → SendResult)
    (now : Instant) :
    let after := manager.handleHello (some (.hello hello)) sourceAddress interfaceName openSocket
      firstAck lastAck now
    let admitted := fun manager : ConnectionManager => manager.admitHello hello sourceAddress
      interfaceName openSocket firstAck lastAck now
    (manager.Installs hello.id hello.sessionId ∧ after = admitted (manager.installFresh hello now)) ∨
    (∃ e, manager.endpoints.get? hello.id = some e ∧ e.sessionId = hello.sessionId ∧
      after = admitted manager) ∨
    ∃ e, manager.endpoints.get? hello.id = some e ∧ e.sessionId ≠ hello.sessionId ∧
      hello.sessionId ∈ manager.sessionHistory ∧ after = (manager, []) := by
  intro after admitted
  cases hfound : manager.endpoints.get? hello.id with
  | none =>
      refine Or.inl ⟨by simp [Installs, hfound], ?_⟩
      simp [after, handleHello, OrdMap.contains, hfound, get?_installFresh, Endpoint.new, admitted]
  | some e =>
      by_cases hsession : e.sessionId = hello.sessionId
      · refine Or.inr (Or.inl ⟨e, rfl, hsession, ?_⟩)
        simp [after, handleHello, OrdMap.contains, hfound, hsession, admitted]
      · by_cases hused : hello.sessionId ∈ manager.sessionHistory
        · refine Or.inr (Or.inr ⟨e, rfl, hsession, hused, ?_⟩)
          simp [after, handleHello, OrdMap.contains, hfound, hsession, hused]
        · refine Or.inl ⟨?_, ?_⟩
          · intro old hold
            obtain rfl := Option.some.inj (hfound.symm.trans hold)
            exact ⟨hsession, hused⟩
          · simp [after, handleHello, OrdMap.contains, hfound, hsession, hused, admitted]

/-- A hello that is taken in changes its endpoint as little as an added connection does. -/
theorem touched_addAndAcknowledge (manager : ConnectionManager) (endpoint : Endpoint)
    (sourceAddress : SocketAddr) (interfaceName : String) (openSocket : OpenSocket)
    (firstAck lastAck : Nat → SendResult) (now : Instant) :
    let after := (manager.addAndAcknowledge endpoint sourceAddress interfaceName openSocket firstAck
      lastAck now).1
    let add := endpoint.addConnection sourceAddress interfaceName manager.localAddress
      manager.connectionTimeout openSocket now
    (∃ added, add = .ok added ∧ Touched added after) ∨
      ∃ error, add = .error error ∧ Touched endpoint after := by
  intro after add
  cases hadd : add with
  | ok added =>
      refine Or.inl ⟨added, rfl, ?_⟩
      simp only [after, addAndAcknowledge, show endpoint.addConnection _ _ _ _ _ _ = _ from hadd]
      exact (Endpoint.touched_acknowledge ..).trans (Endpoint.touched_acknowledge ..)
  | error error =>
      refine Or.inr ⟨error, rfl, ?_⟩
      simp only [after, addAndAcknowledge, show endpoint.addConnection _ _ _ _ _ _ = _ from hadd]
      exact Endpoint.touched_acknowledge ..

/-! ### What an attempt to open a connection does -/

theorem makeSocket_eq_ok {dial : Dial} (h : makeSocket dial = some (.ok ())) :
    dial.device = .bound ∧ dial.bind = .ok () := by
  unfold makeSocket at h
  split at h
  · rename_i hdevice
    exact ⟨hdevice, Option.some.inj h⟩
  · cases h
  · cases h

theorem not_reaches_of_makeSocket {dial : Dial} {error : ErrorKind} {localAddr : SocketAddr}
    (h : makeSocket dial = some (.error error)) : ¬ dial.Reaches localAddr := by
  intro hreaches
  rw [makeSocket, hreaches.device, hreaches.bind] at h
  cases h

/-- An attempt without a connected socket changes nothing. With one, the endpoint is there, and its
    hello counter has moved on; the connection is added when the greeting could be sent. -/
theorem openLink_cases {manager next : ConnectionManager} {info : ConnectionInfo} {dial : Dial}
    {outs : List Output} {result : Except ErrorKind Unit}
    (h : manager.openLink info dial = some (next, outs, result)) :
    let id := info.destinationEndpointId
    let ensured := (manager.ensureDestination id dial).1
    let endpoint := (manager.ensureDestination id dial).2
    let greeted := { endpoint with helloCounter := endpoint.helloCounter + 1 }
    ((∀ localAddr, ¬ dial.Reaches localAddr) ∧ next = manager ∧ outs = [] ∧ result ≠ .ok ()) ∨
    ∃ localAddr, dial.Reaches localAddr ∧
      ((∃ error, dial.send = .error error ∧ next = ensured.setEndpoint id greeted ∧ outs = [] ∧
          result = .error error) ∨
        ∃ sent entry, dial.send = .ok sent ∧
          entry = outgoingEntry info.interfaceName info.destinationAddress localAddr
            manager.connectionTimeout dial.now ∧
          next = ensured.setEndpoint id
            { greeted with connections := greeted.connections ++ [entry] } ∧
          outs = [.write ⟨endpoint.id, endpoint.sessionId, entry, .hello ⟨manager.ownId,
            endpoint.sessionId, manager.ownStaticRoutes, endpoint.helloCounter⟩⟩] ∧
          result = .ok ()) := by
  intro id ensured endpoint greeted
  unfold openLink createNewConnection at h
  split at h
  · cases h
  split at h
  · cases h
  · rename_i hsocket
    simp only [Option.some.injEq, Prod.mk.injEq] at h
    obtain ⟨rfl, rfl, rfl⟩ := h
    exact Or.inl ⟨fun _ => not_reaches_of_makeSocket hsocket, rfl, rfl, by simp⟩
  rename_i hsocket
  obtain ⟨hdevice, hbind⟩ := makeSocket_eq_ok hsocket
  split at h
  · rename_i hconnect
    simp only [Option.some.injEq, Prod.mk.injEq] at h
    obtain ⟨rfl, rfl, rfl⟩ := h
    refine Or.inl ⟨fun localAddr hreaches => ?_, rfl, rfl, by simp⟩
    rw [hreaches.connect] at hconnect
    cases hconnect
  rename_i localAddr hconnect
  refine Or.inr ⟨localAddr, ⟨hdevice, hbind, hconnect⟩, ?_⟩
  dsimp only at h
  split at h
  · rename_i error hsend
    simp only [Option.some.injEq, Prod.mk.injEq] at h
    obtain ⟨rfl, rfl, rfl⟩ := h
    exact Or.inl ⟨error, hsend, rfl, rfl, rfl⟩
  · rename_i sent hsend
    simp only [Option.some.injEq, Prod.mk.injEq] at h
    obtain ⟨rfl, rfl, rfl⟩ := h
    exact Or.inr ⟨sent, _, hsend, rfl, rfl, rfl, rfl⟩

theorem get?_ensureDestination (manager : ConnectionManager) (id k : EndpointId) (dial : Dial)
    (endpoint : Endpoint) :
    ((manager.ensureDestination id dial).1.setEndpoint id endpoint).endpoints.get? k =
      if k = id then some endpoint else manager.endpoints.get? k := by
  rw [setEndpoint, OrdMap.get?_insert]
  by_cases hk : k = id
  · rw [if_pos hk, if_pos hk]
  · rw [if_neg hk, if_neg hk]
    unfold ensureDestination
    split
    · rfl
    · exact OrdMap.get?_insert_of_ne _ _ hk

theorem connections_ensureDestination (manager : ConnectionManager) (id : EndpointId) (dial : Dial) :
    (manager.ensureDestination id dial).2.connections =
      ((manager.endpoints.get? id).map (·.connections)).getD [] := by
  unfold ensureDestination
  split
  · rename_i found
    rw [found]
    rfl
  · rename_i absent
    rw [absent]
    rfl

theorem tryLink_eq_some {manager next : ConnectionManager} {attempt : ConnectionInfo × Dial}
    {outs : List Output} (h : manager.tryLink attempt = some (next, outs)) :
    ∃ result, manager.openLink attempt.1 attempt.2 = some (next, outs, result) := by
  obtain ⟨⟨opened, writes, result⟩, hopen, heq⟩ := Option.map_eq_some_iff.mp h
  obtain ⟨rfl, rfl⟩ := Prod.mk.inj heq
  exact ⟨result, hopen⟩

/-! ### What the awaited operations find -/

/-- What is read names the connection that it came in on. -/
theorem awaitIncoming_eq_some {manager : ConnectionManager} {id : EndpointId} {index : Nat}
    {packetBytes : Option Messages} {readInfo : ReadInfo}
    (h : manager.awaitIncoming id index packetBytes = some readInfo) :
    ∃ endpoint entry, manager.endpoints.get? id = some endpoint ∧
      endpoint.connections[index]? = some entry ∧ readInfo =
        ⟨packetBytes, entry.connection.peerAddr, entry.connection.getInterfaceName, endpoint.id⟩ := by
  unfold awaitIncoming at h
  split at h
  · rename_i endpoint found
    unfold Endpoint.awaitConnections at h
    split at h
    · rename_i entry hentry
      exact ⟨endpoint, entry, found, hentry, (Option.some.inj h).symm⟩
    · cases h
  · cases h

/-- A connection whose timer fires is reported under the name and the address that it knows itself. -/
theorem awaitTimeout_eq_some {manager fired : ConnectionManager} {id k : EndpointId} {index : Nat}
    {now : Instant} {interfaceName : String} {address : SocketAddr}
    (h : manager.awaitTimeout id index now = some (fired, k, interfaceName, address)) :
    ∃ endpoint entry, manager.endpoints.get? id = some endpoint ∧
      endpoint.connections[index]? = some entry ∧
      entry.connection.connectionTimeout.isDue now = true ∧ k = endpoint.id ∧
      interfaceName = entry.connection.getInterfaceName ∧ address = entry.connection.peerAddr ∧
      fired = manager.setEndpoint id { endpoint with
        connections := endpoint.connections.set index { entry with
          connection := { entry.connection with connectionTimeout := Timer.never } } } := by
  unfold awaitTimeout at h
  split at h
  · rename_i endpoint found
    unfold Endpoint.awaitConnectionTimeouts at h
    cases hentry : endpoint.connections[index]? with
    | none => simp [hentry] at h
    | some entry =>
        cases hdue : entry.connection.connectionTimeout.isDue now with
        | false => simp [hentry, Connection.awaitConnectionTimeout, hdue] at h
        | true =>
            simp only [hentry, Connection.awaitConnectionTimeout, hdue, if_pos, Option.some.injEq,
              Prod.mk.injEq] at h
            obtain ⟨rfl, rfl, rfl, rfl⟩ := h
            exact ⟨endpoint, entry, found, hentry, hdue, rfl, rfl, rfl, rfl⟩
  · cases h

theorem awaitPacketSorters_eq_some {manager fired : ConnectionManager} {id k : EndpointId}
    {now : Instant} (h : manager.awaitPacketSorters id now = some (fired, k)) :
    ∃ endpoint, manager.endpoints.get? id = some endpoint ∧
      endpoint.packetSorter.deadlineTimer.isDue now = true ∧ k = endpoint.id ∧
      fired = manager.setEndpoint id { endpoint with
        packetSorter := { endpoint.packetSorter with deadlineTimer := Timer.never } } := by
  unfold awaitPacketSorters at h
  split at h
  · rename_i endpoint found
    unfold Endpoint.awaitPacketSorterDeadline PacketSorter.awaitDeadline at h
    cases hconnections : endpoint.hasConnections with
    | false => simp [hconnections] at h
    | true =>
        cases hdue : endpoint.packetSorter.deadlineTimer.isDue now with
        | false => simp [hdue] at h
        | true =>
            simp only [hconnections, hdue, if_pos, Option.some.injEq, Prod.mk.injEq] at h
            obtain ⟨rfl, rfl⟩ := h
            exact ⟨endpoint, found, hdue, rfl, rfl⟩
  · cases h

theorem awaitEndpointSortedPackets_eq_some {manager read : ConnectionManager} {id k : EndpointId}
    {packet : Packet} (h : manager.awaitEndpointSortedPackets id = some (read, k, packet)) :
    ∃ endpoint sorter, manager.endpoints.get? id = some endpoint ∧
      endpoint.packetSorter.awaitHaveNextPacket = some (sorter, packet) ∧ k = endpoint.id ∧
      read = manager.setEndpoint id { endpoint with packetSorter := sorter } := by
  unfold awaitEndpointSortedPackets at h
  split at h
  · rename_i endpoint found
    unfold Endpoint.awaitSortedPacket at h
    cases hconnections : endpoint.hasConnections with
    | false => simp [hconnections] at h
    | true =>
        cases hread : endpoint.packetSorter.awaitHaveNextPacket with
        | none => simp [hread] at h
        | some result =>
            simp only [hconnections, hread, if_pos, Option.some.injEq, Prod.mk.injEq] at h
            obtain ⟨rfl, rfl, rfl⟩ := h
            exact ⟨endpoint, result.1, found, hread, rfl, rfl⟩
  · cases h

end ConnectionManager

section Waiting

variable {manager next : ConnectionManager} {id : EndpointId} {now : Instant} {outs : List Output}

/-- A timeout that fires is stored as fired, and nothing else changes. -/
theorem apply_awaitTimeout {index : Nat}
    (h : ManagerOp.apply manager (.awaitTimeout id index now) = some (next, outs)) :
    outs = [] ∧ ∃ endpoint entry, manager.endpoints.get? id = some endpoint ∧
      endpoint.connections[index]? = some entry ∧
      next = manager.setEndpoint id { endpoint with
        connections := endpoint.connections.set index { entry with
          connection := { entry.connection with connectionTimeout := Timer.never } } } := by
  obtain ⟨⟨fired, timeout⟩, hfired, heq⟩ := Option.map_eq_some_iff.mp h
  obtain ⟨rfl, rfl⟩ := Prod.mk.inj heq
  obtain ⟨endpoint, entry, found, hentry, -, -, -, -, rfl⟩ :=
    ConnectionManager.awaitTimeout_eq_some hfired
  exact ⟨rfl, endpoint, entry, found, hentry, rfl⟩

/-- A sorter's deadline that fires is stored as fired, and nothing else changes. -/
theorem apply_awaitPacketSorters
    (h : ManagerOp.apply manager (.awaitPacketSorters id now) = some (next, outs)) :
    outs = [] ∧ ∃ endpoint, manager.endpoints.get? id = some endpoint ∧
      next = manager.setEndpoint id { endpoint with
        packetSorter := { endpoint.packetSorter with deadlineTimer := Timer.never } } := by
  obtain ⟨⟨fired, endpointId⟩, hfired, heq⟩ := Option.map_eq_some_iff.mp h
  obtain ⟨rfl, rfl⟩ := Prod.mk.inj heq
  obtain ⟨endpoint, found, -, -, rfl⟩ := ConnectionManager.awaitPacketSorters_eq_some hfired
  exact ⟨rfl, endpoint, found, rfl⟩

/-- A sorted packet is read from its sorter and put out, and nothing else changes. -/
theorem apply_awaitEndpointSortedPackets
    (h : ManagerOp.apply manager (.awaitEndpointSortedPackets id) = some (next, outs)) :
    ∃ endpoint sorter packet, manager.endpoints.get? id = some endpoint ∧
      endpoint.packetSorter.awaitHaveNextPacket = some (sorter, packet) ∧
      outs = [.sorted endpoint.id packet] ∧
      next = manager.setEndpoint id { endpoint with packetSorter := sorter } := by
  obtain ⟨⟨read, endpointId, packet⟩, hread, heq⟩ := Option.map_eq_some_iff.mp h
  obtain ⟨rfl, rfl⟩ := Prod.mk.inj heq
  obtain ⟨endpoint, sorter, found, hsorter, rfl, rfl⟩ :=
    ConnectionManager.awaitEndpointSortedPackets_eq_some hread
  exact ⟨endpoint, sorter, packet, found, hsorter, rfl, rfl⟩

end Waiting

end MultiConnect
