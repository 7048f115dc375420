/-
Module: MultiConnect.Endpoint
Layer: Model
Purpose: A remote peer (`endpoint.rs`): its session, its connections, the counters of what was sent to
  it, and the reorder buffer for what it sends. The three loops that write one message on every
  eligible connection (`acknowledge`, and the loops inside `greet_all_endpoints` and
  `handle_packet_from_tun`) are one definition, `broadcast`; the lemmas here say what it leaves alone.
Trusted boundary: what the operating system answers to opening a socket and to a send; a connected
  socket reports the address that it was connected to as its peer
Main exports: ConnectionEntry, Endpoint, Write, broadcast, Endpoint.addConnection,
  Endpoint.acknowledge, Endpoint.greet, Endpoint.tunnel, Link, Touched, addConnection_eq_ok
-/
import Mathlib.Data.List.Basic
import MultiConnect.Connection
import MultiConnect.PacketSorter
import MultiConnect.PathLatency

namespace MultiConnect

structure ConnectionEntry where
  interfaceName : String
  interfaceAddress : SocketAddr
  connection : Connection
deriving DecidableEq

structure Endpoint where
  id : EndpointId
  sessionId : Uuid
  connections : List ConnectionEntry
  txCounter : UInt64
  helloCounter : UInt64
  helloAckCounter : UInt64
  packetSorter : PacketSorter
  helloPathLatency : PathLatency
  helloAckPathLatency : PathLatency
deriving DecidableEq

/-- What `read` hands on: a datagram, and the connection and endpoint that it came through. -/
structure ReadInfo where
  packetBytes : Option Messages
  sourceAddress : SocketAddr
  interfaceName : String
  endpointId : EndpointId
deriving DecidableEq

/-- One message written on one connection, with the endpoint and the session it was written for. -/
structure Write where
  endpointId : EndpointId
  sessionId : Uuid
  entry : ConnectionEntry
  message : Messages
deriving DecidableEq

/-- What opening a socket bound to one address and connected to another answers: the address that the
    socket ended up with, or an error. -/
abbrev OpenSocket := SocketAddr → SocketAddr → Except ErrorKind SocketAddr

/-- Change the first element that satisfies a test; `none` when no element does. -/
def updateFirst {α : Type} (p : α → Bool) (f : α → α) : List α → Option (List α)
  | [] => none
  | a :: rest => if p a then some (f a :: rest) else (updateFirst p f rest).map (a :: ·)

namespace ConnectionEntry

def setState (entry : ConnectionEntry) (state : ConnectionState) : ConnectionEntry :=
  { entry with connection := { entry.connection with state := state } }

/-- The entry is the one of an interface and an address. -/
def isFor (interfaceName : String) (address : SocketAddr) (entry : ConnectionEntry) : Bool :=
  entry.interfaceName == interfaceName && entry.interfaceAddress == address

def resetHelloTimeout (now : Instant) (entry : ConnectionEntry) : ConnectionEntry :=
  { entry with connection := entry.connection.resetHelloTimeout now }

/-- The connection was not found to be broken. -/
def isLive (entry : ConnectionEntry) : Bool :=
  entry.connection.state == .startup || entry.connection.state == .connected

end ConnectionEntry

/-- Write on every eligible connection; `settle` says which state a write leaves a connection in, given
    what it answered. `sends` holds what the system answers, by position. -/
def broadcast (eligible : ConnectionEntry → Bool)
    (settle : SendResult → ConnectionState → ConnectionState) (sends : Nat → SendResult)
    (connections : List ConnectionEntry) : List ConnectionEntry :=
  connections.mapIdx fun index entry =>
    if eligible entry then
      entry.setState (settle (Connection.write (sends index)) entry.connection.state)
    else entry

namespace Endpoint

def new (id : EndpointId) (sessionId : Uuid) (packetSorterDeadline : UInt64) (now : Instant) :
    Endpoint where
  id := id
  sessionId := sessionId
  connections := []
  txCounter := 0
  helloCounter := 0
  helloAckCounter := 0
  packetSorter := PacketSorter.new (Duration.fromMillis packetSorterDeadline) now
  helloPathLatency := PathLatency.new
  helloAckPathLatency := PathLatency.new

/-- The entry of a connection that was opened for an incoming hello: the connection itself does not
    know the interface. -/
def incomingEntry (sourceAddress : SocketAddr) (interfaceName : String) (localAddr : SocketAddr)
    (connectionTimeout : UInt64) (now : Instant) : ConnectionEntry where
  interfaceName := interfaceName
  interfaceAddress := sourceAddress
  connection := Connection.new ⟨localAddr, sourceAddress⟩ none connectionTimeout now

/-- Keep a known connection alive, or open a new one. -/
def addConnection (endpoint : Endpoint) (sourceAddress : SocketAddr) (interfaceName : String)
    (localAddress : SocketAddr) (connectionTimeout : UInt64) (openSocket : OpenSocket)
    (now : Instant) : Except ErrorKind Endpoint :=
  match updateFirst (ConnectionEntry.isFor interfaceName sourceAddress)
      (ConnectionEntry.resetHelloTimeout now) endpoint.connections with
  | some connections => .ok { endpoint with connections := connections }
  | none =>
      match openSocket localAddress sourceAddress with
      | .error e => .error e
      | .ok localAddr =>
          .ok { endpoint with
            connections := endpoint.connections ++
              [incomingEntry sourceAddress interfaceName localAddr connectionTimeout now] }

/-- The writes of one message on the eligible connections. -/
def writes (endpoint : Endpoint) (eligible : ConnectionEntry → Bool) (message : Messages) :
    List Write :=
  (endpoint.connections.filter eligible).map fun entry =>
    ⟨endpoint.id, endpoint.sessionId, entry, message⟩

/-- A connection that took the acknowledgement is connected, one that did not is broken. -/
def settleAck : SendResult → ConnectionState → ConnectionState
  | .ok _, _ => .connected
  | .error _, _ => .disconnected

def acknowledge (endpoint : Endpoint) (ownId : EndpointId) (sessionId : Uuid)
    (ownStaticRoutes : Option (List Route)) (sends : Nat → SendResult) : Endpoint × List Write :=
  let ack := Messages.helloAck ⟨ownId, sessionId, ownStaticRoutes, endpoint.helloAckCounter⟩
  ({ endpoint with
      helloAckCounter := endpoint.helloAckCounter + 1
      connections := broadcast ConnectionEntry.isLive settleAck sends endpoint.connections },
    endpoint.writes ConnectionEntry.isLive ack)

/-- Only an unreachable network breaks a connection that is greeted. -/
def settleHello : SendResult → ConnectionState → ConnectionState
  | .error .networkUnreachable, _ => .disconnected
  | _, state => state

/-- One turn of the loop of `greet_all_endpoints`. -/
def greet (endpoint : Endpoint) (ownId : EndpointId) (ownStaticRoutes : Option (List Route))
    (sends : Nat → SendResult) : Endpoint × List Write :=
  let hello := Messages.hello ⟨ownId, endpoint.sessionId, ownStaticRoutes, endpoint.helloCounter⟩
  ({ endpoint with
      helloCounter := endpoint.helloCounter + 1
      connections := broadcast ConnectionEntry.isLive settleHello sends endpoint.connections },
    endpoint.writes ConnectionEntry.isLive hello)

/-- Only a refused connection breaks a connection that carries a packet. -/
def settlePacket : SendResult → ConnectionState → ConnectionState
  | .error .connectionRefused, _ => .disconnected
  | _, state => state

/-- One turn of the loop of `handle_packet_from_tun`. -/
def tunnel (endpoint : Endpoint) (bytes : List UInt8) (sends : Nat → SendResult) :
    Endpoint × List Write :=
  let enabled := fun entry : ConnectionEntry => entry.connection.isEnabled
  let packet := Messages.packet ⟨endpoint.txCounter, endpoint.id, bytes⟩
  ({ endpoint with
      txCounter := endpoint.txCounter + 1
      connections := broadcast enabled settlePacket sends endpoint.connections },
    endpoint.writes enabled packet)

def hasConnections (endpoint : Endpoint) : Bool := !endpoint.connections.isEmpty

def getAliveConnections (endpoint : Endpoint) : List (String × SocketAddr) :=
  endpoint.connections.map fun entry => (entry.interfaceName, entry.interfaceAddress)

/-- Set the flag of every connection of an interface. -/
def setInterface (switch : Connection → Connection) (interfaceName : String) (endpoint : Endpoint) :
    Endpoint :=
  { endpoint with
    connections := endpoint.connections.map fun entry =>
      if entry.interfaceName = interfaceName then
        { entry with connection := switch entry.connection }
      else entry }

def disableInterface (interfaceName : String) (endpoint : Endpoint) : Endpoint :=
  endpoint.setInterface Connection.disable interfaceName

def enableInterface (interfaceName : String) (endpoint : Endpoint) : Endpoint :=
  endpoint.setInterface Connection.enable interfaceName

/-- One of the connections yields a datagram. -/
def awaitConnections (endpoint : Endpoint) (index : Nat) (packetBytes : Option Messages) :
    Option ReadInfo :=
  match endpoint.connections[index]? with
  | some entry =>
      some ⟨packetBytes, entry.connection.peerAddr, entry.connection.getInterfaceName, endpoint.id⟩
  | none => none

/-- The timer of one of the connections fires. -/
def awaitConnectionTimeouts (endpoint : Endpoint) (index : Nat) (now : Instant) :
    Option (Endpoint × EndpointId × String × SocketAddr) :=
  match endpoint.connections[index]? with
  | some entry =>
      match entry.connection.awaitConnectionTimeout now with
      | some (connection, peerAddr, interfaceName) =>
          some ({ endpoint with
            connections := endpoint.connections.set index { entry with connection := connection } },
            endpoint.id, interfaceName, peerAddr)
      | none => none
  | none => none

def awaitPacketSorterDeadline (endpoint : Endpoint) (now : Instant) : Option (Endpoint × EndpointId) :=
  match endpoint.packetSorter.awaitDeadline now with
  | some sorter => some ({ endpoint with packetSorter := sorter }, endpoint.id)
  | none => none

def awaitSortedPacket (endpoint : Endpoint) : Option (Endpoint × EndpointId × Packet) :=
  match endpoint.packetSorter.awaitHaveNextPacket with
  | some (sorter, packet) => some ({ endpoint with packetSorter := sorter }, endpoint.id, packet)
  | none => none

end Endpoint

/-! ### What the operations leave alone -/

/-- What identifies a connection, and its flag: all but its state and its timer. -/
structure Link where
  interfaceName : String
  interfaceAddress : SocketAddr
  socket : UdpSocket
  boundName : Option String
  peerAddr : SocketAddr
  enabled : Bool
deriving DecidableEq

def ConnectionEntry.link (entry : ConnectionEntry) : Link where
  interfaceName := entry.interfaceName
  interfaceAddress := entry.interfaceAddress
  socket := entry.connection.socket
  boundName := entry.connection.interfaceName
  peerAddr := entry.connection.peerAddr
  enabled := entry.connection.enabled

@[simp] theorem link_resetHelloTimeout (now : Instant) (entry : ConnectionEntry) :
    (entry.resetHelloTimeout now).link = entry.link := rfl

theorem links_broadcast (eligible : ConnectionEntry → Bool)
    (settle : SendResult → ConnectionState → ConnectionState) (sends : Nat → SendResult)
    (connections : List ConnectionEntry) :
    (broadcast eligible settle sends connections).map ConnectionEntry.link =
      connections.map ConnectionEntry.link := by
  refine List.ext_getElem (by simp [broadcast]) fun index _ _ => ?_
  simp only [broadcast, List.getElem_map, List.getElem_mapIdx]
  split <;> rfl

/-- A change that keeps a view of each element keeps the view of the list. -/
theorem map_of_updateFirst {α β : Type} {p : α → Bool} {f : α → α} {g : α → β}
    (same : ∀ a, g (f a) = g a) :
    ∀ {l l' : List α}, updateFirst p f l = some l' → l'.map g = l.map g
  | a :: rest, l', h => by
      unfold updateFirst at h
      split at h
      · obtain rfl := Option.some.inj h
        simp [same]
      · obtain ⟨rest', hrest, rfl⟩ := Option.map_eq_some_iff.mp h
        simp [map_of_updateFirst same hrest]

/-- Replacing an element by one with the same view keeps the view of the list. -/
theorem map_set_of_same {α β : Type} {g : α → β} {l : List α} {index : Nat} {a b : α}
    (h : l[index]? = some a) (same : g b = g a) : (l.set index b).map g = l.map g := by
  refine List.ext_getElem? fun i => ?_
  rw [List.map_set, List.getElem?_set]
  split
  · rename_i hi
    subst hi
    obtain ⟨hlt, rfl⟩ := List.getElem?_eq_some_iff.mp h
    simp [hlt, same]
  · rfl

/-- Nothing is changed when no element satisfies the test. -/
theorem updateFirst_eq_none {α : Type} {p : α → Bool} {f : α → α} :
    ∀ {l : List α}, updateFirst p f l = none ↔ ∀ a ∈ l, p a = false
  | [] => by simp [updateFirst]
  | a :: rest => by
      cases hp : p a with
      | true => simp [updateFirst, hp]
      | false => simp [updateFirst, hp, updateFirst_eq_none (l := rest)]

/-- Two versions of an endpoint that differ at most in the states and timers of its connections, in
    its hello counters and in its latency records. -/
structure Touched (e e' : Endpoint) : Prop where
  id : e'.id = e.id
  sessionId : e'.sessionId = e.sessionId
  txCounter : e'.txCounter = e.txCounter
  packetSorter : e'.packetSorter = e.packetSorter
  links : e'.connections.map ConnectionEntry.link = e.connections.map ConnectionEntry.link

theorem Touched.trans {e e' e'' : Endpoint} (h : Touched e e') (h' : Touched e' e'') :
    Touched e e'' :=
  ⟨h'.id.trans h.id, h'.sessionId.trans h.sessionId, h'.txCounter.trans h.txCounter,
    h'.packetSorter.trans h.packetSorter, h'.links.trans h.links⟩

theorem Touched.exists_entry {e e' : Endpoint} (h : Touched e e') {entry : ConnectionEntry}
    (hmem : entry ∈ e'.connections) : ∃ old ∈ e.connections, old.link = entry.link :=
  List.mem_map.mp (h.links ▸ List.mem_map_of_mem hmem)

theorem Touched.connections_eq_nil {e e' : Endpoint} (h : Touched e e') :
    e'.connections = [] ↔ e.connections = [] := by
  rw [← List.length_eq_zero_iff, ← List.length_eq_zero_iff,
    ← List.length_map ConnectionEntry.link, h.links, List.length_map]

namespace Endpoint

theorem touched_acknowledge (endpoint : Endpoint) (ownId : EndpointId) (sessionId : Uuid)
    (ownStaticRoutes : Option (List Route)) (sends : Nat → SendResult) :
    Touched endpoint (endpoint.acknowledge ownId sessionId ownStaticRoutes sends).1 :=
  ⟨rfl, rfl, rfl, rfl, links_broadcast ..⟩

theorem touched_greet (endpoint : Endpoint) (ownId : EndpointId)
    (ownStaticRoutes : Option (List Route)) (sends : Nat → SendResult) :
    Touched endpoint (endpoint.greet ownId ownStaticRoutes sends).1 :=
  ⟨rfl, rfl, rfl, rfl, links_broadcast ..⟩

/-- A packet moves the counter on and touches nothing else. -/
theorem touched_tunnel (endpoint : Endpoint) (bytes : List UInt8) (sends : Nat → SendResult) :
    Touched { endpoint with txCounter := endpoint.txCounter + 1 }
      (endpoint.tunnel bytes sends).1 :=
  ⟨rfl, rfl, rfl, rfl, links_broadcast ..⟩

/-- An added connection was known, or is new and at the end. -/
theorem addConnection_eq_ok {endpoint added : Endpoint} {sourceAddress localAddress : SocketAddr}
    {interfaceName : String} {connectionTimeout : UInt64} {openSocket : OpenSocket} {now : Instant}
    (h : endpoint.addConnection sourceAddress interfaceName localAddress connectionTimeout openSocket
      now = .ok added) :
    Touched endpoint added ∨
      (∀ entry ∈ endpoint.connections, entry.isFor interfaceName sourceAddress = false) ∧
      ∃ localAddr, openSocket localAddress sourceAddress = .ok localAddr ∧
        added = { endpoint with
          connections := endpoint.connections ++
            [incomingEntry sourceAddress interfaceName localAddr connectionTimeout now] } := by
  unfold addConnection at h
  split at h
  · rename_i connections hknown
    obtain rfl := Except.ok.inj h
    exact Or.inl ⟨rfl, rfl, rfl, rfl, map_of_updateFirst (link_resetHelloTimeout now) hknown⟩
  · rename_i hunknown
    split at h
    · cases h
    · rename_i localAddr hopened
      obtain rfl := Except.ok.inj h
      exact Or.inr ⟨updateFirst_eq_none.mp hunknown, localAddr, hopened, rfl⟩

/-- Only a connection that is not known can fail to be added, when its socket does not open. -/
theorem addConnection_eq_error {endpoint : Endpoint} {sourceAddress localAddress : SocketAddr}
    {interfaceName : String} {connectionTimeout : UInt64} {openSocket : OpenSocket} {now : Instant}
    {error : ErrorKind} :
    endpoint.addConnection sourceAddress interfaceName localAddress connectionTimeout openSocket now =
        .error error ↔
      (∀ entry ∈ endpoint.connections, entry.isFor interfaceName sourceAddress = false) ∧
        openSocket localAddress sourceAddress = .error error := by
  unfold addConnection
  split
  · rename_i connections hknown
    have hfound : ¬ ∀ entry ∈ endpoint.connections,
        entry.isFor interfaceName sourceAddress = false := fun hunknown => by
      rw [updateFirst_eq_none.mpr hunknown] at hknown
      cases hknown
    simp [hfound]
  · rename_i hunknown
    have hall := updateFirst_eq_none.mp hunknown
    cases hopened : openSocket localAddress sourceAddress with
    | error e => simpa using fun _ => hall
    | ok => simp

/-- Where a connection was added there is one. -/
theorem connections_ne_nil_of_addConnection {endpoint added : Endpoint}
    {sourceAddress localAddress : SocketAddr} {interfaceName : String} {connectionTimeout : UInt64}
    {openSocket : OpenSocket} {now : Instant}
    (h : endpoint.addConnection sourceAddress interfaceName localAddress connectionTimeout openSocket
      now = .ok added) : added.connections ≠ [] := by
  unfold addConnection at h
  split at h
  · rename_i connections hknown
    obtain rfl := Except.ok.inj h
    have hlinks := map_of_updateFirst (link_resetHelloTimeout now) hknown
    intro hnil
    obtain rfl : connections = [] := hnil
    rw [List.map_nil, eq_comm, List.map_eq_nil_iff] at hlinks
    rw [hlinks] at hknown
    cases hknown
  · split at h
    · cases h
    · obtain rfl := Except.ok.inj h
      simp

theorem helloAckCounter_addConnection {endpoint added : Endpoint}
    {sourceAddress localAddress : SocketAddr} {interfaceName : String} {connectionTimeout : UInt64}
    {openSocket : OpenSocket} {now : Instant}
    (h : endpoint.addConnection sourceAddress interfaceName localAddress connectionTimeout openSocket
      now = .ok added) : added.helloAckCounter = endpoint.helloAckCounter := by
  unfold addConnection at h
  split at h
  · obtain rfl := Except.ok.inj h
    rfl
  · split at h
    · cases h
    · obtain rfl := Except.ok.inj h
      rfl

theorem mem_writes {endpoint : Endpoint} {eligible : ConnectionEntry → Bool} {message : Messages}
    {write : Write} :
    write ∈ endpoint.writes eligible message ↔
      ∃ entry ∈ endpoint.connections, eligible entry = true ∧
        ⟨endpoint.id, endpoint.sessionId, entry, message⟩ = write := by
  simp [writes, and_assoc]

end Endpoint

end MultiConnect
