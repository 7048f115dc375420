/-
Module: MultiConnect.Peers
Layer: Model
Purpose: One client and one server that run their event loops over a network. The network keeps every
  message that was written, so a message may be lost, delayed, repeated or overtaken; what a socket
  yields was written to it. The server program may start again at any time with an empty manager.
Trusted boundary: `Uuid::new_v4` never repeats a session; a connected socket yields datagrams of its
  peer only; the server sees the address that the client's socket is bound to
Main exports: Direction, Datagram, datagrams, Peers, PeersEvent, peersStep, peersStart
-/
import MultiConnect.EventLoops

namespace MultiConnect

/-! ### The network -/

inductive Direction where
  | toServer
  | toClient
deriving DecidableEq, Repr

def Direction.back : Direction → Direction
  | .toServer => .toClient
  | .toClient => .toServer

/-- The address of the client, seen from the connection of a side that writes in a direction. -/
def Direction.clientAddr : Direction → ConnectionEntry → SocketAddr
  | .toServer, entry => entry.connection.socket.localAddr
  | .toClient, entry => entry.connection.peerAddr

/-- A message under way between an address of the client and the server. The session is that of the
    endpoint that wrote it; no machine looks at it. -/
structure Datagram where
  direction : Direction
  clientAddr : SocketAddr
  session : Uuid
  message : Messages
deriving DecidableEq

/-- What a side puts on the network. -/
def datagrams (direction : Direction) (outs : List Output) : List Datagram :=
  outs.filterMap fun
    | .write write =>
        some ⟨direction, direction.clientAddr write.entry, write.sessionId, write.message⟩
    | .sorted .. => none

@[simp] theorem datagrams_nil (direction : Direction) : datagrams direction [] = [] := rfl

@[simp] theorem datagrams_append (direction : Direction) (outs outs' : List Output) :
    datagrams direction (outs ++ outs') = datagrams direction outs ++ datagrams direction outs' :=
  List.filterMap_append

/-! ### The two peers -/

/-- The client, the server, and everything that was written between them. -/
structure Peers where
  client : ConnectionManager
  server : ConnectionManager
  net : List Datagram

/-- One iteration of a loop, or a restart of the server program. -/
inductive PeersEvent where
  | client (event : ClientEvent)
  | server (event : ServerEvent)
  | restartServer

/-- The manager of a program that starts again under the same configuration. -/
def ConnectionManager.restarted (manager : ConnectionManager) : ConnectionManager :=
  ConnectionManager.new manager.localAddress manager.ownId manager.ownStaticRoutes
    manager.connectionTimeout manager.packetSorterDeadline

/-- What a connection yields was written to it: it is in the network, in the direction of the reader,
    between the server and the client address of the connection. -/
def delivers (net : List Datagram) (direction : Direction) (manager : ConnectionManager) :
    LoopEvent → Bool
  | .newEstablishedMessage id index (some message) .. =>
      match manager.endpoints.get? id with
      | some endpoint =>
          match endpoint.connections[index]? with
          | some entry => net.any fun d => d.direction == direction &&
              d.clientAddr == direction.back.clientAddr entry && d.message == message
          | none => false
      | none => false
  | _ => true

/-- What the network and the runtime can bring about. The network keeps what was written, so a datagram
    may arrive at any time, repeatedly, or never. -/
def Peers.allows (settings : ClientSettings) (peers : Peers) : PeersEvent → Bool
  | .client (.loop event) => delivers peers.net .toClient peers.client event
  | .client (.sendKeepalive ..) => true
  | .client (.restart dials) =>
      (List.range settings.interfaces.length).all fun index =>
        peers.net.all fun d => d.session != (dials index).newSession
  | .server (.newConnection (some message) sourceAddress ..) =>
      peers.net.any fun d => d.direction == .toServer && d.clientAddr == sourceAddress &&
        d.message == message
  | .server (.newConnection none ..) => true
  | .server (.loop event) => delivers peers.net .toServer peers.server event
  | .server .flushInterfaceLog => true
  | .restartServer => true

/-- One step of the two peers, with the datagrams that it puts on the network. -/
def peersStep (settings : ClientSettings) (peers : Peers) (event : PeersEvent) :
    Option (Peers × List Datagram) :=
  if peers.allows settings event then
    match event with
    | .client event =>
        (clientStep settings peers.client event).map fun (client, outs) =>
          ({ peers with client := client, net := peers.net ++ datagrams .toServer outs },
            datagrams .toServer outs)
    | .server event =>
        (serverStep peers.server event).map fun (server, outs) =>
          ({ peers with server := server, net := peers.net ++ datagrams .toClient outs },
            datagrams .toClient outs)
    | .restartServer => some ({ peers with server := peers.server.restarted }, [])
  else none

/-- The peers when the client's loop begins: its first connections are greeted, and the server has heard
    nothing. -/
def peersStart (settings : ClientSettings) (dials : Nat → Dial) (client server : ConnectionManager) :
    Option Peers :=
  (clientStart settings dials client).map fun (client, outs) =>
    ⟨client, server, datagrams .toServer outs⟩

/-- A manager as a program makes it when it starts. -/
def ConnectionManager.IsNew (manager : ConnectionManager) : Prop :=
  ∃ localAddress ownId ownStaticRoutes connectionTimeout packetSorterDeadline,
    manager = ConnectionManager.new localAddress ownId ownStaticRoutes connectionTimeout
      packetSorterDeadline

end MultiConnect
