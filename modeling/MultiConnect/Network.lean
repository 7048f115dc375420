/-
Module: MultiConnect.Network
Layer: Model
Purpose: A multi-connect network: one server and any number of clients, each running its event loop, over
  a network that keeps every message that was written, so that a message may be lost, delayed, repeated
  or overtaken. A client may start at any time, and start again; so may the server, with an empty
  manager. What a step yields is the traffic of the TUN devices: the packets that were routed into the
  tunnel, and those that came out of it.
Trusted boundary: an address leads to one client; a connected socket yields datagrams of its peer only;
  the server sees the address that the client's socket is bound to
Main exports: Deployment, Network, NetworkEvent, Traffic, networkStep, networkStart
-/
import MultiConnect.Peers
import MultiConnect.Settings

namespace MultiConnect

/-- The configurations of the server and of the clients, these by their ids, which are unique; and the
    client that an address leads to. -/
structure Deployment where
  server : ServerSettings
  clients : OrdMap EndpointId ClientConfig
  owner : SocketAddr → EndpointId
  peerIds : ∀ entry ∈ clients.entries, entry.2.peerId = entry.1

structure Network where
  clients : OrdMap EndpointId ConnectionManager
  server : ConnectionManager
  net : List Datagram

/-- The start of a program, or one iteration of a loop. -/
inductive NetworkEvent where
  | startClient (id : EndpointId) (dials : Nat → Dial)
  | client (id : EndpointId) (event : ClientEvent)
  | startServer
  | server (event : ServerEvent)

/-- A program with a TUN device. -/
inductive Party where
  | server
  | client (id : EndpointId)
deriving DecidableEq, Repr

/-- A packet that a program takes from its TUN device and routes to an endpoint, or one that it writes
    to its TUN device and that came from an endpoint. -/
inductive Traffic where
  | routed (party : Party) (target : EndpointId) (destination : Ipv4Addr) (bytes : List UInt8)
  | delivered (party : Party) (source : EndpointId) (bytes : List UInt8)
deriving DecidableEq, Repr

/-- What an event routes into the tunnel. -/
def LoopEvent.routed (party : Party) (manager : ConnectionManager) : LoopEvent → List Traffic
  | .tunnelPacket (.ipv4 destination) bytes _ =>
      (manager.routes.lookup destination).map fun id => .routed party id destination bytes
  | _ => []

def ClientEvent.routed (id : EndpointId) (manager : ConnectionManager) : ClientEvent → List Traffic
  | .loop event => event.routed (.client id) manager
  | _ => []

def ServerEvent.routed (manager : ConnectionManager) : ServerEvent → List Traffic
  | .loop event => event.routed .server manager
  | _ => []

/-- What an iteration brings out of the tunnel. -/
def delivered (party : Party) (outs : List Output) : List Traffic :=
  outs.filterMap fun
    | .write _ => none
    | .sorted endpointId packet => some (.delivered party endpointId packet.bytes)

namespace Network

/-- The sockets of a client are bound to addresses that lead to it. -/
def owns (deployment : Deployment) (id : EndpointId) (dials : Nat → Dial) (links : Nat) : Bool :=
  (List.range links).all fun index =>
    match (dials index).connect with
    | .ok localAddr => deployment.owner localAddr == id
    | .error _ => true

/-- What the network and the runtime can bring about. -/
def allows (deployment : Deployment) (network : Network) : NetworkEvent → Bool
  | .startClient id dials =>
      match deployment.clients.get? id with
      | some config => owns deployment id dials config.interfaces.length
      | none => false
  | .client id event =>
      match deployment.clients.get? id, network.clients.get? id with
      | some config, some client =>
          match event with
          | .loop event => delivers network.net .toClient client event
          | .sendKeepalive _ dials => owns deployment id dials config.interfaces.length
          | .restart dials => owns deployment id dials config.interfaces.length
      | _, _ => false
  | .startServer => true
  | .server (.newConnection (some message) sourceAddress ..) =>
      network.net.any fun d => d.direction == .toServer && d.clientAddr == sourceAddress &&
        d.message == message
  | .server (.loop event) => delivers network.net .toServer network.server event
  | .server _ => true

/-- A client has moved on, and wrote to the server. -/
def setClient (network : Network) (id : EndpointId) (client : ConnectionManager)
    (outs : List Output) : Network :=
  { network with
    clients := network.clients.insert id client
    net := network.net ++ datagrams .toServer outs }

/-- The server has moved on, and wrote to its clients. -/
def setServer (network : Network) (server : ConnectionManager) (outs : List Output) : Network :=
  { network with server := server, net := network.net ++ datagrams .toClient outs }

end Network

/-- One step of the network, with the traffic that it brings about. -/
def networkStep (deployment : Deployment) (network : Network) (event : NetworkEvent) :
    Option (Network × List Traffic) :=
  if network.allows deployment event then
    match event with
    | .startClient id dials =>
        match deployment.clients.get? id with
        | some config =>
            (clientMain config dials).map fun (client, outs) => (network.setClient id client outs, [])
        | none => none
    | .client id event =>
        match deployment.clients.get? id, network.clients.get? id with
        | some config, some client =>
            (clientStep config.toClientSettings client event).map fun (next, outs) =>
              (network.setClient id next outs,
                event.routed id client ++ delivered (.client id) outs)
        | _, _ => none
    | .startServer => (serverMain deployment.server).map fun server => (network.setServer server [], [])
    | .server event =>
        (serverStep network.server event).map fun (next, outs) =>
          (network.setServer next outs, event.routed network.server ++ delivered .server outs)
  else none

/-- The network when the server has started, and no client has. -/
def networkStart (deployment : Deployment) : Option Network :=
  (serverMain deployment.server).map fun server => ⟨OrdMap.empty, server, []⟩

end MultiConnect
