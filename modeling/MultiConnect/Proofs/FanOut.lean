/-
Module: MultiConnect.Proofs.FanOut
Layer: Proofs
Purpose: What a packet from the TUN device does. Each endpoint with a route to its destination takes it
  once, however many of its routes lead there: the packet gets the next number of the endpoint and is
  written once on each enabled connection, whatever becomes of the other writes. Over a run the numbers
  of an endpoint follow one another, so no number is left out or used twice.
Trusted boundary: `SlicedPacket::from_ip` finds the destination of an IPv4 packet
Main exports: CountersBelow, HasRoute, TakesPacket, FansOut, fansOut_of_apply, numbered_run,
  packet_fans_out
-/
import MultiConnect.Proofs.Tunnel
import MultiConnect.Proofs.Routes

namespace MultiConnect

open ConnectionManager

/-! ### One packet -/

/-- No endpoint has used up its numbers. -/
def CountersBelow (manager : ConnectionManager) : Prop :=
  ∀ k e, manager.endpoints.get? k = some e → e.txCounter < u64Max

/-- Some route of the endpoint leads to the destination. -/
def HasRoute (manager : ConnectionManager) (destination : Ipv4Addr) (k : EndpointId) : Prop :=
  ∃ aem ∈ manager.routes.routes, aem.endpointId = k ∧ aem.address.reachableFrom destination = true

/-- The endpoint takes the packet: its counter moves on by one, each enabled connection is written on
    once, under the old counter, and is broken if just this write was refused. -/
structure TakesPacket (bytes : List UInt8) (sends : Nat → SendResult) (k : EndpointId)
    (e e' : Endpoint) (outs : List Output) : Prop where
  counter : e'.txCounter.toNat = e.txCounter.toNat + 1
  connections : e'.connections = e.connections.mapIdx fun index entry =>
    if entry.connection.isEnabled = true ∧ sends index = .error .connectionRefused then
      entry.setState .disconnected
    else entry
  others : { e' with txCounter := e.txCounter, connections := e.connections } = e
  writes : outs = (e.connections.filter fun entry => entry.connection.isEnabled).map fun entry =>
    .write ⟨k, e.sessionId, entry, .packet ⟨e.txCounter, k, bytes⟩⟩

/-- Just the endpoints with a route take the packet, and nothing else changes. -/
structure FansOut (destination : Ipv4Addr) (bytes : List UInt8) (sends : EndpointId → Nat → SendResult)
    (manager next : ConnectionManager) (outs : List Output) : Prop where
  routed : ∀ k, HasRoute manager destination k → ∃ e e', manager.endpoints.get? k = some e ∧
    next.endpoints.get? k = some e' ∧ TakesPacket bytes (sends k) k e e' (outputsFor k outs)
  untouched : ∀ k, ¬ HasRoute manager destination k →
    next.endpoints.get? k = manager.endpoints.get? k ∧ outputsFor k outs = []
  others : { next with endpoints := manager.endpoints } = manager

section Packet

variable {manager next : ConnectionManager} {bytes : List UInt8}
  {sends : EndpointId → Nat → SendResult} {outs : List Output}

theorem takesPacket_tunnel {k : EndpointId} {e : Endpoint} (id : e.id = k)
    (below : e.txCounter < u64Max) (sends : Nat → SendResult) :
    TakesPacket bytes sends k e (e.tunnel bytes sends).1 ((e.tunnel bytes sends).2.map .write) := by
  refine ⟨?_, ?_, rfl, ?_⟩
  · have hbelow := UInt64.lt_iff_toNat_lt.mp below
    rw [toNat_u64Max] at hbelow
    rw [Endpoint.tunnel, UInt64.toNat_add]
    exact Nat.mod_eq_of_lt (by simpa using by omega)
  · rw [Endpoint.tunnel, broadcast]
    refine List.mapIdx_eq_mapIdx_iff.mpr fun index hlt => ?_
    cases hsent : sends index with
    | ok sent => simp [Connection.write, Endpoint.settlePacket, ConnectionEntry.setState]
    | error kind =>
        cases kind <;> simp [Connection.write, Endpoint.settlePacket, ConnectionEntry.setState]
  · rw [Endpoint.tunnel, Endpoint.writes, List.map_map, id]
    rfl

/-- Endpoints that the packet is not for stay as they are. -/
theorem tunnelTo_run_of_not_mem {ids : List EndpointId} {k : EndpointId} (other : k ∉ ids)
    (keyed : Keyed manager) (h : Run.run (tunnelTo bytes sends) manager ids = some (next, outs)) :
    next.endpoints.get? k = manager.endpoints.get? k ∧ outputsFor k outs = [] := by
  refine (Run.run_induction (C := fun _ _ id => id ≠ k)
    (P := fun _ mid outs => Keyed mid ∧ mid.endpoints.get? k = manager.endpoints.get? k ∧
      outputsFor k outs = []) ⟨keyed, rfl, rfl⟩ ?_ ?_ h).2
  · rintro _ id mid before after now - ⟨hkeyed, hsame, hsilent⟩ hid hstep
    obtain ⟨e, -, rfl, hnext, hown⟩ := tunnelTo_eq_some hkeyed hstep
    refine ⟨hnext, ?_, ?_⟩
    · rw [setEndpoint, OrdMap.get?_insert_of_ne _ _ (Ne.symm hid), hsame]
    · rw [outputsFor_append, hsilent, hown, if_neg hid, List.append_nil]
  · rintro past id future _ _ _ _ rfl _ _ rfl
    exact other (by simp)

theorem others_tunnelTo_run {ids : List EndpointId}
    (h : Run.run (tunnelTo bytes sends) manager ids = some (next, outs)) :
    { next with endpoints := manager.endpoints } = manager := by
  refine Run.run_invariant (P := fun mid : ConnectionManager =>
    { mid with endpoints := manager.endpoints } = manager) ?_ rfl h
  intro mid id after now hmid hstep
  unfold tunnelTo at hstep
  split at hstep
  · obtain ⟨rfl, -⟩ := Prod.mk.inj (Option.some.inj hstep)
    exact hmid
  · cases hstep

/-- A packet with an IPv4 destination fans out, as long as routes lead to endpoints that are there. -/
theorem fansOut_of_apply {destination : Ipv4Addr} (keyed : Keyed manager) (known : RoutesKnown manager)
    (below : CountersBelow manager)
    (h : manager.handlePacketFromTun (.ipv4 destination) bytes sends = some (next, outs)) :
    FansOut destination bytes sends manager next outs := by
  have hrun : Run.run (tunnelTo bytes sends) manager (manager.routes.lookup destination) =
      some (next, outs) := h
  refine ⟨fun k hroute => ?_, fun k hnone => ?_, others_tunnelTo_run hrun⟩
  · have hmem := Router.mem_lookup.mpr hroute
    obtain ⟨aem, haem, rfl, -⟩ := hroute
    obtain ⟨e, found⟩ := OrdMap.contains_iff.mp (known aem haem)
    obtain ⟨hnext, hwritten⟩ := tunnelTo_run _ (Router.nodup_lookup _ _) keyed found hrun
    rw [if_pos hmem] at hnext hwritten
    rw [hwritten]
    exact ⟨e, _, found, hnext, takesPacket_tunnel (keyed _ e found) (below _ e found) _⟩
  · exact tunnelTo_run_of_not_mem (mt Router.mem_lookup.mp hnone) keyed hrun

end Packet

/-! ### The numbers of an endpoint -/

/-- An operation, with the packet that it routes to an endpoint. -/
def routing (k : EndpointId) (manager : ConnectionManager) (op : ManagerOp) :
    Option (ConnectionManager × List (List UInt8)) :=
  (ManagerOp.apply manager op).map fun applied => (applied.1, routedTo k manager op)

section Numbers

variable {manager mid next : ConnectionManager} {op : ManagerOp} {outs : List Output}
  {k : EndpointId} {e : Endpoint}

/-- One operation: a packet that it routes to the endpoint takes the number that is next. -/
theorem numbered_step {e' : Endpoint} (keyed : Keyed manager) (below : CountersBelow manager)
    (found : manager.endpoints.get? k = some e) (found' : next.endpoints.get? k = some e')
    (session : e'.sessionId = e.sessionId) (h : ManagerOp.apply manager op = some (next, outs)) :
    e'.txCounter.toNat = e.txCounter.toNat + (routedTo k manager op).length ∧
      ∀ packet, .packet packet ∈ messagesTo k outs →
        packet.seq = e.txCounter ∧ routedTo k manager op = [packet.bytes] := by
  rcases sends_of_apply keyed found found' session h with
    ⟨hrouted, hsame, hsilent⟩ | ⟨bytes, hrouted, hnext, hwritten⟩
  · rw [hrouted, hsame]
    exact ⟨rfl, fun packet hpacket => absurd hpacket (hsilent packet)⟩
  · have hbelow := UInt64.lt_iff_toNat_lt.mp (below k e found)
    rw [toNat_u64Max] at hbelow
    rw [hrouted, hnext, UInt64.toNat_add]
    refine ⟨Nat.mod_eq_of_lt (by simpa using by omega), fun packet hpacket => ?_⟩
    obtain ⟨hseq, rfl⟩ := hwritten packet hpacket
    exact ⟨hseq, rfl⟩

/-- A run that keeps the endpoint: its counter has moved on by the number of packets routed to it. -/
theorem numbered_run {ops : List ManagerOp} (keyed : Keyed manager)
    (found : manager.endpoints.get? k = some e)
    (kept : Run.Throughout ManagerOp.apply (fun mid =>
      (mid.endpoints.get? k).map (·.sessionId) = some e.sessionId) manager ops)
    (below : Run.EachStep ManagerOp.apply (fun _ mid _ => CountersBelow mid) manager ops) :
    ∀ {mid : ConnectionManager} {routed : List (List UInt8)},
      Run.run (routing k) manager ops = some (mid, routed) →
      (∃ outs, Run.run ManagerOp.apply manager ops = some (mid, outs)) ∧
        ∃ e', mid.endpoints.get? k = some e' ∧ e'.sessionId = e.sessionId ∧
          e'.txCounter.toNat = e.txCounter.toNat + routed.length := by
  induction ops using List.reverseRecOn with
  | nil =>
      intro mid routed hrun
      obtain ⟨rfl, rfl⟩ := Prod.mk.inj (Option.some.inj hrun)
      exact ⟨⟨[], rfl⟩, e, found, rfl, rfl⟩
  | append_singleton past op ih =>
      intro final routed hrun
      obtain ⟨mid, before, now, hpast, hstep, rfl⟩ := Run.run_concat_eq_some.mp hrun
      obtain ⟨⟨next, written⟩, happly, heq⟩ := Option.map_eq_some_iff.mp hstep
      obtain ⟨rfl, rfl⟩ := Prod.mk.inj heq
      obtain ⟨⟨first, hfirst⟩, now, hnow, hsession, hcounter⟩ := ih
        (fun seen future _ _ hpast hrun => kept seen (future ++ [op]) _ _ (by simp [hpast]) hrun)
        below.of_append hpast
      have hwhole := Run.run_concat_eq_some.mpr ⟨mid, first, written, hfirst, happly, rfl⟩
      obtain ⟨e', hfound', hsession'⟩ :=
        Option.map_eq_some_iff.mp (kept (past ++ [op]) [] _ _ (List.append_nil _).symm hwhole)
      have hstepped := numbered_step (keyed_run keyed hfirst)
        (below past op [] mid first _ _ rfl hfirst happly) hnow hfound'
        (hsession'.trans hsession.symm) happly
      refine ⟨⟨_, hwhole⟩, e', hfound', hsession', ?_⟩
      rw [hstepped.1, hcounter, List.length_append, Nat.add_assoc]

end Numbers

/-- A packet from the TUN device fans out exactly, wherever operations lead from a new manager while no
    counter is used up. The numbers of an endpoint follow one another: while it stays, the packet that
    is routed to it after `n` others is written under the number that is `n` above the first. -/
theorem packet_fans_out (localAddress : SocketAddr) (ownId : EndpointId)
    (ownStaticRoutes : Option (List Route)) (connectionTimeout packetSorterDeadline : UInt64)
    (ops : List ManagerOp) (manager : ConnectionManager) (outs : List Output)
    (reached : Run.run ManagerOp.apply (ConnectionManager.new localAddress ownId ownStaticRoutes
      connectionTimeout packetSorterDeadline) ops = some (manager, outs))
    (below : CountersBelow manager) :
    (∀ destination bytes sends, ∃ next written,
      manager.handlePacketFromTun (.ipv4 destination) bytes sends = some (next, written) ∧
        FansOut destination bytes sends manager next written) ∧
    ∀ k e, manager.endpoints.get? k = some e → ∀ future op mid routed next written,
      Run.run (routing k) manager future = some (mid, routed) →
      ManagerOp.apply mid op = some (next, written) →
      Run.Throughout ManagerOp.apply (fun mid => (mid.endpoints.get? k).map (·.sessionId) =
        some e.sessionId) manager (future ++ [op]) →
      Run.EachStep ManagerOp.apply (fun _ mid _ => CountersBelow mid) manager (future ++ [op]) →
      ∀ packet, .packet packet ∈ messagesTo k written →
        packet.seq.toNat = e.txCounter.toNat + routed.length ∧
          routedTo k mid op = [packet.bytes] := by
  have keyed : Keyed manager := keyed_run (keyed_new _ _ _ _ _) reached
  have known : RoutesKnown manager := routesKnown_run (by intro aem haem; cases haem) reached
  refine ⟨fun destination bytes sends => ?_, ?_⟩
  · exact Run.exists_of_isSome (known.handlePacketFromTun_isSome _ _ _) fun next written h =>
      fansOut_of_apply keyed known below h
  · intro k e found future op mid routed next written hrun hstep kept counts packet hpacket
    obtain ⟨⟨first, hfirst⟩, now, hnow, hsession, hcounter⟩ := numbered_run keyed found
      (fun seen rest _ _ hseen hrun => kept seen (rest ++ [op]) _ _ (by simp [hseen]) hrun)
      counts.of_append hrun
    obtain ⟨e', hfound', hsession'⟩ := Option.map_eq_some_iff.mp (kept (future ++ [op]) [] _ _
      (List.append_nil _).symm (Run.run_concat_eq_some.mpr ⟨mid, first, written, hfirst, hstep, rfl⟩))
    obtain ⟨hseq, hbytes⟩ := (numbered_step (keyed_run keyed hfirst)
      (counts future op [] mid first _ _ rfl hfirst hstep) hnow hfound'
      (hsession'.trans hsession.symm) hstep).2 packet hpacket
    exact ⟨by rw [hseq, hcounter], hbytes⟩

/-- A client with two links to a server that announces two subnets, one within the other. -/
private def fanOutOps : List ManagerOp :=
  [.createNewConnection ⟨"eth0", .v4 2130706433 0, .v4 2130706434 40000, 2⟩
      ⟨.bound, .ok (), .ok (.v4 2130706433 5000), 7, .ok 20, 0⟩,
    .createNewConnection ⟨"eth1", .v4 2130706433 0, .v4 2130706434 40000, 2⟩
      ⟨.bound, .ok (), .ok (.v4 2130706433 5001), 7, .ok 20, 0⟩,
    .handleEstablishedMessage ⟨some (.helloAck ⟨2, 7, some [⟨0, 0⟩, ⟨167772160, 4278190080⟩], 0⟩),
      .v4 2130706434 40000, "eth0", 2⟩ (fun _ _ => .error .other) (fun _ => .ok 20) 1]

private def packetFromTun (bytes : List UInt8) : ManagerOp :=
  .handlePacketFromTun (.ipv4 167772161) bytes fun _ _ => .ok 20

private theorem countersBelow_of_values {manager : ConnectionManager}
    (h : (manager.endpoints.values.all fun e => decide (e.txCounter < u64Max)) = true) :
    CountersBelow manager := fun _ _ found =>
  of_decide_eq_true (List.all_eq_true.mp h _
    (List.mem_map_of_mem (OrdMap.get?_eq_some_iff.mp found)))

/-- The first packet is refused on the first link and written on the second all the same; the second
    packet has the next number. -/
theorem packet_fans_out_twice :
    ∃ manager outs mid routed next written,
      Run.run ManagerOp.apply (ConnectionManager.new (.v4 2130706433 0) 1 none 10000 100) fanOutOps =
        some (manager, outs) ∧
      (∃ next written, manager.handlePacketFromTun (.ipv4 167772161) [65] (fun _ index =>
          if index = 0 then .error .connectionRefused else .ok 20) = some (next, written) ∧
        FansOut 167772161 [65] (fun _ index => if index = 0 then .error .connectionRefused else .ok 20)
          manager next written) ∧
      Run.run (routing 2) manager [packetFromTun [65]] = some (mid, routed) ∧
      ManagerOp.apply mid (packetFromTun [66]) = some (next, written) ∧
      ∀ packet, .packet packet ∈ messagesTo 2 written → packet.seq.toNat = 0 + routed.length := by
  refine ⟨_, _, _, _, _, _, rfl, ?_, rfl, rfl, fun packet hpacket => ?_⟩
  · exact (packet_fans_out (.v4 2130706433 0) 1 none 10000 100 fanOutOps _ _ rfl
      (countersBelow_of_values (by decide))).1 167772161 [65] _
  · refine ((packet_fans_out (.v4 2130706433 0) 1 none 10000 100 fanOutOps _ _ rfl
      (countersBelow_of_values (by decide))).2 2 _ rfl [packetFromTun [65]] (packetFromTun [66])
      _ _ _ _ rfl rfl ?_ ?_ packet hpacket).1
    · exact Run.throughout_of_everyState (c := fun mid =>
        decide ((mid.endpoints.get? 2).map (·.sessionId) = some 7))
        (fun _ => of_decide_eq_true) (by decide)
    · exact Run.eachStep_of_everyStep (c := fun _ mid _ =>
        mid.endpoints.values.all fun e => decide (e.txCounter < u64Max))
        (fun _ _ _ => countersBelow_of_values) (by decide)

end MultiConnect
