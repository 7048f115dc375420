/-
Module: MultiConnect.Proofs.LoopsDrain
Layer: Proofs
Purpose: The event loops attend to every packet that waits (`loops_drain_sorters`). In each state that
  a loop reaches, a sorter that holds a packet belongs to an endpoint with a connection, which the loop
  builds its futures for, and its timer is armed while packets are queued. No connection is broken then,
  so the clean-up that ends an iteration changes nothing, and the sorter's own runs carry over to the
  loop: expiries alone empty its queue, and its channel is read in order. The links of a client are
  distinct, or the clean-up could leave a broken connection for the next iteration.
Trusted boundary: none
Main exports: PacketSorter.Idle, Attended, AllAttended, CleansUpAfter, Serving, DrainsInLoop,
  loops_drain_sorters
-/
import MultiConnect.Proofs.CleanUp
import MultiConnect.Proofs.Isolation
import MultiConnect.Proofs.SorterDrains

namespace MultiConnect

open ConnectionManager

/-! ### Sorters that are attended to -/

/-- The sorter holds no packet. -/
structure PacketSorter.Idle (sorter : PacketSorter) : Prop where
  queue : sorter.packetQueue.entries = []
  channel : sorter.sortedPacketQueue.items = []

/-- An endpoint whose sorter is steady, and idle unless there is a connection. -/
structure Attended (e : Endpoint) : Prop where
  steady : Steady e.packetSorter
  idle : e.connections = [] → e.packetSorter.Idle

def AllAttended (manager : ConnectionManager) : Prop :=
  ∀ k e, manager.endpoints.get? k = some e → Attended e

/-- A new sorter is steady and holds nothing. -/
theorem attended_new (id : EndpointId) (sessionId : Uuid) (packetSorterDeadline : UInt64)
    (now : Instant) : Attended (Endpoint.new id sessionId packetSorterDeadline now) where
  steady := steady_new _ _
  idle _ := ⟨rfl, rfl⟩

theorem Attended.of_same {e e' : Endpoint} (h : Attended e) (sorter : e'.packetSorter = e.packetSorter)
    (connections : e'.connections = [] → e.connections = []) : Attended e' where
  steady := sorter ▸ h.steady
  idle empty := sorter ▸ h.idle (connections empty)

/-- An idle sorter that takes nothing in stays idle. -/
theorem idle_sorterStep {sorter next : PacketSorter} {sop : SorterOp} {outs : List SorterOutput}
    (idle : sorter.Idle) (nothing : ∀ packet now, sop ≠ .insertPacket packet now)
    (h : sorterStep sorter sop = some (next, outs)) : next.Idle := by
  cases sop with
  | insertPacket packet now => exact absurd rfl (nothing packet now)
  | advanceQueue now =>
      obtain ⟨rfl, -⟩ := Prod.mk.inj (Option.some.inj h)
      rw [advanceQueue_of_empty now (OrdMap.first?_eq_none_iff.mpr idle.queue)]
      exact ⟨idle.queue, idle.channel⟩
  | awaitHaveNextPacket =>
      simp only [sorterStep] at h
      split at h
      · rename_i read packet hread
        obtain ⟨channel, hrecv, -⟩ := awaitHaveNextPacket_eq_some hread
        have hitems := (Channel.tryRecv_eq_some hrecv).1
        rw [idle.channel] at hitems
        cases hitems
      · obtain ⟨rfl, -⟩ := Prod.mk.inj (Option.some.inj h)
        exact idle

section Steps

variable {m₀ manager next : ConnectionManager} {op : ManagerOp} {k : EndpointId} {outs : List Output}

/-- A packet is sorted for the endpoint that it came in for, and that has a connection. -/
theorem connections_ne_nil_of_sorts {e : Endpoint} {packet : Packet} {now : Instant}
    (keyed : Keyed m₀) (reads : Reads m₀ op) (sorts : Sorts op k (.insertPacket packet now))
    (found : m₀.endpoints.get? k = some e) : e.connections ≠ [] := by
  cases sorts with
  | packet =>
      obtain ⟨id, index, packetBytes, hread⟩ := reads _ rfl
      obtain ⟨endpoint, entry, hfound, hentry, heq⟩ := awaitIncoming_eq_some hread
      subst heq
      have hid := keyed id endpoint hfound
      dsimp only at found
      rw [hid] at found
      obtain rfl := Option.some.inj (hfound.symm.trans found)
      exact List.ne_nil_of_mem (List.mem_of_getElem? hentry)

/-- The sorter of an endpoint is steady after every small step, and takes a packet in only while there
    is a connection. A timer that fires is looked at with the operation that follows it. -/
theorem attended_step {o o' : Option Endpoint} (keyed : Keyed m₀) (reads : Reads m₀ op)
    (stays : op.removes = false) (silent : ∀ id now, op ≠ .awaitPacketSorters id now)
    (step : EndpointStep m₀ op k o outs o') (h : ∀ e, o = some e → Attended e) :
    ∀ e', o' = some e' → Attended e' := by
  intro e' he'
  cases step with
  | signal touched =>
      obtain rfl := Option.some.inj he'
      exact (h _ rfl).of_same touched.packetSorter touched.connections_eq_nil.mp
  | install | create =>
      obtain rfl := Option.some.inj he'
      exact attended_new _ _ _ _
  | acceptListening | acceptEstablished | dial =>
      obtain rfl := Option.some.inj he'
      exact (h _ rfl).of_same rfl fun empty => by simp at empty
  | switch =>
      obtain rfl := Option.some.inj he'
      split <;> exact (h _ rfl).of_same rfl fun empty => List.map_eq_nil_iff.mp empty
  | tunnel =>
      obtain rfl := Option.some.inj he'
      exact (h _ rfl).of_same rfl fun empty => by simpa [Endpoint.tunnel, broadcast] using empty
  | sort sorts found sorted =>
      obtain rfl := Option.some.inj he'
      refine ⟨steady_step (h _ rfl).steady sorted, fun empty => ?_⟩
      refine idle_sorterStep ((h _ rfl).idle empty) ?_ sorted
      rintro packet now rfl
      exact connections_ne_nil_of_sorts keyed reads sorts found empty
  | fire hop => exact absurd hop (silent _ _)
  | drop removes => rw [stays] at removes; cases removes
  | remove => cases he'

/-- An endpoint that loses its last connection goes with its sorter. -/
theorem attended_of_removed {keys : EndpointId → List (String × SocketAddr)}
    (removed : ∀ k, next.endpoints.get? k =
      ((manager.endpoints.get? k).map (Endpoint.withoutKeys (keys k))).filter Endpoint.hasConnections)
    (attended : AllAttended manager) : AllAttended next := by
  intro k e' found
  rw [removed] at found
  obtain ⟨found, hconnections⟩ := Option.filter_eq_some_iff.mp found
  obtain ⟨e, hold, rfl⟩ := Option.map_eq_some_iff.mp found
  refine ⟨(attended k e hold).steady, fun empty => ?_⟩
  simp [Endpoint.hasConnections, empty] at hconnections

theorem attended_removeDisconnected (attended : AllAttended manager) :
    AllAttended manager.removeDisconnected := by
  by_cases broken : manager.disconnected = []
  · rw [removeDisconnected, broken]
    exact attended
  · exact attended_of_removed (fun k => get?_removeDisconnected broken) attended

theorem attended_of_apply (keyed : Keyed manager) (reads : Reads manager op)
    (silent : ∀ id now, op ≠ .awaitPacketSorters id now) (attended : AllAttended manager)
    (h : ManagerOp.apply manager op = some (next, outs)) : AllAttended next := by
  cases stays : op.removes with
  | false =>
      intro k
      exact ((decomposes_of_apply keyed h).steps k).invariant
        (P := fun o _ => ∀ e, o = some e → Attended e)
        (fun _ _ _ _ hmid step => attended_step keyed reads stays silent step hmid) (attended k)
  | true =>
      cases op with
      | removeConnection id interfaceName address =>
          obtain ⟨rfl, -⟩ := Prod.mk.inj (Option.some.inj h)
          exact attended_of_removed (fun k => get?_removeConnection (id, interfaceName, address))
            attended
      | removeDisconnected =>
          obtain ⟨rfl, -⟩ := Prod.mk.inj (Option.some.inj h)
          exact attended_removeDisconnected attended
      | _ => cases stays

/-- Operations none of which lets a sorter timer fire. -/
theorem attended_run {ops : List ManagerOp} (keyed : Keyed manager)
    (reads : Run.EachStep ManagerOp.apply (fun _ => Reads) manager ops)
    (silent : ∀ op ∈ ops, ∀ id now, op ≠ .awaitPacketSorters id now) (attended : AllAttended manager)
    (h : Run.run ManagerOp.apply manager ops = some (next, outs)) : AllAttended next := by
  refine (Run.run_induction
    (C := fun _ mid op => Reads mid op ∧ ∀ id now, op ≠ .awaitPacketSorters id now)
    (P := fun _ mid _ => Keyed mid ∧ AllAttended mid) ⟨keyed, attended⟩ ?_ ?_ h).2
  · intro _ op mid _ after _ _ hmid hop hstep
    exact ⟨keyed_of_apply hmid.1 hstep, attended_of_apply hmid.1 hop.1 hop.2 hmid.2 hstep⟩
  · intro past op future mid before after now heq hrun hstep
    exact ⟨reads past op future mid before after now heq hrun hstep, silent op (by simp [heq])⟩

end Steps

/-! ### What an event leads to -/

section Event

variable {manager : ConnectionManager} {k : EndpointId} {e : Endpoint}

theorem setEndpoint_setEndpoint (manager : ConnectionManager) (k : EndpointId) (e e' : Endpoint) :
    (manager.setEndpoint k e).setEndpoint k e' = manager.setEndpoint k e' := by
  rw [setEndpoint, setEndpoint, setEndpoint, OrdMap.insert_insert]

theorem keyed_setEndpoint (keyed : Keyed manager) (id : e.id = k) : Keyed (manager.setEndpoint k e) := by
  intro k' e' found
  rw [setEndpoint, OrdMap.get?_insert] at found
  split at found
  · rename_i hk
    obtain rfl := Option.some.inj found
    exact id.trans hk.symm
  · exact keyed k' e' found

theorem setEndpoint_self (found : manager.endpoints.get? k = some e) :
    manager.setEndpoint k e = manager := by
  rw [setEndpoint, OrdMap.insert_of_get? found]

/-- When the deadline of an endpoint with connections has come, its sorter expires and nothing else
    changes. -/
theorem ops_packetSorter {now : Instant} {sorter : PacketSorter} {handed : List Handed}
    (keyed : Keyed manager) (found : manager.endpoints.get? k = some e) (connected : e.connections ≠ [])
    (expires : e.packetSorter.expire now = some (sorter, handed)) :
    ∃ ops, LoopEvent.ops manager (.packetSorter k now) = some ops ∧
      Run.run ManagerOp.apply manager ops =
        some (manager.setEndpoint k { e with packetSorter := sorter }, []) := by
  obtain ⟨fired, hfired, hadvance⟩ := Option.map_eq_some_iff.mp expires
  have hawait : manager.awaitPacketSorters k now =
      some (manager.setEndpoint k { e with packetSorter := fired }, k) := by
    rw [awaitPacketSorters, found]
    simp [Endpoint.hasConnections, connected, Endpoint.awaitPacketSorterDeadline, hfired,
      keyed k e found]
  have hget : (manager.setEndpoint k { e with packetSorter := fired }).endpoints.get? k =
      some { e with packetSorter := fired } := OrdMap.get?_insert_self ..
  refine ⟨_, by rw [LoopEvent.ops, hawait, Option.map_some], Run.run_cons_eq_some.mpr
    ⟨manager.setEndpoint k { e with packetSorter := fired }, [], [], ?_, ?_, rfl⟩⟩
  · rw [ManagerOp.apply, hawait, Option.map_some]
  · rw [Run.run_singleton, ManagerOp.apply, handlePacketSorterDeadline, hget]
    dsimp only
    rw [setEndpoint_setEndpoint, hadvance]

/-- When a packet is ready, it is read and nothing else changes. -/
theorem ops_newSortedPacket {packet : Packet} {channel : Channel Packet} (keyed : Keyed manager)
    (found : manager.endpoints.get? k = some e) (connected : e.connections ≠ [])
    (ready : e.packetSorter.sortedPacketQueue.tryRecv = some (packet, channel)) :
    ∃ ops, LoopEvent.ops manager (.newSortedPacket k (.ok ())) = some ops ∧
      Run.run ManagerOp.apply manager ops = some (manager.setEndpoint k { e with
        packetSorter := { e.packetSorter with sortedPacketQueue := channel } }, [.sorted k packet]) := by
  have hawait : manager.awaitEndpointSortedPackets k = some (manager.setEndpoint k { e with
      packetSorter := { e.packetSorter with sortedPacketQueue := channel } }, k, packet) := by
    rw [awaitEndpointSortedPackets, found]
    simp [Endpoint.hasConnections, connected, Endpoint.awaitSortedPacket,
      PacketSorter.awaitHaveNextPacket, ready, keyed k e found]
  exact ⟨_, rfl, by rw [Run.run_singleton, ManagerOp.apply, hawait, Option.map_some]⟩

end Event

/-! ### Iterations that serve a sorter -/

/-- An iteration of a loop with an event of both loops. -/
abbrev LoopStep := ConnectionManager → LoopEvent → Option (ConnectionManager × List Output)

/-- While there are endpoints, the loop performs the operations of an event and cleans up. -/
def CleansUpAfter (step : LoopStep) : Prop :=
  ∀ manager event ops mid outs, manager.hasEndpoints = true → event.ops manager = some ops →
    Run.run ManagerOp.apply manager ops = some (mid, outs) →
    step manager event = some (mid.removeDisconnected, outs)

theorem cleansUpAfter_server : CleansUpAfter fun manager event => serverStep manager (.loop event) :=
  fun _ _ _ _ _ => serverStep_loop

theorem cleansUpAfter_client (settings : ClientSettings) :
    CleansUpAfter fun manager event => clientStep settings manager (.loop event) :=
  fun _ _ _ _ _ => clientStep_loop settings

/-- A manager that holds an endpoint with connections, none of them broken. -/
structure Serving (manager : ConnectionManager) (k : EndpointId) (e : Endpoint) : Prop where
  keyed : Keyed manager
  clean : NoneDisconnected manager
  found : manager.endpoints.get? k = some e
  connected : e.connections ≠ []

section Serve

variable {step : LoopStep} {manager : ConnectionManager} {k : EndpointId} {e : Endpoint}

theorem hasEndpoints_of_get? (found : manager.endpoints.get? k = some e) :
    manager.hasEndpoints = true := by
  by_contra hnone
  rw [hasEndpoints_eq_false.mp (by simpa using hnone) k] at found
  cases found

/-- What the sorter does leaves the connections as they are. -/
theorem Serving.setSorter (serving : Serving manager k e) (sorter : PacketSorter) :
    Serving (manager.setEndpoint k { e with packetSorter := sorter }) k
      { e with packetSorter := sorter } where
  keyed := keyed_setEndpoint serving.keyed (serving.keyed k e serving.found)
  clean := by
    intro k' entry hentry
    rw [connectionsOf_setEndpoint] at hentry
    split at hentry
    · exact serving.clean k entry (by rwa [connectionsOf_of_get? serving.found])
    · exact serving.clean k' entry hentry
  found := OrdMap.get?_insert_self ..
  connected := serving.connected

/-- An iteration that only moves a sorter on finds nothing to clean up. -/
theorem Serving.step_eq {event : LoopEvent} {sorter : PacketSorter} {ops : List ManagerOp}
    {outs : List Output} (serving : Serving manager k e) (loop : CleansUpAfter step)
    (hops : event.ops manager = some ops)
    (h : Run.run ManagerOp.apply manager ops =
      some (manager.setEndpoint k { e with packetSorter := sorter }, outs)) :
    step manager event = some (manager.setEndpoint k { e with packetSorter := sorter }, outs) := by
  rw [loop manager event ops _ outs (hasEndpoints_of_get? serving.found) hops h,
    removeDisconnected_of_none (serving.setSorter sorter).clean]

/-- The iterations of a loop that wait for a sorter follow the expiries of the sorter. -/
theorem Serving.expiries {instants : List Instant} {sorter : PacketSorter} {handed : List Handed}
    (serving : Serving manager k e) (loop : CleansUpAfter step)
    (h : Run.run PacketSorter.expire e.packetSorter instants = some (sorter, handed)) :
    Run.run step manager (instants.map (LoopEvent.packetSorter k)) =
      some (manager.setEndpoint k { e with packetSorter := sorter }, []) := by
  induction instants generalizing manager e handed with
  | nil =>
      obtain ⟨rfl, -⟩ := Prod.mk.inj (Option.some.inj h)
      rw [List.map_nil, Run.run_nil]
      exact congrArg (fun manager => some (manager, [])) (setEndpoint_self serving.found).symm
  | cons now rest ih =>
      obtain ⟨mid, first, others, hexpire, hrest, -⟩ := Run.run_cons_eq_some.mp h
      obtain ⟨ops, hops, hrun⟩ :=
        ops_packetSorter serving.keyed serving.found serving.connected hexpire
      have hfollow := ih (serving.setSorter mid) hrest
      rw [setEndpoint_setEndpoint] at hfollow
      exact Run.run_cons_eq_some.mpr ⟨_, [], [], serving.step_eq loop hops hrun, hfollow, rfl⟩

/-- The iterations of a loop that wait for sorted packets bring out the packets of the channel. -/
theorem Serving.reads {packets : List Packet} (serving : Serving manager k e)
    (loop : CleansUpAfter step) (ready : e.packetSorter.sortedPacketQueue.items = packets) :
    ∃ channel, channel.items = [] ∧
      Run.run step manager (packets.map fun _ => .newSortedPacket k (.ok ())) =
        some (manager.setEndpoint k { e with
          packetSorter := { e.packetSorter with sortedPacketQueue := channel } },
          packets.map (.sorted k)) := by
  induction packets generalizing manager e with
  | nil =>
      refine ⟨_, ready, ?_⟩
      rw [List.map_nil, Run.run_nil]
      exact congrArg (fun manager => some (manager, [])) (setEndpoint_self serving.found).symm
  | cons packet rest ih =>
      obtain ⟨left, hrecv, hleft⟩ := Channel.tryRecv_of_cons ready
      obtain ⟨ops, hops, hrun⟩ :=
        ops_newSortedPacket serving.keyed serving.found serving.connected hrecv
      obtain ⟨channel, hempty, hfollow⟩ := ih
        (serving.setSorter { e.packetSorter with sortedPacketQueue := left }) hleft
      rw [setEndpoint_setEndpoint] at hfollow
      exact ⟨channel, hempty,
        Run.run_cons_eq_some.mpr ⟨_, _, _, serving.step_eq loop hops hrun, hfollow, rfl⟩⟩

end Serve

/-! ### Runs of the loops -/

section Loops

variable {manager next : ConnectionManager} {ops : List ManagerOp} {outs : List Output}

/-- The one event that lets a sorter timer fire advances the queue in the same iteration, so that the
    timer is set again. -/
theorem attended_of_loopEvent {event : LoopEvent} (keyed : Keyed manager)
    (attended : AllAttended manager) (hops : event.ops manager = some ops)
    (h : Run.run ManagerOp.apply manager ops = some (next, outs)) : AllAttended next := by
  by_cases hsorter : ∃ id now, event = .packetSorter id now
  · obtain ⟨id, now, rfl⟩ := hsorter
    obtain ⟨⟨fired, endpointId⟩, hawait, -⟩ := Option.map_eq_some_iff.mp hops
    obtain ⟨e, found, due, -, -⟩ := awaitPacketSorters_eq_some hawait
    have hconnected : e.connections ≠ [] := by
      intro empty
      rw [awaitPacketSorters, found] at hawait
      simp [Endpoint.hasConnections, empty] at hawait
    have hexpire := expire_of_isDue due
    obtain ⟨performed, hperformed, hrun⟩ := ops_packetSorter keyed found hconnected hexpire
    obtain rfl := Option.some.inj (hops.symm.trans hperformed)
    obtain ⟨rfl, -⟩ := Prod.mk.inj (Option.some.inj (h.symm.trans hrun))
    intro k e' found'
    rw [setEndpoint, OrdMap.get?_insert] at found'
    split at found'
    · obtain rfl := Option.some.inj found'
      exact ⟨steady_expire (attended id e found).steady hexpire,
        fun empty => absurd empty hconnected⟩
    · exact attended k e' found'
  · refine attended_run keyed (reads_of_loopEvent hops) (fun op hop id now heq => hsorter ?_) attended h
    subst heq
    cases event with
    | packetSorter id now => exact ⟨id, now, rfl⟩
    | newEstablishedMessage | connectionTimeout =>
        obtain ⟨awaited, -, rfl⟩ := Option.map_eq_some_iff.mp hops
        simp at hop
    | newSortedPacket id tunSent =>
        cases tunSent with
        | error => cases hops
        | ok =>
            obtain rfl := Option.some.inj hops
            simp at hop
    | establishedError | tunnelPacket | tunnelError | duplicationMessage =>
        obtain rfl := Option.some.inj hops
        simp at hop

theorem attended_removing {loopOps : List ManagerOp}
    (attended : ∀ mid first, Run.run ManagerOp.apply manager loopOps = some (mid, first) →
      AllAttended mid)
    (h : Run.run ManagerOp.apply manager (loopOps ++ [.removeDisconnected]) = some (next, outs)) :
    AllAttended next := by
  obtain ⟨mid, first, last, hloop, hremove, -⟩ := Run.run_concat_eq_some.mp h
  obtain ⟨rfl, -⟩ := Prod.mk.inj (Option.some.inj hremove)
  exact attended_removeDisconnected (attended mid first hloop)

theorem attended_serverStep {event : ServerEvent} (keyed : Keyed manager)
    (attended : AllAttended manager) (h : serverStep manager event = some (next, outs)) :
    AllAttended next := by
  obtain ⟨ops, hops, hrun⟩ := serverStep_eq_some.mp h
  have hplain : (∀ op ∈ ops, op.reading = none ∧ ∀ id now, op ≠ .awaitPacketSorters id now) →
      AllAttended next := fun plain =>
    attended_run keyed (Run.eachStep_of_forall fun op hop _ => reads_of_unread (plain op hop).1)
      (fun op hop => (plain op hop).2) attended hrun
  rcases ops_of_serverEvent hops with ⟨_, _, _, _, _, _, rest, -, hrest, rfl⟩ |
    ⟨loopEvent, loopOps, -, hloop, rfl⟩ | rfl
  · refine hplain fun op hop => ?_
    rcases List.mem_cons.mp hop with rfl | hop
    · simp [ManagerOp.reading]
    · simp [hrest op hop, ManagerOp.reading]
  · exact attended_removing (fun _ _ => attended_of_loopEvent keyed attended hloop) hrun
  · exact hplain (by simp [ManagerOp.reading])

theorem attended_clientStep {settings : ClientSettings} {event : ClientEvent} (keyed : Keyed manager)
    (attended : AllAttended manager) (h : clientStep settings manager event = some (next, outs)) :
    AllAttended next := by
  obtain ⟨ops, hops, hrun⟩ := clientStep_eq_some.mp h
  have hplain : (∀ op ∈ ops, op.reading = none ∧ ∀ id now, op ≠ .awaitPacketSorters id now) →
      AllAttended next := fun plain =>
    attended_run keyed (Run.eachStep_of_forall fun op hop _ => reads_of_unread (plain op hop).1)
      (fun op hop => (plain op hop).2) attended hrun
  rcases ops_of_clientEvent hops with ⟨loopEvent, loopOps, -, hloop, rfl⟩ |
    ⟨sends, dials, -, rfl⟩ | ⟨dials, -, rfl⟩
  · exact attended_removing (fun _ _ => attended_of_loopEvent keyed attended hloop) hrun
  · exact hplain (by simp [ManagerOp.reading])
  · refine hplain fun op hop => ?_
    obtain ⟨attempt, -, rfl⟩ := List.mem_map.mp hop
    simp [ManagerOp.reading]

/-- No connection is broken when the loop of the server waits for its next event, except after the hello
    that found no endpoint: then no sorter holds a packet yet. -/
def CleanOrIdle (manager : ConnectionManager) : Prop :=
  NoneDisconnected manager ∨ ∀ k e, manager.endpoints.get? k = some e → e.packetSorter.Idle

/-- The first hello of a server leaves every sorter idle. -/
theorem idle_firstHello {message : Option Messages} {sourceAddress : SocketAddr}
    {interfaceName : String} {openSocket : OpenSocket} {firstAck lastAck : Nat → SendResult}
    {now : Instant} (absent : ∀ k, manager.endpoints.get? k = none)
    (h : ManagerOp.apply manager (.handleHello message sourceAddress interfaceName openSocket firstAck
      lastAck now) = some (next, outs)) :
    ∀ k e, next.endpoints.get? k = some e → e.packetSorter.Idle := by
  have keyed : Keyed manager := fun k e found => by
    rw [absent] at found
    cases found
  intro k
  refine ((decomposes_of_apply keyed h).steps k).invariant
    (P := fun o _ => ∀ e, o = some e → e.packetSorter.Idle) ?_ (fun e found => by
      rw [absent] at found
      cases found)
  intro mid before more after hmid step e' he'
  cases step with
  | signal touched =>
      obtain rfl := Option.some.inj he'
      exact touched.packetSorter ▸ hmid _ rfl
  | install =>
      obtain rfl := Option.some.inj he'
      exact ⟨rfl, rfl⟩
  | acceptListening =>
      obtain rfl := Option.some.inj he'
      have idle := hmid _ rfl
      exact idle
  -- the other small steps are not those of a hello on the listening socket
  | acceptEstablished hop | switch hop | tunnel hop | fire hop => cases hop
  | create dials | dial dials => cases dials
  | sort sorts => cases sorts
  | drop removes | remove removes => cases removes

/-- With endpoints the clean-up finds every broken connection; the first hello is not followed by one.
    -/
theorem cleanOrIdle_serverStep {event : ServerEvent} (keyed : Keyed manager)
    (identified : ServerIdentified manager) (h : serverStep manager event = some (next, outs)) :
    CleanOrIdle next := by
  obtain ⟨ops, hops, hrun⟩ := serverStep_eq_some.mp h
  rcases serverOps_cases hops with ⟨hhas, -⟩ |
    ⟨hnone, message, source, openSocket, firstAck, lastAck, now, rfl, rfl⟩
  · refine Or.inl ((noneDisconnected_serverStep keyed identified h).mpr ?_)
    exact acknowledgesFirst_of_hasEndpoints hhas
  · rw [Run.run_singleton] at hrun
    exact Or.inr (idle_firstHello (hasEndpoints_eq_false.mp hnone) hrun)

/-- What is known of the server when its loop waits for an event. -/
structure ServerInOrder (manager : ConnectionManager) : Prop where
  keyed : Keyed manager
  identified : ServerIdentified manager
  attended : AllAttended manager
  cleanOrIdle : CleanOrIdle manager

theorem serverInOrder_step {event : ServerEvent} (order : ServerInOrder manager)
    (h : serverStep manager event = some (next, outs)) : ServerInOrder next where
  keyed := keyed_serverStep order.keyed h
  identified := serverIdentified_serverStep order.keyed order.identified h
  attended := attended_serverStep order.keyed order.attended h
  cleanOrIdle := cleanOrIdle_serverStep order.keyed order.identified h

/-- What is known of a client with distinct links when its loop waits for an event. -/
structure ClientInOrder (settings : ClientSettings) (manager : ConnectionManager) : Prop where
  keyed : Keyed manager
  identified : ClientIdentified settings manager
  attended : AllAttended manager
  clean : NoneDisconnected manager

theorem clientInOrder_step {settings : ClientSettings} {event : ClientEvent}
    (distinct : settings.Distinct) (order : ClientInOrder settings manager)
    (h : clientStep settings manager event = some (next, outs)) : ClientInOrder settings next where
  keyed := keyed_clientStep order.keyed h
  identified := clientIdentified_clientStep distinct order.keyed order.identified h
  attended := attended_clientStep order.keyed order.attended h
  clean := (noneDisconnected_clientStep order.clean h).mpr
    (clientCleansUp_of_distinct distinct order.keyed order.identified)

/-- A client whose first links are open. -/
theorem clientInOrder_main {config : ClientConfig} {dials : Nat → Dial} {client : ConnectionManager}
    (distinct : config.toClientSettings.Distinct) (h : clientMain config dials = some (client, outs)) :
    ClientInOrder config.toClientSettings client := by
  unfold clientMain at h
  split at h
  · rename_i start hstart
    obtain ⟨tunnel, localAddress, -, rfl⟩ := clientManager_eq_some hstart
    have hnew := keyed_new localAddress config.peerId (some (config.announced tunnel))
      config.connectionTimeout config.packetSorterDeadline
    have hopened := (clientStart_eq_some h).1
    refine ⟨keyed_run hnew hopened, clientIdentified_restart distinct (fun k => rfl) hopened,
      attended_run hnew (Run.eachStep_of_forall fun op hop _ => ?_) (fun op hop => ?_)
        (fun k e found => ?_) hopened,
      noneDisconnected_restart (noneDisconnected_new _ _ _ _ _) hopened⟩
    · obtain ⟨attempt, -, rfl⟩ := List.mem_map.mp hop
      exact reads_of_unread rfl
    · obtain ⟨attempt, -, rfl⟩ := List.mem_map.mp hop
      simp
    · cases found
  · cases h

end Loops

/-- What a sorter that holds packets meets in a loop. The loop builds its futures for the endpoint, and
    the timer is armed while packets are queued. Every run of expiries is one of iterations of the loop,
    which change nothing else and drain the sorter; some such run, of no more expiries than packets are
    queued, empties the queue. Iterations that read alone bring out the packets that the channel holds,
    in order. -/
structure DrainsInLoop (step : LoopStep) (manager : ConnectionManager) (k : EndpointId) (e : Endpoint) :
    Prop where
  awaited : e ∈ manager.awaited
  armed : e.packetSorter.packetQueue.entries ≠ [] → e.packetSorter.deadlineTimer.willFire = true
  expires : ∀ instants sorter handed,
    Run.run PacketSorter.expire e.packetSorter instants = some (sorter, handed) →
      Run.run step manager (instants.map (LoopEvent.packetSorter k)) =
        some (manager.setEndpoint k { e with packetSorter := sorter }, []) ∧
      DrainedBy e.packetSorter instants.length sorter handed
  empties : ∃ instants sorter handed, instants.length ≤ e.packetSorter.getQueueLength ∧
    Run.run PacketSorter.expire e.packetSorter instants = some (sorter, handed) ∧
    sorter.packetQueue.entries = []
  reads : ∃ channel, channel.items = [] ∧
    Run.run step manager
        (e.packetSorter.sortedPacketQueue.items.map fun _ => .newSortedPacket k (.ok ())) =
      some (manager.setEndpoint k { e with
        packetSorter := { e.packetSorter with sortedPacketQueue := channel } },
        e.packetSorter.sortedPacketQueue.items.map (.sorted k))

/-- In a manager whose connections all work, what the sorter does is what the loop does. -/
theorem drainsInLoop {step : LoopStep} {manager : ConnectionManager} {k : EndpointId} {e : Endpoint}
    (loop : CleansUpAfter step) (serving : Serving manager k e) (steady : Steady e.packetSorter) :
    DrainsInLoop step manager k e := by
  refine ⟨?_, steady.armed, fun instants sorter handed h =>
    ⟨serving.expiries loop h, drainedBy_run steady h⟩, exists_drained steady, serving.reads loop rfl⟩
  refine List.mem_filter.mpr ⟨?_, by simpa [Endpoint.hasConnections] using serving.connected⟩
  exact List.mem_map.mpr ⟨(k, e), OrdMap.get?_eq_some_iff.mp serving.found, rfl⟩

/-- In every state that the loop of the server reaches, or that of a client whose links are distinct, a
    sorter that holds packets is attended to, and iterations of this loop drain it. -/
theorem loops_drain_sorters :
    (∀ settings server, serverMain settings = some server → ∀ events manager outs,
      Run.run serverStep server events = some (manager, outs) → ∀ k e,
        manager.endpoints.get? k = some e → ¬ e.packetSorter.Idle →
          DrainsInLoop (fun mid event => serverStep mid (.loop event)) manager k e) ∧
    ∀ config dials client first, config.toClientSettings.Distinct →
      clientMain config dials = some (client, first) → ∀ events manager outs,
        Run.run (clientStep config.toClientSettings) client events = some (manager, outs) → ∀ k e,
          manager.endpoints.get? k = some e → ¬ e.packetSorter.Idle →
            DrainsInLoop (fun mid event => clientStep config.toClientSettings mid (.loop event))
              manager k e := by
  constructor
  · intro settings server begins events manager outs hrun k e found holds
    obtain ⟨tunnel, -, rfl⟩ := serverMain_eq_some begins
    have order : ServerInOrder manager := Run.run_invariant (P := ServerInOrder)
      (fun _ _ _ _ hmid hstep => serverInOrder_step hmid hstep)
      ⟨keyed_new _ _ _ _ _, fun _ => Identified.nil _, nofun, .inl (noneDisconnected_new _ _ _ _ _)⟩
      hrun
    have hattended := order.attended k e found
    have hclean := order.cleanOrIdle.resolve_right fun idle => holds (idle k e found)
    exact drainsInLoop cleansUpAfter_server
      ⟨order.keyed, hclean, found, mt hattended.idle holds⟩ hattended.steady
  · intro config dials client first distinct begins events manager outs hrun k e found holds
    have order : ClientInOrder config.toClientSettings manager :=
      Run.run_invariant (P := ClientInOrder config.toClientSettings)
        (fun _ _ _ _ hmid hstep => clientInOrder_step distinct hmid hstep)
        (clientInOrder_main distinct begins) hrun
    have hattended := order.attended k e found
    exact drainsInLoop (cleansUpAfter_client _)
      ⟨order.keyed, order.clean, found, mt hattended.idle holds⟩ hattended.steady

/-- After its hello a client sends the packets 0, 1 and 5. -/
private def gapAtServer : List ServerEvent :=
  .newConnection (some (.hello ⟨154, 7, none, 0⟩)) (.v4 2130706433 5000)
      (fun _ _ => .ok (.v4 2130706434 40000)) (fun _ => .ok 20) (fun _ => .ok 20) 0 ::
    [0, 1, 5].map fun seq => .loop (.newEstablishedMessage 154 0 (some (.packet ⟨seq, 154, [69]⟩))
      (fun _ _ => .ok (.v4 2130706434 40000)) (fun _ => .ok 20) 9)

private def gapAtClient : List ClientEvent :=
  [0, 1, 5].map fun seq => .loop (.newEstablishedMessage 1 0 (some (.packet ⟨seq, 1, [69]⟩))
    (fun _ _ => .ok (.v4 2130706434 40000)) (fun _ => .ok 20) 9)

private def dialledLink : ClientConfig where
  interfaces := [⟨"eth0", .v4 2130706433 0, .v4 2130706434 40000⟩]
  serverId := 1
  peerId := 154
  tunnelConfig := ⟨.v4 167772162, 4294967295⟩
  staticRoutes := []
  connectionTimeout := 10000
  packetSorterDeadline := 100

theorem loops_drain_sorters_gap :
    (∃ server manager outs e, serverMain relayDeployment.server = some server ∧
      Run.run serverStep server gapAtServer = some (manager, outs) ∧
      manager.endpoints.get? 154 = some e ∧ e.packetSorter.waitingPackets = [⟨5, 154, [69]⟩] ∧
      DrainsInLoop (fun mid event => serverStep mid (.loop event)) manager 154 e) ∧
    ∃ client first manager outs e, clientMain dialledLink
        (fun _ => ⟨.bound, .ok (), .ok (.v4 2130706433 5000), 7, .ok 20, 0⟩) = some (client, first) ∧
      Run.run (clientStep dialledLink.toClientSettings) client gapAtClient = some (manager, outs) ∧
      manager.endpoints.get? 1 = some e ∧ e.packetSorter.waitingPackets = [⟨5, 1, [69]⟩] ∧
      DrainsInLoop (fun mid event => clientStep dialledLink.toClientSettings mid (.loop event))
        manager 1 e := by
  have hholds : ∀ {sorter : PacketSorter} {packet : Packet}, sorter.waitingPackets = [packet] →
      ¬ sorter.Idle := by
    intro sorter packet hwaiting idle
    rw [PacketSorter.waitingPackets, idle.queue] at hwaiting
    cases hwaiting
  constructor
  · have hrun : ((serverMain relayDeployment.server).bind fun server =>
        (Run.run serverStep server gapAtServer).bind fun reached =>
          (reached.1.endpoints.get? 154).map fun e => e.packetSorter.waitingPackets) =
        some [⟨5, 154, [69]⟩] := by decide
    obtain ⟨server, begins, hrest⟩ := Option.bind_eq_some_iff.mp hrun
    obtain ⟨⟨manager, outs⟩, hreached, hrest⟩ := Option.bind_eq_some_iff.mp hrest
    obtain ⟨e, found, hwaiting⟩ := Option.map_eq_some_iff.mp hrest
    exact ⟨server, manager, outs, e, begins, hreached, found, hwaiting,
      loops_drain_sorters.1 _ server begins _ manager outs hreached 154 e found (hholds hwaiting)⟩
  · have distinct : dialledLink.toClientSettings.Distinct := by
      unfold ClientSettings.Distinct
      decide
    have hrun : ((clientMain dialledLink
          (fun _ => ⟨.bound, .ok (), .ok (.v4 2130706433 5000), 7, .ok 20, 0⟩)).bind fun started =>
        (Run.run (clientStep dialledLink.toClientSettings) started.1 gapAtClient).bind fun reached =>
          (reached.1.endpoints.get? 1).map fun e => e.packetSorter.waitingPackets) =
        some [⟨5, 1, [69]⟩] := by decide
    obtain ⟨⟨client, first⟩, begins, hrest⟩ := Option.bind_eq_some_iff.mp hrun
    obtain ⟨⟨manager, outs⟩, hreached, hrest⟩ := Option.bind_eq_some_iff.mp hrest
    obtain ⟨e, found, hwaiting⟩ := Option.map_eq_some_iff.mp hrest
    exact ⟨client, first, manager, outs, e, begins, hreached, found, hwaiting,
      loops_drain_sorters.2 dialledLink _ client first distinct begins _ manager outs hreached 1 e
        found (hholds hwaiting)⟩

end MultiConnect
