/-
Module: MultiConnect.Proofs.Delivery
Layer: Proofs
Purpose: What a tunnel delivers, exactly. As long as no deadline expires on waiting packets, no arrival
  lies more than 100 numbers ahead of those that wait, and the sorted channel has room for what an
  arrival releases, everything that came out, followed by what lies in the channel, is the longest
  beginning of what was sent of which every packet has arrived on some connection: nothing is lost,
  repeated or put out of order by the receiver (`arrived_packets_come_out`).
Trusted boundary: bincode decodes what it encoded; a connected socket yields its peer's datagrams only
Main exports: arrivals, Unhindered, sorter_of_apply, arrived_packets_come_out
-/
import MultiConnect.Proofs.SorterEffects
import MultiConnect.Proofs.SorterReordering
import MultiConnect.Proofs.Tunnel

namespace MultiConnect

open ConnectionManager PacketSorter

/-! ### One operation on the sorter -/

/-- The channel can take the packets that are in sequence once the one that comes in is queued. -/
def HasRoom (sorter : PacketSorter) : SorterOp → Prop
  | .insertPacket pkt now =>
      sorter.sortedPacketQueue.items.length + (sorter.queuePacket pkt now).inSequence.length ≤ 1000
  | .advanceQueue _ => True
  | .awaitHaveNextPacket => True

section Sorter

variable {sorter next : PacketSorter} {now : Instant} {handed : List Handed}

/-- A queue drains into the channel when that has room for what is in sequence. -/
theorem Drained.all_sent (h : Drained sorter now next handed)
    (room : sorter.sortedPacketQueue.items.length + sorter.inSequence.length ≤
      sorter.sortedPacketQueue.capacity) : ∀ hand ∈ handed, hand.sent = true := by
  have hlength : handed.length = sorter.inSequence.length := by
    rw [← List.length_map (·.packet), h.packets, List.length_map]
  intro hand hmem
  obtain ⟨index, hindex, rfl⟩ := List.mem_iff_getElem.mp hmem
  have hsent : (handed.map (·.sent))[index]? = some handed[index].sent := by
    rw [List.getElem?_map, List.getElem?_eq_getElem hindex, Option.map_some]
  rw [h.sent, List.getElem?_map, List.getElem?_range hindex, Option.map_some] at hsent
  rw [← Option.some.inj hsent, decide_eq_true_eq]
  omega

/-- An operation within reach hands packets on only into a channel that has room. -/
theorem sent_of_sorterStep {op : SorterOp} {outs : List SorterOutput}
    (capacity : sorter.sortedPacketQueue.capacity = 1000) (reach : InReach sorter op)
    (room : HasRoom sorter op) (h : sorterStep sorter op = some (next, outs)) :
    ∀ hand ∈ handedPackets outs, hand.sent = true := by
  cases op with
  | insertPacket pkt at_ =>
      obtain ⟨-, rfl⟩ := Prod.mk.inj (Option.some.inj h)
      have haccepted : handedPackets (if accepts sorter pkt then [.accepted pkt] else []) = [] := by
        split <;> rfl
      rw [handedPackets_append, handedPackets_handed, haccepted, List.nil_append]
      by_cases notLate : sorter.nextSeq ≤ pkt.seq
      · have henter : sorter.enterQueue pkt at_ = (sorter.queuePacket pkt at_, []) := by
          rw [enterQueue, if_neg (by simp [not_isLargeJump_of_inReach reach])]
        simp only [insertPacket, if_pos notLate, henter, List.nil_append]
        refine (drained_enqueueSortedPackets (sorter.queuePacket pkt at_) at_).all_sent ?_
        exact capacity ▸ room
      · rw [insertPacket_of_late at_ (lt_of_not_ge notLate)]
        simp
  | advanceQueue at_ =>
      obtain ⟨-, rfl⟩ := Prod.mk.inj (Option.some.inj h)
      have hempty : sorter.packetQueue.first? = none := by
        simpa [InReach, OrdMap.isEmpty, OrdMap.first?] using reach
      rw [advanceQueue_of_empty at_ hempty, List.map_nil]
      exact List.forall_mem_nil _
  | awaitHaveNextPacket =>
      simp only [sorterStep] at h
      split at h <;> obtain ⟨-, rfl⟩ := Prod.mk.inj (Option.some.inj h) <;> simp [handedPackets]

/-- The timer of a sorter is no part of what it holds. -/
theorem SorterSound.retimed {history : List SorterOutput} (h : SorterSound sorter history)
    (timer : Timer) : SorterSound { sorter with deadlineTimer := timer } history :=
  ⟨h.ordered, h.keyed, h.settled, h.delivered⟩

end Sorter

/-! ### One operation on the receiver -/

section Receiver

variable {manager next : ConnectionManager} {op : ManagerOp} {outs : List Output} {k : EndpointId}
  {e e' : Endpoint}

/-- An operation that stands for no operation on the sorter of an endpoint leaves it alone, but for its
    timer. -/
theorem sorter_of_apply_idle (keyed : Keyed manager) (found : manager.endpoints.get? k = some e)
    (found' : next.endpoints.get? k = some e') (session : e'.sessionId = e.sessionId)
    (h : ManagerOp.apply manager op = some (next, outs)) (idle : ∀ sop, ¬ Sorts op k sop) :
    (∃ timer, e'.packetSorter = { e.packetSorter with deadlineTimer := timer }) ∧
      readFrom k outs = [] := by
  have hsteps := (decomposes_of_apply keyed h).steps k
  rw [found'] at hsteps
  rw [← readFrom_outputsFor]
  refine hsteps.kept (Q := fun now outs =>
    (∃ timer, now.packetSorter = { e.packetSorter with deadlineTimer := timer }) ∧
      readFrom k outs = []) found session ⟨⟨_, rfl⟩, rfl⟩ ?_
  rintro o last mid after before more ho hlast ⟨⟨timer, hsorter⟩, hsilent⟩ step hsame
  -- a step that leaves the sorter alone reads nothing
  have hkeeps : after.packetSorter = mid.packetSorter → readFrom k more = [] →
      (∃ timer, after.packetSorter = { e.packetSorter with deadlineTimer := timer }) ∧
        readFrom k (before ++ more) = [] := fun hkept hnone =>
    ⟨⟨timer, hkept.trans hsorter⟩, by rw [readFrom_append, hsilent, hnone, List.append_nil]⟩
  cases step with
  | install _ _ installs =>
      obtain rfl := Option.some.inj hlast
      exact absurd hsame.symm (installs mid ho).1
  | create => cases ho
  | remove => cases hlast
  | sort sorts => exact (idle _ sorts).elim
  | signal touched =>
      obtain rfl := Option.some.inj ho
      obtain rfl := Option.some.inj hlast
      exact hkeeps touched.packetSorter (readFrom_writes ..)
  | tunnel =>
      obtain rfl := Option.some.inj ho
      obtain rfl := Option.some.inj hlast
      exact hkeeps rfl (readFrom_writes ..)
  | switch =>
      obtain rfl := Option.some.inj ho
      obtain rfl := Option.some.inj hlast
      refine hkeeps ?_ rfl
      split <;> rfl
  | @fire _ fired _ =>
      obtain rfl := Option.some.inj ho
      obtain rfl := Option.some.inj hlast
      exact ⟨⟨fired, by rw [hsorter]⟩, by rw [readFrom_append, hsilent]; rfl⟩
  | acceptListening | acceptEstablished | dial | drop =>
      obtain rfl := Option.some.inj ho
      obtain rfl := Option.some.inj hlast
      exact hkeeps rfl rfl

/-- An operation performs on the sorter of an endpoint that stays exactly the operation that it stands
    for, if any. -/
theorem sorter_of_apply (keyed : Keyed manager) (found : manager.endpoints.get? k = some e)
    (found' : next.endpoints.get? k = some e') (session : e'.sessionId = e.sessionId)
    (h : ManagerOp.apply manager op = some (next, outs)) :
    (∃ sop sout, Sorts op k sop ∧ sorterStep e.packetSorter sop = some (e'.packetSorter, sout) ∧
      receivedPackets sout = readFrom k outs) ∨
    (∀ sop, ¬ Sorts op k sop) ∧
      (∃ timer, e'.packetSorter = { e.packetSorter with deadlineTimer := timer }) ∧
      readFrom k outs = [] := by
  by_cases hsorts : ∃ sop, Sorts op k sop
  · left
    obtain ⟨sop, sorts⟩ := hsorts
    cases sorts with
    | @packet readInfo packet openSocket ack now decoded =>
        obtain ⟨rfl, rfl⟩ : manager.setEndpoint readInfo.endpointId { e with
            packetSorter := (e.packetSorter.insertPacket packet now).1 } = next ∧ [] = outs := by
          simpa [ManagerOp.apply, handleEstablishedMessage, decoded, found] using h
        rw [setEndpoint, OrdMap.get?_insert_self] at found'
        obtain rfl := Option.some.inj found'
        refine ⟨_, _, .packet openSocket ack now decoded, rfl, ?_⟩
        rw [receivedPackets_append, receivedPackets_handed, List.append_nil]
        split <;> rfl
    | deadline id now =>
        obtain ⟨rfl, rfl⟩ : manager.setEndpoint k { e with
            packetSorter := (e.packetSorter.advanceQueue now).1 } = next ∧ [] = outs := by
          simpa [ManagerOp.apply, handlePacketSorterDeadline, found] using h
        rw [setEndpoint, OrdMap.get?_insert_self] at found'
        obtain rfl := Option.some.inj found'
        exact ⟨_, _, .deadline k now, rfl, receivedPackets_handed _⟩
    | read id =>
        obtain ⟨e₀, sorter, packet, found₀, hread, rfl, rfl⟩ := apply_awaitEndpointSortedPackets h
        obtain rfl := Option.some.inj (found.symm.trans found₀)
        rw [setEndpoint, OrdMap.get?_insert_self] at found'
        obtain rfl := Option.some.inj found'
        refine ⟨_, [.received packet], .read k, by rw [sorterStep, hread], ?_⟩
        rw [keyed k e found]
        exact (readFrom_sorted k [packet]).symm
  · have idle : ∀ sop, ¬ Sorts op k sop := fun sop sorts => hsorts ⟨sop, sorts⟩
    exact Or.inr ⟨idle, sorter_of_apply_idle keyed found found' session h idle⟩

end Receiver

/-! ### The tunnel -/

/-- The packet that an event brings to the receiver on a connection of the sender. -/
def arrivalOf (k : EndpointId) : TunnelEvent → Option Packet
  | .receiver (.handleEstablishedMessage readInfo ..) =>
      match readInfo.packetBytes with
      | some (.packet packet) => if readInfo.endpointId = k then some packet else none
      | _ => none
  | _ => none

/-- Every copy of a packet that arrived, in order of arrival. -/
def arrivals (k : EndpointId) (events : List TunnelEvent) : List Packet :=
  events.filterMap (arrivalOf k)

/-- The receiver keeps up: no deadline passes over a gap, no arrival is far ahead, and the sorted channel
    has room for what an arrival releases. -/
def Unhindered (senderId : EndpointId) (tunnel : Tunnel) (event : TunnelEvent) : Prop :=
  ∀ op e sop, event = .receiver op → tunnel.receiver.endpoints.get? senderId = some e →
    Sorts op senderId sop → InReach e.packetSorter sop ∧ HasRoom e.packetSorter sop

/-- The sorter operation that an operation stands for, at an endpoint. -/
def sorterOp (k : EndpointId) : ManagerOp → Option SorterOp
  | .handleEstablishedMessage ⟨some (.packet packet), _, _, endpointId⟩ _ _ now =>
      if endpointId = k then some (.insertPacket packet now) else none
  | .handlePacketSorterDeadline id now => if id = k then some (.advanceQueue now) else none
  | _ => none

instance (sorter : PacketSorter) : (sop : SorterOp) → Decidable (HasRoom sorter sop)
  | .insertPacket .. => Nat.decLe _ _
  | .advanceQueue _ => instDecidableTrue
  | .awaitHaveNextPacket => instDecidableTrue

/-- `Unhindered`, computed. -/
def keepsUp (senderId : EndpointId) (tunnel : Tunnel) : TunnelEvent → Bool
  | .receiver op =>
      match tunnel.receiver.endpoints.get? senderId, sorterOp senderId op with
      | some e, some sop => decide (InReach e.packetSorter sop) && decide (HasRoom e.packetSorter sop)
      | _, _ => true
  | .sender _ => true

theorem unhindered_of_keepsUp {senderId : EndpointId} {tunnel : Tunnel} {event : TunnelEvent}
    (h : keepsUp senderId tunnel event = true) : Unhindered senderId tunnel event := by
  rintro op e sop rfl found sorts
  have hchecks : sorterOp senderId op = some sop →
      InReach e.packetSorter sop ∧ HasRoom e.packetSorter sop := by
    intro hop
    simpa [keepsUp, found, hop] using h
  cases sorts with
  | @packet readInfo packet openSocket ack now decoded =>
      obtain ⟨packetBytes, sourceAddress, interfaceName, endpointId⟩ := readInfo
      obtain rfl : packetBytes = some (.packet packet) := decoded
      exact hchecks (if_pos rfl)
  | deadline => exact hchecks (if_pos rfl)
  | read => exact ⟨trivial, trivial⟩

section Arrivals

variable {k : EndpointId} {op : ManagerOp} {sop : SorterOp}

/-- What a sorter takes in is what arrives. -/
theorem insertedPackets_of_sorts (sorts : Sorts op k sop) :
    insertedPackets [sop] = arrivals k [.receiver op] := by
  cases sorts with
  | packet openSocket ack now decoded => simp [insertedPackets, arrivals, arrivalOf, decoded]
  | deadline | read => rfl

theorem arrivals_of_idle (idle : ∀ sop, ¬ Sorts op k sop) : arrivals k [.receiver op] = [] := by
  have hnone : arrivalOf k (.receiver op) = none := by
    unfold arrivalOf
    split
    · rename_i readInfo openSocket ack now heq
      obtain rfl := TunnelEvent.receiver.inj heq
      split
      · rename_i packet decoded
        refine if_neg fun hk => ?_
        subst hk
        exact idle _ (.packet openSocket ack now decoded)
      · rfl
    · rfl
  simp [arrivals, hnone]

theorem arrivals_sender (k : EndpointId) (op : ManagerOp) : arrivals k [.sender op] = [] := rfl

theorem mem_wire_of_arrives {wire : List Messages} {pkt : Packet}
    (carried : carries wire k op = true) (h : pkt ∈ arrivals k [.receiver op]) :
    .packet pkt ∈ wire := by
  by_cases hsorts : ∃ sop, Sorts op k sop
  · obtain ⟨sop, sorts⟩ := hsorts
    rw [← insertedPackets_of_sorts sorts] at h
    cases sorts with
    | packet openSocket ack now decoded =>
        obtain rfl : pkt = _ := by simpa [insertedPackets] using h
        exact mem_wire_of_sorts carried (.packet openSocket ack now decoded)
    | deadline | read => cases h
  · rw [arrivals_of_idle fun sop sorts => hsorts ⟨sop, sorts⟩] at h
    cases h

end Arrivals

/-- What an unhindered run keeps: the receiver's sorter has done exactly what the arrivals determine,
    and nothing was refused by its channel. -/
structure Flowing (senderId : EndpointId) (receiver : ConnectionManager) (arrived : List Packet)
    (outs : List TunnelOutput) : Prop where
  numbered : ∀ pkt ∈ arrived, Numbered outs pkt
  sorted : ∃ e history, receiver.endpoints.get? senderId = some e ∧
    SorterSound e.packetSorter history ∧ Exact arrived e.packetSorter (handedPackets history) ∧
    (∀ hand ∈ handedPackets history, hand.sent = true) ∧
    (receivedPackets history).map (·.bytes) = deliveredBytes outs

section Step

variable {senderId receiverId : EndpointId} {tunnel next : Tunnel} {op : ManagerOp}
  {outs more : List TunnelOutput} {arrived : List Packet}

/-- An operation of the sender does nothing to the receiver. -/
theorem flowing_sender (flowing : Flowing senderId tunnel.receiver arrived outs)
    (h : tunnelStep senderId receiverId tunnel (.sender op) = some (next, more)) :
    Flowing senderId next.receiver (arrived ++ arrivals senderId [.sender op]) (outs ++ more) := by
  simp only [tunnelStep] at h
  split at h
  · obtain ⟨rfl, rfl⟩ := Prod.mk.inj (Option.some.inj h)
    rw [arrivals_sender, List.append_nil]
    obtain ⟨e, history, found, hsound, hexact, hsent, hdelivered⟩ := flowing.sorted
    refine ⟨fun pkt hpkt => (flowing.numbered pkt hpkt).append _,
      ⟨e, history, found, hsound, hexact, hsent, ?_⟩⟩
    rw [deliveredBytes_append, deliveredBytes_sent, List.append_nil]
    exact hdelivered
  · cases h

/-- An operation of the receiver goes on exactly when it is unhindered. -/
theorem flowing_receiver (linked : Linked senderId receiverId tunnel outs)
    (flowing : Flowing senderId tunnel.receiver arrived outs)
    (kept : (next.receiver.endpoints.get? senderId).map (·.sessionId) =
      (tunnel.receiver.endpoints.get? senderId).map (·.sessionId))
    (few : (sentBytes outs).length < 2 ^ 64 - 1)
    (unhindered : Unhindered senderId tunnel (.receiver op))
    (h : tunnelStep senderId receiverId tunnel (.receiver op) = some (next, more)) :
    Flowing senderId next.receiver (arrived ++ arrivals senderId [.receiver op]) (outs ++ more) := by
  simp only [tunnelStep] at h
  split at h
  case isFalse => cases h
  rename_i carried
  split at h
  case h_2 => cases h
  rename_i receiver read happly
  obtain ⟨rfl, rfl⟩ := Prod.mk.inj (Option.some.inj h)
  obtain ⟨e, history, found, hsound, hexact, hsent, hdelivered⟩ := flowing.sorted
  obtain ⟨e', found', hsession⟩ := exists_of_map_sessionId kept found
  have hnumbered : ∀ pkt ∈ arrived ++ arrivals senderId [.receiver op], Numbered outs pkt := by
    intro pkt hpkt
    rcases List.mem_append.mp hpkt with hpkt | hpkt
    · exact flowing.numbered pkt hpkt
    · exact linked.numbered pkt (mem_wire_of_arrives carried hpkt)
  refine ⟨fun pkt hpkt => (hnumbered pkt hpkt).append _, ?_⟩
  rcases sorter_of_apply linked.receiverKeyed found found' hsession happly with
    ⟨sop, sout, sorts, hstep, hread⟩ | ⟨idle, ⟨timer, htimer⟩, hread⟩
  · obtain ⟨reach, room⟩ := unhindered op e sop rfl found sorts
    have hbounded : sop.Bounded := by
      cases sop with
      | insertPacket pkt now =>
          have hmem : pkt ∈ arrivals senderId [.receiver op] := by
            rw [← insertedPackets_of_sorts sorts]
            exact List.mem_singleton_self pkt
          have hlt := (List.getElem?_eq_some_iff.mp
            (hnumbered pkt (List.mem_append_right _ hmem))).1
          rw [SorterOp.Bounded, UInt64.lt_iff_toNat_lt, toNat_u64Max]
          omega
      | advanceQueue | awaitHaveNextPacket => trivial
    refine ⟨e', history ++ sout, found', sorterSound_step hsound hbounded hstep, ?_, ?_, ?_⟩
    · rw [← insertedPackets_of_sorts sorts]
      exact exact_step hexact hsound.keyed hbounded reach hstep
    · rw [handedPackets_append]
      exact List.forall_mem_append.mpr ⟨hsent,
        sent_of_sorterStep hsound.delivered.capacity reach room hstep⟩
    · rw [receivedPackets_append, List.map_append, hdelivered, hread, deliveredBytes_append,
        deliveredBytes_delivered]
  · refine ⟨e', history, found', ?_, ?_, hsent, ?_⟩
    · rw [htimer]
      exact hsound.retimed timer
    · rw [arrivals_of_idle idle, List.append_nil, htimer]
      exact ⟨hexact.handed, hexact.waiting⟩
    · rw [hread, List.map_nil, List.append_nil]
      exact hdelivered

end Step

/-- The run lemma: an unhindered run flows. -/
theorem flowing_run {senderId receiverId : EndpointId} {start final : Tunnel}
    {events : List TunnelEvent} {outs : List TunnelOutput}
    (fresh : FreshTunnel senderId receiverId start)
    (h : Run.run (tunnelStep senderId receiverId) start events = some (final, outs))
    (kept : Run.Throughout (tunnelStep senderId receiverId) (Kept senderId receiverId start) start
      events)
    (few : (sentBytes outs).length < 2 ^ 64 - 1)
    (unhindered : Run.EachStep (tunnelStep senderId receiverId) (fun _ => Unhindered senderId) start
      events) :
    Flowing senderId final.receiver (arrivals senderId events) outs := by
  refine Run.run_induction
    (C := fun past tunnel event => (∃ future, events = past ++ event :: future) ∧
      Unhindered senderId tunnel event)
    (P := fun past tunnel outs => (sentBytes outs).length < 2 ^ 64 - 1 →
      Flowing senderId tunnel.receiver (arrivals senderId past) outs) ?_ ?_ ?_ h few
  · intro _
    obtain ⟨x, hx, hseq, hqueue, hchannel⟩ := fresh.receiver
    refine ⟨by simp [arrivals], x, [], hx, sorterSound_of_fresh hseq hqueue hchannel, ⟨?_, ?_⟩,
      by simp [handedPackets], rfl⟩
    · rw [hseq]
      rfl
    · intro key
      rw [hqueue]
      split <;> rfl
  · rintro past event mid before next now hpast hmid ⟨⟨future, rfl⟩, hunhindered⟩ hstep few
    have hfew : (sentBytes before).length < 2 ^ 64 - 1 := by
      rw [sentBytes_append, List.length_append] at few
      omega
    have harrivals : arrivals senderId (past ++ [event]) =
        arrivals senderId past ++ arrivals senderId [event] := List.filterMap_append
    rw [harrivals]
    have hkept : Run.Throughout (tunnelStep senderId receiverId) (Kept senderId receiverId start)
        start past := fun first rest mid' before' heq =>
      kept first (rest ++ event :: future) mid' before' (by simp [heq])
    have hmidkept := kept past (event :: future) mid before rfl hpast
    have hnextkept := kept (past ++ [event]) future next (before ++ now) (by simp)
      (Run.run_concat_eq_some.mpr ⟨mid, before, now, hpast, hstep, rfl⟩)
    cases event with
    | sender op => exact flowing_sender (hmid hfew) hstep
    | receiver op =>
        exact flowing_receiver (linked_run fresh hkept hpast hfew) (hmid hfew)
          (hnextkept.receiver.trans hmidkept.receiver.symm) hfew hunhindered hstep
  · exact fun past event future mid before next now heq hrun hstep =>
      ⟨⟨future, heq⟩, unhindered past event future mid before next now heq hrun hstep⟩

/-- The packets handed on in order, and numbered by what was sent, are a beginning of it. -/
theorem map_eq_take {α β : Type} {f : α → β} {items : List α} {source : List β}
    (numbered : ∀ (index : Nat) (item : α), items[index]? = some item →
      source[index]? = some (f item)) :
    items.map f = source.take items.length := by
  refine List.ext_getElem? fun index => ?_
  rw [List.getElem?_map, List.getElem?_take]
  cases hitem : items[index]? with
  | none => rw [if_neg (by simpa using hitem), Option.map_none]
  | some item =>
      rw [if_pos (List.getElem?_eq_some_iff.mp hitem).1, numbered index item hitem, Option.map_some]

/-- An unhindered tunnel delivers what arrives: as long as no deadline passes over a gap, no arrival is
    more than 100 numbers ahead of what waits, and the sorted channel has room for what an arrival
    releases, what came out and what is ready to be read is the longest beginning of what was sent of
    which every packet has arrived, on whichever connection. Both endpoints keep their sessions, and the
    numbers do not run out. -/
theorem arrived_packets_come_out (senderId receiverId : EndpointId) (start final : Tunnel)
    (events : List TunnelEvent) (outs : List TunnelOutput)
    (fresh : FreshTunnel senderId receiverId start)
    (run : Run.run (tunnelStep senderId receiverId) start events = some (final, outs))
    (kept : Run.Throughout (tunnelStep senderId receiverId) (Kept senderId receiverId start) start
      events)
    (few : (sentBytes outs).length < 2 ^ 64 - 1)
    (unhindered : Run.EachStep (tunnelStep senderId receiverId) (fun _ => Unhindered senderId) start
      events) :
    ∃ e m, final.receiver.endpoints.get? senderId = some e ∧
      IsLeast { n | ∀ pkt ∈ arrivals senderId events, pkt.seq.toNat ≠ n } m ∧
      deliveredBytes outs ++ e.packetSorter.sortedPacketQueue.items.map (·.bytes) =
        (sentBytes outs).take m := by
  have flowing := flowing_run fresh run kept few unhindered
  obtain ⟨e, history, found, hsound, hexact, hsent, hdelivered⟩ := flowing.sorted
  have hreordered := hexact.exactlyReordered hsound
  refine ⟨e, _, found, hreordered.least, ?_⟩
  -- nothing was refused, so what was read and what lies in the channel is what was handed on
  have hfifo := hsound.delivered.fifo
  rw [List.filter_eq_self.mpr hsent] at hfifo
  rw [← hdelivered, ← List.map_append, hfifo]
  have hlength : ((handedPackets history).map (·.packet)).length =
      e.packetSorter.nextSeq.toNat := by
    simpa using congrArg List.length hreordered.handed_numbers
  rw [← hlength]
  refine map_eq_take fun index pkt hpkt => ?_
  have hfirst : some (some pkt) = ((List.range e.packetSorter.nextSeq.toNat).map
      (firstInserted (arrivals senderId events)))[index]? := by
    rw [← hreordered.handed, ← Function.comp_def some, ← List.map_map, List.getElem?_map, hpkt,
      Option.map_some]
  have hindex : index < e.packetSorter.nextSeq.toNat :=
    hlength ▸ (List.getElem?_eq_some_iff.mp hpkt).1
  rw [List.getElem?_map, List.getElem?_range hindex, Option.map_some] at hfirst
  obtain ⟨harrived, rfl⟩ := firstInserted_eq_some (Option.some.inj hfirst).symm
  exact flowing.numbered pkt harrived

/-- Two packets arrive in the wrong order, the second of them on two connections; one is read. -/
def sampleArrivals : List TunnelEvent :=
  let receive (packet : Packet) (port : UInt16) (now : Instant) : TunnelEvent :=
    .receiver (.handleEstablishedMessage ⟨some (.packet packet), .v4 2130706433 port,
      "DYN-interface", 1⟩ (fun _ _ => .error .other) (fun _ => .ok 20) now)
  [.sender (.handlePacketFromTun (.ipv4 167772161) [65] fun _ _ => .ok 20),
    .sender (.handlePacketFromTun (.ipv4 167772161) [66] fun _ _ => .ok 20),
    .sender (.handlePacketFromTun (.ipv4 167772161) [67] fun _ _ => .ok 20),
    receive ⟨1, 2, [66]⟩ 5000 3, receive ⟨1, 2, [66]⟩ 5001 4, receive ⟨0, 2, [65]⟩ 5000 5,
    .receiver (.awaitEndpointSortedPackets 1)]

theorem arrived_packets_come_out_reordered :
    ∃ final outs, Run.run (tunnelStep 1 2) sampleTunnel sampleArrivals = some (final, outs) ∧
      outs = [.sent [65], .sent [66], .sent [67], .delivered [65]] ∧
      ∃ e m, final.receiver.endpoints.get? 1 = some e ∧
        IsLeast { n | ∀ pkt ∈ arrivals 1 sampleArrivals, pkt.seq.toNat ≠ n } m ∧
        deliveredBytes outs ++ e.packetSorter.sortedPacketQueue.items.map (·.bytes) =
          (sentBytes outs).take m := by
  have fresh : FreshTunnel 1 2 sampleTunnel :=
    ⟨⟨_, _, _, _, _, sampleSender, _, (Option.some_get (by decide)).symm⟩,
      ⟨_, _, _, _, _, sampleReceiver, _, (Option.some_get (by decide)).symm⟩,
      ⟨_, rfl, rfl⟩,
      ⟨_, rfl, rfl, rfl, rfl⟩, fun _ => List.not_mem_nil⟩
  refine Run.exists_of_isSome (by decide) fun final outs run => ?_
  have houts : outs = [.sent [65], .sent [66], .sent [67], .delivered [65]] := by
    refine Option.some.inj ((congrArg (Option.map Prod.snd) run).symm.trans ?_)
    decide
  refine ⟨houts, arrived_packets_come_out 1 2 _ _ _ _ fresh run ?_ (by simp [houts, sentBytes]) ?_⟩
  · exact Run.throughout_of_everyState (c := fun tunnel => decide
        ((tunnel.sender.endpoints.get? 2).map (·.sessionId) = some 7 ∧
          (tunnel.receiver.endpoints.get? 1).map (·.sessionId) = some 7))
      (fun tunnel hkept => ⟨(of_decide_eq_true hkept).1, (of_decide_eq_true hkept).2⟩) (by decide)
  · exact Run.eachStep_of_everyStep (c := fun _ => keepsUp 1)
      (fun _ _ _ => unhindered_of_keepsUp) (by decide)

end MultiConnect
