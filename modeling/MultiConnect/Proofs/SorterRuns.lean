/-
Module: MultiConnect.Proofs.SorterRuns
Layer: Proofs
Purpose: Whole runs of a packet sorter: insertions, deadline expiries and channel reads in any order.
  The sorter refines the abstract reorder buffer (`refines_reorder`): each operation is a sequence of
  abstract steps. Order and conservation of the packets come from the abstract invariant; what reaches
  the channel and what is lost is followed beside it.
Trusted boundary: none
Main exports: SorterOp, SorterOutput, sorterStep, view, WellKeyed, refines_reorder, SorterSound,
  sorterSound_run, ConservesAndOrders, sorter_conserves_and_orders
-/
import MultiConnect.Library.Reorder
import MultiConnect.PacketSorter

namespace MultiConnect

open PacketSorter

/-! ### Runs of a sorter -/

/-- What can happen to a sorter. The instants are those of the clock at the time of the call. -/
inductive SorterOp where
  | insertPacket (pkt : Packet) (now : Instant)
  | advanceQueue (now : Instant)
  | awaitHaveNextPacket
deriving DecidableEq

/-- What a run shows: packets let into the queue, packets handed to the channel, packets read. -/
inductive SorterOutput where
  | accepted (pkt : Packet)
  | handed (handed : Handed)
  | received (pkt : Packet)
deriving DecidableEq

/-- A packet is accepted when it is not late and its number does not wait already. -/
def accepts (sorter : PacketSorter) (pkt : Packet) : Bool :=
  sorter.nextSeq ≤ pkt.seq && !sorter.packetQueue.contains pkt.seq

/-- One operation. A read from an empty channel waits, so nothing happens. -/
def sorterStep (sorter : PacketSorter) : SorterOp → Option (PacketSorter × List SorterOutput)
  | .insertPacket pkt now =>
      some ((sorter.insertPacket pkt now).1,
        (if accepts sorter pkt then [.accepted pkt] else []) ++
          (sorter.insertPacket pkt now).2.map .handed)
  | .advanceQueue now =>
      some ((sorter.advanceQueue now).1, (sorter.advanceQueue now).2.map .handed)
  | .awaitHaveNextPacket =>
      match sorter.awaitHaveNextPacket with
      | some (next, pkt) => some (next, [.received pkt])
      | none => some (sorter, [])

theorem sorterStep_total (sorter : PacketSorter) (op : SorterOp) :
    ∃ next now, sorterStep sorter op = some (next, now) := by
  cases op with
  | insertPacket pkt now => exact ⟨_, _, rfl⟩
  | advanceQueue now => exact ⟨_, _, rfl⟩
  | awaitHaveNextPacket =>
      simp only [sorterStep]
      split <;> exact ⟨_, _, rfl⟩

/-- The packets accepted so far. -/
def acceptedPackets (outs : List SorterOutput) : List Packet :=
  outs.filterMap fun | .accepted pkt => some pkt | _ => none

/-- The packets handed to the channel so far. -/
def handedPackets (outs : List SorterOutput) : List Handed :=
  outs.filterMap fun | .handed handed => some handed | _ => none

/-- The packets read from the channel so far. -/
def receivedPackets (outs : List SorterOutput) : List Packet :=
  outs.filterMap fun | .received pkt => some pkt | _ => none

/-- The packets that the operations of a run insert, in order. -/
def insertedPackets (ops : List SorterOp) : List Packet :=
  ops.filterMap fun | .insertPacket pkt _ => some pkt | _ => none

@[simp] theorem acceptedPackets_append (xs ys : List SorterOutput) :
    acceptedPackets (xs ++ ys) = acceptedPackets xs ++ acceptedPackets ys :=
  List.filterMap_append

@[simp] theorem handedPackets_append (xs ys : List SorterOutput) :
    handedPackets (xs ++ ys) = handedPackets xs ++ handedPackets ys :=
  List.filterMap_append

@[simp] theorem receivedPackets_append (xs ys : List SorterOutput) :
    receivedPackets (xs ++ ys) = receivedPackets xs ++ receivedPackets ys :=
  List.filterMap_append

@[simp] theorem insertedPackets_append (xs ys : List SorterOp) :
    insertedPackets (xs ++ ys) = insertedPackets xs ++ insertedPackets ys :=
  List.filterMap_append

@[simp] theorem acceptedPackets_handed (handed : List Handed) :
    acceptedPackets (handed.map .handed) = [] := by
  induction handed with
  | nil => rfl
  | cons head rest ih => simp [acceptedPackets]

@[simp] theorem handedPackets_handed (handed : List Handed) :
    handedPackets (handed.map .handed) = handed := by
  induction handed with
  | nil => rfl
  | cons head rest ih => simp [handedPackets]

@[simp] theorem receivedPackets_handed (handed : List Handed) :
    receivedPackets (handed.map .handed) = [] := by
  induction handed with
  | nil => rfl
  | cons head rest ih => simp [receivedPackets]

/-! ### The sorter refines the reorder buffer -/

/-- The sorter as an abstract reorder buffer, given what was accepted and handed on so far. -/
def view (sorter : PacketSorter) (accepted : List Packet) (handed : List Handed) :
    Reorder.State UInt64 Packet where
  floor := sorter.nextSeq
  waiting := sorter.packetQueue.mapVals fun _ queued => queued.packet
  released := handed.map fun h => (h.packet.seq, h.packet)
  accepted := accepted.map fun pkt => (pkt.seq, pkt)

/-- Every packet waits under its own number, and no number is the last of all. -/
def WellKeyed (sorter : PacketSorter) : Prop :=
  ∀ entry ∈ sorter.packetQueue.entries, entry.2.packet.seq = entry.1 ∧ entry.1 < u64Max

theorem mem_waiting {sorter : PacketSorter} {accepted : List Packet} {handed : List Handed}
    {entry : UInt64 × Packet} :
    entry ∈ (view sorter accepted handed).waiting.entries ↔
      ∃ queued, (entry.1, queued) ∈ sorter.packetQueue.entries ∧ queued.packet = entry.2 := by
  obtain ⟨number, pkt⟩ := entry
  simp [view, OrdMap.mapVals]

/-- The number after one that is not the last is larger, and no number lies between. -/
theorem lt_succ_of_lt_max {n : UInt64} (h : n < u64Max) : n < n + 1 := by
  unfold u64Max at h
  grind

theorem succ_le_of_lt {n m : UInt64} (h : n < m) : n + 1 ≤ m := by grind

/-- Handing on the next packet is one abstract release. -/
theorem release_of_handsNext {sorter next : PacketSorter} {handed : Handed}
    (accepted : List Packet) (out : List Handed) (keyed : WellKeyed sorter)
    (hands : HandsNext sorter next handed) :
    Reorder.Step (view sorter accepted out) (view next accepted (out ++ [handed])) ∧
      WellKeyed next := by
  obtain ⟨queued, hfirst, hpacket⟩ := hands.first
  obtain ⟨hseq, hmax⟩ := keyed _ (OrdMap.mem_of_first? hfirst)
  constructor
  · have hview : view next accepted (out ++ [handed]) =
        { view sorter accepted out with
          floor := sorter.nextSeq + 1
          waiting := (view sorter accepted out).waiting.popFirst
          released := (view sorter accepted out).released ++ [(sorter.nextSeq, queued.packet)] } := by
      have hseq : queued.packet.seq = sorter.nextSeq := hseq
      simp [view, hands.nextSeq, hands.queue, OrdMap.mapVals_popFirst, hpacket, hseq]
    rw [hview]
    refine Reorder.Step.release queued.packet (sorter.nextSeq + 1) ?_ (lt_succ_of_lt_max hmax) ?_
    · simp [view, OrdMap.first?_mapVals, hfirst]
    · intro entry hmem
      rw [view, ← OrdMap.mapVals_popFirst] at hmem
      obtain ⟨other, hother, rfl⟩ := List.mem_map.mp hmem
      exact succ_le_of_lt (OrdMap.first?_lt hfirst hother)
  · intro entry hmem
    rw [hands.queue] at hmem
    exact keyed entry (OrdMap.mem_of_mem_popFirst hmem)

/-- Skipping to the first waiting number is one abstract skip. -/
theorem skip_to_first {sorter : PacketSorter} {key : UInt64} {queued : QueuedPacket}
    {accepted : List Packet} {out : List Handed}
    (ordered : Reorder.Ordered (view sorter accepted out))
    (first : sorter.packetQueue.first? = some (key, queued)) :
    Reorder.Step (view sorter accepted out)
      (view { sorter with nextSeq := key } accepted out) := by
  have hwaits : (key, queued.packet) ∈ (view sorter accepted out).waiting.entries :=
    mem_waiting.mpr ⟨queued, OrdMap.mem_of_first? first, rfl⟩
  refine Reorder.Step.skip (s := view sorter accepted out) key (ordered.ahead _ hwaits) ?_
  intro entry hmem
  obtain ⟨other, hother, -⟩ := mem_waiting.mp hmem
  exact OrdMap.first?_le first hother

/-- The small steps of an operation, seen abstractly from a state `start` on. -/
theorem steps_induction {start : Reorder.State UInt64 Packet} (ordered : Reorder.Ordered start)
    (accepted : List Packet) :
    let P := fun sorter out =>
      Reorder.Steps start (view sorter accepted out) ∧ WellKeyed sorter
    (∀ sorter next handed out, P sorter out → HandsNext sorter next handed →
      P next (out ++ [handed])) ∧
    (∀ sorter key queued out, P sorter out →
      sorter.packetQueue.first? = some (key, queued) →
      P { sorter with nextSeq := key } out) ∧
    ∀ sorter timer out, P sorter out → P { sorter with deadlineTimer := timer } out := by
  refine ⟨?_, ?_, fun _ _ _ h => h⟩
  · intro sorter next handed out ⟨hsteps, hkeyed⟩ hands
    obtain ⟨hstep, hnext⟩ := release_of_handsNext accepted out hkeyed hands
    exact ⟨hsteps.tail hstep, hnext⟩
  · intro sorter key queued out ⟨hsteps, hkeyed⟩ hfirst
    exact ⟨hsteps.tail (skip_to_first (ordered.steps hsteps) hfirst), hkeyed⟩

theorem steps_advanceQueue {sorter : PacketSorter} {accepted : List Packet} {out : List Handed}
    (now : Instant) (ordered : Reorder.Ordered (view sorter accepted out))
    (keyed : WellKeyed sorter) :
    Reorder.Steps (view sorter accepted out)
        (view (sorter.advanceQueue now).1 accepted (out ++ (sorter.advanceQueue now).2)) ∧
      WellKeyed (sorter.advanceQueue now).1 := by
  obtain ⟨hands, skips, rearms⟩ := steps_induction ordered accepted
  exact advanceQueue_induction hands skips rearms now ⟨.refl, keyed⟩

/-- Queueing a packet that is not late is one abstract acceptance, or nothing when it is a copy. -/
theorem steps_queuePacket {sorter : PacketSorter} {pkt : Packet} (accepted : List Packet)
    (out : List Handed) (now : Instant) (keyed : WellKeyed sorter) (bounded : pkt.seq < u64Max)
    (notLate : sorter.nextSeq ≤ pkt.seq) :
    Reorder.Steps (view sorter accepted out)
        (view (sorter.queuePacket pkt now)
          (accepted ++ if accepts sorter pkt then [pkt] else []) out) ∧
      WellKeyed (sorter.queuePacket pkt now) := by
  cases hwaits : sorter.packetQueue.get? pkt.seq with
  | some queued =>
      have hcontains : sorter.packetQueue.contains pkt.seq = true :=
        OrdMap.contains_iff.mpr ⟨queued, hwaits⟩
      have hsame : sorter.queuePacket pkt now = sorter := by
        rw [queuePacket, OrdMap.orInsert_of_contains _ hcontains]
      simp only [hsame, accepts, hcontains]
      exact ⟨by simpa using Relation.ReflTransGen.refl, keyed⟩
  | none =>
      have habsent : accepts sorter pkt = true := by
        simp [accepts, notLate, OrdMap.contains, hwaits]
      have hqueue : sorter.queuePacket pkt now =
          { sorter with packetQueue := sorter.packetQueue.insert pkt.seq ⟨pkt, now⟩ } := by
        rw [queuePacket, OrdMap.orInsert_of_get?_none _ hwaits]
      constructor
      · have haccept : Reorder.Step (view sorter accepted out)
            { view sorter accepted out with
              waiting := (view sorter accepted out).waiting.insert pkt.seq pkt
              accepted := (view sorter accepted out).accepted ++ [(pkt.seq, pkt)] } := by
          refine Reorder.Step.accept pkt.seq pkt notLate ?_
          simp [view, OrdMap.get?_mapVals, hwaits]
        refine Relation.ReflTransGen.single ?_
        convert haccept using 1
        simp [view, hqueue, habsent, OrdMap.mapVals_insert]
      · intro entry hmem
        rw [hqueue] at hmem
        rcases OrdMap.mem_insertEntry hmem with rfl | hmem
        · exact ⟨rfl, bounded⟩
        · exact keyed entry hmem

theorem steps_insertPacket {sorter : PacketSorter} {accepted : List Packet} {out : List Handed}
    {pkt : Packet} (now : Instant) (ordered : Reorder.Ordered (view sorter accepted out))
    (keyed : WellKeyed sorter) (bounded : pkt.seq < u64Max) :
    Reorder.Steps (view sorter accepted out)
        (view (sorter.insertPacket pkt now).1
          (accepted ++ if accepts sorter pkt then [pkt] else [])
          (out ++ (sorter.insertPacket pkt now).2)) ∧
      WellKeyed (sorter.insertPacket pkt now).1 := by
  by_cases notLate : sorter.nextSeq ≤ pkt.seq
  · obtain ⟨hands, skips, rearms⟩ := steps_induction ordered
      (accepted ++ if accepts sorter pkt then [pkt] else [])
    exact insertPacket_induction hands skips rearms now notLate
      (steps_queuePacket accepted out now keyed bounded notLate)
  · have hrefused : accepts sorter pkt = false := by simp [accepts, notLate]
    rw [insertPacket_of_late now (lt_of_not_ge notLate), hrefused]
    exact ⟨by simpa using Relation.ReflTransGen.refl, keyed⟩

/-- Sequence numbers below `u64::MAX`, the only ones whose successor exists. -/
def SorterOp.Bounded : SorterOp → Prop
  | .insertPacket pkt _ => pkt.seq < u64Max
  | .advanceQueue _ => True
  | .awaitHaveNextPacket => True

instance (op : SorterOp) : Decidable op.Bounded := by
  cases op <;> unfold SorterOp.Bounded <;> infer_instance

/-- Refinement: an operation of the sorter is a sequence of steps of the reorder buffer. -/
theorem refines_reorder {sorter next : PacketSorter} {op : SorterOp}
    {outs now : List SorterOutput}
    (ordered : Reorder.Ordered (view sorter (acceptedPackets outs) (handedPackets outs)))
    (keyed : WellKeyed sorter) (bounded : op.Bounded)
    (hstep : sorterStep sorter op = some (next, now)) :
    Reorder.Steps (view sorter (acceptedPackets outs) (handedPackets outs))
        (view next (acceptedPackets (outs ++ now)) (handedPackets (outs ++ now))) ∧
      WellKeyed next := by
  cases op with
  | insertPacket pkt at_ =>
      obtain ⟨rfl, rfl⟩ := Prod.mk.inj (Option.some.inj hstep)
      have haccepted : acceptedPackets (if accepts sorter pkt then [.accepted pkt] else []) =
          if accepts sorter pkt then [pkt] else [] := by split <;> rfl
      have hhanded : handedPackets (if accepts sorter pkt then [.accepted pkt] else []) = [] := by
        split <;> rfl
      simpa [haccepted, hhanded] using steps_insertPacket at_ ordered keyed bounded
  | advanceQueue at_ =>
      obtain ⟨rfl, rfl⟩ := Prod.mk.inj (Option.some.inj hstep)
      simpa using steps_advanceQueue at_ ordered keyed
  | awaitHaveNextPacket =>
      simp only [sorterStep, PacketSorter.awaitHaveNextPacket] at hstep
      split at hstep
      · rename_i after pkt hread
        obtain ⟨rfl, rfl⟩ := Prod.mk.inj (Option.some.inj hstep)
        split at hread
        · obtain ⟨rfl, rfl⟩ := Prod.mk.inj (Option.some.inj hread)
          exact ⟨by simpa [acceptedPackets, handedPackets, view] using Relation.ReflTransGen.refl,
            keyed⟩
        · cases hread
      · obtain ⟨rfl, rfl⟩ := Prod.mk.inj (Option.some.inj hstep)
        exact ⟨by simpa using Relation.ReflTransGen.refl, keyed⟩

/-! ### What reaches the channel -/

/-- What was read and what the channel still holds are the handed packets that were sent, in order, and
    a handed packet is lost only to a channel that holds its 1000 packets. -/
structure Delivered (channel : Channel Packet) (handed : List Handed) (received : List Packet) :
    Prop where
  capacity : channel.capacity = 1000
  fifo : received ++ channel.items = (handed.filter (·.sent)).map (·.packet)
  lost : ∀ h ∈ handed, h.sent = false → h.backlog = 1000

theorem Delivered.hands {sorter next : PacketSorter} {handed : Handed} {out : List Handed}
    {received : List Packet} (h : Delivered sorter.sortedPacketQueue out received)
    (hands : HandsNext sorter next handed) :
    Delivered next.sortedPacketQueue (out ++ [handed]) received where
  capacity := hands.capacity.trans h.capacity
  fifo := by
    rw [hands.channel, ← List.append_assoc, h.fifo]
    cases hsent : handed.sent <;> simp [hsent]
  lost := by
    intro one hmem hsent
    rcases List.mem_append.mp hmem with hmem | hmem
    · exact h.lost one hmem hsent
    · rw [List.mem_singleton.mp hmem] at hsent ⊢
      exact (hands.lost hsent).trans h.capacity

theorem Delivered.receives {sorter next : PacketSorter} {pkt : Packet} {out : List Handed}
    {received : List Packet} (h : Delivered sorter.sortedPacketQueue out received)
    (hread : sorter.awaitHaveNextPacket = some (next, pkt)) :
    Delivered next.sortedPacketQueue out (received ++ [pkt]) := by
  unfold awaitHaveNextPacket at hread
  split at hread
  · rename_i first channel hrecv
    obtain ⟨rfl, rfl⟩ := Prod.mk.inj (Option.some.inj hread)
    obtain ⟨hitems, hcapacity⟩ := Channel.tryRecv_eq_some hrecv
    refine ⟨hcapacity.trans h.capacity, ?_, h.lost⟩
    rw [← h.fifo, hitems, List.append_assoc]
    rfl
  · cases hread

/-- Only the inserted packet can be accepted. -/
theorem eq_insertPacket_of_accepted {sorter next : PacketSorter} {op : SorterOp}
    {now : List SorterOutput} {pkt : Packet} (hstep : sorterStep sorter op = some (next, now))
    (h : pkt ∈ acceptedPackets now) : ∃ at_, op = .insertPacket pkt at_ := by
  cases op with
  | insertPacket inserted at_ =>
      obtain ⟨rfl, rfl⟩ := Prod.mk.inj (Option.some.inj hstep)
      rw [acceptedPackets_append, acceptedPackets_handed, List.append_nil] at h
      split at h
      · obtain rfl : pkt = inserted := by simpa [acceptedPackets] using h
        exact ⟨at_, rfl⟩
      · cases h
  | advanceQueue at_ =>
      obtain ⟨rfl, rfl⟩ := Prod.mk.inj (Option.some.inj hstep)
      simp at h
  | awaitHaveNextPacket =>
      simp only [sorterStep] at hstep
      split at hstep <;> obtain ⟨rfl, rfl⟩ := Prod.mk.inj (Option.some.inj hstep) <;>
        simp [acceptedPackets] at h

/-! ### The invariant of a run -/

/-- Everything that holds of a sorter and its history between two operations. -/
structure SorterSound (sorter : PacketSorter) (outs : List SorterOutput) : Prop where
  ordered : Reorder.Ordered (view sorter (acceptedPackets outs) (handedPackets outs))
  keyed : WellKeyed sorter
  settled : sorter.Settled
  delivered : Delivered sorter.sortedPacketQueue (handedPackets outs) (receivedPackets outs)

theorem sorterSound_of_fresh {sorter : PacketSorter} (nextSeq : sorter.nextSeq = 0)
    (queue : sorter.packetQueue = OrdMap.empty)
    (channel : sorter.sortedPacketQueue = Channel.withCapacity 1000) : SorterSound sorter [] where
  ordered := by
    rw [view, nextSeq, queue]
    exact Reorder.Ordered.initial 0
  keyed := by simp [WellKeyed, queue, OrdMap.empty]
  settled := by simp [Settled, queue, OrdMap.empty, OrdMap.first?]
  delivered := by
    rw [channel]
    exact ⟨rfl, rfl, by simp [handedPackets]⟩

theorem sorterSound_new (deadline : Duration) (now : Instant) :
    SorterSound (PacketSorter.new deadline now) [] :=
  sorterSound_of_fresh rfl rfl rfl

theorem settled_step {sorter next : PacketSorter} {op : SorterOp} {now : List SorterOutput}
    (settled : sorter.Settled) (hstep : sorterStep sorter op = some (next, now)) : next.Settled := by
  cases op with
  | insertPacket pkt at_ =>
      obtain ⟨rfl, -⟩ := Prod.mk.inj (Option.some.inj hstep)
      exact insertPacket_settled pkt at_ settled
  | advanceQueue at_ =>
      obtain ⟨rfl, -⟩ := Prod.mk.inj (Option.some.inj hstep)
      exact advanceQueue_settled sorter at_
  | awaitHaveNextPacket =>
      simp only [sorterStep, PacketSorter.awaitHaveNextPacket] at hstep
      split at hstep
      · rename_i after pkt hread
        obtain ⟨rfl, -⟩ := Prod.mk.inj (Option.some.inj hstep)
        split at hread
        · obtain ⟨rfl, -⟩ := Prod.mk.inj (Option.some.inj hread)
          exact settled
        · cases hread
      · obtain ⟨rfl, -⟩ := Prod.mk.inj (Option.some.inj hstep)
        exact settled

theorem delivered_step {sorter next : PacketSorter} {op : SorterOp} {outs now : List SorterOutput}
    (h : Delivered sorter.sortedPacketQueue (handedPackets outs) (receivedPackets outs))
    (hstep : sorterStep sorter op = some (next, now)) :
    Delivered next.sortedPacketQueue (handedPackets (outs ++ now)) (receivedPackets (outs ++ now)) := by
  have hands : ∀ (sorter next : PacketSorter) handed out,
      Delivered sorter.sortedPacketQueue out (receivedPackets outs) → HandsNext sorter next handed →
      Delivered next.sortedPacketQueue (out ++ [handed]) (receivedPackets outs) :=
    fun _ _ _ _ h hands => h.hands hands
  cases op with
  | insertPacket pkt at_ =>
      obtain ⟨rfl, rfl⟩ := Prod.mk.inj (Option.some.inj hstep)
      have hhanded : handedPackets (if accepts sorter pkt then [.accepted pkt] else []) = [] := by
        split <;> rfl
      have hreceived : receivedPackets (if accepts sorter pkt then [.accepted pkt] else []) = [] := by
        split <;> rfl
      simp only [handedPackets_append, receivedPackets_append, handedPackets_handed,
        receivedPackets_handed, hhanded, hreceived, List.nil_append, List.append_nil]
      by_cases notLate : sorter.nextSeq ≤ pkt.seq
      · exact insertPacket_induction
          (P := fun s out => Delivered s.sortedPacketQueue out (receivedPackets outs))
          hands (fun _ _ _ _ h _ => h) (fun _ _ _ h => h) at_ notLate h
      · rw [insertPacket_of_late at_ (lt_of_not_ge notLate), List.append_nil]
        exact h
  | advanceQueue at_ =>
      obtain ⟨rfl, rfl⟩ := Prod.mk.inj (Option.some.inj hstep)
      simp only [handedPackets_append, receivedPackets_append, handedPackets_handed,
        receivedPackets_handed, List.append_nil]
      exact advanceQueue_induction
        (P := fun s out => Delivered s.sortedPacketQueue out (receivedPackets outs))
        hands (fun _ _ _ _ h _ => h) (fun _ _ _ h => h) at_ h
  | awaitHaveNextPacket =>
      simp only [sorterStep] at hstep
      split at hstep
      · rename_i after pkt hread
        obtain ⟨rfl, rfl⟩ := Prod.mk.inj (Option.some.inj hstep)
        simpa [handedPackets, receivedPackets] using h.receives hread
      · obtain ⟨rfl, rfl⟩ := Prod.mk.inj (Option.some.inj hstep)
        simpa using h

theorem sorterSound_step {sorter next : PacketSorter} {op : SorterOp} {outs now : List SorterOutput}
    (h : SorterSound sorter outs) (bounded : op.Bounded)
    (hstep : sorterStep sorter op = some (next, now)) : SorterSound next (outs ++ now) := by
  obtain ⟨hsteps, hkeyed⟩ := refines_reorder h.ordered h.keyed bounded hstep
  exact ⟨h.ordered.steps hsteps, hkeyed, settled_step h.settled hstep,
    delivered_step h.delivered hstep⟩

theorem sorterSound_run {deadline : Duration} {start : Instant} {ops : List SorterOp}
    {sorter : PacketSorter} {outs : List SorterOutput} (bounded : ∀ op ∈ ops, op.Bounded)
    (hrun : Run.run sorterStep (PacketSorter.new deadline start) ops = some (sorter, outs)) :
    SorterSound sorter outs := by
  refine Run.run_induction (C := fun _ _ op => op.Bounded) (P := fun _ => SorterSound)
    (sorterSound_new deadline start) ?_ ?_ hrun
  · intro past op mid before next now _ hsound hbounded hstep
    exact sorterSound_step hsound hbounded hstep
  · intro past op future mid before next now heq _ _
    exact bounded op (by simp [heq])

/-- Between two operations every waiting number is strictly ahead of `nextSeq`. -/
theorem SorterSound.lt_of_mem_keys {sorter : PacketSorter} {outs : List SorterOutput}
    (h : SorterSound sorter outs) {key : UInt64} (hkey : key ∈ sorter.packetQueue.keys) :
    sorter.nextSeq < key := by
  obtain ⟨⟨_, queued⟩, hmem, rfl⟩ := List.mem_map.mp hkey
  refine lt_of_le_of_ne (h.ordered.ahead (_, queued.packet) (mem_waiting.mpr ⟨queued, hmem, rfl⟩)) ?_
  intro heq
  cases hfirst : sorter.packetQueue.first? with
  | none => simp [OrdMap.first?_eq_none_iff.mp hfirst] at hmem
  | some first =>
      have hle : first.1 ≤ sorter.nextSeq := heq ▸ OrdMap.first?_le hfirst hmem
      have hge : sorter.nextSeq ≤ first.1 := h.ordered.ahead (first.1, first.2.packet)
        (mem_waiting.mpr ⟨first.2, OrdMap.mem_of_first? hfirst, rfl⟩)
      exact h.settled first.2 (by rw [hfirst, le_antisymm hge hle])

/-- What a run's history says about the sorter it led to: the waiting numbers are ahead, the packets
    handed on are in order and passed by, every accepted packet either waits or was handed on once,
    and a handed packet is lost only to a channel that holds its 1000 packets. -/
structure ConservesAndOrders (sorter : PacketSorter) (outs : List SorterOutput) : Prop where
  ahead : ∀ key ∈ sorter.packetQueue.keys, sorter.nextSeq < key
  increasing : ((handedPackets outs).map (·.packet.seq)).Pairwise (· < ·)
  passed : ∀ handed ∈ handedPackets outs, handed.packet.seq < sorter.nextSeq
  conserved : ((handedPackets outs).map (·.packet) ++
    sorter.packetQueue.values.map (·.packet)).Perm (acceptedPackets outs)
  once : ((acceptedPackets outs).map (·.seq)).Nodup
  lost : ∀ handed ∈ handedPackets outs, handed.sent = false → handed.backlog = 1000
  fifo : receivedPackets outs ++ sorter.sortedPacketQueue.items =
    ((handedPackets outs).filter (·.sent)).map (·.packet)

theorem SorterSound.conservesAndOrders {sorter : PacketSorter} {outs : List SorterOutput}
    (h : SorterSound sorter outs) : ConservesAndOrders sorter outs where
  ahead _ := h.lt_of_mem_keys
  increasing := by
    have hincreasing : ((handedPackets outs).map fun handed =>
        (handed.packet.seq, handed.packet)).Pairwise (fun a b => a.1 < b.1) := h.ordered.increasing
    rw [List.pairwise_map] at hincreasing ⊢
    exact hincreasing
  passed := by
    intro handed hmem
    exact h.ordered.below (handed.packet.seq, handed.packet) (List.mem_map.mpr ⟨handed, hmem, rfl⟩)
  conserved := by
    have hconserved := h.ordered.conserved.map (·.2)
    simpa [view, OrdMap.mapVals, OrdMap.values, Function.comp_def] using hconserved
  once := by simpa [view, Function.comp_def] using h.ordered.accepted_nodup
  lost := h.delivered.lost
  fifo := h.delivered.fifo

/-- Sorter conservation and order, after every run of a fresh sorter. -/
theorem sorter_conserves_and_orders (deadline : Duration) (start : Instant) (ops : List SorterOp)
    (bounded : ∀ op ∈ ops, op.Bounded) :
    ∃ sorter outs,
      Run.run sorterStep (PacketSorter.new deadline start) ops = some (sorter, outs) ∧
      ConservesAndOrders sorter outs := by
  obtain ⟨sorter, outs, hrun⟩ := Run.run_total sorterStep_total (PacketSorter.new deadline start) ops
  exact ⟨sorter, outs, hrun, (sorterSound_run bounded hrun).conservesAndOrders⟩

/-- A copy, a gap closed by the deadline, a late packet and a jump, in one run. -/
theorem sorter_conserves_and_orders_jump :
    ∃ sorter outs,
      Run.run sorterStep (PacketSorter.new 100 0)
        [.insertPacket ⟨1, 7, [1]⟩ 0, .insertPacket ⟨1, 7, [2]⟩ 1, .advanceQueue 100,
          .insertPacket ⟨0, 7, [0]⟩ 101, .insertPacket ⟨4, 7, [4]⟩ 102,
          .insertPacket ⟨200, 7, [5]⟩ 103, .awaitHaveNextPacket] = some (sorter, outs) ∧
      ConservesAndOrders sorter outs :=
  sorter_conserves_and_orders 100 0 _ (by decide)

end MultiConnect
