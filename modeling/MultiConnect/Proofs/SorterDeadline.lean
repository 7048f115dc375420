/-
Module: MultiConnect.Proofs.SorterDeadline
Layer: Proofs
Purpose: How long the packet at the head of the queue can wait. In a timed run the clock never goes back
  and passes no armed instant of the deadline timer before that timer is handled. Advancing arms the
  timer for what the head has left of the deadline, but a packet that fills the gap in front arms it for
  the whole deadline, also when the packet that is then at the head arrived long before.
Trusted boundary: the runtime's timer
Main exports: TimedSorter, TimedOp, timedStep, HeldInTime, FillsInTime, sorter_hold_time_iff
-/
import MultiConnect.Proofs.SorterEffects

namespace MultiConnect

open PacketSorter

/-- A sorter and the instant of the last operation on it. -/
structure TimedSorter where
  sorter : PacketSorter
  clock : Instant
deriving DecidableEq

/-- The operations of a timed run, each with its instant. -/
inductive TimedOp where
  | insertPacket (pkt : Packet) (now : Instant)
  | advanceQueue (now : Instant)
deriving DecidableEq

def TimedOp.now : TimedOp → Instant
  | .insertPacket _ now => now
  | .advanceQueue now => now

/-- A timer that is due fires before the queue is advanced; advancing earlier is possible too. -/
def PacketSorter.handleDeadline (sorter : PacketSorter) (now : Instant) : PacketSorter × List Handed :=
  ((sorter.awaitDeadline now).getD sorter).advanceQueue now

/-- An operation at an instant that is not before the clock and not after an armed instant of the
    timer: what comes due is handled at once. -/
def timedStep (state : TimedSorter) (op : TimedOp) : Option (TimedSorter × List Handed) :=
  if state.clock ≤ op.now ∧ state.sorter.deadlineTimer.fireAt.all (op.now ≤ ·) then
    match op with
    | .insertPacket pkt now =>
        some (⟨(state.sorter.insertPacket pkt now).1, now⟩, (state.sorter.insertPacket pkt now).2)
    | .advanceQueue now =>
        some (⟨(state.sorter.handleDeadline now).1, now⟩, (state.sorter.handleDeadline now).2)
  else none

/-- While packets wait the timer is armed, for an instant within the deadline of the packet at the head
    or for one that has come already. -/
def HeldInTime (state : TimedSorter) : Prop :=
  ∀ key queued, state.sorter.packetQueue.first? = some (key, queued) →
    ∃ instant, state.sorter.deadlineTimer.fireAt = some instant ∧
      (instant ≤ queued.timestamp + state.sorter.deadline ∨ instant ≤ state.clock)

/-- When a packet fills the gap in front, the packet that is then at the head, behind the next gap,
    arrived at that very instant. -/
def FillsInTime (state : TimedSorter) : TimedOp → Prop
  | .insertPacket pkt now =>
      pkt.seq = state.sorter.nextSeq → state.sorter.deadline ≠ 0 →
        ∀ key queued, (dropRun (· + 1) (pkt.seq + 1) state.sorter.packetQueue.entries).head? =
          some (key, queued) → now ≤ queued.timestamp
  | .advanceQueue _ => True

/-! ### The invariant -/

/-- No packet arrived later than now, and the timer is armed for no longer than the deadline. -/
structure Timely (sorter : PacketSorter) (clock : Instant) : Prop where
  arrived : ∀ entry ∈ sorter.packetQueue.entries, entry.2.timestamp ≤ clock
  armed : ∀ instant, sorter.deadlineTimer.fireAt = some instant → instant ≤ clock + sorter.deadline

theorem Timely.mono {sorter : PacketSorter} {clock now : Instant} (h : Timely sorter clock)
    (later : clock ≤ now) : Timely sorter now where
  arrived entry hentry := (h.arrived entry hentry).trans later
  armed instant harmed := (h.armed instant harmed).trans (Nat.add_le_add_right later _)

theorem timely_after {sorter : PacketSorter} {now : Instant}
    (arrived : ∀ entry ∈ sorter.packetQueue.entries, entry.2.timestamp ≤ now)
    (timer : sorter.deadlineTimer = Timer.after now sorter.deadline) : Timely sorter now where
  arrived := arrived
  armed instant harmed := by
    rw [timer] at harmed
    exact le_of_eq (Option.some.inj harmed).symm

theorem arrived_queuePacket {sorter : PacketSorter} {now : Instant} (pkt : Packet)
    (arrived : ∀ entry ∈ sorter.packetQueue.entries, entry.2.timestamp ≤ now) :
    ∀ entry ∈ (sorter.queuePacket pkt now).packetQueue.entries, entry.2.timestamp ≤ now := by
  intro entry hentry
  rcases mem_queuePacket now hentry with rfl | hold
  · exact le_refl _
  · exact arrived entry hold

/-! ### Advancing -/

/-- Advancing leaves the head within its deadline, whatever the timer was armed for. -/
theorem heldInTime_advanceQueue {sorter : PacketSorter} {now : Instant}
    (arrived : ∀ entry ∈ sorter.packetQueue.entries, entry.2.timestamp ≤ now) :
    HeldInTime ⟨(sorter.advanceQueue now).1, now⟩ := by
  intro key queued hhead
  have htimestamp := arrived _ (mem_advanceQueue (OrdMap.mem_of_first? hhead))
  refine ⟨_, congrArg Timer.fireAt (timer_advanceQueue hhead htimestamp), ?_⟩
  rw [show (TimedSorter.mk (sorter.advanceQueue now).1 now).sorter.deadline = sorter.deadline from
    deadline_advanceQueue sorter now]
  exact (le_total (queued.timestamp + sorter.deadline) now).symm.imp
    (fun h => le_of_eq (max_eq_right h)) fun h => le_of_eq (max_eq_left h)

theorem timely_advanceQueue {sorter : PacketSorter} {now : Instant}
    (arrived : ∀ entry ∈ sorter.packetQueue.entries, entry.2.timestamp ≤ now) :
    Timely (sorter.advanceQueue now).1 now := by
  have hleft : ∀ entry ∈ (sorter.advanceQueue now).1.packetQueue.entries,
      entry.2.timestamp ≤ now := fun entry hentry => arrived entry (mem_advanceQueue hentry)
  refine ⟨hleft, fun instant harmed => ?_⟩
  cases hhead : (sorter.advanceQueue now).1.packetQueue.first? with
  | none =>
      rw [timer_advanceQueue_empty hhead] at harmed
      cases harmed
  | some head =>
      have htimestamp := hleft _ (OrdMap.mem_of_first? hhead)
      rw [timer_advanceQueue hhead htimestamp] at harmed
      obtain rfl := Option.some.inj harmed
      rw [deadline_advanceQueue]
      exact max_le (Nat.le_add_right _ _) (Nat.add_le_add_right htimestamp _)

/-! ### Inserting -/

section Insert

variable {sorter : PacketSorter} {clock now : Instant} {pkt : Packet}

theorem HeldInTime.mono (h : HeldInTime ⟨sorter, clock⟩) (later : clock ≤ now) :
    HeldInTime ⟨sorter, now⟩ := by
  intro key queued hhead
  obtain ⟨instant, harmed, hbound⟩ := h key queued hhead
  exact ⟨instant, harmed, hbound.imp_right fun h => h.trans later⟩

/-- A packet that waits at the head arrived now, and the timer runs for no more than the deadline. One
    that waits behind the head leaves the head in time. -/
theorem heldInTime_waits (timely : Timely sorter clock) (later : clock ≤ now)
    (held : HeldInTime ⟨sorter, clock⟩) (new : sorter.packetQueue.get? pkt.seq = none) :
    HeldInTime ⟨(sorter.queuePacket pkt now).startDeadline now, now⟩ := by
  intro key queued hhead
  simp only [packetQueue_startDeadline, queuePacket_of_new now new] at hhead
  rcases OrdMap.first?_insert hhead with heq | hfirst
  · obtain ⟨-, rfl⟩ := Prod.mk.inj heq
    by_cases harmed : (sorter.queuePacket pkt now).deadlineTimer.willFire = true
    · obtain ⟨instant, hinstant⟩ := Option.isSome_iff_exists.mp harmed
      rw [startDeadline_of_armed now harmed]
      exact ⟨instant, hinstant, Or.inl
        ((timely.armed instant hinstant).trans (Nat.add_le_add_right later _))⟩
    · rw [startDeadline, if_neg harmed]
      exact ⟨_, rfl, Or.inl (le_refl _)⟩
  · obtain ⟨instant, hinstant, hbound⟩ := held key queued hfirst
    have harmed : (sorter.queuePacket pkt now).deadlineTimer.willFire = true :=
      Option.isSome_iff_exists.mpr ⟨instant, hinstant⟩
    rw [startDeadline_of_armed now harmed]
    exact ⟨instant, hinstant, hbound.imp_right fun h => h.trans later⟩

/-- A packet that fills the gap starts the full deadline for the packet behind the next gap. -/
theorem heldInTime_fills (steady : Steady sorter) (next : pkt.seq = sorter.nextSeq) :
    HeldInTime ⟨((sorter.queuePacket pkt now).enqueueSortedPackets now).1, now⟩ ↔
      FillsInTime ⟨sorter, clock⟩ (.insertPacket pkt now) := by
  have hdrained := drained_enqueueSortedPackets (sorter.queuePacket pkt now) now
  have hdeadline : ((sorter.queuePacket pkt now).enqueueSortedPackets now).1.deadline =
      sorter.deadline := hdrained.deadline
  have hhead : ((sorter.queuePacket pkt now).enqueueSortedPackets now).1.packetQueue.first? =
      (dropRun (· + 1) (pkt.seq + 1) sorter.packetQueue.entries).head? := by
    rw [OrdMap.first?, hdrained.queue, behindGap_next now steady next, next]
  simp only [HeldInTime, FillsInTime, hhead, timer_next now steady next, hdeadline]
  constructor
  · intro h _ hpositive key queued hqueued
    obtain ⟨instant, hinstant, hbound⟩ := h key queued hqueued
    obtain rfl := Option.some.inj hinstant
    rcases hbound with hbound | hbound
    · exact Nat.le_of_add_le_add_right hbound
    · exact absurd (Nat.le_of_add_le_add_left (c := 0) hbound) (by grind)
  · intro h key queued hqueued
    refine ⟨_, rfl, ?_⟩
    by_cases hzero : sorter.deadline = 0
    · exact Or.inr (by rw [hzero]; exact le_refl _)
    · exact Or.inl (Nat.add_le_add_right (h next hzero key queued hqueued) _)

theorem heldInTime_insertPacket (steady : Steady sorter) (timely : Timely sorter clock)
    (later : clock ≤ now) (held : HeldInTime ⟨sorter, clock⟩) :
    HeldInTime ⟨(sorter.insertPacket pkt now).1, now⟩ ↔
      FillsInTime ⟨sorter, clock⟩ (.insertPacket pkt now) := by
  have hahead : sorter.nextSeq < pkt.seq → FillsInTime ⟨sorter, clock⟩ (.insertPacket pkt now) :=
    fun ahead next => absurd next (ne_of_gt ahead)
  rcases insertPacket_cases now steady pkt with
    ⟨dealt, heq⟩ | ⟨ahead, new, -, heq⟩ | ⟨next, heq⟩ | ⟨ahead, -, heq⟩ <;> rw [heq]
  · refine iff_of_true (held.mono later) fun next => ?_
    rcases dealt with late | hcontains
    · exact absurd next (ne_of_lt late)
    · obtain ⟨queued, hqueued⟩ := OrdMap.contains_iff.mp hcontains
      exact absurd next (ne_of_gt (steady.ahead _ (OrdMap.get?_eq_some_iff.mp hqueued)))
  · exact iff_of_true (heldInTime_waits timely later held new) (hahead ahead)
  · exact heldInTime_fills steady next
  · exact iff_of_true
      (heldInTime_advanceQueue (arrived_queuePacket pkt (timely.mono later).arrived)) (hahead ahead)

theorem timely_insertPacket (steady : Steady sorter) (timely : Timely sorter clock)
    (later : clock ≤ now) : Timely (sorter.insertPacket pkt now).1 now := by
  have hnow := timely.mono later
  have harrived := arrived_queuePacket pkt hnow.arrived
  rcases insertPacket_cases now steady pkt with
    ⟨-, heq⟩ | ⟨-, -, -, heq⟩ | ⟨next, heq⟩ | ⟨-, -, heq⟩ <;> rw [heq]
  · exact hnow
  · rw [startDeadline]
    split
    · exact ⟨harrived, hnow.armed⟩
    · exact timely_after harrived rfl
  · have hdrained := drained_enqueueSortedPackets (sorter.queuePacket pkt now) now
    refine timely_after (fun entry hentry => harrived entry (hdrained.mem_queue hentry)) ?_
    rw [timer_next now steady next, hdrained.deadline]
    rfl
  · exact timely_advanceQueue harrived

end Insert

/-! ### Timed runs -/

theorem timedStep_eq_some {state next : TimedSorter} {op : TimedOp} {handed : List Handed}
    (h : timedStep state op = some (next, handed)) :
    state.clock ≤ op.now ∧
      ((∃ pkt now, op = .insertPacket pkt now ∧ next = ⟨(state.sorter.insertPacket pkt now).1, now⟩) ∨
        ∃ now, op = .advanceQueue now ∧ next = ⟨(state.sorter.handleDeadline now).1, now⟩) := by
  unfold timedStep at h
  split at h
  · rename_i hnow
    refine ⟨hnow.1, ?_⟩
    split at h
    · obtain ⟨rfl, -⟩ := Prod.mk.inj (Option.some.inj h)
      exact Or.inl ⟨_, _, rfl, rfl⟩
    · obtain ⟨rfl, -⟩ := Prod.mk.inj (Option.some.inj h)
      exact Or.inr ⟨_, rfl, rfl⟩
  · cases h

/-- A timer that fires leaves the queue alone. -/
theorem fired_eq (sorter : PacketSorter) (now : Instant) :
    ∃ timer, (sorter.awaitDeadline now).getD sorter = { sorter with deadlineTimer := timer } := by
  unfold awaitDeadline
  split
  · exact ⟨_, rfl⟩
  · exact ⟨_, rfl⟩

/-- In a timed run the packet at the head is held in time, in every state that the run visits, exactly
    as long as each packet that fills the gap in front leaves at the head, behind the next gap, a packet
    that arrived at that instant, or none. -/
theorem sorter_hold_time_iff (deadline : Duration) (start : Instant) (ops : List TimedOp) :
    Run.Throughout timedStep HeldInTime ⟨PacketSorter.new deadline start, start⟩ ops ↔
      Run.EachStep timedStep (fun _ => FillsInTime) ⟨PacketSorter.new deadline start, start⟩ ops := by
  refine Run.throughout_iff_eachStep (E := fun _ => True)
    (I := fun state => Steady state.sorter ∧ Timely state.sorter state.clock) ?_ ?_
    (fun _ _ => trivial) ⟨steady_new deadline start, timely_after (List.forall_mem_nil _) rfl⟩ ?_
  · intro state op next handed ⟨steady, timely⟩ _ hstep
    obtain ⟨later, ⟨pkt, now, rfl, rfl⟩ | ⟨now, rfl, rfl⟩⟩ := timedStep_eq_some hstep
    · exact ⟨steady_insertPacket now steady pkt, timely_insertPacket steady timely later⟩
    · obtain ⟨timer, hfired⟩ := fired_eq state.sorter now
      rw [handleDeadline, hfired]
      exact ⟨steady_advanceQueue now steady.numbered steady.capacity,
        timely_advanceQueue (timely.mono later).arrived⟩
  · intro state op next handed ⟨steady, timely⟩ _ held hstep
    obtain ⟨later, ⟨pkt, now, rfl, rfl⟩ | ⟨now, rfl, rfl⟩⟩ := timedStep_eq_some hstep
    · exact heldInTime_insertPacket steady timely later held
    · obtain ⟨timer, hfired⟩ := fired_eq state.sorter now
      rw [handleDeadline, hfired]
      exact iff_of_true (heldInTime_advanceQueue (timely.mono later).arrived) trivial
  · intro key queued hhead
    cases hhead

/-- A packet waits for two missing ones. The first of them comes just before the deadline, and the timer
    starts again for the whole deadline. -/
theorem filled_gap_restarts_deadline :
    ¬ ∀ (deadline : Duration) (start : Instant) (ops : List TimedOp),
      Run.Throughout timedStep HeldInTime ⟨PacketSorter.new deadline start, start⟩ ops := by
  intro h
  obtain ⟨instant, hinstant, hbound⟩ := h 10 0
    [.insertPacket ⟨2, 7, [2]⟩ 0, .insertPacket ⟨0, 7, [0]⟩ 9] _ [] _ _ (List.append_nil _).symm rfl
    2 ⟨⟨2, 7, [2]⟩, 0⟩ rfl
  obtain rfl : 19 = instant := Option.some.inj hinstant
  exact absurd hbound (by decide)

end MultiConnect
