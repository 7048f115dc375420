/-
Module: MultiConnect.Proofs.SorterCopies
Layer: Proofs
Purpose: Redundant copies are invisible. A packet whose number was inserted before is dealt with: it is
  late, or its twin still waits. Inserting it again changes nothing but perhaps the deadline timer, and
  no operation lets the timer reach the packets. So a run with copies added at any later points shows
  the same outputs and leads to the same queue, the same `nextSeq` and the same channel.
Trusted boundary: none
Main exports: SameButTimer, sameButTimer_step, insertPacket_copy, WithCopies,
  copies_are_invisible
-/
import MultiConnect.Proofs.SorterRuns

namespace MultiConnect

open PacketSorter

/-! ### The timer does not reach the packets -/

/-- Two sorters that agree in everything but their deadline timers. -/
def SameButTimer (s t : PacketSorter) : Prop :=
  ∃ timer, t = { s with deadlineTimer := timer }

theorem SameButTimer.refl (s : PacketSorter) : SameButTimer s s := ⟨s.deadlineTimer, rfl⟩

theorem SameButTimer.symm {s t : PacketSorter} (h : SameButTimer s t) : SameButTimer t s := by
  obtain ⟨timer, rfl⟩ := h
  exact ⟨s.deadlineTimer, rfl⟩

theorem SameButTimer.trans {s t u : PacketSorter} (h : SameButTimer s t) (h' : SameButTimer t u) :
    SameButTimer s u := by
  obtain ⟨timer, rfl⟩ := h
  obtain ⟨timer', rfl⟩ := h'
  exact ⟨timer', rfl⟩

theorem sameButTimer_rearm (s : PacketSorter) (now : Instant) :
    SameButTimer s (s.rearmAfterAdvance now) :=
  rearmAfterAdvance_eq s now

theorem sameButTimer_start (s : PacketSorter) (now : Instant) :
    SameButTimer s (s.startDeadline now) :=
  startDeadline_eq s now

theorem sameButTimer_handNext {s t : PacketSorter} (now : Instant) (h : SameButTimer s t) :
    (handNext now s = none → handNext now t = none) ∧
      ∀ next handed, handNext now s = some (next, handed) →
        ∃ next', handNext now t = some (next', handed) ∧ SameButTimer next next' := by
  obtain ⟨timer, rfl⟩ := h
  constructor
  · rw [handNext_eq_none, handNext_eq_none]
    exact fun h => h
  · intro next handed hnext
    simp only [handNext, getNextPacket] at hnext ⊢
    cases hfirst : s.packetQueue.first? with
    | none => simp [hfirst] at hnext
    | some entry =>
        by_cases hkey : entry.1 = s.nextSeq
        · simp only [hfirst, hkey, if_true] at hnext ⊢
          obtain ⟨rfl, rfl⟩ := Prod.mk.inj (Option.some.inj hnext)
          exact ⟨_, rfl, ⟨_, rfl⟩⟩
        · simp [hfirst, hkey] at hnext

theorem sameButTimer_enqueue {s t : PacketSorter} (now : Instant) (h : SameButTimer s t) :
    SameButTimer (s.enqueueSortedPackets now).1 (t.enqueueSortedPackets now).1 ∧
      (s.enqueueSortedPackets now).2 = (t.enqueueSortedPackets now).2 := by
  have hsize : t.packetQueue.size = s.packetQueue.size := by
    obtain ⟨timer, rfl⟩ := h
    rfl
  rw [enqueueSortedPackets, enqueueSortedPackets, hsize]
  exact Run.whileSome_simulation (R := SameButTimer)
    (fun s t h => (sameButTimer_handNext now h).1)
    (fun s t next handed h => (sameButTimer_handNext now h).2 next handed) _ h

theorem sameButTimer_advanceQueue {s t : PacketSorter} (now : Instant) (h : SameButTimer s t) :
    SameButTimer (s.advanceQueue now).1 (t.advanceQueue now).1 ∧
      (s.advanceQueue now).2 = (t.advanceQueue now).2 := by
  obtain ⟨timer, rfl⟩ := h
  unfold advanceQueue
  cases hfirst : s.packetQueue.first? with
  | none => exact ⟨⟨_, rfl⟩, rfl⟩
  | some entry =>
      have hsame : SameButTimer { s with nextSeq := entry.1 }
          { s with nextSeq := entry.1, deadlineTimer := timer } := ⟨timer, rfl⟩
      obtain ⟨hstate, hhanded⟩ := sameButTimer_enqueue now hsame
      exact ⟨((sameButTimer_rearm _ now).symm.trans hstate).trans (sameButTimer_rearm _ now), hhanded⟩

theorem sameButTimer_insertPacket {s t : PacketSorter} (pkt : Packet) (now : Instant)
    (h : SameButTimer s t) :
    SameButTimer (s.insertPacket pkt now).1 (t.insertPacket pkt now).1 ∧
      (s.insertPacket pkt now).2 = (t.insertPacket pkt now).2 := by
  have hqueued : SameButTimer (s.queuePacket pkt now) (t.queuePacket pkt now) := by
    obtain ⟨timer, rfl⟩ := h
    exact ⟨timer, rfl⟩
  have hentered : SameButTimer (s.enterQueue pkt now).1 (t.enterQueue pkt now).1 ∧
      (s.enterQueue pkt now).2 = (t.enterQueue pkt now).2 := by
    have hjump : t.isLargeJump pkt.seq = s.isLargeJump pkt.seq := by
      obtain ⟨timer, rfl⟩ := h
      rfl
    rw [enterQueue, enterQueue, hjump]
    split
    · exact sameButTimer_advanceQueue now hqueued
    · exact ⟨hqueued, rfl⟩
  have hnext : t.nextSeq = s.nextSeq := by
    obtain ⟨timer, rfl⟩ := h
    rfl
  rw [insertPacket, insertPacket, hnext]
  split
  · obtain ⟨hstate, hhanded⟩ := sameButTimer_enqueue now hentered.1
    exact ⟨((sameButTimer_start _ now).symm.trans hstate).trans (sameButTimer_start _ now),
      congrArg₂ (· ++ ·) hentered.2 hhanded⟩
  · exact ⟨h, rfl⟩

/-- Sorters that agree but for their timers show the same and keep agreeing. -/
theorem sameButTimer_step {s t next : PacketSorter} {op : SorterOp} {outs : List SorterOutput}
    (h : SameButTimer s t) (hstep : sorterStep s op = some (next, outs)) :
    ∃ next', sorterStep t op = some (next', outs) ∧ SameButTimer next next' := by
  cases op with
  | insertPacket pkt now =>
      obtain ⟨rfl, rfl⟩ := Prod.mk.inj (Option.some.inj hstep)
      obtain ⟨hstate, hhanded⟩ := sameButTimer_insertPacket pkt now h
      have haccepts : accepts t pkt = accepts s pkt := by
        obtain ⟨timer, rfl⟩ := h
        rfl
      exact ⟨_, by rw [sorterStep, haccepts, hhanded], hstate⟩
  | advanceQueue now =>
      obtain ⟨rfl, rfl⟩ := Prod.mk.inj (Option.some.inj hstep)
      obtain ⟨hstate, hhanded⟩ := sameButTimer_advanceQueue now h
      exact ⟨_, by rw [sorterStep, hhanded], hstate⟩
  | awaitHaveNextPacket =>
      obtain ⟨timer, rfl⟩ := h
      simp only [sorterStep, PacketSorter.awaitHaveNextPacket] at hstep ⊢
      cases hrecv : s.sortedPacketQueue.tryRecv with
      | none =>
          simp only [hrecv] at hstep ⊢
          obtain ⟨rfl, rfl⟩ := Prod.mk.inj (Option.some.inj hstep)
          exact ⟨_, rfl, ⟨timer, rfl⟩⟩
      | some pair =>
          simp only [hrecv] at hstep ⊢
          obtain ⟨rfl, rfl⟩ := Prod.mk.inj (Option.some.inj hstep)
          exact ⟨_, rfl, ⟨timer, rfl⟩⟩

/-! ### A copy is refused -/

/-- A number that the sorter has dealt with, seen in the sorter itself. -/
theorem dealtWith_iff {sorter : PacketSorter} {accepted : List Packet} {handed : List Handed}
    {number : UInt64} :
    Reorder.DealtWith (view sorter accepted handed) number ↔
      number < sorter.nextSeq ∨ sorter.packetQueue.contains number = true := by
  simp [Reorder.DealtWith, view, OrdMap.get?_mapVals, OrdMap.contains, Option.isSome_iff_exists]

/-- A waiting number is no jump: the last waiting number is at least as large. -/
theorem isLargeJump_of_contains {sorter : PacketSorter} {number : UInt64}
    (h : sorter.packetQueue.contains number = true) : sorter.isLargeJump number = false := by
  obtain ⟨queued, hqueued⟩ := OrdMap.contains_iff.mp h
  unfold isLargeJump
  split
  · rename_i tail last hlast
    have hle : number ≤ tail := OrdMap.le_last? hlast (OrdMap.get?_eq_some_iff.mp hqueued)
    unfold checkedSub
    split
    · rename_i diff hdiff
      split at hdiff
      · rename_i hge
        obtain rfl := le_antisymm hle hge
        obtain rfl := Option.some.inj hdiff
        simp
      · cases hdiff
    · rfl
  · rfl

/-- A packet whose number waits already does not enter the queue. -/
theorem enterQueue_of_contains {sorter : PacketSorter} {pkt : Packet} (now : Instant)
    (h : sorter.packetQueue.contains pkt.seq = true) : sorter.enterQueue pkt now = (sorter, []) := by
  rw [enterQueue, if_neg (by simp [isLargeJump_of_contains h]), queuePacket,
    OrdMap.orInsert_of_contains _ h]

/-- Inserting a packet under a number already dealt with hands nothing on and changes nothing but,
    perhaps, the timer. -/
theorem insertPacket_copy {sorter : PacketSorter} {pkt : Packet} (now : Instant)
    (settled : sorter.Settled)
    (dealt : pkt.seq < sorter.nextSeq ∨ sorter.packetQueue.contains pkt.seq = true) :
    SameButTimer sorter (sorter.insertPacket pkt now).1 ∧ (sorter.insertPacket pkt now).2 = [] ∧
      accepts sorter pkt = false := by
  by_cases late : pkt.seq < sorter.nextSeq
  · rw [insertPacket_of_late now late]
    exact ⟨SameButTimer.refl sorter, rfl, by simp [accepts, not_le_of_gt late]⟩
  · have hcontains := dealt.resolve_left late
    simp only [insertPacket, if_pos (le_of_not_gt late), enterQueue_of_contains now hcontains,
      enqueueSortedPackets_of_settled now settled]
    exact ⟨sameButTimer_start sorter now, rfl, by simp [accepts, hcontains]⟩

/-! ### Runs with copies -/

/-- The number that an operation inserts, as a list. -/
def SorterOp.number : SorterOp → List UInt64
  | .insertPacket pkt _ => [pkt.seq]
  | .advanceQueue _ => []
  | .awaitHaveNextPacket => []

/-- `WithCopies seen ops ops'`: `ops'` is `ops` with insertions added at any points, each under a
    number inserted before that point or listed in `seen`. -/
inductive WithCopies : List UInt64 → List SorterOp → List SorterOp → Prop where
  | done (seen : List UInt64) : WithCopies seen [] []
  | keep {seen : List UInt64} {ops ops' : List SorterOp} (op : SorterOp)
      (rest : WithCopies (op.number ++ seen) ops ops') : WithCopies seen (op :: ops) (op :: ops')
  | copy {seen : List UInt64} {ops ops' : List SorterOp} (pkt : Packet) (now : Instant)
      (inserted : pkt.seq ∈ seen) (rest : WithCopies seen ops ops') :
      WithCopies seen ops (.insertPacket pkt now :: ops')

/-- After its own insertion a number is dealt with. -/
theorem dealtWith_number {sorter next : PacketSorter} {op : SorterOp} {outs now : List SorterOutput}
    (h : SorterSound sorter outs) (bounded : op.Bounded)
    (hstep : sorterStep sorter op = some (next, now)) {number : UInt64} (hnumber : number ∈ op.number) :
    number < next.nextSeq ∨ next.packetQueue.contains number = true := by
  cases op with
  | insertPacket pkt at_ =>
      obtain ⟨rfl, -⟩ := Prod.mk.inj (Option.some.inj hstep)
      obtain rfl := List.mem_singleton.mp hnumber
      by_cases late : pkt.seq < sorter.nextSeq
      · rw [insertPacket_of_late at_ late]
        exact Or.inl late
      · -- once queued, the number stays dealt with through the small steps of the insertion
        have notLate := le_of_not_gt late
        obtain ⟨hqueued, hkeyed⟩ := steps_queuePacket (acceptedPackets outs)
          (handedPackets outs) at_ h.keyed bounded notLate
        have hcontains : (sorter.queuePacket pkt at_).packetQueue.contains pkt.seq = true := by
          rw [OrdMap.contains, queuePacket, OrdMap.get?_orInsert, if_pos rfl]
          rfl
        obtain ⟨hands, skips, rearms⟩ := steps_induction (h.ordered.steps hqueued)
          (acceptedPackets outs ++ if accepts sorter pkt then [pkt] else [])
        have hrest := insertPacket_induction hands skips rearms at_ notLate ⟨.refl, hkeyed⟩
        exact dealtWith_iff.mp ((dealtWith_iff.mpr (Or.inr hcontains)).steps hrest.1)
  | advanceQueue at_ => cases hnumber
  | awaitHaveNextPacket => cases hnumber

/-- The two runs, started from sorters that agree but for the timer. -/
theorem copies_follow {seen : List UInt64} {ops ops' : List SorterOp}
    (copies : WithCopies seen ops ops') :
    ∀ {s t last : PacketSorter} {past outs : List SorterOutput}, SameButTimer s t →
      SorterSound s past → (∀ op ∈ ops, op.Bounded) →
      (∀ number ∈ seen, number < s.nextSeq ∨ s.packetQueue.contains number = true) →
      Run.run sorterStep s ops = some (last, outs) →
      ∃ last', Run.run sorterStep t ops' = some (last', outs) ∧ SameButTimer last last' := by
  induction copies with
  | done seen =>
      intro s t last past outs hsame _ _ _ hrun
      obtain ⟨rfl, rfl⟩ := Prod.mk.inj (Option.some.inj hrun)
      exact ⟨t, rfl, hsame⟩
  | keep op rest ih =>
      intro s t last past outs hsame hsound hbounded hdealt hrun
      obtain ⟨next, first, later, hstep, hrest, rfl⟩ := Run.run_cons_eq_some.mp hrun
      have hop : op.Bounded := hbounded op List.mem_cons_self
      obtain ⟨next', hstep', hsame'⟩ := sameButTimer_step hsame hstep
      obtain ⟨hsteps, -⟩ := refines_reorder hsound.ordered hsound.keyed hop hstep
      obtain ⟨last', hrun', hlast⟩ := ih hsame' (sorterSound_step hsound hop hstep)
        (fun op hmem => hbounded op (List.mem_cons_of_mem _ hmem)) (fun number hmem => by
          rcases List.mem_append.mp hmem with hmem | hmem
          · exact dealtWith_number hsound hop hstep hmem
          · exact dealtWith_iff.mp ((dealtWith_iff.mpr (hdealt number hmem)).steps hsteps)) hrest
      exact ⟨last', Run.run_cons_eq_some.mpr ⟨next', first, later, hstep', hrun', rfl⟩, hlast⟩
  | copy pkt now inserted rest ih =>
      intro s t last past outs hsame hsound hbounded hdealt hrun
      -- the copy leaves `t` where it is, up to the timer, and shows nothing
      obtain ⟨hcopy, hnothing, hrefused⟩ :=
        insertPacket_copy now hsound.settled (hdealt pkt.seq inserted)
      have hstep : sorterStep s (.insertPacket pkt now) = some ((s.insertPacket pkt now).1, []) := by
        simp [sorterStep, hnothing, hrefused]
      obtain ⟨next', hstep', hsame'⟩ := sameButTimer_step hsame hstep
      obtain ⟨last', hrun', hlast⟩ := ih (hcopy.trans hsame') hsound hbounded hdealt hrun
      exact ⟨last', Run.run_cons_eq_some.mpr ⟨next', [], outs, hstep', hrun', rfl⟩, hlast⟩

/-- Redundant copies are invisible: the same packets are accepted, handed on and read, and the queue,
    the next number and the channel end up the same. -/
theorem copies_are_invisible (deadline : Duration) (start : Instant) (ops ops' : List SorterOp)
    (bounded : ∀ op ∈ ops, op.Bounded) (copies : WithCopies [] ops ops') :
    ∃ last last' outs,
      Run.run sorterStep (PacketSorter.new deadline start) ops = some (last, outs) ∧
      Run.run sorterStep (PacketSorter.new deadline start) ops' = some (last', outs) ∧
      last'.packetQueue = last.packetQueue ∧ last'.nextSeq = last.nextSeq ∧
      last'.sortedPacketQueue = last.sortedPacketQueue := by
  obtain ⟨last, outs, hrun⟩ := Run.run_total sorterStep_total (PacketSorter.new deadline start) ops
  obtain ⟨last', hrun', timer, rfl⟩ := copies_follow copies (SameButTimer.refl _)
    (sorterSound_new deadline start) bounded (fun _ hmem => absurd hmem List.not_mem_nil) hrun
  exact ⟨last, _, outs, hrun, hrun', rfl, rfl, rfl⟩

/-- Copies of a waiting packet and of a released one, the second with other bytes. -/
theorem copies_are_invisible_two :
    ∃ last last' outs,
      Run.run sorterStep (PacketSorter.new 100 0)
        [.insertPacket ⟨1, 7, [1]⟩ 0, .insertPacket ⟨0, 7, [0]⟩ 5] = some (last, outs) ∧
      Run.run sorterStep (PacketSorter.new 100 0)
        [.insertPacket ⟨1, 7, [1]⟩ 0, .insertPacket ⟨1, 7, [1]⟩ 3, .insertPacket ⟨0, 7, [0]⟩ 5,
          .insertPacket ⟨0, 7, [9]⟩ 6] = some (last', outs) ∧
      last'.packetQueue = last.packetQueue ∧ last'.nextSeq = last.nextSeq ∧
      last'.sortedPacketQueue = last.sortedPacketQueue :=
  copies_are_invisible 100 0 _ _ (by decide)
    (.keep _ (.copy _ _ (by decide) (.keep _ (.copy _ _ (by decide) (.done _)))))

end MultiConnect
