/-
Module: MultiConnect.Proofs.SorterOverflow
Layer: Proofs
Purpose: The increment of `next_seq`. Each turn of the loop increments it from the number of the packet
  that the turn hands on; from `u64::MAX` the increment overflows. A run of turns gets there exactly when
  every number from the first one of the run up to `u64::MAX` waits. Where that never happens nothing
  overflows and `next_seq` never goes back, and it cannot happen when no inserted packet carries
  `u64::MAX`.
Trusted boundary: none
Main exports: PacketSorter.increments, SorterOp.increments, CountsOn, StaysBelowMax,
  sorter_counts_on_iff
-/
import MultiConnect.Proofs.SorterEffects

namespace MultiConnect

open PacketSorter

/-! ### The increments of an operation -/

/-- One turn of the loop, with the value of `next_seq` that it increments. -/
def PacketSorter.incrementNext (now : Instant) (sorter : PacketSorter) :
    Option (PacketSorter × UInt64) :=
  (handNext now sorter).map fun turn => (turn.1, sorter.nextSeq)

/-- The values that the loop of `enqueue_sorted_packets` increments. -/
def PacketSorter.increments (sorter : PacketSorter) (now : Instant) : List UInt64 :=
  (Run.whileSome (incrementNext now) sorter.packetQueue.size sorter).2

/-- The values that `advance_queue` increments: it first jumps to the first waiting number. -/
def PacketSorter.advanceIncrements (sorter : PacketSorter) (now : Instant) : List UInt64 :=
  match sorter.packetQueue.first? with
  | some (key, _) => { sorter with nextSeq := key }.increments now
  | none => []

/-- The values of `next_seq` that an operation increments. -/
def SorterOp.increments (sorter : PacketSorter) : SorterOp → List UInt64
  | .insertPacket pkt now =>
      if sorter.nextSeq ≤ pkt.seq then
        (if sorter.isLargeJump pkt.seq then (sorter.queuePacket pkt now).advanceIncrements now
          else []) ++ (sorter.enterQueue pkt now).1.increments now
      else []
  | .advanceQueue now => sorter.advanceIncrements now
  | .awaitHaveNextPacket => []

/-- The turns of the loop count along the packets that are in sequence. -/
theorem increments_eq (sorter : PacketSorter) (now : Instant) :
    sorter.increments now = sorter.inSequence.map (·.1) := by
  have hloop : ∀ (fuel : Nat) (sorter : PacketSorter), sorter.packetQueue.size ≤ fuel →
      (Run.whileSome (incrementNext now) fuel sorter).2 = sorter.inSequence.map (·.1) := by
    intro fuel
    induction fuel with
    | zero =>
        intro sorter hsize
        have hsettled : sorter.Settled := fun queued hfirst =>
          absurd (OrdMap.size_popFirst_lt hfirst) (by omega)
        rw [inSequence_eq_nil_iff.mpr hsettled]
        rfl
    | succ fuel ih =>
        intro sorter hsize
        cases hturn : handNext now sorter with
        | none =>
            rw [Run.whileSome_of_none _ (by rw [incrementNext, hturn]; rfl),
              inSequence_eq_nil_iff.mpr (handNext_eq_none.mp hturn)]
            rfl
        | some turn =>
            have hands := handNext_eq_some hturn
            obtain ⟨queued, -, hentries, hsequence⟩ := entries_of_handsNext hands
            have hlength := congrArg List.length hentries
            rw [List.length_cons] at hlength
            rw [hsequence, List.map_cons, ← ih turn.1 (by rw [OrdMap.size] at hsize ⊢; omega)]
            simp [Run.whileSome, incrementNext, hturn]
  exact hloop _ sorter (Nat.le_refl _)

/-! ### When an increment overflows -/

/-- The operation increments `next_seq` only where there is a next number, and `next_seq` does not go
    back. -/
structure CountsOn (sorter : PacketSorter) (op : SorterOp) : Prop where
  increments : ∀ number ∈ op.increments sorter, number ≠ u64Max
  forward : ∀ next outs, sorterStep sorter op = some (next, outs) → sorter.nextSeq ≤ next.nextSeq

/-- Where an operation hands packets on, some number above the first of them is missing. -/
def StaysBelowMax (sorter : PacketSorter) : SorterOp → Prop
  | .insertPacket pkt _ => pkt.seq = sorter.nextSeq →
      ∃ number, pkt.seq < number ∧ sorter.packetQueue.get? number = none
  | .advanceQueue _ => ∀ key queued, sorter.packetQueue.first? = some (key, queued) →
      ∃ number, key < number ∧ sorter.packetQueue.get? number = none
  | .awaitHaveNextPacket => True

theorem le_u64Max (number : UInt64) : number ≤ u64Max := by
  have hlt := number.toNat_lt
  exact UInt64.le_iff_toNat_le.mpr (by rw [toNat_u64Max]; omega)

theorem lt_u64Max_iff {number : UInt64} : (∃ larger, number < larger) ↔ number ≠ u64Max :=
  ⟨fun ⟨_, hlt⟩ heq => absurd (heq ▸ hlt) (not_lt_of_ge (le_u64Max _)),
    fun hne => ⟨u64Max, lt_of_le_of_ne (le_u64Max number) hne⟩⟩

section Sequence

variable {sorter : PacketSorter} {now : Instant} {key : UInt64} {queued : QueuedPacket}

/-- A sequence from the first waiting number on stays below the largest number exactly when some number
    above the first is missing. -/
theorem inSequence_below_iff (first : sorter.packetQueue.first? = some (key, queued))
    (next : sorter.nextSeq = key) :
    (∀ entry ∈ sorter.inSequence, entry.1 ≠ u64Max) ↔
      ∃ number, key < number ∧ sorter.packetQueue.get? number = none := by
  have habove : ∀ entry ∈ sorter.packetQueue.entries, sorter.nextSeq ≤ entry.1 :=
    fun entry hentry => next ▸ OrdMap.first?_le first hentry
  have hreached : ∀ entry ∈ sorter.packetQueue.entries, entry ∈ sorter.inSequence ↔
      ∀ m, sorter.nextSeq ≤ m → m ≤ entry.1 → m ∈ sorter.packetQueue.entries.map (·.1) :=
    fun entry hentry => mem_takeRun_iff isSuccessor_add_one sorter.packetQueue.sorted habove hentry
  have hwaits : ∀ number, number ∈ sorter.packetQueue.entries.map (·.1) ↔
      sorter.packetQueue.get? number ≠ none := by
    intro number
    rw [Option.ne_none_iff_exists']
    exact OrdMap.mem_keys
  constructor
  · intro hbelow
    by_contra hnone
    have hall : ∀ number, key < number → sorter.packetQueue.get? number ≠ none :=
      fun number hlt hnumber => hnone ⟨number, hlt, hnumber⟩
    have hevery : ∀ m, sorter.nextSeq ≤ m → m ∈ sorter.packetQueue.entries.map (·.1) := by
      intro m hm
      rcases eq_or_lt_of_le (next ▸ hm) with rfl | hlt
      · exact List.mem_map_of_mem (OrdMap.mem_of_first? first)
      · exact (hwaits m).mpr (hall m hlt)
    obtain ⟨entry, hentry, hmax⟩ := List.mem_map.mp (hevery u64Max (le_u64Max _))
    exact hbelow entry ((hreached entry hentry).mpr fun m hm _ => hevery m hm) hmax
  · rintro ⟨number, hlt, hnumber⟩ entry hentry hmax
    have hmem := (takeRun_sublist _ _ _).subset hentry
    exact (hwaits number).mp ((hreached entry hmem).mp hentry number (next ▸ le_of_lt hlt)
      (hmax ▸ le_u64Max number)) hnumber

/-- A sequence that stays below the largest number counts up. -/
theorem le_runEnd_of_below (below : ∀ entry ∈ sorter.inSequence, entry.1 ≠ u64Max) :
    sorter.nextSeq ≤ runEnd (· + 1) sorter.nextSeq sorter.packetQueue.entries :=
  le_runEnd isSuccessor_add_one _ fun entry hentry => lt_u64Max_iff.mpr (below entry hentry)

theorem below_iff_increments :
    (∀ number ∈ sorter.increments now, number ≠ u64Max) ↔
      ∀ entry ∈ sorter.inSequence, entry.1 ≠ u64Max := by
  rw [increments_eq, List.forall_mem_map]

end Sequence

/-! ### The operations -/

theorem advanceIncrements_of_first? {sorter : PacketSorter} {key : UInt64} {queued : QueuedPacket}
    (now : Instant) (first : sorter.packetQueue.first? = some (key, queued)) :
    sorter.advanceIncrements now = ({ sorter with nextSeq := key } : PacketSorter).increments now := by
  simp only [advanceIncrements, first]

/-- An advance that does not overflow counts on from the first waiting number. -/
theorem le_nextSeq_advanceQueue {sorter : PacketSorter} {key : UInt64} {queued : QueuedPacket}
    {now : Instant} (first : sorter.packetQueue.first? = some (key, queued))
    (below : ∀ number ∈ sorter.advanceIncrements now, number ≠ u64Max) :
    key ≤ (sorter.advanceQueue now).1.nextSeq := by
  rw [advanceIncrements_of_first? now first, below_iff_increments] at below
  rw [nextSeq_advanceQueue now first]
  exact le_runEnd_of_below below

theorem countsOn_advanceQueue {sorter : PacketSorter} (now : Instant) (steady : Steady sorter) :
    CountsOn sorter (.advanceQueue now) ↔ StaysBelowMax sorter (.advanceQueue now) := by
  cases hfirst : sorter.packetQueue.first? with
  | none =>
      refine iff_of_true ⟨?_, ?_⟩ fun key queued h => absurd (hfirst.symm.trans h) (by simp)
      · simp [SorterOp.increments, advanceIncrements, hfirst]
      · rintro next outs ⟨⟩
        rw [advanceQueue_of_empty now hfirst]
  | some first =>
      obtain ⟨key, queued⟩ := first
      have hskip : ({ sorter with nextSeq := key } : PacketSorter).packetQueue.first? =
        some (key, queued) := hfirst
      have hbelow : (∀ number ∈ (SorterOp.advanceQueue now).increments sorter, number ≠ u64Max) ↔
          StaysBelowMax sorter (.advanceQueue now) := by
        rw [SorterOp.increments, advanceIncrements_of_first? now hfirst, below_iff_increments,
          inSequence_below_iff hskip rfl]
        refine ⟨fun h key' queued' h' => ?_, fun h => h key queued hfirst⟩
        obtain ⟨rfl, rfl⟩ := Prod.mk.inj (Option.some.inj (hfirst.symm.trans h'))
        exact h
      refine ⟨fun counts => hbelow.mp counts.increments, fun stays => ⟨hbelow.mpr stays, ?_⟩⟩
      rintro next outs ⟨⟩
      exact (le_of_lt (steady.ahead _ (OrdMap.mem_of_first? hfirst))).trans
        (le_nextSeq_advanceQueue hfirst (hbelow.mpr stays))

section Insert

variable {sorter : PacketSorter} {pkt : Packet} (now : Instant) (steady : Steady sorter)

include steady

/-- A packet ahead of the next number lets the queue count on to no more than the packet's number. -/
theorem increments_ahead (ahead : sorter.nextSeq < pkt.seq) :
    ∀ number ∈ (SorterOp.insertPacket pkt now).increments sorter, number ≠ u64Max := by
  cases hjump : sorter.isLargeJump pkt.seq with
  | true =>
      obtain ⟨key, queued, -, hqueued⟩ := first?_jump now hjump
      have hsettled : ((sorter.queuePacket pkt now).advanceQueue now).1.Settled :=
        advanceQueue_settled _ now
      simp only [SorterOp.increments, if_pos (le_of_lt ahead), hjump, if_true, enterQueue,
        advanceIncrements, hqueued, increments_eq, inSequence_eq_nil_iff.mpr hsettled, List.map_nil,
        List.append_nil]
      -- the packet that jumps comes behind a gap, and every number of the sequence before it
      intro number hnumber hmax
      obtain ⟨entry, hentry, rfl⟩ := List.mem_map.mp hnumber
      have hbehind : (pkt.seq, QueuedPacket.mk pkt now) ∈
          dropRun (· + 1) key (sorter.queuePacket pkt now).packetQueue.entries := by
        simp [dropRun_jump now hjump]
      have hlt := takeRun_lt_dropRun _ key (sorter.queuePacket pkt now).packetQueue.sorted entry
        hentry _ hbehind
      exact absurd (hmax ▸ hlt) (not_lt_of_ge (le_u64Max _))
  | false =>
      have hsettled : (sorter.queuePacket pkt now).Settled :=
        settled_of_ahead (ahead_queuePacket now steady ahead)
      simp [SorterOp.increments, hjump, enterQueue, increments_eq,
        inSequence_eq_nil_iff.mpr hsettled]

theorem increments_next (next : pkt.seq = sorter.nextSeq) :
    (SorterOp.insertPacket pkt now).increments sorter =
      (sorter.queuePacket pkt now).increments now := by
  have hnear := not_isLargeJump_next steady next
  simp [SorterOp.increments, le_of_eq next.symm, hnear, enterQueue]

/-- Only a packet under the next number can bring the largest number into the sequence. -/
theorem increments_insertPacket_iff :
    (∀ number ∈ (SorterOp.insertPacket pkt now).increments sorter, number ≠ u64Max) ↔
      StaysBelowMax sorter (.insertPacket pkt now) := by
  rcases lt_trichotomy pkt.seq sorter.nextSeq with late | next | ahead
  · refine iff_of_true ?_ fun next => absurd next (ne_of_lt late)
    simp [SorterOp.increments, not_le_of_gt late]
  · obtain ⟨hnew, hentries⟩ := queuePacket_next now steady next
    have hfirst : (sorter.queuePacket pkt now).packetQueue.first? =
        some (sorter.nextSeq, ⟨pkt, now⟩) := by
      rw [OrdMap.first?, hentries]
      rfl
    rw [increments_next now steady next, below_iff_increments, inSequence_below_iff hfirst rfl,
      queuePacket_of_new now hnew]
    have hother : ∀ number, sorter.nextSeq < number →
        (sorter.packetQueue.insert pkt.seq ⟨pkt, now⟩).get? number =
          sorter.packetQueue.get? number := fun number hlt =>
      OrdMap.get?_insert_of_ne _ _ (next ▸ ne_of_gt hlt)
    constructor
    · rintro ⟨number, hlt, hnumber⟩ -
      exact ⟨number, next ▸ hlt, (hother number hlt).symm.trans hnumber⟩
    · intro h
      obtain ⟨number, hlt, hnumber⟩ := h next
      exact ⟨number, next ▸ hlt, (hother number (next ▸ hlt)).trans hnumber⟩
  · exact iff_of_true (increments_ahead now steady ahead) fun next => absurd next (ne_of_gt ahead)

theorem countsOn_insertPacket :
    CountsOn sorter (.insertPacket pkt now) ↔ StaysBelowMax sorter (.insertPacket pkt now) := by
  have hbelow : (∀ number ∈ (SorterOp.insertPacket pkt now).increments sorter, number ≠ u64Max) ↔
      StaysBelowMax sorter (.insertPacket pkt now) := increments_insertPacket_iff now steady
  refine ⟨fun counts => hbelow.mp counts.increments, fun stays => ⟨hbelow.mpr stays, ?_⟩⟩
  rintro next outs ⟨⟩
  rcases insertPacket_cases now steady pkt with
    ⟨-, heq⟩ | ⟨-, -, -, heq⟩ | ⟨hnext, heq⟩ | ⟨hahead, hjump, heq⟩ <;> rw [heq]
  · obtain ⟨timer, htimer⟩ := startDeadline_eq (sorter.queuePacket pkt now) now
    rw [htimer]
    exact le_refl _
  · have hnumbers := hbelow.mpr stays
    rw [increments_next now steady hnext] at hnumbers
    rw [(drained_enqueueSortedPackets (sorter.queuePacket pkt now) now).nextSeq]
    exact le_runEnd_of_below (below_iff_increments.mp hnumbers)
  · obtain ⟨key, queued, hfirst, hqueued⟩ := first?_jump now hjump
    have hnumbers := hbelow.mpr stays
    simp only [SorterOp.increments, if_pos (le_of_lt hahead), hjump, if_true] at hnumbers
    exact (le_of_lt (steady.ahead _ (OrdMap.mem_of_first? hfirst))).trans
      (le_nextSeq_advanceQueue hqueued fun number hnumber =>
        hnumbers number (List.mem_append_left _ hnumber))

end Insert

/-! ### Runs -/

theorem countsOn_iff {sorter : PacketSorter} (steady : Steady sorter) (op : SorterOp) :
    CountsOn sorter op ↔ StaysBelowMax sorter op := by
  cases op with
  | insertPacket pkt now => exact countsOn_insertPacket now steady
  | advanceQueue now => exact countsOn_advanceQueue now steady
  | awaitHaveNextPacket =>
      refine iff_of_true ⟨List.forall_mem_nil _, fun next outs h => ?_⟩ trivial
      simp only [sorterStep] at h
      split at h
      · rename_i read pkt hread
        obtain ⟨rfl, -⟩ := Prod.mk.inj (Option.some.inj h)
        obtain ⟨channel, -, rfl⟩ := awaitHaveNextPacket_eq_some hread
        exact le_refl _
      · obtain ⟨rfl, -⟩ := Prod.mk.inj (Option.some.inj h)
        exact le_refl _

/-- Where the largest number never waits, it is the number that is missing. -/
theorem staysBelowMax_of_wellKeyed {sorter : PacketSorter} {op : SorterOp} (keyed : WellKeyed sorter)
    (bounded : op.Bounded) : StaysBelowMax sorter op := by
  have hmissing : sorter.packetQueue.get? u64Max = none :=
    OrdMap.get?_eq_none_iff.mpr fun queued hmem => absurd (keyed _ hmem).2 (lt_irrefl _)
  cases op with
  | insertPacket pkt now => exact fun _ => ⟨u64Max, bounded, hmissing⟩
  | advanceQueue now =>
      exact fun key queued hfirst => ⟨u64Max, (keyed _ (OrdMap.mem_of_first? hfirst)).2, hmissing⟩
  | awaitHaveNextPacket => exact trivial

/-- In every run no increment overflows and `next_seq` never goes back, exactly as long as each
    operation that hands packets on finds some number missing above the first of them. That is so in
    every run that inserts no packet under the largest number. -/
theorem sorter_counts_on_iff (deadline : Duration) (start : Instant) (ops : List SorterOp) :
    (Run.EachStep sorterStep (fun _ => CountsOn) (PacketSorter.new deadline start) ops ↔
      Run.EachStep sorterStep (fun _ => StaysBelowMax) (PacketSorter.new deadline start) ops) ∧
    ((∀ op ∈ ops, op.Bounded) →
      Run.EachStep sorterStep (fun _ => CountsOn) (PacketSorter.new deadline start) ops) := by
  constructor
  · constructor <;> intro h past op future mid before next now heq hrun hstep
    · exact (countsOn_iff (steady_run hrun) op).mp
        (h past op future mid before next now heq hrun hstep)
    · exact (countsOn_iff (steady_run hrun) op).mpr
        (h past op future mid before next now heq hrun hstep)
  · rintro bounded past op future mid before next now rfl hrun -
    refine (countsOn_iff (steady_run hrun) op).mpr (staysBelowMax_of_wellKeyed ?_ ?_)
    · exact (sorterSound_run (fun op hop => bounded op (List.mem_append_left _ hop)) hrun).keyed
    · exact bounded op (by simp)

/-- A packet under the largest number waits until the deadline. Handing it on overflows, and `next_seq`
    goes back to 0. -/
theorem largest_number_overflows :
    ¬ ∀ (deadline : Duration) (start : Instant) (ops : List SorterOp),
      Run.EachStep sorterStep (fun _ => CountsOn) (PacketSorter.new deadline start) ops := by
  intro h
  have hcounts := h 100 0
    [.insertPacket ⟨0, 7, [0]⟩ 0, .insertPacket ⟨u64Max, 7, [1]⟩ 1, .advanceQueue 101]
    [.insertPacket ⟨0, 7, [0]⟩ 0, .insertPacket ⟨u64Max, 7, [1]⟩ 1] (.advanceQueue 101) [] _ _ _ _
    rfl rfl rfl
  exact absurd rfl (hcounts.increments u64Max (by decide))

end MultiConnect
