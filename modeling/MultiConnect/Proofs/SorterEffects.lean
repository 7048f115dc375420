/-
Module: MultiConnect.Proofs.SorterEffects
Layer: Proofs
Purpose: The exact effect of the sorter's operations. One drain hands on the waiting packets that are in
  sequence, up to the first gap, and starts the full deadline again when it hands any; advancing is a
  drain from the first waiting number on; an insertion changes nothing, lets the packet wait, fills the
  gap at the head, or jumps. Numbers are any `u64`, and counting on wraps, so nothing is assumed of them.
Trusted boundary: none
Main exports: PacketSorter.inSequence, PacketSorter.behindGap, Drained, drained_enqueueSortedPackets,
  Steady, advanceQueue_drains, timer_advanceQueue, isLargeJump_iff, insertPacket_cases, steady_run
-/
import MultiConnect.Library.Consecutive
import MultiConnect.Proofs.SorterCopies

namespace MultiConnect

open PacketSorter

/-- Counting on is right as long as a larger number exists. -/
theorem isSuccessor_add_one : IsSuccessor fun n : UInt64 => n + 1 where
  lt_succ h := by grind
  succ_le h := succ_le_of_lt h

/-! ### One drain -/

/-- The waiting packets that are next in sequence. -/
def PacketSorter.inSequence (sorter : PacketSorter) : List (UInt64 × QueuedPacket) :=
  takeRun (· + 1) sorter.nextSeq sorter.packetQueue.entries

/-- The waiting packets behind the first gap. -/
def PacketSorter.behindGap (sorter : PacketSorter) : List (UInt64 × QueuedPacket) :=
  dropRun (· + 1) sorter.nextSeq sorter.packetQueue.entries

/-- Everything that a drain does. -/
structure Drained (sorter : PacketSorter) (now : Instant) (next : PacketSorter)
    (handed : List Handed) : Prop where
  queue : next.packetQueue.entries = sorter.behindGap
  packets : handed.map (·.packet) = sorter.inSequence.map (·.2.packet)
  nextSeq : next.nextSeq = runEnd (· + 1) sorter.nextSeq sorter.packetQueue.entries
  deadline : next.deadline = sorter.deadline
  capacity : next.sortedPacketQueue.capacity = sorter.sortedPacketQueue.capacity
  timer : next.deadlineTimer =
    if sorter.inSequence = [] then sorter.deadlineTimer else Timer.after now sorter.deadline
  sent : handed.map (·.sent) = (List.range handed.length).map fun index =>
    decide (sorter.sortedPacketQueue.items.length + index < sorter.sortedPacketQueue.capacity)

theorem inSequence_eq_nil_iff {sorter : PacketSorter} :
    sorter.inSequence = [] ↔ sorter.Settled := by
  rw [inSequence, takeRun_eq_nil_iff, Settled, OrdMap.first?]
  constructor
  · exact fun h queued hfirst => h _ hfirst rfl
  · rintro h ⟨key, queued⟩ hfirst rfl
    exact h queued hfirst

/-- Nothing in sequence: nothing is handed on. -/
theorem drained_of_settled {sorter : PacketSorter} (now : Instant) (settled : sorter.Settled) :
    Drained sorter now sorter [] where
  queue := (dropRun_of_takeRun_eq_nil _ (inSequence_eq_nil_iff.mpr settled)).symm
  packets := by rw [inSequence_eq_nil_iff.mpr settled]; rfl
  nextSeq := by
    rw [runEnd, show takeRun _ _ _ = [] from inSequence_eq_nil_iff.mpr settled]
    rfl
  deadline := rfl
  capacity := rfl
  timer := by rw [if_pos (inSequence_eq_nil_iff.mpr settled)]
  sent := rfl

/-- One turn of the loop takes the first of the packets in sequence. -/
theorem entries_of_handsNext {sorter next : PacketSorter} {handed : Handed}
    (hands : HandsNext sorter next handed) :
    ∃ queued, handed.packet = queued.packet ∧
      sorter.packetQueue.entries = (sorter.nextSeq, queued) :: next.packetQueue.entries ∧
      sorter.inSequence = (sorter.nextSeq, queued) :: next.inSequence := by
  obtain ⟨queued, hfirst, hpacket⟩ := hands.first
  have hentries : sorter.packetQueue.entries =
      (sorter.nextSeq, queued) :: next.packetQueue.entries := by
    rw [hands.queue]
    exact OrdMap.entries_of_first? hfirst
  refine ⟨queued, hpacket, hentries, ?_⟩
  rw [inSequence, hentries, takeRun_cons_self, inSequence, hands.nextSeq]

/-- One turn of the loop in front of a drain. -/
theorem Drained.cons {sorter mid next : PacketSorter} {now : Instant} {first : Handed}
    {handed : List Handed} (turn : handNext now sorter = some (mid, first))
    (h : Drained mid now next handed) : Drained sorter now next (first :: handed) := by
  have hands := handNext_eq_some turn
  obtain ⟨htimer, hdeadline, hsent⟩ := handNext_timer turn
  obtain ⟨queued, hpacket, hentries, hsequence⟩ := entries_of_handsNext hands
  constructor
  · rw [h.queue, behindGap, behindGap, hentries, dropRun_cons_self, hands.nextSeq]
  · rw [List.map_cons, h.packets, hsequence, List.map_cons, hpacket]
  · rw [h.nextSeq, hentries, runEnd_cons_self, hands.nextSeq]
  · rw [h.deadline, hdeadline]
  · rw [h.capacity, hands.capacity]
  · rw [h.timer, htimer, hdeadline, ite_self, hsequence, if_neg (List.cons_ne_nil _ _)]
  · rw [List.map_cons, h.sent, List.length_cons, List.range_succ_eq_map, List.map_cons, List.map_map,
      hsent]
    congr 1
    refine List.map_congr_left fun index _ => ?_
    rw [Function.comp_apply, hands.capacity, hands.channel, List.length_append, decide_eq_decide,
      hsent]
    -- a packet that did not fit found the channel full
    by_cases hroom :
        sorter.sortedPacketQueue.items.length < sorter.sortedPacketQueue.capacity
    · simp [hroom]
      omega
    · simp [hroom]
      omega

theorem drained_enqueueSortedPackets (sorter : PacketSorter) (now : Instant) :
    Drained sorter now (sorter.enqueueSortedPackets now).1 (sorter.enqueueSortedPackets now).2 := by
  have hloop : ∀ (fuel : Nat) (sorter : PacketSorter), sorter.packetQueue.size ≤ fuel →
      Drained sorter now (Run.whileSome (handNext now) fuel sorter).1
        (Run.whileSome (handNext now) fuel sorter).2 := by
    intro fuel
    induction fuel with
    | zero =>
        intro sorter hsize
        refine drained_of_settled now fun queued hfirst => ?_
        exact absurd (OrdMap.size_popFirst_lt hfirst) (by omega)
    | succ fuel ih =>
        intro sorter hsize
        cases hturn : handNext now sorter with
        | none =>
            rw [Run.whileSome_of_none _ hturn]
            exact drained_of_settled now (handNext_eq_none.mp hturn)
        | some turn =>
            obtain ⟨queued, hfirst, -⟩ := (handNext_eq_some hturn).first
            have hlt := OrdMap.size_popFirst_lt hfirst
            rw [← (handNext_eq_some hturn).queue] at hlt
            simp only [Run.whileSome, hturn]
            exact (ih turn.1 (by omega)).cons hturn
  exact hloop _ sorter (Nat.le_refl _)

/-! ### What holds between the operations -/

/-- Every packet waits under its own number, ahead of the next number in sequence, and while packets
    wait the timer is armed. -/
structure Steady (sorter : PacketSorter) : Prop where
  numbered : ∀ entry ∈ sorter.packetQueue.entries, entry.2.packet.seq = entry.1
  ahead : ∀ entry ∈ sorter.packetQueue.entries, sorter.nextSeq < entry.1
  armed : sorter.packetQueue.entries ≠ [] → sorter.deadlineTimer.willFire = true
  capacity : sorter.sortedPacketQueue.capacity = 1000

theorem settled_of_ahead {sorter : PacketSorter}
    (ahead : ∀ entry ∈ sorter.packetQueue.entries, sorter.nextSeq < entry.1) : sorter.Settled :=
  fun _ hfirst => lt_irrefl _ (ahead _ (OrdMap.mem_of_first? hfirst))

theorem Steady.settled {sorter : PacketSorter} (h : Steady sorter) : sorter.Settled :=
  settled_of_ahead h.ahead

theorem steady_new (deadline : Duration) (start : Instant) :
    Steady (PacketSorter.new deadline start) where
  numbered := List.forall_mem_nil _
  ahead := List.forall_mem_nil _
  armed _ := rfl
  capacity := rfl

section Drain

variable {sorter next : PacketSorter} {now : Instant} {handed : List Handed}

/-- After a drain the waiting packets are ahead of the next number, when they were not behind it. -/
theorem Drained.ahead (h : Drained sorter now next handed)
    (above : ∀ entry ∈ sorter.packetQueue.entries, sorter.nextSeq ≤ entry.1) :
    ∀ entry ∈ next.packetQueue.entries, next.nextSeq < entry.1 := by
  rw [h.queue, h.nextSeq]
  exact lt_of_mem_dropRun isSuccessor_add_one sorter.packetQueue.sorted above

theorem Drained.mem_queue (h : Drained sorter now next handed) {entry : UInt64 × QueuedPacket}
    (hentry : entry ∈ next.packetQueue.entries) : entry ∈ sorter.packetQueue.entries :=
  (dropRun_sublist _ _ _).subset (h.queue ▸ hentry)

theorem Drained.handed_eq_nil_iff (h : Drained sorter now next handed) :
    handed = [] ↔ sorter.inSequence = [] := by
  rw [← List.map_eq_nil_iff (f := Handed.packet), h.packets, List.map_eq_nil_iff]

end Drain

/-! ### Advancing -/

/-- After an advance the timer runs for what the first waiting packet has left of its deadline. -/
theorem rearmAfterAdvance_timer {sorter : PacketSorter} {key : UInt64} {queued : QueuedPacket}
    {now : Instant} (first : sorter.packetQueue.first? = some (key, queued))
    (arrived : queued.timestamp ≤ now) :
    (sorter.rearmAfterAdvance now).deadlineTimer =
      ⟨some (max now (queued.timestamp + sorter.deadline))⟩ := by
  simp only [rearmAfterAdvance, first]
  split
  · rename_i hwaited
    rw [max_eq_left (by grind)]
    rfl
  · rename_i hwaits
    rw [max_eq_right (by grind)]
    show Timer.mk (some (now + (sorter.deadline - (now - queued.timestamp)))) = _
    congr 2
    grind

theorem rearmAfterAdvance_armed {sorter : PacketSorter} (now : Instant)
    (waiting : sorter.packetQueue.entries ≠ []) :
    (sorter.rearmAfterAdvance now).deadlineTimer.willFire = true := by
  unfold rearmAfterAdvance
  cases hfirst : sorter.packetQueue.first? with
  | none => exact absurd (OrdMap.first?_eq_none_iff.mp hfirst) waiting
  | some first =>
      dsimp only
      split <;> rfl

/-- Advancing a queue that is not empty is a drain from its first number on, which hands on the first
    packet at least. -/
theorem advanceQueue_drains {sorter : PacketSorter} {key : UInt64} {queued : QueuedPacket}
    (now : Instant) (first : sorter.packetQueue.first? = some (key, queued)) :
    ∃ drained handed, Drained { sorter with nextSeq := key } now drained handed ∧ handed ≠ [] ∧
      sorter.advanceQueue now = (drained.rearmAfterAdvance now, handed) := by
  have hdrained := drained_enqueueSortedPackets { sorter with nextSeq := key } now
  refine ⟨_, _, hdrained, ?_, by simp only [advanceQueue, first]⟩
  rw [ne_eq, hdrained.handed_eq_nil_iff, inSequence, takeRun_eq_nil_iff]
  exact fun h => h (key, queued) first rfl

theorem advanceQueue_of_empty {sorter : PacketSorter} (now : Instant)
    (empty : sorter.packetQueue.first? = none) :
    sorter.advanceQueue now = ({ sorter with deadlineTimer := Timer.never }, []) := by
  simp only [advanceQueue, empty]

theorem entries_advanceQueue {sorter : PacketSorter} {key : UInt64} {queued : QueuedPacket}
    (now : Instant) (first : sorter.packetQueue.first? = some (key, queued)) :
    (sorter.advanceQueue now).1.packetQueue.entries =
      dropRun (· + 1) key sorter.packetQueue.entries := by
  obtain ⟨drained, handed, hdrained, -, heq⟩ := advanceQueue_drains now first
  rw [heq, packetQueue_rearmAfterAdvance]
  exact hdrained.queue

theorem nextSeq_advanceQueue {sorter : PacketSorter} {key : UInt64} {queued : QueuedPacket}
    (now : Instant) (first : sorter.packetQueue.first? = some (key, queued)) :
    (sorter.advanceQueue now).1.nextSeq = runEnd (· + 1) key sorter.packetQueue.entries := by
  obtain ⟨drained, handed, hdrained, -, heq⟩ := advanceQueue_drains now first
  rw [heq, nextSeq_rearmAfterAdvance]
  exact hdrained.nextSeq

theorem mem_advanceQueue {sorter : PacketSorter} {now : Instant} {entry : UInt64 × QueuedPacket}
    (hentry : entry ∈ (sorter.advanceQueue now).1.packetQueue.entries) :
    entry ∈ sorter.packetQueue.entries := by
  cases hfirst : sorter.packetQueue.first? with
  | none => rwa [advanceQueue_of_empty now hfirst] at hentry
  | some first =>
      rw [entries_advanceQueue now hfirst] at hentry
      exact (dropRun_sublist _ _ _).subset hentry

theorem deadline_advanceQueue (sorter : PacketSorter) (now : Instant) :
    (sorter.advanceQueue now).1.deadline = sorter.deadline := by
  cases hfirst : sorter.packetQueue.first? with
  | none => rw [advanceQueue_of_empty now hfirst]
  | some first =>
      obtain ⟨drained, handed, hdrained, -, heq⟩ := advanceQueue_drains now hfirst
      rw [heq, deadline_rearmAfterAdvance, hdrained.deadline]

/-- An advance disarms the timer when it empties the queue. -/
theorem timer_advanceQueue_empty {sorter : PacketSorter} {now : Instant}
    (empty : (sorter.advanceQueue now).1.packetQueue.first? = none) :
    (sorter.advanceQueue now).1.deadlineTimer = Timer.never := by
  cases hfirst : sorter.packetQueue.first? with
  | none => rw [advanceQueue_of_empty now hfirst]
  | some first =>
      obtain ⟨drained, handed, -, -, heq⟩ := advanceQueue_drains now hfirst
      rw [heq, packetQueue_rearmAfterAdvance] at empty
      rw [heq, rearmAfterAdvance]
      simp only [empty]

/-- After an advance the timer runs for what the packet now at the head has left of its deadline. -/
theorem timer_advanceQueue {sorter : PacketSorter} {now : Instant} {key : UInt64}
    {queued : QueuedPacket}
    (head : (sorter.advanceQueue now).1.packetQueue.first? = some (key, queued))
    (arrived : queued.timestamp ≤ now) :
    (sorter.advanceQueue now).1.deadlineTimer =
      ⟨some (max now (queued.timestamp + sorter.deadline))⟩ := by
  cases hfirst : sorter.packetQueue.first? with
  | none =>
      rw [advanceQueue_of_empty now hfirst] at head
      exact absurd (hfirst.symm.trans head) (by simp)
  | some first =>
      obtain ⟨drained, handed, hdrained, -, heq⟩ := advanceQueue_drains now hfirst
      rw [heq, packetQueue_rearmAfterAdvance] at head
      rw [heq, rearmAfterAdvance_timer head arrived, hdrained.deadline]

theorem steady_advanceQueue {sorter : PacketSorter} (now : Instant)
    (numbered : ∀ entry ∈ sorter.packetQueue.entries, entry.2.packet.seq = entry.1)
    (capacity : sorter.sortedPacketQueue.capacity = 1000) :
    Steady (sorter.advanceQueue now).1 := by
  cases hfirst : sorter.packetQueue.first? with
  | none =>
      have hempty := OrdMap.first?_eq_none_iff.mp hfirst
      rw [advanceQueue_of_empty now hfirst]
      exact ⟨numbered, by simp [hempty], fun h => absurd hempty h, capacity⟩
  | some first =>
      obtain ⟨drained, handed, hdrained, -, heq⟩ := advanceQueue_drains now hfirst
      obtain ⟨timer, htimer⟩ := rearmAfterAdvance_eq drained now
      rw [heq]
      refine ⟨?_, ?_, fun h => rearmAfterAdvance_armed now (by rwa [htimer] at h), ?_⟩
      · rw [htimer]
        exact fun entry hentry => numbered entry (hdrained.mem_queue hentry)
      · rw [htimer]
        exact hdrained.ahead fun entry hentry => OrdMap.first?_le hfirst hentry
      · rw [htimer]
        exact hdrained.capacity.trans capacity

/-! ### Inserting -/

theorem isLargeJump_iff {sorter : PacketSorter} {number : UInt64} :
    sorter.isLargeJump number = true ↔ ∃ tail queued,
      sorter.packetQueue.last? = some (tail, queued) ∧ tail.toNat + 100 < number.toNat := by
  unfold isLargeJump
  cases hlast : sorter.packetQueue.last? with
  | none => simp
  | some last =>
      simp only [checkedSub]
      by_cases hle : last.1 ≤ number
      · have hsub := UInt64.toNat_sub_of_le _ _ hle
        have hnat := UInt64.le_iff_toNat_le.mp hle
        simp only [if_pos hle, decide_eq_true_eq, UInt64.lt_iff_toNat_lt, hsub, Option.some.injEq]
        constructor
        · exact fun h => ⟨last.1, last.2, rfl, by simp at h; omega⟩
        · rintro ⟨tail, queued, rfl, h⟩
          simp
          omega
      · have hnat := UInt64.lt_iff_toNat_lt.mp (lt_of_not_ge hle)
        simp only [if_neg hle, Bool.false_eq_true, Option.some.injEq, false_iff]
        rintro ⟨tail, queued, rfl, h⟩
        simp only at hnat
        omega

theorem startDeadline_of_armed {sorter : PacketSorter} (now : Instant)
    (armed : sorter.deadlineTimer.willFire = true) : sorter.startDeadline now = sorter := by
  rw [startDeadline, if_pos armed]

section Insert

variable {sorter : PacketSorter} {pkt : Packet} (now : Instant)

theorem queuePacket_of_new (new : sorter.packetQueue.get? pkt.seq = none) :
    sorter.queuePacket pkt now =
      { sorter with packetQueue := sorter.packetQueue.insert pkt.seq ⟨pkt, now⟩ } := by
  rw [queuePacket, OrdMap.orInsert_of_get?_none _ new]

theorem mem_queuePacket {entry : UInt64 × QueuedPacket}
    (hentry : entry ∈ (sorter.queuePacket pkt now).packetQueue.entries) :
    entry = (pkt.seq, ⟨pkt, now⟩) ∨ entry ∈ sorter.packetQueue.entries := by
  unfold queuePacket OrdMap.orInsert at hentry
  split at hentry
  · exact Or.inr hentry
  · exact OrdMap.mem_insertEntry hentry

theorem get?_eq_none_of_forall_ne (h : ∀ entry ∈ sorter.packetQueue.entries, entry.1 ≠ pkt.seq) :
    sorter.packetQueue.get? pkt.seq = none :=
  OrdMap.get?_eq_none_iff.mpr fun _ hmem => h _ hmem rfl

variable (steady : Steady sorter)

include steady

/-- A packet under the next number waits in front of all others. -/
theorem queuePacket_next (next : pkt.seq = sorter.nextSeq) :
    sorter.packetQueue.get? pkt.seq = none ∧
      (sorter.queuePacket pkt now).packetQueue.entries =
        (sorter.nextSeq, ⟨pkt, now⟩) :: sorter.packetQueue.entries := by
  have hahead : ∀ entry ∈ sorter.packetQueue.entries, pkt.seq < entry.1 := next ▸ steady.ahead
  have hnew := get?_eq_none_of_forall_ne fun entry hentry => ne_of_gt (hahead entry hentry)
  rw [queuePacket_of_new now hnew, ← next]
  exact ⟨hnew, OrdMap.insert_entries_of_lt _ hahead⟩

/-- The packet comes first in the sequence that it begins. -/
theorem inSequence_next (next : pkt.seq = sorter.nextSeq) :
    (sorter.queuePacket pkt now).inSequence = (sorter.nextSeq, ⟨pkt, now⟩) ::
      takeRun (· + 1) (sorter.nextSeq + 1) sorter.packetQueue.entries := by
  rw [inSequence, (queuePacket_next now steady next).2]
  exact takeRun_cons_self _ _ _ _

theorem behindGap_next (next : pkt.seq = sorter.nextSeq) :
    (sorter.queuePacket pkt now).behindGap =
      dropRun (· + 1) (sorter.nextSeq + 1) sorter.packetQueue.entries := by
  rw [behindGap, (queuePacket_next now steady next).2]
  exact dropRun_cons_self _ _ _ _

/-- The packet that fills the gap is handed on, so the full deadline starts again. -/
theorem timer_next (next : pkt.seq = sorter.nextSeq) :
    ((sorter.queuePacket pkt now).enqueueSortedPackets now).1.deadlineTimer =
      Timer.after now sorter.deadline := by
  rw [(drained_enqueueSortedPackets (sorter.queuePacket pkt now) now).timer,
    inSequence_next now steady next, if_neg (List.cons_ne_nil _ _)]
  rfl

omit steady in
/-- A packet that jumps waits behind all others. -/
theorem queuePacket_jump (jump : sorter.isLargeJump pkt.seq = true) :
    sorter.packetQueue.get? pkt.seq = none ∧
      (sorter.queuePacket pkt now).packetQueue.entries =
        sorter.packetQueue.entries ++ [(pkt.seq, ⟨pkt, now⟩)] := by
  obtain ⟨tail, queued, hlast, hjump⟩ := isLargeJump_iff.mp jump
  have hbehind : ∀ entry ∈ sorter.packetQueue.entries, entry.1 < pkt.seq := fun entry hentry => by
    have hle := UInt64.le_iff_toNat_le.mp (OrdMap.le_last? hlast hentry)
    exact UInt64.lt_iff_toNat_lt.mpr (by simp only at hle; omega)
  have hnew := get?_eq_none_of_forall_ne fun entry hentry => ne_of_lt (hbehind entry hentry)
  rw [queuePacket_of_new now hnew]
  exact ⟨hnew, OrdMap.insert_entries_of_gt _ hbehind⟩

omit steady in
/-- The first waiting packet stays the first. -/
theorem first?_jump (jump : sorter.isLargeJump pkt.seq = true) :
    ∃ key queued, sorter.packetQueue.first? = some (key, queued) ∧
      (sorter.queuePacket pkt now).packetQueue.first? = some (key, queued) := by
  obtain ⟨tail, last, hlast, -⟩ := isLargeJump_iff.mp jump
  obtain ⟨-, hentries⟩ := queuePacket_jump now jump
  cases hfirst : sorter.packetQueue.first? with
  | none =>
      have hmem := OrdMap.mem_of_last? hlast
      rw [OrdMap.first?_eq_none_iff.mp hfirst] at hmem
      cases hmem
  | some first =>
      refine ⟨first.1, first.2, rfl, ?_⟩
      rw [OrdMap.first?, hentries, List.head?_append, ← OrdMap.first?, hfirst]
      rfl

omit steady in
/-- The packet that jumped follows none of those before it, so it stays where they are left behind. -/
theorem dropRun_jump (jump : sorter.isLargeJump pkt.seq = true) (key : UInt64) :
    dropRun (· + 1) key (sorter.queuePacket pkt now).packetQueue.entries =
      dropRun (· + 1) key sorter.packetQueue.entries ++ [(pkt.seq, ⟨pkt, now⟩)] := by
  obtain ⟨tail, last, hlast, hjump⟩ := isLargeJump_iff.mp jump
  have hgap : pkt.seq ≠ tail + 1 := by
    intro heq
    have hlt := pkt.seq.toNat_lt
    have hsum := UInt64.toNat_add tail 1
    rw [← heq] at hsum
    simp at hsum
    omega
  rw [(queuePacket_jump now jump).2]
  exact dropRun_concat_of_ne _ hlast hgap

theorem numbered_queuePacket :
    ∀ entry ∈ (sorter.queuePacket pkt now).packetQueue.entries, entry.2.packet.seq = entry.1 := by
  intro entry hentry
  rcases mem_queuePacket now hentry with rfl | hold
  · rfl
  · exact steady.numbered entry hold

theorem ahead_queuePacket (ahead : sorter.nextSeq < pkt.seq) :
    ∀ entry ∈ (sorter.queuePacket pkt now).packetQueue.entries, sorter.nextSeq < entry.1 := by
  intro entry hentry
  rcases mem_queuePacket now hentry with rfl | hold
  · exact ahead
  · exact steady.ahead entry hold

/-- A packet that is late, or whose number waits already, changes nothing. -/
theorem insertPacket_dealt
    (dealt : pkt.seq < sorter.nextSeq ∨ sorter.packetQueue.contains pkt.seq = true) :
    sorter.insertPacket pkt now = (sorter, []) := by
  by_cases late : pkt.seq < sorter.nextSeq
  · exact insertPacket_of_late now late
  · have hcontains := dealt.resolve_left late
    obtain ⟨queued, hqueued⟩ := OrdMap.contains_iff.mp hcontains
    have harmed := steady.armed (List.ne_nil_of_mem (OrdMap.get?_eq_some_iff.mp hqueued))
    simp only [insertPacket, if_pos (le_of_not_gt late), enterQueue_of_contains now hcontains,
      enqueueSortedPackets_of_settled now steady.settled, startDeadline_of_armed now harmed,
      List.append_nil]

/-- A packet ahead of the next number waits, and the timer runs. -/
theorem insertPacket_waits (ahead : sorter.nextSeq < pkt.seq)
    (near : sorter.isLargeJump pkt.seq = false) :
    sorter.insertPacket pkt now = ((sorter.queuePacket pkt now).startDeadline now, []) := by
  have hsettled : (sorter.queuePacket pkt now).Settled :=
    settled_of_ahead (ahead_queuePacket now steady ahead)
  simp only [insertPacket, if_pos (le_of_lt ahead), enterQueue, near, Bool.false_eq_true, if_false,
    enqueueSortedPackets_of_settled now hsettled, List.append_nil]

/-- A packet under the next number comes before the last waiting one. -/
theorem not_isLargeJump_next (next : pkt.seq = sorter.nextSeq) :
    sorter.isLargeJump pkt.seq = false := by
  refine Bool.eq_false_iff.mpr fun hjump => ?_
  obtain ⟨tail, queued, hlast, hlt⟩ := isLargeJump_iff.mp hjump
  have hahead := UInt64.lt_iff_toNat_lt.mp (steady.ahead _ (OrdMap.mem_of_last? hlast))
  rw [next] at hlt
  simp only at hahead
  omega

/-- A packet under the next number fills the gap in front of the waiting ones. -/
theorem insertPacket_fills (next : pkt.seq = sorter.nextSeq) :
    sorter.insertPacket pkt now = (sorter.queuePacket pkt now).enqueueSortedPackets now := by
  have hnear := not_isLargeJump_next steady next
  have harmed : ((sorter.queuePacket pkt now).enqueueSortedPackets now).1.deadlineTimer.willFire =
      true := by
    rw [timer_next now steady next]
    rfl
  simp only [insertPacket, if_pos (le_of_eq next.symm), enterQueue, hnear, Bool.false_eq_true,
    if_false, List.nil_append, startDeadline_of_armed now harmed]

/-- A packet that jumps lets the queue advance, itself at its end. -/
theorem insertPacket_jumps (jump : sorter.isLargeJump pkt.seq = true) :
    sorter.nextSeq < pkt.seq ∧
      sorter.insertPacket pkt now = (sorter.queuePacket pkt now).advanceQueue now := by
  obtain ⟨tail, last, hlast, hlt⟩ := isLargeJump_iff.mp jump
  have hahead : sorter.nextSeq < pkt.seq := by
    have h := UInt64.lt_iff_toNat_lt.mp (steady.ahead _ (OrdMap.mem_of_last? hlast))
    exact UInt64.lt_iff_toNat_lt.mpr (by simp only at h; omega)
  have hsteady : Steady ((sorter.queuePacket pkt now).advanceQueue now).1 :=
    steady_advanceQueue now (numbered_queuePacket now steady) steady.capacity
  have harmed : ((sorter.queuePacket pkt now).advanceQueue now).1.deadlineTimer.willFire = true := by
    obtain ⟨key, queued, -, hqueued⟩ := first?_jump now jump
    refine hsteady.armed ?_
    rw [entries_advanceQueue now hqueued, dropRun_jump now jump]
    exact List.concat_ne_nil _ _
  simp only [insertPacket, if_pos (le_of_lt hahead), enterQueue, if_pos jump,
    enqueueSortedPackets_of_settled now hsteady.settled, startDeadline_of_armed now harmed,
    List.append_nil]
  exact ⟨hahead, trivial⟩

/-- An insertion changes nothing, lets the packet wait, fills the gap in front, or jumps. -/
theorem insertPacket_cases (pkt : Packet) :
    ((pkt.seq < sorter.nextSeq ∨ sorter.packetQueue.contains pkt.seq = true) ∧
      sorter.insertPacket pkt now = (sorter, [])) ∨
    (sorter.nextSeq < pkt.seq ∧ sorter.packetQueue.get? pkt.seq = none ∧
      sorter.isLargeJump pkt.seq = false ∧
      sorter.insertPacket pkt now = ((sorter.queuePacket pkt now).startDeadline now, [])) ∨
    (pkt.seq = sorter.nextSeq ∧
      sorter.insertPacket pkt now = (sorter.queuePacket pkt now).enqueueSortedPackets now) ∨
    (sorter.nextSeq < pkt.seq ∧ sorter.isLargeJump pkt.seq = true ∧
      sorter.insertPacket pkt now = (sorter.queuePacket pkt now).advanceQueue now) := by
  cases hjump : sorter.isLargeJump pkt.seq with
  | true =>
      obtain ⟨hahead, heq⟩ := insertPacket_jumps now steady hjump
      exact Or.inr (Or.inr (Or.inr ⟨hahead, rfl, heq⟩))
  | false =>
      cases hwaits : sorter.packetQueue.get? pkt.seq with
      | some queued =>
          have hcontains := OrdMap.contains_iff.mpr ⟨queued, hwaits⟩
          exact Or.inl ⟨Or.inr hcontains, insertPacket_dealt now steady (Or.inr hcontains)⟩
      | none =>
          rcases lt_trichotomy pkt.seq sorter.nextSeq with late | next | ahead
          · exact Or.inl ⟨Or.inl late, insertPacket_dealt now steady (Or.inl late)⟩
          · exact Or.inr (Or.inr (Or.inl ⟨next, insertPacket_fills now steady next⟩))
          · exact Or.inr (Or.inl ⟨ahead, rfl, rfl, insertPacket_waits now steady ahead hjump⟩)

theorem steady_insertPacket (pkt : Packet) : Steady (sorter.insertPacket pkt now).1 := by
  have hnumbered : ∀ entry ∈ (sorter.queuePacket pkt now).packetQueue.entries,
      entry.2.packet.seq = entry.1 := numbered_queuePacket now steady
  rcases insertPacket_cases now steady pkt with
    ⟨-, heq⟩ | ⟨ahead, -, -, heq⟩ | ⟨next, heq⟩ | ⟨-, -, heq⟩ <;> rw [heq]
  · exact steady
  · obtain ⟨timer, htimer⟩ := startDeadline_eq (sorter.queuePacket pkt now) now
    refine ⟨?_, ?_, fun _ => ?_, ?_⟩
    · rw [htimer]
      exact hnumbered
    · rw [htimer]
      exact ahead_queuePacket now steady ahead
    · unfold startDeadline
      split
      · assumption
      · rfl
    · rw [htimer]
      exact steady.capacity
  · have hdrained := drained_enqueueSortedPackets (sorter.queuePacket pkt now) now
    obtain ⟨-, hentries⟩ := queuePacket_next now steady next
    refine ⟨fun entry hentry => hnumbered entry (hdrained.mem_queue hentry), hdrained.ahead ?_, ?_,
      hdrained.capacity.trans steady.capacity⟩
    · rw [hentries]
      intro entry hentry
      rcases List.mem_cons.mp hentry with rfl | hold
      · exact le_refl _
      · exact le_of_lt (steady.ahead entry hold)
    · intro _
      rw [timer_next now steady next]
      rfl
  · exact steady_advanceQueue now hnumbered steady.capacity

end Insert

/-! ### Runs -/

theorem awaitHaveNextPacket_eq_some {sorter next : PacketSorter} {pkt : Packet}
    (h : sorter.awaitHaveNextPacket = some (next, pkt)) :
    ∃ channel, sorter.sortedPacketQueue.tryRecv = some (pkt, channel) ∧
      next = { sorter with sortedPacketQueue := channel } := by
  unfold awaitHaveNextPacket at h
  split at h
  · rename_i channel hread
    obtain ⟨rfl, rfl⟩ := Prod.mk.inj (Option.some.inj h)
    exact ⟨channel, hread, rfl⟩
  · cases h

theorem steady_step {sorter next : PacketSorter} {op : SorterOp} {outs : List SorterOutput}
    (steady : Steady sorter) (h : sorterStep sorter op = some (next, outs)) : Steady next := by
  cases op with
  | insertPacket pkt now =>
      obtain ⟨rfl, rfl⟩ := Prod.mk.inj (Option.some.inj h)
      exact steady_insertPacket now steady pkt
  | advanceQueue now =>
      obtain ⟨rfl, rfl⟩ := Prod.mk.inj (Option.some.inj h)
      exact steady_advanceQueue now steady.numbered steady.capacity
  | awaitHaveNextPacket =>
      simp only [sorterStep] at h
      split at h
      · rename_i read pkt hread
        obtain ⟨rfl, rfl⟩ := Prod.mk.inj (Option.some.inj h)
        obtain ⟨channel, hrecv, rfl⟩ := awaitHaveNextPacket_eq_some hread
        exact ⟨steady.numbered, steady.ahead, steady.armed,
          (Channel.tryRecv_eq_some hrecv).2.trans steady.capacity⟩
      · obtain ⟨rfl, rfl⟩ := Prod.mk.inj (Option.some.inj h)
        exact steady

/-- Between the operations of a run every sorter is steady. -/
theorem steady_run {deadline : Duration} {start : Instant} {ops : List SorterOp}
    {sorter : PacketSorter} {outs : List SorterOutput}
    (h : Run.run sorterStep (PacketSorter.new deadline start) ops = some (sorter, outs)) :
    Steady sorter :=
  Run.run_invariant (fun _ _ _ _ hmid hstep => steady_step hmid hstep) (steady_new deadline start) h

end MultiConnect
