/-
Module: MultiConnect.Proofs.SorterReordering
Layer: Proofs
Purpose: Exact reordering. While the deadline never expires on waiting packets and no arrival lies more
  than 100 numbers past the last waiting one, the sorter computes a function of the arrivals: with `m`
  the least number that has not arrived, it has handed on the first arrival of each of `0, ..., m - 1`
  in order and holds the first arrival of every larger number. What does not depend on the order of
  arrival follows from this.
Trusted boundary: none
Main exports: firstInserted, InReach, Exact, ExactlyReordered, SameOutcome,
  sorter_reorders_exactly
-/
import Mathlib.Order.Bounds.Basic
import MultiConnect.Proofs.SorterRuns

namespace MultiConnect

open PacketSorter

/-! ### The specification -/

/-- The first packet with a given number in a list of arrivals. -/
def firstInserted (pkts : List Packet) (number : Nat) : Option Packet :=
  pkts.find? fun pkt => pkt.seq.toNat = number

/-- An operation that neither expires a deadline on waiting packets nor jumps. -/
def InReach (sorter : PacketSorter) : SorterOp → Prop
  | .insertPacket pkt _ =>
      sorter.packetQueue.last?.all fun tail => pkt.seq.toNat ≤ tail.1.toNat + 100
  | .advanceQueue _ => sorter.packetQueue.isEmpty
  | .awaitHaveNextPacket => True

instance (sorter : PacketSorter) : (op : SorterOp) → Decidable (InReach sorter op)
  | .insertPacket .. => instDecidableEqBool _ _
  | .advanceQueue _ => instDecidableEqBool _ _
  | .awaitHaveNextPacket => instDecidableTrue

/-- What the arrivals determine: `m` is the least missing number, the packets handed on are the first
    arrivals of the numbers below `m`, and the first arrivals of the numbers above `m` wait. -/
structure ExactlyReordered (pkts : List Packet) (sorter : PacketSorter) (outs : List SorterOutput)
    (m : Nat) : Prop where
  least : IsLeast { n | ∀ pkt ∈ pkts, pkt.seq.toNat ≠ n } m
  handed : (handedPackets outs).map (fun handed => some handed.packet) =
    (List.range m).map (firstInserted pkts)
  nextSeq : sorter.nextSeq.toNat = m
  waiting : ∀ key, (sorter.packetQueue.get? key).map (·.packet) =
    if m < key.toNat then firstInserted pkts key.toNat else none

theorem firstInserted_concat (pkts : List Packet) (pkt : Packet) (number : Nat) :
    firstInserted (pkts ++ [pkt]) number =
      (firstInserted pkts number).or (if pkt.seq.toNat = number then some pkt else none) := by
  rw [firstInserted, List.find?_append, firstInserted]
  by_cases h : pkt.seq.toNat = number <;> simp [h]

theorem firstInserted_eq_some {pkts : List Packet} {number : Nat} {pkt : Packet}
    (h : firstInserted pkts number = some pkt) : pkt ∈ pkts ∧ pkt.seq.toNat = number :=
  ⟨List.mem_of_find?_eq_some h, by simpa using List.find?_some h⟩

theorem firstInserted_eq_none {pkts : List Packet} {number : Nat} :
    firstInserted pkts number = none ↔ ∀ pkt ∈ pkts, pkt.seq.toNat ≠ number := by
  simp [firstInserted]

/-! ### The invariant -/

/-- The specification in the middle of an operation, when `nextSeq` itself may still wait. -/
structure Exact (pkts : List Packet) (sorter : PacketSorter) (out : List Handed) : Prop where
  handed : out.map (fun handed => some handed.packet) =
    (List.range sorter.nextSeq.toNat).map (firstInserted pkts)
  waiting : ∀ key, (sorter.packetQueue.get? key).map (·.packet) =
    if sorter.nextSeq ≤ key then firstInserted pkts key.toNat else none

/-- Everything below `nextSeq` has arrived. -/
theorem Exact.arrived {pkts : List Packet} {sorter : PacketSorter} {out : List Handed}
    (h : Exact pkts sorter out) {number : Nat} (hlt : number < sorter.nextSeq.toNat) :
    ∃ pkt, firstInserted pkts number = some pkt := by
  have hmem : firstInserted pkts number ∈
      (List.range sorter.nextSeq.toNat).map (firstInserted pkts) :=
    List.mem_map.mpr ⟨number, List.mem_range.mpr hlt, rfl⟩
  rw [← h.handed] at hmem
  obtain ⟨handed, -, heq⟩ := List.mem_map.mp hmem
  exact ⟨handed.packet, heq.symm⟩

theorem Exact.hands {pkts : List Packet} {sorter next : PacketSorter} {handed : Handed}
    {out : List Handed} (h : Exact pkts sorter out) (keyed : WellKeyed sorter)
    (hands : HandsNext sorter next handed) : Exact pkts next (out ++ [handed]) := by
  obtain ⟨queued, hfirst, hpacket⟩ := hands.first
  have hmem := OrdMap.mem_of_first? hfirst
  have hmax : sorter.nextSeq < u64Max := (keyed _ hmem).2
  have hsucc : (sorter.nextSeq + 1).toNat = sorter.nextSeq.toNat + 1 := by
    have := UInt64.lt_iff_toNat_lt.mp hmax
    rw [toNat_u64Max] at this
    rw [UInt64.toNat_add]
    exact Nat.mod_eq_of_lt (by simp; omega)
  have hfound : firstInserted pkts sorter.nextSeq.toNat = some queued.packet := by
    have := h.waiting sorter.nextSeq
    rw [OrdMap.get?_eq_some_iff.mpr hmem, if_pos (le_refl _)] at this
    exact this.symm
  constructor
  · rw [hands.nextSeq, hsucc, List.range_succ, List.map_append, List.map_append, h.handed]
    simp [hpacket, hfound]
  · intro key
    rw [hands.queue, hands.nextSeq, OrdMap.get?_popFirst hfirst]
    by_cases hkey : key = sorter.nextSeq
    · rw [if_pos hkey, if_neg]
      · rfl
      · rw [hkey]
        exact not_le_of_gt (lt_succ_of_lt_max hmax)
    · rw [if_neg hkey, h.waiting key]
      have hle : sorter.nextSeq ≤ key ↔ sorter.nextSeq + 1 ≤ key :=
        ⟨fun hle => succ_le_of_lt (lt_of_le_of_ne hle (Ne.symm hkey)),
          fun hle => le_trans (le_of_lt (lt_succ_of_lt_max hmax)) hle⟩
      simp only [hle]

theorem Exact.queues {pkts : List Packet} {sorter : PacketSorter} {out : List Handed}
    {pkt : Packet} (h : Exact pkts sorter out) (now : Instant) (notLate : sorter.nextSeq ≤ pkt.seq) :
    Exact (pkts ++ [pkt]) (sorter.queuePacket pkt now) out := by
  constructor
  · refine h.handed.trans (List.map_congr_left fun number hmem => ?_)
    have hlt : number < sorter.nextSeq.toNat := List.mem_range.mp hmem
    have hne : pkt.seq.toNat ≠ number := by
      have := UInt64.le_iff_toNat_le.mp notLate
      omega
    rw [firstInserted_concat, if_neg hne, Option.or_none]
  · intro key
    show ((sorter.packetQueue.orInsert pkt.seq ⟨pkt, now⟩).get? key).map (·.packet) =
      if sorter.nextSeq ≤ key then firstInserted (pkts ++ [pkt]) key.toNat else none
    rw [OrdMap.get?_orInsert, firstInserted_concat]
    by_cases hkey : key = pkt.seq
    · subst hkey
      have hwaiting := h.waiting pkt.seq
      rw [if_pos notLate] at hwaiting ⊢
      rw [if_pos rfl, if_pos rfl, ← hwaiting]
      cases sorter.packetQueue.get? pkt.seq <;> rfl
    · have hne : pkt.seq.toNat ≠ key.toNat := fun heq => hkey (UInt64.toNat_inj.mp heq).symm
      rw [if_neg hkey, if_neg hne, Option.or_none]
      exact h.waiting key

theorem Exact.late {pkts : List Packet} {sorter : PacketSorter} {out : List Handed} {pkt : Packet}
    (h : Exact pkts sorter out) (late : pkt.seq < sorter.nextSeq) :
    Exact (pkts ++ [pkt]) sorter out := by
  -- the number of a late packet has arrived, so its first arrival is an earlier packet
  have hsame : firstInserted (pkts ++ [pkt]) = firstInserted pkts := by
    funext number
    rw [firstInserted_concat]
    split
    · rename_i heq
      obtain ⟨first, hfirst⟩ := h.arrived (UInt64.lt_iff_toNat_lt.mp late)
      rw [heq] at hfirst
      rw [hfirst]
      rfl
    · exact Option.or_none
  exact ⟨hsame ▸ h.handed, hsame ▸ h.waiting⟩

theorem not_isLargeJump_of_inReach {sorter : PacketSorter} {pkt : Packet} {now : Instant}
    (h : InReach sorter (.insertPacket pkt now)) : sorter.isLargeJump pkt.seq = false := by
  unfold isLargeJump
  cases hlast : sorter.packetQueue.last? with
  | none => rfl
  | some tail =>
      have hreach : pkt.seq.toNat ≤ tail.1.toNat + 100 := by simpa [InReach, hlast] using h
      simp only [checkedSub]
      split
      · rename_i diff hdiff
        split at hdiff
        · rename_i hle
          obtain rfl := Option.some.inj hdiff
          have := UInt64.toNat_sub_of_le _ _ hle
          simp only [decide_eq_false_iff_not, UInt64.lt_iff_toNat_lt, this]
          simp
          omega
        · cases hdiff
      · rfl

/-- One operation within reach keeps the specification. -/
theorem exact_step {sorter next : PacketSorter} {op : SorterOp} {pkts : List Packet}
    {outs now : List SorterOutput} (h : Exact pkts sorter (handedPackets outs))
    (keyed : WellKeyed sorter) (bounded : op.Bounded) (reach : InReach sorter op)
    (hstep : sorterStep sorter op = some (next, now)) :
    Exact (pkts ++ insertedPackets [op]) next (handedPackets (outs ++ now)) := by
  cases op with
  | insertPacket pkt at_ =>
      obtain ⟨rfl, rfl⟩ := Prod.mk.inj (Option.some.inj hstep)
      have hhanded : handedPackets (if accepts sorter pkt then [.accepted pkt] else []) = [] := by
        split <;> rfl
      simp only [handedPackets_append, handedPackets_handed, hhanded, List.nil_append]
      show Exact (pkts ++ [pkt]) _ _
      by_cases notLate : sorter.nextSeq ≤ pkt.seq
      · have henter : sorter.enterQueue pkt at_ = (sorter.queuePacket pkt at_, []) := by
          rw [enterQueue, if_neg (by simp [not_isLargeJump_of_inReach reach])]
        have hkeyed := (steps_queuePacket [] [] at_ keyed bounded notLate).2
        obtain ⟨timer, htimer⟩ :=
          startDeadline_eq ((sorter.queuePacket pkt at_).enqueueSortedPackets at_).1 at_
        simp only [insertPacket, if_pos notLate, henter, htimer, List.nil_append]
        have hloop := enqueueSortedPackets_induction
          (P := fun s out => Exact (pkts ++ [pkt]) s out ∧ WellKeyed s)
          (fun s next handed out hP hands => ⟨hP.1.hands hP.2 hands,
            (release_of_handsNext [] [] hP.2 hands).2⟩)
          at_ ⟨h.queues at_ notLate, hkeyed⟩
        exact ⟨hloop.1.handed, hloop.1.waiting⟩
      · rw [insertPacket_of_late at_ (lt_of_not_ge notLate), List.append_nil]
        exact h.late (lt_of_not_ge notLate)
  | advanceQueue at_ =>
      obtain ⟨rfl, rfl⟩ := Prod.mk.inj (Option.some.inj hstep)
      have hnone : sorter.packetQueue.first? = none :=
        OrdMap.first?_eq_none_iff.mpr (OrdMap.isEmpty_iff.mp reach)
      simpa [advanceQueue, hnone, insertedPackets] using ⟨h.handed, h.waiting⟩
  | awaitHaveNextPacket =>
      simp only [sorterStep, PacketSorter.awaitHaveNextPacket] at hstep
      split at hstep
      · rename_i after pkt hread
        obtain ⟨rfl, rfl⟩ := Prod.mk.inj (Option.some.inj hstep)
        split at hread
        · obtain ⟨rfl, rfl⟩ := Prod.mk.inj (Option.some.inj hread)
          simpa [handedPackets, insertedPackets] using ⟨h.handed, h.waiting⟩
        · cases hread
      · obtain ⟨rfl, rfl⟩ := Prod.mk.inj (Option.some.inj hstep)
        simpa [insertedPackets] using h

theorem exact_new (deadline : Duration) (now : Instant) :
    Exact [] (PacketSorter.new deadline now) [] where
  handed := rfl
  waiting := by
    intro key
    rw [show (PacketSorter.new deadline now).packetQueue = OrdMap.empty from rfl]
    simp [firstInserted]

/-- Between operations `nextSeq` does not wait, which makes it the least missing number. -/
theorem Exact.exactlyReordered {pkts : List Packet} {sorter : PacketSorter}
    {outs : List SorterOutput} (h : Exact pkts sorter (handedPackets outs))
    (sound : SorterSound sorter outs) :
    ExactlyReordered pkts sorter outs sorter.nextSeq.toNat := by
  have hmissing : firstInserted pkts sorter.nextSeq.toNat = none := by
    have hwaiting := h.waiting sorter.nextSeq
    rw [if_pos (le_refl _)] at hwaiting
    rw [← hwaiting, Option.map_eq_none_iff]
    cases hget : sorter.packetQueue.get? sorter.nextSeq with
    | none => rfl
    | some queued =>
        exact absurd (sound.lt_of_mem_keys (OrdMap.mem_keys.mpr ⟨queued, hget⟩)) (lt_irrefl _)
  refine ⟨⟨firstInserted_eq_none.mp hmissing, fun number hnumber => ?_⟩, h.handed, rfl, ?_⟩
  · by_contra hlt
    obtain ⟨pkt, hpkt⟩ := h.arrived (Nat.lt_of_not_le hlt)
    obtain ⟨hmem, heq⟩ := firstInserted_eq_some hpkt
    exact hnumber pkt hmem heq
  · intro key
    rw [h.waiting key]
    by_cases hkey : key = sorter.nextSeq
    · rw [if_pos (le_of_eq hkey.symm), hkey, hmissing]
      simp
    · have hle : sorter.nextSeq ≤ key ↔ sorter.nextSeq.toNat < key.toNat := by
        rw [← UInt64.lt_iff_toNat_lt]
        exact ⟨fun hle => lt_of_le_of_ne hle (Ne.symm hkey), le_of_lt⟩
      simp only [hle]

/-- Every run within reach ends as its arrivals determine. -/
theorem exactlyReordered_run {deadline : Duration} {start : Instant} {ops : List SorterOp}
    {sorter : PacketSorter} {outs : List SorterOutput} (bounded : ∀ op ∈ ops, op.Bounded)
    (reach : Run.EachStep sorterStep (fun _ => InReach) (PacketSorter.new deadline start) ops)
    (hrun : Run.run sorterStep (PacketSorter.new deadline start) ops = some (sorter, outs)) :
    ExactlyReordered (insertedPackets ops) sorter outs sorter.nextSeq.toNat := by
  have hexact : Exact (insertedPackets ops) sorter (handedPackets outs) ∧
      SorterSound sorter outs := by
    refine Run.run_induction (C := fun _ s op => op.Bounded ∧ InReach s op)
      (P := fun past s outs => Exact (insertedPackets past) s (handedPackets outs) ∧
        SorterSound s outs)
      ⟨exact_new deadline start, sorterSound_new deadline start⟩ ?_ ?_ hrun
    · intro past op mid before next now _ ⟨hexact, hsound⟩ ⟨hbounded, hreach⟩ hstep
      rw [insertedPackets_append]
      exact ⟨exact_step hexact hsound.keyed hbounded hreach hstep,
        sorterSound_step hsound hbounded hstep⟩
    · intro past op future mid before next now heq hpast hstep
      exact ⟨bounded op (by simp [heq]), reach past op future mid before next now heq hpast hstep⟩
  exact hexact.1.exactlyReordered hexact.2

/-! ### Two orders of arrival -/

/-- The numbers handed on are `0, ..., m - 1`. -/
theorem ExactlyReordered.handed_numbers {pkts : List Packet} {sorter : PacketSorter}
    {outs : List SorterOutput} {m : Nat} (h : ExactlyReordered pkts sorter outs m) :
    (handedPackets outs).map (·.packet.seq.toNat) = List.range m := by
  have hnumber : ∀ number ∈ List.range m,
      (firstInserted pkts number).map (·.seq.toNat) = some number := by
    intro number hmem
    have hfound : firstInserted pkts number ∈ (List.range m).map (firstInserted pkts) :=
      List.mem_map.mpr ⟨number, hmem, rfl⟩
    rw [← h.handed] at hfound
    obtain ⟨handed, -, heq⟩ := List.mem_map.mp hfound
    rw [← heq, Option.map_some, (firstInserted_eq_some heq.symm).2]
  have hsome : ((handedPackets outs).map (·.packet.seq.toNat)).map some =
      (List.range m).map some := by
    have hmapped := congrArg (List.map (Option.map fun pkt : Packet => pkt.seq.toNat)) h.handed
    rw [List.map_map, List.map_map] at hmapped
    rw [List.map_map]
    exact hmapped.trans (List.map_congr_left hnumber)
  exact List.map_injective_iff.mpr (Option.some_injective Nat) hsome

/-- A number waits exactly when it arrived and lies above `m`. -/
theorem ExactlyReordered.contains_iff {pkts : List Packet} {sorter : PacketSorter}
    {outs : List SorterOutput} {m : Nat} (h : ExactlyReordered pkts sorter outs m) {key : UInt64} :
    sorter.packetQueue.contains key = true ↔
      m < key.toNat ∧ ∃ pkt ∈ pkts, pkt.seq.toNat = key.toNat := by
  have hwaiting := congrArg Option.isSome (h.waiting key)
  rw [Option.isSome_map] at hwaiting
  rw [OrdMap.contains, hwaiting]
  by_cases hlt : m < key.toNat
  · simp [hlt, firstInserted]
  · simp [hlt]

/-- The same packets, each under a number of its own, have the same first arrivals. -/
theorem firstInserted_congr {pkts pkts' : List Packet} (same : ∀ pkt, pkt ∈ pkts ↔ pkt ∈ pkts')
    (unique : ∀ pkt ∈ pkts, ∀ other ∈ pkts, pkt.seq = other.seq → pkt = other) (number : Nat) :
    firstInserted pkts number = firstInserted pkts' number := by
  cases hfirst : firstInserted pkts number with
  | none =>
      refine (firstInserted_eq_none.mpr fun pkt hmem => ?_).symm
      exact firstInserted_eq_none.mp hfirst pkt ((same pkt).mpr hmem)
  | some pkt =>
      obtain ⟨hmem, hnumber⟩ := firstInserted_eq_some hfirst
      cases hother : firstInserted pkts' number with
      | none => exact absurd hnumber (firstInserted_eq_none.mp hother pkt ((same pkt).mp hmem))
      | some other =>
          obtain ⟨hmem', hnumber'⟩ := firstInserted_eq_some hother
          have hseq : pkt.seq = other.seq := UInt64.toNat_inj.mp (hnumber.trans hnumber'.symm)
          rw [unique pkt hmem other ((same other).mpr hmem') hseq]

/-- The least missing number depends on the set of the packets only. -/
theorem ExactlyReordered.missing_eq {pkts pkts' : List Packet} {sorter sorter' : PacketSorter}
    {outs outs' : List SorterOutput} {m m' : Nat} (h : ExactlyReordered pkts sorter outs m)
    (h' : ExactlyReordered pkts' sorter' outs' m')
    (same : ∀ pkt, pkt ∈ pkts ↔ pkt ∈ pkts') : m = m' := by
  have hset : { n | ∀ pkt ∈ pkts, pkt.seq.toNat ≠ n } = { n | ∀ pkt ∈ pkts', pkt.seq.toNat ≠ n } := by
    ext n
    simp [same]
  exact h.least.unique (hset ▸ h'.least)

/-- What two arrival orders of the same packets end with in common. -/
structure SameOutcome (pkts : List Packet) (sorter sorter' : PacketSorter)
    (outs outs' : List SorterOutput) : Prop where
  nextSeq : sorter.nextSeq = sorter'.nextSeq
  handed_numbers : (handedPackets outs).map (·.packet.seq) = (handedPackets outs').map (·.packet.seq)
  waiting_numbers : ∀ key, sorter.packetQueue.contains key = sorter'.packetQueue.contains key
  packets : (∀ pkt ∈ pkts, ∀ other ∈ pkts, pkt.seq = other.seq → pkt = other) →
    (handedPackets outs).map (·.packet) = (handedPackets outs').map (·.packet) ∧
    ∀ key, (sorter.packetQueue.get? key).map (·.packet) =
      (sorter'.packetQueue.get? key).map (·.packet)

theorem ExactlyReordered.sameOutcome {pkts pkts' : List Packet} {sorter sorter' : PacketSorter}
    {outs outs' : List SorterOutput} {m m' : Nat} (h : ExactlyReordered pkts sorter outs m)
    (h' : ExactlyReordered pkts' sorter' outs' m')
    (same : ∀ pkt, pkt ∈ pkts ↔ pkt ∈ pkts') : SameOutcome pkts sorter sorter' outs outs' := by
  obtain rfl := h.missing_eq h' same
  have htoNat : Function.Injective UInt64.toNat := fun _ _ => UInt64.toNat_inj.mp
  constructor
  · exact UInt64.toNat_inj.mp (h.nextSeq.trans h'.nextSeq.symm)
  · refine List.map_injective_iff.mpr htoNat ?_
    rw [List.map_map, List.map_map]
    exact h.handed_numbers.trans h'.handed_numbers.symm
  · intro key
    rw [Bool.eq_iff_iff, h.contains_iff, h'.contains_iff]
    simp [same]
  · intro unique
    have hfirst : firstInserted pkts = firstInserted pkts' :=
      funext (firstInserted_congr same unique)
    constructor
    · have hsome : (handedPackets outs).map (fun handed => some handed.packet) =
          (handedPackets outs').map (fun handed => some handed.packet) := by
        rw [h.handed, h'.handed, hfirst]
      refine List.map_injective_iff.mpr (Option.some_injective Packet) ?_
      rw [List.map_map, List.map_map]
      exact hsome
    · intro key
      rw [h.waiting key, h'.waiting key, hfirst]

/-- Exact reordering without expiry, and what does not depend on the order of arrival. -/
theorem sorter_reorders_exactly (deadline : Duration) (start : Instant) (ops ops' : List SorterOp)
    (bounded : ∀ op ∈ ops, op.Bounded) (bounded' : ∀ op ∈ ops', op.Bounded)
    (reach : Run.EachStep sorterStep (fun _ => InReach) (PacketSorter.new deadline start) ops)
    (reach' : Run.EachStep sorterStep (fun _ => InReach) (PacketSorter.new deadline start) ops') :
    ∃ sorter outs m sorter' outs' m',
      Run.run sorterStep (PacketSorter.new deadline start) ops = some (sorter, outs) ∧
      Run.run sorterStep (PacketSorter.new deadline start) ops' = some (sorter', outs') ∧
      ExactlyReordered (insertedPackets ops) sorter outs m ∧
      ExactlyReordered (insertedPackets ops') sorter' outs' m' ∧
      ((∀ pkt, pkt ∈ insertedPackets ops ↔ pkt ∈ insertedPackets ops') →
        SameOutcome (insertedPackets ops) sorter sorter' outs outs') := by
  obtain ⟨sorter, outs, hrun⟩ := Run.run_total sorterStep_total (PacketSorter.new deadline start) ops
  obtain ⟨sorter', outs', hrun'⟩ :=
    Run.run_total sorterStep_total (PacketSorter.new deadline start) ops'
  have hexact := exactlyReordered_run bounded reach hrun
  have hexact' := exactlyReordered_run bounded' reach' hrun'
  exact ⟨sorter, outs, _, sorter', outs', _, hrun, hrun', hexact, hexact', hexact.sameOutcome hexact'⟩

/-- The numbers 2, 0, 1 and 4 in two orders of arrival, one of them with a copy. -/
theorem sorter_reorders_exactly_two_orders :
    ∃ sorter outs m sorter' outs' m',
      Run.run sorterStep (PacketSorter.new 100 0)
        [.insertPacket ⟨2, 7, [2]⟩ 0, .insertPacket ⟨0, 7, [0]⟩ 1, .insertPacket ⟨1, 7, [1]⟩ 2,
          .advanceQueue 3, .insertPacket ⟨4, 7, [4]⟩ 4] = some (sorter, outs) ∧
      Run.run sorterStep (PacketSorter.new 100 0)
        [.insertPacket ⟨4, 7, [4]⟩ 0, .insertPacket ⟨0, 7, [0]⟩ 1, .insertPacket ⟨4, 7, [4]⟩ 2,
          .insertPacket ⟨1, 7, [1]⟩ 3, .insertPacket ⟨2, 7, [2]⟩ 4] = some (sorter', outs') ∧
      ExactlyReordered [⟨2, 7, [2]⟩, ⟨0, 7, [0]⟩, ⟨1, 7, [1]⟩, ⟨4, 7, [4]⟩] sorter outs m ∧
      ExactlyReordered [⟨4, 7, [4]⟩, ⟨0, 7, [0]⟩, ⟨4, 7, [4]⟩, ⟨1, 7, [1]⟩, ⟨2, 7, [2]⟩]
        sorter' outs' m' ∧
      ((∀ pkt, pkt ∈ [⟨2, 7, [2]⟩, ⟨0, 7, [0]⟩, ⟨1, 7, [1]⟩, ⟨4, 7, [4]⟩] ↔
          pkt ∈ [⟨4, 7, [4]⟩, ⟨0, 7, [0]⟩, ⟨4, 7, [4]⟩, ⟨1, 7, [1]⟩, (⟨2, 7, [2]⟩ : Packet)]) →
        SameOutcome [⟨2, 7, [2]⟩, ⟨0, 7, [0]⟩, ⟨1, 7, [1]⟩, ⟨4, 7, [4]⟩] sorter sorter' outs outs') :=
  sorter_reorders_exactly 100 0 _ _ (by decide) (by decide)
    (Run.eachStep_of_everyStep (c := fun _ s op => decide (InReach s op)) (by simp) (by decide))
    (Run.eachStep_of_everyStep (c := fun _ s op => decide (InReach s op)) (by simp) (by decide))

/-- Two packets may carry the same number; then the first to arrive is the one handed on, and the
    order of arrival shows. -/
theorem arrival_order_shows_in_conflicting_copies :
    ¬ ∀ (ops ops' : List SorterOp) (sorter sorter' : PacketSorter) (outs outs' : List SorterOutput),
      (∀ op ∈ ops ++ ops', op.Bounded) →
      Run.EachStep sorterStep (fun _ => InReach) (PacketSorter.new 100 0) ops →
      Run.EachStep sorterStep (fun _ => InReach) (PacketSorter.new 100 0) ops' →
      Run.run sorterStep (PacketSorter.new 100 0) ops = some (sorter, outs) →
      Run.run sorterStep (PacketSorter.new 100 0) ops' = some (sorter', outs') →
      (∀ pkt, pkt ∈ insertedPackets ops ↔ pkt ∈ insertedPackets ops') →
      (handedPackets outs).map (·.packet) = (handedPackets outs').map (·.packet) := by
  intro h
  have hreach := fun ops (hcheck : Run.everyStep sorterStep
      (fun _ s op => decide (InReach s op)) [] (PacketSorter.new 100 0) ops = true) =>
    Run.eachStep_of_everyStep (C := fun _ => InReach) (by simp) hcheck
  have hequal := h [.insertPacket ⟨0, 7, [1]⟩ 0, .insertPacket ⟨0, 7, [2]⟩ 1]
    [.insertPacket ⟨0, 7, [2]⟩ 0, .insertPacket ⟨0, 7, [1]⟩ 1] _ _ _ _ (by decide)
    (hreach _ (by decide)) (hreach _ (by decide)) rfl rfl (by simp [insertedPackets, or_comm])
  revert hequal
  decide

end MultiConnect
