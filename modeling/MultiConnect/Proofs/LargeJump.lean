/-
Module: MultiConnect.Proofs.LargeJump
Layer: Proofs
Purpose: What a packet far past the last waiting one does to those that wait. The queue advances once,
  which hands on the waiting packets up to their first gap. So the jump clears the queue exactly when the
  waiting numbers have no gap; otherwise the packets behind the first gap go on waiting.
Trusted boundary: none
Main exports: Clears, Contiguous, large_jump_clears_iff
-/
import MultiConnect.Proofs.SorterDrains

namespace MultiConnect

open PacketSorter

/-- The call that takes in the packet leaves none with a smaller number waiting: all those that waited
    were handed on, in order. -/
structure Clears (sorter : PacketSorter) (pkt : Packet) (now : Instant) : Prop where
  cleared : ∀ entry ∈ (sorter.insertPacket pkt now).1.packetQueue.entries, pkt.seq ≤ entry.1
  passed : (sorter.insertPacket pkt now).2.map (·.packet) = sorter.waitingPackets
  increasing : ((sorter.insertPacket pkt now).2.map (·.packet.seq)).Pairwise (· < ·)

/-- No number is missing between the first waiting one and the last. -/
def Contiguous (sorter : PacketSorter) : Prop :=
  ∀ first last, sorter.packetQueue.first? = some first → sorter.packetQueue.last? = some last →
    ∀ number, first.1 ≤ number → number ≤ last.1 → sorter.packetQueue.contains number = true

theorem contiguous_iff {sorter : PacketSorter} {first last : UInt64 × QueuedPacket}
    (hfirst : sorter.packetQueue.first? = some first)
    (hlast : sorter.packetQueue.last? = some last) :
    Contiguous sorter ↔ dropRun (· + 1) first.1 sorter.packetQueue.entries = [] := by
  have habove : ∀ entry ∈ sorter.packetQueue.entries, first.1 ≤ entry.1 :=
    fun entry hentry => OrdMap.first?_le hfirst hentry
  have hwaits : ∀ number, number ∈ sorter.packetQueue.entries.map (·.1) ↔
      sorter.packetQueue.contains number = true := by
    intro number
    rw [OrdMap.contains_iff]
    exact OrdMap.mem_keys
  rw [dropRun_eq_nil_iff isSuccessor_add_one sorter.packetQueue.sorted habove hlast]
  constructor
  · exact fun h number hge hle => (hwaits number).mpr (h first last hfirst hlast number hge hle)
  · intro h first' last' hfirst' hlast' number hge hle
    obtain rfl := Option.some.inj (hfirst.symm.trans hfirst')
    obtain rfl := Option.some.inj (hlast.symm.trans hlast')
    exact (hwaits number).mp (h number hge hle)

section Jump

variable {sorter : PacketSorter} {pkt : Packet} (now : Instant) (steady : Steady sorter)
  (jump : sorter.isLargeJump pkt.seq = true)

include steady jump

/-- What goes on waiting after a jump: the packets behind the first gap, and the one that jumped. -/
theorem entries_jump {key : UInt64} {queued : QueuedPacket}
    (first : sorter.packetQueue.first? = some (key, queued)) :
    (sorter.insertPacket pkt now).1.packetQueue.entries =
      dropRun (· + 1) key sorter.packetQueue.entries ++ [(pkt.seq, ⟨pkt, now⟩)] := by
  obtain ⟨key', queued', first', hqueued⟩ := first?_jump now jump
  obtain ⟨rfl, rfl⟩ := Prod.mk.inj (Option.some.inj (first.symm.trans first'))
  rw [(insertPacket_jumps now steady jump).2, entries_advanceQueue now hqueued,
    dropRun_jump now jump]

theorem waitingPackets_jump :
    (sorter.insertPacket pkt now).2.map (·.packet) ++
        (sorter.insertPacket pkt now).1.waitingPackets = sorter.waitingPackets ++ [pkt] := by
  rw [(insertPacket_jumps now steady jump).2, waitingPackets_advanceQueue, waitingPackets,
    (queuePacket_jump now jump).2, List.map_append]
  rfl

theorem clears_iff_contiguous : Clears sorter pkt now ↔ Contiguous sorter := by
  obtain ⟨tail, last, hlast, hlt⟩ := isLargeJump_iff.mp jump
  obtain ⟨key, queued, hfirst, -⟩ := first?_jump now jump
  have hentries := entries_jump now steady jump hfirst
  rw [contiguous_iff hfirst hlast]
  constructor
  · intro clears
    refine List.eq_nil_iff_forall_not_mem.mpr fun entry hentry => ?_
    have hge := UInt64.le_iff_toNat_le.mp
      (clears.cleared entry (hentries ▸ List.mem_append_left _ hentry))
    have hle := UInt64.le_iff_toNat_le.mp
      (OrdMap.le_last? hlast ((dropRun_sublist _ _ _).subset hentry))
    simp only at hle
    omega
  · intro hnil
    rw [hnil, List.nil_append] at hentries
    have hpassed : (sorter.insertPacket pkt now).2.map (·.packet) = sorter.waitingPackets := by
      have hall := waitingPackets_jump now steady jump
      rw [waitingPackets, hentries] at hall
      exact List.append_cancel_right hall
    refine ⟨?_, hpassed, ?_⟩
    · rw [hentries]
      exact List.forall_mem_singleton.mpr (le_refl _)
    · have hincreasing := steady.increasing
      rw [← hpassed, List.map_map] at hincreasing
      exact hincreasing

end Jump

/-- In every state that a run reaches, a packet more than 100 numbers past the last waiting one clears
    the queue exactly when the waiting numbers have no gap. -/
theorem large_jump_clears_iff (deadline : Duration) (start : Instant) (ops : List SorterOp)
    (sorter : PacketSorter) (outs : List SorterOutput)
    (reached : Run.run sorterStep (PacketSorter.new deadline start) ops = some (sorter, outs))
    (tail : UInt64) (queued : QueuedPacket)
    (last : sorter.packetQueue.last? = some (tail, queued)) (pkt : Packet)
    (jump : tail.toNat + 100 < pkt.seq.toNat) (now : Instant) :
    Clears sorter pkt now ↔ Contiguous sorter :=
  clears_iff_contiguous now (steady_run reached) (isLargeJump_iff.mpr ⟨tail, queued, last, jump⟩)

/-- Two waiting packets without a gap between them, and a jump past 100 numbers. -/
theorem large_jump_clears_two :
    ∃ sorter outs,
      Run.run sorterStep (PacketSorter.new 100 0)
        [.insertPacket ⟨2, 7, [2]⟩ 0, .insertPacket ⟨3, 7, [3]⟩ 1] = some (sorter, outs) ∧
      (Clears sorter ⟨200, 7, [4]⟩ 2 ↔ Contiguous sorter) := by
  refine ⟨_, _, rfl, ?_⟩
  exact large_jump_clears_iff 100 0 [.insertPacket ⟨2, 7, [2]⟩ 0, .insertPacket ⟨3, 7, [3]⟩ 1] _ _ rfl
    3 ⟨⟨3, 7, [3]⟩, 1⟩ rfl ⟨200, 7, [4]⟩ (by decide) 2

/-- Two waiting packets with a gap between them: the jump leaves the second one waiting. -/
theorem large_jump_leaves_gap :
    ¬ ∀ (deadline : Duration) (start : Instant) (ops : List SorterOp) (sorter : PacketSorter)
        (outs : List SorterOutput),
      Run.run sorterStep (PacketSorter.new deadline start) ops = some (sorter, outs) →
      ∀ (tail : UInt64) (queued : QueuedPacket),
        sorter.packetQueue.last? = some (tail, queued) →
        ∀ (pkt : Packet), tail.toNat + 100 < pkt.seq.toNat → pkt.seq < u64Max →
        ∀ (now : Instant), Clears sorter pkt now := by
  intro h
  have hclears := h 100 0 [.insertPacket ⟨2, 7, [2]⟩ 0, .insertPacket ⟨4, 7, [4]⟩ 1] _ _ rfl 4
    ⟨⟨4, 7, [4]⟩, 1⟩ rfl ⟨200, 7, [5]⟩ (by decide) (by decide) 2
  exact absurd (hclears.cleared (4, ⟨⟨4, 7, [4]⟩, 1⟩) (by decide)) (by decide)

end MultiConnect
