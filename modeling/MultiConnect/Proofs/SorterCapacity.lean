/-
Module: MultiConnect.Proofs.SorterCapacity
Layer: Proofs
Purpose: What one call sends on an empty channel. The channel has room for 1000 packets and the queue has
  no limit, so one call can release more packets than the channel takes: the first 1000 are sent and the
  others are dropped. Nothing is dropped while fewer than 1000 packets wait.
Trusted boundary: the runtime's channel
Main exports: SendsFirst, first_thousand_sent
-/
import MultiConnect.Proofs.SorterEffects

namespace MultiConnect

open PacketSorter

/-- Of the packets handed on, those are sent that the empty channel has room for. -/
def SendsFirst (room : Nat) (handed : List Handed) : Prop :=
  handed.map (·.sent) = (List.range handed.length).map fun index => decide (index < room)

theorem sendsFirst_nil (room : Nat) : SendsFirst room [] := rfl

/-- None is dropped exactly when there is room for all of them. -/
theorem SendsFirst.all_sent_iff {room : Nat} {handed : List Handed} (h : SendsFirst room handed) :
    (∀ packet ∈ handed, packet.sent = true) ↔ handed.length ≤ room := by
  have hall : (∀ packet ∈ handed, packet.sent = true) ↔
      ∀ sent ∈ handed.map (·.sent), sent = true := by rw [List.forall_mem_map]
  rw [hall, h, List.forall_mem_map]
  simp only [List.mem_range, decide_eq_true_eq]
  constructor
  · intro hroom
    by_contra hlt
    exact absurd (hroom room (Nat.lt_of_not_le hlt)) (lt_irrefl _)
  · exact fun hle index hindex => Nat.lt_of_lt_of_le hindex hle

/-- A drain into an empty channel. -/
theorem Drained.sendsFirst {sorter next : PacketSorter} {now : Instant} {handed : List Handed}
    (h : Drained sorter now next handed) (empty : sorter.sortedPacketQueue.items = [])
    (capacity : sorter.sortedPacketQueue.capacity = 1000) : SendsFirst 1000 handed := by
  rw [SendsFirst, h.sent, empty, capacity]
  refine List.map_congr_left fun index _ => ?_
  rw [List.length_nil, Nat.zero_add]

theorem Drained.length_le {sorter next : PacketSorter} {now : Instant} {handed : List Handed}
    (h : Drained sorter now next handed) : handed.length ≤ sorter.getQueueLength := by
  have hlength := congrArg List.length h.packets
  rw [List.length_map, List.length_map] at hlength
  rw [hlength]
  exact (takeRun_sublist _ _ _).length_le

theorem getQueueLength_queuePacket_le (sorter : PacketSorter) (pkt : Packet) (now : Instant) :
    (sorter.queuePacket pkt now).getQueueLength ≤ sorter.getQueueLength + 1 := by
  cases hwaits : sorter.packetQueue.get? pkt.seq with
  | some queued =>
      rw [queuePacket, OrdMap.orInsert_of_contains _ (OrdMap.contains_iff.mpr ⟨queued, hwaits⟩)]
      exact Nat.le_succ _
  | none =>
      rw [queuePacket_of_new now hwaits]
      exact le_of_eq (OrdMap.insert_entries_perm _ hwaits).length_eq

section Call

variable {sorter : PacketSorter} (now : Instant) (steady : Steady sorter)
  (empty : sorter.sortedPacketQueue.items = [])

include steady empty

theorem sendsFirst_advanceQueue :
    SendsFirst 1000 (sorter.advanceQueue now).2 ∧
      (sorter.advanceQueue now).2.length ≤ sorter.getQueueLength := by
  cases hfirst : sorter.packetQueue.first? with
  | none =>
      rw [advanceQueue_of_empty now hfirst]
      exact ⟨sendsFirst_nil _, Nat.zero_le _⟩
  | some first =>
      obtain ⟨drained, handed, hdrained, -, heq⟩ := advanceQueue_drains now hfirst
      rw [heq]
      exact ⟨hdrained.sendsFirst empty steady.capacity, hdrained.length_le⟩

theorem sendsFirst_insertPacket (pkt : Packet) :
    SendsFirst 1000 (sorter.insertPacket pkt now).2 ∧
      (sorter.insertPacket pkt now).2.length ≤ sorter.getQueueLength + 1 := by
  have hlength := getQueueLength_queuePacket_le sorter pkt now
  rcases insertPacket_cases now steady pkt with
    ⟨-, heq⟩ | ⟨-, -, -, heq⟩ | ⟨next, heq⟩ | ⟨-, hjump, heq⟩ <;> rw [heq]
  · exact ⟨sendsFirst_nil _, Nat.zero_le _⟩
  · exact ⟨sendsFirst_nil _, Nat.zero_le _⟩
  · have hdrained := drained_enqueueSortedPackets (sorter.queuePacket pkt now) now
    exact ⟨hdrained.sendsFirst empty steady.capacity, hdrained.length_le.trans hlength⟩
  · obtain ⟨key, queued, -, hqueued⟩ := first?_jump now hjump
    obtain ⟨drained, handed, hdrained, -, hadvance⟩ := advanceQueue_drains now hqueued
    rw [hadvance]
    exact ⟨hdrained.sendsFirst empty steady.capacity, hdrained.length_le.trans hlength⟩

end Call

/-- One call on an empty channel sends the first 1000 of the packets that it hands on and drops the
    others. It drops none exactly when it hands on no more than 1000, so none while fewer than 1000
    packets wait. -/
theorem first_thousand_sent (deadline : Duration) (start : Instant) (ops : List SorterOp)
    (sorter : PacketSorter) (outs : List SorterOutput)
    (reached : Run.run sorterStep (PacketSorter.new deadline start) ops = some (sorter, outs))
    (empty : sorter.sortedPacketQueue.items = []) :
    (∀ pkt now, SendsFirst 1000 (sorter.insertPacket pkt now).2 ∧
      ((∀ handed ∈ (sorter.insertPacket pkt now).2, handed.sent = true) ↔
        (sorter.insertPacket pkt now).2.length ≤ 1000) ∧
      (sorter.getQueueLength < 1000 →
        ∀ handed ∈ (sorter.insertPacket pkt now).2, handed.sent = true)) ∧
    ∀ now, SendsFirst 1000 (sorter.advanceQueue now).2 ∧
      ((∀ handed ∈ (sorter.advanceQueue now).2, handed.sent = true) ↔
        (sorter.advanceQueue now).2.length ≤ 1000) ∧
      (sorter.getQueueLength < 1000 →
        ∀ handed ∈ (sorter.advanceQueue now).2, handed.sent = true) := by
  have steady := steady_run reached
  constructor
  · intro pkt now
    obtain ⟨hsends, hlength⟩ := sendsFirst_insertPacket now steady empty pkt
    exact ⟨hsends, hsends.all_sent_iff, fun few => hsends.all_sent_iff.mpr (hlength.trans few)⟩
  · intro now
    obtain ⟨hsends, hlength⟩ := sendsFirst_advanceQueue now steady empty
    exact ⟨hsends, hsends.all_sent_iff,
      fun few => hsends.all_sent_iff.mpr (hlength.trans (le_of_lt few))⟩

/-- The gap in front of two waiting packets is filled. -/
theorem first_thousand_sent_three :
    ∃ sorter outs,
      Run.run sorterStep (PacketSorter.new 100 0)
        [.insertPacket ⟨1, 7, [1]⟩ 0, .insertPacket ⟨2, 7, [2]⟩ 1] = some (sorter, outs) ∧
      ∀ handed ∈ (sorter.insertPacket ⟨0, 7, [0]⟩ 2).2, handed.sent = true := by
  refine ⟨_, _, rfl, ?_⟩
  exact ((first_thousand_sent 100 0
    [.insertPacket ⟨1, 7, [1]⟩ 0, .insertPacket ⟨2, 7, [2]⟩ 1] _ _ rfl rfl).1 ⟨0, 7, [0]⟩ 2).2.2
      (by decide)

/-! ### More packets than the channel takes -/

/-- The packets numbered from 1 to `n`, inserted in this order. -/
def insertsFromOne (n : Nat) : List SorterOp :=
  (List.range n).map fun index => .insertPacket ⟨UInt64.ofNat (index + 1), 7, []⟩ 0

theorem toNat_ofNat_succ {n : Nat} (h : n < 1000) : (UInt64.ofNat (n + 1)).toNat = n + 1 := by
  rw [UInt64.toNat_ofNat']
  omega

/-- All of them wait for the packet numbered 0. -/
structure WaitsForZero (n : Nat) (sorter : PacketSorter) : Prop where
  nextSeq : sorter.nextSeq = 0
  items : sorter.sortedPacketQueue.items = []
  keys : sorter.packetQueue.entries.map (·.1) =
    (List.range n).map fun index => UInt64.ofNat (index + 1)

theorem WaitsForZero.le {n : Nat} {sorter : PacketSorter} (h : WaitsForZero n sorter) (hn : n ≤ 1000)
    {entry : UInt64 × QueuedPacket} (hentry : entry ∈ sorter.packetQueue.entries) :
    entry.1.toNat ≤ n := by
  have hmem : entry.1 ∈ sorter.packetQueue.entries.map (·.1) := List.mem_map_of_mem hentry
  rw [h.keys] at hmem
  obtain ⟨index, hindex, heq⟩ := List.mem_map.mp hmem
  have hlt := List.mem_range.mp hindex
  rw [← heq, toNat_ofNat_succ (Nat.lt_of_lt_of_le hlt hn)]
  exact hlt

/-- The next number is one past the last that waits, so it is no jump. -/
theorem WaitsForZero.near {n : Nat} {sorter : PacketSorter} (h : WaitsForZero n sorter)
    (hn : n < 1000) : sorter.isLargeJump (UInt64.ofNat (n + 1)) = false := by
  refine Bool.eq_false_iff.mpr fun hjump => ?_
  obtain ⟨tail, queued, hlast, hlt⟩ := isLargeJump_iff.mp hjump
  rw [toNat_ofNat_succ hn] at hlt
  cases n with
  | zero =>
      have hnil : sorter.packetQueue.entries = [] := List.map_eq_nil_iff.mp h.keys
      rw [OrdMap.last?, hnil] at hlast
      cases hlast
  | succ m =>
      have hmem : UInt64.ofNat (m + 1) ∈ sorter.packetQueue.entries.map (·.1) := by
        rw [h.keys]
        exact List.mem_map.mpr ⟨m, List.mem_range.mpr (Nat.lt_succ_self m), rfl⟩
      obtain ⟨entry, hentry, heq⟩ := List.mem_map.mp hmem
      have hle := UInt64.le_iff_toNat_le.mp (OrdMap.le_last? hlast hentry)
      rw [heq, toNat_ofNat_succ (Nat.lt_of_succ_lt hn)] at hle
      simp only at hle
      omega

theorem WaitsForZero.insert {n : Nat} {sorter : PacketSorter} (h : WaitsForZero n sorter)
    (steady : Steady sorter) (hn : n < 1000) :
    WaitsForZero (n + 1) (sorter.insertPacket ⟨UInt64.ofNat (n + 1), 7, []⟩ 0).1 := by
  have hbelow : ∀ entry ∈ sorter.packetQueue.entries, entry.1 < UInt64.ofNat (n + 1) := by
    intro entry hentry
    have hle := h.le (le_of_lt hn) hentry
    exact UInt64.lt_iff_toNat_lt.mpr (by rw [toNat_ofNat_succ hn]; omega)
  have hahead : sorter.nextSeq < UInt64.ofNat (n + 1) := by
    rw [h.nextSeq, UInt64.lt_iff_toNat_lt, toNat_ofNat_succ hn]
    exact Nat.succ_pos n
  have hinsert : sorter.insertPacket ⟨UInt64.ofNat (n + 1), 7, []⟩ 0 =
      ((sorter.queuePacket ⟨UInt64.ofNat (n + 1), 7, []⟩ 0).startDeadline 0, []) :=
    insertPacket_waits 0 steady hahead (h.near hn)
  have hnew : sorter.packetQueue.get? (UInt64.ofNat (n + 1)) = none :=
    OrdMap.get?_eq_none_iff.mpr fun queued hmem => absurd (hbelow _ hmem) (lt_irrefl _)
  obtain ⟨timer, htimer⟩ := startDeadline_eq (sorter.queuePacket ⟨UInt64.ofNat (n + 1), 7, []⟩ 0) 0
  rw [hinsert, htimer, queuePacket_of_new 0 hnew]
  refine ⟨h.nextSeq, h.items, ?_⟩
  rw [OrdMap.insert_entries_of_gt _ hbelow, List.map_append, h.keys, List.range_succ,
    List.map_append]
  rfl

theorem waitsForZero_run {n : Nat} (hn : n ≤ 1000) :
    ∃ sorter outs, Run.run sorterStep (PacketSorter.new 100 0) (insertsFromOne n) =
      some (sorter, outs) ∧ WaitsForZero n sorter := by
  induction n with
  | zero => exact ⟨_, _, rfl, rfl, rfl, rfl⟩
  | succ n ih =>
      obtain ⟨sorter, outs, hrun, hwaits⟩ := ih (Nat.le_of_succ_le hn)
      have hnext := hwaits.insert (steady_run hrun) hn
      rw [insertsFromOne, List.range_succ, List.map_append]
      exact ⟨_, _, Run.run_concat_eq_some.mpr ⟨sorter, outs, _, hrun, rfl, rfl⟩, hnext⟩

/-- No number is missing up to the last one that waits. -/
theorem WaitsForZero.dropRun_eq_nil {n : Nat} {sorter : PacketSorter} (h : WaitsForZero n sorter)
    (steady : Steady sorter) (hn : n ≤ 1000) :
    dropRun (· + 1) (sorter.nextSeq + 1) sorter.packetQueue.entries = [] := by
  cases hlast : sorter.packetQueue.entries.getLast? with
  | none =>
      rw [List.getLast?_eq_none_iff.mp hlast]
      rfl
  | some last =>
      have habove : ∀ entry ∈ sorter.packetQueue.entries, sorter.nextSeq + 1 ≤ entry.1 :=
        fun entry hentry => succ_le_of_lt (steady.ahead entry hentry)
      refine (dropRun_eq_nil_iff isSuccessor_add_one sorter.packetQueue.sorted habove hlast).mpr ?_
      intro m hone hm
      have hle := UInt64.le_iff_toNat_le.mp hm
      have hlast := h.le hn (List.mem_of_getLast? hlast)
      have hpositive := UInt64.le_iff_toNat_le.mp hone
      rw [h.nextSeq] at hpositive
      have hnat : ((0 : UInt64) + 1).toNat = 1 := rfl
      rw [h.keys]
      refine List.mem_map.mpr ⟨m.toNat - 1, List.mem_range.mpr (by omega), ?_⟩
      rw [Nat.sub_add_cancel (by omega), UInt64.ofNat_toNat]

/-- The packet numbered 0 releases them all. -/
theorem WaitsForZero.released {n : Nat} {sorter : PacketSorter} (h : WaitsForZero n sorter)
    (steady : Steady sorter) (hn : n ≤ 1000) (now : Instant) :
    (sorter.insertPacket ⟨0, 7, []⟩ now).2.length = n + 1 := by
  have hnext : (⟨0, 7, []⟩ : Packet).seq = sorter.nextSeq := h.nextSeq.symm
  have hpackets := congrArg List.length
    (drained_enqueueSortedPackets (sorter.queuePacket ⟨0, 7, []⟩ now) now).packets
  have hall := takeRun_append_dropRun (· + 1) (sorter.nextSeq + 1) sorter.packetQueue.entries
  rw [h.dropRun_eq_nil steady hn, List.append_nil] at hall
  rw [List.length_map, List.length_map, inSequence_next now steady hnext, List.length_cons,
    hall, ← List.length_map Prod.fst, h.keys, List.length_map, List.length_range] at hpackets
  rw [insertPacket_fills now steady hnext, hpackets]

/-- A thousand packets wait for the one that is missing in front. With it 1001 are released at once,
    and the channel, though it was empty, drops the last. -/
theorem thousand_waiting_overfill :
    ¬ ∀ (deadline : Duration) (start : Instant) (ops : List SorterOp) (sorter : PacketSorter)
        (outs : List SorterOutput),
      Run.run sorterStep (PacketSorter.new deadline start) ops = some (sorter, outs) →
      sorter.sortedPacketQueue.items = [] →
      (∀ pkt now, ∀ handed ∈ (sorter.insertPacket pkt now).2, handed.sent = true) ∧
      ∀ now, ∀ handed ∈ (sorter.advanceQueue now).2, handed.sent = true := by
  intro h
  obtain ⟨sorter, outs, hrun, hwaits⟩ := waitsForZero_run (Nat.le_refl 1000)
  have steady := steady_run hrun
  have hsent := (h 100 0 _ sorter outs hrun hwaits.items).1 ⟨0, 7, []⟩ 0
  rw [(sendsFirst_insertPacket 0 steady hwaits.items _).1.all_sent_iff,
    hwaits.released steady (Nat.le_refl 1000)] at hsent
  exact absurd hsent (by decide)

end MultiConnect
