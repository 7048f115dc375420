/-
Module: MultiConnect.Proofs.LatencyWindow
Layer: Proofs
Purpose: The window of recorded hello arrivals. While fewer than 100 sequence numbers are recorded, a
  further copy of a known hello is appended and nothing is lost. A full record gives up its least
  sequence number before it looks for the new one: the copy then costs another hello its arrivals, or,
  when it is the oldest hello itself, its own earlier ones.
Trusted boundary: none
Main exports: PathLatency.after, PathLatency.get?_insertNewTimestamp_of_room,
  PathLatency.get?_insertNewTimestamp_of_full, PathLatency.AppendsCopy, copy_appended_iff
-/
import Mathlib.Data.List.Induction
import MultiConnect.PathLatency

namespace MultiConnect

namespace PathLatency

/-! ### One arrival -/

theorem get?_push (ackTimestamps : OrdMap UInt64 (List Instant)) (seq k : UInt64) (now : Instant) :
    (push ackTimestamps seq now).get? k =
      if k = seq then some ((ackTimestamps.get? seq).getD [] ++ [now]) else ackTimestamps.get? k := by
  have hpush : push ackTimestamps seq now =
      ackTimestamps.insert seq ((ackTimestamps.get? seq).getD [] ++ [now]) := by
    unfold push
    split <;> simp [*]
  rw [hpush]
  split
  · rename_i hk
    rw [hk, OrdMap.get?_insert_self]
  · rename_i hother
    rw [OrdMap.get?_insert_of_ne _ _ hother]

variable {latency : PathLatency} {seq : UInt64} {now : Instant}

/-- With room left, the arrival is appended to the earlier ones. -/
theorem get?_insertNewTimestamp_of_room (room : latency.ackTimestamps.size < maxTimestamps)
    (k : UInt64) :
    (latency.insertNewTimestamp seq now).ackTimestamps.get? k =
      if k = seq then some ((latency.ackTimestamps.get? seq).getD [] ++ [now])
      else latency.ackTimestamps.get? k := by
  rw [insertNewTimestamp, if_pos room, get?_push]

theorem exists_first_of_full (full : ¬ latency.ackTimestamps.size < maxTimestamps) :
    ∃ oldest, latency.ackTimestamps.first? = some oldest := by
  cases hfirst : latency.ackTimestamps.first? with
  | some oldest => exact ⟨oldest, rfl⟩
  | none =>
      have hempty := OrdMap.first?_eq_none_iff.mp hfirst
      exact absurd (by simp [OrdMap.size, hempty, maxTimestamps]) full

/-- In a full record the least sequence number has lost its arrivals by then. -/
theorem get?_insertNewTimestamp_of_full (full : ¬ latency.ackTimestamps.size < maxTimestamps)
    {oldest : UInt64 × List Instant} (hfirst : latency.ackTimestamps.first? = some oldest)
    (k : UInt64) :
    (latency.insertNewTimestamp seq now).ackTimestamps.get? k =
      if k = seq then
        some ((if seq = oldest.1 then [] else (latency.ackTimestamps.get? seq).getD []) ++ [now])
      else if k = oldest.1 then none
      else latency.ackTimestamps.get? k := by
  rw [insertNewTimestamp, if_neg full, get?_push, OrdMap.get?_popFirst hfirst,
    OrdMap.get?_popFirst hfirst]
  split <;> split <;> rfl

/-- An arrival leaves no trace only in a full record whose least sequence number it is, noted with just
    this time. -/
theorem insertNewTimestamp_eq_self_iff :
    latency.insertNewTimestamp seq now = latency ↔
      ¬ latency.ackTimestamps.size < maxTimestamps ∧
        latency.ackTimestamps.first? = some (seq, [now]) := by
  constructor
  · intro h
    have hsame : ∀ k, (latency.insertNewTimestamp seq now).ackTimestamps.get? k =
        latency.ackTimestamps.get? k := fun k => by rw [h]
    by_cases room : latency.ackTimestamps.size < maxTimestamps
    · have hseq := hsame seq
      rw [get?_insertNewTimestamp_of_room room, if_pos rfl] at hseq
      cases hfound : latency.ackTimestamps.get? seq with
      | none => simp [hfound] at hseq
      | some timestamps => simp [hfound] at hseq
    · obtain ⟨oldest, hfirst⟩ := exists_first_of_full room
      have holdest := OrdMap.get?_eq_some_iff.mpr (OrdMap.mem_of_first? hfirst)
      by_cases hseq : seq = oldest.1
      · have hcopy := hsame seq
        rw [get?_insertNewTimestamp_of_full room hfirst, if_pos rfl, if_pos hseq, hseq, holdest] at hcopy
        refine ⟨room, ?_⟩
        rw [hfirst, hseq, show [now] = oldest.2 from Option.some.inj hcopy]
      · have hlost := hsame oldest.1
        rw [get?_insertNewTimestamp_of_full room hfirst, if_neg (Ne.symm hseq), if_pos rfl,
          holdest] at hlost
        cases hlost
  · rintro ⟨full, hfirst⟩
    have hgone : latency.ackTimestamps.popFirst.get? seq = none := by
      rw [OrdMap.get?_popFirst hfirst, if_pos rfl]
    have hentries : (latency.insertNewTimestamp seq now).ackTimestamps.entries =
        latency.ackTimestamps.entries := by
      rw [insertNewTimestamp, if_neg full]
      simp only [push, hgone]
      rw [OrdMap.insert_entries_of_lt _ fun entry hmem => OrdMap.first?_lt hfirst hmem,
        ← OrdMap.entries_of_first? hfirst]
    cases latency
    exact congrArg PathLatency.mk (OrdMap.ext hentries)

/-! ### Runs -/

/-- The record after hellos have arrived, each with its sequence number and time. -/
def after (arrivals : List (UInt64 × Instant)) : PathLatency :=
  arrivals.foldl (fun latency arrival => latency.insertNewTimestamp arrival.1 arrival.2) new

/-- A sequence number is recorded with an arrival. -/
def Recorded (latency : PathLatency) : Prop :=
  ∀ seq timestamps, latency.ackTimestamps.get? seq = some timestamps → timestamps ≠ []

theorem Recorded.insertNewTimestamp (h : latency.Recorded) (seq : UInt64) (now : Instant) :
    (latency.insertNewTimestamp seq now).Recorded := by
  intro k timestamps hfound
  by_cases room : latency.ackTimestamps.size < maxTimestamps
  · rw [get?_insertNewTimestamp_of_room room] at hfound
    split at hfound
    · obtain rfl := Option.some.inj hfound
      exact List.append_ne_nil_of_right_ne_nil _ (List.cons_ne_nil now [])
    · exact h k timestamps hfound
  · obtain ⟨oldest, hfirst⟩ := exists_first_of_full room
    rw [get?_insertNewTimestamp_of_full room hfirst] at hfound
    split at hfound
    · obtain rfl := Option.some.inj hfound
      exact List.append_ne_nil_of_right_ne_nil _ (List.cons_ne_nil now [])
    · split at hfound
      · cases hfound
      · exact h k timestamps hfound

theorem recorded_after (arrivals : List (UInt64 × Instant)) : (after arrivals).Recorded := by
  induction arrivals using List.reverseRecOn with
  | nil =>
      intro seq timestamps hfound
      cases hfound
  | append_singleton past arrival ih =>
      rw [after, List.foldl_append]
      exact Recorded.insertNewTimestamp ih arrival.1 arrival.2

/-! ### Further copies -/

/-- A further copy of a hello keeps the recorded sequence numbers, stands behind the earlier arrivals of
    that hello and leaves those of every other alone, and the delay estimate compares the first arrival
    with it. -/
structure AppendsCopy (latency : PathLatency) (seq : UInt64) (now : Instant) : Prop where
  recorded : ∀ k, k ∈ (latency.insertNewTimestamp seq now).ackTimestamps.keys ↔
    k ∈ latency.ackTimestamps.keys
  appended : ∃ first rest, latency.ackTimestamps.get? seq = some (first :: rest) ∧
    (latency.insertNewTimestamp seq now).ackTimestamps.get? seq = some (first :: rest ++ [now]) ∧
    (seq, first, now) ∈ (latency.insertNewTimestamp seq now).comparedArrivals
  others : ∀ k, k ≠ seq → (latency.insertNewTimestamp seq now).ackTimestamps.get? k =
    latency.ackTimestamps.get? k

theorem mem_comparedArrivals {first : Instant} {rest : List Instant}
    (h : latency.ackTimestamps.get? seq = some (first :: rest ++ [now])) :
    (seq, first, now) ∈ latency.comparedArrivals := by
  refine List.mem_filterMap.mpr ⟨_, OrdMap.get?_eq_some_iff.mp h, ?_⟩
  simp [List.getLast?_cons]

theorem appendsCopy_of_room (recorded : latency.Recorded) (known : seq ∈ latency.ackTimestamps.keys)
    (room : latency.ackTimestamps.size < maxTimestamps) : latency.AppendsCopy seq now := by
  obtain ⟨timestamps, hfound⟩ := OrdMap.mem_keys.mp known
  obtain ⟨first, rest, rfl⟩ := List.exists_cons_of_ne_nil (recorded seq timestamps hfound)
  have hcopy : (latency.insertNewTimestamp seq now).ackTimestamps.get? seq =
      some (first :: rest ++ [now]) := by
    rw [get?_insertNewTimestamp_of_room room, if_pos rfl, hfound, Option.getD_some]
  have hothers : ∀ k, k ≠ seq → (latency.insertNewTimestamp seq now).ackTimestamps.get? k =
      latency.ackTimestamps.get? k := fun k hother => by
    rw [get?_insertNewTimestamp_of_room room, if_neg hother]
  refine ⟨fun k => ?_, ⟨first, rest, hfound, hcopy, mem_comparedArrivals hcopy⟩, hothers⟩
  rw [OrdMap.mem_keys, OrdMap.mem_keys]
  by_cases hk : k = seq
  · subst hk
    exact iff_of_true ⟨_, hcopy⟩ ⟨_, hfound⟩
  · rw [hothers k hk]

/-- A full record loses the arrivals of another hello, or the earlier ones of the copied hello. -/
theorem not_appendsCopy_of_full (full : ¬ latency.ackTimestamps.size < maxTimestamps) :
    ¬ latency.AppendsCopy seq now := by
  intro h
  obtain ⟨oldest, hfirst⟩ := exists_first_of_full full
  by_cases holdest : seq = oldest.1
  · obtain ⟨first, rest, -, hcopy, -⟩ := h.appended
    rw [get?_insertNewTimestamp_of_full full hfirst, if_pos rfl, if_pos holdest] at hcopy
    simp at hcopy
  · have hlost := h.others oldest.1 (Ne.symm holdest)
    rw [get?_insertNewTimestamp_of_full full hfirst, if_neg (Ne.symm holdest), if_pos rfl,
      OrdMap.get?_eq_some_iff.mpr (OrdMap.mem_of_first? hfirst)] at hlost
    cases hlost

end PathLatency

/-- A further copy of a known hello is appended and evicts nothing exactly while the record holds fewer
    sequence numbers than it may keep. -/
theorem copy_appended_iff (arrivals : List (UInt64 × Instant)) (seq : UInt64) (now : Instant)
    (known : seq ∈ (PathLatency.after arrivals).ackTimestamps.keys) :
    (PathLatency.after arrivals).AppendsCopy seq now ↔
      (PathLatency.after arrivals).ackTimestamps.size < maxTimestamps := by
  constructor
  · intro h
    by_contra full
    exact PathLatency.not_appendsCopy_of_full full h
  · exact PathLatency.appendsCopy_of_room (PathLatency.recorded_after arrivals) known

theorem copy_appended_second :
    (PathLatency.after [(7, 0), (8, 1)]).AppendsCopy 7 2 ↔
      (PathLatency.after [(7, 0), (8, 1)]).ackTimestamps.size < maxTimestamps :=
  copy_appended_iff _ _ _ (by decide)

/-- A hundred hellos arrive in order; a second copy of the last one, over another path, evicts the
    first. -/
theorem copy_evicts_oldest :
    ¬ ∀ (arrivals : List (UInt64 × Instant)) (seq : UInt64) (now : Instant),
      seq ∈ (PathLatency.after arrivals).ackTimestamps.keys →
        (PathLatency.after arrivals).AppendsCopy seq now := by
  intro h
  have hfull : 99 ∈ (PathLatency.after ((List.range 100).map fun i =>
        (UInt64.ofNat i, i))).ackTimestamps.keys ∧
      ¬ (PathLatency.after ((List.range 100).map fun i =>
        (UInt64.ofNat i, i))).ackTimestamps.size < maxTimestamps := by
    decide +kernel
  exact PathLatency.not_appendsCopy_of_full hfull.2 (h _ 99 100 hfull.1)

end MultiConnect
