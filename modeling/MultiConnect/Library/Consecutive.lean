/-
Module: MultiConnect.Library.Consecutive
Layer: Library
Purpose: Lists of numbered elements, split at the first number that is missing. The front part carries
  consecutive numbers from a given one on; the rest begins behind a gap. Where the list is in increasing
  order, a number lies in the front part exactly when no number up to it is missing. What follows a
  number is told by a function that needs to be right only where a larger number exists, so that machine
  integers, whose largest has none, are an instance.
Trusted boundary: none
Main exports: IsSuccessor, takeRun, dropRun, takeRun_append_dropRun, mem_takeRun_iff,
  dropRun_eq_nil_iff, lt_of_mem_dropRun, le_runEnd, dropRun_append, dropRun_concat_of_ne
-/
import Mathlib.Order.Lattice
import Mathlib.Data.List.Basic
import Mathlib.Data.List.Pairwise
import Mathlib.Logic.Function.Iterate

universe u v

variable {κ : Type u} {α : Type v}

/-- `succ n` is the least number above `n`, for every `n` that has a number above it. -/
structure IsSuccessor [LinearOrder κ] (succ : κ → κ) : Prop where
  lt_succ : ∀ {n m : κ}, n < m → n < succ n
  succ_le : ∀ {n m : κ}, n < m → succ n ≤ m

section Run

variable [DecidableEq κ] (succ : κ → κ)

/-- The longest front part that is numbered `n`, `succ n`, and so on. -/
def takeRun : κ → List (κ × α) → List (κ × α)
  | _, [] => []
  | n, entry :: rest => if entry.1 = n then entry :: takeRun (succ n) rest else []

/-- What is left behind that front part. -/
def dropRun : κ → List (κ × α) → List (κ × α)
  | _, [] => []
  | n, entry :: rest => if entry.1 = n then dropRun (succ n) rest else entry :: rest

/-- The number that would continue the front part. -/
def runEnd (n : κ) (l : List (κ × α)) : κ := succ^[(takeRun succ n l).length] n

variable {n : κ} {entry : κ × α} {l rest : List (κ × α)}

@[simp] theorem takeRun_nil : takeRun succ n ([] : List (κ × α)) = [] := rfl

@[simp] theorem dropRun_nil : dropRun succ n ([] : List (κ × α)) = [] := rfl

theorem takeRun_cons_of_eq (h : entry.1 = n) :
    takeRun succ n (entry :: rest) = entry :: takeRun succ (succ n) rest := if_pos h

theorem takeRun_cons_of_ne (h : entry.1 ≠ n) : takeRun succ n (entry :: rest) = [] := if_neg h

theorem dropRun_cons_of_eq (h : entry.1 = n) :
    dropRun succ n (entry :: rest) = dropRun succ (succ n) rest := if_pos h

theorem dropRun_cons_of_ne (h : entry.1 ≠ n) : dropRun succ n (entry :: rest) = entry :: rest :=
  if_neg h

theorem runEnd_cons_of_eq (h : entry.1 = n) :
    runEnd succ n (entry :: rest) = runEnd succ (succ n) rest := by
  rw [runEnd, takeRun_cons_of_eq succ h, List.length_cons, Function.iterate_succ_apply, ← runEnd]

theorem runEnd_cons_of_ne (h : entry.1 ≠ n) : runEnd succ n (entry :: rest) = n := by
  rw [runEnd, takeRun_cons_of_ne succ h]
  rfl

theorem takeRun_cons_self (n : κ) (v : α) (rest : List (κ × α)) :
    takeRun succ n ((n, v) :: rest) = (n, v) :: takeRun succ (succ n) rest := if_pos rfl

theorem dropRun_cons_self (n : κ) (v : α) (rest : List (κ × α)) :
    dropRun succ n ((n, v) :: rest) = dropRun succ (succ n) rest := if_pos rfl

theorem runEnd_cons_self (n : κ) (v : α) (rest : List (κ × α)) :
    runEnd succ n ((n, v) :: rest) = runEnd succ (succ n) rest := runEnd_cons_of_eq succ rfl

theorem takeRun_append_dropRun (n : κ) (l : List (κ × α)) :
    takeRun succ n l ++ dropRun succ n l = l := by
  induction l generalizing n with
  | nil => rfl
  | cons entry rest ih =>
      by_cases h : entry.1 = n
      · rw [takeRun_cons_of_eq succ h, dropRun_cons_of_eq succ h, List.cons_append, ih]
      · rw [takeRun_cons_of_ne succ h, dropRun_cons_of_ne succ h, List.nil_append]

theorem takeRun_sublist (n : κ) (l : List (κ × α)) : (takeRun succ n l).Sublist l := by
  conv_rhs => rw [← takeRun_append_dropRun succ n l]
  exact List.sublist_append_left _ _

theorem dropRun_sublist (n : κ) (l : List (κ × α)) : (dropRun succ n l).Sublist l := by
  conv_rhs => rw [← takeRun_append_dropRun succ n l]
  exact List.sublist_append_right _ _

/-- In an increasing list the front part is numbered below the rest. -/
theorem takeRun_lt_dropRun [LT κ] (n : κ) {l : List (κ × α)}
    (sorted : l.Pairwise fun a b => a.1 < b.1) :
    ∀ a ∈ takeRun succ n l, ∀ b ∈ dropRun succ n l, a.1 < b.1 := by
  rw [← takeRun_append_dropRun succ n l] at sorted
  exact (List.pairwise_append.mp sorted).2.2

/-- Where the list does not begin with the number the front part is empty. -/
theorem takeRun_eq_nil_iff : takeRun succ n l = [] ↔ ∀ entry, l.head? = some entry → entry.1 ≠ n := by
  cases l with
  | nil => simp
  | cons entry rest =>
      by_cases h : entry.1 = n
      · simp [takeRun_cons_of_eq succ h, h]
      · simp [takeRun_cons_of_ne succ h, h]

theorem dropRun_of_takeRun_eq_nil (h : takeRun succ n l = []) : dropRun succ n l = l := by
  have happend := takeRun_append_dropRun succ n l
  rwa [h, List.nil_append] at happend

/-- A list is continued behind a gap, or else where it ends. -/
theorem dropRun_append (n : κ) (l more : List (κ × α)) :
    dropRun succ n (l ++ more) =
      if dropRun succ n l = [] then dropRun succ (runEnd succ n l) more
      else dropRun succ n l ++ more := by
  induction l generalizing n with
  | nil => rfl
  | cons entry rest ih =>
      by_cases h : entry.1 = n
      · rw [List.cons_append, dropRun_cons_of_eq succ h, dropRun_cons_of_eq succ h,
          runEnd_cons_of_eq succ h, ih]
      · rw [List.cons_append, dropRun_cons_of_ne succ h, dropRun_cons_of_ne succ h,
          if_neg (List.cons_ne_nil _ _), List.cons_append]

/-- A front part that takes in the whole list ends after its last number. -/
theorem runEnd_of_dropRun_eq_nil {last : κ × α} (whole : dropRun succ n l = [])
    (hlast : l.getLast? = some last) : runEnd succ n l = succ last.1 := by
  induction l generalizing n with
  | nil => cases hlast
  | cons first rest ih =>
      by_cases h : first.1 = n
      · rw [dropRun_cons_of_eq succ h] at whole
        rw [runEnd_cons_of_eq succ h]
        cases rest with
        | nil =>
            have hfirst : first = last := Option.some.inj hlast
            rw [← hfirst, h]
            rfl
        | cons second others =>
            rw [List.getLast?_cons_cons] at hlast
            exact ih whole hlast
      · rw [dropRun_cons_of_ne succ h] at whole
        cases whole

/-- An element that does not follow the last one is left behind. -/
theorem dropRun_concat_of_ne {last : κ × α} (hlast : l.getLast? = some last)
    (gap : entry.1 ≠ succ last.1) :
    dropRun succ n (l ++ [entry]) = dropRun succ n l ++ [entry] := by
  rw [dropRun_append]
  split
  · rename_i whole
    rw [runEnd_of_dropRun_eq_nil succ whole hlast, dropRun_cons_of_ne succ gap, whole,
      List.nil_append]
  · rfl

end Run

/-! ### In increasing order -/

section Increasing

variable [LinearOrder κ] [DecidableEq κ] {succ : κ → κ} (successor : IsSuccessor succ) {n : κ}
  {l : List (κ × α)}

include successor

/-- What is left behind the front part is numbered above the number that would continue it. -/
theorem lt_of_mem_dropRun (sorted : l.Pairwise fun a b => a.1 < b.1)
    (above : ∀ entry ∈ l, n ≤ entry.1) : ∀ entry ∈ dropRun succ n l, runEnd succ n l < entry.1 := by
  induction l generalizing n with
  | nil => exact List.forall_mem_nil _
  | cons first rest ih =>
      obtain ⟨hfirst, hrest⟩ := List.pairwise_cons.mp sorted
      by_cases h : first.1 = n
      · rw [dropRun_cons_of_eq succ h, runEnd_cons_of_eq succ h]
        refine ih hrest fun entry hentry => ?_
        rw [← h]
        exact successor.succ_le (hfirst entry hentry)
      · rw [dropRun_cons_of_ne succ h, runEnd_cons_of_ne succ h]
        have hlt : n < first.1 := lt_of_le_of_ne (above first List.mem_cons_self) (Ne.symm h)
        intro entry hentry
        rcases List.mem_cons.mp hentry with rfl | hmem
        · exact hlt
        · exact hlt.trans (hfirst entry hmem)

/-- Counting along the front part goes up, as long as each of its numbers has one above it. -/
theorem le_runEnd (n : κ) {l : List (κ × α)}
    (bounded : ∀ entry ∈ takeRun succ n l, ∃ m, entry.1 < m) : n ≤ runEnd succ n l := by
  induction l generalizing n with
  | nil => exact le_refl n
  | cons first rest ih =>
      by_cases h : first.1 = n
      · rw [takeRun_cons_of_eq succ h] at bounded
        obtain ⟨m, hm⟩ := bounded first List.mem_cons_self
        rw [runEnd_cons_of_eq succ h]
        exact (le_of_lt (successor.lt_succ (h ▸ hm))).trans
          (ih (succ n) fun entry hentry => bounded entry (List.mem_cons_of_mem _ hentry))
      · rw [runEnd_cons_of_ne succ h]

/-- A number is reached exactly when no number up to it is missing. -/
theorem mem_takeRun_iff (sorted : l.Pairwise fun a b => a.1 < b.1)
    (above : ∀ entry ∈ l, n ≤ entry.1) {entry : κ × α} (hentry : entry ∈ l) :
    entry ∈ takeRun succ n l ↔ ∀ m, n ≤ m → m ≤ entry.1 → m ∈ l.map (·.1) := by
  induction l generalizing n with
  | nil => cases hentry
  | cons first rest ih =>
      obtain ⟨hfirst, hrest⟩ := List.pairwise_cons.mp sorted
      by_cases h : first.1 = n
      · rw [takeRun_cons_of_eq succ h]
        rcases List.mem_cons.mp hentry with rfl | hmem
        · refine iff_of_true List.mem_cons_self fun m hn hm => ?_
          obtain rfl : entry.1 = m := le_antisymm (h ▸ hn) hm
          exact List.mem_map_of_mem List.mem_cons_self
        · have hlt : n < entry.1 := h ▸ hfirst entry hmem
          have hne : entry ≠ first := fun heq => absurd (heq ▸ hfirst entry hmem) (lt_irrefl _)
          have hrun := ih hrest (fun other hother => h ▸ successor.succ_le (hfirst other hother)) hmem
          rw [List.mem_cons, or_iff_right hne, hrun, List.map_cons]
          constructor
          · intro hall m hn hm
            rcases eq_or_lt_of_le hn with rfl | hgt
            · exact h ▸ List.mem_cons_self
            · exact List.mem_cons_of_mem _ (hall m (successor.succ_le hgt) hm)
          · intro hall m hn hm
            have hgt : n < m := lt_of_lt_of_le (successor.lt_succ hlt) hn
            refine (List.mem_cons.mp (hall m (le_of_lt hgt) hm)).resolve_left fun heq => ?_
            exact absurd (heq.trans h) (ne_of_gt hgt)
      · rw [takeRun_cons_of_ne succ h]
        refine iff_of_false List.not_mem_nil fun hall => ?_
        have hlt : n < first.1 := lt_of_le_of_ne (above first List.mem_cons_self) (Ne.symm h)
        obtain ⟨other, hother, hn⟩ := List.mem_map.mp (hall n (le_refl n) (above entry hentry))
        rcases List.mem_cons.mp hother with rfl | hmem
        · exact absurd hn (ne_of_gt hlt)
        · exact absurd hn (ne_of_gt (hlt.trans (hfirst other hmem)))

/-- Nothing is left behind exactly when no number up to the last one is missing. -/
theorem dropRun_eq_nil_iff (sorted : l.Pairwise fun a b => a.1 < b.1)
    (above : ∀ entry ∈ l, n ≤ entry.1) {last : κ × α} (hlast : l.getLast? = some last) :
    dropRun succ n l = [] ↔ ∀ m, n ≤ m → m ≤ last.1 → m ∈ l.map (·.1) := by
  rw [← mem_takeRun_iff successor sorted above (List.mem_of_getLast? hlast)]
  have happend := takeRun_append_dropRun succ n l
  constructor
  · intro hnil
    rw [hnil, List.append_nil] at happend
    rw [happend]
    exact List.mem_of_getLast? hlast
  · intro hmem
    by_contra hne
    -- the last element would come both before and after the gap
    have hdrop : last ∈ dropRun succ n l := by
      rw [← happend, List.getLast?_append_of_ne_nil _ hne] at hlast
      exact List.mem_of_getLast? hlast
    exact lt_irrefl _ (takeRun_lt_dropRun succ n sorted last hmem last hdrop)

end Increasing
