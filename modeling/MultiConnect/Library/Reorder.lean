/-
Module: MultiConnect.Library.Reorder
Layer: Library
Purpose: What a reorder buffer is for, over any linearly ordered numbers and any items. Items are
  accepted at or above a floor, wait under their number, and are released in order; the floor may skip
  numbers that nobody is waiting with. The invariant `Ordered` says that the releases are strictly
  increasing, that nothing waiting has been passed by, and that every accepted item is either waiting
  or was released once. It holds after any number of steps.
Trusted boundary: none
Main exports: Reorder.State, Reorder.Step, Reorder.Steps, Reorder.Ordered, Reorder.Ordered.steps,
  Reorder.DealtWith.steps
-/
import Mathlib.Data.List.Nodup
import Mathlib.Order.Lattice
import Mathlib.Logic.Relation
import MultiConnect.Library.OrdMap

universe u v

namespace Reorder

variable {κ : Type u} {α : Type v} [LinearOrder κ]

/-- A reorder buffer together with its history. -/
structure State (κ : Type u) (α : Type v) [LinearOrder κ] where
  floor : κ
  waiting : OrdMap κ α
  released : List (κ × α)
  accepted : List (κ × α)

/-- The buffer before anything was accepted. -/
def State.initial (floor : κ) : State κ α := ⟨floor, OrdMap.empty, [], []⟩

/-- The three things a reorder buffer does. -/
inductive Step : State κ α → State κ α → Prop where
  /-- Take in an item that is neither late nor already waiting. -/
  | accept {s : State κ α} (number : κ) (item : α) (notLate : s.floor ≤ number)
      (notWaiting : s.waiting.get? number = none) :
      Step s { s with
        waiting := s.waiting.insert number item
        accepted := s.accepted ++ [(number, item)] }
  /-- Give up on numbers below everything that waits. -/
  | skip {s : State κ α} (floor : κ) (raises : s.floor ≤ floor)
      (passesNone : ∀ entry ∈ s.waiting.entries, floor ≤ entry.1) :
      Step s { s with floor := floor }
  /-- Release the item at the floor and raise the floor above it. -/
  | release {s : State κ α} (item : α) (floor : κ)
      (first : s.waiting.first? = some (s.floor, item)) (raises : s.floor < floor)
      (passesNone : ∀ entry ∈ s.waiting.popFirst.entries, floor ≤ entry.1) :
      Step s { s with
        floor := floor
        waiting := s.waiting.popFirst
        released := s.released ++ [(s.floor, item)] }

/-- Any number of steps. -/
abbrev Steps : State κ α → State κ α → Prop := Relation.ReflTransGen Step

/-- Order and conservation. -/
structure Ordered (s : State κ α) : Prop where
  ahead : ∀ entry ∈ s.waiting.entries, s.floor ≤ entry.1
  increasing : s.released.Pairwise fun a b => a.1 < b.1
  below : ∀ entry ∈ s.released, entry.1 < s.floor
  conserved : (s.released ++ s.waiting.entries).Perm s.accepted

namespace Ordered

theorem initial (floor : κ) : Ordered (State.initial floor : State κ α) where
  ahead := by simp [State.initial, OrdMap.empty]
  increasing := List.Pairwise.nil
  below := by simp [State.initial]
  conserved := List.Perm.refl _

theorem step {s t : State κ α} (h : Ordered s) (hstep : Step s t) : Ordered t := by
  cases hstep with
  | accept number item notLate notWaiting =>
      refine ⟨fun entry hmem => ?_, h.increasing, h.below, ?_⟩
      · rcases OrdMap.mem_insertEntry hmem with rfl | hmem
        · exact notLate
        · exact h.ahead entry hmem
      · have hone : (s.released ++ (s.waiting.insert number item).entries).Perm
            ((s.released ++ s.waiting.entries) ++ [(number, item)]) := by
          rw [List.append_assoc]
          exact ((OrdMap.insert_entries_perm item notWaiting).trans
            (List.perm_append_singleton _ _).symm).append_left _
        exact hone.trans (h.conserved.append_right _)
  | skip floor raises passesNone =>
      exact ⟨passesNone, h.increasing,
        fun entry hmem => lt_of_lt_of_le (h.below entry hmem) raises, h.conserved⟩
  | release item floor first raises passesNone =>
      refine ⟨passesNone, ?_, fun entry hmem => ?_, ?_⟩
      · refine List.pairwise_append.mpr ⟨h.increasing, List.pairwise_singleton _ _, ?_⟩
        intro entry hmem last hlast
        rw [List.mem_singleton.mp hlast]
        exact h.below entry hmem
      · rcases List.mem_append.mp hmem with hmem | hmem
        · exact lt_trans (h.below entry hmem) raises
        · rw [List.mem_singleton.mp hmem]
          exact raises
      · have hsplit := OrdMap.entries_of_first? first
        have hconserved := h.conserved
        rw [hsplit] at hconserved
        simpa using hconserved

theorem steps {s t : State κ α} (h : Ordered s) (hsteps : Steps s t) : Ordered t := by
  induction hsteps with
  | refl => exact h
  | tail _ hstep ih => exact ih.step hstep

/-- The numbers of the accepted items are all different, so "once" is meant literally. -/
theorem accepted_nodup {s : State κ α} (h : Ordered s) : (s.accepted.map (·.1)).Nodup := by
  refine (h.conserved.map (·.1)).nodup_iff.mp ?_
  rw [List.map_append, List.nodup_append']
  refine ⟨?_, ?_, ?_⟩
  · exact (List.pairwise_map.mpr h.increasing).imp ne_of_lt
  · exact (List.pairwise_map.mpr s.waiting.sorted).imp ne_of_lt
  · intro number hreleased hwaiting
    obtain ⟨entry, hmem, rfl⟩ := List.mem_map.mp hreleased
    obtain ⟨other, hother, heq⟩ := List.mem_map.mp hwaiting
    exact absurd (heq ▸ h.ahead other hother) (not_le_of_gt (h.below entry hmem))

end Ordered

/-! ### Numbers that are dealt with -/

/-- A number is dealt with once it waits or lies below the floor: another item under it is refused. -/
def DealtWith (s : State κ α) (number : κ) : Prop :=
  number < s.floor ∨ ∃ item, s.waiting.get? number = some item

theorem DealtWith.step {s t : State κ α} {number : κ} (h : DealtWith s number)
    (hstep : Step s t) : DealtWith t number := by
  cases hstep with
  | accept other item notLate notWaiting =>
      refine h.imp id fun ⟨old, hold⟩ => ⟨old, ?_⟩
      rw [OrdMap.get?_insert_of_ne _ _ fun heq => by simp [heq, notWaiting] at hold]
      exact hold
  | skip floor raises passesNone => exact h.imp (fun hlt => lt_of_lt_of_le hlt raises) id
  | release item floor first raises passesNone =>
      rcases h with hlt | ⟨old, hold⟩
      · exact Or.inl (lt_trans hlt raises)
      · by_cases heq : number = s.floor
        · exact Or.inl (heq ▸ raises)
        · exact Or.inr ⟨old, by rw [OrdMap.get?_popFirst first, if_neg heq]; exact hold⟩

theorem DealtWith.steps {s t : State κ α} {number : κ} (h : DealtWith s number)
    (hsteps : Steps s t) : DealtWith t number := by
  induction hsteps with
  | refl => exact h
  | tail _ hstep ih => exact ih.step hstep

/-! ### Items that are numbered by their place in a source -/

/-- Items under increasing numbers, each the one at its place in the source, form a sublist of it. -/
theorem sublist_of_increasing {source : List α} (rank : κ → Nat) (mono : ∀ a b, a < b → rank a < rank b)
    {items : List (κ × α)} (increasing : items.Pairwise fun a b => a.1 < b.1)
    (numbered : ∀ entry ∈ items, source[rank entry.1]? = some entry.2) :
    (items.map (·.2)).Sublist source := by
  have hlt : ∀ entry ∈ items, rank entry.1 < source.length := fun entry hmem =>
    (List.getElem?_eq_some_iff.mp (numbered entry hmem)).1
  let place := fun (entry : κ × α) (h : rank entry.1 < source.length) =>
    (⟨rank entry.1, h⟩ : Fin source.length)
  have hplaces : (items.pmap place hlt).Pairwise (· < ·) :=
    (List.pairwise_pmap hlt).mpr (increasing.imp fun hless _ _ => mono _ _ hless)
  have hitems : items.map (·.2) = (items.pmap place hlt).map (source[·]) := by
    rw [List.map_pmap, ← List.pmap_eq_map (H := fun _ _ => trivial) (p := fun _ => True)]
    refine List.pmap_congr_left _ fun entry hmem _ hless => ?_
    exact (List.getElem_eq_iff hless).mpr (numbered entry hmem) |>.symm
  rw [hitems]
  exact List.map_getElem_sublist hplaces

end Reorder
