/-
Module: MultiConnect.Library.EraseKeys
Layer: Library
Purpose: Erasing by key, over any elements and keys. For each key of a list, the first element with
  that key is erased. Within one key the erasures take a front part, so erasing the keys of the marked
  elements removes all of them, and only them, exactly when under each key the marked elements come
  first.
Trusted boundary: none
Main exports: eraseKeys, MarkedFirst, markedFirst_of_nodup, markedFirst_append, filter_eraseKeys,
  forall_mem_eraseKeys_iff, eraseKeys_eq_filter_iff, filter_sublist_eraseKeys_iff
-/
import Mathlib.Data.List.Basic

universe u v

variable {α : Type u} {κ : Type v}

/-- Erase, for each key in turn, the first element that has it. -/
def eraseKeys [DecidableEq κ] (key : α → κ) (keys : List κ) (l : List α) : List α :=
  keys.foldl (fun rest k => rest.eraseP fun a => key a = k) l

/-- Under each key, no marked element comes after one that is not. -/
def MarkedFirst (key : α → κ) (marked : α → Bool) (l : List α) : Prop :=
  l.Pairwise fun a b => key a = key b → marked b = true → marked a = true

/-- Where all keys differ the order does not matter. -/
theorem markedFirst_of_nodup {key : α → κ} (marked : α → Bool) {l : List α}
    (distinct : (l.map key).Nodup) : MarkedFirst key marked l :=
  (List.pairwise_map.mp distinct).imp fun hne heq => absurd heq hne

/-- Elements behind that are not marked do not matter. -/
theorem markedFirst_append {key : α → κ} {marked : α → Bool} {l more : List α}
    (unmarked : ∀ a ∈ more, marked a = false) :
    MarkedFirst key marked (l ++ more) ↔ MarkedFirst key marked l := by
  have hnever : ∀ a, ∀ b ∈ more, key a = key b → marked b = true → marked a = true := by
    intro a b hb _ hmarked
    rw [unmarked b hb] at hmarked
    cases hmarked
  unfold MarkedFirst
  rw [List.pairwise_append]
  constructor
  · exact fun h => h.1
  · intro h
    exact ⟨h, List.pairwise_of_forall_mem_list fun a _ b hb => hnever a b hb,
      fun a _ b hb => hnever a b hb⟩

/-! ### One key -/

section Erasing

variable [DecidableEq κ]

theorem filter_eraseP_self (p : α → Bool) (l : List α) :
    (l.eraseP p).filter p = (l.filter p).tail := by
  induction l with
  | nil => rfl
  | cons a rest ih =>
      cases hp : p a with
      | true => rw [List.eraseP_cons_of_pos hp, List.filter_cons_of_pos hp, List.tail_cons]
      | false =>
          have hnot : ¬ p a = true := by simp [hp]
          rw [List.eraseP_cons_of_neg hnot, List.filter_cons_of_neg hnot,
            List.filter_cons_of_neg hnot, ih]

theorem filter_eraseP_of_disjoint {p q : α → Bool} (disjoint : ∀ a, p a = true → q a = false)
    (l : List α) : (l.eraseP p).filter q = l.filter q := by
  induction l with
  | nil => rfl
  | cons a rest ih =>
      cases hp : p a with
      | true =>
          rw [List.eraseP_cons_of_pos hp, List.filter_cons_of_neg (by simp [disjoint a hp])]
      | false =>
          rw [List.eraseP_cons_of_neg (by simp [hp]), List.filter_cons, List.filter_cons, ih]

/-- What is left under a key is what remains after as many erasures as the key is listed. -/
theorem filter_eraseKeys (key : α → κ) (k : κ) (keys : List κ) :
    ∀ l : List α, (eraseKeys key keys l).filter (fun a => key a = k) =
      (l.filter fun a => key a = k).drop (keys.count k) := by
  induction keys with
  | nil => exact fun l => rfl
  | cons first rest ih =>
      intro l
      rw [eraseKeys, List.foldl_cons, ← eraseKeys, ih]
      by_cases hfirst : first = k
      · rw [hfirst, filter_eraseP_self, List.count_cons_self, List.drop_tail]
      · rw [filter_eraseP_of_disjoint _ l, List.count_cons_of_ne hfirst]
        intro a ha
        simpa [of_decide_eq_true ha] using hfirst

/-- The order in which keys are erased does not matter. -/
theorem eraseKeys_perm (key : α → κ) {keys more : List κ} (order : keys.Perm more) (l : List α) :
    eraseKeys key keys l = eraseKeys key more l := by
  refine order.foldl_eq' (fun k _ k' _ rest => ?_) l
  by_cases hk : k = k'
  · rw [hk]
  · refine List.eraseP_comm fun a _ => ?_
    by_cases ha : key a = k
    · exact Or.inr (by simpa [ha] using hk)
    · exact Or.inl (by simpa using ha)

theorem eraseKeys_sublist (key : α → κ) (keys : List κ) (l : List α) :
    (eraseKeys key keys l).Sublist l :=
  List.foldlRecOn keys _ (motive := fun rest : List α => rest.Sublist l) (List.Sublist.refl l)
    fun _ hrest _ _ => List.eraseP_sublist.trans hrest

/-- Each listed key erases one element, as long as there are as many with that key. -/
theorem length_eraseKeys (key : α → κ) (keys : List κ) :
    ∀ l : List α, (∀ k, keys.count k ≤ (l.filter fun a => key a = k).length) →
      (eraseKeys key keys l).length + keys.length = l.length := by
  induction keys with
  | nil => exact fun l _ => rfl
  | cons first rest ih =>
      intro l enough
      have hfirst : 0 < (l.filter fun a => key a = first).length := by
        have hcount := enough first
        rw [List.count_cons_self] at hcount
        omega
      obtain ⟨a, ha⟩ := List.exists_mem_of_length_pos hfirst
      obtain ⟨hmem, hkey⟩ := List.mem_filter.mp ha
      have herased := List.length_eraseP_of_mem (p := fun a => key a = first) hmem hkey
      have hrest := ih (l.eraseP fun a => key a = first) fun k => ?_
      · have hpos := List.length_pos_of_mem hmem
        rw [eraseKeys, List.foldl_cons, ← eraseKeys, List.length_cons]
        omega
      · have hcount := enough k
        by_cases hk : first = k
        · rw [hk, List.count_cons_self] at hcount
          rw [hk, filter_eraseP_self, List.length_tail]
          omega
        · rw [List.count_cons_of_ne hk] at hcount
          rwa [filter_eraseP_of_disjoint]
          intro a ha
          simpa [of_decide_eq_true ha] using hk

/-! ### Marked elements -/

/-- Dropping as many elements as are marked drops the marked ones exactly when they come first. -/
theorem forall_mem_drop_countP (marked : α → Bool) (l : List α) :
    (∀ a ∈ l.drop (l.countP marked), marked a = false) ↔
      l.Pairwise fun a b => marked b = true → marked a = true := by
  induction l with
  | nil => simp
  | cons first rest ih =>
      rw [List.pairwise_cons, ← ih]
      cases hfirst : marked first with
      | true => simp [List.countP_cons_of_pos hfirst]
      | false =>
          rw [List.countP_cons_of_neg (by simp [hfirst])]
          cases hcount : rest.countP marked with
          | zero => simp [hfirst]
          | succ n =>
              -- some marked element comes after the first one, which is not marked
              have hsplit : (rest.take n ++ rest.drop n).countP marked =
                  (rest.take n).countP marked + (rest.drop n).countP marked := List.countP_append
              rw [List.take_append_drop, hcount] at hsplit
              have htake : (rest.take n).countP marked ≤ n :=
                Nat.le_trans List.countP_le_length (List.length_take_le n rest)
              obtain ⟨a, ha, hmarked⟩ := List.countP_pos_iff.mp
                (show 0 < (rest.drop n).countP marked by omega)
              refine iff_of_false (fun h => ?_) (fun h => ?_)
              · simp [h a (by simpa using ha)] at hmarked
              · exact absurd (h.1 a (List.mem_of_mem_drop ha) hmarked) (by simp)

/-- Erasing the keys of the marked elements leaves no marked element exactly when, under each key, the
    marked elements come first. -/
theorem forall_mem_eraseKeys_iff (key : α → κ) (marked : α → Bool) (l : List α) :
    (∀ a ∈ eraseKeys key ((l.filter marked).map key) l, marked a = false) ↔
      MarkedFirst key marked l := by
  have hcount : ∀ k, ((l.filter marked).map key).count k =
      (l.filter fun a => key a = k).countP marked := by
    intro k
    rw [List.count_eq_countP, List.countP_map, List.countP_filter, List.countP_filter]
    refine List.countP_congr fun a _ => ?_
    simp [and_comm]
  have hkey : ∀ k, (∀ a ∈ eraseKeys key ((l.filter marked).map key) l, key a = k →
      marked a = false) ↔
      (l.filter fun a => key a = k).Pairwise fun a b => marked b = true → marked a = true := by
    intro k
    rw [← forall_mem_drop_countP, ← hcount, ← filter_eraseKeys]
    simp
  constructor
  · intro h
    refine List.pairwise_iff_forall_sublist.mpr fun {a b} hsub hsame => ?_
    refine List.pairwise_iff_forall_sublist.mp ((hkey (key b)).mp fun a ha _ => h a ha) ?_
    simpa [hsame] using hsub.filter fun a => key a = key b
  · intro h a ha
    refine (hkey (key a)).mpr ?_ a ha rfl
    refine List.pairwise_iff_forall_sublist.mpr fun {b c} hsub => ?_
    have hkeys : ∀ x ∈ [b, c], key x = key a := fun x hx =>
      of_decide_eq_true (List.mem_filter.mp (hsub.subset hx)).2
    refine List.pairwise_iff_forall_sublist.mp h (hsub.trans List.filter_sublist) ?_
    exact (hkeys b (by simp)).trans (hkeys c (by simp)).symm

/-- As many elements are left as are not marked. -/
theorem length_eraseKeys_marked (key : α → κ) (marked : α → Bool) (l : List α) :
    (eraseKeys key ((l.filter marked).map key) l).length = (l.filter fun a => !marked a).length := by
  have hlength := length_eraseKeys key ((l.filter marked).map key) l fun k => by
    rw [List.count_eq_countP, List.countP_map, ← List.countP_eq_length_filter]
    refine Nat.le_trans List.filter_sublist.countP_le (Nat.le_of_eq (List.countP_congr fun a _ => ?_))
    simp
  have hsplit := List.length_eq_length_filter_add (l := l) marked
  rw [List.length_map] at hlength
  omega

/-- Erasing the keys of the marked elements leaves the others, in their order, exactly when, under each
    key, the marked elements come first. -/
theorem eraseKeys_eq_filter_iff (key : α → κ) (marked : α → Bool) (l : List α) :
    eraseKeys key ((l.filter marked).map key) l = l.filter (fun a => !marked a) ↔
      MarkedFirst key marked l := by
  rw [← forall_mem_eraseKeys_iff]
  constructor
  · intro heq a ha
    rw [heq] at ha
    simpa using (List.mem_filter.mp ha).2
  · intro hnone
    have hself : (eraseKeys key ((l.filter marked).map key) l).filter (fun a => !marked a) =
        eraseKeys key ((l.filter marked).map key) l :=
      List.filter_eq_self.mpr fun a ha => by simp [hnone a ha]
    have hsub := (eraseKeys_sublist key ((l.filter marked).map key) l).filter fun a => !marked a
    rw [hself] at hsub
    exact hsub.eq_of_length (length_eraseKeys_marked key marked l)

/-- It leaves all the others exactly then. -/
theorem filter_sublist_eraseKeys_iff (key : α → κ) (marked : α → Bool) (l : List α) :
    (l.filter fun a => !marked a).Sublist (eraseKeys key ((l.filter marked).map key) l) ↔
      MarkedFirst key marked l := by
  rw [← eraseKeys_eq_filter_iff]
  constructor
  · exact fun hsub => (hsub.eq_of_length (length_eraseKeys_marked key marked l).symm).symm
  · exact fun heq => heq ▸ List.Sublist.refl _

end Erasing
