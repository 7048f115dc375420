/-
Module: MultiConnect.Library.OrdMap
Layer: Library
Purpose: Finite maps over a linearly ordered key type, kept as the list of their entries in strictly
  increasing key order. The order is a field of the structure, so an unsorted or repeated key cannot be
  built, and two maps with the same entries are equal. The operations are the usual ones of an ordered
  map (first and last entry, pop, insert, insert-if-absent, erase, map over the values); every fact
  about them is stated through `get?` or through membership of an entry.
Trusted boundary: none
Main exports: OrdMap, get?_eq_some_iff, get?_insert, get?_orInsert, get?_erase, get?_mapVals,
  first?_le, le_last?, entries_of_first?, ext_get?, foldl_insert_entries
-/
import Mathlib.Order.Lattice
import Mathlib.Data.List.Nodup
import Mathlib.Data.List.Pairwise

universe u v

/-- A finite map whose entries are listed in strictly increasing key order. -/
@[ext] structure OrdMap (κ : Type u) (α : Type v) [LinearOrder κ] where
  entries : List (κ × α)
  sorted : entries.Pairwise fun a b => a.1 < b.1
deriving DecidableEq

namespace OrdMap

variable {κ : Type u} {α β : Type v} [LinearOrder κ]

/-! ### Operations -/

/-- The map without entries. -/
def empty : OrdMap κ α := ⟨[], List.Pairwise.nil⟩

/-- The value stored under a key. -/
def get? (m : OrdMap κ α) (k : κ) : Option α :=
  (m.entries.find? fun entry => entry.1 = k).map (·.2)

/-- Whether a key is present. -/
def contains (m : OrdMap κ α) (k : κ) : Bool := (m.get? k).isSome

/-- The keys in increasing order. -/
def keys (m : OrdMap κ α) : List κ := m.entries.map (·.1)

/-- The values in the order of their keys. -/
def values (m : OrdMap κ α) : List α := m.entries.map (·.2)

/-- The number of entries. -/
def size (m : OrdMap κ α) : Nat := m.entries.length

/-- Whether the map has no entry. -/
def isEmpty (m : OrdMap κ α) : Bool := m.entries.isEmpty

/-- The entry with the least key. -/
def first? (m : OrdMap κ α) : Option (κ × α) := m.entries.head?

/-- The entry with the greatest key. -/
def last? (m : OrdMap κ α) : Option (κ × α) := m.entries.getLast?

/-- Drop the entry with the least key. -/
def popFirst (m : OrdMap κ α) : OrdMap κ α := ⟨m.entries.tail, m.sorted.tail⟩

/-- Place an entry in a sorted entry list, replacing an entry with the same key. -/
def insertEntry (k : κ) (v : α) : List (κ × α) → List (κ × α)
  | [] => [(k, v)]
  | entry :: rest =>
      if k < entry.1 then (k, v) :: entry :: rest
      else if k = entry.1 then (k, v) :: rest
      else entry :: insertEntry k v rest

theorem mem_insertEntry {k : κ} {v : α} {entry : κ × α} {l : List (κ × α)}
    (h : entry ∈ insertEntry k v l) : entry = (k, v) ∨ entry ∈ l := by
  induction l with
  | nil => exact Or.inl (by simpa [insertEntry] using h)
  | cons head rest ih =>
      simp only [insertEntry] at h
      split at h
      · simpa using h
      · split at h
        · rcases List.mem_cons.mp h with rfl | hrest
          · exact Or.inl rfl
          · exact Or.inr (List.mem_cons_of_mem _ hrest)
        · rcases List.mem_cons.mp h with rfl | hrest
          · exact Or.inr List.mem_cons_self
          · exact (ih hrest).imp id (List.mem_cons_of_mem _)

theorem insertEntry_sorted {k : κ} {v : α} {l : List (κ × α)}
    (h : l.Pairwise fun a b => a.1 < b.1) :
    (insertEntry k v l).Pairwise fun a b => a.1 < b.1 := by
  induction l with
  | nil => simp [insertEntry]
  | cons head rest ih =>
      obtain ⟨hhead, hrest⟩ := List.pairwise_cons.mp h
      simp only [insertEntry]
      split
      · rename_i hlt
        refine List.pairwise_cons.mpr ⟨fun b hb => ?_, h⟩
        rcases List.mem_cons.mp hb with rfl | hb
        · exact hlt
        · exact lt_trans hlt (hhead b hb)
      · split
        · rename_i heq
          exact List.pairwise_cons.mpr ⟨fun b hb => heq ▸ hhead b hb, hrest⟩
        · rename_i hnlt hne
          refine List.pairwise_cons.mpr ⟨fun b hb => ?_, ih hrest⟩
          rcases mem_insertEntry hb with rfl | hb
          · exact lt_of_le_of_ne (le_of_not_gt hnlt) (Ne.symm hne)
          · exact hhead b hb

/-- Store a value under a key, replacing what was there. -/
def insert (m : OrdMap κ α) (k : κ) (v : α) : OrdMap κ α :=
  ⟨insertEntry k v m.entries, insertEntry_sorted m.sorted⟩

/-- Store a value under a key only when the key is absent. -/
def orInsert (m : OrdMap κ α) (k : κ) (v : α) : OrdMap κ α :=
  if m.contains k then m else m.insert k v

/-- Remove a key. -/
def erase (m : OrdMap κ α) (k : κ) : OrdMap κ α :=
  ⟨m.entries.filter fun entry => entry.1 ≠ k, m.sorted.filter _⟩

/-- Replace every value, keeping the keys. -/
def mapVals (m : OrdMap κ α) (f : κ → α → β) : OrdMap κ β :=
  ⟨m.entries.map fun entry => (entry.1, f entry.1 entry.2),
    List.pairwise_map.mpr m.sorted⟩

/-! ### Lookup -/

/-- In a sorted entry list a key occurs once. -/
theorem eq_of_mem_entries {m : OrdMap κ α} {k : κ} {v w : α}
    (hv : (k, v) ∈ m.entries) (hw : (k, w) ∈ m.entries) : v = w := by
  by_contra hne
  have hentries : (k, v) ≠ (k, w) := fun h => hne (Prod.mk.inj h).2
  have hsymm : Std.Symm fun a b : κ × α => a.1 < b.1 ∨ b.1 < a.1 := ⟨fun _ _ => Or.symm⟩
  have hordered : m.entries.Pairwise fun a b => a.1 < b.1 ∨ b.1 < a.1 := m.sorted.imp Or.inl
  rcases hordered.forall hv hw hentries with h | h
  · exact lt_irrefl k h
  · exact lt_irrefl k h

theorem get?_eq_some_iff {m : OrdMap κ α} {k : κ} {v : α} :
    m.get? k = some v ↔ (k, v) ∈ m.entries := by
  constructor
  · intro h
    obtain ⟨⟨k', v'⟩, hfind, rfl⟩ := Option.map_eq_some_iff.mp h
    have hkey : k' = k := by simpa using List.find?_some hfind
    exact hkey ▸ List.mem_of_find?_eq_some hfind
  · intro h
    cases hfind : m.entries.find? fun entry => entry.1 = k with
    | none =>
        have := List.find?_eq_none.mp hfind (k, v) h
        simp at this
    | some entry =>
        obtain ⟨k', v'⟩ := entry
        have hkey : k' = k := by simpa using List.find?_some hfind
        subst hkey
        rw [get?, hfind, eq_of_mem_entries h (List.mem_of_find?_eq_some hfind)]
        rfl

theorem get?_eq_none_iff {m : OrdMap κ α} {k : κ} :
    m.get? k = none ↔ ∀ v, (k, v) ∉ m.entries := by
  rw [Option.eq_none_iff_forall_ne_some]
  exact forall_congr' fun v => not_congr get?_eq_some_iff

theorem contains_iff {m : OrdMap κ α} {k : κ} :
    m.contains k = true ↔ ∃ v, m.get? k = some v :=
  Option.isSome_iff_exists

theorem mem_keys {m : OrdMap κ α} {k : κ} : k ∈ m.keys ↔ ∃ v, m.get? k = some v := by
  simp [keys, get?_eq_some_iff]

@[simp] theorem get?_empty (k : κ) : (empty : OrdMap κ α).get? k = none := rfl

theorem isEmpty_iff {m : OrdMap κ α} : m.isEmpty = true ↔ m.entries = [] :=
  List.isEmpty_iff

/-! ### The operations through lookup -/

theorem mem_insertEntry_self (k : κ) (v : α) (l : List (κ × α)) : (k, v) ∈ insertEntry k v l := by
  induction l with
  | nil => simp [insertEntry]
  | cons head rest ih =>
      simp only [insertEntry]
      split
      · exact List.mem_cons_self
      · split
        · exact List.mem_cons_self
        · exact List.mem_cons_of_mem _ ih

theorem mem_insertEntry_of_ne {k : κ} {v : α} {entry : κ × α} {l : List (κ × α)}
    (hne : entry.1 ≠ k) (h : entry ∈ l) : entry ∈ insertEntry k v l := by
  induction l with
  | nil => cases h
  | cons head rest ih =>
      simp only [insertEntry]
      split
      · exact List.mem_cons_of_mem _ h
      · split
        · rename_i heq
          rcases List.mem_cons.mp h with rfl | h
          · exact absurd heq.symm hne
          · exact List.mem_cons_of_mem _ h
        · rcases List.mem_cons.mp h with rfl | h
          · exact List.mem_cons_self
          · exact List.mem_cons_of_mem _ (ih h)

@[simp] theorem get?_insert_self (m : OrdMap κ α) (k : κ) (v : α) :
    (m.insert k v).get? k = some v :=
  get?_eq_some_iff.mpr (mem_insertEntry_self k v m.entries)

theorem get?_insert_of_ne (m : OrdMap κ α) {k k' : κ} (v : α) (hne : k' ≠ k) :
    (m.insert k v).get? k' = m.get? k' := by
  refine Option.ext fun w => ?_
  rw [get?_eq_some_iff, get?_eq_some_iff]
  constructor
  · intro h
    rcases mem_insertEntry h with heq | h
    · exact absurd (Prod.mk.inj heq).1 hne
    · exact h
  · exact fun h => mem_insertEntry_of_ne hne h

theorem get?_insert (m : OrdMap κ α) (k k' : κ) (v : α) :
    (m.insert k v).get? k' = if k' = k then some v else m.get? k' := by
  split
  · rename_i h
    subst h
    exact get?_insert_self m k' v
  · rename_i h
    exact get?_insert_of_ne m v h

theorem orInsert_of_contains {m : OrdMap κ α} {k : κ} (v : α) (h : m.contains k = true) :
    m.orInsert k v = m := by
  rw [orInsert, if_pos h]

theorem orInsert_of_get?_none {m : OrdMap κ α} {k : κ} (v : α) (h : m.get? k = none) :
    m.orInsert k v = m.insert k v := by
  rw [orInsert, if_neg]
  simp [contains, h]

theorem get?_orInsert (m : OrdMap κ α) (k k' : κ) (v : α) :
    (m.orInsert k v).get? k' = if k' = k then some ((m.get? k).getD v) else m.get? k' := by
  cases hk : m.get? k with
  | none => rw [orInsert_of_get?_none v hk, get?_insert]; rfl
  | some w =>
      rw [orInsert_of_contains v (contains_iff.mpr ⟨w, hk⟩)]
      split
      · rename_i h
        rw [h, hk]; rfl
      · rfl

theorem get?_erase (m : OrdMap κ α) (k k' : κ) :
    (m.erase k).get? k' = if k' = k then none else m.get? k' := by
  split
  · rename_i h
    subst h
    refine get?_eq_none_iff.mpr fun v hmem => ?_
    simp [erase] at hmem
  · rename_i h
    refine Option.ext fun v => ?_
    rw [get?_eq_some_iff, get?_eq_some_iff]
    simp [erase, h]

theorem get?_mapVals (m : OrdMap κ α) (f : κ → α → β) (k : κ) :
    (m.mapVals f).get? k = (m.get? k).map (f k) := by
  cases hk : m.get? k with
  | none =>
      refine get?_eq_none_iff.mpr fun v hmem => ?_
      obtain ⟨⟨k', w⟩, hw, heq⟩ := List.mem_map.mp hmem
      obtain ⟨rfl, rfl⟩ := Prod.mk.inj heq
      exact get?_eq_none_iff.mp hk w hw
  | some w =>
      exact get?_eq_some_iff.mpr
        (List.mem_map.mpr ⟨(k, w), get?_eq_some_iff.mp hk, rfl⟩)

/-! ### Both ends of the map -/

theorem entries_of_first? {m : OrdMap κ α} {entry : κ × α} (h : m.first? = some entry) :
    m.entries = entry :: m.popFirst.entries := by
  cases hl : m.entries with
  | nil => simp [first?, hl] at h
  | cons head rest =>
      simp only [first?, hl, List.head?_cons, Option.some.injEq] at h
      simp [popFirst, hl, h]

theorem first?_eq_none_iff {m : OrdMap κ α} : m.first? = none ↔ m.entries = [] :=
  List.head?_eq_none_iff

/-- The first key is below every other key. -/
theorem first?_lt {m : OrdMap κ α} {entry other : κ × α} (h : m.first? = some entry)
    (hother : other ∈ m.popFirst.entries) : entry.1 < other.1 := by
  have hsorted := m.sorted
  rw [entries_of_first? h] at hsorted
  exact (List.pairwise_cons.mp hsorted).1 other hother

/-- The first key is a least one. -/
theorem first?_le {m : OrdMap κ α} {entry other : κ × α} (h : m.first? = some entry)
    (hother : other ∈ m.entries) : entry.1 ≤ other.1 := by
  rw [entries_of_first? h] at hother
  rcases List.mem_cons.mp hother with rfl | hrest
  · exact le_refl _
  · exact le_of_lt (first?_lt h hrest)

/-- The first entry after an insertion is the new one or the one that was first. -/
theorem first?_insert {m : OrdMap κ α} {k : κ} {v : α} {entry : κ × α}
    (h : (m.insert k v).first? = some entry) : entry = (k, v) ∨ m.first? = some entry := by
  change (insertEntry k v m.entries).head? = some entry at h
  show _ ∨ m.entries.head? = some entry
  cases hl : m.entries with
  | nil =>
      rw [hl] at h
      exact Or.inl (Option.some.inj h).symm
  | cons head rest =>
      rw [hl, insertEntry] at h
      split at h
      · exact Or.inl (Option.some.inj h).symm
      · split at h
        · exact Or.inl (Option.some.inj h).symm
        · exact Or.inr h

theorem mem_of_first? {m : OrdMap κ α} {entry : κ × α} (h : m.first? = some entry) :
    entry ∈ m.entries := by
  rw [entries_of_first? h]
  exact List.mem_cons_self

theorem mem_of_mem_popFirst {m : OrdMap κ α} {entry : κ × α} (h : entry ∈ m.popFirst.entries) :
    entry ∈ m.entries :=
  List.mem_of_mem_tail h

/-- Popping removes the first key and nothing else. -/
theorem get?_popFirst {m : OrdMap κ α} {entry : κ × α} (h : m.first? = some entry) (k : κ) :
    m.popFirst.get? k = if k = entry.1 then none else m.get? k := by
  split
  · rename_i hk
    subst hk
    refine get?_eq_none_iff.mpr fun v hmem => ?_
    have hlt : entry.1 < (entry.1, v).1 := first?_lt h hmem
    exact lt_irrefl _ hlt
  · rename_i hk
    refine Option.ext fun v => ?_
    rw [get?_eq_some_iff, get?_eq_some_iff, entries_of_first? h, List.mem_cons]
    exact ⟨Or.inr, fun hmem => hmem.resolve_left fun heq => hk (congrArg Prod.fst heq)⟩

theorem mem_of_last? {m : OrdMap κ α} {entry : κ × α} (h : m.last? = some entry) :
    entry ∈ m.entries :=
  List.mem_of_getLast? h

/-- The last key is a greatest one. -/
theorem le_last? {m : OrdMap κ α} {entry other : κ × α} (h : m.last? = some entry)
    (hother : other ∈ m.entries) : other.1 ≤ entry.1 := by
  obtain ⟨init, hinit⟩ := List.getLast?_eq_some_iff.mp h
  have hsorted := m.sorted
  rw [hinit] at hother hsorted
  rcases List.mem_append.mp hother with hmem | hmem
  · exact le_of_lt ((List.pairwise_append.mp hsorted).2.2 other hmem entry (by simp))
  · exact le_of_eq (congrArg Prod.fst (List.mem_singleton.mp hmem))

theorem size_popFirst_lt {m : OrdMap κ α} {entry : κ × α} (h : m.first? = some entry) :
    m.popFirst.size < m.size := by
  simp [size, entries_of_first? h]

theorem length_insertEntry_le (k : κ) (v : α) (l : List (κ × α)) :
    (insertEntry k v l).length ≤ l.length + 1 := by
  induction l with
  | nil => simp [insertEntry]
  | cons head rest ih =>
      simp only [insertEntry]
      split
      · simp
      · split
        · simp
        · simpa using ih

/-! ### Values replaced under all operations -/

theorem insertEntry_map (f : α → β) (k : κ) (v : α) (l : List (κ × α)) :
    (insertEntry k v l).map (fun entry => (entry.1, f entry.2)) =
      insertEntry k (f v) (l.map fun entry => (entry.1, f entry.2)) := by
  induction l with
  | nil => rfl
  | cons head rest ih =>
      simp only [insertEntry, List.map_cons]
      split
      · rfl
      · split
        · rfl
        · rw [List.map_cons, ih]

theorem mapVals_insert (m : OrdMap κ α) (f : α → β) (k : κ) (v : α) :
    (m.insert k v).mapVals (fun _ => f) = (m.mapVals fun _ => f).insert k (f v) :=
  OrdMap.ext (insertEntry_map f k v m.entries)

theorem mapVals_popFirst (m : OrdMap κ α) (f : κ → α → β) :
    (m.popFirst).mapVals f = (m.mapVals f).popFirst :=
  OrdMap.ext List.map_tail

theorem first?_mapVals (m : OrdMap κ α) (f : κ → α → β) :
    (m.mapVals f).first? = m.first?.map fun entry => (entry.1, f entry.1 entry.2) :=
  List.head?_map

/-! ### Entries of an insertion up to reordering -/

/-- Inserting an absent key adds exactly one entry. -/
theorem insert_entries_perm {m : OrdMap κ α} {k : κ} (v : α) (h : m.get? k = none) :
    (m.insert k v).entries.Perm ((k, v) :: m.entries) := by
  have habsent : ∀ entry ∈ m.entries, entry.1 ≠ k := fun entry hmem heq =>
    get?_eq_none_iff.mp h entry.2 (heq ▸ hmem)
  show (insertEntry k v m.entries).Perm _
  generalize m.entries = l at habsent
  induction l with
  | nil => exact List.Perm.refl _
  | cons head rest ih =>
      simp only [insertEntry]
      split
      · exact List.Perm.refl _
      · rw [if_neg (Ne.symm (habsent head List.mem_cons_self))]
        exact ((ih fun entry hmem => habsent entry (List.mem_cons_of_mem _ hmem)).cons head).trans
          (List.Perm.swap _ _ _)

/-- A key below all others is inserted in front. -/
theorem insert_entries_of_lt {m : OrdMap κ α} {k : κ} (v : α) (h : ∀ entry ∈ m.entries, k < entry.1) :
    (m.insert k v).entries = (k, v) :: m.entries := by
  show insertEntry k v m.entries = _
  cases hl : m.entries with
  | nil => rfl
  | cons head rest => exact if_pos (h head (hl ▸ List.mem_cons_self))

/-- A key above all others is inserted at the end. -/
theorem insert_entries_of_gt {m : OrdMap κ α} {k : κ} (v : α) (h : ∀ entry ∈ m.entries, entry.1 < k) :
    (m.insert k v).entries = m.entries ++ [(k, v)] := by
  show insertEntry k v m.entries = _
  generalize m.entries = l at h
  induction l with
  | nil => rfl
  | cons head rest ih =>
      have hhead := h head List.mem_cons_self
      rw [insertEntry, if_neg (not_lt_of_gt hhead), if_neg (ne_of_gt hhead), List.cons_append,
        ih fun entry hentry => h entry (List.mem_cons_of_mem _ hentry)]

/-- When only the entry of one key contributes, listing what the entries contribute reads that key. -/
theorem flatMap_entries {γ : Type v} {m : OrdMap κ α} {k : κ} {f : κ × α → List γ}
    (only : ∀ entry ∈ m.entries, entry.1 ≠ k → f entry = []) :
    m.entries.flatMap f = ((m.get? k).map fun v => f (k, v)).getD [] := by
  obtain ⟨entries, sorted⟩ := m
  induction entries with
  | nil => rfl
  | cons head rest ih =>
      obtain ⟨hhead, hrest⟩ := List.pairwise_cons.mp sorted
      by_cases hk : head.1 = k
      · have hnone : rest.flatMap f = [] := by
          refine List.flatMap_eq_nil_iff.mpr fun entry hentry => ?_
          exact only entry (List.mem_cons_of_mem _ hentry) (hk ▸ ne_of_gt (hhead entry hentry))
        subst hk
        simp [get?, hnone]
      · have htail := ih hrest fun entry hentry => only entry (List.mem_cons_of_mem _ hentry)
        rw [List.flatMap_cons, only head List.mem_cons_self hk, List.nil_append, htail]
        simp [get?, hk]

/-! ### Maps as their lookups -/

theorem nodup_keys (m : OrdMap κ α) : (m.entries.map (·.1)).Nodup :=
  List.pairwise_map.mpr (m.sorted.imp ne_of_lt)

/-- Maps with the same lookups are equal. -/
theorem ext_get? {m m' : OrdMap κ α} (same : ∀ k, m.get? k = m'.get? k) : m = m' := by
  have hperm : m.entries.Perm m'.entries := by
    refine (List.perm_ext_iff_of_nodup (List.Nodup.of_map _ m.nodup_keys)
      (List.Nodup.of_map _ m'.nodup_keys)).mpr ?_
    rintro ⟨k, v⟩
    rw [← get?_eq_some_iff, ← get?_eq_some_iff, same]
  exact OrdMap.ext (hperm.eq_of_pairwise
    (fun _ _ _ _ hlt hgt => absurd (hlt.trans hgt) (lt_irrefl _)) m.sorted m'.sorted)

/-- The later of two values under one key stays. -/
theorem insert_insert (m : OrdMap κ α) (k : κ) (v w : α) : (m.insert k v).insert k w = m.insert k w := by
  refine ext_get? fun k' => ?_
  rw [get?_insert, get?_insert, get?_insert]
  split <;> rfl

theorem insert_of_get? {m : OrdMap κ α} {k : κ} {v : α} (h : m.get? k = some v) : m.insert k v = m := by
  refine ext_get? fun k' => ?_
  rw [get?_insert]
  split
  · rename_i hk
    rw [hk, h]
  · rfl

/-- The entries under one key are the same in every order. -/
theorem filter_of_perm {m : OrdMap κ α} {entries : List (κ × α)} (order : entries.Perm m.entries)
    {p : κ × α → Bool} {k : κ} (only : ∀ entry, p entry = true → entry.1 = k) :
    entries.filter p = m.entries.filter p := by
  have hdistinct : ∀ {l : List (κ × α)}, (l.map (·.1)).Nodup →
      (l.filter p).Pairwise fun a b => a.1 ≠ b.1 := fun h => (List.pairwise_map.mp h).filter _
  refine (order.filter p).eq_of_pairwise (fun a b ha hb hne _ => absurd ?_ hne)
    (hdistinct ((order.map _).nodup_iff.mpr m.nodup_keys)) (hdistinct m.nodup_keys)
  rw [only a (List.mem_filter.mp ha).2, only b (List.mem_filter.mp hb).2]

theorem get?_foldl_insert_of_notMem (f : κ → α → α) {k : κ} :
    ∀ {entries : List (κ × α)} {m : OrdMap κ α}, k ∉ entries.map (·.1) →
      (entries.foldl (fun m entry => m.insert entry.1 (f entry.1 entry.2)) m).get? k = m.get? k
  | [], _, _ => rfl
  | entry :: rest, m, habsent => by
      obtain ⟨hne, hrest⟩ := not_or.mp (mt List.mem_cons.mpr habsent)
      rw [List.foldl_cons, get?_foldl_insert_of_notMem f hrest, get?_insert_of_ne _ _ hne]

theorem get?_foldl_insert_of_mem (f : κ → α → α) {k : κ} {v : α} :
    ∀ {entries : List (κ × α)} {m : OrdMap κ α}, (entries.map (·.1)).Nodup → (k, v) ∈ entries →
      (entries.foldl (fun m entry => m.insert entry.1 (f entry.1 entry.2)) m).get? k = some (f k v)
  | entry :: rest, m, hdistinct, hmem => by
      obtain ⟨hfirst, hrest⟩ := List.nodup_cons.mp hdistinct
      rw [List.foldl_cons]
      rcases List.mem_cons.mp hmem with rfl | hmem
      · rw [get?_foldl_insert_of_notMem f hfirst, get?_insert_self]
      · exact get?_foldl_insert_of_mem f hrest hmem

/-- Replacing the values one entry after another, in any order, replaces every value. -/
theorem foldl_insert_entries (f : κ → α → α) {m : OrdMap κ α} {entries : List (κ × α)}
    (order : entries.Perm m.entries) :
    entries.foldl (fun m entry => m.insert entry.1 (f entry.1 entry.2)) m = m.mapVals f := by
  refine ext_get? fun k => ?_
  rw [get?_mapVals]
  cases hfound : m.get? k with
  | none =>
      refine (get?_foldl_insert_of_notMem f fun hmem => ?_).trans hfound
      obtain ⟨⟨k', v⟩, hentry, rfl⟩ := List.mem_map.mp hmem
      exact get?_eq_none_iff.mp hfound v (order.mem_iff.mp hentry)
  | some v =>
      exact get?_foldl_insert_of_mem f ((order.map _).nodup_iff.mpr m.nodup_keys)
        (order.mem_iff.mpr (get?_eq_some_iff.mp hfound))

end OrdMap
