/-
Module: MultiConnect.Library.History
Layer: Library
Purpose: What a list of past events says about something that events announce and withdraw, over any
  events and any two predicates. It is live when some announcement has not been followed by a
  withdrawal, and it is so since the first announcement after the last withdrawal. And what may be said
  of each event in the light of the earlier ones (`Preceded`). The rules read the history from its end,
  event by event or in blocks.
Trusted boundary: none
Main exports: History.Live, History.live_concat, History.live_append, History.exists_live,
  History.Live.mono, History.Since, History.Since.concat, History.since_of_announces,
  History.Preceded, History.Preceded.append
-/
import Mathlib.Data.List.Induction

universe u v

namespace History

variable {ε : Type u} {announces announces' withdraws : ε → Prop} {past es : List ε} {e : ε}

/-- Some event announces, and no later event withdraws. -/
def Live (announces withdraws : ε → Prop) (past : List ε) : Prop :=
  ∃ before e after, past = before ++ e :: after ∧ announces e ∧ ∀ f ∈ after, ¬ withdraws f

@[simp] theorem not_live_nil : ¬ Live announces withdraws [] := by
  rintro ⟨before, e, after, heq, -, -⟩
  simp at heq

/-- One more event: it announces, or what was live is not withdrawn by it. -/
theorem live_concat :
    Live announces withdraws (past ++ [e]) ↔
      announces e ∨ Live announces withdraws past ∧ ¬ withdraws e := by
  constructor
  · rintro ⟨before, f, after, heq, hannounces, hkept⟩
    cases after using List.reverseRecOn with
    | nil =>
        obtain ⟨-, hlast⟩ := List.append_inj' heq rfl
        exact Or.inl (List.head_eq_of_cons_eq hlast ▸ hannounces)
    | append_singleton after last =>
        rw [← List.cons_append, ← List.append_assoc] at heq
        obtain ⟨rfl, hlast⟩ := List.append_inj' heq rfl
        obtain rfl := List.head_eq_of_cons_eq hlast
        refine Or.inr ⟨⟨before, f, after, rfl, hannounces, fun g hg => ?_⟩, ?_⟩
        · exact hkept g (List.mem_append_left _ hg)
        · exact hkept e (by simp)
  · rintro (hannounces | ⟨⟨before, f, after, rfl, hannounces, hkept⟩, hlast⟩)
    · exact ⟨past, e, [], rfl, hannounces, by simp⟩
    · refine ⟨before, f, after ++ [e], by simp, hannounces, fun g hg => ?_⟩
      rcases List.mem_append.mp hg with hg | hg
      · exact hkept g hg
      · exact List.mem_singleton.mp hg ▸ hlast

/-- More events: something is announced within them for good, or what was live survives them all. -/
theorem live_append :
    Live announces withdraws (past ++ es) ↔
      Live announces withdraws es ∨ Live announces withdraws past ∧ ∀ f ∈ es, ¬ withdraws f := by
  induction es using List.reverseRecOn with
  | nil => simp
  | append_singleton es e ih =>
      rw [← List.append_assoc, live_concat, live_concat, ih]
      simp only [List.forall_mem_append, List.forall_mem_singleton]
      grind

/-- Among events that withdraw nothing every announcement counts. -/
theorem live_of_not_withdraws (kept : ∀ f ∈ es, ¬ withdraws f) :
    Live announces withdraws es ↔ ∃ e ∈ es, announces e := by
  constructor
  · rintro ⟨before, e, after, rfl, hannounces, -⟩
    exact ⟨e, by simp, hannounces⟩
  · rintro ⟨e, hmem, hannounces⟩
    obtain ⟨before, after, rfl⟩ := List.append_of_mem hmem
    exact ⟨before, e, after, rfl, hannounces, fun f hf => kept f (by simp [hf])⟩

theorem Live.mono (weaker : ∀ e, announces e → announces' e)
    (h : Live announces withdraws past) : Live announces' withdraws past := by
  obtain ⟨before, e, after, heq, hannounces, hkept⟩ := h
  exact ⟨before, e, after, heq, weaker e hannounces, hkept⟩

/-- One of several things is live when an announcement of any of them is. -/
theorem exists_live {ι : Type v} {announces : ι → ε → Prop} :
    (∃ i, Live (announces i) withdraws past) ↔
      Live (fun e => ∃ i, announces i e) withdraws past := by
  constructor
  · rintro ⟨i, h⟩
    exact h.mono fun e hannounces => ⟨i, hannounces⟩
  · rintro ⟨before, e, after, heq, ⟨i, hannounces⟩, hkept⟩
    exact ⟨i, before, e, after, heq, hannounces, hkept⟩

/-- It is live since the event at the position: that event announces, nothing was live before it, and no
    later event withdraws. -/
def Since (announces withdraws : ε → Prop) (past : List ε) (position : Nat) : Prop :=
  ∃ before e after, past = before ++ e :: after ∧ before.length = position ∧ announces e ∧
    ¬ Live announces withdraws before ∧ ∀ f ∈ after, ¬ withdraws f

variable {position : Nat}

theorem Since.lt_length (h : Since announces withdraws past position) : position < past.length := by
  obtain ⟨before, e, after, rfl, rfl, -, -, -⟩ := h
  simp

/-- An event that does not withdraw leaves the position. -/
theorem Since.concat (h : Since announces withdraws past position) (kept : ¬ withdraws e) :
    Since announces withdraws (past ++ [e]) position := by
  obtain ⟨before, f, after, rfl, hposition, hannounces, hfirst, hkept⟩ := h
  refine ⟨before, f, after ++ [e], by simp, hposition, hannounces, hfirst, fun g hg => ?_⟩
  rcases List.mem_append.mp hg with hg | hg
  · exact hkept g hg
  · exact List.mem_singleton.mp hg ▸ kept

/-- What was not live is so since its announcement. -/
theorem since_of_announces (hannounces : announces e) (hfirst : ¬ Live announces withdraws past) :
    Since announces withdraws (past ++ [e]) past.length :=
  ⟨past, e, [], rfl, rfl, hannounces, hfirst, by simp⟩

/-- Each event stands in a relation to the events before it. -/
def Preceded (P : List ε → ε → Prop) (past : List ε) : Prop :=
  ∀ before e after, past = before ++ e :: after → P before e

theorem preceded_nil (P : List ε → ε → Prop) : Preceded P [] := by
  intro before e after heq
  simp at heq

/-- A block of events goes on a history when each of them stands in the relation to that history, and
    more events before it do no harm. -/
theorem Preceded.append {P : List ε → ε → Prop} (h : Preceded P past)
    (more : ∀ e ∈ es, ∀ between, P (past ++ between) e) : Preceded P (past ++ es) := by
  intro before e after heq
  rcases List.append_eq_append_iff.mp heq with ⟨between, rfl, hes⟩ | ⟨rest, rfl, hes⟩
  · exact more e (hes ▸ by simp) between
  · cases rest with
    | nil =>
        rw [List.nil_append] at hes
        simpa using more e (hes ▸ List.mem_cons_self) []
    | cons first rest =>
        obtain ⟨rfl, -⟩ := List.cons_eq_cons.mp hes
        exact h before _ rest rfl

end History
