/-
Module: MultiConnect.Library.Run
Layer: Library
Purpose: Runs of a partial, deterministic, output-producing step function, and loops that repeat a
  partial step until it stops. A run reads a list of events; a step that answers `none` ends it. The
  rules are the ones a safety proof needs: an invariant indexed by the events read so far
  (`run_induction`), the same for steps that all meet a side condition (`EachStep`), and the exchange
  of "every state visited is good" for "every step meets the condition" when the condition is exact
  for one step (`throughoutPast_iff_eachStep`, `throughout_iff_eachStep`).
Trusted boundary: none
Main exports: run, run_simulates, trace, trace_append, Agree, run_agree, EachStep, Throughout,
  ThroughoutPast, run_induction, run_invariant, throughoutPast_iff_eachStep, throughout_iff_eachStep,
  eachStep_of_everyStep, throughout_of_everyState, whileSome, whileSome_induction,
  whileSome_simulation, whileSome_stops
-/
import Mathlib.Data.List.Induction

universe u v w x

namespace Run

variable {σ : Type u} {ε : Type v} {ω : Type w}

/-! ### Runs -/

/-- Read a list of events, joining the outputs of the steps. -/
def run (step : σ → ε → Option (σ × List ω)) : σ → List ε → Option (σ × List ω)
  | s, [] => some (s, [])
  | s, e :: es =>
      match step s e with
      | none => none
      | some (next, out) =>
          match run step next es with
          | none => none
          | some (last, rest) => some (last, out ++ rest)

variable {step : σ → ε → Option (σ × List ω)} {s t : σ} {es fs : List ε} {out : List ω}

@[simp] theorem run_nil : run step s [] = some (s, []) := rfl

theorem run_cons_eq_some {e : ε} :
    run step s (e :: es) = some (t, out) ↔
      ∃ next first rest, step s e = some (next, first) ∧
        run step next es = some (t, rest) ∧ out = first ++ rest := by
  constructor
  · intro h
    simp only [run] at h
    split at h
    · cases h
    · rename_i next first hstep
      split at h
      · cases h
      · rename_i last rest hrest
        obtain ⟨rfl, rfl⟩ := Prod.mk.inj (Option.some.inj h)
        exact ⟨next, first, rest, hstep, hrest, rfl⟩
  · rintro ⟨next, first, rest, hstep, hrest, rfl⟩
    simp [run, hstep, hrest]

@[simp] theorem run_singleton (s : σ) (e : ε) : run step s [e] = step s e := by
  simp only [run]
  split
  · rename_i h
    exact h.symm
  · rename_i h
    rw [h, List.append_nil]

theorem run_append_eq_some :
    run step s (es ++ fs) = some (t, out) ↔
      ∃ mid first rest, run step s es = some (mid, first) ∧
        run step mid fs = some (t, rest) ∧ out = first ++ rest := by
  induction es generalizing s out with
  | nil => simp
  | cons e es ih =>
      rw [List.cons_append, run_cons_eq_some]
      constructor
      · rintro ⟨next, first, rest, hstep, hrun, rfl⟩
        obtain ⟨mid, second, rest, hes, hfs, rfl⟩ := ih.mp hrun
        exact ⟨mid, first ++ second, rest,
          run_cons_eq_some.mpr ⟨next, first, second, hstep, hes, rfl⟩, hfs,
          (List.append_assoc ..).symm⟩
      · rintro ⟨mid, first, rest, hes, hfs, rfl⟩
        obtain ⟨next, one, two, hstep, htail, rfl⟩ := run_cons_eq_some.mp hes
        exact ⟨next, one, two ++ rest, hstep, ih.mpr ⟨mid, two, rest, htail, hfs, rfl⟩,
          List.append_assoc ..⟩

/-- A run over one more event is the shorter run followed by one step. -/
theorem run_concat_eq_some {e : ε} :
    run step s (es ++ [e]) = some (t, out) ↔
      ∃ mid first last, run step s es = some (mid, first) ∧
        step mid e = some (t, last) ∧ out = first ++ last := by
  rw [run_append_eq_some]
  constructor
  · rintro ⟨mid, first, rest, hes, hlast, rfl⟩
    obtain ⟨next, one, two, hstep, hnil, rfl⟩ := run_cons_eq_some.mp hlast
    obtain ⟨rfl, rfl⟩ := Prod.mk.inj (Option.some.inj hnil)
    exact ⟨mid, first, one, hes, hstep, by simp⟩
  · rintro ⟨mid, first, last, hes, hstep, rfl⟩
    exact ⟨mid, first, last, hes,
      run_cons_eq_some.mpr ⟨t, last, [], hstep, rfl, (List.append_nil _).symm⟩, rfl⟩

/-- A step function that always answers can be run on every list of events. -/
theorem run_total (total : ∀ s e, ∃ next now, step s e = some (next, now)) (s : σ) (es : List ε) :
    ∃ t out, run step s es = some (t, out) := by
  induction es generalizing s with
  | nil => exact ⟨s, [], rfl⟩
  | cons e es ih =>
      obtain ⟨next, first, hstep⟩ := total s e
      obtain ⟨t, rest, hrun⟩ := ih next
      exact ⟨t, first ++ rest, run_cons_eq_some.mpr ⟨next, first, rest, hstep, hrun, rfl⟩⟩

/-- Events may be translated before the run or at each step. -/
theorem run_map {δ : Type x} (f : δ → ε) (s : σ) (ds : List δ) :
    run step s (ds.map f) = run (fun mid d => step mid (f d)) s ds := by
  induction ds generalizing s with
  | nil => rfl
  | cons d ds ih => simp only [List.map_cons, run, ih]

/-- When every step of one system is a step of another, on events that correspond, so is every run. -/
theorem run_simulates {δ : Type x} {other : σ → δ → Option (σ × List ω)} (f : ε → δ)
    (follows : ∀ s e next now, step s e = some (next, now) → other s (f e) = some (next, now))
    (hrun : run step s es = some (t, out)) : run other s (es.map f) = some (t, out) := by
  induction es generalizing s out with
  | nil => exact hrun
  | cons e es ih =>
      obtain ⟨next, first, rest, hstep, hrest, rfl⟩ := run_cons_eq_some.mp hrun
      exact run_cons_eq_some.mpr ⟨next, first, rest, follows s e next first hstep, ih hrest, rfl⟩

/-- The states that a run goes through, each with the event that is read there. -/
def trace (step : σ → ε → Option (σ × List ω)) : σ → List ε → List (σ × ε)
  | _, [] => []
  | s, e :: es =>
      (s, e) :: match step s e with
        | none => []
        | some (next, _) => trace step next es

@[simp] theorem trace_singleton (s : σ) (e : ε) : trace step s [e] = [(s, e)] := by
  simp only [trace]
  cases step s e <;> rfl

theorem mem_of_mem_trace {visited : σ × ε} :
    ∀ {s : σ} {es : List ε}, visited ∈ trace step s es → visited.2 ∈ es
  | s, e :: es, h => by
      simp only [trace, List.mem_cons] at h
      rcases h with rfl | h
      · exact List.mem_cons_self
      · split at h
        · cases h
        · exact List.mem_cons_of_mem _ (mem_of_mem_trace h)

theorem trace_append (hrun : run step s es = some (t, out)) (fs : List ε) :
    trace step s (es ++ fs) = trace step s es ++ trace step t fs := by
  induction es generalizing s out with
  | nil =>
      obtain ⟨rfl, -⟩ := Prod.mk.inj (Option.some.inj hrun)
      rfl
  | cons e es ih =>
      obtain ⟨next, first, rest, hstep, hrest, -⟩ := run_cons_eq_some.mp hrun
      simp only [List.cons_append, trace, hstep, ih hrest]

/-! ### Systems that agree -/

/-- Both stop, or both go on to the same state with related outputs. -/
def Agree (R : List ω → List ω → Prop) : Option (σ × List ω) → Option (σ × List ω) → Prop :=
  Option.Rel fun reached reached' => reached.1 = reached'.1 ∧ R reached.2 reached'.2

theorem Agree.refl {R : List ω → List ω → Prop} (same : ∀ out, R out out) :
    ∀ reached : Option (σ × List ω), Agree R reached reached
  | none => .none
  | some reached => .some ⟨rfl, same reached.2⟩

theorem run_cons (s : σ) (e : ε) (es : List ε) :
    run step s (e :: es) = (step s e).bind fun reached =>
      (run step reached.1 es).map fun last => (last.1, reached.2 ++ last.2) := by
  rw [run]
  cases step s e with
  | none => rfl
  | some reached =>
      obtain ⟨next, out⟩ := reached
      cases hrest : run step next es <;> simp [hrest]

/-- When two systems agree on corresponding events in every state that an invariant allows, they agree
    on corresponding runs. -/
theorem run_agree {δ : Type x} {other : σ → δ → Option (σ × List ω)} {R : List ω → List ω → Prop}
    {P : σ → Prop} (f : δ → ε) (nil : R [] [])
    (append : ∀ first first' rest rest', R first first' → R rest rest' →
      R (first ++ rest) (first' ++ rest'))
    (keeps : ∀ s e next now, P s → step s e = some (next, now) → P next)
    (agrees : ∀ s d, P s → Agree R (other s d) (step s (f d))) (ds : List δ) :
    ∀ s, P s → Agree R (run other s ds) (run step s (ds.map f)) := by
  induction ds with
  | nil => exact fun s _ => .some ⟨rfl, nil⟩
  | cons d ds ih =>
      intro s hs
      rw [List.map_cons, run_cons, run_cons]
      have hstep := agrees s d hs
      have hkeeps := keeps s (f d)
      generalize other s d = o at hstep ⊢
      generalize step s (f d) = o' at hstep hkeeps ⊢
      cases hstep with
      | none => exact .none
      | @some reached reached' hfirst =>
          have hrest := ih reached.1 (hkeeps _ reached'.2 hs (by rw [hfirst.1]))
          rw [Option.bind_some, Option.bind_some, ← hfirst.1]
          generalize run other reached.1 ds = o at hrest ⊢
          generalize run step reached.1 (ds.map f) = o' at hrest ⊢
          cases hrest with
          | none => exact .none
          | some hlast => exact .some ⟨hlast.1, append _ _ _ _ hfirst.2 hlast.2⟩

/-- What holds of the end of a run holds of the end that a run is seen to have. -/
theorem exists_of_isSome {o : Option (σ × List ω)} {P : σ → List ω → Prop} (h : o.isSome = true)
    (holds : ∀ t out, o = some (t, out) → P t out) : ∃ t out, o = some (t, out) ∧ P t out := by
  obtain ⟨⟨t, out⟩, ho⟩ := Option.isSome_iff_exists.mp h
  exact ⟨t, out, ho, holds t out ho⟩

/-! ### Conditions along a run -/

/-- Every step that the run takes meets `C`, which may look at the events read before it. -/
def EachStep (step : σ → ε → Option (σ × List ω)) (C : List ε → σ → ε → Prop) (s : σ)
    (es : List ε) : Prop :=
  ∀ past e future mid before next now, es = past ++ e :: future →
    run step s past = some (mid, before) → step mid e = some (next, now) → C past mid e

/-- Every state that the run visits satisfies `P`, the first and the last included. -/
def Throughout (step : σ → ε → Option (σ × List ω)) (P : σ → Prop) (s : σ) (es : List ε) : Prop :=
  ∀ past future mid before, es = past ++ future → run step s past = some (mid, before) → P mid

/-- `Throughout` for a property of a state in the light of the events that led to it. -/
def ThroughoutPast (step : σ → ε → Option (σ × List ω)) (P : List ε → σ → Prop) (s : σ)
    (es : List ε) : Prop :=
  ∀ past future mid before, es = past ++ future → run step s past = some (mid, before) → P past mid

theorem EachStep.of_append {C : List ε → σ → ε → Prop} (h : EachStep step C s (es ++ fs)) :
    EachStep step C s es := by
  intro past e future mid before next now heq hrun hstep
  exact h past e (future ++ fs) mid before next now (by simp [heq]) hrun hstep

theorem eachStep_of_forall {C : σ → ε → Prop} (h : ∀ e ∈ es, ∀ mid, C mid e) :
    EachStep step (fun _ => C) s es := by
  rintro past e future mid _ _ _ rfl _ _
  exact h e (by simp) mid

/-- One step meets a condition on the state that it starts on. -/
theorem eachStep_singleton {C : σ → ε → Prop} {e : ε} (h : C s e) :
    EachStep step (fun _ => C) s [e] := by
  intro past f future mid before _ _ heq hrun _
  cases past with
  | nil =>
      obtain ⟨rfl, -⟩ := List.cons.inj heq
      obtain ⟨rfl, -⟩ := Prod.mk.inj (Option.some.inj hrun)
      exact h
  | cons => simp at heq

/-- Two runs in a row meet a condition on the states when each of them does. -/
theorem EachStep.append {C : σ → ε → Prop} (first : EachStep step (fun _ => C) s es)
    (last : ∀ mid out, run step s es = some (mid, out) → EachStep step (fun _ => C) mid fs) :
    EachStep step (fun _ => C) s (es ++ fs) := by
  intro past e future mid before next now heq hrun hstep
  rcases List.append_eq_append_iff.mp heq with ⟨seen, rfl, hfs⟩ | ⟨unseen, hes, hfuture⟩
  · obtain ⟨between, _, _, hfirst, hlast, -⟩ := run_append_eq_some.mp hrun
    exact last between _ hfirst seen e future mid _ next now hfs hlast hstep
  · cases unseen with
    | nil =>
        rw [List.append_nil] at hes
        subst hes
        exact last mid before hrun [] e future mid [] next now hfuture.symm rfl hstep
    | cons f unseen =>
        obtain ⟨rfl, -⟩ := List.cons.inj hfuture
        exact first past _ unseen mid before next now hes hrun hstep

/-- `EachStep` for a condition that can be computed, by running the events. -/
def everyStep (step : σ → ε → Option (σ × List ω)) (check : List ε → σ → ε → Bool) :
    List ε → σ → List ε → Bool
  | _, _, [] => true
  | past, s, e :: es =>
      match step s e with
      | none => true
      | some (next, _) => check past s e && everyStep step check (past ++ [e]) next es

theorem eachStep_of_everyStep {c : List ε → σ → ε → Bool} {C : List ε → σ → ε → Prop}
    (sound : ∀ past s e, c past s e = true → C past s e)
    (h : everyStep step c [] s es = true) : EachStep step C s es := by
  have hgen : ∀ (es seen : List ε) (s : σ), everyStep step c seen s es = true →
      EachStep step (fun past => C (seen ++ past)) s es := by
    intro es
    induction es with
    | nil =>
        intro seen s _ past e future mid before next now heq
        simp at heq
    | cons e es ih =>
        intro seen s h past f future mid before next now heq hrun hstep
        cases past with
        | nil =>
            obtain ⟨rfl, rfl⟩ := List.cons.inj heq
            obtain ⟨rfl, rfl⟩ := Prod.mk.inj (Option.some.inj hrun)
            simp only [everyStep, hstep, Bool.and_eq_true] at h
            simpa using sound _ _ _ h.1
        | cons e' past =>
            obtain ⟨rfl, rfl⟩ := List.cons.inj heq
            obtain ⟨after, first, rest, hfirst, hrest, rfl⟩ := run_cons_eq_some.mp hrun
            simp only [everyStep, hfirst, Bool.and_eq_true] at h
            simpa using ih (seen ++ [e]) after h.2 past f future mid rest next now rfl hrest hstep
  simpa using hgen es [] s h

/-- `Throughout` for a property that can be computed, by running the events. -/
def everyState (step : σ → ε → Option (σ × List ω)) (check : σ → Bool) : σ → List ε → Bool
  | s, [] => check s
  | s, e :: es =>
      check s && match step s e with
        | none => true
        | some (next, _) => everyState step check next es

theorem throughout_of_everyState {c : σ → Bool} {P : σ → Prop} (sound : ∀ s, c s = true → P s)
    (h : everyState step c s es = true) : Throughout step P s es := by
  intro past
  induction past generalizing s es with
  | nil =>
      intro future mid before _ hrun
      obtain ⟨rfl, rfl⟩ := Prod.mk.inj (Option.some.inj hrun)
      cases es with
      | nil => exact sound _ h
      | cons e es => exact sound _ (Bool.and_eq_true _ _ ▸ h).1
  | cons e past ih =>
      intro future mid before heq hrun
      obtain ⟨next, first, rest, hfirst, hrest, -⟩ := run_cons_eq_some.mp hrun
      subst heq
      simp only [List.cons_append, everyState, hfirst, Bool.and_eq_true] at h
      exact ih h.2 future mid rest rfl hrest

/-- Induction over a run from its first event on: the property may speak of the events read and of the
    outputs so far, and the step case has the side condition at hand. -/
theorem run_induction {C : List ε → σ → ε → Prop} {P : List ε → σ → List ω → Prop}
    (base : P [] s [])
    (succ : ∀ past e mid before next now, run step s past = some (mid, before) →
      P past mid before → C past mid e → step mid e = some (next, now) →
      P (past ++ [e]) next (before ++ now))
    (hcond : EachStep step C s es) (hrun : run step s es = some (t, out)) : P es t out := by
  induction es using List.reverseRecOn generalizing t out with
  | nil =>
      obtain ⟨rfl, rfl⟩ := Prod.mk.inj (Option.some.inj hrun)
      exact base
  | append_singleton past e ih =>
      obtain ⟨mid, first, last, hpast, hstep, rfl⟩ := run_concat_eq_some.mp hrun
      exact succ past e mid first t last hpast (ih hcond.of_append hpast)
        (hcond past e [] mid first t last rfl hpast hstep) hstep

/-- An invariant of the step function holds wherever a run leads. -/
theorem run_invariant {P : σ → Prop}
    (succ : ∀ mid e next now, P mid → step mid e = some (next, now) → P next)
    (base : P s) (hrun : run step s es = some (t, out)) : P t :=
  run_induction (C := fun _ _ _ => True) (P := fun _ mid _ => P mid) base
    (fun _ e mid _ next now _ hmid _ hstep => succ mid e next now hmid hstep)
    (fun _ _ _ _ _ _ _ _ _ _ => trivial) hrun

/-- Where it depends on the event alone whether a step fails, a run fails at the first such event. -/
theorem run_eq_none_iff {F : ε → Prop} (fails : ∀ s e, step s e = none ↔ F e) :
    run step s es = none ↔ ∃ e ∈ es, F e := by
  induction es generalizing s with
  | nil => simp
  | cons e es ih =>
      simp only [List.mem_cons, exists_eq_or_imp]
      rw [← fails s e, run]
      cases hstep : step s e with
      | none => simp
      | some result =>
          obtain ⟨next, first⟩ := result
          rw [← ih (s := next)]
          cases hrest : run step next es <;> simp [hrest]

/-- What a run yields, one of its steps yielded. -/
theorem exists_step_of_mem {o : ω} (hrun : run step s es = some (t, out)) (ho : o ∈ out) :
    ∃ past e future mid before next now, es = past ++ e :: future ∧
      run step s past = some (mid, before) ∧ step mid e = some (next, now) ∧ o ∈ now := by
  induction es generalizing s out with
  | nil =>
      obtain ⟨-, rfl⟩ := Prod.mk.inj (Option.some.inj hrun)
      cases ho
  | cons e es ih =>
      obtain ⟨next, first, rest, hstep, hrest, rfl⟩ := run_cons_eq_some.mp hrun
      rcases List.mem_append.mp ho with ho | ho
      · exact ⟨[], e, es, s, [], next, first, rfl, rfl, hstep, ho⟩
      · obtain ⟨past, e', future, mid, before, last, now, rfl, hpast, hlast, hnow⟩ := ih hrest ho
        exact ⟨e :: past, e', future, mid, first ++ before, last, now, rfl,
          run_cons_eq_some.mpr ⟨next, first, before, hstep, hpast, rfl⟩, hlast, hnow⟩

/-- When `C` is exactly what one step needs to stay good, every state that a run visits is good in the
    light of its past if and only if each step of the run meets `C`. The exactness may rest on an
    invariant `I` of the events `E` that the run consists of. -/
theorem throughoutPast_iff_eachStep {C : List ε → σ → ε → Prop} {I P : List ε → σ → Prop}
    {E : ε → Prop}
    (invariant : ∀ past mid e next now, I past mid → E e → step mid e = some (next, now) →
      I (past ++ [e]) next)
    (exact_step : ∀ past mid e next now, I past mid → E e → P past mid →
      step mid e = some (next, now) → (P (past ++ [e]) next ↔ C past mid e))
    (events : ∀ e ∈ es, E e) (initially : I [] s) (base : P [] s) :
    ThroughoutPast step P s es ↔ EachStep step C s es := by
  have hinvariant : ∀ past future mid before, es = past ++ future →
      run step s past = some (mid, before) → I past mid := by
    intro past future mid before heq hrun
    refine run_induction (C := fun _ _ e => E e) (P := fun past mid _ => I past mid) initially ?_ ?_
      hrun
    · exact fun past e mid _ next now _ hmid hE hstep => invariant past mid e next now hmid hE hstep
    · intro seen e rest _ _ _ _ hseen _ _
      exact events e (by simp [heq, hseen])
  constructor
  · intro h past e future mid before next now heq hrun hstep
    have hI := hinvariant past (e :: future) mid before heq hrun
    have hP : P past mid := h past (e :: future) mid before heq hrun
    refine (exact_step past mid e next now hI (events e (by simp [heq])) hP hstep).mp
      (h (past ++ [e]) future next (before ++ now) (by simp [heq]) ?_)
    exact run_concat_eq_some.mpr ⟨mid, before, now, hrun, hstep, rfl⟩
  · intro h past future mid before heq hrun
    subst heq
    refine (run_induction (C := fun past mid e => C past mid e ∧ E e)
      (P := fun past mid _ => I past mid ∧ P past mid) ⟨initially, base⟩ ?_ ?_ hrun).2
    · intro past e mid before next now _ ⟨hI, hP⟩ ⟨hC, hE⟩ hstep
      exact ⟨invariant past mid e next now hI hE hstep,
        (exact_step past mid e next now hI hE hP hstep).mpr hC⟩
    · intro seen e rest mid before next now heq hseen hstep
      exact ⟨h.of_append seen e rest mid before next now heq hseen hstep, events e (by simp [heq])⟩

/-- The same for what can be told from the state alone. -/
theorem throughout_iff_eachStep {C : σ → ε → Prop} {I P : σ → Prop} {E : ε → Prop}
    (invariant : ∀ mid e next now, I mid → E e → step mid e = some (next, now) → I next)
    (exact_step : ∀ mid e next now, I mid → E e → P mid → step mid e = some (next, now) →
      (P next ↔ C mid e))
    (events : ∀ e ∈ es, E e) (initially : I s) (base : P s) :
    Throughout step P s es ↔ EachStep step (fun _ => C) s es :=
  throughoutPast_iff_eachStep (I := fun _ => I) (P := fun _ => P) (fun _ => invariant)
    (fun _ => exact_step) events initially base

/-! ### Loops -/

/-- Repeat a partial step until it answers `none`, at most `fuel` times, listing what it yields. -/
def whileSome (body : σ → Option (σ × ω)) : Nat → σ → σ × List ω
  | 0, s => (s, [])
  | fuel + 1, s =>
      match body s with
      | none => (s, [])
      | some (next, yielded) =>
          ((whileSome body fuel next).1, yielded :: (whileSome body fuel next).2)

variable {body : σ → Option (σ × ω)}

theorem whileSome_of_none (fuel : Nat) (h : body s = none) : whileSome body fuel s = (s, []) := by
  cases fuel with
  | zero => rfl
  | succ fuel => simp [whileSome, h]

/-- A loop invariant over the state and everything yielded so far. -/
theorem whileSome_induction {P : σ → List ω → Prop}
    (succ : ∀ s out next yielded, P s out → body s = some (next, yielded) →
      P next (out ++ [yielded]))
    (fuel : Nat) : ∀ {s : σ} {out : List ω}, P s out →
      P (whileSome body fuel s).1 (out ++ (whileSome body fuel s).2) := by
  induction fuel with
  | zero => intro s out h; simpa [whileSome] using h
  | succ fuel ih =>
      intro s out h
      cases hbody : body s with
      | none => simpa [whileSome, hbody] using h
      | some pair =>
          obtain ⟨next, yielded⟩ := pair
          simpa [whileSome, hbody] using ih (succ s out next yielded h hbody)

/-- Two loops over related states yield the same and end in related states. -/
theorem whileSome_simulation {τ : Type u} {other : τ → Option (τ × ω)} {R : σ → τ → Prop}
    (stops : ∀ s t, R s t → body s = none → other t = none)
    (follows : ∀ s t next yielded, R s t → body s = some (next, yielded) →
      ∃ next', other t = some (next', yielded) ∧ R next next')
    (fuel : Nat) : ∀ {s : σ} {t : τ}, R s t →
      R (whileSome body fuel s).1 (whileSome other fuel t).1 ∧
        (whileSome body fuel s).2 = (whileSome other fuel t).2 := by
  induction fuel with
  | zero => exact fun h => ⟨h, rfl⟩
  | succ fuel ih =>
      intro s t h
      cases hbody : body s with
      | none => simpa [whileSome, hbody, stops s t h hbody] using h
      | some pair =>
          obtain ⟨next, yielded⟩ := pair
          obtain ⟨next', hother, hR⟩ := follows s t next yielded h hbody
          simpa [whileSome, hbody, hother] using ih hR

/-- A loop whose body lowers a measure has stopped once the fuel covers the measure. -/
theorem whileSome_stops {m : σ → Nat}
    (lowers : ∀ s next yielded, body s = some (next, yielded) → m next < m s)
    (fuel : Nat) : ∀ {s : σ}, m s ≤ fuel → body (whileSome body fuel s).1 = none := by
  induction fuel with
  | zero =>
      intro s h
      cases hbody : body s with
      | none => simp [whileSome, hbody]
      | some pair => exact absurd (lowers s pair.1 pair.2 hbody) (by omega)
  | succ fuel ih =>
      intro s h
      cases hbody : body s with
      | none => simp [whileSome, hbody]
      | some pair =>
          obtain ⟨next, yielded⟩ := pair
          have hlt := lowers s next yielded hbody
          simpa [whileSome, hbody] using ih (s := next) (by omega)

end Run
