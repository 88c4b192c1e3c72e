import Mathlib.Data.List.Basic

/-!
# Runs of a labelled step relation

`Run R s es s'` performs the events `es` in their order.  What the steps of a run keep holds at its
end, with or without the events so far (`Run.invariant`, `Run.history`).  `Run.project` is the
unwinding rule: where the events of one party act on its part of the state alone and no others do,
the party sees the run that its own events make.
-/

namespace Interleaving

variable {σ ε τ : Type} {R : σ → ε → σ → Prop} {s s' : σ} {e : ε} {es fs : List ε}

/-- From `s` the events `es`, one after the other, lead to `s'`. -/
inductive Run (R : σ → ε → σ → Prop) : σ → List ε → σ → Prop where
  | nil (s : σ) : Run R s [] s
  | cons {s s₁ s' : σ} {e : ε} {es : List ε} (step : R s e s₁) (rest : Run R s₁ es s') :
      Run R s (e :: es) s'

theorem Run.single (h : R s e s') : Run R s [e] s' := .cons h (.nil s')

theorem run_append_iff :
    Run R s (es ++ fs) s' ↔ ∃ s₁, Run R s es s₁ ∧ Run R s₁ fs s' := by
  constructor
  · intro h
    induction es generalizing s with
    | nil => exact ⟨s, .nil s, h⟩
    | cons e es ih =>
      cases h with
      | cons step rest =>
        obtain ⟨s₁, hfirst, hlast⟩ := ih rest
        exact ⟨s₁, .cons step hfirst, hlast⟩
  · rintro ⟨s₁, hfirst, hlast⟩
    induction hfirst with
    | nil => exact hlast
    | cons step _ ih => exact .cons step (ih hlast)

theorem run_cons_iff : Run R s (e :: es) s' ↔ ∃ s₁, R s e s₁ ∧ Run R s₁ es s' := by
  constructor
  · rintro (_ | ⟨step, rest⟩)
    exact ⟨_, step, rest⟩
  · rintro ⟨s₁, step, rest⟩
    exact .cons step rest

/-- What every step keeps holds at the end.  A step may use that its event is one of the run. -/
theorem Run.invariant {P : σ → Prop} (h : Run R s es s') (hs : P s)
    (hstep : ∀ s e s', e ∈ es → R s e s' → P s → P s') : P s' := by
  induction h with
  | nil => exact hs
  | cons step rest ih =>
    apply ih (hstep _ _ _ List.mem_cons_self step hs)
    intro s e s' he
    exact hstep s e s' (List.mem_cons_of_mem _ he)

/-- An invariant of the state and of the events that led to it. -/
theorem Run.history {P : List ε → σ → Prop} (h : Run R s es s') (hs : P [] s)
    (hstep : ∀ es s e s', R s e s' → P es s → P (es ++ [e]) s') : P es s' := by
  have hrest : ∀ {s s' : σ} {fs : List ε}, Run R s fs s' → ∀ es, P es s → P (es ++ fs) s' := by
    intro s s' fs h
    induction h with
    | nil s => simp
    | cons step _ ih =>
      intro es hs
      rw [List.append_cons]
      exact ih _ (hstep _ _ _ _ step hs)
  exact hrest h [] hs

/-- A deterministic system ends where its events lead. -/
theorem Run.unique (hR : ∀ s e s₁ s₂, R s e s₁ → R s e s₂ → s₁ = s₂) {s₁ : σ} (h : Run R s es s')
    (h' : Run R s es s₁) : s' = s₁ := by
  induction h with
  | nil s =>
    cases h'
    rfl
  | cons step _ ih =>
    obtain ⟨s₂, step', rest'⟩ := run_cons_iff.mp h'
    rw [hR _ _ _ _ step' step] at rest'
    exact ih rest'

/-- The run that the events of one party make, seen through its part of the state. -/
theorem Run.project {T : τ → ε → τ → Prop} {view : σ → τ} {own : ε → Prop} [DecidablePred own]
    {P : σ → Prop} (h : Run R s es s') (hs : P s) (hstep : ∀ s e s', R s e s' → P s → P s')
    (hown : ∀ s e s', R s e s' → P s → own e → T (view s) e (view s'))
    (hother : ∀ s e s', R s e s' → P s → ¬ own e → view s' = view s) :
    Run T (view s) (es.filter own) (view s') := by
  induction h with
  | nil s => exact .nil _
  | @cons s s₁ s' e es step _ ih =>
    have hrest := ih (hstep s e s₁ step hs)
    by_cases he : own e
    · rw [List.filter_cons_of_pos (by simpa using he)]
      exact .cons (hown s e s₁ step hs he) hrest
    · rw [List.filter_cons_of_neg (by simpa using he), ← hother s e s₁ step hs he]
      exact hrest

end Interleaving
