import Mathlib.Init

/-!
# Runs of a state machine

`Run step C s es s'`: from `s` the events `es` lead to `s'`, and every one of them meets `C` in the state it is taken
in. An invariant may speak of the events so far (`Run.invariant`).
-/

namespace Runs

universe u v

variable {σ : Type u} {ε : Type v}

/-- `step` is `none` for an event that is not enabled. -/
inductive Run (step : σ → ε → Option σ) (C : σ → ε → Prop) : σ → List ε → σ → Prop
  | nil (s : σ) : Run step C s [] s
  | cons {s s' t : σ} {e : ε} {es : List ε} :
      C s e → step s e = some s' → Run step C s' es t → Run step C s (e :: es) t

namespace Run

variable {step : σ → ε → Option σ} {C D : σ → ε → Prop} {s t u : σ} {es fs : List ε} {e : ε}

theorem append (h : Run step C s es t) (h' : Run step C t fs u) : Run step C s (es ++ fs) u := by
  induction h with
  | nil => exact h'
  | cons hC hs _ ih => exact .cons hC hs (ih h')

theorem split (h : Run step C s (es ++ fs) u) : ∃ t, Run step C s es t ∧ Run step C t fs u := by
  induction es generalizing s with
  | nil => exact ⟨s, .nil s, h⟩
  | cons e es ih =>
    cases h with
    | cons hC hs h =>
      obtain ⟨t, h1, h2⟩ := ih h
      exact ⟨t, .cons hC hs h1, h2⟩

theorem singleton (hC : C s e) (hs : step s e = some t) : Run step C s [e] t := .cons hC hs (.nil t)

/-- The invariant rule; `hist` are the events before the run. -/
theorem invariant {I : List ε → σ → Prop}
    (hstep : ∀ hist s e s', I hist s → C s e → step s e = some s' → I (hist ++ [e]) s')
    {hist : List ε} (h : Run step C s es t) (h0 : I hist s) : I (hist ++ es) t := by
  induction h generalizing hist with
  | nil => rwa [List.append_nil]
  | cons hC hs _ ih =>
    have := ih (hstep _ _ _ _ h0 hC hs)
    rwa [List.append_assoc] at this

/-- The invariant rule for a run from the start. -/
theorem history {I : List ε → σ → Prop}
    (hstep : ∀ hist s e s', I hist s → C s e → step s e = some s' → I (hist ++ [e]) s')
    (h : Run step C s es t) (h0 : I [] s) : I es t := h.invariant hstep h0

/-- What no step lets go down does not go down. -/
theorem mono {f : σ → Nat} (hstep : ∀ s e s', step s e = some s' → f s ≤ f s') (h : Run step C s es t) : f s ≤ f t := by
  induction h with
  | nil => exact Nat.le_refl _
  | cons _ hs _ ih => exact Nat.le_trans (hstep _ _ _ hs) ih

end Run

end Runs
