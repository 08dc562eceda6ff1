import Mathlib.Tactic.Common

/-!
Conditions on every step of a run. Where an invariant decides at each step whether a property holds, the
property holds of all steps exactly when the deciding condition does.
-/

namespace XInfer.StepConditions

variable {σ ε : Type} (step : ε → σ → σ)

/-- What holds of every state and the step taken in it. -/
def Throughout (holds : σ → ε → Prop) : σ → List ε → Prop
  | _, [] => True
  | state, event :: rest => holds state event ∧ Throughout holds (step event state) rest

variable {step} {holds good : σ → ε → Prop} {state : σ} {events : List ε}

theorem throughout_iff {invariant : σ → Prop} (start : invariant state)
    (exactly : ∀ state event, invariant state → (holds state event ↔ good state event))
    (keeps : ∀ state event, invariant state → good state event → invariant (step event state)) :
    Throughout step holds state events ↔ Throughout step good state events := by
  induction events generalizing state with
  | nil => exact Iff.rfl
  | cons event rest ih =>
      rw [Throughout, Throughout, exactly state event start]
      constructor
      · rintro ⟨here, later⟩
        exact ⟨here, (ih (keeps state event start here)).mp later⟩
      · rintro ⟨here, later⟩
        exact ⟨here, (ih (keeps state event start here)).mpr later⟩

end XInfer.StepConditions
