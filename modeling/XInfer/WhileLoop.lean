import XInfer.StateException

/-!
A `while` loop whose body may leave early or throw. `whileLoop` runs it with a
bound on the iterations; `Head` describes the states at which the condition is
evaluated, restricted to runs whose iterations all start in an allowed state.
The bound is harmless when a measure strictly decreases from head to head.
-/

namespace XInfer.WhileLoop

open StateException

variable {ε σ γ : Type}

/-- How an iteration ends: at the next evaluation of the condition, or by `break`. -/
inductive Control where
  | again
  | leave
  deriving DecidableEq

def whileLoop (condition : σ → Bool) (body : EStateM ε σ Control) : Nat → EStateM ε σ Unit
  | 0 => pure ()
  | fuel + 1 => do
      if (← read condition) then
        match ← body with
        | .again => whileLoop condition body fuel
        | .leave => pure ()
      else pure ()

/-- States at a loop head, reached from `start` by iterations that all begin in
an allowed state. -/
inductive Head (condition : σ → Bool) (body : EStateM ε σ Control) (allowed : σ → Prop)
    (start : σ) : σ → Prop where
  | first : Head condition body allowed start start
  | again {state next : σ} : Head condition body allowed start state →
      condition state = true → allowed state → body state = .ok .again next →
      Head condition body allowed start next

variable {condition : σ → Bool} {body : EStateM ε σ Control}

theorem while_done (fuel : Nat) (state : σ) (done : condition state = false) :
    whileLoop condition body fuel state = .ok () state := by
  cases fuel with
  | zero => rfl
  | succ fuel => simp [whileLoop, bind_apply, done]

theorem while_again (fuel : Nat) (state next : σ) (holds : condition state = true)
    (step : body state = .ok .again next) :
    whileLoop condition body (fuel + 1) state = whileLoop condition body fuel next := by
  simp [whileLoop, bind_apply, holds, step]

theorem while_leave (fuel : Nat) (state last : σ) (holds : condition state = true)
    (step : body state = .ok .leave last) :
    whileLoop condition body (fuel + 1) state = .ok () last := by
  simp [whileLoop, bind_apply, holds, step]

theorem while_throw (fuel : Nat) (state last : σ) (thrown : ε) (holds : condition state = true)
    (step : body state = .error thrown last) :
    whileLoop condition body (fuel + 1) state = .error thrown last := by
  simp [whileLoop, bind_apply, holds, step]

theorem Head.mono {allowed weaker : σ → Prop} {start state : σ}
    (head : Head condition body allowed start state)
    (weaken : ∀ state, allowed state → weaker state) : Head condition body weaker start state := by
  induction head with
  | first => exact .first
  | again _ holds permitted step ih => exact .again ih holds (weaken _ permitted) step

theorem Head.invariant {allowed : σ → Prop} {start state : σ}
    (head : Head condition body allowed start state) (invariant : σ → Prop)
    (initial : invariant start)
    (preserved : ∀ state next, invariant state → condition state = true → allowed state →
      body state = .ok .again next → invariant next) : invariant state := by
  induction head with
  | first => exact initial
  | again _ holds permitted step ih => exact preserved _ _ ih holds permitted step

/-- A head is the start, or reached from the head after the first iteration. -/
theorem Head.later {allowed : σ → Prop} {start state : σ} (head : Head condition body allowed start state) :
    state = start ∨ ∃ next, condition start = true ∧ body start = .ok .again next ∧
      Head condition body allowed next state := by
  induction head with
  | first => exact Or.inl rfl
  | again _ holds permitted step ih =>
      right
      rcases ih with rfl | ⟨next, more, first, reached⟩
      · exact ⟨_, holds, step, .first⟩
      · exact ⟨next, more, first, .again reached holds permitted step⟩

theorem Head.stays {allowed : σ → Prop} {start state : σ} (head : Head condition body allowed start state)
    (refused : ¬ allowed start) : state = start := by
  induction head with
  | first => rfl
  | again _ _ permitted _ ih => exact absurd (ih ▸ permitted) refused

theorem frame_while {view : σ → γ} (iteration : Frame view body) (fuel : Nat) :
    Frame view (whileLoop condition body fuel) := by
  induction fuel with
  | zero => exact frame_pure _
  | succ fuel ih =>
      unfold whileLoop
      apply frame_bind (frame_read _)
      intro _
      refine frame_ite ?_ (frame_pure _)
      apply frame_bind iteration
      intro control
      cases control with
      | again => exact ih
      | leave => exact frame_pure _

/-- With enough fuel for the measure the loop ends at a head where the condition
is false, by `break`, or by an exception: the bound itself never ends it. -/
theorem while_complete (invariant : σ → Prop) (measure : σ → Nat)
    (preserved : ∀ state next, invariant state → condition state = true →
      body state = .ok .again next → invariant next ∧ measure next < measure state)
    (done : ∀ state, invariant state → measure state = 0 → condition state = false)
    (fuel : Nat) (state : σ) (holds : invariant state) (enough : measure state ≤ fuel) :
    (∃ last, Head condition body (fun _ => True) state last ∧ condition last = false ∧
      whileLoop condition body fuel state = .ok () last) ∨
    (∃ head last, Head condition body (fun _ => True) state head ∧ condition head = true ∧
      body head = .ok .leave last ∧ whileLoop condition body fuel state = .ok () last) ∨
    (∃ head last thrown, Head condition body (fun _ => True) state head ∧
      condition head = true ∧ body head = .error thrown last ∧
      whileLoop condition body fuel state = .error thrown last) := by
  induction fuel generalizing state with
  | zero =>
      exact Or.inl ⟨state, .first, done state holds (Nat.le_zero.mp enough), rfl⟩
  | succ fuel ih =>
      cases entered : condition state with
      | false => exact Or.inl ⟨state, .first, entered, while_done _ _ entered⟩
      | true =>
          cases run : body state with
          | error thrown last =>
              exact Or.inr (Or.inr ⟨state, last, thrown, .first, entered, run,
                while_throw fuel state last thrown entered run⟩)
          | ok control next =>
              cases control with
              | leave =>
                  exact Or.inr (Or.inl ⟨state, next, .first, entered, run,
                    while_leave fuel state next entered run⟩)
              | again =>
                  obtain ⟨kept, smaller⟩ := preserved state next holds entered run
                  have lift : ∀ {last}, Head condition body (fun _ => True) next last →
                      Head condition body (fun _ => True) state last := by
                    intro last head
                    induction head with
                    | first => exact .again .first entered trivial run
                    | again _ more _ step inner => exact .again inner more trivial step
                  rw [while_again fuel state next entered run]
                  rcases ih next kept (by omega) with ⟨last, head, closed, ends⟩ |
                    ⟨head, last, reached, more, left, ends⟩ |
                    ⟨head, last, thrown, reached, more, failed, ends⟩
                  · exact Or.inl ⟨last, lift head, closed, ends⟩
                  · exact Or.inr (Or.inl ⟨head, last, lift reached, more, left, ends⟩)
                  · exact Or.inr (Or.inr ⟨head, last, thrown, lift reached, more, failed, ends⟩)

/-- Past the measure, more fuel changes nothing. -/
theorem while_fuel (invariant : σ → Prop) (measure : σ → Nat)
    (preserved : ∀ state next, invariant state → condition state = true →
      body state = .ok .again next → invariant next ∧ measure next < measure state)
    (done : ∀ state, invariant state → measure state = 0 → condition state = false)
    (fuel more : Nat) (state : σ) (holds : invariant state) (enough : measure state ≤ fuel)
    (larger : fuel ≤ more) :
    whileLoop condition body more state = whileLoop condition body fuel state := by
  induction fuel generalizing more state with
  | zero =>
      have closed := done state holds (Nat.le_zero.mp enough)
      rw [while_done _ _ closed, while_done _ _ closed]
  | succ fuel ih =>
      obtain ⟨rest, rfl⟩ : ∃ rest, more = rest + 1 := ⟨more - 1, by omega⟩
      cases entered : condition state with
      | false => rw [while_done _ _ entered, while_done _ _ entered]
      | true =>
          cases run : body state with
          | error thrown last =>
              rw [while_throw rest state last thrown entered run,
                while_throw fuel state last thrown entered run]
          | ok control next =>
              cases control with
              | leave =>
                  rw [while_leave rest state next entered run, while_leave fuel state next entered run]
              | again =>
                  obtain ⟨kept, smaller⟩ := preserved state next holds entered run
                  rw [while_again rest state next entered run, while_again fuel state next entered run]
                  exact ih rest next kept (by omega) (by omega)

/-- Two bodies that agree wherever the invariant and the condition hold run the
same loop. -/
theorem while_congr {other : EStateM ε σ Control} (invariant : σ → Prop)
    (agree : ∀ state, invariant state → condition state = true → body state = other state)
    (preserved : ∀ state next, invariant state → condition state = true →
      body state = .ok .again next → invariant next)
    (fuel : Nat) (state : σ) (holds : invariant state) :
    whileLoop condition body fuel state = whileLoop condition other fuel state := by
  induction fuel generalizing state with
  | zero => rfl
  | succ fuel ih =>
      cases entered : condition state with
      | false => rw [while_done _ _ entered, while_done _ _ entered]
      | true =>
          have same := agree state holds entered
          cases run : body state with
          | error thrown last =>
              rw [while_throw fuel state last thrown entered run,
                while_throw fuel state last thrown entered (same ▸ run)]
          | ok control next =>
              cases control with
              | leave =>
                  rw [while_leave fuel state next entered run,
                    while_leave fuel state next entered (same ▸ run)]
              | again =>
                  rw [while_again fuel state next entered run,
                    while_again fuel state next entered (same ▸ run)]
                  exact ih next (preserved state next holds entered run)

theorem while_related {τ : Type} {test : τ → Bool} {twin : EStateM ε τ Control}
    (invariant post : σ → τ → Prop) (escaped : ε → σ → τ → Prop)
    (same : ∀ first second, invariant first second → condition first = test second)
    (iteration : Related (fun first second => invariant first second ∧ condition first = true)
      body twin (fun control first second => match control with
        | .again => invariant first second
        | .leave => post first second) escaped)
    (exit : ∀ first second, invariant first second → post first second) (fuel : Nat) :
    Related invariant (whileLoop condition body fuel) (whileLoop test twin fuel)
      (fun _ => post) escaped := by
  induction fuel with
  | zero => exact fun first second holds => ⟨rfl, exit first second holds⟩
  | succ fuel ih =>
      intro first second holds
      have equal := same first second holds
      cases entered : condition first with
      | false =>
          rw [while_done _ _ entered, while_done _ _ (equal ▸ entered)]
          exact ⟨rfl, exit first second holds⟩
      | true =>
          have stepped := iteration first second ⟨holds, entered⟩
          have also : test second = true := equal ▸ entered
          cases run : body first <;> cases other : twin second <;> rw [run, other] at stepped
          · rename_i control next answer follow
            obtain ⟨rfl, related⟩ := stepped
            cases control with
            | again =>
                rw [while_again fuel first next entered run, while_again fuel second follow also other]
                exact ih next follow related
            | leave =>
                rw [while_leave fuel first next entered run, while_leave fuel second follow also other]
                exact ⟨rfl, related⟩
          · exact stepped.elim
          · exact stepped.elim
          · rename_i thrown last caught finish
            rw [while_throw fuel first last thrown entered run,
              while_throw fuel second finish caught also other]
            exact stepped

end XInfer.WhileLoop
