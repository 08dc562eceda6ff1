import Mathlib.Tactic.Common

/-!
Rules for programs that carry a state and may throw. A throw keeps the state it
happened in, as a caught C++ exception leaves every object as it was. `Triple`
speaks about one run, with a separate assertion for the states an exception can
escape from; `Related` speaks about two runs that must answer alike.
-/

namespace XInfer.StateException

universe u
variable {ε σ τ ρ α β : Type u}

@[simp] theorem pure_apply (value : α) (state : σ) :
    (pure value : EStateM ε σ α) state = .ok value state := rfl

@[simp] theorem throw_apply (thrown : ε) (state : σ) :
    (throw thrown : EStateM ε σ α) state = .error thrown state := rfl

@[simp] theorem modify_apply (change : σ → σ) (state : σ) :
    (modify change : EStateM ε σ PUnit) state = .ok ⟨⟩ (change state) := rfl

theorem bind_apply (program : EStateM ε σ α) (next : α → EStateM ε σ β) (state : σ) :
    (program >>= next) state = match program state with
      | .ok value after => next value after
      | .error thrown after => .error thrown after := rfl

theorem bind_ok {program : EStateM ε σ α} {next : α → EStateM ε σ β} {state after : σ} {value : β}
    (run : (program >>= next) state = .ok value after) :
    ∃ first middle, program state = .ok first middle ∧ next first middle = .ok value after := by
  rw [bind_apply] at run
  cases start : program state with
  | ok first middle =>
      rw [start] at run
      exact ⟨first, middle, rfl, run⟩
  | error thrown middle =>
      rw [start] at run
      cases run

/-- Read one component of the state. -/
def read (view : σ → α) : EStateM ε σ α := fun state => .ok (view state) state

@[simp] theorem read_apply (view : σ → α) (state : σ) :
    (read view : EStateM ε σ α) state = .ok (view state) state := rfl

/-- Raise the exception of a failed computation that has no state of its own. -/
def raise : Except ε α → EStateM ε σ α
  | .ok value => pure value
  | .error thrown => throw thrown

@[simp] theorem raise_ok (value : α) (state : σ) :
    (raise (.ok value) : EStateM ε σ α) state = .ok value state := rfl

@[simp] theorem raise_error (thrown : ε) (state : σ) :
    (raise (.error thrown) : EStateM ε σ α) state = .error thrown state := rfl

theorem raise_bind (value : α) (next : α → EStateM ε σ β) :
    (raise (.ok value) >>= next) = next value := rfl

/-- Run a program on one component of a larger state. -/
def within (view : σ → ρ) (put : ρ → σ → σ) (program : EStateM ε ρ α) : EStateM ε σ α :=
  fun state => match program (view state) with
    | .ok value inner => .ok value (put inner state)
    | .error thrown inner => .error thrown (put inner state)

/-- Run `handler` on the exception of `program`, in the state of the throw. -/
def guarded (program : EStateM ε σ α) (handler : ε → EStateM ε σ α) : EStateM ε σ α :=
  fun state => match program state with
    | .ok value after => .ok value after
    | .error thrown after => handler thrown after

def finalState : EStateM.Result ε σ α → σ
  | .ok _ after => after
  | .error _ after => after

/-- A program whose first part ends where it began. -/
theorem stays_bind {program : EStateM ε σ α} {next : α → EStateM ε σ β} {state : σ}
    (first : finalState (program state) = state)
    (second : ∀ value, finalState (next value state) = state) :
    finalState ((program >>= next) state) = state := by
  rw [bind_apply]
  cases run : program state with
  | ok value after =>
      rw [run] at first
      rw [show after = state from first]
      exact second value
  | error thrown after =>
      rw [run] at first
      exact first

section OneRun

def Triple (pre : σ → Prop) (program : EStateM ε σ α) (post : α → σ → Prop)
    (fail : ε → σ → Prop) : Prop :=
  ∀ state, pre state → match program state with
    | .ok value after => post value after
    | .error thrown after => fail thrown after

variable {pre : σ → Prop} {program : EStateM ε σ α} {post : α → σ → Prop} {fail : ε → σ → Prop}

theorem Triple.ok (triple : Triple pre program post fail) {state after : σ} {value : α}
    (start : pre state) (done : program state = .ok value after) : post value after := by
  have holds := triple state start
  rwa [done] at holds

theorem Triple.error (triple : Triple pre program post fail) {state after : σ} {thrown : ε}
    (start : pre state) (failed : program state = .error thrown after) : fail thrown after := by
  have holds := triple state start
  rwa [failed] at holds

theorem triple_pure (value : α) (holds : ∀ state, pre state → post value state) :
    Triple pre (pure value) post fail := holds

theorem triple_modify (change : σ → σ) {after : PUnit → σ → Prop}
    (holds : ∀ state, pre state → after ⟨⟩ (change state)) :
    Triple pre (modify change : EStateM ε σ PUnit) after fail := holds

theorem triple_bind {next : α → EStateM ε σ β} {middle : α → σ → Prop} {last : β → σ → Prop}
    (first : Triple pre program middle fail)
    (second : ∀ value, Triple (middle value) (next value) last fail) :
    Triple pre (program >>= next) last fail := by
  intro state start
  have holds := first state start
  rw [bind_apply]
  cases run : program state with
  | ok value after =>
      rw [run] at holds
      exact second value after holds
  | error thrown after =>
      rw [run] at holds
      exact holds

/-- A step whose value is not used, with the assertion between the two named. -/
theorem triple_then (middle : σ → Prop) {next : α → EStateM ε σ β} {last : β → σ → Prop}
    (first : Triple pre program (fun _ => middle) fail)
    (second : ∀ value, Triple middle (next value) last fail) :
    Triple pre (program >>= next) last fail := triple_bind first second

/-- A step that keeps the assertion and whose value is known. -/
theorem triple_gives {value : α} {next : α → EStateM ε σ β} {last : β → σ → Prop}
    (first : Triple pre program (fun found state => found = value ∧ pre state) fail)
    (second : Triple pre (next value) last fail) : Triple pre (program >>= next) last fail := by
  refine triple_bind first fun found state holds => ?_
  obtain ⟨rfl, start⟩ := holds
  exact second state start

/-- The value read is known to the continuation together with the precondition. -/
theorem triple_read (view : σ → α) {next : α → EStateM ε σ β} {last : β → σ → Prop}
    (second : ∀ value, Triple (fun state => pre state ∧ view state = value) (next value) last fail) :
    Triple pre (read view >>= next) last fail :=
  fun state start => second (view state) state ⟨start, rfl⟩

/-- A component that the precondition already tells. -/
theorem triple_known {view : σ → α} {value : α} {next : α → EStateM ε σ β} {last : β → σ → Prop}
    (known : ∀ state, pre state → view state = value)
    (second : Triple pre (next value) last fail) : Triple pre (read view >>= next) last fail := by
  intro state start
  rw [bind_apply, read_apply, known state start]
  exact second state start

theorem triple_conseq {weaker : σ → Prop} {stronger : α → σ → Prop} {worse : ε → σ → Prop}
    (triple : Triple weaker program stronger worse)
    (enter : ∀ state, pre state → weaker state)
    (leave : ∀ value state, stronger value state → post value state)
    (escape : ∀ thrown state, worse thrown state → fail thrown state) :
    Triple pre program post fail := by
  intro state start
  have holds := triple state (enter state start)
  cases run : program state with
  | ok value after => rw [run] at holds; exact leave value after holds
  | error thrown after => rw [run] at holds; exact escape thrown after holds

/-- Two accounts of one run. -/
theorem triple_both {also : σ → Prop} {too : α → σ → Prop} {worse : ε → σ → Prop}
    (one : Triple pre program post fail) (other : Triple also program too worse) :
    Triple (fun state => pre state ∧ also state) program
      (fun value state => post value state ∧ too value state)
      (fun thrown state => fail thrown state ∧ worse thrown state) := by
  rintro state ⟨start, begun⟩
  have holds := one state start
  have seen := other state begun
  cases run : program state with
  | ok value after => rw [run] at holds seen; exact ⟨holds, seen⟩
  | error thrown after => rw [run] at holds seen; exact ⟨holds, seen⟩

theorem triple_ite {condition : Prop} [Decidable condition] {other : EStateM ε σ α}
    (yes : condition → Triple pre program post fail)
    (no : ¬ condition → Triple pre other post fail) :
    Triple pre (if condition then program else other) post fail := by
  by_cases holds : condition
  · rw [if_pos holds]; exact yes holds
  · rw [if_neg holds]; exact no holds

theorem triple_guarded {handler : ε → EStateM ε σ α} {caught : ε → σ → Prop}
    (body : Triple pre program post caught)
    (rescue : ∀ thrown, Triple (caught thrown) (handler thrown) post fail) :
    Triple pre (guarded program handler) post fail := by
  intro state start
  have holds := body state start
  unfold guarded
  cases run : program state with
  | ok value after =>
      rw [run] at holds
      exact holds
  | error thrown after =>
      rw [run] at holds
      exact rescue thrown after holds

/-- The rule of a component: what the inner run leaves is put back before the
outer assertions are read. -/
theorem triple_within {inner : EStateM ε ρ α} (view : σ → ρ) (put : ρ → σ → σ)
    (triple : ∀ state, pre state → Triple (fun part => part = view state) inner
      (fun value part => post value (put part state))
      (fun thrown part => fail thrown (put part state))) :
    Triple pre (within view put inner) post fail := by
  intro state start
  have holds := triple state start (view state) rfl
  unfold within
  cases run : inner (view state) <;> rw [run] at holds <;> exact holds

end OneRun

section Frames

variable {γ : Type} {view : σ → γ} {program : EStateM ε σ α}

/-- However the program ends, the view is the one it began with. -/
def Frame (view : σ → γ) (program : EStateM ε σ α) : Prop :=
  ∀ state, view (finalState (program state)) = view state

theorem frame_pure (value : α) : Frame view (pure value : EStateM ε σ α) := fun _ => rfl

theorem frame_modify {change : σ → σ} (same : ∀ state, view (change state) = view state) :
    Frame view (modify change : EStateM ε σ PUnit) := same

theorem frame_read (look : σ → α) : Frame view (read look : EStateM ε σ α) := fun _ => rfl

theorem frame_raise (outcome : Except ε α) : Frame view (raise outcome : EStateM ε σ α) := by
  intro state
  cases outcome <;> rfl

theorem frame_bind {next : α → EStateM ε σ β} (first : Frame view program)
    (second : ∀ value, Frame view (next value)) : Frame view (program >>= next) := by
  intro state
  have here := first state
  rw [bind_apply]
  cases run : program state with
  | ok value after => rw [run] at here; exact (second value after).trans here
  | error thrown after => rw [run] at here; exact here

theorem frame_ite {condition : Prop} [Decidable condition] {other : EStateM ε σ α}
    (yes : Frame view program) (no : Frame view other) :
    Frame view (if condition then program else other) := by
  by_cases holds : condition
  · rwa [if_pos holds]
  · rwa [if_neg holds]

/-- A component's run leaves alone what putting the component back does. -/
theorem frame_within {inner : EStateM ε ρ α} (look : σ → ρ) (put : ρ → σ → σ)
    (apart : ∀ part state, view (put part state) = view state) : Frame view (within look put inner) := by
  intro state
  unfold within
  cases inner (look state) <;> exact apart _ state

theorem Frame.ok (frame : Frame view program) {state after : σ} {value : α} (done : program state = .ok value after) :
    view after = view state := by
  have same := frame state
  rwa [done] at same

/-- What depends on the view alone survives. -/
theorem triple_frame (frame : Frame view program) {pre : σ → Prop} {fail : ε → σ → Prop}
    (depends : ∀ before after, view after = view before → pre before → pre after)
    (weaken : ∀ thrown state, pre state → fail thrown state) :
    Triple pre program (fun _ => pre) fail := by
  intro state start
  have same := frame state
  cases run : program state with
  | ok value after => rw [run] at same; exact depends state after same start
  | error thrown after => rw [run] at same; exact weaken thrown after (depends state after same start)

end Frames

section TwoRuns

/-- Both runs return the same value or throw the same exception, from related
states into related states. -/
def Related (before : σ → τ → Prop) (left : EStateM ε σ α) (right : EStateM ε τ α)
    (after : α → σ → τ → Prop) (escaped : ε → σ → τ → Prop) : Prop :=
  ∀ first second, before first second → match left first, right second with
    | .ok value state, .ok answer other => value = answer ∧ after value state other
    | .error thrown state, .error caught other => thrown = caught ∧ escaped thrown state other
    | _, _ => False

variable {before : σ → τ → Prop} {left : EStateM ε σ α} {right : EStateM ε τ α}
  {after : α → σ → τ → Prop} {escaped : ε → σ → τ → Prop}

theorem related_pure (value : α) (holds : ∀ first second, before first second → after value first second) :
    Related before (pure value) (pure value) after escaped :=
  fun first second start => ⟨rfl, holds first second start⟩

theorem related_throw (thrown : ε)
    (holds : ∀ first second, before first second → escaped thrown first second) :
    Related before (throw thrown : EStateM ε σ α) (throw thrown) after escaped :=
  fun first second start => ⟨rfl, holds first second start⟩

theorem related_modify (change : σ → σ) (alter : τ → τ) {after : PUnit → σ → τ → Prop}
    (holds : ∀ first second, before first second → after ⟨⟩ (change first) (alter second)) :
    Related before (modify change : EStateM ε σ PUnit) (modify alter) after escaped :=
  fun first second start => ⟨rfl, holds first second start⟩

theorem related_bind {next : α → EStateM ε σ β} {follow : α → EStateM ε τ β}
    {last : β → σ → τ → Prop} (head : Related before left right after escaped)
    (tail : ∀ value, Related (after value) (next value) (follow value) last escaped) :
    Related before (left >>= next) (right >>= follow) last escaped := by
  intro first second start
  have holds := head first second start
  rw [bind_apply, bind_apply]
  cases run : left first <;> cases other : right second <;> rw [run, other] at holds
  · obtain ⟨rfl, related⟩ := holds
    exact tail _ _ _ related
  · exact holds.elim
  · exact holds.elim
  · exact holds

theorem related_read (view : σ → α) (look : τ → α) {next : α → EStateM ε σ β}
    {follow : α → EStateM ε τ β} {last : β → σ → τ → Prop}
    (same : ∀ first second, before first second → view first = look second)
    (tail : ∀ value, Related (fun first second => before first second ∧ view first = value)
      (next value) (follow value) last escaped) :
    Related before (read view >>= next) (read look >>= follow) last escaped := by
  intro first second start
  have holds := tail (view first) first second ⟨start, rfl⟩
  rw [bind_apply, bind_apply, read_apply, read_apply, ← same first second start]
  exact holds

/-- Reads of what the two states need not share: the rest may use what the relation says
of the values read. -/
theorem related_look {δ : Type u} (view : σ → α) (look : τ → δ) {next : α → EStateM ε σ β}
    {follow : δ → EStateM ε τ β} {last : β → σ → τ → Prop}
    (tail : ∀ first second, before first second →
      Related before (next (view first)) (follow (look second)) last escaped) :
    Related before (read view >>= next) (read look >>= follow) last escaped := by
  intro first second start
  rw [bind_apply, bind_apply, read_apply, read_apply]
  exact tail first second start first second start

theorem related_ite {condition : Prop} [Decidable condition] {other : EStateM ε σ α}
    {alternative : EStateM ε τ α}
    (yes : condition → Related before left right after escaped)
    (no : ¬ condition → Related before other alternative after escaped) :
    Related before (if condition then left else other) (if condition then right else alternative)
      after escaped := by
  by_cases holds : condition
  · rw [if_pos holds, if_pos holds]; exact yes holds
  · rw [if_neg holds, if_neg holds]; exact no holds

theorem related_conseq {weaker : σ → τ → Prop} {stronger : α → σ → τ → Prop}
    {worse : ε → σ → τ → Prop} (related : Related weaker left right stronger worse)
    (enter : ∀ first second, before first second → weaker first second)
    (leave : ∀ value first second, stronger value first second → after value first second)
    (escape : ∀ thrown first second, worse thrown first second → escaped thrown first second) :
    Related before left right after escaped := by
  intro first second start
  have holds := related first second (enter first second start)
  cases run : left first <;> cases other : right second <;> rw [run, other] at holds
  · exact ⟨holds.1, leave _ _ _ holds.2⟩
  · exact holds
  · exact holds
  · exact ⟨holds.1, escape _ _ _ holds.2⟩

theorem related_within {inner : EStateM ε ρ α} {other : EStateM ε ρ α}
    (view : σ → ρ) (put : ρ → σ → σ) (look : τ → ρ) (place : ρ → τ → τ)
    (related : ∀ first second, before first second →
      Related (fun part piece => part = view first ∧ piece = look second) inner other
        (fun value part piece => after value (put part first) (place piece second))
        (fun thrown part piece => escaped thrown (put part first) (place piece second))) :
    Related before (within view put inner) (within look place other) after escaped := by
  intro first second start
  have holds := related first second start (view first) (look second) ⟨rfl, rfl⟩
  unfold within
  cases run : inner (view first) <;> cases twin : other (look second) <;>
    rw [run, twin] at holds <;> exact holds

theorem related_guarded {handler : ε → EStateM ε σ α} {rescue : ε → EStateM ε τ α}
    {caught : ε → σ → τ → Prop} (body : Related before left right after caught)
    (handled : ∀ thrown, Related (caught thrown) (handler thrown) (rescue thrown) after escaped) :
    Related before (guarded left handler) (guarded right rescue) after escaped := by
  intro first second start
  have holds := body first second start
  unfold guarded
  cases run : left first <;> cases other : right second <;> rw [run, other] at holds
  · exact holds
  · exact holds.elim
  · exact holds.elim
  · obtain ⟨rfl, related⟩ := holds
    exact handled _ _ _ related

end TwoRuns

end XInfer.StateException
