import XInfer.KVCache

/-!
The calls that move the length counter of a `KVCache`, in any order and with any `size_t` argument. The
two checks against `max_seq_len` add in `size_t`; the arithmetic that they stand for does not wrap.
-/

namespace XInfer.LengthCalls

open Primitives

inductive Call where
  | setSeqLen (len : Nat)
  | advance (delta : Nat)
  | canAdvance (delta : Nat)
  | rollback (steps : Nat)
  | clear

inductive Reply where
  | done
  | answered (verdict : Bool)
  | threw (thrown : Exn)
  deriving DecidableEq

/-- The argument fits its type. -/
def Call.Typed : Call → Prop
  | .setSeqLen n | .advance n | .canAdvance n | .rollback n => n < 2 ^ 64
  | .clear => True

variable {KV Rec : Type}

/-- What a call answers, and the cache that it leaves. -/
def perform (cleared : Rec) (cache : KVCache KV Rec) : Call → Reply × KVCache KV Rec
  | .setSeqLen len => (.done, cache.setSeqLen len)
  | .advance delta => (.answered (cache.advance delta).1, (cache.advance delta).2)
  | .canAdvance delta => (.answered (cache.canAdvance delta), cache)
  | .rollback steps =>
      match cache.rollback steps with
      | .ok after => (.done, after)
      | .error thrown => (.threw thrown, cache)
  | .clear => (.done, cache.clear cleared)

/-- Each call of a sequence with the cache that it finds. -/
def steps (cleared : Rec) (cache : KVCache KV Rec) : List Call → List (KVCache KV Rec × Call)
  | [] => []
  | call :: rest => (cache, call) :: steps cleared (perform cleared cache call).2 rest

def last (cleared : Rec) (cache : KVCache KV Rec) (calls : List Call) : KVCache KV Rec :=
  calls.foldl (fun cache call => (perform cleared cache call).2) cache

/-- The call does what its name says, over the natural numbers. -/
def Exact (cleared : Rec) (step : KVCache KV Rec × Call) : Prop :=
  let cache := step.1
  let reply := (perform cleared cache step.2).1
  let after := (perform cleared cache step.2).2.currentSeqLen
  match step.2 with
  | .setSeqLen len => after = min len cache.maxSeqLen
  | .advance delta =>
      (reply = .answered true ↔ cache.currentSeqLen + delta ≤ cache.maxSeqLen) ∧
        (reply = .answered true → after = cache.currentSeqLen + delta) ∧
        (reply = .answered false → after = cache.maxSeqLen)
  | .canAdvance delta => reply = .answered true ↔ cache.currentSeqLen + delta ≤ cache.maxSeqLen
  | .rollback steps =>
      ((∃ thrown, reply = .threw thrown) ↔ cache.currentSeqLen < steps) ∧
        after = if steps ≤ cache.currentSeqLen then cache.currentSeqLen - steps else cache.currentSeqLen
  | .clear => after = 0

/-- The sum that the call forms fits in `size_t`. -/
def Unwrapped (step : KVCache KV Rec × Call) : Prop :=
  match step.2 with
  | .advance delta | .canAdvance delta => step.1.currentSeqLen + delta < 2 ^ 64
  | _ => True

section Step

variable (cleared : Rec) {cache : KVCache KV Rec}

theorem rollback_reply (n : Nat) :
    (∃ thrown, (perform cleared cache (.rollback n)).1 = .threw thrown) ↔ cache.currentSeqLen < n := by
  by_cases room : n ≤ cache.currentSeqLen
  · simp [perform, KVCache.rollback_of_le room, Nat.not_lt.2 room]
  · simp [perform, KVCache.rollback, Nat.lt_of_not_le room]

theorem rollback_length (n : Nat) : (perform cleared cache (.rollback n)).2.currentSeqLen =
    if n ≤ cache.currentSeqLen then cache.currentSeqLen - n else cache.currentSeqLen := by
  by_cases room : n ≤ cache.currentSeqLen
  · simp [perform, KVCache.rollback_of_le room, room]
  · simp [perform, KVCache.rollback, room, Nat.lt_of_not_le room]

theorem rollback_maxSeqLen (n : Nat) : (perform cleared cache (.rollback n)).2.maxSeqLen = cache.maxSeqLen := by
  by_cases room : n ≤ cache.currentSeqLen
  · simp [perform, KVCache.rollback_of_le room]
  · simp [perform, KVCache.rollback, Nat.lt_of_not_le room]

theorem advance_length (delta : Nat) : (cache.advance delta).2.currentSeqLen =
    if cache.maxSeqLen < sizeAdd cache.currentSeqLen delta then cache.maxSeqLen
    else sizeAdd cache.currentSeqLen delta := by
  unfold KVCache.advance
  split <;> rfl

theorem advance_verdict (delta : Nat) :
    (cache.advance delta).1 = true ↔ sizeAdd cache.currentSeqLen delta ≤ cache.maxSeqLen := by
  unfold KVCache.advance
  split <;> simp <;> omega

/-- No call leaves the bound. -/
theorem perform_within (call : Call) (within : cache.currentSeqLen ≤ cache.maxSeqLen) :
    (perform cleared cache call).2.maxSeqLen = cache.maxSeqLen ∧
      (perform cleared cache call).2.currentSeqLen ≤ cache.maxSeqLen := by
  cases call with
  | setSeqLen len => exact ⟨rfl, Nat.min_le_right _ _⟩
  | advance delta =>
      constructor
      · simp only [perform, KVCache.advance]
        split <;> rfl
      · simp only [perform, advance_length]
        split <;> omega
  | canAdvance delta => exact ⟨rfl, within⟩
  | rollback n =>
      refine ⟨rollback_maxSeqLen cleared n, ?_⟩
      rw [rollback_length]
      split <;> omega
  | clear => exact ⟨rfl, Nat.zero_le _⟩

/-- A sum that wraps comes out below the length that it should exceed. -/
theorem sizeAdd_wrapped {left right : Nat} (typed : right < 2 ^ 64) (wraps : 2 ^ 64 ≤ left + right)
    (word : left < 2 ^ 64) : sizeAdd left right < left := by
  unfold sizeAdd
  omega

theorem sum_verdict {delta : Nat} (within : cache.currentSeqLen ≤ cache.maxSeqLen) (word : cache.maxSeqLen < 2 ^ 64)
    (typed : delta < 2 ^ 64) :
    ((sizeAdd cache.currentSeqLen delta ≤ cache.maxSeqLen) ↔ (cache.currentSeqLen + delta ≤ cache.maxSeqLen)) ↔
      cache.currentSeqLen + delta < 2 ^ 64 := by
  by_cases fits : cache.currentSeqLen + delta < 2 ^ 64
  · rw [sizeAdd_of_lt fits]
    exact iff_of_true Iff.rfl fits
  · -- a sum that wraps passes the check that it stands for failing
    have below := sizeAdd_wrapped typed (Nat.le_of_not_lt fits) (by omega)
    have beyond : ¬ cache.currentSeqLen + delta ≤ cache.maxSeqLen := by omega
    have answered : sizeAdd cache.currentSeqLen delta ≤ cache.maxSeqLen := by omega
    exact iff_of_false (fun same => beyond (same.1 answered)) fits

theorem exact_iff (call : Call) (within : cache.currentSeqLen ≤ cache.maxSeqLen) (word : cache.maxSeqLen < 2 ^ 64)
    (typed : call.Typed) : Exact cleared (cache, call) ↔ Unwrapped (cache, call) := by
  cases call with
  | setSeqLen len => exact iff_of_true rfl trivial
  | advance delta =>
      have verdict := sum_verdict within word typed
      simp only [Exact, Unwrapped, perform, Reply.answered.injEq, advance_verdict]
      refine ⟨fun exact => verdict.1 exact.1, fun fits => ⟨verdict.2 fits, ?_, ?_⟩⟩
      · intro room
        rw [advance_length, if_neg (Nat.not_lt.2 room), sizeAdd_of_lt fits]
      · intro refused
        have full : ¬ sizeAdd cache.currentSeqLen delta ≤ cache.maxSeqLen := by
          rw [← advance_verdict, refused]
          exact Bool.false_ne_true
        rw [advance_length, if_pos (Nat.lt_of_not_le full)]
  | canAdvance delta =>
      have verdict := sum_verdict within word typed
      simpa only [Exact, Unwrapped, perform, Reply.answered.injEq, KVCache.canAdvance, decide_eq_true_eq] using verdict
  | rollback n => exact iff_of_true ⟨rollback_reply cleared n, rollback_length cleared n⟩ trivial
  | clear => exact iff_of_true rfl trivial

end Step

section Run

variable (cleared : Rec) {cache : KVCache KV Rec} {calls : List Call}

theorem steps_within (within : cache.currentSeqLen ≤ cache.maxSeqLen) (step : KVCache KV Rec × Call)
    (reached : step ∈ steps cleared cache calls) :
    step.1.maxSeqLen = cache.maxSeqLen ∧ step.1.currentSeqLen ≤ cache.maxSeqLen ∧ step.2 ∈ calls := by
  induction calls generalizing cache with
  | nil => cases reached
  | cons call rest ih =>
      obtain ⟨same, inside⟩ := perform_within cleared call within
      rcases List.mem_cons.1 reached with here | later
      · subst here
        exact ⟨rfl, within, List.mem_cons_self⟩
      · obtain ⟨bound, below, member⟩ := ih (same ▸ inside) later
        rw [same] at bound below
        exact ⟨bound, below, List.mem_cons_of_mem _ member⟩

theorem last_within (within : cache.currentSeqLen ≤ cache.maxSeqLen) :
    (last cleared cache calls).currentSeqLen ≤ cache.maxSeqLen := by
  induction calls generalizing cache with
  | nil => exact within
  | cons call rest ih =>
      obtain ⟨same, inside⟩ := perform_within cleared call within
      rw [← same]
      exact ih (same ▸ inside)

/-- The length stays within the cache, and a run is exact in every step if and only if no sum in it wraps. -/
theorem length_arithmetic (created : cache.currentSeqLen = 0) (word : cache.maxSeqLen < 2 ^ 64)
    (typed : ∀ call ∈ calls, call.Typed) :
    (∀ step ∈ steps cleared cache calls, step.1.currentSeqLen ≤ cache.maxSeqLen) ∧
      (last cleared cache calls).currentSeqLen ≤ cache.maxSeqLen ∧
      ((∀ step ∈ steps cleared cache calls, Exact cleared step) ↔
        ∀ step ∈ steps cleared cache calls, Unwrapped step) := by
  have within : cache.currentSeqLen ≤ cache.maxSeqLen := by omega
  refine ⟨fun step reached => (steps_within cleared within step reached).2.1, last_within cleared within, ?_⟩
  refine forall₂_congr fun step reached => ?_
  obtain ⟨same, inside, member⟩ := steps_within cleared within step reached
  exact exact_iff cleared step.2 (same ▸ inside) (same ▸ word) (typed step.2 member)

end Run

section Wrapping

/-- A cache of 8192 positions as its constructor leaves it. -/
def empty : KVCache Unit Unit := ⟨8192, 0, ⟨fun _ => (), ()⟩, (), false⟩

theorem empty_arithmetic : (last () empty [.advance 10, .rollback 3]).currentSeqLen ≤ 8192 ∧
    ∀ step ∈ steps () empty [.advance 10, .rollback 3], Exact () step := by
  have typed : ∀ call ∈ [Call.advance 10, .rollback 3], call.Typed := by simp [Call.Typed]
  have run := length_arithmetic () (show empty.currentSeqLen = 0 from rfl) (by decide) typed
  refine ⟨run.2.1, run.2.2.2 ?_⟩
  simp [steps, Unwrapped, perform, empty, KVCache.advance, sizeAdd]

/-- One position on, and then `2 ^ 64 - 1` more: the length is back at 0, and the answer is `true`. -/
theorem advance_wraps :
    (∀ call ∈ [Call.advance 1, .advance (2 ^ 64 - 1)], call.Typed) ∧
      (perform () (empty.setSeqLen 1) (.advance (2 ^ 64 - 1))).1 = .answered true ∧
      (last () empty [.advance 1, .advance (2 ^ 64 - 1)]).currentSeqLen = 0 ∧
      ¬ ∀ step ∈ steps () empty [.advance 1, .advance (2 ^ 64 - 1)], Exact () step := by
  refine ⟨by simp [Call.Typed], by decide, by decide, ?_⟩
  intro exact
  have answer := (exact ((empty.advance 1).2, .advance (2 ^ 64 - 1)) (by simp [steps, perform])).1
  revert answer
  decide

end Wrapping

end XInfer.LengthCalls
