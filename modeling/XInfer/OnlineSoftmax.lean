import Mathlib.Algebra.BigOperators.Field
import Mathlib.Algebra.Order.BigOperators.Group.Finset
import Mathlib.Algebra.Order.Field.Basic
import Mathlib.Tactic.Ring

/-!
Averages weighted by exponentials, summed up one score at a time. The sums are kept scaled down by the exponential
of some shift, and a new shift rescales them; which one is taken does not matter, since it cancels in the quotient.
-/

namespace XInfer.OnlineSoftmax

open Finset

variable {ι K : Type} [Field K]

/-- What is used of the exponential. -/
structure Exponential [LinearOrder K] (exp : K → K) : Prop where
  pos : ∀ x, 0 < exp x
  add : ∀ x y, exp (x + y) = exp x * exp y

def weights (exp : K → K) (score : Nat → K) (n : Nat) : K := ∑ j ∈ range n, exp (score j)

def weighted (exp : K → K) (score : Nat → K) (value : Nat → ι → K) (n : Nat) (d : ι) : K :=
  ∑ j ∈ range n, exp (score j) * value j d

/-- The average of the first `n` values by the softmax of their scores. -/
def average (exp : K → K) (score : Nat → K) (value : Nat → ι → K) (n : Nat) (d : ι) : K :=
  weighted exp score value n d / weights exp score n

theorem average_congr {exp : K → K} {score score' : Nat → K} {value value' : Nat → ι → K} {n : Nat} {d : ι}
    (scores : ∀ j < n, score j = score' j) (values : ∀ j < n, value j d = value' j d) :
    average exp score value n d = average exp score' value' n d := by
  unfold average weighted weights
  congr 1
  · exact sum_congr rfl fun j before => by rw [scores j (mem_range.1 before), values j (mem_range.1 before)]
  · exact sum_congr rfl fun j before => by rw [scores j (mem_range.1 before)]

/-- Sums that are scaled down by the exponential of `shift`. -/
structure Scaled (exp : K → K) (score : Nat → K) (value : Nat → ι → K) (n : Nat) (shift sumExp : K) (acc : ι → K) :
    Prop where
  sum : sumExp * exp shift = weights exp score n
  acc : ∀ d, acc d * exp shift = weighted exp score value n d

variable [LinearOrder K] {exp : K → K} (laws : Exponential exp) {score : Nat → K} {value : Nat → ι → K} {n : Nat}
  {shift sumExp : K} {acc : ι → K}

include laws

theorem exp_shift (x shift : K) : exp (x - shift) * exp shift = exp x := by
  rw [← laws.add, sub_add_cancel]

omit [LinearOrder K] laws in
variable (exp score value) in
theorem Scaled.empty (shift : K) : Scaled exp score value 0 shift 0 (fun _ => 0) where
  sum := by rw [zero_mul, weights, sum_range_zero]
  acc d := by rw [zero_mul, weighted, sum_range_zero]

/-- The next score, with any new shift. -/
theorem Scaled.absorb (before : Scaled exp score value n shift sumExp acc) (new : K) :
    Scaled exp score value (n + 1) new (sumExp * exp (shift - new) + exp (score n - new))
      (fun d => acc d * exp (shift - new) + exp (score n - new) * value n d) where
  -- the old sums are scaled from the old shift to the new one
  sum := by
    rw [add_mul, mul_assoc, exp_shift laws, exp_shift laws, before.sum, weights, weights, sum_range_succ]
  acc d := by
    rw [add_mul, mul_assoc, exp_shift laws, before.acc, mul_right_comm, exp_shift laws, weighted, weighted,
      sum_range_succ]

variable (score value) in
theorem Scaled.first (shift : K) : Scaled exp score value 1 shift (exp (score 0 - shift))
    (fun d => exp (score 0 - shift) * value 0 d) := by
  have absorbed := (Scaled.empty exp score value shift).absorb laws shift
  simp only [zero_mul, zero_add] at absorbed
  exact absorbed

theorem Scaled.average (scaled : Scaled exp score value n shift sumExp acc) (d : ι) :
    acc d / sumExp = average exp score value n d := by
  rw [OnlineSoftmax.average, ← scaled.sum, ← scaled.acc, mul_div_mul_right _ _ (laws.pos _).ne']

theorem weights_pos [IsStrictOrderedRing K] (score : Nat → K) (filled : 0 < n) : 0 < weights exp score n :=
  Finset.sum_pos (fun _ _ => laws.pos _) (nonempty_range_iff.2 filled.ne')

theorem Scaled.sum_pos [IsStrictOrderedRing K] (scaled : Scaled exp score value n shift sumExp acc) (filled : 0 < n) :
    0 < sumExp := by
  have total := weights_pos laws score filled
  rw [← scaled.sum] at total
  exact (mul_pos_iff_of_pos_right (laws.pos _)).1 total

/-- Values that are all the same are their average. -/
theorem average_const [IsStrictOrderedRing K] (filled : 0 < n) {d : ι} {level : K} (same : ∀ j < n, value j d = level) :
    OnlineSoftmax.average exp score value n d = level := by
  have total : weighted exp score value n d = level * weights exp score n := by
    unfold weighted weights
    rw [mul_sum]
    apply sum_congr rfl
    intro j member
    rw [same j (mem_range.1 member), mul_comm]
  rw [OnlineSoftmax.average, total, mul_div_cancel_right₀ _ (weights_pos laws score filled).ne']

end XInfer.OnlineSoftmax
