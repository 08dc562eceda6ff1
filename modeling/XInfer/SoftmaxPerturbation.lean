import XInfer.OnlineSoftmax
import Mathlib.Analysis.Complex.Exponential
import Mathlib.Tactic.Linarith

/-!
How far an average by softmax moves when its scores and its values do. No share changes by more than a factor, which
scores within `δ` of each other bound by the exponential of `2 * δ`.
-/

namespace XInfer.SoftmaxPerturbation

open Finset OnlineSoftmax

variable {ι : Type} {score score' : Nat → ℝ} {value value' : Nat → ι → ℝ} {n j : Nat} {δ ε level : ℝ}

theorem exponential : Exponential Real.exp := ⟨Real.exp_pos, Real.exp_add⟩

/-- The share of a value in the average. -/
def share {K : Type} [Field K] (exp : K → K) (score : Nat → K) (n j : Nat) : K := exp (score j) / weights exp score n

theorem average_shares (score : Nat → ℝ) (value : Nat → ι → ℝ) (n : Nat) (d : ι) :
    average Real.exp score value n d = ∑ j ∈ range n, share Real.exp score n j * value j d := by
  unfold average weighted share
  rw [sum_div]
  exact sum_congr rfl fun j _ => div_mul_eq_mul_div .. |>.symm

theorem share_sum (score : Nat → ℝ) (filled : 0 < n) : ∑ j ∈ range n, share Real.exp score n j = 1 := by
  unfold share
  rw [← sum_div]
  exact div_self (weights_pos exponential score filled).ne'

theorem share_nonneg (score : Nat → ℝ) (n j : Nat) : 0 ≤ share Real.exp score n j :=
  div_nonneg (Real.exp_pos _).le (sum_nonneg fun _ _ => (Real.exp_pos _).le)

/-- Scores that are all near one another. -/
def Near (δ : ℝ) (n : Nat) (score score' : Nat → ℝ) : Prop := ∀ j < n, |score' j - score j| ≤ δ

theorem Near.symm (near : Near δ n score score') : Near δ n score' score := fun j inside => by
  rw [abs_sub_comm]
  exact near j inside

theorem Near.exp_le (near : Near δ n score score') (inside : j < n) :
    Real.exp (score' j) ≤ Real.exp δ * Real.exp (score j) := by
  have above := (abs_le.1 (near j inside)).2
  rw [← Real.exp_add]
  exact Real.exp_le_exp.2 (by linarith)

theorem Near.weights_le (near : Near δ n score score') :
    weights Real.exp score' n ≤ Real.exp δ * weights Real.exp score n := by
  unfold weights
  rw [mul_sum]
  exact sum_le_sum fun j member => near.exp_le (mem_range.1 member)

theorem Near.share_le (near : Near δ n score score') (inside : j < n) :
    share Real.exp score' n j ≤ Real.exp (δ + δ) * share Real.exp score n j := by
  have filled : 0 < n := Nat.zero_lt_of_lt inside
  have total := weights_pos exponential score filled
  have total' := weights_pos exponential score' filled
  unfold share
  rw [mul_div_assoc', div_le_div_iff₀ total' total, Real.exp_add]
  calc Real.exp (score' j) * weights Real.exp score n
      ≤ (Real.exp δ * Real.exp (score j)) * (Real.exp δ * weights Real.exp score' n) :=
        mul_le_mul (near.exp_le inside) near.symm.weights_le total.le
          (mul_pos (Real.exp_pos _) (Real.exp_pos _)).le
    _ = Real.exp δ * Real.exp δ * Real.exp (score j) * weights Real.exp score' n := by ring

theorem Near.share_near (near : Near δ n score score') (inside : j < n) :
    |share Real.exp score' n j - share Real.exp score n j| ≤ (Real.exp (δ + δ) - 1) * share Real.exp score n j := by
  have upper := near.share_le inside
  have lower := near.symm.share_le inside
  have nonneg : 0 ≤ δ := (abs_nonneg _).trans (near j inside)
  have grows : 0 ≤ Real.exp (δ + δ) - 1 := sub_nonneg.2 (Real.one_le_exp (add_nonneg nonneg nonneg))
  rcases le_total (share Real.exp score' n j) (share Real.exp score n j) with smaller | greater
  · -- the factor of the smaller share bounds the difference, and so does that of the greater one
    rw [abs_sub_comm, abs_of_nonneg (sub_nonneg.2 smaller)]
    have scaled := mul_le_mul_of_nonneg_left smaller grows
    linarith
  · rw [abs_of_nonneg (sub_nonneg.2 greater)]
    linarith

/-- Values within `ε` move the average by no more, and the scores move it by a part of the largest value. -/
theorem average_near {d : ι} (filled : 0 < n) (near : Near δ n score score')
    (values : ∀ j < n, |value' j d - value j d| ≤ ε)
    (bounded : ∀ j < n, |value j d| ≤ level) :
    |average Real.exp score' value' n d - average Real.exp score value n d| ≤ ε + (Real.exp (δ + δ) - 1) * level := by
  have split : average Real.exp score' value' n d - average Real.exp score value n d =
      ∑ j ∈ range n, share Real.exp score' n j * (value' j d - value j d) +
        ∑ j ∈ range n, (share Real.exp score' n j - share Real.exp score n j) * value j d := by
    rw [average_shares, average_shares, ← sum_sub_distrib, ← sum_add_distrib]
    exact sum_congr rfl fun j _ => by ring
  have moved : |∑ j ∈ range n, share Real.exp score' n j * (value' j d - value j d)| ≤ ε := by
    calc |∑ j ∈ range n, share Real.exp score' n j * (value' j d - value j d)|
        ≤ ∑ j ∈ range n, share Real.exp score' n j * ε := by
          refine (abs_sum_le_sum_abs _ _).trans (sum_le_sum fun j member => ?_)
          rw [abs_mul, abs_of_nonneg (share_nonneg ..)]
          exact mul_le_mul_of_nonneg_left (values j (mem_range.1 member)) (share_nonneg ..)
      _ = ε := by rw [← sum_mul, share_sum score' filled, one_mul]
  have weighed : |∑ j ∈ range n, (share Real.exp score' n j - share Real.exp score n j) * value j d| ≤
      (Real.exp (δ + δ) - 1) * level := by
    calc |∑ j ∈ range n, (share Real.exp score' n j - share Real.exp score n j) * value j d|
        ≤ ∑ j ∈ range n, (Real.exp (δ + δ) - 1) * share Real.exp score n j * level := by
          refine (abs_sum_le_sum_abs _ _).trans (sum_le_sum fun j member => ?_)
          have inside := mem_range.1 member
          rw [abs_mul]
          exact mul_le_mul (near.share_near inside) (bounded j inside) (abs_nonneg _)
            ((abs_nonneg _).trans (near.share_near inside))
      _ = (Real.exp (δ + δ) - 1) * level := by
          rw [← sum_mul, ← mul_sum, share_sum score filled, mul_one]
  rw [split]
  exact (abs_add_le _ _).trans (add_le_add moved weighed)

/-- Scaled products with keys that are near one another. -/
theorem dot_near {query key key' : Nat → ℝ} {m : Nat} {scale : ℝ} (near : ∀ d < m, |key' d - key d| ≤ ε)
    (bounded : ∑ d ∈ range m, |query d| ≤ level) (tolerance : 0 ≤ ε) (positive : 0 ≤ scale) :
    |(∑ d ∈ range m, query d * key' d) * scale - (∑ d ∈ range m, query d * key d) * scale| ≤ level * ε * scale := by
  have moved : |∑ d ∈ range m, query d * (key' d - key d)| ≤ level * ε := by
    calc |∑ d ∈ range m, query d * (key' d - key d)|
        ≤ ∑ d ∈ range m, |query d| * ε := by
          refine (abs_sum_le_sum_abs _ _).trans (sum_le_sum fun d member => ?_)
          rw [abs_mul]
          exact mul_le_mul_of_nonneg_left (near d (mem_range.1 member)) (abs_nonneg _)
      _ = (∑ d ∈ range m, |query d|) * ε := by rw [sum_mul]
      _ ≤ level * ε := mul_le_mul_of_nonneg_right bounded tolerance
  rw [← sub_mul, ← sum_sub_distrib, abs_mul, abs_of_nonneg positive]
  simp only [← mul_sub]
  exact mul_le_mul_of_nonneg_right moved positive

end XInfer.SoftmaxPerturbation
