import Mathlib.Analysis.InnerProductSpace.PiL2
import Mathlib.Data.Matrix.Mul
import Mathlib.Tactic.LinearCombination

/-!
An associative memory under the gated delta rule. The memory is a matrix with a row for each coordinate of the keys:
it is scaled down, what it recalls for the key is taken out in part, and as much of the value is put in its place.
-/

namespace XInfer.DeltaRule

open Matrix

variable {m n R : Type} [Fintype m] [DecidableEq m]

structure Token (m n R : Type) where
  decay : R
  rate : R
  key : m → R
  value : n → R

section Rule

variable [CommRing R] (tok : Token m n R) (S : Matrix m n R)

def Token.update : Matrix m n R :=
  (1 - tok.rate • vecMulVec tok.key tok.key) * (tok.decay • S) + tok.rate • vecMulVec tok.key tok.value

/-- What the scaled memory recalls. -/
def Token.recall : n → R := tok.key ᵥ* (tok.decay • S)

theorem Token.update_apply (i : m) (j : n) :
    tok.update S i j = tok.decay * S i j + tok.key i * (tok.rate * (tok.value j - tok.recall S j)) := by
  have outer : (vecMulVec tok.key tok.key * (tok.decay • S)) i j = tok.key i * tok.recall S j := by
    rw [vecMulVec_mul]
    rfl
  rw [Token.update, Matrix.sub_mul, Matrix.one_mul, Matrix.smul_mul]
  simp only [Matrix.add_apply, Matrix.sub_apply, Matrix.smul_apply, outer, vecMulVec_apply, smul_eq_mul]
  ring

/-- The share of the value is the rate times the square of the key; the whole of it for a unit key at rate one. -/
theorem Token.recall_update : tok.key ᵥ* tok.update S =
    (1 - tok.rate * (tok.key ⬝ᵥ tok.key)) • tok.recall S + (tok.rate * (tok.key ⬝ᵥ tok.key)) • tok.value := by
  funext j
  have each : (tok.key ᵥ* tok.update S) j = ∑ i, (tok.key i * (tok.decay * S i j) +
      tok.key i * tok.key i * (tok.rate * (tok.value j - tok.recall S j))) := by
    refine Finset.sum_congr rfl fun i _ => ?_
    change tok.key i * tok.update S i j = _
    rw [Token.update_apply]
    ring
  have recalled : ∑ i, tok.key i * (tok.decay * S i j) = tok.recall S j := rfl
  have square : ∑ i, tok.key i * tok.key i = tok.key ⬝ᵥ tok.key := rfl
  rw [each, Finset.sum_add_distrib, ← Finset.sum_mul, recalled, square]
  simp only [Pi.add_apply, Pi.smul_apply, smul_eq_mul]
  ring

/-- The memory behind a sequence of tokens. -/
def run (tokens : List (Token m n R)) (S : Matrix m n R) : Matrix m n R :=
  tokens.foldl (fun S tok => tok.update S) S

end Rule

section Length

/-- The Euclidean length of a column. -/
noncomputable def columnLength (S : Matrix m n ℝ) (j : n) : ℝ := √(∑ i, S i j ^ 2)

omit [DecidableEq m] in
theorem columnLength_eq (S : Matrix m n ℝ) (j : n) : columnLength S j = ‖WithLp.toLp 2 fun i => S i j‖ := by
  rw [columnLength, EuclideanSpace.norm_eq]
  simp only [Real.norm_eq_abs, sq_abs]

omit [DecidableEq m] in
theorem columnLength_nonneg (S : Matrix m n ℝ) (j : n) : 0 ≤ columnLength S j := Real.sqrt_nonneg _

omit [DecidableEq m] in
theorem length_sq (x : m → ℝ) : ‖WithLp.toLp 2 x‖ ^ 2 = x ⬝ᵥ x := by
  rw [EuclideanSpace.norm_sq_eq]
  exact Finset.sum_congr rfl fun i _ => by rw [Real.norm_eq_abs, sq_abs, sq]

omit [DecidableEq m] in
/-- Taking out a part of the component along the key does not make a vector longer. -/
theorem length_sub_le (key x : m → ℝ) {rate : ℝ} (positive : 0 ≤ rate) (part : rate * (key ⬝ᵥ key) ≤ 2) :
    ‖WithLp.toLp 2 fun i => x i - key i * (rate * (key ⬝ᵥ x))‖ ≤ ‖WithLp.toLp 2 x‖ := by
  have expand : (fun i => x i - key i * (rate * (key ⬝ᵥ x))) ⬝ᵥ (fun i => x i - key i * (rate * (key ⬝ᵥ x))) =
      x ⬝ᵥ x - rate * (key ⬝ᵥ x) ^ 2 * (2 - rate * (key ⬝ᵥ key)) := by
    have each : ∀ i, (x i - key i * (rate * (key ⬝ᵥ x))) * (x i - key i * (rate * (key ⬝ᵥ x))) =
        x i * x i - 2 * (rate * (key ⬝ᵥ x)) * (key i * x i) + (rate * (key ⬝ᵥ x)) ^ 2 * (key i * key i) := by
      intro i
      ring
    have sums : (fun i => x i - key i * (rate * (key ⬝ᵥ x))) ⬝ᵥ (fun i => x i - key i * (rate * (key ⬝ᵥ x))) =
        x ⬝ᵥ x - 2 * (rate * (key ⬝ᵥ x)) * (key ⬝ᵥ x) + (rate * (key ⬝ᵥ x)) ^ 2 * (key ⬝ᵥ key) := by
      conv_lhs => rw [dotProduct]
      simp only [each]
      rw [Finset.sum_add_distrib, Finset.sum_sub_distrib, ← Finset.mul_sum, ← Finset.mul_sum]
      rfl
    rw [sums]
    ring
  have less : 0 ≤ rate * (key ⬝ᵥ x) ^ 2 * (2 - rate * (key ⬝ᵥ key)) :=
    mul_nonneg (mul_nonneg positive (sq_nonneg _)) (sub_nonneg.2 part)
  apply le_of_sq_le_sq _ (norm_nonneg _)
  rw [length_sq, length_sq, expand]
  linarith

/-- Decays and rates between none and all, and keys within the unit ball. -/
structure Token.Tame (tok : Token m n ℝ) : Prop where
  decay : 0 ≤ tok.decay ∧ tok.decay ≤ 1
  rate : 0 ≤ tok.rate ∧ tok.rate ≤ 1
  key : tok.key ⬝ᵥ tok.key ≤ 1

variable {tok : Token m n ℝ}

theorem Token.Tame.columnLength_update (tame : tok.Tame) (S : Matrix m n ℝ) (j : n) :
    columnLength (tok.update S) j ≤ columnLength S j + |tok.value j| := by
  let x : m → ℝ := fun i => tok.decay * S i j
  have shorter : ‖WithLp.toLp 2 x‖ ≤ columnLength S j := by
    have scaled : WithLp.toLp 2 x = tok.decay • WithLp.toLp 2 fun i => S i j := rfl
    rw [scaled, norm_smul, Real.norm_of_nonneg tame.decay.1, columnLength_eq]
    exact mul_le_of_le_one_left (norm_nonneg _) tame.decay.2
  have unit : ‖WithLp.toLp 2 tok.key‖ ≤ 1 := by
    apply le_of_sq_le_sq _ zero_le_one
    rw [length_sq, one_pow]
    exact tame.key
  have added : ‖(tok.rate * tok.value j) • WithLp.toLp 2 tok.key‖ ≤ |tok.value j| := by
    rw [norm_smul, Real.norm_eq_abs, abs_mul, abs_of_nonneg tame.rate.1, mul_right_comm]
    apply mul_le_of_le_one_left (abs_nonneg _)
    exact mul_le_one₀ tame.rate.2 (norm_nonneg _) unit
  have part : tok.rate * (tok.key ⬝ᵥ tok.key) ≤ 2 := by
    have below := mul_le_one₀ tame.rate.2 (Finset.sum_nonneg fun i _ => mul_self_nonneg (tok.key i)) tame.key
    exact below.trans one_le_two
  -- the old column without what is recalled, and the new value along the key
  have split : WithLp.toLp 2 (fun i => tok.update S i j) =
      WithLp.toLp 2 (fun i => x i - tok.key i * (tok.rate * (tok.key ⬝ᵥ x))) +
        (tok.rate * tok.value j) • WithLp.toLp 2 tok.key := by
    ext i
    have recalled : tok.recall S j = tok.key ⬝ᵥ x := rfl
    simp only [Token.update_apply, recalled, PiLp.add_apply, PiLp.smul_apply, smul_eq_mul, x]
    ring
  calc columnLength (tok.update S) j
      ≤ ‖WithLp.toLp 2 (fun i => x i - tok.key i * (tok.rate * (tok.key ⬝ᵥ x)))‖ +
          ‖(tok.rate * tok.value j) • WithLp.toLp 2 tok.key‖ := by
        rw [columnLength_eq, split]
        exact norm_add_le _ _
    _ ≤ columnLength S j + |tok.value j| :=
        add_le_add ((length_sub_le tok.key x tame.rate.1 part).trans shorter) added

/-- The memory grows no faster than the values that it is given. -/
theorem columnLength_run {tokens : List (Token m n ℝ)} (tame : ∀ tok ∈ tokens, tok.Tame) (S : Matrix m n ℝ) (j : n) :
    columnLength (run tokens S) j ≤ columnLength S j + (tokens.map fun tok => |tok.value j|).sum := by
  induction tokens generalizing S with
  | nil => simp [run]
  | cons tok rest ih =>
      have later := ih (fun other member => tame other (List.mem_cons_of_mem tok member)) (tok.update S)
      have here := (tame tok List.mem_cons_self).columnLength_update S j
      rw [List.map_cons, List.sum_cons]
      change columnLength (run rest (tok.update S)) j ≤ _
      linarith

end Length

end XInfer.DeltaRule
