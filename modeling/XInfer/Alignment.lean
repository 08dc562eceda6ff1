import Mathlib.Algebra.Order.Floor.Div
import Mathlib.Data.Nat.Bitwise

/-!
Rounding up to a multiple, and the mask that does so for powers of two in a word of fixed width.
-/

namespace XInfer.Alignment

variable {n m align : Nat}

/-- The least multiple that is not below `n`. -/
def roundUp (n align : Nat) : Nat := align * (n ⌈/⌉ align)

theorem roundUp_eq (n align : Nat) : roundUp n align = (n + align - 1) / align * align := by
  rw [roundUp, Nat.ceilDiv_eq_add_pred_div, Nat.mul_comm]

theorem dvd_roundUp (n align : Nat) : align ∣ roundUp n align := Nat.dvd_mul_right align _

/-- A multiple is not below the rounded number when it is not below the number. -/
theorem roundUp_le (positive : 0 < align) (multiple : align ∣ m) : roundUp n align ≤ m ↔ n ≤ m := by
  obtain ⟨k, rfl⟩ := multiple
  rw [roundUp, Nat.mul_le_mul_left_iff positive, ceilDiv_le_iff_le_smul positive, smul_eq_mul]

theorem le_roundUp (positive : 0 < align) (n : Nat) : n ≤ roundUp n align :=
  (roundUp_le positive (dvd_roundUp n align)).mp (Nat.le_refl _)

theorem roundUp_mono (positive : 0 < align) (le : n ≤ m) : roundUp n align ≤ roundUp m align :=
  (roundUp_le positive (dvd_roundUp m align)).mpr (Nat.le_trans le (le_roundUp positive m))

section Words

variable {width shift : Nat}

/-- The mask with the low bits clear rounds down. -/
theorem and_mask (within : shift ≤ width) {word : Nat} (fits : word < 2 ^ width) :
    word &&& (2 ^ width - 2 ^ shift) = word / 2 ^ shift * 2 ^ shift := by
  obtain ⟨rest, rfl⟩ := Nat.exists_eq_add_of_le within
  have mask : 2 ^ (shift + rest) - 2 ^ shift = 2 ^ shift * (2 ^ rest - 1) := by
    rw [Nat.pow_add, Nat.mul_sub, Nat.mul_one]
  apply Nat.eq_of_testBit_eq
  intro i
  rw [mask, Nat.testBit_and, Nat.mul_comm _ (2 ^ shift), Nat.testBit_two_pow_mul, Nat.testBit_two_pow_mul,
    Nat.testBit_two_pow_sub_one, Nat.testBit_div_two_pow]
  by_cases low : shift ≤ i
  · have bit : i - shift + shift = i := Nat.sub_add_cancel low
    by_cases high : i - shift < rest
    · simp [low, high]
    · have beyond : word.testBit i = false :=
        Nat.testBit_lt_two_pow (Nat.lt_of_lt_of_le fits (Nat.pow_le_pow_right (by decide) (by omega)))
      simp [low, high, beyond]
  · simp [low]

/-- Rounding down commutes with the wrap of a word. -/
theorem mod_round (within : shift ≤ width) (n : Nat) :
    n % 2 ^ width / 2 ^ shift * 2 ^ shift = n / 2 ^ shift * 2 ^ shift % 2 ^ width := by
  obtain ⟨rest, rfl⟩ := Nat.exists_eq_add_of_le within
  rw [Nat.pow_add, Nat.mod_mul_right_div_self, Nat.mul_comm (2 ^ shift) (2 ^ rest), Nat.mul_mod_mul_right]

end Words

end XInfer.Alignment
