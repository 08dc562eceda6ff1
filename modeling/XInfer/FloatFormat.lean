import Mathlib.Data.Int.ConditionallyCompleteOrder
import Mathlib.Data.Int.Log
import Mathlib.Data.Rat.Floor
import Mathlib.Tactic.Linarith
import Mathlib.Tactic.NormNum

/-!
Binary floating-point formats: the value that a rational is rounded to, to nearest with ties to
even. The sign of zero is dropped, so that a finite value is a rational.
-/

namespace XInfer.FloatFormat

structure Format where
  /-- Bits of the significand. -/
  precision : Nat
  precision_pos : 0 < precision
  /-- The weight of the last place of the smallest numbers. -/
  lowest : Int
  lowest_nonpos : lowest ≤ 0
  /-- Magnitudes from `2 ^ limit` on are infinite. -/
  limit : Nat

def binary32 : Format where
  precision := 24
  precision_pos := by decide
  lowest := -149
  lowest_nonpos := by decide
  limit := 128

def binary16 : Format where
  precision := 11
  precision_pos := by decide
  lowest := -24
  lowest_nonpos := by decide
  limit := 16

def binary64 : Format where
  precision := 53
  precision_pos := by decide
  lowest := -1074
  lowest_nonpos := by decide
  limit := 1024

variable (F : Format)

/-- The weight of the last place at the magnitude of `x`. -/
def lastPlace (x : Rat) : Int := max (Int.log 2 |x| + 1 - F.precision) F.lowest

def roundHalfEven (q : Rat) : Int :=
  let below := ⌊q⌋
  if q - below < 1 / 2 then below
  else if 1 / 2 < q - below then below + 1
  else if below % 2 = 0 then below else below + 1

def nearest (x : Rat) : Rat := roundHalfEven (x / 2 ^ lastPlace F x) * 2 ^ lastPlace F x

/-- A conversion between formats: an infinity stands as the power of two that no number reaches. -/
def saturated (x : Rat) : Rat := max (-2 ^ F.limit) (min (2 ^ F.limit) (nearest F x))

/-- `strtod` of the exact value `x`; `none` where it reports `ERANGE`. Below the normal range the
report is the library's choice, which `reportsUnderflow` makes. -/
def strtod (reportsUnderflow : Rat → Bool) (x : Rat) : Option Rat :=
  if 2 ^ binary64.limit ≤ |nearest binary64 x| then none
  else if x ≠ 0 ∧ |x| < (2 ^ 1022)⁻¹ ∧ reportsUnderflow x = true then none
  else some (nearest binary64 x)

example : nearest binary32 (1 / 10) = 13421773 / 134217728 := by decide +kernel

theorem roundHalfEven_int (n : Int) : roundHalfEven n = n := by
  simp [roundHalfEven]

theorem lastPlace_nonpos {x : Rat} (small : |x| < 2 ^ F.precision) : lastPlace F x ≤ 0 := by
  refine max_le ?_ F.lowest_nonpos
  rcases eq_or_ne x 0 with rfl | nonzero
  · have bits := F.precision_pos
    simp
    omega
  · have below : Int.log 2 |x| < F.precision := by
      rw [← Int.lt_zpow_iff_log_lt (by norm_num) (abs_pos.mpr nonzero)]
      exact_mod_cast small
    omega

/-- An integer of no more bits than the significand is a number of the format. -/
theorem nearest_int (n : Int) (small : |n| < 2 ^ F.precision) : nearest F n = n := by
  have place : lastPlace F n ≤ 0 := by
    apply lastPlace_nonpos
    exact_mod_cast small
  -- the place is a unit fraction, so `n` is a whole number of them
  obtain ⟨k, depth⟩ : ∃ k : Nat, lastPlace F n = -k := ⟨(-lastPlace F n).toNat, by omega⟩
  have whole : (n : Rat) / 2 ^ lastPlace F n = ((n * 2 ^ k : Int) : Rat) := by
    rw [depth, zpow_neg, zpow_natCast, div_inv_eq_mul]
    push_cast
    rfl
  have nonzero : (2 : Rat) ^ lastPlace F n ≠ 0 := zpow_ne_zero _ (by norm_num)
  rw [nearest, whole, roundHalfEven_int, ← whole]
  exact div_mul_cancel₀ _ nonzero

theorem strtod_int (reportsUnderflow : Rat → Bool) (n : Int) (small : |n| < 2 ^ 53) :
    strtod reportsUnderflow n = some (n : Rat) := by
  have magnitude : |(n : Rat)| < 2 ^ 53 := by exact_mod_cast small
  have finite : ¬ (2 : Rat) ^ binary64.limit ≤ |(n : Rat)| :=
    not_le.mpr (magnitude.trans (pow_lt_pow_right₀ (by norm_num) (by decide)))
  have normal : ¬ ((n : Rat) ≠ 0 ∧ |(n : Rat)| < (2 ^ 1022)⁻¹ ∧ reportsUnderflow n = true) := by
    rintro ⟨nonzero, tiny, -⟩
    have one : (1 : Rat) ≤ |(n : Rat)| := by
      have step : 1 ≤ |n| := Int.one_le_abs (by exact_mod_cast nonzero)
      exact_mod_cast step
    have large : (1 : Rat) ≤ 2 ^ 1022 := one_le_pow₀ (by norm_num)
    exact absurd (tiny.trans_le (inv_le_one_of_one_le₀ large)) (not_lt.mpr one)
  rw [strtod, nearest_int binary64 n small, if_neg finite, if_neg normal]

section Order

theorem roundHalfEven_mono : Monotone roundHalfEven := by
  intro x y le
  have floors := Int.floor_mono le
  unfold roundHalfEven
  dsimp only
  rcases eq_or_lt_of_le floors with same | less
  · rw [same]
    split_ifs <;> first | omega | (exfalso; linarith)
  · split_ifs <;> omega

theorem roundHalfEven_neg (q : Rat) : roundHalfEven (-q) = -roundHalfEven q := by
  by_cases whole : (⌊q⌋ : Rat) = q
  · rw [← whole, ← Int.cast_neg, roundHalfEven_int, roundHalfEven_int]
  · have below : (⌊q⌋ : Rat) < q := lt_of_le_of_ne (Int.floor_le q) whole
    have above := Int.lt_floor_add_one q
    have mirrored : ⌊-q⌋ = -⌊q⌋ - 1 := by
      rw [Int.floor_eq_iff]
      push_cast
      exact ⟨by linarith, by linarith⟩
    unfold roundHalfEven
    rw [mirrored]
    push_cast
    split_ifs <;> first | omega | (exfalso; linarith)

theorem nearest_neg (x : Rat) : nearest F (-x) = -nearest F x := by
  have place : lastPlace F (-x) = lastPlace F x := by rw [lastPlace, lastPlace, abs_neg]
  rw [nearest, nearest, place, neg_div, roundHalfEven_neg, Int.cast_neg, neg_mul]

theorem nearest_nonneg {x : Rat} (nonneg : 0 ≤ x) : 0 ≤ nearest F x := by
  have place : (0 : Rat) < 2 ^ lastPlace F x := zpow_pos (by norm_num) _
  have whole : roundHalfEven ((0 : Int) : Rat) ≤ roundHalfEven (x / 2 ^ lastPlace F x) := by
    rw [Int.cast_zero]
    exact roundHalfEven_mono (div_nonneg nonneg place.le)
  rw [roundHalfEven_int] at whole
  exact mul_nonneg (by exact_mod_cast whole) place.le

theorem lastPlace_mono {x y : Rat} (positive : 0 < x) (le : x ≤ y) : lastPlace F x ≤ lastPlace F y := by
  have logs : Int.log 2 x ≤ Int.log 2 y := Int.log_mono_right positive le
  rw [lastPlace, lastPlace, abs_of_pos positive, abs_of_pos (positive.trans_le le)]
  exact max_le_max_right _ (by omega)

theorem nearest_le {x : Rat} {n : Int} (le : x ≤ n * 2 ^ lastPlace F x) : nearest F x ≤ n * 2 ^ lastPlace F x := by
  have place : (0 : Rat) < 2 ^ lastPlace F x := zpow_pos (by norm_num) _
  have rounded := roundHalfEven_mono ((div_le_iff₀ place).mpr le)
  rw [roundHalfEven_int] at rounded
  exact mul_le_mul_of_nonneg_right (by exact_mod_cast rounded) place.le

theorem le_nearest {x : Rat} {n : Int} (le : n * 2 ^ lastPlace F x ≤ x) : n * 2 ^ lastPlace F x ≤ nearest F x := by
  have place : (0 : Rat) < 2 ^ lastPlace F x := zpow_pos (by norm_num) _
  have rounded := roundHalfEven_mono ((le_div_iff₀ place).mpr le)
  rw [roundHalfEven_int] at rounded
  exact mul_le_mul_of_nonneg_right (by exact_mod_cast rounded) place.le

/-- A power of two is a whole number of smaller ones. -/
theorem whole_places {e b : Int} (le : e ≤ b) : ∃ n : Int, (n : Rat) * 2 ^ e = 2 ^ b := by
  refine ⟨2 ^ (b - e).toNat, ?_⟩
  have depth : ((b - e).toNat : Int) = b - e := Int.toNat_of_nonneg (Int.sub_nonneg.mpr le)
  rw [Int.cast_pow, Int.cast_ofNat, ← zpow_natCast, depth, ← zpow_add₀ (by norm_num)]
  congr 1
  omega

/-- Between two binades lies a power of two, which both can represent. -/
theorem nearest_mono_pos {x y : Rat} (positive : 0 < x) (le : x ≤ y) : nearest F x ≤ nearest F y := by
  have small : (0 : Rat) < 2 ^ lastPlace F x := zpow_pos (by norm_num) _
  have large : (0 : Rat) < 2 ^ lastPlace F y := zpow_pos (by norm_num) _
  rcases eq_or_lt_of_le (lastPlace_mono F positive le) with same | less
  · have scaled : x / 2 ^ lastPlace F y ≤ y / 2 ^ lastPlace F y := div_le_div_of_nonneg_right le large.le
    rw [nearest, nearest, same]
    exact mul_le_mul_of_nonneg_right (by exact_mod_cast roundHalfEven_mono scaled) large.le
  · -- the larger number is normal, and its binade begins with a number of both formats
    have bits := F.precision_pos
    have first : Int.log 2 x + 1 - F.precision ≤ lastPlace F x := by
      rw [lastPlace, abs_of_pos positive]
      exact le_max_left _ _
    have lowest : F.lowest ≤ lastPlace F x := le_max_right _ _
    have second : lastPlace F y = Int.log 2 y + 1 - F.precision := by
      have choice : lastPlace F y = max (Int.log 2 y + 1 - F.precision) F.lowest := by
        rw [lastPlace, abs_of_pos (positive.trans_le le)]
      omega
    have reached : (2 : Rat) ^ Int.log 2 y ≤ y := Int.zpow_log_le_self (by norm_num) (positive.trans_le le)
    have under : x ≤ (2 : Rat) ^ Int.log 2 y :=
      (Int.lt_zpow_succ_log_self (by norm_num) x).le.trans (zpow_le_zpow_right₀ (by norm_num) (by push_cast; omega))
    obtain ⟨n, left⟩ := whole_places (show lastPlace F x ≤ Int.log 2 y by omega)
    obtain ⟨m, right⟩ := whole_places (show lastPlace F y ≤ Int.log 2 y by omega)
    calc nearest F x ≤ n * 2 ^ lastPlace F x := nearest_le F (left ▸ under)
      _ = m * 2 ^ lastPlace F y := left.trans right.symm
      _ ≤ nearest F y := le_nearest F (right ▸ reached)

theorem nearest_mono : Monotone (nearest F) := by
  intro x y le
  rcases lt_or_ge 0 x with positive | nonpos
  · exact nearest_mono_pos F positive le
  · have mirrored : 0 ≤ -x := neg_nonneg.mpr nonpos
    rcases lt_or_ge y 0 with negative | nonneg
    · have flipped := nearest_mono_pos F (neg_pos.mpr negative) (neg_le_neg le)
      rw [nearest_neg, nearest_neg] at flipped
      exact neg_le_neg_iff.mp flipped
    · have low := nearest_nonneg F mirrored
      rw [nearest_neg] at low
      exact (neg_nonneg.mp low).trans (nearest_nonneg F nonneg)

end Order

end XInfer.FloatFormat
