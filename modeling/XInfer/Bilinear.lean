import Mathlib.Algebra.Order.Floor.Ring
import Mathlib.Data.Int.ConditionallyCompleteOrder
import Mathlib.Tactic.Linarith
import Mathlib.Tactic.Ring

/-!
Linear interpolation of samples at the integers, in one and in two dimensions, over any ordered field with
floors, and what clamping the coordinate to the samples of an image means for it.
-/

namespace XInfer.Bilinear

section Indices

/-- The nearest of the indices `0, …, size - 1`. -/
def clampIndex (size i : Int) : Int := min (max i 0) (size - 1)

variable {size i j : Int}

theorem clampIndex_inside (nonneg : 0 ≤ i) (small : i < size) : clampIndex size i = i := by
  rw [clampIndex, max_eq_left nonneg]
  exact min_eq_left (Int.le_sub_one_of_lt small)

theorem clampIndex_below (positive : 0 < size) (below : i ≤ 0) : clampIndex size i = 0 := by
  rw [clampIndex, max_eq_right below]
  exact min_eq_left (Int.le_sub_one_of_lt positive)

theorem clampIndex_above (above : size - 1 ≤ i) : clampIndex size i = size - 1 := by
  rw [clampIndex]
  exact min_eq_right (above.trans (le_max_left i 0))

theorem clampIndex_nonneg (positive : 0 < size) (i : Int) : 0 ≤ clampIndex size i :=
  le_min (le_max_right i 0) (Int.le_sub_one_of_lt positive)

theorem clampIndex_lt (size i : Int) : clampIndex size i < size :=
  Int.lt_of_le_sub_one (min_le_right _ _)

theorem clampIndex_mono (size : Int) : Monotone (clampIndex size) :=
  fun _ _ le => min_le_min_right _ (max_le_max_right 0 le)

end Indices

variable {K : Type} [Field K] [LinearOrder K] [IsStrictOrderedRing K] [FloorRing K]

/-- A weighted mean of two values. -/
def mix (a b t : K) : K := a * (1 - t) + b * t

omit [LinearOrder K] [IsStrictOrderedRing K] [FloorRing K] in
@[simp] theorem mix_zero (a b : K) : mix a b 0 = a := by
  rw [mix, sub_zero, mul_one, mul_zero, add_zero]

omit [LinearOrder K] [IsStrictOrderedRing K] [FloorRing K] in
@[simp] theorem mix_self (a t : K) : mix a a t = a := by
  rw [mix]
  ring

omit [FloorRing K] in
/-- A mean with a weight between 0 and 1 stays between the bounds of its values. -/
theorem mix_mem {a b t low high : K} (weight : 0 ≤ t ∧ t ≤ 1) (left : low ≤ a ∧ a ≤ high)
    (right : low ≤ b ∧ b ≤ high) : low ≤ mix a b t ∧ mix a b t ≤ high := by
  have other : 0 ≤ 1 - t := sub_nonneg.mpr weight.2
  constructor
  · calc low = low * (1 - t) + low * t := by ring
      _ ≤ mix a b t := add_le_add (mul_le_mul_of_nonneg_right left.1 other)
          (mul_le_mul_of_nonneg_right right.1 weight.1)
  · calc mix a b t ≤ high * (1 - t) + high * t := add_le_add (mul_le_mul_of_nonneg_right left.2 other)
          (mul_le_mul_of_nonneg_right right.2 weight.1)
      _ = high := by ring

/-- Interpolation between the samples on both sides of `u`. -/
def linear (samples : Int → K) (u : K) : K := mix (samples ⌊u⌋) (samples (⌊u⌋ + 1)) (Int.fract u)

def bilinear (samples : Int → Int → K) (u v : K) : K := linear (fun y => linear (samples y) u) v

/-- The nearest coordinate between the first and the last sample. -/
def clampCoordinate (size : Int) (u : K) : K := max 0 (min u (size - 1))

section Clamping

variable {size : Int} {u : K}

omit [LinearOrder K] [IsStrictOrderedRing K] [FloorRing K] in
theorem cast_pred (size : Int) : ((size - 1 : Int) : K) = size - 1 := by
  push_cast
  rfl

theorem linear_int (samples : Int → K) (n : Int) : linear samples (n : K) = samples n := by
  rw [linear, Int.floor_intCast, Int.fract_intCast, mix_zero]

/-- Clamping the coordinate is the same as continuing the first and the last sample outwards. -/
theorem linear_clamped (samples : Int → K) (positive : 0 < size) (u : K) :
    linear samples (clampCoordinate size u) = linear (fun i => samples (clampIndex size i)) u := by
  have last : (0 : K) ≤ size - 1 := by
    rw [← cast_pred]
    exact_mod_cast Int.le_sub_one_of_lt positive
  rcases lt_or_ge u 0 with below | nonneg
  · -- left of the image both neighbours are the first sample
    have coordinate : clampCoordinate size u = ((0 : Int) : K) := by
      rw [clampCoordinate, min_eq_left (below.le.trans last), max_eq_left below.le, Int.cast_zero]
    have floor : ⌊u⌋ < 0 := Int.floor_lt.mpr (by rwa [Int.cast_zero])
    rw [coordinate, linear_int, linear, clampIndex_below positive floor.le, clampIndex_below positive floor, mix_self]
  · rcases le_or_gt ((size : K) - 1) u with above | inside
    · have coordinate : clampCoordinate size u = ((size - 1 : Int) : K) := by
        rw [clampCoordinate, min_eq_right above, max_eq_right last, cast_pred]
      have floor : size - 1 ≤ ⌊u⌋ := Int.le_floor.mpr (by rwa [cast_pred])
      rw [coordinate, linear_int, linear, clampIndex_above floor,
        clampIndex_above (floor.trans (Int.le_add_one le_rfl)), mix_self]
    · have coordinate : clampCoordinate size u = u := by
        rw [clampCoordinate, min_eq_left inside.le, max_eq_right nonneg]
      have low : 0 ≤ ⌊u⌋ := Int.floor_nonneg.mpr nonneg
      have high : ⌊u⌋ < size - 1 := Int.floor_lt.mpr (by rwa [cast_pred])
      rw [coordinate, linear, linear, clampIndex_inside low (by omega), clampIndex_inside (by omega) (by omega)]

theorem bilinear_clamped (samples : Int → Int → K) {width height : Int} (wide : 0 < width) (high : 0 < height)
    (u v : K) : bilinear samples (clampCoordinate width u) (clampCoordinate height v) =
      bilinear (fun y x => samples (clampIndex height y) (clampIndex width x)) u v := by
  rw [bilinear, linear_clamped _ high, bilinear]
  simp only [linear_clamped _ wide]

omit [IsStrictOrderedRing K] in
theorem linear_const (a u : K) : linear (fun _ => a) u = a := mix_self a _

/-- An interpolation stays between the bounds of the samples. -/
theorem linear_mem {samples : Int → K} {low high : K} (bounds : ∀ i, low ≤ samples i ∧ samples i ≤ high) (u : K) :
    low ≤ linear samples u ∧ linear samples u ≤ high :=
  mix_mem ⟨Int.fract_nonneg u, (Int.fract_lt_one u).le⟩ (bounds _) (bounds _)

theorem bilinear_mem {samples : Int → Int → K} {low high : K}
    (bounds : ∀ y x, low ≤ samples y x ∧ samples y x ≤ high) (u v : K) :
    low ≤ bilinear samples u v ∧ bilinear samples u v ≤ high :=
  linear_mem (fun y => linear_mem (bounds y) u) v

end Clamping

end XInfer.Bilinear
