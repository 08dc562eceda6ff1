import Mathlib.Algebra.BigOperators.Intervals
import Mathlib.Tactic.LinearCombination
import Mathlib.Tactic.Ring

/-!
Rotations in planes, each by a cosine and a sine of its own. Plane `p` is spanned by the coordinates `p` and
`half + p`; what comes behind the planes stays. Inner products of rotated vectors have the differences of the angles.
-/

namespace XInfer.Rotations

open Finset

section Rotate

variable {R : Type} [Add R] [Sub R] [Mul R]

/-- Each plane by its cosine `c` and its sine `s`. -/
def rotate (half : Nat) (c s : Nat → R) (v : Nat → R) (d : Nat) : R :=
  if d < half then v d * c d - v (d + half) * s d
  else if d < half + half then v d * c (d - half) + v (d - half) * s (d - half)
  else v d

variable {half : Nat} (c s v : Nat → R) {p : Nat}

theorem rotate_front (plane : p < half) : rotate half c s v p = v p * c p - v (p + half) * s p := if_pos plane

theorem rotate_back (plane : p < half) : rotate half c s v (p + half) = v (p + half) * c p + v p * s p := by
  unfold rotate
  rw [if_neg (by omega), if_pos (by omega), Nat.add_sub_cancel]

theorem rotate_behind {d : Nat} (behind : half + half ≤ d) : rotate half c s v d = v d := by
  unfold rotate
  rw [if_neg (by omega), if_neg (by omega)]

end Rotate

section Product

variable {R : Type} [CommRing R]

def dot (n : Nat) (v w : Nat → R) : R := ∑ d ∈ range n, v d * w d

/-- Plane by plane, and the rest. -/
theorem dot_planes (half rest : Nat) (v w : Nat → R) : dot (half + half + rest) v w =
    ∑ p ∈ range half, (v p * w p + v (p + half) * w (p + half)) +
      ∑ d ∈ range rest, v (half + half + d) * w (half + half + d) := by
  unfold dot
  rw [sum_range_add, sum_range_add, sum_add_distrib]
  simp only [Nat.add_comm half]

variable {half n : Nat} (planes : half + half ≤ n) (c s c' s' v w : Nat → R)

include planes

theorem dot_rotate : dot n (rotate half c s v) (rotate half c' s' w) =
    dot n (rotate half (fun p => c p * c' p + s p * s' p) (fun p => s p * c' p - c p * s' p) v) w := by
  obtain ⟨rest, rfl⟩ := Nat.exists_eq_add_of_le planes
  rw [dot_planes, dot_planes]
  congr 1
  · apply sum_congr rfl
    intro p member
    have plane := mem_range.1 member
    simp only [rotate_front _ _ _ plane, rotate_back _ _ _ plane]
    ring
  · apply sum_congr rfl
    intro d _
    simp only [rotate_behind _ _ _ (Nat.le_add_right _ _)]

/-- Rotations keep inner products. -/
theorem dot_rotate_same (circle : ∀ p, c p * c p + s p * s p = 1) :
    dot n (rotate half c s v) (rotate half c s w) = dot n v w := by
  obtain ⟨rest, rfl⟩ := Nat.exists_eq_add_of_le planes
  rw [dot_planes, dot_planes]
  congr 1
  · apply sum_congr rfl
    intro p member
    have plane := mem_range.1 member
    rw [rotate_front _ _ _ plane, rotate_front _ _ _ plane, rotate_back _ _ _ plane, rotate_back _ _ _ plane]
    linear_combination (v p * w p + v (p + half) * w (p + half)) * circle p
  · apply sum_congr rfl
    intro d _
    rw [rotate_behind _ _ _ (Nat.le_add_right _ _), rotate_behind _ _ _ (Nat.le_add_right _ _)]

end Product

end XInfer.Rotations
