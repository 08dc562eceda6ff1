import Mathlib.Algebra.BigOperators.Group.List.Basic
import Mathlib.Algebra.Order.Ring.Abs
import Mathlib.Algebra.Order.Ring.Int
import Mathlib.Tactic.Linarith
import Mathlib.Tactic.Ring

/-!
Arrays of any rank that are laid out row by row. A dimension has the product of those behind it for a stride, and
the dimensions may be any integers. A part of an array starts somewhere in each dimension.
-/

namespace XInfer.Strides

def strides : List Int → List Int
  | [] => []
  | _ :: rest => rest.prod :: strides rest

def dot : List Int → List Int → Int
  | i :: index, stride :: rest => i * stride + dot index rest
  | _, _ => 0

/-- The element at an index. -/
def flat (dims index : List Int) : Int := dot index (strides dims)

/-- The index of an element. -/
def unravel : List Int → Int → List Int
  | [], _ => []
  | _ :: rest, element => element / rest.prod :: unravel rest (element % rest.prod)

def InRange (dims index : List Int) : Prop := List.Forall₂ (fun d i => 0 ≤ i ∧ i < d) dims index

/-- An index that is moved in each dimension. -/
def moved (starts index : List Int) : List Int := List.zipWith (· + ·) starts index

theorem unravel_length (dims : List Int) (element : Int) : (unravel dims element).length = dims.length := by
  induction dims generalizing element with
  | nil => rfl
  | cons d rest ih => exact congrArg (· + 1) (ih _)

theorem flat_cons (d i : Int) (rest index : List Int) :
    flat (d :: rest) (i :: index) = i * rest.prod + flat rest index := rfl

theorem flat_unravel {dims : List Int} (ranked : dims ≠ []) (element : Int) : flat dims (unravel dims element) = element := by
  induction dims generalizing element with
  | nil => exact absurd rfl ranked
  | cons d rest ih =>
      rw [unravel, flat_cons]
      cases rest with
      | nil => simp [flat, unravel, dot]
      | cons e more => rw [ih (List.cons_ne_nil _ _), Int.ediv_mul_add_emod]

theorem flat_bounds {dims index : List Int} (inside : InRange dims index) :
    0 ≤ flat dims index ∧ flat dims index < dims.prod := by
  induction inside with
  | nil => exact ⟨le_refl _, by decide⟩
  | @cons d i rest index bounds _ ih =>
      rw [flat_cons, List.prod_cons]
      have filled : 0 < rest.prod := ih.1.trans_lt ih.2
      have before : 0 ≤ i * rest.prod := Int.mul_nonneg bounds.1 filled.le
      have row : (i + 1) * rest.prod ≤ d * rest.prod := Int.mul_le_mul_of_nonneg_right bounds.2 filled.le
      rw [Int.add_mul, Int.one_mul] at row
      omega

/-- An array with an index has elements. -/
theorem prod_pos {dims index : List Int} (inside : InRange dims index) : 0 < dims.prod :=
  (flat_bounds inside).1.trans_lt (flat_bounds inside).2

/-- A dimension and the others. -/
theorem prod_others {dims : List Int} {k : Nat} (inside : k < dims.length) :
    ∃ others, dims.prod = dims[k] * others ∧ ∀ length, (dims.set k length).prod = length * others := by
  induction dims generalizing k with
  | nil => cases inside
  | cons d rest ih =>
      cases k with
      | zero => exact ⟨rest.prod, List.prod_cons, fun length => List.prod_cons⟩
      | succ k =>
          obtain ⟨others, whole, replaced⟩ := ih (Nat.lt_of_succ_lt_succ inside)
          refine ⟨d * others, ?_, fun length => ?_⟩
          · rw [List.prod_cons, whole, List.getElem_cons_succ]
            ring
          · rw [List.set_cons_succ, List.prod_cons, replaced]
            ring

theorem dot_moved {starts index : List Int} (same : starts.length = index.length) (rest : List Int) :
    dot (moved starts index) rest = dot starts rest + dot index rest := by
  induction starts generalizing index rest with
  | nil =>
      cases index with
      | nil => cases rest <;> rfl
      | cons i index => cases same
  | cons s starts ih =>
      cases index with
      | nil => cases same
      | cons i index =>
          cases rest with
          | nil => rfl
          | cons stride rest =>
              have behind := ih (Nat.succ.inj same) rest
              unfold moved at behind ⊢
              rw [List.zipWith_cons_cons, dot, dot, dot, behind]
              ring

theorem moved_modify (starts index : List Int) (k : Nat) (start : Int) :
    moved starts (index.modify k (· + start)) = moved (starts.modify k (· + start)) index := by
  induction starts generalizing index k with
  | nil => cases index <;> cases k <;> rfl
  | cons s starts ih =>
      cases index with
      | nil => cases k <;> rfl
      | cons i index =>
          unfold moved at ih ⊢
          cases k with
          | zero =>
              rw [List.modify_zero_cons, List.modify_zero_cons, List.zipWith_cons_cons, List.zipWith_cons_cons]
              congr 1
              ring
          | succ k =>
              rw [List.modify_succ_cons, List.modify_succ_cons, List.zipWith_cons_cons, List.zipWith_cons_cons, ih]

theorem dot_modify {starts : List Int} {k : Nat} (inside : k < starts.length) (start : Int) (rest : List Int) :
    dot (starts.modify k (· + start)) rest = dot starts rest + start * rest.getD k 0 := by
  induction starts generalizing k rest with
  | nil => cases inside
  | cons s starts ih =>
      cases rest with
      | nil =>
          cases k <;> simp [dot]
      | cons stride rest =>
          cases k with
          | zero =>
              rw [List.modify_zero_cons, dot, dot, List.getD_cons_zero]
              ring
          | succ k =>
              rw [List.modify_succ_cons, dot, dot, ih (Nat.lt_of_succ_lt_succ inside), List.getD_cons_succ]
              ring

section Sliced

/-- The dimensions of a part, those of the whole, and where the part starts. A dimension below zero is never cut. -/
inductive Sliced : List Int → List Int → List Int → Prop where
  | nil : Sliced [] [] []
  | whole (d : Int) {dims wholes starts : List Int} (behind : Sliced dims wholes starts) :
      Sliced (d :: dims) (d :: wholes) (0 :: starts)
  | part {d w s : Int} {dims wholes starts : List Int} (start : 0 ≤ s) (length : 0 ≤ d) (fits : s + d ≤ w)
      (behind : Sliced dims wholes starts) : Sliced (d :: dims) (w :: wholes) (s :: starts)

variable {dims wholes starts : List Int}

theorem Sliced.refl (dims : List Int) : Sliced dims dims (List.replicate dims.length 0) := by
  induction dims with
  | nil => exact .nil
  | cons d rest ih => exact .whole d ih

theorem Sliced.lengths (sliced : Sliced dims wholes starts) :
    dims.length = wholes.length ∧ starts.length = dims.length := by
  induction sliced with
  | nil => exact ⟨rfl, rfl⟩
  | whole d _ ih => exact ⟨congrArg (· + 1) ih.1, congrArg (· + 1) ih.2⟩
  | part _ _ _ _ ih => exact ⟨congrArg (· + 1) ih.1, congrArg (· + 1) ih.2⟩

/-- A part of a part. -/
theorem Sliced.slice (sliced : Sliced dims wholes starts) {k : Nat} {start length : Int} (low : 0 ≤ start)
    (nonneg : 0 ≤ length) (found : k < dims.length) (fits : start + length ≤ dims[k]) :
    Sliced (dims.set k length) wholes (starts.modify k (· + start)) := by
  induction sliced generalizing k with
  | nil => cases found
  | whole d behind ih =>
      cases k with
      | zero =>
          rw [List.set_cons_zero, List.modify_zero_cons]
          exact .part (by omega) nonneg (by simpa using fits) behind
      | succ k =>
          rw [List.set_cons_succ, List.modify_succ_cons]
          exact .whole d (ih (Nat.lt_of_succ_lt_succ found) fits)
  | part from' _ within behind ih =>
      cases k with
      | zero =>
          rw [List.set_cons_zero, List.modify_zero_cons]
          rw [List.getElem_cons_zero] at fits
          exact .part (by omega) nonneg (by omega) behind
      | succ k =>
          rw [List.set_cons_succ, List.modify_succ_cons]
          exact .part from' ‹_› within (ih (Nat.lt_of_succ_lt_succ found) fits)

/-- An index of the part, moved to its start, is one of the whole. -/
theorem Sliced.inside (sliced : Sliced dims wholes starts) {index : List Int} (inside : InRange dims index) :
    InRange wholes (moved starts index) := by
  induction sliced generalizing index with
  | nil =>
      cases inside
      exact .nil
  | whole d _ ih =>
      cases inside with
      | cons bounds rest => exact .cons (by dsimp only; omega) (ih rest)
  | part _ _ _ _ ih =>
      cases inside with
      | cons bounds rest => exact .cons (by dsimp only; omega) (ih rest)

theorem Sliced.prod_le (sliced : Sliced dims wholes starts) : |dims.prod| ≤ |wholes.prod| := by
  induction sliced with
  | nil => exact le_refl _
  | whole d _ ih =>
      rw [List.prod_cons, List.prod_cons, abs_mul, abs_mul]
      exact mul_le_mul_of_nonneg_left ih (abs_nonneg _)
  | @part d w s _ _ _ start length fits _ ih =>
      rw [List.prod_cons, List.prod_cons, abs_mul, abs_mul]
      have narrower : |d| ≤ |w| := by
        rw [abs_of_nonneg length, abs_of_nonneg (by omega)]
        omega
      exact mul_le_mul narrower ih (abs_nonneg _) (abs_nonneg _)

/-- Starts that move nothing. -/
theorem dot_zero_cons (zeros : ∀ rest, dot starts rest = 0) (rest : List Int) : dot (0 :: starts) rest = 0 := by
  cases rest with
  | nil => rfl
  | cons stride rest => rw [dot, zeros, zero_mul, zero_add]

theorem dot_zeros (count : Nat) (rest : List Int) : dot (List.replicate count 0) rest = 0 := by
  induction count generalizing rest with
  | zero => rfl
  | succ count ih => exact dot_zero_cons ih rest

section Contiguous

variable {wrap : Int → Int} {limit : Int}
  (apart : ∀ a b, |a| < limit → |b| < limit → wrap a = wrap b → a = b)

include apart

/-- Strides that agree leave the first dimension to be cut. -/
theorem Sliced.behind_first (behind : Sliced dims wholes starts) {d w : Int}
    (same : (strides (d :: dims)).map wrap = (strides (w :: wholes)).map wrap) (filled : (w :: wholes).prod ≠ 0)
    (bounded : |(w :: wholes).prod| < limit) :
    (strides dims).map wrap = (strides wholes).map wrap ∧ dims.prod = wholes.prod ∧ wholes.prod ≠ 0 ∧
      |wholes.prod| < limit := by
  rw [List.prod_cons] at filled bounded
  obtain ⟨first, rest⟩ := mul_ne_zero_iff.1 filled
  rw [abs_mul] at bounded
  have small : |wholes.prod| < limit :=
    (le_mul_of_one_le_left (abs_nonneg _) (Int.one_le_abs first)).trans_lt bounded
  obtain ⟨products, tails⟩ := List.cons.inj same
  exact ⟨tails, apart _ _ (behind.prod_le.trans_lt small) small products, rest, small⟩

/-- A part with the strides of the whole and as many elements is the whole. -/
theorem Sliced.whole_of_strides (sliced : Sliced dims wholes starts)
    (same : (strides dims).map wrap = (strides wholes).map wrap) (total : dims.prod = wholes.prod)
    (filled : wholes.prod ≠ 0) (bounded : |wholes.prod| < limit) : dims = wholes ∧ ∀ rest, dot starts rest = 0 := by
  induction sliced with
  | nil => exact ⟨rfl, fun rest => rfl⟩
  | whole d behind ih =>
      obtain ⟨tails, products, some', small⟩ := behind.behind_first apart same filled bounded
      obtain ⟨rfl, zeros⟩ := ih tails products some' small
      exact ⟨rfl, dot_zero_cons zeros⟩
  | part start length fits behind ih =>
      obtain ⟨tails, products, some', small⟩ := behind.behind_first apart same filled bounded
      obtain ⟨rfl, zeros⟩ := ih tails products some' small
      rw [List.prod_cons, List.prod_cons] at total
      obtain rfl := mul_right_cancel₀ some' total
      obtain rfl : _ = (0 : Int) := le_antisymm (by omega) start
      exact ⟨rfl, dot_zero_cons zeros⟩

/-- The same behind the first dimension, which may be cut. -/
theorem Sliced.whole_behind (behind : Sliced dims wholes starts) {d w : Int}
    (same : (d :: dims).length ≤ 1 ∨ (strides (d :: dims)).map wrap = (strides (w :: wholes)).map wrap)
    (filled : (w :: wholes).prod ≠ 0) (bounded : |(w :: wholes).prod| < limit) :
    dims = wholes ∧ ∀ rest, dot starts rest = 0 := by
  rcases same with single | same
  · obtain rfl : dims = [] := List.eq_nil_of_length_eq_zero (by simpa using single)
    cases behind
    exact ⟨rfl, fun rest => rfl⟩
  · obtain ⟨tails, products, some', small⟩ := behind.behind_first apart same filled bounded
    exact behind.whole_of_strides apart tails products some' small

/-- A part with the strides of its own dimensions is a run of the whole's elements. -/
theorem Sliced.contiguous (sliced : Sliced dims wholes starts) (ranked : dims ≠ [])
    (same : dims.length ≤ 1 ∨ (strides dims).map wrap = (strides wholes).map wrap) (filled : 0 < dims.prod)
    (whole : 0 < wholes.prod) (bounded : wholes.prod < limit) :
    strides wholes = strides dims ∧ 0 ≤ dot starts (strides wholes) ∧
      dot starts (strides wholes) + dims.prod ≤ wholes.prod := by
  rw [← abs_of_pos whole] at bounded
  cases sliced with
  | nil => exact absurd rfl ranked
  | whole d behind =>
      obtain ⟨rfl, zeros⟩ := behind.whole_behind apart same whole.ne' bounded
      rw [strides, dot, zeros, zero_mul, zero_add]
      exact ⟨rfl, le_refl _, (zero_add _).le⟩
  | @part d w s dims wholes starts start length fits behind =>
      obtain ⟨rfl, zeros⟩ := behind.whole_behind apart same whole.ne' bounded
      rw [List.prod_cons] at filled
      have rows : 0 < dims.prod := pos_of_mul_pos_right filled length
      rw [strides, dot, zeros, add_zero, List.prod_cons, List.prod_cons, ← add_mul]
      exact ⟨rfl, mul_nonneg start rows.le, mul_le_mul_of_nonneg_right fits rows.le⟩

end Contiguous

end Sliced

end XInfer.Strides
