import Mathlib.Algebra.BigOperators.Intervals

/-!
Sums over a range as a loop adds them up: one term after the other, in blocks of one width, and in parts of
which the last ones may be cut short or empty.
-/

namespace XInfer.BlockSums

open Finset

variable {M : Type} [AddCommMonoid M]

theorem foldl_range' (f : Nat → M) (first count : Nat) (start : M) :
    (List.range' first count).foldl (fun acc i => acc + f i) start = start + ∑ i ∈ range count, f (first + i) := by
  induction count with
  | zero => simp
  | succ count ih => rw [List.range'_concat, List.foldl_append, ih, sum_range_succ, ← add_assoc, one_mul]; rfl

theorem foldl_range (f : Nat → M) (count : Nat) (start : M) :
    (List.range count).foldl (fun acc i => acc + f i) start = start + ∑ i ∈ range count, f i := by
  rw [List.range_eq_range', foldl_range']
  simp only [zero_add]

theorem sum_map_range (f : Nat → M) (count : Nat) : ((List.range count).map f).sum = ∑ i ∈ range count, f i := rfl

theorem sum_blocks (f : Nat → M) (blocks width : Nat) :
    ∑ i ∈ range (blocks * width), f i = ∑ b ∈ range blocks, ∑ j ∈ range width, f (b * width + j) := by
  induction blocks with
  | zero => simp
  | succ blocks ih => rw [Nat.add_mul, Nat.one_mul, sum_range_add, ih, sum_range_succ]

/-- Parts of one width, up to a total: the part from `s * width` on ends at the next or at the total. -/
theorem sum_parts (f : Nat → M) (total width parts : Nat) :
    (∑ s ∈ range parts, if s * width < total then
        ∑ i ∈ range (min total (s * width + width) - s * width), f (s * width + i) else 0) =
      ∑ i ∈ range (min total (parts * width)), f i := by
  induction parts with
  | zero => simp
  | succ parts ih =>
      rw [sum_range_succ, ih, Nat.add_mul, Nat.one_mul]
      by_cases before : parts * width < total
      · -- the part starts where the others end
        rw [if_pos before, Nat.min_eq_right before.le, ← sum_range_add]
        congr 2
        omega
      · rw [if_neg before, add_zero]
        congr 2
        omega

theorem foldl_sum (f : Nat → M) (items : List Nat) (start : M) :
    items.foldl (fun acc i => acc + f i) start = start + (items.map f).sum := by
  induction items generalizing start with
  | nil => exact (add_zero _).symm
  | cons i rest ih => rw [List.foldl_cons, ih, List.map_cons, List.sum_cons, add_assoc]

/-- The indices of one of `width` lanes that go through a total together. -/
def strided (width total lane : Nat) : List Nat := List.range' lane ((total - lane + (width - 1)) / width) width

theorem mem_strided {width total lane i : Nat} (filled : 0 < width) :
    i ∈ strided width total lane ↔ i < total ∧ ∃ turn, i = lane + width * turn := by
  have turns : ∀ turn, turn < (total - lane + (width - 1)) / width ↔ lane + width * turn < total := by
    intro turn
    rw [Nat.lt_div_iff_mul_lt filled, Nat.add_sub_cancel, Nat.mul_comm]
    omega
  unfold strided
  rw [List.mem_range']
  constructor
  · rintro ⟨turn, early, rfl⟩
    exact ⟨(turns turn).1 early, turn, rfl⟩
  · rintro ⟨early, turn, rfl⟩
    exact ⟨turn, (turns turn).2 early, rfl⟩

/-- Each index has one lane. -/
theorem mem_strided_lane {width total lane i : Nat} (inside : lane < width) :
    i ∈ strided width total lane ↔ i < total ∧ i % width = lane := by
  rw [mem_strided (Nat.zero_lt_of_lt inside)]
  apply and_congr_right
  intro _
  constructor
  · rintro ⟨turn, rfl⟩
    rw [Nat.add_mul_mod_self_left, Nat.mod_eq_of_lt inside]
  · rintro rfl
    exact ⟨i / width, (Nat.mod_add_div i width).symm⟩

theorem sum_strided (f : Nat → M) {width : Nat} (filled : 0 < width) (total : Nat) :
    ∑ lane ∈ range width, ((strided width total lane).map f).sum = ∑ i ∈ range total, f i := by
  rw [← sum_fiberwise_of_maps_to (s := range total) (t := range width) (fun i _ => mem_range.2 (Nat.mod_lt i filled)) f]
  apply sum_congr rfl
  intro lane member
  have apart : (strided width total lane).Nodup := List.nodup_range' width filled
  rw [← List.sum_toFinset f apart]
  congr 1
  ext i
  rw [List.mem_toFinset, mem_strided_lane (mem_range.1 member), mem_filter, mem_range]

end XInfer.BlockSums
