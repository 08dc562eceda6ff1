import XInfer.CachedAttention

/-!
What the lanes of a work-group add up together: each sub-group reduces the values of its lanes, and the first one
reduces what the sub-groups stored. In exact arithmetic it is the sum over all lanes.
-/

namespace XInfer.WorkGroups

open AttentionKernels BlockSums Launches
open DeviceExp (reduce)

/-- The value of a literal with so many decimal places. -/
class DeviceLiteral (F : Type) extends DeviceMath F where
  literal : Nat → Nat → F

noncomputable instance : DeviceLiteral ℝ where
  literal mantissa places := (mantissa : ℝ) * ((10 ^ places : Nat) : ℝ)⁻¹

section Reduction

variable {F : Type} [DeviceExp F]

/-- Lanes of the first sub-group that stand for no sub-group bring zeros. -/
def reduceWorkGroup (numSg : Nat) (lane : Nat → F) : F :=
  let slmSums (sgId : Nat) := reduce ((List.range SG_SIZE).map fun l => lane (sgId * SG_SIZE + l))
  reduce ((List.range SG_SIZE).map fun l => if l < numSg then slmSums l else 0)

/-- A reduction asks for its lanes only. -/
theorem reduceWorkGroup_congr {numSg : Nat} {lane lane' : Nat → F} (same : ∀ tid < numSg * SG_SIZE, lane tid = lane' tid) :
    reduceWorkGroup numSg lane = reduceWorkGroup numSg lane' := by
  unfold reduceWorkGroup
  refine congrArg reduce (List.map_congr_left fun sgId _ => ?_)
  dsimp only
  split
  next there =>
    refine congrArg reduce (List.map_congr_left fun l member => ?_)
    exact same _ (flat_lt there (List.mem_range.1 member))
  next => rfl

end Reduction

theorem reduceWorkGroup_sum (numSg : Nat) (fits : numSg ≤ SG_SIZE) (lane : Nat → ℝ) :
    reduceWorkGroup numSg lane = ∑ tid ∈ Finset.range (numSg * SG_SIZE), lane tid := by
  have subGroup : ∀ sgId, reduce ((List.range SG_SIZE).map fun l => lane (sgId * SG_SIZE + l)) =
      ∑ l ∈ Finset.range SG_SIZE, lane (sgId * SG_SIZE + l) := fun sgId => sum_map_range _ SG_SIZE
  unfold reduceWorkGroup
  simp only [subGroup]
  rw [sum_blocks lane]
  refine Eq.trans (sum_map_range _ SG_SIZE) ?_
  -- the idle lanes add nothing
  obtain ⟨idle, whole⟩ := Nat.exists_eq_add_of_le fits
  rw [whole, Finset.sum_range_add, Finset.sum_congr rfl fun l member => if_pos (Finset.mem_range.1 member)]
  refine Eq.trans (congrArg _ (Finset.sum_eq_zero fun l _ => if_neg (by omega))) (add_zero _)

/-- Lanes that go through a total with the strides of the work-group. -/
theorem reduceWorkGroup_strided (numSg : Nat) (some' : 0 < numSg) (fits : numSg ≤ SG_SIZE) (total : Nat) (term : Nat → ℝ) :
    (reduceWorkGroup numSg fun tid =>
      (strided (numSg * SG_SIZE) total tid).foldl (fun sum i => sum + term i) 0) = ∑ i ∈ Finset.range total, term i := by
  have lanes : ∀ tid, (strided (numSg * SG_SIZE) total tid).foldl (fun sum i => sum + term i) 0 =
      ((strided (numSg * SG_SIZE) total tid).map term).sum := fun tid => (foldl_sum term _ 0).trans (zero_add _)
  rw [reduceWorkGroup_sum numSg fits]
  simp only [lanes]
  exact sum_strided term (Nat.mul_pos some' (by decide)) total

end XInfer.WorkGroups
