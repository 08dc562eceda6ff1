import XInfer.WorkGroups

/-!
`ops/rmsnorm.cpp` and the sums of `ops/elementwise.cpp`. A work-group has one row: all its lanes have read the row
behind the last barrier, and each stores only what it reads itself, so input and output may be one buffer.
-/

namespace XInfer.RmsNorm

open AttentionKernels BlockSums Launches WorkGroups
open DeviceFloat (ofInt)
open DeviceExp (sqrt)

def WG_SIZE : Nat := 256

def NUM_SG : Nat := WG_SIZE / SG_SIZE

section Kernel

variable {F : Type} [DeviceExp F] (cast : F → F) (weight : Nat → F) (hiddenSize : Nat) (eps : F)

/-- `slm_rsqrt`, from the elements of the row as `float`. -/
def rsqrtVal (x : Nat → F) : F :=
  let localSumSq (tid : Nat) := (strided WG_SIZE hiddenSize tid).foldl (fun sum i => sum + x i * x i) 0
  let meanSq := reduceWorkGroup NUM_SG localSumSq / ofInt hiddenSize
  1 / sqrt (meanSq + eps)

/-- What the lanes of the work-group of row `t` store. -/
def groupStores (t : Nat) (value : Nat → F) : List (Nat × F) :=
  (List.range WG_SIZE).flatMap fun tid => (strided WG_SIZE hiddenSize tid).map fun i => (t * hiddenSize + i, value i)

def rmsnormImpl (out input : Nat → F) (numTokens : Nat) : Nat → F :=
  if numTokens = 0 ∨ hiddenSize = 0 then out
  else
    launch numTokens (fun t =>
      let x := fun i => input (t * hiddenSize + i)
      groupStores hiddenSize t fun i => cast (x i * rsqrtVal hiddenSize eps x * weight i)) out

/-- What the output and the residual are left with. The squares are taken before the sums are stored, the products
behind that. -/
def rmsnormResidualImpl (out residual input : Nat → F) (numTokens : Nat) : (Nat → F) × (Nat → F) :=
  if numTokens = 0 ∨ hiddenSize = 0 then (out, residual)
  else
    let r := fun i => residual i + input i
    (launch numTokens (fun t =>
        let res := fun i => cast (r (t * hiddenSize + i))
        groupStores hiddenSize t fun i =>
          cast (res i * rsqrtVal hiddenSize eps (fun i => r (t * hiddenSize + i)) * weight i)) out,
      launch numTokens (fun t => groupStores hiddenSize t fun i => cast (r (t * hiddenSize + i))) residual)

end Kernel

section Rows

variable {F : Type} {hiddenSize numTokens : Nat}

/-- The lanes have the row among them. -/
theorem mem_groupStores {t : Nat} {value : Nat → F} {store : Nat × F} :
    store ∈ groupStores hiddenSize t value ↔ ∃ i < hiddenSize, store = (t * hiddenSize + i, value i) := by
  have filled : 0 < WG_SIZE := by decide
  simp only [groupStores, List.mem_flatMap, List.mem_range, List.mem_map]
  constructor
  · rintro ⟨tid, -, i, member, rfl⟩
    exact ⟨i, ((mem_strided filled).1 member).1, rfl⟩
  · rintro ⟨i, inside, rfl⟩
    have lane : i % WG_SIZE < WG_SIZE := Nat.mod_lt i filled
    exact ⟨i % WG_SIZE, lane, i, (mem_strided_lane lane).2 ⟨inside, rfl⟩, rfl⟩

theorem groups_here {value : Nat → Nat → F} {t i : Nat} (row : t < numTokens) (inside : i < hiddenSize) (memory : Nat → F) :
    launch numTokens (fun t => groupStores hiddenSize t (value t)) memory (t * hiddenSize + i) = value t i := by
  apply launch_here row (mem_groupStores.2 ⟨i, inside, rfl⟩)
  intro other _ store member same
  obtain ⟨j, within, rfl⟩ := mem_groupStores.1 member
  obtain ⟨rfl, rfl⟩ := flat_injective within inside same
  rfl

theorem groups_kept {value : Nat → Nat → F} {cell : Nat} (outside : numTokens * hiddenSize ≤ cell) (memory : Nat → F) :
    launch numTokens (fun t => groupStores hiddenSize t (value t)) memory cell = memory cell := by
  apply launch_other
  intro t row store member
  obtain ⟨i, inside, rfl⟩ := mem_groupStores.1 member
  have before := flat_lt row inside
  dsimp only
  omega

variable [DeviceExp F] (cast : F → F) (weight : Nat → F) (eps : F)

/-- A row depends on the same row of the input. -/
theorem rmsnorm_row (out input : Nat → F) {t i : Nat} (row : t < numTokens) (inside : i < hiddenSize) :
    rmsnormImpl cast weight hiddenSize eps out input numTokens (t * hiddenSize + i) =
      cast (input (t * hiddenSize + i) * rsqrtVal hiddenSize eps (fun i => input (t * hiddenSize + i)) * weight i) := by
  unfold rmsnormImpl
  rw [if_neg (by omega), groups_here row inside]

theorem rsqrtVal_congr {x x' : Nat → F} (same : ∀ i < hiddenSize, x i = x' i) :
    rsqrtVal hiddenSize eps x = rsqrtVal hiddenSize eps x' := by
  unfold rsqrtVal
  have lanes : ∀ tid, (strided WG_SIZE hiddenSize tid).foldl (fun sum i => sum + x i * x i) 0 =
      (strided WG_SIZE hiddenSize tid).foldl (fun sum i => sum + x' i * x' i) 0 := by
    intro tid
    apply List.foldl_ext
    intro sum i member
    rw [same i ((mem_strided (by decide)).1 member).1]
  simp only [lanes]

end Rows

section Exact

/-- The row over the root of its mean square. -/
noncomputable def normalised (weight : Nat → ℝ) (hiddenSize : Nat) (eps : ℝ) (x : Nat → ℝ) (i : Nat) : ℝ :=
  x i * (Real.sqrt ((∑ j ∈ Finset.range hiddenSize, x j * x j) * (hiddenSize : ℝ)⁻¹ + eps))⁻¹ * weight i

theorem rsqrtVal_eq (hiddenSize : Nat) (eps : ℝ) (x : Nat → ℝ) : rsqrtVal hiddenSize eps x =
    (Real.sqrt ((∑ j ∈ Finset.range hiddenSize, x j * x j) * (hiddenSize : ℝ)⁻¹ + eps))⁻¹ := by
  have squares := reduceWorkGroup_strided NUM_SG (by decide) (by decide) hiddenSize fun i => x i * x i
  unfold rsqrtVal
  dsimp only
  refine Eq.trans (congrArg (fun sum => 1 / Real.sqrt (sum / ((hiddenSize : Int) : ℝ) + eps)) squares) ?_
  rw [Int.cast_natCast, one_div, div_eq_mul_inv]

theorem normalised_congr {weight x x' : Nat → ℝ} {hiddenSize : Nat} {eps : ℝ} (same : ∀ i < hiddenSize, x i = x' i)
    {i : Nat} (inside : i < hiddenSize) : normalised weight hiddenSize eps x i = normalised weight hiddenSize eps x' i := by
  unfold normalised
  rw [same i inside, Finset.sum_congr rfl fun j member => by rw [same j (Finset.mem_range.1 member)]]

/-- Each row is normalised on its own, also in place. -/
theorem rmsnorm_normalised (weight : Nat → ℝ) {hiddenSize : Nat} (eps : ℝ) (out input : Nat → ℝ) {numTokens t i : Nat}
    (row : t < numTokens) (inside : i < hiddenSize) :
    rmsnormImpl id weight hiddenSize eps out input numTokens (t * hiddenSize + i) =
      normalised weight hiddenSize eps (fun i => input (t * hiddenSize + i)) i := by
  rw [rmsnorm_row id weight eps out input row inside, rsqrtVal_eq]
  rfl

end Exact

end XInfer.RmsNorm
