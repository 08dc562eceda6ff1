import XInfer.Int4Agreement
import XInfer.LayerKernels

/-!
What the kernels of a layer do to the rows of their buffers. A row of an output depends on the same rows of the
inputs and not on how many rows the call has, although the launches differ with their number.
-/

namespace XInfer.LayerRows

open AttentionKernels DecodePass Int4Agreement LayerKernels Launches RmsNorm Rotations

section Rows

abbrev Row (n : Nat) : Type := Fin n → ℝ

variable {n : Nat}

/-- A row as a kernel reads it. -/
noncomputable def pad (x : Row n) : Nat → ℝ := fun i => if inside : i < n then x ⟨i, inside⟩ else 0

/-- Row `t` of a buffer. -/
def rowOf (n : Nat) (buffer : Nat → ℝ) (t : Nat) : Row n := fun i => buffer (t * n + i)

noncomputable def rowsOf (n count : Nat) (buffer : List ℝ) : List (Row n) := (List.range count).map (rowOf n (elements buffer))

theorem pad_rowOf (buffer : Nat → ℝ) (t : Nat) {i : Nat} (inside : i < n) : pad (rowOf n buffer t) i = buffer (t * n + i) :=
  dif_pos inside

theorem rowOf_congr {buffer buffer' : Nat → ℝ} {t : Nat} (same : ∀ i < n, buffer (t * n + i) = buffer' (t * n + i)) :
    rowOf n buffer t = rowOf n buffer' t := by
  funext i
  exact same i i.isLt

theorem elements_overwrite {size i : Nat} (inside : i < size) (kernel : (Nat → ℝ) → Nat → ℝ) (buffer : List ℝ) :
    elements (overwrite size kernel buffer) i = kernel (elements buffer) i := by
  unfold elements overwrite
  rw [List.getD_eq_getElem?_getD, List.getElem?_map, List.getElem?_range inside]
  rfl

/-- A row of what a kernel fills. -/
theorem rowOf_overwrite {count t : Nat} (row : t < count) (kernel : (Nat → ℝ) → Nat → ℝ) (buffer : List ℝ) :
    rowOf n (elements (overwrite (count * n) kernel buffer)) t = rowOf n (kernel (elements buffer)) t := by
  apply rowOf_congr
  intro i inside
  exact elements_overwrite (flat_lt row inside) kernel buffer

theorem rowOf_filled {count t : Nat} (row : t < count) (kernel : (Nat → ℝ) → Nat → ℝ) :
    rowOf n (elements (filled (count * n) kernel)) t = rowOf n (kernel (elements [])) t := rowOf_overwrite row kernel []

theorem rowOf_drop (buffer : List ℝ) (t : Nat) : rowOf n (elements (buffer.drop (t * n))) 0 = rowOf n (elements buffer) t := by
  funext i
  simp [rowOf, elements]

end Rows

section Projections

variable {K : Nat}

/-- Elements of other rows are not read. -/
theorem naiveRow_pad (X : Nat → ℝ) (w : Int4Kernels.Weights ℝ) (m n : Nat) :
    Int4Kernels.naiveRow X w K 128 m n = Int4Kernels.naiveRow (pad (rowOf K X m)) w K 128 0 n := by
  have read : ∀ g < K / 128, ∀ b < 128 / 2, Int4Kernels.byteDot X w K 128 m n g b =
      Int4Kernels.byteDot (pad (rowOf K X m)) w K 128 0 n g b := by
    intro g group b byte
    have inside : g * 128 + 2 * b + 1 < K := by omega
    unfold Int4Kernels.byteDot
    simp only [Nat.zero_mul, Nat.zero_add]
    rw [pad_rowOf X m inside, pad_rowOf X m (Nat.lt_of_succ_lt inside), Nat.add_assoc]
  unfold Int4Kernels.naiveRow
  apply List.foldl_ext
  intro sum g group
  apply List.foldl_ext
  intro sum b byte
  rw [read g (List.mem_range.1 group) b (List.mem_range.1 byte)]

/-- A row of a projection. -/
noncomputable def projectRow (W : DeviceWeight) (N : Nat) (x : Row K) : Row N := fun n => projected (pad x) W.packed K 0 n

noncomputable def gateUpRow (gate up : DeviceWeight) (N : Nat) (x : Row K) : Row N := fun n =>
  Int4Kernels.swiglu Real.exp (Int4Kernels.naiveRow (pad x) gate.packed K 128 0 n)
    (Int4Kernels.naiveRow (pad x) up.packed K 128 0 n)

variable (kc : KernelConfig)

/-- The stores of all rows, at an element of one of them. -/
theorem stored_row {stores : List (Nat × ℝ)} {M N t : Nat} {value : Nat → Nat → ℝ} (all : stores = outputs M N value)
    (row : t < M) : rowOf N (elements (filled (M * N) (storeAll stores))) t = fun n : Fin N => value t n := by
  funext n
  rw [rowOf_filled row, all]
  exact outputs_here row n.isLt value _

theorem linearInt4_row (filled : 0 < K) (X : List ℝ) (W : DeviceWeight) {M N t : Nat} (row : t < M) :
    rowOf N (elements ((kernels kc).linearInt4 X W M N K)) t = projectRow W N (rowOf K (elements X) t) := by
  refine (stored_row (linear_outputs (elements X) W.packed K M N (Nat.ne_of_gt filled)) row).trans ?_
  funext n
  unfold projectRow projected
  rw [naiveRow_pad (elements X) W.packed]

theorem mlpGateUpSwigluInt4_row (filled : 0 < K) (X : List ℝ) (gate up : DeviceWeight) {M N t : Nat} (row : t < M) :
    rowOf N (elements ((kernels kc).mlpGateUpSwigluInt4 X gate up M N K)) t =
      gateUpRow gate up N (rowOf K (elements X) t) := by
  refine (stored_row (mlp_outputs (elements X) K M N Real.exp gate.packed up.packed (Nat.ne_of_gt filled)) row).trans ?_
  funext n
  unfold gateUpRow
  rw [naiveRow_pad (elements X) gate.packed, naiveRow_pad (elements X) up.packed]

end Projections

section Norms

variable (kc : KernelConfig)

noncomputable def normRow {n : Nat} (weight : DeviceWeight) (x : Row n) : Row n := fun i =>
  normalised weight.values n normEps (pad x) i

theorem rmsnorm_row (input : List ℝ) (weight : DeviceWeight) {rows t n : Nat} (row : t < rows) :
    rowOf n (elements ((kernels kc).rmsnorm input weight rows n)) t = normRow weight (rowOf n (elements input) t) := by
  funext i
  have here := elements_overwrite (flat_lt row i.isLt) (fun out =>
    rmsnormImpl id weight.values n normEps out (elements input) rows) []
  rw [rmsnorm_normalised weight.values normEps _ (elements input) row i.isLt] at here
  refine Eq.trans here ?_
  exact normalised_congr (fun j inside => (pad_rowOf _ t inside).symm) i.isLt

end Norms

section Heads

variable (kc : KernelConfig) {heads headDim : Nat}

/-- A row head by head; in the row that is read, a head has `stride` elements. -/
noncomputable def onHeads {n m : Nat} (headDim stride : Nat) (f : (Nat → ℝ) → Nat → ℝ) (x : Row n) : Row m := fun c =>
  f (fun d => pad x (c / headDim * stride + d)) (c % headDim)

theorem head_of {c : Nat} (inside : c < heads * headDim) : c / headDim < heads ∧ c % headDim < headDim := by
  have filled : 0 < headDim := Nat.pos_of_mul_pos_left (Nat.zero_lt_of_lt inside)
  exact ⟨Nat.div_lt_of_lt_mul (Nat.mul_comm heads headDim ▸ inside), Nat.mod_lt c filled⟩

/-- An element of a row is one of a head. -/
theorem row_head (t heads headDim c : Nat) :
    t * (heads * headDim) + c = (t * heads + c / headDim) * headDim + c % headDim := by
  rw [Nat.add_mul, Nat.mul_assoc, Nat.add_assoc, Nat.div_add_mod']

theorem pad_head (buffer : Nat → ℝ) (t : Nat) {h d : Nat} (head : h < heads) (inside : d < headDim) :
    pad (rowOf (heads * headDim) buffer t) (h * headDim + d) = buffer ((t * heads + h) * headDim + d) := by
  rw [pad_rowOf buffer t (flat_lt head inside), row_head, flat_div inside, flat_mod inside]

/-- A kernel that has an item for each head of each row. -/
theorem rowOf_heads {n stride t : Nat} {out : Nat → ℝ} {f : (Nat → ℝ) → Nat → ℝ} {x : Row n}
    (here : ∀ h < heads, ∀ d < headDim, out ((t * heads + h) * headDim + d) = f (fun e => pad x (h * stride + e)) d) :
    rowOf (heads * headDim) out t = onHeads headDim stride f x := by
  funext c
  obtain ⟨head, inside⟩ := head_of c.isLt
  unfold rowOf
  rw [row_head, here _ head _ inside]
  rfl

noncomputable def headNorms {n : Nat} (weight : DeviceWeight) (headDim : Nat) : Row n → Row n :=
  onHeads headDim headDim fun v => normalised weight.values headDim normEps v

theorem headNorms_row (input : List ℝ) (weight : DeviceWeight) {rows t : Nat} (row : t < rows) :
    rowOf (heads * headDim) (elements ((kernels kc).rmsnorm input weight (rows * heads) headDim)) t =
      headNorms weight headDim (rowOf (heads * headDim) (elements input) t) := by
  refine rowOf_heads fun h head d inside => ?_
  refine (congrFun (rmsnorm_row kc input weight (flat_lt row head)) ⟨d, inside⟩).trans ?_
  refine normalised_congr (fun e within => ?_) inside
  rw [pad_rowOf _ _ within, pad_head _ _ head within]

noncomputable def ropeRow {n : Nat} (headDim : Nat) (pos : Int) : Row n → Row n :=
  onHeads headDim headDim fun v => Rope.rotated kc.ropeTheta kc.ropeDim pos v

theorem rotate_congr {half n : Nat} (planes : half + half ≤ n) (c s : Nat → ℝ) {v v' : Nat → ℝ}
    (same : ∀ d < n, v d = v' d) {d : Nat} (inside : d < n) : rotate half c s v d = rotate half c s v' d := by
  unfold rotate
  split
  next front => rw [same d inside, same (d + half) (by omega)]
  next =>
    split
    next => rw [same d inside, same (d - half) (by omega)]
    next => exact same d inside

variable {kc} in
/-- One side of a call. -/
theorem run_row (positive : 0 < kc.ropeTheta) (low : 0 < kc.ropeDim) (high : kc.ropeDim ≤ headDim) (call : Rope.Call)
    (side : Rope.Side) {t : Nat} (has : ∀ h < call.numHeads side, call.Has side t h) :
    rowOf (call.numHeads side * headDim) (fun i => call.run kc.ropeTheta headDim kc.ropeDim (side, i)) t =
      ropeRow kc headDim (call.positions t) (rowOf (call.numHeads side * headDim) (fun i => call.memory (side, i)) t) := by
  refine rowOf_heads fun h head d inside => ?_
  refine (Rope.run_rotated positive low high call (has h head) inside).trans ?_
  refine rotate_congr (by omega) _ _ (fun e within => ?_) inside
  rw [pad_head (fun i => call.memory (side, i)) _ head within]
  rfl

theorem rope_row (positive : 0 < kc.ropeTheta) (low : 0 < kc.ropeDim) (high : kc.ropeDim ≤ headDim) (q k : List ℝ)
    {numTokens t : Nat} (row : t < numTokens) (numQHeads numKVHeads : Nat) (positions : List Int) :
    let rotated := (kernels kc).rope q k numTokens numQHeads numKVHeads headDim positions
    rowOf (numQHeads * headDim) (elements rotated.1) t =
        ropeRow kc headDim (positions.getD t 0) (rowOf (numQHeads * headDim) (elements q) t) ∧
      rowOf (numKVHeads * headDim) (elements rotated.2) t =
        ropeRow kc headDim (positions.getD t 0) (rowOf (numKVHeads * headDim) (elements k) t) := by
  let call : Rope.Call := ⟨ropeMemory q k, fun t => positions.getD t 0, true, true, numTokens, numQHeads, numKVHeads⟩
  have has : ∀ side, ∀ h < call.numHeads side, call.Has side t h := by
    intro side h head
    cases side <;> exact ⟨rfl, row, head⟩
  constructor
  · exact (rowOf_filled row fun _ i => call.run kc.ropeTheta headDim kc.ropeDim (.q, i)).trans
      (run_row positive low high call .q (has .q))
  · exact (rowOf_filled row fun _ i => call.run kc.ropeTheta headDim kc.ropeDim (.k, i)).trans
      (run_row positive low high call .k (has .k))

/-- The halves of the heads of `act_q_gate`. -/
noncomputable def queryRow {n m : Nat} (headDim : Nat) : Row n → Row m := onHeads headDim (2 * headDim) fun v d => v d

noncomputable def gateRow {n m : Nat} (headDim : Nat) (qGate : Row n) (attnOut : Row m) : Row m := fun c =>
  attnOut c * onHeads (m := m) headDim (2 * headDim) (fun v d => 1 / (1 + Real.exp (-v (headDim + d)))) qGate c

theorem pad_gate (qGate : Nat → ℝ) (t : Nat) {h e : Nat} (head : h < heads) (inside : e < 2 * headDim) :
    pad (rowOf (heads * headDim * 2) qGate t) (h * (2 * headDim) + e) =
      qGate (t * (heads * headDim * 2) + (h * 2 * headDim + e)) := by
  have width : heads * (2 * headDim) = heads * headDim * 2 := by rw [Nat.mul_comm 2, Nat.mul_assoc]
  rw [pad_rowOf qGate t (width ▸ flat_lt head inside), Nat.mul_assoc h]

theorem gateOutput_row (attnOut qGate : List ℝ) {seqLen t : Nat} (row : t < seqLen) :
    rowOf (heads * headDim) (elements ((kernels kc).gateOutput attnOut qGate seqLen heads headDim)) t =
      gateRow headDim (rowOf (heads * headDim * 2) (elements qGate) t) (rowOf (heads * headDim) (elements attnOut) t) := by
  refine (rowOf_filled row fun _ => launch (seqLen * heads) (gateItem (elements attnOut) (elements qGate) heads headDim)
    (elements attnOut)).trans (funext fun c => ?_)
  obtain ⟨head, inside⟩ := head_of c.isLt
  let value (item d : Nat) : ℝ := elements attnOut (item * headDim + d) * (1 / (1 + Real.exp
    (-elements qGate (item / heads * (heads * headDim * 2) + (item % heads * 2 * headDim + (headDim + d))))))
  have stores : ∀ item < seqLen * heads, gateItem (elements attnOut) (elements qGate) heads headDim item =
      (List.range headDim).map fun d => (item * headDim + d, value item d) := by
    intro item _
    unfold gateItem
    simp only [Nat.div_add_mod']
    rfl
  have stored := vector_here value stores (flat_lt row head) inside (elements attnOut)
  dsimp only [value] at stored
  rw [flat_div head, flat_mod head] at stored
  have gate := pad_gate (elements qGate) t head (show headDim + c % headDim < 2 * headDim by omega)
  have place := row_head t heads headDim c
  unfold gateRow onHeads
  dsimp only
  rw [gate, rowOf, rowOf, place, stored]

variable (heads headDim) in
theorem extractQuery_row (qGate buffer : List ℝ) {seqLen t : Nat} (row : t < seqLen) :
    let item := fun item => (List.range headDim).map fun d => ((item / heads * heads + item % heads) * headDim + d,
      elements qGate (item / heads * (heads * headDim * 2) + item % heads * 2 * headDim + d))
    rowOf (heads * headDim) (elements (overwrite (seqLen * (heads * headDim)) (launch (seqLen * heads) item) buffer)) t =
      queryRow headDim (rowOf (heads * headDim * 2) (elements qGate) t) := by
  intro item
  refine (rowOf_overwrite row _ buffer).trans (rowOf_heads fun h head d inside => ?_)
  rw [vector_here (fun item d => elements qGate (item / heads * (heads * headDim * 2) + item % heads * 2 * headDim + d))
    (fun item' _ => by simp only [item, Nat.div_add_mod']) (flat_lt row head) inside, flat_div head, flat_mod head,
    Nat.add_assoc]
  exact (pad_gate (elements qGate) t head (by omega)).symm

end Heads

section Sums

variable (kc : KernelConfig)

def addRow {n : Nat} (x y : Row n) : Row n := fun i => x i + y i

theorem addInplace_row (x y : List ℝ) {count n t : Nat} (row : t < count) :
    rowOf n (elements ((kernels kc).addInplace x y (count * n))) t =
      addRow (rowOf n (elements x) t) (rowOf n (elements y) t) := by
  refine (rowOf_filled row fun _ => Elementwise.addInplace Elementwise.HALF_VEC id (count * n) (elements x)
    (elements y)).trans (funext fun i => ?_)
  unfold rowOf Elementwise.addInplace
  rw [Elementwise.elementwise_eq (by decide)]
  exact if_pos (flat_lt row i.isLt)

end Sums

end XInfer.LayerRows
