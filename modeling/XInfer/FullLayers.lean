import XInfer.CacheSlots
import XInfer.Network

/-!
A full-attention layer as its kernels run it, against the kernel of the layer as a whole. The batch is written to the
cache before its queries are answered; row by row the submissions compute what the layer makes of a row.
-/

namespace XInfer.FullLayers

open AttentionKernels CacheSlots CachedAttention DecodePass Kernels LayerKernels LayerRows Launches

section Rows

variable (kc : KernelConfig) (cfg : ModelConfig)

/-- The projections that a row goes through, and the norms of its heads. -/
structure FullWeights where
  qProj : DeviceWeight
  kProj : DeviceWeight
  vProj : DeviceWeight
  qNorm : DeviceWeight
  kNorm : DeviceWeight
  oProj : DeviceWeight

abbrev HiddenRow : Type := Row cfg.hiddenSize

/-- The residuals and the MLP of a layer. -/
noncomputable def closeRow (weights : LayerWeights DeviceWeight) (x projOut : HiddenRow cfg) : HiddenRow cfg :=
  let x := addRow x projOut
  let mlpGate := gateUpRow weights.gateProj weights.upProj cfg.intermediateSize (normRow weights.postAttentionLayernorm x)
  addRow x (projectRow weights.downProj cfg.hiddenSize mlpGate)

variable (weights : LayerWeights DeviceWeight) (attention : FullWeights) (format : CacheFormat cfg.headDim)

noncomputable def qGateRow (x : HiddenRow cfg) : Row (cfg.numAttentionHeads * cfg.headDim * 2) :=
  projectRow attention.qProj _ (normRow weights.inputLayernorm x)

noncomputable def qRow (x : HiddenRow cfg) (pos : Nat) : Row (cfg.numAttentionHeads * cfg.headDim) :=
  ropeRow kc cfg.headDim pos (headNorms attention.qNorm cfg.headDim (queryRow cfg.headDim (qGateRow cfg weights attention x)))

noncomputable def kRow (x : HiddenRow cfg) (pos : Nat) : Row (cfg.numKeyValueHeads * cfg.headDim) :=
  ropeRow kc cfg.headDim pos (headNorms attention.kNorm cfg.headDim
    (projectRow attention.kProj _ (normRow weights.inputLayernorm x)))

noncomputable def vRow (x : HiddenRow cfg) : Row (cfg.numKeyValueHeads * cfg.headDim) :=
  projectRow attention.vProj _ (normRow weights.inputLayernorm x)

/-- The vector of a head that query heads share. -/
noncomputable def shared {headDim heads : Nat} (format : CacheFormat headDim) (side : Fin heads → format.Vec) (kvHead : Nat) :
    Nat → ℝ :=
  if inside : kvHead < heads then format.decode (side ⟨kvHead, inside⟩) else fun _ => 0

theorem shared_side {headDim heads : Nat} (format : CacheFormat headDim) (side : Fin heads → format.Vec) {kvHead : Nat}
    (inside : kvHead < heads) : shared format side kvHead = format.decode (side ⟨kvHead, inside⟩) := dif_pos inside

/-- The layer as the rows of a batch see it: an online softmax for each of the heads. -/
noncomputable def fullKernel :
    FullKernel (HiddenRow cfg) (Slot format.Vec cfg.numKeyValueHeads) (Nat → Running Nat ℝ) where
  slot x pos := format.encodeSlot cfg.numKeyValueHeads (kRow kc cfg weights attention x pos) (vRow cfg weights attention x)
  start _ := Running.start
  absorb x pos acc slot h :=
    let kvHead := h / (cfg.numAttentionHeads / cfg.numKeyValueHeads)
    let query := fun d => pad (qRow kc cfg weights attention x pos) (h * cfg.headDim + d)
    (acc h).update (score query cfg.headDim (usedScale 0 cfg.headDim) (shared format slot.keys kvHead))
      (shared format slot.values kvHead)
  close x _ acc :=
    let attnOut : Row (cfg.numAttentionHeads * cfg.headDim) := fun c => (acc (c / cfg.headDim)).output (c % cfg.headDim)
    let gated := gateRow cfg.headDim (qGateRow cfg weights attention x) attnOut
    closeRow cfg weights x (projectRow attention.oProj _ gated)

/-- The loop of one head. -/
theorem sdpa_head (maxSeqLen : Nat) (column : Nat → Slot format.Vec cfg.numKeyValueHeads) (x : HiddenRow cfg) {pos : Nat}
    (inside : pos < maxSeqLen) (h : Nat) :
    let kvHead := h / (cfg.numAttentionHeads / cfg.numKeyValueHeads)
    ((fullKernel kc cfg weights attention format).sdpaCausalCached maxSeqLen column (x, pos) h).output =
      answer (fun d => pad (qRow kc cfg weights attention x pos) (h * cfg.headDim + d)) cfg.headDim
        (fun j => shared format (column j).keys kvHead) (fun j => shared format (column j).values kvHead) (pos + 1) := by
  intro kvHead
  have keys : FullKernel.totalKeys maxSeqLen pos = pos + 1 := if_neg (by omega)
  unfold FullKernel.sdpaCausalCached answer attended
  dsimp only
  rw [keys]
  congr 1
  -- the heads do not see one another
  induction pos + 1 with
  | zero => rfl
  | succ n ih =>
      rw [List.range_succ, List.foldl_append, List.foldl_append, ← ih]
      rfl

end Rows

section Submissions

variable (M : LoadedModel) (seqLen : Nat)

/-- A layer cut at its attention. -/
noncomputable def opening (weights : LayerWeights DeviceWeight) : Submission ℝ :=
  onBuffers fun b => { b with
    actNormed := M.target.ops.rmsnorm b.actX weights.inputLayernorm seqLen M.config.hiddenSize }

noncomputable def closing (weights : LayerWeights DeviceWeight) : List (Submission ℝ) :=
  let ops := M.target.ops
  let hiddenSize := M.config.hiddenSize
  [onBuffers fun b => { b with actX := ops.addInplace b.actX b.actProjOut (seqLen * hiddenSize) },
    onBuffers fun b => { b with actNormed := ops.rmsnorm b.actX weights.postAttentionLayernorm seqLen hiddenSize },
    onBuffers fun b => { b with
      actMlpGate := ops.mlpGateUpSwigluInt4 b.actNormed weights.gateProj weights.upProj seqLen M.config.intermediateSize
        hiddenSize },
    onBuffers fun b => { b with
      actProjOut := ops.linearInt4 b.actMlpGate weights.downProj seqLen hiddenSize M.config.intermediateSize },
    onBuffers fun b => { b with actX := ops.addInplace b.actX b.actProjOut (seqLen * hiddenSize) }]

theorem run_append (front back : List (Submission ℝ)) (m : DeviceMemory ℝ) : run (front ++ back) m = run back (run front m) :=
  List.foldl_append

theorem forwardLayer_parts (maxSeqLen : Nat) (weights : LayerWeights DeviceWeight) (fullIdx linearIdx : Nat) (startPos : Int)
    (zeroLinear : Bool) (m : DeviceMemory ℝ) :
    run (forwardLayer M.target maxSeqLen weights fullIdx linearIdx seqLen startPos false zeroLinear) m =
      run (closing M seqLen weights) (run (attentionSubmissions M.target maxSeqLen weights.attention fullIdx linearIdx seqLen
        startPos false zeroLinear) (opening M seqLen weights m)) := by
  rw [← run_append]
  rfl

def FullWeights.attention (w : FullWeights) : AttentionWeights DeviceWeight :=
  .full w.qProj w.kProj w.vProj w.qNorm w.kNorm w.oProj

/-- Before and behind the cache. -/
noncomputable def projecting (w : FullWeights) : List (Submission ℝ) :=
  let cfg := M.config
  let ops := M.target.ops
  [onBuffers fun b => { b with
      actQGate := ops.linearInt4 b.actNormed w.qProj seqLen cfg.fullQGateDim cfg.hiddenSize
      actK := ops.linearInt4 b.actNormed w.kProj seqLen cfg.fullKDim cfg.hiddenSize
      actV := ops.linearInt4 b.actNormed w.vProj seqLen cfg.fullVDim cfg.hiddenSize },
    extractQuery M.target seqLen,
    onBuffers fun b => { b with actQ := ops.rmsnorm b.actQ w.qNorm (seqLen * cfg.numAttentionHeads) cfg.headDim },
    onBuffers fun b => { b with actK := ops.rmsnorm b.actK w.kNorm (seqLen * cfg.numKeyValueHeads) cfg.headDim },
    rope M.target seqLen]

noncomputable def answering (w : FullWeights) : List (Submission ℝ) :=
  let cfg := M.config
  let ops := M.target.ops
  [onBuffers fun b => { b with
      actAttnOut := ops.gateOutput b.actAttnOut b.actQGate seqLen cfg.numAttentionHeads cfg.headDim },
    onBuffers fun b => { b with
      actProjOut := ops.linearInt4 b.actAttnOut w.oProj seqLen cfg.hiddenSize cfg.fullOutDim }]

theorem attention_parts (maxSeqLen : Nat) (w : FullWeights) (fullIdx linearIdx : Nat) (startPos : Int) (zeroLinear : Bool)
    (m : DeviceMemory ℝ) :
    run (attentionSubmissions M.target maxSeqLen w.attention fullIdx linearIdx seqLen startPos false zeroLinear) m =
      run (answering M seqLen w) (sdpaCausal M.target maxSeqLen fullIdx seqLen startPos false
        (writeKvCache M.target maxSeqLen fullIdx seqLen startPos false (run (projecting M seqLen w) m))) := rfl

variable {M seqLen}

variable (seqLen) in
/-- The rows behind the residuals; the attention's output is all that is read besides. -/
theorem closing_rows (supported : M.Supported) (weights : LayerWeights DeviceWeight) (m : DeviceMemory ℝ) :
    ∃ bufs, run (closing M seqLen weights) m = { m with bufs := bufs } ∧
      ∀ t < seqLen, rowOf M.config.hiddenSize (elements bufs.actX) t = closeRow M.config weights
        (rowOf M.config.hiddenSize (elements m.bufs.actX) t) (rowOf M.config.hiddenSize (elements m.bufs.actProjOut) t) := by
  let x := M.target.ops.addInplace m.bufs.actX m.bufs.actProjOut (seqLen * M.config.hiddenSize)
  let normed := M.target.ops.rmsnorm x weights.postAttentionLayernorm seqLen M.config.hiddenSize
  let gate := M.target.ops.mlpGateUpSwigluInt4 normed weights.gateProj weights.upProj seqLen M.config.intermediateSize
    M.config.hiddenSize
  let down := M.target.ops.linearInt4 gate weights.downProj seqLen M.config.hiddenSize M.config.intermediateSize
  refine ⟨{ m.bufs with
    actX := M.target.ops.addInplace x down (seqLen * M.config.hiddenSize)
    actNormed := normed
    actMlpGate := gate
    actProjOut := down }, rfl, fun t row => ?_⟩
  have sums : rowOf M.config.hiddenSize (elements x) t = addRow _ _ :=
    addInplace_row M.kernelConfig m.bufs.actX m.bufs.actProjOut row
  have norms : rowOf M.config.hiddenSize (elements normed) t = normRow weights.postAttentionLayernorm _ :=
    rmsnorm_row M.kernelConfig x weights.postAttentionLayernorm row
  have gates : rowOf M.config.intermediateSize (elements gate) t = gateUpRow weights.gateProj weights.upProj _ _ :=
    mlpGateUpSwigluInt4_row M.kernelConfig supported.hidden normed weights.gateProj weights.upProj row
  have downs : rowOf M.config.hiddenSize (elements down) t = projectRow weights.downProj _ _ :=
    linearInt4_row M.kernelConfig supported.intermediate gate weights.downProj row
  refine (addInplace_row M.kernelConfig x down row).trans ?_
  rw [downs, gates, norms, sums]
  rfl

/-- Queries, keys and values of the rows. -/
structure Projected (M : LoadedModel) (weights : LayerWeights DeviceWeight) (w : FullWeights) (seqLen startPos : Nat)
    (x : Nat → HiddenRow M.config) (bufs : LayerActivationBuffers ℝ) : Prop where
  hidden : ∀ t < seqLen, rowOf M.config.hiddenSize (elements bufs.actX) t = x t
  qGate : ∀ t < seqLen, rowOf (M.config.numAttentionHeads * M.config.headDim * 2) (elements bufs.actQGate) t =
    qGateRow M.config weights w (x t)
  q : ∀ t < seqLen, rowOf (M.config.numAttentionHeads * M.config.headDim) (elements bufs.actQ) t =
    qRow M.kernelConfig M.config weights w (x t) (startPos + t)
  k : ∀ t < seqLen, rowOf (M.config.numKeyValueHeads * M.config.headDim) (elements bufs.actK) t =
    kRow M.kernelConfig M.config weights w (x t) (startPos + t)
  v : ∀ t < seqLen, rowOf (M.config.numKeyValueHeads * M.config.headDim) (elements bufs.actV) t =
    vRow M.config weights w (x t)

theorem projecting_rows (supported : M.Supported) (weights : LayerWeights DeviceWeight) (w : FullWeights)
    (m : DeviceMemory ℝ) {startPos : Nat} (positions : ∀ t < seqLen, m.positions t = startPos + t) :
    ∃ bufs, run (projecting M seqLen w) (opening M seqLen weights m) = { m with bufs := bufs } ∧
      Projected M weights w seqLen startPos (rowOf M.config.hiddenSize (elements m.bufs.actX)) bufs := by
  let ops := M.target.ops
  let cfg := M.config
  let normed := ops.rmsnorm m.bufs.actX weights.inputLayernorm seqLen cfg.hiddenSize
  let qGate := ops.linearInt4 normed w.qProj seqLen cfg.fullQGateDim cfg.hiddenSize
  let k := ops.linearInt4 normed w.kProj seqLen cfg.fullKDim cfg.hiddenSize
  let v := ops.linearInt4 normed w.vProj seqLen cfg.fullVDim cfg.hiddenSize
  let q := (extractQuery M.target seqLen { m with bufs := { m.bufs with actQGate := qGate } }).bufs.actQ
  let qNormed := ops.rmsnorm q w.qNorm (seqLen * cfg.numAttentionHeads) cfg.headDim
  let kNormed := ops.rmsnorm k w.kNorm (seqLen * cfg.numKeyValueHeads) cfg.headDim
  let rotated := ops.rope qNormed kNormed seqLen cfg.numAttentionHeads cfg.numKeyValueHeads cfg.headDim
    ((List.range seqLen).map m.positions)
  refine ⟨{ m.bufs with
    actNormed := normed
    actQGate := qGate
    actV := v
    actQ := rotated.1
    actK := rotated.2 }, rfl, ?_⟩
  have norms : ∀ t < seqLen, rowOf cfg.hiddenSize (elements normed) t = normRow weights.inputLayernorm
      (rowOf cfg.hiddenSize (elements m.bufs.actX) t) := fun t row => rmsnorm_row M.kernelConfig _ _ row
  have project : ∀ (W : DeviceWeight) (N t : Nat), t < seqLen →
      rowOf N (elements (ops.linearInt4 normed W seqLen N cfg.hiddenSize)) t =
        projectRow W N (normRow weights.inputLayernorm (rowOf cfg.hiddenSize (elements m.bufs.actX) t)) := by
    intro W N t row
    rw [← norms t row]
    exact linearInt4_row M.kernelConfig supported.hidden normed W row
  have turned : ∀ t < seqLen, _ := fun t row => rope_row M.kernelConfig supported.theta supported.rotary.1
    supported.rotary.2 qNormed kNormed row cfg.numAttentionHeads cfg.numKeyValueHeads ((List.range seqLen).map m.positions)
  have position : ∀ t < seqLen, ((List.range seqLen).map m.positions).getD t 0 = ((startPos + t : Nat) : Int) := by
    intro t row
    rw [List.getD_eq_getElem?_getD, List.getElem?_map, List.getElem?_range row]
    exact_mod_cast positions t row
  constructor
  · intro t row
    rfl
  · intro t row
    exact project w.qProj cfg.fullQGateDim t row
  · intro t row
    have queries := extractQuery_row cfg.numAttentionHeads cfg.headDim qGate m.bufs.actQ row
    refine (turned t row).1.trans ?_
    rw [position t row]
    refine congrArg (ropeRow _ _ _) ((headNorms_row M.kernelConfig q w.qNorm row).trans ?_)
    refine congrArg (headNorms _ _) (queries.trans (congrArg (queryRow _) ?_))
    exact project w.qProj cfg.fullQGateDim t row
  · intro t row
    refine (turned t row).2.trans ?_
    rw [position t row]
    refine congrArg (ropeRow _ _ _) ((headNorms_row M.kernelConfig k w.kNorm row).trans ?_)
    exact congrArg (headNorms _ _) (project w.kProj cfg.fullKDim t row)
  · intro t row
    exact project w.vProj cfg.fullVDim t row

theorem heads_pos (supported : M.Supported) : 0 < M.config.numKeyValueHeads :=
  Nat.pos_of_dvd_of_pos supported.grouped supported.queryHeads

/-- A key head that query heads share. -/
theorem shared_lt (supported : M.Supported) {h : Nat} (head : h < M.config.numAttentionHeads) :
    h / (M.config.numAttentionHeads / M.config.numKeyValueHeads) < M.config.numKeyValueHeads := by
  obtain ⟨ratio, heads⟩ := supported.grouped
  rw [heads, Nat.mul_div_cancel_left _ (heads_pos supported)]
  exact Nat.div_lt_of_lt_mul (Nat.mul_comm _ ratio ▸ heads ▸ head)

/-- The slots and the answers of a batch. -/
theorem attending_rows (supported : M.Supported) (weights : LayerWeights DeviceWeight) (w : FullWeights)
    {startPos maxSeqLen : Nat} (fullIdx : Nat) (rows : 0 < seqLen) (room : startPos + seqLen ≤ maxSeqLen)
    {x : Nat → HiddenRow M.config} {m : DeviceMemory ℝ} (projected : Projected M weights w seqLen startPos x m.bufs) :
    let format := formatOf M.config.headDim M.isInt8
    let kernel := fullKernel M.kernelConfig M.config weights w format
    let wrote := writeKvCache M.target maxSeqLen fullIdx seqLen startPos false m
    let column := format.slotAt M.config.numKeyValueHeads wrote.storage fullIdx
    let attended := sdpaCausal M.target maxSeqLen fullIdx seqLen startPos false wrote
    (∀ pos, column pos = if startPos ≤ pos ∧ pos < startPos + seqLen then kernel.slot (x (pos - startPos)) pos
      else format.slotAt M.config.numKeyValueHeads m.storage fullIdx pos) ∧
    ∀ t < seqLen, rowOf (M.config.numAttentionHeads * M.config.headDim) (elements attended.bufs.actAttnOut) t =
      fun c : Fin _ => (kernel.sdpaCausalCached maxSeqLen column (x t, startPos + t) (c / M.config.headDim)).output
        (c % M.config.headDim) := by
  intro format kernel wrote column attended
  have done : Wrote M.target m wrote fullIdx seqLen startPos :=
    writeKvCache_wrote M.target fullIdx (heads_pos supported) supported.headDim rows room m
  constructor
  · intro pos
    refine (done.slotAt fullIdx pos).trans ?_
    simp only [true_and]
    split
    next inside =>
      have early : pos - startPos < seqLen := by omega
      have position : startPos + (pos - startPos) = pos := by omega
      have key := projected.k _ early
      have value := projected.v _ early
      rw [position] at key
      dsimp only [kernel, fullKernel]
      rw [← key, ← value]
      rfl
    next => rfl
  · intro t row
    funext c
    obtain ⟨head, inside⟩ := head_of c.isLt
    have answers := sdpaCausal_answers M.target supported.lanes supported.grouped room fullIdx wrote row head inside
    have heard := sdpa_head M.kernelConfig M.config weights w format maxSeqLen column (x t)
      (show startPos + t < maxSeqLen by omega) (c / M.config.headDim)
    refine Eq.trans (congrArg (elements _) (row_head ..)) (answers.trans ?_)
    refine Eq.trans ?_ (congrFun heard _).symm
    have kvHead := shared_lt supported head
    apply answer_congr
    · intro e within
      rw [← projected.q t row, done.bufs]
      exact (pad_head (elements m.bufs.actQ) t head within).symm
    · intro j _ e _
      exact (congrFun (shared_side format (column j).keys kvHead) e).symm
    · intro j _
      exact (congrFun (shared_side format (column j).values kvHead) _).symm

variable (seqLen) in
theorem answering_rows (supported : M.Supported) (w : FullWeights) (m : DeviceMemory ℝ) :
    ∃ bufs, run (answering M seqLen w) m = { m with bufs := bufs } ∧ bufs.actX = m.bufs.actX ∧
      ∀ t < seqLen, rowOf M.config.hiddenSize (elements bufs.actProjOut) t = projectRow w.oProj M.config.hiddenSize
        (gateRow M.config.headDim
          (rowOf (M.config.numAttentionHeads * M.config.headDim * 2) (elements m.bufs.actQGate) t)
          (rowOf (M.config.numAttentionHeads * M.config.headDim) (elements m.bufs.actAttnOut) t)) := by
  let ops := M.target.ops
  let gated := ops.gateOutput m.bufs.actAttnOut m.bufs.actQGate seqLen M.config.numAttentionHeads M.config.headDim
  refine ⟨{ m.bufs with
    actAttnOut := gated
    actProjOut := ops.linearInt4 gated w.oProj seqLen M.config.hiddenSize M.config.fullOutDim }, rfl, rfl, fun t row => ?_⟩
  have filled : 0 < M.config.fullOutDim := Nat.mul_pos supported.queryHeads supported.headDim
  refine (linearInt4_row M.kernelConfig filled gated w.oProj row).trans (congrArg (projectRow w.oProj _) ?_)
  exact gateOutput_row M.kernelConfig m.bufs.actAttnOut m.bufs.actQGate row

/-- The rows of a buffer, each with its position. -/
theorem rowsOf_placed (n count startPos : Nat) (buffer : List ℝ) : (rowsOf n count buffer).zipIdx startPos =
    (List.range count).map fun t => (rowOf n (elements buffer) t, startPos + t) := by
  apply List.ext_getElem
  · simp [rowsOf]
  · intro t _ _
    simp [rowsOf]

/-- The slots of a batch, written where the cache has room for all of them. -/
theorem writeKvCache_rows {Slot : Type} {maxSeqLen startPos : Nat} (room : startPos + seqLen ≤ maxSeqLen)
    (column : Nat → Slot) (slot : Nat → Slot) (pos : Nat) :
    FullKernel.writeKvCache maxSeqLen column startPos ((List.range seqLen).map slot) pos =
      if startPos ≤ pos ∧ pos < startPos + seqLen then slot (pos - startPos) else column pos := by
  rw [FullKernel.writeKvCache_apply]
  by_cases inside : startPos ≤ pos ∧ pos < startPos + seqLen
  · rw [if_pos (by omega), if_pos inside, List.getElem?_map, List.getElem?_range (by omega)]
    rfl
  · rw [if_neg inside]
    split
    next => rw [List.getElem?_eq_none (by simp; omega), Option.getD_none]
    next => rfl

/-- What a layer leaves besides its own part of the storage. -/
structure FullDone (M : LoadedModel) (seqLen fullIdx : Nat) (m after : DeviceMemory ℝ)
    (column : Nat → Slot (formatOf M.config.headDim M.isInt8).Vec M.config.numKeyValueHeads)
    (rows : List (HiddenRow M.config)) : Prop where
  positions : after.positions = m.positions
  rows : rowsOf M.config.hiddenSize seqLen after.bufs.actX = rows
  own : (formatOf M.config.headDim M.isInt8).slotAt M.config.numKeyValueHeads after.storage fullIdx = column
  others : ∀ layer ≠ fullIdx, (formatOf M.config.headDim M.isInt8).slotAt M.config.numKeyValueHeads after.storage layer =
    (formatOf M.config.headDim M.isInt8).slotAt M.config.numKeyValueHeads m.storage layer
  states : after.storage.convState = m.storage.convState ∧ after.storage.linearState = m.storage.linearState

/-- The submissions of a full-attention layer over a batch. -/
theorem full_layer (supported : M.Supported) {weights : LayerWeights DeviceWeight} {w : FullWeights}
    (own : weights.attention = w.attention) {startPos maxSeqLen : Nat} (fullIdx linearIdx : Nat) (zeroLinear : Bool)
    (some' : 0 < seqLen) (room : startPos + seqLen ≤ maxSeqLen) {m : DeviceMemory ℝ}
    (positions : ∀ t < seqLen, m.positions t = startPos + t) :
    let format := formatOf M.config.headDim M.isInt8
    let kernel := fullKernel M.kernelConfig M.config weights w format
    let done := kernel.batch maxSeqLen (format.slotAt M.config.numKeyValueHeads m.storage fullIdx) startPos
      (rowsOf M.config.hiddenSize seqLen m.bufs.actX)
    FullDone M seqLen fullIdx m
      (run (forwardLayer M.target maxSeqLen weights fullIdx linearIdx seqLen startPos false zeroLinear) m) done.1 done.2 := by
  intro format kernel done
  let x := rowOf M.config.hiddenSize (elements m.bufs.actX)
  let column := format.slotAt M.config.numKeyValueHeads m.storage fullIdx
  obtain ⟨bufs, projected, rows⟩ := projecting_rows supported weights w m positions
  obtain ⟨slots, answers⟩ := attending_rows supported weights w fullIdx some' room
    (m := { m with bufs := bufs }) rows
  have wrote := writeKvCache_wrote M.target fullIdx (heads_pos supported) supported.headDim some' room
    { m with bufs := bufs }
  rw [forwardLayer_parts, own, attention_parts, projected]
  generalize writeKvCache M.target maxSeqLen fullIdx seqLen startPos false { m with bufs := bufs } = written at *
  obtain ⟨answered, gated, kept, outs⟩ := answering_rows seqLen supported w
    (sdpaCausal M.target maxSeqLen fullIdx seqLen startPos false written)
  obtain ⟨closed, ended, sums⟩ := closing_rows seqLen supported weights
    { sdpaCausal M.target maxSeqLen fullIdx seqLen startPos false written with bufs := answered }
  rw [gated, ended]
  have stored : format.slotAt M.config.numKeyValueHeads written.storage fullIdx = done.1 := by
    have batch : done.1 = FullKernel.writeKvCache maxSeqLen column startPos
        ((List.range seqLen).map fun t => kernel.slot (x t) (startPos + t)) := by
      dsimp only [done, FullKernel.batch]
      rw [rowsOf_placed, List.map_map]
      rfl
    funext pos
    rw [batch, writeKvCache_rows room]
    refine (slots pos).trans ?_
    split
    next inside =>
      rw [Nat.add_sub_cancel' inside.1]
    next => rfl
  constructor
  · exact wrote.inputs.2
  · have batch : done.2 = (List.range seqLen).map fun t =>
        kernel.close (x t) (startPos + t) (kernel.sdpaCausalCached maxSeqLen done.1 (x t, startPos + t)) := by
      dsimp only [done, FullKernel.batch]
      rw [rowsOf_placed, List.map_map]
      rfl
    rw [batch, ← stored]
    refine List.map_congr_left fun t member => ?_
    have row := List.mem_range.1 member
    have hidden := rows.hidden t row
    have qGate := rows.qGate t row
    have same : written.bufs = bufs := wrote.bufs
    rw [← same] at hidden qGate
    refine (sums t row).trans ?_
    dsimp only
    rw [outs t row, kept, answers t row]
    exact congrArg₂ (closeRow M.config weights) hidden
      (congrArg (fun gate => projectRow w.oProj _ (gateRow M.config.headDim gate _)) qGate)
  · exact stored
  · intro layer other
    funext pos
    refine (wrote.slotAt layer pos).trans (if_neg fun here => other here.1)
  · exact wrote.states

end Submissions

end XInfer.FullLayers
