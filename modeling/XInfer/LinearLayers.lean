import XInfer.FullLayers

/-!
A linear-attention layer as its kernels run it, against the kernel of the layer as a whole. The convolution and the
recurrence go through the batch with states of their own; row by row they are one step of the layer.
-/

namespace XInfer.LinearLayers

open AttentionKernels CausalConv DecodePass FullLayers GatedDeltaNet Kernels LayerKernels LayerRows Launches Transducer
open WorkGroups

section Tokens

variable {F : Type} [DeviceLiteral F]

/-- Tokens that the lanes cannot tell apart. -/
structure SameLanes (tok tok' : HeadToken F) : Prop where
  q : ∀ j < headKDim, tok.q j = tok'.q j
  k : ∀ j < headKDim, tok.k j = tok'.k j
  v : ∀ j < headVDim, tok.v j = tok'.v j
  beta : tok.beta = tok'.beta
  expG : tok.expG = tok'.expG

theorem SameLanes.step {tok tok' : HeadToken F} (same : SameLanes tok tok') (S : HeadState F) :
    Alike (tok.step S).1 (tok'.step S).1 ∧ ∀ j < headVDim, (tok.step S).2 j = (tok'.step S).2 j := by
  have found : ∀ j, (List.range 128).foldl (fun sum i => sum + S i j * tok.expG * tok.k i) 0 =
      (List.range 128).foldl (fun sum i => sum + S i j * tok'.expG * tok'.k i) 0 := fun j =>
    List.foldl_ext _ _ 0 fun sum i member => by rw [same.k i (List.mem_range.1 member), same.expG]
  have new : Alike (tok.step S).1 (tok'.step S).1 := by
    intro i row j lane
    dsimp only [HeadToken.step]
    rw [found j, same.k i row, same.v j lane, same.beta, same.expG]
  refine ⟨new, fun j lane => ?_⟩
  dsimp only [HeadToken.step]
  refine List.foldl_ext _ _ 0 fun sum i member => ?_
  have row := List.mem_range.1 member
  rw [found j, same.k i row, same.v j lane, same.beta, same.expG, same.q i row]

/-- A token of one call and a token of another with the same inputs. -/
structure SameToken (inp : Inputs F) (t : Nat) (inp' : Inputs F) (t' : Nat) : Prop where
  qkv : ∀ i < totalChannels, inp.qkv (t * totalChannels + i) = inp'.qkv (t' * totalChannels + i)
  z : ∀ i < valueDim, inp.z (t * valueDim + i) = inp'.z (t' * valueDim + i)
  b : ∀ h < GatedDeltaNet.numVHeads, inp.b (t * GatedDeltaNet.numVHeads + h) = inp'.b (t' * GatedDeltaNet.numVHeads + h)
  a : ∀ h < GatedDeltaNet.numVHeads, inp.a (t * GatedDeltaNet.numVHeads + h) = inp'.a (t' * GatedDeltaNet.numVHeads + h)
  weights : inp.aLog = inp'.aLog ∧ inp.dtBias = inp'.dtBias ∧ inp.normWeight = inp'.normWeight

theorem invNorm_congr {x x' : Nat → F} (same : ∀ j < headKDim, x j = x' j) : invNorm x = invNorm x' := by
  unfold invNorm
  rw [reduceWorkGroup_congr fun j lane => by rw [same j lane]]

/-- The channels of queries, keys and values. -/
theorem key_channel {hK j : Nat} (head : hK < 16) (lane : j < headKDim) :
    hK * headKDim + j < totalChannels ∧ numKHeads * headKDim + (hK * headKDim + j) < totalChannels := by
  unfold numKHeads totalChannels
  unfold headKDim at lane ⊢
  omega

theorem value_channel {h j : Nat} (head : h < GatedDeltaNet.numVHeads) (lane : j < headVDim) :
    numKHeads * headKDim * 2 + (h * headVDim + j) < totalChannels := by
  unfold numKHeads headKDim totalChannels
  unfold headVDim at lane ⊢
  unfold GatedDeltaNet.numVHeads at head
  omega

theorem SameToken.lanes {inp inp' : Inputs F} {t t' : Nat} (same : SameToken inp t inp' t') {h : Nat}
    (head : h < GatedDeltaNet.numVHeads) : SameLanes (headToken inp h t) (headToken inp' h t') := by
  have keyHead : h / (GatedDeltaNet.numVHeads / numKHeads) < 16 := Nat.div_lt_of_lt_mul head
  have query : ∀ j < headKDim, inp.qkv (t * totalChannels + (h / (GatedDeltaNet.numVHeads / numKHeads) * headKDim + j)) =
      inp'.qkv (t' * totalChannels + (h / (GatedDeltaNet.numVHeads / numKHeads) * headKDim + j)) := by
    intro j lane
    exact same.qkv _ (key_channel keyHead lane).1
  have key : ∀ j < headKDim, inp.qkv (t * totalChannels + (numKHeads * headKDim +
      (h / (GatedDeltaNet.numVHeads / numKHeads) * headKDim + j))) = inp'.qkv (t' * totalChannels + (numKHeads * headKDim +
        (h / (GatedDeltaNet.numVHeads / numKHeads) * headKDim + j))) := by
    intro j lane
    exact same.qkv _ (key_channel keyHead lane).2
  constructor
  · intro j lane
    dsimp only [headToken]
    rw [query j lane, invNorm_congr query]
  · intro j lane
    dsimp only [headToken]
    rw [key j lane, invNorm_congr key]
  · intro j lane
    dsimp only [headToken]
    exact same.qkv _ (value_channel head lane)
  · dsimp only [headToken]
    rw [same.b h head]
  · dsimp only [headToken]
    rw [same.a h head, same.weights.1, same.weights.2.1]

/-- The step of a head, from states that are alike. -/
theorem SameToken.step {inp inp' : Inputs F} {t t' : Nat} (same : SameToken inp t inp' t') {h : Nat}
    (head : h < GatedDeltaNet.numVHeads) {S S' : HeadState F} (alike : Alike S S') :
    Alike ((headToken inp h t).step S).1 ((headToken inp' h t').step S').1 ∧
      ∀ j < headVDim, ((headToken inp h t).step S).2 j = ((headToken inp' h t').step S').2 j := by
  obtain ⟨new, found⟩ := (headToken inp h t).step_alike alike
  obtain ⟨new', found'⟩ := (same.lanes head).step S'
  constructor
  · intro i row j lane
    exact (new i row j lane).trans (new' i row j lane)
  · intro j lane
    exact (found j lane).trans (found' j lane)

theorem SameToken.headOutput {inp inp' : Inputs F} {t : Nat} (same : SameToken inp t inp' 0) {h : Nat}
    (head : h < GatedDeltaNet.numVHeads) {S S' : HeadState F} (alike : Alike (stateAfter inp h S t) S') {j : Nat}
    (lane : j < headVDim) : GatedDeltaNet.headOutput inp h S t j = GatedDeltaNet.headOutput inp' h S' 0 j := by
  have found := (same.step head alike).2
  have gate := same.z (h * headVDim + j) (lane_lt head lane)
  unfold GatedDeltaNet.headOutput gated
  dsimp only
  rw [gate, same.weights.2.2]
  change _ * _ * _ * _ = ((headToken inp' h 0).step S').2 j * _ * _ * _
  rw [found j lane, reduceWorkGroup_congr fun lane inside => by rw [found lane inside]]
  rfl

end Tokens

section Rows

variable (cfg : ModelConfig)

structure LinearWeights where
  inProjQkv : DeviceWeight
  inProjZ : DeviceWeight
  inProjB : DeviceWeight
  inProjA : DeviceWeight
  conv1dWeight : DeviceWeight
  aLog : DeviceWeight
  dtBias : DeviceWeight
  normWeight : DeviceWeight
  outProj : DeviceWeight

/-- The states of all heads. -/
abbrev StateRow : Type := Row (GatedDeltaNet.numVHeads * (headKDim * headVDim))

def ofHeads (state : Nat → HeadState ℝ) : StateRow := fun cell =>
  let place := cell % (headKDim * headVDim)
  state (cell / (headKDim * headVDim)) (place / headVDim) (place % headVDim)

noncomputable def headOf (s : StateRow) (h : Nat) : HeadState ℝ := fun i j =>
  pad s (h * (headKDim * headVDim) + (i * headVDim + j))

/-- A cell of the states belongs to a head. -/
theorem cell_head {cell : Nat} (inside : cell < GatedDeltaNet.numVHeads * (headKDim * headVDim)) :
    cell / (headKDim * headVDim) < GatedDeltaNet.numVHeads ∧ cell % (headKDim * headVDim) / headVDim < headKDim ∧
      cell % (headKDim * headVDim) % headVDim < headVDim := by
  refine ⟨Nat.div_lt_of_lt_mul (Nat.mul_comm GatedDeltaNet.numVHeads _ ▸ inside), ?_, Nat.mod_lt _ (by decide)⟩
  exact Nat.div_lt_of_lt_mul (Nat.mul_comm headKDim headVDim ▸ Nat.mod_lt cell (by decide))

theorem ofHeads_congr {state state' : Nat → HeadState ℝ}
    (alike : ∀ h < GatedDeltaNet.numVHeads, Alike (state h) (state' h)) : ofHeads state = ofHeads state' := by
  funext cell
  obtain ⟨head, row, lane⟩ := cell_head cell.isLt
  exact alike _ head _ row _ lane

theorem headOf_ofHeads (state : Nat → HeadState ℝ) {h : Nat} (head : h < GatedDeltaNet.numVHeads) :
    Alike (headOf (ofHeads state) h) (state h) := by
  intro i row j lane
  have place := flat_lt row lane
  refine (dif_pos (flat_lt head place)).trans ?_
  dsimp only [ofHeads]
  rw [flat_div place, flat_mod place, flat_div lane, flat_mod lane]

variable (weights : LayerWeights DeviceWeight) (w : LinearWeights)

/-- What the recurrence is given of one token. -/
noncomputable def tokenInputs (x : HiddenRow cfg) (conv : Row cfg.linearConvChannels) : Inputs ℝ :=
  let normed := normRow weights.inputLayernorm x
  { qkv := pad conv
    z := pad (projectRow w.inProjZ cfg.linearZDim normed)
    b := pad (projectRow w.inProjB cfg.linearBDim normed)
    a := pad (projectRow w.inProjA cfg.linearADim normed)
    aLog := w.aLog.values
    dtBias := w.dtBias.values
    normWeight := w.normWeight.values }

noncomputable def linearKernel :
    LinearKernel (HiddenRow cfg) (Row cfg.linearConvChannels) (Row cfg.linearConvChannels) StateRow where
  raw x := projectRow w.inProjQkv cfg.linearConvChannels (normRow weights.inputLayernorm x)
  convolve x0 x1 x2 x3 c := silu Real.exp
    (w.conv1dWeight.values (c * 4 + 0) * x0 c + w.conv1dWeight.values (c * 4 + 1) * x1 c +
      w.conv1dWeight.values (c * 4 + 2) * x2 c + w.conv1dWeight.values (c * 4 + 3) * x3 c)
  delta x conv s :=
    let inp := tokenInputs cfg weights w x conv
    let deltaOut : Row cfg.linearZDim := fun c => headOutput inp (c / headVDim) (headOf s (c / headVDim)) 0 (c % headVDim)
    (ofHeads fun h => ((headToken inp h 0).step (headOf s h)).1,
      closeRow cfg weights x (projectRow w.outProj cfg.hiddenSize deltaOut))

end Rows

section Scans

/-- A scan whose states are known. -/
theorem scan_states {σ ι ο : Type} {step : σ → ι → σ × ο} (state : Nat → σ) {input : Nat → ι} {output : Nat → ο} {n : Nat}
    (steps : ∀ t < n, step (state t) (input t) = (state (t + 1), output t)) :
    scan step (state 0) ((List.range n).map input) = (state n, (List.range n).map output) := by
  induction n with
  | zero => rfl
  | succ n ih =>
      have before := ih fun t early => steps t (Nat.lt_succ_of_lt early)
      rw [List.range_succ, List.map_append, List.map_append, scan_append, before]
      simp only [List.map_cons, List.map_nil, scan_cons, scan_nil, steps n (Nat.lt_succ_self n)]

variable {M : LoadedModel} (weights : LayerWeights DeviceWeight) (w : LinearWeights)

/-- What the layer makes of a row, from the heads' outputs. -/
noncomputable def deltaOut (M : LoadedModel) (output : Nat → Nat → ℝ) : Row M.config.linearZDim := fun c =>
  output (c / headVDim) (c % headVDim)

/-- The recurrence of a call over a batch is the scan of the layer's own. -/
theorem recurrence_scan (supported : M.Supported) {inp : Inputs ℝ} {x : Nat → HiddenRow M.config}
    {conv : Nat → Row M.config.linearConvChannels} {seqLen : Nat}
    (same : ∀ t < seqLen, SameToken inp t (tokenInputs M.config weights w (x t) (conv t)) 0) (start : Nat → HeadState ℝ) :
    scan (fun s (input : HiddenRow M.config × Row M.config.linearConvChannels) =>
        (linearKernel M.config weights w).delta input.1 input.2 s) (ofHeads start)
        ((List.range seqLen).map fun t => (x t, conv t)) =
      (ofHeads fun h => stateAfter inp h (start h) seqLen,
        (List.range seqLen).map fun t => closeRow M.config weights (x t) (projectRow w.outProj M.config.hiddenSize
          (deltaOut M fun h j => headOutput inp h (start h) t j))) := by
  refine scan_states (fun t => ofHeads fun h => stateAfter inp h (start h) t) fun t row => ?_
  have alike : ∀ h < GatedDeltaNet.numVHeads, Alike (stateAfter inp h (start h) t)
      (headOf (ofHeads fun h => stateAfter inp h (start h) t) h) := fun h head i row j lane =>
    (headOf_ofHeads (fun h => stateAfter inp h (start h) t) head i row j lane).symm
  have states : (ofHeads fun h => ((headToken (tokenInputs M.config weights w (x t) (conv t)) h 0).step
      (headOf (ofHeads fun h => stateAfter inp h (start h) t) h)).1) =
        ofHeads fun h => stateAfter inp h (start h) (t + 1) := by
    apply ofHeads_congr
    intro h head i place j lane
    rw [stateAfter_succ]
    exact (((same t row).step head (alike h head)).1 i place j lane).symm
  refine Prod.ext states ?_
  refine congrArg (fun out => closeRow M.config weights (x t) (projectRow w.outProj M.config.hiddenSize out)) ?_
  funext c
  have width : (c : Nat) < GatedDeltaNet.numVHeads * headVDim := lt_of_lt_of_eq c.isLt supported.gate
  obtain ⟨head, lane⟩ := head_of width
  exact ((same t row).headOutput head (alike _ head) lane).symm

end Scans

section Kernels

variable (kc : KernelConfig) {cfg : ModelConfig} (weights : LayerWeights DeviceWeight) (w : LinearWeights) {seqLen : Nat}

/-- The three rows of a convolution's state. -/
noncomputable def convOf (channels : Nat) (convState : List ℝ) : ConvState (Row channels) :=
  let row := rowOf channels (elements convState)
  ⟨row 0, row 1, row 2⟩

noncomputable def deltaOf (linearState : List ℝ) : StateRow := rowOf _ (elements linearState) 0

/-- A buffer of a single row. -/
theorem only_row (n : Nat) (kernel : (Nat → ℝ) → Nat → ℝ) :
    rowOf n (elements (LayerKernels.filled n kernel)) 0 = fun c : Fin n => kernel (elements []) c := by
  funext c
  unfold rowOf
  rw [Nat.zero_mul, Nat.zero_add]
  exact elements_overwrite c.isLt kernel []

/-- The rows that the windows are cut from. -/
theorem tap_window {channels : Nat} (inQkv convState : List ℝ) {i : Nat} (within : i < seqLen + 3) :
    LinearKernel.tap (convOf channels convState) (rowsOf channels seqLen inQkv) i =
      fun c : Fin channels => window channels (elements inQkv) (elements convState) i c := by
  match i with
  | 0 | 1 | 2 => rfl
  | i + 3 =>
      have row : i < seqLen := by omega
      simp [LinearKernel.tap, rowsOf, window, List.getElem?_range row]
      rfl

theorem causalConv1dSilu_rows (filled : 0 < cfg.linearConvChannels) (some' : 0 < seqLen) (inQkv convState : List ℝ) :
    let done := (kernels kc).causalConv1dSilu inQkv w.conv1dWeight seqLen convState cfg.linearConvChannels
    let whole := (linearKernel cfg weights w).causalConv1dSilu (convOf cfg.linearConvChannels convState)
      (rowsOf cfg.linearConvChannels seqLen inQkv)
    convOf cfg.linearConvChannels done.2 = whole.1 ∧ rowsOf cfg.linearConvChannels seqLen done.1 = whole.2 := by
  intro done whole
  obtain ⟨⟨out, after⟩, called, windowed⟩ := call_windows (elements inQkv) (elements convState) (elements []) Real.exp
    w.conv1dWeight.values filled some'
  let rows := window cfg.linearConvChannels (elements inQkv) (elements convState)
  let next := stateOf cfg.linearConvChannels (fun i => rows (seqLen + i)) (elements convState)
  obtain rfl : after = some next := windowed.state
  have ran : done = (LayerKernels.filled (seqLen * cfg.linearConvChannels) fun _ => out,
      LayerKernels.filled (3 * cfg.linearConvChannels) fun _ => next) := by
    dsimp only [done, kernels]
    rw [called]
  have taps : ∀ i < seqLen + 3, LinearKernel.tap (convOf cfg.linearConvChannels convState)
      (rowsOf cfg.linearConvChannels seqLen inQkv) i = fun c : Fin _ => rows i c :=
    fun i within => tap_window inQkv convState within
  have width : (rowsOf cfg.linearConvChannels seqLen inQkv).length = seqLen := by simp [rowsOf]
  have state : ∀ i < 3, rowOf cfg.linearConvChannels (elements done.2) i = fun c : Fin _ => rows (seqLen + i) c := by
    intro i row
    rw [ran]
    refine (rowOf_filled row fun _ => next).trans (funext fun c => ?_)
    exact stateOf_row (fun i => rows (seqLen + i)) row c.isLt
  dsimp only [whole]
  rw [LinearKernel.causalConv1dSilu_windows]
  unfold LinearKernel.windows
  rw [width]
  constructor
  · dsimp only
    rw [taps seqLen (by omega), taps (seqLen + 1) (by omega), taps (seqLen + 2) (by omega)]
    dsimp only [convOf]
    rw [state 0 (by decide), state 1 (by decide), state 2 (by decide)]
    rfl
  · refine List.map_congr_left fun t member => ?_
    have row := List.mem_range.1 member
    rw [ran, taps t (by omega), taps (t + 1) (by omega), taps (t + 2) (by omega), taps (t + 3) (by omega)]
    refine (rowOf_filled row fun _ => out).trans (funext fun c => ?_)
    refine (windowed.output t row c c.isLt).trans ?_
    simp [activation, linearKernel, Finset.sum_range_succ, rows]

variable {M : LoadedModel}

theorem recurrentGatedDeltaNet_rows (supported : M.Supported) (some' : 0 < seqLen) (qkv z b a : List ℝ)
    (linearState : List ℝ) (zeroState : Bool) :
    let done := M.target.ops.recurrentGatedDeltaNet qkv z b a w.aLog w.dtBias w.normWeight linearState seqLen zeroState
    let inp : Inputs ℝ :=
      ⟨elements qkv, elements z, elements b, elements a, w.aLog.values, w.dtBias.values, w.normWeight.values⟩
    let start := loadState zeroState (elements linearState)
    deltaOf done.2 = ofHeads (fun h => stateAfter inp h (start h) seqLen) ∧ ∀ t < seqLen,
      rowOf M.config.linearZDim (elements done.1) t = deltaOut M fun h j => headOutput inp h (start h) t j := by
  intro done inp start
  obtain ⟨⟨out, after⟩, called, result⟩ := call_ran id inp (elements []) (elements linearState) zeroState some'
  have ran : done = (LayerKernels.filled (seqLen * valueDim) fun _ => out,
      LayerKernels.filled (GatedDeltaNet.numVHeads * (headKDim * headVDim)) fun _ => after) := by
    dsimp only [done, LoadedModel.target, kernels]
    rw [supported.linearShape, called]
  rw [ran]
  constructor
  · funext cell
    obtain ⟨head, row, lane⟩ := cell_head cell.isLt
    have state := result.state _ head _ row _ lane
    rw [Nat.div_add_mod', Nat.div_add_mod'] at state
    have read : deltaOf (LayerKernels.filled (GatedDeltaNet.numVHeads * (headKDim * headVDim)) fun _ => after) cell =
        after cell := congrFun (only_row (GatedDeltaNet.numVHeads * (headKDim * headVDim)) fun _ => after) cell
    rw [read]
    dsimp only [ofHeads]
    exact state
  · intro t row
    funext c
    have width : (c : Nat) < GatedDeltaNet.numVHeads * headVDim := lt_of_lt_of_eq c.isLt supported.gate
    obtain ⟨head, lane⟩ := head_of width
    have output := result.output t row _ head _ lane
    rw [Nat.div_add_mod'] at output
    have place : ∀ n, n = valueDim → ∀ c < n,
        elements (LayerKernels.filled (seqLen * valueDim) fun _ => out) (t * n + c) = out (t * valueDim + c) := by
      rintro n rfl c inside
      exact elements_overwrite (flat_lt row inside) (fun _ => out) []
    exact (place _ supported.gate c c.isLt).trans output

/-- What a cleared layer starts from. -/
theorem start_state (linearState : List ℝ) (zeroState : Bool) : ofHeads (loadState zeroState (elements linearState)) =
    if zeroState then 0 else deltaOf linearState := by
  cases zeroState with
  | true => rfl
  | false =>
      funext cell
      unfold ofHeads loadState deltaOf rowOf
      simp only [Bool.false_eq_true, if_false, Nat.zero_mul, Nat.zero_add]
      rw [show (128 : Nat) = headVDim from rfl, Nat.div_add_mod', Nat.div_add_mod']

end Kernels

section Submissions

variable {M : LoadedModel} {seqLen : Nat}

def LinearWeights.attention (w : LinearWeights) : AttentionWeights DeviceWeight :=
  .linear w.inProjQkv w.inProjZ w.inProjB w.inProjA w.conv1dWeight w.aLog w.dtBias w.normWeight w.outProj

/-- A row of a buffer, as the inputs of a single token. -/
theorem single_token {n width t : Nat} (same : n = width) {buffer : Nat → ℝ} {x : Row n} (row : rowOf n buffer t = x) :
    ∀ i < width, buffer (t * width + i) = pad x (0 * width + i) := by
  subst same row
  intro i inside
  rw [Nat.zero_mul, Nat.zero_add, pad_rowOf buffer t inside]

noncomputable def layerState (M : LoadedModel) (storage : Storage ℝ) (layer : Nat) :
    LinearState (Row M.config.linearConvChannels) StateRow :=
  ⟨convOf M.config.linearConvChannels (storage.convState layer), deltaOf (storage.linearState layer)⟩

/-- What a layer leaves besides its own states. -/
structure LinearDone (M : LoadedModel) (seqLen linearIdx : Nat) (m after : DeviceMemory ℝ)
    (state : LinearState (Row M.config.linearConvChannels) StateRow) (rows : List (HiddenRow M.config)) : Prop where
  positions : after.positions = m.positions
  rows : rowsOf M.config.hiddenSize seqLen after.bufs.actX = rows
  own : layerState M after.storage linearIdx = state
  others : ∀ layer ≠ linearIdx, layerState M after.storage layer = layerState M m.storage layer
  caches : after.storage.half = m.storage.half ∧ after.storage.int8 = m.storage.int8

/-- The submissions of a linear-attention layer over a batch. -/
theorem linear_layer (supported : M.Supported) {weights : LayerWeights DeviceWeight} {w : LinearWeights}
    (own : weights.attention = w.attention) (maxSeqLen fullIdx linearIdx : Nat) (startPos : Int) (zeroLinear : Bool)
    (some' : 0 < seqLen) (m : DeviceMemory ℝ) :
    let kernel := linearKernel M.config weights w
    let done := kernel.batch zeroLinear (layerState M m.storage linearIdx) (rowsOf M.config.hiddenSize seqLen m.bufs.actX)
    LinearDone M seqLen linearIdx m
      (run (forwardLayer M.target maxSeqLen weights fullIdx linearIdx seqLen startPos false zeroLinear) m) done.1 done.2 := by
  intro kernel done
  let cfg := M.config
  let ops := M.target.ops
  let x := rowOf cfg.hiddenSize (elements m.bufs.actX)
  let normed := ops.rmsnorm m.bufs.actX weights.inputLayernorm seqLen cfg.hiddenSize
  let qkvRaw := ops.linearInt4 normed w.inProjQkv seqLen cfg.linearConvChannels cfg.hiddenSize
  let z := ops.linearInt4 normed w.inProjZ seqLen cfg.linearZDim cfg.hiddenSize
  let b := ops.linearInt4 normed w.inProjB seqLen cfg.linearBDim cfg.hiddenSize
  let a := ops.linearInt4 normed w.inProjA seqLen cfg.linearADim cfg.hiddenSize
  let conv := ops.causalConv1dSilu qkvRaw w.conv1dWeight seqLen (m.storage.convState linearIdx) cfg.linearConvChannels
  let delta := ops.recurrentGatedDeltaNet conv.1 z b a w.aLog w.dtBias w.normWeight (m.storage.linearState linearIdx) seqLen
    zeroLinear
  let projOut := ops.linearInt4 delta.1 w.outProj seqLen cfg.hiddenSize cfg.linearZDim
  let attended : DeviceMemory ℝ := { m with
    bufs := { m.bufs with
      actNormed := normed
      actQkvRaw := qkvRaw
      actZ := z
      actB := b
      actA := a
      actQkvConv := conv.1
      actDeltaOut := delta.1
      actProjOut := projOut }
    storage := { m.storage with
      convState := Function.update m.storage.convState linearIdx conv.2
      linearState := Function.update m.storage.linearState linearIdx delta.2 } }
  have parts : run (attentionSubmissions M.target maxSeqLen weights.attention fullIdx linearIdx seqLen startPos false
      zeroLinear) (opening M seqLen weights m) = attended := by
    rw [own]
    rfl
  have norms : ∀ t < seqLen, rowOf cfg.hiddenSize (elements normed) t = normRow weights.inputLayernorm (x t) :=
    fun t row => rmsnorm_row M.kernelConfig _ _ row
  have project : ∀ (W : DeviceWeight) (N t : Nat), t < seqLen →
      rowOf N (elements (ops.linearInt4 normed W seqLen N cfg.hiddenSize)) t =
        projectRow W N (normRow weights.inputLayernorm (x t)) := by
    intro W N t row
    rw [← norms t row]
    exact linearInt4_row M.kernelConfig supported.hidden normed W row
  -- the convolution over the rows that the layer projects
  have channels : 0 < cfg.linearConvChannels := lt_of_lt_of_eq (by decide) supported.channels.symm
  have raws : rowsOf cfg.linearConvChannels seqLen qkvRaw =
      (rowsOf cfg.hiddenSize seqLen m.bufs.actX).map kernel.raw := by
    unfold rowsOf
    rw [List.map_map]
    exact List.map_congr_left fun t member => project w.inProjQkv _ t (List.mem_range.1 member)
  have convs := causalConv1dSilu_rows M.kernelConfig weights w channels some' qkvRaw (m.storage.convState linearIdx)
  rw [raws] at convs
  have carried : convOf cfg.linearConvChannels conv.2 = _ := convs.1
  have windows : rowsOf cfg.linearConvChannels seqLen conv.1 = _ := convs.2
  -- the recurrence over what the convolution leaves
  obtain ⟨states, outputs⟩ := recurrentGatedDeltaNet_rows w supported some' conv.1 z b a
    (m.storage.linearState linearIdx) zeroLinear
  let inp : Inputs ℝ :=
    ⟨elements conv.1, elements z, elements b, elements a, w.aLog.values, w.dtBias.values, w.normWeight.values⟩
  have same : ∀ t < seqLen, SameToken inp t (tokenInputs cfg weights w (x t)
      (rowOf cfg.linearConvChannels (elements conv.1) t)) 0 := fun t row =>
    { qkv := single_token supported.channels rfl
      z := single_token supported.gate (project w.inProjZ _ t row)
      b := single_token supported.rates.1 (project w.inProjB _ t row)
      a := single_token supported.rates.2 (project w.inProjA _ t row)
      weights := ⟨rfl, rfl, rfl⟩ }
  have scanned := recurrence_scan weights w supported same (loadState zeroLinear (elements (m.storage.linearState linearIdx)))
  rw [start_state] at scanned
  have inputs : (rowsOf cfg.hiddenSize seqLen m.bufs.actX).zip (rowsOf cfg.linearConvChannels seqLen conv.1) =
      (List.range seqLen).map fun t => (x t, rowOf cfg.linearConvChannels (elements conv.1) t) := List.zip_map' ..
  have nonempty : (List.range seqLen).map (fun t => (x t, rowOf cfg.linearConvChannels (elements conv.1) t)) ≠ [] := by
    rw [Ne, List.map_eq_nil_iff, List.range_eq_nil]
    omega
  have batch : done = (⟨convOf cfg.linearConvChannels conv.2, deltaOf delta.2⟩, (List.range seqLen).map fun t =>
      closeRow cfg weights (x t) (projectRow w.outProj cfg.hiddenSize (rowOf cfg.linearZDim (elements delta.1) t))) := by
    dsimp only [done, LinearKernel.batch, layerState]
    rw [← carried, ← windows, inputs, LinearKernel.recurrentGatedDeltaNet, if_neg nonempty, scanned, ← states]
    refine Prod.ext rfl (List.map_congr_left fun t member => ?_)
    rw [outputs t (List.mem_range.1 member)]
  obtain ⟨closed, ended, sums⟩ := closing_rows seqLen supported weights attended
  rw [forwardLayer_parts, parts, ended, batch]
  constructor
  · rfl
  · refine List.map_congr_left fun t member => ?_
    have row := List.mem_range.1 member
    have filled : 0 < cfg.linearZDim := lt_of_lt_of_eq (by decide) supported.gate.symm
    refine (sums t row).trans (congrArg (closeRow cfg weights (x t)) ?_)
    exact linearInt4_row M.kernelConfig filled delta.1 w.outProj row
  · dsimp only [layerState, attended]
    rw [Function.update_self, Function.update_self]
  · intro layer other
    dsimp only [layerState, attended]
    rw [Function.update_of_ne other, Function.update_of_ne other]
  · exact ⟨rfl, rfl⟩

end Submissions

end XInfer.LinearLayers
