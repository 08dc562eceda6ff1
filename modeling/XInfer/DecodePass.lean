import XInfer.Argmax
import XInfer.DynamicKernels
import XInfer.ModelConfig

/-!
A pass as the submissions it makes: `embed_tokens_lookup`, `forward_layer` for each layer and `forward_lm_head` of
`targets/qwen3_8/forward.cpp`. Which ones they are is decided on the host, so a queue may run them at once or a
graph may record them. A buffer is the list of its elements; operations that do not ask for the position are
functions from the buffers they read to those they fill.
-/

namespace XInfer.DecodePass

open AttentionKernels Launches
open DeviceFloat (half)

variable {F Weight : Type}

structure LayerActivationBuffers (F : Type) where
  actX : List F
  actNormed : List F
  actProjOut : List F
  actMlpGate : List F
  actQGate : List F
  actQ : List F
  actK : List F
  actV : List F
  actAttnOut : List F
  actQkvRaw : List F
  actQkvConv : List F
  actZ : List F
  actB : List F
  actA : List F
  actDeltaOut : List F

/-- The storage of a `KVCache`, by the index of the layer. -/
structure Storage (F : Type) where
  half : Nat → KVBuffers F
  int8 : Nat → Int8Buffers F
  convState : Nat → List F
  linearState : Nat → List F

structure DeviceMemory (F : Type) where
  tokenIds : Nat → Int
  positions : Nat → Int
  bufs : LayerActivationBuffers F
  logits : List F
  storage : Storage F

abbrev Submission (F : Type) : Type := DeviceMemory F → DeviceMemory F

/-- Submissions in their order. -/
def run (submissions : List (Submission F)) (memory : DeviceMemory F) : DeviceMemory F :=
  submissions.foldl (fun memory submission => submission memory) memory

/-- `linear_int4_fused` is one of these for each of its projections. -/
structure Operations (F Weight : Type) where
  rmsnorm : (input : List F) → (weight : Weight) → (rows dim : Nat) → List F
  linearInt4 : (X : List F) → (W : Weight) → (M N K : Nat) → List F
  rope : (q k : List F) → (numTokens numQHeads numKVHeads headDim : Nat) → (positions : List Int) → List F × List F
  gateOutput : (attnOut qGate : List F) → (seqLen numQHeads headDim : Nat) → List F
  causalConv1dSilu : (inQkv : List F) → (convW : Weight) → (seqLen : Nat) → (convState : List F) →
    (numChannels : Nat) → List F × List F
  recurrentGatedDeltaNet : (qkv z b a : List F) → (aLog dtBias normWeight : Weight) → (state : List F) → (seqLen : Nat) →
    (zeroState : Bool) → List F × List F
  addInplace : (x y : List F) → (size : Nat) → List F
  mlpGateUpSwigluInt4 : (X : List F) → (gate up : Weight) → (M N K : Nat) → List F

inductive AttentionWeights (Weight : Type) where
  | full (qProj kProj vProj qNorm kNorm oProj : Weight)
  | linear (inProjQkv inProjZ inProjB inProjA conv1dWeight aLog dtBias normWeight outProj : Weight)

structure LayerWeights (Weight : Type) where
  inputLayernorm : Weight
  attention : AttentionWeights Weight
  postAttentionLayernorm : Weight
  gateProj : Weight
  upProj : Weight
  downProj : Weight

/-- A loaded model and what its kernels compute. -/
structure Target (F Weight : Type) where
  config : ModelConfig
  isInt8 : Bool
  ops : Operations F Weight
  embedTokens : Nat → F
  layers : List (LayerWeights Weight)
  finalNorm : Weight
  lmHead : Weight

section Submissions

variable [DeviceExp F] (T : Target F Weight) (maxSeqLen : Nat)

def elements (buffer : List F) : Nat → F := fun i => buffer.getD i 0

/-- What a kernel makes of a buffer of `size` elements. -/
def overwrite (size : Nat) (kernel : (Nat → F) → Nat → F) (buffer : List F) : List F :=
  (List.range size).map (kernel (elements buffer))

def onBuffers (change : LayerActivationBuffers F → LayerActivationBuffers F) : Submission F := fun m =>
  { m with bufs := change m.bufs }

/-- A token outside the vocabulary has a row of zeros. No image is given in decoding. -/
def embedTokensLookup (numTokens : Nat) : Submission F := fun m =>
  let hiddenSize := T.config.hiddenSize
  let element := fun item =>
    let t := item / hiddenSize
    let d := item % hiddenSize
    let tokenId := m.tokenIds t
    if tokenId < 0 ∨ (0 < T.config.vocabSize ∧ T.config.vocabSize ≤ tokenId) then [(t * hiddenSize + d, 0)]
    else [(t * hiddenSize + d, T.embedTokens (tokenId.toNat * hiddenSize + d))]
  { m with bufs := { m.bufs with
    actX := overwrite (numTokens * hiddenSize) (launch (numTokens * hiddenSize) element) m.bufs.actX } }

/-- The halves of the rows of `act_q_gate` that are the queries. -/
def extractQuery (seqLen : Nat) : Submission F := fun m =>
  let numQHeads := T.config.numAttentionHeads
  let headDim := T.config.headDim
  let item := fun item =>
    let t := item / numQHeads
    let h := item % numQHeads
    (List.range headDim).map fun d => ((t * numQHeads + h) * headDim + d,
      elements m.bufs.actQGate (t * T.config.fullQGateDim + h * 2 * headDim + d))
  { m with bufs := { m.bufs with
    actQ := overwrite (seqLen * T.config.fullQDim) (launch (seqLen * numQHeads) item) m.bufs.actQ } }

def rope (seqLen : Nat) : Submission F := fun m =>
  let rotated := T.ops.rope m.bufs.actQ m.bufs.actK seqLen T.config.numAttentionHeads T.config.numKeyValueHeads
    T.config.headDim ((List.range seqLen).map m.positions)
  { m with bufs := { m.bufs with actQ := rotated.1, actK := rotated.2 } }

/-- `d_dynamic_pos` is null or `d_positions`. -/
def writeKvCache (fullIdx seqLen : Nat) (startPos : Int) (dynamicPos : Bool) : Submission F := fun m =>
  let K := elements m.bufs.actK
  let V := elements m.bufs.actV
  let numKVHeads := T.config.numKeyValueHeads
  let headDim := T.config.headDim
  if T.isInt8 then
    let caches := m.storage.int8 fullIdx
    let after := if dynamicPos
      then attentionWriteKvCacheInt8Dynamic caches K V m.positions seqLen numKVHeads headDim maxSeqLen
      else attentionWriteKvCacheInt8 caches K V startPos seqLen numKVHeads headDim maxSeqLen
    { m with storage := { m.storage with int8 := Function.update m.storage.int8 fullIdx after } }
  else
    let caches := m.storage.half fullIdx
    let after := if dynamicPos
      then attentionWriteKvCacheDynamic caches K V m.positions seqLen numKVHeads headDim maxSeqLen
      else attentionWriteKvCache caches K V startPos seqLen numKVHeads headDim maxSeqLen
    { m with storage := { m.storage with half := Function.update m.storage.half fullIdx after } }

def sdpaCausal (fullIdx seqLen : Nat) (startPos : Int) (dynamicPos : Bool) : Submission F := fun m =>
  let Q := elements m.bufs.actQ
  let numQHeads := T.config.numAttentionHeads
  let numKVHeads := T.config.numKeyValueHeads
  let headDim := T.config.headDim
  let kernel := fun out =>
    if T.isInt8 then
      let caches := m.storage.int8 fullIdx
      if dynamicPos then
        sdpaCausalCachedInt8Dynamic half out Q caches m.positions seqLen numQHeads numKVHeads headDim 0 maxSeqLen
      else sdpaCausalCachedInt8 half out Q caches startPos seqLen numQHeads numKVHeads headDim 0 maxSeqLen
    else
      let caches := m.storage.half fullIdx
      if dynamicPos then
        sdpaCausalCachedDynamic half out Q caches m.positions seqLen numQHeads numKVHeads headDim 0 maxSeqLen
      else sdpaCausalCached half out Q caches startPos seqLen numQHeads numKVHeads headDim 0 maxSeqLen
  { m with bufs := { m.bufs with actAttnOut := overwrite (seqLen * T.config.fullOutDim) kernel m.bufs.actAttnOut } }

/-- The attention of a layer, and the indices for the next one. -/
def attentionSubmissions (weights : AttentionWeights Weight) (fullIdx linearIdx seqLen : Nat) (startPos : Int)
    (dynamicPos zeroLinearState : Bool) : List (Submission F) :=
  let cfg := T.config
  match weights with
  | .full qProj kProj vProj qNorm kNorm oProj =>
      [onBuffers fun b => { b with
          actQGate := T.ops.linearInt4 b.actNormed qProj seqLen cfg.fullQGateDim cfg.hiddenSize
          actK := T.ops.linearInt4 b.actNormed kProj seqLen cfg.fullKDim cfg.hiddenSize
          actV := T.ops.linearInt4 b.actNormed vProj seqLen cfg.fullVDim cfg.hiddenSize },
        extractQuery T seqLen,
        onBuffers fun b => { b with
          actQ := T.ops.rmsnorm b.actQ qNorm (seqLen * cfg.numAttentionHeads) cfg.headDim },
        onBuffers fun b => { b with
          actK := T.ops.rmsnorm b.actK kNorm (seqLen * cfg.numKeyValueHeads) cfg.headDim },
        rope T seqLen,
        writeKvCache T maxSeqLen fullIdx seqLen startPos dynamicPos,
        sdpaCausal T maxSeqLen fullIdx seqLen startPos dynamicPos,
        onBuffers fun b => { b with
          actAttnOut := T.ops.gateOutput b.actAttnOut b.actQGate seqLen cfg.numAttentionHeads cfg.headDim },
        onBuffers fun b => { b with
          actProjOut := T.ops.linearInt4 b.actAttnOut oProj seqLen cfg.hiddenSize cfg.fullOutDim }]
  | .linear inProjQkv inProjZ inProjB inProjA conv1dWeight aLog dtBias normWeight outProj =>
      [onBuffers fun b => { b with
          actQkvRaw := T.ops.linearInt4 b.actNormed inProjQkv seqLen cfg.linearConvChannels cfg.hiddenSize
          actZ := T.ops.linearInt4 b.actNormed inProjZ seqLen cfg.linearZDim cfg.hiddenSize
          actB := T.ops.linearInt4 b.actNormed inProjB seqLen cfg.linearBDim cfg.hiddenSize
          actA := T.ops.linearInt4 b.actNormed inProjA seqLen cfg.linearADim cfg.hiddenSize },
        fun m =>
          let done := T.ops.causalConv1dSilu m.bufs.actQkvRaw conv1dWeight seqLen (m.storage.convState linearIdx)
            cfg.linearConvChannels
          { m with
            bufs := { m.bufs with actQkvConv := done.1 }
            storage := { m.storage with convState := Function.update m.storage.convState linearIdx done.2 } },
        fun m =>
          let done := T.ops.recurrentGatedDeltaNet m.bufs.actQkvConv m.bufs.actZ m.bufs.actB m.bufs.actA aLog dtBias
            normWeight (m.storage.linearState linearIdx) seqLen zeroLinearState
          { m with
            bufs := { m.bufs with actDeltaOut := done.1 }
            storage := { m.storage with linearState := Function.update m.storage.linearState linearIdx done.2 } },
        onBuffers fun b => { b with
          actProjOut := T.ops.linearInt4 b.actDeltaOut outProj seqLen cfg.hiddenSize cfg.linearZDim }]

def forwardLayer (weights : LayerWeights Weight) (fullIdx linearIdx seqLen : Nat) (startPos : Int)
    (dynamicPos zeroLinearState : Bool) : List (Submission F) :=
  let cfg := T.config
  [onBuffers fun b => { b with actNormed := T.ops.rmsnorm b.actX weights.inputLayernorm seqLen cfg.hiddenSize }] ++
    attentionSubmissions T maxSeqLen weights.attention fullIdx linearIdx seqLen startPos dynamicPos zeroLinearState ++
    [onBuffers fun b => { b with actX := T.ops.addInplace b.actX b.actProjOut (seqLen * cfg.hiddenSize) },
      onBuffers fun b => { b with
        actNormed := T.ops.rmsnorm b.actX weights.postAttentionLayernorm seqLen cfg.hiddenSize },
      onBuffers fun b => { b with
        actMlpGate := T.ops.mlpGateUpSwigluInt4 b.actNormed weights.gateProj weights.upProj seqLen
          cfg.intermediateSize cfg.hiddenSize },
      onBuffers fun b => { b with
        actProjOut := T.ops.linearInt4 b.actMlpGate weights.downProj seqLen cfg.hiddenSize cfg.intermediateSize },
      onBuffers fun b => { b with actX := T.ops.addInplace b.actX b.actProjOut (seqLen * cfg.hiddenSize) }]

/-- The loop over the layers, with the indices that it counts. -/
def forwardLayers (seqLen : Nat) (startPos : Int) (dynamicPos zeroLinearState : Bool) :
    List (LayerWeights Weight) → (fullIdx linearIdx : Nat) → List (Submission F)
  | [], _, _ => []
  | weights :: rest, fullIdx, linearIdx =>
      let next : Nat × Nat := match weights.attention with
        | .full .. => (fullIdx + 1, linearIdx)
        | .linear .. => (fullIdx, linearIdx + 1)
      forwardLayer T maxSeqLen weights fullIdx linearIdx seqLen startPos dynamicPos zeroLinearState ++
        forwardLayers seqLen startPos dynamicPos zeroLinearState rest next.1 next.2

/-- The head looks at the last row; its norm goes to the first row of `act_normed`. -/
def forwardLmHead (seqLen : Nat) : Submission F := fun m =>
  let hiddenSize := T.config.hiddenSize
  let normed := T.ops.rmsnorm (m.bufs.actX.drop ((seqLen - 1) * hiddenSize)) T.finalNorm 1 hiddenSize
  { m with
    bufs := { m.bufs with actNormed := normed ++ m.bufs.actNormed.drop hiddenSize }
    logits := T.ops.linearInt4 normed T.lmHead 1 T.config.vocabSize.toNat hiddenSize }

/-- A pass that asks for the logits of its last row. -/
def passSubmissions (seqLen : Nat) (startPos : Int) (dynamicPos zeroLinearState : Bool) : List (Submission F) :=
  [embedTokensLookup T seqLen] ++
    forwardLayers T maxSeqLen seqLen startPos dynamicPos zeroLinearState T.layers 0 0 ++ [forwardLmHead T seqLen]

end Submissions

end XInfer.DecodePass
