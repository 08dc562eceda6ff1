import XInfer.CausalConv
import XInfer.DecodePass
import XInfer.Elementwise
import XInfer.GatedDeltaNet
import XInfer.Int4Kernels
import XInfer.RmsNorm
import XInfer.Rope

/-!
The kernels that `forward_layer` and `forward_lm_head` of `targets/qwen3_8/forward.cpp` submit, in exact arithmetic,
as the operations of a pass. Every one of them fills its output, so it does not matter what a buffer held before.
-/

namespace XInfer.LayerKernels

open AttentionKernels DecodePass GatedDeltaNet Launches WorkGroups
open DeviceExp (exp)
open DeviceLiteral (literal)

/-- Weights in device memory: vectors of `float`, or packed integers with their scales. -/
inductive DeviceWeight where
  | fp32 (values : Nat → ℝ)
  | int4 (wInt4 : Nat → UInt8) (scales : Nat → ℝ)

namespace DeviceWeight

def values : DeviceWeight → Nat → ℝ
  | fp32 values => values
  | int4 _ scales => scales

/-- Every call passes a null pointer for the bias. -/
def packed : DeviceWeight → Int4Kernels.Weights ℝ
  | fp32 values => ⟨fun _ => 0, values, none⟩
  | int4 wInt4 scales => ⟨wInt4, scales, none⟩

end DeviceWeight

/-- The fields of the configuration that only kernels ask for. -/
structure KernelConfig where
  ropeTheta : ℝ
  ropeDim : Nat
  linearShape : Shape

/-- The default of `eps`. -/
noncomputable def normEps : ℝ := literal 1 6

/-- The group size that the projections default to. -/
def groupSize : Nat := 128

/-- What a kernel leaves in a buffer of its own. -/
noncomputable def filled (size : Nat) (kernel : (Nat → ℝ) → Nat → ℝ) : List ℝ := overwrite size kernel []

/-- The gate is the other half of the query's row: `attn_out *= sigmoid(gate)`. -/
noncomputable def gateItem (attnOut qGate : Nat → ℝ) (numQHeads headDim item : Nat) : List (Nat × ℝ) :=
  let t := item / numQHeads
  let h := item % numQHeads
  let qGateDim := numQHeads * headDim * 2
  (List.range headDim).map fun d =>
    let gateVal := qGate (t * qGateDim + (h * 2 * headDim + (headDim + d)))
    let sig := 1 / (1 + exp (-gateVal))
    ((t * numQHeads + h) * headDim + d, attnOut ((t * numQHeads + h) * headDim + d) * sig)

/-- The two sides of `rope`. -/
noncomputable def ropeMemory (q k : List ℝ) : Rope.Memory ℝ
  | (.q, i) => elements q i
  | (.k, i) => elements k i

variable (kc : KernelConfig)

noncomputable def kernels : Operations ℝ DeviceWeight where
  rmsnorm input weight rows dim :=
    filled (rows * dim) fun out => RmsNorm.rmsnormImpl id weight.values dim normEps out (elements input) rows
  linearInt4 X W M N K := filled (M * N) (storeAll (Int4Kernels.linearInt4 (elements X) W.packed K groupSize M N))
  rope q k numTokens numQHeads numKVHeads headDim positions :=
    let after := Rope.ropeImpl id (ropeMemory q k) (fun t => positions.getD t 0) kc.ropeTheta true true numTokens numQHeads
      numKVHeads headDim kc.ropeDim
    (filled (numTokens * (numQHeads * headDim)) fun _ i => after (.q, i),
      filled (numTokens * (numKVHeads * headDim)) fun _ i => after (.k, i))
  gateOutput attnOut qGate seqLen numQHeads headDim :=
    filled (seqLen * (numQHeads * headDim)) fun _ =>
      launch (seqLen * numQHeads) (gateItem (elements attnOut) (elements qGate) numQHeads headDim) (elements attnOut)
  causalConv1dSilu inQkv convW seqLen convState numChannels :=
    let kernel := CausalConv.causalConv1dSilu Real.exp convW.values numChannels (elements inQkv) seqLen
      (some (elements convState)) (elements [])
    match kernel with
    | .ok (out, some state) =>
        (filled (seqLen * numChannels) fun _ => out, filled (3 * numChannels) fun _ => state)
    | _ => ([], convState)
  recurrentGatedDeltaNet qkv z b a aLog dtBias normWeight state seqLen zeroState :=
    let inp : Inputs ℝ := ⟨elements qkv, elements z, elements b, elements a, aLog.values, dtBias.values, normWeight.values⟩
    match recurrentGatedDeltaNetImpl id inp (elements []) (elements state) seqLen zeroState kc.linearShape with
    | .ok (out, after) =>
        (filled (seqLen * valueDim) fun _ => out, filled (GatedDeltaNet.numVHeads * (headKDim * headVDim)) fun _ => after)
    | .error _ => ([], state)
  addInplace x y size := filled size fun _ => Elementwise.addInplace Elementwise.HALF_VEC id size (elements x) (elements y)
  mlpGateUpSwigluInt4 X gate up M N K :=
    filled (M * N) (storeAll (Int4Kernels.mlpGateUpSwigluInt4 (elements X) K groupSize Real.exp gate.packed up.packed M N))

/-- A loaded model with the kernels that run it. -/
structure LoadedModel where
  config : ModelConfig
  kernelConfig : KernelConfig
  isInt8 : Bool
  embedTokens : Nat → ℝ
  layers : List (LayerWeights DeviceWeight)
  finalNorm : DeviceWeight
  lmHead : DeviceWeight

noncomputable def LoadedModel.target (M : LoadedModel) : Target ℝ DeviceWeight where
  config := M.config
  isInt8 := M.isInt8
  ops := kernels M.kernelConfig
  embedTokens := M.embedTokens
  layers := M.layers
  finalNorm := M.finalNorm
  lmHead := M.lmHead

/-- What the kernels ask of the configuration. -/
structure LoadedModel.Supported (M : LoadedModel) : Prop where
  hidden : 0 < M.config.hiddenSize
  intermediate : 0 < M.config.intermediateSize
  queryHeads : 0 < M.config.numAttentionHeads
  headDim : 0 < M.config.headDim
  lanes : SG_SIZE ∣ M.config.headDim
  grouped : M.config.numKeyValueHeads ∣ M.config.numAttentionHeads
  theta : 0 < M.kernelConfig.ropeTheta
  rotary : 0 < M.kernelConfig.ropeDim ∧ M.kernelConfig.ropeDim ≤ M.config.headDim
  linearShape : M.kernelConfig.linearShape = compiled
  channels : M.config.linearConvChannels = totalChannels
  gate : M.config.linearZDim = valueDim
  rates : M.config.linearBDim = GatedDeltaNet.numVHeads ∧ M.config.linearADim = GatedDeltaNet.numVHeads

end XInfer.LayerKernels
