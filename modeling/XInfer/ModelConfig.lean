import XInfer.Primitives

/-!
`ModelConfig` of `targets/qwen3_8_27b/weights.h`: the dimensions that size the
activation buffers, the vocabulary, and the declared visual token range. Fields
that no modelled function reads (rope, norm and ViT parameters, layer types) are
left out.
-/

namespace XInfer

structure ModelConfig where
  hiddenSize : Nat
  intermediateSize : Nat
  numAttentionHeads : Nat
  numKeyValueHeads : Nat
  headDim : Nat
  vocabSize : Int
  linearConvChannels : Nat
  linearZDim : Nat
  linearBDim : Nat
  linearADim : Nat
  patchesPerImage : Int
  visualTokenStart : Int
  visualTokenEnd : Int
  imagePadTokenId : Int
  deriving DecidableEq

namespace ModelConfig

/-- The values that `ModelConfig` declares for its fields. -/
def defaults : ModelConfig where
  hiddenSize := 5120
  intermediateSize := 17408
  numAttentionHeads := 24
  numKeyValueHeads := 4
  headDim := 256
  vocabSize := 248320
  linearConvChannels := 10240
  linearZDim := 6144
  linearBDim := 48
  linearADim := 48
  patchesPerImage := 256
  visualTokenStart := 248000
  visualTokenEnd := 248319
  imagePadTokenId := 248064

def fullQGateDim (cfg : ModelConfig) : Nat := cfg.numAttentionHeads * cfg.headDim * 2
def fullQDim (cfg : ModelConfig) : Nat := cfg.numAttentionHeads * cfg.headDim
def fullKDim (cfg : ModelConfig) : Nat := cfg.numKeyValueHeads * cfg.headDim
def fullVDim (cfg : ModelConfig) : Nat := cfg.numKeyValueHeads * cfg.headDim
def fullOutDim (cfg : ModelConfig) : Nat := cfg.numAttentionHeads * cfg.headDim

/-- Bytes of one row of `float` logits. -/
def logitsBytes (cfg : ModelConfig) : Nat := cfg.vocabSize.toNat * 4

/-- A token the embedding table and the range checks accept. -/
def InVocab (cfg : ModelConfig) (token : Int) : Prop := 0 ≤ token ∧ token < cfg.vocabSize

instance (cfg : ModelConfig) (token : Int) : Decidable (cfg.InVocab token) :=
  inferInstanceAs (Decidable (_ ∧ _))

/-- The fifteen activation buffers of one forward pass over `n` tokens, two bytes
an element, in the order of `forward_chunk` and of `forward_verify`. -/
def activationBytes (cfg : ModelConfig) (n : Nat) : List Nat :=
  [n * cfg.hiddenSize * 2, n * cfg.hiddenSize * 2, n * cfg.hiddenSize * 2,
   n * cfg.intermediateSize * 2,
   n * cfg.fullQGateDim * 2, n * cfg.fullQDim * 2, n * cfg.fullKDim * 2, n * cfg.fullVDim * 2,
   n * cfg.fullOutDim * 2,
   n * cfg.linearConvChannels * 2, n * cfg.linearConvChannels * 2,
   n * cfg.linearZDim * 2, n * cfg.linearBDim * 2, n * cfg.linearADim * 2, n * cfg.linearZDim * 2]

end ModelConfig

end XInfer
