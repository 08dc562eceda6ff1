import XInfer.LayerSlots
import XInfer.NumberText

/-!
The checks of `LoadedModel::load_from_artifact` on the metadata, in `targets/qwen3_8_27b/weights.cpp`: what
they refuse, what leaves them as an exception, and the configuration that loading goes on with. The three
lambdas answer the message of a refusal, or `none`. The texts that the library puts into its exceptions,
and its choice to report an underflow, are parameters.
-/

namespace XInfer.MetadataChecks

open Primitives ByteString NumberText FloatFormat
open MetadataJson (ArtifactMetadata)
open LayerSlots (TargetConfig)

/-- `ModelConfig`, as far as the checks compare it. -/
structure LoadConfig extends TargetConfig where
  linearNumKHeads : Nat
  rmsNormEps : Rat
  ropeTheta : Rat
  hasVision : Bool
  visionWidth : Int
  visionLayers : Int
  visionHeads : Int
  visionMlpRatio : Int
  visionPatchSize : Int
  maxImageResolution : Int

/-- The values that the fields are declared with. -/
def LoadConfig.defaults : LoadConfig where
  toModelConfig := ModelConfig.defaults
  numHiddenLayers := 64
  numHiddenLayers_lt := by decide
  groupSize := 128
  linearConvKernelDim := 4
  linearNumVHeads := 48
  linearHeadKDim := 128
  linearHeadVDim := 128
  linearNormDim := 128
  fullAttentionInterval := 4
  layerTypes := []
  quantScheme := []
  isInt8KV := false
  linearNumKHeads := 16
  rmsNormEps := nearest binary32 (1 / 10 ^ 6)
  ropeTheta := 10000000
  hasVision := false
  visionWidth := 1024
  visionLayers := 24
  visionHeads := 16
  visionMlpRatio := 4
  visionPatchSize := 14
  maxImageResolution := 1024

inductive Rejection where
  | threw (failure : ParseFailure)
  -- a null model with a message
  | refused (message : Bytes)
  deriving DecidableEq

def declared (metadata : ArtifactMetadata) (key : Bytes) : Option Bytes := metadata.properties.entries.lookup key

/-- Either of two fields decides on the INT8 cache. -/
def declaresInt8KV (metadata : ArtifactMetadata) : Bool :=
  decide (Contains (ascii "INT8-KV") metadata.quantScheme) ||
    declared metadata (ascii "kv_quant_scheme") == some (ascii "INT8-KV")

section Group

/-- What stands between `INT4-G` and the next `-SYM`. -/
def groupText (quantScheme : Bytes) : Option Bytes :=
  if startsWith quantScheme (ascii "INT4-G") then
    (findFrom (ascii "-SYM") quantScheme 6).map fun endPos => substr quantScheme 6 (endPos - 6)
  else none

def groupMismatch (quantScheme : Bytes) (parsed : Int) (groupSize : Nat) : Bytes :=
  ascii "Artifact metadata quant_scheme mismatch: artifact specifies group_size " ++ signedDecimal parsed ++
    ascii " (" ++ quantScheme ++ ascii "), but model config expected " ++ decimal groupSize

/-- The conversion stands in no `try`. -/
def checkGroup (quantScheme : Bytes) (groupSize : Nat) : Except Rejection Unit :=
  match groupText quantScheme with
  | none => .ok ()
  | some text =>
      match stoi text with
      | .error failure => .error (.threw failure)
      | .ok parsed =>
          if parsed ≠ groupSize then .error (.refused (groupMismatch quantScheme parsed groupSize)) else .ok ()

end Group

section Lambdas

variable (reportsUnderflow : Rat → Bool) (what : Bytes → ParseFailure → Bytes) (metadata : ArtifactMetadata)

def missing (key : Bytes) : Bytes := ascii "Artifact metadata is missing required property '" ++ key ++ ascii "'"

def malformed (key : Bytes) (what : Bytes) : Bytes :=
  ascii "Artifact metadata property '" ++ key ++ ascii "' is malformed: " ++ what

def mismatch (key expected actual : Bytes) : Bytes :=
  ascii "Artifact metadata property mismatch for '" ++ key ++ ascii "': expected " ++ expected ++ ascii ", got " ++ actual

/-- The comparison that `validate_int_prop` and `validate_optional_int_prop` share. -/
def compareInt (key : Bytes) (expected : Int) (text : Bytes) : Option Bytes :=
  match stoll text with
  | .error failure => some (malformed key (what (ascii "stoll") failure))
  | .ok actual =>
      if actual ≠ expected then some (mismatch key (signedDecimal expected) (signedDecimal actual)) else none

def validateIntProp (prop : Bytes × Int) : Option Bytes :=
  match declared metadata prop.1 with
  | none => some (missing prop.1)
  | some text => if text = [] then some (missing prop.1) else compareInt what prop.1 prop.2 text

def validateOptionalIntProp (prop : Bytes × Int) : Option Bytes :=
  match declared metadata prop.1 with
  | none => none
  | some text => if text = [] then none else compareInt what prop.1 prop.2 text

/-- `std::abs(actual - expected) > tol`, false of no number. -/
def exceeds (actual : FloatValue) (expected tol : Rat) : Bool :=
  match actual with
  | .finite value => decide (tol < |nearest binary32 (value - expected)|)
  | .infinite _ => true
  | .notANumber => false

def validateFloatProp (key : Bytes) (expected tol : Rat) : Option Bytes :=
  match declared metadata key with
  | none => some (missing key)
  | some text =>
      if text = [] then some (missing key)
      else match stof reportsUnderflow text with
        | .error failure => some (malformed key (what (ascii "stof") failure))
        | .ok actual =>
            if exceeds actual expected tol then some (mismatch key (fixedSix expected) (floatText actual)) else none

end Lambdas

section Properties

variable (cfg : LoadConfig)

def requiredInts : List (Bytes × Int) :=
  [(ascii "hidden_size", cfg.hiddenSize), (ascii "intermediate_size", cfg.intermediateSize),
   (ascii "num_hidden_layers", cfg.numHiddenLayers), (ascii "num_attention_heads", cfg.numAttentionHeads),
   (ascii "num_key_value_heads", cfg.numKeyValueHeads), (ascii "head_dim", cfg.headDim),
   (ascii "vocab_size", cfg.vocabSize)]

def intervalKey : Bytes := ascii "full_attention_interval"

def linearInts : List (Bytes × Int) :=
  [(ascii "linear_conv_channels", cfg.linearConvChannels), (ascii "linear_conv_kernel_dim", cfg.linearConvKernelDim),
   (ascii "linear_num_v_heads", cfg.linearNumVHeads), (ascii "linear_num_k_heads", cfg.linearNumKHeads),
   (ascii "linear_head_k_dim", cfg.linearHeadKDim), (ascii "linear_head_v_dim", cfg.linearHeadVDim),
   (ascii "linear_z_dim", cfg.linearZDim)]

def visionInts : List (Bytes × Int) :=
  [(ascii "vision_width", cfg.visionWidth), (ascii "vision_layers", cfg.visionLayers),
   (ascii "vision_heads", cfg.visionHeads), (ascii "vision_mlp_ratio", cfg.visionMlpRatio),
   (ascii "vision_patch_size", cfg.visionPatchSize), (ascii "patches_per_image", cfg.patchesPerImage),
   (ascii "max_image_resolution", cfg.maxImageResolution), (ascii "visual_token_start", cfg.visualTokenStart),
   (ascii "visual_token_end", cfg.visualTokenEnd), (ascii "image_pad_token_id", cfg.imagePadTokenId)]

end Properties

section Checks

variable (reportsUnderflow : Rat → Bool) (what : Bytes → ParseFailure → Bytes) (metadata : ArtifactMetadata)

def readInterval : Except Rejection Int :=
  match declared metadata intervalKey with
  | none => .error (.refused (missing intervalKey))
  | some text =>
      if text = [] then .error (.refused (missing intervalKey))
      else match stoll text with
        | .error failure => .error (.refused (malformed intervalKey (what (ascii "stoll") failure)))
        | .ok parsed =>
            if parsed ≤ 0 then .error (.refused (ascii "Artifact metadata property 'full_attention_interval' must be positive, got " ++
              signedDecimal parsed))
            else .ok parsed

/-- A row of checks joined by `||`: the first that fails refuses. -/
def refuseFirst (answers : List (Option Bytes)) : Except Rejection Unit :=
  match answers.findSome? id with
  | some message => .error (.refused message)
  | none => .ok ()

def requiredAnswers (cfg : LoadConfig) : List (Option Bytes) :=
  (requiredInts cfg).map (validateIntProp what metadata) ++
    [validateFloatProp reportsUnderflow what metadata (ascii "rms_norm_eps") cfg.rmsNormEps (nearest binary32 (1 / 10 ^ 7)),
     validateFloatProp reportsUnderflow what metadata (ascii "rope_theta") cfg.ropeTheta 1,
     validateIntProp what metadata (intervalKey, cfg.fullAttentionInterval)]

/-- The configuration, and the message that `error_msg` is left with. The answers for the vision fields
are not looked at. -/
def checkMetadata : Except Rejection (LoadConfig × Option Bytes) := do
  let cfg := { LoadConfig.defaults with quantScheme := metadata.quantScheme, isInt8KV := declaresInt8KV metadata }
  checkGroup metadata.quantScheme cfg.groupSize
  let interval ← readInterval what metadata
  let cfg := { cfg with fullAttentionInterval := interval }
  refuseFirst (requiredAnswers reportsUnderflow what metadata cfg)
  refuseFirst ((linearInts cfg).map (validateOptionalIntProp what metadata))
  let hasVision := declared metadata (ascii "has_vision")
  let cfg := { cfg with hasVision := hasVision == some (ascii "true") || hasVision == some (ascii "1") }
  let reported := (visionInts cfg).filterMap (validateOptionalIntProp what metadata)
  return (cfg, reported.getLast?)

end Checks

end XInfer.MetadataChecks
