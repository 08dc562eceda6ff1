import XInfer.AcceptedMetadata
import XInfer.KVCacheStorage

/-!
The INT8 cache between two places: `load_from_artifact` takes either of two fields of the metadata for a
declaration, and hands on one of them; `KVCache::init` looks at that one.
-/

namespace XInfer.KVCacheGate

open Primitives ByteString NumberText MetadataChecks AcceptedMetadata
open MetadataJson (ArtifactMetadata)
open LayerSlots (TargetConfig LoadM loadLayers Loading LayerWeights)
open StateException

variable {reportsUnderflow : Rat → Bool} {what : Bytes → ParseFailure → Bytes} {metadata : ArtifactMetadata}

/-- The configuration of a loaded model: what the checks let through, and the types of the layers. -/
def loadedConfig (cfg : LoadConfig) (layerTypes : List Bytes) : TargetConfig :=
  { cfg.toTargetConfig with layerTypes := layerTypes }

theorem loadLayers_config {grants : List Nat → Bool} {cfg : LoadConfig} {cfg' : TargetConfig} {s after : Loading}
    {layers : List LayerWeights} (done : loadLayers grants cfg.toTargetConfig s = .ok (cfg', layers) after) :
    cfg' = loadedConfig cfg cfg'.layerTypes := by
  unfold loadLayers at done
  obtain ⟨reader, s₁, -, done⟩ := bind_ok done
  cases listed : LayerSlots.metaLayerTypes cfg.toTargetConfig reader.metadata with
  | error message =>
      rw [listed] at done
      cases done
  | ok metaTypes =>
      rw [listed] at done
      obtain ⟨loaded, s₂, -, done⟩ := bind_ok done
      cases done
      rfl

/-- Where the loader decides on INT8 the cache opens as INT8, and else it is FP16. -/
def GateAgrees (reportsUnderflow : Rat → Bool) (what : Bytes → ParseFailure → Bytes) (metadata : ArtifactMetadata) :
    Prop :=
  ∀ cfg reported, checkMetadata reportsUnderflow what metadata = .ok (cfg, reported) →
    ∀ (layerTypes : List Bytes) (maxSeqLen : Nat),
      let kv := (loadedConfig cfg layerTypes).createKVCacheConfig maxSeqLen false
      if cfg.isInt8KV then kv.isInt8 = true ∧ KVCacheStorage.init kv = .ok true else kv.isInt8 = false

theorem init_ok {kv : LayerSlots.KVCacheConfig} (int8 : kv.isInt8 = true) (heads : kv.numKVHeads = 4)
    (dim : kv.headDim = 256) :
    KVCacheStorage.init kv = .ok true ↔ Contains KVCacheStorage.int8Scheme kv.artifactQuantScheme := by
  unfold KVCacheStorage.init
  rw [if_pos int8, heads, dim]
  by_cases contains : Contains KVCacheStorage.int8Scheme kv.artifactQuantScheme
  · rw [if_neg (not_not_intro contains)]
    exact iff_of_true rfl contains
  · rw [if_pos contains]
    exact iff_of_false (fun contra => nomatch contra) contains

theorem declaresInt8KV_iff : declaresInt8KV metadata = true ↔
    Contains (ascii "INT8-KV") metadata.quantScheme ∨
      declared metadata (ascii "kv_quant_scheme") = some (ascii "INT8-KV") := by
  simp [declaresInt8KV]

/-- The gate opens exactly where `quant_scheme` names the cache itself. -/
theorem loaded_init {cfg : LoadConfig} {reported : Option Bytes}
    (passes : checkMetadata reportsUnderflow what metadata = .ok (cfg, reported)) (int8 : cfg.isInt8KV = true)
    (layerTypes : List Bytes) (maxSeqLen : Nat) :
    KVCacheStorage.init ((loadedConfig cfg layerTypes).createKVCacheConfig maxSeqLen false) = .ok true ↔
      Contains (ascii "INT8-KV") metadata.quantScheme := by
  obtain ⟨-, -, required, -, -, -, scheme, -⟩ := checkMetadata_ok passes
  have heads : cfg.numKeyValueHeads = 4 := by
    have fifth := congrArg (fun row => row[4]?.map Prod.snd) required
    exact Int.ofNat.inj (Option.some.inj fifth)
  have dim : cfg.headDim = 256 := by
    have sixth := congrArg (fun row => row[5]?.map Prod.snd) required
    exact Int.ofNat.inj (Option.some.inj sixth)
  rw [← scheme]
  exact init_ok int8 heads dim

/-- A cache that was declared, and opens, was declared in `quant_scheme`. -/
theorem contains_of_agrees (agrees : GateAgrees reportsUnderflow what metadata)
    (admitted : Admitted reportsUnderflow what metadata)
    (property : declared metadata (ascii "kv_quant_scheme") = some (ascii "INT8-KV")) :
    Contains (ascii "INT8-KV") metadata.quantScheme := by
  obtain ⟨cfg, reported, passes⟩ := admitted_passes admitted
  obtain ⟨-, -, -, -, -, -, -, decision⟩ := checkMetadata_ok passes
  have int8 : cfg.isInt8KV = true := decision.trans (declaresInt8KV_iff.2 (.inr property))
  have opened := agrees cfg reported passes [] 0
  dsimp only at opened
  rw [if_pos int8] at opened
  exact (loaded_init passes int8 [] 0).1 opened.2

theorem gate_agrees_iff (reportsUnderflow : Rat → Bool) (what : Bytes → ParseFailure → Bytes)
    (metadata : ArtifactMetadata) :
    GateAgrees reportsUnderflow what metadata ↔
      (Admitted reportsUnderflow what metadata → Contains (ascii "INT8-KV") metadata.quantScheme ∨
        declared metadata (ascii "kv_quant_scheme") ≠ some (ascii "INT8-KV")) := by
  constructor
  · intro agrees admitted
    by_cases property : declared metadata (ascii "kv_quant_scheme") = some (ascii "INT8-KV")
    · exact .inl (contains_of_agrees agrees admitted property)
    · exact .inr property
  · intro condition cfg reported passes layerTypes maxSeqLen
    obtain ⟨admitted, -, -, -, -, -, -, decision⟩ := checkMetadata_ok passes
    dsimp only
    by_cases int8 : cfg.isInt8KV = true
    · rw [if_pos int8]
      have contains : Contains (ascii "INT8-KV") metadata.quantScheme := by
        rcases declaresInt8KV_iff.1 (decision.symm.trans int8) with contains | property
        · exact contains
        · exact (condition admitted).resolve_right (not_not_intro property)
      exact ⟨int8, (loaded_init passes int8 layerTypes maxSeqLen).2 contains⟩
    · rw [if_neg int8]
      exact Bool.eq_false_iff.2 int8

/-- Metadata that passes, with the INT8 cache declared among the properties only. -/
def declaredAside : ArtifactMetadata where
  modelName := []
  quantScheme := ascii "INT4-G128-SYM"
  tokenizerType := []
  properties :=
    [(ascii "hidden_size", ascii "5120"), (ascii "intermediate_size", ascii "17408"),
     (ascii "num_hidden_layers", ascii "64"), (ascii "num_attention_heads", ascii "24"),
     (ascii "num_key_value_heads", ascii "4"), (ascii "head_dim", ascii "256"), (ascii "vocab_size", ascii "248320"),
     (ascii "rms_norm_eps", ascii "1e-06"), (ascii "rope_theta", ascii "10000000"),
     (ascii "full_attention_interval", ascii "4"), (ascii "kv_quant_scheme", ascii "INT8-KV")].foldl
      (fun properties entry => properties.insert entry.1 entry.2) .empty

def passesMetadata (metadata : ArtifactMetadata) : Bool :=
  (checkMetadata (fun _ => true) (fun function _ => function) metadata).toBool

theorem declaredAside_passes : passesMetadata declaredAside = true := by decide +kernel

theorem declaredAside_refused : ¬ GateAgrees (fun _ => true) (fun function _ => function) declaredAside := by
  have facts : declared declaredAside (ascii "kv_quant_scheme") = some (ascii "INT8-KV") ∧
      ¬ Contains (ascii "INT8-KV") declaredAside.quantScheme := by decide +kernel
  intro agrees
  have passes := declaredAside_passes
  unfold passesMetadata at passes
  cases checked : checkMetadata (fun _ => true) (fun function _ => function) declaredAside with
  | error rejection =>
      rw [checked] at passes
      cases passes
  | ok accepted => exact facts.2 (contains_of_agrees agrees (checkMetadata_ok checked).1 facts.1)

end XInfer.KVCacheGate
