import XInfer.ArtifactReader
import XInfer.ModelConfig
import XInfer.StateException

/-!
Layers between three places: `load_from_artifact` of `targets/qwen3_8_27b/weights.cpp` finds the type of
each from sections and metadata, `create_kv_cache_config` counts them for the cache, and the loops over
`forward_layer` number them anew. The checks on the rest of the configuration come before and are left out.
-/

namespace XInfer.LayerSlots

open Primitives StateException Container

section Types

/-- Where `parse_layer_types_json` stands: before the bracket, between entries, in an entry, behind a
backslash in one, or behind the closing bracket. -/
inductive Scan where
  | before
  | between
  | inside (entry : Bytes)
  | escaped (entry : Bytes)
  | closed

def isSeparator (c : UInt8) : Bool := c == 32 || c == 9 || c == 13 || c == 10 || c == 44

def Scan.next (c : UInt8) : Scan → Option Bytes × Scan
  | .before => (none, if c = 91 then .between else .before)
  | .between =>
      if isSeparator c then (none, .between)
      else if c = 93 then (none, .closed)
      else if c = 34 then (none, .inside [])
      else (none, .between)
  | .inside entry =>
      if c = 34 then (some entry, .between)
      else if c = 92 then (none, .escaped (entry ++ [c]))
      else (none, .inside (entry ++ [c]))
  | .escaped entry => (none, .inside (entry ++ [c]))
  | .closed => (none, .closed)

def scanTypes : Scan → Bytes → List Bytes
  -- an entry without a closing quote counts
  | .inside entry, [] => [entry]
  | .escaped entry, [] => [entry]
  | _, [] => []
  | at', c :: rest =>
      let (entry, after) := at'.next c
      entry.toList ++ scanTypes after rest

def parseLayerTypesJson (text : Bytes) : List Bytes := scanTypes .before text

end Types

def fullAttention : Bytes := ascii "full_attention"
def linearAttention : Bytes := ascii "linear_attention"

/-- The fields of the configuration that loading and the cache read beside those of `ModelConfig`. -/
structure TargetConfig extends ModelConfig where
  numHiddenLayers : Nat
  /-- The loop over the layers counts in an `int`. -/
  numHiddenLayers_lt : numHiddenLayers < 2 ^ 31
  groupSize : Nat
  linearConvKernelDim : Nat
  linearNumVHeads : Nat
  linearHeadKDim : Nat
  linearHeadVDim : Nat
  linearNormDim : Nat
  fullAttentionInterval : Int
  layerTypes : List Bytes
  quantScheme : Bytes
  isInt8KV : Bool

structure KVCacheConfig where
  maxSeqLen : Nat
  numFullLayers : Nat
  numLinearLayers : Nat
  numKVHeads : Nat
  headDim : Nat
  linearNumVHeads : Nat
  linearHeadKDim : Nat
  linearHeadVDim : Nat
  linearConvChannels : Nat
  linearConvKernelDim : Nat
  isInt8 : Bool
  artifactQuantScheme : Bytes

namespace TargetConfig

variable (cfg : TargetConfig)

def interval : Int := if 0 < cfg.fullAttentionInterval then cfg.fullAttentionInterval else 4

def numFullLayers : Nat :=
  if cfg.layerTypes ≠ [] then cfg.layerTypes.count fullAttention
  else (List.range cfg.numHiddenLayers).countP fun (l : Nat) => decide ((l : Int) % cfg.interval = cfg.interval - 1)

def numLinearLayers : Int := cfg.numHiddenLayers - cfg.numFullLayers

/-- The counts go through `size_t`. -/
def createKVCacheConfig (maxSeqLen : Nat) (useInt8KV : Bool) : KVCacheConfig where
  maxSeqLen := maxSeqLen
  numFullLayers := cfg.numFullLayers
  numLinearLayers := (cfg.numLinearLayers % 2 ^ 64).toNat
  numKVHeads := cfg.numKeyValueHeads
  headDim := cfg.headDim
  linearNumVHeads := cfg.linearNumVHeads
  linearHeadKDim := cfg.linearHeadKDim
  linearHeadVDim := cfg.linearHeadVDim
  linearConvChannels := cfg.linearConvChannels
  linearConvKernelDim := cfg.linearConvKernelDim
  isInt8 := useInt8KV || cfg.isInt8KV
  artifactQuantScheme := cfg.quantScheme

end TargetConfig

section Loading

inductive LoadFailure where
  | read (failure : ReadFailure)
  | badAlloc

/-- A null model with a message. -/
def refused (message : Bytes) : LoadFailure := .read (.refused message)

/-- The reader, and the requests for device memory so far, the present one last. -/
structure Loading where
  reader : ArtifactReader
  requests : List Nat

abbrev LoadM := EStateM LoadFailure Loading

def readSection (name : Bytes) : LoadM Bytes := fun s =>
  let (answer, reader) := s.reader.readSection name
  match answer with
  | .ok data => .ok data { s with reader := reader }
  | .error failure => .error (.read failure) { s with reader := reader }

/-- `alloc_dev`: whether the pointer is not null. `grants` says which sequences of requests the device serves. -/
def allocDev (grants : List Nat → Bool) (bytes : Nat) : LoadM Bool := do
  if bytes = 0 then pure false
  else do
    modify fun s => { s with requests := s.requests ++ [bytes] }
    let requests ← read (·.requests)
    if grants requests then pure true else throw .badAlloc

inductive Shape where
  | int4 (outFeatures inFeatures : Nat)
  | bf16 (elements : Nat)

structure Tensor where
  name : Bytes
  label : Bytes
  shape : Shape

variable (grants : List Nat → Bool) (cfg : TargetConfig)

/-- `load_linear`: whether the view is valid. -/
def loadLinear (weightName : Bytes) (outFeatures inFeatures : Nat) : LoadM Bool := do
  let expectedW := outFeatures * (inFeatures / 2)
  let expectedS := outFeatures * (inFeatures / cfg.groupSize) * 2
  let weights ← readSection weightName
  if weights.length ≠ expectedW then
    throw (refused (ascii "Weight size mismatch for " ++ weightName ++ ascii ": expected " ++ decimal expectedW ++
      ascii ", got " ++ decimal weights.length))
  else do
    let held ← allocDev grants weights.length
    let scaleName := weightName ++ ascii ".scales"
    let scales ← readSection scaleName
    if scales.length ≠ expectedS then
      throw (refused (ascii "Scales size mismatch for " ++ scaleName ++ ascii ": expected " ++ decimal expectedS ++
        ascii ", got " ++ decimal scales.length))
    else do
      let heldScales ← allocDev grants scales.length
      pure (held && heldScales)

/-- `load_bf16_as_fp32`: whether the pointer is not null. -/
def loadBf16AsFp32 (name : Bytes) (elements : Nat) : LoadM Bool := do
  let raw ← readSection name
  if raw.length ≠ elements * 2 then
    throw (refused (ascii "Element count/size mismatch for " ++ name ++ ascii ": expected " ++ decimal (elements * 2) ++
      ascii " bytes (" ++ decimal elements ++ ascii " elements), got " ++ decimal raw.length ++ ascii " bytes (" ++
      decimal (raw.length / 2) ++ ascii " elements)"))
  else allocDev grants (elements * 4)

/-- A tensor of a layer; where no message was left, the caller's takes its place. -/
def loadTensor (root : Bytes) (l : Nat) (tensor : Tensor) : LoadM Unit := do
  let held ← match tensor.shape with
    | .int4 outFeatures inFeatures => loadLinear grants cfg (root ++ tensor.name) outFeatures inFeatures
    | .bf16 elements => loadBf16AsFp32 grants (root ++ tensor.name) elements
  if held then pure ()
  else throw (refused (ascii "Failed to load " ++ tensor.label ++ ascii " for layer " ++ decimal l))

def commonTensors : List Tensor :=
  [⟨ascii ".input_layernorm.weight", ascii "input_layernorm", .bf16 cfg.hiddenSize⟩,
   ⟨ascii ".post_attention_layernorm.weight", ascii "post_attention_layernorm", .bf16 cfg.hiddenSize⟩,
   ⟨ascii ".mlp.gate_proj.weight", ascii "mlp.gate_proj", .int4 cfg.intermediateSize cfg.hiddenSize⟩,
   ⟨ascii ".mlp.up_proj.weight", ascii "mlp.up_proj", .int4 cfg.intermediateSize cfg.hiddenSize⟩,
   ⟨ascii ".mlp.down_proj.weight", ascii "mlp.down_proj", .int4 cfg.hiddenSize cfg.intermediateSize⟩]

def fullTensors : List Tensor :=
  [⟨ascii ".self_attn.q_proj.weight", ascii "self_attn.q_proj", .int4 cfg.fullQGateDim cfg.hiddenSize⟩,
   ⟨ascii ".self_attn.k_proj.weight", ascii "self_attn.k_proj", .int4 cfg.fullKDim cfg.hiddenSize⟩,
   ⟨ascii ".self_attn.v_proj.weight", ascii "self_attn.v_proj", .int4 cfg.fullVDim cfg.hiddenSize⟩,
   ⟨ascii ".self_attn.o_proj.weight", ascii "self_attn.o_proj", .int4 cfg.hiddenSize cfg.fullOutDim⟩,
   ⟨ascii ".self_attn.q_norm.weight", ascii "self_attn.q_norm", .bf16 cfg.headDim⟩,
   ⟨ascii ".self_attn.k_norm.weight", ascii "self_attn.k_norm", .bf16 cfg.headDim⟩]

def linearTensors : List Tensor :=
  [⟨ascii ".linear_attn.in_proj_qkv.weight", ascii "linear_attn.in_proj_qkv",
      .int4 cfg.linearConvChannels cfg.hiddenSize⟩,
   ⟨ascii ".linear_attn.in_proj_z.weight", ascii "linear_attn.in_proj_z", .int4 cfg.linearZDim cfg.hiddenSize⟩,
   ⟨ascii ".linear_attn.in_proj_b.weight", ascii "linear_attn.in_proj_b", .int4 cfg.linearBDim cfg.hiddenSize⟩,
   ⟨ascii ".linear_attn.in_proj_a.weight", ascii "linear_attn.in_proj_a", .int4 cfg.linearADim cfg.hiddenSize⟩,
   ⟨ascii ".linear_attn.out_proj.weight", ascii "linear_attn.out_proj", .int4 cfg.hiddenSize cfg.linearZDim⟩,
   ⟨ascii ".linear_attn.conv1d.weight", ascii "linear_attn.conv1d.weight",
      .bf16 (cfg.linearConvChannels * cfg.linearConvKernelDim)⟩,
   ⟨ascii ".linear_attn.A_log", ascii "linear_attn.A_log", .bf16 cfg.linearNumVHeads⟩,
   ⟨ascii ".linear_attn.dt_bias", ascii "linear_attn.dt_bias", .bf16 cfg.linearNumVHeads⟩,
   ⟨ascii ".linear_attn.norm.weight", ascii "linear_attn.norm.weight", .bf16 cfg.linearNormDim⟩]

def expectedByInterval (l : Nat) : Bytes :=
  if (l : Int) % cfg.fullAttentionInterval = cfg.fullAttentionInterval - 1 then fullAttention else linearAttention

/-- Exactly one of two sections tells the type; else the metadata or the interval does. -/
def detectedType (r : ArtifactReader) (root : Bytes) (l : Nat) (metaType : Option Bytes) : Bytes :=
  let hasFullAttn := r.hasSection (root ++ ascii ".self_attn.q_proj.weight")
  let hasLinearAttn := r.hasSection (root ++ ascii ".linear_attn.in_proj_qkv.weight")
  if hasFullAttn && !hasLinearAttn then fullAttention
  else if hasLinearAttn && !hasFullAttn then linearAttention
  else metaType.getD (expectedByInterval cfg l)

def mismatch (l : Nat) (detected reason : Bytes) : Bytes :=
  ascii "Layer " ++ decimal l ++ ascii " type mismatch: section detection gave '" ++ detected ++ ascii "', but " ++ reason

def crossCheck (l : Nat) (detected : Bytes) (metaType : Option Bytes) : Except Bytes Unit :=
  match metaType with
  | some required =>
      if detected = required then .ok ()
      else .error (mismatch l detected (ascii "metadata specifies '" ++ required ++ ascii "'"))
  | none =>
      if detected = expectedByInterval cfg l then .ok ()
      else .error (mismatch l detected (ascii "full_attention_interval=" ++ signedDecimal cfg.fullAttentionInterval ++
        ascii " requires '" ++ expectedByInterval cfg l ++ ascii "'"))

structure LayerWeights where
  layerIdx : Nat
  layerType : Bytes

/-- A layer, and the type that is pushed to the configuration. -/
def loadLayer (metaTypes : List Bytes) (l : Nat) : LoadM (LayerWeights × Bytes) := do
  let root := ascii "model.language_model.layers." ++ decimal l
  (commonTensors cfg).forM (loadTensor grants cfg root l)
  if cfg.fullAttentionInterval ≤ 0 then
    throw (refused (ascii "Invalid full_attention_interval in model config: " ++ signedDecimal cfg.fullAttentionInterval))
  else do
    let reader ← read (·.reader)
    let detected := detectedType cfg reader root l metaTypes[l]?
    match crossCheck cfg l detected metaTypes[l]? with
    | .error message => throw (refused message)
    | .ok () =>
        if detected = fullAttention then do
          (fullTensors cfg).forM (loadTensor grants cfg root l)
          pure (⟨l, detected⟩, detected)
        else do
          -- whatever the metadata calls it
          (linearTensors cfg).forM (loadTensor grants cfg root l)
          pure (⟨l, linearAttention⟩, detected)

/-- The loop over so many layers from one on. -/
def loadLayersFrom (metaTypes : List Bytes) : Nat → Nat → LoadM (List (LayerWeights × Bytes))
  | 0, _ => pure []
  | count + 1, l => do
      let layer ← loadLayer grants cfg metaTypes l
      let rest ← loadLayersFrom metaTypes count (l + 1)
      pure (layer :: rest)

/-- The list of the metadata, when it has entries. -/
def metaLayerTypes (metadata : MetadataJson.ArtifactMetadata) : Except Bytes (List Bytes) :=
  let types := parseLayerTypesJson ((metadata.properties.entries.lookup (ascii "layer_types")).getD [])
  if types ≠ [] ∧ types.length ≠ cfg.numHiddenLayers then
    .error (ascii "Artifact metadata 'layer_types' count (" ++ decimal types.length ++
      ascii ") does not match num_hidden_layers (" ++ decimal cfg.numHiddenLayers ++ ascii ")")
  else .ok types

/-- The layers of `load_from_artifact`, and the configuration with their types. -/
def loadLayers : LoadM (TargetConfig × List LayerWeights) := do
  let reader ← read (·.reader)
  match metaLayerTypes cfg reader.metadata with
  | .error message => throw (refused message)
  | .ok metaTypes => do
      let loaded ← loadLayersFrom grants cfg metaTypes cfg.numHiddenLayers 0
      pure ({ cfg with layerTypes := loaded.map (·.2) }, loaded.map (·.1))

end Loading

section Forward

/-- The part of the cache that a layer uses. -/
inductive Slot where
  | full (index : Nat)
  | linear (index : Nat)
  deriving DecidableEq

def Slot.isFull : Slot → Bool
  | .full _ => true
  | .linear _ => false

/-- What `forward_layer` indexes the cache with, and the two counters after it. -/
def forwardLayer (layer : LayerWeights) (fullIdx linearIdx : Nat) : Slot × Nat × Nat :=
  if layer.layerType = fullAttention then (.full fullIdx, fullIdx + 1, linearIdx)
  else (.linear linearIdx, fullIdx, linearIdx + 1)

def forwardLayers : List LayerWeights → Nat → Nat → List Slot
  | [], _, _ => []
  | layer :: rest, fullIdx, linearIdx =>
      let (slot, fullIdx, linearIdx) := forwardLayer layer fullIdx linearIdx
      slot :: forwardLayers rest fullIdx linearIdx

/-- The loop of `forward_chunk`, of `forward_verify` and of the captured graph. -/
def layerSlots (layers : List LayerWeights) : List Slot := forwardLayers layers 0 0

end Forward

section Loaded

variable {grants : List Nat → Bool} {cfg cfg' : TargetConfig} {s after : Loading}

def LayerWeights.isFull (layer : LayerWeights) : Bool := layer.layerType == fullAttention

theorem crossCheck_declared {cfg : TargetConfig} {l : Nat} {detected type : Bytes}
    (passes : crossCheck cfg l detected (some type) = .ok ()) : detected = type := by
  unfold crossCheck at passes
  dsimp only at passes
  split at passes
  · assumption
  · cases passes

theorem loadLayer_types {metaTypes : List Bytes} {l : Nat} {layer : LayerWeights} {pushed : Bytes}
    (done : loadLayer grants cfg metaTypes l s = .ok (layer, pushed) after) :
    layer.isFull = (pushed == fullAttention) ∧ ∀ type, metaTypes[l]? = some type → pushed = type := by
  unfold loadLayer at done
  obtain ⟨_, s₁, -, done⟩ := bind_ok done
  split at done
  · cases done
  obtain ⟨reader, s₂, -, done⟩ := bind_ok done
  dsimp only at done
  generalize detectedType cfg reader _ l metaTypes[l]? = detected at done
  cases passes : crossCheck cfg l detected metaTypes[l]? with
  | error message =>
      rw [passes] at done
      cases done
  | ok checked =>
      rw [passes] at done
      have declared : ∀ type, metaTypes[l]? = some type → detected = type := by
        intro type found
        rw [found] at passes
        exact crossCheck_declared passes
      dsimp only at done
      split at done
      · obtain ⟨_, s₃, -, done⟩ := bind_ok done
        cases done
        exact ⟨rfl, declared⟩
      · rename_i other
        obtain ⟨_, s₃, -, done⟩ := bind_ok done
        cases done
        refine ⟨?_, declared⟩
        -- a layer of an unknown type is run, and counted, as a linear one
        rw [beq_false_of_ne other]
        rfl

theorem metaLayerTypes_length {metadata : MetadataJson.ArtifactMetadata} {types : List Bytes}
    (listed : metaLayerTypes cfg metadata = .ok types) (nonempty : types ≠ []) :
    types.length = cfg.numHiddenLayers := by
  unfold metaLayerTypes at listed
  dsimp only at listed
  split at listed
  · cases listed
  · rename_i agrees
    cases listed
    by_contra differs
    exact agrees ⟨nonempty, differs⟩

theorem loadLayersFrom_types {metaTypes : List Bytes} {count l : Nat} {loaded : List (LayerWeights × Bytes)}
    (done : loadLayersFrom grants cfg metaTypes count l s = .ok loaded after) :
    loaded.length = count ∧ loaded.map (·.1.isFull) = loaded.map (·.2 == fullAttention) ∧
      ∀ (i : Nat) type, i < count → metaTypes[l + i]? = some type → (loaded.map (·.2))[i]? = some type := by
  induction count generalizing l s loaded with
  | zero =>
      cases done
      refine ⟨rfl, rfl, ?_⟩
      intro i type early
      exact absurd early (Nat.not_lt_zero i)
  | succ count ih =>
      unfold loadLayersFrom at done
      obtain ⟨⟨layer, pushed⟩, s₁, first, done⟩ := bind_ok done
      obtain ⟨rest, s₂, others, done⟩ := bind_ok done
      cases done
      obtain ⟨kind, declared⟩ := loadLayer_types first
      obtain ⟨length, kinds, declaredRest⟩ := ih others
      refine ⟨by simp [length], by simp [kind, kinds], ?_⟩
      intro i type early found
      cases i with
      | zero => simp [declared type found]
      | succ i =>
          have later := declaredRest i type (Nat.lt_of_succ_lt_succ early)
          rw [Nat.add_right_comm, Nat.add_assoc] at later
          simpa using later found

/-- The types of the configuration are those of the layers, and those of a list in the metadata. -/
theorem loadLayers_types {layers : List LayerWeights} (done : loadLayers grants cfg s = .ok (cfg', layers) after) :
    cfg'.numHiddenLayers = layers.length ∧
      layers.map LayerWeights.isFull = cfg'.layerTypes.map (· == fullAttention) ∧
      ∀ declared, metaLayerTypes cfg s.reader.metadata = .ok declared → declared ≠ [] → cfg'.layerTypes = declared := by
  unfold loadLayers at done
  rw [bind_apply, read_apply] at done
  dsimp only at done
  cases listed : metaLayerTypes cfg s.reader.metadata with
  | error message =>
      rw [listed] at done
      cases done
  | ok metaTypes =>
      rw [listed] at done
      obtain ⟨loaded, s₁, started, done⟩ := bind_ok done
      cases done
      obtain ⟨length, kinds, declaredAll⟩ := loadLayersFrom_types started
      refine ⟨by simp [length], by simpa using kinds, ?_⟩
      rintro declared same nonempty
      cases same
      have counted : metaTypes.length = cfg.numHiddenLayers := metaLayerTypes_length listed nonempty
      apply List.ext_getElem?
      intro i
      by_cases early : i < metaTypes.length
      · rw [List.getElem?_eq_getElem early]
        exact declaredAll i _ (counted ▸ early) (by rw [Nat.zero_add, List.getElem?_eq_getElem early])
      · rw [List.getElem?_eq_none (Nat.le_of_not_lt early), List.getElem?_eq_none]
        simpa [length, ← counted] using early

end Loaded

section Numbering

/-- The slots of a run of layers that begins at two counters. -/
structure Numbered (layers : List LayerWeights) (fullIdx linearIdx : Nat) (slots : List Slot) : Prop where
  kinds : slots.map Slot.isFull = layers.map LayerWeights.isFull
  full : ∀ index, .full index ∈ slots → fullIdx ≤ index ∧ index < fullIdx + layers.countP LayerWeights.isFull
  linear : ∀ index, .linear index ∈ slots → linearIdx ≤ index ∧ index < linearIdx + layers.countP (!·.isFull)
  distinct : slots.Nodup

theorem Numbered.cons_full {layer : LayerWeights} {layers : List LayerWeights} {fullIdx linearIdx : Nat}
    {slots : List Slot} (rest : Numbered layers (fullIdx + 1) linearIdx slots) (isFull : layer.isFull = true) :
    Numbered (layer :: layers) fullIdx linearIdx (.full fullIdx :: slots) where
  kinds := by simp [Slot.isFull, isFull, rest.kinds]
  full := by
    intro index member
    rw [List.countP_cons_of_pos isFull]
    rcases List.mem_cons.1 member with same | member
    · cases same
      omega
    · have bounds := rest.full index member
      omega
  linear := by
    intro index member
    rw [List.countP_cons_of_neg (by simp [isFull])]
    rcases List.mem_cons.1 member with same | member
    · cases same
    · exact rest.linear index member
  distinct := by
    refine List.nodup_cons.2 ⟨?_, rest.distinct⟩
    intro member
    have bounds := rest.full fullIdx member
    omega

theorem Numbered.cons_linear {layer : LayerWeights} {layers : List LayerWeights} {fullIdx linearIdx : Nat}
    {slots : List Slot} (rest : Numbered layers fullIdx (linearIdx + 1) slots) (isLinear : layer.isFull = false) :
    Numbered (layer :: layers) fullIdx linearIdx (.linear linearIdx :: slots) where
  kinds := by simp [Slot.isFull, isLinear, rest.kinds]
  full := by
    intro index member
    rw [List.countP_cons_of_neg (by simp [isLinear])]
    rcases List.mem_cons.1 member with same | member
    · cases same
    · exact rest.full index member
  linear := by
    intro index member
    rw [List.countP_cons_of_pos (by simp [isLinear])]
    rcases List.mem_cons.1 member with same | member
    · cases same
      omega
    · have bounds := rest.linear index member
      omega
  distinct := by
    refine List.nodup_cons.2 ⟨?_, rest.distinct⟩
    intro member
    have bounds := rest.linear linearIdx member
    omega

theorem forwardLayers_numbered (layers : List LayerWeights) (fullIdx linearIdx : Nat) :
    Numbered layers fullIdx linearIdx (forwardLayers layers fullIdx linearIdx) := by
  induction layers generalizing fullIdx linearIdx with
  | nil => exact ⟨rfl, by simp [forwardLayers], by simp [forwardLayers], by simp [forwardLayers]⟩
  | cons layer rest ih =>
      unfold forwardLayers forwardLayer
      by_cases full : layer.layerType = fullAttention
      · rw [if_pos full]
        exact (ih (fullIdx + 1) linearIdx).cons_full (beq_iff_eq.2 full)
      · rw [if_neg full]
        exact (ih fullIdx (linearIdx + 1)).cons_linear (beq_false_of_ne full)

end Numbering

section Cache

/-- Every layer has a part of the cache to itself, of its own kind. -/
structure OwnSlots (kv : KVCacheConfig) (layers : List LayerWeights) (slots : List Slot) : Prop where
  kinds : slots.map Slot.isFull = layers.map LayerWeights.isFull
  distinct : slots.Nodup
  full : ∀ index, .full index ∈ slots → index < kv.numFullLayers
  linear : ∀ index, .linear index ∈ slots → index < kv.numLinearLayers

variable {grants : List Nat → Bool} {cfg cfg' : TargetConfig} {s after : Loading} {layers : List LayerWeights}

theorem numFullLayers_loaded (done : loadLayers grants cfg s = .ok (cfg', layers) after) :
    cfg'.numFullLayers = layers.countP LayerWeights.isFull := by
  obtain ⟨length, kinds, -⟩ := loadLayers_types done
  have count : layers.countP LayerWeights.isFull = cfg'.layerTypes.count fullAttention := by
    have counts := congrArg (List.countP id) kinds
    rw [List.countP_map, List.countP_map] at counts
    exact counts
  unfold TargetConfig.numFullLayers
  split
  · exact count.symm
  · rename_i empty
    -- a list without entries belongs to a model without layers
    rw [not_not] at empty
    rw [empty, List.map_nil, List.map_eq_nil_iff] at kinds
    rw [length, kinds]
    rfl

theorem numLinearLayers_loaded (done : loadLayers grants cfg s = .ok (cfg', layers) after) :
    (cfg'.numLinearLayers % 2 ^ 64).toNat = layers.countP (!·.isFull) := by
  obtain ⟨length, -, -⟩ := loadLayers_types done
  have split := List.length_eq_countP_add_countP LayerWeights.isFull (l := layers)
  have fits := cfg'.numHiddenLayers_lt
  unfold TargetConfig.numLinearLayers
  rw [numFullLayers_loaded done]
  simp only [Bool.not_eq_true, Bool.decide_eq_false] at split
  omega

/-- The numbers of the forward pass stay within the counts that the cache was built with, and no two layers share one. -/
theorem own_slots (done : loadLayers grants cfg s = .ok (cfg', layers) after) (maxSeqLen : Nat) (useInt8KV : Bool) :
    OwnSlots (cfg'.createKVCacheConfig maxSeqLen useInt8KV) layers (layerSlots layers) ∧
      ∀ declared, metaLayerTypes cfg s.reader.metadata = .ok declared → declared ≠ [] →
        layers.map LayerWeights.isFull = declared.map (· == fullAttention) := by
  obtain ⟨-, types, list⟩ := loadLayers_types done
  have numbered := forwardLayers_numbered layers 0 0
  refine ⟨⟨numbered.kinds, numbered.distinct, ?_, ?_⟩, ?_⟩
  · intro index member
    have bounds := numbered.full index member
    rw [Nat.zero_add] at bounds
    exact Nat.lt_of_lt_of_eq bounds.2 (numFullLayers_loaded done).symm
  · intro index member
    have bounds := numbered.linear index member
    rw [Nat.zero_add] at bounds
    exact Nat.lt_of_lt_of_eq bounds.2 (numLinearLayers_loaded done).symm
  · intro declared listed nonempty
    rw [types, list declared listed nonempty]

section Tiny

def tiny : TargetConfig where
  hiddenSize := 2
  intermediateSize := 2
  numAttentionHeads := 1
  numKeyValueHeads := 1
  headDim := 2
  vocabSize := 2
  linearConvChannels := 2
  linearZDim := 2
  linearBDim := 2
  linearADim := 2
  patchesPerImage := 1
  visualTokenStart := 0
  visualTokenEnd := 0
  imagePadTokenId := 0
  numHiddenLayers := 2
  numHiddenLayers_lt := by decide
  groupSize := 2
  linearConvKernelDim := 1
  linearNumVHeads := 2
  linearHeadKDim := 2
  linearHeadVDim := 2
  linearNormDim := 2
  fullAttentionInterval := 4
  layerTypes := []
  quantScheme := []
  isInt8KV := false

/-- The sections of a tensor, with their sizes. -/
def Tensor.sections (root : Bytes) (tensor : Tensor) : List (Bytes × Nat) :=
  let name := root ++ tensor.name
  match tensor.shape with
  | .int4 outFeatures inFeatures =>
      [(name, outFeatures * (inFeatures / 2)), (name ++ ascii ".scales", outFeatures * (inFeatures / tiny.groupSize) * 2)]
  | .bf16 elements => [(name, elements * 2)]

def tinySections : List (Bytes × Nat) :=
  (commonTensors tiny ++ fullTensors tiny).flatMap (Tensor.sections (ascii "model.language_model.layers.0")) ++
  (commonTensors tiny ++ linearTensors tiny).flatMap (Tensor.sections (ascii "model.language_model.layers.1"))

/-- All sections begin at offset 0 of a file of zeros. -/
def tinyEntry (part : Bytes × Nat) : SectionEntry where
  name := (part.1 ++ List.replicate MAX_SECTION_NAME_LEN 0).take MAX_SECTION_NAME_LEN
  typeTag := 1
  flags := 0
  offset := 0
  size := UInt64.ofNat part.2
  checksum := Crc64.calculate (List.replicate part.2 0)
  name_length := by simp

def tinyReader : ArtifactReader where
  filepath := []
  fileStream := FileStream.ofFile (List.replicate 8 0)
  isOpen := true
  header := ⟨MAGIC_BYTES, 1, 64, 0, 0, 0, 0, 0, 0, 8, magicBytes_length⟩
  footer := ⟨0, FOOTER_MAGIC_BYTES, footerMagicBytes_length⟩
  rawMetadataJson := []
  metadata := { MetadataJson.blank with
    -- ["full_attention","linear_attention"]
    properties := ⟨[(ascii "layer_types", [91, 34] ++ fullAttention ++ [34, 44, 34] ++ linearAttention ++ [34, 93])],
      List.pairwise_singleton _ _⟩ }
  sections := tinySections.map tinyEntry
  sectionIndexMap := (tinySections.map Prod.fst).zipIdx

def loadedKinds {ε σ : Type} : EStateM.Result ε σ (TargetConfig × List LayerWeights) → Option (List Bool)
  | .ok (_, layers) _ => some (layers.map LayerWeights.isFull)
  | .error _ _ => none

theorem tiny_loads : loadedKinds (loadLayers (fun _ => true) tiny ⟨tinyReader, []⟩) = some [true, false] := by
  decide +kernel

theorem tiny_own_slots : ∃ cfg layers after,
    loadLayers (fun _ => true) tiny ⟨tinyReader, []⟩ = .ok (cfg, layers) after ∧
      layers.map LayerWeights.isFull = [true, false] ∧
      OwnSlots (cfg.createKVCacheConfig 8192 false) layers (layerSlots layers) := by
  have kinds := tiny_loads
  cases done : loadLayers (fun _ => true) tiny ⟨tinyReader, []⟩ with
  | error failure after =>
      rw [done] at kinds
      cases kinds
  | ok loaded after =>
      rw [done] at kinds
      exact ⟨loaded.1, loaded.2, after, rfl, Option.some.inj kinds, (own_slots done 8192 false).1⟩

end Tiny

end Cache

end XInfer.LayerSlots
