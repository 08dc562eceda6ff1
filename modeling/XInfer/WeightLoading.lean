import XInfer.ArtifactRoundTrip
import XInfer.DecodePass
import XInfer.LayerSlots

/-!
The weights that `load_from_artifact` of `targets/qwen3_8_27b/weights.cpp` puts into device memory, behind its checks of
the metadata. A pointer is given by what its block holds: every block is filled once, right after it is allocated.
-/

namespace XInfer.WeightLoading

open Primitives StateException LittleEndian LayerSlots
open DecodePass (AttentionWeights)

/-- Words of a buffer of bytes; `reinterpret_cast` leaves an odd byte unread. -/
def words : Bytes → List UInt16
  | low :: high :: rest => UInt16.ofNat (unpack [low, high]) :: words rest
  | _ => []

structure LinearWeightView where
  weightsInt4 : Option Bytes
  scales : Option Bytes
  inFeatures : Nat
  outFeatures : Nat
  groupSize : Nat

def LinearWeightView.isValid (view : LinearWeightView) : Bool := view.weightsInt4.isSome && view.scales.isSome

/-- What a layer keeps of a tensor. -/
inductive DeviceTensor (F : Type) where
  | int4 (view : LinearWeightView)
  | fp32 (values : List F)

section Device

variable {F : Type} [One F] [Add F] (ofBits : UInt32 → F)

/-- `bf16_to_fp32`; `ofBits` reads the bits of a `float`. -/
def bf16ToFp32 (b : UInt16) : F := ofBits (b.toUInt32 <<< 16)

/-- The conversion of `load_bf16_as_fp32`. -/
def hostFp32 (addUnitOffset : Bool) (raw : Bytes) : List F :=
  (words raw).map fun b => if addUnitOffset then bf16ToFp32 ofBits b + 1 else bf16ToFp32 ofBits b

end Device

section Tensors

variable {F : Type} [One F] [Add F] (ofBits : UInt32 → F) (grants : List Nat → Bool) (cfg : TargetConfig)

/-- `alloc_dev` and the copy behind it. -/
def upload {α : Type} (bytes : Nat) (data : α) : LoadM (Option α) := do
  let held ← allocDev grants bytes
  pure (if held then some data else none)

def loadLinear (weightName : Bytes) (outFeatures inFeatures : Nat) : LoadM LinearWeightView := do
  let expectedW := outFeatures * (inFeatures / 2)
  let expectedS := outFeatures * (inFeatures / cfg.groupSize) * 2
  let hostW ← readSection weightName
  if hostW.length ≠ expectedW then
    throw (refused (ascii "Weight size mismatch for " ++ weightName ++ ascii ": expected " ++ decimal expectedW ++
      ascii ", got " ++ decimal hostW.length))
  else do
    let weightsInt4 ← upload grants hostW.length hostW
    let scaleName := weightName ++ ascii ".scales"
    let hostS ← readSection scaleName
    if hostS.length ≠ expectedS then
      throw (refused (ascii "Scales size mismatch for " ++ scaleName ++ ascii ": expected " ++ decimal expectedS ++
        ascii ", got " ++ decimal hostS.length))
    else do
      let scales ← upload grants hostS.length hostS
      pure ⟨weightsInt4, scales, inFeatures, outFeatures, cfg.groupSize⟩

def loadBf16AsFp32 (sectionName : Bytes) (elements : Nat) (addUnitOffset : Bool) : LoadM (Option (List F)) := do
  let raw ← readSection sectionName
  if raw.length ≠ elements * 2 then
    throw (refused (ascii "Element count/size mismatch for " ++ sectionName ++ ascii ": expected " ++
      decimal (elements * 2) ++ ascii " bytes (" ++ decimal elements ++ ascii " elements), got " ++
      decimal raw.length ++ ascii " bytes (" ++ decimal (raw.length / 2) ++ ascii " elements)"))
  else upload grants (elements * 4) (hostFp32 ofBits addUnitOffset raw)

/-- A tensor of a layer; where no message was left, the caller's takes its place. -/
def loadTensor (root : Bytes) (l : Nat) (tensor : Tensor) (addUnitOffset : Bool) : LoadM (DeviceTensor F) :=
  let failed := refused (ascii "Failed to load " ++ tensor.label ++ ascii " for layer " ++ decimal l)
  match tensor.shape with
  | .int4 outFeatures inFeatures => do
      let view ← loadLinear grants cfg (root ++ tensor.name) outFeatures inFeatures
      if view.isValid then pure (.int4 view) else throw failed
  | .bf16 elements => do
      match ← loadBf16AsFp32 ofBits grants (root ++ tensor.name) elements addUnitOffset with
      | some values => pure (.fp32 values)
      | none => throw failed

end Tensors

section Layers

variable {m : Type → Type} [Monad m] {W : Type} (tensor : Tensor → Bool → m W) (cfg : TargetConfig)

/-- The norms and the MLP of a layer, which come before its token mixer. -/
def commonPart : m (AttentionWeights W → DecodePass.LayerWeights W) := do
  let inputLayernorm ← tensor ⟨ascii ".input_layernorm.weight", ascii "input_layernorm", .bf16 cfg.hiddenSize⟩ true
  let postAttentionLayernorm ← tensor
    ⟨ascii ".post_attention_layernorm.weight", ascii "post_attention_layernorm", .bf16 cfg.hiddenSize⟩ true
  let gateProj ← tensor
    ⟨ascii ".mlp.gate_proj.weight", ascii "mlp.gate_proj", .int4 cfg.intermediateSize cfg.hiddenSize⟩ false
  let upProj ← tensor ⟨ascii ".mlp.up_proj.weight", ascii "mlp.up_proj", .int4 cfg.intermediateSize cfg.hiddenSize⟩ false
  let downProj ← tensor
    ⟨ascii ".mlp.down_proj.weight", ascii "mlp.down_proj", .int4 cfg.hiddenSize cfg.intermediateSize⟩ false
  pure fun attention => ⟨inputLayernorm, attention, postAttentionLayernorm, gateProj, upProj, downProj⟩

def fullPart : m (AttentionWeights W) := do
  let qProj ← tensor ⟨ascii ".self_attn.q_proj.weight", ascii "self_attn.q_proj", .int4 cfg.fullQGateDim cfg.hiddenSize⟩ false
  let kProj ← tensor ⟨ascii ".self_attn.k_proj.weight", ascii "self_attn.k_proj", .int4 cfg.fullKDim cfg.hiddenSize⟩ false
  let vProj ← tensor ⟨ascii ".self_attn.v_proj.weight", ascii "self_attn.v_proj", .int4 cfg.fullVDim cfg.hiddenSize⟩ false
  let oProj ← tensor ⟨ascii ".self_attn.o_proj.weight", ascii "self_attn.o_proj", .int4 cfg.hiddenSize cfg.fullOutDim⟩ false
  let qNorm ← tensor ⟨ascii ".self_attn.q_norm.weight", ascii "self_attn.q_norm", .bf16 cfg.headDim⟩ true
  let kNorm ← tensor ⟨ascii ".self_attn.k_norm.weight", ascii "self_attn.k_norm", .bf16 cfg.headDim⟩ true
  pure (.full qProj kProj vProj qNorm kNorm oProj)

def linearPart : m (AttentionWeights W) := do
  let inProjQkv ← tensor ⟨ascii ".linear_attn.in_proj_qkv.weight", ascii "linear_attn.in_proj_qkv",
    .int4 cfg.linearConvChannels cfg.hiddenSize⟩ false
  let inProjZ ← tensor
    ⟨ascii ".linear_attn.in_proj_z.weight", ascii "linear_attn.in_proj_z", .int4 cfg.linearZDim cfg.hiddenSize⟩ false
  let inProjB ← tensor
    ⟨ascii ".linear_attn.in_proj_b.weight", ascii "linear_attn.in_proj_b", .int4 cfg.linearBDim cfg.hiddenSize⟩ false
  let inProjA ← tensor
    ⟨ascii ".linear_attn.in_proj_a.weight", ascii "linear_attn.in_proj_a", .int4 cfg.linearADim cfg.hiddenSize⟩ false
  let outProj ← tensor
    ⟨ascii ".linear_attn.out_proj.weight", ascii "linear_attn.out_proj", .int4 cfg.hiddenSize cfg.linearZDim⟩ false
  let conv1dWeight ← tensor ⟨ascii ".linear_attn.conv1d.weight", ascii "linear_attn.conv1d.weight",
    .bf16 (cfg.linearConvChannels * cfg.linearConvKernelDim)⟩ false
  let aLog ← tensor ⟨ascii ".linear_attn.A_log", ascii "linear_attn.A_log", .bf16 cfg.linearNumVHeads⟩ false
  let dtBias ← tensor ⟨ascii ".linear_attn.dt_bias", ascii "linear_attn.dt_bias", .bf16 cfg.linearNumVHeads⟩ false
  let normWeight ← tensor
    ⟨ascii ".linear_attn.norm.weight", ascii "linear_attn.norm.weight", .bf16 cfg.linearNormDim⟩ false
  pure (.linear inProjQkv inProjZ inProjB inProjA conv1dWeight aLog dtBias normWeight outProj)

/-- Whatever the metadata calls a layer that is not a full one. -/
def mixerPart (type : Bytes) : m (AttentionWeights W) :=
  if type = fullAttention then fullPart tensor cfg else linearPart tensor cfg

end Layers

/-- `prefix` of the names of a layer. -/
def layerRoot (l : Nat) : Bytes := ascii "model.language_model.layers." ++ decimal l

def embedName : Bytes := ascii "model.language_model.embed_tokens.weight"
def finalNormName : Bytes := ascii "model.language_model.norm.weight"
def lmHeadName : Bytes := ascii "lm_head.weight"

structure LoadedModel (F : Type) where
  config : TargetConfig
  embedTokens : Option Bytes
  finalNorm : List F
  lmHead : LinearWeightView
  layers : List (DecodePass.LayerWeights (DeviceTensor F))

section Model

variable {F : Type} [One F] [Add F] (ofBits : UInt32 → F) (grants : List Nat → Bool) (cfg : TargetConfig)

/-- A layer, and the type that is pushed to the configuration. -/
def loadLayer (metaTypes : List Bytes) (l : Nat) : LoadM (DecodePass.LayerWeights (DeviceTensor F) × Bytes) := do
  let layer ← commonPart (loadTensor ofBits grants cfg (layerRoot l) l) cfg
  if cfg.fullAttentionInterval ≤ 0 then
    throw (refused (ascii "Invalid full_attention_interval in model config: " ++ signedDecimal cfg.fullAttentionInterval))
  else do
    let reader ← read (·.reader)
    let detected := detectedType cfg reader (layerRoot l) l metaTypes[l]?
    match crossCheck cfg l detected metaTypes[l]? with
    | .error message => throw (refused message)
    | .ok () => do
        let attention ← mixerPart (loadTensor ofBits grants cfg (layerRoot l) l) cfg detected
        pure (layer attention, detected)

/-- The loop over so many layers from one on. -/
def loadLayersFrom (metaTypes : List Bytes) : Nat → Nat → LoadM
    (List (DecodePass.LayerWeights (DeviceTensor F) × Bytes))
  | 0, _ => pure []
  | count + 1, l => do
      let layer ← loadLayer ofBits grants cfg metaTypes l
      let rest ← loadLayersFrom metaTypes count (l + 1)
      pure (layer :: rest)

def loadEmbedTokens : LoadM (Option Bytes) := do
  let expected := cfg.vocabSize.toNat * cfg.hiddenSize * 2
  let hostEmbed ← readSection embedName
  if hostEmbed.length ≠ expected then
    throw (refused (ascii "Embed tokens size mismatch for " ++ embedName ++ ascii ": expected " ++ decimal expected ++
      ascii ", got " ++ decimal hostEmbed.length))
  else upload grants hostEmbed.length hostEmbed

/-- `load_from_artifact` with the configuration that its checks have let through. -/
def loadWeights : LoadM (LoadedModel F) := do
  let embedTokens ← loadEmbedTokens grants cfg
  match ← loadBf16AsFp32 ofBits grants finalNormName cfg.hiddenSize true with
  | none => throw (refused (ascii "Failed to load final norm"))
  | some finalNorm => do
      let lmHead ← loadLinear grants cfg lmHeadName cfg.vocabSize.toNat cfg.hiddenSize
      if lmHead.isValid then do
        let reader ← read (·.reader)
        match metaLayerTypes cfg reader.metadata with
        | .error message => throw (refused message)
        | .ok metaTypes => do
            let loaded ← loadLayersFrom ofBits grants cfg metaTypes cfg.numHiddenLayers 0
            pure ⟨{ cfg with layerTypes := loaded.map (·.2) }, embedTokens, finalNorm, lmHead, loaded.map (·.1)⟩
      else throw (refused (ascii "Failed to load lm_head"))

end Model

/-- The tensors of a token mixer. -/
def mixerTensors (cfg : TargetConfig) (type : Bytes) : List Tensor :=
  if type = fullAttention then fullTensors cfg else linearTensors cfg

section Forgetting

variable {F : Type} [One F] [Add F] {ofBits : UInt32 → F} {grants : List Nat → Bool} {cfg : TargetConfig}

theorem loadLinear_forget (name : Bytes) (outFeatures inFeatures : Nat) :
    LinearWeightView.isValid <$> loadLinear grants cfg name outFeatures inFeatures =
      LayerSlots.loadLinear grants cfg name outFeatures inFeatures := by
  unfold loadLinear LayerSlots.loadLinear
  simp only [map_bind, upload]
  refine bind_congr fun hostW => ?_
  split
  · rfl
  · simp only [map_bind, bind_assoc, pure_bind]
    refine bind_congr fun held => bind_congr fun hostS => ?_
    split
    · rfl
    · simp only [map_bind, map_pure]
      refine bind_congr fun heldScales => ?_
      cases held <;> cases heldScales <;> rfl

theorem loadBf16AsFp32_forget (ofBits : UInt32 → F) (name : Bytes) (elements : Nat) (addUnitOffset : Bool) :
    Option.isSome <$> loadBf16AsFp32 ofBits grants name elements addUnitOffset =
      LayerSlots.loadBf16AsFp32 grants name elements := by
  unfold loadBf16AsFp32 LayerSlots.loadBf16AsFp32
  simp only [map_bind]
  refine bind_congr fun raw => ?_
  split
  · rfl
  · simp only [upload, map_bind, map_pure]
    have same : ∀ held : Bool, (if held = true then some (hostFp32 ofBits addUnitOffset raw) else none).isSome =
      held := by
      intro held
      cases held <;> rfl
    simp only [same, bind_pure]

theorem loadTensor_forget (ofBits : UInt32 → F) (grants : List Nat → Bool) (cfg : TargetConfig) (root : Bytes)
    (l : Nat) (tensor : Tensor) (addUnitOffset : Bool) :
    (fun _ => ()) <$> loadTensor ofBits grants cfg root l tensor addUnitOffset =
      LayerSlots.loadTensor grants cfg root l tensor := by
  obtain ⟨name, label, shape⟩ := tensor
  unfold loadTensor LayerSlots.loadTensor
  cases shape with
  | int4 outFeatures inFeatures =>
      simp only [← loadLinear_forget, map_bind, bind_map_left]
      refine bind_congr fun view => ?_
      split <;> rfl
  | bf16 elements =>
      dsimp only
      rw [← loadBf16AsFp32_forget ofBits _ _ addUnitOffset, map_bind, bind_map_left]
      refine bind_congr fun held => ?_
      cases held <;> rfl

variable {W : Type} {load : Tensor → Bool → LoadM W} {check : Tensor → LoadM Unit}

theorem bind_forget {α β : Type} {program : LoadM α} {run : LoadM Unit} (same : (fun _ => ()) <$> program = run)
    (next : LoadM β) : (program >>= fun _ => next) = run >>= fun _ => next := by
  rw [← same, bind_map_left]

theorem commonPart_forget (same : ∀ tensor addUnitOffset, (fun _ => ()) <$> load tensor addUnitOffset = check tensor) :
    (fun _ => ()) <$> commonPart load cfg = (commonTensors cfg).forM check := by
  unfold commonPart commonTensors
  simp only [map_bind, map_pure, bind_forget (same _ _)]
  rfl

theorem mixerPart_forget (cfg : TargetConfig) (same : ∀ tensor addUnitOffset,
    (fun _ => ()) <$> load tensor addUnitOffset = check tensor)
    (type : Bytes) : (fun _ => ()) <$> mixerPart load cfg type = (mixerTensors cfg type).forM check := by
  unfold mixerPart mixerTensors
  split
  · unfold fullPart fullTensors
    simp only [map_bind, map_pure, bind_forget (same _ _)]
    rfl
  · unfold linearPart linearTensors
    simp only [map_bind, map_pure, bind_forget (same _ _)]
    rfl

/-- What the numbering of the layers needs of one. -/
def forgetLayer (l : Nat) (loaded : DecodePass.LayerWeights (DeviceTensor F) × Bytes)
    : LayerSlots.LayerWeights × Bytes :=
  (⟨l, if loaded.2 = fullAttention then loaded.2 else linearAttention⟩, loaded.2)

theorem loadLayer_forget (ofBits : UInt32 → F) (metaTypes : List Bytes) (l : Nat) :
    forgetLayer l <$> loadLayer ofBits grants cfg metaTypes l = LayerSlots.loadLayer grants cfg metaTypes l := by
  have same := fun tensor addUnitOffset => loadTensor_forget ofBits grants cfg (layerRoot l) l tensor addUnitOffset
  unfold loadLayer LayerSlots.loadLayer
  rw [← layerRoot]
  dsimp only
  rw [← commonPart_forget same, bind_map_left, map_bind]
  refine bind_congr fun layer => ?_
  split
  · rfl
  · rw [map_bind]
    refine bind_congr fun reader => ?_
    generalize detectedType cfg reader (layerRoot l) l metaTypes[l]? = detected
    cases crossCheck cfg l detected metaTypes[l]? with
    | error message => rfl
    | ok checked =>
        have mixer := mixerPart_forget cfg same detected
        unfold mixerTensors at mixer
        dsimp only
        by_cases full : detected = fullAttention
        · rw [if_pos full] at mixer
          rw [if_pos full, ← mixer, bind_map_left, map_bind]
          simp only [map_pure, forgetLayer, if_pos full]
        · rw [if_neg full] at mixer
          rw [if_neg full, ← mixer, bind_map_left, map_bind]
          simp only [map_pure, forgetLayer, if_neg full]

/-- Forgetting what the blocks hold, the loop is the one that numbers the layers. -/
theorem loadLayersFrom_forget (metaTypes : List Bytes) (count first : Nat) :
    (fun loaded => loaded.zipIdx first |>.map fun layer => forgetLayer layer.2 layer.1) <$>
      loadLayersFrom ofBits grants cfg metaTypes count first =
        LayerSlots.loadLayersFrom grants cfg metaTypes count first := by
  induction count generalizing first with
  | zero => rfl
  | succ count ih =>
      unfold loadLayersFrom LayerSlots.loadLayersFrom
      rw [← loadLayer_forget ofBits, bind_map_left, map_bind]
      refine bind_congr fun layer => ?_
      rw [← ih, bind_map_left, map_bind]
      rfl

end Forgetting

section Served

open Container ArtifactReader ArtifactRoundTrip

variable {F : Type} [One F] [Add F] {ofBits : UInt32 → F} {grants : List Nat → Bool} {cfg : TargetConfig}
variable {text : Bytes} {metadata : MetadataJson.ArtifactMetadata} {sections : List PendingSection} {filepath : Bytes}

/-- The file is open, and the stream stands anywhere in it. -/
def Serving (text : Bytes) (metadata : MetadataJson.ArtifactMetadata) (sections : List PendingSection)
    (filepath : Bytes)
    (s : Loading) : Prop := ∃ pos, s.reader = readerOf text metadata sections filepath pos

/-- The device has no room for a request. -/
def Denied (grants : List Nat → Bool) (failure : LoadFailure) (_ : Loading) : Prop :=
  failure = .badAlloc ∧ ∃ requests, grants requests = false

/-- The bytes under a name. -/
def content (sections : List PendingSection) (name : Bytes) : Bytes :=
  ((sections.find? (·.name == name)).map PendingSection.data).getD []

theorem find_named {α : Type} {key : α → Bytes} {items : List α} (distinct : (items.map key).Nodup) {item : α}
    (member : item ∈ items) : items.find? (key · == key item) = some item := by
  induction items with
  | nil => cases member
  | cons head rest ih =>
      obtain ⟨fresh, later⟩ := List.nodup_cons.1 distinct
      rcases List.mem_cons.1 member with rfl | inside
      · exact List.find?_cons_of_pos (beq_self_eq_true _)
      · have other : key head ≠ key item := fun same => fresh (same ▸ List.mem_map_of_mem inside)
        rw [List.find?_cons_of_neg (by simpa using other)]
        exact ih later inside

theorem content_of_mem (distinct : (sections.map PendingSection.name).Nodup) {sec : PendingSection}
    (member : sec ∈ sections) :
    content sections sec.name = sec.data := by
  rw [content, find_named distinct member]
  rfl

theorem readSection_serves (stored : Stored text metadata sections)
    (distinct : (sections.map PendingSection.name).Nodup)
    {name : Bytes} (listed : name ∈ sections.map PendingSection.name) :
    Triple (Serving text metadata sections filepath) (LayerSlots.readSection name)
      (fun data s => data = content sections name ∧ Serving text metadata sections filepath s) (Denied grants) := by
  rintro s ⟨pos, reader⟩
  obtain ⟨sec, member, rfl⟩ := List.mem_map.1 listed
  obtain ⟨after, answer⟩ := readSection_stored stored distinct member filepath pos
  unfold LayerSlots.readSection
  rw [reader, answer]
  exact ⟨(content_of_mem distinct member).symm, after, rfl⟩

theorem upload_serves {α : Type} {bytes : Nat} (some' : 0 < bytes) (data : α) :
    Triple (Serving text metadata sections filepath) (upload grants bytes data)
      (fun held s => held = some data ∧ Serving text metadata sections filepath s) (Denied grants) := by
  unfold upload allocDev
  rw [if_neg (by omega)]
  rintro s ⟨pos, reader⟩
  by_cases granted : grants (s.requests ++ [bytes]) = true
  · simp only [bind_apply, modify_apply, read_apply, granted, if_true, pure_apply, true_and]
    exact ⟨pos, reader⟩
  · simp only [bind_apply, modify_apply, read_apply, granted]
    exact ⟨rfl, _, by simpa using granted⟩

/-- The sections of a tensor, at the sizes that loading asks for. -/
def Filed (sections : List PendingSection) (groupSize : Nat) (name : Bytes) : Shape → Prop
  | .int4 outFeatures inFeatures =>
      (name ∈ sections.map PendingSection.name ∧ name ++ ascii ".scales" ∈ sections.map PendingSection.name) ∧
        (content sections name).length = outFeatures * (inFeatures / 2) ∧
        (content sections (name ++ ascii ".scales")).length = outFeatures * (inFeatures / groupSize) * 2 ∧
        0 < outFeatures * (inFeatures / 2) ∧ 0 < outFeatures * (inFeatures / groupSize)
  | .bf16 elements => name ∈ sections.map PendingSection.name ∧
      (content sections name).length = elements * 2 ∧ 0 < elements

/-- The view of a matrix whose sections are filed. -/
def linearView (sections : List PendingSection) (groupSize : Nat) (name : Bytes) (outFeatures inFeatures : Nat) :
    LinearWeightView where
  weightsInt4 := some (content sections name)
  scales := some (content sections (name ++ ascii ".scales"))
  inFeatures := inFeatures
  outFeatures := outFeatures
  groupSize := groupSize

/-- What loading makes of a tensor whose sections are filed. -/
def filedTensor (ofBits : UInt32 → F) (sections : List PendingSection) (groupSize : Nat) (root : Bytes)
    (tensor : Tensor)
    (addUnitOffset : Bool) : DeviceTensor F :=
  match tensor.shape with
  | .int4 outFeatures inFeatures => .int4 (linearView sections groupSize (root ++ tensor.name) outFeatures inFeatures)
  | .bf16 _ => .fp32 (hostFp32 ofBits addUnitOffset (content sections (root ++ tensor.name)))

variable (stored : Stored text metadata sections) (distinct : (sections.map PendingSection.name).Nodup)
include stored distinct

theorem loadLinear_serves {name : Bytes} {outFeatures inFeatures : Nat}
    (filed : Filed sections cfg.groupSize name (.int4 outFeatures inFeatures)) :
    Triple (Serving text metadata sections filepath) (loadLinear grants cfg name outFeatures inFeatures)
      (fun view s => view = linearView sections cfg.groupSize name outFeatures inFeatures ∧
        Serving text metadata sections filepath s) (Denied grants) := by
  obtain ⟨⟨named, scalesNamed⟩, size, scalesSize, some', someScales⟩ := filed
  unfold loadLinear
  refine triple_gives (readSection_serves stored distinct named) ?_
  rw [if_neg (by simp [size])]
  refine triple_gives (upload_serves (by omega) _) ?_
  refine triple_gives (readSection_serves stored distinct scalesNamed) ?_
  rw [if_neg (by simp [scalesSize])]
  refine triple_gives (upload_serves (by omega) _) ?_
  exact triple_pure _ fun s serving => ⟨rfl, serving⟩

theorem loadBf16AsFp32_serves {name : Bytes} {elements : Nat}
    (filed : Filed sections cfg.groupSize name (.bf16 elements))
    (addUnitOffset : Bool) :
    Triple (Serving text metadata sections filepath) (loadBf16AsFp32 ofBits grants name elements addUnitOffset)
      (fun held s => held = some (hostFp32 ofBits addUnitOffset (content sections name)) ∧
        Serving text metadata sections filepath s) (Denied grants) := by
  obtain ⟨named, size, some'⟩ := filed
  unfold loadBf16AsFp32
  refine triple_gives (readSection_serves stored distinct named) ?_
  rw [if_neg (by simp [size])]
  exact upload_serves (by omega) _

theorem loadTensor_serves {root : Bytes} {tensor : Tensor}
    (filed : Filed sections cfg.groupSize (root ++ tensor.name) tensor.shape)
    (l : Nat) (addUnitOffset : Bool) :
    Triple (Serving text metadata sections filepath) (loadTensor ofBits grants cfg root l tensor addUnitOffset)
      (fun held s => held = filedTensor ofBits sections cfg.groupSize root tensor addUnitOffset ∧
        Serving text metadata sections filepath s) (Denied grants) := by
  obtain ⟨name, label, shape⟩ := tensor
  cases shape with
  | int4 outFeatures inFeatures =>
      exact triple_gives (loadLinear_serves stored distinct filed) (triple_pure _ fun s serving => ⟨rfl, serving⟩)
  | bf16 elements =>
      exact triple_gives (loadBf16AsFp32_serves stored distinct filed addUnitOffset)
        (triple_pure _ fun s serving => ⟨rfl, serving⟩)

end Served

section Parts

variable {W : Type} {cfg : TargetConfig} {load : Tensor → Bool → LoadM W} {value : Tensor → Bool → W}
  {pre : Loading → Prop} {fail : LoadFailure → Loading → Prop}

/-- The loads answer as the values say. -/
def Answers (load : Tensor → Bool → LoadM W) (value : Tensor → Bool → W) (pre : Loading → Prop)
    (fail : LoadFailure → Loading → Prop) (tensors : List Tensor) : Prop :=
  ∀ tensor ∈ tensors, ∀ addUnitOffset, Triple pre (load tensor addUnitOffset)
    (fun held s => held = value tensor addUnitOffset ∧ pre s) fail

theorem commonPart_answers (answers : Answers load value pre fail (commonTensors cfg)) :
    Triple pre (commonPart load cfg) (fun layer s => layer = commonPart (m := Id) value cfg ∧ pre s) fail := by
  unfold commonPart
  refine triple_gives (answers _ (by simp [commonTensors]) true) ?_
  refine triple_gives (answers _ (by simp [commonTensors]) true) ?_
  refine triple_gives (answers _ (by simp [commonTensors]) false) ?_
  refine triple_gives (answers _ (by simp [commonTensors]) false) ?_
  refine triple_gives (answers _ (by simp [commonTensors]) false) ?_
  exact triple_pure _ fun s start => ⟨rfl, start⟩

theorem fullPart_answers (answers : Answers load value pre fail (fullTensors cfg)) :
    Triple pre (fullPart load cfg) (fun part s => part = fullPart (m := Id) value cfg ∧ pre s) fail := by
  unfold fullPart
  refine triple_gives (answers _ (by simp [fullTensors]) false) ?_
  refine triple_gives (answers _ (by simp [fullTensors]) false) ?_
  refine triple_gives (answers _ (by simp [fullTensors]) false) ?_
  refine triple_gives (answers _ (by simp [fullTensors]) false) ?_
  refine triple_gives (answers _ (by simp [fullTensors]) true) ?_
  refine triple_gives (answers _ (by simp [fullTensors]) true) ?_
  exact triple_pure _ fun s start => ⟨rfl, start⟩

theorem linearPart_answers (answers : Answers load value pre fail (linearTensors cfg)) :
    Triple pre (linearPart load cfg) (fun part s => part = linearPart (m := Id) value cfg ∧ pre s) fail := by
  unfold linearPart
  refine triple_gives (answers _ (by simp [linearTensors]) false) ?_
  refine triple_gives (answers _ (by simp [linearTensors]) false) ?_
  refine triple_gives (answers _ (by simp [linearTensors]) false) ?_
  refine triple_gives (answers _ (by simp [linearTensors]) false) ?_
  refine triple_gives (answers _ (by simp [linearTensors]) false) ?_
  refine triple_gives (answers _ (by simp [linearTensors]) false) ?_
  refine triple_gives (answers _ (by simp [linearTensors]) false) ?_
  refine triple_gives (answers _ (by simp [linearTensors]) false) ?_
  refine triple_gives (answers _ (by simp [linearTensors]) false) ?_
  exact triple_pure _ fun s start => ⟨rfl, start⟩

theorem mixerPart_answers {type : Bytes} (answers : Answers load value pre fail (mixerTensors cfg type)) :
    Triple pre (mixerPart load cfg type) (fun part s => part = mixerPart (m := Id) value cfg type ∧ pre s) fail := by
  unfold mixerTensors at answers
  unfold mixerPart
  by_cases full : type = fullAttention
  · rw [if_pos full] at answers
    simp only [if_pos full]
    exact fullPart_answers answers
  · rw [if_neg full] at answers
    simp only [if_neg full]
    exact linearPart_answers answers

/-- A part depends on its own tensors only. -/
theorem commonPart_congr {other : Tensor → Bool → W}
    (same : ∀ tensor ∈ commonTensors cfg, value tensor = other tensor) :
    commonPart (m := Id) value cfg = commonPart (m := Id) other cfg := by
  simp only [commonTensors, List.forall_mem_cons] at same
  obtain ⟨first, second, third, fourth, fifth, -⟩ := same
  unfold commonPart
  rw [first, second, third, fourth, fifth]

theorem mixerPart_congr {other : Tensor → Bool → W} {type : Bytes}
    (same : ∀ tensor ∈ mixerTensors cfg type, value tensor = other tensor) :
    mixerPart (m := Id) value cfg type = mixerPart (m := Id) other cfg type := by
  unfold mixerTensors at same
  unfold mixerPart
  by_cases full : type = fullAttention
  · rw [if_pos full] at same ⊢
    simp only [fullTensors, List.forall_mem_cons] at same
    obtain ⟨first, second, third, fourth, fifth, sixth, -⟩ := same
    rw [if_pos full]
    unfold fullPart
    rw [first, second, third, fourth, fifth, sixth]
  · rw [if_neg full] at same ⊢
    simp only [linearTensors, List.forall_mem_cons] at same
    obtain ⟨first, second, third, fourth, fifth, sixth, seventh, eighth, ninth, -⟩ := same
    rw [if_neg full]
    unfold linearPart
    rw [first, second, third, fourth, fifth, sixth, seventh, eighth, ninth]

end Parts

section Model

open Container ArtifactReader ArtifactRoundTrip

variable {F : Type} [One F] [Add F] {ofBits : UInt32 → F} {grants : List Nat → Bool} {cfg : TargetConfig}
variable {text : Bytes} {metadata : MetadataJson.ArtifactMetadata} {sections : List PendingSection} {filepath : Bytes}

theorem mixerTensors_full : mixerTensors cfg fullAttention = fullTensors cfg := if_pos rfl

theorem mixerTensors_linear : mixerTensors cfg linearAttention = linearTensors cfg := if_neg (by decide)

/-- What the metadata says of a layer, or else the interval. -/
def declaredType (cfg : TargetConfig) (metaTypes : List Bytes) (l : Nat) : Bytes :=
  metaTypes[l]?.getD (expectedByInterval cfg l)

structure FiledLayer (sections : List PendingSection) (cfg : TargetConfig) (type : Bytes) (l : Nat) : Prop where
  known : type = fullAttention ∨ type = linearAttention
  common : ∀ tensor ∈ commonTensors cfg, Filed sections cfg.groupSize (layerRoot l ++ tensor.name) tensor.shape
  mixer : ∀ tensor ∈ mixerTensors cfg type, Filed sections cfg.groupSize (layerRoot l ++ tensor.name) tensor.shape

/-- What loading makes of a layer whose sections are filed. -/
def filedLayer (ofBits : UInt32 → F) (sections : List PendingSection) (cfg : TargetConfig) (type : Bytes) (l : Nat) :
    DecodePass.LayerWeights (DeviceTensor F) :=
  let value := filedTensor ofBits sections cfg.groupSize (layerRoot l)
  commonPart (m := Id) value cfg (mixerPart (m := Id) value cfg type)

theorem Filed.named {groupSize : Nat} {name : Bytes} {shape : Shape} (filed : Filed sections groupSize name shape) :
    name ∈ sections.map PendingSection.name := by
  cases shape with
  | int4 outFeatures inFeatures => exact filed.1.1
  | bf16 elements => exact filed.1

theorem hasSection_stored (distinct : (sections.map PendingSection.name).Nodup) (name : Bytes) {r : ArtifactReader}
    (index : r.sectionIndexMap = indexed 0 sections []) :
    r.hasSection name = true ↔ name ∈ sections.map PendingSection.name := by
  unfold hasSection
  rw [index]
  constructor
  · intro found
    by_contra absent
    rw [lookup_indexed_other absent] at found
    cases found
  · intro listed
    obtain ⟨sec, member, rfl⟩ := List.mem_map.1 listed
    obtain ⟨k, place⟩ := List.mem_iff_getElem?.1 member
    rw [lookup_indexed distinct place]
    rfl

/-- The sections of a layer tell its type, or leave it to what is declared. -/
theorem detectedType_filed (distinct : (sections.map PendingSection.name).Nodup) {metaTypes : List Bytes} {l : Nat}
    (filed : FiledLayer sections cfg (declaredType cfg metaTypes l) l) {r : ArtifactReader}
    (index : r.sectionIndexMap = indexed 0 sections []) :
    detectedType cfg r (layerRoot l) l metaTypes[l]? =
      declaredType cfg metaTypes l := by
  have own := filed.mixer
  unfold detectedType
  dsimp only
  rcases filed.known with full | linear
  · -- the query projection is there
    have marked :=
      (hasSection_stored distinct _ index).2 (own _ (by rw [full, mixerTensors_full]; exact List.mem_cons_self)).named
    rw [marked]
    split_ifs with alone other
    · exact full.symm
    · simp at other
    · rfl
  · have marked :=
      (hasSection_stored distinct _ index).2 (own _
        (by rw [linear, mixerTensors_linear]; exact List.mem_cons_self)).named
    rw [marked]
    split_ifs with other alone
    · simp at other
    · exact linear.symm
    · rfl

theorem crossCheck_declaredType (metaTypes : List Bytes) (l : Nat) :
    crossCheck cfg l (declaredType cfg metaTypes l) metaTypes[l]? = .ok () := by
  unfold declaredType
  cases listed : metaTypes[l]? with
  | some required => simp [crossCheck]
  | none => simp [crossCheck]

/-- Each layer under its declared type. -/
def filedLayers (ofBits : UInt32 → F) (sections : List PendingSection) (cfg : TargetConfig) (metaTypes : List Bytes)
    (count first : Nat) : List (DecodePass.LayerWeights (DeviceTensor F) × Bytes) :=
  (List.range' first count).map fun l =>
    (filedLayer ofBits sections cfg (declaredType cfg metaTypes l) l, declaredType cfg metaTypes l)

/-- An artifact with everything that loading asks for. -/
structure FiledModel (sections : List PendingSection) (cfg : TargetConfig) (metaTypes : List Bytes) : Prop where
  interval : 0 < cfg.fullAttentionInterval
  embedTokens : Filed sections cfg.groupSize embedName (.bf16 (cfg.vocabSize.toNat * cfg.hiddenSize))
  finalNorm : Filed sections cfg.groupSize finalNormName (.bf16 cfg.hiddenSize)
  lmHead : Filed sections cfg.groupSize lmHeadName (.int4 cfg.vocabSize.toNat cfg.hiddenSize)
  layers : ∀ l < cfg.numHiddenLayers, FiledLayer sections cfg (declaredType cfg metaTypes l) l

def filedModel (ofBits : UInt32 → F) (sections : List PendingSection) (cfg : TargetConfig) (metaTypes : List Bytes) :
    LoadedModel F :=
  let layers := filedLayers ofBits sections cfg metaTypes cfg.numHiddenLayers 0
  { config := { cfg with layerTypes := layers.map (·.2) }
    embedTokens := some (content sections embedName)
    finalNorm := hostFp32 ofBits true (content sections finalNormName)
    lmHead := linearView sections cfg.groupSize lmHeadName cfg.vocabSize.toNat cfg.hiddenSize
    layers := layers.map (·.1) }

variable (stored : Stored text metadata sections) (distinct : (sections.map PendingSection.name).Nodup)
include stored distinct

theorem loadLayer_serves (interval : 0 < cfg.fullAttentionInterval) {metaTypes : List Bytes} {l : Nat}
    (filed : FiledLayer sections cfg (declaredType cfg metaTypes l) l) :
    Triple (Serving text metadata sections filepath) (loadLayer ofBits grants cfg metaTypes l)
      (fun layer s => layer = (filedLayer ofBits sections cfg
        (declaredType cfg metaTypes l) l, declaredType cfg metaTypes l) ∧
        Serving text metadata sections filepath s) (Denied grants) := by
  have answers : ∀ tensors, (∀ tensor ∈ tensors, Filed sections cfg.groupSize
    (layerRoot l ++ tensor.name) tensor.shape) →
      Answers (loadTensor ofBits grants cfg (layerRoot l) l) (filedTensor ofBits sections cfg.groupSize (layerRoot l))
        (Serving text metadata sections filepath) (Denied grants) tensors :=
    fun tensors each tensor member addUnitOffset => loadTensor_serves stored distinct
    (each tensor member) l addUnitOffset
  unfold loadLayer
  refine triple_gives (commonPart_answers (answers _ filed.common)) ?_
  rw [if_neg (by omega)]
  refine triple_read (fun s : Loading => s.reader) fun reader => ?_
  rintro s ⟨⟨pos, standing⟩, rfl⟩
  dsimp only
  rw [detectedType_filed distinct filed (by rw [standing]; rfl), crossCheck_declaredType]
  have mixer : Triple (Serving text metadata sections filepath)
      (mixerPart (loadTensor ofBits grants cfg (layerRoot l) l) cfg (declaredType cfg metaTypes l) >>= fun attention =>
        pure (commonPart (m := Id) (filedTensor ofBits sections cfg.groupSize (layerRoot l)) cfg attention,
          declaredType cfg metaTypes l))
      (fun layer s => layer = (filedLayer ofBits sections cfg
        (declaredType cfg metaTypes l) l, declaredType cfg metaTypes l) ∧
        Serving text metadata sections filepath s) (Denied grants) :=
    triple_gives (mixerPart_answers (answers _ filed.mixer)) (triple_pure _ fun s serving => ⟨rfl, serving⟩)
  exact mixer s ⟨pos, standing⟩

theorem loadLayersFrom_serves (interval : 0 < cfg.fullAttentionInterval) {metaTypes : List Bytes} {count first : Nat}
    (filed : ∀ l, first ≤ l → l < first + count → FiledLayer sections cfg (declaredType cfg metaTypes l) l) :
    Triple (Serving text metadata sections filepath) (loadLayersFrom ofBits grants cfg metaTypes count first)
      (fun loaded s => loaded = filedLayers ofBits sections cfg metaTypes count first ∧
        Serving text metadata sections filepath s) (Denied grants) := by
  induction count generalizing first with
  | zero => exact triple_pure _ fun s serving => ⟨rfl, serving⟩
  | succ count ih =>
      unfold loadLayersFrom
      refine triple_gives (loadLayer_serves stored distinct interval (filed first (Nat.le_refl _) (by omega))) ?_
      refine triple_gives (ih fun l after before => filed l (by omega) (by omega)) ?_
      exact triple_pure _ fun s serving => ⟨rfl, serving⟩

theorem loadEmbedTokens_serves
    (filed : Filed sections cfg.groupSize embedName (.bf16 (cfg.vocabSize.toNat * cfg.hiddenSize))) :
    Triple (Serving text metadata sections filepath) (loadEmbedTokens grants cfg)
      (fun held s => held = some (content sections embedName) ∧ Serving text metadata sections filepath s)
      (Denied grants) := by
  obtain ⟨named, size, some'⟩ := filed
  unfold loadEmbedTokens
  refine triple_gives (readSection_serves stored distinct named) ?_
  rw [if_neg (by simp [size])]
  exact upload_serves (by omega) _

/-- Loading gives the model that is filed, unless the device runs out of memory. -/
theorem loadWeights_serves {metaTypes : List Bytes} (types : metaLayerTypes cfg metadata = .ok metaTypes)
    (filed : FiledModel sections cfg metaTypes) :
    Triple (Serving text metadata sections filepath) (loadWeights ofBits grants cfg)
      (fun model s => model = filedModel ofBits sections cfg metaTypes ∧ Serving text metadata sections filepath s)
      (Denied grants) := by
  unfold loadWeights
  refine triple_gives (loadEmbedTokens_serves stored distinct filed.embedTokens) ?_
  refine triple_gives (loadBf16AsFp32_serves stored distinct filed.finalNorm true) ?_
  refine triple_gives (loadLinear_serves stored distinct filed.lmHead) ?_
  rw [if_pos (by rfl)]
  refine triple_read (fun s : Loading => s.reader) fun reader => ?_
  rintro s ⟨⟨pos, standing⟩, rfl⟩
  have declared : metaLayerTypes cfg s.reader.metadata = .ok metaTypes := by
    rw [standing]
    exact types
  dsimp only
  rw [declared]
  have layers : Triple (Serving text metadata sections filepath)
      (loadLayersFrom ofBits grants cfg metaTypes cfg.numHiddenLayers 0)
      (fun loaded s => loaded = filedLayers ofBits sections cfg metaTypes cfg.numHiddenLayers 0 ∧
        Serving text metadata sections filepath s) (Denied grants) :=
    loadLayersFrom_serves stored distinct filed.interval fun l _ inside => filed.layers l (by omega)
  have run := layers s ⟨pos, standing⟩
  dsimp only
  rw [bind_apply]
  cases done : loadLayersFrom ofBits grants cfg metaTypes cfg.numHiddenLayers 0 s with
  | ok loaded after =>
      rw [done] at run
      obtain ⟨rfl, serving⟩ := run
      exact ⟨rfl, serving⟩
  | error failure after =>
      rw [done] at run
      exact run

end Model

end XInfer.WeightLoading
