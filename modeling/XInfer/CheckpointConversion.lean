import XInfer.ByteString
import XInfer.Converter
import XInfer.ConverterInt4
import XInfer.ServeResponses
import XInfer.WeightLoading

/-!
A checkpoint through `tools/convert/qwen3_8_27b/convert.py` and back through `load_from_artifact`: matrices of the
projections are quantised, everything else is copied, and loading finds each tensor under its name again.
-/

namespace XInfer.CheckpointConversion

open Primitives ByteString LittleEndian Container Converter ConverterInt4 LayerSlots WeightLoading

/-- A tensor of a shard: `get_tensor_bytes` of it, and `float()` of it row behind row. -/
structure CheckpointTensor where
  name : Bytes
  shape : List Nat
  raw : Bytes
  value : Nat → Rat

def SECTION_TYPE_RAW_BLOB : SectionType := 0
def SECTION_TYPE_TOKENIZER_DATA : SectionType := 2
def SECTION_TYPE_TENSOR_WEIGHTS : SectionType := 3
def SECTION_TYPE_TENSOR_SCALES : SectionType := 4
def SECTION_TYPE_CHAT_TEMPLATE : SectionType := 5

def linearPatterns : List Bytes :=
  [ascii "proj", ascii "q_proj", ascii "k_proj", ascii "v_proj", ascii "o_proj", ascii "gate_proj", ascii "up_proj",
   ascii "down_proj", ascii "in_proj_a", ascii "in_proj_b", ascii "in_proj_qkv", ascii "in_proj_z", ascii "out_proj",
   ascii "lm_head"]

def shouldQuantizeTensor (groupSize : Nat) (tensor : CheckpointTensor) : Bool :=
  match tensor.shape with
  | [_, cols] => cols % groupSize == 0 && !decide (Contains (ascii "embed_tokens") tensor.name) &&
      linearPatterns.any fun p => decide (Contains p tensor.name)
  | _ => false

section Conversion

variable (groupSize : Nat) (float16 : Rat → UInt16)

/-- The packed bytes of a matrix and the bytes of its scales; `float16` gives the bits of the conversion. -/
def quantised (tensor : CheckpointTensor) : Bytes × Bytes :=
  let rows := tensor.shape.getD 0 0
  let cols := tensor.shape.getD 1 0
  let converted := quantizeInt4Symmetric (fun n k => tensor.value (n * cols + k)) rows cols groupSize id
  (converted.1, converted.2.flatMap fun scale => pack 2 (float16 scale).toNat)

def convertTensor (tensor : CheckpointTensor) : List PendingSection :=
  if shouldQuantizeTensor groupSize tensor then
    let converted := quantised groupSize float16 tensor
    [⟨tensor.name, SECTION_TYPE_TENSOR_WEIGHTS, 0, converted.1⟩,
     ⟨tensor.name ++ ascii ".scales", SECTION_TYPE_TENSOR_SCALES, 0, converted.2⟩]
  else [⟨tensor.name, SECTION_TYPE_RAW_BLOB, 0, tensor.raw⟩]

/-- The calls of `write_section`, shard by shard; the two files need not be there. -/
def convertSections (shards : List (List CheckpointTensor)) (tokenizerJson chatTemplate : Option Bytes) :
    List PendingSection :=
  shards.flatten.flatMap (convertTensor groupSize float16) ++
    (tokenizerJson.toList.map fun data => ⟨ascii "tokenizer.data", SECTION_TYPE_TOKENIZER_DATA, 0, data⟩) ++
    chatTemplate.toList.map fun data => ⟨ascii "chat_template.jinja", SECTION_TYPE_CHAT_TEMPLATE, 0, data⟩

/-- The artifact that `main` leaves. -/
def convert (engine : FastCRC64) (metaJsonBytes : Bytes) (shards : List (List CheckpointTensor))
    (tokenizerJson chatTemplate : Option Bytes) : Option Bytes :=
  emit engine metaJsonBytes (convertSections groupSize float16 shards tokenizerJson chatTemplate)

end Conversion

section Names

/-- A text without digits does not reach over a number. -/
theorem not_across_decimal {pattern root suffix : Bytes} (l : Nat)
    (plain : ∀ c ∈ pattern, JsonGrammar.isDigit c = false)
    (some' : pattern ≠ []) (before : ¬ pattern <:+: root) (after : ¬ pattern <:+: suffix) :
    ¬ pattern <:+: root ++ decimal l ++ suffix := by
  obtain ⟨filled, digits⟩ := ServeResponses.decimal_digits l
  -- a part of the pattern that lies in the number is empty
  have none : ∀ part : Bytes, part <:+: decimal l → (∀ c ∈ part, c ∈ pattern) → part = [] := by
    intro part inside own
    refine List.eq_nil_iff_forall_not_mem.2 fun c member => ?_
    have digit := digits c (inside.subset member)
    rw [plain c (own c member)] at digit
    cases digit
  rw [List.append_assoc, List.infix_append_iff, List.infix_append_iff]
  rintro (inRoot | (inNumber | inSuffix | ⟨front, back, rfl, ends, begins⟩) | ⟨front, back, rfl, ends, begins⟩)
  · exact before inRoot
  · exact some' (none pattern inNumber fun c member => member)
  · exact after inSuffix
  · have empty := none front ends.isInfix fun c member => List.mem_append_left _ member
    subst empty
    exact after begins.isInfix
  · have empty : back = [] := by
      rcases List.prefix_or_prefix_of_prefix begins (List.prefix_append (decimal l) suffix) with inside | ⟨rest, rfl⟩
      · exact none back inside.isInfix fun c member => List.mem_append_right _ member
      · exact absurd (none (decimal l) List.infix_rfl fun c member => by simp [member]) filled
    subst empty
    rw [List.append_nil] at before
    exact before ends.isInfix

/-- A projection of a layer, by its name. -/
def projectionName (name : Bytes) : Bool :=
  decide (Contains (ascii "proj") name) && !decide (Contains (ascii "embed_tokens") name)

theorem layer_projections (cfg : TargetConfig) :
    ((commonTensors cfg ++ fullTensors cfg ++ linearTensors cfg).all fun tensor => match tensor.shape with
      | .int4 _ _ => projectionName tensor.name
      | .bf16 _ => true) = true := rfl

/-- The name of a projection marks it as one in every layer. -/
theorem layer_name_quantised {name : Bytes} (projection : projectionName name = true) (l : Nat) :
    Contains (ascii "proj") (layerRoot l ++ name) ∧ ¬ Contains (ascii "embed_tokens") (layerRoot l ++ name) := by
  unfold projectionName at projection
  rw [Bool.and_eq_true, Bool.not_eq_true', decide_eq_true_iff, decide_eq_false_iff_not] at projection
  obtain ⟨inside, apart⟩ := projection
  rw [contains_iff] at inside apart ⊢
  refine ⟨List.infix_append_of_infix_right inside, ?_⟩
  rw [contains_iff]
  exact not_across_decimal l (by decide) (by decide) (by rw [← contains_iff]; decide) apart

end Names

section Tensors

variable {groupSize : Nat} {float16 : Rat → UInt16} {tensors : List CheckpointTensor} {tensor : CheckpointTensor}

theorem length_flatMap_same {α β : Type} {f : α → List β} {width : Nat} (items : List α)
    (each : ∀ item, (f item).length = width) :
    (items.flatMap f).length = items.length * width := by
  induction items with
  | nil => simp
  | cons item rest ih => rw
    [List.flatMap_cons, List.length_append, each, ih, List.length_cons, Nat.add_mul, Nat.one_mul, Nat.add_comm]

/-- The sizes that loading asks for. -/
theorem quantised_length {outFeatures inFeatures : Nat} (shape : tensor.shape = [outFeatures, inFeatures])
    (even : 2 ∣ groupSize) (positive : 0 < groupSize) (divides : groupSize ∣ inFeatures) :
    (quantised groupSize float16 tensor).1.length = outFeatures * (inFeatures / 2) ∧
      (quantised groupSize float16 tensor).2.length = outFeatures * (inFeatures / groupSize) * 2 := by
  have groups : outFeatures * inFeatures / groupSize = outFeatures * (inFeatures / groupSize) :=
    Nat.mul_div_assoc outFeatures divides
  obtain ⟨half, rfl⟩ := even
  obtain ⟨count, rfl⟩ := divides
  have row : 2 * half * count / 2 = count * half := by
    rw [Nat.mul_assoc, Nat.mul_div_cancel_left _ (by decide), Nat.mul_comm]
  have width : 2 * half / 2 = half := Nat.mul_div_cancel_left _ (by decide)
  have across : 2 * half * count / (2 * half) = count := Nat.mul_div_cancel_left _ positive
  rw [across] at groups
  have rows : tensor.shape.getD 0 0 = outFeatures := by rw [shape]; rfl
  have cols : tensor.shape.getD 1 0 = 2 * half * count := by rw [shape]; rfl
  unfold quantised quantizeInt4Symmetric
  dsimp only
  rw [rows, cols, length_flatMap_same _ fun r => by rw [List.length_map, List.length_range],
    length_flatMap_same _ fun scale => pack_length 2 _, List.length_map, List.length_range, groups, row, width, across]
  exact ⟨Nat.mul_assoc _ _ _, rfl⟩

/-- The first section of a tensor has its name. -/
theorem names_sublist (tensors : List CheckpointTensor) : (tensors.map CheckpointTensor.name).Sublist
    ((tensors.flatMap (convertTensor groupSize float16)).map PendingSection.name) := by
  induction tensors with
  | nil => exact List.Sublist.slnil
  | cons tensor rest ih =>
      rw [List.flatMap_cons, List.map_append, List.map_cons]
      unfold convertTensor
      split
      · exact (ih.cons _).cons_cons _
      · exact ih.cons_cons _

/-- The tensor under a name. -/
def named (tensors : List CheckpointTensor) (name : Bytes) : CheckpointTensor :=
  (tensors.find? (·.name == name)).getD ⟨name, [], [], fun _ => 0⟩

theorem named_of_mem (distinct : (tensors.map CheckpointTensor.name).Nodup) (member : tensor ∈ tensors) :
    named tensors tensor.name = tensor := by
  rw [named, find_named distinct member]
  rfl

/-- A tensor of the checkpoint in the shape that loading asks for. -/
def Given (tensors : List CheckpointTensor) (groupSize : Nat) (name : Bytes) : Shape → Prop
  | .int4 outFeatures inFeatures => ∃ tensor ∈ tensors, tensor.name = name ∧ tensor.shape = [outFeatures, inFeatures] ∧
      groupSize ∣ inFeatures ∧ 0 < outFeatures ∧ 0 < inFeatures
  | .bf16 elements => ∃ tensor ∈ tensors, tensor.name = name ∧
      (tensor.shape.length ≠ 2 ∨ Contains (ascii "embed_tokens") name) ∧ tensor.raw.length = elements * 2 ∧ 0 < elements

theorem quantises {outFeatures inFeatures : Nat} (shape : tensor.shape = [outFeatures, inFeatures])
    (divides : groupSize ∣ inFeatures) (apart : ¬ Contains (ascii "embed_tokens") tensor.name) {pattern : Bytes}
    (listed : pattern ∈ linearPatterns) (inside : Contains pattern tensor.name) :
    shouldQuantizeTensor groupSize tensor = true := by
  unfold shouldQuantizeTensor
  rw [shape]
  simp only [Bool.and_eq_true, beq_iff_eq, Bool.not_eq_true', decide_eq_false_iff_not, List.any_eq_true, decide_eq_true_iff]
  exact ⟨⟨Nat.mod_eq_zero_of_dvd divides, apart⟩, pattern, listed, inside⟩

theorem copies (kept : tensor.shape.length ≠ 2 ∨ Contains (ascii "embed_tokens") tensor.name) :
    shouldQuantizeTensor groupSize tensor = false := by
  unfold shouldQuantizeTensor
  split
  · rename_i shape
    rw [shape] at kept
    have embedded : Contains (ascii "embed_tokens") tensor.name := kept.resolve_left fun other => other rfl
    simp [embedded]
  · rfl

end Tensors

section Filing

variable {F : Type} [One F] [Add F] {ofBits : UInt32 → F} {cfg : TargetConfig} {groupSize : Nat}
  {float16 : Rat → UInt16}
variable {tensors : List CheckpointTensor} {sections : List PendingSection}

/-- The sections of the tensors are among those of an artifact. -/
structure Written (groupSize : Nat) (float16 : Rat → UInt16) (tensors : List CheckpointTensor)
    (sections : List PendingSection) : Prop where
  all : ∀ tensor ∈ tensors, ∀ sec ∈ convertTensor groupSize float16 tensor, sec ∈ sections
  distinct : (sections.map PendingSection.name).Nodup
  names : (tensors.map CheckpointTensor.name).Nodup
  even : 2 ∣ groupSize
  positive : 0 < groupSize

/-- A matrix in device memory, as it was quantised. -/
def convertedView (float16 : Rat → UInt16) (tensors : List CheckpointTensor) (groupSize : Nat) (name : Bytes)
    (outFeatures inFeatures : Nat) : LinearWeightView where
  weightsInt4 := some (quantised groupSize float16 (named tensors name)).1
  scales := some (quantised groupSize float16 (named tensors name)).2
  inFeatures := inFeatures
  outFeatures := outFeatures
  groupSize := groupSize

def convertedTensor (ofBits : UInt32 → F) (float16 : Rat → UInt16) (tensors : List CheckpointTensor) (groupSize : Nat)
    (root : Bytes) (tensor : Tensor) (addUnitOffset : Bool) : DeviceTensor F :=
  match tensor.shape with
  | .int4 outFeatures inFeatures => .int4 (convertedView float16 tensors groupSize
    (root ++ tensor.name) outFeatures inFeatures)
  | .bf16 _ => .fp32 (hostFp32 ofBits addUnitOffset (named tensors (root ++ tensor.name)).raw)

theorem int4_filed (written : Written groupSize float16 tensors sections) {name : Bytes} {outFeatures inFeatures : Nat}
    (given : Given tensors groupSize name (.int4 outFeatures inFeatures)) (pattern : Bytes)
    (listed : pattern ∈ linearPatterns) (marked : Contains pattern name ∧ ¬ Contains (ascii "embed_tokens") name) :
    Filed sections groupSize name (.int4 outFeatures inFeatures) ∧
      linearView sections groupSize name outFeatures inFeatures =
        convertedView float16 tensors groupSize name outFeatures inFeatures := by
  obtain ⟨tensor, member, rfl, shape, divides, rows, cols⟩ := given
  have chosen := quantises shape divides marked.2 listed marked.1
  have size : (quantised groupSize float16 tensor).1.length = _ ∧ (quantised groupSize float16 tensor).2.length = _ :=
    quantised_length shape written.even written.positive divides
  have all := written.all tensor member
  unfold convertTensor at all
  rw [if_pos chosen] at all
  have packed := all _ List.mem_cons_self
  have scales := all _ (List.mem_cons_of_mem _ List.mem_cons_self)
  have packedContent := content_of_mem written.distinct packed
  have scalesContent := content_of_mem written.distinct scales
  dsimp only at packedContent scalesContent
  have groups : 0 < inFeatures / groupSize := Nat.div_pos (Nat.le_of_dvd cols divides) written.positive
  have halves : 0 < inFeatures / 2 :=
    Nat.div_pos (Nat.le_of_dvd cols (Nat.dvd_trans written.even divides)) (by decide)
  constructor
  · refine ⟨⟨List.mem_map_of_mem packed, List.mem_map_of_mem scales⟩, ?_, ?_, Nat.mul_pos rows halves, Nat.mul_pos rows groups⟩
    · rw [packedContent, size.1]
    · rw [scalesContent, size.2]
  · unfold linearView convertedView
    rw [packedContent, scalesContent, named_of_mem written.names member]

theorem bf16_filed (written : Written groupSize float16 tensors sections) {name : Bytes} {elements : Nat}
    (given : Given tensors groupSize name (.bf16 elements)) :
    Filed sections groupSize name (.bf16 elements) ∧ content sections name = (named tensors name).raw := by
  obtain ⟨tensor, member, rfl, kept, size, some'⟩ := given
  have all := written.all tensor member
  unfold convertTensor at all
  rw [if_neg (by rw [copies kept]; decide)] at all
  have copied := all _ List.mem_cons_self
  have copiedContent := content_of_mem written.distinct copied
  dsimp only at copiedContent
  rw [named_of_mem written.names member]
  exact ⟨⟨List.mem_map_of_mem copied, by rw [copiedContent, size], some'⟩, copiedContent⟩

/-- A tensor of a layer comes back as it was converted. -/
theorem tensor_filed (ofBits : UInt32 → F) (written : Written cfg.groupSize float16 tensors sections) {l : Nat}
    {tensor : Tensor}
    (listed : tensor ∈ commonTensors cfg ++ fullTensors cfg ++ linearTensors cfg)
    (given : Given tensors cfg.groupSize (layerRoot l ++ tensor.name) tensor.shape) :
    Filed sections cfg.groupSize (layerRoot l ++ tensor.name) tensor.shape ∧
      filedTensor ofBits sections cfg.groupSize (layerRoot l) tensor =
        convertedTensor ofBits float16 tensors cfg.groupSize (layerRoot l) tensor := by
  have projection := List.all_eq_true.1 (layer_projections cfg) tensor listed
  obtain ⟨name, label, shape⟩ := tensor
  cases shape with
  | int4 outFeatures inFeatures =>
      obtain ⟨filed, view⟩ := int4_filed written given (ascii "proj") List.mem_cons_self
        (layer_name_quantised projection l)
      exact ⟨filed, funext fun _ => congrArg DeviceTensor.int4 view⟩
  | bf16 elements =>
      obtain ⟨filed, raw⟩ := bf16_filed written given
      exact ⟨filed, funext fun addUnitOffset => congrArg
        (fun data => DeviceTensor.fp32 (hostFp32 ofBits addUnitOffset data)) raw⟩

end Filing

section Model

open ArtifactReader ArtifactRoundTrip StateException

variable {F : Type} [One F] [Add F]

/-- A checkpoint with every tensor that loading asks for. -/
structure Complete (tensors : List CheckpointTensor) (cfg : TargetConfig) (metaTypes : List Bytes) : Prop where
  interval : 0 < cfg.fullAttentionInterval
  embedTokens : Given tensors cfg.groupSize embedName (.bf16 (cfg.vocabSize.toNat * cfg.hiddenSize))
  finalNorm : Given tensors cfg.groupSize finalNormName (.bf16 cfg.hiddenSize)
  lmHead : Given tensors cfg.groupSize lmHeadName (.int4 cfg.vocabSize.toNat cfg.hiddenSize)
  known : ∀ l < cfg.numHiddenLayers,
    declaredType cfg metaTypes l = fullAttention ∨ declaredType cfg metaTypes l = linearAttention
  layers : ∀ l < cfg.numHiddenLayers, ∀ tensor ∈ commonTensors cfg ++ mixerTensors cfg (declaredType cfg metaTypes l),
    Given tensors cfg.groupSize (layerRoot l ++ tensor.name) tensor.shape

def convertedLayer (ofBits : UInt32 → F) (float16 : Rat → UInt16) (tensors : List CheckpointTensor) (cfg : TargetConfig)
    (type : Bytes) (l : Nat) : DecodePass.LayerWeights (DeviceTensor F) :=
  let value := convertedTensor ofBits float16 tensors cfg.groupSize (layerRoot l)
  commonPart (m := Id) value cfg (mixerPart (m := Id) value cfg type)

/-- The model of a checkpoint: its matrices as they are quantised, its vectors as they are. -/
def convertedModel (ofBits : UInt32 → F) (float16 : Rat → UInt16) (tensors : List CheckpointTensor) (cfg : TargetConfig)
    (metaTypes : List Bytes) : LoadedModel F where
  config := { cfg with layerTypes := (List.range' 0 cfg.numHiddenLayers).map (declaredType cfg metaTypes) }
  embedTokens := some (named tensors embedName).raw
  finalNorm := hostFp32 ofBits true (named tensors finalNormName).raw
  lmHead := convertedView float16 tensors cfg.groupSize lmHeadName cfg.vocabSize.toNat cfg.hiddenSize
  layers := (List.range' 0 cfg.numHiddenLayers).map fun l =>
    convertedLayer ofBits float16 tensors cfg (declaredType cfg metaTypes l) l

variable {ofBits : UInt32 → F} {float16 : Rat → UInt16} {cfg : TargetConfig} {tensors : List CheckpointTensor}
  {sections : List PendingSection} {metaTypes : List Bytes}

theorem listed_tensor {type : Bytes} {tensor : Tensor} (listed : tensor ∈ commonTensors cfg ++ mixerTensors cfg type) :
    tensor ∈ commonTensors cfg ++ fullTensors cfg ++ linearTensors cfg := by
  unfold mixerTensors at listed
  split at listed
  · exact List.mem_append_left _ listed
  · rcases List.mem_append.1 listed with common | linear
    · exact List.mem_append_left _ (List.mem_append_left _ common)
    · exact List.mem_append_right _ linear

theorem layer_filed (ofBits : UInt32 → F) (written : Written cfg.groupSize float16 tensors sections)
    (complete : Complete tensors cfg metaTypes)
    {l : Nat} (inside : l < cfg.numHiddenLayers) :
    FiledLayer sections cfg (declaredType cfg metaTypes l) l ∧
      filedLayer ofBits sections cfg (declaredType cfg metaTypes l) l =
        convertedLayer ofBits float16 tensors cfg (declaredType cfg metaTypes l) l := by
  have each := fun tensor (listed : tensor ∈ commonTensors cfg ++ mixerTensors cfg (declaredType cfg metaTypes l)) =>
    tensor_filed ofBits written (listed_tensor listed) (complete.layers l inside tensor listed)
  constructor
  · exact ⟨complete.known l inside, fun tensor member => (each tensor (List.mem_append_left _ member)).1,
      fun tensor member => (each tensor (List.mem_append_right _ member)).1⟩
  · unfold filedLayer convertedLayer
    dsimp only
    rw [commonPart_congr fun tensor member => (each tensor (List.mem_append_left _ member)).2,
      mixerPart_congr fun tensor member => (each tensor (List.mem_append_right _ member)).2]

theorem model_filed (ofBits : UInt32 → F) (written : Written cfg.groupSize float16 tensors sections)
    (complete : Complete tensors cfg metaTypes) :
    FiledModel sections cfg metaTypes ∧
      filedModel ofBits sections cfg metaTypes = convertedModel ofBits float16 tensors cfg metaTypes := by
  obtain ⟨embedFiled, embedRaw⟩ := bf16_filed written complete.embedTokens
  obtain ⟨normFiled, normRaw⟩ := bf16_filed written complete.finalNorm
  obtain ⟨headFiled, headView⟩ := int4_filed written complete.lmHead (ascii "lm_head") (by decide) (by decide)
  constructor
  · exact ⟨complete.interval, embedFiled, normFiled, headFiled,
      fun l inside => (layer_filed (fun _ => (0 : Nat)) written complete inside).1⟩
  · unfold filedModel convertedModel filedLayers
    rw [embedRaw, normRaw, headView]
    simp only [List.map_map, Function.comp_def, LoadedModel.mk.injEq, true_and]
    refine List.map_congr_left fun l member => ?_
    exact (layer_filed ofBits written complete (by simpa using (List.mem_range'_1.1 member).2)).2

/-- Sections that a container can hold. -/
structure Emittable (metaJsonBytes : Bytes) (sections : List PendingSection) : Prop where
  named : ∀ sec ∈ sections, sec.name.length < MAX_SECTION_NAME_LEN ∧ 0 ∉ sec.name
  distinct : (sections.map PendingSection.name).Nodup
  count : sections.length < 2 ^ 32
  size : ContainerLayout.totalSize metaJsonBytes sections < 2 ^ 63

variable {groupSize : Nat} {shards : List (List CheckpointTensor)} {tokenizerJson chatTemplate : Option Bytes}

theorem convertSections_flags :
    ∀ sec ∈ convertSections groupSize float16 shards tokenizerJson chatTemplate, sec.flags = 0 := by
  intro sec member
  unfold convertSections at member
  rcases List.mem_append.1 member with front | template
  · rcases List.mem_append.1 front with converted | tokenizer
    · obtain ⟨tensor, _, inside⟩ := List.mem_flatMap.1 converted
      unfold convertTensor at inside
      split at inside <;> simp only [List.mem_cons, List.not_mem_nil, or_false] at inside
      · rcases inside with rfl | rfl <;> rfl
      · subst inside
        rfl
    · obtain ⟨data, _, rfl⟩ := List.mem_map.1 tokenizer
      rfl
  · obtain ⟨data, _, rfl⟩ := List.mem_map.1 template
    rfl

theorem convertSections_written (even : 2 ∣ groupSize) (positive : 0 < groupSize)
    (distinct : ((convertSections groupSize float16 shards tokenizerJson chatTemplate).map PendingSection.name).Nodup) :
    Written groupSize float16 shards.flatten (convertSections groupSize float16 shards tokenizerJson chatTemplate) where
  all := fun tensor member sec inside =>
    List.mem_append_left _ (List.mem_append_left _ (List.mem_flatMap.2 ⟨tensor, member, inside⟩))
  distinct := distinct
  names := by
    unfold convertSections at distinct
    rw [List.map_append, List.map_append] at distinct
    exact (names_sublist shards.flatten).nodup ((List.nodup_append.1 (List.nodup_append.1 distinct).1).1)
  even := even
  positive := positive

def tinyTensor (name : Bytes) : Shape → CheckpointTensor
  | .int4 outFeatures inFeatures => ⟨name, [outFeatures, inFeatures], [], fun i => i⟩
  | .bf16 elements => ⟨name, [elements], List.replicate (elements * 2) 0, fun _ => 0⟩

/-- A layer of each kind. -/
def tinyCheckpoint : List CheckpointTensor :=
  [tinyTensor embedName (.bf16 4), tinyTensor finalNormName (.bf16 2), tinyTensor lmHeadName (.int4 2 2)] ++
    (commonTensors tiny ++ fullTensors tiny).map (fun tensor => tinyTensor (layerRoot 0 ++ tensor.name) tensor.shape) ++
    (commonTensors tiny ++ linearTensors tiny).map (fun tensor => tinyTensor (layerRoot 1 ++ tensor.name) tensor.shape)

def tinyFits : Shape → Bool
  | .int4 outFeatures inFeatures => inFeatures % 2 == 0 && 0 < outFeatures && 0 < inFeatures
  | .bf16 elements => 0 < elements

theorem given_tinyTensor {name : Bytes} {shape : Shape} (fits : tinyFits shape = true)
    (member : tinyTensor name shape ∈ tinyCheckpoint) : Given [tinyCheckpoint].flatten tiny.groupSize name shape := by
  have listed : tinyTensor name shape ∈ [tinyCheckpoint].flatten := by simpa using member
  cases shape with
  | int4 outFeatures inFeatures =>
      simp only [tinyFits, Bool.and_eq_true, beq_iff_eq, decide_eq_true_eq] at fits
      exact ⟨_, listed, rfl, rfl, Nat.dvd_of_mod_eq_zero fits.1.1, fits.1.2, fits.2⟩
  | bf16 elements =>
      exact ⟨_, listed, rfl, .inl (by simp [tinyTensor]), List.length_replicate, by simpa [tinyFits] using fits⟩

theorem tiny_complete : Complete [tinyCheckpoint].flatten tiny [fullAttention, linearAttention] where
  interval := by decide
  embedTokens := given_tinyTensor rfl (by simp [tinyCheckpoint, tiny])
  finalNorm := given_tinyTensor rfl (by simp [tinyCheckpoint, tiny])
  lmHead := given_tinyTensor rfl (by simp [tinyCheckpoint, tiny])
  known := by decide
  layers := by
    have fits : ∀ tensor ∈ commonTensors tiny ++ fullTensors tiny ++ linearTensors tiny,
        tinyFits tensor.shape = true := by decide +kernel
    intro l inside tensor listed
    refine given_tinyTensor (fits tensor (listed_tensor listed)) ?_
    match l, inside with
    | 0, _ =>
        exact List.mem_append_left _ (List.mem_append_right _ (List.mem_map.2 ⟨tensor, listed, rfl⟩))
    | 1, _ => exact List.mem_append_right _ (List.mem_map.2 ⟨tensor, listed, rfl⟩)

theorem tiny_emittable : Emittable (MetadataJson.toJson tinyReader.metadata)
    (convertSections tiny.groupSize (fun _ => 15360) [tinyCheckpoint] none none) := by
  -- one evaluation of the sections for all four, and names are compared as numbers
  have checked : (∀ sec ∈ convertSections tiny.groupSize (fun _ => 15360) [tinyCheckpoint] none none,
        sec.name.length < MAX_SECTION_NAME_LEN ∧ 0 ∉ sec.name) ∧
      ((convertSections tiny.groupSize (fun _ => 15360) [tinyCheckpoint] none none).map
        fun sec => LittleEndian.unpack sec.name).Nodup ∧
      (convertSections tiny.groupSize (fun _ => 15360) [tinyCheckpoint] none none).length < 2 ^ 32 ∧
      ContainerLayout.totalSize (MetadataJson.toJson tinyReader.metadata)
        (convertSections tiny.groupSize (fun _ => 15360) [tinyCheckpoint] none none) < 2 ^ 63 := by
    decide +kernel
  obtain ⟨named, apart, count, size⟩ := checked
  refine ⟨named, List.Nodup.of_map LittleEndian.unpack ?_, count, size⟩
  rwa [List.map_map]

end Model

end XInfer.CheckpointConversion
