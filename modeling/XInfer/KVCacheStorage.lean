import XInfer.ByteString
import XInfer.LayerSlots
import XInfer.Regions
import XInfer.TokenizerJson

/-!
`KVCache::init` and `KVCache::allocate` of `core/kv_cache.cpp`: the checks on the configuration, and the
two pointers that cut the caches of the full layers and the states of the linear ones from a block each.
What `malloc_device` answers is given; `none` is the null pointer. A cache has its device context.
-/

namespace XInfer.KVCacheStorage

open Primitives ByteString Regions
open LayerSlots (KVCacheConfig)
open TokenizerJson (int64)

/-- The `size_t` product of two sizes. -/
def sizeMul (left right : Nat) : Nat := (left * right) % 2 ^ 64

def int8Scheme : Bytes := ascii "INT8-KV"

def undeclared : Bytes :=
  ascii "KVCache::init: Artifact metadata does not explicitly declare quant_scheme = \"INT8-KV\". " ++
    ascii "Refusing to load INT8 cache path and falling back is forbidden to prevent silent memory exhaustion."

def init (cfg : KVCacheConfig) : Except Exn Bool :=
  if cfg.isInt8 then
    if ¬ Contains int8Scheme cfg.artifactQuantScheme then .error (.standard undeclared)
    else
      let kvStride := int64 (sizeMul cfg.numKVHeads cfg.headDim)
      if kvStride ≤ 0 then
        .error (.standard (ascii "KVCache::init: Invalid kv_stride calculated for INT8 KV cache"))
      else
        let int8TokenBytes := kvStride.toNat
        let scaleOverheadBytes := sizeMul (sizeMul cfg.numKVHeads 4) 2
        if int8TokenBytes = 0 ∨ scaleOverheadBytes = 0 then
          .error (.standard (ascii "KVCache::init: Incorrect stride or scale overhead for INT8 KV cache"))
        else .ok true
  else .ok true

inductive Part where
  | kCache
  | vCache
  | kCacheInt8
  | vCacheInt8
  | kScale
  | vScale
  | kZeroPoint
  | vZeroPoint
  | linearState
  | convState
  deriving DecidableEq

/-- `sizeof` of the type that the accessor's pointer has. -/
def Part.elementSize : Part → Nat
  | .kCache | .vCache => 2
  | .kCacheInt8 | .vCacheInt8 => 1
  | _ => 4

/-- The shape that the accessor's comment declares. -/
def Part.elements (cfg : KVCacheConfig) : Part → Nat
  | .kCache | .vCache | .kCacheInt8 | .vCacheInt8 => cfg.maxSeqLen * cfg.numKVHeads * cfg.headDim
  | .linearState => cfg.linearNumVHeads * cfg.linearHeadKDim * cfg.linearHeadVDim
  | .convState => (cfg.linearConvKernelDim - 1) * cfg.linearConvChannels
  | _ => cfg.maxSeqLen * cfg.numKVHeads

section Sizes

variable (cfg : KVCacheConfig)

def elementsPerCache : Nat := sizeMul (sizeMul cfg.maxSeqLen cfg.numKVHeads) cfg.headDim

def bytesPerCache : Nat := sizeMul (elementsPerCache cfg) (if cfg.isInt8 then 1 else 2)

def scaleBytes : Nat := sizeMul (sizeMul cfg.maxSeqLen cfg.numKVHeads) 4

def kvStorageBytes : Nat :=
  if cfg.isInt8 then
    sizeMul cfg.numFullLayers (sizeAdd (sizeMul 2 (bytesPerCache cfg)) (sizeMul 4 (scaleBytes cfg)))
  else sizeMul (sizeMul cfg.numFullLayers 2) (bytesPerCache cfg)

/-- What the pointer passes in one full layer. -/
def kvParts : List (Part × Nat) :=
  if cfg.isInt8 then
    [(.kCacheInt8, bytesPerCache cfg), (.vCacheInt8, bytesPerCache cfg),
     (.kScale, scaleBytes cfg), (.vScale, scaleBytes cfg),
     (.kZeroPoint, scaleBytes cfg), (.vZeroPoint, scaleBytes cfg)]
  else [(.kCache, bytesPerCache cfg), (.vCache, bytesPerCache cfg)]

def sBytesPerLayer : Nat :=
  sizeMul (sizeMul (sizeMul cfg.linearNumVHeads cfg.linearHeadKDim) cfg.linearHeadVDim) 4

def convPastLen : Nat := if 1 < cfg.linearConvKernelDim then cfg.linearConvKernelDim - 1 else 0

def convBytesPerLayer : Nat := sizeMul (sizeMul (convPastLen cfg) cfg.linearConvChannels) 4

def recurrentStorageBytes : Nat :=
  sizeMul cfg.numLinearLayers (sizeAdd (sBytesPerLayer cfg) (convBytesPerLayer cfg))

def recurrentParts : List (Part × Nat) :=
  [(.linearState, sBytesPerLayer cfg), (.convState, convBytesPerLayer cfg)]

end Sizes

structure Storage where
  kv : List (Region Part)
  recurrent : List (Region Part)
  deriving DecidableEq

/-- `allocate`, on what the device answers to its two requests; `none` is the answer `false`. -/
def allocate (cfg : KVCacheConfig) (kvBlock recurrentBlock : Option Nat) : Except Exn (Option Storage) := do
  let _ ← init cfg
  match kvBlock with
  | none => return none
  | some kvPtr =>
      let kv := walk (kvParts cfg) cfg.numFullLayers 0 kvPtr
      if recurrentStorageBytes cfg = 0 then return some ⟨kv, []⟩
      else match recurrentBlock with
        | none => return none
        | some recPtr => return some ⟨kv, walk (recurrentParts cfg) cfg.numLinearLayers 0 recPtr⟩

section Exact

variable {cfg : KVCacheConfig}

/-- The parts of a layer with the sizes of their shapes, over the natural numbers. -/
def shaped (cfg : KVCacheConfig) (parts : List Part) : List (Part × Nat) :=
  parts.map fun part => (part, part.elements cfg * part.elementSize)

def cachedParts (cfg : KVCacheConfig) : List Part :=
  if cfg.isInt8 then [.kCacheInt8, .vCacheInt8, .kScale, .vScale, .kZeroPoint, .vZeroPoint] else [.kCache, .vCache]

def stateParts : List Part := [.linearState, .convState]

/-- Neither of the two sizes overflows `size_t`. -/
structure Fits (cfg : KVCacheConfig) : Prop where
  kv : cfg.numFullLayers * rowSize (shaped cfg (cachedParts cfg)) < 2 ^ 64
  recurrent : cfg.numLinearLayers * rowSize (shaped cfg stateParts) < 2 ^ 64

theorem row_lt {count row : Nat} (fits : count * row < 2 ^ 64) (some' : count ≠ 0) : row < 2 ^ 64 :=
  Nat.lt_of_le_of_lt (Nat.le_mul_of_pos_left row (Nat.pos_of_ne_zero some')) fits

theorem convPastLen_eq (cfg : KVCacheConfig) : convPastLen cfg = cfg.linearConvKernelDim - 1 := by
  unfold convPastLen
  split <;> omega

theorem kvParts_eq (fits : Fits cfg) (layers : cfg.numFullLayers ≠ 0) :
    kvParts cfg = shaped cfg (cachedParts cfg) := by
  have row := row_lt fits.kv layers
  unfold kvParts cachedParts shaped bytesPerCache elementsPerCache scaleBytes at *
  split at row
  all_goals
    rename_i dtype
    simp only [dtype, if_true, if_false, Bool.false_eq_true] at row ⊢
    simp only [List.map_cons, List.map_nil, rowSize_cons, rowSize_nil, Part.elements, Part.elementSize] at row ⊢
    simp only [sizeMul, Nat.mod_mul_mod]
  · rw [Nat.mod_eq_of_lt (by omega : cfg.maxSeqLen * cfg.numKVHeads * cfg.headDim * 1 < 2 ^ 64),
      Nat.mod_eq_of_lt (by omega : cfg.maxSeqLen * cfg.numKVHeads * 4 < 2 ^ 64)]
  · rw [Nat.mod_eq_of_lt (by omega : cfg.maxSeqLen * cfg.numKVHeads * cfg.headDim * 2 < 2 ^ 64)]

theorem recurrentParts_eq (fits : Fits cfg) (layers : cfg.numLinearLayers ≠ 0) :
    recurrentParts cfg = shaped cfg stateParts := by
  have row := row_lt fits.recurrent layers
  unfold recurrentParts sBytesPerLayer convBytesPerLayer stateParts shaped at *
  rw [convPastLen_eq]
  simp only [List.map_cons, List.map_nil, rowSize_cons, rowSize_nil, Part.elements, Part.elementSize] at row ⊢
  simp only [sizeMul, Nat.mod_mul_mod]
  rw [Nat.mod_eq_of_lt (by omega : cfg.linearNumVHeads * cfg.linearHeadKDim * cfg.linearHeadVDim * 4 < 2 ^ 64),
    Nat.mod_eq_of_lt (by omega : (cfg.linearConvKernelDim - 1) * cfg.linearConvChannels * 4 < 2 ^ 64)]

theorem kvStorageBytes_mod (cfg : KVCacheConfig) :
    kvStorageBytes cfg = cfg.numFullLayers * rowSize (kvParts cfg) % 2 ^ 64 := by
  unfold kvStorageBytes kvParts sizeMul sizeAdd
  split
  · have row : rowSize [(Part.kCacheInt8, bytesPerCache cfg), (.vCacheInt8, bytesPerCache cfg),
        (.kScale, scaleBytes cfg), (.vScale, scaleBytes cfg), (.kZeroPoint, scaleBytes cfg),
        (.vZeroPoint, scaleBytes cfg)] = 2 * bytesPerCache cfg + 4 * scaleBytes cfg := by
      simp only [rowSize_cons, rowSize_nil]
      omega
    rw [row, ← Nat.add_mod, Nat.mul_mod_mod]
  · have row : rowSize [(Part.kCache, bytesPerCache cfg), (.vCache, bytesPerCache cfg)] = 2 * bytesPerCache cfg := by
      simp only [rowSize_cons, rowSize_nil]
      omega
    rw [row, Nat.mod_mul_mod, Nat.mul_assoc]

theorem recurrentStorageBytes_mod (cfg : KVCacheConfig) :
    recurrentStorageBytes cfg = cfg.numLinearLayers * rowSize (recurrentParts cfg) % 2 ^ 64 := by
  unfold recurrentStorageBytes recurrentParts sizeMul sizeAdd
  simp only [rowSize_cons, rowSize_nil, Nat.add_zero, Nat.mul_mod_mod]

theorem kvStorageBytes_eq (fits : Fits cfg) : kvStorageBytes cfg = cfg.numFullLayers * rowSize (kvParts cfg) := by
  rw [kvStorageBytes_mod]
  rcases eq_or_ne cfg.numFullLayers 0 with none' | layers
  · simp [none']
  · rw [kvParts_eq fits layers, Nat.mod_eq_of_lt fits.kv]

theorem recurrentStorageBytes_eq (fits : Fits cfg) :
    recurrentStorageBytes cfg = cfg.numLinearLayers * rowSize (recurrentParts cfg) := by
  rw [recurrentStorageBytes_mod]
  rcases eq_or_ne cfg.numLinearLayers 0 with none' | layers
  · simp [none']
  · rw [recurrentParts_eq fits layers, Nat.mod_eq_of_lt fits.recurrent]

end Exact

section Layout

/-- The layout that the accessors rely on. -/
structure Sound (cfg : KVCacheConfig) (kvPtr recPtr : Nat) (storage : Storage) : Prop where
  apart : (storage.kv ++ storage.recurrent).Pairwise Apart
  kvTiled : ∀ address, (∃ region ∈ storage.kv, region.Holds address) ↔
    kvPtr ≤ address ∧ address < kvPtr + kvStorageBytes cfg
  recurrentTiled : ∀ address, (∃ region ∈ storage.recurrent, region.Holds address) ↔
    recPtr ≤ address ∧ address < recPtr + recurrentStorageBytes cfg
  enough : ∀ region ∈ storage.kv ++ storage.recurrent,
    region.kind.elements cfg * region.kind.elementSize ≤ region.size
  aligned : ∀ region ∈ storage.kv ++ storage.recurrent, region.kind.elementSize ∣ region.start
  cached : ∀ l < cfg.numFullLayers, ∀ part ∈ cachedParts cfg,
    ∃ region ∈ storage.kv, region.kind = part ∧ region.layer = l
  states : recurrentStorageBytes cfg ≠ 0 → ∀ l < cfg.numLinearLayers, ∀ part ∈ stateParts,
    ∃ region ∈ storage.recurrent, region.kind = part ∧ region.layer = l

variable {cfg : KVCacheConfig} {kvPtr recPtr : Nat} {storage : Storage}

theorem allocate_ok {kvBlock recurrentBlock : Option Nat}
    (done : allocate cfg kvBlock recurrentBlock = .ok (some storage)) :
    ∃ kvPtr, kvBlock = some kvPtr ∧ storage.kv = walk (kvParts cfg) cfg.numFullLayers 0 kvPtr ∧
      (recurrentStorageBytes cfg = 0 ∧ storage.recurrent = [] ∨
        ∃ recPtr, recurrentBlock = some recPtr ∧ recurrentStorageBytes cfg ≠ 0 ∧
          storage.recurrent = walk (recurrentParts cfg) cfg.numLinearLayers 0 recPtr) := by
  obtain ⟨_, -, done⟩ := except_bind_ok done
  cases kvBlock with
  | none => cases done
  | some kvPtr =>
      dsimp only at done
      split at done
      · rename_i empty
        cases done
        exact ⟨kvPtr, rfl, rfl, .inl ⟨empty, rfl⟩⟩
      · rename_i filled
        cases recurrentBlock with
        | none => cases done
        | some recPtr =>
            cases done
            exact ⟨kvPtr, rfl, rfl, .inr ⟨recPtr, rfl, filled, rfl⟩⟩

theorem state_float {count layer ptr : Nat} {region : Region Part}
    (member : region ∈ walk (recurrentParts cfg) count layer ptr) : region.kind.elementSize = 4 := by
  obtain ⟨listed, -⟩ := walk_part member
  simp only [recurrentParts, List.mem_cons, Prod.mk.injEq, List.not_mem_nil, or_false] at listed
  rcases listed with ⟨kind, -⟩ | ⟨kind, -⟩ <;> rw [kind] <;> rfl

/-- The states lie in a row of whole floats. -/
theorem states_aligned (fits : Fits cfg) (block : 4 ∣ recPtr) (region : Region Part)
    (member : region ∈ walk (recurrentParts cfg) cfg.numLinearLayers 0 recPtr) :
    region.kind.elementSize ∣ region.start := by
  rw [state_float member]
  rcases eq_or_ne cfg.numLinearLayers 0 with none' | layers
  · rw [none'] at member
    cases member
  · rw [recurrentParts_eq fits layers] at member
    refine walk_aligned (n := 4) ?_ (P := fun region => 4 ∣ region.start) ?_ block region member
    · simp only [shaped, stateParts, List.map_cons, List.map_nil, rowSize_cons, rowSize_nil, Part.elementSize]
      omega
    · intro layer ptr multiple region here
      simp only [shaped, stateParts, List.map_cons, List.map_nil, place, List.mem_cons, List.not_mem_nil, or_false,
        Part.elementSize] at here
      rcases here with rfl | rfl <;> simp only <;> omega

/-- The elements of one K or V cache. -/
def cacheElements (cfg : KVCacheConfig) : Nat := cfg.maxSeqLen * cfg.numKVHeads * cfg.headDim

theorem kv_aligned_half (fits : Fits cfg) (dtype : cfg.isInt8 = false) (layers : cfg.numFullLayers ≠ 0)
    (block : 4 ∣ kvPtr) (region : Region Part)
    (member : region ∈ walk (kvParts cfg) cfg.numFullLayers 0 kvPtr) : region.kind.elementSize ∣ region.start := by
  rw [kvParts_eq fits layers] at member
  refine walk_aligned (n := 2) ?_ (P := fun region => region.kind.elementSize ∣ region.start) ?_ (by omega)
    region member
  · simp only [shaped, cachedParts, dtype, Bool.false_eq_true, if_false, List.map_cons, List.map_nil, rowSize_cons,
      rowSize_nil, Part.elementSize]
    omega
  · intro layer ptr multiple region here
    simp only [shaped, cachedParts, dtype, Bool.false_eq_true, if_false, List.map_cons, List.map_nil, place,
      List.mem_cons, List.not_mem_nil, or_false, Part.elementSize] at here
    rcases here with rfl | rfl <;> simp only [Part.elementSize] <;> omega

/-- Two caches of an even number of bytes leave the pointer on a float. -/
theorem kv_aligned_int8 (fits : Fits cfg) (dtype : cfg.isInt8 = true) (layers : cfg.numFullLayers ≠ 0)
    (even : 2 ∣ cacheElements cfg) (block : 4 ∣ kvPtr) (region : Region Part)
    (member : region ∈ walk (kvParts cfg) cfg.numFullLayers 0 kvPtr) : region.kind.elementSize ∣ region.start := by
  unfold cacheElements at even
  rw [kvParts_eq fits layers] at member
  refine walk_aligned (n := 4) ?_ (P := fun region => region.kind.elementSize ∣ region.start) ?_ block region member
  · simp only [shaped, cachedParts, dtype, if_true, List.map_cons, List.map_nil, rowSize_cons, rowSize_nil,
      Part.elementSize, Part.elements]
    omega
  · intro layer ptr multiple region here
    simp only [shaped, cachedParts, dtype, if_true, List.map_cons, List.map_nil, place, List.mem_cons,
      List.not_mem_nil, or_false, Part.elementSize, Part.elements] at here
    rcases here with rfl | rfl | rfl | rfl | rfl | rfl <;> simp only [Part.elementSize] <;> omega

/-- Behind two caches of an odd number of bytes the scales of the first layer are off by two. -/
theorem kv_misaligned (fits : Fits cfg) (dtype : cfg.isInt8 = true) (layers : cfg.numFullLayers ≠ 0)
    (odd : ¬ 2 ∣ cacheElements cfg) (block : 4 ∣ kvPtr) :
    ∃ region ∈ walk (kvParts cfg) cfg.numFullLayers 0 kvPtr, ¬ region.kind.elementSize ∣ region.start := by
  unfold cacheElements at odd
  obtain ⟨count, rfl'⟩ := Nat.exists_eq_succ_of_ne_zero layers
  -- the scales of the keys follow the two caches of the first layer
  let bytes := cfg.maxSeqLen * cfg.numKVHeads * cfg.headDim
  refine ⟨⟨.kScale, 0, kvPtr + bytes + bytes, cfg.maxSeqLen * cfg.numKVHeads * 4⟩, ?_, ?_⟩
  · rw [kvParts_eq fits layers, rfl']
    apply List.mem_append_left
    simp [shaped, cachedParts, dtype, place, Part.elementSize, Part.elements, bytes]
  · simp only [Part.elementSize, bytes]
    omega

theorem kv_aligned_iff (fits : Fits cfg) (block : 4 ∣ kvPtr) :
    (∀ region ∈ walk (kvParts cfg) cfg.numFullLayers 0 kvPtr, region.kind.elementSize ∣ region.start) ↔
      (cfg.isInt8 = true → cfg.numFullLayers = 0 ∨ 2 ∣ cacheElements cfg) := by
  rcases eq_or_ne cfg.numFullLayers 0 with none' | layers
  · rw [none']
    exact iff_of_true (fun region member => nomatch member) fun _ => .inl rfl
  cases dtype : cfg.isInt8 with
  | false => exact iff_of_true (kv_aligned_half fits dtype layers block) fun contra => nomatch contra
  | true =>
      by_cases even : 2 ∣ cacheElements cfg
      · exact iff_of_true (kv_aligned_int8 fits dtype layers even block) fun _ => .inr even
      · obtain ⟨region, member, off⟩ := kv_misaligned fits dtype layers even block
        refine iff_of_false (fun aligned => off (aligned region member)) fun condition => ?_
        rcases condition rfl with none' | contra
        · exact layers none'
        · exact even contra

/-- Every region has the bytes of its shape. -/
theorem walk_enough {actual : List (Part × Nat)} {parts : List Part} {count layer ptr : Nat}
    (exact' : count ≠ 0 → actual = shaped cfg parts) (region : Region Part)
    (member : region ∈ walk actual count layer ptr) :
    region.kind.elements cfg * region.kind.elementSize ≤ region.size := by
  rcases eq_or_ne count 0 with none' | layers
  · rw [none'] at member
    cases member
  · rw [exact' layers] at member
    obtain ⟨listed, -⟩ := walk_part member
    obtain ⟨part, -, same⟩ := List.mem_map.1 listed
    obtain ⟨kind, size⟩ := Prod.mk.inj same
    subst kind
    exact Nat.le_of_eq size

theorem walk_complete {actual : List (Part × Nat)} {parts : List Part} {count ptr : Nat}
    (exact' : count ≠ 0 → actual = shaped cfg parts) (l : Nat) (below : l < count) (part : Part)
    (listed : part ∈ parts) : ∃ region ∈ walk actual count 0 ptr, region.kind = part ∧ region.layer = l := by
  have member : (part, part.elements cfg * part.elementSize) ∈ actual := by
    rw [exact' (by omega)]
    exact List.mem_map_of_mem listed
  obtain ⟨region, member, kind, layer, -⟩ := exists_walk count 0 ptr member (Nat.zero_le l) (by omega)
  exact ⟨region, member, kind, layer⟩

theorem walk_tiled {parts : List (Part × Nat)} {count bytes : Nat} (total : bytes = count * rowSize parts)
    (ptr address : Nat) : (∃ region ∈ walk parts count 0 ptr, region.Holds address) ↔
      ptr ≤ address ∧ address < ptr + bytes := by
  rw [total]
  exact (walk_spans parts count 0 ptr).holds_iff address

/-- Regions of two blocks that do not overlap. -/
theorem walks_apart {left right : List (Region Part)} {leftPtr rightPtr leftBytes rightBytes : Nat}
    (first : ∀ address, (∃ region ∈ left, region.Holds address) ↔ leftPtr ≤ address ∧ address < leftPtr + leftBytes)
    (second : ∀ address, (∃ region ∈ right, region.Holds address) ↔
      rightPtr ≤ address ∧ address < rightPtr + rightBytes)
    (blocks : leftPtr + leftBytes ≤ rightPtr ∨ rightPtr + rightBytes ≤ leftPtr) :
    ∀ region ∈ left, ∀ other ∈ right, Apart region other := by
  rintro region here other there address ⟨holds, holds'⟩
  have inLeft := (first address).1 ⟨region, here, holds⟩
  have inRight := (second address).1 ⟨other, there, holds'⟩
  omega

/-- Without bytes for the states there is no region for them either. -/
theorem sound_alone (fits : Fits cfg) (empty : recurrentStorageBytes cfg = 0)
    (aligned : ∀ region ∈ walk (kvParts cfg) cfg.numFullLayers 0 kvPtr, region.kind.elementSize ∣ region.start) :
    Sound cfg kvPtr recPtr ⟨walk (kvParts cfg) cfg.numFullLayers 0 kvPtr, []⟩ where
  apart := by
    rw [List.append_nil]
    exact (walk_spans (kvParts cfg) cfg.numFullLayers 0 kvPtr).apart
  kvTiled := walk_tiled (kvStorageBytes_eq fits) kvPtr
  recurrentTiled := by
    intro address
    rw [empty]
    constructor
    · rintro ⟨region, member, -⟩
      cases member
    · intro between
      omega
  enough := by
    rw [List.append_nil]
    exact walk_enough (kvParts_eq fits)
  aligned := by
    rw [List.append_nil]
    exact aligned
  cached := walk_complete (kvParts_eq fits)
  states := fun filled => absurd empty filled

theorem sound_both (fits : Fits cfg) (recBlock : 4 ∣ recPtr)
    (blocks : kvPtr + kvStorageBytes cfg ≤ recPtr ∨ recPtr + recurrentStorageBytes cfg ≤ kvPtr)
    (aligned : ∀ region ∈ walk (kvParts cfg) cfg.numFullLayers 0 kvPtr, region.kind.elementSize ∣ region.start) :
    Sound cfg kvPtr recPtr
      ⟨walk (kvParts cfg) cfg.numFullLayers 0 kvPtr, walk (recurrentParts cfg) cfg.numLinearLayers 0 recPtr⟩ where
  apart := by
    have kvTiled := walk_tiled (kvStorageBytes_eq fits) kvPtr
    have recTiled := walk_tiled (recurrentStorageBytes_eq fits) recPtr
    apply List.pairwise_append.2
    refine ⟨?_, ?_, walks_apart kvTiled recTiled blocks⟩
    · exact (walk_spans (kvParts cfg) cfg.numFullLayers 0 kvPtr).apart
    · exact (walk_spans (recurrentParts cfg) cfg.numLinearLayers 0 recPtr).apart
  kvTiled := walk_tiled (kvStorageBytes_eq fits) kvPtr
  recurrentTiled := walk_tiled (recurrentStorageBytes_eq fits) recPtr
  enough := List.forall_mem_append.2 ⟨walk_enough (kvParts_eq fits), walk_enough (recurrentParts_eq fits)⟩
  aligned := List.forall_mem_append.2 ⟨aligned, states_aligned fits recBlock⟩
  cached := walk_complete (kvParts_eq fits)
  states := fun _ => walk_complete (recurrentParts_eq fits)

/-- For every configuration that `init` accepts, the layout is sound but for the alignment of the INT8
scales and zero points, which have to begin behind an even number of bytes. -/
theorem layout_sound_iff (fits : Fits cfg) (kvBlock : 4 ∣ kvPtr) (recBlock : 4 ∣ recPtr)
    (blocks : kvPtr + kvStorageBytes cfg ≤ recPtr ∨ recPtr + recurrentStorageBytes cfg ≤ kvPtr)
    (done : allocate cfg (some kvPtr) (some recPtr) = .ok (some storage)) :
    Sound cfg kvPtr recPtr storage ↔
      (cfg.isInt8 = true → cfg.numFullLayers = 0 ∨ 2 ∣ cacheElements cfg) := by
  obtain ⟨_, same, kv, recurrent⟩ := allocate_ok done
  cases same
  obtain ⟨_, _⟩ := storage
  dsimp only at kv recurrent
  subst kv
  rw [← kv_aligned_iff fits kvBlock]
  constructor
  · intro sound region member
    exact sound.aligned region (List.mem_append_left _ member)
  · intro aligned
    rcases recurrent with ⟨empty, rfl⟩ | ⟨_, same, -, rfl⟩
    · exact sound_alone fits empty aligned
    · cases same
      exact sound_both fits recBlock blocks aligned

/-- One full layer with a cache of the given shape, and one linear layer. -/
def smallConfig (isInt8 : Bool) (maxSeqLen numKVHeads headDim : Nat) : KVCacheConfig where
  maxSeqLen := maxSeqLen
  numFullLayers := 1
  numLinearLayers := 1
  numKVHeads := numKVHeads
  headDim := headDim
  linearNumVHeads := 1
  linearHeadKDim := 1
  linearHeadVDim := 1
  linearConvChannels := 3
  linearConvKernelDim := 4
  isInt8 := isInt8
  artifactQuantScheme := [73, 78, 84, 56, 45, 75, 86]

theorem smallConfig_fits : Fits (smallConfig true 2 1 3) ∧ Fits (smallConfig true 1 1 1) :=
  ⟨⟨by decide, by decide⟩, ⟨by decide, by decide⟩⟩

/-- What `allocate` cuts for it from blocks at 4096 and 8192. -/
def smallStorage (maxSeqLen numKVHeads headDim : Nat) : Storage :=
  let cfg := smallConfig true maxSeqLen numKVHeads headDim
  ⟨walk (kvParts cfg) 1 0 4096, walk (recurrentParts cfg) 1 0 8192⟩

theorem smallStorage_sound : Sound (smallConfig true 2 1 3) 4096 8192 (smallStorage 2 1 3) :=
  (layout_sound_iff smallConfig_fits.1 (by decide) (by decide) (by decide) (by decide +kernel)).2 fun _ => .inr (by decide)

/-- One position, one head, one dimension: the scales begin at 4098. -/
theorem scales_misaligned : init (smallConfig true 1 1 1) = .ok true ∧
    allocate (smallConfig true 1 1 1) (some 4096) (some 8192) = .ok (some (smallStorage 1 1 1)) ∧
    ⟨.kScale, 0, 4098, 4⟩ ∈ (smallStorage 1 1 1).kv ∧ ¬ Part.kScale.elementSize ∣ 4098 ∧
    ¬ Sound (smallConfig true 1 1 1) 4096 8192 (smallStorage 1 1 1) := by
  have placed : (⟨.kScale, 0, 4098, 4⟩ : Region Part) ∈ (smallStorage 1 1 1).kv :=
    List.mem_cons_of_mem _ (List.mem_cons_of_mem _ List.mem_cons_self)
  refine ⟨by decide +kernel, by decide +kernel, placed, by decide, fun sound => ?_⟩
  have multiple := sound.aligned _ (List.mem_append_left _ placed)
  revert multiple
  decide

end Layout

end XInfer.KVCacheStorage
