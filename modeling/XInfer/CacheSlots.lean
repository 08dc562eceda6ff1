import XInfer.LayerRows

/-!
The slots of the KV cache in its two formats. A slot has the vectors of the heads of a position, as they are or as
integers with a scale and a zero point. Writers change the slots of their tokens only, and the attention kernels read
back what the format makes of a vector.
-/

namespace XInfer.CacheSlots

open AttentionKernels CachedAttention DecodePass LayerRows Launches OnlineSoftmax

/-- How the cache keeps the vector of a head, and where. -/
structure CacheFormat (headDim : Nat) where
  Vec : Type
  zero : Vec
  encode : Row headDim → Vec
  decode : Vec → Nat → ℝ
  /-- From the index of the layer, and that of a head among the heads of all positions. -/
  keyAt : Storage ℝ → Nat → Nat → Vec
  valueAt : Storage ℝ → Nat → Nat → Vec

/-- A vector in integers. -/
structure Quantised (headDim : Nat) where
  codes : Fin headDim → Int
  scale : ℝ
  zeroPoint : ℝ

variable {headDim : Nat}

noncomputable def halfFormat (headDim : Nat) : CacheFormat headDim where
  Vec := Row headDim
  zero := 0
  encode x := x
  decode := pad
  keyAt storage layer := rowOf headDim (storage.half layer).kCache
  valueAt storage layer := rowOf headDim (storage.half layer).vCache

/-- The six buffers as two sides. -/
def quantisedAt (headDim : Nat) (cache : Nat → Int) (scale zeroPoint : Nat → ℝ) (i : Nat) : Quantised headDim :=
  ⟨fun d => cache (i * headDim + d), scale i, zeroPoint i⟩

noncomputable def quantise (x : Row headDim) : Quantised headDim :=
  let found := extremes (pad x) headDim
  ⟨fun d => quantised found.1 found.2 (x d), scaleVal found.1 found.2, found.1⟩

noncomputable def int8Format (headDim : Nat) : CacheFormat headDim where
  Vec := Quantised headDim
  zero := ⟨fun _ => 0, 0, 0⟩
  encode := quantise
  decode v d := if inside : d < headDim then dequantised (v.codes ⟨d, inside⟩) v.scale v.zeroPoint else 0
  keyAt storage layer :=
    let caches := storage.int8 layer
    quantisedAt headDim caches.kCache caches.kScale caches.kZeroPoint
  valueAt storage layer :=
    let caches := storage.int8 layer
    quantisedAt headDim caches.vCache caches.vScale caches.vZeroPoint

theorem decode_quantisedAt {d : Nat} (inside : d < headDim) (cache : Nat → Int) (scale zeroPoint : Nat → ℝ) (i : Nat) :
    (int8Format headDim).decode (quantisedAt headDim cache scale zeroPoint i) d =
      dequantised (cache (i * headDim + d)) (scale i) (zeroPoint i) := dif_pos inside

noncomputable def formatOf (headDim : Nat) : Bool → CacheFormat headDim
  | true => int8Format headDim
  | false => halfFormat headDim

section Written

variable {startPos numTokens numKVHeads maxSeqLen : Nat}

/-- The heads of the tokens, counted on from those of the positions before. -/
def Covered (startPos numTokens numKVHeads i : Nat) : Prop :=
  startPos * numKVHeads ≤ i ∧ i < (startPos + numTokens) * numKVHeads

instance (startPos numTokens numKVHeads i : Nat) : Decidable (Covered startPos numTokens numKVHeads i) :=
  inferInstanceAs (Decidable (_ ∧ _))

theorem half_written (input cache : Nat → ℝ) (room : startPos + numTokens ≤ maxSeqLen) (i : Nat) :
    rowOf headDim (launch (numTokens * (numKVHeads * headDim)) (writeElement input startPos numKVHeads headDim maxSeqLen)
      cache) i = if Covered startPos numTokens numKVHeads i then rowOf headDim input (i - startPos * numKVHeads)
        else rowOf headDim cache i := by
  have stores : ∀ item < numTokens * (numKVHeads * headDim), _ := fun item (early : item < _) =>
    writeElement_row input (early.trans_le (Nat.mul_le_mul_right _ (Nat.le_sub_of_add_le' room)))
  rw [launch_congr stores]
  funext d
  unfold rowOf
  split
  next covered =>
    obtain ⟨item, rfl⟩ := Nat.exists_eq_add_of_le covered.1
    have early : item < numTokens * numKVHeads := by
      have before := covered.2
      rw [Nat.add_mul] at before
      omega
    have place : (startPos * numKVHeads + item) * headDim + d = startPos * (numKVHeads * headDim) + (item * headDim + d) := by
      ring
    rw [place, Nat.add_sub_cancel_left, row_here]
    rw [← Nat.mul_assoc]
    exact flat_lt early d.isLt
  next other =>
    refine row_kept _ ?_ input cache
    rw [← Nat.mul_assoc, ← Nat.mul_assoc, ← Nat.add_mul, ← Nat.add_mul]
    rcases Nat.lt_or_ge i (startPos * numKVHeads) with before | behind
    · exact .inl (flat_lt before d.isLt)
    · have past : (startPos + numTokens) * numKVHeads ≤ i := Nat.not_lt.1 fun inside => other ⟨behind, inside⟩
      exact .inr ((Nat.mul_le_mul_right headDim past).trans (Nat.le_add_right _ _))

theorem extremes_congr {src src' : Nat → ℝ} (filled : 0 < headDim) (same : ∀ d < headDim, src d = src' d) :
    extremes src headDim = extremes src' headDim := by
  unfold extremes
  rw [same 0 filled]
  apply List.foldl_ext
  intro found d member
  obtain ⟨first, last⟩ := List.mem_range'_1.1 member
  rw [same d (by omega)]

theorem int8_written (filled : 0 < headDim) (input : Nat → ℝ) (cache : Nat → Int) (scale zeroPoint : Nat → ℝ)
    (room : startPos + numTokens ≤ maxSeqLen) (i : Nat) :
    let stores := writeVector input startPos numKVHeads headDim maxSeqLen
    quantisedAt headDim (launch (numTokens * numKVHeads) (fun item => (stores item).cache) cache)
        (launch (numTokens * numKVHeads) (fun item => (stores item).scale) scale)
        (launch (numTokens * numKVHeads) (fun item => (stores item).zeroPoint) zeroPoint) i =
      if Covered startPos numTokens numKVHeads i then quantise (rowOf headDim input (i - startPos * numKVHeads))
      else quantisedAt headDim cache scale zeroPoint i := by
  intro stores
  have vectors : ∀ item < numTokens * numKVHeads, stores item =
      writeHead (fun d => input (item * headDim + d)) (startPos * numKVHeads + item) headDim := by
    intro item early
    dsimp only [stores, writeVector]
    rw [if_neg (item_inside (early.trans_le (Nat.mul_le_mul_right _ (Nat.le_sub_of_add_le' room)))), item_slot]
  have codes : launch (numTokens * numKVHeads) (fun item => (stores item).cache) =
      launch (numTokens * numKVHeads) (block (startPos * numKVHeads) headDim fun item d =>
        let found := extremes (fun d => input (item * headDim + d)) headDim
        quantised found.1 found.2 (input (item * headDim + d))) :=
    launch_congr fun item early => congrArg HeadStores.cache (vectors item early)
  have scales : launch (numTokens * numKVHeads) (fun item => (stores item).scale) =
      launch (numTokens * numKVHeads) (fun item => [(startPos * numKVHeads + item,
        let found := extremes (fun d => input (item * headDim + d)) headDim
        scaleVal found.1 found.2)]) :=
    launch_congr fun item early => congrArg HeadStores.scale (vectors item early)
  have zeroPoints : launch (numTokens * numKVHeads) (fun item => (stores item).zeroPoint) =
      launch (numTokens * numKVHeads) (fun item => [(startPos * numKVHeads + item,
        (extremes (fun d => input (item * headDim + d)) headDim).1)]) :=
    launch_congr fun item early => congrArg HeadStores.zeroPoint (vectors item early)
  rw [codes, scales, zeroPoints]
  unfold quantisedAt
  by_cases covered : Covered startPos numTokens numKVHeads i
  · rw [if_pos covered]
    obtain ⟨item, rfl⟩ := Nat.exists_eq_add_of_le covered.1
    have early : item < numTokens * numKVHeads := by
      have before := covered.2
      rw [Nat.add_mul] at before
      omega
    have found : extremes (fun d => input (item * headDim + d)) headDim =
        extremes (pad (rowOf headDim input item)) headDim :=
      extremes_congr filled fun d inside => (pad_rowOf input item inside).symm
    rw [Nat.add_sub_cancel_left, row_here _ early, row_here _ early, found]
    unfold quantise
    congr 1
    funext d
    rw [block_here _ early d.isLt, found]
    rfl
  · rw [if_neg covered]
    have outside : i < startPos * numKVHeads ∨ startPos * numKVHeads + numTokens * numKVHeads ≤ i := by
      rcases Nat.lt_or_ge i (startPos * numKVHeads) with before | behind
      · exact .inl before
      · exact .inr (Nat.add_mul .. ▸ Nat.not_lt.1 fun inside => covered ⟨behind, inside⟩)
    rw [row_kept _ outside, row_kept _ outside]
    congr 1
    funext d
    apply block_kept
    rcases outside with before | past
    · exact .inl (flat_lt before d.isLt)
    · exact .inr ((Nat.mul_le_mul_right headDim past).trans (Nat.le_add_right _ _))

end Written

section Submissions

variable {Weight : Type} (T : Target ℝ Weight) {fullIdx seqLen startPos maxSeqLen : Nat}

/-- What a writer leaves of the storage, on one of its sides. -/
def Stored (numKVHeads startPos seqLen fullIdx : Nat) {Vec : Type} (vector : Nat → Vec) (before after : Nat → Nat → Vec) :
    Prop :=
  ∀ layer i, after layer i =
    if layer = fullIdx ∧ Covered startPos seqLen numKVHeads i then vector (i - startPos * numKVHeads) else before layer i

/-- The buffers of one layer are new. -/
theorem stored_of {numKVHeads : Nat} {Vec Buffers : Type} {vector : Nat → Vec} {storage : Nat → Buffers}
    {changed : Buffers} (side : Buffers → Nat → Vec) (own : ∀ i, side changed i =
      if Covered startPos seqLen numKVHeads i then vector (i - startPos * numKVHeads) else side (storage fullIdx) i) :
    Stored numKVHeads startPos seqLen fullIdx vector (fun layer => side (storage layer))
      (fun layer => side (Function.update storage fullIdx changed layer)) := by
  intro layer i
  dsimp only
  by_cases here : layer = fullIdx
  · subst here
    rw [Function.update_self, own]
    simp only [true_and]
  · rw [if_neg (fun both => here both.1), Function.update_of_ne here]

/-- The submission that writes a layer's slots, in either format. -/
structure Wrote (m after : DeviceMemory ℝ) (fullIdx seqLen startPos : Nat) : Prop where
  bufs : after.bufs = m.bufs
  inputs : after.tokenIds = m.tokenIds ∧ after.positions = m.positions
  states : after.storage.convState = m.storage.convState ∧ after.storage.linearState = m.storage.linearState
  keys : Stored T.config.numKeyValueHeads startPos seqLen fullIdx
    (fun item => (formatOf T.config.headDim T.isInt8).encode (rowOf T.config.headDim (elements m.bufs.actK) item))
    ((formatOf T.config.headDim T.isInt8).keyAt m.storage) ((formatOf T.config.headDim T.isInt8).keyAt after.storage)
  values : Stored T.config.numKeyValueHeads startPos seqLen fullIdx
    (fun item => (formatOf T.config.headDim T.isInt8).encode (rowOf T.config.headDim (elements m.bufs.actV) item))
    ((formatOf T.config.headDim T.isInt8).valueAt m.storage) ((formatOf T.config.headDim T.isInt8).valueAt after.storage)

variable (fullIdx) in
theorem writeKvCache_wrote (heads : 0 < T.config.numKeyValueHeads) (elems : 0 < T.config.headDim) (rows : 0 < seqLen)
    (room : startPos + seqLen ≤ maxSeqLen) (m : DeviceMemory ℝ) :
    Wrote T m (writeKvCache T maxSeqLen fullIdx seqLen startPos false m) fullIdx seqLen startPos := by
  have clipped : clipTokens startPos seqLen maxSeqLen = some seqLen := by
    rw [clipTokens_inside (by omega), Nat.min_eq_left (by omega)]
  have some' : ¬ (seqLen = 0 ∨ T.config.numKeyValueHeads = 0 ∨ T.config.headDim = 0) := by omega
  cases format : T.isInt8 with
  | false =>
      have done : writeKvCache T maxSeqLen fullIdx seqLen startPos false m = { m with storage := { m.storage with
          half := Function.update m.storage.half fullIdx (attentionWriteKvCache (m.storage.half fullIdx)
            (elements m.bufs.actK) (elements m.bufs.actV) startPos seqLen T.config.numKeyValueHeads T.config.headDim
            maxSeqLen) } } := by
        simp [writeKvCache, format]
      rw [done, attentionWriteKvCache, if_neg some', clipped]
      refine ⟨rfl, ⟨rfl, rfl⟩, ⟨rfl, rfl⟩, ?_, ?_⟩
      · rw [format]
        exact stored_of (fun buffers : KVBuffers ℝ => rowOf T.config.headDim buffers.kCache) (half_written _ _ room)
      · rw [format]
        exact stored_of (fun buffers : KVBuffers ℝ => rowOf T.config.headDim buffers.vCache) (half_written _ _ room)
  | true =>
      have done : writeKvCache T maxSeqLen fullIdx seqLen startPos false m = { m with storage := { m.storage with
          int8 := Function.update m.storage.int8 fullIdx (attentionWriteKvCacheInt8 (m.storage.int8 fullIdx)
            (elements m.bufs.actK) (elements m.bufs.actV) startPos seqLen T.config.numKeyValueHeads T.config.headDim
            maxSeqLen) } } := by
        simp [writeKvCache, format]
      rw [done, attentionWriteKvCacheInt8, if_neg some', clipped]
      refine ⟨rfl, ⟨rfl, rfl⟩, ⟨rfl, rfl⟩, ?_, ?_⟩
      · rw [format]
        exact stored_of (fun buffers : Int8Buffers ℝ => quantisedAt T.config.headDim buffers.kCache buffers.kScale
          buffers.kZeroPoint) (int8_written elems _ _ _ _ room)
      · rw [format]
        exact stored_of (fun buffers : Int8Buffers ℝ => quantisedAt T.config.headDim buffers.vCache buffers.vScale
          buffers.vZeroPoint) (int8_written elems _ _ _ _ room)

/-- The slot of a position: a vector for each head. -/
structure Slot (Vec : Type) (heads : Nat) where
  keys : Fin heads → Vec
  values : Fin heads → Vec

namespace CacheFormat

variable (format : CacheFormat headDim) (heads : Nat)

def slotAt (storage : Storage ℝ) (layer pos : Nat) : Slot format.Vec heads :=
  ⟨fun h => format.keyAt storage layer (pos * heads + h), fun h => format.valueAt storage layer (pos * heads + h)⟩

noncomputable def encodeSlot (k v : Row (heads * headDim)) : Slot format.Vec heads :=
  ⟨fun h => format.encode (rowOf headDim (pad k) h), fun h => format.encode (rowOf headDim (pad v) h)⟩

end CacheFormat

/-- The states of other layers are no part of a slot. -/
theorem slotAt_caches {isInt8 : Bool} (heads : Nat) {storage storage' : Storage ℝ} (half : storage.half = storage'.half)
    (int8 : storage.int8 = storage'.int8) :
    (formatOf headDim isInt8).slotAt heads storage = (formatOf headDim isInt8).slotAt heads storage' := by
  have keys : (formatOf headDim isInt8).keyAt storage = (formatOf headDim isInt8).keyAt storage' := by
    cases isInt8 with
    | false => exact congrArg (fun half layer => rowOf headDim (KVBuffers.kCache (half layer))) half
    | true =>
        exact congrArg (fun int8 layer => quantisedAt headDim (Int8Buffers.kCache (int8 layer)) (int8 layer).kScale
          (int8 layer).kZeroPoint) int8
  have values : (formatOf headDim isInt8).valueAt storage = (formatOf headDim isInt8).valueAt storage' := by
    cases isInt8 with
    | false => exact congrArg (fun half layer => rowOf headDim (KVBuffers.vCache (half layer))) half
    | true =>
        exact congrArg (fun int8 layer => quantisedAt headDim (Int8Buffers.vCache (int8 layer)) (int8 layer).vScale
          (int8 layer).vZeroPoint) int8
  unfold CacheFormat.slotAt
  rw [keys, values]

theorem covered_head {numKVHeads h : Nat} (head : h < numKVHeads) (pos : Nat) :
    Covered startPos seqLen numKVHeads (pos * numKVHeads + h) ↔ startPos ≤ pos ∧ pos < startPos + seqLen := by
  unfold Covered
  constructor
  · rintro ⟨low, high⟩
    constructor
    · exact Nat.lt_succ_iff.1 (lt_of_mul_lt_mul_right (low.trans_lt (Nat.succ_mul pos _ ▸ by omega)) (Nat.zero_le _))
    · exact lt_of_mul_lt_mul_right ((Nat.le_add_right _ _).trans_lt high) (Nat.zero_le _)
  · rintro ⟨low, high⟩
    exact ⟨(Nat.mul_le_mul_right _ low).trans (Nat.le_add_right _ _), flat_lt high head⟩

/-- One side of a slot. -/
theorem Stored.head {numKVHeads elems : Nat} {Vec : Type} {encode : Row elems → Vec} {input : Nat → ℝ}
    {before after : Nat → Nat → Vec}
    (stored : Stored numKVHeads startPos seqLen fullIdx (fun item => encode (rowOf elems input item)) before after)
    (layer pos : Nat) (h : Fin numKVHeads) : after layer (pos * numKVHeads + h) =
      if layer = fullIdx ∧ startPos ≤ pos ∧ pos < startPos + seqLen then
        encode (rowOf elems (pad (rowOf (numKVHeads * elems) input (pos - startPos))) h)
      else before layer (pos * numKVHeads + h) := by
  rw [stored]
  simp only [covered_head h.isLt]
  split
  next written =>
    obtain ⟨t, rfl⟩ := Nat.exists_eq_add_of_le written.2.1
    have item : (startPos + t) * numKVHeads + h - startPos * numKVHeads = t * numKVHeads + h := by
      rw [Nat.add_mul, Nat.add_assoc, Nat.add_sub_cancel_left]
    rw [item, Nat.add_sub_cancel_left]
    congr 1
    funext d
    exact (pad_head input t h.isLt d.isLt).symm
  next => rfl

variable {T} in
theorem Wrote.slotAt {m after : DeviceMemory ℝ} (wrote : Wrote T m after fullIdx seqLen startPos) (layer pos : Nat) :
    let format := formatOf T.config.headDim T.isInt8
    let width := T.config.numKeyValueHeads * T.config.headDim
    format.slotAt T.config.numKeyValueHeads after.storage layer pos =
      if layer = fullIdx ∧ startPos ≤ pos ∧ pos < startPos + seqLen then
        format.encodeSlot T.config.numKeyValueHeads (rowOf width (elements m.bufs.actK) (pos - startPos))
          (rowOf width (elements m.bufs.actV) (pos - startPos))
      else format.slotAt T.config.numKeyValueHeads m.storage layer pos := by
  intro format width
  have keys := wrote.keys.head layer pos
  have values := wrote.values.head layer pos
  unfold CacheFormat.slotAt CacheFormat.encodeSlot
  simp only [format, keys, values]
  split <;> rfl

end Submissions

section Answers

/-- The softmax of the scores over the first keys, as the loop leaves it. -/
noncomputable def answer (query : Nat → ℝ) (headDim : Nat) (key value : Nat → Nat → ℝ) (keys : Nat) : Nat → ℝ :=
  (attended (fun j => score query headDim (usedScale 0 headDim) (key j)) value keys).output

theorem answer_congr {query query' : Nat → ℝ} {key key' value value' : Nat → Nat → ℝ} {keys d : Nat}
    (queries : ∀ e < headDim, query e = query' e) (same : ∀ j ≤ keys, ∀ e < headDim, key j e = key' j e)
    (same' : ∀ j ≤ keys, value j d = value' j d) :
    answer query headDim key value (keys + 1) d = answer query' headDim key' value' (keys + 1) d := by
  unfold answer
  rw [attended_output, attended_output]
  apply average_congr
  · intro j below
    refine congrArg (· * usedScale 0 headDim) (Finset.sum_congr rfl fun e member => ?_)
    have inside := Finset.mem_range.1 member
    rw [queries e inside, same j (Nat.lt_succ_iff.1 below) e inside]
  · intro j below
    exact same' j (Nat.lt_succ_iff.1 below)

variable {numQHeads numKVHeads startPos seqLen maxSeqLen : Nat}

/-- What the launch leaves for a head of a token. -/
theorem launchSubgroups_output (cast : ℝ → ℝ) (Q out : Nat → ℝ) (key value : Nat → Nat → ℝ) (scale : ℝ)
    (lanes : SG_SIZE ∣ headDim) (grouped : numKVHeads ∣ numQHeads) (room : startPos + seqLen ≤ maxSeqLen) {t h d : Nat}
    (token : t < seqLen) (head : h < numQHeads) (inside : d < headDim) :
    let kvHead := fun j => j * numKVHeads + h / (numQHeads / numKVHeads)
    launchSubgroups cast out Q key value startPos seqLen numQHeads numKVHeads headDim scale maxSeqLen
        ((t * numQHeads + h) * headDim + d) =
      cast (average Real.exp (fun j => score (fun d => Q ((t * numQHeads + h) * headDim + d)) headDim
        (usedScale scale headDim) (key (kvHead j))) (fun j => value (kvHead j)) (startPos + t + 1) d) := by
  have shared : 0 < numKVHeads := Nat.pos_of_dvd_of_pos grouped (Nat.zero_lt_of_lt head)
  rw [launchSubgroups_active cast out Q _ _ _ (by omega)]
  refine (vector_here (fun item d => cast (average Real.exp
    (fun j => score (fun d => Q (item * headDim + d)) headDim (usedScale scale headDim)
      (key (j * numKVHeads + item % numQHeads / (numQHeads / numKVHeads))))
    (fun j => value (j * numKVHeads + item % numQHeads / (numQHeads / numKVHeads)))
    (startPos + item / numQHeads + 1) d)) (fun item active => ?_) (flat_lt token head) inside out).trans ?_
  · have position : item / numQHeads < seqLen := Nat.div_lt_of_lt_mul (Nat.mul_comm _ numQHeads ▸ active)
    exact attendSubgroup_eq _ Q _ key value lanes active (by omega)
  · rw [flat_div head, flat_mod head]

theorem launchSubgroups_answer (Q out : Nat → ℝ) (key value : Nat → Nat → ℝ) (lanes : SG_SIZE ∣ headDim)
    (grouped : numKVHeads ∣ numQHeads) (room : startPos + seqLen ≤ maxSeqLen) {t h d : Nat} (token : t < seqLen)
    (head : h < numQHeads) (inside : d < headDim) :
    launchSubgroups DeviceFloat.half out Q key value startPos seqLen numQHeads numKVHeads headDim 0 maxSeqLen
        ((t * numQHeads + h) * headDim + d) =
      answer (fun d => Q ((t * numQHeads + h) * headDim + d)) headDim
        (fun j => key (j * numKVHeads + h / (numQHeads / numKVHeads)))
        (fun j => value (j * numKVHeads + h / (numQHeads / numKVHeads))) (startPos + t + 1) d := by
  unfold answer
  rw [attended_output]
  exact launchSubgroups_output _ Q out key value 0 lanes grouped room token head inside

variable {Weight : Type} (T : Target ℝ Weight)

/-- The submission reads what the format makes of the slots. -/
theorem sdpaCausal_answers (lanes : SG_SIZE ∣ T.config.headDim)
    (grouped : T.config.numKeyValueHeads ∣ T.config.numAttentionHeads) (room : startPos + seqLen ≤ maxSeqLen)
    (fullIdx : Nat) (m : DeviceMemory ℝ) {t h d : Nat} (token : t < seqLen) (head : h < T.config.numAttentionHeads)
    (inside : d < T.config.headDim) :
    let format := formatOf T.config.headDim T.isInt8
    let kvHead := fun j => j * T.config.numKeyValueHeads + h / (T.config.numAttentionHeads / T.config.numKeyValueHeads)
    let item := t * T.config.numAttentionHeads + h
    elements (sdpaCausal T maxSeqLen fullIdx seqLen startPos false m).bufs.actAttnOut (item * T.config.headDim + d) =
      answer (fun d => elements m.bufs.actQ (item * T.config.headDim + d)) T.config.headDim
        (fun j => format.decode (format.keyAt m.storage fullIdx (kvHead j)))
        (fun j => format.decode (format.valueAt m.storage fullIdx (kvHead j))) (startPos + t + 1) d := by
  intro format kvHead item
  have cell : item * T.config.headDim + d < seqLen * T.config.fullOutDim := by
    rw [ModelConfig.fullOutDim, ← Nat.mul_assoc]
    exact flat_lt (flat_lt token head) inside
  unfold sdpaCausal
  dsimp only
  rw [elements_overwrite cell]
  cases chosen : T.isInt8 with
  | false =>
      simp only [Bool.false_eq_true, if_false]
      rw [sdpaCausalCached, launchSubgroups_answer _ _ _ _ lanes grouped room token head inside]
      apply answer_congr
      · exact fun _ _ => rfl
      · intro j _ e within
        dsimp only [format]
        rw [chosen]
        exact (pad_rowOf _ _ within).symm
      · intro j _
        dsimp only [format]
        rw [chosen]
        exact (pad_rowOf _ _ inside).symm
  | true =>
      simp only [Bool.false_eq_true, if_false, if_true]
      rw [sdpaCausalCachedInt8, launchSubgroups_answer _ _ _ _ lanes grouped room token head inside]
      apply answer_congr
      · exact fun _ _ => rfl
      · intro j _ e within
        dsimp only [format]
        rw [chosen]
        exact (decode_quantisedAt within ..).symm
      · intro j _
        dsimp only [format]
        rw [chosen]
        exact (decode_quantisedAt inside ..).symm

end Answers

end XInfer.CacheSlots
