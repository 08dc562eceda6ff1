import XInfer.AttentionKernels
import Mathlib.Tactic.FieldSimp
import Mathlib.Tactic.Linarith

/-!
What the INT8 cache keeps of a vector, over the rationals: the writer quantises between the extremes of the
vector, and the reader comes back to within half a step. Slots that no token goes to keep what they held.
-/

namespace XInfer.Int8RoundTrip

open AttentionKernels Launches
open DeviceFloat (less ofInt)

section Exact

variable {K : Type} [Field K] [LinearOrder K] [FloorRing K]

attribute [local instance] exactFloat

section Rounding

variable [IsStrictOrderedRing K]

theorem roundAway_near {x : K} (nonneg : 0 ≤ x) : |(roundAway K x : K) - x| ≤ 1 / 2 := by
  rw [roundAway, if_pos nonneg, abs_le]
  have low := Int.floor_le (x + 1 / 2)
  have high := Int.lt_floor_add_one (x + 1 / 2)
  constructor <;> linarith

theorem roundAway_range {x : K} (nonneg : 0 ≤ x) (le : x ≤ 255) : 0 ≤ roundAway K x ∧ roundAway K x ≤ 255 := by
  rw [roundAway, if_pos nonneg]
  constructor
  · exact Int.floor_nonneg.2 (by linarith)
  · exact Int.lt_add_one_iff.1 (Int.floor_lt.2 (by push_cast; linarith))

theorem truncate_int (i : Int) : truncate K i = i := by
  unfold truncate
  split <;> simp

/-- A step number between 0 and 255 is stored as it is, shifted by 128. -/
theorem quantised_of_steps {low high x : K} (nonneg : 0 ≤ (x - low) * invScale low high)
    (le : (x - low) * invScale low high ≤ 255) :
    quantised low high x = roundAway K ((x - low) * invScale low high) - 128 := by
  obtain ⟨above, below⟩ := roundAway_range nonneg le
  have kept : clamp (DeviceFloat.round ((x - low) * invScale low high)) 0 (ofInt 255) =
      (roundAway K ((x - low) * invScale low high) : K) := by
    unfold clamp
    have notBelow : ¬ (roundAway K ((x - low) * invScale low high) : K) < 0 :=
      not_lt.2 (Int.cast_nonneg_iff.2 above)
    have notAbove : ¬ ((255 : Int) : K) < (roundAway K ((x - low) * invScale low high) : K) :=
      not_lt.2 (Int.cast_le.2 below)
    simp only [less, DeviceFloat.round, ofInt, decide_eq_true_eq]
    rw [if_neg notBelow, if_neg notAbove]
  unfold quantised
  rw [kept]
  exact (congrArg (truncate K) (Int.cast_sub _ _).symm).trans (truncate_int _)

end Rounding

section Vector

variable [IsStrictOrderedRing K] {low high x : K}

/-- Between two different extremes. -/
theorem quantised_between (lt : low < high) (above : low ≤ x) (below : x ≤ high) :
    (-128 ≤ quantised low high x ∧ quantised low high x ≤ 127) ∧
      |dequantised (quantised low high x) (scaleVal low high) low - x| ≤ scaleVal low high / 2 := by
  have width : 0 < high - low := sub_pos.2 lt
  have inverse : invScale low high = 255 / (high - low) := by simp [invScale, less, ofInt, lt]
  have scale : scaleVal low high = (high - low) / 255 := by simp [scaleVal, less, ofInt, lt]
  have nonneg : 0 ≤ (x - low) * invScale low high := by
    rw [inverse]
    exact mul_nonneg (sub_nonneg.2 above) (div_nonneg (by norm_num) width.le)
  have le : (x - low) * invScale low high ≤ 255 := by
    rw [inverse, mul_div_assoc', div_le_iff₀ width]
    nlinarith
  obtain ⟨stepAbove, stepBelow⟩ := roundAway_range nonneg le
  rw [quantised_of_steps nonneg le]
  constructor
  · constructor <;> omega
  · -- the error of the rounding, times the step
    have near := roundAway_near nonneg
    generalize roundAway K ((x - low) * invScale low high) = steps at near
    have value : dequantised (steps - 128) (scaleVal low high) low - x =
        (steps - (x - low) * invScale low high) * scaleVal low high := by
      rw [inverse, scale]
      simp only [dequantised, ofInt]
      push_cast
      field_simp
      ring
    have step : 0 < scaleVal low high := by
      rw [scale]
      exact div_pos width (by norm_num)
    rw [value, abs_mul, abs_of_pos step]
    calc |(steps : K) - (x - low) * invScale low high| * scaleVal low high
        ≤ 1 / 2 * scaleVal low high := mul_le_mul_of_nonneg_right near step.le
      _ = scaleVal low high / 2 := by ring

/-- A constant vector comes back as it is. -/
theorem quantised_constant (x : K) : quantised x x x = -128 ∧ dequantised (quantised x x x) (scaleVal x x) x = x ∧
    scaleVal x x = 1 := by
  have zero : (x - x) * invScale x x = 0 := by simp
  have steps : quantised x x x = -128 := by
    have rounded : roundAway K 0 = 0 := by
      rw [roundAway, if_pos le_rfl, zero_add, Int.floor_eq_zero_iff]
      constructor <;> norm_num
    rw [quantised_of_steps (le_of_eq zero.symm) (zero.le.trans (by norm_num)), zero, rounded]
    rfl
  have scale : scaleVal x x = 1 := by simp [scaleVal, less]
  refine ⟨steps, ?_, scale⟩
  rw [steps, scale]
  simp [dequantised, ofInt]

/-- The error of an element, in a vector whose elements are no larger than `level`. -/
theorem quantised_level {level : K} (above : low ≤ x) (below : x ≤ high) (floor : -level ≤ low) (ceiling : high ≤ level) :
    |dequantised (quantised low high x) (scaleVal low high) low - x| ≤ level / 255 := by
  rcases (above.trans below).lt_or_eq with lt | rfl
  · have scale : scaleVal low high = (high - low) / 255 := by simp [scaleVal, less, ofInt, lt]
    refine (quantised_between lt above below).2.trans ?_
    rw [scale]
    linarith
  · obtain rfl : x = low := le_antisymm below above
    rw [(quantised_constant x).2.1, sub_self, abs_zero]
    exact div_nonneg (by linarith) (by norm_num)

end Vector

section Extremes

variable (src : Nat → K)

theorem extremes_step (found : K × K) (d : Nat) :
    ((if less (src d) found.1 then src d else found.1, if less found.2 (src d) then src d else found.2) : K × K) =
      (min found.1 (src d), max found.2 (src d)) := by
  simp only [less, decide_eq_true_eq]
  rw [min_comm, min_def_lt, max_def_lt]

omit [Field K] [FloorRing K] in
/-- What the loop over some elements finds, from what it had found. -/
theorem extremes_fold (ds : List Nat) (found : K × K) :
    let result := ds.foldl (fun found d => (min found.1 (src d), max found.2 (src d))) found
    (result.1 ≤ found.1 ∧ found.2 ≤ result.2) ∧ (∀ d ∈ ds, result.1 ≤ src d ∧ src d ≤ result.2) ∧
      ∀ x, found = (x, x) → (∀ d ∈ ds, src d = x) → result = (x, x) := by
  induction ds generalizing found with
  | nil => exact ⟨⟨le_rfl, le_rfl⟩, by simp, fun _ start _ => start⟩
  | cons d rest ih =>
      obtain ⟨⟨lower, upper⟩, inside, steady⟩ := ih (min found.1 (src d), max found.2 (src d))
      dsimp only at lower upper inside steady ⊢
      rw [List.foldl_cons]
      refine ⟨⟨lower.trans (min_le_left _ _), (le_max_left _ _).trans upper⟩, ?_, ?_⟩
      · intro e member
        rcases List.mem_cons.1 member with rfl | later
        · exact ⟨lower.trans (min_le_right _ _), (le_max_right _ _).trans upper⟩
        · exact inside e later
      · rintro x rfl constant
        apply steady x
        · rw [constant d List.mem_cons_self, min_self, max_self]
        · intro e member
          exact constant e (List.mem_cons_of_mem _ member)

theorem extremes_eq (headDim : Nat) : extremes src headDim =
    (List.range' 1 (headDim - 1)).foldl (fun found d => (min found.1 (src d), max found.2 (src d))) (src 0, src 0) := by
  unfold extremes
  congr 1
  funext found d
  exact extremes_step src found d

theorem extremes_inside {headDim d : Nat} (inside : d < headDim) :
    (extremes src headDim).1 ≤ src d ∧ src d ≤ (extremes src headDim).2 := by
  rw [extremes_eq]
  obtain ⟨⟨lower, upper⟩, elements, -⟩ := extremes_fold src (List.range' 1 (headDim - 1)) (src 0, src 0)
  by_cases first : d = 0
  · rw [first]
    exact ⟨lower, upper⟩
  · exact elements d (List.mem_range'_1.2 (by omega))

theorem extremes_level {headDim : Nat} (filled : 0 < headDim) {level : K} [IsOrderedAddMonoid K]
    (bounded : ∀ d < headDim, |src d| ≤ level) :
    -level ≤ (extremes src headDim).1 ∧ (extremes src headDim).2 ≤ level := by
  have first := abs_le.1 (bounded 0 filled)
  rw [extremes_eq]
  apply List.foldlRecOn (motive := fun found : K × K => -level ≤ found.1 ∧ found.2 ≤ level)
  · exact first
  · intro found before d member
    have bounds := List.mem_range'_1.1 member
    obtain ⟨low, high⟩ := abs_le.1 (bounded d (by omega))
    exact ⟨le_min before.1 low, max_le before.2 high⟩

theorem extremes_constant (headDim : Nat) (constant : ∀ d < headDim, src d = src 0) :
    extremes src headDim = (src 0, src 0) := by
  rw [extremes_eq]
  apply (extremes_fold src _ _).2.2 _ rfl
  intro d member
  have bounds := List.mem_range'_1.1 member
  exact constant d (by omega)

end Extremes

end Exact

section Extremes

variable (src : Nat → Rat)

/-- An element against what comes back for it. -/
structure Restored (src : Nat → Rat) (headDim d : Nat) (q : Int) (scale value : Rat) : Prop where
  range : -128 ≤ q ∧ q ≤ 127
  error : |value - src d| ≤ scale / 2
  exact : (∀ e < headDim, src e = src 0) → value = src d

theorem restored {headDim d : Nat} (inside : d < headDim) :
    let (low, high) := extremes src headDim
    Restored src headDim d (quantised low high (src d)) (scaleVal low high)
      (dequantised (quantised low high (src d)) (scaleVal low high) low) := by
  obtain ⟨above, below⟩ := extremes_inside src inside
  have steady := extremes_constant src headDim
  generalize extremes src headDim = found at above below steady
  obtain ⟨low, high⟩ := found
  dsimp only at above below ⊢
  rcases (above.trans below).lt_or_eq with lt | rfl
  · obtain ⟨range, error⟩ := quantised_between lt above below
    refine ⟨range, error, ?_⟩
    intro constant
    obtain ⟨rfl, rfl⟩ := Prod.mk.inj (steady constant)
    exact absurd lt (lt_irrefl _)
  · -- the element is the only value of the vector
    obtain rfl : src d = low := le_antisymm below above
    obtain ⟨q, value, scale⟩ := quantised_constant (src d)
    rw [value]
    exact ⟨by rw [q]; decide, by simp [scale], fun _ => rfl⟩

end Extremes

section Slots

variable {input : Nat → Rat} {startPos numKVHeads headDim maxSeqLen item : Nat}

theorem writeVector_inside (before : item < (maxSeqLen - startPos) * numKVHeads) :
    writeVector input startPos numKVHeads headDim maxSeqLen item =
      writeHead (fun d => input (item * headDim + d)) (startPos * numKVHeads + item) headDim := by
  unfold writeVector
  dsimp only
  rw [if_neg (item_inside before), item_slot]

/-- What the items store to the scales, the zero points and the cache. -/
theorem stores_inside (input : Nat → Rat) (headDim : Nat) {items : Nat} (room : items ≤ (maxSeqLen - startPos) * numKVHeads) :
    let vector := fun item d => input (item * headDim + d)
    let low := fun item => (extremes (vector item) headDim).1
    let high := fun item => (extremes (vector item) headDim).2
    let stores := writeVector input startPos numKVHeads headDim maxSeqLen
    launch items (fun item => (stores item).scale) =
        launch items (fun item => [(startPos * numKVHeads + item, scaleVal (low item) (high item))]) ∧
      launch items (fun item => (stores item).zeroPoint) =
        launch items (fun item => [(startPos * numKVHeads + item, low item)]) ∧
      launch items (fun item => (stores item).cache) = launch items
        (block (startPos * numKVHeads) headDim fun item d => quantised (low item) (high item) (vector item d)) := by
  have stores : ∀ item < items, writeVector input startPos numKVHeads headDim maxSeqLen item = _ :=
    fun item before => writeVector_inside (before.trans_le room)
  exact ⟨launch_congr fun item before => congrArg HeadStores.scale (stores item before),
    launch_congr fun item before => congrArg HeadStores.zeroPoint (stores item before),
    launch_congr fun item before => congrArg HeadStores.cache (stores item before)⟩

end Slots

section Sides

variable {input : Nat → Rat} {startPos numTokens numKVHeads headDim maxSeqLen : Nat}

/-- Keys or values: a cache of integers with the factors of its vectors. -/
structure Side where
  cache : Nat → Int
  scale : Nat → Rat
  zeroPoint : Nat → Rat

def keys (caches : Int8Buffers Rat) : Side := ⟨caches.kCache, caches.kScale, caches.kZeroPoint⟩
def values (caches : Int8Buffers Rat) : Side := ⟨caches.vCache, caches.vScale, caches.vZeroPoint⟩

/-- What was written to a side, against what is read back; positions without a token are as before. -/
structure RoundTrip (input : Nat → Rat) (startPos numTokens numKVHeads headDim maxSeqLen : Nat)
    (before after : Side) (read : Nat → Rat) : Prop where
  restored : ∀ t < min numTokens (maxSeqLen - startPos), ∀ h < numKVHeads, ∀ d < headDim,
    let vector := fun d => input ((t * numKVHeads + h) * headDim + d)
    let slot := (startPos + t) * numKVHeads + h
    Restored vector headDim d (after.cache (slot * headDim + d)) (after.scale slot)
      (read ((t * numKVHeads + h) * headDim + d))
  kept : ∀ pos, pos < startPos ∨ min (startPos + numTokens) maxSeqLen ≤ pos → ∀ h < numKVHeads,
    let slot := pos * numKVHeads + h
    after.scale slot = before.scale slot ∧ after.zeroPoint slot = before.zeroPoint slot ∧
      ∀ d < headDim, after.cache (slot * headDim + d) = before.cache (slot * headDim + d)

/-- The launches of the writer on one side. -/
def written (input : Nat → Rat) (startPos numTokens numKVHeads headDim maxSeqLen : Nat) (side : Side) : Side :=
  let items := min numTokens (maxSeqLen - startPos) * numKVHeads
  let stores := writeVector input startPos numKVHeads headDim maxSeqLen
  { cache := launch items (fun item => (stores item).cache) side.cache
    scale := launch items (fun item => (stores item).scale) side.scale
    zeroPoint := launch items (fun item => (stores item).zeroPoint) side.zeroPoint }

theorem written_here (input : Nat → Rat) (side : Side) {item d : Nat} (before : item < min numTokens (maxSeqLen - startPos) * numKVHeads)
    (inside : d < headDim) :
    let vector := fun d => input (item * headDim + d)
    let found := extremes vector headDim
    let slot := startPos * numKVHeads + item
    let after := written input startPos numTokens numKVHeads headDim maxSeqLen side
    after.cache (slot * headDim + d) = quantised found.1 found.2 (vector d) ∧
      after.scale slot = scaleVal found.1 found.2 ∧ after.zeroPoint slot = found.1 := by
  obtain ⟨scales, zeroPoints, caches⟩ := stores_inside input headDim
    (Nat.mul_le_mul_right numKVHeads (Nat.min_le_right numTokens (maxSeqLen - startPos)))
  dsimp only [written]
  rw [scales, zeroPoints, caches]
  exact ⟨block_here _ before inside _ _, row_here _ before _ _, row_here _ before _ _⟩

/-- The reader's launch: what it leaves where a token was written. -/
theorem read_here (side : Side) (output : Nat → Rat) {item d : Nat}
    (before : item < min numTokens (maxSeqLen - startPos) * numKVHeads) (inside : d < headDim) :
    launch (numTokens * numKVHeads)
        (readVector id side.cache side.scale side.zeroPoint startPos numKVHeads headDim maxSeqLen) output
        (item * headDim + d) =
      let slot := startPos * numKVHeads + item
      dequantised (side.cache (slot * headDim + d)) (side.scale slot) (side.zeroPoint slot) := by
  have product := Nat.pos_of_ne_zero (Nat.ne_zero_of_lt before)
  have positive : 0 < numKVHeads := Nat.pos_of_mul_pos_left product
  have tokens : 0 < min numTokens (maxSeqLen - startPos) := Nat.pos_of_mul_pos_right product
  have silent : ∀ item, maxSeqLen ≤ startPos + item / numKVHeads →
      readVector id side.cache side.scale side.zeroPoint startPos numKVHeads headDim maxSeqLen item = [] := by
    intro item behind
    unfold readVector
    dsimp only
    generalize item / numKVHeads = t at behind
    rw [if_pos (by omega)]
  -- the items behind the end of the cache are silent, and each other one reads its own slot
  rw [launch_clipped positive numTokens silent]
  apply vector_here (fun item d =>
    let slot := startPos * numKVHeads + item
    dequantised (side.cache (slot * headDim + d)) (side.scale slot) (side.zeroPoint slot)) _ before inside
  intro item early
  have room := Nat.mul_le_mul_right numKVHeads (Nat.min_le_right numTokens (maxSeqLen - startPos))
  unfold readVector
  dsimp only
  rw [if_neg (item_inside (early.trans_le room)), item_slot]
  simp only [id_eq]

theorem written_kept (side : Side) {pos h : Nat} (inside : startPos < maxSeqLen)
    (outside : pos < startPos ∨ min (startPos + numTokens) maxSeqLen ≤ pos) (head : h < numKVHeads) :
    let slot := pos * numKVHeads + h
    let after := written input startPos numTokens numKVHeads headDim maxSeqLen side
    after.scale slot = side.scale slot ∧ after.zeroPoint slot = side.zeroPoint slot ∧
      ∀ d < headDim, after.cache (slot * headDim + d) = side.cache (slot * headDim + d) := by
  obtain ⟨scales, zeroPoints, caches⟩ := stores_inside input headDim
    (Nat.mul_le_mul_right numKVHeads (Nat.min_le_right numTokens (maxSeqLen - startPos)))
  have slots : pos * numKVHeads + h < startPos * numKVHeads ∨
      startPos * numKVHeads + min numTokens (maxSeqLen - startPos) * numKVHeads ≤ pos * numKVHeads + h := by
    rcases outside with early | late
    · exact .inl (flat_lt early head)
    · right
      rw [← Nat.add_mul]
      exact (Nat.mul_le_mul_right _ (by omega)).trans (Nat.le_add_right _ _)
  dsimp only [written]
  rw [scales, zeroPoints, caches]
  refine ⟨row_kept _ slots _ _, row_kept _ slots _ _, fun d within => ?_⟩
  apply block_kept
  rcases slots with early | late
  · exact .inl (flat_lt early within)
  · exact .inr ((Nat.mul_le_mul_right _ late).trans (Nat.le_add_right _ _))

theorem side_round_trip (side : Side) (output : Nat → Rat) (inside : startPos < maxSeqLen) :
    let after := written input startPos numTokens numKVHeads headDim maxSeqLen side
    RoundTrip input startPos numTokens numKVHeads headDim maxSeqLen side after
      (launch (numTokens * numKVHeads)
        (readVector id after.cache after.scale after.zeroPoint startPos numKVHeads headDim maxSeqLen) output) := by
  constructor
  · intro t token h head d within
    have before := flat_lt token head
    have slot : (startPos + t) * numKVHeads + h = startPos * numKVHeads + (t * numKVHeads + h) := by ring
    obtain ⟨q, scale, zeroPoint⟩ := written_here input side before within
    dsimp only at q scale zeroPoint ⊢
    rw [read_here _ output before within, slot]
    dsimp only
    rw [q, scale, zeroPoint]
    exact restored (fun d => input ((t * numKVHeads + h) * headDim + d)) within
  · intro pos outside h head
    exact written_kept side inside outside head

end Sides

/-- What is written to the INT8 cache and read back. -/
theorem int8_round_trip (caches : Int8Buffers Rat) (outputs : KVBuffers Rat) (K_in V_in : Nat → Rat)
    {startPos maxSeqLen : Nat} (inside : startPos < maxSeqLen) (numTokens numKVHeads headDim : Nat) :
    let after := attentionWriteKvCacheInt8 caches K_in V_in startPos numTokens numKVHeads headDim maxSeqLen
    let read := attentionReadKvCacheInt8 after id outputs startPos numTokens numKVHeads headDim maxSeqLen
    RoundTrip K_in startPos numTokens numKVHeads headDim maxSeqLen (keys caches) (keys after) read.kCache ∧
      RoundTrip V_in startPos numTokens numKVHeads headDim maxSeqLen (values caches) (values after) read.vCache := by
  by_cases some' : numTokens = 0 ∨ numKVHeads = 0 ∨ headDim = 0
  · -- nothing is launched, and no element is written
    dsimp only [attentionWriteKvCacheInt8, attentionReadKvCacheInt8]
    rw [if_pos some', if_pos some']
    constructor
    · constructor
      · intro t token h head d within
        omega
      · exact fun _ _ _ _ => ⟨rfl, rfl, fun _ _ => rfl⟩
    · constructor
      · intro t token h head d within
        omega
      · exact fun _ _ _ _ => ⟨rfl, rfl, fun _ _ => rfl⟩
  · dsimp only [attentionWriteKvCacheInt8, attentionReadKvCacheInt8]
    rw [if_neg some', if_neg some', clipTokens_inside inside]
    exact ⟨side_round_trip (keys caches) outputs.kCache inside, side_round_trip (values caches) outputs.vCache inside⟩

def blank : Int8Buffers Rat := ⟨fun _ => 0, fun _ => 0, fun _ => 0, fun _ => 0, fun _ => 0, fun _ => 0⟩

/-- A constant vector at the last of four positions; the second token does not fit. -/
theorem int8_round_trip_last :
    let after := attentionWriteKvCacheInt8 blank (fun i => i) (fun _ => 3) 3 2 1 2 4
    (attentionReadKvCacheInt8 after id ⟨fun _ => 0, fun _ => 0⟩ 3 2 1 2 4).vCache 1 = 3 ∧ after.vScale 2 = 0 := by
  have trips := int8_round_trip blank ⟨fun _ => 0, fun _ => 0⟩ (fun i => i) (fun _ => 3) (show 3 < 4 by decide) 2 1 2
  exact ⟨(trips.2.restored 0 (by decide) 0 (by decide) 1 (by decide)).exact (fun _ _ => rfl),
    (trips.2.kept 2 (.inl (by decide)) 0 (by decide)).1⟩

end XInfer.Int8RoundTrip
