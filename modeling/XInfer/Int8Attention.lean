import XInfer.CacheSlots
import XInfer.Int8RoundTrip
import XInfer.SoftmaxPerturbation

/-!
Attention through the INT8 cache beside exact attention. A call writes its keys and values as integers and answers its
queries from what comes back of all vectors so far, which is near enough for a bound on the answers.
-/

namespace XInfer.Int8Attention

open AttentionKernels CacheSlots CachedAttention ChunkRuns Int8RoundTrip Launches LayerRows OnlineSoftmax
open SoftmaxPerturbation (average_near dot_near)

section Vectors

variable {headDim : Nat}

/-- What comes back of an element, as a part of the vector of its head. -/
noncomputable def comeback (headDim : Nat) (x : Nat → ℝ) (i : Nat) : ℝ :=
  let found := extremes (fun d => x (i / headDim * headDim + d)) headDim
  dequantised (quantised found.1 found.2 (x i)) (scaleVal found.1 found.2) found.1

theorem comeback_near {x : Nat → ℝ} {i : Nat} {level : ℝ} (filled : 0 < headDim)
    (bounded : ∀ d < headDim, |x (i / headDim * headDim + d)| ≤ level) : |comeback headDim x i - x i| ≤ level / 255 := by
  have element : x (i / headDim * headDim + i % headDim) = x i := by rw [Nat.div_add_mod']
  obtain ⟨above, below⟩ := extremes_inside (fun d => x (i / headDim * headDim + d)) (Nat.mod_lt i filled)
  obtain ⟨floor, ceiling⟩ := extremes_level (fun d => x (i / headDim * headDim + d)) filled bounded
  rw [element] at above below
  exact quantised_level above below floor ceiling

/-- One side of a cache, as its readers take it. -/
noncomputable def readSide (headDim : Nat) (cache : Nat → Int) (scale zeroPoint : Nat → ℝ) (i : Nat) : ℝ :=
  dequantised (cache i) (scale (i / headDim)) (zeroPoint (i / headDim))

noncomputable def readBack (headDim : Nat) (caches : Int8Buffers ℝ) : KVBuffers ℝ where
  kCache := readSide headDim caches.kCache caches.kScale caches.kZeroPoint
  vCache := readSide headDim caches.vCache caches.vScale caches.vZeroPoint

theorem readSide_decode (filled : 0 < headDim) (cache : Nat → Int) (scale zeroPoint : Nat → ℝ) (i : Nat) :
    readSide headDim cache scale zeroPoint i =
      (int8Format headDim).decode (quantisedAt headDim cache scale zeroPoint (i / headDim)) (i % headDim) := by
  rw [decode_quantisedAt (Nat.mod_lt i filled), Nat.div_add_mod']
  rfl

theorem quantise_decode {input x : Nat → ℝ} {offset i : Nat} (filled : 0 < headDim)
    (same : ∀ d < headDim, input (offset * headDim + d) = x (i / headDim * headDim + d)) :
    (int8Format headDim).decode (quantise (rowOf headDim input offset)) (i % headDim) = comeback headDim x i := by
  have inside := Nat.mod_lt i filled
  have found : extremes (pad (rowOf headDim input offset)) headDim =
      extremes (fun d => x (i / headDim * headDim + d)) headDim :=
    extremes_congr filled fun d within => (pad_rowOf input offset within).trans (same d within)
  have element : rowOf headDim input offset ⟨i % headDim, inside⟩ = x i :=
    (same _ inside).trans (congrArg x (Nat.div_add_mod' i headDim))
  unfold comeback quantise
  rw [found]
  dsimp only [int8Format]
  rw [dif_pos inside, element]

end Vectors

section Cache

variable {numKVHeads headDim startPos numTokens maxSeqLen : Nat} {K V : Nat → ℝ}

theorem written_side {x : Nat → ℝ} (filled : 0 < headDim) (room : startPos + numTokens ≤ maxSeqLen)
    (cache : Nat → Int) (scale zeroPoint : Nat → ℝ)
    (before : ∀ i < startPos * (numKVHeads * headDim), readSide headDim cache scale zeroPoint i = comeback headDim x i) :
    let stores := writeVector (fun i => x (startPos * (numKVHeads * headDim) + i)) startPos numKVHeads headDim maxSeqLen
    ∀ i < (startPos + numTokens) * (numKVHeads * headDim),
      readSide headDim (launch (numTokens * numKVHeads) (fun item => (stores item).cache) cache)
        (launch (numTokens * numKVHeads) (fun item => (stores item).scale) scale)
        (launch (numTokens * numKVHeads) (fun item => (stores item).zeroPoint) zeroPoint) i = comeback headDim x i := by
  intro stores i inside
  rw [← Nat.mul_assoc] at inside before
  have vector : i / headDim < (startPos + numTokens) * numKVHeads :=
    Nat.div_lt_of_lt_mul (Nat.mul_comm _ headDim ▸ inside)
  rw [readSide_decode filled, int8_written filled _ cache scale zeroPoint room]
  by_cases old : i / headDim < startPos * numKVHeads
  · rw [if_neg fun covered => Nat.not_le.2 old covered.1, ← readSide_decode filled]
    exact before i (Nat.mul_comm headDim _ ▸ (Nat.div_lt_iff_lt_mul filled).1 old)
  · rw [if_pos ⟨Nat.not_lt.1 old, vector⟩]
    apply quantise_decode filled
    intro d within
    congr 1
    rw [← Nat.mul_assoc, ← Nat.add_assoc, ← Nat.add_mul, Nat.add_sub_cancel' (Nat.not_lt.1 old)]

/-- Behind a call the cache gives back the vectors of the positions so far. -/
theorem written_filled {caches : Int8Buffers ℝ} (room : startPos + numTokens ≤ maxSeqLen)
    (before : Filled (comeback headDim K) (comeback headDim V) (numKVHeads * headDim) startPos (readBack headDim caches)) :
    Filled (comeback headDim K) (comeback headDim V) (numKVHeads * headDim) (startPos + numTokens) (readBack headDim
      (attentionWriteKvCacheInt8 caches (fun i => K (startPos * (numKVHeads * headDim) + i))
        (fun i => V (startPos * (numKVHeads * headDim) + i)) startPos numTokens numKVHeads headDim maxSeqLen)) := by
  by_cases some' : numTokens = 0 ∨ numKVHeads = 0 ∨ headDim = 0
  · -- no element is added
    have same : (startPos + numTokens) * (numKVHeads * headDim) = startPos * (numKVHeads * headDim) := by
      rcases some' with rfl | rfl | rfl <;> simp
    rw [attentionWriteKvCacheInt8, if_pos some']
    exact ⟨same ▸ before.keys, same ▸ before.values⟩
  · rw [attentionWriteKvCacheInt8, if_neg some', clipTokens_inside (by omega), Nat.min_eq_left (by omega)]
    constructor
    · exact written_side (by omega) room caches.kCache caches.kScale caches.kZeroPoint before.keys
    · exact written_side (by omega) room caches.vCache caches.vScale caches.vZeroPoint before.values

end Cache

section Chunks

variable (cast : ℝ → ℝ) (Q K V : Nat → ℝ) (numQHeads numKVHeads headDim : Nat) (scale : ℝ) (maxSeqLen : Nat)

/-- A chunk through the INT8 cache. -/
noncomputable def int8Call : Call Empty (Int8Buffers ℝ) ℝ := fun startPos numTokens out caches =>
  let kvStride := numKVHeads * headDim
  let after := attentionWriteKvCacheInt8 caches (fun i => K (startPos * kvStride + i))
    (fun i => V (startPos * kvStride + i)) startPos numTokens numKVHeads headDim maxSeqLen
  .ok (sdpaCausalCachedInt8 cast out (fun i => Q (startPos * (numQHeads * headDim) + i)) after startPos numTokens
    numQHeads numKVHeads headDim scale maxSeqLen, after)

variable {K V numQHeads numKVHeads headDim maxSeqLen}

theorem int8_output (out : Nat → ℝ) (caches : Int8Buffers ℝ) {startPos numQTokens t h d : Nat} (lanes : SG_SIZE ∣ headDim)
    (grouped : numKVHeads ∣ numQHeads) (room : startPos + numQTokens ≤ maxSeqLen) (token : t < numQTokens)
    (head : h < numQHeads) (inside : d < headDim) :
    sdpaCausalCachedInt8 cast out Q caches startPos numQTokens numQHeads numKVHeads headDim scale maxSeqLen
        ((t * numQHeads + h) * headDim + d) =
      cast (attention (fun d => Q ((t * numQHeads + h) * headDim + d)) (readBack headDim caches).kCache
        (readBack headDim caches).vCache headDim (usedScale scale headDim) numQHeads numKVHeads (startPos + t) h d) := by
  refine (launchSubgroups_output cast Q out _ _ scale lanes grouped room token head inside).trans (congrArg cast ?_)
  apply average_congr
  · intro j _
    refine congrArg (· * usedScale scale headDim) (Finset.sum_congr rfl fun e element => ?_)
    have within := Finset.mem_range.1 element
    dsimp only [readBack, readSide]
    rw [flat_div within]
  · intro j _
    dsimp only [readBack, readSide]
    rw [flat_div inside]

/-- Chunk by chunk, the answers are those of naive attention over what comes back. -/
theorem int8Call_carries (lanes : SG_SIZE ∣ headDim) (grouped : numKVHeads ∣ numQHeads) (length : Nat)
    (room : length ≤ maxSeqLen) (out : Nat → ℝ) :
    Carries (int8Call cast Q K V numQHeads numKVHeads headDim scale maxSeqLen) (numQHeads * headDim) length
      (sdpaCausalNaive cast out Q (comeback headDim K) (comeback headDim V) length numQHeads numKVHeads headDim scale)
      (fun positions caches =>
        Filled (comeback headDim K) (comeback headDim V) (numKVHeads * headDim) positions (readBack headDim caches)) := by
  intro startPos numTokens buffer caches within before
  have after := written_filled (within.trans room) before
  refine ⟨_, _, rfl, after, ?_⟩
  intro t token column inside
  have filled : 0 < headDim := Nat.pos_of_mul_pos_left (Nat.zero_lt_of_lt inside)
  have head : column / headDim < numQHeads := Nat.div_lt_of_lt_mul (Nat.mul_comm numQHeads headDim ▸ inside)
  have element : column % headDim < headDim := Nat.mod_lt _ filled
  have place : ∀ row, row * (numQHeads * headDim) + column =
      (row * numQHeads + column / headDim) * headDim + column % headDim := by
    intro row
    rw [Nat.add_mul, Nat.add_assoc, Nat.div_add_mod', Nat.mul_assoc]
  have query : ∀ d, startPos * (numQHeads * headDim) + ((t * numQHeads + column / headDim) * headDim + d) =
      ((startPos + t) * numQHeads + column / headDim) * headDim + d := by
    intro d
    ring
  rw [place, place, int8_output cast _ scale _ _ lanes grouped (within.trans room) token head element,
    naive_output cast Q scale out _ _ grouped (by omega) head element,
    attention_filled _ after grouped (by omega) head element]
  simp only [query]

/-- Elements in a bound, and what comes back of them. -/
theorem element_near {x : Nat → ℝ} {positions width head d : Nat} {level : ℝ}
    (bounded : ∀ i < positions * (width * headDim), |x i| ≤ level) (inside : head < positions * width) (within : d < headDim) :
    |x (head * headDim + d)| ≤ level ∧
      |comeback headDim x (head * headDim + d) - x (head * headDim + d)| ≤ level / 255 := by
  rw [← Nat.mul_assoc] at bounded
  have each : ∀ e < headDim, |x (head * headDim + e)| ≤ level := fun e element => bounded _ (flat_lt inside element)
  refine ⟨each d within, comeback_near (by omega) ?_⟩
  rw [flat_div within]
  exact each

/-- Exact attention, and attention over what comes back of its keys and values. -/
theorem attention_near {query : Nat → ℝ} {positions i h d : Nat} {keyLevel valueLevel queryLevel : ℝ}
    (keys : ∀ i < positions * (numKVHeads * headDim), |K i| ≤ keyLevel)
    (values : ∀ i < positions * (numKVHeads * headDim), |V i| ≤ valueLevel)
    (queries : ∑ d ∈ Finset.range headDim, |query d| ≤ queryLevel) (positive : 0 ≤ scale)
    (grouped : numKVHeads ∣ numQHeads) (before : i < positions) (head : h < numQHeads) (inside : d < headDim) :
    let δ := queryLevel * (keyLevel / 255) * scale
    |attention query (comeback headDim K) (comeback headDim V) headDim scale numQHeads numKVHeads i h d -
        attention query K V headDim scale numQHeads numKVHeads i h d| ≤
      valueLevel / 255 + (Real.exp (δ + δ) - 1) * valueLevel := by
  intro δ
  obtain ⟨ratio, rfl⟩ := grouped
  have shared : h / (numKVHeads * ratio / numKVHeads) < numKVHeads := by
    have some' : 0 < numKVHeads := Nat.pos_of_mul_pos_right (Nat.zero_lt_of_lt head)
    rw [Nat.mul_div_cancel_left _ some']
    exact Nat.div_lt_of_lt_mul (Nat.mul_comm numKVHeads ratio ▸ head)
  have early : ∀ j < i + 1, j * numKVHeads + h / (numKVHeads * ratio / numKVHeads) < positions * numKVHeads :=
    fun j at' => flat_lt (by omega) shared
  apply average_near (Nat.succ_pos i)
  · intro j at'
    refine dot_near (fun e element => (element_near keys (early j at') element).2) queries ?_ positive
    exact (abs_nonneg _).trans (element_near keys (early j at') inside).2
  · intro j at'
    exact (element_near values (early j at') inside).2
  · intro j at'
    exact (element_near values (early j at') inside).1

/-- The default for a scale that is not positive is positive. -/
theorem usedScale_nonneg (headDim : Nat) : 0 ≤ usedScale scale headDim := by
  unfold usedScale
  split
  next => exact div_nonneg zero_le_one (Real.sqrt_nonneg _)
  next above => exact (not_le.1 fun small => above (decide_eq_true small)).le

/-- Chunk by chunk through the INT8 cache, the answers stay near those of exact attention over the whole sequence. -/
theorem int8_near (lanes : SG_SIZE ∣ headDim) (grouped : numKVHeads ∣ numQHeads) (chunks : List (Chunk ℝ))
    (room : total chunks ≤ maxSeqLen) (caches : Int8Buffers ℝ) {keyLevel valueLevel queryLevel : ℝ}
    (keys : ∀ i < total chunks * (numKVHeads * headDim), |K i| ≤ keyLevel)
    (values : ∀ i < total chunks * (numKVHeads * headDim), |V i| ≤ valueLevel)
    (queries : ∀ item < total chunks * numQHeads, ∑ d ∈ Finset.range headDim, |Q (item * headDim + d)| ≤ queryLevel) :
    let δ := queryLevel * (keyLevel / 255) * usedScale scale headDim
    ∃ outputs after whole, runChunks (int8Call id Q K V numQHeads numKVHeads headDim scale maxSeqLen) chunks 0 caches =
        .ok (outputs, after) ∧ Slices (numQHeads * headDim) whole 0 chunks outputs ∧
      ∀ i < total chunks, ∀ h < numQHeads, ∀ d < headDim, |whole ((i * numQHeads + h) * headDim + d) -
          attention (fun d => Q ((i * numQHeads + h) * headDim + d)) K V headDim (usedScale scale headDim) numQHeads
            numKVHeads i h d| ≤ valueLevel / 255 + (Real.exp (δ + δ) - 1) * valueLevel := by
  intro δ
  have empty : Filled (comeback headDim K) (comeback headDim V) (numKVHeads * headDim) 0 (readBack headDim caches) := by
    constructor <;> intro i inside <;> omega
  obtain ⟨outputs, after, ran, -, slices⟩ := runChunks_slices
    (int8Call_carries id Q scale lanes grouped (total chunks) room fun _ => 0) chunks 0 caches (Nat.zero_add _).le empty
  refine ⟨outputs, after, _, ran, slices, fun i token h head d inside => ?_⟩
  rw [naive_output id Q scale _ _ _ grouped token head inside]
  exact attention_near _ keys values (queries _ (flat_lt token head)) (usedScale_nonneg scale headDim) grouped token head
    inside

/-- A token and then two more, with two query heads that share a key head. -/
theorem int8_near_shared :
    let blank : Nat → ℝ := fun _ => 0
    let tokens : Nat → ℝ := fun i => ((i % 2 : Nat) : ℝ)
    let caches : Int8Buffers ℝ := ⟨fun _ => 7, fun _ => 7, blank, blank, blank, blank⟩
    let δ : ℝ := 16 * (1 / 255) * usedScale 0 16
    ∃ outputs after whole, runChunks (int8Call id tokens tokens tokens 2 1 16 0 4) [(1, blank), (2, blank)] 0 caches =
        .ok (outputs, after) ∧ Slices 32 whole 0 [(1, blank), (2, blank)] outputs ∧
      ∀ i < 3, ∀ h < 2, ∀ d < 16, |whole ((i * 2 + h) * 16 + d) -
          attention (fun d => tokens ((i * 2 + h) * 16 + d)) tokens tokens 16 (usedScale 0 16) 2 1 i h d| ≤
        1 / 255 + (Real.exp (δ + δ) - 1) * 1 := by
  intro blank tokens caches δ
  have small : ∀ i, |tokens i| ≤ 1 := by
    intro i
    rw [abs_of_nonneg (Nat.cast_nonneg _)]
    exact Nat.cast_le_one.2 (Nat.le_of_lt_succ (Nat.mod_lt i Nat.two_pos))
  have queries : ∀ item, ∑ d ∈ Finset.range 16, |tokens (item * 16 + d)| ≤ 16 := by
    intro item
    have total := Finset.sum_le_card_nsmul (Finset.range 16) (fun d => |tokens (item * 16 + d)|) 1 fun d _ => small _
    simpa using total
  exact int8_near tokens 0 (by decide) (by decide) [(1, blank), (2, blank)] (by decide) caches (fun i _ => small i)
    (fun i _ => small i) fun item _ => queries item

end Chunks

end XInfer.Int8Attention
