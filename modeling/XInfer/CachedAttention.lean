import XInfer.AttentionKernels
import XInfer.BlockSums
import XInfer.ChunkRuns
import XInfer.OnlineSoftmax
import Mathlib.Algebra.Order.Archimedean.Real.Basic
import Mathlib.Analysis.Complex.Exponential
import Mathlib.Analysis.Real.Sqrt
import Mathlib.Analysis.SpecialFunctions.Log.Basic

/-!
Causal attention over exact reals. Both kernels average the values of the positions up to the query; the cached
one finds keys and values where the chunks before it and its own were written.
-/

namespace XInfer.CachedAttention

open AttentionKernels BlockSums ChunkRuns Launches OnlineSoftmax
open DeviceFloat (half)
open DeviceExp (reduce)

noncomputable instance : DeviceExp ℝ :=
  { exactFloat ℝ with
    exp := Real.exp
    sqrt := Real.sqrt
    reduce := List.sum }

noncomputable instance : DeviceMath ℝ :=
  { log := Real.log
    cos := Real.cos
    sin := Real.sin }

theorem exponential : Exponential Real.exp := ⟨Real.exp_pos, Real.exp_add⟩

section Attention

variable (query K V : Nat → ℝ) (headDim : Nat) (scale : ℝ)

/-- The scaled product of a query vector and a key vector. -/
noncomputable def score (key : Nat → ℝ) : ℝ := (∑ d ∈ Finset.range headDim, query d * key d) * scale

/-- The average of the values at the positions up to `i`, with the softmax of their scores. The query heads share
the key heads evenly. -/
noncomputable def attention (numQHeads numKVHeads i h d : Nat) : ℝ :=
  let head := fun j => j * numKVHeads + h / (numQHeads / numKVHeads)
  average Real.exp (fun j => score query headDim scale fun d => K (head j * headDim + d))
    (fun j d => V (head j * headDim + d)) (i + 1) d

end Attention

section Updates

variable {ι : Type} (score : Nat → ℝ) (value : Nat → ι → ℝ)

/-- The loop over the first keys. -/
noncomputable def attended (keys : Nat) : Running ι ℝ :=
  (List.range keys).foldl (fun state j => state.update (score j) (value j)) Running.start

theorem attended_succ (keys : Nat) : attended score value (keys + 1) =
    (attended score value keys).update (score keys) (value keys) := by
  rw [attended, List.range_succ, List.foldl_append]
  rfl

/-- From the first key on there is a maximum, and the sums are scaled down by it. -/
theorem attended_scaled (keys : Nat) : ∃ shift, (attended score value (keys + 1)).maxScore = some shift ∧
    Scaled Real.exp score value (keys + 1) shift (attended score value (keys + 1)).sumExp
      (attended score value (keys + 1)).acc := by
  induction keys with
  | zero =>
      refine ⟨score 0, rfl, ?_⟩
      -- the sums before are empty
      have first := Scaled.first exponential score value (score 0)
      constructor
      · calc (0 * 0 + Real.exp (score 0 - score 0)) * Real.exp (score 0)
            = Real.exp (score 0 - score 0) * Real.exp (score 0) := by rw [mul_zero, zero_add]
          _ = weights Real.exp score 1 := first.sum
      · intro d
        calc (0 * 0 + Real.exp (score 0 - score 0) * value 0 d) * Real.exp (score 0)
            = Real.exp (score 0 - score 0) * value 0 d * Real.exp (score 0) := by rw [mul_zero, zero_add]
          _ = weighted Real.exp score value 1 d := first.acc d
  | succ keys ih =>
      obtain ⟨shift, found, scaled⟩ := ih
      rw [attended_succ]
      generalize attended score value (keys + 1) = state at found scaled
      obtain ⟨maxScore, sumExp, acc⟩ := state
      dsimp only at found scaled
      subst found
      exact ⟨_, rfl, scaled.absorb exponential _⟩

theorem attended_output (keys : Nat) (d : ι) :
    (attended score value (keys + 1)).output d = average Real.exp score value (keys + 1) d := by
  obtain ⟨shift, -, scaled⟩ := attended_scaled score value keys
  have positive := scaled.sum_pos exponential (Nat.succ_pos keys)
  rw [← scaled.average exponential]
  generalize attended score value (keys + 1) = state at positive
  have chosen : (if DeviceFloat.less 0 state.sumExp then state.sumExp else 1) = state.sumExp :=
    if_pos (decide_eq_true positive)
  calc state.output d = state.acc d * (1 / state.sumExp) := by rw [Running.output, chosen]
    _ = state.acc d / state.sumExp := mul_one_div _ _

end Updates

section Kernels

variable (cast : ℝ → ℝ) (Q : Nat → ℝ) {numQHeads numKVHeads headDim : Nat} (scale : ℝ)

theorem naiveItem_eq (K V : Nat → ℝ) (numQHeads numKVHeads headDim i h : Nat) :
    naiveItem cast Q K V numQHeads numKVHeads headDim scale i h = (List.range headDim).map fun d =>
      ((i * numQHeads + h) * headDim + d, cast (attention (fun d => Q ((i * numQHeads + h) * headDim + d)) K V headDim scale numQHeads numKVHeads i h d)) := by
  have dot : ∀ row, (List.range headDim).foldl (fun dot d => dot + Q ((i * numQHeads + h) * headDim + d) * K (row + d)) 0 =
      ∑ d ∈ Finset.range headDim, Q ((i * numQHeads + h) * headDim + d) * K (row + d) :=
    fun row => (foldl_range _ headDim 0).trans (zero_add _)
  unfold naiveItem
  dsimp only
  simp only [dot]
  exact List.map_congr_left fun d _ => congrArg (fun value => (_, cast value)) (attended_output _ _ i d)

/-- The lanes together have the whole vectors. -/
theorem lanes_dot (query key : Nat → ℝ) (elemsPerLane : Nat) :
    reduce ((List.range SG_SIZE).map fun lane => (List.range elemsPerLane).foldl (fun dot d =>
      dot + query (lane * elemsPerLane + d) * key (lane * elemsPerLane + d)) 0) =
      ∑ d ∈ Finset.range (SG_SIZE * elemsPerLane), query d * key d := by
  rw [sum_blocks (fun d => query d * key d)]
  refine Eq.trans (congrArg List.sum (List.map_congr_left fun lane _ => ?_)) (sum_map_range _ SG_SIZE)
  exact (foldl_range _ elemsPerLane 0).trans (zero_add _)

variable (key value : Nat → Nat → ℝ) {startPos maxSeqLen items item : Nat}

/-- An active sub-group whose keys are all in the cache. -/
theorem attendSubgroup_eq (lanes : SG_SIZE ∣ headDim) (active : item < items)
    (within : startPos + item / numQHeads < maxSeqLen) :
    attendSubgroup cast Q key value startPos numQHeads numKVHeads headDim scale maxSeqLen items item =
      (List.range headDim).map fun d =>
        let head := fun j => j * numKVHeads + item % numQHeads / (numQHeads / numKVHeads)
        (item * headDim + d, cast (average Real.exp
          (fun j => score (fun d => Q (item * headDim + d)) headDim scale (key (head j)))
          (fun j => value (head j)) (startPos + item / numQHeads + 1) d)) := by
  obtain ⟨elemsPerLane, rfl⟩ := lanes
  have each : SG_SIZE * elemsPerLane / SG_SIZE = elemsPerLane := Nat.mul_div_cancel_left _ (by decide)
  unfold attendSubgroup
  rw [if_neg (Nat.not_le.2 active)]
  dsimp only
  rw [each, Nat.div_add_mod']
  generalize item / numQHeads = i at within ⊢
  have keys : (if 0 < maxSeqLen ∧ (maxSeqLen : Int) < startPos + i + 1 then (maxSeqLen : Int) else startPos + i + 1) =
      ((startPos + i + 1 : Nat) : Int) := by
    rw [if_neg (by omega)]
    push_cast
    rfl
  rw [keys, if_neg (by omega), Int.toNat_natCast, ← map_blocks]
  refine List.flatMap_congr fun lane _ => List.map_congr_left fun d _ => congrArg (fun value => (_, cast value)) ?_
  simp only [lanes_dot (fun d => Q (item * (SG_SIZE * elemsPerLane) + d))]
  exact attended_output _ _ (startPos + i) (lane, d)

/-- What the naive kernel leaves at an element of its output. -/
theorem naive_output (out K V : Nat → ℝ) {seqLen i h d : Nat} (grouped : numKVHeads ∣ numQHeads) (token : i < seqLen)
    (head : h < numQHeads) (inside : d < headDim) :
    sdpaCausalNaive cast out Q K V seqLen numQHeads numKVHeads headDim scale ((i * numQHeads + h) * headDim + d) =
      cast (attention (fun d => Q ((i * numQHeads + h) * headDim + d)) K V headDim (usedScale scale headDim) numQHeads
        numKVHeads i h d) := by
  have shared : 0 < numKVHeads := Nat.pos_of_dvd_of_pos grouped (Nat.zero_lt_of_lt head)
  let value (item d : Nat) : ℝ := cast (attention (fun d => Q (item * headDim + d)) K V headDim
    (usedScale scale headDim) numQHeads numKVHeads (item / numQHeads) (item % numQHeads) d)
  unfold sdpaCausalNaive
  rw [if_neg (by omega), vector_here value (fun item _ => ?_) (flat_lt token head) inside]
  · dsimp only [value]
    rw [flat_div head, flat_mod head]
  · rw [naiveItem_eq, Nat.div_add_mod']

/-- What the cached kernel leaves there. -/
theorem cached_output (out : Nat → ℝ) (caches : KVBuffers ℝ) {numQTokens t h d : Nat} (lanes : SG_SIZE ∣ headDim)
    (grouped : numKVHeads ∣ numQHeads) (room : startPos + numQTokens ≤ maxSeqLen) (token : t < numQTokens)
    (head : h < numQHeads) (inside : d < headDim) :
    sdpaCausalCached cast out Q caches startPos numQTokens numQHeads numKVHeads headDim scale maxSeqLen
        ((t * numQHeads + h) * headDim + d) =
      cast (attention (fun d => Q ((t * numQHeads + h) * headDim + d)) caches.kCache caches.vCache headDim
        (usedScale scale headDim) numQHeads numKVHeads (startPos + t) h d) := by
  have shared : 0 < numKVHeads := Nat.pos_of_dvd_of_pos grouped (Nat.zero_lt_of_lt head)
  let value (item d : Nat) : ℝ := cast (attention (fun d => Q (item * headDim + d)) caches.kCache caches.vCache headDim
    (usedScale scale headDim) numQHeads numKVHeads (startPos + item / numQHeads) (item % numQHeads) d)
  rw [sdpaCausalCached, launchSubgroups_active cast out Q _ _ _ (by omega),
    vector_here value (fun item active => ?_) (flat_lt token head) inside]
  · dsimp only [value]
    rw [flat_div head, flat_mod head]
  · have position : item / numQHeads < numQTokens := Nat.div_lt_of_lt_mul (Nat.mul_comm _ numQHeads ▸ active)
    exact attendSubgroup_eq cast Q _ _ _ lanes active (by omega)

end Kernels

section Cache

variable {numKVHeads headDim startPos numTokens maxSeqLen : Nat}

/-- The vectors of the first positions are those of the sequence. -/
structure Filled (K V : Nat → ℝ) (kvStride positions : Nat) (caches : KVBuffers ℝ) : Prop where
  keys : ∀ i < positions * kvStride, caches.kCache i = K i
  values : ∀ i < positions * kvStride, caches.vCache i = V i

/-- The elements of the tokens are stored in their order. -/
theorem writeElement_row (input : Nat → ℝ) {item : Nat}
    (before : item < (maxSeqLen - startPos) * (numKVHeads * headDim)) :
    writeElement input startPos numKVHeads headDim maxSeqLen item =
      [(startPos * (numKVHeads * headDim) + item, input item)] := by
  unfold writeElement
  dsimp only
  rw [if_neg (item_inside before), item_slot]
  rfl

theorem written_side (input cache : Nat → ℝ) (room : startPos + numTokens ≤ maxSeqLen)
    (before : ∀ i < startPos * (numKVHeads * headDim), cache i = input i) :
    let after := launch (numTokens * (numKVHeads * headDim)) (writeElement
      (fun i => input (startPos * (numKVHeads * headDim) + i)) startPos numKVHeads headDim maxSeqLen) cache
    ∀ i < (startPos + numTokens) * (numKVHeads * headDim), after i = input i := by
  intro after i inside
  have stores : ∀ item < numTokens * (numKVHeads * headDim), _ := fun item (early : item < _) =>
    writeElement_row (fun i => input (startPos * (numKVHeads * headDim) + i))
      (early.trans_le (Nat.mul_le_mul_right _ (Nat.le_sub_of_add_le' room)))
  dsimp only [after]
  rw [launch_congr stores]
  by_cases old : i < startPos * (numKVHeads * headDim)
  · rw [row_kept _ (.inl old), before i old]
  · obtain ⟨item, rfl⟩ := Nat.exists_eq_add_of_le (Nat.not_lt.1 old)
    rw [Nat.add_mul] at inside
    rw [row_here _ (Nat.add_lt_add_iff_left.1 inside)]

theorem written_filled {K V : Nat → ℝ} {caches : KVBuffers ℝ} (room : startPos + numTokens ≤ maxSeqLen)
    (before : Filled K V (numKVHeads * headDim) startPos caches) :
    Filled K V (numKVHeads * headDim) (startPos + numTokens)
      (attentionWriteKvCache caches (fun i => K (startPos * (numKVHeads * headDim) + i))
        (fun i => V (startPos * (numKVHeads * headDim) + i)) startPos numTokens numKVHeads headDim maxSeqLen) := by
  by_cases some' : numTokens = 0 ∨ numKVHeads = 0 ∨ headDim = 0
  · -- no element is added
    have same : (startPos + numTokens) * (numKVHeads * headDim) = startPos * (numKVHeads * headDim) := by
      rcases some' with rfl | rfl | rfl <;> simp
    rw [attentionWriteKvCache, if_pos some']
    exact ⟨same ▸ before.keys, same ▸ before.values⟩
  · rw [attentionWriteKvCache, if_neg some', clipTokens_inside (by omega), Nat.min_eq_left (by omega)]
    exact ⟨written_side K _ room before.keys, written_side V _ room before.values⟩

end Cache

section Chunks

variable (cast : ℝ → ℝ) (Q K V : Nat → ℝ) (numQHeads numKVHeads headDim : Nat) (scale : ℝ) (maxSeqLen : Nat)

/-- A chunk: its keys and values are written, then its queries are answered. -/
noncomputable def chunkCall : Call Empty (KVBuffers ℝ) ℝ := fun startPos numTokens out caches =>
  let kvStride := numKVHeads * headDim
  let after := attentionWriteKvCache caches (fun i => K (startPos * kvStride + i)) (fun i => V (startPos * kvStride + i))
    startPos numTokens numKVHeads headDim maxSeqLen
  .ok (sdpaCausalCached cast out (fun i => Q (startPos * (numQHeads * headDim) + i)) after startPos numTokens numQHeads
    numKVHeads headDim scale maxSeqLen, after)

variable {K V numQHeads numKVHeads headDim maxSeqLen}

/-- The average needs the vectors up to its position only. -/
theorem attention_filled {query : Nat → ℝ} {caches : KVBuffers ℝ} {positions i h d : Nat}
    (filled : Filled K V (numKVHeads * headDim) positions caches) (grouped : numKVHeads ∣ numQHeads)
    (before : i < positions) (head : h < numQHeads) (inside : d < headDim) :
    attention query caches.kCache caches.vCache headDim scale numQHeads numKVHeads i h d =
      attention query K V headDim scale numQHeads numKVHeads i h d := by
  obtain ⟨ratio, rfl⟩ := grouped
  have shared : h / (numKVHeads * ratio / numKVHeads) < numKVHeads := by
    have some' : 0 < numKVHeads := Nat.pos_of_mul_pos_right (Nat.zero_lt_of_lt head)
    rw [Nat.mul_div_cancel_left _ some']
    exact Nat.div_lt_of_lt_mul (Nat.mul_comm numKVHeads ratio ▸ head)
  -- an element of the head's vector at an earlier position
  have early : ∀ j < i + 1, ∀ e < headDim,
      (j * numKVHeads + h / (numKVHeads * ratio / numKVHeads)) * headDim + e < positions * (numKVHeads * headDim) := by
    intro j at' e element
    rw [← Nat.mul_assoc]
    exact flat_lt (flat_lt (by omega) shared) element
  apply average_congr
  · intro j at'
    refine congrArg (· * scale) (Finset.sum_congr rfl fun e element => congrArg (query e * ·) ?_)
    exact filled.keys _ (early j at' e (Finset.mem_range.1 element))
  · intro j at'
    exact filled.values _ (early j at' d inside)

/-- Behind each chunk the cache has the vectors of the positions so far. -/
theorem chunkCall_carries (lanes : SG_SIZE ∣ headDim) (grouped : numKVHeads ∣ numQHeads) (length : Nat)
    (room : length ≤ maxSeqLen) (out : Nat → ℝ) :
    Carries (chunkCall cast Q K V numQHeads numKVHeads headDim scale maxSeqLen) (numQHeads * headDim) length
      (sdpaCausalNaive cast out Q K V length numQHeads numKVHeads headDim scale)
      (Filled K V (numKVHeads * headDim)) := by
  intro startPos numTokens buffer caches within before
  have after := written_filled (within.trans room) before
  refine ⟨_, _, rfl, after, ?_⟩
  intro t token column inside
  -- the column is an element of a head's vector
  have filled : 0 < headDim := Nat.pos_of_mul_pos_left (Nat.zero_lt_of_lt inside)
  have head : column / headDim < numQHeads := Nat.div_lt_of_lt_mul (Nat.mul_comm numQHeads headDim ▸ inside)
  have element : column % headDim < headDim := Nat.mod_lt _ filled
  have place : ∀ row, row * (numQHeads * headDim) + column =
      (row * numQHeads + column / headDim) * headDim + column % headDim := by
    intro row
    rw [Nat.add_mul, Nat.add_assoc, Nat.div_add_mod', Nat.mul_assoc]
  have query : ∀ d, startPos * (numQHeads * headDim) + ((t * numQHeads + column / headDim) * headDim + d) =
      ((startPos + t) * numQHeads + column / headDim) * headDim + d := by
    intro d
    ring
  rw [place, place, cached_output cast _ scale _ _ lanes grouped (within.trans room) token head element,
    naive_output cast Q scale out K V grouped (by omega) head element,
    attention_filled _ after grouped (by omega) head element]
  simp only [query]

/-- Chunk by chunk through the cache, the outputs are those of naive attention over the whole sequence. -/
theorem cached_agrees (lanes : SG_SIZE ∣ headDim) (_registers : headDim ≤ 256) (grouped : numKVHeads ∣ numQHeads)
    (chunks : List (Chunk ℝ)) (room : total chunks ≤ maxSeqLen) (caches : KVBuffers ℝ) (out : Nat → ℝ) :
    let whole := sdpaCausalNaive cast out Q K V (total chunks) numQHeads numKVHeads headDim scale
    (∃ outputs after, runChunks (chunkCall cast Q K V numQHeads numKVHeads headDim scale maxSeqLen) chunks 0 caches =
        .ok (outputs, after) ∧ Slices (numQHeads * headDim) whole 0 chunks outputs) ∧
      ∀ i < total chunks, ∀ h < numQHeads, ∀ d < headDim, whole ((i * numQHeads + h) * headDim + d) =
        cast (attention (fun d => Q ((i * numQHeads + h) * headDim + d)) K V headDim (usedScale scale headDim) numQHeads
          numKVHeads i h d) := by
  constructor
  · have empty : Filled K V (numKVHeads * headDim) 0 caches := by
      constructor <;> intro i inside <;> omega
    obtain ⟨outputs, after, ran, -, slices⟩ := runChunks_slices
      (chunkCall_carries cast Q scale lanes grouped (total chunks) room out) chunks 0 caches (Nat.zero_add _).le empty
    exact ⟨outputs, after, ran, slices⟩
  · intro i token h head d inside
    exact naive_output cast Q scale out K V grouped token head inside

/-- A token and then two more, with two query heads that share a key head. -/
theorem cached_agrees_shared :
    let blank : Nat → ℝ := fun _ => 0
    let tokens : Nat → ℝ := fun i => i
    let whole := sdpaCausalNaive id blank tokens tokens tokens 3 2 1 16 0
    (∃ outputs after, runChunks (chunkCall id tokens tokens tokens 2 1 16 0 4) [(1, blank), (2, blank)] 0
        ⟨blank, blank⟩ = .ok (outputs, after) ∧ Slices 32 whole 0 [(1, blank), (2, blank)] outputs) ∧
      ∀ i < 3, ∀ h < 2, ∀ d < 16, whole ((i * 2 + h) * 16 + d) =
        attention (fun d => tokens ((i * 2 + h) * 16 + d)) tokens tokens 16 (usedScale 0 16) 2 1 i h d :=
  cached_agrees id _ 0 (by decide) (by decide) (by decide) [(1, fun _ => 0), (2, fun _ => 0)] (by decide) _ _

end Chunks

end XInfer.CachedAttention
