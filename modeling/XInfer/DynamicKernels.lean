import XInfer.AttentionKernels

/-!
The kernels that read the position on the device against those that are given it. The host clips the tokens that
do not fit; the dynamic writers launch them all, and the items behind the end of the cache store nothing. No law
of the arithmetic is used.
-/

namespace XInfer.DynamicKernels

open AttentionKernels Launches

variable {F : Type} {startPos maxSeqLen : Nat} {dStartPos : Nat → Int}

/-- The two guards ask the same of a position where the cache has a bound. -/
theorem guards_agree (inside : startPos < maxSeqLen) (t : Nat) :
    ((startPos : Int) + t < 0 ∨ (0 < maxSeqLen ∧ (maxSeqLen : Int) ≤ (startPos : Int) + t)) ↔
      (0 < maxSeqLen ∧ ((startPos : Int) + t < 0 ∨ (maxSeqLen : Int) ≤ (startPos : Int) + t)) := by
  omega

section Half

variable [DeviceFloat F] (input : Nat → F)

theorem writeElement_dynamic (inside : startPos < maxSeqLen) (uploaded : dStartPos 0 = startPos)
    (numKVHeads headDim : Nat) : writeElementDynamic input dStartPos numKVHeads headDim maxSeqLen =
      writeElement input startPos numKVHeads headDim maxSeqLen := by
  funext item
  unfold writeElementDynamic writeElement
  simp only [uploaded, guards_agree inside]

theorem writeElement_silent (numKVHeads headDim : Nat) {item : Nat} (inside : startPos < maxSeqLen)
    (behind : maxSeqLen ≤ startPos + item / (numKVHeads * headDim)) :
    writeElement input startPos numKVHeads headDim maxSeqLen item = [] := by
  unfold writeElement
  exact if_pos ⟨Nat.zero_lt_of_lt inside, .inr (by exact_mod_cast behind)⟩

theorem write_dynamic (caches : KVBuffers F) (K_in V_in : Nat → F) (inside : startPos < maxSeqLen)
    (uploaded : dStartPos 0 = startPos) (numTokens numKVHeads headDim : Nat) :
    attentionWriteKvCacheDynamic caches K_in V_in dStartPos numTokens numKVHeads headDim maxSeqLen =
      attentionWriteKvCache caches K_in V_in startPos numTokens numKVHeads headDim maxSeqLen := by
  unfold attentionWriteKvCacheDynamic attentionWriteKvCache
  split
  next => rfl
  next some' =>
    have filled : 0 < numKVHeads * headDim := Nat.mul_pos (by omega) (by omega)
    have clipped (input : Nat → F) := launch_clipped filled numTokens fun _ =>
      writeElement_silent input numKVHeads headDim inside
    rw [clipTokens_inside inside]
    simp only [writeElement_dynamic _ inside uploaded, clipped]

end Half

section Int8

variable [DeviceFloat F] (input : Nat → F)

theorem writeVector_dynamic (inside : startPos < maxSeqLen) (uploaded : dStartPos 0 = startPos)
    (numKVHeads headDim : Nat) : writeVectorDynamic input dStartPos numKVHeads headDim maxSeqLen =
      writeVector input startPos numKVHeads headDim maxSeqLen := by
  funext item
  unfold writeVectorDynamic writeVector
  simp only [uploaded, guards_agree inside]

theorem writeVector_silent (headDim : Nat) {numKVHeads item : Nat} (inside : startPos < maxSeqLen)
    (behind : maxSeqLen ≤ startPos + item / numKVHeads) :
    writeVector input startPos numKVHeads headDim maxSeqLen item = .none := by
  unfold writeVector
  exact if_pos ⟨Nat.zero_lt_of_lt inside, .inr (by exact_mod_cast behind)⟩

theorem write_int8_dynamic (caches : Int8Buffers F) (K_in V_in : Nat → F) (inside : startPos < maxSeqLen)
    (uploaded : dStartPos 0 = startPos) (numTokens numKVHeads headDim : Nat) :
    attentionWriteKvCacheInt8Dynamic caches K_in V_in dStartPos numTokens numKVHeads headDim maxSeqLen =
      attentionWriteKvCacheInt8 caches K_in V_in startPos numTokens numKVHeads headDim maxSeqLen := by
  unfold attentionWriteKvCacheInt8Dynamic attentionWriteKvCacheInt8
  split
  next => rfl
  next some' =>
    have filled : 0 < numKVHeads := by omega
    have silent (input : Nat → F) (item : Nat) (behind : maxSeqLen ≤ startPos + item / numKVHeads) :=
      writeVector_silent input headDim inside behind
    rw [clipTokens_inside inside, writeVector_dynamic _ inside uploaded, writeVector_dynamic _ inside uploaded]
    dsimp only [launchHeads]
    congr 1
    · exact congrFun (launch_clipped filled _ fun item behind => congrArg HeadStores.cache (silent _ item behind)) _
    · exact congrFun (launch_clipped filled _ fun item behind => congrArg HeadStores.cache (silent _ item behind)) _
    · exact congrFun (launch_clipped filled _ fun item behind => congrArg HeadStores.scale (silent _ item behind)) _
    · exact congrFun (launch_clipped filled _ fun item behind => congrArg HeadStores.scale (silent _ item behind)) _
    · exact congrFun (launch_clipped filled _ fun item behind => congrArg HeadStores.zeroPoint (silent _ item behind)) _
    · exact congrFun (launch_clipped filled _ fun item behind => congrArg HeadStores.zeroPoint (silent _ item behind)) _

end Int8

end XInfer.DynamicKernels
