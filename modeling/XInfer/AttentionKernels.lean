import XInfer.Launches
import Mathlib.Algebra.Order.Floor.Ring
import Mathlib.Data.Rat.Floor

/-!
The kernels of `ops/attention.cpp`. Buffers are functions of the index; sizes are natural numbers, since the
functions return at once on others, and a `max_seq_len` of 0 sets no bound. No index arithmetic overflows,
since the indices lie in allocated buffers. The operations on `float` have no laws here.
-/

namespace XInfer.AttentionKernels

open Launches

/-- What the kernels compute with. -/
class DeviceFloat (F : Type) extends Zero F, One F, Add F, Sub F, Mul F, Div F where
  less : F → F → Bool
  atMost : F → F → Bool
  ofInt : Int → F
  /-- `sycl::round` -/
  round : F → F
  /-- `static_cast<int8_t>` -/
  toInt8 : F → Int
  /-- `static_cast<sycl::half>` -/
  half : F → F

class DeviceExp (F : Type) extends DeviceFloat F where
  exp : F → F
  sqrt : F → F
  /-- `sycl::reduce_over_group`, of the values of the lanes. -/
  reduce : List F → F

/-- What other kernels compute with besides. -/
class DeviceMath (F : Type) extends DeviceExp F, Neg F where
  log : F → F
  cos : F → F
  sin : F → F

open DeviceFloat (less atMost ofInt toInt8 half)
open DeviceExp (exp sqrt reduce)

section Exact

variable (K : Type) [Field K] [LinearOrder K] [FloorRing K]

/-- To the nearest integer, and away from zero between two. -/
def roundAway (x : K) : Int := if 0 ≤ x then ⌊x + 1 / 2⌋ else -⌊-x + 1 / 2⌋

def truncate (x : K) : Int := if 0 ≤ x then ⌊x⌋ else ⌈x⌉

/-- Operations that do not round, and conversions that lose nothing. -/
abbrev exactFloat : DeviceFloat K where
  less x y := decide (x < y)
  atMost x y := decide (x ≤ y)
  ofInt i := i
  round x := roundAway K x
  toInt8 := truncate K
  half := id

instance : DeviceFloat Rat := exactFloat Rat

end Exact

section Write

variable {F : Type} [DeviceFloat F]

/-- The tokens that fit, or `none` where the function returns at once. -/
def clipTokens (startPos : Int) (numTokens maxSeqLen : Nat) : Option Nat :=
  if 0 < maxSeqLen then
    if maxSeqLen ≤ startPos ∨ startPos < 0 then none
    else if maxSeqLen < startPos + numTokens then some (maxSeqLen - startPos).toNat else some numTokens
  else some numTokens

structure KVBuffers (F : Type) where
  kCache : Nat → F
  vCache : Nat → F

/-- The stores of work item `i` to one of the two caches. -/
def writeElement (input : Nat → F) (startPos : Int) (numKVHeads headDim maxSeqLen i : Nat) : List (Nat × F) :=
  let kvStride := numKVHeads * headDim
  let t := i / kvStride
  let rem := i % kvStride
  let pos := startPos + t
  if 0 < maxSeqLen ∧ (pos < 0 ∨ maxSeqLen ≤ pos) then []
  else [(pos.toNat * kvStride + rem, half (input i))]

/-- The same with the bound that is not known to the host. -/
def writeElementDynamic (input : Nat → F) (dStartPos : Nat → Int) (numKVHeads headDim maxSeqLen i : Nat) :
    List (Nat × F) :=
  let kvStride := numKVHeads * headDim
  let t := i / kvStride
  let rem := i % kvStride
  let startPos := dStartPos 0
  let pos := startPos + t
  if pos < 0 ∨ (0 < maxSeqLen ∧ maxSeqLen ≤ pos) then []
  else [(pos.toNat * kvStride + rem, half (input i))]

variable (caches : KVBuffers F) (K_in V_in : Nat → F)

def attentionWriteKvCache (startPos : Int) (numTokens numKVHeads headDim maxSeqLen : Nat) : KVBuffers F :=
  if numTokens = 0 ∨ numKVHeads = 0 ∨ headDim = 0 then caches
  else match clipTokens startPos numTokens maxSeqLen with
    | none => caches
    | some numTokens =>
        let totalElements := numTokens * (numKVHeads * headDim)
        { kCache := launch totalElements (writeElement K_in startPos numKVHeads headDim maxSeqLen) caches.kCache
          vCache := launch totalElements (writeElement V_in startPos numKVHeads headDim maxSeqLen) caches.vCache }

def attentionWriteKvCacheDynamic (dStartPos : Nat → Int) (numTokens numKVHeads headDim maxSeqLen : Nat) : KVBuffers F :=
  if numTokens = 0 ∨ numKVHeads = 0 ∨ headDim = 0 then caches
  else
    let totalElements := numTokens * (numKVHeads * headDim)
    { kCache := launch totalElements (writeElementDynamic K_in dStartPos numKVHeads headDim maxSeqLen) caches.kCache
      vCache := launch totalElements (writeElementDynamic V_in dStartPos numKVHeads headDim maxSeqLen) caches.vCache }

end Write

section Slots

variable {startPos numKVHeads maxSeqLen item : Nat}

theorem clipTokens_inside (inside : startPos < maxSeqLen) (numTokens : Nat) :
    clipTokens startPos numTokens maxSeqLen = some (min numTokens (maxSeqLen - startPos)) := by
  unfold clipTokens
  rw [if_pos (by omega), if_neg (by omega)]
  split <;> congr 1 <;> omega

/-- The slot of the head of a token, in the order of the items. -/
theorem item_slot (startPos numKVHeads item : Nat) :
    (((startPos : Int) + ((item / numKVHeads : Nat) : Int)).toNat) * numKVHeads + item % numKVHeads =
      startPos * numKVHeads + item := by
  rw [← Nat.cast_add, Int.toNat_natCast, Nat.add_mul, Nat.add_assoc, Nat.div_add_mod']

theorem item_inside (before : item < (maxSeqLen - startPos) * numKVHeads) :
    ¬ (0 < maxSeqLen ∧ ((startPos : Int) + ((item / numKVHeads : Nat) : Int) < 0 ∨
      (maxSeqLen : Int) ≤ (startPos : Int) + ((item / numKVHeads : Nat) : Int))) := by
  have early : item / numKVHeads < maxSeqLen - startPos := Nat.div_lt_of_lt_mul (Nat.mul_comm _ numKVHeads ▸ before)
  generalize item / numKVHeads = t at early
  omega

/-- Rows of items that store nothing from the end of the cache on. -/
theorem launch_clipped {Value : Type} {width : Nat} (filled : 0 < width) (numTokens : Nat) {body : Nat → List (Nat × Value)}
    (silent : ∀ item, maxSeqLen ≤ startPos + item / width → body item = []) :
    launch (numTokens * width) body = launch (min numTokens (maxSeqLen - startPos) * width) body := by
  apply launch_idle (Nat.mul_le_mul_right _ (Nat.min_le_left _ _))
  intro item behind before
  apply silent
  have late : maxSeqLen - startPos ≤ item / width := by
    rcases Nat.le_total numTokens (maxSeqLen - startPos) with fits | clipped
    · rw [Nat.min_eq_left fits] at behind
      omega
    · rw [Nat.min_eq_right clipped] at behind
      exact (Nat.le_div_iff_mul_le filled).2 behind
  omega

end Slots

section Quantise

variable {F : Type} [DeviceFloat F]

structure Int8Buffers (F : Type) where
  kCache : Nat → Int
  vCache : Nat → Int
  kScale : Nat → F
  vScale : Nat → F
  kZeroPoint : Nat → F
  vZeroPoint : Nat → F

/-- The smallest and the largest of the elements from the first one on. -/
def extremes (src : Nat → F) (headDim : Nat) : F × F :=
  (List.range' 1 (headDim - 1)).foldl (fun found d =>
    (if less (src d) found.1 then src d else found.1, if less found.2 (src d) then src d else found.2)) (src 0, src 0)

def scaleVal (low high : F) : F := if less low high then (high - low) / ofInt 255 else 1

def invScale (low high : F) : F := if less low high then ofInt 255 / (high - low) else 0

/-- `sycl::clamp` -/
def clamp (x low high : F) : F := if less x low then low else if less high x then high else x

def quantised (low high x : F) : Int :=
  toInt8 (clamp (DeviceFloat.round ((x - low) * invScale low high)) 0 (ofInt 255) - ofInt 128)

/-- The stores of the work item of one head of one token to a pair of a cache and its factors. -/
structure HeadStores (F : Type) where
  cache : List (Nat × Int)
  scale : List (Nat × F)
  zeroPoint : List (Nat × F)

def HeadStores.none : HeadStores F := ⟨[], [], []⟩

def writeHead (src : Nat → F) (cacheHeadIdx headDim : Nat) : HeadStores F :=
  let (low, high) := extremes src headDim
  { scale := [(cacheHeadIdx, scaleVal low high)]
    zeroPoint := [(cacheHeadIdx, low)]
    cache := (List.range headDim).map fun d => (cacheHeadIdx * headDim + d, quantised low high (src d)) }

def writeVector (input : Nat → F) (startPos : Int) (numKVHeads headDim maxSeqLen linearHeadIdx : Nat) : HeadStores F :=
  let t := linearHeadIdx / numKVHeads
  let h := linearHeadIdx % numKVHeads
  let pos := startPos + t
  if 0 < maxSeqLen ∧ (pos < 0 ∨ maxSeqLen ≤ pos) then .none
  else writeHead (fun d => input (linearHeadIdx * headDim + d)) (pos.toNat * numKVHeads + h) headDim

def writeVectorDynamic (input : Nat → F) (dStartPos : Nat → Int)
    (numKVHeads headDim maxSeqLen linearHeadIdx : Nat) : HeadStores F :=
  let t := linearHeadIdx / numKVHeads
  let h := linearHeadIdx % numKVHeads
  let startPos := dStartPos 0
  let pos := startPos + t
  if pos < 0 ∨ (0 < maxSeqLen ∧ maxSeqLen ≤ pos) then .none
  else writeHead (fun d => input (linearHeadIdx * headDim + d)) (pos.toNat * numKVHeads + h) headDim

/-- A launch whose items store to the six buffers. -/
def launchHeads (items : Nat) (keys values : Nat → HeadStores F) (caches : Int8Buffers F) : Int8Buffers F where
  kCache := launch items (fun item => (keys item).cache) caches.kCache
  vCache := launch items (fun item => (values item).cache) caches.vCache
  kScale := launch items (fun item => (keys item).scale) caches.kScale
  vScale := launch items (fun item => (values item).scale) caches.vScale
  kZeroPoint := launch items (fun item => (keys item).zeroPoint) caches.kZeroPoint
  vZeroPoint := launch items (fun item => (values item).zeroPoint) caches.vZeroPoint

variable (caches : Int8Buffers F) (K_in V_in : Nat → F)

def attentionWriteKvCacheInt8 (startPos : Int) (numTokens numKVHeads headDim maxSeqLen : Nat) : Int8Buffers F :=
  if numTokens = 0 ∨ numKVHeads = 0 ∨ headDim = 0 then caches
  else match clipTokens startPos numTokens maxSeqLen with
    | none => caches
    | some numTokens =>
        launchHeads (numTokens * numKVHeads) (writeVector K_in startPos numKVHeads headDim maxSeqLen)
          (writeVector V_in startPos numKVHeads headDim maxSeqLen) caches

def attentionWriteKvCacheInt8Dynamic (dStartPos : Nat → Int) (numTokens numKVHeads headDim maxSeqLen : Nat) :
    Int8Buffers F :=
  if numTokens = 0 ∨ numKVHeads = 0 ∨ headDim = 0 then caches
  else
    launchHeads (numTokens * numKVHeads) (writeVectorDynamic K_in dStartPos numKVHeads headDim maxSeqLen)
      (writeVectorDynamic V_in dStartPos numKVHeads headDim maxSeqLen) caches

def dequantised (q : Int) (scale zeroPoint : F) : F := (ofInt q + ofInt 128) * scale + zeroPoint

/-- The stores of the work item of one head of one token; `cast` is the conversion to the type of the output. -/
def readVector (cast : F → F) (cache : Nat → Int) (scale zeroPoint : Nat → F) (startPos : Int)
    (numKVHeads headDim maxSeqLen linearHeadIdx : Nat) : List (Nat × F) :=
  let t := linearHeadIdx / numKVHeads
  let h := linearHeadIdx % numKVHeads
  let pos := startPos + t
  if 0 < maxSeqLen ∧ (pos < 0 ∨ maxSeqLen ≤ pos) then []
  else
    let cacheHeadIdx := pos.toNat * numKVHeads + h
    (List.range headDim).map fun d =>
      (linearHeadIdx * headDim + d,
        cast (dequantised (cache (cacheHeadIdx * headDim + d)) (scale cacheHeadIdx) (zeroPoint cacheHeadIdx)))

/-- What the two outputs are left with. -/
def attentionReadKvCacheInt8 (cast : F → F) (outputs : KVBuffers F) (startPos : Int)
    (numTokens numKVHeads headDim maxSeqLen : Nat) : KVBuffers F :=
  if numTokens = 0 ∨ numKVHeads = 0 ∨ headDim = 0 then outputs
  else
    { kCache := launch (numTokens * numKVHeads)
        (readVector cast caches.kCache caches.kScale caches.kZeroPoint startPos numKVHeads headDim maxSeqLen) outputs.kCache
      vCache := launch (numTokens * numKVHeads)
        (readVector cast caches.vCache caches.vScale caches.vZeroPoint startPos numKVHeads headDim maxSeqLen) outputs.vCache }

end Quantise

section Attend

/-- The running maximum, `none` before the first key, the sum and the accumulated values. -/
structure Running (ι F : Type) where
  maxScore : Option F
  sumExp : F
  acc : ι → F

variable {ι F : Type} [DeviceExp F]

/-- `sycl::max` -/
def maxOf (x y : F) : F := if less x y then y else x

def Running.start : Running ι F := ⟨none, 0, fun _ => 0⟩

/-- The update by the score of one key and its value. -/
def Running.update (state : Running ι F) (score : F) (value : ι → F) : Running ι F :=
  let newMax := match state.maxScore with
    | none => score
    | some old => maxOf old score
  let expOld := match state.maxScore with
    | none => 0
    | some old => exp (old - newMax)
  let expNew := exp (score - newMax)
  { maxScore := some newMax
    sumExp := state.sumExp * expOld + expNew
    acc := fun d => state.acc d * expOld + expNew * value d }

def Running.output (state : Running ι F) (d : ι) : F :=
  state.acc d * (1 / if less 0 state.sumExp then state.sumExp else 1)

/-- The scale of the scores, with the default for one that is not positive. -/
def usedScale (scale : F) (headDim : Nat) : F := if atMost scale 0 then 1 / sqrt (ofInt headDim) else scale

variable (cast : F → F) (out Q : Nat → F)

/-- The work item of query token `i` and query head `h`. -/
def naiveItem (K V : Nat → F) (numQHeads numKVHeads headDim : Nat) (scale : F) (i h : Nat) : List (Nat × F) :=
  let gqaRatio := numQHeads / numKVHeads
  let kvH := h / gqaRatio
  let base := (i * numQHeads + h) * headDim
  let state := (List.range (i + 1)).foldl (fun state j =>
    let row := (j * numKVHeads + kvH) * headDim
    let dot := (List.range headDim).foldl (fun dot d => dot + Q (base + d) * K (row + d)) 0
    state.update (dot * scale) fun d => V (row + d)) Running.start
  (List.range headDim).map fun d => (base + d, cast (state.output d))

def sdpaCausalNaive (K V : Nat → F) (seqLen numQHeads numKVHeads headDim : Nat) (scale : F) : Nat → F :=
  if seqLen = 0 ∨ numQHeads = 0 ∨ numKVHeads = 0 ∨ headDim = 0 then out
  else
    launch (seqLen * numQHeads) (fun item =>
      naiveItem cast Q K V numQHeads numKVHeads headDim (usedScale scale headDim) (item / numQHeads) (item % numQHeads)) out

def SG_SIZE : Nat := 16

def WG_SIZE : Nat := 64

/-- A sub-group of 16 lanes. A lane has so many elements of the query and of the output to itself; `key` and
`value` read an element of a cached vector. -/
def attendSubgroup (key value : Nat → Nat → F) (startPos : Int) (numQHeads numKVHeads headDim : Nat) (scale : F)
    (maxSeqLen totalSubgroups globalSgId : Nat) : List (Nat × F) :=
  if totalSubgroups ≤ globalSgId then []
  else
    let gqaRatio := numQHeads / numKVHeads
    let elemsPerLane := headDim / SG_SIZE
    let i := globalSgId / numQHeads
    let h := globalSgId % numQHeads
    let kvH := h / gqaRatio
    let base := (i * numQHeads + h) * headDim
    let totalKeys : Int := startPos + i + 1
    let totalKeys : Int := if 0 < maxSeqLen ∧ maxSeqLen < totalKeys then maxSeqLen else totalKeys
    if totalKeys ≤ 0 then []
    else
      let state := (List.range totalKeys.toNat).foldl (fun state j =>
        let head := j * numKVHeads + kvH
        let laneDot (lane : Nat) := (List.range elemsPerLane).foldl (fun dot d =>
          dot + Q (base + (lane * elemsPerLane + d)) * key head (lane * elemsPerLane + d)) 0
        let dot := reduce ((List.range SG_SIZE).map laneDot)
        state.update (dot * scale) fun element : Nat × Nat => value head (element.1 * elemsPerLane + element.2))
        Running.start
      (List.range SG_SIZE).flatMap fun lane => (List.range elemsPerLane).map fun d =>
        (base + (lane * elemsPerLane + d), cast (state.output (lane, d)))

/-- The launch of the sub-groups, padded to whole work-groups. -/
def launchSubgroups (key value : Nat → Nat → F) (startPos : Int) (numQTokens numQHeads numKVHeads headDim : Nat)
    (scale : F) (maxSeqLen : Nat) : Nat → F :=
  if numQTokens = 0 ∨ numQHeads = 0 ∨ numKVHeads = 0 ∨ headDim = 0 then out
  else
    let totalSubgroups := numQTokens * numQHeads
    let globalThreads := totalSubgroups * SG_SIZE
    let paddedGlobal := (globalThreads + WG_SIZE - 1) / WG_SIZE * WG_SIZE
    launch (paddedGlobal / SG_SIZE) (attendSubgroup cast Q key value startPos numQHeads numKVHeads headDim
      (usedScale scale headDim) maxSeqLen totalSubgroups) out

/-- An active sub-group stores every element of its vector. -/
theorem attendSubgroup_addresses (key value : Nat → Nat → F) {startPos : Int} {numQHeads numKVHeads headDim items item : Nat}
    (scale : F) (maxSeqLen : Nat) (lanes : SG_SIZE ∣ headDim) (active : item < items) (nonneg : 0 ≤ startPos) :
    (attendSubgroup cast Q key value startPos numQHeads numKVHeads headDim scale maxSeqLen items item).map Prod.fst =
      (List.range headDim).map fun d => item * headDim + d := by
  obtain ⟨elemsPerLane, rfl⟩ := lanes
  have each : SG_SIZE * elemsPerLane / SG_SIZE = elemsPerLane := Nat.mul_div_cancel_left _ (by decide)
  unfold attendSubgroup
  rw [if_neg (Nat.not_le.2 active)]
  dsimp only
  rw [each, Nat.div_add_mod', if_neg (by generalize item / numQHeads = i; split <;> omega), List.map_flatMap, ← map_blocks]
  simp only [List.map_map]
  rfl

/-- The padding stores nothing. -/
theorem launchSubgroups_active (key value : Nat → Nat → F) (startPos : Int) {numQTokens numQHeads numKVHeads headDim : Nat}
    (some' : ¬ (numQTokens = 0 ∨ numQHeads = 0 ∨ numKVHeads = 0 ∨ headDim = 0)) (scale : F) (maxSeqLen : Nat) :
    launchSubgroups cast out Q key value startPos numQTokens numQHeads numKVHeads headDim scale maxSeqLen =
      launch (numQTokens * numQHeads) (attendSubgroup cast Q key value startPos numQHeads numKVHeads headDim
        (usedScale scale headDim) maxSeqLen (numQTokens * numQHeads)) out := by
  have padded : numQTokens * numQHeads ≤
      (numQTokens * numQHeads * SG_SIZE + WG_SIZE - 1) / WG_SIZE * WG_SIZE / SG_SIZE := by
    simp only [SG_SIZE, WG_SIZE]
    omega
  rw [launchSubgroups, if_neg some']
  exact congrFun (launch_idle padded fun item behind _ => if_pos behind) out

def sdpaCausalCached (caches : KVBuffers F) (startPos : Int) (numQTokens numQHeads numKVHeads headDim : Nat)
    (scale : F) (maxSeqLen : Nat) : Nat → F :=
  launchSubgroups cast out Q (fun head d => caches.kCache (head * headDim + d))
    (fun head d => caches.vCache (head * headDim + d)) startPos numQTokens numQHeads numKVHeads headDim scale maxSeqLen

/-- Every sub-group reads the position for itself. -/
def sdpaCausalCachedDynamic (caches : KVBuffers F) (dStartPos : Nat → Int)
    (numQTokens numQHeads numKVHeads headDim : Nat) (scale : F) (maxSeqLen : Nat) : Nat → F :=
  launchSubgroups cast out Q (fun head d => caches.kCache (head * headDim + d))
    (fun head d => caches.vCache (head * headDim + d)) (dStartPos 0) numQTokens numQHeads numKVHeads headDim scale maxSeqLen

def sdpaCausalCachedInt8 (caches : Int8Buffers F) (startPos : Int) (numQTokens numQHeads numKVHeads headDim : Nat)
    (scale : F) (maxSeqLen : Nat) : Nat → F :=
  launchSubgroups cast out Q
    (fun head d => dequantised (caches.kCache (head * headDim + d)) (caches.kScale head) (caches.kZeroPoint head))
    (fun head d => dequantised (caches.vCache (head * headDim + d)) (caches.vScale head) (caches.vZeroPoint head))
    startPos numQTokens numQHeads numKVHeads headDim scale maxSeqLen

def sdpaCausalCachedInt8Dynamic (caches : Int8Buffers F) (dStartPos : Nat → Int)
    (numQTokens numQHeads numKVHeads headDim : Nat) (scale : F) (maxSeqLen : Nat) : Nat → F :=
  launchSubgroups cast out Q
    (fun head d => dequantised (caches.kCache (head * headDim + d)) (caches.kScale head) (caches.kZeroPoint head))
    (fun head d => dequantised (caches.vCache (head * headDim + d)) (caches.vScale head) (caches.vZeroPoint head))
    (dStartPos 0) numQTokens numQHeads numKVHeads headDim scale maxSeqLen

end Attend

end XInfer.AttentionKernels
