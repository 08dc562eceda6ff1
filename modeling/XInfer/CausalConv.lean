import XInfer.ChunkRuns
import XInfer.Kernels
import XInfer.Launches
import XInfer.Primitives
import Mathlib.Algebra.Field.Rat
import Mathlib.Algebra.BigOperators.Intervals

/-!
`causal_conv1d_silu` of `targets/qwen3_8/linear_attn.cpp`, in exact arithmetic. A call sees its own rows behind
the three rows of the state; chunk by chunk these windows are those of the whole sequence.
-/

namespace XInfer.CausalConv

open Primitives Launches ChunkRuns
open Kernels (ConvState LinearKernel)

section Kernel

variable {R : Type} [Field R] (exp : R → R) (convW : Nat → R) (numChannels : Nat)

def silu (sum : R) : R := sum / (1 + exp (-sum))

/-- An element of the state; a null pointer stands for zeros. -/
def stateAt (convState : Option (Nat → R)) (i : Nat) : R := match convState with
  | none => 0
  | some state => state i

/-- The kernel for a single row. -/
def oneRow (inQkv : Nat → R) (convState : Option (Nat → R)) (outQkv : Nat → R) : (Nat → R) × Option (Nat → R) :=
  let sum := fun c =>
    convW (c * 4 + 0) * stateAt convState (0 * numChannels + c) +
      convW (c * 4 + 1) * stateAt convState (1 * numChannels + c) +
      convW (c * 4 + 2) * stateAt convState (2 * numChannels + c) + convW (c * 4 + 3) * inQkv c
  (launch numChannels (fun c => [(c, silu exp (sum c))]) outQkv,
    convState.map fun state => launch numChannels (fun c =>
      [(0 * numChannels + c, state (1 * numChannels + c)), (1 * numChannels + c, state (2 * numChannels + c)),
       (2 * numChannels + c, inQkv c)]) state)

/-- The input of a tap: a row of the chunk, or one of the state. -/
def source (inQkv : Nat → R) (convState : Option (Nat → R)) (c : Nat) (srcT : Int) : R :=
  if 0 ≤ srcT then inQkv (srcT.toNat * numChannels + c)
  else
    let stateIdx := 3 + srcT
    if 0 ≤ stateIdx ∧ stateIdx < 3 then stateAt convState (stateIdx.toNat * numChannels + c) else 0

def convolved (inQkv : Nat → R) (convState : Option (Nat → R)) (t c : Nat) : R :=
  silu exp ((List.range 4).foldl (fun sum k =>
    sum + convW (c * 4 + k) * source numChannels inQkv convState c ((t : Int) - (3 - (k : Int)))) 0)

/-- The kernel behind the convolution of two rows or more. -/
def nextState (inQkv : Nat → R) (seqLen : Nat) (state : Nat → R) : Nat → R :=
  launch numChannels (fun c =>
    if 3 ≤ seqLen then
      [(0 * numChannels + c, inQkv ((seqLen - 3) * numChannels + c)),
       (1 * numChannels + c, inQkv ((seqLen - 2) * numChannels + c)),
       (2 * numChannels + c, inQkv ((seqLen - 1) * numChannels + c))]
    else if seqLen = 2 then
      [(0 * numChannels + c, state (2 * numChannels + c)), (1 * numChannels + c, inQkv (0 * numChannels + c)),
       (2 * numChannels + c, inQkv (1 * numChannels + c))]
    else []) state

/-- What the output and the state are left with. -/
def causalConv1dSilu (inQkv : Nat → R) (seqLen : Nat) (convState : Option (Nat → R)) (outQkv : Nat → R) :
    Except Exn ((Nat → R) × Option (Nat → R)) :=
  if seqLen = 0 then .ok (outQkv, convState)
  else if numChannels = 0 then
    .error (.standard (ascii "causal_conv1d_silu: num_channels must be positive, got " ++ decimal numChannels))
  else if seqLen = 1 then .ok (oneRow exp convW numChannels inQkv convState outQkv)
  else
    .ok (launch (seqLen * numChannels) (fun item =>
        let t := item / numChannels
        let c := item % numChannels
        [(t * numChannels + c, convolved exp convW numChannels inQkv convState t c)]) outQkv,
      convState.map (nextState numChannels inQkv seqLen))

end Kernel

section Windows

variable {R : Type}

/-- Row `i` of the state and the rows behind it. -/
def window (numChannels : Nat) (inQkv state : Nat → R) (i c : Nat) : R :=
  if i < 3 then state (i * numChannels + c) else inQkv ((i - 3) * numChannels + c)

/-- The output of the four rows from `t` on. -/
def activation [Field R] (exp : R → R) (convW : Nat → R) (rows : Nat → Nat → R) (t c : Nat) : R :=
  silu exp (∑ k ∈ Finset.range 4, convW (c * 4 + k) * rows (t + k) c)

/-- The state that has three rows, and else is as before. -/
def stateOf (numChannels : Nat) (rows : Nat → Nat → R) (state : Nat → R) : Nat → R := fun cell =>
  if cell < 3 * numChannels then rows (cell / numChannels) (cell % numChannels) else state cell

variable {numChannels seqLen : Nat} {inQkv state outQkv : Nat → R}

theorem stateOf_row (rows : Nat → Nat → R) {i c : Nat} (row : i < 3) (channel : c < numChannels) :
    stateOf numChannels rows state (i * numChannels + c) = rows i c := by
  have inside : i * numChannels + c < 3 * numChannels := flat_lt row channel
  unfold stateOf
  rw [if_pos inside, flat_div channel, flat_mod channel]

/-- Each of the three kernels leaves the last three rows. -/
theorem nextState_window (many : 2 ≤ seqLen) : nextState numChannels inQkv seqLen state =
    stateOf numChannels (fun i => window numChannels inQkv state (seqLen + i)) state := by
  unfold nextState
  by_cases three : 3 ≤ seqLen
  · simp only [if_pos three]
    have written := columns_written numChannels (fun i c => inQkv ((seqLen - 3 + i) * numChannels + c)) state
    rw [show seqLen - 3 + 1 = seqLen - 2 by omega, show seqLen - 3 + 2 = seqLen - 1 by omega, Nat.add_zero] at written
    rw [written]
    funext cell
    unfold stateOf window
    dsimp only
    generalize cell / numChannels = row
    rw [if_neg (show ¬ seqLen + row < 3 by omega), Nat.sub_add_comm three]
  · obtain rfl : seqLen = 2 := by omega
    simp only [if_neg three, if_true]
    have written := columns_written numChannels (fun i c => window numChannels inQkv state (2 + i) c) state
    exact written

variable [Field R] {exp : R → R} {convW : Nat → R}

theorem source_window (t k c : Nat) : source numChannels inQkv (some state) c ((t : Int) - (3 - (k : Int))) =
    window numChannels inQkv state (t + k) c := by
  unfold source window
  dsimp only [stateAt]
  by_cases early : t + k < 3
  · rw [if_neg (by omega), if_pos (by omega), if_pos early, show (3 + ((t : Int) - (3 - k))).toNat = t + k by omega]
  · rw [if_pos (by omega), if_neg early, show ((t : Int) - (3 - k)).toNat = t + k - 3 by omega]

theorem convolved_activation (t c : Nat) : convolved exp convW numChannels inQkv (some state) t c =
    activation exp convW (window numChannels inQkv state) t c := by
  unfold convolved activation
  simp only [source_window, List.range_succ, List.range_zero, List.nil_append, List.foldl_append, List.foldl_cons,
    List.foldl_nil, Finset.sum_range_succ, Finset.range_zero, Finset.sum_empty]

/-- What a call over so many rows leaves: the activations of the windows, and the last three rows. -/
structure Windowed (exp : R → R) (convW : Nat → R) (numChannels : Nat) (inQkv : Nat → R) (seqLen : Nat)
    (state : Nat → R) (result : (Nat → R) × Option (Nat → R)) : Prop where
  output : ∀ t < seqLen, ∀ c < numChannels,
    result.1 (t * numChannels + c) = activation exp convW (window numChannels inQkv state) t c
  state : result.2 = some (stateOf numChannels (fun i => window numChannels inQkv state (seqLen + i)) state)

theorem oneRow_activation (c : Nat) :
    silu exp (convW (c * 4 + 0) * state (0 * numChannels + c) + convW (c * 4 + 1) * state (1 * numChannels + c) +
      convW (c * 4 + 2) * state (2 * numChannels + c) + convW (c * 4 + 3) * inQkv c) =
      activation exp convW (window numChannels inQkv state) 0 c := by
  simp [activation, window, Finset.sum_range_succ]

theorem oneRow_windows : Windowed exp convW numChannels inQkv 1 state
    (oneRow exp convW numChannels inQkv (some state) outQkv) where
  output := by
    intro t row c channel
    obtain rfl : t = 0 := by omega
    have stores : (oneRow exp convW numChannels inQkv (some state) outQkv).1 =
        launch numChannels (fun c => [(0 + c, activation exp convW (window numChannels inQkv state) 0 c)]) outQkv := by
      refine congrFun (launch_congr fun c _ => ?_) outQkv
      rw [Nat.zero_add, ← oneRow_activation]
      rfl
    rw [stores, Nat.zero_mul, row_here 0 channel]
  state := by
    have written := columns_written numChannels (fun i c => window numChannels inQkv state (1 + i) c) state
    refine congrArg some (Eq.trans (congrFun (launch_congr fun c _ => ?_) state) written)
    simp [window]

variable (exp convW inQkv state outQkv) in
/-- What a call does, whatever the number of its rows. -/
theorem call_windows (filled : 0 < numChannels) (some' : 0 < seqLen) :
    ∃ result, causalConv1dSilu exp convW numChannels inQkv seqLen (some state) outQkv = .ok result ∧
      Windowed exp convW numChannels inQkv seqLen state result := by
  unfold causalConv1dSilu
  rw [if_neg (by omega), if_neg (by omega)]
  by_cases single : seqLen = 1
  · subst single
    rw [if_pos rfl]
    exact ⟨_, rfl, oneRow_windows⟩
  · rw [if_neg single]
    refine ⟨_, rfl, ?_, ?_⟩
    · intro t row c channel
      dsimp only
      rw [launch, outputs_items, outputs_here row channel]
      exact convolved_activation t c
    · dsimp only
      rw [Option.map_some, nextState_window (by omega)]

/-- One channel of a call is the layer's convolution over the rows of that channel. -/
theorem Windowed.channel {Hidden State : Type} {result : (Nat → R) × Option (Nat → R)}
    (windowed : Windowed exp convW numChannels inQkv seqLen state result) {c : Nat} (channel : c < numChannels)
    (k : LinearKernel Hidden R R State)
    (taps : ∀ x0 x1 x2 x3, k.convolve x0 x1 x2 x3 = silu exp
      (convW (c * 4 + 0) * x0 + convW (c * 4 + 1) * x1 + convW (c * 4 + 2) * x2 + convW (c * 4 + 3) * x3)) :
    let carried := fun state : Nat → R =>
      (⟨state (0 * numChannels + c), state (1 * numChannels + c), state (2 * numChannels + c)⟩ : ConvState R)
    (some (k.causalConv1dSilu (carried state) ((List.range seqLen).map fun t => inQkv (t * numChannels + c)))) =
      result.2.map fun after =>
        (carried after, (List.range seqLen).map fun t => result.1 (t * numChannels + c)) := by
  intro carried
  have tap : ∀ i < seqLen + 3, LinearKernel.tap (carried state)
      ((List.range seqLen).map fun t => inQkv (t * numChannels + c)) i = window numChannels inQkv state i c := by
    intro i within
    match i with
    | 0 | 1 | 2 => simp [LinearKernel.tap, window, carried]
    | i + 3 => simp [LinearKernel.tap, window, List.getElem?_range (show i < seqLen by omega)]
  rw [LinearKernel.causalConv1dSilu_windows, windowed.state, Option.map_some]
  unfold LinearKernel.windows
  simp only [List.length_map, List.length_range]
  refine congrArg some (Prod.ext ?_ (List.map_congr_left fun t row => ?_))
  · dsimp only [carried]
    rw [stateOf_row _ (by omega) channel, stateOf_row _ (by omega) channel, stateOf_row _ (by omega) channel,
      tap _ (by omega), tap _ (by omega), tap _ (by omega)]
    rfl
  · have row := List.mem_range.mp row
    rw [windowed.output t row c channel, taps, tap _ (by omega), tap _ (by omega), tap _ (by omega), tap _ (by omega)]
    simp [activation, Finset.sum_range_succ]

end Windows

section Carried

variable {R : Type} {numChannels : Nat} {inQkv state : Nat → R}

/-- The state behind the first `offset` rows. -/
def carried (numChannels : Nat) (inQkv state : Nat → R) (offset : Nat) : Nat → R :=
  stateOf numChannels (fun i => window numChannels inQkv state (offset + i)) state

theorem carried_zero : carried numChannels inQkv state 0 = state := by
  funext cell
  unfold carried stateOf
  split
  next early =>
    have row : cell / numChannels < 3 := Nat.div_lt_of_lt_mul (by rwa [Nat.mul_comm])
    simp only [Nat.zero_add]
    unfold window
    rw [if_pos row, Nat.mul_comm, Nat.div_add_mod]
  next => rfl

/-- The windows of a chunk are those of the whole sequence. -/
theorem window_carried (offset i : Nat) {c : Nat} (channel : c < numChannels) :
    window numChannels (fun i => inQkv (offset * numChannels + i)) (carried numChannels inQkv state offset) i c =
      window numChannels inQkv state (offset + i) c := by
  by_cases early : i < 3
  · rw [window, if_pos early, carried, stateOf_row _ early channel]
  · rw [window, if_neg early, window, if_neg (by omega), ← Nat.add_assoc, ← Nat.add_mul,
      Nat.add_sub_assoc (by omega)]

theorem carried_add (filled : 0 < numChannels) (offset seqLen : Nat) :
    carried numChannels (fun i => inQkv (offset * numChannels + i)) (carried numChannels inQkv state offset) seqLen =
      carried numChannels inQkv state (offset + seqLen) := by
  funext cell
  by_cases early : cell < 3 * numChannels
  · have channel : cell % numChannels < numChannels := Nat.mod_lt _ filled
    rw [carried, stateOf, if_pos early, window_carried _ _ channel, carried, stateOf, if_pos early, Nat.add_assoc]
  · rw [carried, stateOf, if_neg early, carried, stateOf, if_neg early, carried, stateOf, if_neg early]

variable [Field R] {exp : R → R} {convW : Nat → R}

/-- A call on the rows from `offset` on. -/
def chunkCall (exp : R → R) (convW : Nat → R) (numChannels : Nat) (inQkv : Nat → R) :
    Call Exn (Option (Nat → R)) R := fun offset seqLen outQkv convState =>
  causalConv1dSilu exp convW numChannels (fun i => inQkv (offset * numChannels + i)) seqLen convState outQkv

/-- Behind each chunk the state is that of the whole sequence. -/
theorem chunkCall_carries (filled : 0 < numChannels) {length : Nat} {whole : Nat → R}
    (activations : ∀ t < length, ∀ c < numChannels,
      whole (t * numChannels + c) = activation exp convW (window numChannels inQkv state) t c) :
    Carries (chunkCall exp convW numChannels inQkv) numChannels length whole
      (fun offset convState => convState = some (carried numChannels inQkv state offset)) := by
  intro offset seqLen outQkv convState within before
  subst before
  by_cases empty : seqLen = 0
  · refine ⟨outQkv, _, by rw [chunkCall, causalConv1dSilu, if_pos empty], by rw [empty, Nat.add_zero], ?_⟩
    intro t row
    omega
  · obtain ⟨⟨output, after⟩, ran, windowed⟩ := call_windows
      (fun i => inQkv (offset * numChannels + i)) (carried numChannels inQkv state offset) outQkv exp convW filled
      (Nat.pos_of_ne_zero empty)
    refine ⟨output, after, ran, ?_, ?_⟩
    · dsimp only
      rw [← carried_add filled]
      exact windowed.state
    · -- the call sees the windows of the whole sequence
      intro t row c channel
      rw [activations (offset + t) (by omega) c channel]
      refine (windowed.output t row c channel).trans ?_
      unfold activation
      refine congrArg _ (Finset.sum_congr rfl fun k _ => ?_)
      rw [window_carried offset (t + k) channel, Nat.add_assoc]

/-- The convolution chunk by chunk is that of the whole sequence. -/
theorem chunks_agree (exp : R → R) (convW : Nat → R) {numChannels : Nat} (filled : 0 < numChannels)
    (inQkv state outQkv : Nat → R) (chunks : List (Chunk R)) :
    ∃ outputs whole final,
      runChunks (chunkCall exp convW numChannels inQkv) chunks 0 (some state) = .ok (outputs, some final) ∧
      causalConv1dSilu exp convW numChannels inQkv (total chunks) (some state) outQkv = .ok (whole, some final) ∧
      Slices numChannels whole 0 chunks outputs := by
  have start : carried numChannels inQkv state 0 = state := carried_zero
  -- the call for all rows at once gives the outputs to compare with
  have all : ∃ whole, causalConv1dSilu exp convW numChannels inQkv (total chunks) (some state) outQkv =
        .ok (whole, some (carried numChannels inQkv state (total chunks))) ∧
      ∀ t < total chunks, ∀ c < numChannels,
        whole (t * numChannels + c) = activation exp convW (window numChannels inQkv state) t c := by
    by_cases empty : total chunks = 0
    · refine ⟨outQkv, by rw [causalConv1dSilu, if_pos empty, empty, start], ?_⟩
      intro t row
      omega
    · obtain ⟨⟨whole, final⟩, ran, windowed⟩ := call_windows inQkv state outQkv exp convW filled
        (Nat.pos_of_ne_zero empty)
      refine ⟨whole, ?_, windowed.output⟩
      rw [ran]
      exact congrArg (fun final => Except.ok (whole, final)) windowed.state
  obtain ⟨whole, ran, activations⟩ := all
  obtain ⟨outputs, final, chunked, last, slices⟩ := runChunks_slices (chunkCall_carries filled activations) chunks 0
    (some state) (Nat.zero_add _).le (congrArg some start.symm)
  rw [Nat.zero_add] at last
  subst last
  exact ⟨outputs, whole, _, chunked, ran, slices⟩

/-- Chunks of one, two and three rows of two channels. -/
theorem chunks_agree_short :
    let blank : Nat → Rat := fun _ => 0
    let chunks := [(1, blank), (2, blank), (3, blank)]
    ∃ outputs whole final,
      runChunks (chunkCall (fun _ => (1 : Rat)) (fun i => i) 2 (fun i => i)) chunks 0 (some fun _ => 5) =
        .ok (outputs, some final) ∧
      causalConv1dSilu (fun _ => (1 : Rat)) (fun i => i) 2 (fun i => i) 6 (some fun _ => 5) blank =
        .ok (whole, some final) ∧
      Slices 2 whole 0 chunks outputs :=
  chunks_agree _ _ (by decide) _ _ _ _

end Carried

end XInfer.CausalConv
