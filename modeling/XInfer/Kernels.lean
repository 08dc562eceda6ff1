import XInfer.Transducer
import Mathlib.Algebra.Group.Defs

/-!
The kernels of one layer that touch device memory: `attention_write_kv_cache` and
`sdpa_causal_cached` of `ops/attention.cpp`, `causal_conv1d_silu` and
`recurrent_gated_delta_net` of `targets/qwen3_8/linear_attn.cpp`. Arithmetic on rows is
left to the layer's own functions; what a kernel reads and writes is not. A slot is a
row of K and V as the cache stores it, in half precision or in int8 with its scales.
Each batch kernel is the scan of a step for one row. `forward_chunk` begins no pass on a
cache without rows, so the kernels' case of an unbounded cache does not occur.
-/

namespace XInfer.Kernels

open Transducer

variable {Hidden Slot Acc Raw Conv State : Type}

structure FullKernel (Hidden Slot Acc : Type) where
  /-- K and V of a row at its position, after norm and rotation. -/
  slot : Hidden → Nat → Slot
  start : Acc
  /-- One key of the online softmax, with the row's own query. -/
  absorb : Hidden → Nat → Acc → Slot → Acc
  /-- Output gate and projection, residuals and MLP. -/
  close : Hidden → Nat → Acc → Hidden

namespace FullKernel

def writeKvCache (maxSeqLen : Nat) (column : Nat → Slot) (startPos : Nat) (rows : List Slot) :
    Nat → Slot :=
  if maxSeqLen ≤ startPos then column
  else
    let numTokens := if maxSeqLen < startPos + rows.length then maxSeqLen - startPos else rows.length
    fun i => if startPos ≤ i ∧ i < startPos + numTokens then (rows[i - startPos]?).getD (column i)
      else column i

/-- The keys that the query at a position reads, its own among them. -/
def totalKeys (maxSeqLen position : Nat) : Nat :=
  if maxSeqLen < position + 1 then maxSeqLen else position + 1

variable (k : FullKernel Hidden Slot Acc)

def sdpaCausalCached (maxSeqLen : Nat) (column : Nat → Slot) (row : Hidden × Nat) : Acc :=
  (List.range (totalKeys maxSeqLen row.2)).foldl (fun acc j => k.absorb row.1 row.2 acc (column j)) k.start

/-- All rows of a batch are written before any of them reads. -/
def batch (maxSeqLen : Nat) (column : Nat → Slot) (startPos : Nat) (rows : List Hidden) :
    (Nat → Slot) × List Hidden :=
  let placed := rows.zipIdx startPos
  let written := writeKvCache maxSeqLen column startPos (placed.map fun row => k.slot row.1 row.2)
  (written, placed.map fun row => k.close row.1 row.2 (k.sdpaCausalCached maxSeqLen written row))

def step (maxSeqLen : Nat) (column : Nat → Slot) (row : Hidden × Nat) :
    (Nat → Slot) × (Hidden × Nat) :=
  let written := writeKvCache maxSeqLen column row.2 [k.slot row.1 row.2]
  (written, (k.close row.1 row.2 (k.sdpaCausalCached maxSeqLen written row), row.2))

theorem writeKvCache_nil (maxSeqLen : Nat) (column : Nat → Slot) (startPos : Nat) :
    writeKvCache maxSeqLen column startPos [] = column := by
  simp [writeKvCache]

theorem writeKvCache_apply (maxSeqLen : Nat) (column : Nat → Slot) (startPos : Nat) (rows : List Slot)
    (i : Nat) : writeKvCache maxSeqLen column startPos rows i =
      if startPos ≤ i ∧ i < maxSeqLen then (rows[i - startPos]?).getD (column i) else column i := by
  unfold writeKvCache
  by_cases full : maxSeqLen ≤ startPos
  · rw [if_pos full, if_neg (by omega)]
  · rw [if_neg full]
    by_cases inside : startPos ≤ i ∧ i < startPos + rows.length
    · have some : i - startPos < rows.length := by omega
      by_cases room : i < maxSeqLen
      · rw [if_pos (by split <;> omega), if_pos (by omega)]
      · rw [if_neg (by split <;> omega), if_neg (by omega)]
    · rw [if_neg (by split <;> omega)]
      by_cases from_start : startPos ≤ i
      · have none : rows[i - startPos]? = none := List.getElem?_eq_none (by omega)
        rw [none, Option.getD_none, ite_self]
      · rw [if_neg (by omega)]

/-- A batch is written row by row. -/
theorem writeKvCache_cons (maxSeqLen : Nat) (column : Nat → Slot) (startPos : Nat) (first : Slot)
    (rest : List Slot) : writeKvCache maxSeqLen column startPos (first :: rest) =
      writeKvCache maxSeqLen (writeKvCache maxSeqLen column startPos [first]) (startPos + 1) rest := by
  funext i
  simp only [writeKvCache_apply]
  by_cases inside : startPos ≤ i ∧ i < maxSeqLen
  · rw [if_pos inside, if_pos inside]
    by_cases own : i = startPos
    · subst own
      rw [if_neg (by omega)]
      simp
    · have later : i - startPos = (i - (startPos + 1)) + 1 := by omega
      rw [if_pos (by omega), later]
      simp
  · rw [if_neg inside, if_neg inside, if_neg (by omega)]

/-- Rows written further on are not read. -/
theorem sdpaCausalCached_local (maxSeqLen : Nat) {column other : Nat → Slot} (row : Hidden × Nat)
    (same : ∀ j ≤ row.2, j < maxSeqLen → column j = other j) :
    k.sdpaCausalCached maxSeqLen column row = k.sdpaCausalCached maxSeqLen other row := by
  apply List.foldl_ext
  intro acc j member
  have below := List.mem_range.mp member
  have reads : j ≤ row.2 ∧ j < maxSeqLen := by
    unfold totalKeys at below
    split at below <;> omega
  rw [same j reads.1 reads.2]

theorem writeKvCache_below (maxSeqLen : Nat) (column : Nat → Slot) (startPos : Nat) (rows : List Slot)
    {i : Nat} (below : i < startPos) : writeKvCache maxSeqLen column startPos rows i = column i := by
  rw [writeKvCache_apply, if_neg (by omega)]

theorem scan_step (maxSeqLen : Nat) (column : Nat → Slot) (startPos : Nat) (rows : List Hidden) :
    scan (k.step maxSeqLen) column (rows.zipIdx startPos) =
      ((k.batch maxSeqLen column startPos rows).1,
        (k.batch maxSeqLen column startPos rows).2.zipIdx startPos) := by
  induction rows generalizing column startPos with
  | nil => simp [batch, writeKvCache_nil]
  | cons x rest ih =>
      have whole := writeKvCache_cons maxSeqLen column startPos (k.slot x startPos)
        ((rest.zipIdx (startPos + 1)).map fun row => k.slot row.1 row.2)
      -- the later rows of the batch start past this query
      have own := k.sdpaCausalCached_local maxSeqLen (x, startPos) fun j below _ =>
        writeKvCache_below maxSeqLen (writeKvCache maxSeqLen column startPos [k.slot x startPos])
          (startPos + 1) ((rest.zipIdx (startPos + 1)).map fun row => k.slot row.1 row.2)
          (Nat.lt_succ_of_le below)
      rw [List.zipIdx_cons, scan_cons, ih]
      simp only [batch, step, List.zipIdx_cons, List.map_cons]
      rw [whole, own]

end FullKernel

/-- The last three inputs of the convolution. -/
structure ConvState (Raw : Type) where
  s0 : Raw
  s1 : Raw
  s2 : Raw

structure LinearState (Raw State : Type) where
  conv : ConvState Raw
  delta : State

/-- The state that `zero_linear_state` leaves; the inputs of the convolution are kept. -/
def LinearState.zeroed [Zero State] (state : LinearState Raw State) : LinearState Raw State :=
  { state with delta := 0 }

structure LinearKernel (Hidden Raw Conv State : Type) where
  raw : Hidden → Raw
  /-- The four taps, oldest first, with their weights and the activation. -/
  convolve : Raw → Raw → Raw → Raw → Conv
  /-- One time step of the gated delta rule, then gate and projection, residuals and MLP. -/
  delta : Hidden → Conv → State → State × Hidden

namespace LinearKernel

variable [Zero Raw] (k : LinearKernel Hidden Raw Conv State)

/-- The input `i - 3` steps into the batch; earlier ones are in the state. -/
def tap (state : ConvState Raw) (rows : List Raw) : Nat → Raw
  | 0 => state.s0
  | 1 => state.s1
  | 2 => state.s2
  | i + 3 => (rows[i]?).getD 0

def shift (state : ConvState Raw) (row : Raw) : ConvState Raw := ⟨state.s1, state.s2, row⟩

def convStep (state : ConvState Raw) (row : Raw) : ConvState Raw × Conv :=
  (shift state row, k.convolve state.s0 state.s1 state.s2 row)

/-- One row, or two and more. -/
def causalConv1dSilu (state : ConvState Raw) : List Raw → ConvState Raw × List Conv
  | [] => (state, [])
  | [row] => (shift state row, [k.convolve state.s0 state.s1 state.s2 row])
  | [first, second] => (⟨state.s2, first, second⟩, (List.range 2).map fun t =>
      let taps := tap state [first, second]
      k.convolve (taps t) (taps (t + 1)) (taps (t + 2)) (taps (t + 3)))
  | rows =>
      let taps := tap state rows
      let last := fun back => (rows[rows.length - back]?).getD 0
      (⟨last 3, last 2, last 1⟩, (List.range rows.length).map fun t =>
        k.convolve (taps t) (taps (t + 1)) (taps (t + 2)) (taps (t + 3)))

/-- The windows of four over state and batch, whatever the length of the batch. -/
def windows (state : ConvState Raw) (rows : List Raw) : ConvState Raw × List Conv :=
  let taps := tap state rows
  (⟨taps rows.length, taps (rows.length + 1), taps (rows.length + 2)⟩,
    (List.range rows.length).map fun t =>
      k.convolve (taps t) (taps (t + 1)) (taps (t + 2)) (taps (t + 3)))

theorem causalConv1dSilu_windows (state : ConvState Raw) (rows : List Raw) :
    k.causalConv1dSilu state rows = k.windows state rows := by
  match rows with
  | [] => rfl
  | [row] => rfl
  | [first, second] => rfl
  | first :: second :: third :: rest => simp [causalConv1dSilu, windows, tap]

theorem tap_cons (state : ConvState Raw) (row : Raw) (rest : List Raw) (i : Nat) :
    tap state (row :: rest) (i + 1) = tap (shift state row) rest i := by
  match i with
  | 0 => rfl
  | 1 => rfl
  | 2 => rfl
  | i + 3 => simp [tap]

theorem causalConv1dSilu_scan (state : ConvState Raw) (rows : List Raw) :
    k.causalConv1dSilu state rows = scan k.convStep state rows := by
  rw [causalConv1dSilu_windows]
  refine scan_unique k.convStep k.windows (fun _ => rfl) ?_ state rows
  intro state row rest
  simp only [windows, convStep, List.length_cons, tap_cons, List.range_succ_eq_map, List.map_cons,
    List.map_map, Function.comp_def]
  rfl

variable [Zero State]

/-- The flag zeroes the state once, before the first row. -/
def recurrentGatedDeltaNet (zeroState : Bool) (state : State) (inputs : List (Hidden × Conv)) :
    State × List Hidden :=
  if inputs = [] then (state, [])
  else scan (fun s input => k.delta input.1 input.2 s) (if zeroState then 0 else state) inputs

def batch (zeroState : Bool) (state : LinearState Raw State) (rows : List Hidden) :
    LinearState Raw State × List Hidden :=
  let conv := k.causalConv1dSilu state.conv (rows.map k.raw)
  let done := k.recurrentGatedDeltaNet zeroState state.delta (rows.zip conv.2)
  (⟨conv.1, done.1⟩, done.2)

def step (state : LinearState Raw State) (row : Hidden × Nat) :
    LinearState Raw State × (Hidden × Nat) :=
  let conv := k.convStep state.conv (k.raw row.1)
  let done := k.delta row.1 conv.2 state.delta
  (⟨conv.1, done.1⟩, (done.2, row.2))

/-- The two kernels one after the other are the scan of the step. -/
theorem scan_step (state : LinearState Raw State) (rows : List Hidden) (startPos : Nat) :
    scan k.step state (rows.zipIdx startPos) =
      ((k.batch false state rows).1, (k.batch false state rows).2.zipIdx startPos) := by
  have delta : ∀ (state : State) (inputs : List (Hidden × Conv)),
      k.recurrentGatedDeltaNet false state inputs =
        scan (fun s input => k.delta input.1 input.2 s) state inputs := by
    intro state inputs
    cases inputs <;> rfl
  simp only [batch, causalConv1dSilu_scan, delta]
  induction rows generalizing state startPos with
  | nil => rfl
  | cons x rest ih =>
      rw [List.zipIdx_cons, scan_cons, ih]
      rfl

theorem batch_zero (state : LinearState Raw State) {rows : List Hidden} (some : rows ≠ []) :
    k.batch true state rows = k.batch false state.zeroed rows := by
  have nonempty : rows.zip (k.causalConv1dSilu state.conv (rows.map k.raw)).2 ≠ [] := by
    rw [causalConv1dSilu_scan]
    have positive := List.length_pos_iff.mpr some
    apply List.length_pos_iff.mp
    rw [List.length_zip, scan_length, List.length_map]
    omega
  simp [batch, recurrentGatedDeltaNet, nonempty, LinearState.zeroed]

end LinearKernel

end XInfer.Kernels
