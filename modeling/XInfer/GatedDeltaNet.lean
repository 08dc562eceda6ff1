import XInfer.DeltaRule
import XInfer.Primitives
import XInfer.WorkGroups

/-!
`recurrent_gated_delta_net` of `targets/qwen3_8/linear_attn.cpp`. A work-group has a value head and goes through the
tokens; a lane has a column of the head's state to itself, and the barriers part what the lanes share. Which chunk a
token comes in changes no operation on it, so chunks agree in any arithmetic.
-/

namespace XInfer.GatedDeltaNet

open AttentionKernels ChunkRuns Launches Primitives WorkGroups
open DeviceFloat (less ofInt)
open DeviceExp (exp sqrt)
open DeviceMath (log)
open DeviceLiteral (literal)

section Kernel

/-- The dimensions of a call. -/
structure Shape where
  numVHeads : Int
  numKHeads : Int
  headKDim : Int
  headVDim : Int
  totalChannels : Int
  valueDim : Int
  deriving DecidableEq

def numVHeads : Nat := 48
def numKHeads : Nat := 16
def headKDim : Nat := 128
def headVDim : Nat := 128
def totalChannels : Nat := 10240
def valueDim : Nat := 6144

/-- The dimensions that the kernel is compiled for. -/
def compiled : Shape := ⟨numVHeads, numKHeads, headKDim, headVDim, totalChannels, valueDim⟩

def shapeMismatch (shape : Shape) : Bytes :=
  ascii "recurrent_gated_delta_net: runtime model shape mismatch against compiled kernel dimensions. Expected (" ++
    decimal numVHeads ++ ascii " v_heads, " ++ decimal numKHeads ++ ascii " k_heads, " ++ decimal headKDim ++
    ascii " k_dim, " ++ decimal headVDim ++ ascii " v_dim, " ++ decimal totalChannels ++ ascii " channels, " ++
    decimal valueDim ++ ascii " value_dim), but received (" ++ signedDecimal shape.numVHeads ++ ascii ", " ++
    signedDecimal shape.numKHeads ++ ascii ", " ++ signedDecimal shape.headKDim ++ ascii ", " ++
    signedDecimal shape.headVDim ++ ascii ", " ++ signedDecimal shape.totalChannels ++ ascii ", " ++
    signedDecimal shape.valueDim ++ ascii ")"

structure Inputs (F : Type) where
  qkv : Nat → F
  z : Nat → F
  b : Nat → F
  a : Nat → F
  aLog : Nat → F
  dtBias : Nat → F
  normWeight : Nat → F

/-- What the lanes of a head share of a token. -/
structure HeadToken (F : Type) where
  q : Nat → F
  k : Nat → F
  v : Nat → F
  beta : F
  expG : F

/-- The rows of a head's state are the coordinates of the keys. -/
abbrev HeadState (F : Type) : Type := Nat → Nat → F

variable {F : Type} [DeviceLiteral F]

/-- `shared_inv_std` behind the squares of a vector. -/
def invNorm (x : Nat → F) : F := 1 / sqrt (reduceWorkGroup 8 (fun j => x j * x j) + literal 1 6)

def softplus (a : F) : F := if less (ofInt 20) a then a else log (1 + exp a)

def headToken (inp : Inputs F) (h t : Nat) : HeadToken F :=
  -- three value heads share a key head
  let hK := h / (numVHeads / numKHeads)
  let rawQ := fun j => inp.qkv (t * totalChannels + (hK * headKDim + j))
  let rawK := fun j => inp.qkv (t * totalChannels + (numKHeads * headKDim + (hK * headKDim + j)))
  { q := fun j => rawQ j * invNorm rawQ * literal 8838834764 11
    k := fun j => rawK j * invNorm rawK
    v := fun j => inp.qkv (t * totalChannels + (numKHeads * headKDim * 2 + (h * headVDim + j)))
    beta := 1 / (1 + exp (-inp.b (t * numVHeads + h)))
    expG := exp (-exp (inp.aLog h) * softplus (inp.a (t * numVHeads + h) + inp.dtBias h)) }

/-- The two loops of the lanes over their columns: the state behind the token, and what the query finds in it. -/
def HeadToken.step (tok : HeadToken F) (S : HeadState F) : HeadState F × (Nat → F) :=
  let decayed := fun i j => S i j * tok.expG
  let kvMem (j : Nat) := (List.range 128).foldl (fun sum i => sum + decayed i j * tok.k i) 0
  let delta := fun j => (tok.v j - kvMem j) * tok.beta
  let new := fun i j => decayed i j + tok.k i * delta j
  (new, fun j => (List.range 128).foldl (fun sum i => sum + new i j * tok.q i) 0)

/-- The norm over the lanes, and the gate. -/
def gated (normWeight z attn : Nat → F) (j : Nat) : F :=
  let invStd := 1 / sqrt (reduceWorkGroup 8 (fun j => attn j * attn j) / ofInt 128 + literal 1 6)
  let normed := attn j * invStd * normWeight j
  normed * (z j / (1 + exp (-z j)))

/-- The state of a head behind its first `t` tokens. -/
def stateAfter (inp : Inputs F) (h : Nat) (S : HeadState F) (t : Nat) : HeadState F :=
  (List.range t).foldl (fun S t => ((headToken inp h t).step S).1) S

def headOutput (inp : Inputs F) (h : Nat) (S : HeadState F) (t : Nat) : Nat → F :=
  gated inp.normWeight (fun j => inp.z (t * valueDim + (h * headVDim + j)))
    ((headToken inp h t).step (stateAfter inp h S t)).2

/-- The head's part of the buffer, cleared on demand. -/
def loadState (zeroState : Bool) (stateBuffer : Nat → F) (h : Nat) : HeadState F :=
  if zeroState then fun _ _ => 0 else fun i j => stateBuffer (h * (headKDim * headVDim) + (i * 128 + j))

variable (cast : F → F)

/-- What the output and the state are left with. -/
def recurrentGatedDeltaNetImpl (inp : Inputs F) (out stateBuffer : Nat → F) (seqLen : Nat) (zeroState : Bool)
    (shape : Shape) : Except Exn ((Nat → F) × (Nat → F)) :=
  if seqLen = 0 then .ok (out, stateBuffer)
  else if shape ≠ compiled then .error (.standard (shapeMismatch shape))
  else
    .ok (launch numVHeads (fun h => (List.range seqLen).flatMap fun t => (List.range 128).map fun j =>
        (t * valueDim + (h * 128 + j), cast (headOutput inp h (loadState zeroState stateBuffer h) t j))) out,
      launch numVHeads (fun h => (List.range 128).flatMap fun i => (List.range 128).map fun j =>
        (h * (headKDim * headVDim) + (i * 128 + j),
          stateAfter inp h (loadState zeroState stateBuffer h) seqLen i j)) stateBuffer)

end Kernel

section Heads

variable {F : Type} [DeviceLiteral F] {cast : F → F} {inp : Inputs F} {out stateBuffer : Nat → F} {seqLen : Nat}
  {zeroState : Bool} {result : (Nat → F) × (Nat → F)}

/-- A call over some tokens leaves the outputs and the states of the heads. -/
structure Ran (cast : F → F) (inp : Inputs F) (stateBuffer : Nat → F) (seqLen : Nat) (zeroState : Bool)
    (result : (Nat → F) × (Nat → F)) : Prop where
  output : ∀ t < seqLen, ∀ h < numVHeads, ∀ j < headVDim, result.1 (t * valueDim + (h * headVDim + j)) =
    cast (headOutput inp h (loadState zeroState stateBuffer h) t j)
  state : ∀ h < numVHeads, ∀ i < headKDim, ∀ j < headVDim,
    result.2 (h * (headKDim * headVDim) + (i * headVDim + j)) =
      stateAfter inp h (loadState zeroState stateBuffer h) seqLen i j
  kept : ∀ cell, numVHeads * (headKDim * headVDim) ≤ cell → result.2 cell = stateBuffer cell

theorem lane_lt {h j : Nat} (head : h < numVHeads) (lane : j < headVDim) : h * headVDim + j < valueDim :=
  flat_lt head lane

variable (cast inp out stateBuffer zeroState) in
theorem call_ran (some' : 0 < seqLen) :
    ∃ result, recurrentGatedDeltaNetImpl cast inp out stateBuffer seqLen zeroState compiled = .ok result ∧
      Ran cast inp stateBuffer seqLen zeroState result := by
  unfold recurrentGatedDeltaNetImpl
  rw [if_neg (by omega), if_neg (fun different => different rfl)]
  refine ⟨_, rfl, ?_, ?_, ?_⟩
  · intro t row h head j lane
    dsimp only
    apply launch_here head
    · exact List.mem_flatMap.2 ⟨t, List.mem_range.2 row, List.mem_map.2 ⟨j, List.mem_range.2 lane, rfl⟩⟩
    · intro h' head' store member same
      obtain ⟨t', -, member⟩ := List.mem_flatMap.1 member
      obtain ⟨j', lane', rfl⟩ := List.mem_map.1 member
      have inside := List.mem_range.1 lane'
      obtain ⟨rfl, place⟩ := flat_injective (lane_lt head' inside) (lane_lt head lane) same
      obtain ⟨rfl, rfl⟩ := flat_injective inside lane place
      rfl
  · intro h head i row j lane
    dsimp only
    apply launch_here head
    · exact List.mem_flatMap.2 ⟨i, List.mem_range.2 row, List.mem_map.2 ⟨j, List.mem_range.2 lane, rfl⟩⟩
    · intro h' head' store member same
      obtain ⟨i', row', member⟩ := List.mem_flatMap.1 member
      obtain ⟨j', lane', rfl⟩ := List.mem_map.1 member
      have inside := List.mem_range.1 lane'
      obtain ⟨rfl, place⟩ := flat_injective (flat_lt (List.mem_range.1 row') inside) (flat_lt row lane) same
      obtain ⟨rfl, rfl⟩ := flat_injective inside lane place
      rfl
  · intro cell outside
    dsimp only
    apply launch_other
    intro h head store member same
    obtain ⟨i, row, member⟩ := List.mem_flatMap.1 member
    obtain ⟨j, lane, rfl⟩ := List.mem_map.1 member
    have inside := flat_lt head (flat_lt (List.mem_range.1 row) (List.mem_range.1 lane))
    exact Nat.not_lt.2 outside (same ▸ inside)

end Heads

section Chunks

variable {F : Type} [DeviceLiteral F] {cast : F → F} {inp : Inputs F} {stateBuffer : Nat → F} {zeroState : Bool}

/-- The inputs of the tokens from `offset` on. -/
def Inputs.from (inp : Inputs F) (offset : Nat) : Inputs F :=
  { inp with
    qkv := fun i => inp.qkv (offset * totalChannels + i)
    z := fun i => inp.z (offset * valueDim + i)
    b := fun i => inp.b (offset * numVHeads + i)
    a := fun i => inp.a (offset * numVHeads + i) }

theorem headToken_from (offset h t : Nat) : headToken (inp.from offset) h t = headToken inp h (offset + t) := by
  unfold headToken Inputs.from
  simp only [Nat.add_mul, Nat.add_assoc]

theorem stateAfter_add (h : Nat) (S : HeadState F) (offset t : Nat) :
    stateAfter (inp.from offset) h (stateAfter inp h S offset) t = stateAfter inp h S (offset + t) := by
  unfold stateAfter
  rw [List.range_add, List.foldl_append, List.foldl_map]
  simp only [headToken_from]

theorem headOutput_from (h : Nat) (S : HeadState F) (offset t : Nat) :
    headOutput (inp.from offset) h (stateAfter inp h S offset) t = headOutput inp h S (offset + t) := by
  unfold headOutput
  rw [headToken_from, stateAfter_add]
  unfold Inputs.from
  simp only [Nat.add_mul, Nat.add_assoc]

theorem stateAfter_succ (h : Nat) (S : HeadState F) (t : Nat) :
    stateAfter inp h S (t + 1) = ((headToken inp h t).step (stateAfter inp h S t)).1 := by
  unfold stateAfter
  rw [List.range_succ, List.foldl_append]
  rfl

/-- States that are the same in the head's own part. -/
def Alike (S S' : HeadState F) : Prop := ∀ i < headKDim, ∀ j < headVDim, S i j = S' i j

/-- A lane reads its own column of that part. -/
theorem HeadToken.step_alike (tok : HeadToken F) {S S' : HeadState F} (alike : Alike S S') :
    Alike (tok.step S).1 (tok.step S').1 ∧ ∀ j < headVDim, (tok.step S).2 j = (tok.step S').2 j := by
  have found : ∀ j < headVDim, (List.range 128).foldl (fun sum i => sum + S i j * tok.expG * tok.k i) 0 =
      (List.range 128).foldl (fun sum i => sum + S' i j * tok.expG * tok.k i) 0 := fun j lane =>
    List.foldl_ext _ _ 0 fun sum i member => by rw [alike i (List.mem_range.1 member) j lane]
  constructor
  · intro i row j lane
    dsimp only [HeadToken.step]
    rw [alike i row j lane, found j lane]
  intro j lane
  dsimp only [HeadToken.step]
  refine List.foldl_ext _ _ 0 fun sum i member => ?_
  rw [alike i (List.mem_range.1 member) j lane, found j lane]

variable (inp) in
theorem stateAfter_alike (h : Nat) {S S' : HeadState F} (alike : Alike S S') (t : Nat) :
    Alike (stateAfter inp h S t) (stateAfter inp h S' t) := by
  induction t with
  | zero => exact alike
  | succ t ih =>
      rw [stateAfter_succ, stateAfter_succ]
      exact ((headToken inp h t).step_alike ih).1

theorem headOutput_alike {h : Nat} {S S' : HeadState F} (alike : Alike S S') (t : Nat) {j : Nat} (lane : j < headVDim) :
    headOutput inp h S t j = headOutput inp h S' t j := by
  have found := ((headToken inp h t).step_alike (stateAfter_alike inp h alike t)).2
  unfold headOutput gated
  dsimp only
  rw [found j lane, reduceWorkGroup_congr fun lane inside => by rw [found lane inside]]

variable (inp stateBuffer zeroState) in
/-- The buffer behind the first `offset` tokens; the flag is that of the first chunk. -/
def carried (offset : Nat) : Nat → F := fun cell =>
  if offset = 0 ∨ numVHeads * (headKDim * headVDim) ≤ cell then stateBuffer cell
  else
    let h := cell / (headKDim * headVDim)
    let place := cell % (headKDim * headVDim)
    stateAfter inp h (loadState zeroState stateBuffer h) offset (place / headVDim) (place % headVDim)

theorem carried_zero : carried inp stateBuffer zeroState 0 = stateBuffer := by
  funext cell
  exact if_pos (.inl rfl)

theorem carried_state {offset h i j : Nat} (late : offset ≠ 0) (head : h < numVHeads) (row : i < headKDim)
    (lane : j < headVDim) : carried inp stateBuffer zeroState offset (h * (headKDim * headVDim) + (i * headVDim + j)) =
      stateAfter inp h (loadState zeroState stateBuffer h) offset i j := by
  have place := flat_lt row lane
  have inside := flat_lt head place
  unfold carried
  rw [if_neg (not_or.2 ⟨late, Nat.not_le.2 inside⟩)]
  dsimp only
  rw [flat_div place, flat_mod place, flat_div lane, flat_mod lane]

/-- What a head of a later call finds, and what one of the first call is left with by the flag. -/
theorem loadState_carried {offset h : Nat} (head : h < numVHeads) :
    Alike (loadState (zeroState && offset == 0) (carried inp stateBuffer zeroState offset) h)
      (stateAfter inp h (loadState zeroState stateBuffer h) offset) := by
  intro i row j lane
  by_cases first : offset = 0
  · subst first
    rw [carried_zero]
    cases zeroState <;> rfl
  · have cleared : (zeroState && offset == 0) = false := by simp [first]
    rw [cleared]
    exact carried_state first head row lane

/-- A call from `offset` on that leaves the buffer of the whole sequence. -/
theorem Ran.carried_add {offset seqLen : Nat} (some' : 0 < seqLen) {result : (Nat → F) × (Nat → F)}
    (ran : Ran cast (inp.from offset) (carried inp stateBuffer zeroState offset) seqLen (zeroState && offset == 0) result) :
    result.2 = carried inp stateBuffer zeroState (offset + seqLen) := by
  funext cell
  by_cases outside : numVHeads * (headKDim * headVDim) ≤ cell
  · rw [ran.kept cell outside, carried, if_pos (.inr outside), carried, if_pos (.inr outside)]
  · have width : 0 < headKDim * headVDim := by decide
    have head : cell / (headKDim * headVDim) < numVHeads :=
      Nat.div_lt_of_lt_mul (Nat.mul_comm numVHeads _ ▸ Nat.not_le.1 outside)
    have row : cell % (headKDim * headVDim) / headVDim < headKDim :=
      Nat.div_lt_of_lt_mul (Nat.mul_comm headKDim headVDim ▸ Nat.mod_lt cell width)
    have lane : cell % (headKDim * headVDim) % headVDim < headVDim := Nat.mod_lt _ (by decide)
    have written := ran.state _ head _ row _ lane
    rw [stateAfter_alike _ _ (loadState_carried head) seqLen _ row _ lane, stateAfter_add,
      ← carried_state (show offset + seqLen ≠ 0 by omega) head row lane, Nat.div_add_mod', Nat.div_add_mod'] at written
    exact written

/-- A call on the tokens from `offset` on; the first one may clear the state. -/
def chunkCall (cast : F → F) (inp : Inputs F) (zeroState : Bool) : Call Exn (Nat → F) F :=
  fun offset seqLen out stateBuffer =>
    recurrentGatedDeltaNetImpl cast (inp.from offset) out stateBuffer seqLen (zeroState && offset == 0) compiled

theorem chunkCall_carries {length : Nat} {whole : Nat → F}
    (outputs : ∀ t < length, ∀ h < numVHeads, ∀ j < headVDim, whole (t * valueDim + (h * headVDim + j)) =
      cast (headOutput inp h (loadState zeroState stateBuffer h) t j)) :
    Carries (chunkCall cast inp zeroState) valueDim length whole
      (fun offset buffer => buffer = carried inp stateBuffer zeroState offset) := by
  intro offset seqLen out buffer within before
  subst before
  by_cases empty : seqLen = 0
  · refine ⟨out, _, by rw [chunkCall, recurrentGatedDeltaNetImpl, if_pos empty], by rw [empty, Nat.add_zero], ?_⟩
    intro t row
    omega
  · have some' := Nat.pos_of_ne_zero empty
    obtain ⟨⟨output, after⟩, called, ran⟩ := call_ran cast (inp.from offset) out
      (carried inp stateBuffer zeroState offset) (zeroState && offset == 0) some'
    refine ⟨output, after, called, ran.carried_add some', ?_⟩
    intro t row c column
    -- the column is a lane of a head
    have lane : c % headVDim < headVDim := Nat.mod_lt c (by decide)
    have head : c / headVDim < numVHeads := Nat.div_lt_of_lt_mul (Nat.mul_comm numVHeads headVDim ▸ column)
    have here := ran.output t row _ head _ lane
    rw [headOutput_alike (loadState_carried head) t lane, headOutput_from, Nat.div_add_mod'] at here
    have there := outputs (offset + t) (by omega) _ head _ lane
    rw [Nat.div_add_mod'] at there
    exact here.trans there.symm

/-- The recurrence chunk by chunk is that of the whole sequence, to the last bit. -/
theorem chunks_recur (cast : F → F) (inp : Inputs F) (zeroState : Bool) (stateBuffer out : Nat → F)
    (chunks : List (Chunk F)) :
    ∃ outputs whole final,
      runChunks (chunkCall cast inp zeroState) chunks 0 stateBuffer = .ok (outputs, final) ∧
      recurrentGatedDeltaNetImpl cast inp out stateBuffer (total chunks) zeroState compiled = .ok (whole, final) ∧
      Slices valueDim whole 0 chunks outputs := by
  have all : ∃ whole, recurrentGatedDeltaNetImpl cast inp out stateBuffer (total chunks) zeroState compiled =
        .ok (whole, carried inp stateBuffer zeroState (total chunks)) ∧
      ∀ t < total chunks, ∀ h < numVHeads, ∀ j < headVDim, whole (t * valueDim + (h * headVDim + j)) =
        cast (headOutput inp h (loadState zeroState stateBuffer h) t j) := by
    have same : inp.from 0 = inp := by
      simp only [Inputs.from, Nat.zero_mul, Nat.zero_add]
    by_cases empty : total chunks = 0
    · refine ⟨out, by rw [recurrentGatedDeltaNetImpl, if_pos empty, empty, carried_zero], ?_⟩
      intro t row
      omega
    · obtain ⟨⟨whole, final⟩, called, ran⟩ := call_ran cast inp out stateBuffer zeroState (Nat.pos_of_ne_zero empty)
      have first : Ran cast (inp.from 0) (carried inp stateBuffer zeroState 0) (total chunks) (zeroState && 0 == 0)
          (whole, final) := by
        rw [same, carried_zero, beq_self_eq_true, Bool.and_true]
        exact ran
      have last := first.carried_add (Nat.pos_of_ne_zero empty)
      rw [Nat.zero_add] at last
      obtain rfl : final = _ := last
      exact ⟨whole, called, ran.output⟩
  obtain ⟨whole, called, outputs⟩ := all
  obtain ⟨chunked, final, ran, last, slices⟩ := runChunks_slices (chunkCall_carries outputs) chunks 0 stateBuffer
    (Nat.zero_add _).le carried_zero.symm
  rw [Nat.zero_add] at last
  subst last
  exact ⟨chunked, whole, _, ran, called, slices⟩

end Chunks

end XInfer.GatedDeltaNet
