import XInfer.GatedDeltaNet

/-!
`recurrent_gated_delta_net` in exact arithmetic: the state of a head is a memory under the gated delta rule. Keys lie
within the unit ball, and decays and rates between none and all, so that the state grows no faster than its values.
-/

namespace XInfer.GatedDeltaNet

open AttentionKernels BlockSums CachedAttention ChunkRuns DeltaRule Launches Matrix WorkGroups

section Values

/-- A vector over its length, as far as that is not small. -/
noncomputable def unit {n : Nat} (x : Fin n → ℝ) : Fin n → ℝ :=
  fun i => x i * (Real.sqrt (x ⬝ᵥ x + ((10 ^ 6 : Nat) : ℝ)⁻¹))⁻¹

noncomputable def logistic (x : ℝ) : ℝ := (1 + Real.exp (-x))⁻¹

noncomputable def softplusReal (a : ℝ) : ℝ := if ((20 : Nat) : ℝ) < a then a else Real.log (1 + Real.exp a)

variable (inp : Inputs ℝ) (h t : Nat)

def rawQuery (i : Fin headKDim) : ℝ := inp.qkv (t * totalChannels + (h / 3 * headKDim + i))

def rawKey (i : Fin headKDim) : ℝ := inp.qkv (t * totalChannels + (numKHeads * headKDim + (h / 3 * headKDim + i)))

/-- What a token brings to the memory of a head. -/
noncomputable def ruleToken : Token (Fin headKDim) (Fin headVDim) ℝ where
  decay := Real.exp (-Real.exp (inp.aLog h) * softplusReal (inp.a (t * numVHeads + h) + inp.dtBias h))
  rate := logistic (inp.b (t * numVHeads + h))
  key := unit (rawKey inp h t)
  value j := inp.qkv (t * totalChannels + (numKHeads * headKDim * 2 + (h * headVDim + j)))

noncomputable def query : Fin headKDim → ℝ := fun i =>
  unit (rawQuery inp h t) i * ((8838834764 : Nat) * ((10 ^ 11 : Nat) : ℝ)⁻¹)

noncomputable def tokens (n : Nat) : List (Token (Fin headKDim) (Fin headVDim) ℝ) := (List.range n).map (ruleToken inp h)

/-- The norm over the answer, and the gate. -/
noncomputable def gatedAnswer (normWeight z : Nat → ℝ) (answer : Fin headVDim → ℝ) (j : Fin headVDim) : ℝ :=
  answer j * (Real.sqrt (answer ⬝ᵥ answer * ((headVDim : Nat) : ℝ)⁻¹ + ((10 ^ 6 : Nat) : ℝ)⁻¹))⁻¹ * normWeight j *
    (z j * logistic (z j))

end Values

section Tame

theorem unit_dot {n : Nat} (x : Fin n → ℝ) : unit x ⬝ᵥ unit x ≤ 1 := by
  have squares : 0 ≤ x ⬝ᵥ x := Finset.sum_nonneg fun i _ => mul_self_nonneg (x i)
  have small : 0 < ((10 ^ 6 : Nat) : ℝ)⁻¹ := by positivity
  have positive : 0 < x ⬝ᵥ x + ((10 ^ 6 : Nat) : ℝ)⁻¹ := by linarith
  have scaled : unit x ⬝ᵥ unit x = x ⬝ᵥ x * (x ⬝ᵥ x + ((10 ^ 6 : Nat) : ℝ)⁻¹)⁻¹ := by
    have each : ∀ i, unit x i * unit x i = x i * x i * (x ⬝ᵥ x + ((10 ^ 6 : Nat) : ℝ)⁻¹)⁻¹ := by
      intro i
      rw [unit, mul_mul_mul_comm, ← mul_inv, Real.mul_self_sqrt positive.le]
    rw [dotProduct, Finset.sum_congr rfl fun i _ => each i, ← Finset.sum_mul]
    rfl
  rw [scaled, ← div_eq_mul_inv]
  exact (div_le_one positive).2 (by linarith)

theorem logistic_between (x : ℝ) : 0 ≤ logistic x ∧ logistic x ≤ 1 := by
  have positive : 0 < Real.exp (-x) := Real.exp_pos _
  constructor
  · exact inv_nonneg.2 (by linarith)
  · exact inv_le_one_of_one_le₀ (by linarith)

theorem softplusReal_nonneg (a : ℝ) : 0 ≤ softplusReal a := by
  unfold softplusReal
  split
  next large => exact (Nat.cast_nonneg 20).trans large.le
  next => exact Real.log_nonneg (by linarith [Real.exp_pos a])

theorem ruleToken_tame (inp : Inputs ℝ) (h t : Nat) : (ruleToken inp h t).Tame where
  decay := by
    refine ⟨(Real.exp_pos _).le, Real.exp_le_one_iff.2 ?_⟩
    have positive := mul_nonneg (Real.exp_pos (inp.aLog h)).le
      (softplusReal_nonneg (inp.a (t * numVHeads + h) + inp.dtBias h))
    linarith
  rate := logistic_between _
  key := unit_dot _

end Tame

section Exact

/-- A head's state as the memory. -/
def asMatrix (S : HeadState ℝ) : Matrix (Fin headKDim) (Fin headVDim) ℝ := Matrix.of fun i j => S i j

/-- The part of the buffer that is head `h`'s. -/
def stateMatrix (buffer : Nat → ℝ) (h : Nat) : Matrix (Fin headKDim) (Fin headVDim) ℝ :=
  Matrix.of fun i j => buffer (h * (headKDim * headVDim) + (i * headVDim + j))

def startMatrix (zeroState : Bool) (buffer : Nat → ℝ) (h : Nat) : Matrix (Fin headKDim) (Fin headVDim) ℝ :=
  if zeroState then 0 else stateMatrix buffer h

theorem asMatrix_loadState (zeroState : Bool) (buffer : Nat → ℝ) (h : Nat) :
    asMatrix (loadState zeroState buffer h) = startMatrix zeroState buffer h := by
  cases zeroState <;> rfl

theorem foldl_fin (n : Nat) (f : Nat → ℝ) : (List.range n).foldl (fun sum i => sum + f i) 0 = ∑ i : Fin n, f i := by
  rw [foldl_range, zero_add, Finset.sum_range]

theorem invNorm_eq (x : Nat → ℝ) : invNorm x =
    (Real.sqrt ((fun i : Fin headKDim => x i) ⬝ᵥ (fun i : Fin headKDim => x i) + ((10 ^ 6 : Nat) : ℝ)⁻¹))⁻¹ := by
  have squares := reduceWorkGroup_sum 8 (by decide) fun j => x j * x j
  unfold invNorm
  rw [squares, Finset.sum_range]
  refine Eq.trans (one_div _) (congrArg (fun eps => (Real.sqrt (_ + eps))⁻¹) ?_)
  exact (congrArg (· * _) Nat.cast_one).trans (one_mul _)

theorem softplus_eq (a : ℝ) : softplus a = softplusReal a := by
  have threshold : (((20 : Nat) : Int) : ℝ) = ((20 : Nat) : ℝ) := Int.cast_natCast 20
  unfold softplus softplusReal
  by_cases large : ((20 : Nat) : ℝ) < a
  · rw [if_pos large]
    exact if_pos (decide_eq_true (lt_of_eq_of_lt threshold large))
  · rw [if_neg large]
    exact if_neg fun above => large (lt_of_eq_of_lt threshold.symm (of_decide_eq_true above))

/-- What the lanes share is what the rule asks for. -/
structure Matches (tok : HeadToken ℝ) (rule : Token (Fin headKDim) (Fin headVDim) ℝ) (query : Fin headKDim → ℝ) : Prop where
  decay : tok.expG = rule.decay
  rate : tok.beta = rule.rate
  key : ∀ i : Fin headKDim, tok.k i = rule.key i
  value : ∀ j : Fin headVDim, tok.v j = rule.value j
  query : ∀ i : Fin headKDim, tok.q i = query i

theorem headToken_matches (inp : Inputs ℝ) (h t : Nat) : Matches (headToken inp h t) (ruleToken inp h t) (query inp h t) where
  decay := congrArg (fun a => Real.exp (-Real.exp (inp.aLog h) * a)) (softplus_eq _)
  rate := one_div _
  key i := congrArg (rawKey inp h t i * ·) (invNorm_eq _)
  value _ := rfl
  query i := congrArg (fun inverse => rawQuery inp h t i * inverse * _) (invNorm_eq _)

variable {tok : HeadToken ℝ} {rule : Token (Fin headKDim) (Fin headVDim) ℝ} {query : Fin headKDim → ℝ}

theorem Matches.step (agree : Matches tok rule query) (S : HeadState ℝ) :
    asMatrix (tok.step S).1 = rule.update (asMatrix S) ∧
      ∀ j : Fin headVDim, (tok.step S).2 j = (query ᵥ* rule.update (asMatrix S)) j := by
  have recalled : ∀ j : Fin headVDim, (List.range 128).foldl (fun sum i => sum + S i j * tok.expG * tok.k i) 0 =
      rule.recall (asMatrix S) j := by
    intro j
    rw [foldl_fin 128 fun i => S i j * tok.expG * tok.k i, Token.recall, vecMul, dotProduct]
    refine Finset.sum_congr rfl fun i _ => ?_
    rw [agree.decay, agree.key i, mul_comm, mul_comm (S i j)]
    rfl
  have states : asMatrix (tok.step S).1 = rule.update (asMatrix S) := by
    ext i j
    rw [Token.update_apply, ← recalled, ← agree.decay, ← agree.rate, ← agree.key, ← agree.value, mul_comm tok.expG,
      mul_comm tok.beta]
    rfl
  refine ⟨states, fun j => ?_⟩
  have found := foldl_fin 128 fun i => (tok.step S).1 i j * tok.q i
  rw [← states]
  dsimp only [HeadToken.step] at found ⊢
  rw [found, vecMul, dotProduct]
  refine Finset.sum_congr rfl fun i _ => ?_
  rw [← agree.query i, mul_comm]
  rfl

variable (inp : Inputs ℝ)

theorem stateAfter_run (h : Nat) (S : HeadState ℝ) (t : Nat) :
    asMatrix (stateAfter inp h S t) = run (tokens inp h t) (asMatrix S) := by
  induction t with
  | zero => rfl
  | succ t ih =>
      rw [stateAfter_succ, ((headToken_matches inp h t).step _).1, ih, tokens, tokens, List.range_succ, List.map_append, run,
        run, List.foldl_append]
      rfl

/-- The answer that the query of a token finds in the memory behind it. -/
noncomputable def answer (h : Nat) (start : Matrix (Fin headKDim) (Fin headVDim) ℝ) (t : Nat) : Fin headVDim → ℝ :=
  GatedDeltaNet.query inp h t ᵥ* run (tokens inp h (t + 1)) start

theorem gated_eq (normWeight z attn : Nat → ℝ) (j : Fin headVDim) :
    gated normWeight z attn j = gatedAnswer normWeight z (fun j => attn j) j := by
  have squares := reduceWorkGroup_sum 8 (by decide) fun j => attn j * attn j
  have mean : (∑ j ∈ Finset.range 128, attn j * attn j) / (((128 : Nat) : Int) : ℝ) + ((1 : Nat) : ℝ) * ((10 ^ 6 : Nat) : ℝ)⁻¹ =
      (fun j : Fin headVDim => attn j) ⬝ᵥ (fun j : Fin headVDim => attn j) * ((headVDim : Nat) : ℝ)⁻¹ +
        ((10 ^ 6 : Nat) : ℝ)⁻¹ := by
    rw [Finset.sum_range, Int.cast_natCast, div_eq_mul_inv, Nat.cast_one, one_mul]
    rfl
  unfold gated gatedAnswer
  dsimp only
  rw [squares]
  refine Eq.trans (congrArg (fun mean => attn j * (1 / Real.sqrt mean) * normWeight j * (z j / (1 + Real.exp (-z j)))) mean) ?_
  rw [one_div, div_eq_mul_inv]
  rfl

theorem headOutput_eq (zeroState : Bool) (buffer : Nat → ℝ) (h t : Nat) (j : Fin headVDim) :
    headOutput inp h (loadState zeroState buffer h) t j = gatedAnswer inp.normWeight
      (fun j => inp.z (t * valueDim + (h * headVDim + j))) (answer inp h (startMatrix zeroState buffer h) t) j := by
  have found : (fun j : Fin headVDim => ((headToken inp h t).step (stateAfter inp h (loadState zeroState buffer h) t)).2 j) =
      answer inp h (startMatrix zeroState buffer h) t := by
    funext j
    have step := (headToken_matches inp h t).step (stateAfter inp h (loadState zeroState buffer h) t)
    rw [step.2, ← step.1, ← stateAfter_succ, stateAfter_run, asMatrix_loadState]
    rfl
  rw [headOutput, gated_eq, found]

variable (out stateBuffer : Nat → ℝ)

/-- A call is the gated delta rule in each head. -/
theorem recurrent_delta_rule {seqLen : Nat} (some' : 0 < seqLen) (zeroState : Bool) :
    ∃ after state, recurrentGatedDeltaNetImpl id inp out stateBuffer seqLen zeroState compiled = .ok (after, state) ∧
      ∀ h < numVHeads,
        stateMatrix state h = run (tokens inp h seqLen) (startMatrix zeroState stateBuffer h) ∧
        ∀ t < seqLen, ∀ j : Fin headVDim, after (t * valueDim + (h * headVDim + j)) =
          gatedAnswer inp.normWeight (fun j => inp.z (t * valueDim + (h * headVDim + j)))
            (answer inp h (startMatrix zeroState stateBuffer h) t) j := by
  obtain ⟨⟨after, state⟩, called, ran⟩ := call_ran id inp out stateBuffer zeroState some'
  refine ⟨after, state, called, fun h head => ⟨?_, fun t row j => ?_⟩⟩
  · rw [← asMatrix_loadState, ← stateAfter_run]
    ext i j
    exact ran.state h head i i.isLt j j.isLt
  · rw [← headOutput_eq]
    exact ran.output t row h head j j.isLt

/-- One token that finds the state of the call before it. -/
theorem recurrent_delta_rule_single :
    let inp : Inputs ℝ := ⟨fun i => i, fun i => i, fun _ => 1, fun _ => 1, fun _ => 0, fun _ => 0, fun _ => 1⟩
    ∃ after state, recurrentGatedDeltaNetImpl id inp (fun _ => 0) (fun _ => 1) 1 false compiled = .ok (after, state) ∧
      ∀ h < numVHeads,
        stateMatrix state h = run (tokens inp h 1) (startMatrix false (fun _ => 1) h) ∧
        ∀ t < 1, ∀ j : Fin headVDim, after (t * valueDim + (h * headVDim + j)) =
          gatedAnswer inp.normWeight (fun j => inp.z (t * valueDim + (h * headVDim + j)))
            (answer inp h (startMatrix false (fun _ => 1) h) t) j :=
  recurrent_delta_rule _ _ _ (by decide) false

theorem columnLength_start (zeroState : Bool) (h : Nat) (j : Fin headVDim) :
    columnLength (startMatrix zeroState stateBuffer h) j ≤ columnLength (stateMatrix stateBuffer h) j := by
  cases zeroState with
  | false => exact le_refl _
  | true =>
      have empty : columnLength (startMatrix true stateBuffer h) j = 0 := by
        rw [columnLength_eq]
        exact norm_zero
      rw [empty]
      exact columnLength_nonneg _ _

/-- Through any run of calls, a column of a state is no longer than at the start and the values it was given. -/
theorem state_bounded (zeroState : Bool) (chunks : List (Chunk ℝ)) :
    ∃ outputs final, runChunks (chunkCall id inp zeroState) chunks 0 stateBuffer = .ok (outputs, final) ∧
      ∀ h < numVHeads, ∀ j : Fin headVDim, columnLength (stateMatrix final h) j ≤
        columnLength (stateMatrix stateBuffer h) j + ∑ t ∈ Finset.range (total chunks), |(ruleToken inp h t).value j| := by
  obtain ⟨outputs, whole, final, ran, called, -⟩ := chunks_recur id inp zeroState stateBuffer (fun _ => 0) chunks
  refine ⟨outputs, final, ran, fun h head j => ?_⟩
  by_cases empty : total chunks = 0
  · -- nothing ran, and the state is the one at the start
    rw [empty, recurrentGatedDeltaNetImpl, if_pos rfl] at called
    cases called
    rw [empty, Finset.sum_range_zero, add_zero]
  · obtain ⟨after, state, agrees, heads⟩ :=
      recurrent_delta_rule inp (fun _ => 0) stateBuffer (Nat.pos_of_ne_zero empty) zeroState
    obtain ⟨-, rfl⟩ : whole = after ∧ final = state := Prod.mk.inj (Except.ok.inj (called.symm.trans agrees))
    have tame : ∀ tok ∈ tokens inp h (total chunks), tok.Tame := by
      intro tok member
      obtain ⟨t, -, rfl⟩ := List.mem_map.1 member
      exact ruleToken_tame inp h t
    have bound := columnLength_run tame (startMatrix zeroState stateBuffer h) j
    rw [(heads h head).1]
    refine bound.trans (add_le_add (columnLength_start stateBuffer zeroState h j) (le_of_eq ?_))
    rw [tokens, List.map_map]
    exact sum_map_range _ _

end Exact

end XInfer.GatedDeltaNet
