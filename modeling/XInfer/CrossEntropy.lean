import XInfer.ByteString
import XInfer.CachedAttention
import XInfer.TreeReduction
import Mathlib.Algebra.Order.BigOperators.Group.Finset

/-!
`cross_entropy_loss` of `ops/eval.cpp`: a group of 256 lanes for each position, which go through the row in steps of
their number, and a sum on the host. What `malloc_shared` answers is given; `none` is the null pointer. Over exact
reals the losses are the negative logarithms of the softmax.
-/

namespace XInfer.CrossEntropy

open Primitives ByteString AttentionKernels BlockSums Launches TreeReduction
open DeviceFloat (less ofInt)
open DeviceExp (exp)
open DeviceMath (log)

def VOCAB_WG_SIZE : Nat := 256

structure CrossEntropyResult (F : Type) where
  totalLoss : F
  numTokens : Nat
  perplexity : F
  perTokenLoss : List F
  perTokenRank : List Int

section Kernel

variable {F : Type} [DeviceMath F]

/-- Before a loss is computed. -/
def noTokens : CrossEntropyResult F := ⟨0, 0, 0, [], []⟩

variable (row : Nat → F) (vSize : Nat)

/-- The larger one, where `none` is minus infinity. -/
def larger (own other : Option F) : Option F :=
  match own, other with
  | own, none => own
  | none, some other => some other
  | some own, some other => if less own other then some other else some own

def threadMax (localId : Nat) : Option F :=
  (strided VOCAB_WG_SIZE vSize localId).foldl (fun threadMax v => larger threadMax (some (row v))) none

/-- The first lane always has a logit, and then the default is not taken. -/
def rowMax : F := (reduce larger 8 (threadMax row vSize)).getD 0

def threadSum (rowMax : F) (localId : Nat) : F :=
  (strided VOCAB_WG_SIZE vSize localId).foldl (fun threadSum v => threadSum + exp (row v - rowMax)) 0

def logSumExp (rowMax : F) : F :=
  let slmSum := reduce (· + ·) 8 (threadSum row vSize rowMax)
  log (if less 0 slmSum then slmSum else 1 / ofInt (10 ^ 12))

def threadRank (targetLogit : F) (localId : Nat) : Int :=
  (strided VOCAB_WG_SIZE vSize localId).foldl
    (fun threadRank v => threadRank + if less targetLogit (row v) then 1 else 0) 0

def logProb (targetLogit : F) : F :=
  let rowMax := rowMax row vSize
  (targetLogit - rowMax) - logSumExp row vSize rowMax

/-- What a group stores as the loss, with the check of the target. -/
def groupLoss (targetId : Int) : F :=
  if targetId < 0 ∨ vSize ≤ targetId then 0 else -logProb row vSize (row targetId.toNat)

/-- What it stores as the rank. -/
def groupRank (targetId : Int) : Int :=
  if targetId < 0 ∨ vSize ≤ targetId then -1
  else reduce (· + ·) 8 (threadRank row vSize (row targetId.toNat))

variable (logits : Nat → F) (tokenIds : Nat → Int) (vocabSize : Nat)

/-- The buffers behind the kernel. -/
def perPosLoss (numPositions : Nat) : (Nat → F) → Nat → F :=
  launch numPositions fun pos =>
    [(pos, groupLoss (fun v => logits (pos * vocabSize + v)) vocabSize (tokenIds (pos + 1)))]

def perPosRank (numPositions : Nat) : (Nat → Int) → Nat → Int :=
  launch numPositions fun pos =>
    [(pos, groupRank (fun v => logits (pos * vocabSize + v)) vocabSize (tokenIds (pos + 1)))]

/-- The sums on the host. -/
def hostReduction (numPositions : Nat) (collectPerToken : Bool) (dPerPosLoss : Nat → F)
    (dPerPosRank : Option (Nat → Int)) : CrossEntropyResult F :=
  let totalLoss := (List.range numPositions).foldl (fun totalLoss i => totalLoss + dPerPosLoss i) 0
  { totalLoss
    numTokens := numPositions
    perplexity := exp (totalLoss / ofInt numPositions)
    perTokenLoss := if collectPerToken then (List.range numPositions).map dPerPosLoss else []
    perTokenRank :=
      if collectPerToken then (List.range numPositions).map fun i => match dPerPosRank with
        | some dPerPosRank => dPerPosRank i
        | none => -1
      else [] }

/-- `lossBuffer` and `rankBuffer` are what the two allocations give. -/
def crossEntropyLoss (logits : Option (Nat → F)) (tokenIds : Option (Nat → Int)) (seqLen vocabSize : Nat)
    (collectPerToken : Bool) (lossBuffer : Option (Nat → F)) (rankBuffer : Option (Nat → Int)) :
    Except Exn (CrossEntropyResult F) :=
  if seqLen ≤ 1 ∨ vocabSize = 0 then .ok noTokens
  else match logits, tokenIds with
    | some logits, some tokenIds =>
        let numPositions := seqLen - 1
        match lossBuffer with
        | none => .error (.standard (ascii
            "cross_entropy_loss: Failed to allocate per-position loss buffer (" ++
              decimal (numPositions * 4 % 2 ^ 64) ++ ascii " bytes)"))
        | some lossBuffer =>
            let dPerPosLoss := perPosLoss logits tokenIds vocabSize numPositions lossBuffer
            if collectPerToken then
              match rankBuffer with
              | none => .error (.standard (ascii "cross_entropy_loss: Failed to allocate per-position rank buffer"))
              | some rankBuffer =>
                  .ok (hostReduction numPositions collectPerToken dPerPosLoss
                    (some (perPosRank logits tokenIds vocabSize numPositions rankBuffer)))
            else .ok (hostReduction numPositions collectPerToken dPerPosLoss none)
    | _, _ => .ok noTokens

end Kernel

section Exact

/-- The softmax of a row. -/
noncomputable def softmax (row : Nat → ℝ) (vocabSize v : Nat) : ℝ :=
  Real.exp (row v) / ∑ w ∈ Finset.range vocabSize, Real.exp (row w)

/-- How many logits are above the one of the target. -/
noncomputable def rank (row : Nat → ℝ) (vocabSize target : Nat) : Nat :=
  ((Finset.range vocabSize).filter fun v => row target < row v).card

variable {row : Nat → ℝ} {vSize : Nat}

/-- Sums of lanes that are reduced are sums of rows. -/
theorem reduced_sum {M : Type} [AddCommMonoid M] (f : Nat → M) (vSize : Nat) :
    reduce (· + ·) 8 (fun localId => (strided VOCAB_WG_SIZE vSize localId).foldl (fun acc v => acc + f v) 0) =
      ∑ v ∈ Finset.range vSize, f v := by
  simp only [reduce_sum, foldl_sum, zero_add]
  exact sum_strided f (by decide) vSize

theorem logSumExp_eq (filled : 0 < vSize) (rowMax : ℝ) :
    logSumExp row vSize rowMax = Real.log (∑ v ∈ Finset.range vSize, Real.exp (row v - rowMax)) := by
  have total : reduce (· + ·) 8 (threadSum row vSize rowMax) = ∑ v ∈ Finset.range vSize, Real.exp (row v - rowMax) :=
    reduced_sum (fun v => Real.exp (row v - rowMax)) vSize
  have positive : 0 < ∑ v ∈ Finset.range vSize, Real.exp (row v - rowMax) :=
    Finset.sum_pos (fun v _ => Real.exp_pos _) (Finset.nonempty_range_iff.2 filled.ne')
  unfold logSumExp
  dsimp only
  rw [total]
  exact congrArg Real.log (if_pos (decide_eq_true positive))

variable (row) in
/-- Whatever is taken off all logits cancels. -/
theorem logProb_eq (filled : 0 < vSize) (v : Nat) : logProb row vSize (row v) = Real.log (softmax row vSize v) := by
  have positive : 0 < ∑ w ∈ Finset.range vSize, Real.exp (row w) :=
    Finset.sum_pos (fun w _ => Real.exp_pos _) (Finset.nonempty_range_iff.2 filled.ne')
  unfold logProb
  dsimp only
  rw [logSumExp_eq filled]
  generalize rowMax row vSize = shift
  have scaled : ∑ w ∈ Finset.range vSize, Real.exp (row w - shift) =
      (∑ w ∈ Finset.range vSize, Real.exp (row w)) / Real.exp shift := by
    simp only [Real.exp_sub, Finset.sum_div]
  calc row v - shift - Real.log (∑ w ∈ Finset.range vSize, Real.exp (row w - shift))
      = row v - shift - (Real.log (∑ w ∈ Finset.range vSize, Real.exp (row w)) - shift) := by
        rw [scaled, Real.log_div positive.ne' (Real.exp_pos _).ne', Real.log_exp]
    _ = row v - Real.log (∑ w ∈ Finset.range vSize, Real.exp (row w)) := by ring
    _ = Real.log (softmax row vSize v) := by
        rw [softmax, Real.log_div (Real.exp_pos _).ne' positive.ne', Real.log_exp]

theorem threadRanks_eq (target : Nat) :
    reduce (· + ·) 8 (threadRank row vSize (row target)) = (rank row vSize target : Int) := by
  refine (reduced_sum (fun v => if less (row target) (row v) then 1 else 0) vSize).trans ?_
  have compared : ∀ v, less (row target) (row v) = decide (row target < row v) := fun v => rfl
  simp only [compared, decide_eq_true_eq]
  rw [rank, Finset.card_filter, Nat.cast_sum]
  simp only [Nat.cast_ite, Nat.cast_one, Nat.cast_zero]

/-! The maximum that is taken off is one of the row, so no exponential is above one. -/

/-- In the order that has minus infinity below all. -/
abbrev ordered (max : Option ℝ) : WithBot ℝ := max

theorem larger_above (own other : Option ℝ) :
    ordered own ≤ ordered (larger own other) ∧ ordered other ≤ ordered (larger own other) := by
  cases own with
  | none =>
      have same : ordered (larger none other) = ordered other := by cases other <;> rfl
      rw [same]
      exact ⟨bot_le, le_refl _⟩
  | some own =>
      cases other with
      | none => exact ⟨le_refl _, bot_le⟩
      | some other =>
          unfold larger
          dsimp only
          split
          next greater => exact ⟨WithBot.coe_le_coe.2 (of_decide_eq_true greater).le, le_refl _⟩
          next notGreater =>
            exact ⟨le_refl _, WithBot.coe_le_coe.2 (not_lt.1 fun greater => notGreater (decide_eq_true greater))⟩

/-- Minus infinity, or a logit of the row. -/
def Found (row : Nat → ℝ) (vSize : Nat) (max : Option ℝ) : Prop := ∀ logit ∈ max, ∃ v < vSize, logit = row v

theorem larger_found {own other : Option ℝ} (first : Found row vSize own) (second : Found row vSize other) :
    Found row vSize (larger own other) := by
  cases own with
  | none => cases other <;> assumption
  | some own =>
      cases other with
      | none => exact first
      | some other =>
          unfold larger
          dsimp only
          split
          · exact second
          · exact first

theorem threadMax_found (localId : Nat) : Found row vSize (threadMax row vSize localId) := by
  apply List.foldlRecOn (motive := Found row vSize)
  · exact fun _ absent => nomatch absent
  · intro max found v member
    apply larger_found found
    intro logit same
    exact ⟨v, ((mem_strided (by decide)).1 member).1, (Option.some.inj same).symm⟩

theorem rowMax_greatest (filled : 0 < vSize) :
    (∃ v < vSize, rowMax row vSize = row v) ∧ ∀ v < vSize, row v ≤ rowMax row vSize := by
  have above : ∀ v < vSize, ordered (some (row v)) ≤ ordered (reduce larger 8 (threadMax row vSize)) := by
    intro v inside
    have lane : v % VOCAB_WG_SIZE < VOCAB_WG_SIZE := Nat.mod_lt v (by decide)
    have visited : v ∈ strided VOCAB_WG_SIZE vSize (v % VOCAB_WG_SIZE) := (mem_strided_lane lane).2 ⟨inside, rfl⟩
    have own : ordered (some (row v)) ≤ ordered (threadMax row vSize (v % VOCAB_WG_SIZE)) :=
      (le_foldl ordered larger_above (strided VOCAB_WG_SIZE vSize (v % VOCAB_WG_SIZE)) (fun v => some (row v))
        none).2 v visited
    have early : v % VOCAB_WG_SIZE < 2 ^ 8 := lane
    exact own.trans (le_reduce ordered larger_above early)
  have found : Found row vSize (reduce larger 8 (threadMax row vSize)) :=
    reduce_first (fun _ _ => larger_found) (fun _ _ => larger_found) threadMax_found (threadMax_found 0)
  unfold rowMax
  cases kept : reduce larger 8 (threadMax row vSize) with
  | none =>
      -- the first logit is above minus infinity
      have first := above 0 filled
      rw [kept] at first
      exact absurd (WithBot.bot_lt_coe (row 0)) (not_lt.2 first)
  | some logit =>
      rw [kept] at above found
      constructor
      · exact found logit rfl
      · exact fun v inside => WithBot.coe_le_coe.1 (above v inside)

variable (logits : Nat → ℝ) (tokenIds : Nat → Int) {vocabSize numPositions pos : Nat}

theorem perPosLoss_here (inside : pos < numPositions) {target : Nat} (token : tokenIds (pos + 1) = target)
    (known : target < vocabSize) (dPerPosLoss : Nat → ℝ) :
    perPosLoss logits tokenIds vocabSize numPositions dPerPosLoss pos =
      -Real.log (softmax (fun v => logits (pos * vocabSize + v)) vocabSize target) := by
  have written := each_here inside
    (fun pos => groupLoss (fun v => logits (pos * vocabSize + v)) vocabSize (tokenIds (pos + 1))) dPerPosLoss
  rw [perPosLoss, written, token, groupLoss, if_neg (by omega), Int.toNat_natCast]
  exact congrArg _ (logProb_eq (fun v => logits (pos * vocabSize + v)) (Nat.zero_lt_of_lt known) target)

theorem perPosRank_here (inside : pos < numPositions) {target : Nat} (token : tokenIds (pos + 1) = target)
    (known : target < vocabSize) (dPerPosRank : Nat → Int) :
    perPosRank logits tokenIds vocabSize numPositions dPerPosRank pos =
      (rank (fun v => logits (pos * vocabSize + v)) vocabSize target : Int) := by
  have written := each_here inside
    (fun pos => groupRank (fun v => logits (pos * vocabSize + v)) vocabSize (tokenIds (pos + 1))) dPerPosRank
  rw [perPosRank, written, token, groupRank, if_neg (by omega), Int.toNat_natCast]
  exact threadRanks_eq target

/-- The loss of a position by the definition. -/
noncomputable def negLogLikelihood (vocabSize pos : Nat) : ℝ :=
  -Real.log (softmax (fun v => logits (pos * vocabSize + v)) vocabSize (tokenIds (pos + 1)).toNat)

/-- The rank of its token by the definition. -/
noncomputable def tokenRank (vocabSize pos : Nat) : Int :=
  rank (fun v => logits (pos * vocabSize + v)) vocabSize (tokenIds (pos + 1)).toNat

theorem crossEntropyLoss_exact {seqLen : Nat} (positions : 2 ≤ seqLen) (filled : 1 ≤ vocabSize)
    (known : ∀ i < seqLen, 0 ≤ tokenIds i ∧ tokenIds i < vocabSize) (collectPerToken : Bool) (lossBuffer : Nat → ℝ)
    (rankBuffer : Nat → Int) :
    crossEntropyLoss (some logits) (some tokenIds) seqLen vocabSize collectPerToken (some lossBuffer) (some rankBuffer) =
      .ok
        { totalLoss := ∑ i ∈ Finset.range (seqLen - 1), negLogLikelihood logits tokenIds vocabSize i
          numTokens := seqLen - 1
          perplexity := Real.exp
            ((∑ i ∈ Finset.range (seqLen - 1), negLogLikelihood logits tokenIds vocabSize i) / ((seqLen - 1 : Nat) : ℝ))
          perTokenLoss := if collectPerToken then
            (List.range (seqLen - 1)).map (negLogLikelihood logits tokenIds vocabSize) else []
          perTokenRank := if collectPerToken then
            (List.range (seqLen - 1)).map (tokenRank logits tokenIds vocabSize) else [] } := by
  unfold crossEntropyLoss
  rw [if_neg (by omega)]
  dsimp only
  -- from here on only the contents of the two buffers matter
  generalize final : perPosLoss logits tokenIds vocabSize (seqLen - 1) lossBuffer = dPerPosLoss
  generalize finalRank : perPosRank logits tokenIds vocabSize (seqLen - 1) rankBuffer = dPerPosRank
  have targets : ∀ i < seqLen - 1, ∃ target : Nat, tokenIds (i + 1) = target ∧ target < vocabSize := by
    intro i inside
    obtain ⟨nonneg, below⟩ := known (i + 1) (by omega)
    obtain ⟨target, token⟩ := Int.eq_ofNat_of_zero_le nonneg
    exact ⟨target, token, by omega⟩
  have losses : ∀ i < seqLen - 1, dPerPosLoss i = negLogLikelihood logits tokenIds vocabSize i := by
    intro i inside
    obtain ⟨target, token, below⟩ := targets i inside
    rw [← final, perPosLoss_here logits tokenIds inside token below, negLogLikelihood, token, Int.toNat_natCast]
  have ranks : ∀ i < seqLen - 1, dPerPosRank i = tokenRank logits tokenIds vocabSize i := by
    intro i inside
    obtain ⟨target, token, below⟩ := targets i inside
    rw [← finalRank, perPosRank_here logits tokenIds inside token below, tokenRank, token, Int.toNat_natCast]
  have total : (List.range (seqLen - 1)).foldl (fun totalLoss i => totalLoss + dPerPosLoss i) 0 =
      ∑ i ∈ Finset.range (seqLen - 1), negLogLikelihood logits tokenIds vocabSize i :=
    ((foldl_range dPerPosLoss (seqLen - 1) 0).trans (zero_add _)).trans
      (Finset.sum_congr rfl fun i member => losses i (Finset.mem_range.1 member))
  have lossList : (List.range (seqLen - 1)).map dPerPosLoss =
      (List.range (seqLen - 1)).map (negLogLikelihood logits tokenIds vocabSize) :=
    List.map_congr_left fun i member => losses i (List.mem_range.1 member)
  have rankList : (List.range (seqLen - 1)).map dPerPosRank =
      (List.range (seqLen - 1)).map (tokenRank logits tokenIds vocabSize) :=
    List.map_congr_left fun i member => ranks i (List.mem_range.1 member)
  have count : (ofInt ((seqLen - 1 : Nat) : Int) : ℝ) = ((seqLen - 1 : Nat) : ℝ) := Int.cast_natCast _
  cases collectPerToken <;> simp only [hostReduction, total, lossList, rankList, count] <;> rfl

/-- Two positions over a vocabulary that is smaller than a group. -/
theorem crossEntropyLoss_small : ∃ result, crossEntropyLoss (some fun i => (i : ℝ)) (some fun _ => 1) 3 5 true
    (some fun _ => 7) (some fun _ => 7) = .ok result ∧ result.numTokens = 2 ∧
      result.perTokenRank = (List.range 2).map (tokenRank (fun i => (i : ℝ)) (fun _ => 1) 5) :=
  ⟨_, crossEntropyLoss_exact _ _ (by decide) (by decide) (fun _ _ => by decide) true _ _, rfl, rfl⟩

end Exact

end XInfer.CrossEntropy
