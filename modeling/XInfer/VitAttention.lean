import XInfer.CachedAttention

/-!
`vit_attn` of `ops/vit.cpp`. The buffers that have to be there are, and none is another one; the query value of the
item's own channel is left out, since nothing reads it. Each item projects its own channel alone, so over exact reals
the block is multi-head attention for the projections that are diagonal.
-/

namespace XInfer.VitAttention

open AttentionKernels BlockSums CachedAttention Launches OnlineSoftmax
open DeviceFloat (less ofInt half)
open DeviceExp (exp sqrt)

section Kernel

variable {F : Type} [DeviceMath F]

/-- `max_s`, `sum_exp` and `weighted_v`. -/
structure Softmax (F : Type) where
  maxS : F
  sumExp : F
  weightedV : F

/-- From `-1e20f` on. -/
def Softmax.start : Softmax F := ⟨-ofInt (10 ^ 20), 0, 0⟩

/-- The score of a patch and its value of the channel. -/
def Softmax.update (state : Softmax F) (s vElem : F) : Softmax F :=
  let state : Softmax F :=
    if less state.maxS s then
      let expDiff := exp (state.maxS - s)
      { sumExp := state.sumExp * expDiff + 1, weightedV := state.weightedV * expDiff, maxS := s }
    else { state with sumExp := state.sumExp + exp (s - state.maxS) }
  { state with weightedV := state.weightedV + exp (s - state.maxS) * vElem }

/-- `attn_out` -/
def Softmax.output (state : Softmax F) : F := if less 0 state.sumExp then state.weightedV / state.sumExp else 0

def addBias (value : F) (bias : Option (Nat → F)) (i : Nat) : F :=
  match bias with
  | some bias => value + bias i
  | none => value

variable (dIn dQkvWeight : Nat → F) (dQkvBias : Option (Nat → F)) (embedDim : Nat)

/-- An element of a patch's query, key or value, by the row of the stacked weights. -/
def qkvElem (p row : Nat) : F :=
  addBias ((List.range embedDim).foldl (fun elem k =>
    elem + dIn (p * embedDim + k) * dQkvWeight (row * embedDim + k)) 0) dQkvBias row

/-- The scaled product of the query of patch `p` and the key of patch `j`. -/
def patchScore (headDim : Nat) (scale : F) (p h j : Nat) : F :=
  (List.range headDim).foldl (fun s cd =>
    let qElem := qkvElem dIn dQkvWeight dQkvBias embedDim p (0 * embedDim + h * headDim + cd)
    let kElem := qkvElem dIn dQkvWeight dQkvBias embedDim j (1 * embedDim + h * headDim + cd)
    s + qElem * kElem) 0 * scale

def attnOut (headDim numPatches : Nat) (scale : F) (p d : Nat) : F :=
  let h := d / headDim
  ((List.range numPatches).foldl (fun state j =>
    state.update (patchScore dIn dQkvWeight dQkvBias embedDim headDim scale p h j)
      (qkvElem dIn dQkvWeight dQkvBias embedDim j (2 * embedDim + d))) Softmax.start).output

/-- What the output is left with. -/
def vitAttn (dOut dIn dQkvWeight : Nat → F) (dQkvBias : Option (Nat → F)) (dProjWeight : Nat → F)
    (dProjBias : Option (Nat → F)) (numPatches embedDim numHeads : Nat) : Nat → F :=
  if numPatches = 0 ∨ embedDim = 0 ∨ numHeads = 0 then dOut
  else
    let headDim := embedDim / numHeads
    let scale := 1 / sqrt (ofInt headDim)
    launch (numPatches * embedDim) (fun item =>
      let p := item / embedDim
      let d := item % embedDim
      -- of the row of weights only the one of the own channel is read
      let projOut := addBias (0 + attnOut dIn dQkvWeight dQkvBias embedDim headDim numPatches scale p d *
        dProjWeight (d * embedDim + d)) dProjBias d
      [(p * embedDim + d, half (dIn (p * embedDim + d) + projOut))]) dOut

end Kernel

section Exact

/-- A bias that may be missing. -/
def biasAt (bias : Option (Nat → ℝ)) (i : Nat) : ℝ := (bias.map fun bias => bias i).getD 0

/-- The weights of the block, with sizes that fit. -/
structure Block where
  qkvWeight : Nat → ℝ
  qkvBias : Option (Nat → ℝ)
  projWeight : Nat → ℝ
  projBias : Option (Nat → ℝ)

variable (block : Block) (x : Nat → ℝ) (numPatches embedDim numHeads : Nat)

namespace Block

/-- Channel `c` of the query, key or value of a patch, by their place in the stack. -/
noncomputable def qkv (part p c : Nat) : ℝ :=
  ∑ k ∈ Finset.range embedDim, x (p * embedDim + k) * block.qkvWeight ((part * embedDim + c) * embedDim + k) +
    biasAt block.qkvBias (part * embedDim + c)

/-- The scaled score of two patches in a head. -/
noncomputable def score (h p j : Nat) : ℝ :=
  let headDim := embedDim / numHeads
  (∑ cd ∈ Finset.range headDim, block.qkv x embedDim 0 p (h * headDim + cd) * block.qkv x embedDim 1 j (h * headDim + cd)) *
    (1 / Real.sqrt headDim)

/-- The channel of the heads behind one another. -/
noncomputable def attended (p c : Nat) : ℝ :=
  average Real.exp (block.score x embedDim numHeads (c / (embedDim / numHeads)) p)
    (fun j (_ : Unit) => block.qkv x embedDim 2 j c) numPatches ()

/-- The input, the projection of all channels and its bias. -/
noncomputable def multiHead (p d : Nat) : ℝ :=
  x (p * embedDim + d) +
    ∑ e ∈ Finset.range embedDim, block.projWeight (d * embedDim + e) * block.attended x numPatches embedDim numHeads p e +
    biasAt block.projBias d

end Block

theorem addBias_eq (value : ℝ) (bias : Option (Nat → ℝ)) (i : Nat) : addBias value bias i = value + biasAt bias i := by
  cases bias with
  | none => exact (add_zero value).symm
  | some bias => rfl

theorem qkvElem_eq (part p c : Nat) :
    qkvElem x block.qkvWeight block.qkvBias embedDim p (part * embedDim + c) = block.qkv x embedDim part p c := by
  unfold qkvElem
  rw [addBias_eq]
  exact congrArg (· + biasAt block.qkvBias (part * embedDim + c)) ((foldl_range _ embedDim 0).trans (zero_add _))

theorem patchScore_eq (p h j : Nat) :
    patchScore x block.qkvWeight block.qkvBias embedDim (embedDim / numHeads)
      (1 / sqrt (ofInt ((embedDim / numHeads : Nat) : Int))) p h j = block.score x embedDim numHeads h p j := by
  have scale : (1 / sqrt (ofInt ((embedDim / numHeads : Nat) : Int)) : ℝ) = 1 / Real.sqrt ((embedDim / numHeads : Nat) : ℝ) :=
    congrArg (1 / Real.sqrt ·) (Int.cast_natCast _)
  unfold patchScore
  simp only [Nat.add_assoc, qkvElem_eq, scale]
  exact congrArg (· * _) ((foldl_range _ _ 0).trans (zero_add _))

section Scores

variable {score : Nat → ℝ} {value : Nat → Unit → ℝ} {n : Nat} {state : Softmax ℝ}

/-- The sums of the scores up to one, scaled down by the running maximum. -/
abbrev Tracks (score : Nat → ℝ) (value : Nat → Unit → ℝ) (n : Nat) (state : Softmax ℝ) : Prop :=
  Scaled Real.exp score value n state.maxS state.sumExp fun _ => state.weightedV

theorem update_tracks (before : Tracks score value n state) :
    Tracks score value (n + 1) (state.update (score n) (value n ())) := by
  unfold Softmax.update
  by_cases greater : less state.maxS (score n) = true
  · -- the new score is its own maximum, and its exponential is one
    have absorbed := before.absorb exponential (score n)
    rw [if_pos greater]
    constructor
    · have sum := absorbed.sum
      rw [sub_self, Real.exp_zero] at sum
      exact sum
    · exact absorbed.acc
  · -- the old sums stay as they are
    have absorbed := before.absorb exponential state.maxS
    rw [if_neg greater]
    simp only [sub_self, Real.exp_zero, mul_one] at absorbed
    exact absorbed

variable (score value) in
theorem attnOut_tracks (n : Nat) :
    Tracks score value n ((List.range n).foldl (fun state j => state.update (score j) (value j ())) Softmax.start) := by
  induction n with
  | zero => exact Scaled.empty Real.exp score value _
  | succ n ih =>
      rw [List.range_succ, List.foldl_append]
      exact update_tracks ih

end Scores

theorem attnOut_eq (filled : 0 < numPatches) (p d : Nat) :
    attnOut x block.qkvWeight block.qkvBias embedDim (embedDim / numHeads) numPatches
      (1 / sqrt (ofInt ((embedDim / numHeads : Nat) : Int))) p d = block.attended x numPatches embedDim numHeads p d := by
  have tracks := attnOut_tracks (block.score x embedDim numHeads (d / (embedDim / numHeads)) p)
    (fun j (_ : Unit) => block.qkv x embedDim 2 j d) numPatches
  have positive := tracks.sum_pos exponential filled
  unfold attnOut
  simp only [patchScore_eq, qkvElem_eq]
  exact (if_pos (decide_eq_true positive)).trans (tracks.average exponential ())

/-- An item has the weight of its own channel only. -/
theorem vitAttn_here (dOut : Nat → ℝ) (heads : 0 < numHeads) {p d : Nat} (patch : p < numPatches) (channel : d < embedDim) :
    vitAttn dOut x block.qkvWeight block.qkvBias block.projWeight block.projBias numPatches embedDim numHeads
        (p * embedDim + d) =
      x (p * embedDim + d) + (block.attended x numPatches embedDim numHeads p d * block.projWeight (d * embedDim + d) +
        biasAt block.projBias d) := by
  unfold vitAttn
  rw [if_neg (by omega)]
  dsimp only
  simp only [attnOut_eq block x numPatches embedDim numHeads (Nat.zero_lt_of_lt patch), addBias_eq, launch]
  rw [outputs_items numPatches embedDim (fun p d => half (x (p * embedDim + d) +
    (0 + block.attended x numPatches embedDim numHeads p d * block.projWeight (d * embedDim + d) +
      biasAt block.projBias d))), outputs_here patch channel, zero_add]
  rfl

/-- The output is right where the weights of the other channels cancel in the attended values. -/
theorem vitAttn_right (dOut : Nat → ℝ) (heads : 0 < numHeads) {p d : Nat} (patch : p < numPatches) (channel : d < embedDim) :
    vitAttn dOut x block.qkvWeight block.qkvBias block.projWeight block.projBias numPatches embedDim numHeads
        (p * embedDim + d) = block.multiHead x numPatches embedDim numHeads p d ↔
      ∑ e ∈ (Finset.range embedDim).erase d,
        block.projWeight (d * embedDim + e) * block.attended x numPatches embedDim numHeads p e = 0 := by
  rw [vitAttn_here block x numPatches embedDim numHeads dOut heads patch channel, Block.multiHead,
    ← Finset.add_sum_erase _ _ (Finset.mem_range.2 channel)]
  constructor
  · intro same
    linarith
  · intro cancelled
    rw [cancelled]
    ring

/-- No input but a value bias of one at a channel. -/
def indicator (projWeight : Nat → ℝ) (projBias : Option (Nat → ℝ)) (embedDim channel : Nat) : Block where
  qkvWeight _ := 0
  qkvBias := some fun i => if i = 2 * embedDim + channel then 1 else 0
  projWeight
  projBias

section Indicator

variable (projWeight : Nat → ℝ) (projBias : Option (Nat → ℝ)) (channel : Nat)

theorem indicator_qkv (part p c : Nat) : (indicator projWeight projBias embedDim channel).qkv (fun _ => 0) embedDim part p c =
    if part * embedDim + c = 2 * embedDim + channel then 1 else 0 := by
  simp [Block.qkv, indicator, biasAt]

theorem indicator_attended (filled : 0 < numPatches) (p c : Nat) :
    (indicator projWeight projBias embedDim channel).attended (fun _ => 0) numPatches embedDim numHeads p c =
      if c = channel then 1 else 0 := by
  apply average_const exponential filled
  intro j _
  rw [indicator_qkv]
  simp only [Nat.add_left_cancel_iff]

theorem indicator_score (heads : numHeads ∣ embedDim) {h : Nat} (head : h < numHeads) (p j : Nat) :
    (indicator projWeight projBias embedDim channel).score (fun _ => 0) embedDim numHeads h p j = 0 := by
  unfold Block.score
  dsimp only
  rw [Finset.sum_eq_zero, zero_mul]
  intro cd member
  -- a row of a query is not one of a value
  have row := flat_lt head (Finset.mem_range.1 member)
  rw [Nat.mul_div_cancel' heads] at row
  rw [indicator_qkv, if_neg (by omega), zero_mul]

end Indicator

/-- Over all inputs and all queries, keys and values, with scores above the one that the maximum starts from. -/
def ComputesAttention (projWeight : Nat → ℝ) (projBias : Option (Nat → ℝ)) (numPatches embedDim numHeads : Nat) : Prop :=
  ∀ (dOut x qkvWeight : Nat → ℝ) (qkvBias : Option (Nat → ℝ)),
    let block : Block := ⟨qkvWeight, qkvBias, projWeight, projBias⟩
    (∀ h < numHeads, ∀ p < numPatches, ∀ j < numPatches, -10 ^ 20 < block.score x embedDim numHeads h p j) →
      ∀ p < numPatches, ∀ d < embedDim,
        vitAttn dOut x qkvWeight qkvBias projWeight projBias numPatches embedDim numHeads (p * embedDim + d) =
          block.multiHead x numPatches embedDim numHeads p d

/-- The whole projection is computed for the weights that are diagonal, and for one input where the others cancel. -/
theorem vitAttn_computes (patches : 1 ≤ numPatches) (heads : 1 ≤ numHeads) (split : numHeads ∣ embedDim)
    (projWeight : Nat → ℝ) (projBias : Option (Nat → ℝ)) :
    (ComputesAttention projWeight projBias numPatches embedDim numHeads ↔
      ∀ d < embedDim, ∀ e < embedDim, e ≠ d → projWeight (d * embedDim + e) = 0) ∧
    ∀ (dOut x qkvWeight : Nat → ℝ) (qkvBias : Option (Nat → ℝ)),
      let block : Block := ⟨qkvWeight, qkvBias, projWeight, projBias⟩
      (∀ p < numPatches, ∀ d < embedDim,
        vitAttn dOut x qkvWeight qkvBias projWeight projBias numPatches embedDim numHeads (p * embedDim + d) =
          block.multiHead x numPatches embedDim numHeads p d) ↔
      ∀ p < numPatches, ∀ d < embedDim, ∑ e ∈ (Finset.range embedDim).erase d,
        projWeight (d * embedDim + e) * block.attended x numPatches embedDim numHeads p e = 0 := by
  constructor
  · constructor
    · intro computes d channel e other apart
      let block := indicator projWeight projBias embedDim e
      have scores : ∀ h < numHeads, ∀ p < numPatches, ∀ j < numPatches,
          -10 ^ 20 < block.score (fun _ => 0) embedDim numHeads h p j := by
        intro h head p _ j _
        rw [indicator_score embedDim numHeads projWeight projBias e split head]
        norm_num
      have same := computes (fun _ => 0) _ block.qkvWeight block.qkvBias scores 0 patches d channel
      have cancelled := (vitAttn_right block _ numPatches embedDim numHeads _ heads patches channel).1 same
      -- channel `e` is the only one with an attended value
      rw [Finset.sum_eq_single_of_mem e (Finset.mem_erase.2 ⟨apart, Finset.mem_range.2 other⟩)] at cancelled
      · rw [indicator_attended numPatches embedDim numHeads projWeight projBias e patches, if_pos rfl, mul_one] at cancelled
        exact cancelled
      · intro c _ different
        rw [indicator_attended numPatches embedDim numHeads projWeight projBias e patches, if_neg different, mul_zero]
    · intro diagonal dOut x qkvWeight qkvBias block _ p patch d channel
      apply (vitAttn_right block x numPatches embedDim numHeads dOut heads patch channel).2
      apply Finset.sum_eq_zero
      intro e member
      obtain ⟨apart, inside⟩ := Finset.mem_erase.1 member
      exact mul_eq_zero_of_left (diagonal d channel e (Finset.mem_range.1 inside) apart) _
  · intro dOut x qkvWeight qkvBias block
    exact forall₄_congr fun p patch d channel =>
      vitAttn_right block x numPatches embedDim numHeads dOut heads patch channel

/-- The identity, over two patches. -/
theorem vitAttn_computes_identity : ComputesAttention (fun i => if i = 0 ∨ i = 3 then 1 else 0) none 2 2 1 := by
  apply (vitAttn_computes 2 2 1 (by decide) (by decide) (by decide) _ none).1.2
  intro d channel e other apart
  exact if_neg (by omega)

/-- One patch without input, one head of two channels and a value at the second one. The projection adds all channels
up; the first one gets nothing of the value. -/
theorem vitAttn_ones :
    let block : Block := ⟨fun _ => 0, some fun i => if i = 5 then 1 else 0, fun _ => 1, none⟩
    let zeros : Nat → ℝ := fun _ => 0
    (∀ h < 1, ∀ p < 1, ∀ j < 1, -10 ^ 20 < block.score zeros 2 1 h p j) ∧
      vitAttn zeros zeros block.qkvWeight block.qkvBias block.projWeight block.projBias 1 2 1 (0 * 2 + 0) = 0 ∧
      block.multiHead zeros 1 2 1 0 0 = 1 := by
  intro block zeros
  have attended (c : Nat) : block.attended zeros 1 2 1 0 c = if c = 1 then 1 else 0 :=
    indicator_attended 1 2 1 (fun _ => 1) none 1 Nat.one_pos 0 c
  refine ⟨?_, ?_, ?_⟩
  · intro h head p _ j _
    have score : block.score zeros 2 1 h p j = 0 := indicator_score 2 1 (fun _ => 1) none 1 (by decide) head p j
    rw [score]
    norm_num
  · rw [vitAttn_here block zeros 1 2 1 zeros (by decide) (by decide) (by decide), attended]
    simp [zeros, block, biasAt]
  · rw [Block.multiHead]
    simp [attended, zeros, block, biasAt]

end Exact

end XInfer.VitAttention
