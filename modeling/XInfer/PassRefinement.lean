import XInfer.GraphReplay
import XInfer.LinearLayers

/-!
A pass of the kernels refines the pass of a network: whatever the buffers hold, the storage of the cache is left as the
layers leave it, and the logits are those of the rows. So what holds of a machine holds of the kernels, in exact
arithmetic: it does not matter in which chunks a prompt comes, and a batch that is verified is decoded token by token.
-/

namespace XInfer.PassRefinement

open AttentionKernels CacheSlots DecodePass FullLayers Kernels LayerKernels LayerRows LinearLayers Launches Placed

section Verify

variable {F Weight : Type} [DeviceExp F] (T : Target F Weight) (maxSeqLen : Nat)

/-- The head over all rows of a batch. -/
def batchedLmHead (seqLen : Nat) : Submission F := fun m =>
  let hiddenSize := T.config.hiddenSize
  let normed := T.ops.rmsnorm m.bufs.actX T.finalNorm seqLen hiddenSize
  { m with
    bufs := { m.bufs with actNormed := normed }
    logits := T.ops.linearInt4 normed T.lmHead seqLen T.config.vocabSize.toNat hiddenSize }

/-- `forward_verify` behind its checks: the positions are copied from the host, and all rows get logits. -/
def forwardVerify (draftTokens : List Int) (prefixLen : Nat) (m : DeviceMemory F) : DeviceMemory F :=
  let numDraftTokens := draftTokens.length
  run ([embedTokensLookup T numDraftTokens] ++
      forwardLayers T maxSeqLen numDraftTokens prefixLen false false T.layers 0 0 ++ [batchedLmHead T numDraftTokens])
    { m with
      tokenIds := fun i => draftTokens.getD i (m.tokenIds i)
      positions := fun i => if i < numDraftTokens then prefixLen + i else m.positions i }

/-- Calls of `forward_chunk`, each from where the last one ended. A call has its tokens and what the device holds
besides the storage; only the first one may clear the states. -/
def chunkRun : (zeroLinearState : Bool) → (calls : List (List Int × DeviceMemory F)) → (startPos : Nat) → Storage F →
    Storage F × List (List F)
  | _, [], _, storage => (storage, [])
  | zeroLinearState, (tokens, m) :: rest, startPos, storage =>
      let after := GraphReplay.forwardChunk T maxSeqLen tokens startPos zeroLinearState { m with storage := storage }
      let later := chunkRun false rest (startPos + tokens.length) after.storage
      (later.1, after.logits :: later.2)

end Verify

section Network

variable (M : LoadedModel)

noncomputable abbrev format : CacheFormat M.config.headDim := formatOf M.config.headDim M.isInt8

abbrev SlotRow : Type := Slot (format M).Vec M.config.numKeyValueHeads
abbrev ChannelRow : Type := Row M.config.linearConvChannels
abbrev LogitsRow : Type := Row M.config.vocabSize.toNat
abbrev KernelLayer : Type :=
  Layer (HiddenRow M.config) (SlotRow M) (Nat → Running Nat ℝ) (ChannelRow M) (ChannelRow M) StateRow

instance {headDim : Nat} (format : CacheFormat headDim) (heads : Nat) : Zero (Slot format.Vec heads) :=
  ⟨⟨fun _ => format.zero, fun _ => format.zero⟩⟩

noncomputable def layerOf (weights : LayerWeights DeviceWeight) : KernelLayer M :=
  match weights.attention with
  | .full qProj kProj vProj qNorm kNorm oProj =>
      .full (fullKernel M.kernelConfig M.config weights ⟨qProj, kProj, vProj, qNorm, kNorm, oProj⟩ (format M))
  | .linear inProjQkv inProjZ inProjB inProjA conv1dWeight aLog dtBias normWeight outProj =>
      .linear (linearKernel M.config weights
        ⟨inProjQkv, inProjZ, inProjB, inProjA, conv1dWeight, aLog, dtBias, normWeight, outProj⟩)

/-- The row of a token; one outside the vocabulary has zeros. -/
noncomputable def embedRow (token : Int) : HiddenRow M.config := fun d =>
  if token < 0 ∨ (0 < M.config.vocabSize ∧ M.config.vocabSize ≤ token) then 0
  else M.embedTokens (token.toNat * M.config.hiddenSize + d)

noncomputable def logitsRow (x : HiddenRow M.config) : LogitsRow M :=
  projectRow M.lmHead M.config.vocabSize.toNat (normRow M.finalNorm x)

noncomputable def greedy (logits : LogitsRow M) : Int :=
  Argmax.argmax DeviceFloat.less (pad logits) M.config.vocabSize.toNat fun _ => none

theorem greedy_inVocab (vocabulary : 0 < M.config.vocabSize) (logits : LogitsRow M) :
    M.config.InVocab (greedy M logits) := by
  have range : 0 ≤ greedy M logits ∧ greedy M logits < M.config.vocabSize.toNat :=
    Argmax.argmax_range (by omega) fun _ => none
  exact ⟨range.1, by omega⟩

variable (vocabulary : 0 < M.config.vocabSize)

noncomputable def network : Network (HiddenRow M.config) (SlotRow M) (Nat → Running Nat ℝ) (ChannelRow M) (ChannelRow M)
    StateRow (LogitsRow M) where
  config := M.config
  embed := embedRow M
  layers := M.layers.map (layerOf M)
  head := logitsRow M
  argmax := greedy M
  argmax_inVocab := greedy_inVocab M vocabulary

/-- What the storage of a cache holds for so many layers of the two kinds. -/
noncomputable def cacheOf (n m : Nat) (storage : Storage ℝ) : Placed.Cache (SlotRow M) (ChannelRow M) StateRow n m where
  slots := fun pos f => (format M).slotAt M.config.numKeyValueHeads storage f pos
  recurrent := fun l => layerState M storage l

end Network

section Layers

variable {M : LoadedModel} {seqLen startPos maxSeqLen n m : Nat}

/-- A layer's weights and what its kernels compute. -/
inductive Realises (M : LoadedModel) : LayerWeights DeviceWeight → KernelLayer M → Prop
  | full {weights : LayerWeights DeviceWeight} (w : FullWeights) (own : weights.attention = w.attention) :
      Realises M weights (.full (fullKernel M.kernelConfig M.config weights w (format M)))
  | linear {weights : LayerWeights DeviceWeight} (w : LinearWeights) (own : weights.attention = w.attention) :
      Realises M weights (.linear (linearKernel M.config weights w))

theorem layerOf_realises (weights : LayerWeights DeviceWeight) : Realises M weights (layerOf M weights) := by
  unfold layerOf
  split
  next own => exact .full _ own
  next own => exact .linear _ own

theorem layers_realise (layers : List (LayerWeights DeviceWeight)) :
    List.Forall₂ (Realises M) layers (layers.map (layerOf M)) := by
  induction layers with
  | nil => exact .nil
  | cons weights rest ih => exact .cons (layerOf_realises weights) ih

/-- A batch in the buffers, at its positions. -/
structure Batch (M : LoadedModel) (seqLen startPos : Nat) (rows : List (HiddenRow M.config)) (m : DeviceMemory ℝ) :
    Prop where
  rows : rowsOf M.config.hiddenSize seqLen m.bufs.actX = rows
  positions : ∀ t < seqLen, m.positions t = startPos + t

theorem full_refines (supported : M.Supported) {weights : LayerWeights DeviceWeight} {w : FullWeights}
    (own : weights.attention = w.attention) (index : Fin n) (linearIdx : Nat) (zeroLinear : Bool) (some' : 0 < seqLen)
    (room : startPos + seqLen ≤ maxSeqLen) {rows : List (HiddenRow M.config)} {memory : DeviceMemory ℝ}
    (batch : Batch M seqLen startPos rows memory) :
    let layer : Placed _ _ _ _ (ChannelRow M) _ n m := .full index (fullKernel M.kernelConfig M.config weights w (format M))
    let done := layer.forwardLayer maxSeqLen zeroLinear startPos (cacheOf M n m memory.storage) rows
    let after := run (forwardLayer M.target maxSeqLen weights index linearIdx seqLen startPos false zeroLinear) memory
    cacheOf M n m after.storage = done.1 ∧ Batch M seqLen startPos done.2 after := by
  intro layer done after
  have ran := full_layer supported own index linearIdx zeroLinear some' room batch.positions
  rw [batch.rows] at ran
  refine ⟨congrArg₂ Memory.mk ?_ ?_, ran.rows, fun t row => ?_⟩
  · funext pos f
    by_cases same : f = index
    · subst same
      rw [if_pos rfl]
      exact congrFun ran.own pos
    · rw [if_neg same]
      exact congrFun (ran.others f fun here => same (Fin.ext here)) pos
  · funext l
    unfold layerState
    rw [ran.states.1, ran.states.2]
    rfl
  · rw [ran.positions]
    exact batch.positions t row

variable (maxSeqLen) in
theorem linear_refines (supported : M.Supported) {weights : LayerWeights DeviceWeight} {w : LinearWeights}
    (own : weights.attention = w.attention) (index : Fin m) (fullIdx : Nat) (zeroLinear : Bool) (some' : 0 < seqLen)
    {rows : List (HiddenRow M.config)} {memory : DeviceMemory ℝ} (batch : Batch M seqLen startPos rows memory) :
    let layer : Placed _ (SlotRow M) (Nat → Running Nat ℝ) _ _ _ n m := .linear index (linearKernel M.config weights w)
    let done := layer.forwardLayer maxSeqLen zeroLinear startPos (cacheOf M n m memory.storage) rows
    let after := run (forwardLayer M.target maxSeqLen weights fullIdx index seqLen startPos false zeroLinear) memory
    cacheOf M n m after.storage = done.1 ∧ Batch M seqLen startPos done.2 after := by
  intro layer done after
  have ran := linear_layer supported own maxSeqLen fullIdx index startPos zeroLinear some' memory
  rw [batch.rows] at ran
  refine ⟨congrArg₂ Memory.mk ?_ ?_, ran.rows, fun t row => ?_⟩
  · funext pos f
    have same : (format M).slotAt M.config.numKeyValueHeads after.storage =
        (format M).slotAt M.config.numKeyValueHeads memory.storage := slotAt_caches _ ran.caches.1 ran.caches.2
    rw [same]
    rfl
  · funext l
    by_cases same : l = index
    · subst same
      rw [if_pos rfl]
      exact ran.own
    · rw [if_neg same]
      exact ran.others l fun here => same (Fin.ext here)
  · rw [ran.positions]
    exact batch.positions t row

/-- The indices that the loop counts. -/
theorem forwardLayers_full {weights : LayerWeights DeviceWeight} {w : FullWeights} (own : weights.attention = w.attention)
    (rest : List (LayerWeights DeviceWeight)) (zeroLinear : Bool) (fullIdx linearIdx : Nat) (memory : DeviceMemory ℝ) :
    run (forwardLayers M.target maxSeqLen seqLen startPos false zeroLinear (weights :: rest) fullIdx linearIdx) memory =
      run (forwardLayers M.target maxSeqLen seqLen startPos false zeroLinear rest (fullIdx + 1) linearIdx)
        (run (forwardLayer M.target maxSeqLen weights fullIdx linearIdx seqLen startPos false zeroLinear) memory) := by
  rw [forwardLayers, own, run_append]
  rfl

theorem forwardLayers_linear {weights : LayerWeights DeviceWeight} {w : LinearWeights}
    (own : weights.attention = w.attention) (rest : List (LayerWeights DeviceWeight)) (zeroLinear : Bool)
    (fullIdx linearIdx : Nat) (memory : DeviceMemory ℝ) :
    run (forwardLayers M.target maxSeqLen seqLen startPos false zeroLinear (weights :: rest) fullIdx linearIdx) memory =
      run (forwardLayers M.target maxSeqLen seqLen startPos false zeroLinear rest fullIdx (linearIdx + 1))
        (run (forwardLayer M.target maxSeqLen weights fullIdx linearIdx seqLen startPos false zeroLinear) memory) := by
  rw [forwardLayers, own, run_append]
  rfl

/-- The loop over the layers. -/
theorem layers_refine (supported : M.Supported) (zeroLinear : Bool) (some' : 0 < seqLen)
    (room : startPos + seqLen ≤ maxSeqLen) {all : List (LayerWeights DeviceWeight)} {layers : List (KernelLayer M)}
    (realised : List.Forall₂ (Realises M) all layers) {fullIdx linearIdx : Nat}
    (fulls : fullIdx + Layer.numFull layers = n) (linears : linearIdx + Layer.numLinear layers = m)
    {rows : List (HiddenRow M.config)} {memory : DeviceMemory ℝ} (batch : Batch M seqLen startPos rows memory) :
    let placed := Layer.place layers fullIdx linearIdx fulls linears
    let done := runLayers maxSeqLen zeroLinear startPos placed (cacheOf M n m memory.storage) rows
    let after := run (forwardLayers M.target maxSeqLen seqLen startPos false zeroLinear all fullIdx linearIdx) memory
    cacheOf M n m after.storage = done.1 ∧ Batch M seqLen startPos done.2 after := by
  induction realised generalizing fullIdx linearIdx rows memory with
  | nil => exact ⟨rfl, batch⟩
  | cons head tail ih =>
      cases head with
      | full w own =>
          simp only [Layer.numFull] at fulls
          have index : fullIdx < n := by omega
          obtain ⟨stored, next⟩ := full_refines (n := n) (m := m) supported own ⟨fullIdx, index⟩ linearIdx zeroLinear
            some' room batch
          have later := ih (show fullIdx + 1 + _ = n by omega) linears next
          rw [stored] at later
          rw [forwardLayers_full own]
          exact later
      | linear w own =>
          simp only [Layer.numLinear] at linears
          have index : linearIdx < m := by omega
          obtain ⟨stored, next⟩ := linear_refines (n := n) (m := m) maxSeqLen supported own
            ⟨linearIdx, index⟩ fullIdx zeroLinear some' batch
          have later := ih fulls (show linearIdx + 1 + _ = m by omega) next
          rw [stored] at later
          rw [forwardLayers_linear own]
          exact later

end Layers

section Passes

variable {M : LoadedModel} {seqLen startPos maxSeqLen : Nat}

theorem embedTokensLookup_rows (m : DeviceMemory ℝ) :
    rowsOf M.config.hiddenSize seqLen (embedTokensLookup M.target seqLen m).bufs.actX =
      (List.range seqLen).map fun t => embedRow M (m.tokenIds t) := by
  refine List.map_congr_left fun t member => ?_
  have row := List.mem_range.1 member
  let value (item : Nat) : ℝ :=
    let tokenId := m.tokenIds (item / M.config.hiddenSize)
    if tokenId < 0 ∨ (0 < M.config.vocabSize ∧ M.config.vocabSize ≤ tokenId) then 0
    else M.embedTokens (tokenId.toNat * M.config.hiddenSize + item % M.config.hiddenSize)
  have stores : (embedTokensLookup M.target seqLen m).bufs.actX = overwrite (seqLen * M.config.hiddenSize)
      (launch (seqLen * M.config.hiddenSize) fun item => [(item, value item)]) m.bufs.actX := by
    unfold embedTokensLookup
    refine congrArg (fun kernel => overwrite _ kernel _) (launch_congr fun item _ => ?_)
    dsimp only [value]
    rw [Nat.div_add_mod']
    split
    next outside => exact (congrArg (fun x => [(item, x)]) (if_pos outside)).symm
    next inside => exact (congrArg (fun x => [(item, x)]) (if_neg inside)).symm
  rw [stores]
  refine (rowOf_overwrite row _ _).trans (funext fun d => ?_)
  refine (each_here (flat_lt row d.isLt) value _).trans ?_
  dsimp only [value]
  rw [flat_div d.isLt, flat_mod d.isLt]
  rfl

variable (vocabulary : 0 < M.config.vocabSize)

/-- The storage as the network's cache. -/
noncomputable def cache (storage : Storage ℝ) : (network M vocabulary).Cache := cacheOf M _ _ storage

/-- Embedding and layers, from uploaded tokens and positions. -/
theorem layers_of_pass (supported : M.Supported) (zeroLinear : Bool) {tokens : List Int} (some' : tokens ≠ [])
    (room : startPos + tokens.length ≤ maxSeqLen) {m : DeviceMemory ℝ}
    (ids : ∀ t (inside : t < tokens.length), m.tokenIds t = tokens[t])
    (positions : ∀ t < tokens.length, m.positions t = startPos + t) :
    let N := network M vocabulary
    let done := runLayers maxSeqLen zeroLinear startPos N.placed (cache vocabulary m.storage) (tokens.map N.embed)
    let after := run (forwardLayers M.target maxSeqLen tokens.length startPos false zeroLinear M.layers 0 0)
      (embedTokensLookup M.target tokens.length m)
    cache vocabulary after.storage = done.1 ∧ Batch M tokens.length startPos done.2 after := by
  have rows : rowsOf M.config.hiddenSize tokens.length (embedTokensLookup M.target tokens.length m).bufs.actX =
      tokens.map (embedRow M) := by
    rw [embedTokensLookup_rows]
    apply List.ext_getElem
    · simp
    · intro t _ inside
      simp only [List.getElem_map, List.getElem_range]
      rw [ids t (by simpa using inside)]
  exact layers_refine supported zeroLinear (List.length_pos_of_ne_nil some') room (layers_realise M.layers)
    (Nat.zero_add _) (Nat.zero_add _) ⟨rows, positions⟩

theorem forwardLmHead_row (supported : M.Supported) (seqLen : Nat) (m : DeviceMemory ℝ) :
    rowOf M.config.vocabSize.toNat (elements (forwardLmHead M.target seqLen m).logits) 0 =
      logitsRow M (rowOf M.config.hiddenSize (elements m.bufs.actX) (seqLen - 1)) := by
  have normed := rmsnorm_row (n := M.config.hiddenSize) M.kernelConfig
    (m.bufs.actX.drop ((seqLen - 1) * M.config.hiddenSize)) M.finalNorm Nat.one_pos
  rw [rowOf_drop] at normed
  unfold logitsRow
  rw [← normed]
  exact linearInt4_row M.kernelConfig supported.hidden _ M.lmHead Nat.one_pos

theorem pass_some (zeroLinear : Bool) {tokens : List Int} (some' : tokens ≠ []) (memory : (network M vocabulary).Cache) :
    (network M vocabulary).pass maxSeqLen zeroLinear memory tokens startPos =
      let done := runLayers maxSeqLen zeroLinear startPos (network M vocabulary).placed memory (tokens.map (embedRow M))
      (done.1, done.2.map (logitsRow M)) := by
  unfold Network.pass
  rw [if_neg some']
  rfl

/-- A pass of `forward_chunk`. -/
theorem chunk_refines (supported : M.Supported) (zeroLinear : Bool) {tokens : List Int} (some' : tokens ≠ [])
    (room : startPos + tokens.length ≤ maxSeqLen) (m : DeviceMemory ℝ) :
    let done := (network M vocabulary).pass maxSeqLen zeroLinear (cache vocabulary m.storage) tokens startPos
    let after := GraphReplay.forwardChunk M.target maxSeqLen tokens startPos zeroLinear m
    cache vocabulary after.storage = done.1 ∧
      done.2.getLast? = some (rowOf M.config.vocabSize.toNat (elements after.logits) 0) := by
  intro done after
  let entered : DeviceMemory ℝ := { m with
    tokenIds := fun i => tokens.getD i (m.tokenIds i)
    positions := launch tokens.length (fun i => [(i, (startPos : Int) + i)]) m.positions }
  have ids : ∀ t (inside : t < tokens.length), entered.tokenIds t = tokens[t] := fun t inside => by
    simp [entered, inside]
  have positions : ∀ t < tokens.length, entered.positions t = startPos + t := fun t inside =>
    each_here inside (fun i => (startPos : Int) + i) m.positions
  obtain ⟨stored, batch⟩ := layers_of_pass vocabulary supported zeroLinear some' room ids positions
  let layered := run (forwardLayers M.target maxSeqLen tokens.length startPos false zeroLinear M.layers 0 0)
    (embedTokensLookup M.target tokens.length entered)
  have ran : after = forwardLmHead M.target tokens.length layered := by
    dsimp only [after, GraphReplay.forwardChunk]
    rw [if_neg (not_or.2 ⟨some', Nat.not_lt.2 room⟩), passSubmissions, run_append, run_append]
    rfl
  have rows : (runLayers maxSeqLen zeroLinear startPos (network M vocabulary).placed (cache vocabulary m.storage)
      (tokens.map (embedRow M))).2 = rowsOf M.config.hiddenSize tokens.length layered.bufs.actX := batch.rows.symm
  have last : tokens.length ≠ 0 := fun empty => some' (List.length_eq_zero_iff.1 empty)
  dsimp only [done]
  rw [ran, pass_some vocabulary zeroLinear some', forwardLmHead_row supported]
  dsimp only
  rw [rows]
  refine ⟨stored, ?_⟩
  rw [rowsOf, List.map_map, List.getLast?_map, List.getLast?_range, if_neg last]
  rfl

end Passes

section Sample

def zeros : DeviceWeight := .int4 (fun _ => 0) fun _ => 0

/-- A layer of either kind, with the dimensions that the configuration declares. -/
noncomputable def twoLayers : LoadedModel where
  config := ModelConfig.defaults
  kernelConfig := ⟨10000000, 64, GatedDeltaNet.compiled⟩
  isInt8 := true
  embedTokens token := token
  layers := [⟨zeros, .linear zeros zeros zeros zeros zeros zeros zeros zeros zeros, zeros, zeros, zeros, zeros⟩,
    ⟨zeros, .full zeros zeros zeros zeros zeros zeros, zeros, zeros, zeros, zeros⟩]
  finalNorm := zeros
  lmHead := zeros

theorem twoLayers_supported : twoLayers.Supported where
  hidden := by decide
  intermediate := by decide
  queryHeads := by decide
  headDim := by decide
  lanes := by decide
  grouped := by decide
  theta := by norm_num [twoLayers]
  rotary := by decide
  linearShape := rfl
  channels := rfl
  gate := rfl
  rates := ⟨rfl, rfl⟩

theorem twoLayers_vocabulary : 0 < twoLayers.config.vocabSize := by decide

/-- Two tokens at the end of a cache with room for three. -/
theorem chunk_refines_twoLayers :
    let N := network twoLayers twoLayers_vocabulary
    let done := N.pass 3 true (cache twoLayers_vocabulary PassRules.blank.storage) [7, 300000] 1
    let after := GraphReplay.forwardChunk twoLayers.target 3 [7, 300000] 1 true PassRules.blank
    cache twoLayers_vocabulary after.storage = done.1 ∧
      done.2.getLast? = some (rowOf twoLayers.config.vocabSize.toNat (elements after.logits) 0) :=
  chunk_refines twoLayers_vocabulary twoLayers_supported true (by decide) (by decide) PassRules.blank

end Sample

section Passes

variable {M : LoadedModel} {seqLen startPos maxSeqLen : Nat} (vocabulary : 0 < M.config.vocabSize)

theorem batchedLmHead_rows (supported : M.Supported) (seqLen : Nat) (m : DeviceMemory ℝ) :
    rowsOf M.config.vocabSize.toNat seqLen (batchedLmHead M.target seqLen m).logits =
      (rowsOf M.config.hiddenSize seqLen m.bufs.actX).map (logitsRow M) := by
  unfold rowsOf
  rw [List.map_map]
  refine List.map_congr_left fun t member => ?_
  have row := List.mem_range.1 member
  refine (linearInt4_row M.kernelConfig supported.hidden _ M.lmHead row).trans ?_
  exact congrArg (projectRow M.lmHead _) (rmsnorm_row M.kernelConfig m.bufs.actX M.finalNorm row)

/-- A pass of `forward_verify`: every row has its logits. -/
theorem verify_refines (supported : M.Supported) {drafts : List Int} (some' : drafts ≠ [])
    (room : startPos + drafts.length ≤ maxSeqLen) (m : DeviceMemory ℝ) :
    let done := (network M vocabulary).pass maxSeqLen false (cache vocabulary m.storage) drafts startPos
    let after := forwardVerify M.target maxSeqLen drafts startPos m
    cache vocabulary after.storage = done.1 ∧ rowsOf M.config.vocabSize.toNat drafts.length after.logits = done.2 := by
  intro done after
  let entered : DeviceMemory ℝ := { m with
    tokenIds := fun i => drafts.getD i (m.tokenIds i)
    positions := fun i => if i < drafts.length then startPos + i else m.positions i }
  have ids : ∀ t (inside : t < drafts.length), entered.tokenIds t = drafts[t] := fun t inside => by
    simp [entered, inside]
  have positions : ∀ t < drafts.length, entered.positions t = startPos + t := fun t inside => if_pos inside
  obtain ⟨stored, batch⟩ := layers_of_pass vocabulary supported false some' room ids positions
  let layered := run (forwardLayers M.target maxSeqLen drafts.length startPos false false M.layers 0 0)
    (embedTokensLookup M.target drafts.length entered)
  have ran : after = batchedLmHead M.target drafts.length layered := by
    dsimp only [after, forwardVerify]
    rw [run_append, run_append]
    rfl
  have rows : (runLayers maxSeqLen false startPos (network M vocabulary).placed (cache vocabulary m.storage)
      (drafts.map (embedRow M))).2 = rowsOf M.config.hiddenSize drafts.length layered.bufs.actX := batch.rows.symm
  dsimp only [done]
  rw [ran, pass_some vocabulary false some', batchedLmHead_rows supported]
  dsimp only
  rw [rows]
  exact ⟨stored, rfl⟩

end Passes

end XInfer.PassRefinement
