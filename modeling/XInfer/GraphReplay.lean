import XInfer.CachedAttention
import XInfer.KVCache
import XInfer.PassRules

/-!
`decode_step` of `targets/qwen3_8/forward.cpp` beside `DecodeGraph` of `decode_graph.cpp`: the one submits a pass
at each step, the other replays what it recorded once and only uploads a token and a position before. The counters
of the cache are a `KVCache`; what its memory holds is the storage.
-/

namespace XInfer.GraphReplay

open AttentionKernels DecodePass DynamicKernels Launches PassRules Primitives
open Argmax (Lane)
open DeviceFloat (less)

variable {F Weight : Type} [DeviceExp F] (T : Target F Weight)

abbrev Counters : Type := KVCache Unit Unit

def argmax (logits : List F) (scratch : Nat → Lane F) : Int :=
  Argmax.argmax less (elements logits) T.config.vocabSize.toNat scratch

section Eager

/-- A call that asks for logits. The buffers come from the arena with what they held. -/
def forwardChunk (maxSeqLen : Nat) (tokens : List Int) (startPos : Nat) (zeroLinearState : Bool) (m : DeviceMemory F) :
    DeviceMemory F :=
  if tokens = [] ∨ maxSeqLen < startPos + tokens.length then m
  else run (passSubmissions T maxSeqLen tokens.length startPos false zeroLinearState)
    { m with
      tokenIds := fun i => tokens.getD i (m.tokenIds i)
      positions := launch tokens.length (fun i => [(i, (startPos : Int) + i)]) m.positions }

def decodeStep (kv : Counters) (inputTokenId : Int) (m : DeviceMemory F) : Int × Counters × DeviceMemory F :=
  if kv.maxSeqLen ≤ kv.currentSeqLen then (-1, kv, m)
  else if ¬ T.config.InVocab inputTokenId then (-1, kv, m)
  else
    let after := forwardChunk T kv.maxSeqLen [inputTokenId] kv.currentSeqLen false m
    let advanced := kv.advance 1
    if advanced.1 = false then (-1, advanced.2, after) else (argmax T after.logits fun _ => none, advanced.2, after)

end Eager

section Graph

structure DecodeGraph (F : Type) where
  tokenIds : Nat → Int
  positions : Nat → Int
  bufs : LayerActivationBuffers F
  logits : List F
  sample : Nat → Lane F
  execGraph : Option (List (Submission F))

/-- What the graph and the cache hold together. -/
def DecodeGraph.memory (g : DecodeGraph F) (storage : Storage F) : DeviceMemory F :=
  ⟨g.tokenIds, g.positions, g.bufs, g.logits, storage⟩

/-- The copies before a replay. -/
def DecodeGraph.upload (g : DecodeGraph F) (inputTokenId : Int) (curPos : Nat) : DecodeGraph F :=
  { g with
    tokenIds := Function.update g.tokenIds 0 inputTokenId
    positions := Function.update g.positions 0 (curPos : Int) }

/-- Recording submits nothing. Whether the device has the aspect, and whether the recording is finalized, is not
known to the program. -/
def DecodeGraph.capture (g : DecodeGraph F) (maxSeqLen : Nat) (supported finalized : Bool) : Bool × DecodeGraph F :=
  if supported = false then (false, g)
  else
    let g := g.upload 0 0
    if finalized = false then (false, g)
    else (true, { g with execGraph := some (passSubmissions T maxSeqLen 1 0 true false) })

def DecodeGraph.decodeStep (g : DecodeGraph F) (maxSeqLen : Nat) (inputTokenId : Int) (curPos : Nat) (storage : Storage F) :
    Except Exn (Int × DecodeGraph F × Storage F) :=
  match g.execGraph with
  | none => .error (.standard (ascii "DecodeGraph::decode_step called before successful graph capture"))
  | some recorded =>
      if ¬ T.config.InVocab inputTokenId then .ok (-1, g, storage)
      else if maxSeqLen ≤ curPos then .ok (-1, g, storage)
      else
        let after := run recorded ((g.upload inputTokenId curPos).memory storage)
        .ok (argmax T after.logits g.sample,
          { g with
            tokenIds := after.tokenIds
            positions := after.positions
            bufs := after.bufs
            logits := after.logits
            sample := Argmax.partials less (elements after.logits) T.config.vocabSize.toNat g.sample },
          after.storage)

/-- The callers of the graph advance the length by one unless the answer is negative. -/
def replayStep (g : DecodeGraph F) (kv : Counters) (inputTokenId : Int) (storage : Storage F) :
    Except Exn (Int × DecodeGraph F × Counters × Storage F) := do
  let (next, g, storage) ← g.decodeStep T kv.maxSeqLen inputTokenId kv.currentSeqLen storage
  if next < 0 then return (next, g, kv, storage)
  else
    let advanced := kv.advance 1
    return (if advanced.1 = false then -1 else next, g, advanced.2, storage)

end Graph

section Runs

/-- An eager step on the storage, with what else the memory holds before. -/
def eagerStep (kv : Counters) (step : Int × DeviceMemory F) (storage : Storage F) : Int × Counters × Storage F :=
  let done := decodeStep T kv step.1 { step.2 with storage := storage }
  (done.1, done.2.1, done.2.2.storage)

def eagerRun (kv : Counters) (storage : Storage F) : List (Int × DeviceMemory F) → List Int × Counters × Storage F
  | [] => ([], kv, storage)
  | step :: rest =>
      let done := eagerStep T kv step storage
      let later := eagerRun done.2.1 done.2.2 rest
      (done.1 :: later.1, later.2)

def replayRun (g : DecodeGraph F) (kv : Counters) (storage : Storage F) :
    List Int → Except Exn (List Int × DecodeGraph F × Counters × Storage F)
  | [] => .ok ([], g, kv, storage)
  | token :: rest => do
      let (next, g, kv, storage) ← replayStep T g kv token storage
      let (later, last) ← replayRun g kv storage rest
      return (next :: later, last)

end Runs

section Steps

variable {T}

/-- A graph with its recording, beside a cache whose length is in its bounds. -/
structure Ready (T : Target F Weight) (g : DecodeGraph F) (kv : Counters) : Prop where
  recorded : g.execGraph = some (passSubmissions T kv.maxSeqLen 1 0 true false)
  within : kv.currentSeqLen ≤ kv.maxSeqLen
  -- the kernels take the bound as an `int64_t`
  typed : kv.maxSeqLen < 2 ^ 63

theorem capture_ready (g : DecodeGraph F) {kv : Counters} (within : kv.currentSeqLen ≤ kv.maxSeqLen)
    (typed : kv.maxSeqLen < 2 ^ 63) : Ready T (g.capture T kv.maxSeqLen true true).2 kv :=
  ⟨rfl, within, typed⟩

omit [DeviceExp F] in
theorem upload_token (g : DecodeGraph F) (token : Int) (curPos : Nat) (storage : Storage F) :
    ((g.upload token curPos).memory storage).tokenIds 0 = token := by
  simp [DecodeGraph.memory, DecodeGraph.upload]

omit [DeviceExp F] in
theorem upload_position (g : DecodeGraph F) (token : Int) (curPos : Nat) (storage : Storage F) :
    ((g.upload token curPos).memory storage).positions 0 = curPos := by
  simp [DecodeGraph.memory, DecodeGraph.upload]

/-- Both passes see the same token at the same position. -/
theorem passes_agree (shaped : Shaped T.config) {startPos maxSeqLen : Nat} (inside : startPos < maxSeqLen) (token : Int)
    (g : DecodeGraph F) (m : DeviceMemory F) (storage : Storage F) :
    let replayed := run (passSubmissions T maxSeqLen 1 0 true false) ((g.upload token startPos).memory storage)
    let eager := forwardChunk T maxSeqLen [token] startPos false { m with storage := storage }
    replayed.logits = eager.logits ∧ replayed.storage = eager.storage := by
  have room : ¬ ([token] = [] ∨ maxSeqLen < startPos + [token].length) := by
    rintro (empty | full)
    · cases empty
    · rw [List.length_singleton] at full
      omega
  intro replayed eager
  dsimp only [replayed, eager]
  -- the recorded pass does what a pass with the position does, and that one starts afresh
  rw [forwardChunk, if_neg room, (run_same (pass_same T inside 1 false) _ (upload_position ..)).1]
  apply pass_fresh T shaped
  · exact upload_token ..
  · have uploaded := row_here 0 (show 0 < 1 by decide) (fun i => (startPos : Int) + i) m.positions
    simp only [Nat.zero_add, Nat.cast_zero, add_zero] at uploaded
    exact (upload_position ..).trans uploaded.symm
  · rfl

variable {g : DecodeGraph F} {kv : Counters} {token : Int} (storage : Storage F)

/-- A step that neither of the two makes. -/
theorem step_refused (ready : Ready T g kv) (refused : kv.maxSeqLen ≤ kv.currentSeqLen ∨ ¬ T.config.InVocab token)
    (m : DeviceMemory F) : eagerStep T kv (token, m) storage = (-1, kv, storage) ∧
      replayStep T g kv token storage = .ok (-1, g, kv, storage) := by
  have replayed : g.decodeStep T kv.maxSeqLen token kv.currentSeqLen storage = .ok (-1, g, storage) := by
    unfold DecodeGraph.decodeStep
    rw [ready.recorded]
    by_cases valid : T.config.InVocab token
    · simp [valid, refused.resolve_right (not_not.2 valid)]
    · simp [valid]
  constructor
  · unfold eagerStep decodeStep
    by_cases full : kv.maxSeqLen ≤ kv.currentSeqLen
    · simp [full]
    · simp [full, refused.resolve_left full]
  · rw [replayStep, replayed]
    rfl

theorem step_made (shaped : Shaped T.config) (ready : Ready T g kv) (room : kv.currentSeqLen < kv.maxSeqLen)
    (valid : T.config.InVocab token) (m : DeviceMemory F) :
    let after := forwardChunk T kv.maxSeqLen [token] kv.currentSeqLen false { m with storage := storage }
    let next := argmax T after.logits fun _ => none
    let longer : Counters := { kv with currentSeqLen := kv.currentSeqLen + 1 }
    eagerStep T kv (token, m) storage = (next, longer, after.storage) ∧
      ∃ g', replayStep T g kv token storage = .ok (next, g', longer, after.storage) ∧ g'.execGraph = g.execGraph := by
  intro after next longer
  have advanced : kv.advance 1 = (true, longer) := KVCache.advance_of_le (ready.typed.trans (by decide)) room
  have vocabulary : 0 < T.config.vocabSize.toNat := by
    have bounds := valid.1.trans_lt valid.2
    omega
  obtain ⟨logits, kept⟩ := passes_agree shaped room token g m storage
  constructor
  · unfold eagerStep decodeStep
    rw [if_neg (Nat.not_le.2 room), if_neg (not_not.2 valid)]
    dsimp only
    rw [advanced]
    rfl
  · have answer : argmax T (run (passSubmissions T kv.maxSeqLen 1 0 true false)
        ((g.upload token kv.currentSeqLen).memory storage)).logits g.sample = next := by
      rw [logits]
      exact Argmax.argmax_scratch _ _
    -- an index of the vocabulary is never negative
    have nonneg : ¬ next < 0 := not_lt.2 (Argmax.argmax_range vocabulary _).1
    have replayed : ∃ g', g.decodeStep T kv.maxSeqLen token kv.currentSeqLen storage = .ok (next, g', after.storage) ∧
        g'.execGraph = g.execGraph := by
      unfold DecodeGraph.decodeStep
      rw [ready.recorded]
      dsimp only
      rw [if_neg (not_not.2 valid), if_neg (Nat.not_le.2 room), answer, kept]
      exact ⟨_, rfl, rfl⟩
    obtain ⟨g', stepped, recorded⟩ := replayed
    refine ⟨g', ?_, recorded⟩
    rw [replayStep, stepped]
    dsimp only [bind, Except.bind]
    rw [if_neg nonneg, advanced]
    rfl

/-- A replayed step is an eager one. -/
theorem step_agrees (shaped : Shaped T.config) (ready : Ready T g kv) (step : Int × DeviceMemory F) :
    let eager := eagerStep T kv step storage
    ∃ g', replayStep T g kv step.1 storage = .ok (eager.1, g', eager.2) ∧ Ready T g' eager.2.1 := by
  obtain ⟨token, m⟩ := step
  dsimp only
  by_cases refused : kv.maxSeqLen ≤ kv.currentSeqLen ∨ ¬ T.config.InVocab token
  · obtain ⟨eager, replayed⟩ := step_refused storage ready refused m
    rw [eager]
    exact ⟨g, replayed, ready⟩
  · obtain ⟨room, valid⟩ := not_or.1 refused
    obtain ⟨eager, g', replayed, recorded⟩ :=
      step_made storage shaped ready (Nat.lt_of_not_le room) (not_not.1 valid) m
    rw [eager]
    refine ⟨g', replayed, ?_⟩
    constructor
    · exact recorded.trans ready.recorded
    · exact Nat.lt_of_not_le room
    · exact ready.typed

/-- A run of steps. -/
theorem run_agrees (shaped : Shaped T.config) (ready : Ready T g kv) (steps : List (Int × DeviceMemory F)) :
    let eager := eagerRun T kv storage steps
    ∃ g', replayRun T g kv storage (steps.map Prod.fst) = .ok (eager.1, g', eager.2) := by
  induction steps generalizing g kv storage with
  | nil => exact ⟨g, rfl⟩
  | cons step rest ih =>
      obtain ⟨g', stepped, ready'⟩ := step_agrees storage shaped ready step
      obtain ⟨last, ran⟩ := ih _ ready'
      refine ⟨last, ?_⟩
      rw [List.map_cons, replayRun, stepped]
      dsimp only [bind, Except.bind]
      rw [ran]
      rfl

end Steps

section Agreement

/-- The kernels that read the position on the device do what the others do that are given it. -/
structure KernelsAgree (F : Type) [DeviceExp F] (dStartPos : Nat → Int) (startPos maxSeqLen : Nat) : Prop where
  write : ∀ (caches : KVBuffers F) (K_in V_in : Nat → F) (numTokens numKVHeads headDim : Nat),
    attentionWriteKvCacheDynamic caches K_in V_in dStartPos numTokens numKVHeads headDim maxSeqLen =
      attentionWriteKvCache caches K_in V_in startPos numTokens numKVHeads headDim maxSeqLen
  writeInt8 : ∀ (caches : Int8Buffers F) (K_in V_in : Nat → F) (numTokens numKVHeads headDim : Nat),
    attentionWriteKvCacheInt8Dynamic caches K_in V_in dStartPos numTokens numKVHeads headDim maxSeqLen =
      attentionWriteKvCacheInt8 caches K_in V_in startPos numTokens numKVHeads headDim maxSeqLen
  sdpa : ∀ (cast : F → F) (out Q : Nat → F) (caches : KVBuffers F) (numQTokens numQHeads numKVHeads headDim : Nat)
    (scale : F),
    sdpaCausalCachedDynamic cast out Q caches dStartPos numQTokens numQHeads numKVHeads headDim scale maxSeqLen =
      sdpaCausalCached cast out Q caches startPos numQTokens numQHeads numKVHeads headDim scale maxSeqLen
  sdpaInt8 : ∀ (cast : F → F) (out Q : Nat → F) (caches : Int8Buffers F) (numQTokens numQHeads numKVHeads headDim : Nat)
    (scale : F),
    sdpaCausalCachedInt8Dynamic cast out Q caches dStartPos numQTokens numQHeads numKVHeads headDim scale maxSeqLen =
      sdpaCausalCachedInt8 cast out Q caches startPos numQTokens numQHeads numKVHeads headDim scale maxSeqLen

theorem kernels_agree {dStartPos : Nat → Int} {startPos maxSeqLen : Nat} (inside : startPos < maxSeqLen)
    (uploaded : dStartPos 0 = startPos) : KernelsAgree F dStartPos startPos maxSeqLen where
  write caches K_in V_in := write_dynamic caches K_in V_in inside uploaded
  writeInt8 caches K_in V_in := write_int8_dynamic caches K_in V_in inside uploaded
  sdpa _ _ _ _ _ _ _ _ _ := by rw [sdpaCausalCachedDynamic, uploaded, sdpaCausalCached]
  sdpaInt8 _ _ _ _ _ _ _ _ _ := by rw [sdpaCausalCachedInt8Dynamic, uploaded, sdpaCausalCachedInt8]

/-- Decoding by replays is eager decoding: the kernels agree at every position of the cache, and so do the answers,
the length and the storage behind every sequence of steps. -/
theorem replay_agrees {dStartPos : Nat → Int} {startPos maxSeqLen : Nat} (inside : startPos < maxSeqLen)
    (uploaded : dStartPos 0 = startPos) (shaped : Shaped T.config) (g : DecodeGraph F) (kv : Counters)
    (within : kv.currentSeqLen ≤ kv.maxSeqLen) (typed : kv.maxSeqLen < 2 ^ 63) (storage : Storage F)
    (steps : List (Int × DeviceMemory F)) :
    KernelsAgree F dStartPos startPos maxSeqLen ∧
      let eager := eagerRun T kv storage steps
      ∃ g', replayRun T (g.capture T kv.maxSeqLen true true).2 kv storage (steps.map Prod.fst) =
        .ok (eager.1, g', eager.2) :=
  ⟨kernels_agree inside uploaded, run_agrees storage shaped (capture_ready g within typed) steps⟩

/-- What the operations make of zeros. -/
noncomputable def onZeros : Operations ℝ Unit where
  rmsnorm _ _ rows dim := List.replicate (rows * dim) 0
  linearInt4 _ _ M N _ := List.replicate (M * N) 0
  rope q k _ _ _ _ _ := (q, k)
  gateOutput attnOut _ _ _ _ := attnOut
  causalConv1dSilu _ _ seqLen convState numChannels := (List.replicate (seqLen * numChannels) 0, convState)
  recurrentGatedDeltaNet _ z _ _ _ _ _ state _ _ := (z, state)
  addInplace x _ _ := x
  mlpGateUpSwigluInt4 _ _ _ M N _ := List.replicate (M * N) 0

/-- One layer of either kind. -/
noncomputable def twoLayers : Target ℝ Unit where
  config := ModelConfig.defaults
  isInt8 := true
  ops := onZeros
  embedTokens _ := 0
  layers := [⟨(), .linear () () () () () () () () (), (), (), (), ()⟩, ⟨(), .full () () () () () (), (), (), (), ()⟩]
  finalNorm := ()
  lmHead := ()

noncomputable def idle : DecodeGraph ℝ := ⟨fun _ => 0, fun _ => 0, blank.bufs, [], fun _ => none, none⟩

/-- Two tokens, and one that the vocabulary does not have. -/
theorem replay_agrees_zeros :
    let kv : Counters := ⟨4, 1, ⟨fun _ => (), ()⟩, (), false⟩
    let steps : List (Int × DeviceMemory ℝ) := [(3, blank), (300000, blank), (0, blank)]
    KernelsAgree ℝ (fun _ => 1) 1 4 ∧
      let eager := eagerRun twoLayers kv blank.storage steps
      ∃ g', replayRun twoLayers (idle.capture twoLayers 4 true true).2 kv blank.storage [3, 300000, 0] =
        .ok (eager.1, g', eager.2) := by
  intro kv steps
  have inside : 1 < 4 := by decide
  have uploaded : (fun _ : Nat => (1 : Int)) 0 = ((1 : Nat) : Int) := rfl
  have shaped : Shaped twoLayers.config := ⟨by decide, by decide⟩
  exact replay_agrees twoLayers inside uploaded shaped idle kv (by decide) (by decide) blank.storage steps

end Agreement

end XInfer.GraphReplay
