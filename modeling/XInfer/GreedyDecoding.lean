import XInfer.PassRuns
import XInfer.ParallelArgmax
import XInfer.Forward

/-!
Decoding on the device: `prefill_prompt` of `targets/qwen3_8/forward.cpp`, and steps that each submit a pass or replay
the recorded one. Every token that is answered is a greatest logit of the network behind all tokens before it,
whatever the chunks of the prompt, the ways of the steps and the contents of the buffers.
-/

namespace XInfer.GreedyDecoding

open AttentionKernels DecodePass GraphReplay LayerKernels LayerRows LinearLayers PassRefinement PassRuns Placed
open Primitives VisionGate

section Device

variable {F Weight : Type} [DeviceExp F] (T : Target F Weight)

/-- The `memset` of `KVCache::clear`; the slots keep what they hold. -/
def clearStorage (storage : Storage F) : Storage F :=
  { storage with
    convState := fun layer => (storage.convState layer).map fun _ => 0
    linearState := fun layer => (storage.linearState layer).map fun _ => 0 }

/-- A call of `forward_chunk`, with a buffer for logits or without one. -/
def forwardChunk (maxSeqLen : Nat) (tokens : List Int) (startPos : Nat) (zeroLinearState out : Bool)
    (m : DeviceMemory F) : DeviceMemory F :=
  if tokens = [] ∨ maxSeqLen < startPos + tokens.length then m
  else run ([embedTokensLookup T tokens.length] ++
      forwardLayers T maxSeqLen tokens.length startPos false zeroLinearState T.layers 0 0 ++
      if out then [forwardLmHead T tokens.length] else [])
    { m with
      tokenIds := fun i => tokens.getD i (m.tokenIds i)
      positions := Launches.launch tokens.length (fun i => [(i, (startPos : Int) + i)]) m.positions }

/-- The loop of `prefill_prompt`. The arena is reset before each call, so its buffers hold anything. -/
def prefillChunks (maxSeqLen chunkSize : Nat) (stale : Nat → DeviceMemory F) :
    Nat → List Int → Nat → List F × Storage F → List F × Storage F
  | 0, _, _, done => done
  | fuel + 1, pending, offset, done =>
      if pending = [] then done
      else
        let chunk := pending.take chunkSize
        let isLast := decide (pending.length ≤ chunkSize)
        let after := forwardChunk T maxSeqLen chunk offset (decide (offset = 0)) isLast
          { stale offset with logits := done.1, storage := done.2 }
        prefillChunks maxSeqLen chunkSize stale fuel (pending.drop chunkSize) (offset + chunk.length)
          (after.logits, after.storage)

/-- `prefill_prompt` without an image. `dLogits` is what the row for the logits holds. -/
def prefillPrompt (kv : Counters) (promptTokens : List Int) (chunkSize : Nat) (dLogits : List F)
    (stale : Nat → DeviceMemory F) (storage : Storage F) : Except Exn (Int × Counters × Storage F) :=
  if promptTokens = [] then .ok (0, kv, storage)
  else if kv.maxSeqLen < promptTokens.length then
    .error (.contextLengthExceeded (Forward.promptTooLong promptTokens.length kv.maxSeqLen))
  else
    match checkVision T.config none promptTokens with
    | .error refused => .error refused
    | .ok _ =>
        if promptTokens.all fun token => decide (T.config.InVocab token) then
          let done := prefillChunks T kv.maxSeqLen (if chunkSize = 0 then 512 else chunkSize) stale promptTokens.length
            promptTokens 0 (dLogits, clearStorage storage)
          .ok (argmax T done.1 fun _ => none, (kv.clear ()).setSeqLen promptTokens.length, done.2)
        else .ok (-1, kv, storage)

/-- A step submits its pass when the buffers of one are given, and replays the graph otherwise. -/
def singleStep (g : DecodeGraph F) (kv : Counters) (storage : Storage F) (token : Int) :
    Option (DeviceMemory F) → Except Exn (Int × DecodeGraph F × Counters × Storage F)
  | some m =>
      let done := eagerStep T kv (token, m) storage
      .ok (done.1, g, done.2)
  | none => replayStep T g kv token storage

/-- Each step is given the answer of the one before it. -/
def decodeSteps (g : DecodeGraph F) (kv : Counters) (storage : Storage F) (token : Int) :
    List (Option (DeviceMemory F)) → Except Exn (List Int × DecodeGraph F × Counters × Storage F)
  | [] => .ok ([], g, kv, storage)
  | way :: rest => do
      let (next, g, kv, storage) ← singleStep T g kv storage token way
      let (later, last) ← decodeSteps g kv storage next rest
      return (next :: later, last)

def generate (g : DecodeGraph F) (kv : Counters) (promptTokens : List Int) (chunkSize : Nat) (dLogits : List F)
    (stale : Nat → DeviceMemory F) (storage : Storage F) (ways : List (Option (DeviceMemory F))) :
    Except Exn (List Int × DecodeGraph F × Counters × Storage F) := do
  let (first, kv, storage) ← prefillPrompt T kv promptTokens chunkSize dLogits stale storage
  let (later, last) ← decodeSteps T g kv storage first ways
  return (first :: later, last)

/-- Logits are not stored with the cache. -/
theorem forwardChunk_storage (maxSeqLen : Nat) (tokens : List Int) (startPos : Nat) (zeroLinearState out : Bool)
    (m : DeviceMemory F) : (forwardChunk T maxSeqLen tokens startPos zeroLinearState out m).storage =
      (GraphReplay.forwardChunk T maxSeqLen tokens startPos zeroLinearState m).storage := by
  unfold forwardChunk GraphReplay.forwardChunk
  by_cases refused : tokens = [] ∨ maxSeqLen < startPos + tokens.length
  · rw [if_pos refused, if_pos refused]
  · rw [if_neg refused, if_neg refused, passSubmissions, PassRules.run_append _ [forwardLmHead T tokens.length]]
    cases out with
    | true => rw [if_pos rfl, PassRules.run_append]
    | false =>
        rw [if_neg (by decide), List.append_nil]
        rfl

theorem forwardChunk_out (maxSeqLen : Nat) (tokens : List Int) (startPos : Nat) (zeroLinearState : Bool)
    (m : DeviceMemory F) : forwardChunk T maxSeqLen tokens startPos zeroLinearState true m =
      GraphReplay.forwardChunk T maxSeqLen tokens startPos zeroLinearState m := rfl

/-- The recording of `DecodeGraph`, where a step needs it. -/
def Recorded (g : DecodeGraph F) (maxSeqLen : Nat) (ways : List (Option (DeviceMemory F))) : Prop :=
  none ∈ ways → g.execGraph = some (passSubmissions T maxSeqLen 1 0 true false)

variable {T}

/-- Either way, a step is a pass over its token. -/
theorem singleStep_made (shaped : PassRules.Shaped T.config) {g : DecodeGraph F} {kv : Counters}
    (typed : kv.maxSeqLen < 2 ^ 63) (way : Option (DeviceMemory F)) (recorded : Recorded T g kv.maxSeqLen [way])
    (room : kv.currentSeqLen < kv.maxSeqLen) {token : Int} (valid : T.config.InVocab token) (storage : Storage F) :
    let longer : Counters := { kv with currentSeqLen := kv.currentSeqLen + 1 }
    ∃ (m : DeviceMemory F) (g' : DecodeGraph F),
      let after := GraphReplay.forwardChunk T kv.maxSeqLen [token] kv.currentSeqLen false { m with storage := storage }
      singleStep T g kv storage token way = .ok (argmax T after.logits fun _ => none, g', longer, after.storage) ∧
        g'.execGraph = g.execGraph := by
  intro longer
  cases way with
  | some m =>
      -- the graph plays no part
      have ready : Ready T { g with execGraph := some (passSubmissions T kv.maxSeqLen 1 0 true false) } kv :=
        ⟨rfl, room.le, typed⟩
      refine ⟨m, g, ?_, rfl⟩
      rw [singleStep, (step_made storage shaped ready room valid m).1]
  | none =>
      have ready : Ready T g kv := ⟨recorded (List.mem_singleton.2 rfl), room.le, typed⟩
      obtain ⟨-, g', stepped, kept⟩ := step_made storage shaped ready room valid (g.memory storage)
      exact ⟨g.memory storage, g', stepped, kept⟩

end Device

section Predictions

variable {M : LoadedModel} (vocabulary : 0 < M.config.vocabSize) (maxSeqLen : Nat)

/-- No slot written, and all states zero. -/
noncomputable def empty : (network M vocabulary).Cache := ⟨fun _ _ => 0, (network M vocabulary).cleared⟩

theorem clearStorage_state (storage : Storage ℝ) (layer : Nat) :
    layerState M (clearStorage storage) layer = ⟨⟨0, 0, 0⟩, 0⟩ := by
  have zero : ∀ (buffer : List ℝ) (i : Nat), elements (buffer.map fun _ => (0 : ℝ)) i = 0 := by
    intro buffer i
    unfold elements
    simp [List.getD_eq_getElem?_getD]
  have row : ∀ (buffer : List ℝ) (n t : Nat), rowOf n (elements (buffer.map fun _ => (0 : ℝ))) t = 0 := by
    intro buffer n t
    funext i
    exact zero buffer _
  simp only [layerState, convOf, deltaOf, clearStorage, row]

/-- What the network leaves behind some tokens. -/
noncomputable def history (tokens : List Int) : (network M vocabulary).Cache :=
  ((network M vocabulary).machine.pass maxSeqLen false (empty vocabulary) tokens 0).1

/-- The logits of the network behind some tokens. -/
noncomputable def predict (tokens : List Int) : Option (LogitsRow M) :=
  ((network M vocabulary).machine.pass maxSeqLen false (empty vocabulary) tokens 0).2.getLast?

/-- A token with a greatest logit. -/
def Chosen {n : Nat} (row : Row n) (token : Int) : Prop :=
  ∃ best : Fin n, token = (best : Nat) ∧ ∀ i, row i ≤ row best

include vocabulary in
/-- The answer of the kernel on a row of logits. -/
theorem argmax_chosen (logits : List ℝ) (scratch : Nat → Argmax.Lane ℝ) :
    Chosen (logitsOf M logits) (argmax M.target logits scratch) := by
  have filled : 0 < M.config.vocabSize.toNat := by omega
  obtain ⟨index, inside, answer, greatest⟩ :=
    ParallelArgmax.argmax_greatest (elements logits) filled scratch
  refine ⟨⟨index, inside⟩, answer, fun i => ?_⟩
  have above := greatest i i.isLt
  simp only [logitsOf, rowOf, Nat.zero_mul, Nat.zero_add]
  exact above

/-- The storage has what the network leaves behind some tokens, as far as they go. -/
def Follows (tokens : List Int) (storage : Storage ℝ) : Prop :=
  (cache vocabulary storage).Agree tokens.length (history vocabulary maxSeqLen tokens)

variable {vocabulary maxSeqLen}

theorem history_append (front back : List Int) : history vocabulary maxSeqLen (front ++ back) =
    ((network M vocabulary).machine.pass maxSeqLen false (history vocabulary maxSeqLen front) back front.length).1 := by
  rw [history, Machine.pass_append, Nat.zero_add]
  rfl

theorem predict_append (front : List Int) {back : List Int} (some' : back ≠ []) :
    predict vocabulary maxSeqLen (front ++ back) = ((network M vocabulary).machine.pass maxSeqLen false
      (history vocabulary maxSeqLen front) back front.length).2.getLast? := by
  have rows : ((network M vocabulary).machine.pass maxSeqLen false (history vocabulary maxSeqLen front) back
      front.length).2 ≠ [] := by
    rw [← List.length_pos_iff, Machine.pass_length]
    exact List.length_pos_iff.2 some'
  rw [predict, Machine.pass_append, Nat.zero_add]
  exact List.getLast?_append_of_ne_nil _ rows

/-- A call behind some tokens leaves what the network leaves behind these and its own, and has its logits. -/
theorem chunk_follows (supported : M.Supported) {front chunk : List Int} (some' : chunk ≠ [])
    (room : front.length + chunk.length ≤ maxSeqLen) {zeroLinear : Bool} (early : zeroLinear = true → front = [])
    {m : DeviceMemory ℝ} (follows : Follows vocabulary maxSeqLen front m.storage) :
    let after := GraphReplay.forwardChunk M.target maxSeqLen chunk front.length zeroLinear m
    Follows vocabulary maxSeqLen (front ++ chunk) after.storage ∧
      predict vocabulary maxSeqLen (front ++ chunk) = some (logitsOf M after.logits) := by
  intro after
  obtain ⟨stored, last⟩ := chunk_refines vocabulary supported zeroLinear some' room m
  rw [← Network.machine_pass] at stored last
  -- the flag finds states that are clear already
  have unflagged : (network M vocabulary).machine.pass maxSeqLen zeroLinear (cache vocabulary m.storage) chunk
      front.length = (network M vocabulary).machine.pass maxSeqLen false (cache vocabulary m.storage) chunk
        front.length := by
    cases zeroLinear with
    | false => rfl
    | true =>
        obtain rfl := early rfl
        exact Machine.pass_zero _ _ _ _ _ follows.2
  rw [unflagged] at stored last
  obtain ⟨kept, rows⟩ := (network M vocabulary).machine.pass_agree chunk follows room
  constructor
  · unfold Follows
    rw [List.length_append, history_append]
    exact (congrArg (fun memory => Memory.Agree _ memory _) stored).mpr kept
  · rw [predict_append front some', ← rows, last]
    rfl

/-- The loop over the chunks; only its last call has logits. -/
theorem prefillChunks_follows (supported : M.Supported) {chunkSize : Nat} (size : 0 < chunkSize)
    (stale : Nat → DeviceMemory ℝ) {fuel : Nat} (front : List Int) {pending : List Int}
    (enough : pending.length ≤ fuel) (room : front.length + pending.length ≤ maxSeqLen) (done : List ℝ × Storage ℝ)
    (follows : Follows vocabulary maxSeqLen front done.2) :
    let finished := prefillChunks M.target maxSeqLen chunkSize stale fuel pending front.length done
    Follows vocabulary maxSeqLen (front ++ pending) finished.2 ∧
      (pending ≠ [] → predict vocabulary maxSeqLen (front ++ pending) = some (logitsOf M finished.1)) := by
  induction fuel generalizing front pending done with
  | zero =>
      obtain rfl : pending = [] := List.length_eq_zero_iff.1 (Nat.le_zero.1 enough)
      rw [List.append_nil]
      exact ⟨follows, fun some' => absurd rfl some'⟩
  | succ fuel ih =>
      by_cases some' : pending = []
      · subst some'
        rw [List.append_nil]
        exact ⟨follows, fun contra => absurd rfl contra⟩
      · have positive := List.length_pos_iff.2 some'
        have width : (pending.take chunkSize).length = min chunkSize pending.length := List.length_take
        have filled : pending.take chunkSize ≠ [] := List.length_pos_iff.1 (by omega)
        let entered : DeviceMemory ℝ := { stale front.length with logits := done.1, storage := done.2 }
        let isLast := decide (pending.length ≤ chunkSize)
        let after := forwardChunk M.target maxSeqLen (pending.take chunkSize) front.length
          (decide (front.length = 0)) isLast entered
        obtain ⟨stored, last⟩ := chunk_follows supported filled (show front.length + _ ≤ maxSeqLen by omega)
          (fun first => List.length_eq_zero_iff.1 (of_decide_eq_true first)) (m := entered) follows
        rw [← forwardChunk_storage M.target _ _ _ _ isLast] at stored
        have remains : (pending.drop chunkSize).length ≤ fuel := by
          rw [List.length_drop]
          omega
        have later := ih (front ++ pending.take chunkSize) remains (by rw [List.length_append, List.length_drop]; omega)
          (after.logits, after.storage) stored
        have unrolled : prefillChunks M.target maxSeqLen chunkSize stale (fuel + 1) pending front.length done =
            prefillChunks M.target maxSeqLen chunkSize stale fuel (pending.drop chunkSize)
              (front.length + (pending.take chunkSize).length) (after.logits, after.storage) := by
          rw [prefillChunks, if_neg some']
        rw [List.length_append, List.append_assoc, List.take_append_drop] at later
        dsimp only
        rw [unrolled]
        refine ⟨later.1, fun _ => ?_⟩
        by_cases final : pending.length ≤ chunkSize
        · -- the chunk is all that was pending, and its logits stay
          have nothing : pending.drop chunkSize = [] := List.drop_eq_nil_of_le final
          have all : pending.take chunkSize = pending := List.take_of_length_le final
          have stays : prefillChunks M.target maxSeqLen chunkSize stale fuel []
              (front.length + (pending.take chunkSize).length) (after.logits, after.storage) =
                (after.logits, after.storage) := by
            cases fuel <;> rfl
          have asked : isLast = true := decide_eq_true final
          have answered : after.logits = (GraphReplay.forwardChunk M.target maxSeqLen (pending.take chunkSize)
              front.length (decide (front.length = 0)) entered).logits := by
            dsimp only [after]
            rw [asked, forwardChunk_out]
          rw [nothing, stays]
          dsimp only
          rw [answered, ← last, all]
        · apply later.2
          rw [← List.length_pos_iff, List.length_drop]
          omega

variable (vocabulary maxSeqLen) in
/-- Tokens that each have a greatest logit behind all before them. -/
inductive Greedy : List Int → List Int → Prop
  | nil (front : List Int) : Greedy front []
  | cons {front rest : List Int} {token : Int} {row : LogitsRow M}
      (predicted : predict vocabulary maxSeqLen front = some row) (chosen : Chosen row token)
      (later : Greedy (front ++ [token]) rest) : Greedy front (token :: rest)

theorem chosen_inVocab {row : LogitsRow M} {token : Int} (chosen : Chosen row token) : M.config.InVocab token := by
  obtain ⟨best, rfl, -⟩ := chosen
  have inside := best.isLt
  constructor
  · exact Int.natCast_nonneg _
  · omega

theorem shaped_of (supported : M.Supported) : PassRules.Shaped M.config :=
  ⟨supported.lanes, Nat.pos_of_dvd_of_pos supported.grouped supported.queryHeads⟩

/-- Steps behind some tokens, the first of them with a token that is given. -/
theorem decodeSteps_follows (supported : M.Supported) {ways : List (Option (DeviceMemory ℝ))} (g : DecodeGraph ℝ)
    (kv : Counters) (typed : kv.maxSeqLen < 2 ^ 63) (recorded : Recorded M.target g kv.maxSeqLen ways)
    (front : List Int) (here : kv.currentSeqLen = front.length) (room : front.length + ways.length ≤ kv.maxSeqLen)
    {token : Int} (valid : M.config.InVocab token) {storage : Storage ℝ}
    (follows : Follows vocabulary kv.maxSeqLen front storage) :
    let longer : Counters := { kv with currentSeqLen := front.length + ways.length }
    ∃ tokens g' storage', decodeSteps M.target g kv storage token ways = .ok (tokens, g', longer, storage') ∧
      tokens.length = ways.length ∧ Greedy vocabulary kv.maxSeqLen (front ++ [token]) tokens ∧
      Follows vocabulary kv.maxSeqLen (front ++ (token :: tokens).dropLast) storage' := by
  induction ways generalizing g kv front token storage with
  | nil =>
      refine ⟨[], g, storage, ?_, rfl, .nil _, ?_⟩
      · rw [decodeSteps, List.length_nil, Nat.add_zero, ← here]
      · rwa [List.dropLast_singleton, List.append_nil]
  | cons way rest ih =>
      rw [List.length_cons] at room
      obtain ⟨m, g', stepped, kept⟩ := singleStep_made (T := M.target) (shaped_of supported) typed way
        (fun member => recorded (List.mem_singleton.1 member ▸ List.mem_cons_self)) (by omega) valid storage
      rw [here] at stepped
      obtain ⟨stored, predicted⟩ := chunk_follows supported (List.cons_ne_nil token [])
        (show front.length + 1 ≤ kv.maxSeqLen by omega) (fun flag : false = true => nomatch flag)
        (m := { m with storage := storage }) follows
      have chosen := argmax_chosen vocabulary (GraphReplay.forwardChunk M.target kv.maxSeqLen [token] front.length false
        { m with storage := storage }).logits fun _ => none
      have longer : (front ++ [token]).length = front.length + 1 := List.length_append
      obtain ⟨tokens, g'', storage', ran, count, greedy, final⟩ :=
        ih g' { kv with currentSeqLen := front.length + 1 } typed
          (fun member => kept.trans (recorded (List.mem_cons_of_mem way member))) (front ++ [token]) longer.symm
          (show (front ++ [token]).length + rest.length ≤ kv.maxSeqLen by omega) (chosen_inVocab chosen) stored
      refine ⟨_ :: tokens, g'', storage', ?_, congrArg (· + 1) count, .cons predicted chosen greedy, ?_⟩
      · rw [decodeSteps, stepped]
        dsimp only [bind, Except.bind]
        rw [ran, List.length_cons, longer, Nat.add_right_comm, Nat.add_assoc]
        rfl
      · rw [List.append_assoc] at final
        exact final

/-- Generation on the device is greedy decoding by the network. -/
theorem generate_greedy (supported : M.Supported) (kv : Counters) (typed : kv.maxSeqLen < 2 ^ 63)
    {promptTokens : List Int} (some' : promptTokens ≠ []) (known : ∀ token ∈ promptTokens, M.config.InVocab token)
    (noVisual : visualTokenCount M.config promptTokens = 0) {g : DecodeGraph ℝ}
    {ways : List (Option (DeviceMemory ℝ))} (recorded : Recorded M.target g kv.maxSeqLen ways)
    (room : promptTokens.length + ways.length ≤ kv.maxSeqLen)
    (chunkSize : Nat) (dLogits : List ℝ) (stale : Nat → DeviceMemory ℝ) (storage : Storage ℝ) :
    ∃ tokens g' kv' storage',
      generate M.target g kv promptTokens chunkSize dLogits stale storage ways = .ok (tokens, g', kv', storage') ∧
        tokens.length = ways.length + 1 ∧ kv'.currentSeqLen = promptTokens.length + ways.length ∧
        Greedy vocabulary kv.maxSeqLen promptTokens tokens ∧
        Follows vocabulary kv.maxSeqLen (promptTokens ++ tokens.dropLast) storage' := by
  have absent : checkVision M.config none promptTokens = .ok 0 := by
    rcases checkVision_none M.config promptTokens with ⟨-, passed⟩ | ⟨present, -⟩
    · exact passed
    · exact absurd noVisual (Nat.pos_iff_ne_zero.1 present)
  have size : 0 < (if chunkSize = 0 then 512 else chunkSize) := by
    split
    · decide
    · omega
  -- the states are clear, and no slot is read yet
  have start : Follows vocabulary kv.maxSeqLen [] (clearStorage storage) := by
    apply Memory.agree_zero
    funext layer
    exact clearStorage_state storage layer
  obtain ⟨stored, predicted⟩ := prefillChunks_follows supported size stale [] (le_refl promptTokens.length)
    (show 0 + promptTokens.length ≤ kv.maxSeqLen by omega) (dLogits, clearStorage storage) start
  let done := prefillChunks M.target kv.maxSeqLen (if chunkSize = 0 then 512 else chunkSize) stale promptTokens.length
    promptTokens 0 (dLogits, clearStorage storage)
  have chosen := argmax_chosen vocabulary done.1 fun _ => none
  let filled : Counters := (kv.clear ()).setSeqLen promptTokens.length
  have fits : promptTokens.length ≤ kv.maxSeqLen := by omega
  have here : filled.currentSeqLen = promptTokens.length := Nat.min_eq_left fits
  have prefilled : prefillPrompt M.target kv promptTokens chunkSize dLogits stale storage =
      .ok (argmax M.target done.1 fun _ => none, filled, done.2) := by
    have inside : promptTokens.all (fun token => decide (M.target.config.InVocab token)) = true :=
      List.all_eq_true.2 fun token member => decide_eq_true (known token member)
    rw [prefillPrompt, if_neg some', if_neg (by omega),
      show checkVision M.target.config none promptTokens = .ok 0 from absent]
    dsimp only
    rw [if_pos inside]
  obtain ⟨tokens, g', storage', ran, count, greedy, final⟩ := decodeSteps_follows supported g filled typed recorded
    promptTokens here room (chosen_inVocab chosen) stored
  let longer : Counters := { filled with currentSeqLen := promptTokens.length + ways.length }
  have generated : generate M.target g kv promptTokens chunkSize dLogits stale storage ways =
      .ok ((argmax M.target done.1 fun _ => none) :: tokens, g', longer, storage') := by
    rw [generate, prefilled]
    dsimp only [bind, Except.bind]
    rw [show decodeSteps M.target g filled done.2 (argmax M.target done.1 fun _ => none) ways = _ from ran]
    rfl
  exact ⟨_, g', longer, storage', generated, congrArg (· + 1) count, rfl, .cons (predicted some') chosen greedy, final⟩

/-- A prompt in two calls, then a pass and two replays. -/
theorem generate_greedy_twoLayers :
    let kv : Counters := ⟨8, 5, ⟨fun _ => (), ()⟩, (), true⟩
    let g := (idle.capture PassRefinement.twoLayers.target 8 true true).2
    let ways : List (Option (DeviceMemory ℝ)) := [some PassRules.blank, none, none]
    ∃ tokens g' kv' storage',
      generate PassRefinement.twoLayers.target g kv [5, 6] 1 [] (fun _ => PassRules.blank) PassRules.blank.storage
          ways = .ok (tokens, g', kv', storage') ∧
        tokens.length = ways.length + 1 ∧ kv'.currentSeqLen = 2 + ways.length ∧
        Greedy twoLayers_vocabulary 8 [5, 6] tokens ∧
        Follows twoLayers_vocabulary 8 ([5, 6] ++ tokens.dropLast) storage' := by
  intro kv g ways
  have known : ∀ token ∈ [5, 6], PassRefinement.twoLayers.config.InVocab token := by decide
  have recorded : Recorded PassRefinement.twoLayers.target g 8 ways := fun _ => rfl
  exact generate_greedy twoLayers_supported kv (by decide) (by decide) known (by decide) recorded (by decide) 1 []
    (fun _ => PassRules.blank) PassRules.blank.storage

end Predictions

end XInfer.GreedyDecoding
