import XInfer.CallRules
import XInfer.ImageChecks
import XInfer.ImagePlaceholders
import XInfer.PromptTags
import XInfer.SpecialScan
import XInfer.StreamingHandler
import XInfer.TurnCount

/-!
What becomes of the images of a request. `generate` calls `prefill_prompt` without a `vision_input`, so
a request with images can only be answered with an error; the check that sees to it counts the visual
tokens of the prompt, and an image whose tag the template does not expand leaves none.
-/

namespace XInfer.ImageAnswers

open Primitives ByteString Occurrences StateException Device DeviceRules Forward ForwardRules VisionGate Tokenizer
  Generation SessionRules LoopRules CallRules ChatRequests ImageChecks ImagePlaceholders SpecialScan
  ChatTurns PromptTags
open ChatTemplate
open ServeJson hiding find
open StreamingHandler

section Success

variable {KV Rec Logits : Type} {E : Engine} {B : Backend KV Rec Logits} {P : Platform KV Rec}
  {text : Bytes} {g : GenerationConfig} {callback : Option TokenCallback} {s last : Session KV Rec Logits}

/-- A prefill that answers a token has passed the checks of its prompt. -/
theorem prefill_readable {tokens : List Int} {chunkSize : Nat} {first : Int} {d after : Device KV Rec Logits}
    (some' : tokens ≠ []) (run : prefillPrompt B P tokens chunkSize d = .ok first after) (chosen : 0 ≤ first) :
    Readable B.config tokens := by
  unfold prefillPrompt at run
  rw [if_neg some'] at run
  obtain ⟨kv, _, read, next⟩ := bind_ok run
  split at next
  · cases next
  obtain ⟨count, _, checked, begun⟩ := bind_ok next
  rcases checkVision_none B.config tokens with ⟨none, passes⟩ | ⟨_, what, refused⟩
  · refine ⟨none, ?_⟩
    split at begun
    · rename_i known
      intro token member
      simpa using List.all_eq_true.mp known token member
    · cases begun
      exact absurd chosen (by decide)
  · rw [refused] at checked
    cases checked

/-- What a successful call tells of its request. -/
structure Begun (E : Engine) (cfg : ModelConfig) (g : GenerationConfig) (limit : Nat) (tokens : List Int) :
    Prop where
  nonempty : tokens ≠ []
  valid : validateTokens limit tokens.length g.maxNewTokens = none
  readable : Readable cfg tokens
  ends : 0 ≤ (request E g none).eosTok

def Success (answer : Option GenerationResult) : Prop := ∀ early, answer = some early → early.success = true

theorem failed_success (code message : Bytes) : ¬ Success (some (failed code message s)) :=
  fun success => Bool.false_ne_true (success _ rfl)

theorem prepareTokens_begun {tokens : List Int} {answer : Option GenerationResult}
    (run : prepareTokens E B P g callback tokens s = .ok answer last) (success : Success answer) :
    Begun E B.config g s.device.kv.maxSeqLen tokens := by
  unfold prepareTokens at run
  split at run
  · cases run
    exact absurd success (failed_success _ _)
  · rename_i some'
    simp only [bind_apply, modify_apply, read_apply] at run
    cases valid : validateTokens s.device.kv.maxSeqLen tokens.length g.maxNewTokens with
    | some message =>
        rw [valid] at run
        cases run
        exact absurd success (failed_success _ _)
    | none =>
        rw [valid] at run
        obtain ⟨first, filled, prefill, admitted⟩ := bind_ok run
        split at admitted
        · cases admitted
          exact absurd success (failed_success _ _)
        · rename_i chosen
          have readable : Readable B.config tokens := by
            unfold onDevice within at prefill
            dsimp only at prefill
            cases pass : prefillPrompt B P tokens E.config.prefillChunkSize s.device with
            | ok reply after =>
                rw [pass] at prefill
                cases prefill
                exact prefill_readable some' pass (by omega)
            | error thrown after =>
                rw [pass] at prefill
                cases prefill
          refine ⟨some', valid, readable, ?_⟩
          unfold admitFirst at admitted
          split at admitted
          · cases admitted
            exact absurd success (failed_success _ _)
          · rename_i ends
            exact not_lt.mp ends

/-- A call that succeeds has found nothing to refuse. -/
theorem generateSession_begun {result : GenerationResult}
    (run : generateSession E B P text g callback s = .ok result last) (success : result.success = true) :
    refuseOptions E g = none ∧ ∃ tokens, (encode E.tokenizer (inputText E text g) s.bpeCache).1 = .ok tokens ∧
      Begun E B.config g s.device.kv.maxSeqLen tokens := by
  unfold generateSession guarded at run
  dsimp only at run
  cases body : generateBody E B P text g callback s with
  | error thrown after =>
      rw [body] at run
      obtain ⟨_, _, _, answered⟩ := bind_ok run
      cases answered
      exact absurd success Bool.false_ne_true
  | ok reply after =>
      rw [body] at run
      cases run
      obtain ⟨answer, middle, prepared, rest⟩ := bind_ok body
      have early : Success answer := by
        rintro early rfl
        cases rest
        exact success
      unfold prepare at prepared
      cases options : refuseOptions E g with
      | some refusal =>
          rw [options] at prepared
          cases prepared
          exact absurd early (failed_success _ _)
      | none =>
          rw [options] at prepared
          obtain ⟨tokens, entered, encoded, begun⟩ := bind_ok prepared
          unfold encodePrompt at encoded
          dsimp only at encoded
          cases outcome : (encode E.tokenizer (inputText E text g) s.bpeCache).1 with
          | error thrown =>
              rw [outcome] at encoded
              cases encoded
          | ok found =>
              rw [outcome] at encoded
              cases encoded
              have known := prepareTokens_begun begun early
              exact ⟨rfl, tokens, rfl, known⟩

end Success

section Requests

variable {KV Rec Logits : Type} (E : Engine) (B : Backend KV Rec Logits) (P : Platform KV Rec)

/-- What inference is given of an accepted request. -/
def chatRequest (request : ChatCompletionRequest) (int : request.maxTokens < 2 ^ 31) : ChatRequest where
  messages := request.messages
  maxTokens := request.maxTokens
  maxTokens_lt := int
  temperature := request.temperature
  topP := request.topP
  stream := request.stream

/-- A request whose prompt is `tokens`, and that no check refuses but those of `prefill_prompt` on its
images. -/
structure Plain (cfg : ModelConfig) (req : ChatRequest) (tokens : List Int) : Prop where
  loaded : E.isLoaded = true
  sampling : refuseSampling req = none
  encoded : (encode E.tokenizer (prompt E req) []).1 = .ok tokens
  nonempty : tokens ≠ []
  known : ∀ tok ∈ tokens, cfg.InVocab tok
  ends : 0 ≤ E.tokenizer.eosTokenId
  /-- No cache has more rows. -/
  window : tokens.length + req.maxTokens.toNat < 2 ^ 63

variable {E B P} {req : ChatRequest} {sends : List Delta → Bool} {runtime : Runtime KV Rec Logits}

theorem refuse_none (passed : (refuse E req runtime).1 = none) : refuseSampling req = none := by
  unfold refuse at passed
  cases sampling : refuseSampling req with
  | none => rfl
  | some error =>
      rw [sampling] at passed
      cases passed

theorem refuse_cache (consistent : CacheConsistent E.tokenizer runtime.bpeCache) :
    CacheConsistent E.tokenizer (refuse E req runtime).2.bpeCache := by
  have counted : CacheConsistent E.tokenizer (countTokens E (prompt E req) runtime.bpeCache).2 := by
    unfold countTokens
    split
    · exact consistent
    · exact (encode_consistent _ consistent consistent).2.1
  unfold refuse
  split
  · exact consistent
  · dsimp only
    split
    · exact counted
    · split <;> exact counted

theorem refuse_device : (refuse E req runtime).2.device = runtime.device := by
  unfold refuse
  split
  · rfl
  · dsimp only
    split
    · rfl
    · split <;> rfl

theorem infer_ok {result : GenerationResult} (answered : (infer E B P sends req runtime).1 = .ok result) :
    ∃ callback last, generateSession E B P (prompt E req) (generationConfig req) callback (enter runtime) =
      .ok result last := by
  unfold infer at answered
  dsimp only at answered
  split at answered
  · rename_i run
    cases answered
    exact ⟨_, _, run⟩
  · cases answered

theorem infer_of_session {result : GenerationResult} {last : Session KV Rec Logits}
    (run : generateSession E B P (prompt E req) (generationConfig req)
      (if req.stream then some (streamCallback E sends) else none) (enter runtime) = .ok result last) :
    (infer E B P sends req runtime).1 = .ok result := by
  unfold infer
  dsimp only
  rw [run]

/-- A request that does not fail is plain, and its prompt holds no visual token. -/
theorem plain_of_answered (consistent : CacheConsistent E.tokenizer runtime.bpeCache)
    (word : runtime.device.kv.maxSeqLen < 2 ^ 63) (answered : ¬ Fails E B P sends req runtime) :
    ∃ tokens, Plain E B.config req tokens ∧ visualTokenCount B.config tokens = 0 := by
  obtain ⟨passed, replied⟩ := not_or.mp answered
  have sampling := refuse_none (not_not.mp passed)
  have succeeds := mt (nonStreamReply_error _).mpr replied
  push Not at succeeds
  obtain ⟨result, outcome, success⟩ := succeeds
  obtain ⟨callback, last, run⟩ := infer_ok outcome
  obtain ⟨options, tokens, encoded, begun⟩ := generateSession_begun run (Bool.eq_true_of_not_eq_false success)
  have same : (enter (refuse E req runtime).2).device.kv.maxSeqLen = runtime.device.kv.maxSeqLen := by
    show (refuse E req runtime).2.device.kv.maxSeqLen = _
    rw [refuse_device]
  have kept : CacheConsistent E.tokenizer (enter (refuse E req runtime).2).bpeCache := refuse_cache consistent
  have valid := begun.valid
  rw [same] at valid
  have loaded : E.isLoaded = true := by
    cases loaded : E.isLoaded with
    | true => rfl
    | false =>
        rw [refuseOptions, if_pos loaded] at options
        cases options
  refine ⟨tokens, ⟨loaded, sampling, ?_, begun.nonempty, begun.readable.2, begun.ends, ?_⟩, begun.readable.1⟩
  · rw [← encoded]
    exact (encode_consistent _ (consistent_nil E.tokenizer) kept).1
  · have room := validateTokens_none valid word (generationConfig req).maxNewTokens_lt
    have budget : (generationConfig req).maxNewTokens = req.maxTokens := rfl
    rw [budget] at room
    omega

end Requests

section Answering

theorem still_local : ∀ (_ : Nat) (slots other : Nat → Unit) (_ : Unit) (_ : Int) (position : Nat),
    (∀ i < position, slots i = other i) → ((), (), ()) = ((), (), ()) := fun _ _ _ _ _ _ _ => rfl

/-- A model that always chooses the same token. -/
def constant (cfg : ModelConfig) (tok : Int) (known : cfg.InVocab tok) : Machine Unit Unit Unit where
  config := cfg
  cleared := ()
  zeroLinear := fun _ => ()
  zeroLinear_cleared := rfl
  step := fun _ _ _ _ _ => ((), (), ())
  step_local := still_local
  argmax := fun _ => tok
  argmax_inVocab := fun _ => known

def roomy (limit : Nat) : Runtime Unit Unit Unit where
  device := { idleRuntime.device with kv := { idleRuntime.device.kv with maxSeqLen := limit } }
  bpeCache := []

theorem validateTokens_of_fits {limit promptTokens : Nat} {maxNewTokens : Int} (positive : 0 < maxNewTokens)
    (room : promptTokens + maxNewTokens.toNat ≤ limit) (word : limit < 2 ^ 63) :
    validateTokens limit promptTokens maxNewTokens = none := by
  have small : promptTokens + maxNewTokens.toNat < 2 ^ 64 := by omega
  unfold validateTokens
  rw [sizeAdd_of_lt small, if_neg (not_le.mpr positive), if_neg (by omega), if_neg (not_lt.mpr room)]

section Call

variable {KV Rec Logits : Type} (T : Machine KV Rec Logits) {P : Platform KV Rec} {maxSeqLen : Nat}
  {S : Setting P maxSeqLen T.config.logitsBytes} {R : Request} {E : Engine} {g : GenerationConfig}
  {callback : Option TokenCallback} {kv : KVCache KV Rec} {tok : Int} {s : Session KV Rec Logits}
  {tokens : List Int}

/-- A chosen token that ends the generation is answered before the loop. -/
theorem prepareTokens_stops (fits : Fits maxSeqLen kv) (serving : S.serving)
    (here : At S (request E g callback) .stop kv [] tok s) (nonempty : tokens ≠ [])
    (room : tokens.length ≤ maxSeqLen) (valid : validateTokens maxSeqLen tokens.length g.maxNewTokens = none)
    (readable : Readable T.config tokens) (ends : 0 ≤ (request E g callback).eosTok)
    (stops : ∀ first, T.Chooses first → (request E g callback).isStop first = true) :
    ∃ early last, prepareTokens E T.backend P g callback tokens s = .ok (some early) last ∧
      early.success = true := by
  have entered : At S (request E g callback) .stop kv [] tok { s with promptTokens := tokens.length } :=
    ⟨here.device, here.routing, here.calls, here.current, here.finish⟩
  have size : s.device.kv.maxSeqLen = maxSeqLen := by rw [here.device.cache, fits.size]
  have prefill := onDevice_prefill T fits nonempty room E.config.prefillChunkSize _ entered
  unfold prepareTokens
  rw [if_neg nonempty]
  simp only [bind_apply, modify_apply, read_apply, size, valid]
  cases run : onDevice (prefillPrompt T.backend P tokens E.config.prefillChunkSize)
      { s with promptTokens := tokens.length } with
  | error thrown last =>
      rw [run] at prefill
      exact absurd readable (prefill.2 serving)
  | ok first last =>
      rw [run] at prefill
      rcases prefill with ⟨_, found⟩ | ⟨_, _, unreadable⟩
      · have chosen := firstToken_chosen T found
        have nonneg := chosen.inVocab.1
        have admitted : admitFirst (request E g callback) first last =
            .ok (some (result { last with finishReason := .stop })) { last with finishReason := .stop } := by
          unfold admitFirst
          rw [if_neg (not_lt.mpr ends), if_pos (stops first chosen)]
          rfl
        refine ⟨result { last with finishReason := .stop }, { last with finishReason := .stop }, ?_, rfl⟩
        dsimp only
        rw [if_neg (not_lt.mpr nonneg)]
        exact admitted
      · exact absurd readable unreadable

theorem generateBody_stops (fits : Fits maxSeqLen kv) (serving : S.serving) {text : Bytes}
    (here : At S (request E g callback) .stop kv [] tok s) (options : refuseOptions E g = none)
    (encodes : encoded E g text s.bpeCache = .ok tokens) (nonempty : tokens ≠ [])
    (room : tokens.length ≤ maxSeqLen) (valid : validateTokens maxSeqLen tokens.length g.maxNewTokens = none)
    (readable : Readable T.config tokens) (ends : 0 ≤ (request E g callback).eosTok)
    (stops : ∀ first, T.Chooses first → (request E g callback).isStop first = true) :
    ∃ result last, generateBody E T.backend P text g callback s = .ok result last ∧ result.success = true := by
  have after : At S (request E g callback) .stop kv [] tok
      { s with bpeCache := (encode E.tokenizer (inputText E text g) s.bpeCache).2 } :=
    ⟨here.device, here.routing, here.calls, here.current, here.finish⟩
  have prepared := prepare_run (P := P) T E g callback text s options encodes
  obtain ⟨early, last, run, success⟩ := prepareTokens_stops T fits serving after nonempty room valid readable
    ends stops
  rw [run] at prepared
  refine ⟨early, last, ?_, success⟩
  simp only [generateBody, bind_apply, prepared]
  rfl

/-- A request that nothing keeps from its loop is answered. -/
theorem generateBody_finishes (word : maxSeqLen < 2 ^ 63) (fits : Fits maxSeqLen kv) {text : Bytes}
    (here : At S (request E g callback) .stop kv [] tok s) (options : refuseOptions E g = none)
    (encodes : encoded E g text s.bpeCache = .ok tokens) (permits : Permits T E g callback S tokens.length)
    (accepts : Accepts T S (request E g callback) g tokens) :
    ∃ result last, generateBody E T.backend P text g callback s = .ok result last ∧ result.success = true := by
  obtain ⟨start, prepared, first, granted, _, committed⟩ :=
    prepare_begins T E g callback text word fits here options encodes permits accepts
  have loop := decodeLoop_rule granted start ⟨_, _, _, committed⟩
  cases run : decodeLoop T.backend P (request E g callback) start with
  | error thrown last =>
      rw [run] at loop
      exact absurd accepts.admits.agreeable.willing (loop.2 accepts.serving)
  | ok done last =>
      refine ⟨finished last, last, ?_, rfl⟩
      simp only [generateBody, bind_apply, prepared, run, read_apply]

end Call

section Constant

variable (E : Engine) (cfg : ModelConfig) {g : GenerationConfig} {callback : Option TokenCallback} {text : Bytes}
  {tokens : List Int} {runtime : Runtime Unit Unit Unit}

theorem constant_chooses {tok first : Int} (known : cfg.InVocab tok)
    (chosen : (constant cfg tok known).Chooses first) : first = tok := by
  obtain ⟨_, same⟩ := chosen
  exact same.symm

/-- A model that repeats a token of the prompt answers every readable prompt. -/
theorem constant_answers (word : runtime.device.kv.maxSeqLen < 2 ^ 63)
    (within : runtime.device.kv.currentSeqLen ≤ runtime.device.kv.maxSeqLen)
    (options : refuseOptions E g = none) (encodes : encoded E g text runtime.bpeCache = .ok tokens)
    (nonempty : tokens ≠ [])
    (valid : validateTokens runtime.device.kv.maxSeqLen tokens.length g.maxNewTokens = none)
    (readable : Readable cfg tokens) (ends : 0 ≤ (request E g callback).eosTok)
    (agreeable : Agreeable (request E g callback)) {tok : Int} (known : cfg.InVocab tok) :
    ∃ result last, generateSession E (constant cfg tok known).backend Platform.granting text g callback
      (enter runtime) = .ok result last ∧ result.success = true := by
  let T := constant cfg tok known
  let S := served (Platform.granting_grants : (Platform.granting : Platform Unit Unit).Granting)
    T.config.logitsBytes word
  have fits : Fits runtime.device.kv.maxSeqLen runtime.device.kv := ⟨rfl, within⟩
  have here : At S (request E g callback) .stop runtime.device.kv [] 0 (enter runtime) :=
    at_enter T runtime fun _ => trivial
  have body : ∃ result last, generateBody E T.backend Platform.granting text g callback (enter runtime) =
      .ok result last ∧ result.success = true := by
    cases stops : (request E g callback).isStop tok with
    | true =>
        have always : ∀ first, T.Chooses first → (request E g callback).isStop first = true := by
          intro first chosen
          rw [constant_chooses cfg known chosen]
          exact stops
        have room := validateTokens_none valid word g.maxNewTokens_lt
        exact generateBody_stops T fits trivial here options encodes nonempty (by omega) valid readable ends always
    | false =>
        have admits : Admits T (request E g callback) := ⟨ends, agreeable, fun _ => stops⟩
        exact generateBody_finishes T word fits here options encodes (fun _ _ => trivial)
          ⟨trivial, nonempty, valid, readable, admits⟩
  obtain ⟨result, last, run, success⟩ := body
  refine ⟨result, last, ?_, success⟩
  unfold generateSession guarded
  rw [run]

end Constant

section Requests

variable {E : Engine} {cfg : ModelConfig} {req : ChatRequest} {tokens : List Int}

theorem refuse_passes {limit : Nat} (sampling : refuseSampling req = none)
    (encodes : (encode E.tokenizer (prompt E req) []).1 = .ok tokens)
    (valid : ∀ count ≤ tokens.length, validateTokens limit count req.maxTokens = none) :
    (refuse E req (roomy limit)).1 = none := by
  have counted : ∃ count ≤ tokens.length, (countTokens E (prompt E req) []).1 = .ok count := by
    unfold countTokens
    split
    · exact ⟨0, Nat.zero_le _, rfl⟩
    · refine ⟨tokens.length, Nat.le_refl _, ?_⟩
      rw [encodes]
      rfl
  obtain ⟨count, within, counts⟩ := counted
  have passes := valid count within
  unfold refuse
  rw [sampling]
  dsimp only [roomy]
  rw [counts]
  dsimp only
  rw [passes]

theorem sampling_positive (sampling : refuseSampling req = none) :
    0 < req.maxTokens ∧ req.temperature = 0 ∧ req.topP = 1 := by
  unfold refuseSampling at sampling
  split_ifs at sampling with positive negative nonzero nucleus
  exact ⟨not_le.mp positive, not_not.mp nonzero, not_not.mp nucleus⟩

theorem plain_options (plain : Plain E cfg req tokens) : refuseOptions E (generationConfig req) = none := by
  obtain ⟨positive, temperature, topP⟩ := sampling_positive plain.sampling
  have budget : ¬ (generationConfig req).maxNewTokens ≤ 0 := not_le.mpr positive
  have cold : (generationConfig req).temperature = 0 := temperature
  have whole : (generationConfig req).topP = 1 := topP
  unfold refuseOptions
  rw [plain.loaded, if_neg Bool.noConfusion, if_neg budget, cold, whole]
  simp

/-- The socket takes every delta. -/
theorem served_agreeable (req : ChatRequest) : Agreeable (request E (generationConfig req)
    (if req.stream then some (streamCallback E fun _ => true) else none)) := by
  intro callback own calls
  change (if req.stream then some (streamCallback E fun _ => true) else none) = some callback at own
  split_ifs at own
  cases own
  rfl

/-- A plain request without visual tokens is answered by some model. -/
theorem answered_of_plain (plain : Plain E cfg req tokens) (silent : visualTokenCount cfg tokens = 0) :
    ∃ (B : Backend Unit Unit Unit) (runtime : Runtime Unit Unit Unit), B.config = cfg ∧
      CacheConsistent E.tokenizer runtime.bpeCache ∧ runtime.device.kv.maxSeqLen < 2 ^ 63 ∧
      ¬ Fails E B Platform.granting (fun _ => true) req runtime := by
  let limit := tokens.length + req.maxTokens.toNat
  obtain ⟨tok, member⟩ := List.exists_mem_of_ne_nil tokens plain.nonempty
  have known := plain.known tok member
  have positive := (sampling_positive plain.sampling).1
  have valid : ∀ count ≤ tokens.length, validateTokens limit count req.maxTokens = none := by
    intro count within
    exact validateTokens_of_fits positive (Nat.add_le_add_right within _) plain.window
  have passed := refuse_passes plain.sampling plain.encoded valid
  have consistent := consistent_nil E.tokenizer
  refine ⟨(constant cfg tok known).backend, roomy limit, rfl, consistent, plain.window, ?_⟩
  rintro (refused | indicated)
  · exact refused passed
  · have failing := (nonStreamReply_error _).mp indicated
    have device : (refuse E req (roomy limit)).2.device = (roomy limit).device := refuse_device
    have cache : CacheConsistent E.tokenizer (refuse E req (roomy limit)).2.bpeCache := refuse_cache consistent
    generalize (refuse E req (roomy limit)).2 = later at device cache failing
    have encodes : encoded E (generationConfig req) (prompt E req) later.bpeCache = .ok tokens :=
      (encode_consistent (prompt E req) cache consistent).1.trans plain.encoded
    have size : later.device.kv.maxSeqLen = limit := congrArg (fun d => d.kv.maxSeqLen) device
    have start : later.device.kv.currentSeqLen = 0 := congrArg (fun d => d.kv.currentSeqLen) device
    obtain ⟨result, last, run, success⟩ := constant_answers E cfg (by rw [size]; exact plain.window)
      (by rw [start]; exact Nat.zero_le _) (plain_options plain) encodes plain.nonempty
      (by rw [size]; exact valid tokens.length (Nat.le_refl _)) ⟨silent, plain.known⟩ plain.ends
      (served_agreeable req) known
    rw [failing result (infer_of_session run)] at success
    cases success

end Requests

end Answering

section Received

variable (reportsUnderflow : Rat → Bool)

/-- What the parsers write of every request: no reasoning, and an `int`. -/
structure Received (request : ChatCompletionRequest) : Prop where
  silent : ∀ message ∈ request.messages, message.reasoningContent = []
  int : request.maxTokens < 2 ^ 31

theorem toSigned_lt (bits : Nat) (x : Rat) : toSigned (bits + 1) x < 2 ^ bits := by
  have positive : (0 : Int) < 2 ^ bits := by positivity
  unfold toSigned
  dsimp only
  rw [Nat.add_sub_cancel]
  split
  · omega
  · omega

theorem readMaxTokens_lt {root : JsonValue} {maxTokens : Int} (read : readMaxTokens root = .ok maxTokens) :
    maxTokens < 2 ^ 31 := by
  unfold readMaxTokens at read
  split at read
  · cases read
    decide
  · split_ifs at read
    cases read
    exact toSigned_lt 31 _
  · cases read

theorem readMessages_silent {index : Nat} {items : List JsonValue} {messages : List ChatMessage}
    {images : List ImagePayload} (read : readMessages index items = .ok (messages, images)) :
    ∀ message ∈ messages, message.reasoningContent = [] := by
  induction items generalizing index messages images with
  | nil =>
      cases read
      exact fun _ impossible => absurd impossible List.not_mem_nil
  | cons item items ih =>
      obtain ⟨⟨message, attached⟩, first, next⟩ := except_bind_ok read
      obtain ⟨⟨later, more⟩, others, last⟩ := except_bind_ok next
      cases last
      rw [List.forall_mem_cons]
      refine ⟨?_, ih others⟩
      unfold readMessage at first
      split at first
      · obtain ⟨⟨content, pieces⟩, _, named⟩ := except_bind_ok first
        dsimp only at named
        split at named
        · cases named
        · cases named
          rfl
      · cases first

theorem parseChatCompletionRequest_received {body : Bytes} {request : ChatCompletionRequest}
    (accepted : parseChatCompletionRequest reportsUnderflow body = .ok request) : Received request := by
  refine ⟨readMessages_silent (parseChatCompletionRequest_ok reportsUnderflow accepted), ?_⟩
  unfold parseChatCompletionRequest at accepted
  split at accepted
  · cases accepted
  · obtain ⟨maxTokens, budget, next⟩ := except_bind_ok accepted
    dsimp only at next
    split at next
    · obtain ⟨⟨messages, images⟩, _, last⟩ := except_bind_ok next
      cases last
      exact readMaxTokens_lt budget
    · cases next
  · cases accepted

theorem readFields_received {parts : List MultipartPart} {fields : ChatCompletionRequest}
    (read : readFields reportsUnderflow parts = .ok fields) : Received fields := by
  unfold readFields at read
  split at read
  · exact parseChatCompletionRequest_received reportsUnderflow read
  · split at read
    · cases read
      exact ⟨by simp, by norm_num⟩
    · cases read
      exact ⟨by simp, by norm_num⟩

theorem tagFirstUser_silent {messages : List ChatMessage}
    (silent : ∀ message ∈ messages, message.reasoningContent = []) :
    ∀ message ∈ tagFirstUser messages, message.reasoningContent = [] := by
  induction messages with
  | nil => exact silent
  | cons message rest ih =>
      rw [List.forall_mem_cons] at silent
      unfold tagFirstUser
      split_ifs
      · exact List.forall_mem_cons.mpr silent
      · exact List.forall_mem_cons.mpr ⟨silent.1, ih silent.2⟩

theorem accept_received {submission : Submission} {request : ChatCompletionRequest}
    (accepted : accept reportsUnderflow submission = .ok request) : Received request := by
  cases submission with
  | json body => exact parseChatCompletionRequest_received reportsUnderflow accepted
  | form body boundary =>
      unfold accept parseMultipartChatCompletionRequest at accepted
      dsimp only at accepted
      split at accepted
      · cases accepted
      · obtain ⟨fields, read, next⟩ := except_bind_ok accepted
        obtain ⟨silent, int⟩ := readFields_received reportsUnderflow read
        split_ifs at next
        · cases next
          exact ⟨silent, int⟩
        · cases next
          exact ⟨tagFirstUser_silent silent, int⟩

end Received

section Padding

/-- A text that leaves a pad in the prompt: it spells one, or it is no system message and has an image
tag. -/
def Padded (template : QwenChatTemplate) (messages : List ChatMessage) : Prop :=
  Contains (ascii "<|image_pad|>") (instructions template {}) ∨
    ∃ message ∈ messages, Contains (ascii "<|image_pad|>") (trimWhitespace message.content) ∨
      (message.role ≠ ascii "system" ∧ Contains (ascii "<image>") (trimWhitespace message.content))

theorem spells_iff {pattern : Bytes} (some' : pattern ≠ []) (text : Bytes) :
    occurrences pattern text ≠ 0 ↔ Contains pattern text := by
  rw [Ne, occurrences_eq_zero some', contains_iff, not_not]

theorem shown_spells (message : ChatMessage) : occurrences (ascii "<|image_pad|>") (shown {} message) ≠ 0 ↔
    Contains (ascii "<|image_pad|>") (trimWhitespace message.content) ∨
      Contains (ascii "<image>") (trimWhitespace message.content) := by
  have own : occurrences (ascii "<|image_pad|>") (ascii "<|image_pad|>") = 1 := by decide
  rw [count_shown rfl imagePad_marker imagePad_pad, own, ← spells_iff (by decide), ← spells_iff (by decide)]
  change _ + _ * (256 * 1) ≠ 0 ↔ _
  omega

theorem render_later {template : QwenChatTemplate} {first : ChatMessage} {rest : List ChatMessage} {out : Bytes}
    (rendered : render template (first :: rest) {} = some out) :
    ∀ message ∈ rest, message.role ≠ ascii "system" := by
  unfold render at rendered
  dsimp only at rendered
  split at rendered
  · cases rendered
  · rename_i none
    simpa using none

/-- A prompt holds a pad exactly when a text leaves one in it. -/
theorem render_padded {template : QwenChatTemplate} {messages : List ChatMessage} {out : Bytes}
    (rendered : render template messages {} = some out)
    (silent : ∀ message ∈ messages, message.reasoningContent = []) :
    occurrences (ascii "<|image_pad|>") out ≠ 0 ↔ Padded template messages := by
  obtain ⟨first, rest, lastQuery, text, rfl, query, made, rfl⟩ := render_turns template {} rendered
  have counted := count_prompt template {} imagePad_marker made
  have bare : missing 0 first = 0 ∧ prompted {} 0 = 0 := by simp [missing, prompted]
  rw [bare.1, bare.2, Nat.zero_mul, Nat.zero_add, Nat.add_zero] at counted
  have spelled : total (ascii "<|image_pad|>") (promptTexts template {} lastQuery first rest) ≠ 0 ↔
      ∃ text ∈ promptTexts template {} lastQuery first rest, occurrences (ascii "<|image_pad|>") text ≠ 0 := by
    rw [total, Ne, List.sum_eq_zero_iff_forall_eq_nat]
    simp
  rw [counted, spelled]
  constructor
  · rintro ⟨text, member, spells⟩
    simp only [promptTexts, List.cons_append, List.nil_append, List.mem_cons] at member
    rcases member with rfl | rfl | inside
    · exact Or.inl ((spells_iff (by decide) _).mp spells)
    · -- a leading system message
      unfold systemContent at spells
      split_ifs at spells
      · exact Or.inr ⟨first, List.mem_cons_self, Or.inl ((spells_iff (by decide) _).mp spells)⟩
      · exact absurd rfl spells
    · obtain ⟨message, held, reasoning | ⟨spoken, content⟩⟩ := mem_spliced {} lastQuery inside
      · rw [reasoning, silent message held] at spells
        exact absurd rfl spells
      · rw [content, shown_spells] at spells
        rcases spells with pad | image
        · exact Or.inr ⟨message, held, Or.inl pad⟩
        · exact Or.inr ⟨message, held, Or.inr ⟨spoken, image⟩⟩
  · rintro (instructed | ⟨message, held, which⟩)
    · exact ⟨_, List.mem_cons_self, (spells_iff (by decide) _).mpr instructed⟩
    · by_cases system : message.role = ascii "system"
      · have leads : message = first := by
          rcases List.mem_cons.mp held with same | later
          · exact same
          · exact absurd system (render_later rendered message later)
        have pad : Contains (ascii "<|image_pad|>") (trimWhitespace message.content) := by
          rcases which with pad | image
          · exact pad
          · exact absurd system image.1
        refine ⟨systemContent first, by simp [promptTexts], (spells_iff (by decide) _).mpr ?_⟩
        rwa [systemContent, ← leads, if_pos system]
      · refine ⟨shown {} message, List.mem_append_right _ (shown_spliced {} lastQuery held system), ?_⟩
        rw [shown_spells]
        rcases which with pad | image
        · exact Or.inl pad
        · exact Or.inr image.2

variable {E : Engine} {cfg : ModelConfig} {id : Int} {req : ChatRequest} {tokens : List Int}

theorem visual_silent (range : cfg.visualTokenStart = id ∧ cfg.visualTokenEnd = id) (tokens : List Int) :
    visualTokenCount cfg tokens = 0 ↔ id ∉ tokens := by
  have single : ∀ tok, isVisual cfg tok = true ↔ tok = id := by
    intro tok
    rw [isVisual_iff, range.1, range.2]
    omega
  unfold visualTokenCount
  rw [List.countP_eq_zero]
  simp only [single]
  exact ⟨fun none member => none id member rfl, fun absent tok member same => absent (same ▸ member)⟩

/-- The pad is among the tokens exactly when a text of the messages leaves one in the prompt. -/
theorem tokens_padded (recognises : Recognises E.tokenizer (ascii "<|image_pad|>") id)
    (silent : ∀ message ∈ req.messages, message.reasoningContent = []) (plain : Plain E cfg req tokens) :
    id ∈ tokens ↔ Padded E.tokenizer.chatTemplate req.messages := by
  have once : (60 : UInt8) ∉ ascii "|image_pad|>" := by decide
  obtain ⟨found, encoded, counted⟩ := encode_count recognises once (prompt E req) (consistent_nil E.tokenizer)
  rw [plain.encoded] at encoded
  cases encoded
  have counts : tokens.count id = occurrences (ascii "<|image_pad|>") (prompt E req) := counted
  cases rendered : render E.tokenizer.chatTemplate req.messages {} with
  | none =>
      -- nothing is rendered, and nothing encoded
      have blank : prompt E req = [] := by rw [prompt, rendered]; rfl
      have encoded := plain.encoded
      rw [blank] at encoded
      cases encoded
      exact absurd rfl plain.nonempty
  | some out =>
      have whole : prompt E req = out := by rw [prompt, rendered]; rfl
      rw [← render_padded rendered silent, ← whole, ← counts, ← List.count_pos_iff]
      omega

end Padding

section Images

/-- `generate` calls `prefill_prompt` without a `vision_input`. -/
def visionInput : Option VisionInput := none

/-- `prefill_prompt` is given as many images as the request has. -/
def Given (request : ChatCompletionRequest) : Prop :=
  (visionInput.map (·.numImages)).getD 0 = request.images.length

/-- Whatever the model, the device and the socket do, the images are refused, the request fails, or the
images go to the model with the prompt. -/
def Kept (E : Engine) (cfg : ModelConfig) (request : ChatCompletionRequest)
    (int : request.maxTokens < 2 ^ 31) : Prop :=
  ∀ (KV Rec Logits : Type) (B : Backend KV Rec Logits) (P : Platform KV Rec) (sends : List Delta → Bool)
    (runtime : Runtime KV Rec Logits), B.config = cfg → CacheConsistent E.tokenizer runtime.bpeCache →
    runtime.device.kv.maxSeqLen < 2 ^ 63 →
    refuseImages request.images ≠ none ∨ Fails E B P sends (chatRequest request int) runtime ∨ Given request

variable (reportsUnderflow : Rat → Bool) {E : Engine} {cfg : ModelConfig} {id : Int}
  {request : ChatCompletionRequest}

theorem accept_int {submission : Submission} (accepted : accept reportsUnderflow submission = .ok request) :
    request.maxTokens < 2 ^ 31 := (accept_received reportsUnderflow accepted).int

theorem not_given (carries : request.images ≠ []) : ¬ Given request := by
  have positive := List.length_pos_iff.mpr carries
  change ¬ 0 = request.images.length
  omega

/-- The images of an accepted request are kept exactly when a prompt that nothing else refuses has a pad
among its tokens; and it has one when a text of the messages leaves one. -/
theorem kept_iff {submission : Submission} (accepted : accept reportsUnderflow submission = .ok request)
    (carries : request.images ≠ []) (range : cfg.visualTokenStart = id ∧ cfg.visualTokenEnd = id) :
    (Kept E cfg request (accept_int reportsUnderflow accepted) ↔
        (refuseImages request.images = none → ∀ tokens,
          Plain E cfg (chatRequest request (accept_int reportsUnderflow accepted)) tokens → id ∈ tokens)) ∧
      (Recognises E.tokenizer (ascii "<|image_pad|>") id → ∀ tokens,
        Plain E cfg (chatRequest request (accept_int reportsUnderflow accepted)) tokens →
        (id ∈ tokens ↔ Padded E.tokenizer.chatTemplate request.messages)) := by
  refine ⟨⟨?_, ?_⟩, ?_⟩
  · intro kept valid tokens plain
    by_contra absent
    obtain ⟨B, runtime, config, consistent, word, answered⟩ :=
      answered_of_plain plain ((visual_silent range tokens).mpr absent)
    rcases kept Unit Unit Unit B Platform.granting (fun _ => true) runtime config consistent word with
      refused | fails | given
    · exact refused valid
    · exact answered fails
    · exact not_given carries given
  · rintro padded KV Rec Logits B P sends runtime rfl consistent word
    by_cases valid : refuseImages request.images = none
    · refine Or.inr (Or.inl ?_)
      by_contra answered
      obtain ⟨tokens, plain, silent⟩ := plain_of_answered consistent word answered
      exact (visual_silent range tokens).mp silent (padded valid tokens plain)
    · exact Or.inl valid
  · intro recognises tokens plain
    exact tokens_padded recognises (accept_received reportsUnderflow accepted).silent plain

end Images

section Inputs

/-- A PNG header of one pixel. -/
def onePixel : String := "data:image/png;base64,iVBORw0KGgoAAAANSUhEUgAAAAEAAAAB"

def pictured (role : String) : Bytes :=
  ascii ("\x7b\"messages\":[\x7b\"role\":\"" ++ role ++ "\",\"content\":[\x7b\"type\":\"image_url\"," ++
    "\"image_url\":\x7b\"url\":\"" ++ onePixel ++ "\"\x7d\x7d]\x7d," ++
    "\x7b\"role\":\"user\",\"content\":\"a\"\x7d]\x7d")

def picturedRequest (role : String) : ChatCompletionRequest where
  messages := [{ role := ascii role, content := ascii "<image>" }, { role := ascii "user", content := ascii "a" }]
  images := [{ rawBytes := [0x89, 0x50, 0x4E, 0x47, 0x0D, 0x0A, 0x1A, 0x0A, 0, 0, 0, 13, 0x49, 0x48, 0x44, 0x52,
    0, 0, 0, 1, 0, 0, 0, 1] }]

def padEngine : Engine := { loadedEngine with
  tokenizer := { TurnCount.lettersTokenizer ((ascii "<|image_pad|>", 5) :: TurnCount.tags) with
    chatTemplate := { initDefaults with defaultReasoningEffort := ascii "medium" } } }

def padConfig : ModelConfig := { ModelConfig.defaults with visualTokenStart := 5, visualTokenEnd := 5 }

theorem system_accepted : accept (fun _ => false) (.json (pictured "system")) = .ok (picturedRequest "system") := by
  apply accept_ok
  simp only [pictured, onePixel, ascii_append]
  repeat rw [ascii_ofList]
  decide +kernel

theorem user_accepted : accept (fun _ => false) (.json (pictured "user")) = .ok (picturedRequest "user") := by
  apply accept_ok
  simp only [pictured, onePixel, ascii_append]
  repeat rw [ascii_ofList]
  decide +kernel

/-- The prompt of the picture in the system message. -/
def systemTokens : List Int :=
  (encode padEngine.tokenizer
    (prompt padEngine (chatRequest (picturedRequest "system") (by decide))) []).1.toOption.getD []

theorem system_plain : Plain padEngine padConfig (chatRequest (picturedRequest "system") (by decide)) systemTokens where
  loaded := rfl
  sampling := by decide +kernel
  encoded := by
    have some' : (encode padEngine.tokenizer
        (prompt padEngine (chatRequest (picturedRequest "system") (by decide))) []).1.toOption.isSome = true := by
      decide +kernel
    unfold systemTokens
    cases outcome : (encode padEngine.tokenizer
        (prompt padEngine (chatRequest (picturedRequest "system") (by decide))) []).1 with
    | ok tokens => rfl
    | error thrown =>
        rw [outcome] at some'
        cases some'
  nonempty := by decide +kernel
  known := by decide +kernel
  ends := by decide
  window := by decide +kernel

/-- The picture of a system message is left out, and the text alone is answered. -/
theorem systemPicture_ignored : padEngine.tokenizer.specialTokens.lookup (ascii "<|image_pad|>") = some 5 ∧
    (padConfig.visualTokenStart = 5 ∧ padConfig.visualTokenEnd = 5) ∧
    ∃ request int, accept (fun _ => false) (.json (pictured "system")) = .ok request ∧ request.images ≠ [] ∧
      ¬ Kept padEngine padConfig request int := by
  refine ⟨rfl, ⟨rfl, rfl⟩, picturedRequest "system", by decide, system_accepted, by decide, fun kept => ?_⟩
  have silent : visualTokenCount padConfig systemTokens = 0 := by decide +kernel
  obtain ⟨B, runtime, config, consistent, word, answered⟩ := answered_of_plain system_plain silent
  rcases kept Unit Unit Unit B Platform.granting (fun _ => true) runtime config consistent word with
    refused | fails | given
  · exact refused (by decide +kernel)
  · exact answered fails
  · exact not_given (by decide) given

theorem pad_recognised : Recognises padEngine.tokenizer (ascii "<|image_pad|>") 5 where
  listed := rfl
  alone := by decide
  ordinary := by
    intro piece entry
    have member := mem_of_lookup entry
    have absent : ∀ entry ∈ padEngine.tokenizer.vocab, entry.2 ≠ 5 := by decide
    exact absurd rfl (absent (piece, 5) member)
  loaded := List.cons_ne_nil _ _
  named := by decide

theorem kept_iff_userPicture : Kept padEngine padConfig (picturedRequest "user") (by decide) := by
  obtain ⟨exactly, marked⟩ := kept_iff (fun _ => false) user_accepted (by decide)
    (⟨rfl, rfl⟩ : padConfig.visualTokenStart = 5 ∧ padConfig.visualTokenEnd = 5)
  refine exactly.mpr fun _ tokens plain => (marked pad_recognised tokens plain).mpr ?_
  exact Or.inr ⟨{ role := ascii "user", content := ascii "<image>" }, List.mem_cons_self,
    Or.inr ⟨by decide, by decide⟩⟩

end Inputs

end XInfer.ImageAnswers
