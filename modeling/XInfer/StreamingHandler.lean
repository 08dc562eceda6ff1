import XInfer.Generation

/-!
The inference part of `handle_client` in `serve/server.cpp`: the checks before the
engine is called, the streaming token callback, and what each path sends for the
outcome of `generate`. What is sent is a list of messages, not their bytes. The
identifiers, time stamps and usage counts of responses are left out.
-/

namespace XInfer.StreamingHandler

open Primitives TokenRouting Generation Tokenizer ChatTemplate

structure ApiError where
  statusCode : Nat
  type : Bytes
  param : Bytes := []
  code : Bytes
  message : Bytes
  deriving DecidableEq

structure Delta where
  role : Bytes := []
  content : Bytes := []
  reasoningContent : Bytes := []
  deriving DecidableEq

inductive Sent where
  | error (error : ApiError)
  | completion (content reasoningContent : Bytes) (finishReason : FinishReason)
  | sseHeaders
  | chunk (delta : Delta)
  | finishChunk (finishReason : FinishReason)
  | done
  deriving DecidableEq

structure ChatRequest where
  messages : List ChatMessage
  maxTokens : Int
  /-- The field is an `int`. -/
  maxTokens_lt : maxTokens < 2 ^ 31 := by decide
  temperature : Rat
  topP : Rat
  stream : Bool

def badRequest (param code message : Bytes) : ApiError where
  statusCode := 400
  type := ascii "invalid_request_error"
  param := param
  code := code
  message := message

section Callback

/-- The think flag of the stream, and the deltas sent so far. -/
structure Stream where
  inThinking : Bool := false
  deltas : List Delta := []

/-- `token_callback`; the ids are the engine's. -/
def tokenCallback (thinkStartId thinkEndId : Int) (stream : Stream) (call : Bytes × Int) : Stream :=
  if call.2 = thinkStartId ∨ call.1 = ascii "<think>" then { stream with inThinking := true }
  else if call.2 = thinkEndId ∨ call.1 = ascii "</think>" then { stream with inThinking := false }
  else { stream with deltas := stream.deltas ++
      [if stream.inThinking then { reasoningContent := call.1 } else { content := call.1 }] }

def streamed (thinkStartId thinkEndId : Int) (calls : List (Bytes × Int)) : Stream :=
  calls.foldl (tokenCallback thinkStartId thinkEndId) {}

def contentOf (deltas : List Delta) : Bytes := deltas.flatMap (·.content)
def reasoningOf (deltas : List Delta) : Bytes := deltas.flatMap (·.reasoningContent)

/-- The stream never sees a marker, so its flag stays false. -/
theorem streamed_passed (M : Markers) (tokens : List Int) (stream : Stream)
    (outside : stream.inThinking = false) :
    let last := (M.passed tokens).foldl (tokenCallback M.thinkStartTok M.thinkEndTok) stream
    last.inThinking = false ∧ contentOf last.deltas = contentOf stream.deltas ++ M.contents tokens ∧
      reasoningOf last.deltas = reasoningOf stream.deltas := by
  induction tokens generalizing stream with
  | nil => simp [Markers.passed, outside, Markers.contents]
  | cons tok rest ih =>
      cases marker : M.isMarker tok
      · have plain : ¬ (tok = M.thinkStartTok ∨ M.decodeToken tok = ascii "<think>") ∧
            ¬ (tok = M.thinkEndTok ∨ M.decodeToken tok = ascii "</think>") := by
          simpa [Markers.isMarker, Markers.isStart, Markers.isEnd] using marker
        have step : tokenCallback M.thinkStartTok M.thinkEndTok stream (M.decodeToken tok, tok) =
            { stream with deltas := stream.deltas ++ [{ content := M.decodeToken tok }] } := by
          simp [tokenCallback, plain, outside]
        have later := ih { stream with
          deltas := stream.deltas ++ [{ content := M.decodeToken tok }] } outside
        simp only [Markers.passed, List.filter_cons, marker, Bool.not_false, if_true, List.map_cons,
          List.foldl_cons, step] at later ⊢
        refine ⟨later.1, ?_, ?_⟩
        · rw [later.2.1]
          simp [contentOf, Markers.contents, marker]
        · rw [later.2.2]
          simp [reasoningOf]
      · have later := ih stream outside
        simp only [Markers.passed] at later
        simpa [Markers.passed, marker, Markers.contents] using later

/-- The streamed deltas carry what the engine accumulates. -/
def Mirrors (M : Markers) (tokens : List Int) : Prop :=
  let deltas := (streamed M.thinkStartTok M.thinkEndTok (M.passed tokens)).deltas
  contentOf deltas = (M.routeAll tokens).text ∧
    reasoningOf deltas = (M.routeAll tokens).reasoningContent

instance (M : Markers) (tokens : List Int) : Decidable (Mirrors M tokens) :=
  inferInstanceAs (Decidable (_ ∧ _))

/-- They do exactly when no think block holds anything visible. -/
theorem mirrors_iff (M : Markers) (tokens : List Int) :
    Mirrors M tokens ↔ M.inside false tokens = [] := by
  obtain ⟨_, content, reasoning⟩ := streamed_passed M tokens {} rfl
  have content' : contentOf (streamed M.thinkStartTok M.thinkEndTok (M.passed tokens)).deltas =
      M.contents tokens := by simpa [streamed, contentOf] using content
  have reasoning' : reasoningOf (streamed M.thinkStartTok M.thinkEndTok (M.passed tokens)).deltas =
      [] := by simpa [streamed, reasoningOf] using reasoning
  unfold Mirrors
  simp only [content', reasoning', M.routeAll_text, M.routeAll_reasoning]
  constructor
  · exact fun both => both.2.symm
  · intro nothing
    exact ⟨(M.outside_of_inside_nil false tokens nothing).symm, nothing.symm⟩

/-- A tokenizer's markers around one visible letter. -/
def thoughtMarkers : Markers where
  thinkStartTok := 248068
  thinkEndTok := 248069
  decodeToken := fun tok => if tok = 1 then ascii "a" else []

theorem thought_streamed_as_content :
    (streamed 248068 248069 (thoughtMarkers.passed [248068, 1, 248069])).deltas =
        [{ content := ascii "a" }] ∧
      (thoughtMarkers.routeAll [248068, 1, 248069]).reasoningContent = ascii "a" ∧
      ¬ Mirrors thoughtMarkers [248068, 1, 248069] := by
  decide

end Callback

section Replies

variable {KV Rec Logits : Type} (E : Engine) (B : Backend KV Rec Logits) (P : Platform KV Rec)

/-- `count_tokens` of an already rendered prompt. -/
def countTokens (prompt : Bytes) (cache : BpeCache) : Except Exn Nat × BpeCache :=
  if E.tokenizer.vocab = [] ∨ E.tokenizer.bpeRanks = [] then (.ok 0, cache)
  else ((encode E.tokenizer prompt cache).1.map List.length, (encode E.tokenizer prompt cache).2)

/-- `e.what()` of a standard exception. -/
def what : Exn → Bytes
  | .contextLengthExceeded text | .visionFormatError text | .sycl text | .standard text => text
  | .badAlloc => ascii "std::bad_alloc"
  | .unknown => []

/-- `make_context_length_exceeded_error`. -/
def contextLengthExceeded (limit promptTokens : Nat) (maxTokens : Int) : ApiError :=
  badRequest (ascii "messages") (ascii "context_length_exceeded")
    (if limit < promptTokens then
      maximumContext limit ++ ascii "your messages resulted in " ++ decimal promptTokens ++
        ascii " tokens. Please reduce the length of the messages."
    else
      maximumContext limit ++ ascii "you requested " ++
        decimal (sizeAdd promptTokens maxTokens.toNat) ++ ascii " tokens (" ++ decimal promptTokens ++
        ascii " in the messages, " ++ signedDecimal maxTokens ++
        ascii " in the completion). Please reduce the length of the messages or completion.")

/-- The refusals that look at the sampling parameters. -/
def refuseSampling (req : ChatRequest) : Option ApiError :=
  if req.maxTokens ≤ 0 then some (badRequest (ascii "max_tokens") (ascii "invalid_parameter")
    (ascii "Invalid 'max_tokens': must be greater than 0"))
  else if req.temperature < 0 then some (badRequest (ascii "temperature")
    (ascii "invalid_parameter") (ascii "Invalid temperature: must be >= 0.0"))
  else if req.temperature ≠ 0 then some (badRequest (ascii "temperature")
    (ascii "unsupported_parameter")
    (unsupported "temperature=0.0" "temperature=" "Non-zero temperature" req.temperature))
  else if req.topP ≠ 1 then some (badRequest (ascii "top_p") (ascii "unsupported_parameter")
    (unsupported "top_p=1.0" "top_p=" "Nucleus (top-p)" req.topP))
  else none

def prompt (req : ChatRequest) : Bytes :=
  (render E.tokenizer.chatTemplate req.messages {}).getD []

/-- Every refusal before inference, and the engine after counting the tokens. -/
def refuse (req : ChatRequest) (runtime : Runtime KV Rec Logits) :
    Option ApiError × Runtime KV Rec Logits :=
  match refuseSampling req with
  | some error => (some error, runtime)
  | none =>
      let counted := countTokens E (prompt E req) runtime.bpeCache
      let after := { runtime with bpeCache := counted.2 }
      match counted.1 with
      | .error thrown => (some (badRequest [] (ascii "tokenization_error")
          (ascii "Failed to tokenize prompt: " ++ what thrown)), after)
      | .ok promptTokens =>
          let limit := runtime.device.kv.maxSeqLen
          match validateTokens limit promptTokens req.maxTokens with
          | some _ => (some (contextLengthExceeded limit promptTokens req.maxTokens), after)
          | none => (none, after)

def serverError (code message : Bytes) : ApiError where
  statusCode := 500
  type := ascii "server_error"
  code := code
  message := message

/-- The answer of the catch blocks around inference. -/
def escaped : Exn → ApiError
  | .sycl text => serverError (ascii "sycl_error") (ascii "SYCL device exception: " ++ text)
  | .badAlloc => serverError (ascii "out_of_memory")
      (ascii "GPU memory allocation failed (out of memory or scratchpad arena overflow)")
  | .contextLengthExceeded text | .visionFormatError text | .standard text =>
      serverError (ascii "internal_server_error") (ascii "Internal server error: " ++ text)
  | .unknown => serverError (ascii "internal_server_error")
      (ascii "Unknown internal server error during inference execution")

def deviceCode (code : Bytes) : Bool :=
  code == ascii "bad_alloc" || code == ascii "sycl_exception" || code == ascii "internal_error"

/-- The error that the non-streaming path makes of an unsuccessful result. -/
def resultError (result : GenerationResult) : ApiError where
  statusCode := if deviceCode result.errorCode then 500 else 400
  type := if deviceCode result.errorCode then ascii "server_error" else ascii "invalid_request_error"
  code := if result.errorCode = [] then ascii "bad_request" else result.errorCode
  message := result.errorMsg

def nonStreamReply : Except Exn GenerationResult → List Sent
  | .ok result =>
      if result.success = false then [.error (resultError result)]
      else [.completion result.text result.reasoningContent result.finishReason]
  | .error thrown => [.error (escaped thrown)]

/-- Headers and deltas have been sent when the outcome arrives. -/
def streamReply (deltas : List Delta) (outcome : Except Exn GenerationResult) : List Sent :=
  [.sseHeaders, .chunk { role := ascii "assistant" }] ++ deltas.map .chunk ++
    match outcome with
    | .ok result => [.finishChunk result.finishReason, .done]
    | .error thrown => [.error (escaped thrown)]

def generationConfig (req : ChatRequest) : GenerationConfig where
  maxNewTokens := req.maxTokens
  maxNewTokens_lt := req.maxTokens_lt
  temperature := req.temperature
  topP := req.topP
  applyChatTemplate := false

/-- The callback of a streaming request: `sends` answers whether the socket takes
the last delta. -/
def streamCallback (sends : List Delta → Bool) : TokenCallback := fun calls =>
  .ok (sends (streamed E.tokenizer.thinkStartTokenId E.tokenizer.thinkEndTokenId calls).deltas)

/-- Inference: the outcome of `generate`, the deltas it streamed, and the engine
after it; an escaped exception resets the engine once more. -/
def infer (sends : List Delta → Bool) (req : ChatRequest) (runtime : Runtime KV Rec Logits) :
    Except Exn GenerationResult × List Delta × Runtime KV Rec Logits :=
  let callback := if req.stream then some (streamCallback E sends) else none
  match generateSession E B P (prompt E req) (generationConfig req) callback (enter runtime) with
  | .ok result s => (.ok result,
      (streamed E.tokenizer.thinkStartTokenId E.tokenizer.thinkEndTokenId s.calls).deltas, leave s)
  | .error thrown s => (.error thrown,
      (streamed E.tokenizer.thinkStartTokenId E.tokenizer.thinkEndTokenId s.calls).deltas,
      leave { s with device := StateException.finalState (reset E B P s.device) })

def handleChat (sends : List Delta → Bool) (req : ChatRequest) (runtime : Runtime KV Rec Logits) :
    List Sent × Runtime KV Rec Logits :=
  let checked := refuse E req runtime
  match checked.1 with
  | some error => ([.error error], checked.2)
  | none =>
      let inferred := infer E B P sends req checked.2
      (if req.stream then streamReply inferred.2.1 inferred.1 else nonStreamReply inferred.1,
        inferred.2.2)

def ErrorIndicated (sent : List Sent) : Prop := ∃ error, Sent.error error ∈ sent

/-- A finish chunk followed by the end of stream. -/
def NormalEnd (sent : List Sent) : Prop :=
  ∃ front reason, sent = front ++ [.finishChunk reason, .done]

/-- The engine outcome of a request is one that the non-streaming path would answer
with an error; a request refused before inference is refused on both paths. -/
def Fails (sends : List Delta → Bool) (req : ChatRequest) (runtime : Runtime KV Rec Logits) : Prop :=
  (refuse E req runtime).1 ≠ none ∨
    ErrorIndicated (nonStreamReply (infer E B P sends req (refuse E req runtime).2).1)

/-- The stream tells its client of a failure, and ends normally otherwise. -/
def Reports (sends : List Delta → Bool) (req : ChatRequest) (runtime : Runtime KV Rec Logits) : Prop :=
  (ErrorIndicated (handleChat E B P sends req runtime).1 ↔ Fails E B P sends req runtime) ∧
    (NormalEnd (handleChat E B P sends req runtime).1 ↔ ¬ Fails E B P sends req runtime)

/-- `generate` was called and returned `success = false`. -/
def Unsuccessful (sends : List Delta → Bool) (req : ChatRequest)
    (runtime : Runtime KV Rec Logits) : Prop :=
  (refuse E req runtime).1 = none ∧
    ∃ result, (infer E B P sends req (refuse E req runtime).2).1 = .ok result ∧ result.success = false

theorem error_not_normal (front : List Sent) (error : ApiError) :
    ¬ NormalEnd (front ++ [.error error]) := by
  rintro ⟨other, reason, same⟩
  have last := congrArg List.getLast? same
  simp at last

theorem streamReply_ok (deltas : List Delta) (result : GenerationResult) :
    NormalEnd (streamReply deltas (.ok result)) ∧ ¬ ErrorIndicated (streamReply deltas (.ok result)) := by
  constructor
  · exact ⟨_, result.finishReason, rfl⟩
  · rintro ⟨error, member⟩
    simp [streamReply] at member

theorem streamReply_error (deltas : List Delta) (thrown : Exn) :
    ErrorIndicated (streamReply deltas (.error thrown)) ∧
      ¬ NormalEnd (streamReply deltas (.error thrown)) := by
  constructor
  · exact ⟨escaped thrown, by simp [streamReply]⟩
  · exact error_not_normal _ _

theorem nonStreamReply_error (outcome : Except Exn GenerationResult) :
    ErrorIndicated (nonStreamReply outcome) ↔
      ∀ result, outcome = .ok result → result.success = false := by
  cases outcome with
  | error thrown => simp [nonStreamReply, ErrorIndicated]
  | ok result =>
      cases success : result.success <;> simp [nonStreamReply, ErrorIndicated, success]

/-- The two replies to one outcome agree on failure unless the result says so
itself. -/
theorem streamReply_agrees_iff (deltas : List Delta) (outcome : Except Exn GenerationResult) :
    ((ErrorIndicated (streamReply deltas outcome) ↔ ErrorIndicated (nonStreamReply outcome)) ∧
        (NormalEnd (streamReply deltas outcome) ↔ ¬ ErrorIndicated (nonStreamReply outcome))) ↔
      ¬ ∃ result, outcome = .ok result ∧ result.success = false := by
  rw [nonStreamReply_error]
  cases outcome with
  | error thrown =>
      obtain ⟨indicated, abnormal⟩ := streamReply_error deltas thrown
      simp [indicated, abnormal]
  | ok result =>
      obtain ⟨normal, silent⟩ := streamReply_ok deltas result
      simp [normal, silent]

end Replies

section Unanswerable

def emptyTokenizer : QwenTokenizer where
  vocab := [(ascii "a", 1)]
  idToToken := [(1, ascii "a")]
  bpeRanks := []
  specialTokens := []
  eosTokenId := 248044
  imEndTokenId := 248046
  thinkStartTokenId := 248068
  thinkEndTokenId := 248069
  chatTemplate := initDefaults
  split := fun _ => []

def loadedEngine : Engine where
  isLoaded := true
  config := {}
  tokenizer := emptyTokenizer
  graphCaptured := false
  draftInitialized := false
  draftGraphCaptured := false

def idleBackend : Backend Unit Unit Unit where
  config := ModelConfig.defaults
  cleared := ()
  pass := fun _ _ memory tokens _ => (memory, tokens.map fun _ => ())
  argmax := fun _ => 0

def idleRuntime : Runtime Unit Unit Unit where
  device := {
    kv := { maxSeqLen := 8192, currentSeqLen := 0, memory := { slots := fun _ => (), recurrent := () },
            checkpoint := (), hasRecurrentCheckpoint := false }
    arena := fun _ => DeviceArena.create 64 268435456
    logits := fun _ _ => ()
    submissions := 0
    events := [] }
  bpeCache := []

/-- A conversation without a user turn: its prompt renders empty. -/
def noQuery : ChatRequest where
  messages := [{ role := ascii "assistant", content := ascii "a" }]
  maxTokens := 16
  temperature := 0
  topP := 1
  stream := true

theorem noQuery_streamed :
    (handleChat loadedEngine idleBackend Platform.granting (fun _ => true) noQuery idleRuntime).1 =
      [.sseHeaders, .chunk { role := ascii "assistant" }, .finishChunk .stop, .done] := rfl

end Unanswerable

end XInfer.StreamingHandler
