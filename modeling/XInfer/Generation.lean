import XInfer.Forward
import XInfer.Tokenizer
import XInfer.TokenRouting
import XInfer.WhileLoop

/-!
`Engine::EngineImpl::generate` of `runtime/engine.cpp`, on an engine that
`load` has filled. A call runs on the device and the tokenizer's memo table, both of
which outlive it; everything else of a `Session` is local to the call. Timing
fields of the result are left out. Rational temperatures stand for the finite
`float` values.
-/

namespace XInfer.Generation

open Primitives StateException WhileLoop Device Forward Tokenizer TokenRouting

inductive FinishReason where
  | stop
  | length
  deriving DecidableEq

structure GenerationConfig where
  maxNewTokens : Int := 256
  /-- The field is an `int`. -/
  maxNewTokens_lt : maxNewTokens < 2 ^ 31 := by decide
  temperature : Rat := 0
  topP : Rat := 1
  eosTokenId : Int := -1
  imEndTokenId : Int := -1
  applyChatTemplate : Bool := true
  draftTokensNum : Int := 0

structure EngineConfig where
  prefillChunkSize : Nat := 512
  enableSpeculative : Bool := false
  draftTokensNum : Nat := 4

/-- What a call reads of a loaded engine and no call changes. -/
structure Engine where
  isLoaded : Bool
  config : EngineConfig
  tokenizer : QwenTokenizer
  graphCaptured : Bool
  draftInitialized : Bool
  draftGraphCaptured : Bool

structure GenerationResult where
  text : Bytes := []
  reasoningContent : Bytes := []
  tokenIds : List Int := []
  promptTokens : Nat := 0
  generatedTokens : Nat := 0
  finishReason : FinishReason := .stop
  success : Bool := true
  errorMsg : Bytes := []
  errorCode : Bytes := []
  deriving DecidableEq

/-- The callback of a request, as a function of all calls made to it so far: the
present one is the last. It may throw. -/
abbrev TokenCallback := List (Bytes × Int) → Except Exn Bool

variable {KV Rec Logits : Type}

/-- What outlives a call. -/
structure Runtime (KV Rec Logits : Type) where
  device : Device KV Rec Logits
  bpeCache : BpeCache

structure Session (KV Rec Logits : Type) where
  device : Device KV Rec Logits
  bpeCache : BpeCache
  routing : Routing := {}
  promptTokens : Nat := 0
  generatedTokens : Nat := 0
  finishReason : FinishReason := .stop
  currentTok : Int := 0
  calls : List (Bytes × Int) := []

abbrev SessionM (KV Rec Logits : Type) := EStateM Exn (Session KV Rec Logits)

def onDevice {α : Type} (program : DeviceM KV Rec Logits α) : SessionM KV Rec Logits α :=
  within (·.device) (fun device s => { s with device := device }) program

def setFinish (reason : FinishReason) : SessionM KV Rec Logits Unit :=
  modify fun s => { s with finishReason := reason }

/-- What the decode loop reads of its request. -/
structure Request where
  maxNewTokens : Nat
  eosTok : Int
  imEndTok : Int
  useSpeculative : Bool
  draftN : Nat
  captured : Bool
  draftCaptured : Bool
  markers : Markers
  callback : Option TokenCallback

namespace Request

def isStop (R : Request) (tok : Int) : Bool :=
  decide (tok = R.eosTok) || (decide (0 ≤ R.imEndTok) && decide (tok = R.imEndTok))

end Request

section Loop

variable (B : Backend KV Rec Logits) (P : Platform KV Rec) (R : Request)

/-- Answers whether generation goes on. -/
def processToken (tok : Int) : SessionM KV Rec Logits Bool := do
  modify fun s => { s with routing := R.markers.route s.routing tok }
  if R.markers.isMarker tok then pure true
  else match R.callback with
    | none => pure true
    | some callback => do
        modify fun s => { s with calls := s.calls ++ [(R.markers.decodeToken tok, tok)] }
        let calls ← read (·.calls)
        raise (callback calls)

/-- One token of the output: a stop token, or a callback that declines, ends the
generation. -/
def emit (tok : Int) : SessionM KV Rec Logits Control := do
  if R.isStop tok then do
    setFinish .stop
    pure .leave
  else do
    let goOn ← processToken R tok
    if goOn then pure .again
    else do
      setFinish .stop
      pure .leave

def emitAll : List Int → SessionM KV Rec Logits Control
  | [] => pure .again
  | tok :: rest => do
      match ← emit R tok with
      | .leave => pure .leave
      | .again => emitAll rest

/-- The extra token of a round: emitted, counted, and fed next. -/
def emitExtra (tok : Int) : SessionM KV Rec Logits Control := do
  match ← emit R tok with
  | .leave => pure .leave
  | .again => do
      let moved ← onDevice (advance 1)
      if moved then do
        modify fun s => { s with currentTok := tok }
        pure .again
      else do
        setFinish .length
        pure .leave

/-- The standard single-token decode step. -/
def decodeSingle : SessionM KV Rec Logits Control := do
  let tok ← read (·.currentTok)
  let next ← onDevice (singleStep B P .main R.captured tok)
  if next < 0 then do
    setFinish .length
    pure .leave
  else match ← emit R next with
    | .leave => pure .leave
    | .again => do
        modify fun s => { s with currentTok := next }
        pure .again

/-- A round with a rejected draft: back to the accepted ones, then the resampled token. -/
def settleRejected (total : Nat) (accepted : Sampling.SpeculativeAcceptanceResult) :
    SessionM KV Rec Logits Control := do
  onDevice (rollback P (total - accepted.numAccepted))
  match ← emitAll R accepted.acceptedTokens with
  | .leave => pure .leave
  | .again =>
      if 0 ≤ accepted.bonusOrResampledToken then emitExtra R accepted.bonusOrResampledToken
      else pure .again

/-- A round with all drafts accepted: the bonus token follows where the budget has
room for it. -/
def settleAccepted (accepted : Sampling.SpeculativeAcceptanceResult) :
    SessionM KV Rec Logits Control := do
  match ← emitAll R accepted.acceptedTokens with
  | .leave => pure .leave
  | .again => do
      let emitted ← read (·.routing.tokenIds.length)
      if 0 ≤ accepted.bonusOrResampledToken ∧ emitted < R.maxNewTokens then
        emitExtra R accepted.bonusOrResampledToken
      else do
        -- with nothing accepted `current_tok` stays
        modify fun s => { s with currentTok := accepted.acceptedTokens.getLastD s.currentTok }
        pure .again

/-- Verification and acceptance of a round's drafts. -/
def verifyDrafts (drafts : List Int) (prefixLen : Nat) : SessionM KV Rec Logits Control := do
  onDevice (persistentBuffer P .main (drafts.length * B.config.logitsBytes))
  onDevice (forwardVerify B P drafts prefixLen)
  onDevice (submit P)
  let rows ← read fun s => s.device.logits (.persistent .main)
  let targets := (List.range drafts.length).map fun i => B.argmax (rows i)
  let accepted ← raise (Sampling.speculativeAcceptReject Sampling.greedy drafts targets)
  if accepted.hasRejectedToken then settleRejected P R drafts.length accepted
  else settleAccepted R accepted

/-- One round of speculative decoding; without drafts it falls back to a single step. -/
def speculativeRound (remaining : Nat) : SessionM KV Rec Logits Control := do
  let prefixLen ← read (·.device.kv.currentSeqLen)
  onDevice (checkpointRecurrentState P)
  let tok ← read (·.currentTok)
  let draft ← onDevice (draftDecodeLoop B P R.draftCaptured tok (min R.draftN (remaining - 1)))
  if draft.success = true ∧ draft.tokens ≠ [] then verifyDrafts B P R draft.tokens prefixLen
  else decodeSingle B P R

/-- Whether the iteration that starts in `s` begins a speculative round. -/
def beginsRound (s : Session KV Rec Logits) : Bool :=
  R.useSpeculative && decide (1 < R.maxNewTokens - s.routing.tokenIds.length) &&
    decide (sizeAdd s.device.kv.currentSeqLen R.draftN ≤ s.device.kv.maxSeqLen)

def decodeIteration : SessionM KV Rec Logits Control := do
  let kv ← read (·.device.kv)
  if kv.maxSeqLen ≤ kv.currentSeqLen then do
    onDevice (modify (record .overflow))
    setFinish .length
    pure .leave
  else do
    let round ← read (beginsRound R)
    if round then do
      let emitted ← read (·.routing.tokenIds.length)
      speculativeRound B P R (R.maxNewTokens - emitted)
    else decodeSingle B P R

/-- The loop condition. -/
def unfinished (s : Session KV Rec Logits) : Bool :=
  decide (s.routing.tokenIds.length < R.maxNewTokens)

/-- The autoregressive decode loop. Every iteration that does not leave adds a
token, so the budget bounds the iterations. -/
def decodeLoop : SessionM KV Rec Logits Unit :=
  whileLoop (unfinished R) (decodeIteration B P R) R.maxNewTokens

end Loop

section Call

variable (E : Engine) (B : Backend KV Rec Logits) (P : Platform KV Rec)

/-- `std::to_string` of a `float`: six decimals, ties to even. -/
def fixedDecimal (value : Rat) : Bytes :=
  let scaled := (if value < 0 then -value else value) * 1000000
  let floor := scaled.floor.toNat
  let rest := scaled - floor
  let rounded := if rest > 1 / 2 ∨ (rest = 1 / 2 ∧ floor % 2 = 1) then floor + 1 else floor
  let digits := decimal (rounded % 1000000)
  (if value < 0 then ascii "-" else []) ++ decimal (rounded / 1000000) ++ ascii "." ++
    ascii (String.ofList (List.replicate (6 - digits.length) '0')) ++ digits

def unsupported (what received kind : String) (value : Rat) : Bytes :=
  ascii "Currently only greedy decoding (" ++ ascii what ++ ascii ") is supported. Received " ++
    ascii received ++ fixedDecimal value ++ ascii ". " ++ ascii kind ++
    ascii " sampling is not yet supported."

def maximumContext (limit : Nat) : Bytes :=
  ascii "This model's maximum context length is " ++ decimal limit ++ ascii " tokens. However, "

/-- `validate_tokens`: the message of a refusal. -/
def validateTokens (limit promptTokens : Nat) (maxNewTokens : Int) : Option Bytes :=
  if maxNewTokens ≤ 0 then some (ascii "Invalid max_new_tokens: must be greater than 0")
  else if limit < promptTokens then
    some (maximumContext limit ++ ascii "your messages resulted in " ++ decimal promptTokens ++
      ascii " tokens. Please reduce the length of the messages.")
  else if limit < sizeAdd promptTokens maxNewTokens.toNat then
    some (maximumContext limit ++ ascii "you requested " ++
      decimal (sizeAdd promptTokens maxNewTokens.toNat) ++ ascii " tokens (" ++
      decimal promptTokens ++ ascii " in the messages, " ++ signedDecimal maxNewTokens ++
      ascii " in the completion). Please reduce the length of the messages or completion.")
  else none

/-- The refusals that look at the options only: error code and message. -/
def refuseOptions (g : GenerationConfig) : Option (Bytes × Bytes) :=
  if E.isLoaded = false then some (ascii "model_not_loaded", ascii "Model is not loaded")
  else if g.maxNewTokens ≤ 0 then
    some (ascii "invalid_parameter", ascii "Invalid max_new_tokens: must be greater than 0")
  else if g.temperature < 0 then
    some (ascii "invalid_parameter", ascii "Invalid temperature: must be >= 0.0")
  else if g.temperature ≠ 0 then
    some (ascii "unsupported_parameter",
      unsupported "temperature=0.0" "temperature=" "Non-zero temperature" g.temperature)
  else if g.topP ≠ 1 then
    some (ascii "unsupported_parameter", unsupported "top_p=1.0" "top_p=" "Nucleus (top-p)" g.topP)
  else none

def markers : Markers where
  thinkStartTok := E.tokenizer.thinkStartTokenId
  thinkEndTok := E.tokenizer.thinkEndTokenId
  decodeToken := decodeToken E.tokenizer

/-- Stop tokens are the tokenizer's unless the options override them; speculation
needs a draft context. -/
def request (g : GenerationConfig) (callback : Option TokenCallback) : Request where
  maxNewTokens := g.maxNewTokens.toNat
  eosTok := if 0 ≤ g.eosTokenId then g.eosTokenId else E.tokenizer.eosTokenId
  imEndTok := if 0 ≤ g.imEndTokenId then g.imEndTokenId else E.tokenizer.imEndTokenId
  useSpeculative := (E.config.enableSpeculative || decide (0 < g.draftTokensNum)) && E.draftInitialized
  draftN :=
    let chosen := if 0 < g.draftTokensNum then g.draftTokensNum.toNat else E.config.draftTokensNum
    if chosen = 0 then 4 else chosen
  captured := E.graphCaptured
  draftCaptured := E.draftGraphCaptured
  markers := markers E
  callback := callback

/-- The result as it stands in a session. -/
def result (s : Session KV Rec Logits) : GenerationResult where
  text := s.routing.text
  reasoningContent := s.routing.reasoningContent
  tokenIds := s.routing.tokenIds
  promptTokens := s.promptTokens
  generatedTokens := s.generatedTokens
  finishReason := s.finishReason

def failed (code message : Bytes) (s : Session KV Rec Logits) : GenerationResult :=
  { result s with success := false, errorMsg := message, errorCode := code }

/-- The result after the loop, think tags taken out. -/
def finished (s : Session KV Rec Logits) : GenerationResult :=
  let cleaned := cleanUp s.routing.text s.routing.reasoningContent
  { result s with
    text := cleaned.1
    reasoningContent := cleaned.2
    generatedTokens := s.routing.tokenIds.length }

/-- `generate` between prefill and loop: the result of an early return, or nothing
where the loop begins. -/
def admitFirst (R : Request) (first : Int) : SessionM KV Rec Logits (Option GenerationResult) := do
  if R.eosTok < 0 then
    read fun s => some (failed (ascii "missing_eos_token")
      (ascii "No valid EOS token ID configured or found in loaded tokenizer") s)
  else if R.isStop first then do
    setFinish .stop
    read fun s => some (result s)
  else do
    modify fun s => { s with currentTok := first }
    let goOn ← processToken R first
    if goOn then do
      setFinish .length
      pure none
    else do
      modify fun s => { s with generatedTokens := 1, finishReason := .stop }
      read fun s => some (result s)

/-- `generate` on an encoded prompt, up to the loop. -/
def prepareTokens (g : GenerationConfig) (callback : Option TokenCallback) (tokenSeq : List Int) :
    SessionM KV Rec Logits (Option GenerationResult) := do
  if tokenSeq = [] then
    read fun s => some (failed (ascii "empty_prompt") (ascii "Tokenizer produced 0 tokens") s)
  else do
    modify fun s => { s with promptTokens := tokenSeq.length }
    let kv ← read (·.device.kv)
    match validateTokens kv.maxSeqLen tokenSeq.length g.maxNewTokens with
    | some message => read fun s => some (failed (ascii "context_length_exceeded") message s)
    | none => do
        let first ← onDevice (prefillPrompt B P tokenSeq E.config.prefillChunkSize)
        if first < 0 then
          read fun s => some (failed (ascii "prefill_failed")
            (ascii "Prefill failed: context length exceeded") s)
        else admitFirst (request E g callback) first

/-- `tokenizer_.encode`, through the memo table. -/
def encodePrompt (text : Bytes) : SessionM KV Rec Logits (List Int) := fun s =>
  let encoded := encode E.tokenizer text s.bpeCache
  let after := { s with bpeCache := encoded.2 }
  match encoded.1 with
  | .ok tokens => .ok tokens after
  | .error thrown => .error thrown after

def inputText (prompt : Bytes) (g : GenerationConfig) : Bytes :=
  if g.applyChatTemplate then ChatTemplate.renderPrompt E.tokenizer.chatTemplate prompt [] {}
  else prompt

/-- All of `generate` before its loop. -/
def prepare (prompt : Bytes) (g : GenerationConfig) (callback : Option TokenCallback) :
    SessionM KV Rec Logits (Option GenerationResult) := do
  match refuseOptions E g with
  | some refusal => read fun s => some (failed refusal.1 refusal.2 s)
  | none => do
      let tokenSeq ← encodePrompt E (inputText E prompt g)
      prepareTokens E B P g callback tokenSeq

def generateBody (prompt : Bytes) (g : GenerationConfig) (callback : Option TokenCallback) :
    SessionM KV Rec Logits GenerationResult := do
  match ← prepare E B P prompt g callback with
  | some early => pure early
  | none => do
      decodeLoop B P (request E g callback)
      read finished

/-- `reset`. -/
def reset : DeviceM KV Rec Logits Unit := do
  clear B P
  modify (resetArena .main)
  modify fun d => if E.draftInitialized then resetArena .draft d else d

/-- Error code and message that each catch block reports. -/
def caught : Exn → Bytes × Bytes
  | .contextLengthExceeded what => (ascii "context_length_exceeded", what)
  | .sycl what => (ascii "sycl_exception", ascii "SYCL exception during generation: " ++ what)
  | .badAlloc => (ascii "bad_alloc",
      ascii "Memory allocation failed (out of memory or arena overflow) during generation")
  | .visionFormatError what | .standard what =>
      (ascii "internal_error", ascii "Exception during generation: " ++ what)
  | .unknown => (ascii "internal_error", ascii "Unknown exception during generation")

/-- `generate` with its catch blocks. An exception of `reset` in one of them is the
caller's. -/
def generateSession (prompt : Bytes) (g : GenerationConfig) (callback : Option TokenCallback) :
    SessionM KV Rec Logits GenerationResult :=
  guarded (generateBody E B P prompt g callback) fun thrown => do
    onDevice (reset E B P)
    read (failed (caught thrown).1 (caught thrown).2)

/-- A call begins with a fresh result; submissions are counted, and events recorded,
anew. -/
def enter (runtime : Runtime KV Rec Logits) : Session KV Rec Logits where
  device := { runtime.device with submissions := 0, events := [] }
  bpeCache := runtime.bpeCache

def leave (s : Session KV Rec Logits) : Runtime KV Rec Logits := ⟨s.device, s.bpeCache⟩

/-- One call: its result, or the exception that escapes it, and the engine after it. -/
def generate (prompt : Bytes) (g : GenerationConfig) (callback : Option TokenCallback)
    (runtime : Runtime KV Rec Logits) : Except Exn GenerationResult × Runtime KV Rec Logits :=
  match generateSession E B P prompt g callback (enter runtime) with
  | .ok result s => (.ok result, leave s)
  | .error thrown s => (.error thrown, leave s)

end Call

end XInfer.Generation
