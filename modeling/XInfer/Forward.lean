import XInfer.Device
import XInfer.VisionGate
import XInfer.Sampling

/-!
The host functions of `targets/qwen3_8/forward.cpp` and
`DecodeGraph::decode_step`, over one device. The engine passes no images and
captures no prefill, so `prefill_prompt` is the path with `vision_input` null and
`is_graph_capture` false. A position past the end of the cache and a refused
`advance` are recorded as events beside what the source answers there.
-/

namespace XInfer.Forward

open Primitives StateException Device VisionGate

variable {KV Rec Logits : Type} (B : Backend KV Rec Logits) (P : Platform KV Rec)

/-- Scratch buffers of one pass over `n` tokens: token ids with their copy,
positions, activations, and the kernels' launch. -/
def acquire (owner : Owner) (n : Nat) : DeviceM KV Rec Logits Unit := do
  allocate P owner (n * 8)
  submit P
  allocate P owner (n * 8)
  submit P
  allocateAll P owner (B.config.activationBytes n)
  submit P

/-- The pass itself: what it leaves in memory, and its rows of logits. -/
def runLayers (zeroLinear : Bool) (tokens : List Int) (startPos : Nat) :
    DeviceM KV Rec Logits (List Logits) := fun d =>
  let done := d.runPass B zeroLinear tokens startPos
  .ok done.2 done.1

/-- `out` is the row that takes the last token's logits; a call out of bounds
returns without touching it. -/
def forwardChunk (owner : Owner) (tokens : List Int) (startPos : Nat) (zeroLinear : Bool)
    (out : Option (Buffer × Nat)) : DeviceM KV Rec Logits Unit := do
  if tokens = [] then pure ()
  else do
    let kv ← read (·.kv)
    if kv.maxSeqLen < startPos + tokens.length then modify (record .overflow)
    else do
      modify (resetArena owner)
      acquire B P owner tokens.length
      let rows ← runLayers B zeroLinear tokens startPos
      match out with
      | none => pure ()
      | some (buffer, row) => do
          submit P
          modify (writeLogits buffer row (rows.drop (tokens.length - 1)))

def prefillChunks (chunkSize : Nat) : Nat → List Int → Nat → DeviceM KV Rec Logits Unit
  | 0, _, _ => pure ()
  | fuel + 1, pending, offset => do
      if pending = [] then pure ()
      else do
        let chunk := pending.take chunkSize
        let isLast := decide (pending.length ≤ chunkSize)
        forwardChunk B P .main chunk offset (decide (offset = 0))
          (if isLast then some (.persistent .main, 0) else none)
        prefillChunks chunkSize fuel (pending.drop chunkSize) (offset + chunk.length)

def promptTooLong (tokens maxSeqLen : Nat) : Bytes :=
  ascii "context_length_exceeded: Prompt tokens (" ++ decimal tokens ++
    ascii ") exceeds KV cache max_seq_len (" ++ decimal maxSeqLen ++ ascii ")"

/-- Answers the first generated token, or -1 for a token outside the vocabulary. -/
def prefillPrompt (promptTokens : List Int) (chunkSize : Nat) : DeviceM KV Rec Logits Int := do
  if promptTokens = [] then pure 0
  else do
    let kv ← read (·.kv)
    if kv.maxSeqLen < promptTokens.length then
      throw (.contextLengthExceeded (promptTooLong promptTokens.length kv.maxSeqLen))
    else do
      -- with no image the checks let only a prompt without visual tokens through
      let _visual ← raise (checkVision B.config none promptTokens)
      if promptTokens.all fun token => decide (B.config.InVocab token) then do
        clear B P
        persistentBuffer P .main B.config.logitsBytes
        prefillChunks B P (if chunkSize = 0 then 512 else chunkSize) promptTokens.length
          promptTokens 0
        modify fun d => d.setLength (d.kv.setSeqLen promptTokens.length)
        argmax B P (.persistent .main) 0
      else pure (-1)

/-- `decode_step`; `dLogits` is a row of the caller's own buffer. -/
def decodeStep (owner : Owner) (inputToken : Int) (dLogits : Option Nat) :
    DeviceM KV Rec Logits Int := do
  let kv ← read (·.kv)
  if kv.maxSeqLen ≤ kv.currentSeqLen then do
    modify (record .overflow)
    pure (-1)
  else if B.config.InVocab inputToken then do
    match dLogits with
    | some _ => pure ()
    | none => persistentBuffer P owner B.config.logitsBytes
    let out : Buffer × Nat := match dLogits with
      | some row => (.caller, row)
      | none => (.persistent owner, 0)
    forwardChunk B P owner [inputToken] kv.currentSeqLen false (some out)
    let moved ← advance 1
    if moved then argmax B P out.1 out.2
    else pure (-1)
  else pure (-1)

/-- `DecodeGraph::decode_step`: the captured pass over one token, with the graph's
own buffers. The length counter is the caller's to advance. -/
def graphDecodeStep (owner : Owner) (inputToken : Int) (curPos : Nat) :
    DeviceM KV Rec Logits Int := do
  if B.config.InVocab inputToken then do
    let kv ← read (·.kv)
    if kv.maxSeqLen ≤ curPos then do
      modify (record .overflow)
      pure (-1)
    else do
      submit P
      let rows ← runLayers B false [inputToken] curPos
      modify (writeLogits (.graph owner) 0 rows)
      argmax B P (.graph owner) 0
  else pure (-1)

/-- One token through the captured graph when there is one, and eagerly otherwise;
the answer is negative where the source reports a failed step. -/
def singleStep (owner : Owner) (captured : Bool) (inputToken : Int) :
    DeviceM KV Rec Logits Int := do
  if captured then do
    let kv ← read (·.kv)
    let next ← graphDecodeStep B P owner inputToken kv.currentSeqLen
    if next < 0 then pure next
    else do
      let moved ← advance 1
      if moved then pure next else pure (-1)
  else decodeStep B P owner inputToken none

structure DraftDecodeResult where
  tokens : List Int := []
  success : Bool := true
  errorMsg : Bytes := []

def stepFailed (captured : Bool) (step : Nat) : Bytes :=
  (if captured then ascii "Draft graph decode step failed or KV cache overflow at step "
    else ascii "Draft eager decode step failed at step ") ++ decimal step

def draftSteps (captured : Bool) : Nat → Int → List Int → DeviceM KV Rec Logits DraftDecodeResult
  | 0, _, tokens => pure { tokens := tokens }
  | left + 1, inTok, tokens => do
      let kv ← read (·.kv)
      if kv.maxSeqLen ≤ kv.currentSeqLen then do
        modify (record .overflow)
        pure { tokens := tokens }
      else do
        let next ← singleStep B P .draft captured inTok
        if next < 0 then pure ⟨tokens, false, stepFailed captured tokens.length⟩
        else draftSteps captured left next (tokens ++ [next])

def draftTooLong (current drafts maxSeqLen : Nat) : Bytes :=
  ascii "Draft decode exceeds KV cache max_seq_len: cur=" ++ decimal current ++
    ascii " + draft=" ++ decimal drafts ++ ascii " > max=" ++ decimal maxSeqLen

def draftDecodeLoop (captured : Bool) (currentToken : Int) (numDraftTokens : Nat) :
    DeviceM KV Rec Logits DraftDecodeResult := do
  if numDraftTokens = 0 then pure {}
  else do
    let kv ← read (·.kv)
    if kv.maxSeqLen < sizeAdd kv.currentSeqLen numDraftTokens then do
      modify (record .overflow)
      pure ⟨[], false, draftTooLong kv.currentSeqLen numDraftTokens kv.maxSeqLen⟩
    else draftSteps B P captured numDraftTokens currentToken []

def verifyBounds (prefixLen drafts maxSeqLen : Nat) : Bytes :=
  ascii "context_length_exceeded: forward_verify bounds exceeded: prefix_len=" ++
    decimal prefixLen ++ ascii " + draft=" ++ decimal drafts ++ ascii " > max=" ++ decimal maxSeqLen

def draftOutOfVocab (index : Nat) (token : Int) : Bytes :=
  ascii "forward_verify: draft token at index " ++ decimal index ++ ascii " (" ++
    signedDecimal token ++ ascii ") out of vocab range"

/-- The drafts in one pass from `prefixLen` on; row `i` of the main buffer takes
the logits after draft `i`. The bump arena is not reset before it. -/
def forwardVerify (draftTokens : List Int) (prefixLen : Nat) : DeviceM KV Rec Logits Unit := do
  if draftTokens = [] then pure ()
  else do
    let kv ← read (·.kv)
    if kv.maxSeqLen < prefixLen + draftTokens.length then do
      modify (record .overflow)
      throw (.contextLengthExceeded (verifyBounds prefixLen draftTokens.length kv.maxSeqLen))
    else match draftTokens.zipIdx.find? fun pair => decide (¬ B.config.InVocab pair.1) with
      | some (token, index) => throw (.standard (draftOutOfVocab index token))
      | none => do
          acquire B P .main draftTokens.length
          let rows ← runLayers B false draftTokens prefixLen
          modify (writeLogits (.persistent .main) 0 rows)
          submit P

end XInfer.Forward
