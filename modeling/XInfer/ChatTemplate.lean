import XInfer.ByteString

/-!
`QwenChatTemplate::render` of `targets/qwen3_8/chat_template.cpp`: the compiled
ChatML renderer over the parameters that a loaded template leaves. The parser that
extracts those parameters is not part of this module. A rendering that reports an
error answers the empty string there, and `none` here.
-/

namespace XInfer.ChatTemplate

open Primitives ByteString

structure ChatMessage where
  role : Bytes
  content : Bytes
  reasoningContent : Bytes := []
  deriving DecidableEq

structure ChatTemplateOptions where
  addGenerationPrompt : Bool := true
  enableThinking : Bool := true
  reasoningEffort : Bytes := []
  preserveThinking : Bool := true
  patchesPerImage : Nat := 256
  imagePadToken : Bytes := ascii "<|image_pad|>"

/-- The template-derived parameters. -/
structure QwenChatTemplate where
  defaultReasoningEffort : Bytes
  reasoningInstructions : List (Bytes × Bytes)

def initDefaults : QwenChatTemplate where
  defaultReasoningEffort := ascii "xhigh"
  reasoningInstructions := [
    (ascii "xhigh", ascii ("Reasoning effort is set to xhigh. Please think carefully through the " ++
      "task, validate key assumptions, consider plausible alternatives, and prioritize " ++
      "correctness, consistency, and clarity in the final answer.")),
    (ascii "low", ascii ("Reasoning effort is set to low. Keep your thinking brief and focused, " ++
      "moving directly to the conclusion without unnecessary elaboration.")),
    (ascii "medium", [])]

def getReasoningInstructions (template : QwenChatTemplate) (effort : Bytes) : Bytes :=
  (template.reasoningInstructions.lookup effort).getD []

/-- Each `<image>` tag becomes one pad token for each patch. -/
def expandLoop (padSeq content : Bytes) : Nat → Nat → Bytes
  | 0, _ => []
  | fuel + 1, pos =>
      if content.length ≤ pos then []
      else match findFrom (ascii "<image>") content pos with
        | none => content.drop pos
        | some next => substr content pos (next - pos) ++ padSeq ++ expandLoop padSeq content fuel (next + 7)

def expandImageTags (content : Bytes) (patchesPerImage : Nat) (imagePadToken : Bytes) : Bytes :=
  if find (ascii "<image>") content = none ∨ patchesPerImage = 0 then content
  else expandLoop (List.replicate patchesPerImage imagePadToken).flatten content (content.length + 1) 0

def isUserQuery (message : ChatMessage) : Bool :=
  let content := trimWhitespace message.content
  message.role == ascii "user" &&
    !(startsWith content (ascii "<tool_response>") && endsWith content (ascii "</tool_response>"))

/-- Index of the last user message that is not a tool response. -/
def lastQueryIndex (messages : List ChatMessage) : Option Nat :=
  (messages.zipIdx.filter fun pair => isUserQuery pair.1).getLast?.map Prod.snd

def effort (template : QwenChatTemplate) (options : ChatTemplateOptions) : Bytes :=
  if options.reasoningEffort = [] then template.defaultReasoningEffort else options.reasoningEffort

def knownEffort (effort : Bytes) : Bool :=
  effort == ascii "xhigh" || effort == ascii "medium" || effort == ascii "low"

def systemBlock (template : QwenChatTemplate) (options : ChatTemplateOptions)
    (first : ChatMessage) : Bytes :=
  let instructions := if options.enableThinking
    then getReasoningInstructions template (effort template options) else []
  let alone := if instructions ≠ [] then
      ascii "<|im_start|>system\n" ++ instructions ++ ascii "<|im_end|>\n" else []
  if first.role = ascii "system" then
    let content := trimWhitespace first.content
    if content ≠ [] then
      ascii "<|im_start|>system\n" ++
        (if instructions ≠ [] then instructions ++ ascii "\n\n" else []) ++
        content ++ ascii "<|im_end|>\n"
    else alone
  else alone

/-- One turn, between the messages before and after it. -/
def renderMessage (options : ChatTemplateOptions) (lastQuery index : Nat)
    (previous : Option ChatMessage) (message : ChatMessage) (next : Option ChatMessage) :
    Option Bytes :=
  let trimmed := trimWhitespace message.content
  let content := if 0 < options.patchesPerImage
    then expandImageTags trimmed options.patchesPerImage options.imagePadToken else trimmed
  if message.role = ascii "system" then some []
  else if message.role = ascii "user" then
    some (ascii "<|im_start|>user\n" ++ content ++ ascii "<|im_end|>\n")
  else if message.role = ascii "assistant" then
    some (ascii "<|im_start|>assistant\n" ++
      (if options.preserveThinking || decide (lastQuery < index) then
        ascii "<think>\n" ++ trimWhitespace message.reasoningContent ++ ascii "\n</think>\n\n" ++ content
      else content) ++ ascii "<|im_end|>\n")
  else if message.role = ascii "tool" then
    some ((match previous with
        | some before => if before.role ≠ ascii "tool" then ascii "<|im_start|>user" else []
        | none => []) ++
      ascii "\n<tool_response>\n" ++ content ++ ascii "\n</tool_response>" ++
      (match next with
        | some after => if after.role ≠ ascii "tool" then ascii "<|im_end|>\n" else []
        | none => ascii "<|im_end|>\n"))
  else none

def renderMessages (options : ChatTemplateOptions) (lastQuery : Nat) :
    Nat → Option ChatMessage → List ChatMessage → Option Bytes
  | _, _, [] => some []
  | index, previous, message :: rest => do
      let turn ← renderMessage options lastQuery index previous message rest.head?
      let later ← renderMessages options lastQuery (index + 1) (some message) rest
      pure (turn ++ later)

def generationPrompt (options : ChatTemplateOptions) : Bytes :=
  if options.addGenerationPrompt then
    ascii "<|im_start|>assistant\n" ++
      (if options.enableThinking = false then ascii "<think>\n\n</think>\n\n" else ascii "<think>\n")
  else []

def render (template : QwenChatTemplate) (messages : List ChatMessage)
    (options : ChatTemplateOptions) : Option Bytes :=
  match messages with
  | [] => none
  | first :: rest =>
      if rest.any fun message => message.role == ascii "system" then none
      else match lastQueryIndex messages with
        | none => none
        | some lastQuery =>
            if knownEffort (effort template options) then
              (renderMessages options lastQuery 0 none messages).map fun turns =>
                systemBlock template options first ++ turns ++ generationPrompt options
            else none

/-- `apply_chat_template` of a single prompt; an error is the empty string. -/
def renderPrompt (template : QwenChatTemplate) (userPrompt systemPrompt : Bytes)
    (options : ChatTemplateOptions) : Bytes :=
  let user : ChatMessage := { role := ascii "user", content := userPrompt }
  let messages := if systemPrompt = [] then [user]
    else [{ role := ascii "system", content := systemPrompt }, user]
  (render template messages options).getD []

/-- With a generation prompt and thinking enabled, what is rendered ends inside an
open think block. -/
theorem render_opens_think {template : QwenChatTemplate} {messages : List ChatMessage}
    {options : ChatTemplateOptions} {out : Bytes} (prompt : options.addGenerationPrompt = true)
    (thinking : options.enableThinking = true)
    (rendered : render template messages options = some out) :
    ∃ front, out = front ++ ascii "<think>\n" := by
  cases messages with
  | nil => simp [render] at rendered
  | cons first rest =>
      unfold render at rendered
      dsimp only at rendered
      split at rendered
      · cases rendered
      · split at rendered
        · cases rendered
        · split at rendered
          · obtain ⟨turns, _, rfl⟩ := Option.map_eq_some_iff.mp rendered
            simp only [generationPrompt, prompt, thinking, if_true, Bool.true_eq_false, if_false]
            refine ⟨systemBlock template options first ++ turns ++ ascii "<|im_start|>assistant\n", ?_⟩
            simp only [List.append_assoc]
          · cases rendered

end XInfer.ChatTemplate
