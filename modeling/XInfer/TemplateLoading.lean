import XInfer.ChatTemplate
import XInfer.HashTable
import XInfer.StepConditions

/-!
`load_from_string`, `load_from_buffer` and `load_from_file` of `targets/qwen3_8/chat_template.cpp`: the
parameters that are read out of a template, and what a sequence of loads leaves of them. The log lines
are left out.
-/

namespace XInfer.TemplateLoading

open Primitives ByteString ChatTemplate HashTable StepConditions

section Scanning

variable (sv : Bytes)

def skipWs (pos : Nat) : Nat := pos + ((sv.drop pos).takeWhile isBlank).length

/-- The position behind the token. -/
def matchToken (pos : Nat) (token : Bytes) : Option Nat :=
  let pos := skipWs sv pos
  if pos + token.length ≤ sv.length ∧ substr sv pos token.length = token then some (pos + token.length) else none

/-- The loop of `extract_quoted_string`: the text up to the closing quote, and the bytes it takes with
the quote. A backslash takes the next byte as it is. -/
def quotedLoop (quote : UInt8) : Bytes → Option (Bytes × Nat)
  | [] => none
  | c :: rest =>
      if c = 92 then match rest with
        | [] => none
        | escaped :: more => (quotedLoop quote more).map fun read => (escaped :: read.1, read.2 + 2)
      else if c = quote then some ([], 1)
      else (quotedLoop quote rest).map fun read => (c :: read.1, read.2 + 1)

def extractQuotedString (pos : Nat) : Option (Bytes × Nat) :=
  let pos := skipWs sv pos
  match sv.drop pos with
  | [] => none
  | quote :: rest =>
      if quote ≠ 39 ∧ quote ≠ 34 then none
      else (quotedLoop quote rest).map fun read => (read.1, pos + 1 + read.2)

end Scanning

section Parsing

variable (sv : Bytes)

/-- `reasoning_effort|default('...')` from the position behind the name. -/
def defaultEffortAt (pos : Nat) : Option Bytes := do
  let cur ← matchToken sv (pos + 16) (ascii "|")
  let cur ← matchToken sv cur (ascii "default")
  let cur ← matchToken sv cur (ascii "(")
  let (val, cur) ← extractQuotedString sv cur
  let _ ← matchToken sv cur (ascii ")")
  return val

/-- The loop of `parse_default_reasoning_effort`. Every find moves on. -/
def defaultEffortLoop : Nat → Option Nat → Except Bytes Bytes
  | fuel + 1, some pos => match defaultEffortAt sv pos with
      | some val =>
          if knownEffort val then .ok val
          else .error (ascii "Extracted unsupported default reasoning effort '" ++ val ++
            ascii "' from template (expected xhigh, medium, or low)")
      | none => defaultEffortLoop fuel (findFrom (ascii "reasoning_effort") sv (pos + 1))
  | _, _ => .error (ascii ("Failed to extract default reasoning effort " ++
      "(expected pattern 'reasoning_effort|default(...)')"))

def parseDefaultReasoningEffort : Except Bytes Bytes :=
  defaultEffortLoop sv (sv.length + 1) (find (ascii "reasoning_effort") sv)

variable (effort : Bytes)

/-- The instruction of the branch for `effort` that begins behind the name, if one does. -/
def instructionAt (pos : Nat) : Option Bytes := do
  let cur ← matchToken sv (pos + 25) (ascii "==")
  let (target, cur) ← extractQuotedString sv cur
  if target = effort then
    let searchLimit := min sv.length (cur + 800)
    let instrPos ← find (ascii "reasoning_instructions") (substr sv cur (searchLimit - cur))
    let instrCur ← matchToken sv (cur + instrPos + 22) (ascii "=")
    let (instruction, _) ← extractQuotedString sv instrCur
    return instruction
  else none

/-- The loop of `parse_reasoning_instruction_for_effort`. -/
def instructionLoop : Nat → Option Nat → Except Bytes Bytes
  | fuel + 1, some pos => match instructionAt sv effort pos with
      | some instruction => .ok instruction
      | none => instructionLoop fuel (findFrom (ascii "resolved_reasoning_effort") sv (pos + 25))
  | _, _ => .error (ascii "Failed to extract reasoning instructions for effort '" ++ effort ++
      ascii "' from template (expected 'resolved_reasoning_effort == \\'" ++ effort ++ ascii "\\'')")

def parseReasoningInstructionForEffort : Except Bytes Bytes :=
  instructionLoop sv effort (sv.length + 1) (find (ascii "resolved_reasoning_effort") sv)

/-- Pattern and description of what a template must hold. -/
def requirements : List (Bytes × Bytes) := [
  (ascii "<|im_start|>", ascii "ChatML turn start marker '<|im_start|>'"),
  (ascii "<|im_end|>", ascii "ChatML turn end marker '<|im_end|>'"),
  (ascii "<think>", ascii "Reasoning thinking start tag '<think>'"),
  (ascii "</think>", ascii "Reasoning thinking end tag '</think>'"),
  (ascii "add_generation_prompt", ascii "Generation prompt control variable 'add_generation_prompt'"),
  (ascii "enable_thinking", ascii "Thinking enable variable 'enable_thinking'"),
  (ascii "multi_step_tool", ascii "Multi-step tool handling marker 'multi_step_tool'"),
  (ascii "<tool_response>", ascii "Tool response container tag '<tool_response>'"),
  (ascii "</tool_response>", ascii "Tool response container tag '</tool_response>'"),
  (ascii "messages", ascii "Message list variable 'messages'"),
  (ascii "system", ascii "System role marker 'system'"),
  (ascii "user", ascii "User role marker 'user'"),
  (ascii "assistant", ascii "Assistant role marker 'assistant'")]

def validateStructuralInvariants : Except Bytes Unit :=
  match requirements.find? fun requirement => decide (¬ Contains requirement.1 sv) with
  | some requirement =>
      .error (ascii "Template structural validation failed: missing " ++ requirement.2)
  | none => .ok ()

end Parsing

section Loading

structure Loader where
  isLoaded : Bool := false
  rawTemplate : Bytes := []
  template : QwenChatTemplate

/-- `init_defaults`, over the entries that are there. -/
def setDefaults (template : QwenChatTemplate) : QwenChatTemplate where
  defaultReasoningEffort := initDefaults.defaultReasoningEffort
  reasoningInstructions := assignAll initDefaults.reasoningInstructions template.reasoningInstructions

/-- The constructor. -/
def fresh : Loader where
  template := setDefaults ⟨ascii "xhigh", []⟩

/-- `parse_template`. Nothing is written before the last check has passed. -/
def parseTemplate (raw : Bytes) (template : QwenChatTemplate) : Except Bytes QwenChatTemplate :=
  if raw = [] then .error (ascii "Empty chat template provided")
  else do
    validateStructuralInvariants raw
    let defaultEffort ← parseDefaultReasoningEffort raw
    let xhigh ← parseReasoningInstructionForEffort raw (ascii "xhigh")
    let low ← parseReasoningInstructionForEffort raw (ascii "low")
    let medium := (parseReasoningInstructionForEffort raw (ascii "medium")).toOption.getD []
    return {
      defaultReasoningEffort := defaultEffort
      reasoningInstructions := assignAll
        [(ascii "medium", medium), (ascii "xhigh", xhigh), (ascii "low", low)] template.reasoningInstructions }

/-- The message of a failure, and the loader after the call. -/
def loadFromString (templateStr : Bytes) (s : Loader) : Option Bytes × Loader :=
  if templateStr = [] then (some (ascii "Empty chat template string provided"), s)
  else
    let cleared : QwenChatTemplate := ⟨[], []⟩
    match parseTemplate templateStr cleared with
    | .error why => (some why, ⟨false, templateStr, setDefaults cleared⟩)
    | .ok template => (none, ⟨true, templateStr, template⟩)

/-- A null pointer is `none`. -/
def loadFromBuffer (data : Option Bytes) (s : Loader) : Option Bytes × Loader :=
  match data with
  | none | some [] => (some (ascii "Empty chat template buffer provided"), s)
  | some (byte :: rest) => loadFromString (byte :: rest) s

/-- A file that cannot be opened is `none`. -/
def loadFromFile (path : Bytes) (content : Option Bytes) (s : Loader) : Option Bytes × Loader :=
  match content with
  | none => (some (ascii "Could not open chat template file: " ++ path), s)
  | some content => loadFromString content s

inductive Load where
  | string (text : Bytes)
  | buffer (data : Option Bytes)
  | file (path : Bytes) (content : Option Bytes)

def Load.call : Load → Loader → Option Bytes × Loader
  | .string text => loadFromString text
  | .buffer data => loadFromBuffer data
  | .file path content => loadFromFile path content

def Load.step (load : Load) (s : Loader) : Loader := (load.call s).2

end Loading

section Rendering

theorem render_congr {left right : QwenChatTemplate}
    (effort : left.defaultReasoningEffort = right.defaultReasoningEffort)
    (lookups : ∀ effort, getReasoningInstructions left effort = getReasoningInstructions right effort)
    (messages : List ChatMessage) (options : ChatTemplateOptions) :
    render left messages options = render right messages options := by
  have resolved : ChatTemplate.effort left options = ChatTemplate.effort right options := by
    rw [ChatTemplate.effort, effort]
    rfl
  have block : ∀ first, systemBlock left options first = systemBlock right options first := by
    intro first
    unfold systemBlock
    rw [resolved, lookups]
  unfold render
  rw [resolved]
  simp only [block]

/-- The table of a new loader answers as the parameters of an unloaded template do. -/
theorem fresh_render (messages : List ChatMessage) (options : ChatTemplateOptions) :
    render fresh.template messages options = render initDefaults messages options := by
  have effort : fresh.template.defaultReasoningEffort = initDefaults.defaultReasoningEffort := rfl
  refine render_congr effort (fun effort => ?_) messages options
  unfold getReasoningInstructions fresh setDefaults
  dsimp only
  rw [lookup_assignAll, List.lookup_nil, Option.or_none]
  simp only [initDefaults, latest, List.reverse_cons, List.reverse_nil, List.nil_append, List.cons_append]
  simp only [lookup_entry, List.lookup_nil]
  have first : ascii "xhigh" ≠ ascii "medium" ∧ ascii "xhigh" ≠ ascii "low" := by decide
  have second : ascii "low" ≠ ascii "medium" ∧ ascii "low" ≠ ascii "xhigh" := by decide
  by_cases xhigh : effort = ascii "xhigh"
  · rw [xhigh, if_neg first.1, if_neg first.2, if_pos rfl, if_pos rfl]
  by_cases low : effort = ascii "low"
  · rw [low, if_neg second.1, if_pos rfl, if_neg second.2, if_pos rfl]
  · rw [if_neg xhigh, if_neg low, if_neg xhigh, if_neg low]

end Rendering

section Runs

/-- What a call reports is what the loader says, and after a failure it renders as a new one. -/
def Consistent (s : Loader) (load : Load) : Prop :=
  ((load.call s).2.isLoaded = true ↔ (load.call s).1 = none) ∧
    ((load.call s).1 ≠ none → ∀ messages options,
      render (load.call s).2.template messages options = render fresh.template messages options)

/-- A call that is given no text. -/
def Blank : Load → Prop
  | .string text => text = []
  | .buffer data => data = none ∨ data = some []
  | .file _ content => content = none ∨ content = some []

/-- A loader that is not loaded has the defaults. -/
def Settled (s : Loader) : Prop := s.isLoaded = false → s.template = fresh.template

theorem fresh_settled : Settled fresh := fun _ => rfl

/-- A blank call fails and changes nothing. -/
theorem call_blank {load : Load} (blank : Blank load) (s : Loader) :
    (load.call s).1 ≠ none ∧ (load.call s).2 = s := by
  cases load with
  | string text =>
      rw [show text = [] from blank]
      exact ⟨Option.some_ne_none _, rfl⟩
  | buffer data =>
      rcases blank with rfl | rfl <;> exact ⟨Option.some_ne_none _, rfl⟩
  | file path content =>
      rcases blank with rfl | rfl <;> exact ⟨Option.some_ne_none _, rfl⟩

/-- A text decides alone: it is loaded, or the defaults are back. -/
theorem loadFromString_text {text : Bytes} (some' : text ≠ []) (s : Loader) :
    ((loadFromString text s).1 = none ∧ (loadFromString text s).2.isLoaded = true) ∨
      ((loadFromString text s).1 ≠ none ∧ (loadFromString text s).2.isLoaded = false ∧
        (loadFromString text s).2.template = fresh.template) := by
  unfold loadFromString
  rw [if_neg some']
  dsimp only
  cases parseTemplate text ⟨[], []⟩ with
  | ok template => exact Or.inl ⟨rfl, rfl⟩
  | error why => exact Or.inr ⟨Option.some_ne_none why, rfl, rfl⟩

theorem call_text {load : Load} (text : ¬ Blank load) (s : Loader) :
    ((load.call s).1 = none ∧ (load.call s).2.isLoaded = true) ∨
      ((load.call s).1 ≠ none ∧ (load.call s).2.isLoaded = false ∧ (load.call s).2.template = fresh.template) := by
  cases load with
  | string given => exact loadFromString_text text s
  | buffer data =>
      match data, text with
      | none, text => exact absurd (Or.inl rfl) text
      | some [], text => exact absurd (Or.inr rfl) text
      | some (byte :: rest), _ => exact loadFromString_text (List.cons_ne_nil byte rest) s
  | file path content =>
      cases content with
      | none => exact absurd (Or.inl rfl) text
      | some given => exact loadFromString_text (fun empty => text (Or.inr (congrArg some empty))) s

theorem call_settled {s : Loader} (settled : Settled s) (load : Load) : Settled (load.call s).2 := by
  by_cases blank : Blank load
  · rw [(call_blank blank s).2]
    exact settled
  · rcases call_text blank s with ⟨_, loaded⟩ | ⟨_, _, defaults⟩
    · intro unloaded
      rw [loaded] at unloaded
      cases unloaded
    · exact fun _ => defaults

/-- A call keeps the state consistent unless it gives no text to a loader that has one. -/
theorem consistent_iff {s : Loader} (settled : Settled s) (load : Load) :
    Consistent s load ↔ (Blank load → s.isLoaded = false) := by
  by_cases blank : Blank load
  · obtain ⟨fails, same⟩ := call_blank blank s
    unfold Consistent
    rw [same]
    constructor
    · rintro ⟨reported, _⟩ _
      cases loaded : s.isLoaded with
      | false => rfl
      | true => exact absurd (reported.mp loaded) fails
    · intro unloaded
      have off := unloaded blank
      refine ⟨⟨fun loaded => ?_, fun succeeded => absurd succeeded fails⟩, fun _ messages options => ?_⟩
      · rw [off] at loaded
        cases loaded
      · rw [settled off]
  · refine iff_of_true ?_ fun given => absurd given blank
    rcases call_text blank s with ⟨succeeded, loaded⟩ | ⟨failed, unloaded, defaults⟩
    · exact ⟨iff_of_true loaded succeeded, fun failed => absurd succeeded failed⟩
    · refine ⟨iff_of_false (fun loaded => ?_) failed, fun _ messages options => ?_⟩
      · rw [unloaded] at loaded
        cases loaded
      · rw [defaults]

/-- Every call of a sequence is consistent exactly when none of them gives no text to a loaded
template. -/
theorem loads_consistent_iff (loads : List Load) : Throughout Load.step Consistent fresh loads ↔
    Throughout Load.step (fun s load => Blank load → s.isLoaded = false) fresh loads :=
  throughout_iff fresh_settled (fun _ load settled => consistent_iff settled load)
    fun _ load settled _ => call_settled settled load

/-- A template with a low default and its own instructions. -/
def ownTemplate : Bytes :=
  (requirements.map (·.1)).flatten ++ ascii "reasoning_effort|default('low')" ++
    ascii "resolved_reasoning_effort == 'xhigh'" ++ ascii "reasoning_instructions = 'A'" ++
    ascii "resolved_reasoning_effort == 'low'" ++ ascii "reasoning_instructions = 'B'"

theorem ownTemplate_loaded : (Load.step (.string ownTemplate) fresh).isLoaded = true ∧
    (Load.step (.string ownTemplate) fresh).template.defaultReasoningEffort = ascii "low" := by
  decide +kernel

/-- An empty string fails, and the template of the call before stays in effect. -/
theorem emptyLoad_keeps : ∃ first second, (Load.call second (Load.step first fresh)).1 ≠ none ∧
    (Load.step second (Load.step first fresh)).isLoaded = true ∧
    (Load.step second (Load.step first fresh)).template.defaultReasoningEffort ≠
      fresh.template.defaultReasoningEffort ∧
    ¬ Throughout Load.step Consistent fresh [first, second] := by
  obtain ⟨loaded, effort⟩ := ownTemplate_loaded
  have blank : Blank (.string []) := rfl
  obtain ⟨fails, unchanged⟩ := call_blank blank (Load.step (.string ownTemplate) fresh)
  have kept : Load.step (.string []) (Load.step (.string ownTemplate) fresh) =
      Load.step (.string ownTemplate) fresh := unchanged
  refine ⟨.string ownTemplate, .string [], fails, ?_, ?_, ?_⟩
  · rw [kept]
    exact loaded
  · rw [kept, effort]
    decide
  · rw [loads_consistent_iff]
    rintro ⟨_, unloaded, _⟩
    rw [unloaded rfl] at loaded
    cases loaded

end Runs

end XInfer.TemplateLoading
