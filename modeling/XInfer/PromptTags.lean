import Mathlib.Data.Rat.Floor
import XInfer.Occurrences
import XInfer.ChatTurns

/-!
How often a tag occurs in a rendered prompt: so often for each turn and for the generation prompt, and
as often as the texts that are spliced in spell it. Line breaks and opening brackets keep the pieces
of a prompt apart.
-/

namespace XInfer.PromptTags

open Primitives ByteString Occurrences ChatTemplate ChatTurns

/-- What a turn counts for, and that the template's own words count for nothing. -/
structure Marker (tag : Bytes) (opens closes : Nat) : Prop where
  shape : ∃ rest, tag = 60 :: rest ∧ 60 ∉ rest
  unbroken : 10 ∉ tag
  opener : ∀ role ∈ [ascii "system", ascii "user", ascii "assistant"],
    occurrences tag (ascii "<|im_start|>" ++ role) = opens
  closer : occurrences tag (ascii "<|im_end|>") = closes
  word : ∀ word ∈ [ascii "<think>", ascii "</think>", ascii "<tool_response>", ascii "</tool_response>"],
    occurrences tag word = 0
  image : ¬ tag <+: ascii "<image>" ∧ ¬ ascii "<image>" <+: tag

theorem imStart_marker : Marker (ascii "<|im_start|>") 1 0 where
  shape := ⟨ascii "|im_start|>", rfl, by decide⟩
  unbroken := by decide
  opener := by decide
  closer := by decide
  word := by decide
  image := by decide

theorem imEnd_marker : Marker (ascii "<|im_end|>") 0 1 where
  shape := ⟨ascii "|im_end|>", rfl, by decide⟩
  unbroken := by decide
  opener := by decide
  closer := by decide
  word := by decide
  image := by decide

theorem imagePad_marker : Marker (ascii "<|image_pad|>") 0 0 where
  shape := ⟨ascii "|image_pad|>", rfl, by decide⟩
  unbroken := by decide
  opener := by decide
  closer := by decide
  word := by decide
  image := by decide

def total (tag : Bytes) (texts : List Bytes) : Nat := (texts.map (occurrences tag)).sum

theorem total_append (tag : Bytes) (front back : List Bytes) :
    total tag (front ++ back) = total tag front + total tag back := by
  rw [total, List.map_append, List.sum_append]
  rfl

section Counting

variable {tag : Bytes} {opens closes : Nat} (marker : Marker tag opens closes)
include marker

theorem tag_ne_nil : tag ≠ [] := by
  obtain ⟨rest, rfl, _⟩ := marker.shape
  exact List.cons_ne_nil 60 rest

theorem count_line (front back : Bytes) : occurrences tag (front ++ (ascii "\n" ++ back)) =
    occurrences tag front + occurrences tag back :=
  occurrences_apart (tag_ne_nil marker) marker.unbroken front back

theorem count_bracket (front back : Bytes) : occurrences tag (front ++ 60 :: back) =
    occurrences tag front + occurrences tag (60 :: back) := by
  obtain ⟨rest, rfl, once⟩ := marker.shape
  exact occurrences_cut once front back

theorem count_end (back : Bytes) : occurrences tag (ascii "<|im_end|>\n" ++ back) =
    closes + occurrences tag back := by
  have lines := count_line marker (ascii "<|im_end|>") back
  rwa [marker.closer, ← List.append_assoc] at lines

theorem count_turn {turn : Turn} (role : turn.role ∈ [ascii "system", ascii "user", ascii "assistant"])
    (back : Bytes) : occurrences tag (turn.text ++ back) =
      opens + closes + occurrences tag turn.body + occurrences tag back := by
  have shape : turn.text ++ back = ascii "<|im_start|>" ++ turn.role ++
      (ascii "\n" ++ (turn.body ++ (ascii "<|im_end|>\n" ++ back))) := by
    simp only [Turn.text, List.append_assoc]
  have bracket := count_bracket marker turn.body (ascii "|im_end|>\n" ++ back)
  have closer := count_end marker back
  rw [shape, count_line marker, marker.opener turn.role role]
  change occurrences tag (turn.body ++ (ascii "<|im_end|>\n" ++ back)) =
    occurrences tag turn.body + occurrences tag (ascii "<|im_end|>\n" ++ back) at bracket
  rw [bracket, closer]
  omega

def Known (turns : List Turn) : Prop :=
  ∀ turn ∈ turns, turn.role ∈ [ascii "system", ascii "user", ascii "assistant"]

theorem count_transcript {turns : List Turn} (known : Known turns) (back : Bytes) :
    occurrences tag (transcript turns ++ back) =
      (opens + closes) * turns.length + total tag (turns.map (·.body)) + occurrences tag back := by
  induction turns with
  | nil => simp [transcript, total]
  | cons turn turns ih =>
      have later := ih fun other member => known other (List.mem_cons_of_mem turn member)
      rw [transcript_cons, List.append_assoc, count_turn marker (known turn List.mem_cons_self), later]
      simp only [total, List.map_cons, List.sum_cons, List.length_cons, Nat.mul_add]
      omega

end Counting

section Expansion

/-- Before the first image tag there is none. -/
theorem find_first {pattern text : Bytes} {pos : Nat} (some' : pattern ≠ []) (found : find pattern text = some pos) :
    occurrences pattern (text.take pos) = 0 := (occurrences_eq_zero some').mpr (find_bare some' found)

variable {tag : Bytes} {opens closes : Nat} (marker : Marker tag opens closes)
include marker

theorem count_image (front back : Bytes) : occurrences tag (front ++ (ascii "<image>" ++ back)) =
    occurrences tag front + occurrences tag back := by
  obtain ⟨rest, rfl, once⟩ := marker.shape
  exact occurrences_other once (by decide : (60 : UInt8) ∉ ascii "image>") marker.image.1 marker.image.2 front back

theorem count_expandLoop {padSeq content : Bytes} (bracket : ∃ rest, padSeq = 60 :: rest)
    (closed : Closed tag padSeq) (fuel : Nat) {pos : Nat} (enough : content.length < pos + fuel) :
    occurrences tag (expandLoop padSeq content fuel pos) = occurrences tag (content.drop pos) +
      occurrences (ascii "<image>") (content.drop pos) * occurrences tag padSeq := by
  induction fuel generalizing pos with
  | zero =>
      rw [List.drop_eq_nil_of_le (by omega)]
      simp [expandLoop, occurrences]
  | succ fuel ih =>
      unfold expandLoop
      split_ifs with past
      · rw [List.drop_eq_nil_of_le past]
        simp [occurrences]
      cases found : findFrom (ascii "<image>") content pos with
      | none =>
          have absent : occurrences (ascii "<image>") (content.drop pos) = 0 := by
            rw [occurrences_eq_zero (by decide), ← contains_iff]
            exact not_not_intro (Option.map_eq_none_iff.mp found)
          rw [absent, Nat.zero_mul, Nat.add_zero]
      | some next =>
          obtain ⟨offset, inner, rfl⟩ := Option.map_eq_some_iff.mp found
          have split := find_split _ inner
          have before := find_first (by decide) inner
          have once : (60 : UInt8) ∉ ascii "image>" := by decide
          have images := occurrences_tag once ((content.drop pos).take offset)
            (content.drop (offset + pos + 7))
          have shift : pos + (offset + (ascii "<image>").length) = offset + pos + 7 := by
            have seven : (ascii "<image>").length = 7 := by decide
            omega
          rw [List.append_assoc, List.drop_drop, shift] at split
          have later := @ih (offset + pos + 7) (by omega)
          have inner' : offset + pos - pos = offset := Nat.add_sub_cancel offset pos
          obtain ⟨rest, bracketed⟩ := bracket
          have cut := count_bracket marker ((content.drop pos).take offset)
            (rest ++ expandLoop padSeq content fuel (offset + pos + 7))
          rw [← List.cons_append, ← bracketed] at cut
          change occurrences tag (substr content pos (offset + pos - pos) ++ padSeq ++
            expandLoop padSeq content fuel (offset + pos + 7)) = _
          rw [substr, inner', List.append_assoc, cut, closed, later]
          generalize (content.drop pos).take offset = front at split before images ⊢
          change _ = front ++ (ascii "<image>" ++ _) at split
          change occurrences (ascii "<image>") (front ++ (ascii "<image>" ++ _)) =
            occurrences (ascii "<image>") front + (1 + occurrences (ascii "<image>") _) at images
          rw [split, count_image marker, images]
          rw [before, Nat.zero_add, Nat.add_mul, Nat.one_mul]
          omega

omit marker in
theorem closed_copies {pad : Bytes} (closed : Closed tag pad) (n : Nat) :
    Closed tag (List.replicate n pad).flatten ∧
      occurrences tag (List.replicate n pad).flatten = n * occurrences tag pad := by
  induction n with
  | zero => exact ⟨closed_nil tag, by simp [occurrences]⟩
  | succ n ih =>
      rw [List.replicate_succ, List.flatten_cons]
      refine ⟨closed_append closed ih.1, ?_⟩
      rw [closed, ih.2, Nat.succ_mul, Nat.add_comm]

/-- An expanded content counts as the content does, and each image tag as its pads do. -/
theorem count_expand {pad : Bytes} (bracket : ∃ rest, pad = 60 :: rest) (closed : Closed tag pad)
    (content : Bytes) (n : Nat) : occurrences tag (expandImageTags content n pad) =
      occurrences tag content + occurrences (ascii "<image>") content * (n * occurrences tag pad) := by
  unfold expandImageTags
  split_ifs with plain
  · rcases plain with absent | none
    · have zero : occurrences (ascii "<image>") content = 0 := by
        rw [occurrences_eq_zero (by decide), ← contains_iff]
        exact not_not_intro absent
      rw [zero, Nat.zero_mul, Nat.add_zero]
    · rw [none, Nat.zero_mul, Nat.mul_zero, Nat.add_zero]
  · obtain ⟨rest, rfl⟩ := bracket
    have several : n ≠ 0 := fun zero => plain (Or.inr zero)
    obtain ⟨m, rfl⟩ := Nat.exists_eq_succ_of_ne_zero several
    obtain ⟨copies, counted⟩ := closed_copies closed (m + 1)
    have front : ∃ more, (List.replicate (m + 1) (60 :: rest)).flatten = 60 :: more :=
      ⟨rest ++ (List.replicate m (60 :: rest)).flatten, rfl⟩
    rw [count_expandLoop marker front copies _ (by omega), List.drop_zero, counted]

end Expansion

section ImagePad

theorem imStart_pad : Closed (ascii "<|im_start|>") (ascii "<|image_pad|>") :=
  closed_other (by decide) (by decide) (by decide) (by decide)

theorem imEnd_pad : Closed (ascii "<|im_end|>") (ascii "<|image_pad|>") :=
  closed_other (by decide) (by decide) (by decide) (by decide)

theorem imagePad_pad : Closed (ascii "<|image_pad|>") (ascii "<|image_pad|>") :=
  closed_tag (by decide)

variable {options : ChatTemplateOptions} (pad : options.imagePadToken = ascii "<|image_pad|>")
  {tag : Bytes} {opens closes : Nat} (marker : Marker tag opens closes)
  (closed : Closed tag (ascii "<|image_pad|>"))
include pad marker closed

theorem count_shown (message : ChatMessage) : occurrences tag (shown options message) =
    occurrences tag (trimWhitespace message.content) +
      occurrences (ascii "<image>") (trimWhitespace message.content) *
        (options.patchesPerImage * occurrences tag (ascii "<|image_pad|>")) := by
  unfold shown
  dsimp only
  split_ifs with expands
  · rw [pad]
    exact count_expand marker ⟨ascii "|image_pad|>", rfl⟩ closed _ _
  · have none : options.patchesPerImage = 0 := Nat.eq_zero_of_not_pos expands
    rw [none, Nat.zero_mul, Nat.mul_zero, Nat.add_zero]

end ImagePad

section Texts

variable (options : ChatTemplateOptions) (lastQuery : Nat)

/-- The texts of a message that go into its turn. -/
def splicedIn (index : Nat) (message : ChatMessage) : List Bytes :=
  if message.role = ascii "system" then []
  else if message.role = ascii "assistant" ∧ (options.preserveThinking || decide (lastQuery < index)) = true then
    [trimWhitespace message.reasoningContent, shown options message]
  else [shown options message]

def spliced : Nat → List ChatMessage → List Bytes
  | _, [] => []
  | index, message :: rest => splicedIn options lastQuery index message ++ spliced (index + 1) rest

def Spoken (turns : List Turn) : Prop := ∀ turn ∈ turns, turn.role ∈ [ascii "user", ascii "assistant"]

theorem mem_spliced {index : Nat} {messages : List ChatMessage} {text : Bytes}
    (member : text ∈ spliced options lastQuery index messages) :
    ∃ message ∈ messages, text = trimWhitespace message.reasoningContent ∨
      (message.role ≠ ascii "system" ∧ text = shown options message) := by
  induction messages generalizing index with
  | nil => cases member
  | cons message rest ih =>
      rcases List.mem_append.mp member with here | later
      · refine ⟨message, List.mem_cons_self, ?_⟩
        unfold splicedIn at here
        split_ifs at here with system thinking
        · cases here
        · rcases List.mem_cons.mp here with reasoning | content
          · exact Or.inl reasoning
          · exact Or.inr ⟨system, List.mem_singleton.mp content⟩
        · exact Or.inr ⟨system, List.mem_singleton.mp here⟩
      · obtain ⟨other, inside, which⟩ := ih later
        exact ⟨other, List.mem_cons_of_mem message inside, which⟩

theorem shown_spliced {index : Nat} {messages : List ChatMessage} {message : ChatMessage}
    (member : message ∈ messages) (spoken : message.role ≠ ascii "system") :
    shown options message ∈ spliced options lastQuery index messages := by
  induction messages generalizing index with
  | nil => cases member
  | cons first rest ih =>
      rw [spliced, List.mem_append]
      rcases List.mem_cons.mp member with rfl | later
      · left
        unfold splicedIn
        rw [if_neg spoken]
        split_ifs
        · exact List.mem_cons_of_mem _ List.mem_cons_self
        · exact List.mem_cons_self
      · exact Or.inr (ih later)

theorem user_spoken : ascii "user" ∈ [ascii "user", ascii "assistant"] := List.mem_cons_self

theorem spoken_joinRun (response : Bytes) {turns : List Turn} (spoken : Spoken turns) :
    Spoken (joinRun response turns) := by
  intro turn member
  cases turns with
  | nil =>
      rw [List.mem_singleton.mp member]
      exact user_spoken
  | cons next others =>
      rcases List.mem_cons.mp member with rfl | later
      · exact user_spoken
      · exact spoken turn (List.mem_cons_of_mem next later)

theorem spoken_cons {turn : Turn} {turns : List Turn} (role : turn.role ∈ [ascii "user", ascii "assistant"])
    (spoken : Spoken turns) : Spoken (turn :: turns) := by
  intro other member
  rcases List.mem_cons.mp member with rfl | later
  · exact role
  · exact spoken other later

/-- No message is rendered as a system turn. -/
theorem spoken_turnsOf (index : Nat) (messages : List ChatMessage) :
    Spoken (turnsOf options lastQuery index messages) := by
  induction messages generalizing index with
  | nil => exact fun _ impossible => absurd impossible List.not_mem_nil
  | cons message rest ih =>
      unfold turnsOf
      dsimp only
      split_ifs
      · exact ih (index + 1)
      · exact spoken_cons user_spoken (ih (index + 1))
      · exact spoken_cons (List.mem_cons_of_mem _ List.mem_cons_self) (ih (index + 1))
      · exact spoken_joinRun _ (ih (index + 1))
      · exact spoken_cons user_spoken (ih (index + 1))

theorem known_spoken {turns : List Turn} (spoken : Spoken turns) : Known turns :=
  fun turn member => List.mem_cons_of_mem _ (spoken turn member)

variable {tag : Bytes} {opens closes : Nat} (marker : Marker tag opens closes)
include marker

theorem count_response (message : ChatMessage) : occurrences tag (toolResponse options message) =
    occurrences tag (shown options message) := by
  have shape : toolResponse options message = ascii "<tool_response>" ++ (ascii "\n" ++
      (shown options message ++ (ascii "\n" ++ ascii "</tool_response>"))) := by
    simp only [toolResponse, List.append_assoc]
    rfl
  rw [shape, count_line marker, count_line marker, marker.word (ascii "<tool_response>") (by decide),
    marker.word (ascii "</tool_response>") (by decide)]
  omega

theorem count_assistant (index : Nat) (message : ChatMessage) (assistant : message.role = ascii "assistant") :
    occurrences tag (assistantBody options lastQuery index message) =
      total tag (splicedIn options lastQuery index message) := by
  have apart : message.role ≠ ascii "system" := by
    rw [assistant]
    decide
  unfold assistantBody splicedIn
  rw [if_neg apart]
  by_cases thinking : (options.preserveThinking || decide (lastQuery < index)) = true
  · have shape : ascii "<think>\n" ++ trimWhitespace message.reasoningContent ++ ascii "\n</think>\n\n" ++
        shown options message = ascii "<think>" ++ (ascii "\n" ++ (trimWhitespace message.reasoningContent ++
          (ascii "\n" ++ (ascii "</think>" ++ (ascii "\n" ++ ([] ++ (ascii "\n" ++ shown options message))))))) := by
      simp only [List.append_assoc]
      rfl
    rw [if_pos thinking, if_pos ⟨assistant, thinking⟩, shape, count_line marker, count_line marker,
      count_line marker, count_line marker, marker.word (ascii "<think>") (by decide),
      marker.word (ascii "</think>") (by decide)]
    simp only [total, List.map_cons, List.map_nil, List.sum_cons, List.sum_nil, occurrences]
    omega
  · rw [if_neg thinking, if_neg fun both => thinking both.2]
    simp [total]

/-- The bodies of the turns hold what is spliced in, and nothing else of the tag. -/
theorem count_bodies (index : Nat) (messages : List ChatMessage) :
    total tag ((turnsOf options lastQuery index messages).map (·.body)) =
      total tag (spliced options lastQuery index messages) := by
  induction messages generalizing index with
  | nil => rfl
  | cons message rest ih =>
      rw [spliced, total_append, ← ih]
      by_cases system : message.role = ascii "system"
      · rw [turnsOf_system system, splicedIn, if_pos system]
        simp [total]
      by_cases assistant : message.role = ascii "assistant"
      · rw [turnsOf_assistant assistant, List.map_cons, ← count_assistant options lastQuery marker index message
          assistant]
        rfl
      have plain : splicedIn options lastQuery index message = [shown options message] := by
        rw [splicedIn, if_neg system, if_neg fun both => assistant both.1]
      have single : total tag [shown options message] = occurrences tag (shown options message) := by
        simp [total]
      rw [plain, single]
      by_cases user : message.role = ascii "user"
      · rw [turnsOf_user user, List.map_cons]
        rfl
      · rw [turnsOf_other system user assistant]
        split_ifs
        · cases turnsOf options lastQuery (index + 1) rest with
          | nil => simp [joinRun, total, count_response options marker]
          | cons next others =>
              simp only [joinRun, total, List.map_cons, List.sum_cons, List.append_assoc]
              rw [count_line marker, count_response options marker]
              omega
        · rw [List.map_cons, ← count_response options marker]
          rfl

end Texts

section Prompt

variable (template : QwenChatTemplate) (options : ChatTemplateOptions)

/-- Every text that a prompt takes from outside the template's own words. -/
def promptTexts (lastQuery : Nat) (first : ChatMessage) (rest : List ChatMessage) : List Bytes :=
  [instructions template options, systemContent first] ++ spliced options lastQuery 0 (first :: rest)

/-- The tag that a conversation lacks when it begins with a tool message. -/
def missing (opens : Nat) (first : ChatMessage) : Nat := if isTool first then opens else 0

def prompted (opens : Nat) : Nat := if options.addGenerationPrompt then opens else 0

theorem known_leading (first : ChatMessage) : Known (leading template options first) := by
  intro turn member
  unfold leading at member
  split at member
  · rw [List.mem_singleton.mp member]
    exact List.mem_cons_self
  split at member
  · rw [List.mem_singleton.mp member]
    exact List.mem_cons_self
  · cases member

variable {tag : Bytes} {opens closes : Nat} (marker : Marker tag opens closes)
include marker

theorem count_leading (first : ChatMessage) : total tag ((leading template options first).map (·.body)) =
    total tag [instructions template options, systemContent first] := by
  have blank : ∀ text : Bytes, ¬ text ≠ [] → occurrences tag text = 0 := by
    intro text empty
    rw [not_not.mp empty]
    rfl
  have pair : total tag [instructions template options, systemContent first] =
      occurrences tag (instructions template options) + occurrences tag (systemContent first) := by
    simp [total]
  rw [pair]
  unfold leading
  by_cases content : systemContent first ≠ []
  · rw [if_pos content]
    by_cases instructed : instructions template options ≠ []
    · have shape : instructions template options ++ ascii "\n\n" ++ systemContent first =
          instructions template options ++ (ascii "\n" ++ ([] ++ (ascii "\n" ++ systemContent first))) := by
        simp only [List.append_assoc]
        rfl
      rw [if_pos instructed, shape]
      simp only [total, List.map_cons, List.map_nil, List.sum_cons, List.sum_nil, count_line marker, occurrences]
      omega
    · rw [if_neg instructed, blank _ instructed]
      simp [total]
  · rw [if_neg content, blank _ content]
    by_cases instructed : instructions template options ≠ []
    · rw [if_pos instructed]
      simp [total]
    · rw [if_neg instructed, blank _ instructed]
      rfl

theorem count_generation : occurrences tag (generationPrompt options) = prompted options opens := by
  unfold generationPrompt prompted
  split_ifs
  · have shape : ascii "<|im_start|>assistant\n" ++ ascii "<think>\n\n</think>\n\n" =
        ascii "<|im_start|>" ++ ascii "assistant" ++ (ascii "\n" ++ (ascii "<think>" ++ (ascii "\n" ++ ([] ++
          (ascii "\n" ++ (ascii "</think>" ++ (ascii "\n" ++ ([] ++ (ascii "\n" ++ []))))))))) := rfl
    rw [shape]
    simp only [count_line marker, marker.opener (ascii "assistant") (by decide),
      marker.word (ascii "<think>") (by decide), marker.word (ascii "</think>") (by decide), occurrences,
      Nat.add_zero]
  · have shape : ascii "<|im_start|>assistant\n" ++ ascii "<think>\n" =
        ascii "<|im_start|>" ++ ascii "assistant" ++ (ascii "\n" ++ (ascii "<think>" ++ (ascii "\n" ++ []))) := rfl
    rw [shape]
    simp only [count_line marker, marker.opener (ascii "assistant") (by decide),
      marker.word (ascii "<think>") (by decide), occurrences, Nat.add_zero]
  · rfl

/-- The text of the messages counts as its turns do, but for the tag it lacks. -/
theorem count_text {first : ChatMessage} {rest : List ChatMessage} {lastQuery : Nat} {text : Bytes}
    (rendered : renderMessages options lastQuery 0 none (first :: rest) = some text) (front back : Bytes)
    (closed : Closed tag front) :
    occurrences tag (front ++ text ++ back) + missing opens first =
      occurrences tag (front ++ transcript (turnsOf options lastQuery 0 (first :: rest)) ++ back) := by
  obtain ⟨same, _⟩ := renderMessages_turns rendered
  by_cases tool : isTool first = true
  · -- the text goes on with a line break, which keeps the tag in front apart
    obtain ⟨lacks, tail, broken⟩ := tool_text tool same
    have opened := count_line marker (ascii "<|im_start|>" ++ ascii "user") (tail ++ back)
    have bare := count_line marker front (tail ++ back)
    rw [marker.opener (ascii "user") (by decide)] at opened
    rw [← same, lacks, missing, if_pos tool, broken]
    simp only [List.append_assoc] at opened bare ⊢
    rw [bare, closed]
    change occurrences tag front + occurrences tag (tail ++ back) + opens = occurrences tag front +
      occurrences tag (ascii "<|im_start|>" ++ (ascii "user" ++ (ascii "\n" ++ (tail ++ back))))
    rw [opened]
    omega
  · have nothing : opening none (first :: rest) = [] := by simp [opening, continues, tool]
    rw [nothing, List.nil_append] at same
    rw [missing, if_neg tool, same, Nat.add_zero]

theorem closed_transcript {turns : List Turn} (known : Known turns) : Closed tag (transcript turns) := by
  intro back
  have bare := count_transcript marker known []
  rw [List.append_nil, occurrences, Nat.add_zero] at bare
  rw [count_transcript marker known, bare]

/-- The tags of a prompt: those of its turns and of the generation prompt, and what its texts spell. -/
theorem count_prompt {first : ChatMessage} {rest : List ChatMessage} {lastQuery : Nat} {text : Bytes}
    (rendered : renderMessages options lastQuery 0 none (first :: rest) = some text) :
    occurrences tag (transcript (leading template options first) ++ text ++ generationPrompt options) +
        missing opens first =
      (opens + closes) * ((leading template options first).length +
        (turnsOf options lastQuery 0 (first :: rest)).length) + prompted options opens +
          total tag (promptTexts template options lastQuery first rest) := by
  have system := known_leading template options first
  have turns := known_spoken (spoken_turnsOf options lastQuery 0 (first :: rest))
  rw [count_text options marker rendered _ _ (closed_transcript marker system), List.append_assoc,
    count_transcript marker system, count_transcript marker turns, count_generation options marker,
    count_leading template options marker, count_bodies options lastQuery marker, promptTexts, total_append,
    Nat.mul_add]
  omega

end Prompt

end XInfer.PromptTags
