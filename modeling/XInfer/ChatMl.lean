import XInfer.PromptTags

/-!
What a well-formed ChatML prompt is, and when `render` makes one of a conversation whose texts are free
of its tags: a conversation that begins with a tool message lacks an opening tag, and the expansion of
image tags can put a tag together from the parts of a content.
-/

namespace XInfer.ChatMl

open Primitives ByteString Occurrences ChatTemplate ChatTurns PromptTags

def Clean (text : Bytes) : Prop :=
  ¬ Contains (ascii "<|im_start|>") text ∧ ¬ Contains (ascii "<|im_end|>") text

instance (text : Bytes) : Decidable (Clean text) := inferInstanceAs (Decidable (_ ∧ _))

/-- A text as closed turns, at most one of them a leading system turn, with at most one open turn after
them. -/
structure Reading (roles : List Bytes) (out : Bytes) (system turns : List Turn) (last : Bytes) : Prop where
  whole : out = transcript (system ++ turns) ++ last
  leads : system = [] ∨ ∃ body, system = [⟨ascii "system", body⟩]
  order : turns.map (·.role) = roles
  clean : ∀ turn ∈ system ++ turns, Clean turn.body
  opened : last = [] ∨ ∃ body, Clean body ∧ last = ascii "<|im_start|>assistant\n" ++ body

/-- The turns are those of the conversation in order. -/
def WellFormed (messages : List ChatMessage) (out : Bytes) : Prop :=
  ∃ system turns last, Reading (turnRoles (messages.map (·.role))) out system turns last

/-- The texts of a request, and those of the loaded template and the options, are free of tags. -/
structure Untagged (template : QwenChatTemplate) (messages : List ChatMessage)
    (options : ChatTemplateOptions) : Prop where
  contents : ∀ message ∈ messages, Clean message.content
  reasoning : ∀ message ∈ messages, Clean message.reasoningContent
  instructions : ∀ entry ∈ template.reasoningInstructions, Clean entry.2
  effort : Clean options.reasoningEffort
  pad : Clean options.imagePadToken

/-- The conversation does not begin with a tool message, and no content gets a tag by its expansion. -/
def Renderable (messages : List ChatMessage) (options : ChatTemplateOptions) : Prop :=
  (∀ first ∈ messages.head?, first.role ≠ ascii "tool") ∧
    ∀ message ∈ messages, message.role ≠ ascii "system" → Clean (shown options message)

theorem clean_iff (text : Bytes) : Clean text ↔
    occurrences (ascii "<|im_start|>") text = 0 ∧ occurrences (ascii "<|im_end|>") text = 0 := by
  rw [occurrences_eq_zero (by decide), occurrences_eq_zero (by decide), ← contains_iff, ← contains_iff]
  rfl

theorem trim_inside (text : Bytes) : trimWhitespace text <:+: text := by
  have front : text.dropWhile isBlank <:+ text := List.dropWhile_suffix isBlank
  have back : trimWhitespace text <+: text.dropWhile isBlank := by
    have suffix := List.dropWhile_suffix isBlank (l := (text.dropWhile isBlank).reverse)
    simpa [trimWhitespace] using List.reverse_prefix.mpr suffix
  exact back.isInfix.trans front.isInfix

theorem clean_inside {part text : Bytes} (inside : part <:+: text) (clean : Clean text) : Clean part := by
  unfold Clean at clean ⊢
  rw [contains_iff, contains_iff] at clean ⊢
  exact ⟨fun tag => clean.1 (tag.trans inside), fun tag => clean.2 (tag.trans inside)⟩

theorem clean_trim {text : Bytes} (clean : Clean text) : Clean (trimWhitespace text) :=
  clean_inside (trim_inside text) clean

theorem total_eq_zero {tag : Bytes} {texts : List Bytes} :
    total tag texts = 0 ↔ ∀ text ∈ texts, occurrences tag text = 0 := by
  rw [total, List.sum_eq_zero_iff_forall_eq_nat]
  simp only [List.mem_map, forall_exists_index, and_imp, forall_apply_eq_imp_iff₂]

/-- All of them are clean when none counts for either tag. -/
theorem clean_all_iff (texts : List Bytes) : (∀ text ∈ texts, Clean text) ↔
    total (ascii "<|im_start|>") texts = 0 ∧ total (ascii "<|im_end|>") texts = 0 := by
  rw [total_eq_zero, total_eq_zero, ← forall₂_and]
  exact forall₂_congr fun text _ => clean_iff text

section Rendered

variable {template : QwenChatTemplate} {options : ChatTemplateOptions}

theorem clean_nil : Clean [] := by decide

theorem system_texts_clean {first : ChatMessage} {rest : List ChatMessage}
    (untagged : Untagged template (first :: rest) options) :
    ∀ text ∈ [ChatTurns.instructions template options, systemContent first], Clean text := by
  intro text member
  rcases List.mem_cons.mp member with rfl | last
  · unfold ChatTurns.instructions getReasoningInstructions
    split_ifs
    · cases found : template.reasoningInstructions.lookup (effort template options) with
      | none => exact clean_nil
      | some text =>
          obtain ⟨front, back, same, _⟩ := List.lookup_eq_some_iff.mp found
          exact untagged.instructions (effort template options, text) (by simp [same])
    · exact clean_nil
  · rw [List.mem_singleton.mp last]
    unfold systemContent
    split_ifs
    · exact clean_trim (untagged.contents first List.mem_cons_self)
    · exact clean_nil

/-- In a conversation free of tags only the expanded contents are in question. -/
theorem promptTexts_clean {first : ChatMessage} {rest : List ChatMessage} (lastQuery : Nat)
    (untagged : Untagged template (first :: rest) options) :
    (∀ text ∈ promptTexts template options lastQuery first rest, Clean text) ↔
      ∀ message ∈ first :: rest, message.role ≠ ascii "system" → Clean (shown options message) := by
  constructor
  · intro all message member spoken
    exact all _ (List.mem_append_right _ (shown_spliced options lastQuery member spoken))
  · intro contents text member
    rcases List.mem_append.mp member with front | later
    · exact system_texts_clean untagged text front
    · obtain ⟨message, inside, rfl | ⟨spoken, rfl⟩⟩ := mem_spliced options lastQuery later
      · exact clean_trim (untagged.reasoning message inside)
      · exact contents message inside spoken

theorem leading_clean {first : ChatMessage} {rest : List ChatMessage}
    (untagged : Untagged template (first :: rest) options) :
    ∀ turn ∈ leading template options first, Clean turn.body := by
  obtain ⟨starts, ends⟩ := (clean_all_iff _).mp (system_texts_clean untagged)
  have bodies := (clean_all_iff _).mpr ⟨(count_leading template options imStart_marker first).trans starts,
    (count_leading template options imEnd_marker first).trans ends⟩
  exact fun turn member => bodies turn.body (List.mem_map_of_mem member)

theorem leading_cases (first : ChatMessage) : leading template options first = [] ∨
    ∃ body, leading template options first = [⟨ascii "system", body⟩] := by
  unfold leading
  split
  · exact Or.inr ⟨_, rfl⟩
  split
  · exact Or.inr ⟨_, rfl⟩
  · exact Or.inl rfl

theorem generationPrompt_cases : generationPrompt options = [] ∨
    ∃ body, Clean body ∧ generationPrompt options = ascii "<|im_start|>assistant\n" ++ body := by
  unfold generationPrompt
  split_ifs
  · exact Or.inr ⟨ascii "<think>\n\n</think>\n\n", by decide, rfl⟩
  · exact Or.inr ⟨ascii "<think>\n", by decide, rfl⟩
  · exact Or.inl rfl

/-- The bodies of the turns are clean when the texts are. -/
theorem bodies_clean {first : ChatMessage} {rest : List ChatMessage} {lastQuery : Nat}
    (texts : ∀ text ∈ promptTexts template options lastQuery first rest, Clean text) :
    ∀ turn ∈ leading template options first ++ turnsOf options lastQuery 0 (first :: rest),
      Clean turn.body := by
  obtain ⟨starts, ends⟩ := (clean_all_iff _).mp texts
  have same {tag : Bytes} {opens closes : Nat} (marker : Marker tag opens closes) :
      total tag ((leading template options first ++ turnsOf options lastQuery 0 (first :: rest)).map (·.body)) =
        total tag (promptTexts template options lastQuery first rest) := by
    rw [List.map_append, total_append, count_leading template options marker,
      count_bodies options lastQuery marker, ← total_append]
    rfl
  have bodies := (clean_all_iff _).mpr
    ⟨(same imStart_marker).trans starts, (same imEnd_marker).trans ends⟩
  intro turn member
  exact bodies turn.body (List.mem_map_of_mem member)

section Unique

theorem known_unbroken {role : Bytes} (known : role ∈ [ascii "system", ascii "user", ascii "assistant"]) :
    ¬ [10] <:+: role := by
  have all : ∀ role ∈ [ascii "system", ascii "user", ascii "assistant"], (10 : UInt8) ∉ role := by decide
  exact fun inside => all role known (inside.subset List.mem_cons_self)

/-- A turn's role, and what follows a turn without a tag in its body, can be read off a text. -/
theorem turn_unique {left right : Turn} {back back' : Bytes}
    (known : left.role ∈ [ascii "system", ascii "user", ascii "assistant"])
    (known' : right.role ∈ [ascii "system", ascii "user", ascii "assistant"])
    (same : left.text ++ back = right.text ++ back') :
    left.role = right.role ∧ (Clean left.body → Clean right.body → back = back') := by
  have shape (turn : Turn) (back : Bytes) : turn.text ++ back = ascii "<|im_start|>" ++ (turn.role ++
      ([10] ++ (turn.body ++ (ascii "<|im_end|>" ++ (ascii "\n" ++ back))))) := by
    simp only [Turn.text, List.append_assoc]
    rfl
  rw [shape, shape] at same
  obtain ⟨role, rest⟩ := first_tag_unique List.not_mem_nil (known_unbroken known) (known_unbroken known')
    (List.append_cancel_left same)
  refine ⟨role, fun clean clean' => ?_⟩
  have once : (60 : UInt8) ∉ ascii "|im_end|>" := by decide
  obtain ⟨_, after⟩ := first_tag_unique once (fun inside => clean.2 ((contains_iff _ _).mpr inside))
    (fun inside => clean'.2 ((contains_iff _ _).mpr inside)) rest
  exact List.append_cancel_left after

/-- A text that ends in an open turn does not end in a closed one. -/
theorem open_not_closed {body : Bytes} (clean : Clean body) (front : Bytes) :
    ¬ ascii "<|im_end|>\n" <:+ front ++ (ascii "<|im_start|>assistant\n" ++ body) := by
  intro closed
  have short : ∀ part ∈ (ascii "<|im_end|>\n").tails, Clean part →
      ¬ ascii "<|im_end|>\n" <:+ ascii "<|im_start|>assistant\n" ++ part := by decide
  have whole : ascii "<|im_start|>assistant\n" ++ body <:+ front ++ (ascii "<|im_start|>assistant\n" ++ body) :=
    List.suffix_append front _
  have body' : body <:+ front ++ (ascii "<|im_start|>assistant\n" ++ body) :=
    (List.suffix_append _ body).trans whole
  rcases List.suffix_or_suffix_of_suffix closed body' with inside | inside
  · have tag : ascii "<|im_end|>" <:+: body :=
      (List.prefix_append (ascii "<|im_end|>") (ascii "\n")).isInfix.trans inside.isInfix
    exact clean.2 ((contains_iff _ _).mpr tag)
  · rcases List.suffix_or_suffix_of_suffix closed whole with long | long
    · exact short body ((List.mem_tails _ _).mpr inside) clean long
    · have bound := long.length_le
      have size : (ascii "<|im_end|>\n").length < (ascii "<|im_start|>assistant\n").length := by decide
      rw [List.length_append] at bound
      omega

theorem transcript_closed {turns : List Turn} (some' : turns ≠ []) (front : Bytes) :
    ascii "<|im_end|>\n" <:+ front ++ transcript turns := by
  obtain ⟨early, last, rfl⟩ := (List.eq_nil_or_concat' turns).resolve_left some'
  rw [transcript_append, transcript_cons, ← List.append_assoc]
  simp only [transcript, List.flatMap_nil, List.append_nil, Turn.text]
  exact (List.suffix_append _ _).trans (List.suffix_append _ _)

end Unique

section Reading

variable {first : ChatMessage} {rest : List ChatMessage} {lastQuery : Nat} {text : Bytes}

theorem count_opened {last : Bytes}
    (opened : last = [] ∨ ∃ body, Clean body ∧ last = ascii "<|im_start|>assistant\n" ++ body) :
    occurrences (ascii "<|im_start|>") last = (if last = [] then 0 else 1) ∧
      occurrences (ascii "<|im_end|>") last = 0 := by
  rcases opened with rfl | ⟨body, clean, rfl⟩
  · exact ⟨rfl, rfl⟩
  · obtain ⟨starts, ends⟩ := (clean_iff body).mp clean
    have starting := count_line imStart_marker (ascii "<|im_start|>" ++ ascii "assistant") body
    have ending := count_line imEnd_marker (ascii "<|im_start|>" ++ ascii "assistant") body
    rw [imStart_marker.opener (ascii "assistant") (by decide), starts] at starting
    rw [imEnd_marker.opener (ascii "assistant") (by decide), ends] at ending
    exact ⟨starting, ending⟩

theorem line_not_turn {turn : Turn} {back back' : Bytes} : ascii "\n" ++ back ≠ turn.text ++ back' := by
  intro same
  have heads := congrArg List.head? same
  simp only [Turn.text, List.append_assoc] at heads
  exact absurd (Option.some.inj heads) (by decide)

theorem spoken_not_system {role : Bytes} (spoken : role ∈ [ascii "user", ascii "assistant"]) :
    role ≠ ascii "system" := by
  have all : ∀ role ∈ [ascii "user", ascii "assistant"], role ≠ ascii "system" := by decide
  exact all role spoken

/-- However a prompt is read, it does not begin in a run of tool messages, and its system turn is the
one that was written. -/
theorem reading_aligned (made : renderMessages options lastQuery 0 none (first :: rest) = some text)
    (query : lastQueryIndex (first :: rest) = some lastQuery)
    (written : ∀ turn ∈ leading template options first, Clean turn.body) {system turns : List Turn} {last : Bytes}
    (reading : Reading (turnRoles ((first :: rest).map (·.role)))
      (transcript (leading template options first) ++ text ++ generationPrompt options) system turns last) :
    isTool first = false ∧ system.length = (leading template options first).length := by
  obtain ⟨same, roles⟩ := renderMessages_turns made
  obtain ⟨message, member, user⟩ := lastQueryIndex_user query
  have some' : turnsOf options lastQuery 0 (first :: rest) ≠ [] := turnsOf_ne_nil member user
  obtain ⟨head, others, begun⟩ := List.exists_cons_of_ne_nil some'
  have spoken := spoken_turnsOf options lastQuery 0 (first :: rest)
  obtain ⟨whole, leads, order, clean, _⟩ := reading
  rw [← roles, begun] at order
  obtain ⟨turn, turns, rfl, role, _⟩ := List.map_eq_cons_iff.mp order
  have speaks : turn.role ∈ [ascii "user", ascii "assistant"] :=
    role ▸ spoken head (begun ▸ List.mem_cons_self)
  have other := spoken_not_system speaks
  have known : turn.role ∈ [ascii "system", ascii "user", ascii "assistant"] := List.mem_cons_of_mem _ speaks
  have system_known : ascii "system" ∈ [ascii "system", ascii "user", ascii "assistant"] := List.mem_cons_self
  rcases (leading_cases first : leading template options first = [] ∨ _) with bare | ⟨body, led⟩
  · -- no system turn was written
    rw [bare] at whole ⊢
    cases tool : isTool first with
    | true =>
        obtain ⟨_, tail, rfl⟩ := tool_text tool same
        rcases leads with rfl | ⟨body', rfl⟩
        · rw [List.nil_append, transcript_cons, List.append_assoc, List.append_assoc, List.append_assoc] at whole
          exact absurd whole line_not_turn
        · rw [List.singleton_append, transcript_cons, List.append_assoc, List.append_assoc,
            List.append_assoc] at whole
          exact absurd whole line_not_turn
    | false =>
        refine ⟨rfl, ?_⟩
        rcases leads with rfl | ⟨body', rfl⟩
        · rfl
        · have nothing : opening none (first :: rest) = [] := by simp [opening, continues, tool]
          rw [nothing, List.nil_append, begun] at same
          rw [same, List.singleton_append, transcript_cons, transcript_cons, List.append_assoc,
            List.append_assoc, List.append_assoc] at whole
          have begins := (turn_unique (known_spoken spoken head (begun ▸ List.mem_cons_self)) system_known whole).1
          exact absurd (role.trans begins) other
  · rw [led] at whole ⊢
    rw [List.append_assoc, transcript_cons, List.append_assoc] at whole
    rcases leads with rfl | ⟨body', rfl⟩
    · rw [List.nil_append, transcript_cons, List.append_assoc] at whole
      exact absurd (turn_unique system_known known whole).1.symm other
    · refine ⟨?_, rfl⟩
      cases tool : isTool first with
      | false => rfl
      | true =>
          -- behind the system turn the next turn would begin with a line break
          obtain ⟨_, tail, rfl⟩ := tool_text tool same
          rw [List.singleton_append, transcript_cons, List.append_assoc, List.append_assoc] at whole
          have after := (turn_unique system_known system_known whole).2
            (written _ (led ▸ List.mem_cons_self)) (clean _ List.mem_cons_self)
          rw [transcript_cons, List.append_assoc] at after
          exact absurd after line_not_turn

theorem opened_iff {front front' : Bytes} {turns turns' : List Turn} {last last' : Bytes}
    (some' : turns ≠ []) (some'' : turns' ≠ [])
    (opened : last = [] ∨ ∃ body, Clean body ∧ last = ascii "<|im_start|>assistant\n" ++ body)
    (opened' : last' = [] ∨ ∃ body, Clean body ∧ last' = ascii "<|im_start|>assistant\n" ++ body)
    (same : front ++ transcript turns ++ last = front' ++ transcript turns' ++ last') : last = [] ↔ last' = [] := by
  constructor
  · rintro rfl
    rcases opened' with closed | ⟨body, clean, rfl⟩
    · exact closed
    · rw [List.append_nil] at same
      exact absurd (same ▸ transcript_closed some' front) (open_not_closed clean _)
  · rintro rfl
    rcases opened with closed | ⟨body, clean, rfl⟩
    · exact closed
    · rw [List.append_nil] at same
      exact absurd (same.symm ▸ transcript_closed some'' front') (open_not_closed clean _)

theorem known_reading {roles : List Bytes} {out : Bytes} {system turns : List Turn} {last : Bytes}
    (reading : Reading roles out system turns last)
    (known : ∀ role ∈ roles, role ∈ [ascii "system", ascii "user", ascii "assistant"]) :
    Known (system ++ turns) := by
  intro turn member
  rcases List.mem_append.mp member with leads | later
  · rcases reading.leads with rfl | ⟨body, rfl⟩
    · cases leads
    · rw [List.mem_singleton.mp leads]
      exact List.mem_cons_self
  · exact known turn.role (reading.order ▸ List.mem_map_of_mem later)

/-- The texts of a prompt that can be read as its conversation are free of tags. -/
theorem reading_texts (made : renderMessages options lastQuery 0 none (first :: rest) = some text)
    (query : lastQueryIndex (first :: rest) = some lastQuery)
    (written : ∀ turn ∈ leading template options first, Clean turn.body) {system turns : List Turn} {last : Bytes}
    (reading : Reading (turnRoles ((first :: rest).map (·.role)))
      (transcript (leading template options first) ++ text ++ generationPrompt options) system turns last) :
    ∀ text ∈ promptTexts template options lastQuery first rest, Clean text := by
  obtain ⟨tool, length⟩ := reading_aligned made query written reading
  obtain ⟨same, roles⟩ := renderMessages_turns made
  have nothing : opening none (first :: rest) = [] := by simp [opening, continues, tool]
  rw [nothing, List.nil_append] at same
  obtain ⟨message, member, user⟩ := lastQueryIndex_user query
  have some' : turnsOf options lastQuery 0 (first :: rest) ≠ [] := turnsOf_ne_nil member user
  have size : turns.length = (turnsOf options lastQuery 0 (first :: rest)).length := by
    have lengths := congrArg List.length (reading.order.trans roles.symm)
    rwa [List.length_map, List.length_map] at lengths
  have known : Known (system ++ turns) := known_reading reading fun role member => by
    rw [← roles] at member
    obtain ⟨turn, inside, rfl⟩ := List.mem_map.mp member
    exact known_spoken (spoken_turnsOf options lastQuery 0 _) turn inside
  have bodies : ∀ body ∈ (system ++ turns).map (·.body), Clean body := by
    intro body member
    obtain ⟨turn, inside, rfl⟩ := List.mem_map.mp member
    exact reading.clean turn inside
  obtain ⟨starts, ends⟩ := (clean_all_iff _).mp bodies
  obtain ⟨opens, closes⟩ := count_opened reading.opened
  have prompt : generationPrompt options = [] ∨ _ := generationPrompt_cases
  obtain ⟨prompts, _⟩ := count_opened prompt
  rw [count_generation options imStart_marker] at prompts
  have ended : last = [] ↔ generationPrompt options = [] := by
    have several : system ++ turns ≠ [] := by
      intro none
      have short := congrArg List.length none
      have long := List.length_pos_iff.mpr some'
      rw [List.length_append, List.length_nil] at short
      omega
    apply opened_iff several some' reading.opened prompt
    rw [List.nil_append, ← same]
    exact reading.whole.symm
  have startCount := count_prompt template options imStart_marker made
  have endCount := count_prompt template options imEnd_marker made
  rw [reading.whole, count_transcript imStart_marker known, starts, opens, missing, tool, prompts,
    List.length_append, size, length] at startCount
  rw [reading.whole, count_transcript imEnd_marker known, ends, closes, missing, tool, prompted,
    List.length_append, size, length] at endCount
  simp only [ended, Bool.false_eq_true, if_false, ite_self] at startCount endCount
  exact (clean_all_iff _).mpr ⟨by omega, by omega⟩

end Reading

/-- A prompt of texts free of tags is well formed exactly when the conversation does not begin with a
tool message and the expansion of its contents puts no tag together. -/
theorem wellFormed_iff {messages : List ChatMessage} {out : Bytes}
    (rendered : render template messages options = some out)
    (untagged : Untagged template messages options) :
    WellFormed messages out ↔ Renderable messages options := by
  obtain ⟨first, rest, lastQuery, text, rfl, query, made, rfl⟩ := render_turns template options rendered
  have contents := promptTexts_clean lastQuery untagged
  have written := leading_clean untagged
  constructor
  · rintro ⟨system, turns, last, reading⟩
    obtain ⟨tool, _⟩ := reading_aligned made query written reading
    refine ⟨?_, contents.mp (reading_texts made query written reading)⟩
    intro message head
    rw [← Option.some.inj head]
    simpa [isTool] using tool
  · rintro ⟨begins, shown⟩
    have tool : first.role ≠ ascii "tool" := begins first rfl
    obtain ⟨same, roles⟩ := renderMessages_turns made
    rw [opening_other tool, List.nil_append] at same
    refine ⟨leading template options first, turnsOf options lastQuery 0 (first :: rest),
      generationPrompt options, ?_, leading_cases first, roles, bodies_clean (contents.mpr shown),
      generationPrompt_cases⟩
    rw [same, transcript_append]

/-- The template's own pad puts no tag together. -/
theorem shown_clean (pad : options.imagePadToken = ascii "<|image_pad|>") {message : ChatMessage}
    (clean : Clean message.content) : Clean (shown options message) := by
  obtain ⟨starts, ends⟩ := (clean_iff _).mp (clean_trim clean)
  have padded : Clean (ascii "<|image_pad|>") := by decide
  obtain ⟨padStarts, padEnds⟩ := (clean_iff _).mp padded
  rw [clean_iff, count_shown pad imStart_marker imStart_pad, count_shown pad imEnd_marker imEnd_pad, starts,
    ends, padStarts, padEnds]
  exact ⟨by simp, by simp⟩

theorem renderable_iff (pad : options.imagePadToken = ascii "<|image_pad|>") {messages : List ChatMessage}
    (untagged : Untagged template messages options) :
    Renderable messages options ↔ ∀ first ∈ messages.head?, first.role ≠ ascii "tool" :=
  and_iff_left fun message member _ => shown_clean pad (untagged.contents message member)

end Rendered

/-- The built-in instructions hold no tag. -/
theorem initDefaults_clean : ∀ entry ∈ initDefaults.reasoningInstructions, Clean entry.2 := by
  simp only [initDefaults, ascii_append]
  repeat rw [ascii_ofList]
  decide +kernel

/-- One question, with the options of the server. -/
def question : List ChatMessage := [{ role := ascii "user", content := ascii "hi" }]

theorem question_untagged : Untagged initDefaults question {} where
  contents := by decide +kernel
  reasoning := by decide +kernel
  instructions := initDefaults_clean
  effort := by decide
  pad := by decide

theorem wellFormed_iff_question : ∃ out, render initDefaults question {} = some out ∧
    (WellFormed question out ↔ Renderable question {}) := by
  have success : (render initDefaults question {}).isSome = true := by decide +kernel
  obtain ⟨out, rendered⟩ := Option.isSome_iff_exists.mp success
  exact ⟨out, rendered, wellFormed_iff rendered question_untagged⟩

/-- A history cut off in front of a tool's answer. -/
def toolFirst : List ChatMessage :=
  [{ role := ascii "tool", content := ascii "42" }, { role := ascii "user", content := ascii "why?" }]

theorem toolFirst_untagged : Untagged initDefaults toolFirst {} where
  contents := by decide +kernel
  reasoning := by decide +kernel
  instructions := initDefaults_clean
  effort := by decide
  pad := by decide

theorem toolFirst_malformed : Untagged initDefaults toolFirst {} ∧
    ∃ out, render initDefaults toolFirst {} = some out ∧ ¬ WellFormed toolFirst out := by
  have success : (render initDefaults toolFirst {}).isSome = true := by decide +kernel
  obtain ⟨out, rendered⟩ := Option.isSome_iff_exists.mp success
  refine ⟨toolFirst_untagged, out, rendered, ?_⟩
  rintro ⟨system, turns, last, reading⟩
  obtain ⟨first, rest, lastQuery, text, same, query, made, rfl⟩ := render_turns _ _ rendered
  obtain ⟨rfl, rfl⟩ := List.cons.inj same
  have aligned := reading_aligned made query (leading_clean toolFirst_untagged) reading
  exact absurd aligned.1 (by decide)

end XInfer.ChatMl
