import XInfer.ChatTemplate

/-!
The rendered conversation as a list of ChatML turns. `render` emits the opening and the closing tag of
a run of tool messages at its ends, each by a look at the neighbour; a list that begins with a tool
message lacks the opening tag.
-/

namespace XInfer.ChatTurns

open Primitives ByteString ChatTemplate

structure Turn where
  role : Bytes
  body : Bytes

def Turn.text (turn : Turn) : Bytes :=
  ascii "<|im_start|>" ++ turn.role ++ ascii "\n" ++ turn.body ++ ascii "<|im_end|>\n"

def transcript (turns : List Turn) : Bytes := turns.flatMap Turn.text

theorem transcript_append (front back : List Turn) :
    transcript (front ++ back) = transcript front ++ transcript back := List.flatMap_append

/-- The turns of a conversation by its roles: a run of tool messages is one turn of the user. -/
def turnRoles : List Bytes → List Bytes
  | [] => []
  | role :: rest =>
      if role = ascii "system" then turnRoles rest
      else if role = ascii "tool" then
        if rest.head? = some (ascii "tool") then turnRoles rest else ascii "user" :: turnRoles rest
      else role :: turnRoles rest

section Turns

variable (options : ChatTemplateOptions) (lastQuery : Nat)

/-- A message's content as it goes into its turn. -/
def shown (message : ChatMessage) : Bytes :=
  let trimmed := trimWhitespace message.content
  if 0 < options.patchesPerImage
  then expandImageTags trimmed options.patchesPerImage options.imagePadToken else trimmed

def assistantBody (index : Nat) (message : ChatMessage) : Bytes :=
  if options.preserveThinking || decide (lastQuery < index) then
    ascii "<think>\n" ++ trimWhitespace message.reasoningContent ++ ascii "\n</think>\n\n" ++
      shown options message
  else shown options message

def toolResponse (message : ChatMessage) : Bytes :=
  ascii "<tool_response>\n" ++ shown options message ++ ascii "\n</tool_response>"

/-- A response in front of the rest of its run. -/
def joinRun (response : Bytes) : List Turn → List Turn
  | [] => [⟨ascii "user", response⟩]
  | next :: others => ⟨ascii "user", response ++ ascii "\n" ++ next.body⟩ :: others

def isTool (message : ChatMessage) : Bool := message.role == ascii "tool"

def turnsOf : Nat → List ChatMessage → List Turn
  | _, [] => []
  | index, message :: rest =>
      let later := turnsOf (index + 1) rest
      if message.role = ascii "system" then later
      else if message.role = ascii "user" then ⟨ascii "user", shown options message⟩ :: later
      else if message.role = ascii "assistant" then
        ⟨ascii "assistant", assistantBody options lastQuery index message⟩ :: later
      else if rest.head?.any isTool then joinRun (toolResponse options message) later
      else ⟨ascii "user", toolResponse options message⟩ :: later

/-- A list of messages that begins inside a run of tool messages, as the template sees it. -/
def continues (previous : Option ChatMessage) (messages : List ChatMessage) : Bool :=
  messages.head?.any isTool && previous.all isTool

def opening (previous : Option ChatMessage) (messages : List ChatMessage) : Bytes :=
  if continues previous messages then ascii "<|im_start|>user" else []

theorem opening_other {previous : Option ChatMessage} {message : ChatMessage} {rest : List ChatMessage}
    (other : message.role ≠ ascii "tool") : opening previous (message :: rest) = [] := by
  simp [opening, continues, isTool, other]

theorem opening_after {previous : ChatMessage} {rest : List ChatMessage}
    (other : previous.role ≠ ascii "tool") : opening (some previous) rest = [] := by
  simp [opening, continues, isTool, other]

/-- What a tool message adds to the text of its run, in front of the run's rest. -/
theorem joinRun_text {response text : Bytes} {later : List Turn} {next : Turn}
    (same : ascii "<|im_start|>user" ++ text = transcript (next :: later)) (user : next.role = ascii "user") :
    ascii "<|im_start|>user" ++ (ascii "\n" ++ response ++ text) =
      transcript (joinRun response (next :: later)) := by
  have rest : text = ascii "\n" ++ next.body ++ ascii "<|im_end|>\n" ++ transcript later := by
    apply (List.append_right_inj (ascii "<|im_start|>user")).mp
    rw [same, transcript, List.flatMap_cons, Turn.text, user]
    simp only [List.append_assoc]
    rfl
  rw [rest]
  simp only [joinRun, transcript, List.flatMap_cons, Turn.text, List.append_assoc]
  rfl

variable {options lastQuery}

theorem turnsOf_ne_nil {index : Nat} {messages : List ChatMessage} {message : ChatMessage}
    (member : message ∈ messages) (user : message.role = ascii "user") :
    turnsOf options lastQuery index messages ≠ [] := by
  induction messages generalizing index with
  | nil => cases member
  | cons first rest ih =>
      unfold turnsOf
      dsimp only
      split_ifs with system
      · rcases List.mem_cons.mp member with rfl | later
        · rw [user] at system
          exact absurd system (by decide)
        · exact ih later
      · exact List.cons_ne_nil _ _
      · exact List.cons_ne_nil _ _
      · unfold joinRun
        split
        · exact List.cons_ne_nil _ _
        · exact List.cons_ne_nil _ _
      · exact List.cons_ne_nil _ _

theorem turnsOf_tool {index : Nat} {message : ChatMessage} {rest : List ChatMessage}
    (tool : isTool message = true) : ∃ body others,
      turnsOf options lastQuery index (message :: rest) = ⟨ascii "user", body⟩ :: others := by
  have role : message.role = ascii "tool" := beq_iff_eq.mp tool
  unfold turnsOf
  rw [role, if_neg (by decide), if_neg (by decide), if_neg (by decide)]
  split
  · unfold joinRun
    split
    · exact ⟨_, _, rfl⟩
    · exact ⟨_, _, rfl⟩
  · exact ⟨_, _, rfl⟩

section Roles

variable {index : Nat} {previous : Option ChatMessage} {message : ChatMessage} {rest : List ChatMessage}

theorem renderMessage_system (system : message.role = ascii "system") (next : Option ChatMessage) :
    renderMessage options lastQuery index previous message next = some [] := if_pos system

theorem renderMessage_user (user : message.role = ascii "user") (next : Option ChatMessage) :
    renderMessage options lastQuery index previous message next =
      some (Turn.text ⟨ascii "user", shown options message⟩) := by
  unfold renderMessage Turn.text
  rw [user, if_neg (by decide : ascii "user" ≠ ascii "system"), if_pos rfl]
  rfl

theorem renderMessage_assistant (assistant : message.role = ascii "assistant") (next : Option ChatMessage) :
    renderMessage options lastQuery index previous message next =
      some (Turn.text ⟨ascii "assistant", assistantBody options lastQuery index message⟩) := by
  unfold renderMessage Turn.text
  rw [assistant, if_neg (by decide : ascii "assistant" ≠ ascii "system"),
    if_neg (by decide : ascii "assistant" ≠ ascii "user"), if_pos rfl]
  rfl

/-- The opening tag comes from the message or is missing in front of it. -/
theorem renderMessage_tool (tool : message.role = ascii "tool") : ∃ opener,
    renderMessage options lastQuery index previous message rest.head? =
      some (opener ++ (ascii "\n" ++ toolResponse options message ++
        if rest.head?.any isTool then [] else ascii "<|im_end|>\n")) ∧
      opening previous (message :: rest) ++ opener = ascii "<|im_start|>user" := by
  have front : isTool message = true := beq_iff_eq.mpr tool
  refine ⟨previous.elim [] fun before => if before.role ≠ ascii "tool" then ascii "<|im_start|>user" else [],
    ?_, ?_⟩
  · unfold renderMessage
    rw [tool, if_neg (by decide : ascii "tool" ≠ ascii "system"), if_neg (by decide : ascii "tool" ≠ ascii "user"),
      if_neg (by decide : ascii "tool" ≠ ascii "assistant"), if_pos rfl]
    cases previous <;> cases rest with
    | nil =>
        simp only [toolResponse, shown, List.append_assoc]
        rfl
    | cons after _ =>
        by_cases same : after.role = ascii "tool"
        · simp only [List.head?_cons, Option.any_some, isTool, same, ne_eq, not_true_eq_false, if_false,
            beq_self_eq_true, if_true, toolResponse, shown, List.append_assoc]
          rfl
        · have apart : (after.role == ascii "tool") = false := by simpa using same
          simp only [List.head?_cons, Option.any_some, isTool, same, ne_eq, not_false_eq_true, if_true, apart,
            Bool.false_eq_true, if_false, toolResponse, shown, List.append_assoc]
          rfl
  · unfold opening continues
    cases previous with
    | none => simp [front]
    | some before =>
        rw [List.head?_cons, Option.any_some, front, Bool.true_and, Option.all_some]
        by_cases same : before.role = ascii "tool" <;> simp [isTool, same]

theorem turnsOf_system (system : message.role = ascii "system") :
    turnsOf options lastQuery index (message :: rest) = turnsOf options lastQuery (index + 1) rest :=
  if_pos system

theorem turnsOf_user (user : message.role = ascii "user") :
    turnsOf options lastQuery index (message :: rest) =
      ⟨ascii "user", shown options message⟩ :: turnsOf options lastQuery (index + 1) rest := by
  rw [turnsOf, user, if_neg (by decide), if_pos rfl]

theorem turnsOf_other (system : message.role ≠ ascii "system") (user : message.role ≠ ascii "user")
    (assistant : message.role ≠ ascii "assistant") :
    turnsOf options lastQuery index (message :: rest) =
      if rest.head?.any isTool then
        joinRun (toolResponse options message) (turnsOf options lastQuery (index + 1) rest)
      else ⟨ascii "user", toolResponse options message⟩ :: turnsOf options lastQuery (index + 1) rest := by
  rw [turnsOf, if_neg system, if_neg user, if_neg assistant]

theorem turnsOf_assistant (assistant : message.role = ascii "assistant") :
    turnsOf options lastQuery index (message :: rest) =
      ⟨ascii "assistant", assistantBody options lastQuery index message⟩ ::
        turnsOf options lastQuery (index + 1) rest := by
  rw [turnsOf, assistant, if_neg (by decide), if_neg (by decide), if_pos rfl]

end Roles

theorem head_isTool (rest : List ChatMessage) :
    (rest.map (·.role)).head? = some (ascii "tool") ↔ rest.head?.any isTool = true := by
  cases rest with
  | nil => simp
  | cons after _ => simp [isTool]

theorem transcript_cons (turn : Turn) (later : List Turn) :
    transcript (turn :: later) = turn.text ++ transcript later := List.flatMap_cons

/-- The text of a conversation that begins with a tool message begins inside its turn. -/
theorem tool_text {first : ChatMessage} {rest : List ChatMessage} {text : Bytes} (tool : isTool first = true)
    (same : opening none (first :: rest) ++ text = transcript (turnsOf options lastQuery 0 (first :: rest))) :
    opening none (first :: rest) = ascii "<|im_start|>user" ∧ ∃ tail, text = ascii "\n" ++ tail := by
  have lacks : opening none (first :: rest) = ascii "<|im_start|>user" := by simp [opening, continues, tool]
  obtain ⟨body, others, begun⟩ : ∃ body others, turnsOf options lastQuery 0 (first :: rest) =
      ⟨ascii "user", body⟩ :: others := turnsOf_tool tool
  refine ⟨lacks, body ++ (ascii "<|im_end|>\n" ++ transcript others), ?_⟩
  apply (List.append_right_inj (ascii "<|im_start|>user")).mp
  rw [← lacks, same, begun, transcript_cons, Turn.text, lacks]
  simp only [List.append_assoc]
  rfl

/-- What is rendered from a message on, after the tag that a run before it has opened. -/
theorem renderMessages_turns {index : Nat} {previous : Option ChatMessage} {messages : List ChatMessage}
    {text : Bytes} (rendered : renderMessages options lastQuery index previous messages = some text) :
    opening previous messages ++ text = transcript (turnsOf options lastQuery index messages) ∧
      (turnsOf options lastQuery index messages).map (·.role) = turnRoles (messages.map (·.role)) := by
  induction messages generalizing index previous text with
  | nil =>
      cases rendered
      exact ⟨rfl, rfl⟩
  | cons message rest ih =>
      obtain ⟨turn, made, next⟩ := Option.bind_eq_some_iff.mp rendered
      obtain ⟨later, others, last⟩ := Option.bind_eq_some_iff.mp next
      cases last
      obtain ⟨same, roles⟩ := ih others
      rw [List.map_cons, turnRoles]
      by_cases system : message.role = ascii "system"
      · rw [renderMessage_system system] at made
        cases made
        rw [opening_after (by rw [system]; decide)] at same
        rw [opening_other (by rw [system]; decide), turnsOf_system system, if_pos system]
        exact ⟨same, roles⟩
      by_cases user : message.role = ascii "user"
      · rw [renderMessage_user user] at made
        cases made
        rw [opening_after (by rw [user]; decide), List.nil_append] at same
        rw [opening_other (by rw [user]; decide), List.nil_append, turnsOf_user user, transcript_cons, same,
          List.map_cons, roles, user, if_neg (by decide), if_neg (by decide)]
        exact ⟨rfl, rfl⟩
      by_cases assistant : message.role = ascii "assistant"
      · rw [renderMessage_assistant assistant] at made
        cases made
        rw [opening_after (by rw [assistant]; decide), List.nil_append] at same
        rw [opening_other (by rw [assistant]; decide), List.nil_append, turnsOf_assistant assistant,
          transcript_cons, same, List.map_cons, roles, assistant, if_neg (by decide), if_neg (by decide)]
        exact ⟨rfl, rfl⟩
      by_cases tool : message.role = ascii "tool"
      · obtain ⟨opener, shape, whole⟩ := renderMessage_tool tool
        rw [shape] at made
        cases made
        rw [← List.append_assoc, ← List.append_assoc, whole, turnsOf_other system user assistant, tool,
          if_neg (by decide : ascii "tool" ≠ ascii "system"), if_pos rfl]
        by_cases run : rest.head?.any isTool = true
        · -- the run goes on, and the next message joins its turn
          have inside : opening (some message) rest = ascii "<|im_start|>user" := by
            have own : isTool message = true := beq_iff_eq.mpr tool
            simp [opening, continues, run, own]
          obtain ⟨after, others', rfl⟩ := List.exists_cons_of_ne_nil (l := rest) (by rintro rfl; cases run)
          obtain ⟨body, turns, begun⟩ : ∃ body turns, turnsOf options lastQuery (index + 1) (after :: others') =
              ⟨ascii "user", body⟩ :: turns := turnsOf_tool run
          rw [if_pos run, if_pos run, if_pos ((head_isTool _).mpr run)]
          rw [inside, begun] at same
          rw [begun] at roles ⊢
          rw [List.append_nil, List.append_assoc, joinRun_text same rfl]
          exact ⟨rfl, roles⟩
        · have outside : opening (some message) rest = [] := by simp [opening, continues, run]
          rw [outside, List.nil_append] at same
          rw [if_neg run, if_neg run, if_neg (mt (head_isTool rest).mp run), transcript_cons, same, List.map_cons, roles]
          refine ⟨?_, rfl⟩
          simp only [Turn.text, List.append_assoc]
          rfl
      · simp [renderMessage, system, user, assistant, tool] at made

end Turns

section Prompt

variable (template : QwenChatTemplate) (options : ChatTemplateOptions)

def instructions : Bytes :=
  if options.enableThinking then getReasoningInstructions template (effort template options) else []

/-- The content of a leading system message, where it has one. -/
def systemContent (first : ChatMessage) : Bytes :=
  if first.role = ascii "system" then trimWhitespace first.content else []

/-- The system turn, where there is one: the instructions in front of the system message. -/
def leading (first : ChatMessage) : List Turn :=
  if systemContent first ≠ [] then
    [⟨ascii "system", (if instructions template options ≠ [] then
      instructions template options ++ ascii "\n\n" else []) ++ systemContent first⟩]
  else if instructions template options ≠ [] then [⟨ascii "system", instructions template options⟩]
  else []

theorem systemBlock_turns (first : ChatMessage) :
    systemBlock template options first = transcript (leading template options first) := by
  have alone : (if instructions template options ≠ [] then
      ascii "<|im_start|>system\n" ++ instructions template options ++ ascii "<|im_end|>\n" else []) =
      transcript (if instructions template options ≠ [] then
        [⟨ascii "system", instructions template options⟩] else []) := by
    split_ifs
    · simp only [transcript, List.flatMap_cons, List.flatMap_nil, Turn.text, List.append_nil]
      rfl
    · rfl
  unfold systemBlock leading systemContent
  by_cases system : first.role = ascii "system"
  · rw [if_pos system, if_pos system]
    by_cases blank : trimWhitespace first.content = []
    · rw [if_neg (not_not_intro blank), if_neg (not_not_intro blank)]
      exact alone
    · rw [if_pos blank, if_pos blank]
      simp only [transcript, List.flatMap_cons, List.flatMap_nil, Turn.text, List.append_nil, List.append_assoc]
      rfl
  · rw [if_neg system, if_neg system, if_neg (not_not_intro rfl)]
    exact alone

theorem lastQueryIndex_user {messages : List ChatMessage} {lastQuery : Nat}
    (found : lastQueryIndex messages = some lastQuery) : ∃ message ∈ messages, message.role = ascii "user" := by
  obtain ⟨⟨message, index⟩, last, _⟩ := Option.map_eq_some_iff.mp found
  obtain ⟨inside, query⟩ := List.mem_filter.mp (List.mem_of_getLast? last)
  refine ⟨message, (List.mem_zipIdx' inside).2 ▸ List.getElem_mem _, ?_⟩
  simp only [isUserQuery, Bool.and_eq_true, beq_iff_eq] at query
  exact query.1

/-- A successful rendering: the system turn, the text of the messages, the generation prompt. -/
theorem render_turns {messages : List ChatMessage} {out : Bytes}
    (rendered : render template messages options = some out) :
    ∃ first rest lastQuery text, messages = first :: rest ∧
      lastQueryIndex messages = some lastQuery ∧
      renderMessages options lastQuery 0 none messages = some text ∧
      out = transcript (leading template options first) ++ text ++ generationPrompt options := by
  cases messages with
  | nil => cases rendered
  | cons first rest =>
      unfold render at rendered
      dsimp only at rendered
      split at rendered
      · cases rendered
      split at rendered
      · cases rendered
      · rename_i lastQuery found
        split at rendered
        · obtain ⟨text, made, same⟩ := Option.map_eq_some_iff.mp rendered
          rw [systemBlock_turns] at same
          exact ⟨first, rest, lastQuery, text, rfl, found, made, same.symm⟩
        · cases rendered

end Prompt

end XInfer.ChatTurns
