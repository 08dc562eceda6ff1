import XInfer.TokenRouting
import XInfer.ChatTemplate
import Mathlib.Data.List.TakeWhile

/-!
Routing of reasoning when the rendered prompt has already opened the think block:
`render_opens_think` says that it has. `process_token` starts with the flag off
all the same, so a piece lands in the reasoning content only after a think marker
has been generated. `Routed` is what a reader of `GenerationResult` expects, and
`routed_iff` says for which token sequences the engine delivers it.
-/

namespace XInfer.ReasoningRouting

open Primitives ByteString TokenRouting

variable (M : Markers)

/-- A token that `process_token` takes for the end of a think block. -/
def closes (tok : Int) : Bool := !M.isStart tok && M.isEnd tok

def reasoningTokens (tokens : List Int) : List Int := tokens.takeWhile fun tok => !closes M tok

def answerTokens (tokens : List Int) : List Int := (tokens.dropWhile fun tok => !closes M tok).tail

def leadingTokens (tokens : List Int) : List Int := tokens.takeWhile fun tok => !M.isMarker tok

/-- Text and reasoning content of a generation. -/
def answer (tokens : List Int) : Bytes × Bytes :=
  cleanUp (M.routeAll tokens).text (M.routeAll tokens).reasoningContent

structure Routed (tokens : List Int) : Prop where
  reasoning : (answer M tokens).2 = M.contents (reasoningTokens M tokens)
  text : (answer M tokens).1.dropWhile isBreak =
    (M.contents (answerTokens M tokens)).dropWhile isBreak
  unclosed : (∀ tok ∈ tokens, closes M tok = false) → (answer M tokens).1 = []

/-- Nothing visible precedes the first marker, no block that opens after the first
end holds anything visible, and what follows that end spells no tag. -/
structure OpensItself (tokens : List Int) : Prop where
  leading : M.contents (leadingTokens M tokens) = []
  reopened : M.inside false (answerTokens M tokens) = []
  noThinkTag : ¬ Contains thinkTag (M.contents (answerTokens M tokens))
  noThinkEndTag : ¬ Contains thinkEndTag (M.contents (answerTokens M tokens))

section Pieces

theorem split_at_end (tokens : List Int) :
    (∀ tok ∈ tokens, closes M tok = false) ∧
        reasoningTokens M tokens = tokens ∧ answerTokens M tokens = [] ∨
      ∃ tok, closes M tok = true ∧
        tokens = reasoningTokens M tokens ++ tok :: answerTokens M tokens := by
  induction tokens with
  | nil => exact Or.inl ⟨by simp, rfl, rfl⟩
  | cons tok rest ih =>
      by_cases close : closes M tok = true
      · exact Or.inr ⟨tok, close, by simp [reasoningTokens, answerTokens, close]⟩
      · have stays : closes M tok = false := by simpa using close
        rcases ih with ⟨never, all, nothing⟩ | ⟨last, ends, split⟩
        · left
          simp only [reasoningTokens, answerTokens] at all nothing
          refine ⟨by simpa [stays] using never, ?_, ?_⟩
          · simp [reasoningTokens, stays, all]
          · simp [answerTokens, stays, nothing]
        · right
          refine ⟨last, ends, ?_⟩
          simp only [reasoningTokens, answerTokens] at split
          simp only [reasoningTokens, answerTokens, stays, Bool.not_false, List.takeWhile_cons,
            List.dropWhile_cons, if_true, List.cons_append]
          exact congrArg (tok :: ·) split

theorem across_end {tok : Int} (close : closes M tok = true) (front back : List Int)
    (thinking : Bool) :
    M.outside thinking (front ++ tok :: back) = M.outside thinking front ++ M.outside false back ∧
      M.inside thinking (front ++ tok :: back) = M.inside thinking front ++ M.inside false back := by
  have apart : M.isStart tok = false ∧ M.isEnd tok = true := by simpa [closes] using close
  induction front generalizing thinking with
  | nil => simp [Markers.outside, Markers.inside, apart]
  | cons other rest ih =>
      by_cases start : M.isStart other = true
      · simp [Markers.outside, Markers.inside, start, ih true]
      · by_cases finish : M.isEnd other = true
        · simp [Markers.outside, Markers.inside, start, finish, ih false]
        · simp [Markers.outside, Markers.inside, start, finish, ih thinking]

theorem reasoning_open {tokens : List Int} {tok : Int} (member : tok ∈ reasoningTokens M tokens) :
    M.isStart tok = true ∨ M.isEnd tok = false := by
  have stays := List.mem_takeWhile_imp member
  cases start : M.isStart tok
  · right
    simpa [closes, start] using stays
  · exact Or.inl rfl

/-- Before the first end the pieces outside are the leading ones; when those are
empty, everything else is inside. -/
theorem open_pieces (tokens : List Int)
    (still : ∀ tok ∈ tokens, M.isStart tok = true ∨ M.isEnd tok = false) :
    M.outside false tokens = M.contents (leadingTokens M tokens) ∧
      (M.contents (leadingTokens M tokens) = [] → M.inside false tokens = M.contents tokens) := by
  induction tokens with
  | nil => exact ⟨rfl, fun _ => rfl⟩
  | cons tok rest ih =>
      have later : ∀ other ∈ rest, M.isStart other = true ∨ M.isEnd other = false :=
        fun other member => still other (List.mem_cons_of_mem tok member)
      by_cases start : M.isStart tok = true
      · obtain ⟨nothing, all⟩ := M.outside_true_of_open rest later
        simp [Markers.outside, Markers.inside, leadingTokens, Markers.isMarker, Markers.contents,
          start, nothing, all]
      · have finish : M.isEnd tok = false := (still tok List.mem_cons_self).resolve_left start
        obtain ⟨front, beyond⟩ := ih later
        have here : leadingTokens M (tok :: rest) = tok :: leadingTokens M rest := by
          simp [leadingTokens, Markers.isMarker, start, finish]
        rw [here]
        constructor
        · simp [Markers.outside, Markers.contents, Markers.isMarker, start, finish, front]
        · intro empty
          simp only [Markers.contents, Markers.isMarker, start, finish, Bool.or_self,
            Bool.false_eq_true, if_false, List.append_eq_nil_iff] at empty
          simp [Markers.inside, Markers.contents, Markers.isMarker, start, finish, empty.1,
            beyond empty.2]

theorem leading_reasoning (tokens : List Int) :
    leadingTokens M (reasoningTokens M tokens) = leadingTokens M tokens := by
  induction tokens with
  | nil => rfl
  | cons tok rest ih =>
      by_cases close : closes M tok = true
      · have marker : M.isMarker tok = true := by
          have ends : M.isStart tok = false ∧ M.isEnd tok = true := by simpa [closes] using close
          simp [Markers.isMarker, ends]
        simp [leadingTokens, reasoningTokens, close, marker]
      · simp only [leadingTokens, reasoningTokens] at ih
        by_cases marker : M.isMarker tok = true
        · simp [leadingTokens, reasoningTokens, close, marker]
        · simp [leadingTokens, reasoningTokens, close, marker, ih]

/-- Where the pieces of a generation go before the clean-up. -/
theorem routed_pieces (tokens : List Int) :
    M.outside false tokens =
        M.contents (leadingTokens M tokens) ++ M.outside false (answerTokens M tokens) ∧
      M.inside false tokens =
        M.inside false (reasoningTokens M tokens) ++ M.inside false (answerTokens M tokens) := by
  have front := (open_pieces M (reasoningTokens M tokens) fun tok => reasoning_open M).1
  rw [leading_reasoning] at front
  rcases split_at_end M tokens with ⟨_, all, nothing⟩ | ⟨tok, close, split⟩
  · rw [all] at front
    simp [all, nothing, Markers.outside, Markers.inside, front]
  · obtain ⟨text, reasoning⟩ :=
      across_end M close (reasoningTokens M tokens) (answerTokens M tokens) false
    rw [← split] at text reasoning
    exact ⟨by rw [text, front], reasoning⟩

end Pieces

section CleanUp

/-- Bytes that are not line breaks: what stripping never removes, and every erased
tag does. -/
def solid (text : Bytes) : Nat := text.countP fun byte => !isBreak byte

theorem solid_append (front back : Bytes) : solid (front ++ back) = solid front + solid back :=
  List.countP_append

theorem solid_strip (text : Bytes) : solid (text.dropWhile isBreak) = solid text := by
  induction text with
  | nil => rfl
  | cons byte rest ih =>
      cases linefeed : isBreak byte
      · simp [linefeed]
      · rw [List.dropWhile_cons, if_pos linefeed, ih]
        simp [solid, linefeed]

theorem strip_idem (text : Bytes) :
    (text.dropWhile isBreak).dropWhile isBreak = text.dropWhile isBreak := by
  induction text with
  | nil => rfl
  | cons byte rest ih =>
      cases linefeed : isBreak byte
      · simp [linefeed]
      · simpa [linefeed] using ih

theorem solid_thinkTag : solid thinkTag = 7 := by decide

theorem solid_take_lt {tag text : Bytes} {pos : Nat} (visible : 0 < solid tag)
    (found : find tag text = some pos) : solid (text.take pos) < solid text := by
  have split := congrArg solid (find_split tag found)
  rw [solid_append, solid_append] at split
  omega

theorem solid_erase_lt {tag text : Bytes} {pos count : Nat} (visible : 0 < solid tag)
    (found : find tag text = some pos) (wide : tag.length ≤ count) :
    solid (erase text pos count) < solid text := by
  have split := congrArg solid (find_split tag found)
  have back : text.drop (pos + count) = (text.drop (pos + tag.length)).drop (count - tag.length) := by
    rw [List.drop_drop]
    congr 1
    omega
  have fewer : solid (text.drop (pos + count)) ≤ solid (text.drop (pos + tag.length)) := by
    rw [back]
    exact (List.drop_sublist _ _).countP_le
  rw [solid_append, solid_append] at split
  rw [erase, solid_append]
  omega

theorem liftBlock_absent {text : Bytes} (reasoning : Bytes) (absent : ¬ Contains thinkTag text) :
    liftBlock text reasoning = (text, reasoning) := by
  simp only [liftBlock, find_none absent]

theorem liftBlock_present {text : Bytes} (reasoning : Bytes) (present : Contains thinkTag text) :
    solid (liftBlock text reasoning).1 < solid text ∧
      (liftBlock text []).2.length < text.length := by
  have seven : thinkTag.length = 7 := by decide
  cases found : find thinkTag text with
  | none => exact absurd found present
  | some start =>
      have bound := find_le thinkTag found
      have visible : 0 < solid thinkTag := by rw [solid_thinkTag]; omega
      have shorter := solid_take_lt visible found
      have erased : ∀ count, 7 ≤ count → solid (erase text start count) < solid text :=
        fun count wide => solid_erase_lt visible found (by omega)
      simp only [liftBlock, found]
      cases finish : find thinkEndTag text with
      | none => simp only [if_true, List.length_drop]; omega
      | some final =>
          by_cases order : start ≤ final
          · simp only [if_pos order, if_true]
            refine ⟨erased _ (by omega), ?_⟩
            simp only [substr, List.length_take, List.length_drop]
            omega
          · simp only [if_neg order, if_true, List.length_drop]
            omega

theorem liftBlock_nonempty {text reasoning : Bytes} (present : reasoning ≠ []) :
    (liftBlock text reasoning).2 = reasoning := by
  unfold liftBlock
  split
  · rfl
  · split
    · split
      · rfl
      · rfl
    · exact if_neg present

theorem eraseStray_absent {text : Bytes} (fuel : Nat) (absent : ¬ Contains thinkEndTag text) :
    eraseStray fuel text = text := by
  cases fuel with
  | zero => rfl
  | succ fuel => simp only [eraseStray, find_none absent]

theorem eraseStray_solid (fuel : Nat) (text : Bytes) :
    solid (eraseStray fuel text) ≤ solid text := by
  induction fuel generalizing text with
  | zero => exact Nat.le_refl _
  | succ fuel ih =>
      cases found : find thinkEndTag text with
      | none => simp [eraseStray, found]
      | some pos =>
          have less := solid_erase_lt (by decide : 0 < solid thinkEndTag) found
            (by decide : thinkEndTag.length ≤ 8)
          have later := ih (erase text pos 8)
          simp only [eraseStray, found]
          omega

theorem eraseStray_present {text : Bytes} (present : Contains thinkEndTag text) :
    solid (eraseStray text.length text) < solid text := by
  cases found : find thinkEndTag text with
  | none => exact absurd found present
  | some pos =>
      have bound := find_le thinkEndTag found
      have eight : thinkEndTag.length = 8 := by decide
      obtain ⟨fuel, size⟩ : ∃ fuel, text.length = fuel + 1 := ⟨text.length - 1, by omega⟩
      have less := solid_erase_lt (by decide : 0 < solid thinkEndTag) found
        (by decide : thinkEndTag.length ≤ 8)
      have later := eraseStray_solid fuel (erase text pos 8)
      simp only [size, eraseStray, found]
      omega

theorem cleanUp_solid (text reasoning : Bytes) :
    solid (cleanUp text reasoning).1 =
      solid (eraseStray (liftBlock text reasoning).1.length (liftBlock text reasoning).1) := by
  simp only [cleanUp]
  split
  · rfl
  · exact solid_strip _

/-- A text that spells no tag keeps all but its leading line breaks. -/
theorem cleanUp_clean {text : Bytes} (reasoning : Bytes) (noThinkTag : ¬ Contains thinkTag text)
    (noThinkEndTag : ¬ Contains thinkEndTag text) :
    (cleanUp text reasoning).2 = reasoning ∧
      (cleanUp text reasoning).1 = if reasoning = [] then text else text.dropWhile isBreak := by
  simp only [cleanUp, liftBlock_absent reasoning noThinkTag, eraseStray_absent _ noThinkEndTag]
  exact ⟨trivial, trivial⟩

/-- A text that spells a tag loses more than line breaks. -/
theorem cleanUp_tagged {text : Bytes} (reasoning : Bytes)
    (tagged : Contains thinkTag text ∨ Contains thinkEndTag text) :
    solid (cleanUp text reasoning).1 < solid text := by
  rw [cleanUp_solid]
  by_cases think : Contains thinkTag text
  · have lifted := (liftBlock_present reasoning think).1
    have rest := eraseStray_solid (liftBlock text reasoning).1.length (liftBlock text reasoning).1
    omega
  · rw [liftBlock_absent reasoning think]
    exact eraseStray_present (tagged.resolve_left think)

end CleanUp

section Stages

theorem answerTokens_take (tokens : List Int) (stage : Nat) :
    answerTokens M (tokens.take stage) <+: answerTokens M tokens := by
  induction tokens generalizing stage with
  | nil => simp
  | cons tok rest ih =>
      cases stage with
      | zero => exact List.nil_prefix
      | succ stage =>
          by_cases close : closes M tok = true
          · simp [answerTokens, close, List.take_prefix]
          · have later := ih stage
            simp only [answerTokens] at later
            simpa [answerTokens, close] using later

theorem leadingTokens_take (tokens : List Int) (stage : Nat) :
    leadingTokens M (tokens.take stage) <+: leadingTokens M tokens := by
  induction tokens generalizing stage with
  | nil => simp
  | cons tok rest ih =>
      cases stage with
      | zero => exact List.nil_prefix
      | succ stage =>
          by_cases marker : M.isMarker tok = true
          · simp [leadingTokens, marker]
          · have later := ih stage
            simp only [leadingTokens] at later
            simpa [leadingTokens, marker, List.cons_prefix_cons] using later

theorem contents_prefix {front tokens : List Int} (initial : front <+: tokens) :
    M.contents front <+: M.contents tokens := by
  obtain ⟨back, rfl⟩ := initial
  rw [M.contents_append]
  exact List.prefix_append _ _

theorem inside_append (thinking : Bool) (front back : List Int) :
    M.inside thinking front <+: M.inside thinking (front ++ back) := by
  induction front generalizing thinking with
  | nil => exact List.nil_prefix
  | cons tok rest ih =>
      by_cases start : M.isStart tok = true
      · simpa [Markers.inside, start] using ih true
      · by_cases finish : M.isEnd tok = true
        · simpa [Markers.inside, start, finish] using ih false
        · simpa [Markers.inside, start, finish, List.prefix_append_right_inj] using ih thinking

/-- The condition on a generation holds at every earlier stage of it. -/
theorem OpensItself.take {tokens : List Int} (opens : OpensItself M tokens) (stage : Nat) :
    OpensItself M (tokens.take stage) where
  leading := by
    have front := contents_prefix M (leadingTokens_take M tokens stage)
    rw [opens.leading] at front
    exact List.prefix_nil.mp front
  reopened := by
    obtain ⟨back, split⟩ := answerTokens_take M tokens stage
    have front := inside_append M false (answerTokens M (tokens.take stage)) back
    rw [split, opens.reopened] at front
    exact List.prefix_nil.mp front
  noThinkTag := by
    obtain ⟨back, split⟩ := contents_prefix M (answerTokens_take M tokens stage)
    exact not_contains_left (split ▸ opens.noThinkTag)
  noThinkEndTag := by
    obtain ⟨back, split⟩ := contents_prefix M (answerTokens_take M tokens stage)
    exact not_contains_left (split ▸ opens.noThinkEndTag)

end Stages

section Routing

theorem routed_of_opens {tokens : List Int} (opens : OpensItself M tokens) : Routed M tokens := by
  obtain ⟨text, reasoning⟩ := routed_pieces M tokens
  have still := (open_pieces M (reasoningTokens M tokens) fun tok => reasoning_open M).2
  rw [leading_reasoning] at still
  rw [opens.leading, List.nil_append,
    M.outside_of_inside_nil false _ opens.reopened] at text
  rw [still opens.leading, opens.reopened, List.append_nil] at reasoning
  obtain ⟨kept, shown⟩ := cleanUp_clean (M.contents (reasoningTokens M tokens))
    opens.noThinkTag opens.noThinkEndTag
  have out : answer M tokens = cleanUp (M.contents (answerTokens M tokens))
      (M.contents (reasoningTokens M tokens)) := by
    rw [answer, M.routeAll_text, M.routeAll_reasoning, text, reasoning]
  constructor
  · rw [out, kept]
  · rw [out, shown]
    split
    · rfl
    · exact strip_idem _
  · intro never
    have nothing : answerTokens M tokens = [] := by
      rcases split_at_end M tokens with ⟨_, _, nothing⟩ | ⟨tok, close, split⟩
      · exact nothing
      · have member : tok ∈ tokens := by rw [split]; simp
        rw [never tok member] at close
        cases close
    rw [out, shown, nothing]
    simp [Markers.contents]

/-- A stage that is only leading pieces shows them as text. -/
theorem leading_of_routed {tokens : List Int}
    (routed : ∀ stage, Routed M (tokens.take stage)) : M.contents (leadingTokens M tokens) = [] := by
  have front : tokens.take (leadingTokens M tokens).length = leadingTokens M tokens :=
    (List.prefix_iff_eq_take.mp (List.takeWhile_prefix _)).symm
  have stage := routed (leadingTokens M tokens).length
  rw [front] at stage
  generalize leading : leadingTokens M tokens = visible at stage
  have plain : ∀ tok ∈ visible, M.isStart tok = false ∧ M.isEnd tok = false := by
    intro tok member
    rw [← leading] at member
    simpa [Markers.isMarker] using List.mem_takeWhile_imp member
  have never : ∀ tok ∈ visible, closes M tok = false := by
    intro tok member
    simp [closes, plain tok member]
  have notYet : ∀ tok ∈ visible, M.isStart tok = true ∨ M.isEnd tok = false :=
    fun tok member => Or.inr (plain tok member).2
  have self : leadingTokens M visible = visible := by
    rw [← leading]
    exact List.takeWhile_idem
  have outside := (open_pieces M visible notYet).1
  rw [self] at outside
  have inside : M.inside false visible = [] := by
    have length := M.contents_length false visible
    rw [outside] at length
    exact List.eq_nil_of_length_eq_zero (by omega)
  have out : answer M visible = cleanUp (M.contents visible) [] := by
    rw [answer, M.routeAll_text, M.routeAll_reasoning, outside, inside]
  have all : reasoningTokens M visible = visible := by
    rcases split_at_end M visible with ⟨_, all, _⟩ | ⟨tok, close, split⟩
    · exact all
    · have member : tok ∈ visible := by rw [split]; simp
      rw [never tok member] at close
      cases close
  have reasoning := stage.reasoning
  have length : (liftBlock (M.contents visible) []).2 = M.contents visible := by
    rw [out, all] at reasoning
    exact reasoning
  by_cases tagged : Contains thinkTag (M.contents visible)
  · have less := (liftBlock_present [] tagged).2
    rw [length] at less
    exact absurd less (Nat.lt_irrefl _)
  · rw [liftBlock_absent [] tagged] at length
    exact length.symm

/-- The engine routes every stage of a generation as the opened block demands
exactly when the generation opens the block itself. -/
theorem routed_iff (tokens : List Int) :
    (∀ stage, Routed M (tokens.take stage)) ↔ OpensItself M tokens := by
  constructor
  · intro routed
    have leading := leading_of_routed M routed
    have whole := routed tokens.length
    rw [List.take_length] at whole
    obtain ⟨text, reasoning⟩ := routed_pieces M tokens
    have still := (open_pieces M (reasoningTokens M tokens) fun tok => reasoning_open M).2
    rw [leading_reasoning] at still
    rw [leading, List.nil_append] at text
    rw [still leading] at reasoning
    have out : answer M tokens = cleanUp (M.outside false (answerTokens M tokens))
        (M.contents (reasoningTokens M tokens) ++ M.inside false (answerTokens M tokens)) := by
      rw [answer, M.routeAll_text, M.routeAll_reasoning, text, reasoning]
    have reopened : M.inside false (answerTokens M tokens) = [] := by
      by_cases nothing : M.contents (reasoningTokens M tokens) ++
          M.inside false (answerTokens M tokens) = []
      · exact (List.append_eq_nil_iff.mp nothing).2
      · have kept := whole.reasoning
        rw [out] at kept
        have same : (cleanUp (M.outside false (answerTokens M tokens))
            (M.contents (reasoningTokens M tokens) ++ M.inside false (answerTokens M tokens))).2 =
            M.contents (reasoningTokens M tokens) ++ M.inside false (answerTokens M tokens) :=
          liftBlock_nonempty nothing
        rw [same] at kept
        exact List.append_right_eq_self.mp kept
    have shown := congrArg solid whole.text
    rw [out, M.outside_of_inside_nil false _ reopened, solid_strip, solid_strip] at shown
    have clean : ∀ tag, tag = thinkTag ∨ tag = thinkEndTag →
        ¬ Contains tag (M.contents (answerTokens M tokens)) := by
      rintro tag which present
      have less := cleanUp_tagged
        (M.contents (reasoningTokens M tokens) ++ M.inside false (answerTokens M tokens))
        (by rcases which with rfl | rfl
            · exact Or.inl present
            · exact Or.inr present)
      omega
    exact ⟨leading, reopened, clean _ (Or.inl rfl), clean _ (Or.inr rfl)⟩
  · intro opens stage
    exact routed_of_opens M (opens.take M stage)

def greeting : List ChatTemplate.ChatMessage := [{ role := ascii "user", content := ascii "hi" }]

theorem greeting_renders :
    ∃ out, ChatTemplate.render ChatTemplate.initDefaults greeting {} = some out :=
  Option.isSome_iff_exists.mp (by decide)

/-- The same of every rendered conversation: its prompt ends inside the block, and
what is generated from it is routed so exactly when it opens the block itself. -/
theorem rendered_routing_iff (tokens : List Int) :
    (∀ template messages options out, options.addGenerationPrompt = true →
        options.enableThinking = true →
        ChatTemplate.render template messages options = some out →
        (∃ front, out = front ++ ascii "<think>\n") ∧
          ∀ stage, Routed M (tokens.take stage)) ↔ OpensItself M tokens := by
  rw [← routed_iff]
  constructor
  · intro every
    obtain ⟨out, renders⟩ := greeting_renders
    exact (every _ _ _ out rfl rfl renders).2
  · intro routed template messages options out prompt thinking renders
    exact ⟨ChatTemplate.render_opens_think prompt thinking renders, routed⟩

/-- Markers of a tokenizer in which 1 decodes to a letter. -/
def letterMarkers : Markers where
  thinkStartTok := 248068
  thinkEndTok := 248069
  decodeToken := fun tok => if tok = 1 then ascii "a" else if tok = 248068 then thinkTag
    else if tok = 248069 then thinkEndTag else []

/-- One letter of reasoning and the end of the block: the letter shows as text. -/
theorem unopened_reasoning_shown :
    (ChatTemplate.render ChatTemplate.initDefaults greeting {}).isSome = true ∧
      answer letterMarkers [1, 248069] = (ascii "a", []) ∧
      ¬ Routed letterMarkers [1, 248069] := by
  have shown : answer letterMarkers [1, 248069] = (ascii "a", []) := by decide
  refine ⟨by decide, shown, fun routed => ?_⟩
  have reasoning := routed.reasoning
  rw [shown] at reasoning
  exact absurd reasoning (by decide)

end Routing

end XInfer.ReasoningRouting
