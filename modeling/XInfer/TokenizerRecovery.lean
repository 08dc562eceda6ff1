import XInfer.TokenizerFile
import XInfer.TokenizerLoad
import Mathlib.Data.List.TakeWhile

/-!
What `load_from_json_buffer` recovers from a well-formed file. The three sections are
found by a search for their keys in quotes, so a token that is written with a quote and
a key at its end takes the place of the section.
-/

namespace XInfer.TokenizerRecovery

open Primitives ByteString HashTable KeySearch Tokenizer TokenizerJson TokenizerFile TokenizerLoad

theorem spells_escaped {raw content : Bytes} (spells : Spells raw content) : Escaped raw := by
  have hex {c : UInt8} {value : Nat} (digit : hexValue c = some value) {raw : Bytes} (tail : Escaped raw) :
      Escaped (c :: raw) := by
    obtain ⟨_, _, _, _, _, quote, slash⟩ := hexValue_plain digit
    exact .plain quote slash tail
  induction spells with
  | nil => exact .nil
  | plain _ quote backslash _ ih => exact .plain quote backslash ih
  | short _ _ ih => exact .escape _ ih
  | unicode digits _ _ ih =>
      obtain ⟨_, _, _, _, first, second, third, fourth, _⟩ := digits
      exact .escape _ (hex first (hex second (hex third (hex fourth ih))))
  | pair digits digits' _ _ _ ih =>
      obtain ⟨_, _, _, _, first, second, third, fourth, _⟩ := digits
      obtain ⟨_, _, _, _, first', second', third', fourth', _⟩ := digits'
      exact .escape _ (hex first (hex second (hex third (hex fourth
        (.escape _ (hex first' (hex second' (hex third' (hex fourth' ih)))))))))

theorem gap_unquoted (gap : Gap) : 34 ∉ gap.text := fun inside => by
  have blank := gap.blank 34 inside
  revert blank
  decide

theorem digits_unquoted (number : Numeral) : 34 ∉ number.digits := fun inside => by
  have digit := number.decimal 34 inside
  revert digit
  decide

theorem flagText_unquoted (value : Bool) : 34 ∉ flagText value := by
  rcases value with _ | _ <;> decide

/-- Nothing opens after this text. -/
def Stuck (opening : UInt8) (text : Bytes) : Prop := opened opening text = none

theorem stuck_closer (opening : UInt8) (gap : Gap) {c : UInt8} (closer : c ∈ closers) (rest : Bytes) :
    Stuck opening (gap.text ++ c :: rest) := by
  obtain ⟨blank, _, _, _, colon⟩ := closer_plain closer
  rw [Stuck, opened, skipWhitespace_gap, skipWhitespace_mark blank]
  simp [colon]

theorem stuck_number (afterKey afterColon : Gap) (number : Numeral) (rest : Bytes) :
    Stuck 91 (afterKey.text ++ 58 :: (afterColon.text ++ (number.digits ++ rest))) := by
  rcases shape : number.digits with _ | ⟨digit, digits⟩
  · exact absurd shape number.nonempty
  · have lead := number.decimal digit (by simp [shape])
    have bracket : digit ≠ 91 := by
      rintro rfl
      revert lead
      decide
    rw [Stuck, opened, skipWhitespace_gap, skipWhitespace_mark (by decide)]
    simp only [if_true]
    rw [skipWhitespace_gap, List.cons_append, skipWhitespace_mark (isBlank_digit lead).1]
    simp [bracket]

/-- A key whose bytes are letters and underscores. -/
structure SectionKey (key : Bytes) : Prop where
  letters : ∀ c ∈ key, 95 ≤ c ∧ c ≤ 122

namespace SectionKey
variable {key : Bytes} (word : SectionKey key)
include word

theorem plain : 34 ∉ key := fun inside => absurd (word.letters 34 inside).1 (by decide)
theorem slash : 92 ∉ key := fun inside => absurd (word.letters 92 inside).1 (by decide)

theorem written : Plain key := fun c inside => by
  obtain ⟨above, below⟩ := word.letters c inside
  grind

theorem mark {c : UInt8} (mark : c ∈ [44, 58, 91, 93, 123, 125]) : c ∉ key ∧ c ≠ 34 := by
  simp only [List.mem_cons, List.not_mem_nil, or_false] at mark
  rcases mark with rfl | rfl | rfl | rfl | rfl | rfl <;>
    exact ⟨fun inside => absurd (word.letters _ inside) (by decide), by decide⟩

theorem member_quiet (gaps : Spacing) {raw value : Bytes} (escaped : Escaped raw)
    (apart : ¬ EndsIn key raw) (rest : Quiets key (gaps.afterColon.text ++ value ++ gaps.after.text)) :
    Quiets key (memberText gaps raw value) :=
  (Quiets.literal word.plain word.slash (gap_unquoted gaps.before) escaped (gap_unquoted gaps.afterKey)
    apart).join (word.mark (by decide)).1 (word.mark (by decide)).2 rest

omit word in
theorem value_quiet (gaps : Spacing) {value : Bytes} (unquoted : 34 ∉ value) :
    Quiets key (gaps.afterColon.text ++ value ++ gaps.after.text) :=
  Quiets.unquoted (by simp [gap_unquoted, unquoted])

theorem entry_quiet (entry : VocabEntry) (apart : ¬ EndsIn key entry.token.raw) : Quiets key entry.text :=
  word.member_quiet entry.gaps (spells_escaped entry.token.spells) apart
    (value_quiet entry.gaps (digits_unquoted entry.id))

theorem entry_caught (entry : VocabEntry) (ends : EndsIn key entry.token.raw) :
    Caught key closers (Stuck 91) entry.text := by
  have text : entry.text = entry.gaps.before.text ++ 34 :: (entry.token.raw ++ 34 ::
      (entry.gaps.afterKey.text ++ 58 :: (entry.gaps.afterColon.text ++ (entry.id.digits ++
        entry.gaps.after.text)))) := by
    simp [VocabEntry.text, memberText]
  rw [text]
  refine Caught.literal word.plain word.slash (gap_unquoted _) (spells_escaped entry.token.spells) ends ?_
  intro c closer rest
  have stuck := stuck_number entry.gaps.afterKey entry.gaps.afterColon entry.id
    (entry.gaps.after.text ++ c :: rest)
  simpa using stuck

theorem token_member (apart : ¬ EndsIn key (ascii "id") ∧ ¬ EndsIn key (ascii "content") ∧
      ∀ name ∈ flagNames, ¬ EndsIn key name) (token : AddedToken) {member : Member × Spacing}
    (inside : member ∈ token.members) (content : member.1 = .content → ¬ EndsIn key token.content.raw) :
    Quiets key (token.memberText member) := by
  obtain ⟨member, gaps⟩ := member
  cases member with
  | id =>
      exact word.member_quiet gaps (spells_escaped (spells_plain (by decide))) apart.1
        (value_quiet gaps (digits_unquoted token.id))
  | content =>
      refine word.member_quiet gaps (spells_escaped (spells_plain (by decide))) apart.2.1 ?_
      have literal := Quiets.literal word.plain word.slash (gap_unquoted gaps.afterColon)
        (spells_escaped token.content.spells) (gap_unquoted gaps.after) (content rfl)
      simpa using literal
  | flag name value =>
      have known := token.known name value (List.mem_map_of_mem inside)
      obtain ⟨_, _, plain⟩ := flagNames_word known
      exact word.member_quiet gaps (spells_escaped (spells_plain plain)) (apart.2.2 name known)
        (value_quiet gaps (flagText_unquoted value))

theorem content_caught (opening : UInt8) (apart : ¬ EndsIn key (ascii "content")) (token : AddedToken)
    (gaps : Spacing) (ends : EndsIn key token.content.raw) :
    Caught key closers (Stuck opening) (token.memberText (.content, gaps)) := by
  have literal : Caught key closers (Stuck opening) (gaps.afterColon.text ++ 34 :: (token.content.raw ++
      34 :: gaps.after.text)) :=
    Caught.literal word.plain word.slash (gap_unquoted _) (spells_escaped token.content.spells) ends
      fun c closer rest => stuck_closer opening gaps.after closer rest
  have lead : Quiets key (gaps.before.text ++ 34 :: (ascii "content" ++ 34 :: gaps.afterKey.text)) :=
    Quiets.literal word.plain word.slash (gap_unquoted _)
      (spells_escaped (spells_plain (by decide))) (gap_unquoted _) apart
  have whole := Caught.right lead (word.mark (by decide : (58 : UInt8) ∈ _)).1
    (word.mark (by decide : (58 : UInt8) ∈ _)).2 literal
  simpa [AddedToken.memberText, memberText] using whole

/-- The member texts of the object and its braces. -/
theorem token_quiet (apart : ¬ EndsIn key (ascii "id") ∧ ¬ EndsIn key (ascii "content") ∧
      ∀ name ∈ flagNames, ¬ EndsIn key name) (token : AddedToken)
    (quiet : ¬ EndsIn key token.content.raw) : Quiets key token.text := by
  have comma := word.mark (by decide : (44 : UInt8) ∈ _)
  have opening := word.mark (by decide : (123 : UInt8) ∈ _)
  have closing := word.mark (by decide : (125 : UInt8) ∈ _)
  have members : Quiets key (separated 44 [] (token.members.map token.memberText)) := by
    refine Quiets.separated comma.1 comma.2 (by simp) ?_
    intro part inside
    obtain ⟨member, held, rfl⟩ := List.mem_map.mp inside
    exact word.token_member apart token held fun _ => quiet
  exact (Quiets.unquoted (gap_unquoted _)).join opening.1 opening.2
    (members.join closing.1 closing.2 (Quiets.unquoted (gap_unquoted _)))

theorem token_caught (opening : UInt8) (apart : ¬ EndsIn key (ascii "id") ∧
      ¬ EndsIn key (ascii "content") ∧ ∀ name ∈ flagNames, ¬ EndsIn key name) (token : AddedToken)
    (ends : EndsIn key token.content.raw) : Caught key closers (Stuck opening) token.text := by
  have comma := word.mark (by decide : (44 : UInt8) ∈ _)
  have brace := word.mark (by decide : (123 : UInt8) ∈ _)
  have members : Caught key closers (Stuck opening) (separated 44 [] (token.members.map token.memberText)) := by
    refine Caught.separated comma.1 comma.2 (by decide) ?_ ?_
    · intro part inside
      obtain ⟨⟨member, gaps⟩, held, rfl⟩ := List.mem_map.mp inside
      by_cases content : member = .content
      · subst content
        exact Or.inr (word.content_caught opening apart.2.1 token gaps ends)
      · exact Or.inl (word.token_member apart token held fun same => absurd same content)
    · obtain ⟨⟨member, gaps⟩, held, content⟩ := List.mem_map.mp token.hasContent
      cases content
      exact ⟨_, List.mem_map_of_mem held, word.content_caught opening apart.2.1 token gaps ends⟩
  exact Caught.right (Quiets.unquoted (gap_unquoted _)) brace.1 brace.2
    (Caught.left members (by decide))

/-- A state that no text completes. -/
def Fresh (key : Bytes) (since : Option Bytes) : Prop := ∀ text, ¬ Completes key since text

omit word in
theorem fresh_start (key : Bytes) : Fresh key none := by
  rintro text ⟨front, back, same, _⟩
  cases same

omit word in
/-- Up to a section, over a text that spells none of the keys. -/
theorem around_section (listed : key ∈ sectionKeys) (around : Surround) {since : Option Bytes}
    (fresh : Fresh key since) (rest : Bytes) :
    afterKey key since (around.text ++ 34 :: rest) = afterKey key (some []) rest :=
  afterKey_absent (fresh _) (around.silent key listed) rest

theorem reach_section (listed : key ∈ sectionKeys) (around : Surround) {since : Option Bytes}
    (fresh : Fresh key since) (gaps : SectionGaps) (opening closing : UInt8) (parts : List Bytes)
    (rest : Bytes) :
    afterKey key since (around.text ++ (sectionText gaps key opening closing parts ++ rest)) =
      some (gaps.afterKey.text ++ 58 :: (gaps.afterColon.text ++ opening ::
        (separated 44 gaps.hollow.text parts ++ closing :: rest))) := by
  have text : sectionText gaps key opening closing parts ++ rest = 34 :: (key ++ 34 ::
      (gaps.afterKey.text ++ 58 :: (gaps.afterColon.text ++ opening ::
        (separated 44 gaps.hollow.text parts ++ closing :: rest)))) := by
    simp [sectionText]
  rw [text, around_section listed around fresh, afterKey_here word.plain]

/-- The text of another section, from its key to its brackets. -/
theorem enter_section {sectionKey : Bytes} (listed : key ∈ sectionKeys) (around : Surround)
    {since : Option Bytes} (fresh : Fresh key since) (other : SectionKey sectionKey)
    (apart : ¬ EndsIn key sectionKey) (gaps : SectionGaps) (closing : UInt8) {opening : UInt8}
    (marks : opening ∈ [91, 123]) (parts : List Bytes) (rest : Bytes) :
    ∃ left, Broken key left ∧
      afterKey key since (around.text ++ (sectionText gaps sectionKey opening closing parts ++ rest)) =
        afterKey key left (separated 44 gaps.hollow.text parts ++ closing :: rest) := by
  have escaped : Escaped sectionKey := spells_escaped (spells_plain other.written)
  have colon := word.mark (by decide : (58 : UInt8) ∈ _)
  have bracket : opening ∉ key ∧ opening ≠ 34 := by
    simp only [List.mem_cons, List.not_mem_nil, or_false] at marks
    rcases marks with rfl | rfl <;> exact word.mark (by decide)
  have text : sectionText gaps sectionKey opening closing parts ++ rest = 34 :: (sectionKey ++ 34 ::
      ((gaps.afterKey.text ++ 58 :: gaps.afterColon.text) ++ opening ::
        (separated 44 gaps.hollow.text parts ++ closing :: rest))) := by
    simp [sectionText]
  have body := @afterKey_body key sectionKey word.plain word.slash escaped
    ((gaps.afterKey.text ++ 58 :: gaps.afterColon.text) ++ opening ::
        (separated 44 gaps.hollow.text parts ++ closing :: rest)) [] (by simp)
  rw [List.nil_append, if_neg apart] at body
  have unquoted : 34 ∉ (gaps.afterKey.text ++ 58 :: gaps.afterColon.text) ++ [opening] := by
    simp [gap_unquoted, Ne.symm bracket.2]
  have lead := @afterKey_plain key _ unquoted (some [])
    (separated 44 gaps.hollow.text parts ++ closing :: rest)
  refine ⟨(some []).map (· ++ ((gaps.afterKey.text ++ 58 :: gaps.afterColon.text) ++ [opening])),
    broken_mark bracket.1 _, ?_⟩
  rw [text, around_section listed around fresh, body, ← lead]
  simp

end SectionKey

theorem spells_noZero {raw content : Bytes} (spells : Spells raw content) : 0 ∉ raw := by
  have hex {c : UInt8} {value : Nat} (digit : hexValue c = some value) : (0 : UInt8) ≠ c := by
    rintro rfl
    revert digit
    simp [hexValue]
  induction spells with
  | nil => simp
  | @plain c _ _ printable _ _ _ ih =>
      have nonzero : (0 : UInt8) ≠ c := by
        rintro rfl
        exact absurd printable (by decide)
      simp [nonzero, ih]
  | @short e c _ _ known _ ih =>
      have all : ∀ escape ∈ shortEscapes, (0 : UInt8) ≠ escape.1 := by decide
      have nonzero := all _ known
      simp [ih, nonzero]
  | unicode digits _ _ ih =>
      obtain ⟨_, _, _, _, first, second, third, fourth, _⟩ := digits
      simp [ih, hex first, hex second, hex third, hex fourth]
  | pair digits digits' _ _ _ ih =>
      obtain ⟨_, _, _, _, first, second, third, fourth, _⟩ := digits
      obtain ⟨_, _, _, _, first', second', third', fourth', _⟩ := digits'
      simp [ih, hex first, hex second, hex third, hex fourth, hex first', hex second', hex third', hex fourth']

theorem gap_noZero (gap : Gap) : 0 ∉ gap.text := fun inside => by
  have blank := gap.blank 0 inside
  revert blank
  decide

theorem digits_noZero (number : Numeral) : 0 ∉ number.digits := fun inside => by
  have digit := number.decimal 0 inside
  revert digit
  decide

theorem separated_noZero {hollow : Bytes} (empty : 0 ∉ hollow) {parts : List Bytes}
    (each : ∀ part ∈ parts, 0 ∉ part) : 0 ∉ separated 44 hollow parts := by
  apply separated_rule (P := fun text => 0 ∉ text) empty _ each
  intro front back first later
  simpa [first] using later

theorem memberText_noZero (gaps : Spacing) {key value : Bytes} (front : 0 ∉ key) (back : 0 ∉ value) :
    0 ∉ memberText gaps key value := by
  simp [memberText, gap_noZero, front, back]

theorem token_noZero (token : AddedToken) : 0 ∉ token.text := by
  have members : 0 ∉ separated 44 [] (token.members.map token.memberText) := by
    refine separated_noZero (by simp) ?_
    intro part inside
    obtain ⟨⟨member, gaps⟩, held, rfl⟩ := List.mem_map.mp inside
    cases member with
    | id => exact memberText_noZero gaps (by decide) (digits_noZero token.id)
    | content =>
        exact memberText_noZero gaps (by decide) (by simp [spells_noZero token.content.spells])
    | flag name value =>
        obtain ⟨_, _, plain⟩ := flagNames_word (token.known name value (List.mem_map_of_mem held))
        refine memberText_noZero gaps (fun zero => absurd (plain 0 zero).1 (by decide)) ?_
        rcases value with _ | _ <;> decide
  simp [AddedToken.text, gap_noZero, members]

theorem sectionText_noZero (gaps : SectionGaps) {key : Bytes} {opening closing : UInt8}
    {parts : List Bytes} (named : 0 ∉ key) (brackets : 0 ≠ opening ∧ 0 ≠ closing)
    (each : ∀ part ∈ parts, 0 ∉ part) : 0 ∉ sectionText gaps key opening closing parts := by
  have inner := separated_noZero (gap_noZero gaps.hollow) each
  simp [sectionText, named, gap_noZero, brackets, inner]

theorem bytes_noZero (file : JsonFile) : 0 ∉ file.bytes := by
  have added : 0 ∉ file.addedText := by
    refine sectionText_noZero _ (by decide) (by decide) ?_
    intro part inside
    obtain ⟨token, _, rfl⟩ := List.mem_map.mp inside
    exact token_noZero token
  have vocab : 0 ∉ file.vocabText := by
    refine sectionText_noZero _ (by decide) (by decide) ?_
    intro part inside
    obtain ⟨entry, _, rfl⟩ := List.mem_map.mp inside
    exact memberText_noZero entry.gaps (spells_noZero entry.token.spells) (digits_noZero entry.id)
  have merges : 0 ∉ file.mergesText := by
    refine sectionText_noZero _ (by decide) (by decide) ?_
    intro part inside
    obtain ⟨merge, _, rfl⟩ := List.mem_map.mp inside
    simp [MergeRule.text, gap_noZero, spells_noZero merge.rule.spells]
  simp [JsonFile.bytes, JsonFile.afterAdded, JsonFile.afterVocab, file.head.noZero, file.middle.noZero,
    file.between.noZero, file.noZero, added, vocab, merges]

theorem sectionBody_search {key : Bytes} (plain : 34 ∉ key) (opening : UInt8) {buffer : Bytes}
    (noZero : 0 ∉ buffer) :
    sectionBody key opening buffer = (afterKey key none buffer).bind (opened opening) := by
  have whole : buffer.takeWhile (· ≠ 0) = buffer := by
    rw [List.takeWhile_eq_self_iff]
    intro c inside
    exact decide_eq_true fun zero => noZero (zero ▸ inside)
  rw [sectionBody, whole, afterKey_find plain buffer (SectionKey.fresh_start key buffer), Option.bind_map]
  rfl

section Listed
variable {α : Type} {key buffer : Bytes} {opening : UInt8} (loop : Nat → Bytes → List α)

/-- What the loop of a section makes of its text, when the search reaches it. -/
theorem listed_section (word : SectionKey key) (noZero : 0 ∉ buffer) (bracket : isBlank opening = false)
    {gaps : SectionGaps} {body : Bytes} (reached : afterKey key none buffer =
      some (gaps.afterKey.text ++ 58 :: (gaps.afterColon.text ++ opening :: body))) :
    listed key opening loop buffer = loop body.length body := by
  have inside : opened opening (gaps.afterKey.text ++ 58 :: (gaps.afterColon.text ++ opening :: body)) =
      some body := by
    rw [opened, skipWhitespace_gap, skipWhitespace_mark (by decide)]
    simp [skipWhitespace_gap, skipWhitespace_mark bracket]
  rw [listed, sectionBody_search word.plain opening noZero, reached, Option.bind_some, inside]

theorem listed_stuck (word : SectionKey key) (noZero : 0 ∉ buffer) {left : Bytes}
    (stuck : Stuck opening left) (reached : afterKey key none buffer = some left) :
    listed key opening loop buffer = [] := by
  rw [listed, sectionBody_search word.plain opening noZero, reached, Option.bind_some, stuck]

end Listed

/-- An added token is written with a quote and the key at the end. -/
def AddedSpells (file : JsonFile) (key : Bytes) : Prop :=
  ∃ token ∈ file.added, EndsIn key token.content.raw

instance (file : JsonFile) (key : Bytes) : Decidable (AddedSpells file key) :=
  inferInstanceAs (Decidable (∃ _ ∈ _, _))

def VocabSpells (file : JsonFile) (key : Bytes) : Prop :=
  ∃ entry ∈ file.vocab, EndsIn key entry.token.raw

instance (file : JsonFile) (key : Bytes) : Decidable (VocabSpells file key) :=
  inferInstanceAs (Decidable (∃ _ ∈ _, _))

theorem addedKey : SectionKey (ascii "added_tokens") := ⟨by decide⟩
theorem vocabKey : SectionKey (ascii "vocab") := ⟨by decide⟩
theorem mergesKey : SectionKey (ascii "merges") := ⟨by decide⟩

theorem addedTokens_bytes (file : JsonFile) (small : ∀ token ∈ file.added, token.id.value < 2 ^ 63) :
    addedTokens file.bytes = file.addedEntries := by
  have reached := addedKey.reach_section (by decide) file.head (SectionKey.fresh_start _) file.addedGaps 91 93
    (file.added.map (·.text)) file.afterAdded
  exact (listed_section addedLoop addedKey (bytes_noZero file) (by decide) reached).trans
    (addedLoop_tokens file.added small file.addedGaps.hollow _ (Nat.le_refl _))

/-- The words of an added token's object. -/
def WordsApart (key : Bytes) : Prop := ¬ EndsIn key (ascii "id") ∧ ¬ EndsIn key (ascii "content") ∧
  ∀ name ∈ flagNames, ¬ EndsIn key name

/-- A search for a later key passes over `added_tokens`, or ends in a token there. -/
theorem search_added {key : Bytes} (word : SectionKey key) (listed : key ∈ sectionKeys)
    (other : ¬ EndsIn key (ascii "added_tokens")) (apart : WordsApart key) (opening : UInt8)
    (file : JsonFile) :
    (¬ AddedSpells file key ∧ ∃ left, Broken key left ∧
        afterKey key none file.bytes = afterKey key left file.afterAdded) ∨
      (AddedSpells file key ∧ ∃ left, Stuck opening left ∧ afterKey key none file.bytes = some left) := by
  obtain ⟨state, broken, enter⟩ := word.enter_section listed file.head (SectionKey.fresh_start key) addedKey other
    file.addedGaps 93 (by decide : (91 : UInt8) ∈ _) (file.added.map (·.text)) file.afterAdded
  have comma := word.mark (by decide : (44 : UInt8) ∈ _)
  have bracket := word.mark (by decide : (93 : UInt8) ∈ _)
  by_cases spells : AddedSpells file key
  · right
    have caught : Caught key closers (Stuck opening)
        (separated 44 file.addedGaps.hollow.text (file.added.map (·.text))) := by
      refine Caught.separated comma.1 comma.2 (by decide) ?_ ?_
      · intro part inside
        obtain ⟨token, _, rfl⟩ := List.mem_map.mp inside
        by_cases ends : EndsIn key token.content.raw
        · exact Or.inr (word.token_caught opening apart token ends)
        · exact Or.inl (word.token_quiet apart token ends)
      · obtain ⟨token, held, ends⟩ := spells
        exact ⟨_, List.mem_map_of_mem held, word.token_caught opening apart token ends⟩
    obtain ⟨left, stuck, found⟩ := caught state broken 93 file.afterAdded (by decide)
    exact ⟨spells, left, stuck, enter.trans found⟩
  · left
    have quiet : Quiets key (separated 44 file.addedGaps.hollow.text (file.added.map (·.text))) := by
      refine Quiets.separated comma.1 comma.2 (gap_unquoted _) ?_
      intro part inside
      obtain ⟨token, held, rfl⟩ := List.mem_map.mp inside
      exact word.token_quiet apart token fun ends => spells ⟨token, held, ends⟩
    obtain ⟨left, kept, found⟩ := quiet state broken 93 file.afterAdded bracket.1 bracket.2
    exact ⟨spells, left, kept, enter.trans found⟩

theorem vocabulary_bytes (file : JsonFile) (small : ∀ entry ∈ file.vocab, entry.id.value < 2 ^ 63) :
    vocabulary file.bytes = if AddedSpells file (ascii "vocab") then [] else file.vocabEntries := by
  rcases search_added vocabKey (by decide) (by decide) ⟨by decide, by decide, by decide⟩ 123 file with
    ⟨silent, left, broken, search⟩ | ⟨spells, left, stuck, search⟩
  · rw [if_neg silent]
    have reached := vocabKey.reach_section (by decide) file.middle (fun _ => broken.fresh _) file.vocabGaps 123 125
      (file.vocab.map (·.text)) file.afterVocab
    exact (listed_section vocabLoop vocabKey (bytes_noZero file) (by decide) (search.trans reached)).trans
      (vocabLoop_entries file.vocab small file.vocabGaps.hollow _ (Nat.le_refl _))
  · rw [if_pos spells]
    exact listed_stuck vocabLoop vocabKey (bytes_noZero file) stuck search

theorem merges_bytes (file : JsonFile) :
    merges file.bytes =
      if AddedSpells file (ascii "merges") ∨ VocabSpells file (ascii "merges") then [] else file.mergeRules := by
  rcases search_added mergesKey (by decide) (by decide) ⟨by decide, by decide, by decide⟩ 91 file with
    ⟨silent, left, broken, search⟩ | ⟨spells, left, stuck, search⟩
  · obtain ⟨state, kept, enter⟩ := mergesKey.enter_section (by decide) file.middle (fun _ => broken.fresh _) vocabKey
      (by decide) file.vocabGaps 125 (by decide : (123 : UInt8) ∈ _) (file.vocab.map (·.text))
      file.afterVocab
    have comma := mergesKey.mark (by decide : (44 : UInt8) ∈ _)
    have brace := mergesKey.mark (by decide : (125 : UInt8) ∈ _)
    by_cases spells : VocabSpells file (ascii "merges")
    · rw [if_pos (Or.inr spells)]
      have caught : Caught (ascii "merges") closers (Stuck 91)
          (separated 44 file.vocabGaps.hollow.text (file.vocab.map (·.text))) := by
        refine Caught.separated comma.1 comma.2 (by decide) ?_ ?_
        · intro part inside
          obtain ⟨entry, _, rfl⟩ := List.mem_map.mp inside
          by_cases ends : EndsIn (ascii "merges") entry.token.raw
          · exact Or.inr (mergesKey.entry_caught entry ends)
          · exact Or.inl (mergesKey.entry_quiet entry ends)
        · obtain ⟨entry, held, ends⟩ := spells
          exact ⟨_, List.mem_map_of_mem held, mergesKey.entry_caught entry ends⟩
      obtain ⟨beyond, stuck, found⟩ := caught state kept 125 file.afterVocab (by decide)
      exact listed_stuck mergesLoop mergesKey (bytes_noZero file) stuck (search.trans (enter.trans found))
    · rw [if_neg (not_or.mpr ⟨silent, spells⟩)]
      have quiet : Quiets (ascii "merges") (separated 44 file.vocabGaps.hollow.text (file.vocab.map (·.text))) := by
        refine Quiets.separated comma.1 comma.2 (gap_unquoted _) ?_
        intro part inside
        obtain ⟨entry, held, rfl⟩ := List.mem_map.mp inside
        exact mergesKey.entry_quiet entry fun ends => spells ⟨entry, held, ends⟩
      obtain ⟨beyond, last, found⟩ := quiet state kept 125 file.afterVocab brace.1 brace.2
      have reached := mergesKey.reach_section (by decide) file.between (fun _ => last.fresh _) file.mergesGaps 91 93
        (file.merges.map (·.text)) file.tail
      exact (listed_section mergesLoop mergesKey (bytes_noZero file) (by decide)
        (search.trans (enter.trans (found.trans reached)))).trans
        (mergesLoop_rules file.merges file.mergesGaps.hollow _ (Nat.le_refl _))
  · rw [if_pos (Or.inl spells)]
    exact listed_stuck mergesLoop mergesKey (bytes_noZero file) stuck search

/-! The tables after a load, against the file. -/

/-- What the claim's serialisation promises of the ids and the merges. -/
structure Admissible (file : JsonFile) : Prop where
  addedSmall : ∀ token ∈ file.added, token.id.value < 2 ^ 63
  vocabSmall : ∀ entry ∈ file.vocab, entry.id.value < 2 ^ 63
  oneToOne : ∀ left ∈ file.addedEntries ++ file.vocabEntries, ∀ right ∈ file.addedEntries ++ file.vocabEntries,
    left.1 = right.1 ↔ left.2 = right.2
  required : ∀ name ∈ requiredTokens, ∃ id, (ascii name, id) ∈ file.addedEntries ++ file.vocabEntries
  merges : file.mergeRules ≠ []
  distinct : file.mergeRules.Nodup
  pairs : ∀ rule ∈ file.mergeRules, ∃ first second, 32 ∉ first ∧ 32 ∉ second ∧
    rule = first ++ ascii " " ++ second

/-- The load recovers the tables of the file. -/
structure Recovered (file : JsonFile) (tok : LoadedTokenizer) : Prop where
  loads : (loadFromJsonBuffer file.bytes tok).1 = .ok ()
  vocab : ∀ token id, (loadFromJsonBuffer file.bytes tok).2.vocab.lookup token = some id ↔
    (token, id) ∈ file.addedEntries ++ file.vocabEntries
  idToToken : ∀ token id, (loadFromJsonBuffer file.bytes tok).2.idToToken.lookup id = some token ↔
    (token, id) ∈ file.addedEntries ++ file.vocabEntries
  specialTokens : (loadFromJsonBuffer file.bytes tok).2.specialTokens.Perm file.addedEntries
  bpeRanks : ∀ rule rank, (loadFromJsonBuffer file.bytes tok).2.bpeRanks.lookup rule = some rank ↔
    ∃ index : Nat, file.mergeRules[index]? = some rule ∧ rank = index

theorem bytes_nonempty (file : JsonFile) : file.bytes ≠ [] := by
  simp [JsonFile.bytes, JsonFile.addedText, sectionText]

theorem lookup_ranked {rules : List Bytes} (distinct : rules.Nodup) (rule : Bytes) (rank : Int) :
    latest rule (ranked rules) = some rank ↔ ∃ index : Nat, rules[index]? = some rule ∧ rank = index := by
  have held (rule : Bytes) (rank : Int) :
      (rule, rank) ∈ ranked rules ↔ ∃ index : Nat, rules[index]? = some rule ∧ rank = index := by
    simp only [ranked, List.mem_map, List.mem_zipIdx_iff_getElem?, Prod.mk.injEq, Prod.exists]
    constructor
    · rintro ⟨other, index, here, rfl, rfl⟩
      exact ⟨index, here, rfl⟩
    · rintro ⟨index, here, rfl⟩
      exact ⟨rule, index, here, rfl, rfl⟩
  rw [latest_eq_some, held]
  rintro ⟨left, first⟩ inside ⟨right, second⟩ kept same
  obtain ⟨i, here, rfl⟩ := (held left first).mp inside
  obtain ⟨j, there, rfl⟩ := (held right second).mp kept
  have size := (List.getElem?_eq_some_iff.mp here).1
  cases same
  exact congrArg Nat.cast ((List.getElem?_inj size distinct).mp (here.trans there.symm))

/-- The loaded tables as the lists that the buffer's sections give. -/
theorem load_lookups (file : JsonFile) (tok : LoadedTokenizer) :
    let after := (loadFromJsonBuffer file.bytes tok).2
    let entries := addedTokens file.bytes ++ vocabulary file.bytes
    (∀ token, after.vocab.lookup token = latest token entries) ∧
      (∀ id, after.idToToken.lookup id = latest id (entries.map Prod.swap)) ∧
      after.specialTokens.Perm (addedTokens file.bytes) ∧
      ∀ rule, after.bpeRanks.lookup rule = latest rule (ranked (merges file.bytes)) := by
  obtain ⟨filled, _⟩ := load_filled (bytes_nonempty file) tok
  dsimp only
  rw [filled]
  refine ⟨fun token => ?_, fun id => ?_, ?_, fun rule => ?_⟩
  · have table := tables_vocab file.bytes tok
    simp [resolved, table, lookup_assignAll]
  · have table := tables_idToToken file.bytes tok
    simp only [resolved, table, lookup_assignAll]
    simp
  · have table := tables_specialTokens file.bytes tok
    simpa only [resolved, longestFirst, table] using List.mergeSort_perm _ _
  · have table := tables_bpeRanks file.bytes tok
    simp [resolved, table, lookup_assignAll]

/-- No string of the file takes the place of a section, unless the section is not needed. -/
def Unspoiled (file : JsonFile) : Prop :=
  (AddedSpells file (ascii "vocab") → ∀ entry ∈ file.vocabEntries, entry ∈ file.addedEntries) ∧
    ¬ AddedSpells file (ascii "merges") ∧ ¬ VocabSpells file (ascii "merges")

instance (file : JsonFile) : Decidable (Unspoiled file) := inferInstanceAs (Decidable (_ ∧ _))

section Recovery
variable {file : JsonFile} (admissible : Admissible file)
include admissible

theorem swapped_single {left right : Int × Bytes}
    (inside : left ∈ (file.addedEntries ++ file.vocabEntries).map Prod.swap)
    (kept : right ∈ (file.addedEntries ++ file.vocabEntries).map Prod.swap) (same : left.1 = right.1) :
    left.2 = right.2 := by
  obtain ⟨first, held, rfl⟩ := List.mem_map.mp inside
  obtain ⟨second, stays, rfl⟩ := List.mem_map.mp kept
  exact (admissible.oneToOne first held second stays).mpr same

/-- What the file gives is what the searched sections give, where these miss nothing. -/
theorem recovered_of_entries (tok : LoadedTokenizer)
    (same : ∀ entry, entry ∈ addedTokens file.bytes ++ vocabulary file.bytes ↔
      entry ∈ file.addedEntries ++ file.vocabEntries)
    (rules : merges file.bytes = file.mergeRules) : Recovered file tok := by
  have added := addedTokens_bytes file admissible.addedSmall
  obtain ⟨vocab, idToToken, specialTokens, bpeRanks⟩ := load_lookups file tok
  have single (token : Bytes) (id : Int) :
      latest token (addedTokens file.bytes ++ vocabulary file.bytes) = some id ↔
        (token, id) ∈ file.addedEntries ++ file.vocabEntries := by
    rw [latest_eq_some, same]
    intro left held right kept equal
    exact (admissible.oneToOne left ((same left).mp held) right ((same right).mp kept)).mp equal
  have nonneg : ∀ entry ∈ file.addedEntries ++ file.vocabEntries, 0 ≤ entry.2 := by
    intro entry inside
    simp only [JsonFile.addedEntries, JsonFile.vocabEntries, List.mem_append, List.mem_map] at inside
    rcases inside with ⟨token, _, rfl⟩ | ⟨listed, _, rfl⟩ <;> exact Int.natCast_nonneg _
  refine ⟨?_, fun token id => ?_, fun token id => ?_, ?_, fun rule rank => ?_⟩
  · obtain ⟨_, loads⟩ := load_filled (bytes_nonempty file) tok
    have given : ∀ name ∈ requiredTokens, Given file.bytes name := by
      intro name required
      obtain ⟨id, inside⟩ := admissible.required name required
      exact ⟨id, nonneg _ inside, Or.inr ((single (ascii name) id).mpr inside)⟩
    refine loads.mpr ⟨(isLoaded_filled file.bytes tok).mpr ⟨?_, rules ▸ admissible.merges⟩, given⟩
    intro none
    obtain ⟨id, inside⟩ := admissible.required "<|endoftext|>" (by decide)
    have listed := (same _).mpr inside
    rw [none] at listed
    cases listed
  · rw [vocab, single]
  · rw [idToToken, latest_eq_some]
    · constructor
      · intro inside
        obtain ⟨⟨token', id'⟩, held, swap⟩ := List.mem_map.mp inside
        cases swap
        exact (same _).mp held
      · intro inside
        exact List.mem_map.mpr ⟨(token, id), (same _).mpr inside, rfl⟩
    · intro left inside right kept equal
      refine swapped_single admissible ?_ ?_ equal
      · obtain ⟨entry, held, rfl⟩ := List.mem_map.mp inside
        exact List.mem_map_of_mem ((same entry).mp held)
      · obtain ⟨entry, held, rfl⟩ := List.mem_map.mp kept
        exact List.mem_map_of_mem ((same entry).mp held)
  · exact added ▸ specialTokens
  · rw [bpeRanks, rules]
    exact lookup_ranked admissible.distinct rule rank

/-- A well-formed file is recovered by its load exactly when no string that comes before
a section is written with a quote and the section's key at its end, a vocabulary that
the added tokens hold already set apart. -/
theorem recovered_iff (tok : LoadedTokenizer) : Recovered file tok ↔ Unspoiled file := by
  have added := addedTokens_bytes file admissible.addedSmall
  have entries := vocabulary_bytes file admissible.vocabSmall
  have rules := merges_bytes file
  constructor
  · intro recovered
    obtain ⟨vocab, _, _, _⟩ := load_lookups file tok
    refine ⟨fun spells entry inside => ?_, ?_⟩
    · have found := (recovered.vocab entry.1 entry.2).mpr (List.mem_append_right _ inside)
      rw [vocab, added, entries, if_pos spells, List.append_nil, latest_eq_some] at found
      · exact found
      · intro left held right kept same
        exact (admissible.oneToOne left (List.mem_append_left _ held) right
          (List.mem_append_left _ kept)).mp same
    · obtain ⟨_, loads⟩ := load_filled (bytes_nonempty file) tok
      have filled := (isLoaded_filled file.bytes tok).mp (loads.mp recovered.loads).1
      rw [← not_or]
      intro spells
      exact filled.2 (rules.trans (if_pos spells))
  · rintro ⟨covered, silent, quiet⟩
    refine recovered_of_entries admissible tok ?_ (rules.trans (if_neg (not_or.mpr ⟨silent, quiet⟩)))
    intro entry
    rw [added, entries]
    by_cases spells : AddedSpells file (ascii "vocab")
    · rw [if_pos spells, List.append_nil]
      exact ⟨List.mem_append_left _, fun inside => (List.mem_append.mp inside).elim id (covered spells entry)⟩
    · rw [if_neg spells]

end Recovery

def tight : Spacing := ⟨⟨[], by decide⟩, ⟨[], by decide⟩, ⟨[], by decide⟩, ⟨[], by decide⟩⟩
def tightSection : SectionGaps := ⟨⟨[], by decide⟩, ⟨[], by decide⟩, ⟨[], by decide⟩⟩

def sampleToken (content : Literal) (id : Numeral) : AddedToken where
  content := content
  id := id
  members := [(.id, tight), (.content, tight), (.flag (ascii "special") true, tight)]
  hasId := by simp
  hasContent := by simp
  known := by
    intro name value inside
    simp only [List.map_cons, List.map_nil, List.mem_cons, reduceCtorEq, false_or, Member.flag.injEq,
      List.not_mem_nil, or_false] at inside
    rw [inside.1]
    decide
  before := ⟨[], by decide⟩
  after := ⟨[], by decide⟩

/-- A file of the three required tokens, one vocabulary entry and one merge. -/
def sampleFile (entry : Literal) : JsonFile where
  head := ⟨ascii "\x7b", by decide, by decide⟩
  added := [sampleToken (plainLiteral (ascii "<|endoftext|>") (by decide)) ⟨ascii "1", by decide, by decide⟩,
    sampleToken (plainLiteral (ascii "<|im_start|>") (by decide)) ⟨ascii "2", by decide, by decide⟩,
    sampleToken (plainLiteral (ascii "<|im_end|>") (by decide)) ⟨ascii "3", by decide, by decide⟩]
  addedGaps := tightSection
  middle := ⟨ascii ",\"model\":\x7b", by decide, by decide⟩
  vocab := [⟨entry, ⟨ascii "0", by decide, by decide⟩, tight⟩]
  vocabGaps := tightSection
  between := ⟨ascii ",", by decide, by decide⟩
  merges := [⟨plainLiteral (ascii "a b") (by decide), ⟨[], by decide⟩, ⟨[], by decide⟩⟩]
  mergesGaps := tightSection
  tail := ascii "\x7d\x7d"
  noZero := by decide

def letterFile : JsonFile := sampleFile (plainLiteral (ascii "a") (by decide))
def mergesFile : JsonFile := sampleFile (plainLiteral (ascii "merges") (by decide))

theorem sampleFile_admissible {entry : Literal}
    (apart : ∀ left ∈ (sampleFile entry).addedEntries ++ (sampleFile entry).vocabEntries,
      ∀ right ∈ (sampleFile entry).addedEntries ++ (sampleFile entry).vocabEntries,
        left.1 = right.1 ↔ left.2 = right.2) : Admissible (sampleFile entry) where
  addedSmall := by
    intro token inside
    have value := List.mem_map_of_mem (f := fun token : AddedToken => token.id.value) inside
    have all : (sampleFile entry).added.map (fun token => token.id.value) = [1, 2, 3] := rfl
    rw [all] at value
    simp only [List.mem_cons, List.not_mem_nil, or_false] at value
    omega
  vocabSmall := by simp [sampleFile, Numeral.value, ascii, digitValue]
  oneToOne := apart
  required := by
    have added (token : Bytes × Int) (inside : token ∈ (sampleFile entry).addedEntries) :
        ∃ id, (token.1, id) ∈ (sampleFile entry).addedEntries ++ (sampleFile entry).vocabEntries :=
      ⟨token.2, List.mem_append_left _ inside⟩
    have all : (sampleFile entry).addedEntries =
        [(ascii "<|endoftext|>", 1), (ascii "<|im_start|>", 2), (ascii "<|im_end|>", 3)] := rfl
    intro name listed
    simp only [requiredTokens, List.mem_cons, List.not_mem_nil, or_false] at listed
    rcases listed with rfl | rfl | rfl
    · exact added (ascii "<|endoftext|>", 1) (by simp [all])
    · exact added (ascii "<|im_start|>", 2) (by simp [all])
    · exact added (ascii "<|im_end|>", 3) (by simp [all])
  merges := by simp [sampleFile, JsonFile.mergeRules]
  distinct := by simp [sampleFile, JsonFile.mergeRules]
  pairs := by
    intro rule inside
    simp only [sampleFile, JsonFile.mergeRules, List.map_cons, List.map_nil, List.mem_singleton] at inside
    exact ⟨ascii "a", ascii "b", by decide, by decide, inside⟩

/-- The load recovers a file that no string spoils. -/
theorem letterFile_recovered : Recovered letterFile (unloaded fun _ => []) :=
  (recovered_iff (sampleFile_admissible (by decide)) _).mpr (by decide)

/-- A vocabulary entry `merges` hides the section: the load fails. -/
theorem mergesFile_lost : Admissible mergesFile ∧
    (loadFromJsonBuffer mergesFile.bytes (unloaded fun _ => [])).1 = .error
      (ascii "Failed to parse BPE merge rules from tokenizer.json (merges table is empty)") ∧
    ¬ Recovered mergesFile (unloaded fun _ => []) := by
  have fails : (loadFromJsonBuffer mergesFile.bytes (unloaded fun _ => [])).1 = .error
      (ascii "Failed to parse BPE merge rules from tokenizer.json (merges table is empty)") := by
    decide +kernel
  refine ⟨sampleFile_admissible (by decide), fails, fun recovered => ?_⟩
  have loads := recovered.loads
  rw [fails] at loads
  cases loads

end XInfer.TokenizerRecovery
