import XInfer.KeySearch
import XInfer.TokenizerJson

/-!
Well-formed `tokenizer.json` files: `added_tokens`, then a model object with `vocab`
and `merges`. Blanks are free wherever the grammar allows them, a string may be
written in any way that JSON has, and what stands around the three sections is any
text that spells none of their keys.
-/

namespace XInfer.TokenizerFile

open Primitives ByteString KeySearch Tokenizer TokenizerJson

structure Gap where
  text : Bytes
  blank : ∀ c ∈ text, isBlank c = true

/-- The value of four hex digits. -/
def Hex4 (a b c d : UInt8) (cp : Nat) : Prop :=
  ∃ w x y z, hexValue a = some w ∧ hexValue b = some x ∧ hexValue c = some y ∧ hexValue d = some z ∧
    cp = ((w * 16 + x) * 16 + y) * 16 + z

def shortEscapes : List (UInt8 × UInt8) :=
  [(34, 34), (92, 92), (47, 47), (98, 8), (102, 12), (110, 10), (114, 13), (116, 9)]

/-- How JSON may write a string: the text between its quotes, and the string. -/
inductive Spells : Bytes → Bytes → Prop
  | nil : Spells [] []
  | plain {c : UInt8} {raw content : Bytes} (printable : 32 ≤ c) (quote : c ≠ 34) (backslash : c ≠ 92)
      (rest : Spells raw content) : Spells (c :: raw) (c :: content)
  | short {e c : UInt8} {raw content : Bytes} (known : (e, c) ∈ shortEscapes)
      (rest : Spells raw content) : Spells (92 :: e :: raw) (c :: content)
  | unicode {a b c d : UInt8} {cp : Nat} {raw content : Bytes} (hex : Hex4 a b c d cp)
      (scalar : cp < 0xD800 ∨ 0xDFFF < cp) (rest : Spells raw content) :
      Spells (92 :: 117 :: a :: b :: c :: d :: raw) (codepointToUtf8 cp ++ content)
  | pair {a b c d a' b' c' d' : UInt8} {high low : Nat} {raw content : Bytes}
      (hex : Hex4 a b c d (0xD800 + high)) (hex' : Hex4 a' b' c' d' (0xDC00 + low))
      (upper : high < 0x400) (lower : low < 0x400) (rest : Spells raw content) :
      Spells (92 :: 117 :: a :: b :: c :: d :: 92 :: 117 :: a' :: b' :: c' :: d' :: raw)
        (codepointToUtf8 (0x10000 + (high * 0x400 + low)) ++ content)

/-- A string as a file writes it. -/
structure Literal where
  raw : Bytes
  content : Bytes
  spells : Spells raw content

structure Numeral where
  digits : Bytes
  nonempty : digits ≠ []
  decimal : ∀ c ∈ digits, isDigit c = true

def Numeral.value (number : Numeral) : Nat := digitValue number.digits

/-- The blanks of an object member. -/
structure Spacing where
  before : Gap
  afterKey : Gap
  afterColon : Gap
  after : Gap

def memberText (gaps : Spacing) (key value : Bytes) : Bytes :=
  (gaps.before.text ++ 34 :: (key ++ 34 :: gaps.afterKey.text)) ++
    58 :: (gaps.afterColon.text ++ value ++ gaps.after.text)

def flagNames : List Bytes :=
  [ascii "single_word", ascii "lstrip", ascii "rstrip", ascii "normalized", ascii "special"]

inductive Member
  | id
  | content
  | flag (name : Bytes) (value : Bool)

structure AddedToken where
  content : Literal
  id : Numeral
  members : List (Member × Spacing)
  hasId : Member.id ∈ members.map Prod.fst
  hasContent : Member.content ∈ members.map Prod.fst
  known : ∀ name value, Member.flag name value ∈ members.map Prod.fst → name ∈ flagNames
  before : Gap
  after : Gap

def flagText (value : Bool) : Bytes := if value then ascii "true" else ascii "false"

def AddedToken.memberText (token : AddedToken) (member : Member × Spacing) : Bytes :=
  match member.1 with
  | .id => TokenizerFile.memberText member.2 (ascii "id") token.id.digits
  | .content => TokenizerFile.memberText member.2 (ascii "content") (34 :: (token.content.raw ++ [34]))
  | .flag name value => TokenizerFile.memberText member.2 name (flagText value)

def AddedToken.text (token : AddedToken) : Bytes :=
  token.before.text ++ 123 :: (separated 44 [] (token.members.map token.memberText) ++
    125 :: token.after.text)

structure VocabEntry where
  token : Literal
  id : Numeral
  gaps : Spacing

def VocabEntry.text (entry : VocabEntry) : Bytes := memberText entry.gaps entry.token.raw entry.id.digits

structure MergeRule where
  rule : Literal
  before : Gap
  after : Gap

def MergeRule.text (merge : MergeRule) : Bytes :=
  merge.before.text ++ 34 :: (merge.rule.raw ++ 34 :: merge.after.text)

/-- The blanks of a section: around its colon, and inside empty brackets. -/
structure SectionGaps where
  afterKey : Gap
  afterColon : Gap
  hollow : Gap

def sectionText (gaps : SectionGaps) (key : Bytes) (opening closing : UInt8) (parts : List Bytes) : Bytes :=
  34 :: (key ++ 34 :: (gaps.afterKey.text ++ 58 :: (gaps.afterColon.text ++
    opening :: (separated 44 gaps.hollow.text parts ++ [closing]))))

def sectionKeys : List Bytes := [ascii "added_tokens", ascii "vocab", ascii "merges"]

/-- A text around the sections, up to the next quote: it spells no section key. -/
structure Surround where
  text : Bytes
  noZero : 0 ∉ text
  silent : ∀ key ∈ sectionKeys, ¬ Contains (quoted key) (text ++ [34])

structure JsonFile where
  head : Surround
  added : List AddedToken
  addedGaps : SectionGaps
  middle : Surround
  vocab : List VocabEntry
  vocabGaps : SectionGaps
  between : Surround
  merges : List MergeRule
  mergesGaps : SectionGaps
  tail : Bytes
  noZero : 0 ∉ tail

def JsonFile.addedText (file : JsonFile) : Bytes :=
  sectionText file.addedGaps (ascii "added_tokens") 91 93 (file.added.map (·.text))

def JsonFile.vocabText (file : JsonFile) : Bytes :=
  sectionText file.vocabGaps (ascii "vocab") 123 125 (file.vocab.map (·.text))

def JsonFile.mergesText (file : JsonFile) : Bytes :=
  sectionText file.mergesGaps (ascii "merges") 91 93 (file.merges.map (·.text))

def JsonFile.afterVocab (file : JsonFile) : Bytes := file.between.text ++ (file.mergesText ++ file.tail)
def JsonFile.afterAdded (file : JsonFile) : Bytes := file.middle.text ++ (file.vocabText ++ file.afterVocab)
def JsonFile.bytes (file : JsonFile) : Bytes := file.head.text ++ (file.addedText ++ file.afterAdded)

def AddedToken.entry (token : AddedToken) : Bytes × Int := (token.content.content, (token.id.value : Int))
def VocabEntry.entry (entry : VocabEntry) : Bytes × Int := (entry.token.content, (entry.id.value : Int))

def JsonFile.addedEntries (file : JsonFile) : List (Bytes × Int) := file.added.map (·.entry)
def JsonFile.vocabEntries (file : JsonFile) : List (Bytes × Int) := file.vocab.map (·.entry)
def JsonFile.mergeRules (file : JsonFile) : List Bytes := file.merges.map (·.rule.content)

theorem skipWhitespace_gap (gap : Gap) (rest : Bytes) :
    skipWhitespace (gap.text ++ rest) = skipWhitespace rest :=
  List.dropWhile_append_of_pos gap.blank

theorem skipWhitespace_mark {c : UInt8} (mark : isBlank c = false) (rest : Bytes) :
    skipWhitespace (c :: rest) = c :: rest := by
  simp [skipWhitespace, mark]

theorem hexValue_plain {c : UInt8} {value : Nat} (hex : hexValue c = some value) :
    isSpace c = false ∧ c ≠ 43 ∧ c ≠ 45 ∧ c ≠ 88 ∧ c ≠ 120 ∧ c ≠ 34 ∧ c ≠ 92 := by
  have apart : ∀ d : UInt8, hexValue d ≠ none →
      isSpace d = false ∧ d ≠ 43 ∧ d ≠ 45 ∧ d ≠ 88 ∧ d ≠ 120 ∧ d ≠ 34 ∧ d ≠ 92 :=
    forall_byte (by decide +kernel)
  exact apart c (by simp [hex])

theorem strtoul16_hex4 {a b c d : UInt8} {cp : Nat} (hex : Hex4 a b c d cp) :
    strtoul16 [a, b, c, d] = cp := by
  obtain ⟨w, x, y, z, first, second, third, fourth, total⟩ := hex
  obtain ⟨space, plus, minus, _, _⟩ := hexValue_plain first
  obtain ⟨_, _, _, upperX, lowerX, _⟩ := hexValue_plain second
  have prefixed : ¬ (a = 48 ∧ (b = 120 ∨ b = 88)) := by
    rintro ⟨_, low | high⟩
    · exact lowerX low
    · exact upperX high
  simp [strtoul16, space, plus, minus, prefixed, hexDigits, first, second, third, fourth, total]

/-- One turn of the string loop for each written character. -/
theorem stringLoop_turn {fuel : Nat} {byte : UInt8} {rest out : Bytes} (quote : byte ≠ 34)
    (enough : 0 < fuel) : stringLoop fuel (byte :: rest) out =
      stringLoop (fuel - 1) (stringPiece byte rest).2 (out ++ (stringPiece byte rest).1) := by
  rcases fuel with _ | fuel
  · exact absurd enough (Nat.lt_irrefl 0)
  · simp [stringLoop, quote]

theorem stringPiece_short {e c : UInt8} (known : (e, c) ∈ shortEscapes) (rest : Bytes) :
    stringPiece 92 (e :: rest) = ([c], rest) := by
  simp only [shortEscapes, List.mem_cons, Prod.mk.injEq, List.not_mem_nil, or_false] at known
  rcases known with ⟨rfl, rfl⟩ | ⟨rfl, rfl⟩ | ⟨rfl, rfl⟩ | ⟨rfl, rfl⟩ | ⟨rfl, rfl⟩ | ⟨rfl, rfl⟩ |
    ⟨rfl, rfl⟩ | ⟨rfl, rfl⟩ <;> simp [stringPiece]

theorem stringPiece_unicode {a b c d : UInt8} (rest : Bytes) :
    stringPiece 92 (117 :: a :: b :: c :: d :: rest) = unicodeEscape [a, b, c, d] rest := by
  simp [stringPiece]

theorem unicodeEscape_scalar {a b c d : UInt8} {cp : Nat} (hex : Hex4 a b c d cp)
    (scalar : cp < 0xD800 ∨ 0xDFFF < cp) (rest : Bytes) :
    unicodeEscape [a, b, c, d] rest = (codepointToUtf8 cp, rest) := by
  have apart : ¬ (0xD800 ≤ cp ∧ cp ≤ 0xDBFF) := by omega
  rw [unicodeEscape, strtoul16_hex4 hex, if_neg apart]

theorem unicodeEscape_pair {a b c d a' b' c' d' : UInt8} {high low : Nat}
    (hex : Hex4 a b c d (0xD800 + high)) (hex' : Hex4 a' b' c' d' (0xDC00 + low))
    (upper : high < 0x400) (lower : low < 0x400) (rest : Bytes) :
    unicodeEscape [a, b, c, d] (92 :: 117 :: a' :: b' :: c' :: d' :: rest) =
      (codepointToUtf8 (0x10000 + (high * 0x400 + low)), rest) := by
  have inHigh : 0xD800 ≤ 0xD800 + high ∧ 0xD800 + high ≤ 0xDBFF := by omega
  have inLow : 0xDC00 ≤ 0xDC00 + low ∧ 0xDC00 + low ≤ 0xDFFF := by omega
  have joined : high <<< 10 ||| low = high * 0x400 + low := by
    rw [← Nat.shiftLeft_add_eq_or_of_lt (by omega : low < 2 ^ 10), Nat.shiftLeft_eq]
  have second : lowSurrogate (92 :: 117 :: a' :: b' :: c' :: d' :: rest) = some (0xDC00 + low, rest) := by
    simp [lowSurrogate, strtoul16_hex4 hex', inLow]
  rw [unicodeEscape, strtoul16_hex4 hex, if_pos inHigh, second]
  simp only [Nat.add_sub_cancel_left, joined]

theorem stringLoop_spells {raw content : Bytes} (spells : Spells raw content) (rest out : Bytes)
    {fuel : Nat} (enough : raw.length < fuel) :
    stringLoop fuel (raw ++ 34 :: rest) out = ⟨true, out ++ content, rest⟩ := by
  induction spells generalizing fuel out with
  | nil =>
      rcases fuel with _ | fuel
      · exact absurd enough (Nat.not_lt_zero _)
      · simp [stringLoop]
  | @plain c raw content printable quote backslash _ ih =>
      have piece : stringPiece c (raw ++ 34 :: rest) = ([c], raw ++ 34 :: rest) := by
        simp [stringPiece, backslash]
      simp only [List.length_cons] at enough
      rw [List.cons_append, stringLoop_turn quote (by omega), piece, ih (out ++ [c]) (by omega)]
      simp
  | @short e c raw content known _ ih =>
      simp only [List.length_cons] at enough
      rw [List.cons_append, List.cons_append, stringLoop_turn (by decide) (by omega),
        stringPiece_short known, ih (out ++ [c]) (by omega)]
      simp
  | @unicode a b c d cp raw content hex scalar _ ih =>
      simp only [List.length_cons] at enough
      simp only [List.cons_append]
      rw [stringLoop_turn (by decide) (by omega), stringPiece_unicode, unicodeEscape_scalar hex scalar,
        ih (out ++ codepointToUtf8 cp) (by omega), List.append_assoc]
  | @pair a b c d a' b' c' d' high low raw content hex hex' upper lower _ ih =>
      simp only [List.length_cons] at enough
      simp only [List.cons_append]
      rw [stringLoop_turn (by decide) (by omega), stringPiece_unicode,
        unicodeEscape_pair hex hex' upper lower, ih _ (by omega), List.append_assoc]

theorem parseJsonString_literal (literal : Literal) (rest out : Bytes) :
    parseJsonString (34 :: (literal.raw ++ 34 :: rest)) out = ⟨true, literal.content, rest⟩ := by
  have body := stringLoop_spells literal.spells rest []
    (by simp : literal.raw.length < (literal.raw ++ 34 :: rest).length)
  rw [parseJsonString, skipWhitespace_mark (by decide)]
  simpa using body

/-- The closers that may follow a value, its blanks passed over. -/
def closers : Bytes := [44, 93, 125]

theorem closer_plain {c : UInt8} (closer : c ∈ closers) :
    isBlank c = false ∧ isDigit c = false ∧ endsAtom c = true ∧ c ≠ 34 ∧ c ≠ 58 := by
  simp only [closers, List.mem_cons, List.not_mem_nil, or_false] at closer
  rcases closer with rfl | rfl | rfl <;> decide

/-- After a value comes a blank or a closer. -/
theorem follow_head (gap : Gap) {c : UInt8} (closer : c ∈ closers) (rest : Bytes) :
    ∃ first later, gap.text ++ c :: rest = first :: later ∧ endsAtom first = true ∧
      isDigit first = false := by
  rcases shape : gap.text with _ | ⟨first, later⟩
  · exact ⟨c, rest, rfl, (closer_plain closer).2.2.1, (closer_plain closer).2.1⟩
  · have blank := gap.blank first (by simp [shape])
    refine ⟨first, later ++ c :: rest, rfl, by simp [endsAtom, blank], ?_⟩
    simp only [isBlank, Bool.or_eq_true, beq_iff_eq] at blank
    rcases blank with ((rfl | rfl) | rfl) | rfl <;> decide

theorem isBlank_digit {c : UInt8} (digit : isDigit c = true) : isBlank c = false ∧ c ≠ 45 ∧ c ≠ 34 := by
  simp only [isDigit, Bool.and_eq_true, decide_eq_true_eq] at digit
  refine ⟨?_, ?_, ?_⟩
  · simp only [isBlank, Bool.or_eq_false_iff, beq_eq_false_iff_ne]
    grind
  · grind
  · grind

theorem int64_small {value : Int} (nonneg : 0 ≤ value) (small : value < 2 ^ 63) : int64 value = value := by
  unfold int64
  omega

theorem parseJsonInt64_numeral (number : Numeral) (small : number.value < 2 ^ 63) (gap : Gap)
    {first : UInt8} (stop : isDigit first = false) (later : Bytes) (out : Int) :
    parseJsonInt64 (gap.text ++ (number.digits ++ first :: later)) out =
      ⟨true, (number.value : Int), first :: later⟩ := by
  rcases shape : number.digits with _ | ⟨digit, digits⟩
  · exact absurd shape number.nonempty
  have decimal : ∀ c ∈ digit :: digits, isDigit c = true := shape ▸ number.decimal
  have lead := decimal digit (by simp)
  have start : skipWhitespace (gap.text ++ (digit :: digits ++ first :: later)) =
      digit :: digits ++ first :: later := by
    rw [skipWhitespace_gap]
    exact skipWhitespace_mark (isBlank_digit lead).1 _
  have taken : (digit :: digits ++ first :: later).takeWhile isDigit = digit :: digits := by
    rw [List.takeWhile_append_of_pos decimal]
    simp [stop]
  have left : (digit :: digits ++ first :: later).dropWhile isDigit = first :: later := by
    rw [List.dropWhile_append_of_pos decimal]
    simp [stop]
  have positive : ¬ (digit :: digits ++ first :: later).head? = some 45 := by
    simpa using (isBlank_digit lead).2.1
  have value : digitValue (digit :: digits) = number.value := by rw [Numeral.value, shape]
  have whole := int64_small (Int.natCast_nonneg number.value) (by exact_mod_cast small)
  simp only [parseJsonInt64, start, positive, taken, left, value, if_false, whole,
    reduceCtorEq]

theorem skipJsonValue_flag (value : Bool) {first : UInt8} (stop : endsAtom first = true) (later : Bytes) :
    (skipJsonValue (flagText value ++ first :: later)).rest = first :: later := by
  have atom : ∀ value, ∃ c body, flagText value = c :: body ∧ isBlank c = false ∧ c ≠ 34 ∧ c ≠ 123 ∧
      c ≠ 91 ∧ ∀ d ∈ c :: body, (!endsAtom d) = true := by
    rintro (_ | _)
    · exact ⟨_, _, rfl, by decide⟩
    · exact ⟨_, _, rfl, by decide⟩
  obtain ⟨c, body, shape, blank, quote, brace, bracket, letters⟩ := atom value
  rw [shape, List.cons_append, skipJsonValue, skipWhitespace_mark blank]
  simp only [quote, brace, bracket, if_false]
  rw [← List.cons_append, List.dropWhile_append_of_pos letters]
  simp [stop]

/-! What the loops make of the parts. -/

def Member.apply (token : AddedToken) (fields : AddedFields) : Member → AddedFields
  | .id => { fields with tokId := token.id.value, hasId := true }
  | .content => { fields with tokContent := token.content.content, hasContent := true }
  | .flag _ _ => fields

theorem addedObject_gap (fuel : Nat) (gap : Gap) (rest : Bytes) (fields : AddedFields) :
    addedObject (fuel + 1) (gap.text ++ rest) fields = addedObject (fuel + 1) rest fields := by
  rw [addedObject, addedObject, skipWhitespace_gap]

/-- A text that JSON may write as it stands. -/
def Plain (text : Bytes) : Prop := ∀ c ∈ text, 32 ≤ c ∧ c ≠ 34 ∧ c ≠ 92

instance (text : Bytes) : Decidable (Plain text) := inferInstanceAs (Decidable (∀ _ ∈ _, _))

theorem spells_plain {text : Bytes} (plain : Plain text) : Spells text text := by
  induction text with
  | nil => exact .nil
  | cons c rest ih =>
      obtain ⟨printable, quote, backslash⟩ := plain c (by simp)
      exact .plain printable quote backslash (ih fun c inside => plain c (List.mem_cons_of_mem _ inside))

def plainLiteral (text : Bytes) (plain : Plain text) : Literal := ⟨text, text, spells_plain plain⟩

theorem flagNames_word {name : Bytes} (known : name ∈ flagNames) :
    name ≠ ascii "id" ∧ name ≠ ascii "content" ∧ Plain name := by
  have all : ∀ name ∈ flagNames, name ≠ ascii "id" ∧ name ≠ ascii "content" ∧ Plain name := by decide
  exact all name known

theorem addedObject_member (key : Literal) (gaps : Spacing) (fuel : Nat) (value rest : Bytes)
    (fields : AddedFields) :
    addedObject (fuel + 1) (memberText gaps key.raw value ++ rest) fields =
      addedObject fuel
        (addedValue key.content (skipWhitespace (value ++ (gaps.after.text ++ rest))) fields).2
        (addedValue key.content (skipWhitespace (value ++ (gaps.after.text ++ rest))) fields).1 := by
  have text : memberText gaps key.raw value ++ rest = gaps.before.text ++ 34 :: (key.raw ++
      34 :: (gaps.afterKey.text ++ 58 :: (gaps.afterColon.text ++ (value ++ (gaps.after.text ++ rest))))) := by
    simp [memberText]
  rw [text, addedObject, skipWhitespace_gap, skipWhitespace_mark (by decide)]
  simp only [parseJsonString_literal, skipWhitespace_gap, if_true,
    skipWhitespace_mark (by decide : isBlank 58 = false)]
  rfl

/-- A member's value, read off the text after its colon. -/
theorem addedValue_member (token : AddedToken) (small : token.id.value < 2 ^ 63)
    (member : Member × Spacing) (inside : member.1 ∈ token.members.map Prod.fst) {c : UInt8}
    (closer : c ∈ closers) (fuel : Nat) (rest : Bytes) (fields : AddedFields) :
    addedObject (fuel + 1) (token.memberText member ++ c :: rest) fields =
      addedObject fuel (member.2.after.text ++ c :: rest) (member.1.apply token fields) := by
  obtain ⟨member, gaps⟩ := member
  obtain ⟨first, later, follow, ends, stop⟩ := follow_head gaps.after closer rest
  cases member with
  | id =>
      have digits : skipWhitespace (token.id.digits ++ first :: later) = token.id.digits ++ first :: later := by
        rcases shape : token.id.digits with _ | ⟨digit, digits⟩
        · exact absurd shape token.id.nonempty
        · have lead := token.id.decimal digit (by simp [shape])
          exact skipWhitespace_mark (isBlank_digit lead).1 _
      have number := parseJsonInt64_numeral token.id small ⟨[], by simp⟩ stop later fields.tokId
      have member := addedObject_member (plainLiteral (ascii "id") (by decide)) gaps fuel
        token.id.digits (c :: rest) fields
      rw [follow, digits] at member
      rw [follow]
      refine member.trans ?_
      simp only [List.nil_append] at number
      simp [plainLiteral, addedValue, number, Member.apply]
  | content =>
      have string := parseJsonString_literal token.content (gaps.after.text ++ c :: rest) fields.tokContent
      have member := addedObject_member (plainLiteral (ascii "content") (by decide)) gaps fuel
        (34 :: (token.content.raw ++ [34])) (c :: rest) fields
      refine member.trans ?_
      have text : 34 :: (token.content.raw ++ [34]) ++ (gaps.after.text ++ c :: rest) =
          34 :: (token.content.raw ++ 34 :: (gaps.after.text ++ c :: rest)) := by simp
      have other : ascii "content" ≠ ascii "id" := by decide
      rw [text, skipWhitespace_mark (by decide)]
      simp [plainLiteral, addedValue, string, Member.apply, other]
  | flag name value =>
      obtain ⟨notId, notContent, plain⟩ := flagNames_word (token.known name value inside)
      have lead : skipWhitespace (flagText value ++ first :: later) = flagText value ++ first :: later := by
        rcases value with _ | _ <;> rfl
      have member := addedObject_member (plainLiteral name plain) gaps fuel (flagText value) (c :: rest) fields
      rw [follow, lead] at member
      rw [follow]
      refine member.trans ?_
      simp [plainLiteral, addedValue, notId, notContent, skipJsonValue_flag value ends later, Member.apply]

theorem addedObject_close (fuel : Nat) (rest : Bytes) (fields : AddedFields) :
    addedObject (fuel + 1) (125 :: rest) fields = (fields, 125 :: rest) := by
  simp [addedObject, skipWhitespace_mark (by decide : isBlank 125 = false)]

theorem addedObject_comma (fuel : Nat) (rest : Bytes) (fields : AddedFields) :
    addedObject (fuel + 1) (44 :: rest) fields = addedObject fuel rest fields := by
  simp [addedObject, skipWhitespace_mark (by decide : isBlank 44 = false)]

theorem memberText_length (token : AddedToken) (member : Member × Spacing) :
    member.2.after.text.length + 3 ≤ (token.memberText member).length := by
  rcases member with ⟨_ | _ | ⟨name, value⟩, gaps⟩ <;>
    simp [AddedToken.memberText, memberText] <;> omega

theorem addedObject_members (token : AddedToken) (small : token.id.value < 2 ^ 63)
    {members : List (Member × Spacing)} (inside : ∀ member ∈ members, member ∈ token.members)
    (rest : Bytes) (fields : AddedFields) {fuel : Nat}
    (enough : (separated 44 [] (members.map token.memberText) ++ 125 :: rest).length ≤ fuel) :
    addedObject fuel (separated 44 [] (members.map token.memberText) ++ 125 :: rest) fields =
      ((members.map Prod.fst).foldl (fun fields member => member.apply token fields) fields, 125 :: rest) := by
  induction members generalizing fields fuel with
  | nil =>
      rcases fuel with _ | fuel
      · simp at enough
      · exact addedObject_close fuel rest fields
  | cons member members ih =>
      have known := List.mem_map_of_mem (f := Prod.fst) (inside member (by simp))
      have long := memberText_length token member
      rcases members with _ | ⟨next, members⟩
      · simp only [List.map_cons, List.map_nil, separated, List.length_append, List.length_cons] at enough ⊢
        obtain ⟨fuel, rfl⟩ : ∃ k, fuel = k + 2 := ⟨fuel - 2, by omega⟩
        rw [addedValue_member token small member known (by decide), addedObject_gap, addedObject_close]
        rfl
      · simp only [List.map_cons, separated, List.length_append, List.length_cons, List.append_assoc,
          List.cons_append] at enough ⊢
        obtain ⟨fuel, rfl⟩ : ∃ k, fuel = k + 2 := ⟨fuel - 2, by omega⟩
        rw [addedValue_member token small member known (by decide), addedObject_gap, addedObject_comma]
        exact ih (fun member held => inside member (List.mem_cons_of_mem _ held)) (member.1.apply token fields)
          (by simp only [List.map_cons, List.length_append, List.length_cons]; omega)

/-- The id and the content are taken wherever they stand in the object. -/
theorem members_fields (token : AddedToken) (members : List Member) (fields : AddedFields)
    (id : .id ∈ members ∨ fields.hasId = true ∧ fields.tokId = token.id.value)
    (content : .content ∈ members ∨ fields.hasContent = true ∧ fields.tokContent = token.content.content) :
    members.foldl (fun fields member => member.apply token fields) fields =
      ⟨token.id.value, token.content.content, true, true⟩ := by
  induction members generalizing fields with
  | nil =>
      obtain ⟨hasId, tokId⟩ := id.resolve_left (by simp)
      obtain ⟨hasContent, tokContent⟩ := content.resolve_left (by simp)
      obtain ⟨_, _, _, _⟩ := fields
      simp_all
  | cons member members ih =>
      rw [List.foldl_cons]
      cases member with
      | id =>
          refine ih _ (Or.inr ⟨rfl, rfl⟩) ?_
          simpa [Member.apply] using content
      | content =>
          refine ih _ ?_ (Or.inr ⟨rfl, rfl⟩)
          simpa [Member.apply] using id
      | flag name value =>
          refine ih _ ?_ ?_
          · simpa [Member.apply] using id
          · simpa [Member.apply] using content

/-- A loop that lists one value for each part lists those of a whole section. -/
theorem loop_separated {α β : Type} {loop : Nat → Bytes → List β} {text : α → Bytes} {value : α → β}
    {closing : UInt8} {hollow rest : Bytes} {parts : List α} {fuel : Nat}
    (close : ∀ fuel, loop fuel (closing :: rest) = [])
    (comma : ∀ fuel rest, loop (fuel + 1) (44 :: rest) = loop fuel rest) (closer : closing ∈ closers)
    (turn : ∀ part ∈ parts, ∀ c ∈ closers, ∀ fuel rest,
      loop (fuel + 1) (text part ++ c :: rest) = value part :: loop fuel (c :: rest))
    (long : ∀ part ∈ parts, 1 ≤ (text part).length)
    (empty : ∀ fuel, loop fuel (hollow ++ closing :: rest) = loop fuel (closing :: rest))
    (enough : (separated 44 hollow (parts.map text) ++ closing :: rest).length ≤ fuel) :
    loop fuel (separated 44 hollow (parts.map text) ++ closing :: rest) = parts.map value := by
  induction parts generalizing fuel with
  | nil => exact (empty fuel).trans (close fuel)
  | cons part parts ih =>
      have here := turn part (by simp)
      have size := long part (by simp)
      rcases parts with _ | ⟨next, parts⟩
      · simp only [List.map_cons, List.map_nil, separated, List.length_append, List.length_cons] at enough ⊢
        obtain ⟨fuel, rfl⟩ : ∃ k, fuel = k + 1 := ⟨fuel - 1, by omega⟩
        rw [here closing closer, close]
      · simp only [List.map_cons, separated, List.length_append, List.length_cons, List.append_assoc,
          List.cons_append] at enough ⊢
        obtain ⟨fuel, rfl⟩ : ∃ k, fuel = k + 2 := ⟨fuel - 2, by omega⟩
        rw [here 44 (by decide), comma]
        exact congrArg (value part :: ·)
          (ih (fun part held => turn part (List.mem_cons_of_mem _ held))
            (fun part held => long part (List.mem_cons_of_mem _ held))
            (by simp only [List.map_cons, List.length_append, List.length_cons]; omega))

theorem addedLoop_gap (fuel : Nat) (gap : Gap) (rest : Bytes) :
    addedLoop fuel (gap.text ++ rest) = addedLoop fuel rest := by
  rcases fuel with _ | fuel
  · rfl
  · rw [addedLoop, addedLoop, skipWhitespace_gap]

theorem addedLoop_token (token : AddedToken) (small : token.id.value < 2 ^ 63) (fuel : Nat) (rest : Bytes) :
    addedLoop (fuel + 1) (token.text ++ rest) = token.entry :: addedLoop fuel rest := by
  have text : token.text ++ rest = token.before.text ++ 123 ::
      (separated 44 [] (token.members.map token.memberText) ++ 125 :: (token.after.text ++ rest)) := by
    simp [AddedToken.text]
  have object := addedObject_members token small (fun _ held => held) (token.after.text ++ rest) .start (Nat.le_refl _)
  have fields := members_fields token (token.members.map Prod.fst) .start (Or.inl token.hasId)
    (Or.inl token.hasContent)
  rw [fields] at object
  rw [text, addedLoop, skipWhitespace_gap, skipWhitespace_mark (by decide)]
  simp only [object, List.head?_cons, List.drop_succ_cons, List.drop_zero, if_true, and_self, addedLoop_gap]
  rfl

/-- The loop over `added_tokens` lists the tokens of the file. -/
theorem addedLoop_tokens (tokens : List AddedToken) (small : ∀ token ∈ tokens, token.id.value < 2 ^ 63)
    (hollow : Gap) (rest : Bytes) {fuel : Nat}
    (enough : (separated 44 hollow.text (tokens.map (·.text)) ++ 93 :: rest).length ≤ fuel) :
    addedLoop fuel (separated 44 hollow.text (tokens.map (·.text)) ++ 93 :: rest) =
      tokens.map (·.entry) := by
  refine loop_separated ?_ ?_ (by decide) ?_ ?_ (fun fuel => addedLoop_gap fuel hollow _) enough
  · rintro (_ | fuel)
    · rfl
    · simp [addedLoop, skipWhitespace_mark (by decide : isBlank 93 = false)]
  · intro fuel rest
    simp [addedLoop, skipWhitespace_mark (by decide : isBlank 44 = false)]
  · intro token held c _ fuel rest
    exact addedLoop_token token (small token held) fuel (c :: rest)
  · intro token _
    simp only [AddedToken.text, List.length_append, List.length_cons]
    omega

theorem vocabLoop_gap (fuel : Nat) (gap : Gap) (rest : Bytes) :
    vocabLoop fuel (gap.text ++ rest) = vocabLoop fuel rest := by
  rcases fuel with _ | fuel
  · rfl
  · rw [vocabLoop, vocabLoop, skipWhitespace_gap]

theorem vocabLoop_entry (entry : VocabEntry) (small : entry.id.value < 2 ^ 63) {c : UInt8}
    (closer : c ∈ closers) (fuel : Nat) (rest : Bytes) :
    vocabLoop (fuel + 1) (entry.text ++ c :: rest) = entry.entry :: vocabLoop fuel (c :: rest) := by
  obtain ⟨first, later, follow, _, stop⟩ := follow_head entry.gaps.after closer rest
  have text : entry.text ++ c :: rest = entry.gaps.before.text ++ 34 :: (entry.token.raw ++
      34 :: (entry.gaps.afterKey.text ++ 58 :: (entry.gaps.afterColon.text ++
        (entry.id.digits ++ first :: later)))) := by
    rw [← follow]
    simp [VocabEntry.text, memberText]
  have number := parseJsonInt64_numeral entry.id small entry.gaps.afterColon stop later 0
  have skipped := vocabLoop_gap fuel entry.gaps.after (c :: rest)
  rw [follow] at skipped
  rw [text, vocabLoop, skipWhitespace_gap, skipWhitespace_mark (by decide)]
  simp [parseJsonString_literal, skipWhitespace_gap, skipWhitespace_mark (by decide : isBlank 58 = false),
    number, skipped, VocabEntry.entry]

/-- The loop over `vocab` lists the entries of the file. -/
theorem vocabLoop_entries (entries : List VocabEntry) (small : ∀ entry ∈ entries, entry.id.value < 2 ^ 63)
    (hollow : Gap) (rest : Bytes) {fuel : Nat}
    (enough : (separated 44 hollow.text (entries.map (·.text)) ++ 125 :: rest).length ≤ fuel) :
    vocabLoop fuel (separated 44 hollow.text (entries.map (·.text)) ++ 125 :: rest) =
      entries.map (·.entry) := by
  refine loop_separated ?_ ?_ (by decide) ?_ ?_ (fun fuel => vocabLoop_gap fuel hollow _) enough
  · rintro (_ | fuel)
    · rfl
    · simp [vocabLoop, skipWhitespace_mark (by decide : isBlank 125 = false)]
  · intro fuel rest
    simp [vocabLoop, skipWhitespace_mark (by decide : isBlank 44 = false)]
  · intro entry held c closer fuel rest
    exact vocabLoop_entry entry (small entry held) closer fuel rest
  · intro entry _
    simp only [VocabEntry.text, memberText, List.length_append, List.length_cons]
    omega

theorem mergesLoop_gap (fuel : Nat) (gap : Gap) (rest : Bytes) :
    mergesLoop fuel (gap.text ++ rest) = mergesLoop fuel rest := by
  rcases fuel with _ | fuel
  · rfl
  · rw [mergesLoop, mergesLoop, skipWhitespace_gap]

theorem mergesLoop_rule (merge : MergeRule) (fuel : Nat) (rest : Bytes) :
    mergesLoop (fuel + 1) (merge.text ++ rest) = merge.rule.content :: mergesLoop fuel rest := by
  have text : merge.text ++ rest = merge.before.text ++ 34 :: (merge.rule.raw ++
      34 :: (merge.after.text ++ rest)) := by
    simp [MergeRule.text]
  rw [text, mergesLoop, skipWhitespace_gap, skipWhitespace_mark (by decide)]
  simp [parseJsonString_literal, mergesLoop_gap]

/-- The loop over `merges` lists the rules of the file. -/
theorem mergesLoop_rules (merges : List MergeRule) (hollow : Gap) (rest : Bytes) {fuel : Nat}
    (enough : (separated 44 hollow.text (merges.map (·.text)) ++ 93 :: rest).length ≤ fuel) :
    mergesLoop fuel (separated 44 hollow.text (merges.map (·.text)) ++ 93 :: rest) =
      merges.map (·.rule.content) := by
  refine loop_separated ?_ ?_ (by decide) ?_ ?_ (fun fuel => mergesLoop_gap fuel hollow _) enough
  · rintro (_ | fuel)
    · rfl
    · simp [mergesLoop, skipWhitespace_mark (by decide : isBlank 93 = false)]
  · intro fuel rest
    simp [mergesLoop, skipWhitespace_mark (by decide : isBlank 44 = false)]
  · intro merge _ c _ fuel rest
    exact mergesLoop_rule merge fuel (c :: rest)
  · intro merge _
    simp only [MergeRule.text, List.length_append, List.length_cons]
    omega

end XInfer.TokenizerFile
