import XInfer.JsonGrammar
import XInfer.MetadataJson
import XInfer.TokenizerFile

/-!
`skip_value` of `artifact/metadata.cpp` on well-formed JSON: it counts one kind of bracket and reads strings,
and does nothing else, yet it stops behind exactly one value.
-/

namespace XInfer.SkippedValues

open Primitives SortedMap JsonGrammar MetadataJson
open TokenizerFile (Spells Hex4 shortEscapes)

/-- RFC 8259, where a string stands for its bytes: every surrogate is half of a pair. -/
def json : Lexis Unit where
  number := fun text _ => RfcNumber text
  string := Spells

section Strings

theorem hexValue_eq : ∀ c : UInt8, MetadataJson.hexValue c = TokenizerJson.hexValue c :=
  forall_byte (by decide +kernel)

theorem hex4_of {a b c d : UInt8} {cp : Nat} (digits : Hex4 a b c d cp) (rest : Bytes) :
    hex4 (a :: b :: c :: d :: rest) = some (cp, rest) := by
  obtain ⟨w, x, y, z, first, second, third, fourth, rfl⟩ := digits
  simp [hex4, hexValue_eq, first, second, third, fourth]

theorem encodeCodepoint_eq {cp : Nat} (small : cp ≤ 0x10FFFF) :
    encodeCodepoint cp = some (Tokenizer.codepointToUtf8 cp) := by
  unfold encodeCodepoint Tokenizer.codepointToUtf8
  dsimp only
  split
  · rfl
  split
  · rfl
  split
  · rfl
  · rfl

theorem escapeSequence_short {e c : UInt8} (known : (e, c) ∈ shortEscapes) (rest : Bytes) :
    escapeSequence (e :: rest) = some ([c], rest) := by
  simp only [shortEscapes, List.mem_cons, Prod.mk.injEq, List.not_mem_nil, or_false] at known
  rcases known with ⟨rfl, rfl⟩ | ⟨rfl, rfl⟩ | ⟨rfl, rfl⟩ | ⟨rfl, rfl⟩ | ⟨rfl, rfl⟩ | ⟨rfl, rfl⟩ | ⟨rfl, rfl⟩ |
    ⟨rfl, rfl⟩ <;> rfl

theorem hex4_lt {a b c d : UInt8} {cp : Nat} (digits : Hex4 a b c d cp) : cp < 0x10000 := by
  have below : ∀ (e : UInt8) {value : Nat}, TokenizerJson.hexValue e = some value → value < 16 :=
    forall_byte (by decide +kernel)
  obtain ⟨w, x, y, z, first, second, third, fourth, rfl⟩ := digits
  have := below a first
  have := below b second
  have := below c third
  have := below d fourth
  omega

theorem unicodeEscape_scalar {a b c d : UInt8} {cp : Nat} (digits : Hex4 a b c d cp)
    (scalar : cp < 0xD800 ∨ 0xDFFF < cp) (rest : Bytes) :
    unicodeEscape (a :: b :: c :: d :: rest) = some (Tokenizer.codepointToUtf8 cp, rest) := by
  have notHigh : ¬ (0xD800 ≤ cp ∧ cp ≤ 0xDBFF) := by omega
  have notLow : ¬ (0xDC00 ≤ cp ∧ cp ≤ 0xDFFF) := by omega
  have small := hex4_lt digits
  simp [unicodeEscape, hex4_of digits, notHigh, notLow, encodeCodepoint_eq (by omega : cp ≤ 0x10FFFF)]

theorem unicodeEscape_pair {a b c d a' b' c' d' : UInt8} {high low : Nat}
    (digits : Hex4 a b c d (0xD800 + high)) (digits' : Hex4 a' b' c' d' (0xDC00 + low))
    (upper : high < 0x400) (lower : low < 0x400) (rest : Bytes) :
    unicodeEscape (a :: b :: c :: d :: 92 :: 117 :: a' :: b' :: c' :: d' :: rest) =
      some (Tokenizer.codepointToUtf8 (0x10000 + (high * 0x400 + low)), rest) := by
  have inHigh : 0xD800 ≤ 0xD800 + high ∧ 0xD800 + high ≤ 0xDBFF := by omega
  have inLow : 0xDC00 ≤ 0xDC00 + low ∧ 0xDC00 + low ≤ 0xDFFF := by omega
  have value : 0x10000 + (0xD800 + high - 0xD800) * 2 ^ 10 + (0xDC00 + low - 0xDC00) =
      0x10000 + (high * 0x400 + low) := by omega
  unfold unicodeEscape
  rw [hex4_of digits]
  dsimp only [Option.bind_eq_bind, Option.bind_some]
  rw [if_pos inHigh]
  simp only [hex4_of digits']
  dsimp only [Option.bind_some]
  rw [if_pos inLow, value, encodeCodepoint_eq (by omega)]
  rfl

theorem stringLoop_spells {raw content : Bytes} (spells : Spells raw content) (rest : Bytes) {fuel : Nat}
    (enough : raw.length < fuel) : stringLoop fuel (raw ++ 34 :: rest) = some (content, rest) := by
  induction spells generalizing fuel with
  | nil =>
      obtain ⟨fuel, rfl⟩ := Nat.exists_eq_add_of_lt enough
      rfl
  | plain _ quote backslash _ ih =>
      rcases fuel with _ | fuel
      · exact absurd enough (Nat.not_lt_zero _)
      · rw [List.cons_append, stringLoop, if_neg quote, if_neg backslash, ih (Nat.lt_of_succ_lt_succ enough)]
        rfl
  | short known _ ih =>
      rcases fuel with _ | fuel
      · exact absurd enough (Nat.not_lt_zero _)
      · rw [List.cons_append, stringLoop, if_neg (by decide), if_pos rfl, List.cons_append,
          escapeSequence_short known]
        simp [ih (Nat.lt_of_succ_lt (by simpa using enough))]
  | unicode digits scalar _ ih =>
      rcases fuel with _ | fuel
      · exact absurd enough (Nat.not_lt_zero _)
      · simp only [List.length_cons] at enough
        have read := fun rest => unicodeEscape_scalar digits scalar rest
        simp only [List.cons_append]
        rw [stringLoop, if_neg (by decide), if_pos rfl]
        simp [escapeSequence, read, ih (by omega : _ < fuel)]
  | pair digits digits' upper lower _ ih =>
      rcases fuel with _ | fuel
      · exact absurd enough (Nat.not_lt_zero _)
      · simp only [List.length_cons] at enough
        have read := fun rest => unicodeEscape_pair digits digits' upper lower rest
        simp only [List.cons_append]
        rw [stringLoop, if_neg (by decide), if_pos rfl]
        simp [escapeSequence, read, ih (by omega : _ < fuel)]

theorem parseString_spells {raw content : Bytes} (spells : Spells raw content) (rest : Bytes) :
    parseString (34 :: (raw ++ 34 :: rest)) = some (content, rest) := by
  apply stringLoop_spells spells
  simp

end Strings

section Brackets

/-- The brackets of an object and of an array. -/
inductive Pair : UInt8 → UInt8 → Prop where
  | object : Pair 123 125
  | array : Pair 91 93

/-- A text that leaves the count of open brackets as it was. -/
def Passes (opening closing : UInt8) (text : Bytes) : Prop :=
  ∀ depth rest fuel, (text ++ rest).length ≤ fuel → ∃ left, rest.length ≤ left ∧
    skipNested opening closing fuel (depth + 1) (text ++ rest) = skipNested opening closing left (depth + 1) rest

variable {opening closing : UInt8}

theorem Passes.nil : Passes opening closing [] := fun _ _ fuel enough => ⟨fuel, enough, rfl⟩

theorem Passes.append {left right : Bytes} (first : Passes opening closing left) (second : Passes opening closing right) :
    Passes opening closing (left ++ right) := by
  intro depth rest fuel enough
  rw [List.append_assoc] at enough ⊢
  obtain ⟨middle, enough, passed⟩ := first depth (right ++ rest) fuel enough
  obtain ⟨last, enough, passedToo⟩ := second depth rest middle enough
  exact ⟨last, enough, passed.trans passedToo⟩

/-- What is no bracket of the kind that is counted, and no quote. -/
theorem Passes.byte {c : UInt8} (notOpening : c ≠ opening) (notClosing : c ≠ closing) (notQuote : c ≠ 34) :
    Passes opening closing [c] := by
  intro depth rest fuel enough
  rcases fuel with _ | fuel
  · cases enough
  · refine ⟨fuel, Nat.le_of_succ_le_succ enough, ?_⟩
    rw [List.singleton_append, skipNested, if_neg notOpening, if_neg notClosing, if_neg notQuote]

theorem Passes.bytes {text : Bytes} (plain : ∀ c ∈ text, c ≠ opening ∧ c ≠ closing ∧ c ≠ 34) :
    Passes opening closing text := by
  induction text with
  | nil => exact .nil
  | cons c rest ih =>
      obtain ⟨notOpening, notClosing, notQuote⟩ := plain c List.mem_cons_self
      have later := ih fun d member => plain d (List.mem_cons_of_mem _ member)
      exact (Passes.byte notOpening notClosing notQuote).append later

theorem Passes.string (pair : Pair opening closing) {raw content : Bytes} (spells : Spells raw content) :
    Passes opening closing (34 :: (raw ++ [34])) := by
  intro depth rest fuel enough
  have shape : 34 :: (raw ++ [34]) ++ rest = 34 :: (raw ++ 34 :: rest) := by simp
  rw [shape] at enough ⊢
  rcases fuel with _ | fuel
  · cases enough
  · refine ⟨fuel, ?_, ?_⟩
    · simp only [List.length_cons, List.length_append] at enough
      omega
    · have notBracket : (34 : UInt8) ≠ opening ∧ (34 : UInt8) ≠ closing := by cases pair <;> decide
      rw [skipNested, if_neg notBracket.1, if_neg notBracket.2, if_pos rfl, parseString_spells spells]
      rfl

/-- One more bracket is open while the inside of a pair is passed. -/
theorem Passes.nested (apart : closing ≠ opening) {text : Bytes} (inside : Passes opening closing text) :
    Passes opening closing (opening :: (text ++ [closing])) := by
  intro depth rest fuel enough
  have shape : opening :: (text ++ [closing]) ++ rest = opening :: (text ++ closing :: rest) := by simp
  rw [shape] at enough ⊢
  rcases fuel with _ | fuel
  · cases enough
  obtain ⟨middle, enough, passed⟩ := inside (depth + 1) (closing :: rest) fuel (Nat.le_of_succ_le_succ enough)
  rcases middle with _ | middle
  · cases enough
  refine ⟨middle, Nat.le_of_succ_le_succ enough, ?_⟩
  rw [skipNested, if_pos rfl, passed, skipNested, if_neg apart, if_pos rfl]

/-- A pair of brackets is passed, whichever kind is counted. -/
theorem Passes.brackets (pair : Pair opening closing) {before after : UInt8} (other : Pair before after) {text : Bytes}
    (inside : Passes opening closing text) : Passes opening closing (before :: (text ++ [after])) := by
  have around (apart : before ≠ opening ∧ before ≠ closing ∧ after ≠ opening ∧ after ≠ closing)
      (unquoted : before ≠ 34 ∧ after ≠ 34) : Passes opening closing (before :: (text ++ [after])) :=
    (Passes.byte apart.1 apart.2.1 unquoted.1).append
      (inside.append (Passes.byte apart.2.2.1 apart.2.2.2 unquoted.2))
  cases pair with
  | object =>
      cases other with
      | object => exact inside.nested (by decide)
      | array => exact around (by decide) (by decide)
  | array =>
      cases other with
      | object => exact around (by decide) (by decide)
      | array => exact inside.nested (by decide)

/-- Behind the last bracket nothing is read. -/
theorem skipNested_passes (apart : closing ≠ opening) {text : Bytes} (inside : Passes opening closing text)
    (rest : Bytes) {fuel : Nat} (enough : (text ++ closing :: rest).length ≤ fuel) :
    skipNested opening closing fuel 1 (text ++ closing :: rest) = some rest := by
  obtain ⟨left, enough, passed⟩ := inside 0 (closing :: rest) fuel enough
  rcases left with _ | left
  · cases enough
  · rw [passed, skipNested, if_neg apart, if_pos rfl, skipNested]

end Brackets

section Values

/-- A byte of a number or of a literal. -/
def isWordByte (c : UInt8) : Bool :=
  isDigit c || c == 45 || c == 43 || c == 46 || (decide (97 ≤ c) && decide (c ≤ 122)) || c == 69

theorem wordByte_plain {c : UInt8} (word : isWordByte c = true) :
    c ∉ [34, 123, 125, 91, 93, 44] ∧ MetadataJson.isSpace c = false := by
  have all : ∀ d : UInt8, isWordByte d = true → d ∉ [34, 123, 125, 91, 93, 44] ∧ MetadataJson.isSpace d = false :=
    forall_byte (by decide +kernel)
  exact all c word

theorem digit_word {c : UInt8} (digit : isDigit c = true) : isWordByte c = true := by simp [isWordByte, digit]

theorem number_words {text : Bytes} (number : RfcNumber text) : text ≠ [] ∧ ∀ c ∈ text, isWordByte c = true := by
  obtain ⟨sign, whole, fraction, exponent, rfl, signs, ⟨nonempty, whole'⟩, -, fractions, exponents⟩ := number
  refine ⟨by simp [nonempty], ?_⟩
  intro c member
  simp only [List.mem_append] at member
  rcases member with ((inSign | inWhole) | inFraction) | inExponent
  · rcases signs with rfl | rfl
    · cases inSign
    · rw [List.mem_singleton.mp inSign]
      decide
  · exact digit_word (whole' c inWhole)
  · rcases fractions with rfl | ⟨digits, rfl, all⟩
    · cases inFraction
    · rcases List.mem_cons.mp inFraction with rfl | later
      · decide
      · exact digit_word (all.2 c later)
  · rcases exponents with rfl | ⟨e, sign, digits, rfl, letter, signs, all⟩
    · cases inExponent
    · rcases List.mem_cons.mp inExponent with rfl | later
      · rcases letter with rfl | rfl <;> decide
      · rcases List.mem_append.mp later with inSign | inDigits
        · rcases signs with rfl | rfl | rfl
          · cases inSign
          · rw [List.mem_singleton.mp inSign]
            decide
          · rw [List.mem_singleton.mp inSign]
            decide
        · exact digit_word (all.2 c inDigits)

theorem blank_space {c : UInt8} (blank : isBlank c = true) : MetadataJson.isSpace c = true := by
  simp only [isBlank, Bool.or_eq_true, beq_iff_eq] at blank
  rcases blank with ((rfl | rfl) | rfl) | rfl <;> decide

variable {opening closing : UInt8}

theorem Passes.words (pair : Pair opening closing) {text : Bytes} (words : ∀ c ∈ text, isWordByte c = true) :
    Passes opening closing text := by
  apply Passes.bytes
  intro c member
  have plain := (wordByte_plain (words c member)).1
  cases pair <;> simp_all

theorem Passes.blank (pair : Pair opening closing) {text : Bytes} (blank : Blank text) :
    Passes opening closing text := by
  apply Passes.bytes
  intro c member
  have space := blank c member
  simp only [isBlank, Bool.or_eq_true, beq_iff_eq] at space
  rcases space with ((rfl | rfl) | rfl) | rfl <;> cases pair <;> decide

theorem Passes.comma (pair : Pair opening closing) : Passes opening closing [44] := by
  cases pair <;> exact Passes.byte (by decide) (by decide) (by decide)

theorem Passes.colon (pair : Pair opening closing) : Passes opening closing [58] := by
  cases pair <;> exact Passes.byte (by decide) (by decide) (by decide)

theorem Passes.separated {α : Type} (pair : Pair opening closing) {item : Bytes → α → Prop} {text : Bytes} {xs : List α}
    (items : Separated item text xs) (each : ∀ part x, item part x → Passes opening closing part) :
    Passes opening closing text := by
  induction items with
  | one read => exact each _ _ read
  | more read _ ih => exact (each _ _ read).append ((Passes.comma pair).append ih)

theorem Passes.padded {α : Type} (pair : Pair opening closing) {value : Bytes → α → Prop} {text : Bytes} {x : α}
    (padded : Padded value text x)
    (each : ∀ part x, part.length ≤ text.length → value part x → Passes opening closing part) :
    Passes opening closing text := by
  cases padded with
  | @mk before part after _ blank read ends =>
      have inner := each part x (by simp only [List.length_append]; omega) read
      exact ((Passes.blank pair blank).append inner).append (Passes.blank pair ends)

theorem Passes.elements (pair : Pair opening closing) {text : Bytes} {xs : List (JsonGrammar.Tree Unit)}
    (items : Separated (Padded (Value json)) text xs)
    (each : ∀ part x, part.length ≤ text.length → Value json part x → Passes opening closing part) :
    Passes opening closing text := by
  have bounded := items.imp_within fun part x fits good =>
    (⟨fits, good⟩ : part.length ≤ text.length ∧ Padded (Value json) part x)
  refine .separated pair bounded fun part x good => .padded pair good.2 fun inner y short value => ?_
  exact each inner y (Nat.le_trans short good.1) value

theorem Passes.members (pair : Pair opening closing) {text : Bytes} {members : List (Bytes × JsonGrammar.Tree Unit)}
    (items : Separated (Member json.string (Value json)) text members)
    (each : ∀ part x, part.length ≤ text.length → Value json part x → Passes opening closing part) :
    Passes opening closing text := by
  have bounded := items.imp_within fun part x fits good =>
    (⟨fits, good⟩ : part.length ≤ text.length ∧ Member json.string (Value json) part x)
  refine .separated pair bounded fun part x good => ?_
  obtain ⟨short, member⟩ := good
  cases member with
  | @mk before key gap inner name x blank spelled gapBlank padded =>
      have value := Passes.padded pair padded fun most y below value =>
        each most y (by simp only [List.length_append, List.length_cons] at short; omega) value
      have shape : before ++ 34 :: (key ++ 34 :: (gap ++ 58 :: inner)) =
          before ++ (34 :: (key ++ [34]) ++ (gap ++ ([58] ++ inner))) := by simp
      rw [shape]
      exact (Passes.blank pair blank).append ((Passes.string pair spelled).append
        ((Passes.blank pair gapBlank).append ((Passes.colon pair).append value)))

theorem value_passes_within (pair : Pair opening closing) (bound : Nat) : ∀ text tree, Value json text tree →
    text.length ≤ bound → Passes opening closing text := by
  induction bound with
  | zero =>
      intro text tree value within
      rw [List.length_eq_zero_iff.mp (Nat.le_zero.mp within)]
      exact .nil
  | succ bound ih =>
      intro text tree value within
      have shorter : ∀ {before after : UInt8} {inner : Bytes}, (before :: (inner ++ [after])).length ≤ bound + 1 →
          ∀ part x, part.length ≤ inner.length → Value json part x → Passes opening closing part := by
        intro before after inner within part x short value
        refine ih part x value ?_
        simp only [List.length_cons, List.length_append, List.length_nil] at within
        omega
      cases value with
      | null => exact .words pair (by decide)
      | true => exact .words pair (by decide)
      | false => exact .words pair (by decide)
      | number read => exact .words pair (number_words read).2
      | string spelled => exact .string pair spelled
      | noElements blank => exact (Passes.blank pair blank).brackets pair .array
      | array items => exact (Passes.elements pair items (shorter within)).brackets pair .array
      | noMembers blank => exact (Passes.blank pair blank).brackets pair .object
      | object items => exact (Passes.members pair items (shorter within)).brackets pair .object

/-- The text of a value is passed as a whole, however deep it nests. -/
theorem value_passes (pair : Pair opening closing) {text : Bytes} {tree : JsonGrammar.Tree Unit}
    (value : Value json text tree) :
    Passes opening closing text := value_passes_within pair text.length text tree value (Nat.le_refl _)

/-- What may stand behind a value of an object. -/
def Ends (rest : Bytes) : Prop := ∀ c, rest.head? = some c → c = 44 ∨ c = 125 ∨ MetadataJson.isSpace c = true

theorem value_head {text : Bytes} {tree : JsonGrammar.Tree Unit} (value : Value json text tree) :
    ∃ c tail, text = c :: tail ∧ MetadataJson.isSpace c = false := by
  cases value with
  | number read =>
      obtain ⟨nonempty, words⟩ := number_words read
      obtain ⟨c, tail, rfl⟩ := List.exists_cons_of_ne_nil nonempty
      exact ⟨c, tail, rfl, (wordByte_plain (words c List.mem_cons_self)).2⟩
  | _ => exact ⟨_, _, rfl, by decide⟩

theorem skipWhitespace_gap {gap : Bytes} (blank : Blank gap) (rest : Bytes) :
    MetadataJson.skipWhitespace (gap ++ rest) = MetadataJson.skipWhitespace rest :=
  List.dropWhile_append_of_pos fun c member => blank_space (blank c member)

theorem skipWhitespace_dark {c : UInt8} (dark : MetadataJson.isSpace c = false) (rest : Bytes) :
    MetadataJson.skipWhitespace (c :: rest) = c :: rest := by
  simp [MetadataJson.skipWhitespace, dark]

/-- A number or a literal ends at the first byte that is none of it. -/
theorem skipValue_word {text rest : Bytes} (nonempty : text ≠ []) (words : ∀ c ∈ text, isWordByte c = true)
    (ends : Ends rest) : skipValue (text ++ rest) = some rest := by
  obtain ⟨c, tail, rfl⟩ := List.exists_cons_of_ne_nil nonempty
  have plain : ∀ d ∈ c :: tail, d ≠ 44 ∧ d ≠ 125 ∧ d ≠ 93 ∧ (!MetadataJson.isSpace d) = true := by
    intro d member
    obtain ⟨marks, dark⟩ := wordByte_plain (words d member)
    simp only [List.mem_cons, List.not_mem_nil, or_false, not_or] at marks
    exact ⟨marks.2.2.2.2.2, marks.2.2.1, marks.2.2.2.2.1, by simp [dark]⟩
  obtain ⟨marks, dark⟩ := wordByte_plain (words c List.mem_cons_self)
  simp only [List.mem_cons, List.not_mem_nil, or_false, not_or] at marks
  rw [List.cons_append, skipValue, skipWhitespace_dark dark]
  dsimp only
  rw [if_neg marks.1, if_neg marks.2.1, if_neg marks.2.2.2.1, ← List.cons_append,
    List.dropWhile_append_of_pos (by simpa using plain)]
  rcases rest with _ | ⟨d, rest⟩
  · rfl
  · rw [List.dropWhile_cons_of_neg]
    rcases ends d rfl with rfl | rfl | space
    · decide
    · decide
    · simp [space]

theorem skipValue_brackets (pair : Pair opening closing) {text : Bytes} (inside : Passes opening closing text)
    (rest : Bytes) : skipValue (opening :: (text ++ [closing]) ++ rest) = some rest := by
  have shape : opening :: (text ++ [closing]) ++ rest = opening :: (text ++ closing :: rest) := by simp
  rw [shape, skipValue]
  cases pair with
  | object =>
      rw [skipWhitespace_dark (by decide)]
      exact skipNested_passes (by decide) inside rest (Nat.le_refl _)
  | array =>
      rw [skipWhitespace_dark (by decide)]
      exact skipNested_passes (by decide) inside rest (Nat.le_refl _)

/-- Exactly one value is passed over. -/
theorem skipValue_read {text rest : Bytes} {tree : JsonGrammar.Tree Unit} (value : Value json text tree)
    (ends : Ends rest) :
    skipValue (text ++ rest) = some rest := by
  cases value with
  | null => exact skipValue_word (by decide) (by decide) ends
  | true => exact skipValue_word (by decide) (by decide) ends
  | false => exact skipValue_word (by decide) (by decide) ends
  | number read => exact skipValue_word (number_words read).1 (number_words read).2 ends
  | @string raw content spelled =>
      have shape : 34 :: (raw ++ [34]) ++ rest = 34 :: (raw ++ 34 :: rest) := by simp
      have read := parseString_spells spelled rest
      rw [shape, skipValue, skipWhitespace_dark (by decide)]
      dsimp only
      rw [if_pos rfl, read]
      rfl
  | noElements blank => exact skipValue_brackets .array (.blank .array blank) rest
  | array items => exact skipValue_brackets .array (.elements .array items fun _ _ _ => value_passes .array) rest
  | noMembers blank => exact skipValue_brackets .object (.blank .object blank) rest
  | object items => exact skipValue_brackets .object (.members .object items fun _ _ _ => value_passes .object) rest

end Values

end XInfer.SkippedValues
