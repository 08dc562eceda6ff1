import XInfer.ServeJson
import Mathlib.Data.List.TakeWhile

/-!
What `parse_json` accepts: a grammar of its own, RFC 8259 with looser words for numbers and strings,
but for numbers that do not fit a double. Every text of the grammar is read as the tree it stands
for, and nothing else is read.
-/

namespace XInfer.ServeJsonGrammar

open Primitives JsonGrammar ServeJson
open MetadataJson (hex4 encodeCodepoint)

section Dialect

/-- Leading zeros, a bare point and an exponent without digits pass. -/
def LooseNumber (text : Bytes) : Prop :=
  ∃ sign whole fraction exponent, text = sign ++ (whole ++ (fraction ++ exponent)) ∧
    (sign = [] ∨ sign = [45]) ∧ Digits whole ∧
    (fraction = [] ∨ ∃ digits, fraction = 46 :: digits ∧ ∀ c ∈ digits, isDigit c = true) ∧
    (exponent = [] ∨ ∃ e sign digits, exponent = e :: (sign ++ digits) ∧ (e = 101 ∨ e = 69) ∧
      (sign = [] ∨ sign = [43] ∨ sign = [45]) ∧ ∀ c ∈ digits, isDigit c = true)

/-- Behind a backslash every byte goes; only `\u` is held to its digits, and surrogates to their
pairs. -/
inductive LooseEscape : Bytes → Bytes → Prop where
  | byte {c : UInt8} : c ≠ 117 → LooseEscape [c] [escapedByte c]
  | unicode {a b c d : UInt8} {cp : Nat} {bytes : Bytes} :
      hex4 [a, b, c, d] = some (cp, []) → ¬ (0xD800 ≤ cp ∧ cp ≤ 0xDFFF) →
        encodeCodepoint cp = some bytes → LooseEscape [117, a, b, c, d] bytes
  | pair {a b c d e f g h : UInt8} {high low : Nat} {bytes : Bytes} :
      hex4 [a, b, c, d] = some (high, []) → 0xD800 ≤ high ∧ high ≤ 0xDBFF →
        hex4 [e, f, g, h] = some (low, []) → 0xDC00 ≤ low ∧ low ≤ 0xDFFF →
          encodeCodepoint (0x10000 + (high - 0xD800) * 2 ^ 10 + (low - 0xDC00)) = some bytes →
            LooseEscape [117, a, b, c, d, 92, 117, e, f, g, h] bytes

/-- Every byte but the quote and the backslash stands for itself. -/
inductive LooseString : Bytes → Bytes → Prop where
  | nil : LooseString [] []
  | byte {c : UInt8} {rest s : Bytes} :
      c ≠ 34 → c ≠ 92 → LooseString rest s → LooseString (c :: rest) (c :: s)
  | escaped {piece bytes rest s : Bytes} :
      LooseEscape piece bytes → LooseString rest s → LooseString (92 :: (piece ++ rest)) (bytes ++ s)

/-- The dialect of `parse_json`: numbers have to be in the range of a double. -/
def loose (reportsUnderflow : Rat → Bool) : Lexis Rat where
  number := fun text x => LooseNumber text ∧ stod reportsUnderflow text = some x
  string := LooseString

end Dialect

section Blanks

theorem skipWhitespace_blank {gap : Bytes} (blank : Blank gap) (input : Bytes) :
    skipWhitespace (gap ++ input) = skipWhitespace input :=
  List.dropWhile_append_of_pos blank

theorem skipWhitespace_cons {c : UInt8} (dark : isBlank c = false) (input : Bytes) :
    skipWhitespace (c :: input) = c :: input := by
  simp [skipWhitespace, dark]

/-- The blanks that are skipped. -/
theorem skipWhitespace_split (input : Bytes) :
    ∃ gap, Blank gap ∧ input = gap ++ skipWhitespace input := by
  refine ⟨input.takeWhile isBlank, ?_, List.takeWhile_append_dropWhile.symm⟩
  exact fun c member => List.mem_takeWhile_imp member

theorem skipWhitespace_eq_nil {input : Bytes} (nothing : skipWhitespace input = []) : Blank input := by
  obtain ⟨gap, blank, split⟩ := skipWhitespace_split input
  rw [nothing, List.append_nil] at split
  exact split ▸ blank

theorem consume_blank {gap : Bytes} (blank : Blank gap) {c : UInt8} (dark : isBlank c = false)
    (rest : Bytes) : consume c (gap ++ c :: rest) = some rest := by
  rw [consume, skipWhitespace_blank blank, skipWhitespace_cons dark]
  exact if_pos rfl

theorem consume_other {gap : Bytes} (blank : Blank gap) {c d : UInt8} (dark : isBlank d = false)
    (apart : d ≠ c) (rest : Bytes) : consume c (gap ++ d :: rest) = none := by
  rw [consume, skipWhitespace_blank blank, skipWhitespace_cons dark]
  exact if_neg apart

theorem consume_some {c : UInt8} {input rest : Bytes} (read : consume c input = some rest) :
    ∃ gap, Blank gap ∧ input = gap ++ c :: rest := by
  obtain ⟨gap, blank, split⟩ := skipWhitespace_split input
  refine ⟨gap, blank, ?_⟩
  unfold consume at read
  split at read
  · cases read
  · rename_i first later shape
    rw [shape] at split
    split at read
    · rename_i same
      cases read
      rwa [same] at split
    · cases read

end Blanks

section Strings

theorem hex4_append {a b c d : UInt8} {cp : Nat} (digits : hex4 [a, b, c, d] = some (cp, []))
    (rest : Bytes) : hex4 (a :: b :: c :: d :: rest) = some (cp, rest) := by
  simp only [hex4, Option.bind_eq_bind, Option.pure_def] at digits ⊢
  cases first : MetadataJson.hexValue a <;> simp [first] at digits ⊢
  cases second : MetadataJson.hexValue b <;> simp [second] at digits ⊢
  cases third : MetadataJson.hexValue c <;> simp [third] at digits ⊢
  cases fourth : MetadataJson.hexValue d <;> simp [fourth] at digits ⊢
  exact digits

/-- Four digits are read, or nothing is. -/
theorem hex4_some {input rest : Bytes} {cp : Nat} (read : hex4 input = some (cp, rest)) :
    ∃ a b c d, input = a :: b :: c :: d :: rest ∧ hex4 [a, b, c, d] = some (cp, []) := by
  match input with
  | [] | [_] | [_, _] | [_, _, _] => cases read
  | a :: b :: c :: d :: after =>
      refine ⟨a, b, c, d, ?_⟩
      simp only [hex4, Option.bind_eq_bind, Option.pure_def] at read ⊢
      cases first : MetadataJson.hexValue a <;> simp [first] at read ⊢
      cases second : MetadataJson.hexValue b <;> simp [second] at read ⊢
      cases third : MetadataJson.hexValue c <;> simp [third] at read ⊢
      cases fourth : MetadataJson.hexValue d <;> simp [fourth] at read ⊢
      exact ⟨read.2, read.1⟩

theorem surrogatePair_ok {high cp : Nat} {input rest : Bytes}
    (read : surrogatePair high input = .ok (cp, rest)) :
    ∃ pair low, input = 92 :: 117 :: pair ∧ hex4 pair = some (low, rest) ∧ (0xDC00 ≤ low ∧ low ≤ 0xDFFF) ∧
      cp = 0x10000 + (high - 0xD800) * 2 ^ 10 + (low - 0xDC00) := by
  unfold surrogatePair at read
  split at read
  · rename_i pair
    split at read
    · cases read
    · split at read
      · cases read
      · rename_i low after found
        split at read
        · rename_i range
          obtain ⟨rfl, rfl⟩ := Prod.mk.inj (Except.ok.inj read)
          exact ⟨pair, low, rfl, found, range, rfl⟩
        · cases read
  · cases read

theorem encoded_ok {cp : Nat} {before bytes rest : Bytes} (read : encoded cp before = .ok (bytes, rest)) :
    encodeCodepoint cp = some bytes ∧ before = rest := by
  unfold encoded at read
  split at read
  · rename_i found
    cases read
    exact ⟨found, rfl⟩
  · cases read

theorem unicodeEscape_ok {input bytes rest : Bytes} (read : unicodeEscape input = .ok (bytes, rest)) :
    ∃ piece, 117 :: input = piece ++ rest ∧ LooseEscape piece bytes := by
  unfold unicodeEscape at read
  split at read
  · cases read
  · split at read
    · cases read
    · rename_i cp after found
      obtain ⟨a, b, c, d, rfl, digits⟩ := hex4_some found
      split at read
      · rename_i high
        obtain ⟨⟨codepoint, beyond⟩, second, coded⟩ := except_bind_ok read
        obtain ⟨pair, low, rfl, found', range, value⟩ := surrogatePair_ok second
        obtain ⟨e, f, g, h, rfl, digits'⟩ := hex4_some found'
        obtain ⟨text, rfl⟩ := encoded_ok coded
        rw [value] at text
        exact ⟨_, rfl, .pair digits high digits' range text⟩
      · rename_i notHigh
        split at read
        · cases read
        · rename_i notLow
          obtain ⟨text, rfl⟩ := encoded_ok read
          exact ⟨_, rfl, .unicode digits (by omega) text⟩

theorem escapeSequence_ok {input bytes rest : Bytes} (read : escapeSequence input = .ok (bytes, rest)) :
    ∃ piece, input = piece ++ rest ∧ LooseEscape piece bytes := by
  unfold escapeSequence at read
  split at read
  · cases read
  · split at read
    · rename_i unicode
      subst unicode
      exact unicodeEscape_ok read
    · rename_i plain
      cases read
      exact ⟨_, rfl, .byte plain⟩

theorem surrogatePair_read {e f g h : UInt8} {low : Nat} (digits : hex4 [e, f, g, h] = some (low, []))
    (range : 0xDC00 ≤ low ∧ low ≤ 0xDFFF) (high : Nat) (rest : Bytes) :
    surrogatePair high (92 :: 117 :: e :: f :: g :: h :: rest) =
      .ok (0x10000 + (high - 0xD800) * 2 ^ 10 + (low - 0xDC00), rest) := by
  simp only [surrogatePair, hex4_append digits rest, if_pos range]
  exact if_neg (by simp)

theorem unicodeEscape_pair {a b c d : UInt8} {high cp : Nat} {after rest : Bytes}
    (digits : hex4 (a :: b :: c :: d :: after) = some (high, after))
    (range : 0xD800 ≤ high ∧ high ≤ 0xDBFF) (second : surrogatePair high after = .ok (cp, rest)) :
    unicodeEscape (a :: b :: c :: d :: after) = encoded cp rest := by
  unfold unicodeEscape
  rw [if_neg (by simp), digits]
  dsimp only
  rw [if_pos range, second]
  rfl

theorem escapeSequence_read {piece bytes : Bytes} (escape : LooseEscape piece bytes) (rest : Bytes) :
    escapeSequence (piece ++ rest) = .ok (bytes, rest) := by
  cases escape with
  | byte plain => exact if_neg plain
  | @unicode a b c d cp _ digits plain text =>
      have notHigh : ¬ (0xD800 ≤ cp ∧ cp ≤ 0xDBFF) := by omega
      have notLow : ¬ (0xDC00 ≤ cp ∧ cp ≤ 0xDFFF) := by omega
      have found := hex4_append digits rest
      simp [escapeSequence, unicodeEscape, found, notHigh, notLow, encoded, text]
  | pair digits range digits' range' text =>
      simp only [List.cons_append, List.nil_append, escapeSequence, if_true]
      rw [unicodeEscape_pair (hex4_append digits _) range (surrogatePair_read digits' range' _ rest),
        encoded, text]

theorem stringLoop_read {text s : Bytes} (string : LooseString text s) (rest : Bytes) {fuel : Nat}
    (enough : text.length < fuel) : stringLoop fuel (text ++ 34 :: rest) = .ok (s, rest) := by
  induction string generalizing fuel with
  | nil =>
      obtain ⟨fuel, rfl⟩ := Nat.exists_eq_add_of_lt enough
      rfl
  | byte notQuote notBackslash _ ih =>
      rcases fuel with _ | fuel
      · exact absurd enough (Nat.not_lt_zero _)
      · rw [List.cons_append, stringLoop, if_neg notQuote, if_neg notBackslash,
          ih (Nat.lt_of_succ_lt_succ enough)]
        rfl
  | @escaped piece bytes later s escape _ ih =>
      rcases fuel with _ | fuel
      · exact absurd enough (Nat.not_lt_zero _)
      · have shorter : later.length < fuel := by
          simp only [List.length_cons, List.length_append] at enough
          omega
        rw [List.cons_append, stringLoop, if_neg (by decide), if_pos rfl, List.append_assoc,
          escapeSequence_read escape]
        simp only [bind, Except.bind, ih shorter]
        rfl

theorem stringLoop_ok {fuel : Nat} {input s rest : Bytes} (read : stringLoop fuel input = .ok (s, rest)) :
    ∃ text, input = text ++ 34 :: rest ∧ LooseString text s := by
  induction fuel generalizing input s with
  | zero => cases input <;> cases read
  | succ fuel ih =>
      rcases input with _ | ⟨c, input⟩
      · cases read
      · rw [stringLoop] at read
        split at read
        · rename_i quote
          cases read
          exact ⟨[], by rw [quote]; rfl, .nil⟩
        · rename_i notQuote
          split at read
          · rename_i backslash
            obtain ⟨⟨out, after⟩, escape, read⟩ := except_bind_ok read
            obtain ⟨⟨later, beyond⟩, loop, read⟩ := except_bind_ok read
            cases read
            obtain ⟨piece, rfl, escaped⟩ := escapeSequence_ok escape
            obtain ⟨text, rfl, string⟩ := ih loop
            exact ⟨92 :: (piece ++ text), by simp [backslash], .escaped escaped string⟩
          · rename_i notBackslash
            obtain ⟨⟨later, beyond⟩, loop, read⟩ := except_bind_ok read
            cases read
            obtain ⟨text, rfl, string⟩ := ih loop
            exact ⟨c :: text, rfl, .byte notQuote notBackslash string⟩

theorem parseString_read {text s : Bytes} (string : LooseString text s) (rest : Bytes) :
    parseString (34 :: (text ++ 34 :: rest)) = .ok (s, rest) := by
  rw [parseString, if_pos rfl]
  apply stringLoop_read string
  simp

theorem parseString_ok {input s rest : Bytes} (read : parseString input = .ok (s, rest)) :
    ∃ text, input = 34 :: (text ++ 34 :: rest) ∧ LooseString text s := by
  unfold parseString at read
  split at read
  · cases read
  · split at read
    · rename_i quote
      obtain ⟨text, rfl, string⟩ := stringLoop_ok read
      exact ⟨text, by rw [quote], string⟩
    · cases read

end Strings

section Numbers

/-- What may follow a number: a byte that does not continue it. -/
def Stops (rest : Bytes) : Prop :=
  ∀ c, rest.head? = some c → isDigit c = false ∧ c ≠ 46 ∧ c ≠ 101 ∧ c ≠ 69 ∧ c ≠ 43 ∧ c ≠ 45

theorem dropDigits {digits : Bytes} (all : ∀ c ∈ digits, isDigit c = true) {rest : Bytes}
    (stop : ∀ c, rest.head? = some c → isDigit c = false) :
    (digits ++ rest).dropWhile isDigit = rest := by
  rw [List.dropWhile_append_of_pos all]
  cases rest with
  | nil => rfl
  | cons c rest => simp [stop c rfl]

theorem digits_split (input : Bytes) :
    ∃ digits, (∀ c ∈ digits, isDigit c = true) ∧ input = digits ++ input.dropWhile isDigit := by
  refine ⟨input.takeWhile isDigit, ?_, List.takeWhile_append_dropWhile.symm⟩
  exact fun c member => List.mem_takeWhile_imp member

theorem digit_plain {c : UInt8} (digit : isDigit c = true) :
    c ≠ 43 ∧ c ≠ 45 ∧ c ≠ 46 ∧ c ≠ 101 ∧ c ≠ 69 := by
  refine ⟨?_, ?_, ?_, ?_, ?_⟩ <;>
    · rintro rfl
      exact absurd digit (by decide)

theorem skipSign_plain {text : Bytes} (plain : ∀ c, text.head? = some c → c ≠ 43 ∧ c ≠ 45) :
    skipSign text = text := by
  cases text with
  | nil => rfl
  | cons c rest =>
      obtain ⟨notPlus, notMinus⟩ := plain c rfl
      exact if_neg (by simp [notPlus, notMinus])

/-- Digits and what follows them begin with a digit, or with what follows them. -/
theorem head_digits {digits rest : Bytes} (all : ∀ c ∈ digits, isDigit c = true) {c : UInt8}
    (first : (digits ++ rest).head? = some c) : isDigit c = true ∨ rest.head? = some c := by
  cases digits with
  | nil => exact Or.inr first
  | cons d digits =>
      simp only [List.cons_append, List.head?_cons, Option.some.injEq] at first
      exact Or.inl (first ▸ all d (by simp))

theorem skipExponent_read {exponent rest : Bytes} (stops : Stops rest)
    (shape : exponent = [] ∨ ∃ e sign digits, exponent = e :: (sign ++ digits) ∧ (e = 101 ∨ e = 69) ∧
      (sign = [] ∨ sign = [43] ∨ sign = [45]) ∧ ∀ c ∈ digits, isDigit c = true) :
    skipExponent (exponent ++ rest) = rest := by
  rcases shape with rfl | ⟨e, sign, digits, rfl, marker, signs, all⟩
  · cases rest with
    | nil => rfl
    | cons c rest =>
        obtain ⟨_, _, notLower, notUpper, _⟩ := stops c rfl
        exact if_neg (by simp [notLower, notUpper])
  · have signed : skipSign (sign ++ (digits ++ rest)) = digits ++ rest := by
      rcases signs with rfl | rfl | rfl
      · refine skipSign_plain fun c first => ?_
        rcases head_digits all first with digit | after
        · exact ⟨(digit_plain digit).1, (digit_plain digit).2.1⟩
        · exact (stops c after).2.2.2.2
      · rfl
      · rfl
    rw [List.cons_append, skipExponent, if_pos marker, List.append_assoc, signed]
    exact dropDigits all fun c after => (stops c after).1

theorem skipFraction_read {fraction rest : Bytes}
    (plain : ∀ c, rest.head? = some c → isDigit c = false ∧ c ≠ 46)
    (shape : fraction = [] ∨ ∃ digits, fraction = 46 :: digits ∧ ∀ c ∈ digits, isDigit c = true) :
    skipFraction (fraction ++ rest) = rest := by
  rcases shape with rfl | ⟨digits, rfl, all⟩
  · cases rest with
    | nil => rfl
    | cons c rest => exact if_neg (plain c rfl).2
  · rw [List.cons_append, skipFraction, if_pos rfl]
    exact dropDigits all fun c after => (plain c after).1

variable (reportsUnderflow : Rat → Bool)

theorem parseNumber_read {text rest : Bytes} {x : Rat} (number : LooseNumber text)
    (value : stod reportsUnderflow text = some x) (stops : Stops rest) :
    parseNumber reportsUnderflow (text ++ rest) = .ok (x, rest) := by
  obtain ⟨sign, whole, fraction, exponent, shape, signs, ⟨some', all⟩, fractions, exponents⟩ := number
  -- the exponent, or what follows the number, ends the digits before it
  have after : ∀ c, (exponent ++ rest).head? = some c → isDigit c = false ∧ c ≠ 46 := by
    intro c first
    rcases exponents with rfl | ⟨e, sign, digits, rfl, marker, -⟩
    · exact ⟨(stops c first).1, (stops c first).2.1⟩
    · simp only [List.cons_append, List.head?_cons, Option.some.injEq] at first
      subst first
      rcases marker with rfl | rfl <;> exact ⟨by decide, by decide⟩
  have beyond : ∀ c, (fraction ++ (exponent ++ rest)).head? = some c → isDigit c = false := by
    intro c first
    rcases fractions with rfl | ⟨digits, rfl, -⟩
    · exact (after c first).1
    · simp only [List.cons_append, List.head?_cons, Option.some.injEq] at first
      subst first
      decide
  obtain ⟨d, digits, rfl⟩ := List.exists_cons_of_ne_nil some'
  have digit := all d (by simp)
  have unsigned : (if (text ++ rest).head? = some 45 then (text ++ rest).drop 1 else text ++ rest) =
      d :: (digits ++ (fraction ++ (exponent ++ rest))) := by
    rcases signs with rfl | rfl
    · have plain : d ≠ 45 := (digit_plain digit).2.1
      simp [shape, plain]
    · simp [shape]
  have scanned : skipExponent (skipFraction
      ((d :: (digits ++ (fraction ++ (exponent ++ rest)))).dropWhile isDigit)) = rest := by
    have walked := dropDigits all beyond
    rw [List.cons_append] at walked
    rw [walked, skipFraction_read after fractions, skipExponent_read stops exponents]
  have numStr : (text ++ rest).take ((text ++ rest).length - rest.length) = text := by simp
  rw [parseNumber]
  simp only [unsigned, List.head?_cons, Option.map_some, Option.getD_some, digit, if_true, scanned,
    numStr, value]

theorem skipFraction_split (input : Bytes) : ∃ fraction, input = fraction ++ skipFraction input ∧
    (fraction = [] ∨ ∃ digits, fraction = 46 :: digits ∧ ∀ c ∈ digits, isDigit c = true) := by
  cases input with
  | nil => exact ⟨[], rfl, Or.inl rfl⟩
  | cons c rest =>
      rw [skipFraction]
      split
      · rename_i point
        obtain ⟨digits, all, split⟩ := digits_split rest
        refine ⟨c :: digits, ?_, Or.inr ⟨digits, by rw [point], all⟩⟩
        rw [List.cons_append, ← split]
      · exact ⟨[], rfl, Or.inl rfl⟩

theorem skipSign_split (input : Bytes) :
    ∃ sign, input = sign ++ skipSign input ∧ (sign = [] ∨ sign = [43] ∨ sign = [45]) := by
  cases input with
  | nil => exact ⟨[], rfl, Or.inl rfl⟩
  | cons c rest =>
      rw [skipSign]
      split
      · rename_i signed
        refine ⟨[c], rfl, Or.inr ?_⟩
        rcases signed with rfl | rfl
        · exact Or.inl rfl
        · exact Or.inr rfl
      · exact ⟨[], rfl, Or.inl rfl⟩

theorem skipExponent_split (input : Bytes) : ∃ exponent, input = exponent ++ skipExponent input ∧
    (exponent = [] ∨ ∃ e sign digits, exponent = e :: (sign ++ digits) ∧ (e = 101 ∨ e = 69) ∧
      (sign = [] ∨ sign = [43] ∨ sign = [45]) ∧ ∀ c ∈ digits, isDigit c = true) := by
  cases input with
  | nil => exact ⟨[], rfl, Or.inl rfl⟩
  | cons e rest =>
      rw [skipExponent]
      split
      · rename_i marker
        obtain ⟨sign, signed, signs⟩ := skipSign_split rest
        obtain ⟨digits, all, split⟩ := digits_split (skipSign rest)
        refine ⟨e :: (sign ++ digits), ?_, Or.inr ⟨e, sign, digits, rfl, marker, signs, all⟩⟩
        rw [List.cons_append, List.append_assoc, ← split, ← signed]
      · exact ⟨[], rfl, Or.inl rfl⟩

theorem parseNumber_ok {input rest : Bytes} {x : Rat}
    (read : parseNumber reportsUnderflow input = .ok (x, rest)) :
    ∃ text, input = text ++ rest ∧ LooseNumber text ∧ stod reportsUnderflow text = some x := by
  obtain ⟨sign, signed, signs⟩ : ∃ sign, input = sign ++
      (if input.head? = some 45 then input.drop 1 else input) ∧ (sign = [] ∨ sign = [45]) := by
    split
    · rename_i minus
      cases input with
      | nil => cases minus
      | cons c input =>
          simp only [List.head?_cons, Option.some.injEq] at minus
          exact ⟨[45], by rw [minus]; rfl, Or.inr rfl⟩
    · exact ⟨[], rfl, Or.inl rfl⟩
  unfold parseNumber at read
  generalize (if input.head? = some 45 then input.drop 1 else input) = unsigned at read signed
  dsimp only at read
  split at read
  · rename_i digit
    obtain ⟨whole, all, split⟩ := digits_split unsigned
    obtain ⟨fraction, fractioned, fractions⟩ := skipFraction_split (unsigned.dropWhile isDigit)
    obtain ⟨exponent, exponented, exponents⟩ :=
      skipExponent_split (skipFraction (unsigned.dropWhile isDigit))
    have nonempty : whole ≠ [] := by
      rintro rfl
      cases unsigned with
      | nil => cases digit
      | cons c unsigned =>
          have isdigit : isDigit c = true := by simpa using digit
          rw [List.nil_append, List.dropWhile_cons_of_pos isdigit] at split
          have lengths := congrArg List.length split
          have shorter := (List.dropWhile_suffix isDigit (l := unsigned)).length_le
          simp only [List.length_cons] at lengths
          omega
    rw [exponented] at fractioned
    rw [fractioned] at split
    rw [split] at signed
    have whole' : input = sign ++ (whole ++ (fraction ++ exponent)) ++
        skipExponent (skipFraction (unsigned.dropWhile isDigit)) := by
      simp only [signed, List.append_assoc]
    generalize skipExponent (skipFraction (unsigned.dropWhile isDigit)) = behind at read whole'
    have numStr : input.take (input.length - behind.length) = sign ++ (whole ++ (fraction ++ exponent)) := by
      rw [whole', List.length_append, Nat.add_sub_cancel]
      exact List.take_left
    rw [numStr] at read
    split at read
    · rename_i value
      cases read
      exact ⟨_, whole', ⟨sign, whole, fraction, exponent, rfl, signs, ⟨nonempty, all⟩, fractions,
        exponents⟩, value⟩
    · cases read
  · cases read

end Numbers

section Lists

variable {α : Type} {item : Bytes → Except Bytes (α × Bytes)} {grammar : Bytes → α → Prop}
  {closing : UInt8} {missing : Bytes}

/-- What an item reads is an item of the grammar, with any blanks behind it. -/
def ItemOk (item : Bytes → Except Bytes (α × Bytes)) (grammar : Bytes → α → Prop) : Prop :=
  ∀ input x rest, item input = .ok (x, rest) →
    ∃ text, input = text ++ rest ∧ ∀ gap, Blank gap → grammar (text ++ gap) x

/-- An item of the grammar is read, but for the blanks behind it. -/
def ItemRead (item : Bytes → Except Bytes (α × Bytes)) (grammar : Bytes → α → Prop) : Prop :=
  ∀ text x rest, grammar text x → Stops rest →
    ∃ gap, Blank gap ∧ item (text ++ rest) = .ok (x, gap ++ rest)

theorem commaLoop_ok (sound : ItemOk item grammar) {fuel : Nat} {input rest : Bytes} {xs : List α}
    (read : commaLoop item closing missing fuel input = .ok (xs, rest)) :
    ∃ text, input = text ++ closing :: rest ∧ Separated grammar text xs := by
  induction fuel generalizing input xs with
  | zero => cases read
  | succ fuel ih =>
      rw [commaLoop] at read
      obtain ⟨⟨x, after⟩, first, next⟩ := except_bind_ok read
      clear read
      obtain ⟨text, rfl, good⟩ := sound input x after first
      dsimp only at next
      split at next
      · rename_i closed
        cases next
        obtain ⟨gap, blank, rfl⟩ := consume_some closed
        exact ⟨text ++ gap, by simp, .one (good gap blank)⟩
      · split at next
        · rename_i beyond comma
          obtain ⟨⟨later, behind⟩, loop, last⟩ := except_bind_ok next
          cases last
          obtain ⟨gap, blank, rfl⟩ := consume_some comma
          obtain ⟨others, rfl, items⟩ := ih loop
          exact ⟨(text ++ gap) ++ 44 :: others, by simp, .more (good gap blank) items⟩
        · cases next

theorem stops_comma (rest : Bytes) : Stops (44 :: rest) := by
  intro c first
  cases first
  decide

theorem commaLoop_read (complete : ItemRead item grammar) (dark : isBlank closing = false)
    (apart : closing ≠ 44) (ends : ∀ rest, Stops (closing :: rest)) {text : Bytes} {xs : List α}
    (items : Separated grammar text xs) {fuel : Nat} (enough : xs.length ≤ fuel) (rest : Bytes) :
    commaLoop item closing missing fuel (text ++ closing :: rest) = .ok (xs, rest) := by
  induction items generalizing fuel with
  | @one text x good =>
      rcases fuel with _ | fuel
      · exact absurd enough (Nat.not_succ_le_zero _)
      · obtain ⟨gap, blank, read⟩ := complete text x (closing :: rest) good (ends rest)
        rw [commaLoop, read, except_ok_bind]
        simp only [consume_blank blank dark]
        rfl
  | @more text others x xs good _ ih =>
      rcases fuel with _ | fuel
      · exact absurd enough (Nat.not_succ_le_zero _)
      · have comma : isBlank 44 = false := by decide
        obtain ⟨gap, blank, read⟩ := complete text x (44 :: (others ++ closing :: rest)) good
          (stops_comma _)
        rw [List.append_assoc, List.cons_append, commaLoop, read, except_ok_bind]
        simp only [consume_other blank comma (Ne.symm apart), consume_blank blank comma,
          ih (Nat.le_of_succ_le_succ enough)]
        rfl

theorem parseList_ok (sound : ItemOk item grammar) {input rest : Bytes} {xs : List α}
    (read : parseList item closing missing input = .ok (xs, rest)) :
    ∃ text, input = text ++ closing :: rest ∧
      (xs = [] ∧ Blank text ∨ Separated grammar text xs) := by
  unfold parseList at read
  split at read
  · rename_i closed
    cases read
    obtain ⟨gap, blank, rfl⟩ := consume_some closed
    exact ⟨gap, rfl, Or.inl ⟨rfl, blank⟩⟩
  · obtain ⟨text, split, items⟩ := commaLoop_ok sound read
    exact ⟨text, split, Or.inr items⟩

theorem parseList_empty {gap : Bytes} (blank : Blank gap) (dark : isBlank closing = false)
    (rest : Bytes) : parseList item closing missing (gap ++ closing :: rest) = .ok ([], rest) := by
  rw [parseList, consume_blank blank dark]

theorem parseList_read (complete : ItemRead item grammar) (dark : isBlank closing = false)
    (apart : closing ≠ 44) (ends : ∀ rest, Stops (closing :: rest)) {text : Bytes} {xs : List α}
    (items : Separated grammar text xs) (rest : Bytes)
    (opens : consume closing (text ++ closing :: rest) = none) :
    parseList item closing missing (text ++ closing :: rest) = .ok (xs, rest) := by
  rw [parseList, opens]
  apply commaLoop_read complete dark apart ends items
  have fewer := items.length_le
  rw [List.length_append]
  omega

end Lists

section Members

variable {value : Bytes → Except Bytes (JsonValue × Bytes)} {grammar : Bytes → JsonValue → Prop}

theorem parseMember_ok (sound : ItemOk value (Padded grammar)) :
    ItemOk (parseMember value) (Member LooseString grammar) := by
  intro input member rest read
  obtain ⟨lead, blank, split⟩ := skipWhitespace_split input
  unfold parseMember at read
  dsimp only at read
  split at read
  · obtain ⟨⟨key, after⟩, name, next⟩ := except_bind_ok read
    obtain ⟨spelling, named, string⟩ := parseString_ok name
    clear read
    dsimp only at next
    split at next
    · cases next
    · rename_i beyond colon
      obtain ⟨⟨x, behind⟩, valued, last⟩ := except_bind_ok next
      cases last
      obtain ⟨gap, between, shape⟩ := consume_some colon
      obtain ⟨text, shape', good⟩ := sound beyond x behind valued
      refine ⟨lead ++ 34 :: (spelling ++ 34 :: (gap ++ 58 :: text)), ?_, fun tail ends => ?_⟩
      · rw [split, named, shape, shape']
        simp
      · have member := Member.mk blank string between (good tail ends)
        simpa using member
  · cases read

theorem parseMember_read {bound : Nat}
    (complete : ItemRead value fun text x => text.length ≤ bound ∧ Padded grammar text x) :
    ItemRead (parseMember value) fun text member =>
      text.length ≤ bound ∧ Member LooseString grammar text member := by
  rintro _ _ rest ⟨within, @⟨before, spelling, gap, text, name, x, blank, string, between, good⟩⟩ stops
  have inner : text.length ≤ bound := by
    simp only [List.length_append, List.length_cons] at within
    omega
  obtain ⟨tail, ends, read⟩ := complete text x rest ⟨inner, good⟩ stops
  refine ⟨tail, ends, ?_⟩
  have quoted : skipWhitespace (before ++ 34 :: (spelling ++ 34 :: (gap ++ 58 :: text)) ++ rest) =
      34 :: (spelling ++ 34 :: (gap ++ 58 :: (text ++ rest))) := by
    rw [List.append_assoc, skipWhitespace_blank blank, List.cons_append, skipWhitespace_cons (by decide)]
    simp
  unfold parseMember
  simp only [quoted, List.head?_cons, if_true]
  rw [parseString_read string, except_ok_bind]
  simp only [consume_blank between (by decide : isBlank 58 = false), read]
  rfl

end Members

section Values

variable (reportsUnderflow : Rat → Bool)

theorem headD_ne {input : Bytes} {c : UInt8} (first : input.headD 0 = c) (nonzero : c ≠ 0) :
    input = c :: input.drop 1 := by
  cases input with
  | nil => exact absurd first.symm nonzero
  | cons d input =>
      simp only [List.headD_cons] at first
      rw [first]
      rfl

theorem parseBool_ok {input rest : Bytes} {b : Bool} (read : parseBool input = .ok (b, rest)) :
    ∃ text, input = text ++ rest ∧ Value (loose reportsUnderflow) text (.bool b) := by
  unfold parseBool at read
  split at read
  · rename_i word
    cases read
    exact ⟨ascii "true", by rw [← word, List.take_append_drop], .true⟩
  · split at read
    · rename_i word
      cases read
      exact ⟨ascii "false", by rw [← word, List.take_append_drop], .false⟩
    · cases read

theorem parseNull_ok {input rest : Bytes} (read : parseNull input = .ok rest) :
    ∃ text, input = text ++ rest ∧ Value (loose reportsUnderflow) text .null := by
  unfold parseNull at read
  split at read
  · rename_i word
    cases read
    exact ⟨ascii "null", by rw [← word, List.take_append_drop], .null⟩
  · cases read

/-- One level of `parse_value`, over values that are read rightly. -/
theorem parseValue_level {depth : Nat}
    (sound : ItemOk (parseValue reportsUnderflow depth) (Padded (Value (loose reportsUnderflow))))
    {input rest : Bytes} {x : JsonValue}
    (read : parseValue reportsUnderflow (depth + 1) input = .ok (x, rest)) :
    ∃ text, skipWhitespace input = text ++ rest ∧ Value (loose reportsUnderflow) text x := by
  rw [parseValue] at read
  dsimp only at read
  split_ifs at read with brace bracket quote letter n sign
  · obtain ⟨⟨members, after⟩, list, last⟩ := except_bind_ok read
    cases last
    obtain ⟨text, shape, items⟩ := parseList_ok (parseMember_ok sound) list
    refine ⟨123 :: (text ++ [125]), ?_, ?_⟩
    · rw [headD_ne brace (by decide), shape]
      simp
    · rcases items with ⟨rfl, blank⟩ | items
      · exact .noMembers blank
      · exact .object items
  · obtain ⟨⟨elements, after⟩, list, last⟩ := except_bind_ok read
    cases last
    obtain ⟨text, shape, items⟩ := parseList_ok sound list
    refine ⟨91 :: (text ++ [93]), ?_, ?_⟩
    · rw [headD_ne bracket (by decide), shape]
      simp
    · rcases items with ⟨rfl, blank⟩ | items
      · exact .noElements blank
      · exact .array items
  · obtain ⟨⟨s, after⟩, string, last⟩ := except_bind_ok read
    cases last
    obtain ⟨text, shape, spelled⟩ := parseString_ok string
    exact ⟨34 :: (text ++ [34]), by rw [shape]; simp, .string spelled⟩
  · obtain ⟨⟨b, after⟩, word, last⟩ := except_bind_ok read
    cases last
    exact parseBool_ok reportsUnderflow word
  · obtain ⟨after, word, last⟩ := except_bind_ok read
    cases last
    exact parseNull_ok reportsUnderflow word
  · obtain ⟨⟨y, after⟩, number, last⟩ := except_bind_ok read
    cases last
    obtain ⟨text, shape, loosely, value⟩ := parseNumber_ok reportsUnderflow number
    exact ⟨text, shape, .number ⟨loosely, value⟩⟩

/-- What `parse_value` reads is a value of the grammar. -/
theorem parseValue_ok (depth : Nat) :
    ItemOk (parseValue reportsUnderflow depth) (Padded (Value (loose reportsUnderflow))) := by
  induction depth with
  | zero => exact fun _ _ _ read => by cases read
  | succ depth ih =>
      intro input x rest read
      obtain ⟨lead, blank, split⟩ := skipWhitespace_split input
      obtain ⟨text, shape, value⟩ := parseValue_level reportsUnderflow ih read
      refine ⟨lead ++ text, ?_, fun gap ends => .mk blank value ends⟩
      rw [split, shape, List.append_assoc]

theorem looseNumber_head {text : Bytes} (number : LooseNumber text) :
    ∃ c tail, text = c :: tail ∧ (c = 45 ∨ isDigit c = true) := by
  obtain ⟨sign, whole, fraction, exponent, rfl, signs, ⟨nonempty, all⟩, -, -⟩ := number
  rcases signs with rfl | rfl
  · obtain ⟨d, digits, rfl⟩ := List.exists_cons_of_ne_nil nonempty
    exact ⟨d, _, rfl, Or.inr (all d (by simp))⟩
  · exact ⟨45, _, rfl, Or.inl rfl⟩

/-- The bytes a number begins with begin nothing else. -/
theorem number_dark {c : UInt8} (first : c = 45 ∨ isDigit c = true) : isBlank c = false ∧
    c ≠ 93 ∧ c ≠ 123 ∧ c ≠ 91 ∧ c ≠ 34 ∧ c ≠ 116 ∧ c ≠ 102 ∧ c ≠ 110 := by
  rcases first with rfl | digit
  · decide
  · have apart : ∀ d : UInt8, isDigit d = false → c ≠ d := by
      rintro d plain rfl
      exact absurd (digit.symm.trans plain) (by decide)
    have blank : isBlank c = false := by
      simp [isBlank, apart 32 (by decide), apart 9 (by decide), apart 10 (by decide),
        apart 13 (by decide)]
    exact ⟨blank, apart _ (by decide), apart _ (by decide), apart _ (by decide), apart _ (by decide),
      apart _ (by decide), apart _ (by decide), apart _ (by decide)⟩

theorem value_head {text : Bytes} {x : JsonValue} (value : Value (loose reportsUnderflow) text x) :
    ∃ c tail, text = c :: tail ∧ isBlank c = false ∧ c ≠ 93 := by
  cases value with
  | number read =>
      obtain ⟨c, tail, shape, first⟩ := looseNumber_head read.1
      exact ⟨c, tail, shape, (number_dark first).1, (number_dark first).2.1⟩
  | _ => exact ⟨_, _, rfl, by decide, by decide⟩

theorem separated_first {α : Type} {item : Bytes → α → Prop} {text : Bytes} {xs : List α}
    (items : Separated item text xs) : ∃ part tail x, text = part ++ tail ∧ item part x := by
  cases items with
  | one good => exact ⟨text, [], _, by simp, good⟩
  | more good _ => exact ⟨_, _, _, rfl, good⟩

theorem elements_open {text : Bytes} {xs : List JsonValue}
    (items : Separated (Padded (Value (loose reportsUnderflow))) text xs) (rest : Bytes) :
    consume 93 (text ++ rest) = none := by
  obtain ⟨_, tail, x, rfl, ⟨blank, value, _⟩⟩ := separated_first items
  obtain ⟨c, inner, rfl, dark, apart⟩ := value_head reportsUnderflow value
  simp only [List.append_assoc, List.cons_append]
  exact consume_other blank dark apart _

theorem members_open {text : Bytes} {members : List (Bytes × JsonValue)}
    (items : Separated (Member LooseString (Value (loose reportsUnderflow))) text members)
    (rest : Bytes) : consume 125 (text ++ rest) = none := by
  obtain ⟨_, tail, x, rfl, ⟨blank, _, _, _⟩⟩ := separated_first items
  simp only [List.append_assoc, List.cons_append]
  exact consume_other blank (by decide) (by decide) _

theorem parseValue_blank {gap : Bytes} (blank : Blank gap) (depth : Nat) (input : Bytes) :
    parseValue reportsUnderflow (depth + 1) (gap ++ input) =
      parseValue reportsUnderflow (depth + 1) input := by
  rw [parseValue, parseValue, skipWhitespace_blank blank]

theorem stops_blank {gap rest : Bytes} (blank : Blank gap) (stops : Stops rest) :
    Stops (gap ++ rest) := by
  intro c first
  rcases gap with _ | ⟨d, gap⟩
  · exact stops c first
  · have same : d = c := by simpa using first
    have white := blank d (by simp)
    have apart : ∀ e : UInt8, isBlank e = false → c ≠ e := by
      rintro e plain rfl
      exact absurd ((same ▸ white).symm.trans plain) (by decide)
    have digit : isDigit c = false := by
      subst same
      simp only [isBlank, Bool.or_eq_true, beq_iff_eq] at white
      rcases white with ((rfl | rfl) | rfl) | rfl <;> decide
    exact ⟨digit, apart _ (by decide), apart _ (by decide), apart _ (by decide), apart _ (by decide),
      apart _ (by decide)⟩

theorem stops_closing {c : UInt8} (closing : c = 93 ∨ c = 125) (rest : Bytes) : Stops (c :: rest) := by
  rintro d first
  cases first
  rcases closing with rfl | rfl <;> decide

/-- The read of a value carries over to one between blanks. -/
theorem parseValue_padded {depth : Nat}
    (complete : ∀ text x rest, Value (loose reportsUnderflow) text x → text.length ≤ depth →
      Stops rest → parseValue reportsUnderflow depth (text ++ rest) = .ok (x, rest)) :
    ItemRead (parseValue reportsUnderflow depth) fun text x =>
      text.length ≤ depth ∧ Padded (Value (loose reportsUnderflow)) text x := by
  rintro _ x rest ⟨within, @⟨before, text, after, x, blank, value, ends⟩⟩ stops
  refine ⟨after, ends, ?_⟩
  have inner : text.length ≤ depth := by
    simp only [List.length_append] at within
    omega
  have read := complete text x (after ++ rest) value inner (stops_blank ends stops)
  rcases depth with _ | depth
  · obtain ⟨c, tail, rfl, -⟩ := value_head reportsUnderflow value
    exact absurd inner (Nat.not_succ_le_zero _)
  · rw [List.append_assoc, List.append_assoc, parseValue_blank reportsUnderflow blank, read]

theorem parseValue_string (depth : Nat) (input : Bytes) :
    parseValue reportsUnderflow (depth + 1) (34 :: input) =
      parseString (34 :: input) >>= fun read => .ok (.string read.1, read.2) := rfl

theorem parseValue_array (depth : Nat) (input : Bytes) :
    parseValue reportsUnderflow (depth + 1) (91 :: input) =
      parseList (parseValue reportsUnderflow depth) 93 (ascii "Expected ',' or ']' in array") input >>=
        fun read => .ok (.array read.1, read.2) := rfl

theorem parseValue_object (depth : Nat) (input : Bytes) :
    parseValue reportsUnderflow (depth + 1) (123 :: input) =
      parseList (parseMember (parseValue reportsUnderflow depth)) 125
        (ascii "Expected ',' or '\x7d' in object") input >>=
          fun read => .ok (.object read.1, read.2) := rfl

/-- Every value of the grammar is read, to its last byte. -/
theorem parseValue_read (depth : Nat) : ∀ text x rest, Value (loose reportsUnderflow) text x →
    text.length ≤ depth → Stops rest →
      parseValue reportsUnderflow depth (text ++ rest) = .ok (x, rest) := by
  induction depth with
  | zero =>
      intro text x rest value within _
      obtain ⟨c, tail, rfl, -⟩ := value_head reportsUnderflow value
      exact absurd within (Nat.not_succ_le_zero _)
  | succ depth ih =>
      intro text x rest value within stops
      have inner := parseValue_padded reportsUnderflow ih
      cases value with
      | null => rfl
      | true => rfl
      | false => rfl
      | number read =>
          obtain ⟨c, tail, rfl, first⟩ := looseNumber_head read.1
          obtain ⟨dark, _, h1, h2, h3, h4, h5, h6⟩ := number_dark first
          have number := parseNumber_read reportsUnderflow read.1 read.2 stops
          rw [List.cons_append] at number ⊢
          rw [parseValue]
          simp only [skipWhitespace_cons dark, List.headD_cons]
          rw [if_neg h1, if_neg h2, if_neg h3, if_neg (by simp [h4, h5]), if_neg h6, if_pos first, number]
          rfl
      | @string text s spelled =>
          have shape : 34 :: (text ++ [34]) ++ rest = 34 :: (text ++ 34 :: rest) := by simp
          rw [shape, parseValue_string, parseString_read spelled rest]
          rfl
      | @noElements gap blank =>
          have shape : 91 :: (gap ++ [93]) ++ rest = 91 :: (gap ++ 93 :: rest) := by simp
          rw [shape, parseValue_array, parseList_empty blank (by decide)]
          rfl
      | @array text xs items =>
          have shape : 91 :: (text ++ [93]) ++ rest = 91 :: (text ++ 93 :: rest) := by simp
          have short : text.length ≤ depth := by
            simp only [List.length_cons, List.length_append, List.length_nil] at within
            omega
          have bounded := items.imp_within fun part x fits good =>
            (⟨Nat.le_trans fits short, good⟩ : part.length ≤ depth ∧ Padded _ part x)
          rw [shape, parseValue_array, parseList_read inner (by decide) (by decide)
            (fun rest => stops_closing (Or.inl rfl) rest) bounded rest
            (elements_open reportsUnderflow items _)]
          rfl
      | @noMembers gap blank =>
          have shape : 123 :: (gap ++ [125]) ++ rest = 123 :: (gap ++ 125 :: rest) := by simp
          rw [shape, parseValue_object, parseList_empty blank (by decide)]
          rfl
      | @object text members items =>
          have shape : 123 :: (text ++ [125]) ++ rest = 123 :: (text ++ 125 :: rest) := by simp
          have short : text.length ≤ depth := by
            simp only [List.length_cons, List.length_append, List.length_nil] at within
            omega
          have bounded := items.imp_within fun part x fits good =>
            (⟨Nat.le_trans fits short, good⟩ : part.length ≤ depth ∧ Member _ _ part x)
          rw [shape, parseValue_object, parseList_read (parseMember_read inner) (by decide) (by decide)
            (fun rest => stops_closing (Or.inr rfl) rest) bounded rest
            (members_open reportsUnderflow items _)]
          rfl

/-- `parse_json` reads a text exactly when the grammar derives it, and as what it derives. -/
theorem parseJson_iff (input : Bytes) (x : JsonValue) :
    parseJson reportsUnderflow input = .ok x ↔ Text (loose reportsUnderflow) input x := by
  constructor
  · intro read
    unfold parseJson at read
    split at read
    · cases read
    · obtain ⟨⟨value, rest⟩, parsed, last⟩ := except_bind_ok read
      dsimp only at last
      split at last
      · rename_i nothing
        cases last
        obtain ⟨text, rfl, good⟩ := parseValue_ok reportsUnderflow _ _ _ _ parsed
        exact good rest (skipWhitespace_eq_nil nothing)
      · cases last
  · rintro ⟨blank, value, ends⟩
    rename_i before text after
    obtain ⟨c, tail, shape, dark, _⟩ := value_head reportsUnderflow value
    have something : skipWhitespace (before ++ text ++ after) ≠ [] := by
      rw [List.append_assoc, skipWhitespace_blank blank, shape, List.cons_append,
        skipWhitespace_cons dark]
      exact List.cons_ne_nil _ _
    have nothing : skipWhitespace after = [] := List.dropWhile_eq_nil_iff.mpr ends
    have within : text.length ≤ (before ++ text ++ after).length + 1 := by
      simp only [List.length_append]
      omega
    have stops : Stops after := by
      have empty : Stops [] := fun c first => by cases first
      have stopped := stops_blank ends empty
      rwa [List.append_nil] at stopped
    have read := parseValue_read reportsUnderflow _ text x after value within stops
    rw [parseJson, if_neg something]
    generalize (before ++ text ++ after).length = depth at read
    rw [List.append_assoc, parseValue_blank reportsUnderflow blank, read, except_ok_bind]
    exact if_pos nothing

theorem parseJson_accepts (input : Bytes) :
    (∃ x, parseJson reportsUnderflow input = .ok x) ↔ ∃ x, Text (loose reportsUnderflow) input x :=
  exists_congr (parseJson_iff reportsUnderflow input)

end Values

section Rfc

theorem rfcNumber_zero {text rest : Bytes} (number : RfcNumber text) (shape : text = 48 :: rest) :
    ∀ c, rest.head? = some c → isDigit c = false := by
  obtain ⟨sign, whole, fraction, exponent, rfl, signs, ⟨nonempty, all⟩, zero, fractions, exponents⟩ := number
  obtain ⟨d, digits, rfl⟩ := List.exists_cons_of_ne_nil nonempty
  rcases signs with rfl | rfl
  · -- the integer part is the zero alone, and a point or an `e` goes on
    simp only [List.nil_append, List.cons_append, List.cons.injEq, List.append_assoc] at shape
    obtain ⟨rfl, rfl⟩ := shape
    obtain rfl : digits = [] := by simpa using zero rfl
    intro c first
    rcases fractions with rfl | ⟨_, rfl, _⟩
    · rcases exponents with rfl | ⟨e, _, _, rfl, marker, -⟩
      · cases first
      · simp only [List.nil_append, List.head?_cons, Option.some.injEq] at first
        subst first
        rcases marker with rfl | rfl <;> decide
    · simp only [List.nil_append, List.cons_append, List.head?_cons, Option.some.injEq] at first
      subst first
      decide
  · cases shape

/-- A leading zero is read, and is no JSON; a number beyond the doubles is JSON, and is not read. -/
theorem leadingZero_accepted :
    ((∀ c ∈ ascii "01", c < 128 ∧ c ≠ 92) ∧
      parseJson (fun _ => false) (ascii "01") = .ok (.number 1) ∧ ¬ RfcText (ascii "01")) ∧
    ((∀ c ∈ ascii "1e400", c < 128 ∧ c ≠ 92) ∧
      (parseJson (fun _ => false) (ascii "1e400")).isOk = false ∧ RfcText (ascii "1e400")) := by
  have digits : Digits [52, 48, 48] := ⟨by decide, by decide⟩
  refine ⟨⟨by decide, ?_, ?_⟩, by decide, by decide +kernel, .number (), Padded.refl (.number
    ⟨[], [49], [], [101, 52, 48, 48], rfl, Or.inl rfl, ⟨by decide, by decide⟩, by decide, Or.inl rfl,
      Or.inr ⟨101, [], _, rfl, Or.inl rfl, Or.inl rfl, digits⟩⟩)⟩
  · rw [parseJson_iff]
    have whole : LooseNumber (ascii "01") :=
      ⟨[], [48, 49], [], [], rfl, Or.inl rfl, ⟨by decide, by decide⟩, Or.inl rfl, Or.inl rfl⟩
    have value : stod (fun _ => false) (ascii "01") = some 1 := by
      have exact' : decimalValue (ascii "01") = ((1 : Int) : Rat) := by decide +kernel
      rw [stod, exact', FloatFormat.strtod_int _ 1 (by decide)]
      rfl
    exact Padded.refl (.number ⟨whole, value⟩)
  · rintro ⟨tree, text⟩
    generalize shape : ascii "01" = input at text
    obtain ⟨blank, value, ends⟩ := text
    rename_i before text after
    -- neither byte is a blank, so the value is the whole text
    have dark : ∀ c ∈ before ++ text ++ after, isBlank c = false := shape ▸ by decide
    have noBefore : before = [] := by
      refine List.eq_nil_iff_forall_not_mem.mpr fun c member => ?_
      exact absurd ((blank c member).symm.trans (dark c (by simp [member]))) (by decide)
    have noAfter : after = [] := by
      refine List.eq_nil_iff_forall_not_mem.mpr fun c member => ?_
      exact absurd ((ends c member).symm.trans (dark c (by simp [member]))) (by decide)
    subst noBefore noAfter
    rw [List.nil_append, List.append_nil] at shape
    subst shape
    generalize shape : ascii "01" = text at value
    cases value with
    | number number =>
        have next := rfcNumber_zero number shape.symm 49 rfl
        exact absurd next (by decide)
    | _ => cases shape

end Rfc

end XInfer.ServeJsonGrammar
