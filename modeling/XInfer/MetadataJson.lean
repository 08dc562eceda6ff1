import XInfer.Primitives
import XInfer.SortedMap
import Mathlib.Data.List.Lex

/-!
`ArtifactMetadata` of `artifact/metadata.cpp`: the printer and the hand-written parser. The parser
keeps the text that is still to be read where the source keeps a position in it; `none` is the
answer `false`.
-/

namespace XInfer.MetadataJson

open Primitives SortedMap

/-- Bytes as `std::string` compares them. -/
instance byteOrder : LinearOrder UInt8 := LinearOrder.lift' UInt8.toNat fun _ _ => UInt8.toNat.inj

structure ArtifactMetadata where
  modelName : Bytes
  quantScheme : Bytes
  tokenizerType : Bytes
  properties : OrderedMap Bytes Bytes
  deriving DecidableEq

def blank : ArtifactMetadata := ⟨[], [], [], .empty⟩

def hexDigit (value : Nat) : UInt8 := UInt8.ofNat (if value < 10 then 48 + value else 87 + value)

/-- The text of one byte between the quotes. -/
def escapeByte (c : UInt8) : Bytes :=
  if c = 34 then [92, 34]
  else if c = 92 then [92, 92]
  else if c = 8 then [92, 98]
  else if c = 12 then [92, 102]
  else if c = 10 then [92, 110]
  else if c = 13 then [92, 114]
  else if c = 9 then [92, 116]
  else if c < 0x20 then [92, 117, 48, 48, hexDigit (c.toNat / 16), hexDigit (c.toNat % 16)]
  else [c]

def escapeJsonString (s : Bytes) : Bytes := 34 :: (s.flatMap escapeByte ++ [34])

/-- The entries of `properties`, with what stands between them. -/
def propertyLines : List (Bytes × Bytes) → Bytes
  | [] => []
  | [(k, v)] => ascii "    " ++ escapeJsonString k ++ ascii ": " ++ escapeJsonString v
  | (k, v) :: rest =>
      ascii "    " ++ escapeJsonString k ++ ascii ": " ++ escapeJsonString v ++ ascii ",\n" ++
        propertyLines rest

def toJson (m : ArtifactMetadata) : Bytes :=
  ascii "\x7b\n" ++ ascii "  \"model_name\": " ++ escapeJsonString m.modelName ++
    ascii ",\n  \"quant_scheme\": " ++ escapeJsonString m.quantScheme ++
    ascii ",\n  \"tokenizer_type\": " ++ escapeJsonString m.tokenizerType ++
    ascii ",\n  \"properties\": \x7b\n" ++ propertyLines m.properties.entries ++ ascii "\n  \x7d\n\x7d"

section JsonParser

/-- `std::isspace` in the C locale. -/
def isSpace (c : UInt8) : Bool := c == 32 || (decide (9 ≤ c) && decide (c ≤ 13))

def skipWhitespace (input : Bytes) : Bytes := input.dropWhile isSpace

/-- `peek`: a zero at the end of the input. -/
def peek (input : Bytes) : UInt8 := input.headD 0

def consume (expected : UInt8) : Bytes → Option Bytes
  | [] => none
  | c :: rest => if c = expected then some rest else none

/-- The digit of a character that passes `std::isxdigit`. -/
def hexValue (h : UInt8) : Option Nat :=
  if 48 ≤ h ∧ h ≤ 57 then some (h.toNat - 48)
  else if 97 ≤ h ∧ h ≤ 102 then some (h.toNat - 87)
  else if 65 ≤ h ∧ h ≤ 70 then some (h.toNat - 55)
  else none

/-- `std::stoul` of the four digits `hex` at the front. -/
def hex4 : Bytes → Option (Nat × Bytes)
  | a :: b :: c :: d :: rest => do
      let a ← hexValue a
      let b ← hexValue b
      let c ← hexValue c
      let d ← hexValue d
      return (((a * 16 + b) * 16 + c) * 16 + d, rest)
  | _ => none

/-- The bytes of a codepoint. -/
def encodeCodepoint (cp : Nat) : Option Bytes :=
  let tail := fun shift => UInt8.ofNat (0x80 ||| (cp / 2 ^ shift &&& 0x3F))
  if cp < 0x80 then some [UInt8.ofNat cp]
  else if cp < 0x800 then some [UInt8.ofNat (0xC0 ||| cp / 2 ^ 6), tail 0]
  else if cp < 0x10000 then some [UInt8.ofNat (0xE0 ||| cp / 2 ^ 12), tail 6, tail 0]
  else if cp ≤ 0x10FFFF then some [UInt8.ofNat (0xF0 ||| cp / 2 ^ 18), tail 12, tail 6, tail 0]
  else none

/-- Behind `\u`: a high surrogate takes the low one that has to follow it. -/
def unicodeEscape (input : Bytes) : Option (Bytes × Bytes) := do
  let (cp, rest) ← hex4 input
  if 0xD800 ≤ cp ∧ cp ≤ 0xDBFF then
    match rest with
    | 92 :: 117 :: pair =>
        let (low, rest) ← hex4 pair
        if 0xDC00 ≤ low ∧ low ≤ 0xDFFF then
          return (← encodeCodepoint (0x10000 + (cp - 0xD800) * 2 ^ 10 + (low - 0xDC00)), rest)
        else none
    | _ => none
  else if 0xDC00 ≤ cp ∧ cp ≤ 0xDFFF then none
  else return (← encodeCodepoint cp, rest)

/-- Behind a backslash. -/
def escapeSequence : Bytes → Option (Bytes × Bytes)
  | [] => none
  | esc :: rest =>
      if esc = 34 ∨ esc = 92 ∨ esc = 47 then some ([esc], rest)
      else if esc = 98 then some ([8], rest)
      else if esc = 102 then some ([12], rest)
      else if esc = 110 then some ([10], rest)
      else if esc = 114 then some ([13], rest)
      else if esc = 116 then some ([9], rest)
      else if esc = 117 then unicodeEscape rest
      else none

/-- The loop of `parse_string`; each round reads at least one byte. -/
def stringLoop : Nat → Bytes → Option (Bytes × Bytes)
  | 0, _ => none
  | _, [] => none
  | fuel + 1, c :: rest =>
      if c = 34 then some ([], rest)
      else if c = 92 then do
        let (out, rest) ← escapeSequence rest
        let (later, rest) ← stringLoop fuel rest
        return (out ++ later, rest)
      else do
        let (later, rest) ← stringLoop fuel rest
        return (c :: later, rest)

def parseString (input : Bytes) : Option (Bytes × Bytes) := do
  let rest ← consume 34 input
  stringLoop rest.length rest

/-- The loops of `parse_properties` and `parse` behind a member: another one, or the end. -/
def afterMember (input : Bytes) : Option (Bool × Bytes) :=
  let rest := skipWhitespace input
  match consume 44 rest with
  | some rest => some (true, rest)
  | none => match consume 125 rest with
    | some rest => some (false, rest)
    | none => none

/-- A key, its colon, and the blanks around them. -/
def parseKey (input : Bytes) : Option (Bytes × Bytes) := do
  let (key, rest) ← parseString input
  let rest ← consume 58 (skipWhitespace rest)
  return (key, skipWhitespace rest)

def propertiesLoop : Nat → Bytes → OrderedMap Bytes Bytes → Option (OrderedMap Bytes Bytes × Bytes)
  | 0, _, _ => none
  | fuel + 1, input, props =>
      let input := skipWhitespace input
      match consume 125 input with
      | some rest => some (props, rest)
      | none => do
          let (k, rest) ← parseKey input
          let (v, rest) ← parseString rest
          let (more, rest) ← afterMember rest
          if more then propertiesLoop fuel rest (props.insert k v) else return (props.insert k v, rest)

def parseProperties (input : Bytes) (props : OrderedMap Bytes Bytes) :
    Option (OrderedMap Bytes Bytes × Bytes) := do
  let rest ← consume 123 (skipWhitespace input)
  propertiesLoop (rest.length + 1) rest props

/-- The loops of `skip_value` over a nested value with the brackets `opening` and `closing`. The depth is
an `int`, which no text below 2 GiB can fill. -/
def skipNested (opening closing : UInt8) : Nat → Nat → Bytes → Option Bytes
  | _, 0, input => some input
  | 0, _ + 1, _ => none
  | _, _ + 1, [] => none
  | fuel + 1, depth + 1, ch :: rest =>
      if ch = opening then skipNested opening closing fuel (depth + 2) rest
      else if ch = closing then skipNested opening closing fuel depth rest
      else if ch = 34 then do
        let (_, rest) ← parseString (ch :: rest)
        skipNested opening closing fuel (depth + 1) rest
      else skipNested opening closing fuel (depth + 1) rest

def skipValue (input : Bytes) : Option Bytes :=
  match skipWhitespace input with
  | [] => some []
  | c :: rest =>
      if c = 34 then (parseString (c :: rest)).map Prod.snd
      else if c = 123 then skipNested 123 125 rest.length 1 rest
      else if c = 91 then skipNested 91 93 rest.length 1 rest
      else some ((c :: rest).dropWhile fun c => c ≠ 44 ∧ c ≠ 125 ∧ c ≠ 93 ∧ !isSpace c)

/-- The value of a member, by its key. -/
def parseMember (key input : Bytes) (out : ArtifactMetadata) : Option (ArtifactMetadata × Bytes) :=
  if key = ascii "model_name" then
    (parseString input).map fun (value, rest) => ({ out with modelName := value }, rest)
  else if key = ascii "quant_scheme" then
    (parseString input).map fun (value, rest) => ({ out with quantScheme := value }, rest)
  else if key = ascii "tokenizer_type" then
    (parseString input).map fun (value, rest) => ({ out with tokenizerType := value }, rest)
  else if key = ascii "properties" then
    (parseProperties input out.properties).map fun (value, rest) => ({ out with properties := value }, rest)
  else (skipValue input).map fun rest => (out, rest)

def parseLoop : Nat → Bytes → ArtifactMetadata → Option ArtifactMetadata
  | 0, _, _ => none
  | fuel + 1, input, out =>
      let input := skipWhitespace input
      match consume 125 input with
      | some _ => some out
      | none => do
          let (key, rest) ← parseKey input
          let (out, rest) ← parseMember key rest out
          let (more, rest) ← afterMember rest
          if more then parseLoop fuel rest out else return out

def parse (input : Bytes) (out : ArtifactMetadata) : Option ArtifactMetadata := do
  let rest ← consume 123 (skipWhitespace input)
  parseLoop (rest.length + 1) rest out

end JsonParser

def fromJson (jsonStr : Bytes) : Option ArtifactMetadata := parse jsonStr blank

-- an unpaired surrogate is refused, a pair is one codepoint
example : fromJson (ascii "\x7b\"model_name\": \"\\uD83D\"\x7d") = none := by decide +kernel
example : (fromJson (ascii "\x7b\"model_name\": \"\\uD83D\\uDE00\"\x7d")).map (·.modelName) =
    some [0xF0, 0x9F, 0x98, 0x80] := by decide +kernel

section RoundTrip

theorem hexValue_hexDigit : ∀ value, value < 16 → hexValue (hexDigit value) = some value := by decide

/-- The code of a control byte as four digits. -/
theorem unicodeEscape_control {c : UInt8} (control : c < 0x20) (tail : Bytes) :
    unicodeEscape (48 :: 48 :: hexDigit (c.toNat / 16) :: hexDigit (c.toNat % 16) :: tail) =
      some ([c], tail) := by
  have small : c.toNat < 0x20 := control
  have high := hexValue_hexDigit (c.toNat / 16) (by omega)
  have low := hexValue_hexDigit (c.toNat % 16) (by omega)
  have zero : hexValue 48 = some 0 := by decide
  have value : c.toNat / 16 * 16 + c.toNat % 16 = c.toNat := by omega
  have notHigh : ¬ (0xD800 ≤ c.toNat ∧ c.toNat ≤ 0xDBFF) := by omega
  have notLow : ¬ (0xDC00 ≤ c.toNat ∧ c.toNat ≤ 0xDFFF) := by omega
  have short : c.toNat < 0x80 := by omega
  simp [unicodeEscape, hex4, zero, high, low, value, notHigh, notLow, encodeCodepoint, short]

/-- The letters of the short escapes, with what they stand for. -/
def escapeLetters : List (UInt8 × UInt8) := [(34, 34), (92, 92), (98, 8), (102, 12), (110, 10), (114, 13), (116, 9)]

/-- The three shapes in which a byte is printed. -/
theorem escapeByte_shape (c : UInt8) : (∃ e, (e, c) ∈ escapeLetters ∧ escapeByte c = [92, e]) ∨
    (c < 0x20 ∧ escapeByte c = [92, 117, 48, 48, hexDigit (c.toNat / 16), hexDigit (c.toNat % 16)]) ∨
    (c ≠ 34 ∧ c ≠ 92 ∧ 0x20 ≤ c ∧ escapeByte c = [c]) := by
  have letters : ∀ pair ∈ escapeLetters, escapeByte pair.2 = [92, pair.1] := by decide
  by_cases listed : ∃ e, (e, c) ∈ escapeLetters
  · obtain ⟨e, member⟩ := listed
    exact .inl ⟨e, member, letters _ member⟩
  · right
    simp only [escapeLetters, List.mem_cons, Prod.mk.injEq, List.not_mem_nil, or_false, exists_or, exists_eq_left,
      not_or] at listed
    obtain ⟨quote, backslash, backspace, feed, newline, carriage, tab⟩ := listed
    unfold escapeByte
    rw [if_neg quote, if_neg backslash, if_neg backspace, if_neg feed, if_neg newline, if_neg carriage, if_neg tab]
    by_cases control : c < 0x20
    · exact .inl ⟨control, if_pos control⟩
    · exact .inr ⟨quote, backslash, UInt8.not_lt.1 control, if_neg control⟩

/-- A byte is printed as itself, or as an escape that the parser reads back. -/
theorem escapeByte_cases (c : UInt8) : (c ≠ 34 ∧ c ≠ 92 ∧ escapeByte c = [c]) ∨
    ∃ body, escapeByte c = 92 :: body ∧ ∀ tail, escapeSequence (body ++ tail) = some ([c], tail) := by
  have letters : ∀ pair ∈ escapeLetters, ∀ tail, escapeSequence (pair.1 :: tail) = some ([pair.2], tail) := by
    intro pair member tail
    simp only [escapeLetters, List.mem_cons, List.not_mem_nil, or_false] at member
    rcases member with rfl | rfl | rfl | rfl | rfl | rfl | rfl <;> rfl
  rcases escapeByte_shape c with ⟨e, member, printed⟩ | ⟨control, printed⟩ | ⟨quote, backslash, -, printed⟩
  · exact Or.inr ⟨_, printed, letters _ member⟩
  · exact Or.inr ⟨_, printed, unicodeEscape_control control⟩
  · exact Or.inl ⟨quote, backslash, printed⟩

/-- One round of the loop reads what the printer wrote for one byte. -/
theorem stringLoop_escapeByte (fuel : Nat) (c : UInt8) (tail : Bytes) :
    stringLoop (fuel + 1) (escapeByte c ++ tail) =
      (stringLoop fuel tail).map fun (later, rest) => (c :: later, rest) := by
  rcases escapeByte_cases c with ⟨notQuote, notBackslash, printed⟩ | ⟨body, printed, read⟩
  · rw [printed, List.singleton_append, stringLoop, if_neg notQuote, if_neg notBackslash]
    cases stringLoop fuel tail <;> rfl
  · rw [printed, List.cons_append, stringLoop, if_neg (by decide), if_pos rfl, read]
    cases later : stringLoop fuel tail <;> simp [later]

theorem stringLoop_printed (s rest : Bytes) {fuel : Nat} (enough : s.length < fuel) :
    stringLoop fuel (s.flatMap escapeByte ++ 34 :: rest) = some (s, rest) := by
  induction s generalizing fuel with
  | nil =>
      rcases fuel with _ | fuel
      · exact absurd enough (Nat.lt_irrefl 0)
      · rfl
  | cons c s ih =>
      rcases fuel with _ | fuel
      · exact absurd enough (Nat.not_lt_zero _)
      · have later := ih (Nat.lt_of_succ_lt_succ enough)
        rw [List.flatMap_cons, List.append_assoc, stringLoop_escapeByte, later]
        rfl

theorem length_le_printed (s : Bytes) : s.length ≤ (s.flatMap escapeByte).length := by
  induction s with
  | nil => simp
  | cons c s ih =>
      have positive : 0 < (escapeByte c).length := by
        rcases escapeByte_cases c with ⟨_, _, printed⟩ | ⟨body, printed, _⟩ <;> simp [printed]
      rw [List.flatMap_cons, List.length_append, List.length_cons]
      omega

/-- Every byte string comes back from its printed form, whatever follows it. -/
theorem parseString_printed (s rest : Bytes) :
    parseString (escapeJsonString s ++ rest) = some (s, rest) := by
  have length := length_le_printed s
  have enough : s.length < (s.flatMap escapeByte ++ 34 :: rest).length := by
    rw [List.length_append, List.length_cons]
    omega
  simp only [parseString, escapeJsonString, List.cons_append, List.append_assoc, List.nil_append,
    consume, if_true]
  exact stringLoop_printed s rest enough

theorem skipWhitespace_quoted {lead : Bytes} (blank : ∀ c ∈ lead, isSpace c = true) (s rest : Bytes) :
    skipWhitespace (lead ++ (escapeJsonString s ++ rest)) = escapeJsonString s ++ rest := by
  rw [skipWhitespace, List.dropWhile_append_of_pos blank]
  rfl

/-- A printed key with its colon. -/
theorem parseKey_printed (key rest : Bytes) :
    parseKey (escapeJsonString key ++ (ascii ": " ++ rest)) = some (key, skipWhitespace rest) := by
  have colon : ascii ": " = [58, 32] := by decide
  rw [parseKey, parseString_printed, colon]
  rfl

/-- The lines of the properties, one entry at a time. -/
theorem propertyLines_cons (k v : Bytes) (rest : List (Bytes × Bytes)) (tail : Bytes) :
    propertyLines ((k, v) :: rest) ++ tail =
      ascii "    " ++ (escapeJsonString k ++ (ascii ": " ++ (escapeJsonString v ++
        ((if rest = [] then [] else 44 :: 10 :: propertyLines rest) ++ tail)))) := by
  have comma : ascii ",\n" = [44, 10] := by decide
  cases rest <;> simp [propertyLines, comma]

theorem propertiesLoop_printed (entries : List (Bytes × Bytes)) {fuel : Nat}
    (enough : entries.length < fuel) (props : OrderedMap Bytes Bytes) (rest : Bytes) :
    propertiesLoop fuel (10 :: (propertyLines entries ++ 10 :: 32 :: 32 :: 125 :: rest)) props =
      some (entries.foldl (fun props entry => props.insert entry.1 entry.2) props, rest) := by
  induction entries generalizing fuel props with
  | nil =>
      rcases fuel with _ | fuel
      · exact absurd enough (Nat.lt_irrefl 0)
      · rfl
  | cons entry entries ih =>
      obtain ⟨k, v⟩ := entry
      rcases fuel with _ | fuel
      · exact absurd enough (Nat.not_lt_zero _)
      · have blank : ∀ c ∈ 10 :: ascii "    ", isSpace c = true := by decide
        have lead := skipWhitespace_quoted blank k
        have unclosed : ∀ tail, consume 125 (escapeJsonString k ++ tail) = none := fun _ => rfl
        rw [propertyLines_cons, propertiesLoop]
        simp only [List.cons_append] at lead ⊢
        have value : ∀ tail, skipWhitespace (escapeJsonString v ++ tail) = escapeJsonString v ++ tail :=
          fun _ => rfl
        rw [lead, unclosed, parseKey_printed]
        simp only [Option.bind_eq_bind, Option.bind_some, value, parseString_printed]
        -- Behind the last value a line break and the bracket follow, else a comma and the next line.
        cases entries with
        | nil => rfl
        | cons next entries =>
            have later := ih (Nat.lt_of_succ_lt_succ enough) (props.insert k v)
            exact later

/-- Every entry has a line, so the length of the text is fuel enough. -/
theorem length_le_propertyLines (entries : List (Bytes × Bytes)) :
    entries.length ≤ (propertyLines entries).length := by
  induction entries with
  | nil => exact Nat.le_refl _
  | cons entry entries ih =>
      have lead : (ascii "    ").length = 4 := by decide
      have shape := congrArg List.length (propertyLines_cons entry.1 entry.2 entries [])
      simp only [List.append_nil, List.length_append, lead] at shape
      rw [shape, List.length_cons]
      by_cases last : entries = []
      · rw [last, List.length_nil]
        omega
      · rw [if_neg last, List.length_cons, List.length_cons]
        omega

theorem foldl_insert_entries (entries : List (Bytes × Bytes)) (start : OrderedMap Bytes Bytes) :
    (entries.foldl (fun props entry => props.insert entry.1 entry.2) start).entries =
      entries.foldl (fun entries entry => insertEntry entry.1 entry.2 entries) start.entries := by
  induction entries generalizing start with
  | nil => rfl
  | cons entry entries ih => exact ih (start.insert entry.1 entry.2)

/-- A map comes back from its lines. -/
theorem parseProperties_printed (props : OrderedMap Bytes Bytes) (rest : Bytes) :
    parseProperties (123 :: 10 :: (propertyLines props.entries ++ 10 :: 32 :: 32 :: 125 :: rest)) .empty =
      some (props, rest) := by
  have same : props.entries.foldl (fun props entry => props.insert entry.1 entry.2) .empty = props := by
    apply OrderedMap.ext
    rw [foldl_insert_entries]
    exact foldl_insertEntry [] props.entries props.sorted
  have enough := length_le_propertyLines props.entries
  rw [parseProperties]
  have opened : consume 123 (skipWhitespace (123 :: 10 :: (propertyLines props.entries ++
      10 :: 32 :: 32 :: 125 :: rest))) =
        some (10 :: (propertyLines props.entries ++ 10 :: 32 :: 32 :: 125 :: rest)) := rfl
  rw [opened]
  simp only [Option.bind_eq_bind, Option.bind_some]
  rw [propertiesLoop_printed props.entries _ .empty rest, same]
  simp only [List.length_cons, List.length_append]
  omega

/-- A member on its own line. -/
def memberLine (key tail : Bytes) : Bytes :=
  (10 :: ascii "  ") ++ (escapeJsonString key ++ (ascii ": " ++ tail))

theorem memberLine_append (key tail rest : Bytes) :
    memberLine key tail ++ rest = memberLine key (tail ++ rest) := by simp [memberLine]

/-- The text between the values, member by member. -/
theorem toJson_members (m : ArtifactMetadata) :
    toJson m = 123 :: memberLine (ascii "model_name") (escapeJsonString m.modelName ++
      44 :: memberLine (ascii "quant_scheme") (escapeJsonString m.quantScheme ++
        44 :: memberLine (ascii "tokenizer_type") (escapeJsonString m.tokenizerType ++
          44 :: memberLine (ascii "properties") (123 :: 10 :: (propertyLines m.properties.entries ++
            10 :: 32 :: 32 :: 125 :: ascii "\n\x7d"))))) := by
  have first : ∀ tail, ascii "\x7b\n" ++ (ascii "  \"model_name\": " ++ tail) =
      123 :: memberLine (ascii "model_name") tail := fun _ => by rfl
  have second : ∀ tail, ascii ",\n  \"quant_scheme\": " ++ tail =
      44 :: memberLine (ascii "quant_scheme") tail := fun _ => by rfl
  have third : ∀ tail, ascii ",\n  \"tokenizer_type\": " ++ tail =
      44 :: memberLine (ascii "tokenizer_type") tail := fun _ => by rfl
  have fourth : ∀ tail, ascii ",\n  \"properties\": \x7b\n" ++ tail =
      44 :: memberLine (ascii "properties") (123 :: 10 :: tail) := fun _ => by rfl
  have last : ascii "\n  \x7d\n\x7d" = 10 :: 32 :: 32 :: 125 :: ascii "\n\x7d" := by rfl
  simp only [toJson, List.append_assoc, first, second, third, fourth, last, List.cons_append,
    memberLine_append]

/-- One round of the loop over a member on its own line. -/
theorem parseLoop_line (fuel : Nat) (key value : Bytes) (out : ArtifactMetadata)
    (apart : skipWhitespace value = value) :
    parseLoop (fuel + 1) (memberLine key value) out = (parseMember key value out).bind fun read =>
      (afterMember read.2).bind fun next => if next.1 then parseLoop fuel next.2 read.1 else some read.1 := by
  have blank : ∀ c ∈ 10 :: ascii "  ", isSpace c = true := by decide
  have unclosed : ∀ tail, consume 125 (escapeJsonString key ++ tail) = none := fun _ => rfl
  rw [parseLoop, memberLine]
  simp only [skipWhitespace_quoted blank]
  rw [unclosed, parseKey_printed, apart]
  rfl

/-- A member whose value is read up to a comma. -/
theorem parseLoop_member (fuel : Nat) (key value rest : Bytes) {out after : ArtifactMetadata}
    (apart : skipWhitespace value = value) (read : parseMember key value out = some (after, 44 :: rest)) :
    parseLoop (fuel + 1) (memberLine key value) out = parseLoop fuel rest after := by
  rw [parseLoop_line fuel key value out apart, read]
  rfl

/-- The member whose value is followed by the closing bracket. -/
theorem parseLoop_last (fuel : Nat) (key value rest : Bytes) {out after : ArtifactMetadata}
    (apart : skipWhitespace value = value) (read : parseMember key value out = some (after, 10 :: 125 :: rest)) :
    parseLoop (fuel + 1) (memberLine key value) out = some after := by
  rw [parseLoop_line fuel key value out apart, read]
  rfl

/-- The three string members, then the map, then the closing bracket. -/
theorem parse_toJson (m : ArtifactMetadata) : parse (toJson m) blank = some m := by
  have opened : ∀ rest, consume 123 (skipWhitespace (123 :: rest)) = some rest := fun _ => rfl
  have fuelled : ∀ key tail, ∃ fuel, (memberLine key tail).length + 1 = fuel + 1 + 1 + 1 + 1 := by
    intro key tail
    exact ⟨(ascii "  " ++ (escapeJsonString key ++ (ascii ": " ++ tail))).length - 2, by
      have lead : (ascii "  ").length = 2 := by decide
      simp only [memberLine, List.length_append, List.length_cons, lead]
      omega⟩
  have string : ∀ s tail, skipWhitespace (escapeJsonString s ++ tail) = escapeJsonString s ++ tail :=
    fun _ _ => rfl
  rw [parse, toJson_members, opened]
  simp only [Option.bind_eq_bind, Option.bind_some]
  obtain ⟨fuel, enough⟩ := fuelled (ascii "model_name") (escapeJsonString m.modelName ++
    44 :: memberLine (ascii "quant_scheme") (escapeJsonString m.quantScheme ++
      44 :: memberLine (ascii "tokenizer_type") (escapeJsonString m.tokenizerType ++
        44 :: memberLine (ascii "properties") (123 :: 10 :: (propertyLines m.properties.entries ++
          10 :: 32 :: 32 :: 125 :: ascii "\n\x7d")))))
  rw [enough]
  rw [parseLoop_member _ _ _ _ (string _ _) (by rw [parseMember, if_pos rfl, parseString_printed]; rfl)]
  rw [parseLoop_member _ _ _ _ (string _ _) (by
    rw [parseMember, if_neg (by decide), if_pos rfl, parseString_printed]; rfl)]
  rw [parseLoop_member _ _ _ _ (string _ _) (by
    rw [parseMember, if_neg (by decide), if_neg (by decide), if_pos rfl, parseString_printed]; rfl)]
  rw [parseLoop_last _ _ _ [] rfl (by
    rw [parseMember, if_neg (by decide), if_neg (by decide), if_neg (by decide), if_pos rfl,
      show (blank.properties : OrderedMap Bytes Bytes) = .empty from rfl, parseProperties_printed]; rfl)]

end RoundTrip

/-- Printed metadata is read back, byte for byte. -/
theorem fromJson_toJson (m : ArtifactMetadata) : fromJson (toJson m) = some m := parse_toJson m

end XInfer.MetadataJson
