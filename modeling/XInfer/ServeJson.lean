import XInfer.ByteString
import XInfer.MetadataJson
import XInfer.FloatFormat
import XInfer.JsonGrammar

/-!
The JSON side of `serve/protocol.cpp`: the escaper, the document tree and the parser behind
`parse_json`. The parser keeps the text that is still to be read where the source keeps a position
in it. Its escapes are those of the artifact metadata, with error texts and one leniency of its
own: an escape it does not know stands for its letter.
-/

namespace XInfer.ServeJson

open Primitives JsonGrammar
open MetadataJson (hex4 encodeCodepoint)

/-- `JsonValue`: the fields that its type does not select are left out. -/
abbrev JsonValue := JsonGrammar.Tree Rat

section Lookup

/-- The first member of the name. -/
def find (key : Bytes) : JsonValue → Option JsonValue
  | .object members => members.lookup key
  | _ => none

def getString (value : JsonValue) (key : Bytes) (fallback : Bytes := []) : Bytes :=
  match find key value with
  | some (.string s) => s
  | _ => fallback

def getDouble (value : JsonValue) (key : Bytes) (fallback : Rat) : Rat :=
  match find key value with
  | some (.number x) => x
  | _ => fallback

def getBool (value : JsonValue) (key : Bytes) (fallback : Bool) : Bool :=
  match find key value with
  | some (.bool b) => b
  | _ => fallback

end Lookup

/-- `escape_json_string` of an empty `out`; the source has the printer of the metadata twice. -/
def escapeJsonString (str : Bytes) : Bytes := MetadataJson.escapeJsonString str

section Strings

def skipWhitespace (input : Bytes) : Bytes := input.dropWhile isBlank

/-- `consume`: the blanks before a mismatch are skipped again by whoever reads next. -/
def consume (expected : UInt8) (input : Bytes) : Option Bytes :=
  match skipWhitespace input with
  | [] => none
  | c :: rest => if c = expected then some rest else none

/-- The codepoint of a surrogate pair whose first half is `high`. -/
def surrogatePair (high : Nat) : Bytes → Except Bytes (Nat × Bytes)
  | 92 :: 117 :: pair =>
      if pair.length < 4 then .error (ascii "Expected UTF-16 low surrogate after high surrogate")
      else match hex4 pair with
        | none => .error (ascii "Invalid hex digit in low surrogate")
        | some (low, rest) =>
            if 0xDC00 ≤ low ∧ low ≤ 0xDFFF then
              .ok (0x10000 + (high - 0xD800) * 2 ^ 10 + (low - 0xDC00), rest)
            else .error (ascii "Invalid UTF-16 low surrogate in unicode escape")
  | _ => .error (ascii "Expected UTF-16 low surrogate after high surrogate")

def encoded (cp : Nat) (rest : Bytes) : Except Bytes (Bytes × Bytes) :=
  match encodeCodepoint cp with
  | some bytes => .ok (bytes, rest)
  | none => .error (ascii "Unicode code point out of range")

/-- Behind `\u`. -/
def unicodeEscape (input : Bytes) : Except Bytes (Bytes × Bytes) :=
  if input.length < 4 then .error (ascii "Invalid unicode escape")
  else match hex4 input with
    | none => .error (ascii "Invalid hex digit in unicode escape")
    | some (cp, rest) =>
        if 0xD800 ≤ cp ∧ cp ≤ 0xDBFF then do
          let (cp, rest) ← surrogatePair cp rest
          encoded cp rest
        else if 0xDC00 ≤ cp ∧ cp ≤ 0xDFFF then
          .error (ascii "Unpaired UTF-16 low surrogate in unicode escape")
        else encoded cp rest

/-- The byte of an escape other than `\u`. -/
def escapedByte (esc : UInt8) : UInt8 :=
  if esc = 98 then 8
  else if esc = 102 then 12
  else if esc = 110 then 10
  else if esc = 114 then 13
  else if esc = 116 then 9
  else esc

/-- Behind a backslash. -/
def escapeSequence : Bytes → Except Bytes (Bytes × Bytes)
  | [] => .error (ascii "Unexpected EOF in string escape")
  | esc :: rest => if esc = 117 then unicodeEscape rest else .ok ([escapedByte esc], rest)

/-- The loop of `parse_string`; each round reads at least one byte. -/
def stringLoop : Nat → Bytes → Except Bytes (Bytes × Bytes)
  | 0, _ => .error (ascii "Unterminated string in JSON")
  | _, [] => .error (ascii "Unterminated string in JSON")
  | fuel + 1, c :: rest =>
      if c = 34 then .ok ([], rest)
      else if c = 92 then do
        let (out, rest) ← escapeSequence rest
        let (later, rest) ← stringLoop fuel rest
        return (out ++ later, rest)
      else do
        let (later, rest) ← stringLoop fuel rest
        return (c :: later, rest)

def parseString : Bytes → Except Bytes (Bytes × Bytes)
  | [] => .error (ascii "Expected '\"'")
  | c :: rest => if c = 34 then stringLoop rest.length rest else .error (ascii "Expected '\"'")

end Strings

section Numbers

variable (reportsUnderflow : Rat → Bool)

def digitValue (digits : Bytes) : Nat := digits.foldl (fun value c => value * 10 + (c.toNat - 48)) 0

/-- The digits of an exponent with its sign; none count as zero. -/
def exponentValue (text : Bytes) : Int :=
  match text with
  | [] => 0
  | c :: rest =>
      if c = 45 then -(digitValue (rest.takeWhile isDigit) : Int)
      else if c = 43 then digitValue (rest.takeWhile isDigit)
      else digitValue (text.takeWhile isDigit)

/-- The exact value of the longest decimal number that the text begins with. -/
def decimalValue (text : Bytes) : Rat :=
  let negative := text.head? = some 45
  let unsigned := if negative then text.drop 1 else text
  let whole := unsigned.takeWhile isDigit
  let afterWhole := unsigned.dropWhile isDigit
  let fraction := if afterWhole.head? = some 46 then (afterWhole.drop 1).takeWhile isDigit else []
  let afterFraction := if afterWhole.head? = some 46 then (afterWhole.drop 1).dropWhile isDigit
    else afterWhole
  let exponent := if afterFraction.head? = some 101 ∨ afterFraction.head? = some 69
    then exponentValue (afterFraction.drop 1) else 0
  let magnitude := (digitValue (whole ++ fraction) : Rat) * 10 ^ (exponent - fraction.length)
  if negative then -magnitude else magnitude

/-- `std::stod` of a text that begins with a decimal number; `none` is `out_of_range`. -/
def stod (text : Bytes) : Option Rat := FloatFormat.strtod reportsUnderflow (decimalValue text)

/-- The sign of an exponent is passed over. -/
def skipSign : Bytes → Bytes
  | [] => []
  | c :: rest => if c = 43 ∨ c = 45 then rest else c :: rest

/-- What `parse_number` leaves behind the digits of the integer part. -/
def skipFraction : Bytes → Bytes
  | [] => []
  | c :: rest => if c = 46 then rest.dropWhile isDigit else c :: rest

def skipExponent : Bytes → Bytes
  | [] => []
  | c :: rest => if c = 101 ∨ c = 69 then (skipSign rest).dropWhile isDigit else c :: rest

def parseNumber (input : Bytes) : Except Bytes (Rat × Bytes) :=
  let unsigned := if input.head? = some 45 then input.drop 1 else input
  if (unsigned.head?.map isDigit).getD false then
    let rest := skipExponent (skipFraction (unsigned.dropWhile isDigit))
    let numStr := input.take (input.length - rest.length)
    match stod reportsUnderflow numStr with
    | some x => .ok (x, rest)
    | none => .error (ascii "Failed to convert number: " ++ numStr)
  else .error (ascii "Invalid number format")

end Numbers

section Values

variable (reportsUnderflow : Rat → Bool)

def parseBool (input : Bytes) : Except Bytes (Bool × Bytes) :=
  if input.take 4 = ascii "true" then .ok (true, input.drop 4)
  else if input.take 5 = ascii "false" then .ok (false, input.drop 5)
  else .error (ascii "Invalid boolean literal")

def parseNull (input : Bytes) : Except Bytes Bytes :=
  if input.take 4 = ascii "null" then .ok (input.drop 4) else .error (ascii "Invalid null literal")

/-- The loops of `parse_object` and `parse_array` behind the first bracket of a list that is not
empty. -/
def commaLoop {α : Type} (item : Bytes → Except Bytes (α × Bytes)) (closing : UInt8) (missing : Bytes) :
    Nat → Bytes → Except Bytes (List α × Bytes)
  | 0, _ => .error missing
  | fuel + 1, input => do
      let (x, rest) ← item input
      match consume closing rest with
      | some rest => return ([x], rest)
      | none => match consume 44 rest with
        | some rest => do
            let (xs, rest) ← commaLoop item closing missing fuel rest
            return (x :: xs, rest)
        | none => .error missing

/-- One round of `parse_object` up to the separator. -/
def parseMember (value : Bytes → Except Bytes (JsonValue × Bytes)) (input : Bytes) :
    Except Bytes ((Bytes × JsonValue) × Bytes) :=
  let input := skipWhitespace input
  if input.head? = some 34 then do
    let (key, rest) ← parseString input
    match consume 58 rest with
    | none => .error (ascii "Expected ':' after object key")
    | some rest => do
        let (x, rest) ← value rest
        return ((key, x), rest)
  else .error (ascii "Expected string key in object")

/-- `parse_array` and `parse_object` behind their first bracket. -/
def parseList {α : Type} (item : Bytes → Except Bytes (α × Bytes)) (closing : UInt8) (missing : Bytes)
    (input : Bytes) : Except Bytes (List α × Bytes) :=
  match consume closing input with
  | some rest => .ok ([], rest)
  | none => commaLoop item closing missing (input.length + 1) input

/-- `parse_value` on inputs that nest at most `depth` deep; `peek` is a zero at the end. -/
def parseValue : Nat → Bytes → Except Bytes (JsonValue × Bytes)
  | 0, _ => .error (ascii "Nested too deeply")
  | depth + 1, input =>
      let input := skipWhitespace input
      let c := input.headD 0
      if c = 123 then do
        let (members, rest) ← parseList (parseMember (parseValue depth)) 125
          (ascii "Expected ',' or '\x7d' in object") (input.drop 1)
        return (.object members, rest)
      else if c = 91 then do
        let (elements, rest) ← parseList (parseValue depth) 93
          (ascii "Expected ',' or ']' in array") (input.drop 1)
        return (.array elements, rest)
      else if c = 34 then do
        let (s, rest) ← parseString input
        return (.string s, rest)
      else if c = 116 ∨ c = 102 then do
        let (b, rest) ← parseBool input
        return (.bool b, rest)
      else if c = 110 then do
        let rest ← parseNull input
        return (.null, rest)
      else if c = 45 ∨ isDigit c = true then do
        let (x, rest) ← parseNumber reportsUnderflow input
        return (.number x, rest)
      else .error (ascii "Unexpected character in JSON: '" ++ [c] ++ ascii "'")

/-- `parse_json`: no text nests deeper than it is long. -/
def parseJson (input : Bytes) : Except Bytes JsonValue :=
  if skipWhitespace input = [] then .error (ascii "Empty JSON input")
  else do
    let (value, rest) ← parseValue reportsUnderflow (input.length + 1) input
    if skipWhitespace rest = [] then return value
    else .error (ascii "Unexpected trailing characters after JSON")

end Values

end XInfer.ServeJson
