import XInfer.Tokenizer

/-!
The JSON scanners of `targets/qwen3_8/tokenizer.cpp`. A pointer into the buffer is
the text from there to `end`; a scanner answers what is left when it returns, also
when it fails. A read of four hex digits goes through `strtoul`, so it takes blanks,
a sign and a `0x` as well.
-/

namespace XInfer.TokenizerJson

open Primitives ByteString Tokenizer

def skipWhitespace (text : Bytes) : Bytes := text.dropWhile isBlank

/-- `isspace` of the C locale. -/
def isSpace (c : UInt8) : Bool := c == 32 || (decide (9 ≤ c) && decide (c ≤ 13))

def hexValue (c : UInt8) : Option Nat :=
  if 48 ≤ c ∧ c ≤ 57 then some (c.toNat - 48)
  else if 65 ≤ c ∧ c ≤ 70 then some (c.toNat - 55)
  else if 97 ≤ c ∧ c ≤ 102 then some (c.toNat - 87)
  else none

def hexDigits : Bytes → Nat → Nat
  | [], value => value
  | c :: rest, value => match hexValue c with
      | none => value
      | some digit => hexDigits rest (value * 16 + digit)

/-- `strtoul(hex, _, 16)` as a `uint32_t`. -/
def strtoul16 (hex : Bytes) : Nat :=
  let text := hex.dropWhile isSpace
  let signed := match text with
    | c :: rest => if c = 45 then (true, rest) else if c = 43 then (false, rest) else (false, text)
    | [] => (false, [])
  let digits := match signed.2 with
    | zero :: x :: rest => if zero = 48 ∧ (x = 120 ∨ x = 88) then rest else signed.2
    | _ => signed.2
  let value := hexDigits digits 0
  if signed.1 then (2 ^ 32 - value) % 2 ^ 32 else value

/-- The low half of a surrogate pair, when the text goes on with one. -/
def lowSurrogate : Bytes → Option (Nat × Bytes)
  | backslash :: u :: a :: b :: c :: d :: rest =>
      let cp := strtoul16 [a, b, c, d]
      if backslash = 92 ∧ u = 117 ∧ 0xDC00 ≤ cp ∧ cp ≤ 0xDFFF then some (cp, rest) else none
  | _ => none

/-- The branch of `\u` with its digits and what follows them. -/
def unicodeEscape (digits rest : Bytes) : Bytes × Bytes :=
  let cp := strtoul16 digits
  if 0xD800 ≤ cp ∧ cp ≤ 0xDBFF then match lowSurrogate rest with
    | some (low, after) =>
        (codepointToUtf8 (0x10000 + (((cp - 0xD800) <<< 10) ||| (low - 0xDC00))), after)
    | none => (codepointToUtf8 cp, rest)
  else (codepointToUtf8 cp, rest)

/-- What one turn of the string loop appends, and the text after it. A backslash
that opens no escape is copied. -/
def stringPiece (byte : UInt8) (rest : Bytes) : Bytes × Bytes :=
  if byte = 92 then match rest with
    | [] => ([byte], rest)
    | next :: after =>
        if next = 34 ∨ next = 92 ∨ next = 47 then ([next], after)
        else if next = 98 then ([8], after)
        else if next = 102 then ([12], after)
        else if next = 110 then ([10], after)
        else if next = 114 then ([13], after)
        else if next = 116 then ([9], after)
        else match next, after with
          | 117, a :: b :: c :: d :: beyond => unicodeEscape [a, b, c, d] beyond
          | _, _ => ([byte], rest)
  else ([byte], rest)

/-- A scanner's answer: success, what it wrote, and the text it stopped at. -/
structure Scanned (α : Type) where
  ok : Bool
  out : α
  rest : Bytes
  deriving DecidableEq

def stringLoop : Nat → Bytes → Bytes → Scanned Bytes
  | _, [], out => ⟨false, out, []⟩
  | 0, text, out => ⟨false, out, text⟩
  | fuel + 1, byte :: rest, out =>
      if byte = 34 then ⟨true, out, rest⟩
      else stringLoop fuel (stringPiece byte rest).2 (out ++ (stringPiece byte rest).1)

/-- `out` is what the caller's string held: it stays when no quote opens. -/
def parseJsonString (text out : Bytes) : Scanned Bytes :=
  match skipWhitespace text with
  | [] => ⟨false, out, []⟩
  | byte :: rest =>
      if byte = 34 then stringLoop rest.length rest [] else ⟨false, out, byte :: rest⟩

def isDigit (c : UInt8) : Bool := decide (48 ≤ c) && decide (c ≤ 57)

/-- An `int64_t` as the compiled arithmetic leaves it. -/
def int64 (value : Int) : Int := (value + 2 ^ 63) % 2 ^ 64 - 2 ^ 63

def digitValue (digits : Bytes) : Nat := digits.foldl (fun value c => value * 10 + (c.toNat - 48)) 0

def parseJsonInt64 (text : Bytes) (out : Int) : Scanned Int :=
  let start := skipWhitespace text
  let neg := start.head? = some 45
  let digits := if neg then start.drop 1 else start
  if digits.takeWhile isDigit = [] then ⟨false, out, digits⟩
  else
    let value := int64 (digitValue (digits.takeWhile isDigit))
    ⟨true, int64 (if neg then -value else value), digits.dropWhile isDigit⟩

/-- The depth counter of an object or an array. -/
def skipNested (opening closing : UInt8) : Nat → Nat → Bytes → Scanned Unit
  | _, 0, text => ⟨true, (), text⟩
  | _, _, [] => ⟨false, (), []⟩
  | 0, _, text => ⟨false, (), text⟩
  | fuel + 1, depth + 1, byte :: rest =>
      if byte = 34 then
        let string := parseJsonString (byte :: rest) []
        if string.ok then skipNested opening closing fuel (depth + 1) string.rest
        else ⟨false, (), string.rest⟩
      else if byte = opening then skipNested opening closing fuel (depth + 2) rest
      else if byte = closing then skipNested opening closing fuel depth rest
      else skipNested opening closing fuel (depth + 1) rest

def endsAtom (c : UInt8) : Bool := c == 44 || c == 125 || c == 93 || isBlank c

def skipJsonValue (text : Bytes) : Scanned Unit :=
  match skipWhitespace text with
  | [] => ⟨false, (), []⟩
  | byte :: rest =>
      if byte = 34 then
        let string := parseJsonString (byte :: rest) []
        ⟨string.ok, (), string.rest⟩
      else if byte = 123 then skipNested 123 125 rest.length 1 rest
      else if byte = 91 then skipNested 91 93 rest.length 1 rest
      else ⟨true, (), (byte :: rest).dropWhile fun c => !endsAtom c⟩

/-- The colon and the bracket after a section key. -/
def opened (opening : UInt8) (text : Bytes) : Option Bytes :=
  match skipWhitespace text with
  | [] => none
  | colon :: rest =>
      if colon = 58 then match skipWhitespace rest with
        | [] => none
        | byte :: body => if byte = opening then some body else none
      else none

/-- `strstr(start, key)` for a key in quotes, and its value's bracket. The search ends
at a zero byte. One that leaves the buffer finds a key that starts in its last bytes or
after them, where no colon follows. -/
def sectionBody (key : Bytes) (opening : UInt8) (buffer : Bytes) : Option Bytes :=
  (find (34 :: (key ++ [34])) (buffer.takeWhile (· ≠ 0))).bind fun pos =>
    opened opening (buffer.drop (pos + key.length + 2))

/-- The locals of one object of `added_tokens`. -/
structure AddedFields where
  tokId : Int
  tokContent : Bytes
  hasId : Bool
  hasContent : Bool
  deriving DecidableEq

def AddedFields.start : AddedFields := ⟨-1, [], false, false⟩

/-- The value after a member's colon. -/
def addedValue (key text : Bytes) (fields : AddedFields) : AddedFields × Bytes :=
  if key = ascii "id" then
    let id := parseJsonInt64 text fields.tokId
    ({ fields with tokId := id.out, hasId := fields.hasId || id.ok }, id.rest)
  else if key = ascii "content" then
    let content := parseJsonString text fields.tokContent
    ({ fields with tokContent := content.out, hasContent := fields.hasContent || content.ok },
      content.rest)
  else (fields, (skipJsonValue text).rest)

def addedObject : Nat → Bytes → AddedFields → AddedFields × Bytes
  | 0, text, fields => (fields, text)
  | fuel + 1, text, fields => match skipWhitespace text with
      | [] => (fields, [])
      | byte :: rest =>
          if byte = 125 then (fields, byte :: rest)
          else if byte = 44 then addedObject fuel rest fields
          else
            let key := parseJsonString (byte :: rest) []
            if key.ok then match skipWhitespace key.rest with
              | [] => (fields, [])
              | colon :: value =>
                  if colon = 58 then
                    let after := addedValue key.out (skipWhitespace value) fields
                    addedObject fuel after.2 after.1
                  else addedObject fuel (colon :: value) fields
            else (fields, key.rest)

/-- The tokens of the array, in order, with their ids. -/
def addedLoop : Nat → Bytes → List (Bytes × Int)
  | 0, _ => []
  | fuel + 1, text => match skipWhitespace text with
      | [] => []
      | byte :: rest =>
          if byte = 93 then []
          else if byte = 123 then
            let object := addedObject rest.length rest .start
            let beyond := if object.2.head? = some 125 then object.2.drop 1 else object.2
            if object.1.hasId ∧ object.1.hasContent then
              (object.1.tokContent, object.1.tokId) :: addedLoop fuel beyond
            else addedLoop fuel beyond
          else addedLoop fuel rest

def vocabLoop : Nat → Bytes → List (Bytes × Int)
  | 0, _ => []
  | fuel + 1, text => match skipWhitespace text with
      | [] => []
      | byte :: rest =>
          if byte = 125 then []
          else if byte = 44 then vocabLoop fuel rest
          else
            let token := parseJsonString (byte :: rest) []
            if token.ok then match skipWhitespace token.rest with
              | [] => []
              | colon :: value =>
                  if colon = 58 then
                    let id := parseJsonInt64 value 0
                    if id.ok then (token.out, id.out) :: vocabLoop fuel id.rest
                    else vocabLoop fuel id.rest
                  else vocabLoop fuel (colon :: value)
            else []

def mergesLoop : Nat → Bytes → List Bytes
  | 0, _ => []
  | fuel + 1, text => match skipWhitespace text with
      | [] => []
      | byte :: rest =>
          if byte = 93 then []
          else if byte = 44 then mergesLoop fuel rest
          else
            let merge := parseJsonString (byte :: rest) []
            if merge.ok then merge.out :: mergesLoop fuel merge.rest else []

/-- What a buffer lists under one of the keys. -/
def listed {α : Type} (key : Bytes) (opening : UInt8) (loop : Nat → Bytes → List α)
    (buffer : Bytes) : List α :=
  match sectionBody key opening buffer with
  | none => []
  | some body => loop body.length body

def addedTokens (buffer : Bytes) : List (Bytes × Int) := listed (ascii "added_tokens") 91 addedLoop buffer
def vocabulary (buffer : Bytes) : List (Bytes × Int) := listed (ascii "vocab") 123 vocabLoop buffer
def merges (buffer : Bytes) : List Bytes := listed (ascii "merges") 91 mergesLoop buffer

end XInfer.TokenizerJson
