import XInfer.ServeJson
import Mathlib.Data.List.TakeWhile

/-!
`std::stoi`, `std::stoll` and `std::stof`: blanks, a sign, and the longest number that follows. What stands
behind the number is not looked at. A `float` is its rational value, an infinity, or no number.
-/

namespace XInfer.NumberText

open Primitives JsonGrammar FloatFormat
open MetadataJson (isSpace hexValue)
open ServeJson (digitValue decimalValue exponentValue)

/-- `std::invalid_argument` and `std::out_of_range`. -/
inductive ParseFailure where
  | invalidArgument
  | outOfRange
  deriving DecidableEq

/-- Whether a minus sign stands in front, and what is behind the sign. -/
def takeSign : Bytes → Bool × Bytes
  | [] => (false, [])
  | c :: rest => if c = 45 then (true, rest) else if c = 43 then (false, rest) else (false, c :: rest)

section Integers

/-- A decimal integer between two limits. -/
def parseInteger (low high : Int) (text : Bytes) : Except ParseFailure Int :=
  let (negative, rest) := takeSign (text.dropWhile isSpace)
  let digits := rest.takeWhile isDigit
  if digits = [] then .error .invalidArgument
  else
    let value : Int := if negative then -(digitValue digits : Int) else digitValue digits
    if value < low ∨ high < value then .error .outOfRange else .ok value

def stoi (text : Bytes) : Except ParseFailure Int := parseInteger (-2 ^ 31) (2 ^ 31 - 1) text
def stoll (text : Bytes) : Except ParseFailure Int := parseInteger (-2 ^ 63) (2 ^ 63 - 1) text

end Integers

section Floats

inductive FloatValue where
  | finite (value : Rat)
  | infinite (negative : Bool)
  | notANumber

def toLower (c : UInt8) : UInt8 := if 65 ≤ c ∧ c ≤ 90 then c + 32 else c

/-- A digit, or a point and a digit. -/
def startsNumber (digit : UInt8 → Bool) : Bytes → Bool
  | [] => false
  | [c] => digit c
  | c :: d :: _ => digit c || (c == 46 && digit d)

/-- A hexadecimal number with its binary exponent, behind the `0x`. -/
def hexFloat (text : Bytes) : Rat :=
  let whole := text.takeWhile isHexDigit
  let afterWhole := text.dropWhile isHexDigit
  let point := afterWhole.head? = some 46
  let fraction := if point then (afterWhole.drop 1).takeWhile isHexDigit else []
  let afterFraction := if point then (afterWhole.drop 1).dropWhile isHexDigit else afterWhole
  let exponent := if afterFraction.head? = some 112 then exponentValue (afterFraction.drop 1) else 0
  let digits := (whole ++ fraction).foldl (fun value c => value * 16 + (hexValue c).getD 0) 0
  (digits : Rat) * 2 ^ (exponent - 4 * fraction.length)

/-- `strtof` of an exact value; the report of an underflow is the library's choice. -/
def strtof (reportsUnderflow : Rat → Bool) (x : Rat) : Except ParseFailure FloatValue :=
  if 2 ^ binary32.limit ≤ |nearest binary32 x| then .error .outOfRange
  else if x ≠ 0 ∧ |x| < (2 ^ 126)⁻¹ ∧ reportsUnderflow x = true then .error .outOfRange
  else .ok (.finite (nearest binary32 x))

def stof (reportsUnderflow : Rat → Bool) (text : Bytes) : Except ParseFailure FloatValue :=
  let (negative, body) := takeSign (text.dropWhile isSpace)
  let signed := fun x : Rat => if negative then -x else x
  let lower := body.map toLower
  if [105, 110, 102] <+: lower then .ok (.infinite negative)
  else if [110, 97, 110] <+: lower then .ok .notANumber
  else if [48, 120] <+: lower ∧ startsNumber isHexDigit (lower.drop 2) = true then
    strtof reportsUnderflow (signed (hexFloat (lower.drop 2)))
  else if startsNumber isDigit body = true then strtof reportsUnderflow (signed (decimalValue body))
  else .error .invalidArgument

/-- Six places behind the point. -/
def fixedSix (x : Rat) : Bytes :=
  let scaled := (roundHalfEven (|x| * 10 ^ 6)).toNat
  let places := decimal (scaled % 10 ^ 6)
  (if x < 0 then [45] else []) ++ decimal (scaled / 10 ^ 6) ++ [46] ++
    List.replicate (6 - places.length) 48 ++ places

/-- `std::to_string` of a `float`. -/
def floatText : FloatValue → Bytes
  | .finite value => fixedSix value
  | .infinite negative => if negative then ascii "-inf" else ascii "inf"
  | .notANumber => ascii "nan"

end Floats

section Plain

def plainDigits (digits : Bytes) : Option Nat :=
  if digits ≠ [] ∧ ∀ c ∈ digits, isDigit c = true then some (digitValue digits) else none

/-- The value of a text that is a minus sign or nothing, and digits. -/
def plainDecimal : Bytes → Option Int
  | [] => none
  | c :: rest =>
      if c = 45 then (plainDigits rest).map fun value : Nat => -(value : Int)
      else (plainDigits (c :: rest)).map fun value : Nat => (value : Int)

theorem plainDigits_some {digits : Bytes} {value : Nat} (plain : plainDigits digits = some value) :
    Digits digits ∧ value = digitValue digits := by
  unfold plainDigits at plain
  split at plain
  · rename_i shape
    exact ⟨shape, (Option.some.inj plain).symm⟩
  · cases plain

theorem isDigit_plain {c : UInt8} (digit : isDigit c = true) : isSpace c = false ∧ c ≠ 45 ∧ c ≠ 43 := by
  revert digit
  exact forall_byte (p := fun c => isDigit c = true → isSpace c = false ∧ c ≠ 45 ∧ c ≠ 43) (by decide +kernel) c

/-- The sign and the digits of a plain text. -/
theorem plainDecimal_some {text : Bytes} {n : Int} (plain : plainDecimal text = some n) :
    ∃ negative digits, takeSign (text.dropWhile isSpace) = (negative, digits) ∧ Digits digits ∧
      n = if negative then -(digitValue digits : Int) else digitValue digits := by
  cases text with
  | nil => cases plain
  | cons c rest =>
      rw [plainDecimal] at plain
      by_cases minus : c = 45
      · subst minus
        rw [if_pos rfl] at plain
        obtain ⟨value, digits, rfl⟩ := Option.map_eq_some_iff.1 plain
        obtain ⟨shape, rfl⟩ := plainDigits_some digits
        exact ⟨true, rest, rfl, shape, rfl⟩
      · rw [if_neg minus] at plain
        obtain ⟨value, digits, rfl⟩ := Option.map_eq_some_iff.1 plain
        obtain ⟨shape, rfl⟩ := plainDigits_some digits
        obtain ⟨space, -, plus⟩ := isDigit_plain (shape.2 c List.mem_cons_self)
        refine ⟨false, c :: rest, ?_, shape, rfl⟩
        rw [List.dropWhile_cons_of_neg (by simp [space]), takeSign, if_neg minus, if_neg plus]

theorem parseInteger_plain {low high n : Int} {text : Bytes} (plain : plainDecimal text = some n) :
    parseInteger low high text = if n < low ∨ high < n then .error .outOfRange else .ok n := by
  obtain ⟨negative, digits, shape, ⟨nonempty, all⟩, value⟩ := plainDecimal_some plain
  unfold parseInteger
  rw [shape]
  dsimp only
  rw [List.takeWhile_eq_self_iff.2 all, if_neg nonempty, ← value]

/-- What a parser of integers reads from a plain text is its value. -/
theorem parseInteger_ok {low high n value : Int} {text : Bytes} (plain : plainDecimal text = some n)
    (read : parseInteger low high text = .ok value) : n = value := by
  rw [parseInteger_plain plain] at read
  split at read
  · cases read
  · exact Except.ok.inj read

theorem decimalValue_digits {digits : Bytes} (all : Digits digits) : decimalValue digits = digitValue digits := by
  have head : digits.head? ≠ some 45 := by
    intro minus
    exact (isDigit_plain (all.2 45 (List.mem_of_mem_head? minus))).2.1 rfl
  have taken : digits.takeWhile isDigit = digits := List.takeWhile_eq_self_iff.2 all.2
  have dropped : digits.dropWhile isDigit = [] := List.dropWhile_eq_nil_iff.2 all.2
  simp [decimalValue, head, taken, dropped]

theorem toLower_digit {c : UInt8} (digit : isDigit c = true) : toLower c = c := by
  revert digit
  exact forall_byte (p := fun c => isDigit c = true → toLower c = c) (by decide +kernel) c

/-- Nothing in a row of digits spells an infinity, a missing number or a base. -/
theorem digits_bare {digits : Bytes} (all : Digits digits) :
    ¬ [105, 110, 102] <+: digits ∧ ¬ [110, 97, 110] <+: digits ∧ ¬ [48, 120] <+: digits := by
  refine ⟨fun front => ?_, fun front => ?_, fun front => ?_⟩
  · exact absurd (all.2 105 (front.subset (by decide))) (by decide)
  · exact absurd (all.2 110 (front.subset (by decide))) (by decide)
  · exact absurd (all.2 120 (front.subset (by decide))) (by decide)

theorem stof_plain (reportsUnderflow : Rat → Bool) {n : Int} {text : Bytes} (plain : plainDecimal text = some n) :
    stof reportsUnderflow text = strtof reportsUnderflow n := by
  obtain ⟨negative, digits, shape, all, value⟩ := plainDecimal_some plain
  obtain ⟨infinity, missing, base⟩ := digits_bare all
  have lower : digits.map toLower = digits :=
    (List.map_congr_left fun c member => toLower_digit (all.2 c member)).trans (List.map_id digits)
  have starts : startsNumber isDigit digits = true := by
    obtain ⟨c, rest, rfl⟩ := List.exists_cons_of_ne_nil all.1
    have digit := all.2 c List.mem_cons_self
    cases rest <;> simp [startsNumber, digit]
  have exact' : (if negative then -decimalValue digits else decimalValue digits) = (n : Rat) := by
    rw [value, decimalValue_digits all]
    split <;> push_cast <;> rfl
  unfold stof
  rw [shape]
  dsimp only
  rw [lower, if_neg infinity, if_neg missing, if_neg (fun hex => base hex.1), if_pos starts, exact']

end Plain

end XInfer.NumberText
