import Mathlib.Data.List.Basic

/-!
The grammar of JSON texts over bytes. What may stand for a number and between the quotes of a
string is a parameter; `rfc` is the choice of RFC 8259.
-/

namespace XInfer.JsonGrammar

inductive Tree (ν : Type) where
  | null
  | bool (value : Bool)
  | number (value : ν)
  | string (value : List UInt8)
  | array (elements : List (Tree ν))
  | object (members : List (List UInt8 × Tree ν))

/-- The words of a dialect, each with what it stands for. -/
structure Lexis (ν : Type) where
  number : List UInt8 → ν → Prop
  string : List UInt8 → List UInt8 → Prop

section Structure

variable {α ν : Type}

def isBlank (c : UInt8) : Bool := c == 32 || c == 9 || c == 10 || c == 13

def Blank (text : List UInt8) : Prop := ∀ c ∈ text, isBlank c = true

instance (priority := high) decidableBlank (text : List UInt8) : Decidable (Blank text) :=
  List.decidableBAll (fun c => isBlank c = true) text

theorem blank_nil : Blank [] := by simp [Blank]

theorem Blank.append {left right : List UInt8} (leftBlank : Blank left) (rightBlank : Blank right) :
    Blank (left ++ right) := by
  intro c member
  rcases List.mem_append.mp member with before | after
  · exact leftBlank c before
  · exact rightBlank c after

/-- A value between blanks. -/
inductive Padded (value : List UInt8 → α → Prop) : List UInt8 → α → Prop where
  | mk {before text after : List UInt8} {x : α} :
      Blank before → value text x → Blank after → Padded value (before ++ text ++ after) x

/-- A key between blanks, a colon, and a value between blanks. -/
inductive Member (string : List UInt8 → List UInt8 → Prop) (value : List UInt8 → α → Prop) :
    List UInt8 → List UInt8 × α → Prop where
  | mk {before key gap text name : List UInt8} {x : α} :
      Blank before → string key name → Blank gap → Padded value text x →
        Member string value (before ++ 34 :: (key ++ 34 :: (gap ++ 58 :: text))) (name, x)

/-- One item or more, with commas between them. -/
inductive Separated (item : List UInt8 → α → Prop) : List UInt8 → List α → Prop where
  | one {text : List UInt8} {x : α} : item text x → Separated item text [x]
  | more {text rest : List UInt8} {x : α} {xs : List α} :
      item text x → Separated item rest xs → Separated item (text ++ 44 :: rest) (x :: xs)

inductive Value (L : Lexis ν) : List UInt8 → Tree ν → Prop where
  | null : Value L [110, 117, 108, 108] .null
  | true : Value L [116, 114, 117, 101] (.bool true)
  | false : Value L [102, 97, 108, 115, 101] (.bool false)
  | number {text : List UInt8} {x : ν} : L.number text x → Value L text (.number x)
  | string {text s : List UInt8} : L.string text s → Value L (34 :: (text ++ [34])) (.string s)
  | noElements {gap : List UInt8} : Blank gap → Value L (91 :: (gap ++ [93])) (.array [])
  | array {text : List UInt8} {xs : List (Tree ν)} :
      Separated (Padded (Value L)) text xs → Value L (91 :: (text ++ [93])) (.array xs)
  | noMembers {gap : List UInt8} : Blank gap → Value L (123 :: (gap ++ [125])) (.object [])
  | object {text : List UInt8} {members : List (List UInt8 × Tree ν)} :
      Separated (Member L.string (Value L)) text members →
        Value L (123 :: (text ++ [125])) (.object members)

/-- A whole JSON text. -/
def Text (L : Lexis ν) : List UInt8 → Tree ν → Prop := Padded (Value L)

theorem Padded.refl {value : List UInt8 → α → Prop} {text : List UInt8} {x : α} (read : value text x) :
    Padded value text x := by
  have padded := Padded.mk blank_nil read blank_nil
  rwa [List.nil_append, List.append_nil] at padded

theorem Separated.length_le {item : List UInt8 → α → Prop} {text : List UInt8} {xs : List α}
    (items : Separated item text xs) : xs.length ≤ text.length + 1 := by
  induction items with
  | one _ => simp
  | more _ _ ih =>
      simp only [List.length_cons, List.length_append]
      omega

/-- What holds of every item that lies within the text may be assumed of the items. -/
theorem Separated.imp_within {item other : List UInt8 → α → Prop} {text : List UInt8} {xs : List α}
    (items : Separated item text xs)
    (weaker : ∀ part x, part.length ≤ text.length → item part x → other part x) :
    Separated other text xs := by
  induction items with
  | one read => exact .one (weaker _ _ (Nat.le_refl _) read)
  | @more part rest x xs read _ ih =>
      have bound : part.length ≤ (part ++ 44 :: rest).length := by simp
      refine .more (weaker _ _ bound read) (ih fun inner y within inside => weaker inner y ?_ inside)
      simp only [List.length_append, List.length_cons]
      omega

end Structure

section Rfc

def isDigit (c : UInt8) : Bool := decide (48 ≤ c) && decide (c ≤ 57)

/-- One digit or more. -/
def Digits (text : List UInt8) : Prop := text ≠ [] ∧ ∀ c ∈ text, isDigit c = true

def isHexDigit (c : UInt8) : Bool :=
  isDigit c || (decide (65 ≤ c) && decide (c ≤ 70)) || (decide (97 ≤ c) && decide (c ≤ 102))

/-- `number` of RFC 8259: a sign, an integer part, a fraction, an exponent. -/
def RfcNumber (text : List UInt8) : Prop :=
  ∃ sign whole fraction exponent, text = sign ++ whole ++ fraction ++ exponent ∧
    (sign = [] ∨ sign = [45]) ∧
    Digits whole ∧ (whole.head? = some 48 → whole = [48]) ∧
    (fraction = [] ∨ ∃ digits, fraction = 46 :: digits ∧ Digits digits) ∧
    (exponent = [] ∨ ∃ e sign digits, exponent = e :: (sign ++ digits) ∧ (e = 101 ∨ e = 69) ∧
      (sign = [] ∨ sign = [43] ∨ sign = [45]) ∧ Digits digits)

/-- `char` of RFC 8259, one after the other. What stands above the control characters is left to
the encoding of the text. -/
inductive RfcString : List UInt8 → Prop where
  | nil : RfcString []
  | unescaped {c : UInt8} {rest : List UInt8} :
      32 ≤ c → c ≠ 34 → c ≠ 92 → RfcString rest → RfcString (c :: rest)
  | escaped {c : UInt8} {rest : List UInt8} :
      c ∈ [34, 92, 47, 98, 102, 110, 114, 116] → RfcString rest → RfcString (92 :: c :: rest)
  | unicode {a b c d : UInt8} {rest : List UInt8} :
      isHexDigit a = true → isHexDigit b = true → isHexDigit c = true → isHexDigit d = true →
        RfcString rest → RfcString (92 :: 117 :: a :: b :: c :: d :: rest)

/-- RFC 8259 as a set of texts: what the words stand for is left open. -/
def rfc : Lexis Unit where
  number := fun text _ => RfcNumber text
  string := fun text _ => RfcString text

def RfcText (text : List UInt8) : Prop := ∃ tree, Text rfc text tree

end Rfc

end XInfer.JsonGrammar
