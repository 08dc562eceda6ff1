import Mathlib.Tactic.Common
import Mathlib.Data.List.Basic
import Mathlib.Algebra.Group.Int.Defs
import Mathlib.Algebra.Group.Nat.Defs

/-!
What the C++ sources take from their language and runtime: byte strings, the
wrapping `size_t` sum, `std::to_string`, and the exceptions that
`Engine::generate` tells apart. A `what` text is carried as bytes because the
engine copies it into the error message of its result.
-/

namespace XInfer.Primitives

abbrev Bytes := List UInt8

/-- A statement about the bytes of a string is decided over the string, not over all bytes. -/
instance (priority := high) decidableBytes {α : Type} (text : List α) (p : α → Prop) [DecidablePred p] :
    Decidable (∀ c ∈ text, p c) := List.decidableBAll p text

def ascii (text : String) : Bytes := text.toList.map fun c => UInt8.ofNat c.toNat

theorem ascii_append (front back : String) : ascii (front ++ back) = ascii front ++ ascii back := by
  rw [ascii, String.toList_append, List.map_append]
  rfl

/-- A literal by its characters. To evaluate it so takes linear time. -/
theorem ascii_ofList (chars : List Char) : ascii (String.ofList chars) = chars.map fun c => UInt8.ofNat c.toNat := by
  rw [ascii, String.toList_ofList]

/-- A statement about every byte is decided over the numbers of bytes. -/
theorem forall_byte {p : UInt8 → Prop} (every : ∀ n : Fin 256, p (UInt8.ofNat n)) (byte : UInt8) : p byte := by
  have here := every ⟨byte.toNat, byte.toNat_lt⟩
  rwa [UInt8.ofNat_toNat] at here

/-- `std::to_string` of an unsigned integer. -/
def decimal (value : Nat) : Bytes := ascii (Nat.repr value)

/-- `std::to_string` of a signed integer. -/
def signedDecimal : Int → Bytes
  | .ofNat value => decimal value
  | .negSucc value => ascii "-" ++ decimal (value + 1)

/-- The `size_t` sum of two sizes. -/
def sizeAdd (left right : Nat) : Nat := (left + right) % 2 ^ 64

theorem sizeAdd_of_lt {left right : Nat} (small : left + right < 2 ^ 64) :
    sizeAdd left right = left + right := Nat.mod_eq_of_lt small

/-- Exceptions by the catch block of `generate` that takes them. A vision format
error is caught with the other standard exceptions. -/
inductive Exn where
  | contextLengthExceeded (what : Bytes)
  | visionFormatError (what : Bytes)
  | sycl (what : Bytes)
  | badAlloc
  | standard (what : Bytes)
  | unknown
  deriving DecidableEq

theorem except_bind_ok {ε α β : Type} {stage : Except ε α} {next : α → Except ε β} {answer : β}
    (run : (stage >>= next) = .ok answer) : ∃ value, stage = .ok value ∧ next value = .ok answer := by
  cases stage with
  | error failure => cases run
  | ok value => exact ⟨value, rfl, run⟩

theorem except_bind_error {ε α β : Type} {stage : Except ε α} {next : α → Except ε β} {failure : ε}
    (run : (stage >>= next) = .error failure) :
    stage = .error failure ∨ ∃ value, stage = .ok value ∧ next value = .error failure := by
  cases stage with
  | error first =>
      cases run
      exact .inl rfl
  | ok value => exact .inr ⟨value, rfl, run⟩

theorem except_ok_bind {ε α β : Type} (value : α) (next : α → Except ε β) :
    ((Except.ok value : Except ε α) >>= next) = next value := rfl

end XInfer.Primitives
