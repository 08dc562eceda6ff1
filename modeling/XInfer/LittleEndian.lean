import Mathlib.Tactic.Common
import Mathlib.Algebra.Order.Group.Nat

/-!
Numbers as bytes, the lowest first, in fields of a fixed width. Nothing here is about one
format.
-/

namespace XInfer.LittleEndian

/-- The low `width` bytes of a number. -/
def pack : Nat → Nat → List UInt8
  | 0, _ => []
  | width + 1, value => UInt8.ofNat value :: pack width (value / 256)

def unpack : List UInt8 → Nat
  | [] => 0
  | byte :: rest => byte.toNat + 256 * unpack rest

@[simp] theorem pack_length (width value : Nat) : (pack width value).length = width := by
  induction width generalizing value with
  | zero => rfl
  | succ width ih => rw [pack, List.length_cons, ih]

theorem unpack_pack (width value : Nat) : unpack (pack width value) = value % 256 ^ width := by
  induction width generalizing value with
  | zero => simp [pack, unpack, Nat.mod_one]
  | succ width ih =>
      rw [pack, unpack, ih, Nat.pow_succ, Nat.mul_comm (256 ^ width), Nat.mod_mul]
      simp

/-- The field of `width` bytes at `offset`. -/
def field (bytes : List UInt8) (offset width : Nat) : List UInt8 := (bytes.drop offset).take width

theorem field_here (part back : List UInt8) : field (part ++ back) 0 part.length = part := by
  simp [field]

theorem field_skip (front rest : List UInt8) (offset width : Nat) :
    field (front ++ rest) (front.length + offset) width = field rest offset width := by
  rw [field, ← List.drop_drop, List.drop_left]
  rfl

theorem field_left {front : List UInt8} {offset width : Nat} (fits : offset + width ≤ front.length)
    (rest : List UInt8) : field (front ++ rest) offset width = field front offset width := by
  rw [field, field, List.drop_append_of_le_length (by omega), List.take_append_of_le_length]
  rw [List.length_drop]
  omega

/-- A text in a field of fixed width, filled with zeros. -/
def padded (width : Nat) (text : List UInt8) : List UInt8 :=
  (text ++ List.replicate width 0).take width

@[simp] theorem padded_length (width : Nat) (text : List UInt8) : (padded width text).length = width := by
  simp [padded]

theorem padded_of_le {width : Nat} {text : List UInt8} (fits : text.length ≤ width) :
    padded width text = text ++ List.replicate (width - text.length) 0 := by
  rw [padded, List.take_append, List.take_of_length_le fits, List.take_replicate]
  congr 2
  omega

theorem padded_of_length {width : Nat} {text : List UInt8} (exactly : text.length = width) :
    padded width text = text := by
  rw [padded_of_le exactly.le, exactly, Nat.sub_self, List.replicate_zero, List.append_nil]

/-- The text before the first zero, where there is one. -/
def cString (bytes : List UInt8) : Option (List UInt8) :=
  if 0 ∈ bytes then some (bytes.takeWhile (· ≠ 0)) else none

theorem cString_append {text rest : List UInt8} (plain : 0 ∉ text) :
    cString (text ++ 0 :: rest) = some text := by
  have inside : (0 : UInt8) ∈ text ++ 0 :: rest := by simp
  have nonzero : ∀ byte ∈ text, (decide (byte ≠ 0)) = true := by
    intro byte member
    exact decide_eq_true fun zero => plain (zero ▸ member)
  rw [cString, if_pos inside, List.takeWhile_append_of_pos nonzero]
  simp

end XInfer.LittleEndian
