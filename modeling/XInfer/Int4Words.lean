import XInfer.LittleEndian
import Mathlib.Data.BitVec
import Mathlib.Tactic.IntervalCases

/-!
Two signed nibbles in a byte and eight in a word: a byte is taken apart by masks, a word by shifts of a
signed integer.
-/

namespace XInfer.Int4Words

open LittleEndian

/-- A value of four bits as a two's complement. -/
def signedNibble (value : UInt8) : Int := if 8 ≤ value then (value.toNat : Int) - 16 else value.toNat

def lowNibble (byte : UInt8) : Int := signedNibble (byte &&& 0x0F)
def highNibble (byte : UInt8) : Int := signedNibble ((byte >>> 4) &&& 0x0F)

/-- Four bytes read as a `uint32_t`. -/
def wordAt (bytes : Nat → UInt8) (address : Nat) : BitVec 32 :=
  BitVec.ofNat 32 (unpack [bytes address, bytes (address + 1), bytes (address + 2), bytes (address + 3)])

/-- `(sp << (28 - 4 * i)) >> 28`, with the sign. -/
def wordNibble (p : BitVec 32) (i : Nat) : Int := ((p <<< (28 - 4 * i)).sshiftRight 28).toInt

theorem signedNibble_eq {value : UInt8} : signedNibble value =
    if 8 ≤ value.toNat then (value.toNat : Int) - 16 else value.toNat := rfl

theorem lowNibble_eq (byte : UInt8) : lowNibble byte =
    if 8 ≤ byte.toNat % 16 then ((byte.toNat % 16 : Nat) : Int) - 16 else (byte.toNat % 16 : Nat) := by
  have mask : (byte &&& 0x0F).toNat = byte.toNat % 16 := by
    rw [UInt8.toNat_and]
    exact Nat.and_two_pow_sub_one_eq_mod byte.toNat 4
  rw [lowNibble, signedNibble_eq, mask]

theorem highNibble_eq (byte : UInt8) : highNibble byte =
    if 8 ≤ byte.toNat / 16 then ((byte.toNat / 16 : Nat) : Int) - 16 else (byte.toNat / 16 : Nat) := by
  have mask : ((byte >>> 4) &&& 0x0F).toNat = byte.toNat / 16 := by
    have shifted : (byte >>> 4).toNat = byte.toNat / 16 := by
      rw [UInt8.toNat_shiftRight, Nat.shiftRight_eq_div_pow]
      rfl
    have bound := byte.toNat_lt
    rw [UInt8.toNat_and, shifted]
    exact (Nat.and_two_pow_sub_one_eq_mod _ 4).trans (Nat.mod_eq_of_lt (by omega))
  rw [highNibble, signedNibble_eq, mask]

/-- A nibble of a word, by division. -/
theorem wordNibble_eq (value shift : Nat) :
    ((BitVec.ofNat 32 value <<< shift).sshiftRight 28).toInt =
      if 8 ≤ value * 2 ^ shift % 2 ^ 32 / 2 ^ 28 then ((value * 2 ^ shift % 2 ^ 32 / 2 ^ 28 : Nat) : Int) - 16
      else (value * 2 ^ shift % 2 ^ 32 / 2 ^ 28 : Nat) := by
  have shifted : (BitVec.ofNat 32 value <<< shift).toNat = value * 2 ^ shift % 2 ^ 32 := by
    rw [BitVec.toNat_shiftLeft, BitVec.toNat_ofNat, Nat.shiftLeft_eq, Nat.mod_mul_mod]
  rw [BitVec.toInt_sshiftRight, BitVec.toInt_eq_toNat_cond, shifted, Int.shiftRight_eq_div_pow]
  generalize value * 2 ^ shift % 2 ^ 32 = wide
  split <;> split <;> omega

/-- The two nibbles of the byte at `i` are the ones at `2 * i` and `2 * i + 1` of the word. -/
theorem wordNibble_byte (bytes : Nat → UInt8) (address : Nat) {i : Nat} (inside : i < 4) :
    wordNibble (wordAt bytes address) (2 * i) = lowNibble (bytes (address + i)) ∧
      wordNibble (wordAt bytes address) (2 * i + 1) = highNibble (bytes (address + i)) := by
  have first := (bytes address).toNat_lt
  have second := (bytes (address + 1)).toNat_lt
  have third := (bytes (address + 2)).toNat_lt
  have fourth := (bytes (address + 3)).toNat_lt
  simp only [wordNibble, wordAt, wordNibble_eq, lowNibble_eq, highNibble_eq, unpack]
  have start : bytes (address + 0) = bytes address := rfl
  -- one case for each byte of the word
  interval_cases i
  · rw [start]
    constructor <;> split <;> split <;> omega
  · constructor <;> split <;> split <;> omega
  · constructor <;> split <;> split <;> omega
  · constructor <;> split <;> split <;> omega

end XInfer.Int4Words
