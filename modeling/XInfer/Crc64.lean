import XInfer.ReflectedCrc
import XInfer.Primitives

/-!
`Crc64` of `artifact/checksum.cpp`: the table-driven update and the one-shot call. The object's
only member `crc_` is passed as an argument.
-/

namespace XInfer.Crc64

open Primitives ReflectedCrc

def POLY64_ECMA : BitVec 64 := 0xC96C5795D7870F42

/-- The body of the inner loop of `generate_crc64_table`. -/
def tableStep (crc : BitVec 64) : BitVec 64 :=
  if crc &&& 1 ≠ 0 then (crc >>> 1) ^^^ POLY64_ECMA else crc >>> 1

/-- `CRC_TABLE.entries[index]`. -/
def CRC_TABLE (index : BitVec 8) : BitVec 64 := tableStep^[8] (index.setWidth 64)

def initial : BitVec 64 := 0xFFFFFFFFFFFFFFFF

def updateByte (crc : BitVec 64) (byte : UInt8) : BitVec 64 :=
  (crc >>> 8) ^^^ CRC_TABLE ((crc ^^^ byte.toBitVec.setWidth 64).setWidth 8)

def update (crc : BitVec 64) (data : Bytes) : BitVec 64 := data.foldl updateByte crc

def digest (crc : BitVec 64) : BitVec 64 := crc ^^^ 0xFFFFFFFFFFFFFFFF

def calculate (data : Bytes) : BitVec 64 := digest (update initial data)

-- the check value of this code, over the nine digits
example : calculate (ascii "123456789") = 0x995DC9BBDF1939FA := by decide +kernel

theorem tableStep_eq (crc : BitVec 64) : tableStep crc = shift POLY64_ECMA crc := by
  unfold tableStep shift
  have low : (crc &&& 1 ≠ 0) ↔ crc.getLsbD 0 = true := by
    rw [show (1 : BitVec 64) = 1#64 from rfl, BitVec.and_one_eq_setWidth_ofBool_getLsbD]
    cases crc.getLsbD 0 <;> decide
  by_cases bit : crc.getLsbD 0 = true
  · rw [if_pos (low.mpr bit), if_pos bit]
  · rw [if_neg (fun odd => bit (low.mp odd)), if_neg bit]

theorem updateByte_eq (crc : BitVec 64) (byte : UInt8) :
    updateByte crc byte = absorb POLY64_ECMA crc byte := by
  have steps : tableStep = shift POLY64_ECMA := funext tableStep_eq
  rw [absorb_table crc byte (by decide), updateByte, CRC_TABLE, steps]
  rfl

theorem update_eq (crc : BitVec 64) (data : Bytes) :
    update crc data = absorbAll POLY64_ECMA crc data := by
  have bytes : updateByte = absorb POLY64_ECMA := funext fun crc => funext (updateByte_eq crc)
  rw [update, bytes]
  rfl

@[simp] theorem update_nil (crc : BitVec 64) : update crc [] = crc := rfl

theorem update_append (crc : BitVec 64) (front back : Bytes) :
    update crc (front ++ back) = update (update crc front) back := List.foldl_append

@[simp] theorem calculate_nil : calculate [] = 0 := rfl

/-- Two byte strings that differ inside one window of eight bytes have two checksums. -/
theorem calculate_burst (front back : Bytes) {left right : Bytes} (length : left.length = right.length)
    (window : left.length ≤ 8) (apart : left ≠ right) :
    calculate (front ++ left ++ back) ≠ calculate (front ++ right ++ back) := by
  intro same
  have top : POLY64_ECMA.msb = true := by decide
  have registers := (BitVec.xor_left_inj _).mp same
  rw [update_eq, update_eq] at registers
  exact burst_detected top initial front back length (by omega) apart registers

end XInfer.Crc64
