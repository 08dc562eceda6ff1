import XInfer.Crc64
import XInfer.Container

/-!
`std::ifstream` over the bytes of a file, and the loop that three functions of the artifact code
share: a checksum over a count of bytes, read through a buffer.
-/

namespace XInfer

open Primitives

structure FileStream where
  bytes : Bytes
  pos : Nat
  good : Bool
  deriving DecidableEq

namespace FileStream

/-- A stream that was just opened. -/
def ofFile (bytes : Bytes) : FileStream := ⟨bytes, 0, true⟩

/-- `seekg(0, std::ios::end)`; stream offsets are signed 64-bit integers. -/
def seekEnd (s : FileStream) : FileStream :=
  if s.bytes.length < 2 ^ 63 then { s with pos := s.bytes.length } else { s with good := false }

/-- `static_cast<uint64_t>(tellg())`: a failed stream answers -1. -/
def tellg (s : FileStream) : UInt64 :=
  if s.good then UInt64.ofNat s.pos else UInt64.ofNat (2 ^ 64 - 1)

/-- `seekg(static_cast<std::streamoff>(offset), std::ios::beg)`: offsets from 2^63 on are negative
as stream offsets. -/
def seekg (s : FileStream) (offset : UInt64) : FileStream :=
  if s.good then
    if offset.toNat < 2 ^ 63 ∧ offset.toNat ≤ s.bytes.length then { s with pos := offset.toNat }
    else { s with good := false }
  else s

/-- `read(buffer, count)` with the bytes that `gcount` counts. -/
def read (s : FileStream) (count : Nat) : Bytes × FileStream :=
  if s.good then
    let data := (s.bytes.drop s.pos).take count
    (data, { s with pos := s.pos + data.length, good := data.length == count })
  else ([], s)

def clear (s : FileStream) : FileStream := { s with good := true }

/-- Reads through a buffer until `remaining` bytes went into the checksum; `.error` at a premature
end. A round reads at least one byte, so `remaining` bounds the rounds. -/
def crcLoop (s : FileStream) (bufferSize : Nat) :
    Nat → Nat → BitVec 64 → Except (BitVec 64) (BitVec 64) × FileStream
  | _, 0, crc => (.ok crc, s)
  | 0, _ + 1, crc => (.error crc, s)
  | fuel + 1, remaining + 1, crc =>
      let chunk := s.read (min (remaining + 1) bufferSize)
      if chunk.1 = [] then (.error crc, chunk.2)
      else chunk.2.crcLoop bufferSize fuel (remaining + 1 - chunk.1.length) (Crc64.update crc chunk.1)

variable {s : FileStream}

@[simp] theorem seekEnd_bytes : s.seekEnd.bytes = s.bytes := by
  unfold FileStream.seekEnd
  split <;> rfl

/-- Only a file that signed offsets reach has an end to stand at. -/
theorem tellg_end {file : Bytes} (good : (ofFile file).seekEnd.good = true) :
    file.length < 2 ^ 63 ∧ (ofFile file).seekEnd.tellg = UInt64.ofNat file.length := by
  unfold seekEnd at good ⊢
  split at good
  · rename_i small
    rw [if_pos small]
    exact ⟨small, rfl⟩
  · cases good

@[simp] theorem seekg_bytes (offset : UInt64) : (s.seekg offset).bytes = s.bytes := by
  unfold seekg
  split
  · split <;> rfl
  · rfl

@[simp] theorem read_bytes (count : Nat) : (s.read count).2.bytes = s.bytes := by
  unfold FileStream.read
  split <;> rfl

/-- A good read has everything that was asked for. -/
theorem read_good {count : Nat} (good : (s.read count).2.good = true) :
    s.good = true ∧ (s.read count).1 = LittleEndian.field s.bytes s.pos count ∧
      (0 < count → s.pos + count ≤ s.bytes.length) := by
  unfold FileStream.read at good ⊢
  by_cases started : s.good = true
  · rw [if_pos started] at good ⊢
    simp only [beq_iff_eq, List.length_take, List.length_drop] at good
    refine ⟨started, rfl, fun positive => ?_⟩
    omega
  · rw [if_neg started] at good
    exact absurd good started

theorem read_of_fits {count : Nat} (good : s.good = true) (fits : s.pos + count ≤ s.bytes.length) :
    s.read count = (LittleEndian.field s.bytes s.pos count, { s with pos := s.pos + count }) := by
  have length : ((s.bytes.drop s.pos).take count).length = count := by
    rw [List.length_take, List.length_drop]
    omega
  simp only [read, good, if_true, length, beq_self_eq_true]
  rfl

/-- A good seek stands where it was sent. -/
theorem seekg_good {offset : UInt64} (good : (s.seekg offset).good = true) :
    s.good = true ∧ (s.seekg offset).pos = offset.toNat ∧ offset.toNat < 2 ^ 63 ∧
      offset.toNat ≤ s.bytes.length := by
  unfold seekg at good ⊢
  by_cases started : s.good = true
  · rw [if_pos started] at good ⊢
    by_cases inside : offset.toNat < 2 ^ 63 ∧ offset.toNat ≤ s.bytes.length
    · rw [if_pos inside]
      exact ⟨started, rfl, inside⟩
    · rw [if_neg inside] at good
      cases good
  · rw [if_neg started] at good
    exact absurd good started

theorem seekg_of_fits {offset : UInt64} (good : s.good = true) (small : s.bytes.length < 2 ^ 63)
    (fits : offset.toNat ≤ s.bytes.length) : s.seekg offset = { s with pos := offset.toNat } := by
  rw [seekg, if_pos good, if_pos ⟨by omega, fits⟩]

theorem seekg_read {offset : UInt64} {count : Nat} (good : s.good = true) (small : s.bytes.length < 2 ^ 63)
    (fits : offset.toNat + count ≤ s.bytes.length) :
    (s.seekg offset).read count =
      (LittleEndian.field s.bytes offset.toNat count, { s with pos := offset.toNat + count }) := by
  rw [seekg_of_fits good small (by omega)]
  exact read_of_fits good fits

theorem crcLoop_bytes (bufferSize fuel remaining : Nat) (crc : BitVec 64) :
    (s.crcLoop bufferSize fuel remaining crc).2.bytes = s.bytes := by
  induction fuel generalizing remaining s crc with
  | zero => cases remaining <;> rfl
  | succ fuel ih =>
      cases remaining with
      | zero => rfl
      | succ remaining =>
          rw [crcLoop]
          split
          · exact read_bytes _
          · rw [ih, read_bytes]

/-- The loop covers the next `remaining` bytes once, whatever the size of the buffer. -/
theorem crcLoop_of_fits {bufferSize : Nat} (positive : 0 < bufferSize) (fuel remaining : Nat)
    (enough : remaining ≤ fuel) (good : s.good = true) (fits : s.pos + remaining ≤ s.bytes.length)
    (crc : BitVec 64) :
    (s.crcLoop bufferSize fuel remaining crc).1 =
      .ok (Crc64.update crc (LittleEndian.field s.bytes s.pos remaining)) := by
  -- Between two rounds the stream stands behind the bytes that are in the checksum already.
  induction fuel generalizing remaining s crc with
  | zero =>
      rcases Nat.le_zero.mp enough with rfl
      rfl
  | succ fuel ih =>
      cases remaining with
      | zero => rfl
      | succ remaining =>
          have inside : s.pos + min (remaining + 1) bufferSize ≤ s.bytes.length := by omega
          have chunk := read_of_fits good inside
          have length : (LittleEndian.field s.bytes s.pos (min (remaining + 1) bufferSize)).length =
              min (remaining + 1) bufferSize := by
            rw [LittleEndian.field, List.length_take, List.length_drop]
            omega
          have some : LittleEndian.field s.bytes s.pos (min (remaining + 1) bufferSize) ≠ [] := by
            apply List.length_pos_iff.mp
            omega
          rw [crcLoop]
          simp only [chunk, length, if_neg some]
          have behind : s.pos + min (remaining + 1) bufferSize +
              (remaining + 1 - min (remaining + 1) bufferSize) ≤ s.bytes.length := by omega
          rw [@ih { s with pos := s.pos + min (remaining + 1) bufferSize } _ (by omega) good behind,
            ← Crc64.update_append]
          -- the chunk and what follows it are the field
          have whole : LittleEndian.field s.bytes s.pos (remaining + 1) =
              LittleEndian.field s.bytes s.pos (min (remaining + 1) bufferSize) ++
                LittleEndian.field s.bytes (s.pos + min (remaining + 1) bufferSize)
                  (remaining + 1 - min (remaining + 1) bufferSize) := by
            unfold LittleEndian.field
            rw [← List.drop_drop, ← List.take_add]
            congr 1
            omega
          rw [whole]

end FileStream

end XInfer
