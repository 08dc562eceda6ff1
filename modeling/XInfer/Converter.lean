import XInfer.ArtifactWriter
import Mathlib.Data.List.Range

/-!
The container emission of `tools/convert/qwen3_8_27b/convert.py`, with the checksum engine that it
picks: the C functions of `artifact/c_api.cpp`, or its own tables over unbounded integers. `none` is
the `struct.error` of a number that does not fit its field.
-/

namespace XInfer.Converter

open Primitives LittleEndian Container ContainerLayout

/-- `xinfer_crc64`. -/
def xinferCrc64 (data : Bytes) : BitVec 64 := if data = [] then 0 else Crc64.calculate data

/-- `xinfer_crc64_file` on a file that can be opened. A premature end leaves the loop. -/
def xinferCrc64File (file : Bytes) (maxBytes : Nat) : BitVec 64 :=
  let bytesToRead := if 0 < maxBytes ∧ maxBytes < file.length then maxBytes else file.length
  match ((FileStream.ofFile file).crcLoop (4 * 1024 * 1024) bytesToRead bytesToRead Crc64.initial).1 with
  | .ok crc => Crc64.digest crc
  | .error crc => Crc64.digest crc

def POLY64 : Nat := 0xC96C5795D7870F42
def ALL_ONES : Nat := 0xFFFFFFFFFFFFFFFF

def tableStep (crc : Nat) : Nat := if crc &&& 1 ≠ 0 then (crc >>> 1) ^^^ POLY64 else crc >>> 1

/-- `self.table[b]`. -/
def table (b : Nat) : Nat := tableStep^[8] b

def updateByte (crc : Nat) (byte : UInt8) : Nat := (crc >>> 8) ^^^ table ((crc ^^^ byte.toNat) &&& 0xFF)

/-- The loop of `calculate_file`, on the bytes that are still to be read. -/
def fileLoop : Nat → Nat → Bytes → Nat → Nat
  | 0, _, _, crc => crc
  | fuel + 1, bytesLeft, rest, crc =>
      if bytesLeft = 0 then crc
      else
        let chunk := rest.take (min bytesLeft (4 * 1024 * 1024))
        if chunk = [] then crc
        else fileLoop fuel (bytesLeft - chunk.length) (rest.drop chunk.length) (chunk.foldl updateByte crc)

inductive FastCRC64 where
  | dll
  | fallback
  deriving DecidableEq

def FastCRC64.calculateBytes (engine : FastCRC64) (data : Bytes) : Nat := match engine with
  | .dll => (xinferCrc64 data).toNat
  | .fallback => data.foldl updateByte ALL_ONES ^^^ ALL_ONES

def FastCRC64.calculateFile (engine : FastCRC64) (file : Bytes) (maxBytes : Nat) : Nat := match engine with
  | .dll => (xinferCrc64File file maxBytes).toNat
  | .fallback =>
      let bytesLeft := if 0 < maxBytes then maxBytes else file.length
      fileLoop bytesLeft bytesLeft file ALL_ONES ^^^ ALL_ONES

/-- The format characters of `struct.pack` that are used. -/
def packI (value : Nat) : Option Bytes := if value < 2 ^ 32 then some (pack 4 value) else none
def packQ (value : Nat) : Option Bytes := if value < 2 ^ 64 then some (pack 8 value) else none

/-- A tuple of `section_entries`. -/
structure EntryTuple where
  name : Bytes
  typeTag : Nat
  flags : Nat
  offset : Nat
  size : Nat
  checksum : Nat

structure Emission where
  outF : Bytes
  currentOffset : Nat
  sectionEntries : List EntryTuple

def alignOut (e : Emission) : Emission :=
  let pad := (64 - e.currentOffset % 64) % 64
  { e with outF := e.outF ++ List.replicate pad 0, currentOffset := e.currentOffset + pad }

/-- `write_section`. -/
def writeSection (engine : FastCRC64) (e : Emission) (sec : PendingSection) : Emission :=
  let e := alignOut e
  { outF := e.outF ++ sec.data
    currentOffset := e.currentOffset + sec.data.length
    sectionEntries := e.sectionEntries ++
      [⟨sec.name, sec.type.toNat, 0, e.currentOffset, sec.data.length, engine.calculateBytes sec.data⟩] }

/-- `struct.pack("<96sIIQQQ", ...)` of one tuple. -/
def packEntry (entry : EntryTuple) : Option Bytes := do
  let typeTag ← packI entry.typeTag
  let flags ← packI entry.flags
  let offset ← packQ entry.offset
  let size ← packQ entry.size
  let checksum ← packQ entry.checksum
  let nameBytes := padded MAX_SECTION_NAME_LEN (entry.name.take (MAX_SECTION_NAME_LEN - 1))
  return nameBytes ++ (typeTag ++ (flags ++ (offset ++ (size ++ checksum))))

def packEntries : List EntryTuple → Option Bytes
  | [] => some []
  | entry :: rest => do
      let first ← packEntry entry
      let later ← packEntries rest
      return first ++ later

/-- `struct.pack("<8sIIIIQQQQQ", ...)`. -/
def packHeader (sectionCount metaSize tableOffset tableSize totalFileSize : Nat) : Option Bytes := do
  let version ← packI 1
  let headerSize ← packI 64
  let flags ← packI 0
  let sectionCount ← packI sectionCount
  let metaOffset ← packQ 64
  let metaSize ← packQ metaSize
  let tableOffset ← packQ tableOffset
  let tableSize ← packQ tableSize
  let totalFileSize ← packQ totalFileSize
  return MAGIC_BYTES ++ (version ++ (headerSize ++ (flags ++ (sectionCount ++ (metaOffset ++ (metaSize ++
    (tableOffset ++ (tableSize ++ totalFileSize))))))))

/-- The file that `main` leaves, from the metadata bytes and the sections in the order written. -/
def emit (engine : FastCRC64) (metaJsonBytes : Bytes) (sections : List PendingSection) : Option Bytes := do
  let start : Emission := ⟨List.replicate 64 0 ++ metaJsonBytes, 64 + metaJsonBytes.length, []⟩
  let e := alignOut (sections.foldl (writeSection engine) start)
  let tableSize := e.sectionEntries.length * 128
  let packed ← packEntries e.sectionEntries
  let currentOffset := e.currentOffset + tableSize
  let headerBytes ← packHeader e.sectionEntries.length metaJsonBytes.length e.currentOffset tableSize
    (currentOffset + 16)
  -- the header replaces the zeros at the front, then the file is closed and read back
  let written := headerBytes ++ (e.outF ++ packed).drop 64
  let fileChecksum ← packQ (engine.calculateFile written currentOffset)
  return written ++ (fileChecksum ++ FOOTER_MAGIC_BYTES)

section Checksums

theorem tableStep_toNat (crc : BitVec 64) : tableStep crc.toNat = (Crc64.tableStep crc).toNat := by
  have low : (crc.toNat &&& 1 ≠ 0) ↔ crc &&& 1 ≠ 0 := by
    rw [not_iff_not, ← BitVec.toNat_inj, BitVec.toNat_and]
    rfl
  unfold tableStep Crc64.tableStep
  by_cases odd : crc &&& 1 ≠ 0
  · rw [if_pos (low.mpr odd), if_pos odd, BitVec.toNat_xor, BitVec.toNat_ushiftRight]
    rfl
  · rw [if_neg (fun bit => odd (low.mp bit)), if_neg odd, BitVec.toNat_ushiftRight]

theorem table_toNat (index : BitVec 8) : table index.toNat = (Crc64.CRC_TABLE index).toNat := by
  have steps : ∀ (count : Nat) (crc : BitVec 64),
      tableStep^[count] crc.toNat = (Crc64.tableStep^[count] crc).toNat := by
    intro count
    induction count with
    | zero => exact fun _ => rfl
    | succ count ih =>
        intro crc
        rw [Function.iterate_succ_apply, Function.iterate_succ_apply, tableStep_toNat, ih]
  have wide : index.toNat = (index.setWidth 64).toNat := by
    rw [BitVec.toNat_setWidth, Nat.mod_eq_of_lt (Nat.lt_of_lt_of_le index.isLt (by decide))]
  rw [table, wide, steps]
  rfl

/-- Integers without a bound never leave the 64 bits. -/
theorem updateByte_toNat (crc : BitVec 64) (byte : UInt8) :
    updateByte crc.toNat byte = (Crc64.updateByte crc byte).toNat := by
  have index : (crc.toNat ^^^ byte.toNat) &&& 0xFF =
      ((crc ^^^ byte.toBitVec.setWidth 64).setWidth 8).toNat := by
    have small := byte.toNat_lt
    rw [BitVec.toNat_setWidth, BitVec.toNat_xor, BitVec.toNat_setWidth, UInt8.toNat_toBitVec,
      Nat.mod_eq_of_lt (by omega : byte.toNat < 2 ^ 64)]
    exact Nat.and_two_pow_sub_one_eq_mod _ 8
  rw [updateByte, Crc64.updateByte, BitVec.toNat_xor, BitVec.toNat_ushiftRight, index, table_toNat]

theorem foldl_updateByte (data : Bytes) (crc : BitVec 64) :
    data.foldl updateByte crc.toNat = (Crc64.update crc data).toNat := by
  induction data generalizing crc with
  | nil => rfl
  | cons byte rest ih => rw [List.foldl_cons, updateByte_toNat, ih]; rfl

theorem digest_toNat (crc : BitVec 64) : crc.toNat ^^^ ALL_ONES = (Crc64.digest crc).toNat := by
  rw [Crc64.digest, BitVec.toNat_xor]
  rfl

theorem calculateBytes_eq (engine : FastCRC64) (data : Bytes) :
    engine.calculateBytes data = (Crc64.calculate data).toNat := by
  cases engine with
  | dll =>
      unfold FastCRC64.calculateBytes xinferCrc64
      by_cases empty : data = []
      · rw [empty]
        rfl
      · simp only [if_neg empty]
  | fallback =>
      have ones : ALL_ONES = Crc64.initial.toNat := rfl
      have loop := foldl_updateByte data Crc64.initial
      rw [← ones] at loop
      simp only [FastCRC64.calculateBytes, loop]
      exact digest_toNat _

theorem fileLoop_eq (fuel bytesLeft : Nat) (enough : bytesLeft ≤ fuel) (rest : Bytes) (crc : BitVec 64) :
    fileLoop fuel bytesLeft rest crc.toNat = (Crc64.update crc (rest.take bytesLeft)).toNat := by
  induction fuel generalizing bytesLeft rest crc with
  | zero =>
      rcases Nat.le_zero.mp enough with rfl
      simp [fileLoop]
  | succ fuel ih =>
      rw [fileLoop]
      by_cases done : bytesLeft = 0
      · simp [done]
      rw [if_neg done]
      dsimp only
      by_cases spent : rest.take (min bytesLeft (4 * 1024 * 1024)) = []
      · -- nothing to read before the limit is reached
        rw [if_pos spent]
        have ended : rest = [] := by
          rcases List.take_eq_nil_iff.mp spent with none | ended
          · omega
          · exact ended
        rw [ended, List.take_nil]
        rfl
      · rw [if_neg spent]
        generalize chunkIs : rest.take (min bytesLeft (4 * 1024 * 1024)) = chunk at spent ⊢
        have positive : 0 < chunk.length := List.length_pos_iff.mpr spent
        have within : chunk.length ≤ bytesLeft := by
          rw [← chunkIs, List.length_take]
          omega
        have first : rest.take chunk.length = chunk := by
          rw [← chunkIs, List.length_take]
          exact (List.take_eq_take_min).symm
        have whole : rest.take bytesLeft = chunk ++ (rest.drop chunk.length).take (bytesLeft - chunk.length) := by
          calc rest.take bytesLeft
              = rest.take (chunk.length + (bytesLeft - chunk.length)) := by rw [Nat.add_sub_cancel' within]
            _ = _ := by rw [List.take_add, first]
        rw [foldl_updateByte, ih _ (by omega), whole, Crc64.update_append]

/-- The bytes of a file up to a limit; there is none at 0. -/
def limited (file : Bytes) (maxBytes : Nat) : Bytes := if 0 < maxBytes then file.take maxBytes else file

theorem limited_eq (file : Bytes) (maxBytes : Nat) :
    limited file maxBytes = file.take (if 0 < maxBytes ∧ maxBytes < file.length then maxBytes else file.length) := by
  unfold limited
  by_cases positive : 0 < maxBytes
  · rw [if_pos positive]
    by_cases inside : maxBytes < file.length
    · rw [if_pos ⟨positive, inside⟩]
    · rw [if_neg fun both => inside both.2, List.take_length, List.take_of_length_le (Nat.le_of_not_lt inside)]
  · rw [if_neg positive, if_neg fun both => positive both.1, List.take_length]

theorem xinferCrc64File_eq (file : Bytes) (maxBytes : Nat) :
    xinferCrc64File file maxBytes = Crc64.calculate (limited file maxBytes) := by
  unfold xinferCrc64File
  rw [limited_eq]
  generalize countIs : (if 0 < maxBytes ∧ maxBytes < file.length then maxBytes else file.length) = count
  have inside : count ≤ file.length := by
    rw [← countIs]
    split
    · rename_i both
      exact Nat.le_of_lt both.2
    · exact Nat.le_refl _
  have loop : ((FileStream.ofFile file).crcLoop (4 * 1024 * 1024) count count Crc64.initial).1 =
      .ok (Crc64.update Crc64.initial (file.take count)) := by
    rw [FileStream.crcLoop_of_fits (by decide) _ _ (Nat.le_refl _) rfl]
    · simp [FileStream.ofFile, field]
    · simpa [FileStream.ofFile] using inside
  simp only [loop]
  rfl

/-- Both engines read the same bytes of a file. -/
theorem calculateFile_limited (engine : FastCRC64) (file : Bytes) (maxBytes : Nat) :
    engine.calculateFile file maxBytes = (Crc64.calculate (limited file maxBytes)).toNat := by
  cases engine with
  | dll => exact congrArg BitVec.toNat (xinferCrc64File_eq file maxBytes)
  | fallback =>
      have loop := fileLoop_eq (if 0 < maxBytes then maxBytes else file.length) _ (Nat.le_refl _) file Crc64.initial
      have ones : ALL_ONES = Crc64.initial.toNat := rfl
      have bytes : file.take (if 0 < maxBytes then maxBytes else file.length) = limited file maxBytes := by
        unfold limited
        split
        · rfl
        · exact List.take_length
      rw [← ones, bytes] at loop
      unfold FastCRC64.calculateFile
      simp only [loop]
      exact digest_toNat _

theorem calculateFile_eq (engine : FastCRC64) (file : Bytes) :
    engine.calculateFile file file.length = (Crc64.calculate file).toNat := by
  rw [calculateFile_limited, limited_eq, if_neg fun both => Nat.lt_irrefl _ both.2, List.take_length]

end Checksums

section Layout

def tupleAt (sec : PendingSection) (place : Nat) : EntryTuple :=
  ⟨sec.name, sec.type.toNat, 0, place, sec.data.length, (Crc64.calculate sec.data).toNat⟩

def tuplesFrom : Nat → List PendingSection → List EntryTuple
  | _, [] => []
  | offset, sec :: rest => tupleAt sec (aligned offset) :: tuplesFrom (aligned offset + sec.data.length) rest

@[simp] theorem tuplesFrom_length (offset : Nat) (sections : List PendingSection) :
    (tuplesFrom offset sections).length = sections.length := by
  induction sections generalizing offset with
  | nil => rfl
  | cons sec rest ih => rw [tuplesFrom, List.length_cons, ih, List.length_cons]

theorem foldl_writeSection (engine : FastCRC64) (sections : List PendingSection) (outF : Bytes)
    (tuples : List EntryTuple) :
    sections.foldl (writeSection engine) ⟨outF, outF.length, tuples⟩ =
      ⟨outF ++ payload outF.length sections, payloadEnd outF.length sections,
        tuples ++ tuplesFrom outF.length sections⟩ := by
  induction sections generalizing outF tuples with
  | nil => simp [payload, payloadEnd, tuplesFrom]
  | cons sec rest ih =>
      have length : (outF ++ List.replicate (gap outF.length) 0 ++ sec.data).length =
          aligned outF.length + sec.data.length := by
        simp only [List.length_append, List.length_replicate, aligned]
      have step : writeSection engine ⟨outF, outF.length, tuples⟩ sec =
          ⟨outF ++ List.replicate (gap outF.length) 0 ++ sec.data,
            (outF ++ List.replicate (gap outF.length) 0 ++ sec.data).length,
            tuples ++ [tupleAt sec (aligned outF.length)]⟩ := by
        rw [length]
        unfold writeSection alignOut tupleAt
        simp only [calculateBytes_eq]
        rfl
      rw [List.foldl_cons, step, ih, length, payloadEnd_cons, payload, tuplesFrom]
      simp only [List.append_assoc, List.singleton_append]

theorem packEntry_tupleAt {sec : PendingSection} (short : sec.name.length < MAX_SECTION_NAME_LEN)
    (noFlags : sec.flags = 0) {place : Nat} (fits : place + sec.data.length < 2 ^ 64) :
    packEntry (tupleAt sec place) = some (entryAt sec place).bytes := by
  have type : packI sec.type.toNat = some (word32 sec.type) := if_pos sec.type.toNat_lt
  have flags : packI 0 = some (word32 sec.flags) := by
    rw [noFlags]
    rfl
  have offset : packQ place = some (word64 (UInt64.ofNat place)) := by
    rw [packQ, if_pos (by omega), word64, UInt64.toNat_ofNat_of_lt' (show place < 2 ^ 64 by omega)]
  have size : packQ sec.data.length = some (word64 (UInt64.ofNat sec.data.length)) := by
    rw [packQ, if_pos (by omega), word64, UInt64.toNat_ofNat_of_lt' (show sec.data.length < 2 ^ 64 by omega)]
  have checksum : packQ (Crc64.calculate sec.data).toNat = some (checksumBytes (Crc64.calculate sec.data)) :=
    if_pos (Crc64.calculate sec.data).isLt
  have name : sec.name.take (MAX_SECTION_NAME_LEN - 1) = sec.name := List.take_of_length_le (by omega)
  simp only [packEntry, tupleAt, type, flags, offset, size, checksum, name, Option.bind_eq_bind, Option.bind_some]
  rfl

theorem packEntries_tuplesFrom {sections : List PendingSection}
    (accepted : ∀ sec ∈ sections, sec.name.length < MAX_SECTION_NAME_LEN ∧ sec.flags = 0) {offset : Nat}
    (fits : payloadEnd offset sections < 2 ^ 64) :
    packEntries (tuplesFrom offset sections) = some (tableBytes (entriesFrom offset sections)) := by
  induction sections generalizing offset with
  | nil => rfl
  | cons sec rest ih =>
      rw [payloadEnd_cons] at fits
      have room := le_payloadEnd (aligned offset + sec.data.length) rest
      obtain ⟨short, noFlags⟩ := accepted sec List.mem_cons_self
      have later := ih (fun other member => accepted other (List.mem_cons_of_mem _ member)) fits
      rw [tuplesFrom, packEntries, packEntry_tupleAt short noFlags (by omega), later]
      rfl

theorem packHeader_eq {metadata : Bytes} {sections : List PendingSection} (count : sections.length < 2 ^ 32)
    (fits : totalSize metadata sections < 2 ^ 64) :
    packHeader sections.length metadata.length (tableOffset metadata sections) (sections.length * 128)
      (totalSize metadata sections) = some (header metadata sections).bytes := by
  have places : headerBytes + metadata.length ≤ tableOffset metadata sections :=
    Nat.le_trans (le_payloadEnd _ sections) (le_aligned _)
  have total : tableOffset metadata sections + sections.length * entryBytes + footerBytes =
      totalSize metadata sections := rfl
  have wide : sections.length * entryBytes = sections.length * 128 := rfl
  have quad : ∀ value, value < 2 ^ 64 → packQ value = some (word64 (UInt64.ofNat value)) := by
    intro value small
    rw [packQ, if_pos small, word64, UInt64.toNat_ofNat_of_lt' small]
  have counted : packI sections.length = some (word32 (UInt32.ofNat sections.length)) := by
    rw [packI, if_pos count, word32, UInt32.toNat_ofNat_of_lt' count]
  simp only [packHeader, counted, quad _ (by omega : metadata.length < 2 ^ 64),
    quad _ (by omega : tableOffset metadata sections < 2 ^ 64),
    quad _ (by omega : sections.length * 128 < 2 ^ 64), quad _ fits, Option.bind_eq_bind]
  rfl

/-- What `out_f` holds behind the placeholder, and where it stands, before the table is packed. -/
theorem emission_eq (engine : FastCRC64) (metadata : Bytes) (sections : List PendingSection) :
    alignOut (sections.foldl (writeSection engine) ⟨List.replicate 64 0 ++ metadata, 64 + metadata.length, []⟩) =
      ⟨List.replicate 64 0 ++ (metadata ++ payload (headerBytes + metadata.length) sections ++
          List.replicate (gap (payloadEnd (headerBytes + metadata.length) sections)) 0),
        tableOffset metadata sections, tuplesFrom (headerBytes + metadata.length) sections⟩ := by
  have front : (List.replicate 64 (0 : UInt8) ++ metadata).length = headerBytes + metadata.length := by
    rw [List.length_append, List.length_replicate]
    rfl
  have loop := foldl_writeSection engine sections (List.replicate 64 0 ++ metadata) []
  rw [front, List.nil_append] at loop
  change alignOut (sections.foldl (writeSection engine) ⟨_, headerBytes + metadata.length, []⟩) = _
  rw [loop]
  simp only [alignOut, List.append_assoc]
  rfl

/-- Where every number fits its field, the emitter puts out the container. -/
theorem emit_eq (engine : FastCRC64) {metadata : Bytes} {sections : List PendingSection}
    (accepted : ∀ sec ∈ sections, sec.name.length < MAX_SECTION_NAME_LEN ∧ sec.flags = 0)
    (count : sections.length < 2 ^ 32) (fits : totalSize metadata sections < 2 ^ 64) :
    emit engine metadata sections = some (container metadata sections) := by
  have total : tableOffset metadata sections + sections.length * entryBytes + footerBytes =
      totalSize metadata sections := rfl
  have payloads : payloadEnd (headerBytes + metadata.length) sections ≤ tableOffset metadata sections :=
    le_aligned _
  have tuples := packEntries_tuplesFrom accepted
    (by omega : payloadEnd (headerBytes + metadata.length) sections < 2 ^ 64)
  have head := packHeader_eq count fits
  have ends : tableOffset metadata sections + sections.length * 128 + 16 = totalSize metadata sections := rfl
  let written := (header metadata sections).bytes ++ body metadata sections
  have behind : ∀ rest : Bytes, (List.replicate 64 0 ++ rest).drop 64 = rest := fun _ => List.drop_left' (by simp)
  have length : written.length = tableOffset metadata sections + sections.length * 128 := by
    rw [List.length_append, FileHeader.bytes_length, body_length]
    rfl
  have sum := calculateFile_eq engine written
  rw [length] at sum
  have checksum : packQ (Crc64.calculate written).toNat = some (checksumBytes (Crc64.calculate written)) :=
    if_pos (Crc64.calculate written).isLt
  unfold emit
  simp only [emission_eq, tuples, tuplesFrom_length, ends, head, Option.bind_eq_bind, Option.bind_some,
    List.append_assoc, behind]
  have whole : (header metadata sections).bytes ++ (metadata ++ (payload (headerBytes + metadata.length) sections ++
      (List.replicate (gap (payloadEnd (headerBytes + metadata.length) sections)) 0 ++
        tableBytes (entriesFrom (headerBytes + metadata.length) sections)))) = written := by
    simp only [written, body, List.append_assoc]
  rw [whole, sum, checksum]
  have foot : (footer metadata sections).bytes = checksumBytes (Crc64.calculate written) ++ FOOTER_MAGIC_BYTES :=
    rfl
  rw [Option.bind_some, container, foot]
  simp only [written, body, List.append_assoc]
  rfl

/-- More sections than the count field holds: the header does not pack. -/
theorem emit_none (engine : FastCRC64) {metadata : Bytes} {sections : List PendingSection}
    (count : 2 ^ 32 ≤ sections.length) : emit engine metadata sections = none := by
  have counted : packI sections.length = none := if_neg (by omega)
  have head : ∀ metaSize tableAt tableSize total,
      packHeader sections.length metaSize tableAt tableSize total = none := by
    intro metaSize tableAt tableSize total
    simp [packHeader, counted]
  unfold emit
  simp only [emission_eq, tuplesFrom_length, head]
  cases packEntries (tuplesFrom (headerBytes + metadata.length) sections) <;> rfl

end Layout

section Agreement

/-- Sections that the writer accepts, without flags, in the numbers that the header can hold: both
writers leave the same bytes. -/
theorem emit_writeToFile (engine : FastCRC64) (w : ArtifactWriter) (noFlags : ∀ sec ∈ w.sections, sec.flags = 0)
    (count : w.sections.length < 2 ^ 32) (size : totalSize w.metadataJson w.sections < 2 ^ 64) :
    ∃ file, emit engine w.metadataJson w.sections = some file ∧ w.writeToFile = .ok file := by
  have accepted : ∀ sec ∈ w.sections, sec.name.length < MAX_SECTION_NAME_LEN ∧ sec.flags = 0 := fun sec member =>
    ⟨(w.named sec member).2, noFlags sec member⟩
  exact ⟨_, emit_eq engine accepted count size, w.writeToFile_eq size⟩

/-- An odd number of sections, one of them empty. -/
def threeSections : ArtifactWriter where
  metadataJson := ascii "{}"
  sections := [⟨ascii "a", 3, 0, [1, 2, 3]⟩, ⟨ascii "b", 4, 0, []⟩, ⟨ascii "c", 0, 0, List.replicate 64 7⟩]
  named := by decide
  distinct := by decide

theorem threeSections_agree : ∃ file, emit .fallback threeSections.metadataJson threeSections.sections = some file ∧
    threeSections.writeToFile = .ok file :=
  emit_writeToFile .fallback threeSections (by decide) (by decide) (by decide +kernel)

/-- Five letters, the low digits of a number to the base 128. -/
def letters (i : Nat) : Bytes :=
  [UInt8.ofNat (i % 128), UInt8.ofNat (i / 128 % 128), UInt8.ofNat (i / 128 ^ 2 % 128),
    UInt8.ofNat (i / 128 ^ 3 % 128), UInt8.ofNat (i / 128 ^ 4 % 128)]

theorem letters_injective {i j : Nat} (small : i < 2 ^ 32) (other : j < 2 ^ 32) (same : letters i = letters j) :
    i = j := by
  have digit : ∀ a b : Nat, a < 128 → b < 128 → UInt8.ofNat a = UInt8.ofNat b → a = b := by
    intro a b low high equal
    have values := congrArg UInt8.toNat equal
    rwa [UInt8.toNat_ofNat', UInt8.toNat_ofNat', Nat.mod_eq_of_lt (by omega), Nat.mod_eq_of_lt (by omega)] at values
  simp only [letters, List.cons.injEq, and_true] at same
  obtain ⟨first, second, third, fourth, fifth⟩ := same
  have d0 := digit _ _ (Nat.mod_lt _ (by decide)) (Nat.mod_lt _ (by decide)) first
  have d1 := digit _ _ (Nat.mod_lt _ (by decide)) (Nat.mod_lt _ (by decide)) second
  have d2 := digit _ _ (Nat.mod_lt _ (by decide)) (Nat.mod_lt _ (by decide)) third
  have d3 := digit _ _ (Nat.mod_lt _ (by decide)) (Nat.mod_lt _ (by decide)) fourth
  have d4 := digit _ _ (Nat.mod_lt _ (by decide)) (Nat.mod_lt _ (by decide)) fifth
  omega

def manySections (count : Nat) : List PendingSection :=
  (List.range count).map fun i => ⟨letters i, 0, 0, []⟩

/-- 2^32 empty sections: one more than the count field holds. -/
def overfull : ArtifactWriter where
  metadataJson := []
  sections := manySections (2 ^ 32)
  named := by
    intro sec member
    obtain ⟨i, _, rfl⟩ := List.mem_map.mp member
    exact ⟨List.cons_ne_nil _ _, show 5 < 96 by decide⟩
  distinct := by
    unfold manySections
    rw [List.map_map]
    refine List.Nodup.map_on ?_ List.nodup_range
    intro i small j other same
    exact letters_injective (List.mem_range.mp small) (List.mem_range.mp other) same

theorem payloadEnd_empty {sections : List PendingSection} (empty : ∀ sec ∈ sections, sec.data = []) :
    payloadEnd 64 sections = 64 := by
  induction sections with
  | nil => rfl
  | cons sec rest ih =>
      have here := empty sec List.mem_cons_self
      rw [payloadEnd_cons, here]
      exact ih fun other member => empty other (List.mem_cons_of_mem _ member)

theorem overfull_sections : overfull.sections = manySections (2 ^ 32) := by
  rw [overfull]

theorem manySections_mem {count : Nat} {sec : PendingSection} (member : sec ∈ manySections count) :
    sec.flags = 0 ∧ sec.data = [] := by
  obtain ⟨i, _, rfl⟩ := List.mem_map.mp member
  exact ⟨rfl, rfl⟩

theorem manySections_length (count : Nat) : (manySections count).length = count := by
  rw [manySections, List.length_map, List.length_range]

/-- The converter raises, the writer cuts the count down to 0 and reports success. -/
theorem overfull_disagree : ¬ ∀ (engine : FastCRC64) (w : ArtifactWriter), (∀ sec ∈ w.sections, sec.flags = 0) →
    ∃ file, emit engine w.metadataJson w.sections = some file ∧ w.writeToFile = .ok file := by
  intro agree
  obtain ⟨file, emitted, _⟩ := agree .fallback overfull fun sec member =>
    (manySections_mem (overfull_sections ▸ member)).1
  have many : 2 ^ 32 ≤ overfull.sections.length := by rw [overfull_sections, manySections_length]
  rw [emit_none .fallback many] at emitted
  cases emitted

/-- What the writer leaves there says that it holds no section. -/
theorem overfull_written : ∃ file, overfull.writeToFile = .ok file ∧
    (FileHeader.ofBytes (field file 0 headerBytes)).sectionCount = 0 := by
  have ends : payloadEnd (headerBytes + overfull.metadataJson.length) overfull.sections = 64 := by
    rw [overfull_sections]
    exact payloadEnd_empty fun sec member => (manySections_mem member).2
  have size : totalSize overfull.metadataJson overfull.sections < 2 ^ 64 := by
    rw [totalSize, footerOffset, tableOffset, ends, overfull_sections, manySections_length]
    decide
  refine ⟨_, overfull.writeToFile_eq size, ?_⟩
  have front : field (container overfull.metadataJson overfull.sections) 0 headerBytes =
      (header overfull.metadataJson overfull.sections).bytes := by
    rw [← (header overfull.metadataJson overfull.sections).bytes_length, container, List.append_assoc, field_here]
  rw [front, FileHeader.ofBytes_bytes, header, overfull_sections, manySections_length]
  rfl

end Agreement

end XInfer.Converter
