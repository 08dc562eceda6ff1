import XInfer.FileStream
import XInfer.MetadataJson

/-!
`ArtifactReader` of `artifact/reader.cpp`. A refused file closes the reader, so only the error
message of a refusal is kept.
-/

namespace XInfer

open Primitives LittleEndian Container MetadataJson

/-- How a call ends that does not answer `true`: it answers `false` with a message, a container
refuses a size above its `max_size()`, or a C string is read past the section table. -/
inductive ReadFailure where
  | refused (message : Bytes)
  | lengthError
  | undefined
  deriving DecidableEq

structure ArtifactReader where
  filepath : Bytes
  fileStream : FileStream
  isOpen : Bool
  header : FileHeader
  footer : FileFooter
  rawMetadataJson : Bytes
  metadata : ArtifactMetadata
  sections : List SectionEntry
  /-- The newest entry of a name is found. -/
  sectionIndexMap : List (Bytes × Nat)

namespace ArtifactReader

def refuse {α : Type} (message : String) : Except ReadFailure α := .error (.refused (ascii message))

/-- Header fields, in the order of the checks. -/
def checkHeader (header : FileHeader) (actualFileSize : UInt64) : Except ReadFailure Unit :=
  if header.magic ≠ MAGIC_BYTES then refuse "Invalid file magic; not a .xinfer artifact."
  else if header.formatVersion ≠ CURRENT_FORMAT_VERSION then
    .error (.refused (ascii "Unsupported .xinfer format version: " ++ decimal header.formatVersion.toNat))
  else if header.headerSize ≠ UInt32.ofNat headerBytes then
    .error (.refused (ascii "Corrupted header size field: " ++ decimal header.headerSize.toNat))
  else if header.totalFileSize ≠ actualFileSize then
    .error (.refused (ascii "File size mismatch: header expects " ++ decimal header.totalFileSize.toNat ++
      ascii " bytes, actual on disk is " ++ decimal actualFileSize.toNat ++ ascii " bytes."))
  else .ok ()

def readHeader (s : FileStream) (actualFileSize : UInt64) : Except ReadFailure (FileHeader × FileStream) := do
  if actualFileSize < UInt64.ofNat (headerBytes + footerBytes) then
    refuse "File is smaller than minimum required header and footer size."
  else
    let (data, s) := (s.seekg 0).read headerBytes
    if ¬ s.good then refuse "Failed to read container header."
    else
      checkHeader (FileHeader.ofBytes data) actualFileSize
      return (FileHeader.ofBytes data, s)

def readFooter (s : FileStream) (actualFileSize : UInt64) : Except ReadFailure (FileFooter × FileStream) :=
  let (data, s) := (s.seekg (actualFileSize - UInt64.ofNat footerBytes)).read footerBytes
  if ¬ s.good then refuse "Failed to read container footer."
  else if (FileFooter.ofBytes data).footerMagic ≠ FOOTER_MAGIC_BYTES then
    refuse "Invalid footer magic; file may be corrupted or truncated."
  else .ok (FileFooter.ofBytes data, s)

/-- The raw text, and what was parsed of it; a text that does not parse leaves the blank metadata. -/
def readMetadata (s : FileStream) (header : FileHeader) (actualFileSize : UInt64) :
    Except ReadFailure (Bytes × ArtifactMetadata × FileStream) :=
  if 0 < header.metadataSize then
    if actualFileSize < header.metadataOffset + header.metadataSize then
      refuse "Metadata offset/size points out of bounds."
    else if 2 ^ 63 ≤ header.metadataSize.toNat then .error .lengthError
    else
      let (data, s) := (s.seekg header.metadataOffset).read header.metadataSize.toNat
      if ¬ s.good then refuse "Failed reading metadata block."
      else .ok (data, (fromJson data).getD blank, s)
  else .ok ([], blank, s)

/-- The loop over the section table. A name is read as a C string from the start of its entry on. -/
def indexSections (actualFileSize : UInt64) :
    Nat → List SectionEntry → List (Bytes × Nat) → Except ReadFailure (List (Bytes × Nat))
  | _, [], map => .ok map
  | i, entry :: rest, map => match cString (tableBytes (entry :: rest)) with
      | none => .error .undefined
      | some name =>
          if actualFileSize < entry.offset + entry.size then
            .error (.refused (ascii "Section '" ++ name ++ ascii "' offset + size points out of bounds."))
          else indexSections actualFileSize (i + 1) rest ((name, i) :: map)

def readSections (s : FileStream) (header : FileHeader) (actualFileSize : UInt64) :
    Except ReadFailure (List SectionEntry × List (Bytes × Nat) × FileStream) := do
  if 0 < header.sectionCount then
    let expectedTableSize := UInt64.ofNat (header.sectionCount.toNat * entryBytes)
    if header.sectionTableSize ≠ expectedTableSize then
      refuse "Section table size does not match section count."
    else if actualFileSize < header.sectionTableOffset + header.sectionTableSize then
      refuse "Section table points out of bounds."
    else
      let (data, s) := (s.seekg header.sectionTableOffset).read expectedTableSize.toNat
      if ¬ s.good then refuse "Failed reading section table."
      else
        let sections := entriesOfBytes header.sectionCount.toNat data
        let map ← indexSections actualFileSize 0 sections []
        return (sections, map, s)
  else return ([], [], s)

/-- `open`, on a path and the file that stands there. -/
def openFile (filepath : Bytes) (file : Option Bytes) : Except ReadFailure ArtifactReader := do
  match file with
  | none => .error (.refused (ascii "Could not open file: " ++ filepath))
  | some bytes =>
      let s := (FileStream.ofFile bytes).seekEnd
      let actualFileSize := s.tellg
      let (header, s) ← readHeader s actualFileSize
      let (footer, s) ← readFooter s actualFileSize
      let (raw, metadata, s) ← readMetadata s header actualFileSize
      let (sections, map, s) ← readSections s header actualFileSize
      return ⟨filepath, s, true, header, footer, raw, metadata, sections, map⟩

/-- The C string at the start of each entry. -/
def listSections (r : ArtifactReader) : List (Option Bytes) :=
  r.sections.tails.dropLast.map fun entries => cString (tableBytes entries)

def hasSection (r : ArtifactReader) (name : Bytes) : Bool := (r.sectionIndexMap.lookup name).isSome

def getSectionInfo (r : ArtifactReader) (name : Bytes) : Option SectionEntry :=
  (r.sectionIndexMap.lookup name).bind fun i => r.sections[i]?

/-- The overload of `read_section` that fills a buffer of the caller, with the bytes it put there. -/
def readSectionInto (r : ArtifactReader) (name : Bytes) (bufferSize : Nat) :
    Except ReadFailure Bytes × ArtifactReader :=
  if ¬ r.isOpen then (refuse "ArtifactReader is not open.", r)
  else match r.getSectionInfo name with
    | none => (.error (.refused (ascii "Section not found: " ++ name)), r)
    | some info =>
        if bufferSize < info.size.toNat then
          (.error (.refused (ascii "Destination buffer too small for section: " ++ name)), r)
        else if info.size = 0 then (.ok [], r)
        else
          let (data, s) := (r.fileStream.seekg info.offset).read info.size.toNat
          let after := { r with fileStream := s }
          if ¬ s.good then (.error (.refused (ascii "I/O error while reading section: " ++ name)), after)
          else if Crc64.calculate data ≠ info.checksum then
            (.error (.refused (ascii "Checksum mismatch for section: " ++ name ++ ascii " (expected: " ++
              decimal info.checksum.toNat ++ ascii ", got: " ++ decimal (Crc64.calculate data).toNat ++
                ascii ")")), after)
          else (.ok data, after)

/-- The overload of `read_section` that resizes a vector first. -/
def readSection (r : ArtifactReader) (name : Bytes) : Except ReadFailure Bytes × ArtifactReader :=
  match r.getSectionInfo name with
  | none => (.error (.refused (ascii "Section not found: " ++ name)), r)
  | some info =>
      if 2 ^ 63 ≤ info.size.toNat then (.error .lengthError, r)
      else if info.size = 0 then (.ok [], r)
      else r.readSectionInto name info.size.toNat

def hex (value : Nat) : Bytes := ascii (String.ofList (Nat.toDigits 16 value))

/-- `validate_checksum`: `.ok` is the answer `true`. -/
def validateChecksum (r : ArtifactReader) (bufferSize : Nat) : Except ReadFailure Unit × ArtifactReader :=
  if ¬ r.isOpen then (refuse "ArtifactReader is not open.", r)
  else
    let bufferSize := if bufferSize = 0 then 4 * 1024 * 1024 else bufferSize
    let bytesToRead := (r.header.totalFileSize - UInt64.ofNat footerBytes).toNat
    let (crc, s) := (r.fileStream.clear.seekg 0).crcLoop bufferSize bytesToRead bytesToRead Crc64.initial
    let after := { r with fileStream := s.clear }
    match crc with
    | .error _ => (refuse "Premature EOF while validating file checksum.", after)
    | .ok crc =>
        if Crc64.digest crc ≠ r.footer.fileChecksum then
          (.error (.refused (ascii "File trailing checksum mismatch! (expected: 0x" ++
            hex r.footer.fileChecksum.toNat ++ ascii ", got: 0x" ++ hex (Crc64.digest crc).toNat ++
              ascii ")")), after)
        else (.ok (), after)

section Opened

variable {s after : FileStream} {actual : UInt64}

theorem checkHeader_ok {header : FileHeader} (checked : checkHeader header actual = .ok ()) :
    header.totalFileSize = actual := by
  unfold checkHeader refuse at checked
  split_ifs at checked with magic version size total
  exact not_not.mp total

theorem readHeader_ok {header : FileHeader} (read : readHeader s actual = .ok (header, after)) :
    headerBytes + footerBytes ≤ actual.toNat ∧ s.good = true ∧ after.good = true ∧
      after.bytes = s.bytes ∧ header = FileHeader.ofBytes (field s.bytes 0 headerBytes) ∧
      header.totalFileSize = actual := by
  unfold readHeader at read
  split at read
  · cases read
  · rename_i large
    dsimp only at read
    split at read
    · cases read
    · rename_i good
      have good := not_not.mp good
      obtain ⟨sought, data, _⟩ := FileStream.read_good good
      obtain ⟨started, pos, _, _⟩ := FileStream.seekg_good sought
      rw [data, pos, FileStream.seekg_bytes] at read
      cases checked : checkHeader (FileHeader.ofBytes (field s.bytes (0 : UInt64).toNat headerBytes)) actual with
      | error failure => rw [checked] at read; cases read
      | ok _ =>
          rw [checked] at read
          cases read
          refine ⟨?_, started, good, ?_, rfl, checkHeader_ok checked⟩
          · exact Nat.not_lt.mp large
          · rw [FileStream.read_bytes, FileStream.seekg_bytes]

theorem readFooter_ok {footer : FileFooter} (read : readFooter s actual = .ok (footer, after)) :
    after.good = true ∧ after.bytes = s.bytes ∧ footer =
      FileFooter.ofBytes (field s.bytes (actual - UInt64.ofNat footerBytes).toNat footerBytes) := by
  unfold readFooter at read
  dsimp only at read
  split at read
  · cases read
  · rename_i good
    have good := not_not.mp good
    obtain ⟨sought, data, _⟩ := FileStream.read_good good
    obtain ⟨_, pos, _, _⟩ := FileStream.seekg_good sought
    split at read
    · cases read
    · cases read
      refine ⟨good, ?_, ?_⟩
      · rw [FileStream.read_bytes, FileStream.seekg_bytes]
      · rw [data, pos, FileStream.seekg_bytes]

/-- Seek and size are both below 2^63, so their sum does not wrap. -/
theorem readMetadata_ok {header : FileHeader} {raw : Bytes} {metadata : ArtifactMetadata}
    (read : readMetadata s header actual = .ok (raw, metadata, after)) :
    after.bytes = s.bytes ∧ (s.good = true → after.good = true) ∧ (0 < header.metadataSize →
      header.metadataOffset.toNat + header.metadataSize.toNat ≤ s.bytes.length) := by
  unfold readMetadata at read
  split at read
  · rename_i some
    split at read
    · cases read
    · split at read
      · cases read
      · dsimp only at read
        split at read
        · cases read
        · rename_i good
          cases read
          have good := not_not.mp good
          obtain ⟨sought, _, inside⟩ := FileStream.read_good good
          obtain ⟨_, pos, _, _⟩ := FileStream.seekg_good sought
          rw [pos, FileStream.seekg_bytes] at inside
          refine ⟨?_, fun _ => good, fun _ => inside some⟩
          rw [FileStream.read_bytes, FileStream.seekg_bytes]
  · rename_i none
    cases read
    exact ⟨rfl, id, fun some => absurd some none⟩

/-- Every entry passed the check, as far as the sum of 64 bits tells. -/
theorem indexSections_ok {entries : List SectionEntry} {i : Nat} {map final : List (Bytes × Nat)}
    (read : indexSections actual i entries map = .ok final) {entry : SectionEntry}
    (member : entry ∈ entries) : entry.offset + entry.size ≤ actual := by
  induction entries generalizing i map with
  | nil => cases member
  | cons head rest ih =>
      unfold indexSections at read
      split at read
      · cases read
      · split at read
        · cases read
        · rename_i fits
          rcases List.mem_cons.mp member with rfl | later
          · exact UInt64.not_lt.mp fits
          · exact ih read later

theorem readSections_ok {header : FileHeader} {sections : List SectionEntry} {map : List (Bytes × Nat)}
    (read : readSections s header actual = .ok (sections, map, after)) :
    after.bytes = s.bytes ∧
      sections = entriesOfBytes header.sectionCount.toNat (field s.bytes header.sectionTableOffset.toNat
        (header.sectionCount.toNat * entryBytes)) ∧
      (∀ entry ∈ sections, entry.offset + entry.size ≤ actual) ∧ (0 < header.sectionCount →
        header.sectionTableOffset.toNat + header.sectionTableSize.toNat ≤ s.bytes.length) := by
  unfold readSections at read
  have small : header.sectionCount.toNat * entryBytes < 2 ^ 64 := by
    have count := header.sectionCount.toNat_lt
    unfold entryBytes
    omega
  have expected : (UInt64.ofNat (header.sectionCount.toNat * entryBytes)).toNat =
      header.sectionCount.toNat * entryBytes := UInt64.toNat_ofNat_of_lt' small
  split at read
  · rename_i some
    dsimp only at read
    rw [expected] at read
    split at read
    · cases read
    · rename_i size
      split at read
      · cases read
      · split at read
        · cases read
        · rename_i good
          have good := not_not.mp good
          obtain ⟨sought, data, inside⟩ := FileStream.read_good good
          obtain ⟨_, pos, _, _⟩ := FileStream.seekg_good sought
          rw [pos, FileStream.seekg_bytes] at inside data
          rw [data] at read
          cases indexed : indexSections actual 0 (entriesOfBytes header.sectionCount.toNat (field s.bytes
              header.sectionTableOffset.toNat (header.sectionCount.toNat * entryBytes))) [] with
          | error failure => rw [indexed] at read; cases read
          | ok final =>
              rw [indexed] at read
              cases read
              have positive : 0 < header.sectionCount.toNat := some
              refine ⟨?_, rfl, fun entry member => indexSections_ok indexed member, fun _ => ?_⟩
              · rw [FileStream.read_bytes, FileStream.seekg_bytes]
              · rw [not_not.mp size, expected]
                exact inside (Nat.mul_pos positive (by decide))
  · rename_i none
    cases read
    have zero : header.sectionCount.toNat = 0 := Nat.le_zero.mp (UInt32.not_lt.mp none)
    refine ⟨rfl, ?_, ?_, fun some => absurd some none⟩
    · rw [zero]
      rfl
    · intro entry member
      cases member

/-- What `openFile` has found out about a file that it accepts. -/
structure Accepted (file : Bytes) (r : ArtifactReader) : Prop where
  isOpen : r.isOpen = true
  stream : r.fileStream.bytes = file
  small : file.length < 2 ^ 63
  large : headerBytes + footerBytes ≤ file.length
  header : r.header = FileHeader.ofBytes (field file 0 headerBytes)
  total : r.header.totalFileSize.toNat = file.length
  footer : r.footer = FileFooter.ofBytes (field file (file.length - footerBytes) footerBytes)
  metadata : 0 < r.header.metadataSize →
    r.header.metadataOffset.toNat + r.header.metadataSize.toNat ≤ file.length
  sections : r.sections = entriesOfBytes r.header.sectionCount.toNat (field file
    r.header.sectionTableOffset.toNat (r.header.sectionCount.toNat * entryBytes))
  checked : ∀ entry ∈ r.sections, entry.offset + entry.size ≤ r.header.totalFileSize
  table : 0 < r.header.sectionCount →
    r.header.sectionTableOffset.toNat + r.header.sectionTableSize.toNat ≤ file.length

theorem openFile_ok {filepath file : Bytes} {r : ArtifactReader}
    (opened : openFile filepath (some file) = .ok r) : Accepted file r := by
  obtain ⟨⟨header, s⟩, first, opened⟩ := except_bind_ok opened
  obtain ⟨⟨footer, t⟩, second, opened⟩ := except_bind_ok opened
  obtain ⟨⟨raw, metadata, u⟩, third, opened⟩ := except_bind_ok opened
  obtain ⟨⟨sections, map, v⟩, fourth, opened⟩ := except_bind_ok opened
  cases opened
  obtain ⟨large, started, _, bytes, headerIs, total⟩ := readHeader_ok first
  obtain ⟨_, kept, footerIs⟩ := readFooter_ok second
  obtain ⟨still, _, inside⟩ := readMetadata_ok third
  obtain ⟨same, sectionsAre, checked, table⟩ := readSections_ok fourth
  obtain ⟨small, actual⟩ := FileStream.tellg_end started
  have length : (FileStream.ofFile file).seekEnd.tellg.toNat = file.length := by
    rw [actual, UInt64.toNat_ofNat_of_lt' (by omega : file.length < 2 ^ 64)]
  -- every stage reads the one file
  have origin : (FileStream.ofFile file).bytes = file := rfl
  rw [FileStream.seekEnd_bytes, origin] at bytes headerIs
  rw [still, kept, bytes] at sectionsAre table same
  rw [kept, bytes] at inside
  rw [length] at large
  have end16 : ((FileStream.ofFile file).seekEnd.tellg - UInt64.ofNat footerBytes).toNat =
      file.length - footerBytes := by
    have sixteen : (UInt64.ofNat footerBytes).toNat = footerBytes := rfl
    have room : UInt64.ofNat footerBytes ≤ (FileStream.ofFile file).seekEnd.tellg := by
      rw [UInt64.le_iff_toNat_le, sixteen, length]
      omega
    rw [UInt64.toNat_sub_of_le _ _ room, length, sixteen]
  rw [bytes, end16] at footerIs
  exact ⟨rfl, same, small, large, headerIs, total ▸ length, footerIs, inside, sectionsAre,
    fun entry member => total ▸ checked entry member, table⟩

end Opened

end ArtifactReader

end XInfer
