import XInfer.ArtifactReader
import Mathlib.Data.UInt

/-!
What `ArtifactReader::open` knows about the ranges of a file that it accepts. Metadata and section
table are read at once, and a read that wraps is a failed seek. A section is only checked, with a
sum of 64 bits.
-/

namespace XInfer.ReaderBounds

open Primitives LittleEndian Container MetadataJson ArtifactReader

/-- The ranges over the natural numbers, and the ends of the names. -/
structure InBounds (file : Bytes) (r : ArtifactReader) : Prop where
  metadata : 0 < r.header.metadataSize →
    r.header.metadataOffset.toNat + r.header.metadataSize.toNat ≤ file.length
  table : 0 < r.header.sectionCount →
    r.header.sectionTableOffset.toNat + r.header.sectionTableSize.toNat ≤ file.length
  sections : ∀ entry ∈ r.sections, entry.offset.toNat + entry.size.toNat ≤ file.length
  terminated : ∀ entry ∈ r.sections, 0 ∈ entry.name

/-- The entries that the header of a file points to. -/
def sectionTable (file : Bytes) : List SectionEntry :=
  let header := FileHeader.ofBytes (field file 0 headerBytes)
  entriesOfBytes header.sectionCount.toNat
    (field file header.sectionTableOffset.toNat (header.sectionCount.toNat * entryBytes))

theorem sections_eq {file : Bytes} {r : ArtifactReader} (accepted : Accepted file r) :
    r.sections = sectionTable file := by
  have sections := accepted.sections
  rw [accepted.header] at sections
  exact sections

/-- A sum that does not wrap is the sum. -/
theorem section_fits {file : Bytes} {r : ArtifactReader} (accepted : Accepted file r)
    {entry : SectionEntry} (member : entry ∈ r.sections)
    (exact : entry.offset.toNat + entry.size.toNat < 2 ^ 64) :
    entry.offset.toNat + entry.size.toNat ≤ file.length := by
  have checked := UInt64.le_iff_toNat_le.mp (accepted.checked entry member)
  rwa [UInt64.toNat_add, Nat.mod_eq_of_lt exact, accepted.total] at checked

theorem inBounds_iff {filepath file : Bytes} {r : ArtifactReader}
    (opened : openFile filepath (some file) = .ok r) :
    InBounds file r ↔ ∀ entry ∈ sectionTable file,
      entry.offset.toNat + entry.size.toNat < 2 ^ 64 ∧ 0 ∈ entry.name := by
  have accepted := openFile_ok opened
  have small := accepted.small
  rw [← sections_eq accepted]
  constructor
  · intro inside entry member
    have fits := inside.sections entry member
    exact ⟨by omega, inside.terminated entry member⟩
  · intro fine
    constructor
    · exact accepted.metadata
    · exact accepted.table
    · intro entry member
      exact section_fits accepted member (fine entry member).1
    · intro entry member
      exact (fine entry member).2

/-- A file without metadata, with one section. -/
def oneSection (name : Bytes) (offset size : UInt64) : Bytes :=
  let header : FileHeader := ⟨MAGIC_BYTES, 1, 64, 0, 1, 64, 0, 64, 128, 208, magicBytes_length⟩
  let entry : SectionEntry := ⟨padded MAX_SECTION_NAME_LEN name, 0, 0, offset, size, 0, padded_length _ _⟩
  let footer : FileFooter := ⟨0, FOOTER_MAGIC_BYTES, footerMagicBytes_length⟩
  header.bytes ++ entry.bytes ++ footer.bytes

theorem oneSection_inBounds : ∃ r, openFile [] (some (oneSection (ascii "a") 192 0)) = .ok r ∧
    InBounds (oneSection (ascii "a") 192 0) r := by
  have opens : (openFile [] (some (oneSection (ascii "a") 192 0))).toOption.isSome = true := by
    decide +kernel
  cases opened : openFile [] (some (oneSection (ascii "a") 192 0)) with
  | error failure => rw [opened] at opens; cases opens
  | ok r => exact ⟨r, rfl, (inBounds_iff opened).mpr (by decide +kernel)⟩

/-- A section of 64 bytes that begins 64 bytes below 2^64. -/
theorem wrapping_not_inBounds : ∃ r, openFile [] (some (oneSection (ascii "a") (2 ^ 64 - 64) 64)) = .ok r ∧
    ¬ InBounds (oneSection (ascii "a") (2 ^ 64 - 64) 64) r := by
  have opens : (openFile [] (some (oneSection (ascii "a") (2 ^ 64 - 64) 64))).toOption.isSome = true := by
    decide +kernel
  cases opened : openFile [] (some (oneSection (ascii "a") (2 ^ 64 - 64) 64)) with
  | error failure => rw [opened] at opens; cases opens
  | ok r =>
      refine ⟨r, rfl, fun inside => ?_⟩
      have sections := inside.sections
      rw [sections_eq (openFile_ok opened)] at sections
      revert sections
      decide +kernel

end XInfer.ReaderBounds
