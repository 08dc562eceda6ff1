import XInfer.LittleEndian
import XInfer.Crc64

/-!
The layout of `artifact/container.h`: the packed header, section entry and footer, as values and
as the bytes that a little-endian machine keeps for them.
-/

namespace XInfer.Container

open Primitives LittleEndian

def MAGIC_BYTES : Bytes := ascii "XINFER" ++ [0, 0]
def FOOTER_MAGIC_BYTES : Bytes := ascii "XINFFOOT"

theorem magicBytes_length : MAGIC_BYTES.length = 8 := by decide
theorem footerMagicBytes_length : FOOTER_MAGIC_BYTES.length = 8 := by decide
def CURRENT_FORMAT_VERSION : UInt32 := 1
def SECTION_ALIGNMENT : UInt64 := 64
def MAX_SECTION_NAME_LEN : Nat := 96

/-- `sizeof` of the packed structures. -/
def headerBytes : Nat := 64
def entryBytes : Nat := 128
def footerBytes : Nat := 16

/-- `enum class SectionType : uint32_t`, by its tag. -/
abbrev SectionType := UInt32

structure FileHeader where
  magic : Bytes
  formatVersion : UInt32
  headerSize : UInt32
  flags : UInt32
  sectionCount : UInt32
  metadataOffset : UInt64
  metadataSize : UInt64
  sectionTableOffset : UInt64
  sectionTableSize : UInt64
  totalFileSize : UInt64
  magic_length : magic.length = 8
  deriving DecidableEq

structure SectionEntry where
  name : Bytes
  typeTag : SectionType
  flags : UInt32
  offset : UInt64
  size : UInt64
  checksum : BitVec 64
  name_length : name.length = MAX_SECTION_NAME_LEN
  deriving DecidableEq

structure FileFooter where
  fileChecksum : BitVec 64
  footerMagic : Bytes
  footerMagic_length : footerMagic.length = 8
  deriving DecidableEq

/-- A section that waits to be written. -/
structure PendingSection where
  name : Bytes
  type : SectionType
  flags : UInt32
  data : Bytes
  deriving DecidableEq

def word32 (value : UInt32) : Bytes := pack 4 value.toNat
def word64 (value : UInt64) : Bytes := pack 8 value.toNat
def checksumBytes (value : BitVec 64) : Bytes := pack 8 value.toNat

def FileHeader.bytes (header : FileHeader) : Bytes :=
  header.magic ++ (word32 header.formatVersion ++ (word32 header.headerSize ++ (word32 header.flags ++
    (word32 header.sectionCount ++ (word64 header.metadataOffset ++ (word64 header.metadataSize ++
      (word64 header.sectionTableOffset ++ (word64 header.sectionTableSize ++
        word64 header.totalFileSize))))))))

def SectionEntry.bytes (entry : SectionEntry) : Bytes :=
  entry.name ++ (word32 entry.typeTag ++ (word32 entry.flags ++ (word64 entry.offset ++
    (word64 entry.size ++ checksumBytes entry.checksum))))

def FileFooter.bytes (footer : FileFooter) : Bytes := checksumBytes footer.fileChecksum ++ footer.footerMagic

def readWord32 (bytes : Bytes) (offset : Nat) : UInt32 := UInt32.ofNat (unpack (field bytes offset 4))
def readWord64 (bytes : Bytes) (offset : Nat) : UInt64 := UInt64.ofNat (unpack (field bytes offset 8))
def readChecksum (bytes : Bytes) (offset : Nat) : BitVec 64 := BitVec.ofNat 64 (unpack (field bytes offset 8))

def FileHeader.ofBytes (bytes : Bytes) : FileHeader where
  magic := padded 8 (field bytes 0 8)
  formatVersion := readWord32 bytes 8
  headerSize := readWord32 bytes 12
  flags := readWord32 bytes 16
  sectionCount := readWord32 bytes 20
  metadataOffset := readWord64 bytes 24
  metadataSize := readWord64 bytes 32
  sectionTableOffset := readWord64 bytes 40
  sectionTableSize := readWord64 bytes 48
  totalFileSize := readWord64 bytes 56
  magic_length := padded_length _ _

def SectionEntry.ofBytes (bytes : Bytes) : SectionEntry where
  name := padded MAX_SECTION_NAME_LEN (field bytes 0 96)
  typeTag := readWord32 bytes 96
  flags := readWord32 bytes 100
  offset := readWord64 bytes 104
  size := readWord64 bytes 112
  checksum := readChecksum bytes 120
  name_length := padded_length _ _

def FileFooter.ofBytes (bytes : Bytes) : FileFooter where
  fileChecksum := readChecksum bytes 0
  footerMagic := padded 8 (field bytes 8 8)
  footerMagic_length := padded_length _ _

/-- The section table of `count` entries. -/
def entriesOfBytes : Nat → Bytes → List SectionEntry
  | 0, _ => []
  | count + 1, bytes => SectionEntry.ofBytes bytes :: entriesOfBytes count (bytes.drop entryBytes)

def tableBytes (entries : List SectionEntry) : Bytes := entries.flatMap SectionEntry.bytes

@[simp] theorem word32_length (value : UInt32) : (word32 value).length = 4 := pack_length _ _
@[simp] theorem word64_length (value : UInt64) : (word64 value).length = 8 := pack_length _ _
@[simp] theorem checksumBytes_length (value : BitVec 64) : (checksumBytes value).length = 8 := pack_length _ _

@[simp] theorem ofNat_word32 (value : UInt32) : UInt32.ofNat (unpack (word32 value)) = value := by
  have small : value.toNat < 256 ^ 4 := value.toNat_lt
  rw [word32, unpack_pack, Nat.mod_eq_of_lt small, UInt32.ofNat_toNat]

@[simp] theorem ofNat_word64 (value : UInt64) : UInt64.ofNat (unpack (word64 value)) = value := by
  have small : value.toNat < 256 ^ 8 := value.toNat_lt
  rw [word64, unpack_pack, Nat.mod_eq_of_lt small, UInt64.ofNat_toNat]

@[simp] theorem ofNat_checksum (value : BitVec 64) : BitVec.ofNat 64 (unpack (checksumBytes value)) = value := by
  have small : value.toNat < 256 ^ 8 := value.isLt
  rw [checksumBytes, unpack_pack, Nat.mod_eq_of_lt small, BitVec.ofNat_toNat, BitVec.setWidth_eq]

@[simp] theorem FileHeader.bytes_length (header : FileHeader) : header.bytes.length = headerBytes := by
  simp [FileHeader.bytes, header.magic_length, headerBytes]

@[simp] theorem SectionEntry.bytes_length (entry : SectionEntry) : entry.bytes.length = entryBytes := by
  simp [SectionEntry.bytes, entry.name_length, entryBytes, MAX_SECTION_NAME_LEN]

@[simp] theorem FileFooter.bytes_length (footer : FileFooter) : footer.bytes.length = footerBytes := by
  simp [FileFooter.bytes, footer.footerMagic_length, footerBytes]

theorem FileHeader.ofBytes_bytes (header : FileHeader) : FileHeader.ofBytes header.bytes = header := by
  obtain ⟨magic, version, size, flags, count, metaAt, metaSize, tableAt, tableSize, total, known⟩ := header
  simp [FileHeader.ofBytes, FileHeader.bytes, readWord32, readWord64, field, List.drop_append,
    List.drop_eq_nil_of_le, List.take_of_length_le, known, padded_of_length]

theorem SectionEntry.ofBytes_bytes (entry : SectionEntry) : SectionEntry.ofBytes entry.bytes = entry := by
  obtain ⟨name, tag, flags, offset, size, checksum, known⟩ := entry
  rw [MAX_SECTION_NAME_LEN] at known
  simp [SectionEntry.ofBytes, SectionEntry.bytes, readWord32, readWord64, readChecksum, field,
    List.drop_append, List.drop_eq_nil_of_le, List.take_of_length_le, known,
    padded_of_length, MAX_SECTION_NAME_LEN]

theorem FileFooter.ofBytes_bytes (footer : FileFooter) : FileFooter.ofBytes footer.bytes = footer := by
  obtain ⟨checksum, magic, known⟩ := footer
  simp [FileFooter.ofBytes, FileFooter.bytes, readChecksum, field, List.drop_append,
    List.take_of_length_le, known, padded_of_length]

/-- What stands behind an entry is not looked at. -/
theorem SectionEntry.ofBytes_append (entry : SectionEntry) (rest : Bytes) :
    SectionEntry.ofBytes (entry.bytes ++ rest) = SectionEntry.ofBytes entry.bytes := by
  have width : entry.bytes.length = 128 := entry.bytes_length
  have inside : ∀ offset size, offset + size ≤ 128 →
      field (entry.bytes ++ rest) offset size = field entry.bytes offset size := by
    intro offset size fits
    exact field_left (width ▸ fits) rest
  unfold SectionEntry.ofBytes readWord32 readWord64 readChecksum
  simp only [inside, Nat.reduceAdd, Nat.reduceLeDiff]

theorem tableBytes_length (entries : List SectionEntry) :
    (tableBytes entries).length = entries.length * entryBytes := by
  induction entries with
  | nil => simp [tableBytes]
  | cons entry rest ih =>
      unfold tableBytes at ih ⊢
      rw [List.flatMap_cons, List.length_append, ih, entry.bytes_length, List.length_cons,
        Nat.succ_mul, Nat.add_comm]

theorem entriesOfBytes_tableBytes (entries : List SectionEntry) :
    entriesOfBytes entries.length (tableBytes entries) = entries := by
  induction entries with
  | nil => rfl
  | cons entry rest ih =>
      have behind : (entry.bytes ++ tableBytes rest).drop entryBytes = tableBytes rest := by
        rw [← entry.bytes_length, List.drop_left]
      rw [tableBytes, List.flatMap_cons, List.length_cons, entriesOfBytes,
        entry.ofBytes_append, entry.ofBytes_bytes]
      exact congrArg (entry :: ·) ((congrArg _ behind).trans ih)

@[simp] theorem entriesOfBytes_length (count : Nat) (bytes : Bytes) :
    (entriesOfBytes count bytes).length = count := by
  induction count generalizing bytes with
  | zero => rfl
  | succ count ih => rw [entriesOfBytes, List.length_cons, ih]

end XInfer.Container
