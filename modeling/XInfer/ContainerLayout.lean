import XInfer.Container

/-!
What a container file is, over the natural numbers: header, metadata, the payloads at multiples of
the alignment, the section table, and a footer with the checksum of all that. Both writers of
the format are compared with this layout.
-/

namespace XInfer.ContainerLayout

open Primitives LittleEndian Container

/-- Zeros up to the next multiple of the alignment. -/
def gap (offset : Nat) : Nat := (64 - offset % 64) % 64

def aligned (offset : Nat) : Nat := offset + gap offset

theorem aligned_dvd (offset : Nat) : 64 ∣ aligned offset := by
  unfold aligned gap
  omega

theorem le_aligned (offset : Nat) : offset ≤ aligned offset := Nat.le_add_right _ _

def entryAt (sec : PendingSection) (offset : Nat) : SectionEntry where
  name := padded MAX_SECTION_NAME_LEN sec.name
  typeTag := sec.type
  flags := sec.flags
  offset := UInt64.ofNat offset
  size := UInt64.ofNat sec.data.length
  checksum := Crc64.calculate sec.data
  name_length := padded_length _ _

/-- The payloads behind `offset` bytes of a file. -/
def payload : Nat → List PendingSection → Bytes
  | _, [] => []
  | offset, sec :: rest =>
      List.replicate (gap offset) 0 ++ sec.data ++ payload (aligned offset + sec.data.length) rest

def entriesFrom : Nat → List PendingSection → List SectionEntry
  | _, [] => []
  | offset, sec :: rest =>
      entryAt sec (aligned offset) :: entriesFrom (aligned offset + sec.data.length) rest

/-- Where the payloads end. -/
def payloadEnd (offset : Nat) (sections : List PendingSection) : Nat :=
  offset + (payload offset sections).length

@[simp] theorem entriesFrom_length (offset : Nat) (sections : List PendingSection) :
    (entriesFrom offset sections).length = sections.length := by
  induction sections generalizing offset with
  | nil => rfl
  | cons sec rest ih => rw [entriesFrom, List.length_cons, ih, List.length_cons]

theorem payloadEnd_cons (offset : Nat) (sec : PendingSection) (rest : List PendingSection) :
    payloadEnd offset (sec :: rest) = payloadEnd (aligned offset + sec.data.length) rest := by
  simp only [payloadEnd, payload, List.length_append, List.length_replicate, aligned]
  omega

theorem le_payloadEnd (offset : Nat) (sections : List PendingSection) : offset ≤ payloadEnd offset sections :=
  Nat.le_add_right _ _

variable (metadata : Bytes) (sections : List PendingSection)

/-- Offset of the section table. -/
def tableOffset : Nat := aligned (payloadEnd (headerBytes + metadata.length) sections)

def footerOffset : Nat := tableOffset metadata sections + sections.length * entryBytes

/-- The size of the whole file. -/
def totalSize : Nat := footerOffset metadata sections + footerBytes

def header : FileHeader where
  magic := MAGIC_BYTES
  formatVersion := CURRENT_FORMAT_VERSION
  headerSize := UInt32.ofNat headerBytes
  flags := 0
  sectionCount := UInt32.ofNat sections.length
  metadataOffset := UInt64.ofNat headerBytes
  metadataSize := UInt64.ofNat metadata.length
  sectionTableOffset := UInt64.ofNat (tableOffset metadata sections)
  sectionTableSize := UInt64.ofNat (sections.length * entryBytes)
  totalFileSize := UInt64.ofNat (totalSize metadata sections)
  magic_length := magicBytes_length

/-- Everything behind the header and before the footer. -/
def body : Bytes :=
  metadata ++ payload (headerBytes + metadata.length) sections ++
    List.replicate (gap (payloadEnd (headerBytes + metadata.length) sections)) 0 ++
      tableBytes (entriesFrom (headerBytes + metadata.length) sections)

def footer : FileFooter where
  fileChecksum := Crc64.calculate ((header metadata sections).bytes ++ body metadata sections)
  footerMagic := FOOTER_MAGIC_BYTES
  footerMagic_length := footerMagicBytes_length

def container : Bytes :=
  (header metadata sections).bytes ++ body metadata sections ++ (footer metadata sections).bytes

theorem body_length : headerBytes + (body metadata sections).length = footerOffset metadata sections := by
  simp only [body, List.length_append, List.length_replicate, tableBytes_length, entriesFrom_length,
    footerOffset, tableOffset, aligned, payloadEnd]
  omega

theorem container_length : (container metadata sections).length = totalSize metadata sections := by
  have inner := body_length metadata sections
  simp only [container, List.length_append, FileHeader.bytes_length, FileFooter.bytes_length, totalSize]
  omega

end XInfer.ContainerLayout
