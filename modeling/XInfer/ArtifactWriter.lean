import XInfer.ContainerLayout
import XInfer.FileStream
import XInfer.MetadataJson
import Mathlib.Data.List.Nodup

/-!
`ArtifactWriter` of `artifact/writer.cpp`, on a disk that serves every request. `write_to_file` keeps
the bytes it has put out next to the 64-bit offset that it computes on its own.
-/

namespace XInfer

open Primitives LittleEndian Container ContainerLayout MetadataJson

structure ArtifactWriter where
  metadataJson : Bytes
  sections : List PendingSection
  named : ∀ sec ∈ sections, sec.name ≠ [] ∧ sec.name.length < MAX_SECTION_NAME_LEN
  distinct : (sections.map PendingSection.name).Nodup

namespace ArtifactWriter

def new : ArtifactWriter := ⟨[], [], by simp, by simp⟩

def setRawMetadataJson (w : ArtifactWriter) (json : Bytes) : ArtifactWriter := { w with metadataJson := json }

def setMetadata (w : ArtifactWriter) (metadata : ArtifactMetadata) : ArtifactWriter :=
  w.setRawMetadataJson (toJson metadata)

/-- `add_section` on a vector. -/
def addSection (w : ArtifactWriter) (sec : PendingSection) : Bool × ArtifactWriter :=
  if short : sec.name ≠ [] ∧ sec.name.length < MAX_SECTION_NAME_LEN then
    if fresh : sec.name ∉ w.sections.map PendingSection.name then
      (true, { w with
        sections := w.sections ++ [sec]
        named := by
          intro other member
          rcases List.mem_append.mp member with old | new
          · exact w.named other old
          · exact List.mem_singleton.mp new ▸ short
        distinct := by
          rw [List.map_append, List.nodup_append]
          refine ⟨w.distinct, List.nodup_singleton _, fun name old other new => ?_⟩
          rw [List.map_singleton, List.mem_singleton] at new
          exact fun same => fresh (new ▸ same ▸ old) })
    else (false, w)
  else (false, w)

/-- `add_section` on a pointer, `none` for the null pointer. -/
def addSectionFrom (w : ArtifactWriter) (name : Bytes) (type : SectionType) (data : Option Bytes)
    (flags : UInt32) : Bool × ArtifactWriter := w.addSection ⟨name, type, flags, data.getD []⟩

/-- A sequence of calls that all answer `true`. -/
def addSections (w : ArtifactWriter) : List PendingSection → Option ArtifactWriter
  | [] => some w
  | sec :: rest => match w.addSection sec with
      | (true, after) => after.addSections rest
      | (false, _) => none

/-- The variables of `write_to_file`: what went into the file, the offset, the table so far. -/
structure Progress where
  content : Bytes
  currentOffset : UInt64
  entries : List SectionEntry

def writePadding (p : Progress) : Progress :=
  let pad := (SECTION_ALIGNMENT - p.currentOffset % SECTION_ALIGNMENT) % SECTION_ALIGNMENT
  { p with content := p.content ++ List.replicate pad.toNat 0, currentOffset := p.currentOffset + pad }

def sectionEntry (sec : PendingSection) (currentOffset : UInt64) : SectionEntry where
  name := padded MAX_SECTION_NAME_LEN (sec.name.take (min sec.name.length (MAX_SECTION_NAME_LEN - 1)))
  typeTag := sec.type
  flags := sec.flags
  offset := currentOffset
  size := UInt64.ofNat sec.data.length
  checksum := if sec.data = [] then 0 else Crc64.calculate sec.data
  name_length := padded_length _ _

def writeSection (p : Progress) (sec : PendingSection) : Progress :=
  let p := writePadding p
  { content := p.content ++ sec.data
    currentOffset := p.currentOffset + UInt64.ofNat sec.data.length
    entries := p.entries ++ [sectionEntry sec p.currentOffset] }

/-- The header as it stands before its offsets are known. -/
def placeholder (w : ArtifactWriter) : FileHeader :=
  ⟨MAGIC_BYTES, CURRENT_FORMAT_VERSION, UInt32.ofNat headerBytes, 0, UInt32.ofNat w.sections.length,
    0, 0, 0, 0, 0, magicBytes_length⟩

/-- Header, metadata, payloads and the padding before the table. -/
def writePayloads (w : ArtifactWriter) : Progress :=
  writePadding (w.sections.foldl writeSection
    ⟨w.placeholder.bytes ++ w.metadataJson, UInt64.ofNat headerBytes + UInt64.ofNat w.metadataJson.length, []⟩)

/-- `write_to_file`: the file, or the error message. -/
def writeToFile (w : ArtifactWriter) : Except Bytes Bytes :=
  let p := w.writePayloads
  let tableSize := UInt64.ofNat (p.entries.length * entryBytes)
  let currentOffset := p.currentOffset + tableSize
  let header := { w.placeholder with
    metadataOffset := UInt64.ofNat headerBytes
    metadataSize := UInt64.ofNat w.metadataJson.length
    sectionTableOffset := p.currentOffset
    sectionTableSize := tableSize
    totalFileSize := currentOffset + UInt64.ofNat footerBytes }
  -- the header is written over the placeholder, then the file is read back for its checksum
  let written := header.bytes ++ (p.content ++ tableBytes p.entries).drop headerBytes
  match ((FileStream.ofFile written).crcLoop (64 * 1024) currentOffset.toNat currentOffset.toNat
      Crc64.initial).1 with
  | .error _ => .error (ascii "Premature EOF while computing file checksum.")
  | .ok crc =>
      let footer : FileFooter := ⟨Crc64.digest crc, FOOTER_MAGIC_BYTES, footerMagicBytes_length⟩
      .ok (written ++ footer.bytes)

section Layout

theorem padding_toNat (offset : Nat) :
    ((SECTION_ALIGNMENT - UInt64.ofNat offset % SECTION_ALIGNMENT) % SECTION_ALIGNMENT).toNat = gap offset := by
  have sixty : SECTION_ALIGNMENT.toNat = 64 := rfl
  have rest : (UInt64.ofNat offset % SECTION_ALIGNMENT).toNat = offset % 64 := by
    rw [UInt64.toNat_mod, sixty, UInt64.toNat_ofNat']
    omega
  have inside : UInt64.ofNat offset % SECTION_ALIGNMENT ≤ SECTION_ALIGNMENT := by
    rw [UInt64.le_iff_toNat_le, rest, sixty]
    omega
  rw [UInt64.toNat_mod, UInt64.toNat_sub_of_le _ _ inside, rest, sixty]
  rfl

theorem ofNat_add (a b : Nat) : UInt64.ofNat a + UInt64.ofNat b = UInt64.ofNat (a + b) :=
  (UInt64.ofNat_add a b).symm

/-- The offset counts what was written, modulo 2^64. -/
theorem writePadding_eq (content : Bytes) (entries : List SectionEntry) :
    writePadding ⟨content, UInt64.ofNat content.length, entries⟩ =
      ⟨content ++ List.replicate (gap content.length) 0, UInt64.ofNat (aligned content.length), entries⟩ := by
  have pad := padding_toNat content.length
  have word : (SECTION_ALIGNMENT - UInt64.ofNat content.length % SECTION_ALIGNMENT) % SECTION_ALIGNMENT =
      UInt64.ofNat (gap content.length) := by
    rw [← pad, UInt64.ofNat_toNat]
  rw [word] at pad
  unfold writePadding
  simp only [word, pad, ofNat_add]
  rfl

theorem sectionEntry_eq {sec : PendingSection} (short : sec.name.length < MAX_SECTION_NAME_LEN) (offset : Nat) :
    sectionEntry sec (UInt64.ofNat offset) = entryAt sec offset := by
  have whole : sec.name.take (min sec.name.length (MAX_SECTION_NAME_LEN - 1)) = sec.name :=
    List.take_of_length_le (by omega)
  have sum : (if sec.data = [] then 0 else Crc64.calculate sec.data) = Crc64.calculate sec.data := by
    split
    · rename_i empty
      rw [empty]
      rfl
    · rfl
  unfold sectionEntry entryAt
  simp only [whole, sum]

theorem foldl_writeSection {sections : List PendingSection}
    (short : ∀ sec ∈ sections, sec.name.length < MAX_SECTION_NAME_LEN) (content : Bytes)
    (entries : List SectionEntry) :
    sections.foldl writeSection ⟨content, UInt64.ofNat content.length, entries⟩ =
      ⟨content ++ payload content.length sections, UInt64.ofNat (payloadEnd content.length sections),
        entries ++ entriesFrom content.length sections⟩ := by
  induction sections generalizing content entries with
  | nil => simp [payload, entriesFrom, payloadEnd]
  | cons sec rest ih =>
      have length : (content ++ List.replicate (gap content.length) 0 ++ sec.data).length =
          aligned content.length + sec.data.length := by
        simp only [List.length_append, List.length_replicate, aligned]
      have step : writeSection ⟨content, UInt64.ofNat content.length, entries⟩ sec =
          ⟨content ++ List.replicate (gap content.length) 0 ++ sec.data,
            UInt64.ofNat (content ++ List.replicate (gap content.length) 0 ++ sec.data).length,
            entries ++ [entryAt sec (aligned content.length)]⟩ := by
        unfold writeSection
        rw [writePadding_eq, length]
        simp only [ofNat_add, sectionEntry_eq (short sec List.mem_cons_self)]
      rw [List.foldl_cons, step, ih fun other member => short other (List.mem_cons_of_mem _ member), length,
        payloadEnd_cons, payload, entriesFrom]
      simp only [List.append_assoc, List.singleton_append]

variable (w : ArtifactWriter)

theorem writePayloads_eq : w.writePayloads =
    ⟨w.placeholder.bytes ++ w.metadataJson ++ payload (headerBytes + w.metadataJson.length) w.sections ++
        List.replicate (gap (payloadEnd (headerBytes + w.metadataJson.length) w.sections)) 0,
      UInt64.ofNat (tableOffset w.metadataJson w.sections),
      entriesFrom (headerBytes + w.metadataJson.length) w.sections⟩ := by
  have length : (w.placeholder.bytes ++ w.metadataJson).length = headerBytes + w.metadataJson.length := by
    rw [List.length_append, FileHeader.bytes_length]
  have short : ∀ sec ∈ w.sections, sec.name.length < MAX_SECTION_NAME_LEN := fun sec member =>
    (w.named sec member).2
  have loop := foldl_writeSection short (w.placeholder.bytes ++ w.metadataJson) []
  rw [length, List.nil_append] at loop
  have ends : (w.placeholder.bytes ++ w.metadataJson ++
      payload (headerBytes + w.metadataJson.length) w.sections).length =
        payloadEnd (headerBytes + w.metadataJson.length) w.sections := by
    rw [List.length_append, length]
    rfl
  unfold writePayloads
  rw [ofNat_add, loop, ← ends, writePadding_eq, ends]
  rfl

/-- As long as the offsets fit, the writer puts out the container. -/
theorem writeToFile_eq (fits : totalSize w.metadataJson w.sections < 2 ^ 64) :
    w.writeToFile = .ok (container w.metadataJson w.sections) := by
  have offset : UInt64.ofNat (tableOffset w.metadataJson w.sections) +
      UInt64.ofNat (w.sections.length * entryBytes) = UInt64.ofNat (footerOffset w.metadataJson w.sections) :=
    ofNat_add _ _
  have bytesToRead : (UInt64.ofNat (footerOffset w.metadataJson w.sections)).toNat =
      footerOffset w.metadataJson w.sections := by
    apply UInt64.toNat_ofNat_of_lt'
    rw [show UInt64.size = 2 ^ 64 from rfl]
    unfold totalSize at fits
    omega
  let written := (header w.metadataJson w.sections).bytes ++ body w.metadataJson w.sections
  have length : written.length = footerOffset w.metadataJson w.sections := by
    rw [← body_length, List.length_append, FileHeader.bytes_length]
  have loop : ((FileStream.ofFile written).crcLoop (64 * 1024) (footerOffset w.metadataJson w.sections)
      (footerOffset w.metadataJson w.sections) Crc64.initial).1 = .ok (Crc64.update Crc64.initial written) := by
    rw [FileStream.crcLoop_of_fits (by decide) _ _ (Nat.le_refl _) rfl]
    · rw [← length]
      simp [FileStream.ofFile, field]
    · simp [FileStream.ofFile, length]
  unfold writeToFile
  rw [writePayloads_eq]
  simp only [entriesFrom_length, offset, bytesToRead, ofNat_add]
  have behind : (w.placeholder.bytes ++ w.metadataJson ++
      payload (headerBytes + w.metadataJson.length) w.sections ++
      List.replicate (gap (payloadEnd (headerBytes + w.metadataJson.length) w.sections)) 0 ++
      tableBytes (entriesFrom (headerBytes + w.metadataJson.length) w.sections)).drop headerBytes =
        body w.metadataJson w.sections := by
    rw [← w.placeholder.bytes_length]
    simp only [List.append_assoc, List.drop_left]
    simp only [body, List.append_assoc]
    rfl
  rw [behind]
  change (match (FileStream.crcLoop (FileStream.ofFile written) _ _ _ _).1 with
    | .error _ => _
    | .ok crc => _) = _
  rw [loop]
  rfl

end Layout

end ArtifactWriter

end XInfer
