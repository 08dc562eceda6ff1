import XInfer.ArtifactWriter
import XInfer.ChecksumBurst

/-!
A container read back: what `open` finds in the layout that the writer puts out.
-/

namespace XInfer.ArtifactRoundTrip

open Primitives LittleEndian Container ContainerLayout MetadataJson ArtifactReader

section Layout

variable (metadata : Bytes) (sections : List PendingSection)

theorem field_header : field (container metadata sections) 0 headerBytes = (header metadata sections).bytes := by
  rw [← (header metadata sections).bytes_length, container, List.append_assoc, field_here]

theorem field_footer : field (container metadata sections)
    ((container metadata sections).length - footerBytes) footerBytes = (footer metadata sections).bytes := by
  have length := (footer metadata sections).bytes_length
  have place : (container metadata sections).length - footerBytes =
      ((header metadata sections).bytes ++ body metadata sections).length + 0 := by
    rw [container, List.length_append, length]
    omega
  rw [place, container, field_skip]
  simp [field, List.take_of_length_le, length]

theorem field_metadata : field (container metadata sections) headerBytes metadata.length = metadata := by
  have place : headerBytes = (header metadata sections).bytes.length + 0 := by
    rw [FileHeader.bytes_length]
    rfl
  rw [container, List.append_assoc, place, field_skip, body]
  simp only [List.append_assoc]
  exact field_here _ _

theorem field_table : field (container metadata sections) (tableOffset metadata sections)
    (sections.length * entryBytes) = tableBytes (entriesFrom (headerBytes + metadata.length) sections) := by
  let front := (header metadata sections).bytes ++ (metadata ++ payload (headerBytes + metadata.length) sections ++
    List.replicate (gap (payloadEnd (headerBytes + metadata.length) sections)) 0)
  have place : tableOffset metadata sections = front.length + 0 := by
    simp only [front, tableOffset, aligned, payloadEnd, List.length_append, List.length_replicate,
      FileHeader.bytes_length]
    omega
  have width : sections.length * entryBytes =
      (tableBytes (entriesFrom (headerBytes + metadata.length) sections)).length := by
    rw [tableBytes_length, entriesFrom_length]
  have split : container metadata sections = front ++
      (tableBytes (entriesFrom (headerBytes + metadata.length) sections) ++ (footer metadata sections).bytes) := by
    simp only [container, body, front, List.append_assoc]
  rw [split, place, field_skip, width, field_here]

/-- A section in the payloads: its entry, and its bytes at the place that the entry names. -/
theorem payload_section {offset : Nat} {sections : List PendingSection} {i : Nat} {sec : PendingSection}
    (listed : sections[i]? = some sec) : ∃ place, (entriesFrom offset sections)[i]? = some (entryAt sec place) ∧
      64 ∣ place ∧ offset ≤ place ∧ place + sec.data.length ≤ payloadEnd offset sections ∧
      field (payload offset sections) (place - offset) sec.data.length = sec.data := by
  induction sections generalizing offset i with
  | nil => simp at listed
  | cons head rest ih =>
      have room := le_payloadEnd (aligned offset + head.data.length) rest
      have later := le_aligned offset
      rw [payloadEnd_cons]
      cases i with
      | zero =>
          obtain rfl : head = sec := by simpa using listed
          refine ⟨aligned offset, rfl, aligned_dvd offset, later, room, ?_⟩
          have place : aligned offset - offset = (List.replicate (gap offset) (0 : UInt8)).length + 0 := by
            rw [List.length_replicate, aligned]
            omega
          rw [payload, List.append_assoc, place, field_skip, field_here]
      | succ i =>
          obtain ⟨place, entry, aligned64, behind, inside, bytes⟩ :=
            @ih (aligned offset + head.data.length) i (by simpa using listed)
          refine ⟨place, by simpa [entriesFrom] using entry, aligned64, by omega, inside, ?_⟩
          have shift : place - offset = (List.replicate (gap offset) (0 : UInt8) ++ head.data).length +
              (place - (aligned offset + head.data.length)) := by
            rw [List.length_append, List.length_replicate]
            unfold aligned at behind ⊢
            omega
          rw [payload, shift, field_skip, bytes]

theorem entryAt_range {sec : PendingSection} {place : Nat} (small : place + sec.data.length < 2 ^ 64) :
    (entryAt sec place).offset.toNat = place ∧ (entryAt sec place).size.toNat = sec.data.length := by
  constructor <;> exact UInt64.toNat_ofNat_of_lt' (by rw [show UInt64.size = 2 ^ 64 from rfl]; omega)

theorem mem_entriesFrom {offset : Nat} {sections : List PendingSection}
    (small : payloadEnd offset sections < 2 ^ 64) {entry : SectionEntry}
    (member : entry ∈ entriesFrom offset sections) : 64 ∣ entry.offset.toNat ∧
      offset ≤ entry.offset.toNat ∧ entry.offset.toNat + entry.size.toNat ≤ payloadEnd offset sections := by
  induction sections generalizing offset with
  | nil => cases member
  | cons sec rest ih =>
      rw [payloadEnd_cons] at small ⊢
      have room := le_payloadEnd (aligned offset + sec.data.length) rest
      have later := le_aligned offset
      rcases List.mem_cons.mp member with rfl | behind
      · obtain ⟨place, size⟩ := entryAt_range (by omega : aligned offset + sec.data.length < 2 ^ 64)
        rw [place, size]
        exact ⟨aligned_dvd offset, later, room⟩
      · obtain ⟨multiple, after, inside⟩ := ih small behind
        exact ⟨multiple, by omega, inside⟩

/-- Each payload ends before the next one begins. -/
theorem entriesFrom_pairwise {offset : Nat} {sections : List PendingSection}
    (small : payloadEnd offset sections < 2 ^ 64) :
    (entriesFrom offset sections).Pairwise fun a b => a.offset.toNat + a.size.toNat ≤ b.offset.toNat := by
  induction sections generalizing offset with
  | nil => exact List.Pairwise.nil
  | cons sec rest ih =>
      rw [payloadEnd_cons] at small
      have room := le_payloadEnd (aligned offset + sec.data.length) rest
      refine List.pairwise_cons.mpr ⟨fun entry member => ?_, ih small⟩
      obtain ⟨place, size⟩ := entryAt_range (by omega : aligned offset + sec.data.length < 2 ^ 64)
      rw [place, size]
      exact (mem_entriesFrom small member).2.1

end Layout

section Index

/-- The index map after the loop over the entries of `sections`. -/
def indexed : Nat → List PendingSection → List (Bytes × Nat) → List (Bytes × Nat)
  | _, [], map => map
  | i, sec :: rest, map => indexed (i + 1) rest ((sec.name, i) :: map)

theorem cString_entry {sec : PendingSection} (short : sec.name.length < MAX_SECTION_NAME_LEN)
    (plain : 0 ∉ sec.name) (place : Nat) (rest : List SectionEntry) :
    cString (tableBytes (entryAt sec place :: rest)) = some sec.name := by
  have filled : padded MAX_SECTION_NAME_LEN sec.name =
      sec.name ++ 0 :: List.replicate (MAX_SECTION_NAME_LEN - sec.name.length - 1) 0 := by
    rw [padded_of_le (Nat.le_of_lt short), ← List.replicate_succ]
    congr 2
    omega
  have shape : tableBytes (entryAt sec place :: rest) = padded MAX_SECTION_NAME_LEN sec.name ++
      ((entryAt sec place).bytes.drop MAX_SECTION_NAME_LEN ++ tableBytes rest) := by
    have front : (entryAt sec place).bytes = padded MAX_SECTION_NAME_LEN sec.name ++
        (entryAt sec place).bytes.drop MAX_SECTION_NAME_LEN := by
      have width := padded_length MAX_SECTION_NAME_LEN sec.name
      rw [SectionEntry.bytes]
      change padded MAX_SECTION_NAME_LEN sec.name ++ _ = _ ++ (padded MAX_SECTION_NAME_LEN sec.name ++ _).drop _
      rw [List.drop_left' width]
    rw [tableBytes, List.flatMap_cons, ← List.append_assoc, ← front]
    rfl
  rw [shape, filled, List.append_assoc, List.cons_append]
  exact cString_append plain

theorem indexSections_entries {sections : List PendingSection}
    (named : ∀ sec ∈ sections, sec.name.length < MAX_SECTION_NAME_LEN ∧ 0 ∉ sec.name) {offset : Nat}
    {actual : UInt64} (small : payloadEnd offset sections < 2 ^ 64)
    (fits : payloadEnd offset sections ≤ actual.toNat) (i : Nat) (map : List (Bytes × Nat)) :
    indexSections actual i (entriesFrom offset sections) map = .ok (indexed i sections map) := by
  induction sections generalizing offset i map with
  | nil => rfl
  | cons sec rest ih =>
      obtain ⟨short, plain⟩ := named sec List.mem_cons_self
      rw [payloadEnd_cons] at small fits
      have room := le_payloadEnd (aligned offset + sec.data.length) rest
      obtain ⟨place, size⟩ := entryAt_range (by omega : aligned offset + sec.data.length < 2 ^ 64)
      have inside : ¬ actual < (entryAt sec (aligned offset)).offset + (entryAt sec (aligned offset)).size := by
        rw [UInt64.not_lt, UInt64.le_iff_toNat_le, UInt64.toNat_add, place, size,
          Nat.mod_eq_of_lt (by omega)]
        omega
      rw [entriesFrom, indexSections, cString_entry short plain]
      simp only [if_neg inside]
      exact ih (fun other member => named other (List.mem_cons_of_mem _ member)) small fits _ _

theorem lookup_indexed_other {sections : List PendingSection} {name : Bytes}
    (absent : name ∉ sections.map PendingSection.name) (i : Nat) (map : List (Bytes × Nat)) :
    (indexed i sections map).lookup name = map.lookup name := by
  induction sections generalizing i map with
  | nil => rfl
  | cons sec rest ih =>
      rw [List.map_cons, List.mem_cons, not_or] at absent
      have other : (name == sec.name) = false := by simpa using absent.1
      rw [indexed, ih absent.2, List.lookup_cons, other]

/-- A name leads to its own entry. -/
theorem lookup_indexed {sections : List PendingSection} (distinct : (sections.map PendingSection.name).Nodup)
    {k : Nat} {sec : PendingSection} (listed : sections[k]? = some sec) (i : Nat) (map : List (Bytes × Nat)) :
    (indexed i sections map).lookup sec.name = some (i + k) := by
  induction sections generalizing i k map with
  | nil => simp at listed
  | cons head rest ih =>
      obtain ⟨fresh, tail⟩ := List.nodup_cons.mp distinct
      cases k with
      | zero =>
          obtain rfl : head = sec := by simpa using listed
          rw [indexed, lookup_indexed_other fresh, List.lookup_cons_self, Nat.add_zero]
      | succ k =>
          rw [indexed, ih tail (by simpa using listed)]
          congr 1
          omega

/-- The names that `list_sections` reads back. -/
theorem names_entriesFrom {sections : List PendingSection}
    (named : ∀ sec ∈ sections, sec.name.length < MAX_SECTION_NAME_LEN ∧ 0 ∉ sec.name) (offset : Nat) :
    (entriesFrom offset sections).tails.dropLast.map (fun entries => cString (tableBytes entries)) =
      sections.map fun sec => some sec.name := by
  induction sections generalizing offset with
  | nil => rfl
  | cons sec rest ih =>
      obtain ⟨short, plain⟩ := named sec List.mem_cons_self
      have later := ih (fun other member => named other (List.mem_cons_of_mem _ member))
        (aligned offset + sec.data.length)
      have some : (entriesFrom (aligned offset + sec.data.length) rest).tails ≠ [] := by
        cases entriesFrom (aligned offset + sec.data.length) rest <;> simp
      rw [entriesFrom, List.tails, List.dropLast_cons_of_ne_nil some, List.map_cons, later,
        cString_entry short plain, List.map_cons]

end Index

section Open

variable (metadata : ArtifactMetadata) (sections : List PendingSection)

/-- A container small enough for the offsets of a stream, with names as `add_section` takes them. -/
structure Storable : Prop where
  size : totalSize (toJson metadata) sections < 2 ^ 63
  count : sections.length < 2 ^ 32
  named : ∀ sec ∈ sections, sec.name.length < MAX_SECTION_NAME_LEN ∧ 0 ∉ sec.name

/-- What the stages of `open` have read, standing anywhere in the file. -/
def reader (filepath : Bytes) (pos : Nat) : ArtifactReader where
  filepath := filepath
  fileStream := ⟨container (toJson metadata) sections, pos, true⟩
  isOpen := true
  header := header (toJson metadata) sections
  footer := footer (toJson metadata) sections
  rawMetadataJson := toJson metadata
  metadata := metadata
  sections := entriesFrom (headerBytes + (toJson metadata).length) sections
  sectionIndexMap := indexed 0 sections []

variable {metadata sections} {text : Bytes}

/-- Metadata that is parsed, and a container small enough for the offsets of a stream. -/
structure Stored (text : Bytes) (metadata : ArtifactMetadata) (sections : List PendingSection) : Prop where
  parsed : fromJson text = some metadata
  size : totalSize text sections < 2 ^ 63
  count : sections.length < 2 ^ 32
  named : ∀ sec ∈ sections, sec.name.length < MAX_SECTION_NAME_LEN ∧ 0 ∉ sec.name

/-- What the stages of `open` have read from any text of the metadata. -/
def readerOf (text : Bytes) (metadata : ArtifactMetadata) (sections : List PendingSection) (filepath : Bytes)
    (pos : Nat) : ArtifactReader where
  filepath := filepath
  fileStream := ⟨container text sections, pos, true⟩
  isOpen := true
  header := header text sections
  footer := footer text sections
  rawMetadataJson := text
  metadata := metadata
  sections := entriesFrom (headerBytes + text.length) sections
  sectionIndexMap := indexed 0 sections []

theorem Storable.stored (storable : Storable metadata sections) : Stored (toJson metadata) metadata sections :=
  ⟨parse_toJson metadata, storable.size, storable.count, storable.named⟩

theorem toNat_ofNat_small {value : Nat} (small : value < 2 ^ 64) : (UInt64.ofNat value).toNat = value :=
  UInt64.toNat_ofNat_of_lt' small

variable {file : Bytes} {actual : UInt64}

theorem readHeader_of {h : FileHeader} (small : file.length < 2 ^ 63)
    (large : headerBytes + footerBytes ≤ file.length) (actualIs : actual.toNat = file.length)
    (bytes : field file 0 headerBytes = h.bytes) (checked : checkHeader h actual = .ok ()) (pos : Nat) :
    readHeader ⟨file, pos, true⟩ actual = .ok (h, ⟨file, headerBytes, true⟩) := by
  have enough : ¬ actual < UInt64.ofNat (headerBytes + footerBytes) := by
    rw [UInt64.not_lt, UInt64.le_iff_toNat_le, actualIs]
    exact large
  have read : ((⟨file, pos, true⟩ : FileStream).seekg 0).read headerBytes =
      (h.bytes, ⟨file, headerBytes, true⟩) := by
    rw [FileStream.seekg_read rfl small (by simp only [UInt64.toNat_zero]; omega), UInt64.toNat_zero, bytes,
      Nat.zero_add]
  unfold readHeader
  rw [if_neg enough, read]
  simp only [not_true_eq_false, if_false, FileHeader.ofBytes_bytes, checked]
  rfl

theorem readFooter_of {f : FileFooter} (small : file.length < 2 ^ 63)
    (large : headerBytes + footerBytes ≤ file.length) (actualIs : actual.toNat = file.length)
    (bytes : field file (file.length - footerBytes) footerBytes = f.bytes)
    (magic : f.footerMagic = FOOTER_MAGIC_BYTES) (pos : Nat) :
    readFooter ⟨file, pos, true⟩ actual = .ok (f, ⟨file, file.length, true⟩) := by
  have sixteen : (UInt64.ofNat footerBytes).toNat = footerBytes := rfl
  have place : (actual - UInt64.ofNat footerBytes).toNat = file.length - footerBytes := by
    have inside : UInt64.ofNat footerBytes ≤ actual := by
      rw [UInt64.le_iff_toNat_le, actualIs, sixteen]
      omega
    rw [UInt64.toNat_sub_of_le _ _ inside, actualIs, sixteen]
  have read : ((⟨file, pos, true⟩ : FileStream).seekg (actual - UInt64.ofNat footerBytes)).read footerBytes =
      (f.bytes, ⟨file, file.length, true⟩) := by
    rw [FileStream.seekg_read rfl small (by simp only [place]; omega), place]
    simp only [bytes, Prod.mk.injEq, FileStream.mk.injEq, true_and, and_true]
    omega
  unfold readFooter
  rw [read]
  simp [FileFooter.ofBytes_bytes, magic]

theorem readMetadata_of {h : FileHeader} {text : Bytes} {m : ArtifactMetadata} (small : file.length < 2 ^ 63)
    (actualIs : actual.toNat = file.length) (present : text ≠ []) (size : h.metadataSize.toNat = text.length)
    (fits : h.metadataOffset.toNat + text.length ≤ file.length)
    (bytes : field file h.metadataOffset.toNat text.length = text) (parsed : fromJson text = some m) (pos : Nat) :
    ∃ after, readMetadata ⟨file, pos, true⟩ h actual = .ok (text, m, ⟨file, after, true⟩) := by
  have positive : 0 < h.metadataSize := by
    rw [UInt64.lt_iff_toNat_lt, size]
    exact List.length_pos_iff.mpr present
  have inside : ¬ actual < h.metadataOffset + h.metadataSize := by
    rw [UInt64.not_lt, UInt64.le_iff_toNat_le, UInt64.toNat_add, size, actualIs, Nat.mod_eq_of_lt (by omega)]
    exact fits
  have short : ¬ 2 ^ 63 ≤ h.metadataSize.toNat := by omega
  have read : ((⟨file, pos, true⟩ : FileStream).seekg h.metadataOffset).read h.metadataSize.toNat =
      (text, ⟨file, h.metadataOffset.toNat + text.length, true⟩) := by
    rw [size, FileStream.seekg_read rfl small fits]
    simp only [bytes]
  refine ⟨h.metadataOffset.toNat + text.length, ?_⟩
  unfold readMetadata
  rw [if_pos positive, if_neg inside, if_neg short, read]
  simp [parsed]

theorem readSections_of {h : FileHeader} {entries : List SectionEntry} {map : List (Bytes × Nat)}
    (small : file.length < 2 ^ 63) (actualIs : actual.toNat = file.length)
    (count : h.sectionCount.toNat = entries.length)
    (size : h.sectionTableSize.toNat = entries.length * entryBytes)
    (fits : h.sectionTableOffset.toNat + entries.length * entryBytes ≤ file.length)
    (bytes : field file h.sectionTableOffset.toNat (entries.length * entryBytes) = tableBytes entries)
    (index : indexSections actual 0 entries [] = .ok map) (pos : Nat) :
    ∃ after, readSections ⟨file, pos, true⟩ h actual = .ok (entries, map, ⟨file, after, true⟩) := by
  by_cases positive : 0 < h.sectionCount
  · have expected : h.sectionTableSize = UInt64.ofNat (h.sectionCount.toNat * entryBytes) := by
      rw [count, ← size, UInt64.ofNat_toNat]
    have inside : ¬ actual < h.sectionTableOffset + h.sectionTableSize := by
      rw [UInt64.not_lt, UInt64.le_iff_toNat_le, UInt64.toNat_add, size, actualIs, Nat.mod_eq_of_lt (by omega)]
      exact fits
    have read : ((⟨file, pos, true⟩ : FileStream).seekg h.sectionTableOffset).read h.sectionTableSize.toNat =
        (tableBytes entries, ⟨file, h.sectionTableOffset.toNat + entries.length * entryBytes, true⟩) := by
      rw [size, FileStream.seekg_read rfl small fits]
      simp only [bytes]
    refine ⟨h.sectionTableOffset.toNat + entries.length * entryBytes, ?_⟩
    unfold readSections
    rw [if_pos positive, ← expected]
    simp only [ne_eq, not_true_eq_false, if_false, if_neg inside, read, count, entriesOfBytes_tableBytes, index]
    rfl
  · have zero : entries.length = 0 := by
      rw [← count]
      exact Nat.le_zero.mp (UInt32.not_lt.mp positive)
    obtain rfl := List.length_eq_zero_iff.mp zero
    obtain rfl : map = [] := by
      cases index
      rfl
    refine ⟨pos, ?_⟩
    unfold readSections
    rw [if_neg positive]
    rfl

/-- The places of a container, in the order of the file; a stream reaches all of them. -/
theorem Stored.places (stored : Stored text metadata sections) :
    headerBytes + text.length ≤ payloadEnd (headerBytes + text.length) sections ∧
      payloadEnd (headerBytes + text.length) sections ≤ tableOffset text sections ∧
      tableOffset text sections + sections.length * entryBytes + footerBytes =
        (container text sections).length ∧
      (container text sections).length < 2 ^ 63 := by
  have length := container_length text sections
  have size := stored.size
  exact ⟨le_payloadEnd _ sections, le_aligned _, length.symm, by omega⟩

theorem Storable.places (storable : Storable metadata sections) :
    headerBytes + (toJson metadata).length ≤ payloadEnd (headerBytes + (toJson metadata).length) sections ∧
      payloadEnd (headerBytes + (toJson metadata).length) sections ≤ tableOffset (toJson metadata) sections ∧
      tableOffset (toJson metadata) sections + sections.length * entryBytes + footerBytes =
        (container (toJson metadata) sections).length ∧
      (container (toJson metadata) sections).length < 2 ^ 63 := storable.stored.places

/-- The numbers of the header are the places that they were made from. -/
theorem Stored.header_toNat (stored : Stored text metadata sections) :
    (header text sections).metadataSize.toNat = text.length ∧
      (header text sections).sectionTableOffset.toNat = tableOffset text sections ∧
      (header text sections).sectionTableSize.toNat = sections.length * entryBytes ∧
      (header text sections).sectionCount.toNat = sections.length := by
  obtain ⟨start, payloads, total, small⟩ := stored.places
  exact ⟨toNat_ofNat_small (by omega), toNat_ofNat_small (by omega), toNat_ofNat_small (by omega),
    UInt32.toNat_ofNat_of_lt' stored.count⟩

theorem Storable.header_toNat (storable : Storable metadata sections) :
    (header (toJson metadata) sections).metadataSize.toNat = (toJson metadata).length ∧
      (header (toJson metadata) sections).sectionTableOffset.toNat = tableOffset (toJson metadata) sections ∧
      (header (toJson metadata) sections).sectionTableSize.toNat = sections.length * entryBytes ∧
      (header (toJson metadata) sections).sectionCount.toNat = sections.length :=
  storable.stored.header_toNat

theorem checkHeader_container (metadata : Bytes) (sections : List PendingSection) :
    checkHeader (header metadata sections) (UInt64.ofNat (container metadata sections).length) = .ok () := by
  have magic : (header metadata sections).magic = MAGIC_BYTES := rfl
  have version : (header metadata sections).formatVersion = CURRENT_FORMAT_VERSION := rfl
  have headerSize : (header metadata sections).headerSize = UInt32.ofNat headerBytes := rfl
  have total : (header metadata sections).totalFileSize = UInt64.ofNat (container metadata sections).length :=
    congrArg UInt64.ofNat (container_length metadata sections).symm
  unfold checkHeader
  simp only [magic, version, headerSize, total, ne_eq, not_true_eq_false, if_false]

theorem openFile_stored (stored : Stored text metadata sections) (filepath : Bytes) :
    ∃ pos, openFile filepath (some (container text sections)) =
      .ok (readerOf text metadata sections filepath pos) := by
  obtain ⟨start, payloads, total, small⟩ := stored.places
  obtain ⟨metadataSize, tableAt, tableSize, count⟩ := stored.header_toNat
  let actual := UInt64.ofNat (container text sections).length
  have large : headerBytes + footerBytes ≤ (container text sections).length := by omega
  have actualIs : actual.toNat = (container text sections).length :=
    toNat_ofNat_small (by omega)
  have opened : (FileStream.ofFile (container text sections)).seekEnd =
      ⟨container text sections, (container text sections).length, true⟩ := by
    rw [FileStream.seekEnd]
    exact if_pos small
  have tell : (⟨container text sections, (container text sections).length, true⟩ :
      FileStream).tellg = actual := rfl
  -- the four stages of `open`, each from where the one before has left the stream
  have first := readHeader_of small large actualIs (field_header _ _) (checkHeader_container _ _)
    (container text sections).length
  have second := readFooter_of small large actualIs (field_footer _ _) rfl headerBytes
  have inside : (header text sections).metadataOffset.toNat + text.length ≤
      (container text sections).length := by
    have metadataOffset : (header text sections).metadataOffset.toNat = headerBytes := rfl
    rw [metadataOffset]
    omega
  have present : text ≠ [] := by
    rintro rfl
    cases stored.parsed
  obtain ⟨afterMetadata, third⟩ := readMetadata_of small actualIs present metadataSize inside
    (field_metadata _ _) stored.parsed (container text sections).length
  have index := @indexSections_entries _ stored.named _ actual
    (by omega : payloadEnd (headerBytes + text.length) sections < 2 ^ 64) (by omega) 0 []
  have table := field_table text sections
  have entries := entriesFrom_length (headerBytes + text.length) sections
  rw [← entries] at count tableSize table
  rw [← tableAt] at table
  have tableFits : (header text sections).sectionTableOffset.toNat +
      (entriesFrom (headerBytes + text.length) sections).length * entryBytes ≤
        (container text sections).length := by
    rw [tableAt, entries]
    omega
  obtain ⟨afterSections, fourth⟩ := readSections_of small actualIs count tableSize tableFits table index
    afterMetadata
  refine ⟨afterSections, ?_⟩
  unfold openFile
  simp only [opened, tell, first, second, third, fourth, bind, Except.bind, pure, Except.pure]
  rfl

theorem openFile_container (storable : Storable metadata sections) (filepath : Bytes) :
    ∃ pos, openFile filepath (some (container (toJson metadata) sections)) =
      .ok (reader metadata sections filepath pos) :=
  openFile_stored storable.stored filepath

/-- The reader after any number of checksum runs and section reads. -/
inductive Reads (r : ArtifactReader) : ArtifactReader → Prop
  | start : Reads r r
  | validate {s : ArtifactReader} (bufferSize : Nat) : Reads r s → Reads r (s.validateChecksum bufferSize).2
  | read {s : ArtifactReader} (name : Bytes) : Reads r s → Reads r (s.readSection name).2

theorem validate_stored (stored : Stored text metadata sections) (filepath : Bytes) (pos bufferSize : Nat) :
    ((readerOf text metadata sections filepath pos).validateChecksum bufferSize).1 = .ok () := by
  obtain ⟨here, opened⟩ := openFile_stored stored filepath
  have accepted := openFile_ok opened
  -- the position plays no part
  have anywhere : Accepted (container text sections) (readerOf text metadata sections filepath pos) :=
    ⟨accepted.isOpen, rfl, accepted.small, accepted.large, accepted.header, accepted.total, accepted.footer,
      accepted.metadata, accepted.sections, accepted.checked, accepted.table⟩
  rw [ChecksumBurst.validateChecksum_iff anywhere]
  have length := (footer text sections).bytes_length
  have front : ChecksumBurst.covered (container text sections) =
      (header text sections).bytes ++ body text sections := by
    rw [ChecksumBurst.covered, container, List.length_append, length, Nat.add_sub_cancel, List.take_left]
  rw [front]
  rfl

theorem validate_reader (storable : Storable metadata sections) (filepath : Bytes) (pos bufferSize : Nat) :
    ((reader metadata sections filepath pos).validateChecksum bufferSize).1 = .ok () :=
  validate_stored storable.stored filepath pos bufferSize

theorem lookup_stored (distinct : (sections.map PendingSection.name).Nodup) {i : Nat} {sec : PendingSection}
    (listed : sections[i]? = some sec) (filepath : Bytes) (pos : Nat) :
    ∃ place, (readerOf text metadata sections filepath pos).getSectionInfo sec.name = some (entryAt sec place) ∧
      64 ∣ place ∧ headerBytes + text.length ≤ place ∧
      place + sec.data.length ≤ tableOffset text sections ∧
      field (container text sections) place sec.data.length = sec.data := by
  obtain ⟨place, entry, multiple, behind, inside, bytes⟩ :=
    @payload_section (headerBytes + text.length) sections i sec listed
  have within := le_aligned (payloadEnd (headerBytes + text.length) sections)
  refine ⟨place, ?_, multiple, behind, Nat.le_trans inside within, ?_⟩
  · have found := lookup_indexed distinct listed 0 []
    rw [Nat.zero_add] at found
    simp only [getSectionInfo, readerOf, found, Option.bind_some, entry]
  · have front : place = ((header text sections).bytes ++ text).length +
        (place - (headerBytes + text.length)) := by
      rw [List.length_append, FileHeader.bytes_length]
      omega
    have fits : place - (headerBytes + text.length) + sec.data.length ≤
        (payload (headerBytes + text.length) sections).length := by
      unfold payloadEnd at inside
      omega
    rw [front, container, body]
    simp only [List.append_assoc]
    rw [← List.append_assoc, field_skip, field_left fits, bytes]

theorem lookup_reader (distinct : (sections.map PendingSection.name).Nodup) {i : Nat} {sec : PendingSection}
    (listed : sections[i]? = some sec) (filepath : Bytes) (pos : Nat) :
    ∃ place, (reader metadata sections filepath pos).getSectionInfo sec.name = some (entryAt sec place) ∧
      64 ∣ place ∧ headerBytes + (toJson metadata).length ≤ place ∧
      place + sec.data.length ≤ tableOffset (toJson metadata) sections ∧
      field (container (toJson metadata) sections) place sec.data.length = sec.data :=
  lookup_stored distinct listed filepath pos

theorem readSection_stored (stored : Stored text metadata sections)
    (distinct : (sections.map PendingSection.name).Nodup) {sec : PendingSection} (member : sec ∈ sections)
    (filepath : Bytes) (pos : Nat) : ∃ after, (readerOf text metadata sections filepath pos).readSection sec.name =
      (.ok sec.data, readerOf text metadata sections filepath after) := by
  obtain ⟨i, listed⟩ := List.mem_iff_getElem?.mp member
  obtain ⟨place, info, _, _, inside, bytes⟩ :=
    @lookup_stored metadata sections text distinct i sec listed filepath pos
  obtain ⟨start, payloads, total, size⟩ := stored.places
  obtain ⟨offset, width⟩ := entryAt_range (by omega : place + sec.data.length < 2 ^ 64)
  have short : ¬ 2 ^ 63 ≤ (entryAt sec place).size.toNat := by omega
  unfold readSection
  rw [info]
  simp only [if_neg short]
  by_cases empty : (entryAt sec place).size = 0
  · have none : sec.data = [] := by
      apply List.length_eq_zero_iff.mp
      rw [← width, empty]
      rfl
    rw [if_pos empty, none]
    exact ⟨pos, rfl⟩
  · have read : ((readerOf text metadata sections filepath pos).fileStream.seekg (entryAt sec place).offset).read
        (entryAt sec place).size.toNat =
          (sec.data, ⟨container text sections, place + sec.data.length, true⟩) := by
      have file : (readerOf text metadata sections filepath pos).fileStream.bytes =
          container text sections := rfl
      rw [FileStream.seekg_read rfl (by rw [file]; omega) (by rw [file, offset, width]; omega), offset, width,
        file, bytes]
      rfl
    rw [if_neg empty]
    unfold readSectionInto
    rw [info]
    have isOpen : (readerOf text metadata sections filepath pos).isOpen = true := rfl
    have sum : Crc64.calculate sec.data = (entryAt sec place).checksum := rfl
    simp only [isOpen, not_true_eq_false, if_false, Nat.lt_irrefl, if_neg empty, read, sum, ne_eq]
    exact ⟨place + sec.data.length, rfl⟩

theorem readSection_reader (storable : Storable metadata sections)
    (distinct : (sections.map PendingSection.name).Nodup) {sec : PendingSection} (member : sec ∈ sections)
    (filepath : Bytes) (pos : Nat) : ∃ after, (reader metadata sections filepath pos).readSection sec.name =
      (.ok sec.data, reader metadata sections filepath after) :=
  readSection_stored storable.stored distinct member filepath pos

theorem validateChecksum_stored (filepath : Bytes) (pos bufferSize : Nat) :
    ∃ after, ((readerOf text metadata sections filepath pos).validateChecksum bufferSize).2 =
      readerOf text metadata sections filepath after := by
  have isOpen : (readerOf text metadata sections filepath pos).isOpen = true := rfl
  have bytes := fun size remaining => FileStream.crcLoop_bytes (s :=
    (readerOf text metadata sections filepath pos).fileStream.clear.seekg 0) size remaining remaining Crc64.initial
  unfold validateChecksum
  simp only [isOpen, not_true_eq_false, if_false]
  generalize (if bufferSize = 0 then 4 * 1024 * 1024 else bufferSize) = size
  generalize ((readerOf text metadata sections filepath pos).header.totalFileSize -
    UInt64.ofNat footerBytes).toNat = remaining
  have kept := bytes size remaining
  rw [FileStream.seekg_bytes] at kept
  cases run : ((readerOf text metadata sections filepath pos).fileStream.clear.seekg 0).crcLoop size remaining
      remaining Crc64.initial with
  | mk crc s =>
      rw [run] at kept
      have closed : ∃ after, { readerOf text metadata sections filepath pos with fileStream := s.clear } =
          readerOf text metadata sections filepath after := by
        obtain ⟨bytes, here, good⟩ := s
        obtain rfl : bytes = container text sections := kept
        exact ⟨here, rfl⟩
      cases crc with
      | error _ => exact closed
      | ok crc =>
          dsimp only
          split <;> exact closed

/-- Nothing but the position in the file changes. -/
theorem reads_stored (stored : Stored text metadata sections)
    (distinct : (sections.map PendingSection.name).Nodup) {filepath : Bytes} {pos : Nat} {s : ArtifactReader}
    (reads : Reads (readerOf text metadata sections filepath pos) s) :
    ∃ after, s = readerOf text metadata sections filepath after := by
  induction reads with
  | start => exact ⟨pos, rfl⟩
  | validate bufferSize _ ih =>
      obtain ⟨here, rfl⟩ := ih
      exact validateChecksum_stored filepath here bufferSize
  | read name _ ih =>
      obtain ⟨here, rfl⟩ := ih
      by_cases present : name ∈ sections.map PendingSection.name
      · obtain ⟨sec, member, rfl⟩ := List.mem_map.mp present
        obtain ⟨after, read⟩ := readSection_stored stored distinct member filepath here
        exact ⟨after, congrArg Prod.snd read⟩
      · have absent : (readerOf text metadata sections filepath here).getSectionInfo name = none := by
          have unlisted := lookup_indexed_other present 0 []
          simp only [getSectionInfo, readerOf, unlisted]
          rfl
        unfold readSection
        rw [absent]
        exact ⟨here, rfl⟩

theorem reads_reader (storable : Storable metadata sections)
    (distinct : (sections.map PendingSection.name).Nodup) {filepath : Bytes} {pos : Nat} {s : ArtifactReader}
    (reads : Reads (reader metadata sections filepath pos) s) :
    ∃ after, s = reader metadata sections filepath after :=
  reads_stored storable.stored distinct reads

/-- What a reader of the written file answers. The ranges are those of the entries that it keeps. -/
structure ReadBack (metadata : ArtifactMetadata) (sections : List PendingSection) (file : Bytes)
    (r : ArtifactReader) : Prop where
  checksum : ∀ bufferSize, (r.validateChecksum bufferSize).1 = .ok ()
  metadata : r.metadata = metadata
  names : r.listSections = sections.map fun sec => some sec.name
  sections : ∀ sec ∈ sections, ∃ info ∈ r.sections, r.getSectionInfo sec.name = some info ∧
    info.typeTag = sec.type ∧ info.flags = sec.flags ∧ info.size.toNat = sec.data.length ∧
    (r.readSection sec.name).1 = .ok sec.data
  aligned : ∀ info ∈ r.sections, 64 ∣ info.offset.toNat
  behindHeader : headerBytes ≤ r.header.metadataOffset.toNat
  behindMetadata : ∀ info ∈ r.sections,
    r.header.metadataOffset.toNat + r.header.metadataSize.toNat ≤ info.offset.toNat
  beforeFooter : ∀ info ∈ r.sections, info.offset.toNat + info.size.toNat + footerBytes ≤ file.length
  apart : r.sections.Pairwise fun a b => a.offset.toNat + a.size.toNat ≤ b.offset.toNat

theorem readBack_reader (storable : Storable metadata sections)
    (distinct : (sections.map PendingSection.name).Nodup) (filepath : Bytes) (pos : Nat) :
    ReadBack metadata sections (container (toJson metadata) sections) (reader metadata sections filepath pos) := by
  obtain ⟨start, payloads, total, size⟩ := storable.places
  have small : payloadEnd (headerBytes + (toJson metadata).length) sections < 2 ^ 64 := by omega
  have metadataSize : (reader metadata sections filepath pos).header.metadataSize.toNat =
      (toJson metadata).length := storable.header_toNat.1
  have metadataOffset : (reader metadata sections filepath pos).header.metadataOffset.toNat = headerBytes := rfl
  constructor
  · exact validate_reader storable filepath pos
  · rfl
  · exact names_entriesFrom storable.named _
  · intro sec member
    obtain ⟨i, listed⟩ := List.mem_iff_getElem?.mp member
    obtain ⟨place, info, _, _, inside, _⟩ := @lookup_reader metadata sections distinct i sec listed filepath pos
    obtain ⟨_, width⟩ := entryAt_range (by omega : place + sec.data.length < 2 ^ 64)
    obtain ⟨after, read⟩ := readSection_reader storable distinct member filepath pos
    have kept : entryAt sec place ∈ (reader metadata sections filepath pos).sections := by
      obtain ⟨k, _, found⟩ := Option.bind_eq_some_iff.mp info
      exact List.mem_of_getElem? found
    exact ⟨entryAt sec place, kept, info, rfl, rfl, width, congrArg Prod.fst read⟩
  · intro info member
    exact (mem_entriesFrom small member).1
  · exact Nat.le_of_eq metadataOffset.symm
  · intro info member
    rw [metadataSize, metadataOffset]
    exact (mem_entriesFrom small member).2.1
  · intro info member
    have inside := (mem_entriesFrom small member).2.2
    omega
  · exact entriesFrom_pairwise small

end Open

section Calls

/-- Calls that all answer `true` leave exactly their sections, under distinct short names. -/
theorem addSections_some {calls : List PendingSection} {w after : ArtifactWriter}
    (added : w.addSections calls = some after) :
    after.sections = w.sections ++ calls ∧ after.metadataJson = w.metadataJson := by
  induction calls generalizing w with
  | nil =>
      cases added
      simp
  | cons sec rest ih =>
      unfold ArtifactWriter.addSections at added
      split at added
      · rename_i next answered
        obtain ⟨sections, json⟩ := ih added
        unfold ArtifactWriter.addSection at answered
        split at answered
        · split at answered
          · cases answered
            exact ⟨by rw [sections]; simp, json⟩
          · cases answered
        · cases answered
      · cases added

end Calls

/-- Written metadata and sections are read back, by every reader of the file and as often as it is
asked. -/
theorem written_readBack {metadata : ArtifactMetadata} {calls : List PendingSection} {w : ArtifactWriter}
    (added : (ArtifactWriter.new.setMetadata metadata).addSections calls = some w)
    (plain : ∀ sec ∈ calls, 0 ∉ sec.name) (count : calls.length < 2 ^ 32)
    (size : totalSize (toJson metadata) calls < 2 ^ 63) (filepath : Bytes) :
    ∃ file r, w.writeToFile = .ok file ∧ openFile filepath (some file) = .ok r ∧
      ∀ s, Reads r s → ReadBack metadata calls file s := by
  obtain ⟨sections, json⟩ := addSections_some added
  have sections : w.sections = calls := sections
  have json : w.metadataJson = toJson metadata := json
  have named : ∀ sec ∈ calls, sec.name.length < MAX_SECTION_NAME_LEN ∧ 0 ∉ sec.name := by
    intro sec member
    exact ⟨(w.named sec (sections ▸ member)).2, plain sec member⟩
  have distinct : (calls.map PendingSection.name).Nodup := sections ▸ w.distinct
  have storable : Storable metadata calls := ⟨size, count, named⟩
  obtain ⟨pos, opened⟩ := openFile_container storable filepath
  refine ⟨container (toJson metadata) calls, reader metadata calls filepath pos, ?_, opened, ?_⟩
  · have written := w.writeToFile_eq (by rw [sections, json]; omega)
    rwa [sections, json] at written
  · intro s reads
    obtain ⟨after, rfl⟩ := reads_reader storable distinct reads
    exact readBack_reader storable distinct filepath after

/-- One section of three bytes and an empty one. -/
def twoCalls : List PendingSection := [⟨ascii "a", 0, 0, [1, 2, 3]⟩, ⟨ascii "b", 3, 0, []⟩]

theorem twoCalls_readBack : ∃ w file r,
    (ArtifactWriter.new.setMetadata blank).addSections twoCalls = some w ∧
    w.writeToFile = .ok file ∧ openFile [] (some file) = .ok r ∧
    ∀ s, Reads r s → ReadBack blank twoCalls file s := by
  have answered : ((ArtifactWriter.new.setMetadata blank).addSections twoCalls).isSome = true := by
    decide +kernel
  obtain ⟨w, added⟩ := Option.isSome_iff_exists.mp answered
  obtain ⟨file, r, written, opened, back⟩ :=
    written_readBack added (by decide) (by decide) (by decide +kernel) []
  exact ⟨w, file, r, added, written, opened, back⟩

end XInfer.ArtifactRoundTrip
