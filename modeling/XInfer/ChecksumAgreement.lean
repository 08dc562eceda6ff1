import XInfer.ArtifactRoundTrip
import XInfer.Converter

/-!
One checksum in five places: the object of `artifact/checksum.cpp` in pieces of any size, the writer, the
reader, the functions of `artifact/c_api.cpp`, and the engine of `convert.py`. All of them compute the
code that its definition gives bit by bit.
-/

namespace XInfer.ChecksumAgreement

open Primitives LittleEndian Container ContainerLayout ArtifactReader Converter

open ChecksumBurst (covered validateChecksum_iff)

/-- Polynomial 0xC96C5795D7870F42, reflected, from all ones, with all bits turned at the end. -/
def crc64 (data : Bytes) : BitVec 64 :=
  ReflectedCrc.serial 0xC96C5795D7870F42 (BitVec.allOnes 64) data ^^^ BitVec.allOnes 64

-- the check value of this code, over the nine digits
example : crc64 (ascii "123456789") = 0x995DC9BBDF1939FA := by decide +kernel

theorem calculate_eq (data : Bytes) : Crc64.calculate data = crc64 data := by
  have ones : Crc64.initial = BitVec.allOnes 64 := rfl
  rw [Crc64.calculate, Crc64.update_eq, ← ReflectedCrc.serial_eq (by decide), ones]
  rfl

section Pieces

theorem foldl_update (crc : BitVec 64) (pieces : List Bytes) :
    pieces.foldl Crc64.update crc = Crc64.update crc pieces.flatten := by
  induction pieces generalizing crc with
  | nil => rfl
  | cons piece rest ih => rw [List.foldl_cons, ih, List.flatten_cons, Crc64.update_append]

theorem digest_pieces (pieces : List Bytes) :
    Crc64.digest (pieces.foldl Crc64.update Crc64.initial) = crc64 pieces.flatten := by
  rw [foldl_update, ← calculate_eq]
  rfl

end Pieces

section Container

variable {w : ArtifactWriter} {file : Bytes} {r after : ArtifactReader}

theorem sectionEntry_checksum (sec : PendingSection) (offset : UInt64) :
    (ArtifactWriter.sectionEntry sec offset).checksum = crc64 sec.data := by
  rw [← calculate_eq]
  unfold ArtifactWriter.sectionEntry
  dsimp only
  split
  · rename_i empty
    rw [empty, Crc64.calculate_nil]
  · rfl

theorem writeToFile_length (done : w.writeToFile = .ok file) :
    file.length = totalSize w.metadataJson w.sections := by
  unfold ArtifactWriter.writeToFile at done
  rw [ArtifactWriter.writePayloads_eq] at done
  dsimp only at done
  split at done
  · cases done
  · cases done
    simp only [List.length_append, List.length_drop, FileHeader.bytes_length, FileFooter.bytes_length,
      List.length_replicate, tableBytes_length, entriesFrom_length, totalSize, footerOffset, tableOffset, aligned,
      payloadEnd]
    omega

/-- The footer of a written file, as far as 64 bits count its bytes. -/
theorem writeToFile_checksum (done : w.writeToFile = .ok file) (small : file.length < 2 ^ 64) :
    (FileFooter.ofBytes (field file (file.length - footerBytes) footerBytes)).fileChecksum = crc64 (covered file) := by
  have fits := small
  rw [writeToFile_length done] at fits
  rw [w.writeToFile_eq fits] at done
  cases done
  rw [ArtifactRoundTrip.field_footer, FileFooter.ofBytes_bytes, ← calculate_eq]
  have front : covered (container w.metadataJson w.sections) =
      (header w.metadataJson w.sections).bytes ++ body w.metadataJson w.sections := by
    unfold covered container
    rw [List.length_append, FileFooter.bytes_length, Nat.add_sub_cancel]
    exact List.take_left
  rw [front]
  rfl

theorem validateChecksum_crc64 {filepath : Bytes} (opened : openFile filepath (some file) = .ok r) (bufferSize : Nat) :
    (r.validateChecksum bufferSize).1 = .ok () ↔ r.footer.fileChecksum = crc64 (covered file) := by
  rw [validateChecksum_iff (openFile_ok opened), calculate_eq, eq_comm]

/-- What comes out of a section has the checksum of its entry; a section without bytes is not checked. -/
theorem readSectionInto_crc64 {name data : Bytes} {bufferSize : Nat}
    (done : r.readSectionInto name bufferSize = (.ok data, after)) :
    ∃ info, r.getSectionInfo name = some info ∧ (info.size = 0 ∨ info.checksum = crc64 data) := by
  unfold readSectionInto at done
  split at done
  · cases done
  cases found : r.getSectionInfo name with
  | none =>
      rw [found] at done
      cases done
  | some info =>
      rw [found] at done
      refine ⟨info, rfl, ?_⟩
      dsimp only at done
      split at done
      · cases done
      split at done
      · rename_i empty
        exact Or.inl empty
      split at done
      · cases done
      split at done
      · cases done
      · rename_i same
        cases done
        rw [← calculate_eq]
        exact Or.inr (not_not.mp same).symm

end Container

/-- The code of the same bytes, wherever it is computed. -/
structure Agreement : Prop where
  update : ∀ pieces : List Bytes,
    Crc64.digest (pieces.foldl Crc64.update Crc64.initial) = crc64 pieces.flatten
  calculate : ∀ data, Crc64.calculate data = crc64 data
  sectionEntry : ∀ sec offset, (ArtifactWriter.sectionEntry sec offset).checksum = crc64 sec.data
  writeToFile : ∀ (w : ArtifactWriter) file, w.writeToFile = .ok file → file.length < 2 ^ 64 →
    (FileFooter.ofBytes (field file (file.length - footerBytes) footerBytes)).fileChecksum = crc64 (covered file)
  validateChecksum : ∀ filepath file r, openFile filepath (some file) = .ok r → ∀ bufferSize,
    (r.validateChecksum bufferSize).1 = .ok () ↔ r.footer.fileChecksum = crc64 (covered file)
  readSectionInto : ∀ (r : ArtifactReader) name bufferSize data after,
    r.readSectionInto name bufferSize = (.ok data, after) →
      ∃ info, r.getSectionInfo name = some info ∧ (info.size = 0 ∨ info.checksum = crc64 data)
  xinferCrc64 : ∀ data, Converter.xinferCrc64 data = crc64 data
  /-- The limit is a `uint64_t`. -/
  xinferCrc64File : ∀ file maxBytes, maxBytes < 2 ^ 64 →
    Converter.xinferCrc64File file maxBytes = crc64 (limited file maxBytes)
  calculateBytes : ∀ (engine : FastCRC64) data, engine.calculateBytes data = (crc64 data).toNat
  calculateFile : ∀ (engine : FastCRC64) file maxBytes, maxBytes < 2 ^ 64 →
    engine.calculateFile file maxBytes = (crc64 (limited file maxBytes)).toNat

theorem checksums_agree : Agreement where
  update := digest_pieces
  calculate := calculate_eq
  sectionEntry := sectionEntry_checksum
  writeToFile _ _ := writeToFile_checksum
  validateChecksum _ _ _ := validateChecksum_crc64
  readSectionInto _ _ _ _ _ := readSectionInto_crc64
  xinferCrc64 data := by
    unfold Converter.xinferCrc64
    split
    · rename_i empty
      rw [empty, ← calculate_eq, Crc64.calculate_nil]
    · exact calculate_eq data
  xinferCrc64File file maxBytes _ := by rw [xinferCrc64File_eq, calculate_eq]
  calculateBytes engine data := by rw [calculateBytes_eq, calculate_eq]
  calculateFile engine file maxBytes _ := by rw [calculateFile_limited, calculate_eq]

end XInfer.ChecksumAgreement
