import XInfer.ArtifactReader

/-!
`validate_checksum` on a file that `open` accepts: the loop covers every byte before the footer once,
so the answer is the comparison of one checksum, and a short burst of changes turns it.
-/

namespace XInfer.ChecksumBurst

open Primitives LittleEndian Container ArtifactReader

/-- The bytes before the footer. -/
def covered (file : Bytes) : Bytes := file.take (file.length - footerBytes)

variable {file : Bytes} {r : ArtifactReader}

/-- Whatever the size of the buffer. -/
theorem validateChecksum_iff (accepted : Accepted file r) (bufferSize : Nat) :
    (r.validateChecksum bufferSize).1 = .ok () ↔ Crc64.calculate (covered file) = r.footer.fileChecksum := by
  have small := accepted.small
  have large := accepted.large
  have sixteen : (UInt64.ofNat footerBytes).toNat = footerBytes := rfl
  have bytesToRead : (r.header.totalFileSize - UInt64.ofNat footerBytes).toNat = file.length - footerBytes := by
    have inside : UInt64.ofNat footerBytes ≤ r.header.totalFileSize := by
      rw [UInt64.le_iff_toNat_le, accepted.total, sixteen]
      omega
    rw [UInt64.toNat_sub_of_le _ _ inside, accepted.total, sixteen]
  obtain ⟨buffer, bufferIs, positive⟩ :
      ∃ buffer, (if bufferSize = 0 then 4 * 1024 * 1024 else bufferSize) = buffer ∧ 0 < buffer := by
    refine ⟨_, rfl, ?_⟩
    split <;> omega
  have start : r.fileStream.clear.seekg 0 = { r.fileStream with pos := 0, good := true } := by
    have clear : r.fileStream.clear.bytes = file := accepted.stream
    rw [FileStream.seekg_of_fits rfl (by rw [clear]; exact small) (Nat.zero_le _)]
    rfl
  have loop : ((r.fileStream.clear.seekg 0).crcLoop buffer (file.length - footerBytes)
      (file.length - footerBytes) Crc64.initial).1 = .ok (Crc64.update Crc64.initial (covered file)) := by
    rw [start, FileStream.crcLoop_of_fits positive _ _ (Nat.le_refl _) rfl]
    · rw [accepted.stream]
      rfl
    · rw [accepted.stream]
      simp
  unfold validateChecksum
  rw [accepted.isOpen, bytesToRead]
  simp only [not_true_eq_false, if_false, bufferIs]
  cases run : (r.fileStream.clear.seekg 0).crcLoop buffer (file.length - footerBytes)
      (file.length - footerBytes) Crc64.initial with
  | mk crc s =>
      rw [run] at loop
      obtain rfl : crc = .ok (Crc64.update Crc64.initial (covered file)) := loop
      by_cases same : Crc64.calculate (covered file) = r.footer.fileChecksum
      · have digest : Crc64.digest (Crc64.update Crc64.initial (covered file)) = r.footer.fileChecksum := same
        simp [digest, same]
      · have digest : Crc64.digest (Crc64.update Crc64.initial (covered file)) ≠ r.footer.fileChecksum := same
        simp [digest, same]

/-- A file and its footer, where a part of it is replaced by one of the same length. -/
theorem covered_append {front middle back : Bytes} (behind : footerBytes ≤ back.length) :
    covered (front ++ middle ++ back) = front ++ middle ++ back.take (back.length - footerBytes) := by
  rw [covered, List.take_append, List.take_of_length_le]
  · congr 2
    simp only [List.length_append]
    omega
  · simp only [List.length_append]
    omega

theorem footer_append {front middle other back : Bytes} (length : other.length = middle.length)
    (behind : footerBytes ≤ back.length) :
    field (front ++ middle ++ back) ((front ++ middle ++ back).length - footerBytes) footerBytes =
      field (front ++ other ++ back) ((front ++ other ++ back).length - footerBytes) footerBytes := by
  have split : ∀ part : Bytes, part.length = middle.length →
      field (front ++ part ++ back) ((front ++ part ++ back).length - footerBytes) footerBytes =
        field back (back.length - footerBytes) footerBytes := by
    intro part same
    have place : (front ++ part ++ back).length - footerBytes =
        (front ++ part).length + (back.length - footerBytes) := by
      simp only [List.length_append]
      omega
    rw [place, field_skip]
  rw [split middle rfl, split other length]

/-- It answers, it does not throw. -/
theorem validateChecksum_answers (r : ArtifactReader) (bufferSize : Nat) :
    (r.validateChecksum bufferSize).1 = .ok () ∨
      ∃ message, (r.validateChecksum bufferSize).1 = .error (.refused message) := by
  unfold validateChecksum refuse
  split
  · exact Or.inr ⟨_, rfl⟩
  · dsimp only
    split
    · exact Or.inr ⟨_, rfl⟩
    · split
      · exact Or.inr ⟨_, rfl⟩
      · exact Or.inl rfl

/-- Changes in a window of at most eight bytes before the footer are seen, whatever the buffers. -/
theorem burst_refused {filepath other front left right back : Bytes} {r changed : ArtifactReader}
    {bufferSize : Nat} (opened : openFile filepath (some (front ++ left ++ back)) = .ok r)
    (valid : (r.validateChecksum bufferSize).1 = .ok ()) (behind : footerBytes ≤ back.length)
    (window : left.length ≤ 8) (length : right.length = left.length) (apart : right ≠ left)
    (reopened : openFile other (some (front ++ right ++ back)) = .ok changed) (anySize : Nat) :
    ∃ message, (changed.validateChecksum anySize).1 = .error (.refused message) := by
  have accepted := openFile_ok opened
  have acceptedToo := openFile_ok reopened
  rcases validateChecksum_answers changed anySize with validToo | refused
  · have sum := (validateChecksum_iff accepted bufferSize).mp valid
    have sumToo := (validateChecksum_iff acceptedToo anySize).mp validToo
    have footer : changed.footer = r.footer := by
      rw [accepted.footer, acceptedToo.footer, footer_append length behind]
    rw [footer, ← sum, covered_append behind, covered_append behind] at sumToo
    exact absurd sumToo (Crc64.calculate_burst front _ length (by omega) apart)
  · exact refused

/-- An empty container, cut at the reserved flags of its header. -/
def emptyHeader : FileHeader := ⟨MAGIC_BYTES, 1, 64, 0, 0, 64, 0, 64, 0, 80, magicBytes_length⟩
def emptyFooter : FileFooter := ⟨Crc64.calculate emptyHeader.bytes, FOOTER_MAGIC_BYTES, footerMagicBytes_length⟩
def beforeFlags : Bytes := emptyHeader.bytes.take 16
def behindFlags : Bytes := emptyHeader.bytes.drop 17 ++ emptyFooter.bytes

theorem flippedFlag_refused : ∃ r changed,
    openFile [] (some (beforeFlags ++ [0] ++ behindFlags)) = .ok r ∧
    (r.validateChecksum 0).1 = .ok () ∧
    openFile [] (some (beforeFlags ++ [1] ++ behindFlags)) = .ok changed ∧
    ∃ message, (changed.validateChecksum 7).1 = .error (.refused message) := by
  have opens : (openFile [] (some (beforeFlags ++ [0] ++ behindFlags))).toOption.isSome = true := by
    decide +kernel
  have reopens : (openFile [] (some (beforeFlags ++ [1] ++ behindFlags))).toOption.isSome = true := by
    decide +kernel
  cases opened : openFile [] (some (beforeFlags ++ [0] ++ behindFlags)) with
  | error failure => rw [opened] at opens; cases opens
  | ok r =>
      cases reopened : openFile [] (some (beforeFlags ++ [1] ++ behindFlags)) with
      | error failure => rw [reopened] at reopens; cases reopens
      | ok changed =>
          have valid : (r.validateChecksum 0).1 = .ok () := by
            rw [validateChecksum_iff (openFile_ok opened), (openFile_ok opened).footer]
            decide +kernel
          exact ⟨r, changed, rfl, valid, rfl,
            @burst_refused [] [] beforeFlags [0] [1] behindFlags r changed 0 opened valid
              (by decide +kernel) (by decide) rfl (by decide) reopened 7⟩

end XInfer.ChecksumBurst
