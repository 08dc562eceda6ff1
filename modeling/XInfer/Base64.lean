import XInfer.ChatRequests
import Mathlib.Data.List.Basic

/-!
Base64 of RFC 4648 against `decode_base64_chunked` of `serve/protocol.cpp`. The encoder works on groups
of three bytes; the decoder on single letters, with a 32-bit buffer that is never cleared. The buffer's
low bits are what has not been given out yet, so its overflow never reaches an output byte.
-/

namespace XInfer.Base64

open Primitives ByteString ChatRequests
open MetadataJson (isSpace)

section Encoding

/-- The alphabet of RFC 4648, in the order of its values. -/
def alphabet : Bytes := ascii "ABCDEFGHIJKLMNOPQRSTUVWXYZabcdefghijklmnopqrstuvwxyz0123456789+/"

def letter (value : Nat) : UInt8 := alphabet.getD value 0

/-- The letters of a text, padded to whole groups of four. -/
def encode : Bytes → Bytes
  | [] => []
  | [a] => [letter (a.toNat / 4), letter (a.toNat % 4 * 16), 61, 61]
  | [a, b] =>
      [letter (a.toNat / 4), letter (a.toNat % 4 * 16 + b.toNat / 16), letter (b.toNat % 16 * 4), 61]
  | a :: b :: c :: rest =>
      letter (a.toNat / 4) :: letter (a.toNat % 4 * 16 + b.toNat / 16) ::
        letter (b.toNat % 16 * 4 + c.toNat / 64) :: letter (c.toNat % 64) :: encode rest

/-- The text with whitespace put in anywhere. -/
def Spaced (encoded text : Bytes) : Prop := text.filter (fun c => !isSpace c) = encoded

instance (encoded text : Bytes) : Decidable (Spaced encoded text) := inferInstanceAs (Decidable (_ = _))

/-- The front of a data URL. -/
def dataUrl (type : Bytes) : Bytes := ascii "data:" ++ type ++ ascii ";base64,"

/-- `decode_base64_chunked` with its chunk size: a zero is replaced, and nothing reads it afterwards. -/
def decodeChunked (chunkSize : Nat) (input : Bytes) : Except Bytes Bytes :=
  let _chunkSize := if chunkSize = 0 then 4096 else chunkSize
  decodeBase64Chunked input

example : encode (ascii "Hello") = ascii "SGVsbG8=" := by decide

end Encoding

section Letters

theorem letter_plain : ∀ value : Fin 64, base64Value (letter value) = some value.val ∧
    isSpace (letter value) = false ∧ letter value ≠ 61 ∧ letter value ≠ 44 := by
  decide +kernel

/-- The buffer behind one more letter. -/
def shiftIn (buf value : Nat) : Nat := (buf * 2 ^ 6 + value) % 2 ^ 32

variable {value : Nat} (small : value < 64)
include small

/-- One turn of the loop at a letter. -/
theorem base64Loop_letter (buf bits pos : Nat) (rest : Bytes) :
    base64Loop buf bits pos (letter value :: rest) =
      if 8 ≤ bits + 6 then
        (base64Loop (shiftIn buf value) (bits - 2) (pos + 1) rest).map
          (UInt8.ofNat (shiftIn buf value / 2 ^ (bits - 2) % 256) :: ·)
      else base64Loop (shiftIn buf value) (bits + 6) (pos + 1) rest := by
  obtain ⟨digit, dark, unpadded, -⟩ := letter_plain ⟨value, small⟩
  simp only at digit dark unpadded
  rw [base64Loop, dark, digit]
  simp only [Bool.false_eq_true, if_false, unpadded]
  rfl

theorem base64Loop_first (buf pos : Nat) (rest : Bytes) :
    base64Loop buf 0 pos (letter value :: rest) = base64Loop (shiftIn buf value) 6 (pos + 1) rest := by
  rw [base64Loop_letter small, if_neg (by decide)]

end Letters

section Groups

variable (buf : Nat) (a b c : UInt8)

-- The second letter completes the first byte, the third the second, the fourth the third.

theorem byte_first {below : Nat} (small : below < 16) :
    UInt8.ofNat (shiftIn (shiftIn buf (a.toNat / 4)) (a.toNat % 4 * 16 + below) / 2 ^ 4 % 256) = a := by
  have bound := a.toNat_lt
  have whole : shiftIn (shiftIn buf (a.toNat / 4)) (a.toNat % 4 * 16 + below) / 2 ^ 4 % 256 = a.toNat := by
    unfold shiftIn
    omega
  rw [whole, UInt8.ofNat_toNat]

theorem byte_second (above : Nat) {below : Nat} (small : below < 4) :
    UInt8.ofNat (shiftIn (shiftIn buf (above * 16 + b.toNat / 16)) (b.toNat % 16 * 4 + below) / 2 ^ 2 % 256) =
      b := by
  have bound := b.toNat_lt
  have whole : shiftIn (shiftIn buf (above * 16 + b.toNat / 16)) (b.toNat % 16 * 4 + below) / 2 ^ 2 % 256 =
      b.toNat := by
    unfold shiftIn
    omega
  rw [whole, UInt8.ofNat_toNat]

theorem byte_third (above : Nat) :
    UInt8.ofNat (shiftIn (shiftIn buf (above * 4 + c.toNat / 64)) (c.toNat % 64) / 2 ^ 0 % 256) = c := by
  have bound := c.toNat_lt
  have whole : shiftIn (shiftIn buf (above * 4 + c.toNat / 64)) (c.toNat % 64) / 2 ^ 0 % 256 = c.toNat := by
    unfold shiftIn
    omega
  rw [whole, UInt8.ofNat_toNat]

end Groups

theorem base64Loop_padding (buf bits pos : Nat) (rest : Bytes) :
    base64Loop buf bits pos (61 :: rest) = .ok [] := by
  rw [base64Loop]
  rfl

/-- What the letters of a text give, whatever an earlier group has left in the buffer. -/
theorem base64Loop_encode (bytes : Bytes) (buf pos : Nat) :
    base64Loop buf 0 pos (encode bytes) = .ok bytes := by
  -- along the encoder; a whole group leaves no bits behind, only the buffer's old ones
  induction bytes using encode.induct generalizing buf pos with
  | case1 => rfl
  | case2 a =>
      have bound := a.toNat_lt
      have first := byte_first buf a (show 0 < 16 by decide)
      rw [Nat.add_zero] at first
      rw [encode, base64Loop_first (by omega), base64Loop_letter (by omega), if_pos (by decide),
        base64Loop_padding, first]
      rfl
  | case3 a b =>
      have bound := a.toNat_lt
      have bound' := b.toNat_lt
      have first := byte_first buf a (show b.toNat / 16 < 16 by omega)
      have second := byte_second (shiftIn buf (a.toNat / 4)) b (a.toNat % 4) (show 0 < 4 by decide)
      rw [Nat.add_zero] at second
      rw [encode, base64Loop_first (by omega), base64Loop_letter (by omega), if_pos (by decide),
        base64Loop_letter (by omega), if_pos (by decide), base64Loop_padding, first, second]
      rfl
  | case4 a b c rest ih =>
      have bound := a.toNat_lt
      have bound' := b.toNat_lt
      have bound'' := c.toNat_lt
      have first := byte_first buf a (show b.toNat / 16 < 16 by omega)
      have second := byte_second (shiftIn buf (a.toNat / 4)) b (a.toNat % 4)
        (show c.toNat / 64 < 4 by omega)
      have third := byte_third (shiftIn (shiftIn buf (a.toNat / 4)) (a.toNat % 4 * 16 + b.toNat / 16)) c
        (b.toNat % 16)
      rw [encode, base64Loop_first (by omega), base64Loop_letter (by omega), if_pos (by decide),
        base64Loop_letter (by omega), if_pos (by decide), base64Loop_letter (by omega),
        if_pos (by decide), ih, first, second, third]
      rfl

section Whitespace

theorem mem_encode {bytes : Bytes} {c : UInt8} (member : c ∈ encode bytes) :
    c = 61 ∨ ∃ value : Fin 64, c = letter value := by
  have letters (value : Nat) (small : value < 64) : ∃ other : Fin 64, letter value = letter other :=
    ⟨⟨value, small⟩, rfl⟩
  induction bytes using encode.induct with
  | case1 => cases member
  | case2 a =>
      have bound := a.toNat_lt
      simp only [encode, List.mem_cons, List.not_mem_nil, or_false] at member
      rcases member with rfl | rfl | rfl | rfl
      · exact Or.inr (letters _ (by omega))
      · exact Or.inr (letters _ (by omega))
      · exact Or.inl rfl
      · exact Or.inl rfl
  | case3 a b =>
      have bound := a.toNat_lt
      have bound' := b.toNat_lt
      simp only [encode, List.mem_cons, List.not_mem_nil, or_false] at member
      rcases member with rfl | rfl | rfl | rfl
      · exact Or.inr (letters _ (by omega))
      · exact Or.inr (letters _ (by omega))
      · exact Or.inr (letters _ (by omega))
      · exact Or.inl rfl
  | case4 a b c rest ih =>
      have bound := a.toNat_lt
      have bound' := b.toNat_lt
      have bound'' := c.toNat_lt
      simp only [encode, List.mem_cons] at member
      rcases member with rfl | rfl | rfl | rfl | later
      · exact Or.inr (letters _ (by omega))
      · exact Or.inr (letters _ (by omega))
      · exact Or.inr (letters _ (by omega))
      · exact Or.inr (letters _ (by omega))
      · exact ih later

/-- A spaced text has no comma, as no letter, no pad and no whitespace is one. -/
theorem spaced_comma {bytes text : Bytes} (spaced : Spaced (encode bytes) text) : 44 ∉ text := by
  intro inside
  have kept : (44 : UInt8) ∈ encode bytes := by
    rw [← spaced]
    exact List.mem_filter.mpr ⟨inside, rfl⟩
  rcases mem_encode kept with pad | ⟨value, same⟩
  · exact absurd pad (by decide)
  · exact (letter_plain value).2.2.2 same.symm

theorem toOption_map {ε α β : Type} (f : α → β) (run : Except ε α) :
    (run.map f).toOption = run.toOption.map f := by
  cases run <;> rfl

/-- Whitespace moves the position that an error names, and nothing else. -/
theorem base64Loop_spaced (text : Bytes) (buf bits pos pos' : Nat) :
    (base64Loop buf bits pos text).toOption =
      (base64Loop buf bits pos' (text.filter fun c => !isSpace c)).toOption := by
  induction text generalizing buf bits pos pos' with
  | nil => rfl
  | cons c rest ih =>
      rw [base64Loop]
      by_cases dark : isSpace c = true
      · -- skipped by the loop, and filtered out
        simp only [dark, if_true, List.filter_cons, Bool.not_true, Bool.false_eq_true, if_false]
        exact ih buf bits (pos + 1) pos'
      · simp only [dark, List.filter_cons, Bool.not_false, Bool.false_eq_true, if_false, if_true]
        rw [base64Loop]
        simp only [dark, Bool.false_eq_true, if_false]
        by_cases padding : c = 61
        · rw [if_pos padding, if_pos padding]
        · rw [if_neg padding, if_neg padding]
          cases base64Value c with
          | none => rfl
          | some value =>
              dsimp only
              split_ifs with full
              · rw [toOption_map, toOption_map, ih _ _ (pos + 1) (pos' + 1)]
              · exact ih _ _ _ _

theorem base64Loop_text {bytes text : Bytes} (spaced : Spaced (encode bytes) text) :
    base64Loop 0 0 0 text = .ok bytes := by
  have read := base64Loop_spaced text 0 0 0 0
  rw [spaced, base64Loop_encode] at read
  cases run : base64Loop 0 0 0 text with
  | error why =>
      rw [run] at read
      cases read
  | ok decoded =>
      rw [run] at read
      exact congrArg Except.ok (Option.some.inj read)

end Whitespace

section Prefix

/-- Decoding a text, bare or behind the front of a data URL, undoes its encoding. -/
theorem decodeChunked_encode (bytes text : Bytes) (chunkSize : Nat) (spaced : Spaced (encode bytes) text) :
    decodeChunked chunkSize text = .ok bytes ∧
      ∀ type, 44 ∉ type → decodeChunked chunkSize (dataUrl type ++ text) = .ok bytes := by
  constructor
  · have bare : ByteString.find (ascii ",") text = none := by
      apply find_none
      rw [contains_iff]
      exact fun inside => spaced_comma spaced (inside.subset (by decide))
    simp only [decodeChunked, decodeBase64Chunked, bare]
    exact base64Loop_text spaced
  · intro type plain
    have split : dataUrl type ++ text = (ascii "data:" ++ type ++ ascii ";base64") ++ 44 :: text := by
      have comma : ascii ";base64," = ascii ";base64" ++ [44] := rfl
      simp only [dataUrl, comma, List.append_assoc, List.singleton_append]
    have front : 44 ∉ ascii "data:" ++ type ++ ascii ";base64" := by
      rw [List.mem_append, List.mem_append, not_or, not_or]
      exact ⟨⟨by decide, plain⟩, by decide⟩
    have marked : Contains (ascii "base64") (ascii "data:" ++ type ++ ascii ";base64") := by
      rw [contains_iff]
      exact ⟨ascii "data:" ++ type ++ ascii ";", [], by simp only [List.append_assoc]; rfl⟩
    have comma := find_byte front text
    simp only [decodeChunked, decodeBase64Chunked, split, show ascii "," = [44] from rfl, comma]
    rw [List.take_left, if_pos marked, List.drop_append, List.drop_of_length_le (Nat.le_succ _)]
    have behind : (ascii "data:" ++ type ++ ascii ";base64").length + 1 -
        (ascii "data:" ++ type ++ ascii ";base64").length = 1 := by omega
    rw [behind]
    exact base64Loop_text spaced

theorem decodeChunked_encode_hello :
    decodeChunked 3 (ascii "SGVs bG8\n=") = .ok (ascii "Hello") ∧
      decodeChunked 3 (dataUrl (ascii "image/png") ++ ascii "SGVs bG8\n=") = .ok (ascii "Hello") := by
  obtain ⟨bare, behind⟩ := decodeChunked_encode (ascii "Hello") (ascii "SGVs bG8\n=") 3 (by decide)
  exact ⟨bare, behind (ascii "image/png") (by decide)⟩

end Prefix

end XInfer.Base64
