import XInfer.TokenizerRoundTrip

/-!
A merged piece that is not in the vocabulary. `encode` takes it for raw bytes and puts it through
`byte_to_unicode_` once more, though it is written in byte symbols already: what comes back from the ids are
the bytes of the symbols.
-/

namespace XInfer.UnknownPieces

open Primitives Tokenizer TokenizerRoundTrip

/-- All byte symbols are in the vocabulary, and `id_to_token` is its inverse. -/
structure ByteVocab (tok : QwenTokenizer) : Prop where
  bytes : ∀ byte, InVocab tok (byteToUnicode byte)
  inverse : ∀ piece id, tok.idToToken.lookup id = some piece ↔ tok.vocab.lookup piece = some id

section Fallback

variable {tok : QwenTokenizer}

theorem ByteVocab.withRanks (vocab : ByteVocab tok) (ranks : List (Bytes × Int)) :
    ByteVocab { tok with bpeRanks := ranks } := ⟨vocab.bytes, vocab.inverse⟩

theorem hiddenPiece_symbol : ∀ byte : UInt8, hiddenPiece (symbols [byte]) = false :=
  forall_byte (by decide +kernel)

theorem decodeToken_byte (vocab : ByteVocab tok) {byte : UInt8} {id : Int}
    (entry : tok.vocab.lookup (byteToUnicode byte) = some id) : decodeToken tok id = [byte] := by
  have single : byteToUnicode byte = symbols [byte] := by simp [symbols]
  have back := (vocab.inverse _ id).mpr entry
  rw [single] at back
  simp only [decodeToken, back, hiddenPiece_symbol]
  exact decode_symbols [byte]

/-- The ids of single bytes decode to these bytes. -/
theorem decode_bytes (vocab : ByteVocab tok) (bytes : Bytes) :
    decode tok (bytes.filterMap fun byte => tok.vocab.lookup (byteToUnicode byte)) = bytes := by
  induction bytes with
  | nil => rfl
  | cons byte rest ih =>
      obtain ⟨id, entry⟩ := vocab.bytes byte
      have later : decode tok (rest.filterMap fun byte => tok.vocab.lookup (byteToUnicode byte)) = rest := ih
      rw [List.filterMap_cons, entry]
      change decodeToken tok id ++ decode tok _ = byte :: rest
      rw [decodeToken_byte vocab entry, later]
      rfl

theorem decode_unknown (vocab : ByteVocab tok) {piece : Bytes} (unknown : tok.vocab.lookup piece = none) :
    decode tok (pieceTokens tok piece) = piece := by
  rw [pieceTokens, unknown]
  exact decode_bytes vocab piece

end Fallback

section Visible

/-- The bytes that are their own symbols: `!` to `~`. -/
def Visible (byte : UInt8) : Prop := 33 ≤ byte ∧ byte ≤ 126

instance (byte : UInt8) : Decidable (Visible byte) := inferInstanceAs (Decidable (_ ∧ _))

theorem symbol_visible : ∀ byte : UInt8,
    if Visible byte then byteToUnicode byte = [byte] else 2 ≤ (byteToUnicode byte).length :=
  forall_byte (by decide +kernel)

theorem length_le_symbols (bytes : Bytes) : bytes.length ≤ (symbols bytes).length := by
  induction bytes with
  | nil => exact Nat.le_refl _
  | cons byte rest ih =>
      have symbol := symbol_visible byte
      have first : 1 ≤ (byteToUnicode byte).length := by
        split at symbol
        · rw [symbol]
          exact Nat.le_refl _
        · exact Nat.le_of_succ_le symbol
      change rest.length + 1 ≤ (byteToUnicode byte ++ symbols rest).length
      rw [List.length_append]
      omega

theorem symbols_eq_iff (bytes : Bytes) : symbols bytes = bytes ↔ ∀ byte ∈ bytes, Visible byte := by
  induction bytes with
  | nil => simp [symbols]
  | cons byte rest ih =>
      have symbol := symbol_visible byte
      have split : symbols (byte :: rest) = byteToUnicode byte ++ symbols rest := rfl
      rw [split, List.forall_mem_cons, ← ih]
      by_cases visible : Visible byte
      · rw [if_pos visible] at symbol
        simp [symbol, visible]
      · rw [if_neg visible] at symbol
        refine ⟨fun same => ?_, fun both => absurd both.1 visible⟩
        -- the symbol takes more bytes than there are
        have lengths := congrArg List.length same
        have atLeast := length_le_symbols rest
        rw [List.length_append, List.length_cons] at lengths
        omega

end Visible

/-- The raw bytes come back exactly when each of them is its own symbol. -/
theorem fallback_iff {tok : QwenTokenizer} (vocab : ByteVocab tok) {bytes : Bytes}
    (unknown : tok.vocab.lookup (symbols bytes) = none) :
    decode tok (pieceTokens tok (symbols bytes)) = bytes ↔ ∀ byte ∈ bytes, Visible byte := by
  rw [decode_unknown vocab unknown, symbols_eq_iff]

theorem byteTokenizer_vocab : ByteVocab byteTokenizer :=
  ⟨byteEntries_complete.bytes, byteEntries_complete.inverse⟩

theorem byteTokenizer_unknown {bytes : Bytes} (several : bytes.length ≠ 1) (other : bytes ≠ ascii "ab") :
    byteTokenizer.vocab.lookup (symbols bytes) = none := by
  rw [Option.eq_none_iff_forall_ne_some]
  intro id entry
  rw [vocab_byteTokenizer, mem_byteEntries] at entry
  rcases entry with ⟨byte, same, -⟩ | ⟨same, -⟩
  · rw [symbols_inj same] at several
    exact several rfl
  · exact other (symbols_inj same)

theorem letters_kept : decode byteTokenizer (pieceTokens byteTokenizer (symbols (ascii "ba"))) = ascii "ba" :=
  (fallback_iff byteTokenizer_vocab (byteTokenizer_unknown (by decide) (by decide))).mpr (by decide)

/-- A rule that joins a blank and a letter, whose product is no token. -/
def blankTokenizer : QwenTokenizer := { byteTokenizer with bpeRanks := [(symbols [32] ++ ascii " " ++ ascii "a", 0)] }

theorem blankTokenizer_unknown : blankTokenizer.vocab.lookup (symbols [32, 97]) = none := by
  have unknown : byteTokenizer.vocab.lookup (symbols [32, 97]) = none :=
    byteTokenizer_unknown (by decide) (by decide)
  unfold blankTokenizer
  dsimp only
  exact unknown

theorem encode_blank : (encode blankTokenizer [32, 97] []).1 = .ok (pieceTokens blankTokenizer (symbols [32, 97])) := by
  have filled : blankTokenizer.vocab ≠ [] := by
    intro empty
    obtain ⟨id, entry⟩ := (byteTokenizer_vocab.withRanks _).bytes 0
    rw [show ({ byteTokenizer with bpeRanks := _ } : QwenTokenizer).vocab = [] from empty] at entry
    cases entry
  have nearest : nearestSpecial blankTokenizer.specialTokens [32, 97] 0 = none := by decide +kernel
  have chunks : symbolChunks blankTokenizer [32, 97] = [symbols [32, 97]] := by decide +kernel
  have word : mergeWord blankTokenizer (symbols [32, 97]) = [symbols [32, 97]] := by decide +kernel
  have piece : symbols [32, 97] ≠ [] := by decide
  simp [encode, filled, encodeLoop, nearest, ByteString.substr, encodeSegment, chunks, encodeChunks, bpeMerge, piece, word]

/-- The blank comes back as the two bytes of its symbol. -/
theorem blank_doubled : ByteVocab blankTokenizer ∧ blankTokenizer.vocab.lookup (symbols [32, 97]) = none ∧
    decode blankTokenizer (pieceTokens blankTokenizer (symbols [32, 97])) = [0xC4, 0xA0, 97] ∧
    [0xC4, 0xA0, 97] ≠ ([32, 97] : Bytes) ∧
    (encode blankTokenizer [32, 97] []).1 = .ok (pieceTokens blankTokenizer (symbols [32, 97])) := by
  have vocab : ByteVocab blankTokenizer := byteTokenizer_vocab.withRanks _
  refine ⟨vocab, blankTokenizer_unknown, ?_, by decide, encode_blank⟩
  rw [decode_unknown vocab blankTokenizer_unknown]
  decide

end XInfer.UnknownPieces
