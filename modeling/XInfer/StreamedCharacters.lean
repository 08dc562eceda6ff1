import XInfer.ServeResponses
import XInfer.Utf8

/-!
The strings inside the events of a stream. Each token is decoded and sent on its own, so a character whose
bytes come from two tokens is cut between two events. The full text, which a request without a stream is
answered with, is whole.
-/

namespace XInfer.StreamedCharacters

open Primitives TokenRouting Tokenizer StreamingHandler Generation Utf8
open MetadataJson (escapeByte hexDigit)
open ServeJson (escapeJsonString)

section Escapes

theorem escapeByte_low {b : UInt8} (low : b < 128) : ∃ first rest, escapeByte b = first :: rest ∧
    ∀ d ∈ first :: rest, d < 128 := by
  have every : ∀ c : UInt8, c < 128 → escapeByte c ≠ [] ∧ ∀ d ∈ escapeByte c, d < 128 :=
    forall_byte (by decide +kernel)
  obtain ⟨nonempty, ascii⟩ := every b low
  obtain ⟨first, rest, shape⟩ := List.exists_cons_of_ne_nil nonempty
  exact ⟨first, rest, shape, shape ▸ ascii⟩

theorem escapeByte_high {b : UInt8} (high : ¬ b < 128) : escapeByte b = [b] := by
  have every : ∀ c : UInt8, ¬ c < 128 → escapeByte c = [c] := forall_byte (by decide +kernel)
  exact every b high

/-- High bytes at the front of an escaped text stand at the front of the text. -/
theorem escaped_high {text high back : Bytes} (bytes : ∀ b ∈ high, ¬ b < 128)
    (escaped : text.flatMap escapeByte = high ++ back) :
    ∃ rest, text = high ++ rest ∧ rest.flatMap escapeByte = back := by
  induction high generalizing text with
  | nil => exact ⟨text, rfl, escaped⟩
  | cons b high ih =>
      rw [List.forall_mem_cons] at bytes
      cases text with
      | nil => cases escaped
      | cons c text =>
          rw [List.flatMap_cons] at escaped
          by_cases low : c < 128
          · obtain ⟨first, rest, shape, ascii⟩ := escapeByte_low low
            rw [shape, List.cons_append, List.cons_append, List.cons.injEq] at escaped
            exact absurd (escaped.1 ▸ ascii first List.mem_cons_self) bytes.1
          · rw [escapeByte_high low, List.singleton_append, List.cons_append, List.cons.injEq] at escaped
            obtain ⟨rest, same, later⟩ := ih bytes.2 escaped.2
            exact ⟨rest, by rw [same, escaped.1, List.cons_append], later⟩

theorem high_flatMap {high : Bytes} (bytes : ∀ b ∈ high, ¬ b < 128) : high.flatMap escapeByte = high := by
  induction high with
  | nil => rfl
  | cons b high ih =>
      rw [List.forall_mem_cons] at bytes
      rw [List.flatMap_cons, escapeByte_high bytes.1, ih bytes.2, List.singleton_append]

theorem valid_low_front {front back : Bytes} (low : ∀ b ∈ front, b < 128) : Valid (front ++ back) ↔ Valid back := by
  have first : Valid front := by
    have each : Valid (front.flatMap fun b => [b]) := valid_flatMap fun b held => valid_low (low b held)
    rwa [List.flatMap_singleton'] at each
  exact ⟨fun whole => first.cancel whole, fun second => first.append second⟩

/-- A character that opens with a high byte has only high bytes. -/
theorem char_high {c : Char} {lead : UInt8} {tail : Bytes} (char : String.utf8EncodeChar c = lead :: tail)
    (high : ¬ lead < 128) : ∀ b ∈ lead :: tail, ¬ b < 128 := by
  obtain ⟨lead', tail', char', _, closed⟩ := char_bytes c
  rw [char, List.cons.injEq] at char'
  rw [List.forall_mem_cons]
  exact ⟨high, fun b held low => closed b (char'.2 ▸ held) (low_opens low)⟩

/-- Escaping changes single characters only. -/
theorem escapes_valid (text : Bytes) : Valid (text.flatMap escapeByte) ↔ Valid text := by
  -- on the length: above 127 a whole character is taken at once
  induction size : text.length using Nat.strong_induction_on generalizing text with
  | _ n ih =>
      cases text with
      | nil => exact Iff.rfl
      | cons b rest =>
          rw [List.length_cons] at size
          by_cases low : b < 128
          · obtain ⟨first, others, shape, ascii⟩ := escapeByte_low low
            have alone : ∀ d ∈ [b], d < 128 := by simpa using low
            rw [List.flatMap_cons, shape, valid_low_front ascii, ih rest.length (by omega) rest rfl]
            exact (valid_low_front alone).symm
          · rw [List.flatMap_cons, escapeByte_high low, List.singleton_append]
            constructor
            · rintro ⟨chars, shape⟩
              cases chars with
              | nil => cases shape
              | cons c chars =>
                  obtain ⟨lead, tail, char, _, _⟩ := char_bytes c
                  rw [List.flatMap_cons, char, List.cons_append, List.cons.injEq] at shape
                  obtain ⟨rfl, escaped⟩ := shape
                  have high := (List.forall_mem_cons.mp (char_high char low)).2
                  obtain ⟨beyond, rfl, later⟩ := escaped_high high escaped
                  rw [List.length_append] at size
                  have valid := (ih beyond.length (by omega) beyond rfl).mp (later ▸ ⟨chars, rfl⟩)
                  rw [← List.cons_append, ← char]
                  exact (valid_char c).append valid
            · rintro ⟨chars, shape⟩
              cases chars with
              | nil => cases shape
              | cons c chars =>
                  obtain ⟨lead, tail, char, _, _⟩ := char_bytes c
                  rw [List.flatMap_cons, char, List.cons_append, List.cons.injEq] at shape
                  obtain ⟨rfl, rfl⟩ := shape
                  have high := (List.forall_mem_cons.mp (char_high char low)).2
                  rw [List.length_append] at size
                  have valid := (ih _ (by omega) (chars.flatMap String.utf8EncodeChar) rfl).mpr ⟨chars, rfl⟩
                  rw [List.flatMap_append, high_flatMap high, ← List.cons_append, ← char]
                  exact (valid_char c).append valid

theorem escapeJsonString_valid (text : Bytes) : Valid (escapeJsonString text) ↔ Valid text := by
  have quote : (34 : UInt8) < 128 := by decide
  have shape : escapeJsonString text = [34] ++ (text.flatMap escapeByte ++ [34]) := rfl
  rw [shape, valid_low_front (by decide), ← escapes_valid text]
  constructor
  · intro valid
    exact (valid.split fun b head => by cases head; exact low_opens quote).1
  · exact fun valid => valid.append (valid_low quote)

end Escapes

section Stream

variable (tok : QwenTokenizer)

/-- What the engine's loop and the callback know of a tokenizer. -/
def markersOf : Markers where
  thinkStartTok := tok.thinkStartTokenId
  thinkEndTok := tok.thinkEndTokenId
  decodeToken := decodeToken tok

def deltasFor (tokens : List Int) : List Delta :=
  (streamed tok.thinkStartTokenId tok.thinkEndTokenId ((markersOf tok).passed tokens)).deltas

/-- One delta for each token that is no marker. -/
theorem foldl_deltas (M : Markers) (tokens : List Int) (stream : Stream) (outside : stream.inThinking = false) :
    ((M.passed tokens).foldl (tokenCallback M.thinkStartTok M.thinkEndTok) stream).deltas =
      stream.deltas ++ (M.passed tokens).map fun call => { content := call.1 } := by
  induction tokens generalizing stream with
  | nil => simp [Markers.passed]
  | cons t rest ih =>
      cases marker : M.isMarker t with
      | true =>
          have same : M.passed (t :: rest) = M.passed rest := by
            simp [Markers.passed, marker]
          rw [same]
          exact ih stream outside
      | false =>
          have plain : ¬ (t = M.thinkStartTok ∨ M.decodeToken t = ascii "<think>") ∧
              ¬ (t = M.thinkEndTok ∨ M.decodeToken t = ascii "</think>") := by
            simpa [Markers.isMarker, Markers.isStart, Markers.isEnd] using marker
          have step : tokenCallback M.thinkStartTok M.thinkEndTok stream (M.decodeToken t, t) =
              { stream with deltas := stream.deltas ++ [{ content := M.decodeToken t }] } := by
            simp [tokenCallback, plain, outside]
          have pass : M.passed (t :: rest) = (M.decodeToken t, t) :: M.passed rest := by
            simp [Markers.passed, marker]
          have later := ih { stream with deltas := stream.deltas ++ [{ content := M.decodeToken t }] } outside
          rw [pass, List.foldl_cons, step, later, List.map_cons, List.append_assoc, List.singleton_append]

theorem deltasFor_eq (tokens : List Int) :
    deltasFor tok tokens = ((markersOf tok).passed tokens).map fun call => { content := call.1 } :=
  foldl_deltas (markersOf tok) tokens {} rfl

/-- The strings in every event that is sent are UTF-8. -/
def Readable (tokens : List Int) : Prop :=
  ∀ outcome delta, Sent.chunk delta ∈ streamReply (deltasFor tok tokens) outcome →
    Valid (escapeJsonString delta.content) ∧ Valid (escapeJsonString delta.reasoningContent)

/-- No token but the think markers begins or ends inside a character of the full text. -/
def Whole (tokens : List Int) : Prop :=
  ∀ front t back, tokens = front ++ t :: back → (markersOf tok).isMarker t = false → decodeToken tok t ≠ [] →
    Valid (decode tok front) ∧ Valid (decode tok (front ++ [t]))

variable {tok} {tokens : List Int}

theorem readable_pieces : Readable tok tokens ↔
    ∀ t ∈ tokens, (markersOf tok).isMarker t = false → Valid (decodeToken tok t) := by
  simp only [Readable, escapeJsonString_valid]
  constructor
  · intro readable t member plain
    have sent : Sent.chunk { content := decodeToken tok t } ∈
        streamReply (deltasFor tok tokens) (.error .badAlloc) := by
      have call : (decodeToken tok t, t) ∈ (markersOf tok).passed tokens :=
        List.mem_map.mpr ⟨t, List.mem_filter.mpr ⟨member, by rw [plain]; rfl⟩, rfl⟩
      have delta : ({ content := decodeToken tok t } : Delta) ∈ deltasFor tok tokens := by
        rw [deltasFor_eq]
        exact List.mem_map.mpr ⟨_, call, rfl⟩
      exact List.mem_append_left _ (List.mem_append_right _ (List.mem_map.mpr ⟨_, delta, rfl⟩))
    exact (readable _ _ sent).1
  · intro pieces outcome delta sent
    have source : delta = { role := ascii "assistant" } ∨ delta ∈ deltasFor tok tokens := by
      unfold streamReply at sent
      rw [List.mem_append, List.mem_append] at sent
      rcases sent with (fixed | held) | last
      · simp only [List.mem_cons, reduceCtorEq, Sent.chunk.injEq, List.not_mem_nil, or_false, false_or] at fixed
        exact Or.inl fixed
      · obtain ⟨other, held, same⟩ := List.mem_map.mp held
        exact Or.inr (Sent.chunk.inj same ▸ held)
      · cases outcome with
        | ok result => simp at last
        | error thrown => simp at last
    rcases source with rfl | held
    · -- the opening chunk has empty strings
      exact ⟨valid_nil, valid_nil⟩
    · rw [deltasFor_eq] at held
      obtain ⟨call, passed, rfl⟩ := List.mem_map.mp held
      obtain ⟨t, filtered, rfl⟩ := List.mem_map.mp passed
      obtain ⟨member, plain⟩ := List.mem_filter.mp filtered
      exact ⟨pieces t member (by simpa using plain), valid_nil⟩

/-- A text is streamed in readable events exactly when no token sent for it ends or begins inside a character. -/
theorem readable_iff (valid : Valid (decode tok tokens)) : Readable tok tokens ↔ Whole tok tokens := by
  have decoded (front : List Int) (t : Int) (back : List Int) : decode tok (front ++ t :: back) =
      decode tok front ++ (decodeToken tok t ++ decode tok back) := by
    rw [decode, List.flatMap_append, List.flatMap_cons]
    rfl
  have snoc (front : List Int) (t : Int) : decode tok (front ++ [t]) = decode tok front ++ decodeToken tok t := by
    have nothing : decode tok [] = [] := rfl
    rw [decoded, nothing, List.append_nil]
  rw [readable_pieces]
  constructor
  · rintro pieces front t back rfl plain nonempty
    have piece := pieces t (List.mem_append_right front List.mem_cons_self) plain
    rw [decoded] at valid
    -- a valid piece opens a character, so the text may be cut in front of it
    have before : Valid (decode tok front) := by
      refine (valid.split fun b head => ?_).1
      obtain ⟨lead, rest, shape⟩ := List.exists_cons_of_ne_nil nonempty
      rw [shape, List.cons_append, List.head?_cons, Option.some.injEq] at head
      rw [shape] at piece
      exact head ▸ piece.head
    exact ⟨before, snoc front t ▸ before.append piece⟩
  · intro whole t member plain
    by_cases empty : decodeToken tok t = []
    · exact empty ▸ valid_nil
    · obtain ⟨front, back, split⟩ := List.append_of_mem member
      obtain ⟨before, after⟩ := whole front t back split plain empty
      rw [snoc] at after
      exact before.cancel after

/-- A vocabulary of two byte symbols: the two bytes of one accented letter. -/
def twoBytes : QwenTokenizer where
  vocab := []
  idToToken := [(1, byteToUnicode 0xC3), (2, byteToUnicode 0xA9)]
  bpeRanks := []
  specialTokens := []
  eosTokenId := -1
  imEndTokenId := -1
  thinkStartTokenId := -1
  thinkEndTokenId := -1
  chatTemplate := ChatTemplate.initDefaults
  split _ := []

theorem twoBytes_valid : Valid (decode twoBytes [1, 2]) := ⟨['é'], by decide +kernel⟩

theorem readable_iff_twoBytes : Readable twoBytes [1, 2] ↔ Whole twoBytes [1, 2] := readable_iff twoBytes_valid

theorem twoBytes_cut : Valid (decode twoBytes [1, 2]) ∧ ¬ Readable twoBytes [1, 2] := by
  refine ⟨twoBytes_valid, fun readable => ?_⟩
  have piece := readable_pieces.mp readable 2 (by decide) (by decide +kernel)
  have bytes : decodeToken twoBytes 2 = [0xA9] := by decide +kernel
  rw [bytes] at piece
  exact absurd piece.head (by decide)

end Stream

end XInfer.StreamedCharacters
