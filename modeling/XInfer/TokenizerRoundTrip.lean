import XInfer.HashTable
import XInfer.PreTokenizer
import XInfer.Tokenizer

/-!
`decode` takes `encode` back. The chunks of a text flatten to it, a merge changes how
the byte symbols of a chunk are grouped and not what they spell, and every group is a
vocabulary entry.
-/

namespace XInfer.TokenizerRoundTrip

open Primitives ByteString HashTable Tokenizer PreTokenizer

theorem leadByte_two : ∀ n, n < 32 → leadByte (UInt8.ofNat (0xC0 ||| n)).toNat = some (2, n) := by decide
theorem leadByte_three : ∀ n, n < 16 → leadByte (UInt8.ofNat (0xE0 ||| n)).toNat = some (3, n) := by decide
theorem leadByte_four : ∀ n, n < 8 → leadByte (UInt8.ofNat (0xF0 ||| n)).toNat = some (4, n) := by decide

/-- The six bits that a continuation byte carries. -/
theorem tail_bits (x : Nat) : (UInt8.ofNat (0x80 ||| (x &&& 0x3F))).toNat &&& 0x3F = x % 64 := by
  have all : ∀ n, n < 64 → (UInt8.ofNat (0x80 ||| n)).toNat &&& 0x3F = n := by decide
  have bits : x &&& 0x3F = x % 64 := Nat.and_two_pow_sub_one_eq_mod x 6
  rw [bits]
  exact all (x % 64) (Nat.mod_lt x (by decide))

theorem utf8Loop_codepoint {cp : Nat} (small : cp < 0x110000) (fuel : Nat) (rest : Bytes) :
    utf8Loop (fuel + 1) (codepointToUtf8 cp ++ rest) = cp :: utf8Loop fuel rest := by
  unfold codepointToUtf8
  dsimp only
  split
  · rename_i one
    have value : (UInt8.ofNat cp).toNat = cp := by
      rw [UInt8.toNat_ofNat']
      omega
    have lead : leadByte (UInt8.ofNat cp).toNat = some (1, cp) := by rw [value, leadByte, if_pos one]
    simp only [utf8Loop, List.cons_append, List.nil_append, lead]
    simp
  split
  · rename_i two
    have lead := leadByte_two (cp / 2 ^ 6) (by omega)
    have first := tail_bits (cp / 2 ^ 0)
    simp only [utf8Loop, List.cons_append, List.nil_append, lead, List.length_cons]
    simp only [Nat.reduceSub, List.take_succ_cons, List.take_zero, List.drop_succ_cons, List.drop_zero,
      List.foldl_cons, List.foldl_nil, first]
    rw [if_neg (by omega)]
    congr 1
    omega
  split
  · rename_i three
    have lead := leadByte_three (cp / 2 ^ 12) (by omega)
    have first := tail_bits (cp / 2 ^ 6)
    have second := tail_bits (cp / 2 ^ 0)
    simp only [utf8Loop, List.cons_append, List.nil_append, lead, List.length_cons]
    simp only [Nat.reduceSub, List.take_succ_cons, List.take_zero, List.drop_succ_cons, List.drop_zero,
      List.foldl_cons, List.foldl_nil, first, second]
    rw [if_neg (by omega)]
    congr 1
    omega
  · have lead := leadByte_four (cp / 2 ^ 18) (by omega)
    have first := tail_bits (cp / 2 ^ 12)
    have second := tail_bits (cp / 2 ^ 6)
    have third := tail_bits (cp / 2 ^ 0)
    simp only [utf8Loop, List.cons_append, List.nil_append, lead, List.length_cons]
    simp only [Nat.reduceSub, List.take_succ_cons, List.take_zero, List.drop_succ_cons, List.drop_zero,
      List.foldl_cons, List.foldl_nil, first, second, third]
    rw [if_neg (by omega)]
    congr 1
    omega

theorem codepointToUtf8_nonempty (cp : Nat) : 0 < (codepointToUtf8 cp).length := by
  unfold codepointToUtf8
  dsimp only
  split
  · simp
  split
  · simp
  split <;> simp

theorem utf8Loop_text {cps : List Nat} (small : ∀ cp ∈ cps, cp < 0x110000) {fuel : Nat}
    (enough : (cps.flatMap codepointToUtf8).length ≤ fuel) :
    utf8Loop fuel (cps.flatMap codepointToUtf8) = cps := by
  induction cps generalizing fuel with
  | nil => rcases fuel with _ | fuel <;> rfl
  | cons cp rest ih =>
      have long := codepointToUtf8_nonempty cp
      rw [List.flatMap_cons, List.length_append] at enough
      obtain ⟨fuel, rfl⟩ : ∃ k, fuel = k + 1 := ⟨fuel - 1, by omega⟩
      rw [List.flatMap_cons, utf8Loop_codepoint (small cp (by simp)),
        ih (fun cp inside => small cp (List.mem_cons_of_mem _ inside)) (by omega)]

/-- Decoding takes an encoding back. -/
theorem utf8ToCodepoints_text {cps : List Nat} (small : ∀ cp ∈ cps, cp < 0x110000) :
    utf8ToCodepoints (cps.flatMap codepointToUtf8) = cps := utf8Loop_text small (Nat.le_refl _)

theorem codepointToUtf8_inj {left right : Nat} (low : left < 0x110000) (high : right < 0x110000)
    (same : codepointToUtf8 left = codepointToUtf8 right) : left = right := by
  have first := @utf8ToCodepoints_text [left] (by simpa using low)
  have second := @utf8ToCodepoints_text [right] (by simpa using high)
  simp only [List.flatMap_cons, List.flatMap_nil, List.append_nil] at first second
  rw [same, second] at first
  simpa using first.symm

theorem symbolCodepoint_lt (byte : UInt8) : symbolCodepoint byte.toNat < 0x110000 := by
  have few : ((List.range byte.toNat).filter fun c => !printable c).length ≤ byte.toNat := by
    simpa using List.length_filter_le (fun c => !printable c) (List.range byte.toNat)
  have small := byte.toNat_lt
  unfold symbolCodepoint
  split <;> omega

/-- The codepoints of two unprintable bytes are in the order of the bytes. -/
theorem symbolCodepoint_mono {left right : Nat} (first : printable left = false)
    (second : printable right = false) (less : left < right) : symbolCodepoint left < symbolCodepoint right := by
  have counted : ((List.range (left + 1)).filter fun c => !printable c).length ≤
      ((List.range right).filter fun c => !printable c).length :=
    ((List.range_sublist.mpr less).filter _).length_le
  rw [List.range_succ, List.filter_append, List.length_append] at counted
  simp only [symbolCodepoint, first, second, Bool.false_eq_true, if_false]
  simp only [List.filter_cons, first, Bool.not_false, if_true, List.filter_nil, List.length_cons,
    List.length_nil] at counted
  omega

theorem symbolCodepoint_inj {left right : UInt8}
    (same : symbolCodepoint left.toNat = symbolCodepoint right.toNat) : left = right := by
  have low := left.toNat_lt
  have high := right.toNat_lt
  have byte (b : Nat) (shown : printable b = true) : symbolCodepoint b = b := by simp [symbolCodepoint, shown]
  have beyond (b : Nat) (hidden : printable b = false) : 256 ≤ symbolCodepoint b := by
    simp [symbolCodepoint, hidden]
  apply UInt8.toNat.inj
  rcases first : printable left.toNat with _ | _ <;> rcases second : printable right.toNat with _ | _
  · rcases Nat.lt_trichotomy left.toNat right.toNat with less | equal | more
    · have grows := symbolCodepoint_mono first second less
      omega
    · exact equal
    · have grows := symbolCodepoint_mono second first more
      omega
  · have outside := beyond _ first
    have inside := byte _ second
    omega
  · have inside := byte _ first
    have outside := beyond _ second
    omega
  · rwa [byte _ first, byte _ second] at same

theorem byteToUnicode_inj {left right : UInt8} (same : byteToUnicode left = byteToUnicode right) :
    left = right :=
  symbolCodepoint_inj (codepointToUtf8_inj (symbolCodepoint_lt left) (symbolCodepoint_lt right) same)

theorem unicodeToByte_symbol (byte : UInt8) : unicodeToByte (byteToUnicode byte) = some byte := by
  rcases found : unicodeToByte (byteToUnicode byte) with _ | other
  · have inside : byte ∈ (List.range 256).map UInt8.ofNat :=
      List.mem_map.mpr ⟨byte.toNat, List.mem_range.mpr byte.toNat_lt, UInt8.ofNat_toNat⟩
    have missed := List.find?_eq_none.mp found byte inside
    simp at missed
  · have hit := List.find?_some found
    rw [byteToUnicode_inj (beq_iff_eq.mp hit)]

/-- No byte symbol has a blank in it. -/
theorem symbol_noSpace : ∀ byte : UInt8, 32 ∉ byteToUnicode byte := forall_byte (by decide +kernel)

/-- The byte symbols of a piece of text. -/
def symbols (bytes : Bytes) : Bytes := bytes.flatMap byteToUnicode

theorem symbols_append (left right : Bytes) : symbols (left ++ right) = symbols left ++ symbols right :=
  List.flatMap_append

theorem symbols_noSpace (bytes : Bytes) : 32 ∉ symbols bytes := by
  intro inside
  obtain ⟨byte, _, blank⟩ := List.mem_flatMap.mp inside
  exact symbol_noSpace byte blank

theorem utf8ToCodepoints_symbols (bytes : Bytes) :
    utf8ToCodepoints (symbols bytes) = bytes.map fun byte => symbolCodepoint byte.toNat := by
  have text : symbols bytes =
      (bytes.map fun byte => symbolCodepoint byte.toNat).flatMap codepointToUtf8 := by
    rw [List.flatMap_map]
    rfl
  rw [text]
  refine utf8ToCodepoints_text fun cp inside => ?_
  obtain ⟨byte, _, rfl⟩ := List.mem_map.mp inside
  exact symbolCodepoint_lt byte

/-- What `decode_token` makes of a piece that it does not hide. -/
theorem decode_symbols (bytes : Bytes) :
    ((utf8ToCodepoints (symbols bytes)).flatMap fun cp => match unicodeToByte (codepointToUtf8 cp) with
      | some byte => [byte]
      | none => codepointToUtf8 cp) = bytes := by
  rw [utf8ToCodepoints_symbols, List.flatMap_map]
  induction bytes with
  | nil => rfl
  | cons byte rest ih =>
      have found : unicodeToByte (codepointToUtf8 (symbolCodepoint byte.toNat)) = some byte :=
        unicodeToByte_symbol byte
      rw [List.flatMap_cons, ih, found]
      rfl

theorem symbols_inj {left right : Bytes} (same : symbols left = symbols right) : left = right := by
  rw [← decode_symbols left, same, decode_symbols right]

def InVocab (tok : QwenTokenizer) (piece : Bytes) : Prop := ∃ id, tok.vocab.lookup piece = some id

/-- The byte symbols and the product of every merge rule are in the vocabulary, and
`id_to_token` is its inverse. -/
structure Complete (ranges : List UnicodeRange) (tok : QwenTokenizer) : Prop where
  bytes : ∀ byte, InVocab tok (byteToUnicode byte)
  products : ∀ first second, 32 ∉ first → 32 ∉ second →
    tok.bpeRanks.lookup (first ++ ascii " " ++ second) ≠ none → InVocab tok (first ++ second)
  inverse : ∀ piece id, tok.idToToken.lookup id = some piece ↔ tok.vocab.lookup piece = some id
  split : tok.split = splitQwen35 ranges

/-- The pair that a merge round takes is an adjacent one with a rule. -/
theorem bestPair_rule {ranks : List (Bytes × Int)} {word : List Bytes} {rank : Int} {pair : Bytes × Bytes}
    (best : bestPair ranks word = some (rank, pair)) :
    pair ∈ pairs word ∧ ranks.lookup (pair.1 ++ ascii " " ++ pair.2) = some rank := by
  let Known (best : Option (Int × Bytes × Bytes)) : Prop := ∀ rank pair, best = some (rank, pair) →
    pair ∈ pairs word ∧ ranks.lookup (pair.1 ++ ascii " " ++ pair.2) = some rank
  have known : Known (bestPair ranks word) := by
    refine List.foldlRecOn (pairs word) _ (fun _ _ impossible => by cases impossible) ?_
    intro seen known next here chosen other taken
    rcases rule : ranks.lookup (next.1 ++ ascii " " ++ next.2) with _ | value
    · simp only [rule] at taken
      exact known chosen other taken
    · rcases seen with _ | ⟨least, kept⟩
      · simp only [rule, Option.some.injEq, Prod.mk.injEq] at taken
        obtain ⟨rfl, rfl⟩ := taken
        exact ⟨here, rule⟩
      · simp only [rule] at taken
        split at taken
        · simp only [Option.some.injEq, Prod.mk.injEq] at taken
          obtain ⟨rfl, rfl⟩ := taken
          exact ⟨here, rule⟩
        · exact known chosen other taken
  exact known rank pair best

/-- A word that groups the byte symbols of a piece of text into vocabulary entries. -/
def Grouped (tok : QwenTokenizer) (bytes : Bytes) (word : List Bytes) : Prop :=
  ∃ groups : List Bytes, groups.flatten = bytes ∧ word = groups.map symbols ∧
    ∀ group ∈ groups, InVocab tok (symbols group)

theorem mergePair_groups {tok : QwenTokenizer} {first second : Bytes} (joined : InVocab tok (first ++ second)) :
    ∀ groups : List Bytes, (∀ group ∈ groups, InVocab tok (symbols group)) →
      Grouped tok groups.flatten (mergePair first second (groups.map symbols))
  | [], _ => ⟨[], rfl, rfl, by simp⟩
  | [group], known => ⟨[group], rfl, rfl, known⟩
  | left :: right :: rest, known => by
      have here := known left (by simp)
      by_cases hit : symbols left = first ∧ symbols right = second
      · obtain ⟨groups, whole, word, later⟩ := mergePair_groups joined rest fun group held =>
          known group (by simp [held])
        refine ⟨(left ++ right) :: groups, by simp [whole], ?_, ?_⟩
        · simp [mergePair, hit, word, symbols_append]
        · intro group held
          rcases List.mem_cons.mp held with rfl | held
          · rwa [symbols_append, hit.1, hit.2]
          · exact later group held
      · obtain ⟨groups, whole, word, later⟩ := mergePair_groups joined (right :: rest) fun group held =>
          known group (List.mem_cons_of_mem _ held)
        refine ⟨left :: groups, by simpa using whole, ?_, ?_⟩
        · simp only [List.map_cons] at word
          simp [mergePair, hit, word]
        · intro group held
          rcases List.mem_cons.mp held with rfl | held
          · exact here
          · exact later group held

theorem mergePair_grouped {tok : QwenTokenizer} {bytes first second : Bytes} {word : List Bytes}
    (grouped : Grouped tok bytes word) (joined : InVocab tok (first ++ second)) :
    Grouped tok bytes (mergePair first second word) := by
  obtain ⟨groups, whole, spelled, known⟩ := grouped
  rw [← whole, spelled]
  exact mergePair_groups joined groups known

theorem grouped_noSpace {tok : QwenTokenizer} {bytes : Bytes} {word : List Bytes}
    (grouped : Grouped tok bytes word) {piece : Bytes} (inside : piece ∈ word) : 32 ∉ piece := by
  obtain ⟨groups, _, spelled, _⟩ := grouped
  rw [spelled] at inside
  obtain ⟨group, _, rfl⟩ := List.mem_map.mp inside
  exact symbols_noSpace group

section RoundTrip
variable {ranges : List UnicodeRange} {tok : QwenTokenizer} (complete : Complete ranges tok)
include complete

theorem mergeLoop_grouped {bytes : Bytes} (fuel : Nat) {word : List Bytes} (grouped : Grouped tok bytes word) :
    Grouped tok bytes (mergeLoop tok.bpeRanks fuel word) := by
  induction fuel generalizing word with
  | zero => exact grouped
  | succ fuel ih =>
      unfold mergeLoop
      split
      · exact grouped
      split
      · exact grouped
      · rename_i least first second best
        split
        · exact grouped
        · obtain ⟨adjacent, rule⟩ := bestPair_rule best
          have left := grouped_noSpace grouped (List.of_mem_zip adjacent).1
          have right := grouped_noSpace grouped (List.mem_of_mem_tail (List.of_mem_zip adjacent).2)
          exact ih (mergePair_grouped grouped
            (complete.products first second left right fun absent => by cases rule.symm.trans absent))

theorem mergeWord_grouped (bytes : Bytes) : Grouped tok bytes (mergeWord tok (symbols bytes)) := by
  refine mergeLoop_grouped complete _ ⟨bytes.map ([·]), ?_, ?_, ?_⟩
  · induction bytes with
    | nil => rfl
    | cons byte rest ih => simpa using ih
  · rw [utf8ToCodepoints_symbols]
    simp [symbols, byteToUnicode]
  · intro group inside
    obtain ⟨byte, _, rfl⟩ := List.mem_map.mp inside
    simpa [symbols] using complete.bytes byte

/-- A text that spells none of the strings that `decode` drops. -/
def Visible (text : Bytes) : Prop := ∀ name ∈ [ascii "<|im_start|>", ascii "<|im_end|>", ascii "<|endoftext|>"],
  ¬ Contains name text

omit complete in
theorem hiddenPiece_symbols {text bytes : Bytes} (visible : Visible text) (part : bytes <:+: text) :
    hiddenPiece (symbols bytes) = false := by
  have kept : ∀ name ∈ [ascii "<|im_start|>", ascii "<|im_end|>", ascii "<|endoftext|>"],
      symbols name = name := by decide +kernel
  have apart (name : Bytes) (listed : name ∈ [ascii "<|im_start|>", ascii "<|im_end|>", ascii "<|endoftext|>"]) :
      symbols bytes ≠ name := by
    intro same
    have equal := symbols_inj (same.trans (kept name listed).symm)
    exact visible name listed ((contains_iff _ _).mpr (equal ▸ part))
  simp [hiddenPiece, apart]

theorem decode_group {text bytes : Bytes} (visible : Visible text) (part : bytes <:+: text)
    (known : InVocab tok (symbols bytes)) : decode tok (pieceTokens tok (symbols bytes)) = bytes := by
  obtain ⟨id, entry⟩ := known
  have back := (complete.inverse (symbols bytes) id).mpr entry
  simp only [pieceTokens, entry, decode, List.flatMap_cons, List.flatMap_nil, List.append_nil, decodeToken,
    back, hiddenPiece_symbols visible part]
  exact decode_symbols bytes

theorem decode_word {text bytes : Bytes} {word : List Bytes} (visible : Visible text)
    (part : bytes <:+: text) (grouped : Grouped tok bytes word) :
    decode tok (word.flatMap (pieceTokens tok)) = bytes := by
  obtain ⟨groups, whole, rfl, known⟩ := grouped
  subst whole
  induction groups with
  | nil => rfl
  | cons group rest ih =>
      rw [List.flatten_cons] at part
      have first := decode_group complete visible ((List.prefix_append group rest.flatten).isInfix.trans part)
        (known group (by simp))
      have later := ih (fun group held => known group (List.mem_cons_of_mem _ held))
        ((List.suffix_append group rest.flatten).isInfix.trans part)
      simp only [decode, List.map_cons, List.flatMap_cons, List.flatMap_append, List.flatten_cons] at first later ⊢
      rw [first, later]

theorem decode_chunks {text : Bytes} (visible : Visible text) (chunks : List Bytes)
    (part : chunks.flatten <:+: text) {cache : BpeCache} (consistent : CacheConsistent tok cache) :
    decode tok (encodeChunks tok (chunks.map symbols) cache).1 = chunks.flatten := by
  induction chunks generalizing cache with
  | nil => rfl
  | cons chunk rest ih =>
      rw [List.flatten_cons] at part
      obtain ⟨word, kept⟩ := bpeMerge_consistent (symbols chunk) consistent
      have later := ih ((List.suffix_append chunk rest.flatten).isInfix.trans part) kept
      have first : decode tok ((bpeMerge tok (symbols chunk) cache).1.flatMap (pieceTokens tok)) = chunk := by
        rw [word]
        split
        · rename_i empty
          exact (symbols_inj (empty.trans rfl : symbols chunk = symbols [])).symm
        · exact decode_word complete visible ((List.prefix_append chunk rest.flatten).isInfix.trans part)
            (mergeWord_grouped complete chunk)
      simp only [decode, List.map_cons, encodeChunks, List.flatMap_append, List.flatten_cons] at first later ⊢
      rw [first, later]

/-- The text between the special tokens, when there are none. -/
theorem decode_encodeSegment {cps : List Nat} (small : ∀ cp ∈ cps, cp < 0x110000)
    (visible : Visible (cps.flatMap codepointToUtf8)) {cache : BpeCache}
    (consistent : CacheConsistent tok cache) :
    decode tok (encodeSegment tok (cps.flatMap codepointToUtf8) cache).1 = cps.flatMap codepointToUtf8 := by
  unfold encodeSegment
  split
  · rename_i empty
    rw [empty]
    rfl
  · have chunks : symbolChunks tok (cps.flatMap codepointToUtf8) =
        ((splitQwen35 ranges cps).map fun range =>
          ((cps.drop range.1).take (range.2 - range.1)).flatMap codepointToUtf8).map symbols := by
      rw [symbolChunks, utf8ToCodepoints_text small, complete.split, List.map_map]
      rfl
    have whole : ((splitQwen35 ranges cps).map fun range =>
          ((cps.drop range.1).take (range.2 - range.1)).flatMap codepointToUtf8).flatten =
        cps.flatMap codepointToUtf8 := by
      rw [← List.flatMap_def, ← List.flatMap_assoc, splitQwen35_partition]
    rw [chunks]
    exact (decode_chunks complete visible _ (whole ▸ List.infix_refl _) consistent).trans whole

end RoundTrip

theorem nearestSpecial_none {specials : List (Bytes × Int)} {text : Bytes}
    (absent : ∀ special ∈ specials, ¬ Contains special.1 text) : nearestSpecial specials text 0 = none := by
  refine List.foldlRecOn (motive := fun nearest => nearest = none) specials _ rfl ?_
  intro nearest missing special inside
  have missed : findFrom special.1 text 0 = none := by
    simp [findFrom, find_none (absent special inside)]
  rw [missed, missing]

/-- The memo table that a history of encodings leaves. -/
def cacheAfter (tok : QwenTokenizer) (history : List Bytes) : BpeCache :=
  history.foldl (fun cache text => (encode tok text cache).2) []

theorem cacheAfter_consistent (tok : QwenTokenizer) (history : List Bytes) :
    CacheConsistent tok (cacheAfter tok history) := by
  have run (cache : BpeCache) (consistent : CacheConsistent tok cache) :
      CacheConsistent tok (history.foldl (fun cache text => (encode tok text cache).2) cache) := by
    induction history generalizing cache with
    | nil => exact consistent
    | cons text rest ih => exact ih _ (encode_consistent text consistent consistent).2.1
  exact run [] (consistent_nil tok)

def Scalar (cp : Nat) : Prop := cp < 0xD800 ∨ (0xDFFF < cp ∧ cp < 0x110000)

/-- Every valid text without a special-token string is decoded from its encoding,
whatever was encoded before; and the split partitions its codepoints. -/
theorem decode_encode {ranges : List UnicodeRange} {tok : QwenTokenizer} (complete : Complete ranges tok)
    (history : List Bytes) {cps : List Nat} (scalars : ∀ cp ∈ cps, Scalar cp)
    (added : ∀ special ∈ tok.specialTokens, ¬ Contains special.1 (cps.flatMap codepointToUtf8))
    (visible : Visible (cps.flatMap codepointToUtf8)) :
    (∃ tokens, (encode tok (cps.flatMap codepointToUtf8) (cacheAfter tok history)).1 = .ok tokens ∧
        decode tok tokens = cps.flatMap codepointToUtf8) ∧
      (splitQwen35 ranges cps).flatMap (fun range => (cps.drop range.1).take (range.2 - range.1)) = cps := by
  refine ⟨?_, splitQwen35_partition ranges cps⟩
  have small : ∀ cp ∈ cps, cp < 0x110000 := by
    intro cp inside
    have scalar := scalars cp inside
    unfold Scalar at scalar
    omega
  have consistent := cacheAfter_consistent tok history
  have segment := decode_encodeSegment complete small visible consistent
  have filled : tok.vocab ≠ [] := by
    intro none
    obtain ⟨id, entry⟩ := complete.bytes 0
    simp [none] at entry
  generalize cps.flatMap codepointToUtf8 = text at *
  unfold encode
  rcases text with _ | ⟨byte, rest⟩
  · exact ⟨[], by simp, rfl⟩
  · have nearest := nearestSpecial_none added
    refine ⟨_, ?_, segment⟩
    simp [filled, encodeLoop, nearest, substr]

/-- The byte symbols and the product of one merge rule. -/
def byteEntries : List (Bytes × Int) :=
  ((List.range 256).map fun n => (byteToUnicode (UInt8.ofNat n), (n : Int))) ++ [(ascii "ab", 256)]

def byteTokenizer : QwenTokenizer where
  vocab := assignAll byteEntries []
  idToToken := assignAll (byteEntries.map Prod.swap) []
  bpeRanks := [(ascii "a b", 0)]
  specialTokens := [(ascii "<|endoftext|>", 300)]
  eosTokenId := 300
  imEndTokenId := -1
  thinkStartTokenId := -1
  thinkEndTokenId := -1
  chatTemplate := ChatTemplate.initDefaults
  split := splitQwen35 []

theorem mem_byteEntries (piece : Bytes) (id : Int) : (piece, id) ∈ byteEntries ↔
    (∃ byte : UInt8, piece = symbols [byte] ∧ id = byte.toNat) ∨ (piece = symbols (ascii "ab") ∧ id = 256) := by
  have product : symbols (ascii "ab") = ascii "ab" := by decide +kernel
  have single (byte : UInt8) : symbols [byte] = byteToUnicode byte := by simp [symbols]
  simp only [byteEntries, List.mem_append, List.mem_map, List.mem_range, List.mem_singleton, Prod.mk.injEq,
    product, single]
  constructor
  · rintro (⟨n, small, rfl, rfl⟩ | pair)
    · exact Or.inl ⟨UInt8.ofNat n, rfl, by rw [UInt8.toNat_ofNat', Nat.mod_eq_of_lt small]⟩
    · exact Or.inr pair
  · rintro (⟨byte, rfl, rfl⟩ | pair)
    · exact Or.inl ⟨byte.toNat, byte.toNat_lt, by rw [UInt8.ofNat_toNat], rfl⟩
    · exact Or.inr pair

theorem byteEntries_keys {left right : Bytes × Int} (held : left ∈ byteEntries) (kept : right ∈ byteEntries) :
    left.1 = right.1 ↔ left.2 = right.2 := by
  obtain ⟨piece, id⟩ := left
  obtain ⟨piece', id'⟩ := right
  rcases (mem_byteEntries piece id).mp held with ⟨byte, rfl, rfl⟩ | ⟨rfl, rfl⟩ <;>
    rcases (mem_byteEntries piece' id').mp kept with ⟨byte', rfl, rfl⟩ | ⟨rfl, rfl⟩
  · constructor
    · intro same
      rw [List.singleton_inj.mp (symbols_inj same)]
    · intro same
      rw [UInt8.toNat.inj (Int.ofNat.inj same)]
  · refine ⟨fun same => absurd (symbols_inj same) (by simp [ascii]), fun same => ?_⟩
    have small := byte.toNat_lt
    omega
  · refine ⟨fun same => absurd (symbols_inj same) (by simp [ascii]), fun same => ?_⟩
    have small := byte'.toNat_lt
    omega
  · exact ⟨fun _ => rfl, fun _ => rfl⟩

theorem vocab_byteTokenizer (piece : Bytes) (id : Int) :
    byteTokenizer.vocab.lookup piece = some id ↔ (piece, id) ∈ byteEntries := by
  rw [byteTokenizer, lookup_assignAll, List.lookup_nil, Option.or_none, latest_eq_some]
  exact fun left held right kept => (byteEntries_keys held kept).mp

theorem byteEntries_complete : Complete [] byteTokenizer := by
  have vocab := vocab_byteTokenizer
  refine ⟨fun byte => ⟨byte.toNat, ?_⟩, ?_, fun piece id => ?_, rfl⟩
  · rw [vocab]
    exact List.mem_append_left _ (List.mem_map.mpr ⟨byte.toNat, List.mem_range.mpr byte.toNat_lt, by simp⟩)
  · intro first second left _ rule
    have key : first ++ ascii " " ++ second = ascii "a b" := by
      by_contra apart
      have missed : (first ++ ascii " " ++ second == ascii "a b") = false := by simpa using apart
      exact rule (by rw [byteTokenizer, List.lookup_cons, missed, List.lookup_nil])
    have literal : ascii "a b" = [97, 32, 98] := by decide
    have blank : ascii " " = [32] := by decide
    rw [literal, blank] at key
    rcases first with _ | ⟨x, _ | ⟨y, first⟩⟩
    · simp at key
    · simp only [List.cons_append, List.nil_append, List.cons.injEq, true_and] at key
      obtain ⟨rfl, rfl⟩ := key
      exact ⟨256, (vocab _ _).mpr (List.mem_append_right _ (by decide))⟩
    · simp only [List.cons_append, List.cons.injEq] at key
      exact absurd (by simp [key.2.1]) left
  · rw [vocab, byteTokenizer, lookup_assignAll, List.lookup_nil, Option.or_none, latest_eq_some]
    · constructor
      · intro inside
        obtain ⟨entry, held, swap⟩ := List.mem_map.mp inside
        cases swap
        exact held
      · exact fun held => List.mem_map.mpr ⟨(piece, id), held, rfl⟩
    · intro left inside right kept same
      obtain ⟨first, held, rfl⟩ := List.mem_map.mp inside
      obtain ⟨second, stays, rfl⟩ := List.mem_map.mp kept
      exact (byteEntries_keys held stays).mpr same

/-- The round trip of a text with a blank, a two-byte letter and a mergeable pair. -/
theorem decode_encode_sample :
    (∃ tokens, (encode byteTokenizer ([97, 98, 32, 233].flatMap codepointToUtf8)
        (cacheAfter byteTokenizer [ascii "ab"])).1 = .ok tokens ∧
        decode byteTokenizer tokens = [97, 98, 32, 233].flatMap codepointToUtf8) ∧
      (splitQwen35 [] [97, 98, 32, 233]).flatMap
        (fun range => ([97, 98, 32, 233].drop range.1).take (range.2 - range.1)) = [97, 98, 32, 233] :=
  decode_encode byteEntries_complete [ascii "ab"] (by simp [Scalar]) (by decide +kernel)
    (by unfold Visible; decide +kernel)

end XInfer.TokenizerRoundTrip
