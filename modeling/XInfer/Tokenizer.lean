import XInfer.ByteString
import XInfer.ChatTemplate

/-!
`QwenTokenizer` of `targets/qwen3_8/tokenizer.cpp` after loading: encoding with its
special-token scan, byte symbols, rank-ordered merges and memo table, and decoding.
Hash tables are association lists. The pre-tokenizer that cuts a segment into
chunks is a field: nothing here depends on where it cuts.
-/

namespace XInfer.Tokenizer

open Primitives ByteString ChatTemplate

structure QwenTokenizer where
  vocab : List (Bytes × Int)
  idToToken : List (Int × Bytes)
  bpeRanks : List (Bytes × Int)
  specialTokens : List (Bytes × Int)
  eosTokenId : Int
  imEndTokenId : Int
  thinkStartTokenId : Int
  thinkEndTokenId : Int
  chatTemplate : QwenChatTemplate
  /-- `split_qwen35`: ranges of codepoints. -/
  split : List Nat → List (Nat × Nat)

/-- The mutable memo table of `bpe_merge`. -/
abbrev BpeCache := List (Bytes × List Bytes)

/-- Bytes of the sequence that a lead byte opens, with the bits it carries. -/
def leadByte (c : Nat) : Option (Nat × Nat) :=
  if c < 0x80 then some (1, c)
  else if c &&& 0xE0 = 0xC0 then some (2, c &&& 0x1F)
  else if c &&& 0xF0 = 0xE0 then some (3, c &&& 0x0F)
  else if c &&& 0xF8 = 0xF0 then some (4, c &&& 0x07)
  else none

def utf8Loop : Nat → Bytes → List Nat
  | 0, _ => []
  | _, [] => []
  | fuel + 1, c :: rest => match leadByte c.toNat with
      | none => utf8Loop fuel rest
      | some (len, bits) =>
          if rest.length + 1 < len then []
          else ((rest.take (len - 1)).foldl (fun cp byte => cp * 64 + (byte.toNat &&& 0x3F)) bits) ::
            utf8Loop fuel (rest.drop (len - 1))

def utf8ToCodepoints (str : Bytes) : List Nat := utf8Loop str.length str

def codepointToUtf8 (cp : Nat) : Bytes :=
  let tail := fun shift => UInt8.ofNat (0x80 ||| ((cp / 2 ^ shift) &&& 0x3F))
  if cp < 0x80 then [UInt8.ofNat cp]
  else if cp < 0x800 then [UInt8.ofNat (0xC0 ||| cp / 2 ^ 6), tail 0]
  else if cp < 0x10000 then [UInt8.ofNat (0xE0 ||| cp / 2 ^ 12), tail 6, tail 0]
  else [UInt8.ofNat (0xF0 ||| cp / 2 ^ 18), tail 12, tail 6, tail 0]

def printable (b : Nat) : Bool :=
  (decide (33 ≤ b) && decide (b ≤ 126)) || (decide (161 ≤ b) && decide (b ≤ 172)) ||
    (decide (174 ≤ b) && decide (b ≤ 255))

/-- The codepoint of a byte symbol: the others follow 256 in byte order. -/
def symbolCodepoint (b : Nat) : Nat :=
  if printable b then b else 256 + ((List.range b).filter fun c => !printable c).length

def byteToUnicode (byte : UInt8) : Bytes := codepointToUtf8 (symbolCodepoint byte.toNat)

def unicodeToByte (symbol : Bytes) : Option UInt8 :=
  ((List.range 256).map UInt8.ofNat).find? fun byte => byteToUnicode byte == symbol

/-- Adjacent pieces of a word. -/
def pairs (word : List Bytes) : List (Bytes × Bytes) := word.zip word.tail

/-- The lowest-ranked mergeable pair, the first one among equals. -/
def bestPair (ranks : List (Bytes × Int)) (word : List Bytes) : Option (Int × Bytes × Bytes) :=
  (pairs word).foldl (fun best pair =>
    match ranks.lookup (pair.1 ++ ascii " " ++ pair.2) with
    | none => best
    | some rank => match best with
      | none => some (rank, pair)
      | some (least, _) => if least < 0 ∨ rank < least then some (rank, pair) else best) none

/-- Every occurrence of the pair, from the left. -/
def mergePair (first second : Bytes) : List Bytes → List Bytes
  | [] => []
  | [piece] => [piece]
  | left :: right :: rest =>
      if left = first ∧ right = second then (left ++ right) :: mergePair first second rest
      else left :: mergePair first second (right :: rest)

def mergeLoop (ranks : List (Bytes × Int)) : Nat → List Bytes → List Bytes
  | 0, word => word
  | fuel + 1, word =>
      if word.length ≤ 1 then word
      else match bestPair ranks word with
        | none => word
        | some (least, first, second) =>
            if least < 0 then word else mergeLoop ranks fuel (mergePair first second word)

/-- The merges of one piece, without the memo table. Each round shortens the word,
so its length bounds the rounds. -/
def mergeWord (tok : QwenTokenizer) (piece : Bytes) : List Bytes :=
  let word := (utf8ToCodepoints piece).map codepointToUtf8
  mergeLoop tok.bpeRanks word.length word

def bpeMerge (tok : QwenTokenizer) (piece : Bytes) (cache : BpeCache) : List Bytes × BpeCache :=
  if piece = [] then ([], cache)
  else match cache.lookup piece with
    | some word => (word, cache)
    | none => (mergeWord tok piece, (piece, mergeWord tok piece) :: cache)

/-- A piece outside the vocabulary falls back to its bytes. -/
def pieceTokens (tok : QwenTokenizer) (piece : Bytes) : List Int :=
  match tok.vocab.lookup piece with
  | some id => [id]
  | none => piece.filterMap fun byte => tok.vocab.lookup (byteToUnicode byte)

/-- The chunks of a segment, as byte symbols. -/
def symbolChunks (tok : QwenTokenizer) (seg : Bytes) : List Bytes :=
  let cpts := utf8ToCodepoints seg
  (tok.split cpts).map fun range =>
    (((cpts.drop range.1).take (range.2 - range.1)).flatMap codepointToUtf8).flatMap byteToUnicode

def encodeChunks (tok : QwenTokenizer) : List Bytes → BpeCache → List Int × BpeCache
  | [], cache => ([], cache)
  | chunk :: rest, cache =>
      let merged := bpeMerge tok chunk cache
      let later := encodeChunks tok rest merged.2
      (merged.1.flatMap (pieceTokens tok) ++ later.1, later.2)

def encodeSegment (tok : QwenTokenizer) (seg : Bytes) (cache : BpeCache) : List Int × BpeCache :=
  if seg = [] then ([], cache) else encodeChunks tok (symbolChunks tok seg) cache

/-- The special token that occurs first from `pos` on, the first listed among equals. -/
def nearestSpecial (specials : List (Bytes × Int)) (text : Bytes) (pos : Nat) :
    Option (Nat × Bytes × Int) :=
  specials.foldl (fun nearest special =>
    match findFrom special.1 text pos with
    | none => nearest
    | some p => match nearest with
      | none => some (p, special)
      | some (best, _) => if p < best then some (p, special) else nearest) none

/-- The scan around special tokens. It does not end when a special token is empty;
the growing token list then exhausts the memory. -/
def encodeLoop (tok : QwenTokenizer) (text : Bytes) :
    Nat → Nat → BpeCache → Except Exn (List Int) × BpeCache
  | 0, pos, cache => (if text.length ≤ pos then .ok [] else .error .badAlloc, cache)
  | fuel + 1, pos, cache =>
      if text.length ≤ pos then (.ok [], cache)
      else
        let nearest := nearestSpecial tok.specialTokens text pos
        let segEnd := (nearest.map Prod.fst).getD text.length
        let seg := encodeSegment tok (substr text pos (segEnd - pos)) cache
        match nearest with
        | none => (.ok seg.1, seg.2)
        | some (p, special, id) =>
            let later := encodeLoop tok text fuel (p + special.length) seg.2
            (later.1.map fun tokens => seg.1 ++ id :: tokens, later.2)

def encode (tok : QwenTokenizer) (text : Bytes) (cache : BpeCache) : Except Exn (List Int) × BpeCache :=
  if text = [] ∨ tok.vocab = [] then (.ok [], cache) else encodeLoop tok text text.length 0 cache

def hiddenPiece (piece : Bytes) : Bool :=
  piece == ascii "<|im_start|>" || piece == ascii "<|im_end|>" || piece == ascii "<|endoftext|>"

def decodeToken (tok : QwenTokenizer) (token : Int) : Bytes :=
  match tok.idToToken.lookup token with
  | none => []
  | some piece =>
      if hiddenPiece piece then []
      else (utf8ToCodepoints piece).flatMap fun cp =>
        match unicodeToByte (codepointToUtf8 cp) with
        | some byte => [byte]
        | none => codepointToUtf8 cp

def decode (tok : QwenTokenizer) (tokens : List Int) : Bytes := tokens.flatMap (decodeToken tok)

/-- Every entry of the memo table is what an uncached merge would answer. -/
def CacheConsistent (tok : QwenTokenizer) (cache : BpeCache) : Prop :=
  ∀ piece word, cache.lookup piece = some word → word = mergeWord tok piece

theorem consistent_nil (tok : QwenTokenizer) : CacheConsistent tok [] := by
  intro piece word found
  cases found

theorem bpeMerge_consistent {tok : QwenTokenizer} {cache : BpeCache} (piece : Bytes)
    (consistent : CacheConsistent tok cache) :
    (bpeMerge tok piece cache).1 = (if piece = [] then [] else mergeWord tok piece) ∧
      CacheConsistent tok (bpeMerge tok piece cache).2 := by
  unfold bpeMerge
  by_cases empty : piece = []
  · simp [empty, consistent]
  · cases found : cache.lookup piece with
    | some word =>
        have stored := consistent piece word found
        simp [empty, stored, consistent]
    | none =>
        simp only [empty, if_false, true_and]
        intro other word stored
        by_cases same : other = piece
        · subst same
          simpa using stored.symm
        · have apart : (other == piece) = false := by simpa using same
          rw [List.lookup_cons, apart] at stored
          exact consistent other word stored

theorem encodeChunks_consistent {tok : QwenTokenizer} (chunks : List Bytes) {first second : BpeCache}
    (left : CacheConsistent tok first) (right : CacheConsistent tok second) :
    (encodeChunks tok chunks first).1 = (encodeChunks tok chunks second).1 ∧
      CacheConsistent tok (encodeChunks tok chunks first).2 ∧
      CacheConsistent tok (encodeChunks tok chunks second).2 := by
  induction chunks generalizing first second with
  | nil => exact ⟨rfl, left, right⟩
  | cons chunk rest ih =>
      obtain ⟨word, kept⟩ := bpeMerge_consistent chunk left
      obtain ⟨twin, keeps⟩ := bpeMerge_consistent chunk right
      obtain ⟨same, after, beyond⟩ := ih kept keeps
      simp only [encodeChunks, word, twin, same]
      exact ⟨trivial, after, beyond⟩

theorem encodeSegment_consistent {tok : QwenTokenizer} (seg : Bytes) {first second : BpeCache}
    (left : CacheConsistent tok first) (right : CacheConsistent tok second) :
    (encodeSegment tok seg first).1 = (encodeSegment tok seg second).1 ∧
      CacheConsistent tok (encodeSegment tok seg first).2 ∧
      CacheConsistent tok (encodeSegment tok seg second).2 := by
  unfold encodeSegment
  split
  · exact ⟨rfl, left, right⟩
  · exact encodeChunks_consistent _ left right

theorem encodeLoop_consistent {tok : QwenTokenizer} (text : Bytes) (fuel pos : Nat)
    {first second : BpeCache} (left : CacheConsistent tok first)
    (right : CacheConsistent tok second) :
    (encodeLoop tok text fuel pos first).1 = (encodeLoop tok text fuel pos second).1 ∧
      CacheConsistent tok (encodeLoop tok text fuel pos first).2 ∧
      CacheConsistent tok (encodeLoop tok text fuel pos second).2 := by
  induction fuel generalizing pos first second with
  | zero => exact ⟨rfl, left, right⟩
  | succ fuel ih =>
      unfold encodeLoop
      split
      · exact ⟨rfl, left, right⟩
      · dsimp only
        generalize substr text pos _ = seg
        obtain ⟨same, kept, keeps⟩ := encodeSegment_consistent seg left right
        split
        · exact ⟨by rw [same], kept, keeps⟩
        · rename_i p special id _
          obtain ⟨later, after, beyond⟩ := ih (p + special.length) kept keeps
          exact ⟨by rw [same, later], after, beyond⟩

/-- The memo table never changes an encoding: two engines whose tables hold only
what merging answers encode every text alike. -/
theorem encode_consistent {tok : QwenTokenizer} (text : Bytes) {first second : BpeCache}
    (left : CacheConsistent tok first) (right : CacheConsistent tok second) :
    (encode tok text first).1 = (encode tok text second).1 ∧
      CacheConsistent tok (encode tok text first).2 ∧
      CacheConsistent tok (encode tok text second).2 := by
  unfold encode
  split
  · exact ⟨rfl, left, right⟩
  · exact encodeLoop_consistent text text.length 0 left right

end XInfer.Tokenizer
