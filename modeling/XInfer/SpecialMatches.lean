import XInfer.LongestMatch
import XInfer.SpecialScan
import XInfer.TokenizerLoad

/-!
The special-token scan of `encode` over every tokenizer that loading can leave. It cuts a text at the
leftmost, longest occurrences of the added tokens. An added token may have an empty content: the scan finds
it wherever no other one begins, and does not move on from there.
-/

namespace XInfer.SpecialMatches

open Primitives ByteString Tokenizer TokenizerLoad TokenizerJson SpecialScan LongestMatch

section States

def Sorted (specials : List (Bytes × Int)) : Prop :=
  specials.Pairwise fun left right => right.1.length ≤ left.1.length

instance (specials : List (Bytes × Int)) : Decidable (Sorted specials) :=
  inferInstanceAs (Decidable (List.Pairwise _ specials))

/-- What loading and encoding leave. `std::sort` may leave equally long tokens in any order, and a load that
fails leaves its tables like one that succeeds. -/
inductive Produced : LoadedTokenizer → Prop where
  | fresh (split : List Nat → List (Nat × Nat)) : Produced (unloaded split)
  | load {tok : LoadedTokenizer} {buffer : Bytes} {order : List (Bytes × Int)} (before : Produced tok)
      (nonempty : buffer ≠ []) (same : order.Perm (addedTokens buffer)) (sorted : Sorted order) :
      Produced { resolved (tables buffer tok) with specialTokens := order }
  | encode {tok : LoadedTokenizer} (before : Produced tok) (text : Bytes) :
      Produced { tok with bpeCache := (Tokenizer.encode tok.toQwenTokenizer text tok.bpeCache).2 }

theorem longestFirst_sorted (tokens : List (Bytes × Int)) : Sorted (longestFirst tokens) := by
  have order := @List.pairwise_mergeSort _ (fun left right : Bytes × Int => decide (right.1.length ≤ left.1.length))
    (fun a b c first second => by
      simp only [decide_eq_true_eq] at first second ⊢
      exact second.trans first)
    (fun a b => by
      simp only [Bool.or_eq_true, decide_eq_true_eq]
      exact Nat.le_total _ _) tokens
  exact order.imp fun ordered => of_decide_eq_true ordered

theorem produced_load {tok : LoadedTokenizer} (before : Produced tok) (buffer : Bytes) :
    Produced (loadFromJsonBuffer buffer tok).2 := by
  by_cases empty : buffer = []
  · rw [loadFromJsonBuffer, if_pos empty]
    exact before
  · have same : (longestFirst (addedTokens buffer)).Perm (addedTokens buffer) := List.mergeSort_perm _ _
    have loaded := Produced.load before empty same (longestFirst_sorted _)
    rw [← tables_specialTokens buffer tok] at loaded
    rw [(load_filled empty tok).1]
    exact loaded

theorem tables_bpeCache (buffer : Bytes) (tok : LoadedTokenizer) : (tables buffer tok).bpeCache = [] := by
  have added : ((addedTokens buffer).foldl addToken (cleared tok)).bpeCache = [] :=
    HashTable.foldl_frame (fun tok : LoadedTokenizer => tok.bpeCache) addToken (fun _ _ => rfl) _ _
  have entered := HashTable.foldl_frame (fun tok : LoadedTokenizer => tok.bpeCache) addEntry (fun _ _ => rfl)
    (vocabulary buffer) ((addedTokens buffer).foldl addToken (cleared tok))
  simp only [tables]
  rw [entered, added]

structure Sound (tok : LoadedTokenizer) : Prop where
  sorted : Sorted tok.specialTokens
  consistent : CacheConsistent tok.toQwenTokenizer tok.bpeCache
  hollow : tok.vocab = [] → tok.specialTokens = []

theorem Produced.sound {tok : LoadedTokenizer} (produced : Produced tok) : Sound tok := by
  induction produced with
  | fresh split => exact ⟨List.Pairwise.nil, consistent_nil _, fun _ => rfl⟩
  | @load tok buffer order before nonempty same sorted =>
      refine ⟨sorted, ?_, fun hollow => ?_⟩
      · -- a load drops what was cached for the tables before it
        have cache := tables_bpeCache buffer tok
        dsimp only [resolved]
        rw [cache]
        exact consistent_nil _
      · have vocab : (tables buffer tok).vocab = [] := hollow
        rw [tables_vocab, HashTable.assignAll_eq_nil, List.append_eq_nil_iff] at vocab
        rw [vocab.1.1] at same
        exact same.eq_nil
  | @encode tok before text ih =>
      exact ⟨ih.sorted, (encode_consistent text ih.consistent ih.consistent).2.1, ih.hollow⟩

end States

section Nearest

variable {specials : List (Bytes × Int)} {text : Bytes} {pos p : Nat}

/-- The nearest token is the first one listed at its place. -/
theorem nearest_entry {entry : Bytes × Int} (found : nearestSpecial specials text pos = some (p, entry)) :
    ∃ front back, specials = front ++ entry :: back ∧ findFrom entry.1 text pos = some p ∧
      (∀ special ∈ front, ∀ q, findFrom special.1 text pos = some q → p < q) ∧
      ∀ special ∈ back, ∀ q, findFrom special.1 text pos = some q → p ≤ q := by
  -- from the back, as the loop compares each token with the best one before it
  induction specials using List.reverseRecOn generalizing p entry with
  | nil => cases found
  | append_singleton specials last ih =>
      rw [nearestSpecial_append] at found
      have spec := nearestSpecial_spec specials text pos
      -- the entry stays the nearest when the last one does not occur before it
      have kept {p : Nat} {entry : Bytes × Int} (before : nearestSpecial specials text pos = some (p, entry))
          (late : ∀ q, findFrom last.1 text pos = some q → p ≤ q) :
          ∃ front back, specials ++ [last] = front ++ entry :: back ∧ findFrom entry.1 text pos = some p ∧
            (∀ special ∈ front, ∀ q, findFrom special.1 text pos = some q → p < q) ∧
            ∀ special ∈ back, ∀ q, findFrom special.1 text pos = some q → p ≤ q := by
        obtain ⟨front, back, split, here, sooner, later⟩ := ih before
        refine ⟨front, back ++ [last], by rw [split, List.append_assoc, List.cons_append], here, sooner, ?_⟩
        intro special member
        rcases List.mem_append.mp member with old | new
        · exact later special old
        · exact List.mem_singleton.mp new ▸ late
      cases here : findFrom last.1 text pos with
      | none =>
          rw [here] at found
          exact kept found fun q occurs => by simp [here] at occurs
      | some q =>
          rw [here] at found
          dsimp only at found
          cases before : nearestSpecial specials text pos with
          | none =>
              rw [before] at found spec
              cases found
              exact ⟨specials, [], rfl, here, fun special listed r occurs => by simp [spec special listed] at occurs,
                fun special impossible => absurd impossible List.not_mem_nil⟩
          | some nearest =>
              obtain ⟨best, name, id⟩ := nearest
              rw [before] at found spec
              dsimp only at found
              split_ifs at found with sooner
              · -- the last token occurs before the best one
                cases found
                exact ⟨specials, [], rfl, here, fun special listed r occurs =>
                  Nat.lt_of_lt_of_le sooner (spec.2.2 special listed r occurs),
                  fun special impossible => absurd impossible List.not_mem_nil⟩
              · cases found
                refine kept before fun r occurs => ?_
                rw [here] at occurs
                exact Option.some.inj occurs ▸ Nat.le_of_not_lt sooner

theorem begins_found {name : Bytes} {k : Nat} (here : name <+: (text.drop pos).drop k)
    (inside : pos + k ≤ text.length) :
    ∃ q, findFrom name text pos = some q ∧ pos ≤ q ∧ q ≤ pos + k := by
  obtain ⟨q, found, bound⟩ := find_bound ((text.drop pos).take k) here
  rw [List.take_append_drop] at found
  have size : ((text.drop pos).take k).length = k := by
    rw [List.length_take, List.length_drop]
    omega
  refine ⟨q + pos, ?_, by omega, by omega⟩
  rw [findFrom, found, Option.map_some]

/-- Where the scan goes on: at the leftmost occurrence of any token, and there at the longest token. -/
structure Hit (specials : List (Bytes × Int)) (rest before name after : Bytes) (id : Int) : Prop where
  whole : rest = before ++ (name ++ after)
  listed : (name, id) ∈ specials
  leftmost : ∀ k < before.length, ∀ special ∈ specials, ¬ special.1 <+: rest.drop k
  longest : ∀ special ∈ specials, special.1 <+: name ++ after → special.1.length ≤ name.length

theorem nearest_hit {name : Bytes} {id : Int} (sorted : Sorted specials) (inside : pos ≤ text.length)
    (found : nearestSpecial specials text pos = some (p, name, id)) :
    pos ≤ p ∧ Hit specials (text.drop pos) (substr text pos (p - pos)) name (text.drop (p + name.length)) id := by
  obtain ⟨front, back, split, here, sooner, later⟩ := nearest_entry found
  obtain ⟨offset, inner, rfl⟩ := Option.map_eq_some_iff.mp here
  have whole := find_split name inner
  have limit := find_le name inner
  rw [List.drop_drop, List.append_assoc] at whole
  have shift : pos + (offset + name.length) = offset + pos + name.length := by omega
  have gap : offset + pos - pos = offset := Nat.add_sub_cancel offset pos
  have size : (substr text pos offset).length = offset := by
    rw [substr, List.length_take]
    omega
  rw [shift] at whole
  rw [gap]
  have listed : (name, id) ∈ specials := split ▸ List.mem_append_right front List.mem_cons_self
  have least (special : Bytes × Int) (member : special ∈ specials) {q : Nat}
      (occurs : findFrom special.1 text pos = some q) : offset + pos ≤ q := by
    rw [split, List.mem_append, List.mem_cons] at member
    rcases member with first | rfl | last
    · exact Nat.le_of_lt (sooner special first q occurs)
    · exact Nat.le_of_eq (Option.some.inj (here.symm.trans occurs))
    · exact later special last q occurs
  rw [List.length_drop] at limit
  refine ⟨by omega, whole, listed, ?_, ?_⟩
  · intro k small special member begins
    rw [size] at small
    obtain ⟨q, occurs, _, bound⟩ := begins_found begins (by omega)
    have order := least special member occurs
    omega
  · intro special member begins
    -- what begins at the same place is listed behind, and so is no longer
    have place : (text.drop pos).drop offset = name ++ text.drop (offset + pos + name.length) := by
      conv_lhs => rw [whole]
      exact List.drop_left' size
    rw [← place] at begins
    obtain ⟨q, occurs, _, bound⟩ := begins_found begins (by omega)
    rw [split, List.mem_append, List.mem_cons] at member
    rcases member with first | rfl | last
    · have order := sooner special first q occurs
      omega
    · exact Nat.le_refl _
    · rw [Sorted, split, List.pairwise_append, List.pairwise_cons] at sorted
      exact sorted.2.1.1 special last

theorem nearest_miss (found : nearestSpecial specials text pos = none) {k : Nat} (inside : pos + k ≤ text.length)
    {special : Bytes × Int} (listed : special ∈ specials) : ¬ special.1 <+: (text.drop pos).drop k := by
  intro begins
  have spec := nearestSpecial_spec specials text pos
  rw [found] at spec
  obtain ⟨q, occurs, _⟩ := begins_found begins inside
  rw [spec special listed] at occurs
  cases occurs

end Nearest

section Scan

variable {tok : QwenTokenizer} {text : Bytes}

/-- What a piece of the text is encoded to. -/
def tokensOf (tok : QwenTokenizer) : Piece UInt8 Int → List Int
  | .plain seg => (encodeSegment tok seg []).1
  | .named _ id => [id]

/-- The scan moves on everywhere: no token is empty, or the other ones leave no gap. -/
def Advances (specials : List (Bytes × Int)) (text : Bytes) : Prop :=
  (∀ special ∈ specials, special.1 ≠ []) ∨ Tiled specials text

theorem stretch_tokens (seg : Bytes) {cache : BpeCache} (consistent : CacheConsistent tok cache) :
    (stretch seg).flatMap (tokensOf tok) = (encodeSegment tok seg cache).1 := by
  have same := (encodeSegment_consistent seg (consistent_nil tok) consistent).1
  cases seg with
  | nil => rfl
  | cons c rest => rw [stretch, List.flatMap_singleton, tokensOf, same]

variable {specials : List (Bytes × Int)} {rest before name after : Bytes} {id : Int}

theorem Hit.clear (hit : Hit specials rest before name after id) :
    Clear specials (before ++ (name ++ after)) before.length :=
  fun k small special begins => hit.leftmost k small special begins.listed (hit.whole ▸ begins.here)

theorem Hit.at_most (hit : Hit specials rest before name after id) (nonempty : name ≠ []) :
    Longest specials (name ++ after) (name, id) :=
  ⟨⟨hit.listed, nonempty, List.prefix_append name after⟩,
    fun special begins => hit.longest special begins.listed begins.here⟩

/-- In a text without gaps the scan takes the first tile. -/
theorem Hit.tile {tile beyond : Bytes} {label : Int} (hit : Hit specials rest before name after id)
    (longest : Longest specials (tile ++ beyond) (tile, label)) (tiled : rest = tile ++ beyond) :
    before = [] ∧ name = tile ∧ after = beyond := by
  have front : before = [] := by
    by_contra nonempty
    have begins := hit.leftmost 0 (List.length_pos_iff.mpr nonempty) (tile, label) longest.begins.listed
    rw [List.drop_zero, tiled] at begins
    exact begins (List.prefix_append tile beyond)
  have whole : name ++ after = tile ++ beyond := by
    rw [← tiled, hit.whole, front, List.nil_append]
  have long := hit.longest (tile, label) longest.begins.listed (whole ▸ List.prefix_append tile beyond)
  have nonempty : name ≠ [] := by
    rintro rfl
    exact longest.begins.nonempty (List.eq_nil_of_length_eq_zero (Nat.le_zero.mp long))
  have short := longest.longest (name, id) ⟨hit.listed, nonempty, whole ▸ List.prefix_append name after⟩
  exact ⟨front, List.append_inj whole (Nat.le_antisymm short long)⟩

theorem Hit.advances (hit : Hit specials rest before name after id) (goesOn : Advances specials rest)
    (positive : 0 < rest.length) : name ≠ [] ∧ Advances specials after := by
  rcases goesOn with named | tiled
  · exact ⟨named _ hit.listed, Or.inl named⟩
  · cases tiled with
    | nil => exact absurd positive (Nat.lt_irrefl 0)
    | cons longest later =>
        obtain ⟨_, rfl, rfl⟩ := hit.tile longest rfl
        exact ⟨longest.begins.nonempty, Or.inr later⟩

/-- Where it moves on, the scan cuts the rest of the text at its leftmost, longest tokens. -/
theorem encodeLoop_segmented (sorted : Sorted tok.specialTokens) (fuel : Nat) {pos : Nat} {cache : BpeCache}
    (consistent : CacheConsistent tok cache) (goesOn : Advances tok.specialTokens (text.drop pos))
    (enough : text.length ≤ pos + fuel) :
    ∃ pieces, Segmented tok.specialTokens (text.drop pos) pieces ∧
      (encodeLoop tok text fuel pos cache).1 = .ok (pieces.flatMap (tokensOf tok)) := by
  have finished (past : text.length ≤ pos) : Segmented tok.specialTokens (text.drop pos) [] := by
    rw [List.drop_eq_nil_of_le past]
    exact .done fun k small => absurd small (Nat.not_lt_zero k)
  -- on the fuel: every turn passes a token that is not empty
  induction fuel generalizing pos cache with
  | zero => exact ⟨[], finished enough, if_pos enough⟩
  | succ fuel ih =>
      unfold encodeLoop
      split_ifs with past
      · exact ⟨[], finished past, rfl⟩
      dsimp only
      cases found : nearestSpecial tok.specialTokens text pos with
      | none =>
          -- no token is left
          refine ⟨stretch (text.drop pos), .done fun k small special begins => ?_, ?_⟩
          · rw [List.length_drop] at small
            exact nearest_miss found (by omega) begins.listed begins.here
          · have all : substr text pos (text.length - pos) = text.drop pos := by
              rw [substr, ← List.length_drop, List.take_length]
            simp only [Option.map_none, Option.getD_none, all, stretch_tokens _ consistent]
      | some nearest =>
          obtain ⟨p, name, id⟩ := nearest
          obtain ⟨forward, hit⟩ := nearest_hit sorted (Nat.le_of_not_le past) found
          obtain ⟨nonempty, later⟩ := hit.advances goesOn (by rw [List.length_drop]; omega)
          have long : 0 < name.length := List.length_pos_iff.mpr nonempty
          have kept := (encodeSegment_consistent (substr text pos (p - pos)) consistent consistent).2.1
          obtain ⟨pieces, segmented, encoded⟩ := ih kept later (by omega) fun beyond => by
            rw [List.drop_eq_nil_of_le beyond]
            exact .done fun k small => absurd small (Nat.not_lt_zero k)
          refine ⟨stretch (substr text pos (p - pos)) ++ .named name id :: pieces, ?_, ?_⟩
          · rw [hit.whole]
            exact .hit hit.clear (hit.at_most nonempty) segmented
          · simp only [Option.map_some, Option.getD_some, encoded, Except.map, List.flatMap_append,
              List.flatMap_cons, stretch_tokens _ consistent, tokensOf, List.singleton_append]

/-- With an empty token the scan stays where no other one begins, however often it turns. -/
theorem encodeLoop_stuck (sorted : Sorted tok.specialTokens) {empty : Bytes × Int} (listed : empty ∈ tok.specialTokens)
    (hollow : empty.1 = []) (fuel : Nat) {pos : Nat} (cache : BpeCache)
    (gap : ¬ Tiled tok.specialTokens (text.drop pos)) :
    (encodeLoop tok text fuel pos cache).1 = .error .badAlloc := by
  have inside : ¬ text.length ≤ pos := by
    intro past
    rw [List.drop_eq_nil_of_le past] at gap
    exact gap .nil
  have everywhere (rest : Bytes) : empty.1 <+: rest := hollow ▸ List.nil_prefix
  induction fuel generalizing pos cache with
  | zero => exact if_neg inside
  | succ fuel ih =>
      unfold encodeLoop
      rw [if_neg inside]
      dsimp only
      cases found : nearestSpecial tok.specialTokens text pos with
      | none => exact absurd (everywhere _) (nearest_miss found (Nat.le_of_not_le inside) (k := 0) listed)
      | some nearest =>
          obtain ⟨p, name, id⟩ := nearest
          obtain ⟨_, hit⟩ := nearest_hit sorted (Nat.le_of_not_le inside) found
          -- the empty token occurs at the place itself, so nothing stands before the hit
          have front : substr text pos (p - pos) = [] := by
            by_contra nonempty
            exact hit.leftmost 0 (List.length_pos_iff.mpr nonempty) empty listed (everywhere _)
          have later : ¬ Tiled tok.specialTokens (text.drop (p + name.length)) := by
            intro tiled
            apply gap
            rw [hit.whole, front, List.nil_append]
            by_cases nothing : name = []
            · rw [nothing] at tiled ⊢
              exact tiled
            · exact .cons (hit.at_most nothing) tiled
          have inside' : ¬ text.length ≤ p + name.length := by
            intro past
            rw [List.drop_eq_nil_of_le past] at later
            exact later .nil
          simp only [Option.map_some, Option.getD_some, ih _ later inside', Except.map]

end Scan

section Encoding

variable {tok : LoadedTokenizer}

/-- The text has one cut into ordinary stretches and leftmost, longest tokens, and `encode` ends with the tokens
of its pieces in order. -/
def Correct (tok : LoadedTokenizer) (text : Bytes) : Prop :=
  ∃ pieces, (∀ other, Segmented tok.specialTokens text other ↔ other = pieces) ∧
    pieces.flatMap Piece.text = text ∧
    (Tokenizer.encode tok.toQwenTokenizer text tok.bpeCache).1 = .ok (pieces.flatMap (tokensOf tok.toQwenTokenizer))

/-- Without a vocabulary nothing has a token. -/
theorem encodeSegment_hollow {tok : QwenTokenizer} (hollow : tok.vocab = []) (seg : Bytes) (cache : BpeCache) :
    (encodeSegment tok seg cache).1 = [] := by
  have chunks (chunks : List Bytes) (cache : BpeCache) : (encodeChunks tok chunks cache).1 = [] := by
    induction chunks generalizing cache with
    | nil => rfl
    | cons chunk rest ih => simp [encodeChunks, ih, pieceTokens, hollow]
  unfold encodeSegment
  split
  · rfl
  · exact chunks _ cache

theorem correct_of_segmented {text : Bytes} {pieces : List (Piece UInt8 Int)}
    (distinct : (tok.specialTokens.map Prod.fst).Nodup) (segmented : Segmented tok.specialTokens text pieces)
    (encoded : (Tokenizer.encode tok.toQwenTokenizer text tok.bpeCache).1 =
      .ok (pieces.flatMap (tokensOf tok.toQwenTokenizer))) : Correct tok text := by
  refine ⟨pieces, fun other => ⟨fun cut => cut.unique distinct segmented, ?_⟩, segmented.whole, encoded⟩
  rintro rfl
  exact segmented

/-- Encoding is right, and ends, exactly where the scan moves on everywhere; elsewhere it never ends. -/
theorem correct_iff (produced : Produced tok) (distinct : (tok.specialTokens.map Prod.fst).Nodup) (text : Bytes) :
    (Correct tok text ↔ Advances tok.specialTokens text) ∧
      (¬ Advances tok.specialTokens text →
        ∀ fuel, (encodeLoop tok.toQwenTokenizer text fuel 0 tok.bpeCache).1 = .error .badAlloc) := by
  obtain ⟨sorted, consistent, hollow⟩ := produced.sound
  have stuck (stays : ¬ Advances tok.specialTokens text) (fuel : Nat) :
      (encodeLoop tok.toQwenTokenizer text fuel 0 tok.bpeCache).1 = .error .badAlloc := by
    rw [Advances, not_or, not_forall] at stays
    obtain ⟨⟨empty, unnamed⟩, gap⟩ := stays
    rw [Classical.not_imp, not_not] at unnamed
    exact encodeLoop_stuck sorted unnamed.1 unnamed.2 fuel tok.bpeCache gap
  refine ⟨⟨?_, fun goesOn => ?_⟩, stuck⟩
  · rintro ⟨pieces, _, _, encoded⟩
    by_contra stays
    have some' : text ≠ [] := by
      rintro rfl
      exact stays (Or.inr .nil)
    have full : tok.vocab ≠ [] := by
      intro bare
      exact stays (Or.inl (hollow bare ▸ fun special impossible => absurd impossible List.not_mem_nil))
    rw [Tokenizer.encode, if_neg (not_or_intro some' full), stuck stays] at encoded
    cases encoded
  · by_cases nothing : text = [] ∨ tok.vocab = []
    · -- `encode` answers without a scan
      have segmented : Segmented tok.specialTokens text (stretch text) := by
        apply Segmented.done
        intro k small special begins
        rcases nothing with rfl | bare
        · exact absurd small (Nat.not_lt_zero k)
        · exact absurd (hollow bare ▸ begins.listed) List.not_mem_nil
      have tokens : (stretch text).flatMap (tokensOf tok.toQwenTokenizer) = [] := by
        rcases nothing with rfl | bare
        · rfl
        · rw [stretch_tokens text (consistent_nil _), encodeSegment_hollow bare]
      refine correct_of_segmented distinct segmented ?_
      rw [Tokenizer.encode, if_pos nothing, tokens]
    · have start : Advances tok.specialTokens (text.drop 0) := goesOn
      obtain ⟨pieces, segmented, encoded⟩ := encodeLoop_segmented sorted text.length consistent start (by omega)
      refine correct_of_segmented distinct segmented ?_
      rw [Tokenizer.encode, if_neg nothing]
      exact encoded

/-- The tokens of a small file with the three that are required. -/
def smallFile (more : String) : Bytes :=
  ascii ("\x7b\"added_tokens\":[\x7b\"id\":1,\"content\":\"<|endoftext|>\"\x7d," ++
    "\x7b\"id\":2,\"content\":\"<|im_start|>\"\x7d,\x7b\"id\":3,\"content\":\"<|im_end|>\"\x7d" ++ more ++
    "],\"model\":\x7b\"vocab\":\x7b\"a\":0\x7d,\"merges\":[\"a a\"]\x7d\x7d")

/-- The file in three pieces, of which the first and the last are the same for every file. -/
theorem smallFile_pieces (more : String) : smallFile more =
    ascii ("\x7b\"added_tokens\":[\x7b\"id\":1,\"content\":\"<|endoftext|>\"\x7d," ++
      "\x7b\"id\":2,\"content\":\"<|im_start|>\"\x7d,\x7b\"id\":3,\"content\":\"<|im_end|>\"\x7d") ++
      ascii more ++ ascii "],\"model\":\x7b\"vocab\":\x7b\"a\":0\x7d,\"merges\":[\"a a\"]\x7d\x7d" := by
  simp only [smallFile, ascii_append]

/-- What a file leaves that lists the longest token first. -/
def loadedFrom (file : Bytes) : LoadedTokenizer :=
  { resolved (tables file (unloaded fun _ => [])) with specialTokens := addedTokens file }

theorem loadedFrom_produced {file : Bytes} (nonempty : file ≠ []) (sorted : Sorted (addedTokens file)) :
    Produced (loadedFrom file) := .load (.fresh _) nonempty (List.Perm.refl _) sorted

theorem correct_iff_small :
    (Correct (loadedFrom (smallFile "")) (ascii "a<|im_end|>") ↔
        Advances (loadedFrom (smallFile "")).specialTokens (ascii "a<|im_end|>")) ∧
      (¬ Advances (loadedFrom (smallFile "")).specialTokens (ascii "a<|im_end|>") →
        ∀ fuel, (encodeLoop (loadedFrom (smallFile "")).toQwenTokenizer (ascii "a<|im_end|>") fuel 0
          (loadedFrom (smallFile "")).bpeCache).1 = .error .badAlloc) := by
  refine correct_iff (loadedFrom_produced ?_ ?_) ?_ _
  all_goals
    rw [smallFile_pieces, ascii_append, ascii_ofList, ascii_ofList, ascii_ofList]
    decide +kernel

/-- An added token without content is accepted. -/
def emptyContent : Bytes := smallFile ",\x7b\"id\":4,\"content\":\"\"\x7d"

theorem emptyContent_endless :
    Produced (loadedFrom emptyContent) ∧ ((loadedFrom emptyContent).specialTokens.map Prod.fst).Nodup ∧
      (loadFromJsonBuffer emptyContent (unloaded fun _ => [])).1 = .ok () ∧
      ¬ Correct (loadedFrom emptyContent) (ascii "a") := by
  -- the bytes of the file, once for all evaluations
  have bytes : emptyContent = _ := smallFile_pieces _
  rw [ascii_append, ascii_ofList, ascii_ofList, ascii_ofList, ascii_ofList] at bytes
  have nonempty : emptyContent ≠ [] := by
    rw [bytes]
    decide +kernel
  have sorted : Sorted (addedTokens emptyContent) := by
    rw [bytes]
    decide +kernel
  have distinct : ((loadedFrom emptyContent).specialTokens.map Prod.fst).Nodup := by
    rw [bytes]
    decide +kernel
  have accepted : (loadFromJsonBuffer emptyContent (unloaded fun _ => [])).1 = .ok () := by
    rw [bytes]
    decide +kernel
  have fails : (Tokenizer.encode (loadedFrom emptyContent).toQwenTokenizer (ascii "a")
      (loadedFrom emptyContent).bpeCache).1 = .error .badAlloc := by
    rw [bytes]
    decide +kernel
  refine ⟨loadedFrom_produced nonempty sorted, distinct, accepted, ?_⟩
  rintro ⟨pieces, _, _, encoded⟩
  rw [fails] at encoded
  cases encoded

end Encoding

end XInfer.SpecialMatches
