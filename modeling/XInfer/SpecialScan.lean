import XInfer.Occurrences
import XInfer.TokenizerRoundTrip

/-!
How often the id of an added token comes out of `encode`: as often as the text spells the token, where
no other added token reaches into it and ordinary text cannot come by its id. The scan always goes on
at the nearest special token, whichever component wrote it.
-/

namespace XInfer.SpecialScan

open Primitives ByteString Occurrences Tokenizer TokenizerRoundTrip

section Search

theorem mem_of_lookup {specials : List (Bytes × Int)} {name : Bytes} {id : Int}
    (listed : specials.lookup name = some id) : (name, id) ∈ specials := by
  obtain ⟨front, back, rfl, _⟩ := List.lookup_eq_some_iff.mp listed
  simp

theorem find_bound {pattern : Bytes} (front : Bytes) {back : Bytes} (here : pattern <+: back) :
    ∃ pos, find pattern (front ++ back) = some pos ∧ pos ≤ front.length := by
  induction front with
  | nil =>
      refine ⟨0, ?_, Nat.le_refl 0⟩
      cases back with
      | nil =>
          have empty : pattern = [] := List.prefix_nil.mp here
          simp [find, empty]
      | cons byte rest => exact if_pos (List.isPrefixOf_iff_prefix.mpr here)
  | cons byte front ih =>
      obtain ⟨pos, found, bound⟩ := ih
      by_cases first : pattern.isPrefixOf (byte :: (front ++ back))
      · exact ⟨0, by rw [List.cons_append, find, if_pos first], Nat.zero_le _⟩
      · refine ⟨pos + 1, ?_, ?_⟩
        · rw [List.cons_append, find, if_neg first, found]
          rfl
        · rw [List.length_cons]
          omega

/-- The outcome of `nearestSpecial`: the first entry of its name, and no special token occurs before. -/
def Nearest (specials : List (Bytes × Int)) (text : Bytes) (pos : Nat) : Option (Nat × Bytes × Int) → Prop
  | none => ∀ special ∈ specials, findFrom special.1 text pos = none
  | some (p, name, id) => findFrom name text pos = some p ∧ specials.lookup name = some id ∧
      ∀ special ∈ specials, ∀ q, findFrom special.1 text pos = some q → p ≤ q

variable {specials : List (Bytes × Int)} {last : Bytes × Int} {text : Bytes} {pos p : Nat}

/-- A later entry that does not occur sooner changes nothing. -/
theorem nearest_keep {name : Bytes} {id : Int} (nearest : Nearest specials text pos (some (p, name, id)))
    (late : ∀ q, findFrom last.1 text pos = some q → p ≤ q) :
    Nearest (specials ++ [last]) text pos (some (p, name, id)) := by
  obtain ⟨here, listed, least⟩ := nearest
  refine ⟨here, ?_, ?_⟩
  · rw [List.lookup_append, listed]
    rfl
  · intro special member q occurs
    rcases List.mem_append.mp member with old | new
    · exact least special old q occurs
    · rw [List.mem_singleton.mp new] at occurs
      exact late q occurs

/-- One that occurs before all others is the nearest, and the first of its name. -/
theorem nearest_take (here : findFrom last.1 text pos = some p)
    (sooner : ∀ special ∈ specials, ∀ q, findFrom special.1 text pos = some q → p < q) :
    Nearest (specials ++ [last]) text pos (some (p, last)) := by
  refine ⟨here, ?_, ?_⟩
  · have missing : specials.lookup last.1 = none := by
      rw [List.lookup_eq_none_iff]
      intro special listed
      rw [bne_iff_ne]
      intro same
      exact absurd (sooner special listed p (same ▸ here)) (Nat.lt_irrefl p)
    rw [List.lookup_append, missing, List.lookup_cons, beq_self_eq_true]
    rfl
  · intro special member q occurs
    rcases List.mem_append.mp member with old | new
    · exact Nat.le_of_lt (sooner special old q occurs)
    · rw [List.mem_singleton.mp new, here] at occurs
      exact Nat.le_of_eq (Option.some.inj occurs)

theorem nearestSpecial_append : nearestSpecial (specials ++ [last]) text pos =
    match findFrom last.1 text pos with
    | none => nearestSpecial specials text pos
    | some p => match nearestSpecial specials text pos with
      | none => some (p, last)
      | some (best, _) => if p < best then some (p, last) else nearestSpecial specials text pos := by
  unfold nearestSpecial
  rw [List.foldl_append]
  rfl

theorem nearestSpecial_spec (specials : List (Bytes × Int)) (text : Bytes) (pos : Nat) :
    Nearest specials text pos (nearestSpecial specials text pos) := by
  induction specials using List.reverseRecOn with
  | nil => exact fun special impossible => absurd impossible List.not_mem_nil
  | append_singleton specials last ih =>
      rw [nearestSpecial_append]
      cases here : findFrom last.1 text pos with
      | none =>
          dsimp only
          cases found : nearestSpecial specials text pos with
          | none =>
              rw [found] at ih
              intro special member
              rcases List.mem_append.mp member with old | new
              · exact ih special old
              · rw [List.mem_singleton.mp new, here]
          | some nearest =>
              rw [found] at ih
              exact nearest_keep ih fun q occurs => by simp [here] at occurs
      | some p =>
          dsimp only
          cases found : nearestSpecial specials text pos with
          | none =>
              rw [found] at ih
              exact nearest_take here fun special listed q occurs => by simp [ih special listed] at occurs
          | some nearest =>
              obtain ⟨best, name, id⟩ := nearest
              rw [found] at ih
              dsimp only
              split_ifs with sooner
              · exact nearest_take here fun special listed q occurs =>
                  Nat.lt_of_lt_of_le sooner (ih.2.2 special listed q occurs)
              · refine nearest_keep ih fun q occurs => ?_
                rw [here] at occurs
                exact Option.some.inj occurs ▸ Nat.le_of_not_lt sooner

end Search

section Ordinary

/-- What a piece of ordinary text can be: one codepoint, or the product of a merge rule. -/
def Spelt (tok : QwenTokenizer) (piece : Bytes) : Prop :=
  (∃ cp, piece = codepointToUtf8 cp) ∨
    ∃ left right, tok.bpeRanks.lookup (left ++ ascii " " ++ right) ≠ none ∧ piece = left ++ right

/-- An added token that is found wherever it is spelled, and whose id comes from nothing else. -/
structure Recognises (tok : QwenTokenizer) (tag : Bytes) (id : Int) : Prop where
  listed : tok.specialTokens.lookup tag = some id
  alone : ∀ special ∈ tok.specialTokens, special.1 ≠ tag → Apart tag special.1 ∧ special.2 ≠ id
  ordinary : ∀ piece, tok.vocab.lookup piece = some id → ¬ Spelt tok piece
  loaded : tok.vocab ≠ []
  /-- The scan ends. -/
  named : ∀ special ∈ tok.specialTokens, special.1 ≠ []

variable {tok : QwenTokenizer}

theorem mergePair_spelt {first second : Bytes} (rule : tok.bpeRanks.lookup (first ++ ascii " " ++ second) ≠ none) :
    ∀ word : List Bytes, (∀ piece ∈ word, Spelt tok piece) →
      ∀ piece ∈ mergePair first second word, Spelt tok piece
  | [], known => known
  | [_], known => known
  | left :: right :: rest, known => by
      unfold mergePair
      split_ifs with hit
      · have later := mergePair_spelt rule rest fun piece held => known piece (by simp [held])
        rw [List.forall_mem_cons]
        exact ⟨Or.inr ⟨first, second, rule, by rw [hit.1, hit.2]⟩, later⟩
      · have later := mergePair_spelt rule (right :: rest) fun piece held =>
          known piece (List.mem_cons_of_mem left held)
        rw [List.forall_mem_cons]
        exact ⟨known left List.mem_cons_self, later⟩

theorem mergeLoop_spelt (fuel : Nat) {word : List Bytes} (known : ∀ piece ∈ word, Spelt tok piece) :
    ∀ piece ∈ mergeLoop tok.bpeRanks fuel word, Spelt tok piece := by
  induction fuel generalizing word with
  | zero => exact known
  | succ fuel ih =>
      unfold mergeLoop
      split
      · exact known
      split
      · exact known
      · rename_i least first second best
        split
        · exact known
        · have rule := (bestPair_rule best).2
          exact ih (mergePair_spelt (fun absent => by cases rule.symm.trans absent) word known)

theorem mergeWord_spelt (text : Bytes) : ∀ piece ∈ mergeWord tok text, Spelt tok piece := by
  apply mergeLoop_spelt
  intro piece held
  obtain ⟨cp, _, rfl⟩ := List.mem_map.mp held
  exact Or.inl ⟨cp, rfl⟩

variable {tag : Bytes} {id : Int} (recognises : Recognises tok tag id)
include recognises

theorem pieceTokens_ordinary {piece : Bytes} (spelt : Spelt tok piece) : id ∉ pieceTokens tok piece := by
  unfold pieceTokens
  cases found : tok.vocab.lookup piece with
  | some other =>
      dsimp only
      rw [List.mem_singleton]
      rintro rfl
      exact recognises.ordinary piece found spelt
  | none =>
      dsimp only
      intro inside
      obtain ⟨byte, _, entry⟩ := List.mem_filterMap.mp inside
      exact recognises.ordinary _ entry (Or.inl ⟨_, rfl⟩)

theorem encodeChunks_ordinary (chunks : List Bytes) {cache : BpeCache} (consistent : CacheConsistent tok cache) :
    id ∉ (encodeChunks tok chunks cache).1 := by
  induction chunks generalizing cache with
  | nil => exact List.not_mem_nil
  | cons chunk rest ih =>
      obtain ⟨word, kept⟩ := bpeMerge_consistent chunk consistent
      rw [encodeChunks, List.mem_append, word]
      rintro (here | later)
      · obtain ⟨piece, held, token⟩ := List.mem_flatMap.mp here
        split_ifs at held
        · cases held
        · exact pieceTokens_ordinary recognises (mergeWord_spelt chunk piece held) token
      · exact ih kept later

theorem encodeSegment_ordinary (seg : Bytes) {cache : BpeCache} (consistent : CacheConsistent tok cache) :
    id ∉ (encodeSegment tok seg cache).1 := by
  unfold encodeSegment
  split
  · exact List.not_mem_nil
  · exact encodeChunks_ordinary recognises _ consistent

end Ordinary

section Scan

variable {tok : QwenTokenizer} {c : UInt8} {rest : Bytes} {id : Int}
  (recognises : Recognises tok (c :: rest) id) (once : c ∉ rest)

/-- Before the nearest special token the tag does not begin. -/
theorem nearest_clear {text : Bytes} {pos p : Nat} {name : Bytes} {other : Int}
    (listed : tok.specialTokens.lookup (c :: rest) = some id)
    (nearest : Nearest tok.specialTokens text pos (some (p, name, other))) :
    pos ≤ p ∧ text.drop pos = substr text pos (p - pos) ++ (name ++ text.drop (p + name.length)) ∧
      occurrences (c :: rest) (text.drop pos) = occurrences (c :: rest) (name ++ text.drop (p + name.length)) := by
  obtain ⟨here, _, least⟩ := nearest
  obtain ⟨offset, found, rfl⟩ := Option.map_eq_some_iff.mp here
  have split := find_split name found
  rw [List.drop_drop, List.append_assoc] at split
  have shift : pos + (offset + name.length) = offset + pos + name.length := by omega
  rw [shift] at split
  have inner : offset + pos - pos = offset := Nat.add_sub_cancel offset pos
  refine ⟨Nat.le_add_left pos offset, by rw [inner]; exact split, ?_⟩
  rw [split]
  apply occurrences_clear
  intro part nonempty suffix sooner
  -- the tag's own nearest place would lie before `p`
  obtain ⟨front, whole⟩ := suffix
  have text' : text.drop pos = front ++ (part ++ (name ++ text.drop (offset + pos + name.length))) := by
    rw [← List.append_assoc, whole]
    exact split
  obtain ⟨q, found', bound⟩ := find_bound front sooner
  have order := least _ (mem_of_lookup listed) (q + pos) (by rw [findFrom, text', found']; rfl)
  have size := congrArg List.length whole
  have positive : 0 < part.length := List.length_pos_iff.mpr nonempty
  have limit := find_le name found
  simp only [List.length_append, List.length_take] at size
  omega

theorem encodeLoop_ok (named : ∀ special ∈ tok.specialTokens, special.1 ≠ []) (text : Bytes) (fuel pos : Nat)
    (cache : BpeCache) (enough : text.length ≤ pos + fuel) :
    ∃ tokens, (encodeLoop tok text fuel pos cache).1 = .ok tokens := by
  induction fuel generalizing pos cache with
  | zero => exact ⟨[], if_pos enough⟩
  | succ fuel ih =>
      unfold encodeLoop
      split_ifs with past
      · exact ⟨[], rfl⟩
      have spec := nearestSpecial_spec tok.specialTokens text pos
      cases found : nearestSpecial tok.specialTokens text pos with
      | none => exact ⟨_, rfl⟩
      | some nearest =>
          obtain ⟨p, name, id⟩ := nearest
          rw [found] at spec
          obtain ⟨here, entry, _⟩ := spec
          obtain ⟨offset, _, rfl⟩ := Option.map_eq_some_iff.mp here
          have long : 0 < name.length := List.length_pos_iff.mpr (named _ (mem_of_lookup entry))
          obtain ⟨tokens, later⟩ := ih (offset + pos + name.length)
            (encodeSegment tok (substr text pos (offset + pos - pos)) cache).2 (by omega)
          simp only [Option.map_some, Option.getD_some, later]
          exact ⟨_, rfl⟩

include recognises once

theorem encodeLoop_count {text : Bytes} (fuel : Nat) {pos : Nat} {cache : BpeCache} {tokens : List Int}
    (consistent : CacheConsistent tok cache) (encoded : (encodeLoop tok text fuel pos cache).1 = .ok tokens) :
    tokens.count id = occurrences (c :: rest) (text.drop pos) := by
  induction fuel generalizing pos cache tokens with
  | zero =>
      unfold encodeLoop at encoded
      dsimp only at encoded
      split_ifs at encoded with past
      cases encoded
      rw [List.drop_eq_nil_of_le past]
      rfl
  | succ fuel ih =>
      unfold encodeLoop at encoded
      split_ifs at encoded with past
      · cases encoded
        rw [List.drop_eq_nil_of_le past]
        rfl
      dsimp only at encoded
      have spec := nearestSpecial_spec tok.specialTokens text pos
      have plain := fun seg => encodeSegment_ordinary recognises seg consistent
      have kept := fun seg => (encodeSegment_consistent seg consistent consistent).2.1
      cases found : nearestSpecial tok.specialTokens text pos with
      | none =>
          simp only [found, Except.ok.injEq] at encoded spec
          have absent := spec _ (mem_of_lookup recognises.listed)
          rw [findFrom, Option.map_eq_none_iff] at absent
          rw [← encoded, List.count_eq_zero_of_not_mem (plain _), eq_comm,
            occurrences_eq_zero (List.cons_ne_nil c rest), ← contains_iff]
          exact not_not_intro absent
      | some nearest =>
          obtain ⟨p, name, other⟩ := nearest
          simp only [found, Except.map] at encoded spec
          obtain ⟨before, _, counted⟩ := nearest_clear recognises.listed spec
          obtain ⟨_, entry, _⟩ := spec
          split at encoded
          · cases encoded
          · rename_i later last
            cases encoded
            have next := ih (kept _) last
            rw [List.count_append, List.count_eq_zero_of_not_mem (plain _), Nat.zero_add, counted]
            by_cases own : name = c :: rest
            · -- the tag itself
              subst own
              rw [recognises.listed] at entry
              have one := occurrences_tag once [] (text.drop (p + (c :: rest).length))
              rw [List.nil_append] at one
              rw [← Option.some.inj entry, List.count_cons_self, next, one, occurrences, Nat.zero_add, Nat.add_comm]
            · -- another token, which holds no part of the tag
              obtain ⟨apart, different⟩ := recognises.alone _ (mem_of_lookup entry) own
              rw [List.count_cons_of_ne different, next, occurrences_beyond apart]

/-- The tokens of a text hold the tag's id as often as the text spells the tag. -/
theorem encode_count (text : Bytes) {cache : BpeCache}
    (consistent : CacheConsistent tok cache) :
    ∃ tokens, (encode tok text cache).1 = .ok tokens ∧
      tokens.count id = occurrences (c :: rest) text := by
  unfold encode
  by_cases empty : text = []
  · rw [if_pos (Or.inl empty), empty]
    exact ⟨[], rfl, rfl⟩
  · rw [if_neg (not_or_intro empty recognises.loaded)]
    obtain ⟨tokens, encoded⟩ := encodeLoop_ok recognises.named text text.length 0 cache (by omega)
    exact ⟨tokens, encoded, encodeLoop_count recognises once _ consistent encoded⟩

end Scan

end XInfer.SpecialScan
