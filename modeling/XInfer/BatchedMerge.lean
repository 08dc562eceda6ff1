import XInfer.PairMerging
import XInfer.TokenizerLoad
import XInfer.TokenizerRoundTrip

/-!
`bpe_merge` against the algorithm that merges one pair at a time. A pass of the code merges every occurrence of
the lowest-ranked pair, and the memo table keeps what earlier calls have found.
-/

namespace XInfer.BatchedMerge

open Primitives HashTable Tokenizer TokenizerLoad TokenizerRoundTrip PairMerging Relation

section Table

def ruleKey (a b : Bytes) : Bytes := a ++ ascii " " ++ b

/-- The rank of a rule. With a blank in a component the key could be read in two ways. -/
def ruleRank (ranks : List (Bytes × Int)) (a b : Bytes) : Option Int :=
  if 32 ∈ a ∨ 32 ∈ b then none else ranks.lookup (ruleKey a b)

/-- Ranks are positions in a list of rules, and a rule comes behind those that make its components. -/
structure MergeTable (ranks : List (Bytes × Int)) : Prop where
  nonneg : ∀ key rank, ranks.lookup key = some rank → 0 ≤ rank
  distinct : ∀ key other rank, ranks.lookup key = some rank → ranks.lookup other = some rank → key = other
  left : ∀ a b x rank later, ruleRank ranks a b = some rank → ruleRank ranks (a ++ b) x = some later → rank < later
  right : ∀ a b x rank later, ruleRank ranks a b = some rank → ruleRank ranks x (a ++ b) = some later → rank < later

variable {ranks : List (Bytes × Int)}

theorem ruleKey_front {a : Bytes} (plain : 32 ∉ a) (b : Bytes) : (ruleKey a b).takeWhile (· != 32) = a := by
  have blank : ascii " " = [32] := by decide
  have all : ∀ c ∈ a, (c != 32) = true := by
    intro c member
    rw [bne_iff_ne]
    rintro rfl
    exact plain member
  rw [ruleKey, blank, List.append_assoc, List.takeWhile_append_of_pos all]
  simp

theorem ruleKey_inj {a b c d : Bytes} (left : 32 ∉ a) (right : 32 ∉ c) (same : ruleKey a b = ruleKey c d) :
    a = c ∧ b = d := by
  have front : a = c := by rw [← ruleKey_front left b, same, ruleKey_front right d]
  subst front
  exact ⟨rfl, List.append_cancel_left same⟩

theorem ruleRank_some {a b : Bytes} {rank : Int} (ranked : ruleRank ranks a b = some rank) :
    32 ∉ a ∧ 32 ∉ b ∧ ranks.lookup (ruleKey a b) = some rank := by
  unfold ruleRank at ranked
  split at ranked
  · cases ranked
  · rename_i plain
    exact ⟨fun inside => plain (Or.inl inside), fun inside => plain (Or.inr inside), ranked⟩

theorem ruleRank_plain {a b : Bytes} (left : 32 ∉ a) (right : 32 ∉ b) :
    ruleRank ranks a b = ranks.lookup (ruleKey a b) := by
  rw [ruleRank, if_neg]
  exact fun blank => blank.elim left right

theorem MergeTable.ordered (table : MergeTable ranks) : Ordered (ruleRank ranks) (· ++ ·) where
  distinct a b c d rank first second := by
    obtain ⟨left, -, found⟩ := ruleRank_some first
    obtain ⟨right, -, foundToo⟩ := ruleRank_some second
    exact ruleKey_inj left right (table.distinct _ _ rank found foundToo)
  left := table.left
  right := table.right

/-- A loaded rank is a position in the list of rules. -/
theorem assigned_position {rules : List Bytes} {rule : Bytes} {rank : Int}
    (found : (assignAll (ranked rules) []).lookup rule = some rank) :
    ∃ index : Nat, rules[index]? = some rule ∧ rank = index := by
  rw [lookup_assignAll, List.lookup_nil, Option.or_none, latest] at found
  obtain ⟨front, back, shape, -⟩ := List.lookup_eq_some_iff.mp found
  have member : (rule, rank) ∈ (ranked rules).reverse := shape ▸ List.mem_append_right front List.mem_cons_self
  obtain ⟨⟨other, index⟩, inside, same⟩ := List.mem_map.mp (List.mem_reverse.mp member)
  cases same
  exact ⟨index, List.mem_zipIdx_iff_getElem?.mp inside, rfl⟩

/-- A table that was loaded needs only its rules in an order in which each comes behind those that it builds on. -/
theorem loaded_table {rules : List Bytes} (loaded : ranks = assignAll (ranked rules) [])
    (left : ∀ a b x rank later, ruleRank ranks a b = some rank → ruleRank ranks (a ++ b) x = some later → rank < later)
    (right : ∀ a b x rank later, ruleRank ranks a b = some rank → ruleRank ranks x (a ++ b) = some later → rank < later) :
    MergeTable ranks where
  nonneg key rank found := by
    rw [loaded] at found
    obtain ⟨index, -, rfl⟩ := assigned_position found
    exact Int.natCast_nonneg index
  distinct key other rank found foundToo := by
    rw [loaded] at found foundToo
    obtain ⟨index, here, rfl⟩ := assigned_position found
    obtain ⟨place, there, same⟩ := assigned_position foundToo
    rw [← Int.ofNat.inj same, here] at there
    exact Option.some.inj there
  left := left
  right := right

end Table

section Passes

variable {ranks : List (Bytes × Int)}

/-- How the search goes on from one pair. -/
def better (ranks : List (Bytes × Int)) (best : Option (Int × Bytes × Bytes)) (pair : Bytes × Bytes) :
    Option (Int × Bytes × Bytes) :=
  match ranks.lookup (pair.1 ++ ascii " " ++ pair.2) with
  | none => best
  | some rank => match best with
    | none => some (rank, pair)
    | some (least, _) => if least < 0 ∨ rank < least then some (rank, pair) else best

theorem bestPair_eq (word : List Bytes) : bestPair ranks word = (adjacent word).foldl (better ranks) none := rfl

/-- What the search knows of the pairs that it has seen. -/
def Searched (ranks : List (Bytes × Int)) (seen : List (Bytes × Bytes)) : Option (Int × Bytes × Bytes) → Prop
  | none => ∀ pair ∈ seen, ranks.lookup (ruleKey pair.1 pair.2) = none
  | some (least, _) => 0 ≤ least ∧
      ∀ pair ∈ seen, ∀ rank, ranks.lookup (ruleKey pair.1 pair.2) = some rank → least ≤ rank

theorem searched_better (table : MergeTable ranks) {seen : List (Bytes × Bytes)} {best : Option (Int × Bytes × Bytes)}
    (searched : Searched ranks seen best) (pair : Bytes × Bytes) :
    Searched ranks (seen ++ [pair]) (better ranks best pair) := by
  unfold better
  cases found : ranks.lookup (pair.1 ++ ascii " " ++ pair.2) with
  | none =>
      dsimp only
      have unranked : ranks.lookup (ruleKey pair.1 pair.2) = none := found
      cases best with
      | none =>
          intro other member
          rcases List.mem_append.mp member with old | new
          · exact searched other old
          · rwa [List.mem_singleton.mp new]
      | some best =>
          refine ⟨searched.1, fun other member rank ranked => ?_⟩
          rcases List.mem_append.mp member with old | new
          · exact searched.2 other old rank ranked
          · rw [List.mem_singleton.mp new, unranked] at ranked
            cases ranked
  | some rank =>
      dsimp only
      have ranked : ranks.lookup (ruleKey pair.1 pair.2) = some rank := found
      have positive := table.nonneg _ _ ranked
      cases best with
      | none =>
          refine ⟨positive, fun other member value here => ?_⟩
          rcases List.mem_append.mp member with old | new
          · rw [searched other old] at here
            cases here
          · rw [List.mem_singleton.mp new, ranked] at here
            exact le_of_eq (Option.some.inj here)
      | some best =>
          obtain ⟨least, kept⟩ := best
          obtain ⟨start, low⟩ := searched
          dsimp only
          split
          · rename_i smaller
            have less : rank < least := smaller.resolve_left (not_lt.mpr start)
            refine ⟨positive, fun other member value here => ?_⟩
            rcases List.mem_append.mp member with old | new
            · exact le_trans (le_of_lt less) (low other old value here)
            · rw [List.mem_singleton.mp new, ranked] at here
              exact le_of_eq (Option.some.inj here)
          · rename_i notSmaller
            refine ⟨start, fun other member value here => ?_⟩
            rcases List.mem_append.mp member with old | new
            · exact low other old value here
            · rw [List.mem_singleton.mp new, ranked] at here
              rw [← Option.some.inj here]
              exact not_lt.mp fun less => notSmaller (Or.inr less)

theorem searched_bestPair (table : MergeTable ranks) (word : List Bytes) :
    Searched ranks (adjacent word) (bestPair ranks word) := by
  rw [bestPair_eq]
  induction adjacent word using List.reverseRecOn with
  | nil => exact fun pair member => by cases member
  | append_singleton seen pair ih =>
      rw [List.foldl_append]
      exact searched_better table ih pair

/-- No letter of the word has a blank in it. -/
def Plain (word : List Bytes) : Prop := ∀ piece ∈ word, 32 ∉ piece

theorem plain_adjacent {word : List Bytes} (plain : Plain word) {pair : Bytes × Bytes} (member : pair ∈ adjacent word) :
    32 ∉ pair.1 ∧ 32 ∉ pair.2 :=
  ⟨plain _ (List.of_mem_zip member).1, plain _ (List.mem_of_mem_tail (List.of_mem_zip member).2)⟩

theorem mergePair_eq (a b : Bytes) (word : List Bytes) : mergePair a b word = mergeAll (· ++ ·) a b word := by
  induction word using mergeAll.induct a b with
  | case1 => rfl
  | case2 x => rfl
  | case3 x y rest hit ih => rw [mergePair, mergeAll, if_pos hit, if_pos hit, ih]
  | case4 x y rest miss ih => rw [mergePair, mergeAll, if_neg miss, if_neg miss, ih]

theorem plain_mergePair {a b : Bytes} {word : List Bytes} (plain : Plain word) : Plain (mergePair a b word) := by
  rw [mergePair_eq]
  induction word using mergeAll.induct a b with
  | case1 => exact plain
  | case2 x => exact plain
  | case3 x y rest hit ih =>
      have later : Plain rest := fun piece member =>
        plain piece (List.mem_cons_of_mem _ (List.mem_cons_of_mem _ member))
      rw [mergeAll, if_pos hit]
      intro piece member
      rcases List.mem_cons.mp member with rfl | inside
      · intro blank
        rcases List.mem_append.mp blank with left | right
        · exact plain x List.mem_cons_self left
        · exact plain y (List.mem_cons_of_mem _ List.mem_cons_self) right
      · exact ih later piece inside
  | case4 x y rest miss ih =>
      rw [mergeAll, if_neg miss]
      intro piece member
      rcases List.mem_cons.mp member with rfl | inside
      · exact plain piece List.mem_cons_self
      · exact ih (fun other later => plain other (List.mem_cons_of_mem _ later)) piece inside

/-- The loop of the code does the steps of the algorithm, and stops where the algorithm does. -/
theorem mergeLoop_merged (table : MergeTable ranks) {fuel : Nat} {word : List Bytes} (plain : Plain word)
    (enough : word.length ≤ fuel) : Merged (ruleRank ranks) (· ++ ·) word (mergeLoop ranks fuel word) := by
  induction fuel generalizing word with
  | zero =>
      rw [List.length_eq_zero_iff.mp (Nat.le_zero.mp enough)]
      exact ⟨.refl, fun pair member => by cases member⟩
  | succ fuel ih =>
      have searched := searched_bestPair table word
      rw [mergeLoop]
      split
      · rename_i short
        refine ⟨.refl, fun pair member => ?_⟩
        rcases word with _ | ⟨a, _ | ⟨b, rest⟩⟩
        · cases member
        · cases member
        · exact absurd short (by simp)
      cases best : bestPair ranks word with
      | none =>
          rw [best] at searched
          refine ⟨.refl, fun pair member => ?_⟩
          obtain ⟨left, right⟩ := plain_adjacent plain member
          rw [ruleRank_plain left right]
          exact searched pair member
      | some found =>
          obtain ⟨least, a, b⟩ := found
          rw [best] at searched
          obtain ⟨positive, low⟩ := searched
          obtain ⟨member, rule⟩ := bestPair_rule best
          obtain ⟨left, right⟩ := plain_adjacent plain member
          have ranked : ruleRank ranks a b = some least := by
            rw [ruleRank_plain left right]
            exact rule
          have pass : ReflTransGen (Step (ruleRank ranks) (· ++ ·)) word (mergePair a b word) := by
            rw [mergePair_eq]
            refine mergeAll_steps table.ordered ranked word [] ?_ ?_
            · intro pair inside other value
              exact low pair inside other (ruleRank_some value).2.2
            · intro pair inside
              cases word <;> cases inside
          have shorter : (mergePair a b word).length < word.length := by
            rw [mergePair_eq]
            exact length_mergeAll_lt member
          have later := ih (plain_mergePair plain) (Nat.le_of_lt_succ (Nat.lt_of_lt_of_le shorter enough))
          dsimp only
          rw [if_neg (not_lt.mpr positive)]
          exact ⟨pass.trans later.steps, later.final⟩

end Passes

section Calls

variable {tok : QwenTokenizer}

/-- The letters of a piece: one for each codepoint. -/
def letters (piece : Bytes) : List Bytes := (utf8ToCodepoints piece).map codepointToUtf8

theorem high_byte : ∀ byte : UInt8, (32 : UInt8) ≠ 0x80 ||| byte ∧ (32 : UInt8) ≠ 0xC0 ||| byte ∧
    (32 : UInt8) ≠ 0xE0 ||| byte ∧ (32 : UInt8) ≠ 0xF0 ||| byte := forall_byte (by decide +kernel)

/-- A blank comes from no other codepoint. -/
theorem codepoint_blank {cp : Nat} (blank : 32 ∈ codepointToUtf8 cp) : cp = 32 := by
  unfold codepointToUtf8 at blank
  dsimp only at blank
  split at blank
  · rename_i small
    have same := congrArg UInt8.toNat (List.mem_singleton.mp blank)
    rw [UInt8.toNat_ofNat', Nat.mod_eq_of_lt (by omega)] at same
    exact same.symm
  split at blank
  · simp [high_byte] at blank
  split at blank
  · simp [high_byte] at blank
  · simp [high_byte] at blank

theorem letters_plain {piece : Bytes} (noBlank : 32 ∉ utf8ToCodepoints piece) : Plain (letters piece) := by
  intro letter member blank
  obtain ⟨cp, inside, rfl⟩ := List.mem_map.mp member
  rw [codepoint_blank blank] at inside
  exact noBlank inside

/-- The memo table that earlier calls leave. -/
def mergeCache (tok : QwenTokenizer) (history : List Bytes) : BpeCache :=
  history.foldl (fun cache piece => (bpeMerge tok piece cache).2) []

theorem mergeCache_consistent (history : List Bytes) : CacheConsistent tok (mergeCache tok history) := by
  have run (cache : BpeCache) (consistent : CacheConsistent tok cache) :
      CacheConsistent tok (history.foldl (fun cache piece => (bpeMerge tok piece cache).2) cache) := by
    induction history generalizing cache with
    | nil => exact consistent
    | cons piece rest ih => exact ih _ (bpeMerge_consistent piece consistent).2
  exact run [] (consistent_nil tok)

theorem bpeMerge_eq {cache : BpeCache} (consistent : CacheConsistent tok cache) (piece : Bytes) :
    (bpeMerge tok piece cache).1 = mergeWord tok piece := by
  rw [(bpeMerge_consistent piece consistent).1]
  split
  · rename_i empty
    rw [empty]
    rfl
  · rfl

/-- Every call answers what merging one leftmost occurrence of the lowest-ranked pair at a time ends in,
and it answers the same without the memo table. -/
theorem bpeMerge_reference (tok : QwenTokenizer) (history : List Bytes) :
    (∀ piece, (bpeMerge tok piece (mergeCache tok history)).1 = (bpeMerge tok piece []).1) ∧
    (MergeTable tok.bpeRanks → ∀ piece, 32 ∉ utf8ToCodepoints piece → ∀ out,
      Merged (ruleRank tok.bpeRanks) (· ++ ·) (letters piece) out ↔
        out = (bpeMerge tok piece (mergeCache tok history)).1) := by
  have cached : CacheConsistent tok (mergeCache tok history) := mergeCache_consistent history
  refine ⟨?_, ?_⟩
  · intro piece
    rw [bpeMerge_eq cached, bpeMerge_eq (consistent_nil tok)]
  · intro table piece noBlank out
    have merged : Merged (ruleRank tok.bpeRanks) (· ++ ·) (letters piece) (mergeWord tok piece) :=
      mergeLoop_merged table (letters_plain noBlank) (Nat.le_refl _)
    rw [bpeMerge_eq cached]
    constructor
    · intro other
      exact other.unique merged
    · intro same
      rw [same]
      exact merged

end Calls

/-- Two rules, the second with the product of the first as a component. -/
def runTokenizer : QwenTokenizer :=
  { byteTokenizer with bpeRanks := assignAll (ranked [ascii "a a", ascii "aa a"]) [] }

theorem runTokenizer_rule {a b : Bytes} {rank : Int} (ranked : ruleRank runTokenizer.bpeRanks a b = some rank) :
    a = ascii "a" ∧ b = ascii "a" ∧ rank = 0 ∨ a = ascii "aa" ∧ b = ascii "a" ∧ rank = 1 := by
  obtain ⟨left, -, found⟩ := ruleRank_some ranked
  obtain ⟨index, here, rfl⟩ := assigned_position found
  rcases index with _ | _ | index
  · obtain ⟨rfl, rfl⟩ := ruleKey_inj (c := ascii "a") (d := ascii "a") left (by decide) (Option.some.inj here).symm
    exact Or.inl ⟨rfl, rfl, rfl⟩
  · obtain ⟨rfl, rfl⟩ := ruleKey_inj (c := ascii "aa") (d := ascii "a") left (by decide) (Option.some.inj here).symm
    exact Or.inr ⟨rfl, rfl, rfl⟩
  · cases here

theorem runTokenizer_table : MergeTable runTokenizer.bpeRanks := by
  refine loaded_table rfl ?_ ?_
  · intro a b x rank later first second
    rcases runTokenizer_rule first with ⟨rfl, rfl, rfl⟩ | ⟨rfl, rfl, rfl⟩ <;>
      rcases runTokenizer_rule second with ⟨same, -, rfl⟩ | ⟨same, -, rfl⟩
    · exact absurd same (by decide)
    · decide
    · exact absurd same (by decide)
    · exact absurd same (by decide)
  · intro a b x rank later first second
    rcases runTokenizer_rule first with ⟨rfl, rfl, rfl⟩ | ⟨rfl, rfl, rfl⟩ <;>
      rcases runTokenizer_rule second with ⟨-, same, -⟩ | ⟨-, same, -⟩ <;>
      exact absurd same (by decide)

/-- Five letters in a row, where the pairs overlap: the third pass finds no rule. -/
theorem run_merged :
    (bpeMerge runTokenizer (ascii "aaaaa") (mergeCache runTokenizer [ascii "aa"])).1 = [ascii "aa", ascii "aaa"] ∧
    Merged (ruleRank runTokenizer.bpeRanks) (· ++ ·) (letters (ascii "aaaaa")) [ascii "aa", ascii "aaa"] := by
  have answer : (bpeMerge runTokenizer (ascii "aaaaa") (mergeCache runTokenizer [ascii "aa"])).1 =
      [ascii "aa", ascii "aaa"] := by decide +kernel
  refine ⟨answer, ?_⟩
  exact ((bpeMerge_reference runTokenizer [ascii "aa"]).2 runTokenizer_table (ascii "aaaaa") (by decide) _).mpr answer.symm

end XInfer.BatchedMerge
