import XInfer.Primitives

/-!
The `std::string` operations that the text handling uses: searching, erasing and
trimming, over lists of bytes. A missing match is `none` where C++ answers `npos`.
-/

namespace XInfer.ByteString

open Primitives

/-- `text.find(pattern)`. -/
def find (pattern : Bytes) : Bytes → Option Nat
  | [] => if pattern = [] then some 0 else none
  | byte :: rest =>
      if pattern.isPrefixOf (byte :: rest) then some 0 else (find pattern rest).map (· + 1)

/-- `text.find(pattern, pos)`. -/
def findFrom (pattern text : Bytes) (pos : Nat) : Option Nat :=
  (find pattern (text.drop pos)).map (· + pos)

/-- `text.erase(pos, count)`. -/
def erase (text : Bytes) (pos count : Nat) : Bytes := text.take pos ++ text.drop (pos + count)

/-- `text.substr(pos, count)`. -/
def substr (text : Bytes) (pos count : Nat) : Bytes := (text.drop pos).take count

def Contains (pattern text : Bytes) : Prop := find pattern text ≠ none

instance (pattern text : Bytes) : Decidable (Contains pattern text) :=
  inferInstanceAs (Decidable (¬ _))

def isBlank (byte : UInt8) : Bool := byte == 32 || byte == 9 || byte == 13 || byte == 10

/-- Both ends without blanks, tabs and line breaks. -/
def trimWhitespace (text : Bytes) : Bytes :=
  (((text.dropWhile isBlank).reverse).dropWhile isBlank).reverse

def startsWith (text front : Bytes) : Bool := front.isPrefixOf text
def endsWith (text back : Bytes) : Bool := back.isSuffixOf text

theorem find_le (pattern : Bytes) {text : Bytes} {pos : Nat} (found : find pattern text = some pos) :
    pos + pattern.length ≤ text.length := by
  induction text generalizing pos with
  | nil =>
      unfold find at found
      split at found
      · rename_i empty
        cases found
        simp [empty]
      · cases found
  | cons byte rest ih =>
      unfold find at found
      split at found
      · rename_i front
        cases found
        simpa using (List.isPrefixOf_iff_prefix.mp front).length_le
      · rcases later : find pattern rest with _ | inner
        · simp [later] at found
        · simp only [later, Option.map_some, Option.some.injEq] at found
          have bound := ih later
          simp only [List.length_cons]
          omega

/-- `find` answers at a match: the text reads the pattern there. -/
theorem find_split (pattern : Bytes) {text : Bytes} {pos : Nat}
    (found : find pattern text = some pos) :
    text = text.take pos ++ pattern ++ text.drop (pos + pattern.length) := by
  induction text generalizing pos with
  | nil =>
      unfold find at found
      split at found
      · rename_i empty
        cases found
        simp [empty]
      · cases found
  | cons byte rest ih =>
      unfold find at found
      split at found
      · rename_i front
        cases found
        obtain ⟨back, split⟩ := List.isPrefixOf_iff_prefix.mp front
        rw [← split]
        simp
      · rcases later : find pattern rest with _ | inner
        · simp [later] at found
        · simp only [later, Option.map_some, Option.some.injEq] at found
          subst found
          have tail := ih later
          simp only [List.take_succ_cons, List.cons_append]
          have shift : inner + 1 + pattern.length = (inner + pattern.length) + 1 := by omega
          rw [shift, List.drop_succ_cons]
          exact congrArg (byte :: ·) tail

theorem contains_iff (pattern text : Bytes) : Contains pattern text ↔ pattern <:+: text := by
  induction text with
  | nil => simp [Contains, find, List.infix_nil]
  | cons byte rest ih =>
      rw [List.infix_cons_iff, ← ih, Contains, find]
      by_cases front : pattern.isPrefixOf (byte :: rest)
      · simp [front, List.isPrefixOf_iff_prefix.mp front]
      · have apart : ¬ pattern <+: byte :: rest := fun isFront =>
          front (List.isPrefixOf_iff_prefix.mpr isFront)
        simp [front, apart, Contains]

/-- What comes later does not change where a pattern is found first. -/
theorem find_append (pattern : Bytes) {front : Bytes} {pos : Nat} (found : find pattern front = some pos)
    (back : Bytes) : find pattern (front ++ back) = some pos := by
  induction front generalizing pos with
  | nil =>
      unfold find at found
      split at found
      · rename_i empty
        cases found
        subst empty
        cases back <;> simp [find]
      · cases found
  | cons byte rest ih =>
      rw [List.cons_append, find]
      unfold find at found
      split at found
      · rename_i here
        cases found
        have longer : pattern <+: byte :: (rest ++ back) :=
          (List.isPrefixOf_iff_prefix.mp here).trans (List.prefix_append (byte :: rest) back)
        rw [if_pos (List.isPrefixOf_iff_prefix.mpr longer)]
      · rename_i apart
        rcases later : find pattern rest with _ | inner
        · simp [later] at found
        · simp only [later, Option.map_some, Option.some.injEq] at found
          subst found
          -- a match at the front would lie inside `byte :: rest`
          have short := find_le pattern later
          have still : ¬ pattern.isPrefixOf (byte :: (rest ++ back)) = true := by
            intro here
            apply apart
            refine List.isPrefixOf_iff_prefix.mpr (List.prefix_of_prefix_length_le
              (List.isPrefixOf_iff_prefix.mp here) (List.prefix_append (byte :: rest) back) ?_)
            simp only [List.length_cons]
            omega
          rw [if_neg still, ih later]
          rfl

theorem find_of_take {pattern text : Bytes} {size pos : Nat}
    (found : find pattern (text.take size) = some pos) : find pattern text = some pos := by
  have whole := find_append pattern found (text.drop size)
  rwa [List.take_append_drop] at whole

theorem find_take {pattern text : Bytes} {size pos : Nat} (found : find pattern text = some pos)
    (inside : pos + pattern.length ≤ size) : find pattern (text.take size) = some pos := by
  rcases short : find pattern (text.take size) with _ | other
  · have split := find_split pattern found
    have occurs : pattern <:+: text.take size := by
      rw [split, List.append_assoc, List.take_append, List.take_of_length_le
        (by rw [List.length_take]; omega)]
      refine ⟨text.take pos, (text.drop (pos + pattern.length)).take
        (size - (text.take pos).length - pattern.length), ?_⟩
      rw [List.take_append, @List.take_of_length_le _ _ pattern
        (by rw [List.length_take]; omega), List.append_assoc]
    exact absurd short ((contains_iff pattern (text.take size)).mpr occurs)
  · rw [← found, ← find_of_take short]

theorem find_none {pattern text : Bytes} (absent : ¬ Contains pattern text) :
    find pattern text = none := by
  simpa [Contains] using absent

/-- Before the first occurrence there is none. -/
theorem find_bare {pattern text : Bytes} {pos : Nat} (some' : pattern ≠ []) (found : find pattern text = some pos) :
    ¬ pattern <:+: text.take pos := by
  rw [← contains_iff]
  intro earlier
  cases inner : find pattern (text.take pos) with
  | none => exact earlier inner
  | some other =>
      have same := Option.some.inj ((find_of_take inner).symm.trans found)
      have bound := find_le pattern inner
      have long := List.length_pos_iff.mpr some'
      have short := List.length_take_le pos text
      omega

/-- What a text lacks, each of its prefixes lacks. -/
theorem not_contains_left {pattern front back : Bytes}
    (absent : ¬ Contains pattern (front ++ back)) : ¬ Contains pattern front := by
  rw [contains_iff] at absent ⊢
  exact fun inside => absent (inside.trans (List.prefix_append front back).isInfix)

theorem find_front {pattern text : Bytes} (front : pattern <+: text) : find pattern text = some 0 := by
  cases text with
  | nil => exact if_pos (List.prefix_nil.mp front)
  | cons byte rest => exact if_pos (List.isPrefixOf_iff_prefix.mpr front)

/-- A front in which the pattern begins nowhere is passed over. -/
theorem find_clear {pattern front back : Bytes}
    (clear : ∀ part, part ≠ [] → part <:+ front → ¬ pattern <+: part ++ back) :
    find pattern (front ++ back) = (find pattern back).map (· + front.length) := by
  induction front with
  | nil => cases found : find pattern back <;> simp [found]
  | cons byte front ih =>
      have notHere : ¬ pattern.isPrefixOf (byte :: (front ++ back)) = true := by
        rw [List.isPrefixOf_iff_prefix]
        exact clear (byte :: front) (List.cons_ne_nil _ _) (List.suffix_refl _)
      have later := ih fun part nonempty suffix =>
        clear part nonempty (suffix.trans (List.suffix_cons byte front))
      rw [List.cons_append, find, if_neg notHere, later, Option.map_map]
      rfl

/-- A single byte is found where it first stands. -/
theorem find_byte {c : UInt8} {front : Bytes} (plain : c ∉ front) (back : Bytes) :
    find [c] (front ++ c :: back) = some front.length := by
  have here : find [c] (c :: back) = some 0 := find_front ⟨back, rfl⟩
  rw [find_clear, here, Option.map_some, Nat.zero_add]
  intro part nonempty suffix begins
  obtain ⟨d, part, rfl⟩ := List.exists_cons_of_ne_nil nonempty
  have same : c = d := (List.cons_prefix_cons.mp begins).1
  exact plain (same ▸ suffix.subset List.mem_cons_self)

end XInfer.ByteString
