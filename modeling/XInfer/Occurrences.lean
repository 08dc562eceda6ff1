import Mathlib.Data.List.Basic
import Mathlib.Data.List.Infix

/-!
How often a pattern occurs in a list. The patterns of interest are tags: their first element comes
back nowhere in them, so two occurrences never overlap, and a text can be cut in front of any element
that opens a tag.
-/

namespace XInfer.Occurrences

variable {α : Type} [DecidableEq α]

def occurrences (pattern : List α) : List α → Nat
  | [] => 0
  | x :: rest => (if pattern.isPrefixOf (x :: rest) then 1 else 0) + occurrences pattern rest

theorem occurrences_of_front {pattern rest : List α} {x : α} (front : pattern <+: x :: rest) :
    occurrences pattern (x :: rest) = 1 + occurrences pattern rest := by
  rw [occurrences, if_pos (List.isPrefixOf_iff_prefix.mpr front)]

theorem occurrences_of_not_front {pattern rest : List α} {x : α} (apart : ¬ pattern <+: x :: rest) :
    occurrences pattern (x :: rest) = occurrences pattern rest := by
  rw [occurrences, if_neg fun front => apart (List.isPrefixOf_iff_prefix.mp front), Nat.zero_add]

theorem occurrences_eq_zero {pattern : List α} (nonempty : pattern ≠ []) {text : List α} :
    occurrences pattern text = 0 ↔ ¬ pattern <:+: text := by
  induction text with
  | nil => simp [occurrences, nonempty]
  | cons x rest ih =>
      rw [List.infix_cons_iff]
      by_cases front : pattern <+: x :: rest
      · rw [occurrences_of_front front]
        simp [front]
      · rw [occurrences_of_not_front front, ih]
        simp [front]

/-- Where no occurrence reaches from one text into the next, the counts add up. -/
theorem occurrences_append {pattern front back : List α}
    (inside : ∀ part, part ≠ [] → part <:+ front → pattern <+: part ++ back → pattern <+: part) :
    occurrences pattern (front ++ back) = occurrences pattern front + occurrences pattern back := by
  induction front with
  | nil => simp [occurrences]
  | cons x front ih =>
      have later := ih fun part nonempty suffix =>
        inside part nonempty (suffix.trans (List.suffix_cons x front))
      by_cases here : pattern <+: x :: front
      · have longer : pattern <+: x :: (front ++ back) := here.trans (List.prefix_append (x :: front) back)
        rw [List.cons_append, occurrences_of_front here, occurrences_of_front longer, later]
        omega
      · have still : ¬ pattern <+: x :: (front ++ back) := fun longer =>
          here (inside (x :: front) (List.cons_ne_nil _ _) (List.suffix_refl _) longer)
        rw [List.cons_append, occurrences_of_not_front here, occurrences_of_not_front still, later]

/-- Where the pattern never begins in the front, only the back counts. -/
theorem occurrences_clear {pattern front back : List α}
    (clear : ∀ part, part ≠ [] → part <:+ front → ¬ pattern <+: part ++ back) :
    occurrences pattern (front ++ back) = occurrences pattern back := by
  induction front with
  | nil => rfl
  | cons x front ih =>
      have notHere : ¬ pattern <+: x :: (front ++ back) :=
        clear (x :: front) (List.cons_ne_nil _ _) (List.suffix_refl _)
      rw [List.cons_append, occurrences_of_not_front notHere]
      exact ih fun part nonempty suffix => clear part nonempty (suffix.trans (List.suffix_cons x front))

/-- A pattern that is not over when a text ends goes on with what follows the text. -/
theorem prefix_append_cases {β : Type} {pattern part back : List β} (front : pattern <+: part ++ back) :
    pattern <+: part ∨ ∃ rest, rest ≠ [] ∧ pattern = part ++ rest ∧ rest <+: back := by
  by_cases short : pattern.length ≤ part.length
  · exact Or.inl (List.prefix_of_prefix_length_le front (List.prefix_append part back) short)
  · have whole : part <+: pattern :=
      List.prefix_of_prefix_length_le (List.prefix_append part back) front (by omega)
    obtain ⟨rest, rfl⟩ := whole
    refine Or.inr ⟨rest, ?_, rfl, (List.prefix_append_right_inj part).mp front⟩
    rintro rfl
    simp at short

/-- An element outside the pattern keeps what is left and right of it apart. -/
theorem occurrences_apart {pattern : List α} (nonempty : pattern ≠ []) {x : α} (outside : x ∉ pattern)
    (front back : List α) : occurrences pattern (front ++ x :: back) =
      occurrences pattern front + occurrences pattern back := by
  have notHere : ¬ pattern <+: x :: back := by
    intro here
    cases pattern with
    | nil => exact nonempty rfl
    | cons y pattern => exact outside ((List.cons_prefix_cons.mp here).1 ▸ List.mem_cons_self)
  rw [occurrences_append, occurrences_of_not_front notHere]
  intro part _ _ longer
  rcases prefix_append_cases longer with short | ⟨rest, some', rfl, follows⟩
  · exact short
  · cases rest with
    | nil => exact absurd rfl some'
    | cons y rest =>
        obtain ⟨rfl, _⟩ := List.cons_prefix_cons.mp follows
        exact absurd (by simp) outside

/-- The pattern neither begins in the other text nor ends before it does. -/
def Apart (pattern other : List α) : Prop :=
  ∀ part ∈ other.tails, part ≠ [] → ¬ part <+: pattern ∧ ¬ pattern <+: part

instance (pattern other : List α) : Decidable (Apart pattern other) :=
  inferInstanceAs (Decidable (∀ part ∈ other.tails, part ≠ [] → ¬ part <+: pattern ∧ ¬ pattern <+: part))

theorem occurrences_beyond {pattern other : List α} (apart : Apart pattern other) (back : List α) :
    occurrences pattern (other ++ back) = occurrences pattern back := by
  apply occurrences_clear
  intro part nonempty suffix longer
  obtain ⟨left, right⟩ := apart part ((List.mem_tails part other).mpr suffix) nonempty
  rcases prefix_append_cases longer with short | ⟨rest, _, split, _⟩
  · exact right short
  · exact left (split ▸ List.prefix_append part rest)

/-- A text that no occurrence goes beyond. -/
def Closed (pattern front : List α) : Prop :=
  ∀ back, occurrences pattern (front ++ back) = occurrences pattern front + occurrences pattern back

theorem closed_nil (pattern : List α) : Closed pattern [] := by
  intro back
  rw [List.nil_append, occurrences, Nat.zero_add]

theorem closed_append {pattern front back : List α} (first : Closed pattern front) (second : Closed pattern back) :
    Closed pattern (front ++ back) := by
  intro rest
  rw [List.append_assoc, first, second, first, Nat.add_assoc]

section Tags

variable {c : α} {tag : List α}

/-- What does not open a tag is passed over. -/
theorem occurrences_skip {front : List α} (plain : c ∉ front) (text : List α) :
    occurrences (c :: tag) (front ++ text) = occurrences (c :: tag) text := by
  induction front with
  | nil => rfl
  | cons x front ih =>
      have notHere : ¬ c :: tag <+: x :: (front ++ text) := by
        intro here
        obtain ⟨rfl, _⟩ := List.cons_prefix_cons.mp here
        exact plain List.mem_cons_self
      rw [List.cons_append, occurrences_of_not_front notHere]
      exact ih fun member => plain (List.mem_cons_of_mem x member)

/-- A text is cut in front of an element that opens a tag. -/
theorem occurrences_cut (once : c ∉ tag) (front back : List α) :
    occurrences (c :: tag) (front ++ c :: back) =
      occurrences (c :: tag) front + occurrences (c :: tag) (c :: back) := by
  apply occurrences_append
  intro part nonempty _ longer
  rcases prefix_append_cases longer with short | ⟨rest, some', split, follows⟩
  · exact short
  · -- the tag would hold its first element again
    obtain ⟨x, part, rfl⟩ := List.exists_cons_of_ne_nil nonempty
    cases rest with
    | nil => exact absurd rfl some'
    | cons y rest =>
        obtain ⟨rfl, _⟩ := List.cons_prefix_cons.mp follows
        have tail : tag = part ++ y :: rest := (List.cons.inj split).2
        exact absurd (by simp [tail]) once

/-- A tag counts once, wherever it stands. -/
theorem occurrences_tag (once : c ∉ tag) (front back : List α) :
    occurrences (c :: tag) (front ++ (c :: tag ++ back)) =
      occurrences (c :: tag) front + (1 + occurrences (c :: tag) back) := by
  rw [List.cons_append, occurrences_cut once, occurrences_of_front, occurrences_skip once]
  exact List.prefix_append (c :: tag) back

omit [DecidableEq α] in
theorem no_tag_before (once : c ∉ tag) {more right back : List α} (bare : ¬ c :: tag <:+: more)
    (same : more ++ (c :: tag ++ right) = c :: tag ++ back) : more = [] := by
  have front : c :: tag <+: more ++ (c :: tag ++ right) := ⟨back, same.symm⟩
  rcases prefix_append_cases front with inside | ⟨rest, some', split, follows⟩
  · exact absurd inside.isInfix bare
  · -- the tag would hold its first element again
    cases more with
    | nil => rfl
    | cons x more =>
        cases rest with
        | nil => exact absurd rfl some'
        | cons y rest =>
            obtain ⟨rfl, _⟩ := List.cons_prefix_cons.mp follows
            have tail : tag = more ++ y :: rest := (List.cons.inj split).2
            exact absurd (by simp [tail]) once

omit [DecidableEq α] in
/-- Where two readings of a text reach their first tag, they go on alike. -/
theorem first_tag_unique (once : c ∉ tag) {front front' back back' : List α} (bare : ¬ c :: tag <:+: front)
    (bare' : ¬ c :: tag <:+: front') (same : front ++ (c :: tag ++ back) = front' ++ (c :: tag ++ back')) :
    front = front' ∧ back = back' := by
  rcases List.append_eq_append_iff.mp same with ⟨more, longer, rest⟩ | ⟨more, longer, rest⟩
  · have none : more = [] := no_tag_before once
      (fun inside => bare' (inside.trans (longer ▸ (List.suffix_append front more).isInfix))) rest.symm
    subst none
    rw [List.append_nil] at longer
    exact ⟨longer.symm, List.append_cancel_left rest⟩
  · have none : more = [] := no_tag_before once
      (fun inside => bare (inside.trans (longer ▸ (List.suffix_append front' more).isInfix))) rest.symm
    subst none
    rw [List.append_nil] at longer
    exact ⟨longer, (List.append_cancel_left rest).symm⟩

/-- Another tag does not count. -/
theorem occurrences_other (once : c ∉ tag) {other : List α} (plain : c ∉ other)
    (apart : ¬ c :: tag <+: c :: other) (apart' : ¬ c :: other <+: c :: tag) (front back : List α) :
    occurrences (c :: tag) (front ++ (c :: other ++ back)) =
      occurrences (c :: tag) front + occurrences (c :: tag) back := by
  have notHere : ¬ c :: tag <+: c :: (other ++ back) := by
    intro here
    rcases List.prefix_or_prefix_of_prefix here (List.prefix_append (c :: other) back) with left | right
    · exact apart left
    · exact apart' right
  rw [List.cons_append, occurrences_cut once, occurrences_of_not_front notHere, occurrences_skip plain]

theorem closed_tag (once : c ∉ tag) : Closed (c :: tag) (c :: tag) := by
  intro back
  have long := occurrences_tag once [] back
  have short := occurrences_tag once [] []
  rw [List.nil_append] at long
  rw [List.nil_append, List.append_nil] at short
  rw [long, short, occurrences]
  omega

theorem closed_other (once : c ∉ tag) {other : List α} (plain : c ∉ other)
    (apart : ¬ c :: tag <+: c :: other) (apart' : ¬ c :: other <+: c :: tag) : Closed (c :: tag) (c :: other) := by
  intro back
  have long := occurrences_other once plain apart apart' [] back
  have short := occurrences_other once plain apart apart' [] []
  rw [List.nil_append] at long
  rw [List.nil_append, List.append_nil] at short
  rw [long, short, occurrences, Nat.zero_add]

end Tags

end XInfer.Occurrences
