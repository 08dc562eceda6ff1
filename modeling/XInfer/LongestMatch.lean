import Mathlib.Data.List.Nodup

/-!
Cutting a text at the leftmost, longest, non-overlapping occurrences of given names. The cut is stated as a
relation between the text and its pieces. Empty names occur nowhere.
-/

namespace XInfer.LongestMatch

variable {α β : Type}

inductive Piece (α β : Type) where
  | plain (text : List α)
  | named (name : List α) (label : β)

def Piece.text : Piece α β → List α
  | plain text => text
  | named name _ => name

/-- What stands between two names: no piece at all when it is empty. -/
def stretch : List α → List (Piece α β)
  | [] => []
  | c :: rest => [.plain (c :: rest)]

section Relation

variable (names : List (List α × β))

structure Begins (text : List α) (entry : List α × β) : Prop where
  listed : entry ∈ names
  nonempty : entry.1 ≠ []
  here : entry.1 <+: text

/-- No name begins among the first places. -/
def Clear (text : List α) (places : Nat) : Prop := ∀ k < places, ∀ entry, ¬ Begins names (text.drop k) entry

structure Longest (text : List α) (entry : List α × β) : Prop where
  begins : Begins names text entry
  longest : ∀ other, Begins names text other → other.1.length ≤ entry.1.length

inductive Segmented : List α → List (Piece α β) → Prop where
  | done {text : List α} (clear : Clear names text text.length) : Segmented text (stretch text)
  | hit {before name after : List α} {label : β} {pieces : List (Piece α β)}
      (clear : Clear names (before ++ (name ++ after)) before.length)
      (longest : Longest names (name ++ after) (name, label)) (rest : Segmented after pieces) :
      Segmented (before ++ (name ++ after)) (stretch before ++ .named name label :: pieces)

/-- A text that the longest names cover without a gap, from its start on. -/
inductive Tiled : List α → Prop where
  | nil : Tiled []
  | cons {name after : List α} {label : β} (longest : Longest names (name ++ after) (name, label))
      (rest : Tiled after) : Tiled (name ++ after)

end Relation

variable {names : List (List α × β)} {text : List α} {pieces : List (Piece α β)}

theorem stretch_text (text : List α) : (stretch text : List (Piece α β)).flatMap Piece.text = text := by
  cases text with
  | nil => rfl
  | cons c rest => rw [stretch, List.flatMap_singleton, Piece.text]

/-- Nothing is lost and nothing is moved. -/
theorem Segmented.whole (segmented : Segmented names text pieces) : pieces.flatMap Piece.text = text := by
  induction segmented with
  | done => exact stretch_text _
  | hit _ _ _ ih => rw [List.flatMap_append, List.flatMap_cons, stretch_text, ih, Piece.text]

theorem Clear.not_begins {before after : List α} {entry : List α × β}
    {places : Nat} (clear : Clear names (before ++ after) places) (inside : before.length < places) :
    ¬ Begins names after entry := by
  have absent := clear before.length inside entry
  rwa [List.drop_left] at absent

theorem Longest.inside {name after : List α} {label : β} (longest : Longest names (name ++ after) (name, label))
    (before : List α) : before.length < (before ++ (name ++ after)).length := by
  have long : 0 < name.length := List.length_pos_iff.mpr longest.begins.nonempty
  simp only [List.length_append]
  omega

/-- Two longest names at one place are one. -/
theorem Longest.unique (distinct : (names.map Prod.fst).Nodup) {entry other : List α × β}
    (first : Longest names text entry) (second : Longest names text other) : entry = other := by
  have length : entry.1.length = other.1.length :=
    Nat.le_antisymm (second.longest entry first.begins) (first.longest other second.begins)
  have name : entry.1 = other.1 :=
    (List.prefix_of_prefix_length_le first.begins.here second.begins.here (Nat.le_of_eq length)).eq_of_length length
  exact List.inj_on_of_nodup_map distinct first.begins.listed second.begins.listed name

/-- A text is cut in one way only. -/
theorem Segmented.unique (distinct : (names.map Prod.fst).Nodup) {other : List (Piece α β)}
    (first : Segmented names text pieces) (second : Segmented names text other) : pieces = other := by
  -- along the first cut: the second has to take the same step
  induction first generalizing other with
  | @done text clear =>
      cases second with
      | done => rfl
      | @hit before name after label _ _ longest =>
          exact absurd longest.begins (clear.not_begins (longest.inside before))
  | @hit before name after label pieces clear longest rest ih =>
      generalize whole : before ++ (name ++ after) = text at second
      cases second with
      | done clear' =>
          subst whole
          exact absurd longest.begins (clear'.not_begins (longest.inside before))
      | @hit before' name' after' label' pieces' clear' longest' rest' =>
          -- neither match can lie before the other
          have sizes : before.length = before'.length := by
            rcases Nat.lt_trichotomy before.length before'.length with sooner | same | later
            · rw [← whole] at clear'
              exact absurd longest.begins (clear'.not_begins sooner)
            · exact same
            · rw [whole] at clear
              exact absurd longest'.begins (clear.not_begins later)
          obtain ⟨fronts, backs⟩ := List.append_inj whole sizes
          rw [backs] at longest
          -- at one place the longest name is unique
          have entry := longest.unique distinct longest'
          cases entry
          rw [List.append_cancel_left_eq] at backs
          subst fronts backs
          rw [ih rest']

end XInfer.LongestMatch
