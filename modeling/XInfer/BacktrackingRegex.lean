import Mathlib.Data.List.Basic
import Mathlib.Data.List.TakeWhile

/-!
Regular expressions with the search order of a backtracking matcher: the first
alternative before the second, an optional part and a run greedy, and a lookahead on
one symbol. A position is what is left of the text, and a match is what it leaves.
-/

namespace XInfer.BacktrackingRegex

inductive Regex (α : Type)
  | cls (accepts : α → Bool)
  | seq (first second : Regex α)
  | alt (first second : Regex α)
  | opt (body : Regex α)
  | many (accepts : α → Bool)
  | notAhead (accepts : α → Bool)

variable {α : Type}

/-- What the runs of a class leave, the longest run first. -/
def manyEnds (accepts : α → Bool) : List α → List (List α)
  | [] => [[]]
  | c :: rest => if accepts c then manyEnds accepts rest ++ [c :: rest] else [c :: rest]

/-- What the matches at the front leave, in the order in which they are tried. -/
def ends : Regex α → List α → List (List α)
  | .cls accepts, text => match text with
      | [] => []
      | c :: rest => if accepts c then [rest] else []
  | .seq first second, text => (ends first text).flatMap (ends second)
  | .alt first second, text => ends first text ++ ends second text
  | .opt body, text => ends body text ++ [text]
  | .many accepts, text => manyEnds accepts text
  | .notAhead accepts, text => match text with
      | [] => [[]]
      | c :: rest => if accepts c then [] else [c :: rest]

section Ends

variable (accepts : α → Bool) (first second body : Regex α) (c : α) (rest text : List α)

theorem ends_cls : ends (.cls accepts) (c :: rest) = if accepts c then [rest] else [] := rfl

theorem ends_seq : ends (.seq first second) text = (ends first text).flatMap (ends second) := rfl

theorem ends_alt : ends (.alt first second) text = ends first text ++ ends second text := rfl

theorem ends_opt : ends (.opt body) text = ends body text ++ [text] := rfl

theorem ends_many : ends (.many accepts) text = manyEnds accepts text := rfl

end Ends

/-- The match that a backtracking search settles on. -/
def firstMatch (regex : Regex α) (text : List α) : Option (List α) := (ends regex text).head?

def plus (accepts : α → Bool) : Regex α := .seq (.cls accepts) (.many accepts)

/-- The successive matches of a text. Where there is none, or an empty one, the search
goes on behind the next symbol. -/
def successive (regex : Regex α) : Nat → Nat → List α → List (Nat × Nat)
  | 0, _, _ => []
  | _ + 1, _, [] => []
  | fuel + 1, start, c :: rest => match firstMatch regex (c :: rest) with
      | none => successive regex fuel (start + 1) rest
      | some left =>
          let length := (c :: rest).length - left.length
          if length = 0 then (start, start) :: successive regex fuel (start + 1) rest
          else (start, start + length) :: successive regex fuel (start + length) left

def successiveMatches (regex : Regex α) (text : List α) : List (Nat × Nat) := successive regex text.length 0 text

theorem firstMatch_cls (accepts : α → Bool) (c : α) (rest : List α) :
    firstMatch (.cls accepts) (c :: rest) = if accepts c then some rest else none := by
  simp only [firstMatch, ends_cls]
  split <;> rfl

theorem firstMatch_seq (first second : Regex α) (text : List α) :
    firstMatch (.seq first second) text = (ends first text).findSome? (firstMatch second) := by
  rw [firstMatch, ends_seq, List.head?_flatMap]
  rfl

theorem firstMatch_seq_assoc (first second third : Regex α) (text : List α) :
    firstMatch (.seq (.seq first second) third) text = firstMatch (.seq first (.seq second third)) text := by
  simp only [firstMatch, ends_seq, List.flatMap_assoc]
  rfl

theorem firstMatch_alt (first second : Regex α) (text : List α) :
    firstMatch (.alt first second) text = (firstMatch first text).or (firstMatch second text) := by
  rw [firstMatch, ends_alt, List.head?_append]
  rfl

theorem firstMatch_cls_seq (accepts : α → Bool) (second : Regex α) (c : α) (rest : List α) :
    firstMatch (.seq (.cls accepts) second) (c :: rest) =
      if accepts c then firstMatch second rest else none := by
  rw [firstMatch_seq, ends_cls]
  split <;> simp

theorem firstMatch_opt_seq (accepts : α → Bool) (second : Regex α) (c : α) (rest : List α) :
    firstMatch (.seq (.opt (.cls accepts)) second) (c :: rest) =
      (if accepts c then firstMatch second rest else none).or (firstMatch second (c :: rest)) := by
  simp only [firstMatch_seq, ends_opt, ends_cls, List.findSome?_append]
  split <;> simp

/-- A run with something behind it: the run gives back until the rest matches. -/
theorem firstMatch_many_seq (accepts : α → Bool) (second : Regex α) (c : α) (rest : List α) :
    firstMatch (.seq (.many accepts) second) (c :: rest) =
      (if accepts c then firstMatch (.seq (.many accepts) second) rest else none).or
        (firstMatch second (c :: rest)) := by
  rw [firstMatch_seq, firstMatch_seq, ends_many, ends_many, manyEnds]
  split
  · rw [List.findSome?_append]
    simp
  · simp

theorem firstMatch_many (accepts : α → Bool) (text : List α) :
    firstMatch (.many accepts) text = some (text.dropWhile accepts) := by
  induction text with
  | nil => rfl
  | cons c rest ih =>
      rw [firstMatch, ends_many] at ih ⊢
      unfold manyEnds
      split
      · rename_i inside
        rw [List.head?_append, ih]
        simp [inside]
      · rename_i outside
        simp [outside]

theorem firstMatch_plus (accepts : α → Bool) (c : α) (rest : List α) :
    firstMatch (plus accepts) (c :: rest) = if accepts c then some (rest.dropWhile accepts) else none := by
  rw [plus, firstMatch_cls_seq, firstMatch_many]

/-- Behind a run that the rest of the pattern always matches after. -/
theorem firstMatch_many_total (accepts : α → Bool) (second : Regex α)
    (total : ∀ text, (firstMatch second text).isSome) (text : List α) :
    firstMatch (.seq (.many accepts) second) text = firstMatch second (text.dropWhile accepts) := by
  induction text with
  | nil => simp [firstMatch_seq, ends_many, manyEnds]
  | cons c rest ih =>
      rw [firstMatch_many_seq, ih]
      obtain ⟨left, found⟩ := Option.isSome_iff_exists.mp (total (rest.dropWhile accepts))
      by_cases inside : accepts c = true <;> simp [inside, found]

end XInfer.BacktrackingRegex
