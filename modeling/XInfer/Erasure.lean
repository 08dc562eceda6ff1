import Mathlib.Data.List.Basic
import Mathlib.Data.List.Infix
import Mathlib.Tactic.Common

/-!
Erasing a pattern until it is gone, where an erasure can form the pattern anew. For a pattern whose
first element comes back nowhere in it the order of the erasures does not matter: what is left is the
stack of a reader that drops the pattern whenever it stands on top.
-/

namespace XInfer.Erasure

variable {α : Type} [DecidableEq α]

section Reader

/-- Put an element on the stack, and take the pattern off when it stands on top. -/
def push (pattern stack : List α) (x : α) : List α :=
  if pattern <:+ stack ++ [x] then (stack ++ [x]).take (stack.length + 1 - pattern.length) else stack ++ [x]

def readOn (pattern stack text : List α) : List α := text.foldl (push pattern) stack

/-- What is left of a text. -/
def residue (pattern text : List α) : List α := readOn pattern [] text

theorem readOn_append (pattern stack front back : List α) :
    readOn pattern stack (front ++ back) = readOn pattern (readOn pattern stack front) back :=
  List.foldl_append

theorem push_cases (pattern stack : List α) (x : α) :
    (∃ rest, stack ++ [x] = rest ++ pattern ∧ push pattern stack x = rest) ∨
    (¬ pattern <:+ stack ++ [x] ∧ push pattern stack x = stack ++ [x]) := by
  unfold push
  by_cases top : pattern <:+ stack ++ [x]
  · left
    obtain ⟨rest, split⟩ := top
    refine ⟨rest, split.symm, ?_⟩
    have length := congrArg List.length split
    simp only [List.length_append, List.length_singleton] at length
    have size : stack.length + 1 - pattern.length = rest.length := by omega
    rw [if_pos ⟨rest, split⟩, size, ← split, List.take_left]
  · exact Or.inr ⟨top, if_neg top⟩

variable {pattern stack : List α} {x : α}

theorem push_of_top {rest : List α} (top : stack ++ [x] = rest ++ pattern) : push pattern stack x = rest := by
  rcases push_cases pattern stack x with ⟨other, split, run⟩ | ⟨apart, _⟩
  · rw [run]
    exact List.append_cancel_right (split.symm.trans top)
  · exact absurd ⟨rest, top.symm⟩ apart

theorem push_of_not_top (apart : ¬ pattern <:+ stack ++ [x]) : push pattern stack x = stack ++ [x] := if_neg apart

/-- The pattern never stands inside the stack. -/
theorem push_free (free : ¬ pattern <:+: stack) : ¬ pattern <:+: push pattern stack x := by
  rcases push_cases pattern stack x with ⟨rest, split, run⟩ | ⟨apart, run⟩
  · rw [run]
    have below : rest <+: stack := by
      refine List.prefix_of_prefix_length_le ⟨pattern, split.symm⟩ (List.prefix_append stack [x]) ?_
      have length := congrArg List.length split
      have some' : 0 < pattern.length :=
        List.length_pos_iff.mpr fun empty => free (empty ▸ List.nil_infix)
      simp only [List.length_append, List.length_singleton] at length
      omega
    exact fun inside => free (inside.trans below.isInfix)
  · rw [run, List.infix_concat_iff]
    rintro (top | inside)
    · exact apart top
    · exact free inside

theorem readOn_free (free : ¬ pattern <:+: stack) (text : List α) : ¬ pattern <:+: readOn pattern stack text := by
  induction text generalizing stack with
  | nil => exact free
  | cons x rest ih => exact ih (push_free free)

/-- A text without the pattern is read as it is. -/
theorem readOn_of_free {text : List α} (free : ¬ pattern <:+: stack ++ text) : readOn pattern stack text = stack ++ text := by
  induction text generalizing stack with
  | nil => exact (List.append_nil stack).symm
  | cons x rest ih =>
      have split : stack ++ x :: rest = stack ++ [x] ++ rest := by rw [List.append_assoc, List.singleton_append]
      rw [split] at free ⊢
      have apart : ¬ pattern <:+ stack ++ [x] :=
        fun top => free (top.isInfix.trans (List.prefix_append _ _).isInfix)
      change readOn pattern (push pattern stack x) rest = _
      rw [push_of_not_top apart, ih free]

end Reader

section Spread

/-- The text reads as a word where occurrences of the pattern, spread in the same way, are passed over. -/
inductive Spread (pattern : List α) : List α → List α → Prop where
  | nil : Spread pattern [] []
  | cons (x : α) {word text : List α} : Spread pattern word text → Spread pattern (x :: word) (x :: text)
  | skip {word gap text : List α} : Spread pattern pattern gap → Spread pattern word text →
      Spread pattern word (gap ++ text)

/-- Some part of the text reads as the word. -/
def Readable (pattern word text : List α) : Prop := ∃ part, part <:+: text ∧ Spread pattern word part

variable {pattern left right word text : List α}

omit [DecidableEq α] in
theorem spread_refl (pattern word : List α) : Spread pattern word word := by
  induction word with
  | nil => exact .nil
  | cons x rest ih => exact .cons x ih

omit [DecidableEq α] in
theorem spread_append {first second : List α} (front : Spread pattern left first) (back : Spread pattern right second) :
    Spread pattern (left ++ right) (first ++ second) := by
  induction front with
  | nil => exact back
  | cons x _ ih => exact .cons x ih
  | skip gap _ _ ih =>
      rw [List.append_assoc]
      exact .skip gap ih

omit [DecidableEq α] in
theorem spread_split (spread : Spread pattern (left ++ right) text) :
    ∃ first second, text = first ++ second ∧ Spread pattern left first ∧ Spread pattern right second := by
  generalize whole : left ++ right = word at spread
  induction spread generalizing left with
  | nil =>
      obtain ⟨rfl, rfl⟩ := List.append_eq_nil_iff.mp whole
      exact ⟨[], [], rfl, .nil, .nil⟩
  | @cons x word text inner ih =>
      cases left with
      | nil =>
          rw [List.nil_append] at whole
          exact ⟨[], x :: text, rfl, .nil, whole ▸ .cons x inner⟩
      | cons y left =>
          obtain ⟨rfl, rest⟩ := List.cons.inj whole
          obtain ⟨first, second, rfl, front, back⟩ := ih rest
          exact ⟨y :: first, second, rfl, .cons y front, back⟩
  | @skip word gap text hidden inner _ ih =>
      obtain ⟨first, second, rfl, front, back⟩ := ih whole
      exact ⟨gap ++ first, second, (List.append_assoc _ _ _).symm, .skip hidden front, back⟩

/-- A text reads as what is left of it. -/
theorem readOn_spread {stack before : List α} (spread : Spread pattern stack before) (text : List α) :
    Spread pattern (readOn pattern stack text) (before ++ text) := by
  induction text generalizing stack before with
  | nil =>
      rw [List.append_nil]
      exact spread
  | cons x rest ih =>
      have longer : Spread pattern (stack ++ [x]) (before ++ [x]) := spread_append spread (spread_refl pattern [x])
      have split : before ++ x :: rest = before ++ [x] ++ rest := by rw [List.append_assoc, List.singleton_append]
      rw [split]
      apply ih
      rcases push_cases pattern stack x with ⟨under, top, run⟩ | ⟨_, run⟩
      · rw [run]
        rw [top] at longer
        obtain ⟨first, gap, same, front, hidden⟩ := spread_split longer
        rw [same]
        have closed := spread_append front (.skip hidden .nil)
        simpa only [List.append_nil] using closed
      · rw [run]
        exact longer

theorem residue_spread (pattern text : List α) : Spread pattern (residue pattern text) text :=
  readOn_spread .nil text

/-- What stands in the residue can be read in the text. -/
theorem readable_of_residue (inside : word <:+: residue pattern text) : Readable pattern word text := by
  obtain ⟨front, back, whole⟩ := inside
  have spread := residue_spread pattern text
  rw [← whole] at spread
  obtain ⟨first, _, rfl, middle, _⟩ := spread_split spread
  obtain ⟨before, part, rfl, _, word⟩ := spread_split middle
  exact ⟨part, ⟨before, _, rfl⟩, word⟩

end Spread

section Tags

variable {c : α} {tag stack : List α} (once : c ∉ tag)
include once

omit [DecidableEq α] in
/-- The pattern does not reach below its own first element. -/
theorem top_within {rest : List α} (top : c :: tag <:+ stack ++ c :: rest) : c :: tag <:+ c :: rest := by
  rcases List.suffix_or_suffix_of_suffix top (List.suffix_append stack (c :: rest)) with inside | ⟨more, split⟩
  · exact inside
  · cases more with
    | nil => exact ⟨[], split.symm⟩
    | cons y more =>
        have tail : more ++ c :: rest = tag := (List.cons.inj split).2
        exact absurd (tail ▸ List.mem_append_right more List.mem_cons_self) once

/-- A word is put on the stack whole where no front of it ends in the pattern. -/
theorem readOn_word {word : List α} (apart : ∀ front, c :: front <+: word → ¬ c :: tag <:+ c :: front)
    (begins : ∀ x rest, word = x :: rest → x = c) : readOn (c :: tag) stack word = stack ++ word := by
  induction word using List.reverseRecOn with
  | nil => exact (List.append_nil stack).symm
  | append_singleton front x ih =>
      have before : readOn (c :: tag) stack front = stack ++ front := by
        apply ih
        · exact fun part inside => apart part (inside.trans (List.prefix_append front [x]))
        · rintro y rest rfl
          exact begins y (rest ++ [x]) rfl
      obtain ⟨rest, whole⟩ : ∃ rest, front ++ [x] = c :: rest := by
        cases front with
        | nil => exact ⟨[], by rw [begins x [] rfl]; rfl⟩
        | cons y rest => exact ⟨rest ++ [x], by rw [begins y (rest ++ [x]) rfl]; rfl⟩
      rw [readOn_append, before]
      change push (c :: tag) (stack ++ front) x = _
      rw [push_of_not_top, List.append_assoc]
      rw [List.append_assoc, whole]
      exact fun top => apart rest (whole ▸ List.prefix_refl _) (top_within once top)

/-- Read on any stack, the pattern goes as it came. -/
theorem readOn_pattern : readOn (c :: tag) stack (c :: tag) = stack := by
  obtain ⟨front, last, whole⟩ : ∃ front last, c :: tag = front ++ [last] :=
    ⟨_, _, (List.dropLast_append_getLast (List.cons_ne_nil c tag)).symm⟩
  have short := congrArg List.length whole
  simp only [List.length_append, List.length_singleton] at short
  have before : readOn (c :: tag) stack front = stack ++ front := by
    apply readOn_word once
    · intro part inside top
      have one := inside.length_le
      have two := top.length_le
      omega
    · rintro x rest rfl
      exact (List.cons.inj whole).1.symm
  rw [show readOn (c :: tag) stack (c :: tag) = readOn (c :: tag) stack (front ++ [last]) from
    congrArg _ whole, readOn_append, before]
  exact push_of_top (by rw [List.append_assoc, ← whole])

/-- Spread out, a word is read as it stands. -/
theorem readOn_of_spread {word text : List α} (spread : Spread (c :: tag) word text) :
    readOn (c :: tag) stack text = readOn (c :: tag) stack word := by
  induction spread generalizing stack with
  | nil => rfl
  | cons x _ ih => exact ih
  | skip _ _ hidden ih => rw [readOn_append, hidden, readOn_pattern once, ih]

/-- So erasing one occurrence changes nothing of what is left. -/
theorem residue_erase (front back : List α) :
    residue (c :: tag) (front ++ (c :: tag) ++ back) = residue (c :: tag) (front ++ back) := by
  unfold residue
  rw [readOn_append, readOn_append, readOn_pattern once, readOn_append]

omit [DecidableEq α] once in
/-- Two suffixes that begin alike, where the beginning comes back nowhere. -/
theorem suffix_eq {short long : List α} (single : c ∉ long) (suffix : c :: short <:+ c :: long) : short = long := by
  obtain ⟨more, split⟩ := suffix
  cases more with
  | nil => exact (List.cons.inj split).2
  | cons y more =>
      have tail : more ++ c :: short = long := (List.cons.inj split).2
      exact absurd (tail ▸ List.mem_append_right more List.mem_cons_self) single

section Words

variable {word : List α} (single : c ∉ word)
include single

theorem readOn_other (apart : ¬ c :: tag <+: c :: word) : readOn (c :: tag) stack (c :: word) = stack ++ c :: word := by
  apply readOn_word once
  · intro front inside top
    have within : front <+: word := (List.cons_prefix_cons.mp inside).2
    have same := suffix_eq (fun member => single (within.subset member)) top
    exact apart (same ▸ inside)
  · intro x rest whole
    exact (List.cons.inj whole).1.symm

omit [DecidableEq α] in
/-- The pattern does not reach into a word before it. -/
theorem top_above (apart : ¬ c :: word <+: c :: tag) {above : List α}
    (top : c :: tag <:+ stack ++ c :: word ++ above) : c :: tag <:+ above := by
  rcases List.suffix_or_suffix_of_suffix top (List.suffix_append _ above) with inside | ⟨more, split⟩
  · exact inside
  · cases more with
    | nil => exact ⟨[], split.symm⟩
    | cons y more =>
        obtain ⟨rfl, rest⟩ := List.cons.inj split
        have tail : more ++ above = tag := rest
        have foreign : y ∉ more := fun member => once (tail ▸ List.mem_append_left above member)
        have below : y :: more <:+ stack ++ y :: word := by
          obtain ⟨under, whole⟩ := top
          refine ⟨under, (List.append_left_inj above).mp ?_⟩
          rw [List.append_assoc, List.cons_append, tail, whole]
        refine absurd ⟨above, ?_⟩ apart
        rcases List.suffix_or_suffix_of_suffix below (List.suffix_append stack (y :: word)) with inside | outside
        · rw [← suffix_eq single inside, List.cons_append, tail]
        · rw [suffix_eq foreign outside, List.cons_append, tail]

/-- A word on the stack stays there. -/
theorem readOn_above (apart : ¬ c :: word <+: c :: tag) (stack above text : List α) :
    readOn (c :: tag) (stack ++ c :: word ++ above) text = stack ++ c :: word ++ readOn (c :: tag) above text := by
  induction text generalizing above with
  | nil => rfl
  | cons x rest ih =>
      have step : push (c :: tag) (stack ++ c :: word ++ above) x = stack ++ c :: word ++ push (c :: tag) above x := by
        rcases push_cases (c :: tag) above x with ⟨under, top, run⟩ | ⟨clear, run⟩
        · rw [run]
          apply push_of_top
          rw [List.append_assoc, top, ← List.append_assoc]
        · rw [run, push_of_not_top, List.append_assoc]
          rw [List.append_assoc]
          exact fun top => clear (top_above once single apart top)
      change readOn (c :: tag) (push (c :: tag) (stack ++ c :: word ++ above) x) rest = _
      rw [step, ih]
      rfl

/-- What can be read in the text stands in the residue, and nothing else does. -/
theorem residue_infix_iff (apart : ¬ c :: word <+: c :: tag) (apart' : ¬ c :: tag <+: c :: word) (text : List α) :
    c :: word <:+: residue (c :: tag) text ↔ Readable (c :: tag) (c :: word) text := by
  constructor
  · exact readable_of_residue
  · rintro ⟨part, ⟨front, back, rfl⟩, spread⟩
    have stays := readOn_above once single apart (residue (c :: tag) front) [] back
    rw [List.append_nil] at stays
    rw [residue, readOn_append, readOn_append, readOn_of_spread once spread, readOn_other once single apart']
    change _ <:+: readOn (c :: tag) (residue (c :: tag) front ++ c :: word) back
    rw [stays]
    exact ⟨_, _, rfl⟩

end Words

end Tags

end XInfer.Erasure
