import Mathlib.Tactic.Common
import Mathlib.Data.List.Basic

/-!
Continuing a list by the choices of a function. Some choices end the continuation
without being said, and a listener may end it behind one that was.
-/

namespace XInfer.Continuation

variable {α : Type} (ends : α → Bool) (hears : List α → α → Bool) (choose : List α → α)

/-- What has been said with one more choice, and whether more is to follow. -/
def heard (said : List α) (next : α) : List α × Bool :=
  if ends next then (said, false) else (said ++ [next], hears said next)

/-- The flag stays as long as nothing but the budget ends the continuation. -/
def speak : Nat → List α → List α × Bool
  | 0, said => (said, true)
  | left + 1, said =>
      let done := heard ends hears said (choose said)
      if done.2 then speak left done.1 else done

variable {ends hears choose} {said : List α}

theorem heard_ended {next : α} (ended : ends next = true) : heard ends hears said next = (said, false) := by
  rw [heard, if_pos ended]

theorem heard_said {next : α} (goes : ends next = false) :
    heard ends hears said next = (said ++ [next], hears said next) := by
  rw [heard, goes, if_neg Bool.false_ne_true]

/-- More follows behind a choice that was said, where the listener asks for it. -/
theorem heard_goes {next : α} (goes : (heard ends hears said next).2 = true) :
    (heard ends hears said next).1 = said ++ [next] ∧ hears said next = true := by
  cases ended : ends next with
  | true =>
      rw [heard_ended ended] at goes
      cases goes
  | false =>
      rw [heard_said ended] at goes ⊢
      exact ⟨rfl, goes⟩

theorem heard_extends (said : List α) (next : α) : said <+: (heard ends hears said next).1 := by
  cases ended : ends next with
  | true => simp [heard_ended ended]
  | false =>
      rw [heard_said ended]
      exact List.prefix_append _ _

theorem speak_more {left : Nat} (goes : (heard ends hears said (choose said)).2 = true) :
    speak ends hears choose (left + 1) said = speak ends hears choose left (said ++ [choose said]) := by
  rw [speak, if_pos goes, (heard_goes goes).1]

theorem speak_last {left : Nat} (goes : (heard ends hears said (choose said)).2 = false) :
    speak ends hears choose (left + 1) said = heard ends hears said (choose said) := by
  rw [speak, goes, if_neg Bool.false_ne_true]

theorem speak_extends (left : Nat) (said : List α) : said <+: (speak ends hears choose left said).1 := by
  induction left generalizing said with
  | zero => exact List.prefix_rfl
  | succ left ih =>
      cases more : (heard ends hears said (choose said)).2 with
      | true =>
          rw [speak_more more]
          exact (List.prefix_append _ _).trans (ih _)
      | false =>
          rw [speak_last more]
          exact heard_extends _ _

/-- Only a choice that ends the continuation, or a listener who has heard enough, stops short of the budget. -/
theorem speak_full {left : Nat} (goes : (speak ends hears choose left said).2 = true) :
    (speak ends hears choose left said).1.length = said.length + left := by
  induction left generalizing said with
  | zero => rfl
  | succ left ih =>
      cases more : (heard ends hears said (choose said)).2 with
      | true =>
          rw [speak_more more] at goes ⊢
          rw [ih goes, List.length_append, List.length_singleton]
          omega
      | false =>
          rw [speak_last more, more] at goes
          cases goes

/-- Everything said is the choice behind what was said before it. -/
theorem speak_chosen {left i : Nat} (old : ∀ (below : i < said.length), said[i] = choose (said.take i))
    (inside : i < (speak ends hears choose left said).1.length) :
    (speak ends hears choose left said).1[i] = choose ((speak ends hears choose left said).1.take i) := by
  induction left generalizing said with
  | zero => exact old inside
  | succ left ih =>
      have snoc : ∀ (below : i < (said ++ [choose said]).length),
          (said ++ [choose said])[i] = choose ((said ++ [choose said]).take i) := by
        intro below
        rw [List.length_append, List.length_singleton] at below
        rcases Nat.lt_or_ge i said.length with early | late
        · rw [List.getElem_append_left early, List.take_append_of_le_length (Nat.le_of_lt early)]
          exact old early
        · obtain rfl : i = said.length := by omega
          rw [List.getElem_concat_length rfl, List.take_left]
      cases more : (heard ends hears said (choose said)).2 with
      | true =>
          simp only [speak_more more] at inside ⊢
          exact ih snoc inside
      | false =>
          simp only [speak_last more] at inside ⊢
          cases ended : ends (choose said) with
          | true =>
              simp only [heard_ended ended] at inside ⊢
              exact old inside
          | false =>
              simp only [heard_said ended] at inside ⊢
              exact snoc inside

end XInfer.Continuation
