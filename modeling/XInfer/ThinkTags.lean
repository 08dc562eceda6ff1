import XInfer.Erasure
import XInfer.Occurrences
import XInfer.ReasoningRouting

/-!
The think tags that the clean-up after the loop leaves in the text. One block is lifted out, every end
tag is erased, and no step looks for a second start tag, nor for one that an erasure has formed.
-/

namespace XInfer.ThinkTags

open Primitives ByteString Occurrences Erasure TokenRouting ReasoningRouting

section Search

/-- A tag behind a text without it is found there. -/
theorem find_tag {tag front : Bytes} (once : 60 ∉ tag) (bare : ¬ 60 :: tag <:+: front) (back : Bytes) :
    find (60 :: tag) (front ++ (60 :: tag ++ back)) = some front.length := by
  cases found : find (60 :: tag) (front ++ (60 :: tag ++ back)) with
  | none => exact absurd found ((contains_iff _ _).mpr ⟨front, back, (List.append_assoc _ _ _)⟩)
  | some pos =>
      have split := find_split _ found
      have bound := find_le _ found
      rw [List.append_assoc] at split
      have same := (first_tag_unique once bare (find_bare (List.cons_ne_nil _ _) found) split).1
      have length := congrArg List.length same
      rw [List.length_take_of_le (by omega)] at length
      rw [length]

theorem thinkTag_once : (60 : UInt8) ∉ ascii "think>" := by decide
theorem thinkEndTag_once : (60 : UInt8) ∉ ascii "/think>" := by decide
theorem thinkTag_not_front : ¬ thinkTag <+: thinkEndTag := by decide
theorem thinkEndTag_not_front : ¬ thinkEndTag <+: thinkTag := by decide

/-- A start tag neither holds nor forms an end tag. -/
theorem endTag_across {front back : Bytes} :
    thinkEndTag <:+: front ++ (thinkTag ++ back) ↔ thinkEndTag <:+: front ∨ thinkEndTag <:+: back := by
  have counts : occurrences thinkEndTag (front ++ (thinkTag ++ back)) =
      occurrences thinkEndTag front + occurrences thinkEndTag back :=
    occurrences_other thinkEndTag_once thinkTag_once thinkEndTag_not_front thinkTag_not_front front back
  have none : ∀ text, occurrences thinkEndTag text = 0 ↔ ¬ thinkEndTag <:+: text :=
    fun text => occurrences_eq_zero (List.cons_ne_nil _ _)
  have both := none (front ++ (thinkTag ++ back))
  have left := none front
  have right := none back
  rw [counts] at both
  by_cases inFront : thinkEndTag <:+: front
  · simp only [inFront, true_or, iff_true]
    by_contra absent
    have zero := both.mpr absent
    exact absurd inFront (left.mp (by omega))
  · have zero := left.mpr inFront
    rw [zero, Nat.zero_add, right] at both
    simp only [inFront, false_or]
    exact not_iff_not.mp both.symm

end Search

section Lifting

/-- What the first step leaves of a text: all of it, what stands around a block, or what stands before a
block that has no end behind it, or that an end tag precedes. -/
inductive Leaves : Bytes → Bytes → Prop where
  | plain {text : Bytes} : ¬ thinkTag <:+: text → Leaves text text
  | block {front body back : Bytes} : ¬ thinkTag <:+: front → ¬ thinkEndTag <:+: front → ¬ thinkEndTag <:+: body →
      Leaves (front ++ (thinkTag ++ (body ++ (thinkEndTag ++ back)))) (front ++ back)
  | opened {front rest : Bytes} : ¬ thinkTag <:+: front → (thinkEndTag <:+: front ∨ ¬ thinkEndTag <:+: rest) →
      Leaves (front ++ (thinkTag ++ rest)) front

theorem leaves_exists (text : Bytes) : ∃ kept, Leaves text kept := by
  by_cases present : thinkTag <:+: text
  · cases found : find thinkTag text with
    | none => exact absurd found ((contains_iff _ _).mpr present)
    | some start =>
        have bare := find_bare (List.cons_ne_nil _ _) found
        have split := find_split _ found
        rw [List.append_assoc] at split
        rw [split]
        generalize text.take start = front at bare
        generalize text.drop (start + thinkTag.length) = rest
        by_cases before : thinkEndTag <:+: front
        · exact ⟨_, .opened bare (Or.inl before)⟩
        · by_cases closed : thinkEndTag <:+: rest
          · cases finish : find thinkEndTag rest with
            | none => exact absurd finish ((contains_iff _ _).mpr closed)
            | some final =>
                have inner := find_split _ finish
                rw [List.append_assoc] at inner
                rw [inner]
                exact ⟨_, .block bare before (find_bare (List.cons_ne_nil _ _) finish)⟩
          · exact ⟨_, .opened bare (Or.inr closed)⟩
  · exact ⟨_, .plain present⟩

/-- The text around a block. -/
theorem erase_block (front body back : Bytes) :
    erase (front ++ (thinkTag ++ (body ++ (thinkEndTag ++ back)))) front.length
      ((front ++ (thinkTag ++ body)).length + 8 - front.length) = front ++ back := by
  have seven : thinkTag.length = 7 := by decide
  have eight : thinkEndTag.length = 8 := by decide
  have behind : front.length + ((front ++ (thinkTag ++ body)).length + 8 - front.length) =
      (front ++ (thinkTag ++ (body ++ thinkEndTag))).length := by
    simp only [List.length_append, seven, eight]
    omega
  have split : front ++ (thinkTag ++ (body ++ (thinkEndTag ++ back))) =
      front ++ (thinkTag ++ (body ++ thinkEndTag)) ++ back := by
    simp only [List.append_assoc]
  rw [erase, List.take_left, behind, split, List.drop_left]

theorem liftBlock_leaves {text kept : Bytes} (leaves : Leaves text kept) (reasoning : Bytes) :
    (liftBlock text reasoning).1 = kept := by
  cases leaves with
  | plain absent => rw [liftBlock_absent reasoning fun present => absent ((contains_iff _ _).mp present)]
  | @block front body back bare before inside =>
      have start : find thinkTag (front ++ (thinkTag ++ (body ++ (thinkEndTag ++ back)))) = some front.length :=
        find_tag thinkTag_once bare _
      have clear : ¬ thinkEndTag <:+: front ++ (thinkTag ++ body) := by
        rw [endTag_across]
        exact not_or.mpr ⟨before, inside⟩
      have finish := find_tag thinkEndTag_once clear back
      rw [List.append_assoc, List.append_assoc] at finish
      change find thinkEndTag (front ++ (thinkTag ++ (body ++ (thinkEndTag ++ back)))) = _ at finish
      have order : front.length ≤ (front ++ (thinkTag ++ body)).length := by
        rw [List.length_append]
        omega
      simp only [liftBlock, start, finish, if_pos order]
      exact erase_block front body back
  | @opened _ rest bare cut =>
      have start : find thinkTag (kept ++ (thinkTag ++ rest)) = some kept.length := find_tag thinkTag_once bare _
      cases finish : find thinkEndTag (kept ++ (thinkTag ++ rest)) with
      | none => simp only [liftBlock, start, finish, List.take_left]
      | some final =>
          have present : thinkEndTag <:+: kept ++ (thinkTag ++ rest) := by
            rw [← contains_iff, Contains, finish]
            exact Option.some_ne_none final
          have inFront : thinkEndTag <:+: kept := by
            rcases endTag_across.mp present with before | behind
            · exact before
            · exact cut.resolve_right fun absent => absent behind
          have early : ¬ kept.length ≤ final := by
            cases earlier : find thinkEndTag kept with
            | none => exact absurd earlier ((contains_iff _ _).mpr inFront)
            | some pos =>
                have same := Option.some.inj ((find_append _ earlier _).symm.trans finish)
                have bound := find_le _ earlier
                have eight : thinkEndTag.length = 8 := by decide
                omega
          simp only [liftBlock, start, finish, if_neg early, List.take_left]

end Lifting

section Erasing

/-- Erasing end tags from the left leaves the residue. -/
theorem eraseStray_residue (fuel : Nat) {text : Bytes} (enough : text.length ≤ fuel) :
    eraseStray fuel text = residue thinkEndTag text := by
  induction fuel generalizing text with
  | zero =>
      rw [List.length_eq_zero_iff.mp (Nat.le_zero.mp enough)]
      rfl
  | succ fuel ih =>
      cases found : find thinkEndTag text with
      | none =>
          have free : ¬ thinkEndTag <:+: [] ++ text := fun inside => (contains_iff _ _).mpr inside found
          simp only [eraseStray, found]
          exact (readOn_of_free free).symm
      | some pos =>
          have bound := find_le thinkEndTag found
          have eight : thinkEndTag.length = 8 := by decide
          have split := find_split thinkEndTag found
          have same : residue thinkEndTag text = residue thinkEndTag (erase text pos 8) := by
            rw [erase, ← eight]
            exact (congrArg _ split).trans (residue_erase thinkEndTag_once _ _)
          simp only [eraseStray, found]
          rw [same]
          apply ih
          simp only [erase, List.length_append, List.length_take, List.length_drop]
          omega

/-- The leading line breaks hold no part of a tag. -/
theorem infix_strip {tag : Bytes} (text : Bytes) : 60 :: tag <:+: text.dropWhile isBreak ↔ 60 :: tag <:+: text := by
  induction text with
  | nil => rfl
  | cons byte rest ih =>
      rw [List.dropWhile_cons]
      by_cases blank : isBreak byte = true
      · rw [if_pos blank, ih, List.infix_cons_iff, or_iff_right]
        intro front
        obtain ⟨rfl, _⟩ := List.cons_prefix_cons.mp front
        exact absurd blank (by decide)
      · rw [if_neg blank]

theorem infix_cleanUp {tag : Bytes} (text reasoning : Bytes) : 60 :: tag <:+: (cleanUp text reasoning).1 ↔
    60 :: tag <:+: residue thinkEndTag (liftBlock text reasoning).1 := by
  simp only [cleanUp, eraseStray_residue _ (Nat.le_refl _)]
  split
  · rfl
  · exact infix_strip _

theorem endTag_gone (text reasoning : Bytes) : ¬ thinkEndTag <:+: (cleanUp text reasoning).1 :=
  fun inside => readOn_free (by decide) _ ((infix_cleanUp text reasoning).mp inside)

/-- Exactly the texts of which the first step leaves nothing that reads as a start tag across end tags
lose all their tags. -/
theorem tags_gone_iff (text reasoning : Bytes) :
    (¬ thinkTag <:+: (cleanUp text reasoning).1 ∧ ¬ thinkEndTag <:+: (cleanUp text reasoning).1) ↔
      ∀ kept, Leaves text kept → ¬ Readable thinkEndTag thinkTag kept := by
  have gone : thinkTag <:+: (cleanUp text reasoning).1 ↔
      Readable thinkEndTag thinkTag (liftBlock text reasoning).1 :=
    (infix_cleanUp text reasoning).trans
      (residue_infix_iff thinkEndTag_once thinkTag_once thinkTag_not_front thinkEndTag_not_front _)
  rw [and_iff_left (endTag_gone text reasoning), gone]
  obtain ⟨lifted, leaves⟩ := leaves_exists text
  constructor
  · intro unread kept others
    rw [← liftBlock_leaves others reasoning]
    exact unread
  · intro unread
    rw [liftBlock_leaves leaves reasoning]
    exact unread lifted leaves

/-- The second block loses its end tag only. -/
theorem second_block_shown :
    (cleanUp (ascii "<think>a</think>b<think>c</think>d") []).1 = ascii "b<think>cd" ∧
      ¬ (¬ thinkTag <:+: (cleanUp (ascii "<think>a</think>b<think>c</think>d") []).1 ∧
        ¬ thinkEndTag <:+: (cleanUp (ascii "<think>a</think>b<think>c</think>d") []).1) := by
  decide +kernel

-- an erasure forms the tag
example : (cleanUp (ascii "<thi</think>nk>") []).1 = thinkTag := by decide +kernel

end Erasing

end XInfer.ThinkTags
