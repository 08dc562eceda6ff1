import Mathlib.Logic.Relation
import Mathlib.Order.Lattice
import Mathlib.Tactic.Common

/-!
Greedy merging of neighbours in a word. A pair of letters may have a rank; a step joins the leftmost occurrence
of the pair of least rank. Where no two pairs share a rank and a joined letter occurs only in pairs of higher
rank, all occurrences of the pair can be joined in one pass.
-/

namespace XInfer.PairMerging

open Relation

variable {α ρ : Type} [LinearOrder ρ]

section Adjacent

def adjacent (word : List α) : List (α × α) := word.zip word.tail

@[simp] theorem adjacent_cons_cons (a b : α) (rest : List α) :
    adjacent (a :: b :: rest) = (a, b) :: adjacent (b :: rest) := rfl

@[simp] theorem adjacent_single (a : α) : adjacent [a] = [] := rfl

/-- Two parts of a word that share a letter. -/
theorem adjacent_split (front : List α) (a : α) (back : List α) :
    adjacent (front ++ a :: back) = adjacent (front ++ [a]) ++ adjacent (a :: back) := by
  induction front with
  | nil => rfl
  | cons x front ih =>
      cases front with
      | nil => rfl
      | cons y front =>
          rw [List.cons_append, List.cons_append, adjacent_cons_cons, List.cons_append, List.cons_append,
            adjacent_cons_cons, List.cons_append, ← List.cons_append, ih]
          rfl

theorem adjacent_here (front : List α) (a b : α) (back : List α) : (a, b) ∈ adjacent (front ++ a :: b :: back) := by
  rw [adjacent_split]
  exact List.mem_append_right _ List.mem_cons_self

theorem adjacent_tail {pair : α × α} {a : α} {rest : List α} (member : pair ∈ adjacent (a :: rest)) :
    (∃ b, pair = (a, b)) ∨ pair ∈ adjacent rest := by
  cases rest with
  | nil => cases member
  | cons b rest =>
      rcases List.mem_cons.mp member with here | later
      · exact Or.inl ⟨b, here⟩
      · exact Or.inr later

theorem adjacent_of_tail {pair : α × α} {a : α} {rest : List α} (member : pair ∈ adjacent rest) :
    pair ∈ adjacent (a :: rest) := by
  cases rest with
  | nil => cases member
  | cons b rest => exact List.mem_cons_of_mem _ member

theorem adjacent_back (front : List α) {rest : List α} {pair : α × α} (member : pair ∈ adjacent rest) :
    pair ∈ adjacent (front ++ rest) := by
  induction front with
  | nil => exact member
  | cons x front ih => exact adjacent_of_tail ih

theorem adjacent_front {front : List α} (rest : List α) {pair : α × α} (member : pair ∈ adjacent front) :
    pair ∈ adjacent (front ++ rest) := by
  induction front with
  | nil => cases member
  | cons x front ih =>
      cases front with
      | nil => cases member
      | cons y front =>
          rcases List.mem_cons.mp member with here | later
          · rw [here]
            exact List.mem_cons_self
          · exact List.mem_cons_of_mem _ (ih later)

/-- The pairs of a word, seen from one of its letters. -/
theorem adjacent_around {front : List α} {a : α} {rest : List α} {pair : α × α}
    (member : pair ∈ adjacent (front ++ a :: rest)) :
    pair ∈ adjacent front ∨ (∃ x, pair = (x, a)) ∨ (∃ x, pair = (a, x)) ∨ pair ∈ adjacent rest := by
  induction front with
  | nil =>
      rcases adjacent_tail member with follows | later
      · exact Or.inr (Or.inr (Or.inl follows))
      · exact Or.inr (Or.inr (Or.inr later))
  | cons x front ih =>
      cases front with
      | nil =>
          rcases List.mem_cons.mp member with here | later
          · exact Or.inr (Or.inl ⟨x, here⟩)
          · exact (ih later).imp_left fun inside => by cases inside
      | cons y front =>
          rcases List.mem_cons.mp member with here | later
          · exact Or.inl (here ▸ List.mem_cons_self)
          · exact (ih later).imp_left (List.mem_cons_of_mem _)

end Adjacent

section Steps

variable (rank : α → α → Option ρ) (join : α → α → α)

/-- No pair of the word has a rank. -/
def Final (word : List α) : Prop := ∀ pair ∈ adjacent word, rank pair.1 pair.2 = none

/-- The leftmost occurrence of the pair of least rank is joined. -/
inductive Step : List α → List α → Prop where
  | mk {front : List α} {a b : α} {back : List α} {least : ρ} :
      rank a b = some least →
      (∀ pair ∈ adjacent (front ++ a :: b :: back), ∀ other, rank pair.1 pair.2 = some other → least ≤ other) →
      (∀ pair ∈ adjacent (front ++ [a]), rank pair.1 pair.2 ≠ some least) →
        Step (front ++ a :: b :: back) (front ++ join a b :: back)

/-- Steps until no pair has a rank. -/
structure Merged (word out : List α) : Prop where
  steps : ReflTransGen (Step rank join) word out
  final : Final rank out

variable {rank join}

omit [LinearOrder ρ] in
/-- An occurrence further to the left excludes the step. -/
theorem not_leftmost {front mid back : List α} {a b c : α} {rest : List α} {least : ρ} (ranked : rank a b = some least)
    (shape : b :: back = mid ++ c :: rest) :
    ¬ ∀ pair ∈ adjacent (front ++ a :: mid ++ [c]), rank pair.1 pair.2 ≠ some least := by
  intro leftmost
  have follows : ∃ tail, mid ++ [c] = b :: tail := by
    cases mid with
    | nil =>
        rw [List.nil_append, List.cons.injEq] at shape
        exact ⟨[], by rw [shape.1]; rfl⟩
    | cons m mid =>
        rw [List.cons_append, List.cons.injEq] at shape
        exact ⟨mid ++ [c], by rw [shape.1]; rfl⟩
  obtain ⟨tail, here⟩ := follows
  rw [List.append_assoc, List.cons_append, here] at leftmost
  exact leftmost (a, b) (adjacent_here front a b tail) ranked

theorem Step.deterministic {word out other : List α} (first : Step rank join word out)
    (second : Step rank join word other) : out = other := by
  obtain ⟨ranked, low, leftmost⟩ := first
  rename_i front a b back least
  generalize shape : front ++ a :: b :: back = word at second low
  obtain ⟨ranked', low', leftmost'⟩ := second
  rename_i front' a' b' back' least'
  have same : least = least' := by
    apply le_antisymm
    · exact low (a', b') (adjacent_here front' a' b' back') least' ranked'
    · exact low' (a, b) (shape ▸ adjacent_here front a b back) least ranked
  subst same
  rcases List.append_eq_append_iff.mp shape with ⟨mid, longer, tails⟩ | ⟨mid, longer, tails⟩
  · cases mid with
    | nil =>
        rw [List.append_nil] at longer
        cases tails
        rw [longer]
    | cons m mid =>
        rw [List.cons_append, List.cons.injEq] at tails
        obtain ⟨rfl, tails⟩ := tails
        rw [longer] at leftmost'
        exact absurd leftmost' (not_leftmost ranked tails)
  · cases mid with
    | nil =>
        rw [List.append_nil] at longer
        cases tails
        rw [longer]
    | cons m mid =>
        rw [List.cons_append, List.cons.injEq] at tails
        obtain ⟨rfl, tails⟩ := tails
        rw [longer] at leftmost
        exact absurd leftmost (not_leftmost ranked' tails)

theorem Final.no_step {word out : List α} (final : Final rank word) : ¬ Step rank join word out := by
  rintro ⟨ranked, -, -⟩
  rename_i front a b back least
  rw [final (a, b) (adjacent_here front a b back)] at ranked
  cases ranked

/-- A word merges into one word only. -/
theorem Merged.unique {word out other : List α} (first : Merged rank join word out) (second : Merged rank join word other) :
    out = other := by
  have stuck {left right : List α} (final : Final rank left) (steps : ReflTransGen (Step rank join) left right) :
      left = right := by
    rcases steps.cases_head with same | ⟨next, step, -⟩
    · exact same
    · exact absurd step final.no_step
  have unique : Relator.RightUnique (Step rank join) := fun _ _ _ => Step.deterministic
  rcases ReflTransGen.total_of_right_unique unique first.steps second.steps with forth | back
  · exact stuck first.final forth
  · exact (stuck second.final back).symm

end Steps

section Passes

variable {rank : α → α → Option ρ} {join : α → α → α}

/-- No two pairs share a rank, and a joined letter comes late. -/
structure Ordered (rank : α → α → Option ρ) (join : α → α → α) : Prop where
  distinct : ∀ a b c d least, rank a b = some least → rank c d = some least → a = c ∧ b = d
  left : ∀ a b x least other, rank a b = some least → rank (join a b) x = some other → least < other
  right : ∀ a b x least other, rank a b = some least → rank x (join a b) = some other → least < other

variable [DecidableEq α]

/-- Every occurrence of the pair, from the left. -/
def mergeAll (join : α → α → α) (a b : α) : List α → List α
  | [] => []
  | [x] => [x]
  | x :: y :: rest =>
      if x = a ∧ y = b then join x y :: mergeAll join a b rest else x :: mergeAll join a b (y :: rest)

/-- A pass joins one occurrence after the other; to the left of where it stands there are none. -/
theorem mergeAll_steps (ordered : Ordered rank join) {a b : α} {least : ρ} (ranked : rank a b = some least)
    (rest front : List α)
    (low : ∀ pair ∈ adjacent (front ++ rest), ∀ other, rank pair.1 pair.2 = some other → least ≤ other)
    (earlier : ∀ pair ∈ adjacent (front ++ rest.take 1), rank pair.1 pair.2 ≠ some least) :
    ReflTransGen (Step rank join) (front ++ rest) (front ++ mergeAll join a b rest) := by
  induction rest using mergeAll.induct a b generalizing front with
  | case1 => exact .refl
  | case2 x => exact .refl
  | case3 x y rest hit ih =>
      obtain ⟨rfl, rfl⟩ := hit
      have old : ∀ pair ∈ adjacent front, pair ∈ adjacent (front ++ x :: y :: rest) := fun _ => adjacent_front _
      rw [mergeAll, if_pos ⟨rfl, rfl⟩]
      have step : Step rank join (front ++ x :: y :: rest) (front ++ join x y :: rest) := .mk ranked low earlier
      have later := ih (front ++ [join x y]) ?_ ?_
      · rw [List.append_assoc, List.append_assoc] at later
        exact .head step later
      · intro pair member other value
        rw [List.append_assoc] at member
        rcases adjacent_around member with inside | ⟨z, rfl⟩ | ⟨z, rfl⟩ | inside
        · exact low pair (old pair inside) other value
        · exact le_of_lt (ordered.right x y z least other ranked value)
        · exact le_of_lt (ordered.left x y z least other ranked value)
        · exact low pair (adjacent_back front (adjacent_of_tail (adjacent_of_tail inside))) other value
      · intro pair member value
        rw [List.append_assoc] at member
        rcases adjacent_around member with inside | ⟨z, rfl⟩ | ⟨z, rfl⟩ | inside
        · exact earlier pair (adjacent_front _ inside) value
        · exact lt_irrefl _ (ordered.right x y z least least ranked value)
        · exact lt_irrefl _ (ordered.left x y z least least ranked value)
        · cases rest <;> cases inside
  | case4 x y rest miss ih =>
      rw [mergeAll, if_neg miss]
      have later := ih (front ++ [x]) (by rwa [List.append_assoc]) ?_
      · rwa [List.append_assoc, List.append_assoc] at later
      · intro pair member value
        have shape : front ++ [x] ++ (y :: rest).take 1 = front ++ x :: [y] := by simp
        rw [shape, adjacent_split] at member
        rcases List.mem_append.mp member with inside | here
        · exact earlier pair inside value
        · rw [List.mem_singleton.mp here] at value
          exact miss (ordered.distinct x y a b least value ranked)

theorem length_mergeAll_le (a b : α) (word : List α) : (mergeAll join a b word).length ≤ word.length := by
  induction word using mergeAll.induct a b with
  | case1 => exact Nat.le_refl _
  | case2 x => exact Nat.le_refl _
  | case3 x y rest hit ih =>
      rw [mergeAll, if_pos hit, List.length_cons, List.length_cons, List.length_cons]
      omega
  | case4 x y rest miss ih =>
      rw [mergeAll, if_neg miss, List.length_cons, List.length_cons]
      exact Nat.succ_le_succ ih

/-- A pass over a word in which the pair occurs makes it shorter. -/
theorem length_mergeAll_lt {a b : α} {word : List α} (occurs : (a, b) ∈ adjacent word) :
    (mergeAll join a b word).length < word.length := by
  induction word using mergeAll.induct a b with
  | case1 => cases occurs
  | case2 x => cases occurs
  | case3 x y rest hit ih =>
      have shorter : (mergeAll join a b rest).length ≤ rest.length := length_mergeAll_le a b rest
      rw [mergeAll, if_pos hit, List.length_cons, List.length_cons, List.length_cons]
      omega
  | case4 x y rest miss ih =>
      rw [mergeAll, if_neg miss, List.length_cons, List.length_cons]
      rcases List.mem_cons.mp occurs with here | later
      · cases here
        exact absurd ⟨rfl, rfl⟩ miss
      · exact Nat.succ_lt_succ (ih later)

end Passes

end XInfer.PairMerging
