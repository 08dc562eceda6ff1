import Mathlib.Algebra.BigOperators.Intervals

/-!
The lanes of a group reduced by halves: in a turn each lane of the first half takes in the lane half a group
behind it. What the first lane has behind the last turn is made of all lanes.
-/

namespace XInfer.TreeReduction

variable {α : Type}

/-- The strides of the turns, from half the lanes down to one. -/
def strides : Nat → List Nat
  | 0 => []
  | turns + 1 => 2 ^ turns :: strides turns

/-- One turn. The lanes that are read from are not written. -/
def turn (join : α → α → α) (lanes : Nat → α) (stride : Nat) : Nat → α := fun lane =>
  if lane < stride then join (lanes lane) (lanes (lane + stride)) else lanes lane

/-- What the first of `2 ^ turns` lanes is left with. -/
def reduce (join : α → α → α) (turns : Nat) (lanes : Nat → α) : α := (strides turns).foldl (turn join) lanes 0

theorem reduce_succ (join : α → α → α) (turns : Nat) (lanes : Nat → α) :
    reduce join (turns + 1) lanes = reduce join turns (turn join lanes (2 ^ turns)) := rfl

theorem turn_here (join : α → α → α) (lanes : Nat → α) {stride lane : Nat} (inside : lane < stride) :
    turn join lanes stride lane = join (lanes lane) (lanes (lane + stride)) := if_pos inside

theorem reduce_sum {M : Type} [AddCommMonoid M] (turns : Nat) (lanes : Nat → M) :
    reduce (· + ·) turns lanes = ∑ lane ∈ Finset.range (2 ^ turns), lanes lane := by
  induction turns generalizing lanes with
  | zero => exact (Finset.sum_range_one lanes).symm
  | succ turns ih =>
      have halves : 2 ^ (turns + 1) = 2 ^ turns + 2 ^ turns := by rw [pow_succ, mul_two]
      rw [reduce_succ, ih, halves, Finset.sum_range_add, ← Finset.sum_add_distrib]
      apply Finset.sum_congr rfl
      intro lane member
      rw [turn_here _ _ (Finset.mem_range.1 member), Nat.add_comm lane]

section Selection

variable {join : α → α → α} {turns : Nat} {lanes : Nat → α}

/-- A join that is above both sides ends above all lanes. -/
theorem le_reduce {β : Type} [Preorder β] (key : α → β)
    (above : ∀ own other, key own ≤ key (join own other) ∧ key other ≤ key (join own other)) {lane : Nat}
    (inside : lane < 2 ^ turns) : key (lanes lane) ≤ key (reduce join turns lanes) := by
  induction turns generalizing lanes lane with
  | zero =>
      obtain rfl : lane = 0 := by omega
      exact le_refl _
  | succ turns ih =>
      rw [reduce_succ]
      by_cases first : lane < 2 ^ turns
      · refine le_trans ?_ (ih first)
        rw [turn_here _ _ first]
        exact (above _ _).1
      · -- the lane is taken in by the one half a group before it
        obtain ⟨own, rfl⟩ := Nat.exists_eq_add_of_le' (Nat.not_lt.1 first)
        have before : own < 2 ^ turns := by omega
        refine le_trans ?_ (ih before)
        rw [turn_here _ _ before]
        exact (above _ _).2

/-- What every join keeps on its left side, the first lane keeps. -/
theorem reduce_first {First All : α → Prop} (all : ∀ own other, All own → All other → All (join own other))
    (first : ∀ own other, First own → All other → First (join own other)) (every : ∀ lane, All (lanes lane))
    (here : First (lanes 0)) : First (reduce join turns lanes) := by
  induction turns generalizing lanes with
  | zero => exact here
  | succ turns ih =>
      rw [reduce_succ]
      apply ih
      · intro lane
        unfold turn
        split
        · exact all _ _ (every _) (every _)
        · exact every _
      · rw [turn_here _ _ (Nat.two_pow_pos turns)]
        exact first _ _ here (every _)

/-- The same for lanes that are taken in one after the other. -/
theorem le_foldl {ι β : Type} [Preorder β] (key : α → β)
    (above : ∀ own other, key own ≤ key (join own other) ∧ key other ≤ key (join own other)) (items : List ι)
    (found : ι → α) (start : α) :
    let result := items.foldl (fun best item => join best (found item)) start
    key start ≤ key result ∧ ∀ item ∈ items, key (found item) ≤ key result := by
  induction items generalizing start with
  | nil => exact ⟨le_refl _, fun item member => nomatch member⟩
  | cons first rest ih =>
      obtain ⟨kept, later⟩ := ih (join start (found first))
      constructor
      · exact (above _ _).1.trans kept
      · intro item member
        rcases List.mem_cons.1 member with rfl | behind
        · exact (above _ _).2.trans kept
        · exact later item behind

end Selection

end XInfer.TreeReduction
