import XInfer.Launches

/-!
`argmax` of `ops/sampling.cpp`: each group of 256 lanes is reduced pairwise, and the host reduces the results of
the groups. A lane behind the vocabulary has minus infinity and the index -1, and no comparison prefers it; it is
`none` here. Nothing is asked of the comparison of logits.
-/

namespace XInfer.Argmax

open Launches

variable {F : Type} (less : F → F → Bool)

def WG_SIZE : Nat := 256

/-- A logit and its index. -/
abbrev Lane (F : Type) : Type := Option (F × Int)

/-- Whether the first lane is above the second one. -/
def above : Lane F → Lane F → Bool
  | none, _ => false
  | some _, none => true
  | some x, some y => less y.1 x.1

/-- From `WG_SIZE / 2`, halved while positive. -/
def strides : List Nat := [128, 64, 32, 16, 8, 4, 2, 1]

/-- One turn of the tree. The lanes that are read from are not written. -/
def reduceLanes (lanes : Nat → Lane F) (stride : Nat) : Nat → Lane F := fun lane =>
  if lane < stride ∧ above less (lanes (lane + stride)) (lanes lane) = true then lanes (lane + stride) else lanes lane

variable (logits : Nat → F) (vocabSize : Nat)

def load (wgId lane : Nat) : Lane F :=
  let i := wgId * WG_SIZE + lane
  if i < vocabSize then some (logits i, i) else none

/-- What a group stores. -/
def groupMax (wgId : Nat) : Lane F := strides.foldl (reduceLanes less) (load logits vocabSize wgId) 0

def numWgs : Nat := (vocabSize + WG_SIZE - 1) / WG_SIZE

/-- The results of the groups, in scratch memory. -/
def partials (scratch : Nat → Lane F) : Nat → Lane F :=
  launch (numWgs vocabSize) (fun wgId => [(0 + wgId, groupMax less logits vocabSize wgId)]) scratch

/-- The turns on the host. -/
def best (found : Nat → Lane F) : Lane F :=
  (List.range' 1 (numWgs vocabSize - 1)).foldl
    (fun best i => if above less (found i) best = true then found i else best) (found 0)

def argmax (scratch : Nat → Lane F) : Int :=
  if vocabSize ≤ 1 then 0
  else match best less vocabSize (partials less logits vocabSize scratch) with
    | none => -1
    | some found => found.2

section Range

variable {less logits vocabSize}

/-- A lane with an index of the vocabulary, or none. -/
def Indexed (vocabSize : Nat) (lane : Lane F) : Prop := ∀ found ∈ lane, 0 ≤ found.2 ∧ found.2 < vocabSize

/-- Indices of the vocabulary, and one in the first lane. -/
structure Loaded (vocabSize : Nat) (lanes : Nat → Lane F) : Prop where
  indexed : ∀ lane, Indexed vocabSize (lanes lane)
  first : (lanes 0).isSome

variable (logits) in
theorem loaded (wgId : Nat) (filled : wgId * WG_SIZE < vocabSize) : Loaded vocabSize (load logits vocabSize wgId) where
  indexed lane found member := by
    unfold load at member
    dsimp only at member
    split at member
    · obtain rfl := Option.some.inj member
      dsimp only
      omega
    · simp at member
  first := by
    unfold load
    rw [Nat.add_zero, if_pos filled]
    rfl

theorem above_isSome {x y : Lane F} (preferred : above less x y = true) : x.isSome := by
  cases x with
  | none => simp [above] at preferred
  | some _ => rfl

/-- A turn keeps the indices, and a result in the first lane. -/
theorem reduceLanes_loaded {lanes : Nat → Lane F} (before : Loaded vocabSize lanes) (stride : Nat) :
    Loaded vocabSize (reduceLanes less lanes stride) where
  indexed lane := by
    unfold reduceLanes
    split
    · exact before.indexed _
    · exact before.indexed _
  first := by
    unfold reduceLanes
    split
    next preferred => exact above_isSome preferred.2
    next => exact before.first

variable (less logits) in
theorem groupMax_loaded {wgId : Nat} (filled : wgId * WG_SIZE < vocabSize) :
    Indexed vocabSize (groupMax less logits vocabSize wgId) ∧ (groupMax less logits vocabSize wgId).isSome := by
  have result := List.foldlRecOn (motive := Loaded vocabSize) strides (reduceLanes less) (loaded logits wgId filled)
    fun _ before stride _ => reduceLanes_loaded before stride
  exact ⟨result.indexed 0, result.first⟩

theorem partials_here (scratch : Nat → Lane F) {wgId : Nat} (inside : wgId < numWgs vocabSize) :
    partials less logits vocabSize scratch wgId = groupMax less logits vocabSize wgId := by
  have written := row_here 0 inside (groupMax less logits vocabSize) scratch
  rwa [Nat.zero_add] at written

/-- The scratch memory does not matter. -/
theorem best_partials (scratch : Nat → Lane F) (some' : 0 < vocabSize) :
    best less vocabSize (partials less logits vocabSize scratch) =
      best less vocabSize (groupMax less logits vocabSize) := by
  have groups : 0 < numWgs vocabSize := by
    simp only [numWgs, WG_SIZE]
    omega
  unfold best
  rw [partials_here scratch groups]
  refine List.foldl_ext _ _ _ fun best i member => ?_
  rw [partials_here scratch (by have := List.mem_range'_1.1 member; omega)]

theorem argmax_scratch (scratch scratch' : Nat → Lane F) :
    argmax less logits vocabSize scratch = argmax less logits vocabSize scratch' := by
  unfold argmax
  split
  next => rfl
  next many => rw [best_partials scratch (by omega), best_partials scratch' (by omega)]

variable (less logits) in
/-- The turns on the host keep an index as well. -/
theorem best_loaded (some' : 0 < vocabSize) :
    let result := best less vocabSize (groupMax less logits vocabSize)
    Indexed vocabSize result ∧ result.isSome := by
  have group : ∀ wgId < numWgs vocabSize, wgId * WG_SIZE < vocabSize := by
    intro wgId inside
    simp only [numWgs, WG_SIZE] at inside ⊢
    omega
  have groups : 0 < numWgs vocabSize := by
    simp only [numWgs, WG_SIZE]
    omega
  apply List.foldlRecOn (motive := fun found => Indexed vocabSize found ∧ found.isSome)
  · exact groupMax_loaded less logits (group 0 groups)
  · intro found before i member
    have bounds := List.mem_range'_1.1 member
    split
    · exact groupMax_loaded less logits (group i (by omega))
    · exact before

/-- The answer is an index of the vocabulary, whatever the logits compare like. -/
theorem argmax_range (some' : 0 < vocabSize) (scratch : Nat → Lane F) :
    0 ≤ argmax less logits vocabSize scratch ∧ argmax less logits vocabSize scratch < vocabSize := by
  unfold argmax
  split
  next => omega
  next many =>
    obtain ⟨indexed, found⟩ := best_loaded less logits some'
    obtain ⟨lane, same⟩ := Option.isSome_iff_exists.1 found
    rw [best_partials scratch some', same]
    exact indexed lane same

end Range

end XInfer.Argmax
