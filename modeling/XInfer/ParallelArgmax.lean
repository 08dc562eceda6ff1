import XInfer.Argmax
import XInfer.TreeReduction
import Mathlib.Order.BoundedOrder.Basic

/-!
`argmax` of `ops/sampling.cpp` with its sentinels: a lane behind the vocabulary has minus infinity and the index -1.
Over a linear order with a least element the answer is the index of a maximum. The lanes of `Argmax` are these
without the sentinels.
-/

namespace XInfer.ParallelArgmax

open Argmax (WG_SIZE numWgs)
open Launches TreeReduction

section Kernel

variable {F : Type} (less : F → F → Bool) (negInf : F)

/-- `local_max` and `local_idx` of a lane. -/
abbrev Entry (F : Type) : Type := F × Int

/-- The other entry where its value is greater. -/
def higher (own other : Entry F) : Entry F := if less own.1 other.1 = true then other else own

/-- One array of values and one of indices. -/
structure Scratch (F : Type) where
  max : Nat → F
  idx : Nat → Int

/-- The buffers of the caller, or two that are allocated in the call. -/
def scratchOf (partialMax : Option (Nat → F)) (partialIdx : Option (Nat → Int)) (allocated : Scratch F) : Scratch F :=
  match partialMax, partialIdx with
  | some max, some idx => ⟨max, idx⟩
  | _, _ => allocated

variable (logits : Nat → F) (vocabSize : Nat)

def load (wgId localI : Nat) : Entry F :=
  let globalI := wgId * WG_SIZE + localI
  if globalI < vocabSize then (logits globalI, (globalI : Int)) else (negInf, -1)

/-- What the first of the 2 ^ 8 lanes has at the end. -/
def groupMax (wgId : Nat) : Entry F := reduce (higher less) 8 (load negInf logits vocabSize wgId)

/-- The first stage: the first lane of each group stores. -/
def partials (p : Scratch F) : Scratch F where
  max := launch (numWgs vocabSize) (fun wgId => [(wgId, (groupMax less negInf logits vocabSize wgId).1)]) p.max
  idx := launch (numWgs vocabSize) (fun wgId => [(wgId, (groupMax less negInf logits vocabSize wgId).2)]) p.idx

/-- The second stage, on the host. -/
def best (p : Scratch F) : Entry F :=
  (List.range' 1 (numWgs vocabSize - 1)).foldl (fun best i => higher less best (p.max i, p.idx i)) (p.max 0, p.idx 0)

def argmax (partialMax : Option (Nat → F)) (partialIdx : Option (Nat → Int)) (allocated : Scratch F) : Int :=
  if vocabSize = 0 then 0
  else if vocabSize = 1 then 0
  else (best less vocabSize (partials less negInf logits vocabSize (scratchOf partialMax partialIdx allocated))).2

variable {less negInf logits vocabSize}

theorem partials_here (p : Scratch F) {wgId : Nat} (inside : wgId < numWgs vocabSize) :
    ((partials less negInf logits vocabSize p).max wgId, (partials less negInf logits vocabSize p).idx wgId) =
      groupMax less negInf logits vocabSize wgId := by
  have value := each_here inside (fun wgId => (groupMax less negInf logits vocabSize wgId).1) p.max
  have index := each_here inside (fun wgId => (groupMax less negInf logits vocabSize wgId).2) p.idx
  exact Prod.ext value index

/-- The scratch memory does not matter. -/
theorem best_partials (p : Scratch F) (some' : 0 < vocabSize) :
    best less vocabSize (partials less negInf logits vocabSize p) =
      (List.range' 1 (numWgs vocabSize - 1)).foldl
        (fun best i => higher less best (groupMax less negInf logits vocabSize i))
        (groupMax less negInf logits vocabSize 0) := by
  have groups : 0 < numWgs vocabSize := by
    simp only [numWgs, WG_SIZE]
    omega
  unfold best
  rw [partials_here p groups]
  apply List.foldl_ext
  intro best i member
  have bounds := List.mem_range'_1.1 member
  rw [partials_here p (by omega)]

end Kernel

section Maximum

variable {F : Type} [LinearOrder F] [OrderBot F] {logits : Nat → F} {vocabSize : Nat}

/-- The comparison of the kernel, and its minus infinity. -/
abbrev below (x y : F) : Bool := decide (x < y)

/-- An index of the vocabulary with its logit. -/
def Indexed (logits : Nat → F) (vocabSize : Nat) (entry : Entry F) : Prop :=
  ∃ i < vocabSize, entry = (logits i, (i : Int))

/-- What a lane can have. -/
def Loaded (logits : Nat → F) (vocabSize : Nat) (entry : Entry F) : Prop :=
  Indexed logits vocabSize entry ∨ entry = (⊥, -1)

omit [OrderBot F] in
theorem higher_above (own other : Entry F) :
    own.1 ≤ (higher below own other).1 ∧ other.1 ≤ (higher below own other).1 := by
  unfold higher
  split
  next greater => exact ⟨(of_decide_eq_true greater).le, le_refl _⟩
  next notGreater => exact ⟨le_refl _, not_lt.1 fun greater => notGreater (decide_eq_true greater)⟩

/-- A sentinel is above nothing. -/
theorem higher_indexed {own other : Entry F} (here : Indexed logits vocabSize own)
    (loaded : Loaded logits vocabSize other) : Indexed logits vocabSize (higher below own other) := by
  unfold higher
  split
  next greater =>
    rcases loaded with indexed | rfl
    · exact indexed
    · exact absurd (of_decide_eq_true greater) not_lt_bot
  next => exact here

theorem higher_loaded {own other : Entry F} (first : Loaded logits vocabSize own)
    (second : Loaded logits vocabSize other) : Loaded logits vocabSize (higher below own other) := by
  unfold higher
  split
  · exact second
  · exact first

theorem load_loaded (wgId localI : Nat) : Loaded logits vocabSize (load ⊥ logits vocabSize wgId localI) := by
  unfold load
  dsimp only
  split
  next inside => exact .inl ⟨_, inside, rfl⟩
  next => exact .inr rfl

/-- A group with a lane in the vocabulary ends with the greatest logit of its lanes. -/
theorem groupMax_attained {wgId : Nat} (filled : wgId * WG_SIZE < vocabSize) :
    Indexed logits vocabSize (groupMax below ⊥ logits vocabSize wgId) ∧
      ∀ localI < WG_SIZE, wgId * WG_SIZE + localI < vocabSize →
        logits (wgId * WG_SIZE + localI) ≤ (groupMax below ⊥ logits vocabSize wgId).1 := by
  constructor
  · apply reduce_first (fun _ _ => higher_loaded) (fun _ _ => higher_indexed) (load_loaded wgId)
    rw [load, Nat.add_zero, if_pos filled]
    exact ⟨_, filled, rfl⟩
  · intro localI lane inside
    have entry : load ⊥ logits vocabSize wgId localI = (logits (wgId * WG_SIZE + localI), _) := if_pos inside
    have early : localI < 2 ^ 8 := lane
    have above : (load ⊥ logits vocabSize wgId localI).1 ≤ (groupMax below ⊥ logits vocabSize wgId).1 :=
      le_reduce Prod.fst higher_above early
    rwa [entry] at above

/-- The groups have the whole vocabulary. -/
theorem group_inside {i : Nat} (inside : i < vocabSize) :
    i / WG_SIZE < numWgs vocabSize ∧ i / WG_SIZE * WG_SIZE < vocabSize := by
  simp only [numWgs, WG_SIZE]
  omega

theorem argmax_attained (logits : Nat → F) {vocabSize : Nat} (filled : 0 < vocabSize)
    (partialMax : Option (Nat → F)) (partialIdx : Option (Nat → Int)) (allocated : Scratch F) :
    ∃ index < vocabSize, argmax below ⊥ logits vocabSize partialMax partialIdx allocated = (index : Int) ∧
      ∀ i < vocabSize, logits i ≤ logits index := by
  unfold argmax
  rw [if_neg (Nat.ne_of_gt filled)]
  by_cases single : vocabSize = 1
  · refine ⟨0, filled, if_pos single, ?_⟩
    intro i inside
    obtain rfl : i = 0 := by omega
    exact le_refl _
  · rw [if_neg single, best_partials _ filled]
    have groups : ∀ wgId < numWgs vocabSize, wgId * WG_SIZE < vocabSize := by
      intro wgId inside
      simp only [numWgs, WG_SIZE] at inside ⊢
      omega
    have found : Indexed logits vocabSize ((List.range' 1 (numWgs vocabSize - 1)).foldl
        (fun best i => higher below best (groupMax below ⊥ logits vocabSize i)) (groupMax below ⊥ logits vocabSize 0)) := by
      apply List.foldlRecOn (motive := Indexed logits vocabSize)
      · exact (groupMax_attained (by omega)).1
      · intro best indexed i member
        have bounds := List.mem_range'_1.1 member
        exact higher_indexed indexed (.inl (groupMax_attained (groups i (by omega))).1)
    obtain ⟨first, later⟩ := le_foldl Prod.fst higher_above (List.range' 1 (numWgs vocabSize - 1))
      (groupMax below ⊥ logits vocabSize) (groupMax below ⊥ logits vocabSize 0)
    obtain ⟨index, inside, same⟩ := found
    rw [same] at first later ⊢
    refine ⟨index, inside, rfl, ?_⟩
    intro i member
    obtain ⟨group, start⟩ := group_inside member
    have lane : logits (i / WG_SIZE * WG_SIZE + i % WG_SIZE) ≤ (groupMax below ⊥ logits vocabSize (i / WG_SIZE)).1 :=
      (groupMax_attained start).2 _ (Nat.mod_lt _ (by decide)) (by rwa [Nat.div_add_mod'])
    rw [Nat.div_add_mod'] at lane
    rcases Nat.eq_zero_or_pos (i / WG_SIZE) with zero | positive
    · rw [zero] at lane
      exact lane.trans first
    · generalize i / WG_SIZE = wgId at *
      exact lane.trans (later _ (List.mem_range'_1.2 (by omega)))

/-- Nothing but minus infinity, in two groups and with the scratch memory of the caller. -/
theorem argmax_attained_bottom : ∃ index : Nat, index < 300 ∧
    argmax below ⊥ (fun _ => (0 : Nat)) 300 (some fun _ => 7) (some fun _ => 7) ⟨fun _ => 5, fun _ => 5⟩ = (index : Int) ∧
      ∀ i < 300, (fun _ => (0 : Nat)) i ≤ (fun _ => (0 : Nat)) index :=
  argmax_attained _ (by decide) _ _ _

end Maximum

section Lanes

variable {F : Type} {less : F → F → Bool} {negInf : F}

/-- A lane without an index has the sentinels. -/
def entryOf (negInf : F) (lane : Argmax.Lane F) : Entry F := lane.getD (negInf, -1)

/-- The lanes behind one without an index have none either. -/
def Closed (lanes : Nat → Argmax.Lane F) : Prop := ∀ lane other, lane ≤ other → lanes lane = none → lanes other = none

theorem entryOf_higher (least : ∀ x, less x negInf = false) {own other : Argmax.Lane F}
    (closed : own = none → other = none) :
    higher less (entryOf negInf own) (entryOf negInf other) =
      entryOf negInf (if Argmax.above less other own = true then other else own) := by
  cases own with
  | none =>
      rw [closed rfl]
      simp [higher, entryOf, Argmax.above, least]
  | some x =>
      cases other with
      | none => simp [higher, entryOf, Argmax.above, least]
      | some y =>
          by_cases greater : less x.1 y.1 = true <;> simp [higher, entryOf, Argmax.above, greater]

theorem reduceLanes_none {lanes : Nat → Argmax.Lane F} (closed : Closed lanes) (stride lane : Nat) :
    Argmax.reduceLanes less lanes stride lane = none ↔ lanes lane = none := by
  unfold Argmax.reduceLanes
  split
  next taken =>
    obtain ⟨pair, other⟩ := Option.isSome_iff_exists.1 (Argmax.above_isSome taken.2)
    rw [other]
    refine iff_of_false (fun contra => nomatch contra) fun own => ?_
    rw [closed lane _ (Nat.le_add_right _ _) own] at other
    cases other
  next => exact Iff.rfl

/-- A turn on the lanes is a turn on their entries. -/
theorem reduceLanes_entries (least : ∀ x, less x negInf = false) {lanes : Nat → Argmax.Lane F} (closed : Closed lanes)
    (stride : Nat) :
    turn (higher less) (fun lane => entryOf negInf (lanes lane)) stride =
        (fun lane => entryOf negInf (Argmax.reduceLanes less lanes stride lane)) ∧
      Closed (Argmax.reduceLanes less lanes stride) := by
  constructor
  · funext lane
    unfold turn Argmax.reduceLanes
    by_cases inside : lane < stride
    · rw [if_pos inside, entryOf_higher least (closed lane _ (Nat.le_add_right _ _))]
      simp only [inside, true_and]
    · simp only [inside, false_and, if_false]
  · intro lane other le none'
    rw [reduceLanes_none closed] at none' ⊢
    exact closed lane other le none'

theorem reduce_entries (least : ∀ x, less x negInf = false) (strides : List Nat) {lanes : Nat → Argmax.Lane F}
    (closed : Closed lanes) :
    strides.foldl (turn (higher less)) (fun lane => entryOf negInf (lanes lane)) =
      fun lane => entryOf negInf (strides.foldl (Argmax.reduceLanes less) lanes lane) := by
  induction strides generalizing lanes with
  | nil => rfl
  | cons stride rest ih =>
      obtain ⟨turned, kept⟩ := reduceLanes_entries least closed stride
      rw [List.foldl_cons, List.foldl_cons, turned]
      exact ih kept

variable {logits : Nat → F} {vocabSize : Nat}

theorem load_closed (wgId : Nat) : Closed (Argmax.load logits vocabSize wgId) := by
  intro lane other le none'
  unfold Argmax.load at none' ⊢
  dsimp only at none' ⊢
  by_cases inside : wgId * WG_SIZE + lane < vocabSize
  · rw [if_pos inside] at none'
    cases none'
  · rw [if_neg (by omega)]

theorem groupMax_lanes (least : ∀ x, less x negInf = false) (wgId : Nat) :
    groupMax less negInf logits vocabSize wgId = entryOf negInf (Argmax.groupMax less logits vocabSize wgId) := by
  have entries : load negInf logits vocabSize wgId =
      fun lane => entryOf negInf (Argmax.load logits vocabSize wgId lane) := by
    funext lane
    unfold load Argmax.load
    dsimp only
    split <;> rfl
  unfold groupMax reduce
  rw [entries, reduce_entries least _ (load_closed wgId)]
  rfl

/-- The turns on the host, from a lane with an index. -/
theorem foldl_entries (least : ∀ x, less x negInf = false) (found : Nat → Argmax.Lane F) (groups : List Nat)
    {start : Argmax.Lane F} (held : start.isSome) :
    groups.foldl (fun best i => higher less best (entryOf negInf (found i))) (entryOf negInf start) =
      entryOf negInf (groups.foldl (fun best i => if Argmax.above less (found i) best = true then found i else best)
        start) := by
  induction groups generalizing start with
  | nil => rfl
  | cons i rest ih =>
      have first : start = none → found i = none := by
        rintro rfl
        cases held
      rw [List.foldl_cons, List.foldl_cons, entryOf_higher least first]
      apply ih
      split
      next preferred => exact Argmax.above_isSome preferred
      next => exact held

/-- The sentinels make no difference to the answer, as long as nothing is below minus infinity. -/
theorem argmax_lanes (least : ∀ x, less x negInf = false) (logits : Nat → F) (vocabSize : Nat)
    (partialMax : Option (Nat → F)) (partialIdx : Option (Nat → Int)) (allocated : Scratch F)
    (scratch : Nat → Argmax.Lane F) :
    argmax less negInf logits vocabSize partialMax partialIdx allocated =
      Argmax.argmax less logits vocabSize scratch := by
  unfold argmax Argmax.argmax
  by_cases small : vocabSize ≤ 1
  · have sizes : vocabSize = 0 ∨ vocabSize = 1 := by omega
    rcases sizes with rfl | rfl <;> rfl
  · have some' : 0 < vocabSize := by omega
    have start : 0 * WG_SIZE < vocabSize := by omega
    rw [if_neg (by omega), if_neg (by omega), if_neg small, best_partials _ some', Argmax.best_partials _ some']
    simp only [groupMax_lanes least]
    rw [foldl_entries least _ _ (Argmax.groupMax_loaded less logits start).2, ← Argmax.best]
    cases Argmax.best less vocabSize (Argmax.groupMax less logits vocabSize) <;> rfl

end Lanes

section Greatest

variable {F : Type} [LinearOrder F] {logits : Nat → F} {vocabSize : Nat}

/-- A lane without an index is below all others. -/
def level (lane : Argmax.Lane F) : WithBot F := lane.elim ⊥ fun found => (found.1 : WithBot F)

/-- The other lane where it is above. -/
def picked (own other : Argmax.Lane F) : Argmax.Lane F := if Argmax.above below other own = true then other else own

theorem picked_level (own other : Argmax.Lane F) :
    level own ≤ level (picked own other) ∧ level other ≤ level (picked own other) := by
  unfold picked
  cases other with
  | none => exact ⟨le_refl _, bot_le⟩
  | some y =>
      cases own with
      | none => exact ⟨bot_le, le_refl _⟩
      | some x =>
          have compared : Argmax.above below (some y) (some x) = decide (x.1 < y.1) := rfl
          rw [compared]
          by_cases greater : x.1 < y.1
          · rw [if_pos (decide_eq_true greater)]
            exact ⟨WithBot.coe_le_coe.2 greater.le, le_refl _⟩
          · rw [if_neg fun taken => greater (of_decide_eq_true taken)]
            exact ⟨le_refl _, WithBot.coe_le_coe.2 (not_lt.1 greater)⟩

/-- What the index of a lane stands for. -/
def Held (logits : Nat → F) (vocabSize : Nat) (lane : Argmax.Lane F) : Prop :=
  ∀ found ∈ lane, ∃ i < vocabSize, found = (logits i, (i : Int))

theorem picked_held {own other : Argmax.Lane F} (first : Held logits vocabSize own) (second : Held logits vocabSize other) :
    Held logits vocabSize (picked own other) := by
  unfold picked
  split
  · exact second
  · exact first

theorem groupMax_picked (wgId : Nat) : Argmax.groupMax below logits vocabSize wgId =
    reduce picked 8 (Argmax.load logits vocabSize wgId) := by
  have turns : Argmax.reduceLanes (below (F := F)) = turn picked := by
    funext lanes stride lane
    unfold Argmax.reduceLanes turn picked
    by_cases inside : lane < stride <;> simp [inside]
  unfold Argmax.groupMax reduce
  rw [turns]
  rfl

variable (logits vocabSize) in
theorem groupMax_greatest (wgId : Nat) : Held logits vocabSize (Argmax.groupMax below logits vocabSize wgId) ∧
    ∀ localI < WG_SIZE, wgId * WG_SIZE + localI < vocabSize →
      (logits (wgId * WG_SIZE + localI) : WithBot F) ≤ level (Argmax.groupMax below logits vocabSize wgId) := by
  rw [groupMax_picked]
  have every : ∀ lane, Held logits vocabSize (Argmax.load logits vocabSize wgId lane) := by
    intro lane found member
    unfold Argmax.load at member
    dsimp only at member
    split at member
    next inside => exact ⟨_, inside, (Option.some.inj member).symm⟩
    next => cases member
  constructor
  · exact reduce_first (fun _ _ => picked_held) (fun _ _ => picked_held) every (every 0)
  · intro localI lane inside
    have loaded : Argmax.load logits vocabSize wgId localI = some (logits (wgId * WG_SIZE + localI), _) := if_pos inside
    have early : localI < 2 ^ 8 := lane
    have above : level (Argmax.load logits vocabSize wgId localI) ≤ _ := le_reduce level picked_level early
    rwa [loaded] at above

variable (logits) in
/-- The answer without sentinels is the index of a greatest logit as well. -/
theorem argmax_greatest (filled : 0 < vocabSize) (scratch : Nat → Argmax.Lane F) :
    ∃ index < vocabSize, Argmax.argmax below logits vocabSize scratch = (index : Int) ∧
      ∀ i < vocabSize, logits i ≤ logits index := by
  unfold Argmax.argmax
  by_cases single : vocabSize ≤ 1
  · refine ⟨0, filled, if_pos single, fun i inside => ?_⟩
    obtain rfl : i = 0 := by omega
    exact le_refl _
  · rw [if_neg single, Argmax.best_partials scratch filled]
    obtain ⟨-, some'⟩ := Argmax.best_loaded below logits filled
    have held : Held logits vocabSize (Argmax.best below vocabSize (Argmax.groupMax below logits vocabSize)) :=
      List.foldlRecOn (motive := Held logits vocabSize) _ _ (groupMax_greatest logits vocabSize 0).1
        fun _ before i _ => picked_held before (groupMax_greatest logits vocabSize i).1
    obtain ⟨first, later⟩ := le_foldl level picked_level (List.range' 1 (numWgs vocabSize - 1))
      (Argmax.groupMax below logits vocabSize) (Argmax.groupMax below logits vocabSize 0)
    obtain ⟨lane, found⟩ := Option.isSome_iff_exists.1 some'
    obtain ⟨index, inside, rfl⟩ := held lane found
    have top : level (Argmax.best below vocabSize (Argmax.groupMax below logits vocabSize)) = (logits index : WithBot F) := by
      rw [found]
      rfl
    rw [found]
    refine ⟨index, inside, rfl, fun i member => ?_⟩
    apply WithBot.coe_le_coe.1
    rw [← top]
    obtain ⟨group, -⟩ := group_inside member
    have lane := (groupMax_greatest logits vocabSize (i / WG_SIZE)).2 (i % WG_SIZE) (Nat.mod_lt _ (by decide))
      (by rwa [Nat.div_add_mod'])
    rw [Nat.div_add_mod'] at lane
    rcases Nat.eq_zero_or_pos (i / WG_SIZE) with zero | positive
    · rw [zero] at lane
      exact lane.trans first
    · exact lane.trans (later _ (List.mem_range'_1.2 (by omega)))

end Greatest

end XInfer.ParallelArgmax
