import Mathlib.Order.Lattice
import Mathlib.Tactic.Common

/-!
Finite maps as lists of entries with ascending keys, in the order an ordered map iterates.
-/

namespace XInfer.SortedMap

structure OrderedMap (κ ν : Type) [LinearOrder κ] where
  entries : List (κ × ν)
  sorted : (entries.map Prod.fst).Pairwise (· < ·)

variable {κ ν : Type} [LinearOrder κ]

theorem OrderedMap.ext {left right : OrderedMap κ ν} (same : left.entries = right.entries) : left = right := by
  cases left
  cases right
  cases same
  rfl

instance [DecidableEq κ] [DecidableEq ν] : DecidableEq (OrderedMap κ ν) := fun left right =>
  decidable_of_iff (left.entries = right.entries) ⟨OrderedMap.ext, fun same => same ▸ rfl⟩

def OrderedMap.empty : OrderedMap κ ν := ⟨[], List.Pairwise.nil⟩

def insertEntry (key : κ) (value : ν) : List (κ × ν) → List (κ × ν)
  | [] => [(key, value)]
  | (k, v) :: rest =>
      if key < k then (key, value) :: (k, v) :: rest
      else if k < key then (k, v) :: insertEntry key value rest
      else (key, value) :: rest

theorem insertEntry_keys (key : κ) (value : ν) (entries : List (κ × ν)) {k : κ}
    (member : k ∈ (insertEntry key value entries).map Prod.fst) : k = key ∨ k ∈ entries.map Prod.fst := by
  induction entries with
  | nil => simpa [insertEntry] using member
  | cons entry rest ih =>
      obtain ⟨head, v⟩ := entry
      rw [insertEntry] at member
      split at member
      · simpa using member
      · split at member
        · rcases List.mem_cons.mp member with here | later
          · exact Or.inr (here ▸ List.mem_cons_self)
          · exact (ih later).imp_right fun inside => List.mem_cons_of_mem _ inside
        · rcases List.mem_cons.mp member with here | later
          · exact Or.inl here
          · exact Or.inr (List.mem_cons_of_mem _ later)

theorem insertEntry_sorted (key : κ) (value : ν) {entries : List (κ × ν)}
    (sorted : (entries.map Prod.fst).Pairwise (· < ·)) :
    ((insertEntry key value entries).map Prod.fst).Pairwise (· < ·) := by
  induction entries with
  | nil => simp [insertEntry]
  | cons entry rest ih =>
      obtain ⟨head, v⟩ := entry
      obtain ⟨least, tail⟩ := List.pairwise_cons.mp sorted
      rw [insertEntry]
      split
      · rename_i before
        refine List.pairwise_cons.mpr ⟨fun k member => ?_, sorted⟩
        rcases List.mem_cons.mp member with here | later
        · exact here ▸ before
        · exact lt_trans before (least k later)
      · rename_i notBefore
        split
        · rename_i behind
          refine List.pairwise_cons.mpr ⟨fun k member => ?_, ih tail⟩
          rcases insertEntry_keys key value rest member with rfl | inside
          · exact behind
          · exact least k inside
        · rename_i notBehind
          have same : key = head := le_antisymm (not_lt.mp notBehind) (not_lt.mp notBefore)
          subst same
          exact sorted

def OrderedMap.insert (map : OrderedMap κ ν) (key : κ) (value : ν) : OrderedMap κ ν :=
  ⟨insertEntry key value map.entries, insertEntry_sorted key value map.sorted⟩

omit [LinearOrder κ] in
theorem lookup_other [BEq κ] [LawfulBEq κ] {k key : κ} (other : k ≠ key) (value : ν) (entries : List (κ × ν)) :
    ((key, value) :: entries).lookup k = entries.lookup k := by
  rw [List.lookup_cons, beq_false_of_ne other]

theorem lookup_insertEntry [BEq κ] [LawfulBEq κ] (key : κ) (value : ν) (entries : List (κ × ν)) (k : κ) :
    (insertEntry key value entries).lookup k = if k = key then some value else entries.lookup k := by
  have front (rest : List (κ × ν)) : ((key, value) :: rest).lookup k = if k = key then some value else rest.lookup k := by
    split
    · rename_i here
      rw [here, List.lookup_cons_self]
    · rename_i other
      exact lookup_other other value rest
  induction entries with
  | nil => exact front []
  | cons entry rest ih =>
      obtain ⟨head, v⟩ := entry
      rw [insertEntry]
      split
      · exact front _
      · rename_i notBefore
        split
        · rename_i behind
          by_cases first : k = head
          · rw [first, List.lookup_cons_self, List.lookup_cons_self, if_neg (ne_of_lt behind)]
          · rw [lookup_other first, lookup_other first, ih]
        · rename_i notBehind
          have same : key = head := le_antisymm (not_lt.mp notBehind) (not_lt.mp notBefore)
          rw [front, same]
          split
          · rfl
          · rename_i other
            rw [lookup_other other]

/-- A key above all others goes to the end. -/
theorem insertEntry_last {key : κ} (value : ν) {entries : List (κ × ν)}
    (above : ∀ k ∈ entries.map Prod.fst, k < key) :
    insertEntry key value entries = entries ++ [(key, value)] := by
  induction entries with
  | nil => rfl
  | cons entry rest ih =>
      obtain ⟨head, v⟩ := entry
      have here : head < key := above head List.mem_cons_self
      have later := ih fun k member => above k (List.mem_cons_of_mem _ member)
      rw [insertEntry, if_neg (not_lt.mpr (le_of_lt here)), if_pos here, later]
      rfl

/-- Entering the entries of a map one by one, in order, behind those that are there. -/
theorem foldl_insertEntry (front back : List (κ × ν))
    (sorted : ((front ++ back).map Prod.fst).Pairwise (· < ·)) :
    back.foldl (fun entries entry => insertEntry entry.1 entry.2 entries) front = front ++ back := by
  induction back generalizing front with
  | nil => simp
  | cons entry rest ih =>
      have above : ∀ k ∈ front.map Prod.fst, k < entry.1 := by
        intro k member
        rw [List.map_append] at sorted
        exact (List.pairwise_append.mp sorted).2.2 k member entry.1 List.mem_cons_self
      rw [List.foldl_cons, insertEntry_last entry.2 above, ih]
      · simp
      · simpa using sorted

end XInfer.SortedMap
