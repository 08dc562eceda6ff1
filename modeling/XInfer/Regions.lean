import Mathlib.Tactic.Common
import Mathlib.Data.List.Basic
import Mathlib.Algebra.Order.Group.Nat
import Mathlib.Algebra.GroupWithZero.Nat

/-!
Regions that a moving pointer cuts from one block: each begins where the one before it ends. A layer is a
row of parts, and the layers follow one another.
-/

namespace XInfer.Regions

variable {κ : Type}

structure Region (κ : Type) where
  kind : κ
  layer : Nat
  start : Nat
  size : Nat
  deriving DecidableEq

def Region.Holds (region : Region κ) (address : Nat) : Prop :=
  region.start ≤ address ∧ address < region.start + region.size

/-- No address lies in both. -/
def Apart (left right : Region κ) : Prop := ∀ address, ¬ (left.Holds address ∧ right.Holds address)

/-- The parts of one layer from the pointer on. -/
def place (layer : Nat) : Nat → List (κ × Nat) → List (Region κ)
  | _, [] => []
  | ptr, (kind, size) :: rest => ⟨kind, layer, ptr, size⟩ :: place layer (ptr + size) rest

def rowSize (parts : List (κ × Nat)) : Nat := (parts.map Prod.snd).sum

/-- The loop over so many layers, with its pointer. -/
def walk (parts : List (κ × Nat)) : Nat → Nat → Nat → List (Region κ)
  | 0, _, _ => []
  | count + 1, layer, ptr => place layer ptr parts ++ walk parts count (layer + 1) (ptr + rowSize parts)

/-- The regions follow one another from the first address to the last. -/
def Spans : Nat → Nat → List (Region κ) → Prop
  | first, last, [] => first = last
  | first, last, region :: rest => region.start = first ∧ Spans (first + region.size) last rest

@[simp] theorem rowSize_nil : rowSize ([] : List (κ × Nat)) = 0 := rfl

@[simp] theorem rowSize_cons (part : κ × Nat) (parts : List (κ × Nat)) :
    rowSize (part :: parts) = part.2 + rowSize parts := List.sum_cons

section Spanning

variable {first middle last : Nat} {regions front back : List (Region κ)}

theorem Spans.append (left : Spans first middle front) (right : Spans middle last back) :
    Spans first last (front ++ back) := by
  induction front generalizing first with
  | nil =>
      cases left
      exact right
  | cons region rest ih => exact ⟨left.1, ih left.2⟩

theorem Spans.le (spans : Spans first last regions) : first ≤ last := by
  induction regions generalizing first with
  | nil => exact Nat.le_of_eq spans
  | cons region rest ih =>
      have tail := ih spans.2
      omega

theorem Spans.holds_iff (spans : Spans first last regions) (address : Nat) :
    (∃ region ∈ regions, region.Holds address) ↔ first ≤ address ∧ address < last := by
  induction regions generalizing first with
  | nil =>
      cases spans
      constructor
      · rintro ⟨region, member, -⟩
        cases member
      · intro between
        omega
  | cons region rest ih =>
      obtain ⟨start, spans⟩ := spans
      have beyond := spans.le
      rw [List.exists_mem_cons_iff, ih spans]
      unfold Region.Holds
      omega

theorem Spans.apart (spans : Spans first last regions) : regions.Pairwise Apart := by
  induction regions generalizing first with
  | nil => exact List.Pairwise.nil
  | cons region rest ih =>
      obtain ⟨start, spans⟩ := spans
      refine List.pairwise_cons.2 ⟨?_, ih spans⟩
      rintro other member address ⟨here, there⟩
      -- what is placed later begins behind this region
      have later := (spans.holds_iff address).1 ⟨other, member, there⟩
      unfold Region.Holds at here
      omega

theorem place_spans (layer ptr : Nat) (parts : List (κ × Nat)) :
    Spans ptr (ptr + rowSize parts) (place layer ptr parts) := by
  induction parts generalizing ptr with
  | nil => rfl
  | cons part rest ih =>
      have tail := ih (ptr + part.2)
      rw [Nat.add_assoc, ← rowSize_cons] at tail
      exact ⟨rfl, tail⟩

theorem walk_spans (parts : List (κ × Nat)) (count layer ptr : Nat) :
    Spans ptr (ptr + count * rowSize parts) (walk parts count layer ptr) := by
  induction count generalizing layer ptr with
  | zero => simp [walk, Spans]
  | succ count ih =>
      have tail := ih (layer + 1) (ptr + rowSize parts)
      rw [Nat.add_assoc, Nat.add_comm (rowSize parts), ← Nat.succ_mul] at tail
      exact (place_spans layer ptr parts).append tail

end Spanning

section Members

variable {parts : List (κ × Nat)} {region : Region κ}

theorem place_part {layer ptr : Nat} (member : region ∈ place layer ptr parts) :
    (region.kind, region.size) ∈ parts ∧ region.layer = layer := by
  induction parts generalizing ptr with
  | nil => cases member
  | cons part rest ih =>
      rcases List.mem_cons.1 member with here | later
      · subst here
        exact ⟨List.mem_cons_self, rfl⟩
      · exact ⟨List.mem_cons_of_mem _ (ih later).1, (ih later).2⟩

theorem walk_part {count layer ptr : Nat} (member : region ∈ walk parts count layer ptr) :
    (region.kind, region.size) ∈ parts ∧ layer ≤ region.layer ∧ region.layer < layer + count := by
  induction count generalizing layer ptr with
  | zero => cases member
  | succ count ih =>
      rcases List.mem_append.1 member with here | later
      · obtain ⟨part, same⟩ := place_part here
        exact ⟨part, by omega⟩
      · obtain ⟨part, bounds⟩ := ih later
        exact ⟨part, by omega⟩

theorem exists_place (layer ptr : Nat) {part : κ × Nat} (listed : part ∈ parts) :
    ∃ region ∈ place layer ptr parts, region.kind = part.1 ∧ region.layer = layer ∧ region.size = part.2 := by
  induction parts generalizing ptr with
  | nil => cases listed
  | cons first rest ih =>
      rcases List.mem_cons.1 listed with here | later
      · subst here
        exact ⟨_, List.mem_cons_self, rfl, rfl, rfl⟩
      · obtain ⟨region, member, facts⟩ := ih (ptr + first.2) later
        exact ⟨region, List.mem_cons_of_mem _ member, facts⟩

theorem exists_walk (count layer ptr : Nat) {part : κ × Nat} (listed : part ∈ parts) {l : Nat}
    (from' : layer ≤ l) (below : l < layer + count) :
    ∃ region ∈ walk parts count layer ptr, region.kind = part.1 ∧ region.layer = l ∧ region.size = part.2 := by
  induction count generalizing layer ptr with
  | zero => omega
  | succ count ih =>
      rcases Nat.eq_or_lt_of_le from' with here | later
      · subst here
        obtain ⟨region, member, facts⟩ := exists_place layer ptr listed
        exact ⟨region, List.mem_append_left _ member, facts⟩
      · obtain ⟨region, member, facts⟩ := ih (layer + 1) (ptr + rowSize parts) later (by omega)
        exact ⟨region, List.mem_append_right _ member, facts⟩

/-- What holds of each layer's regions, wherever the layer starts on a multiple of `n`, holds of all. -/
theorem walk_aligned {n : Nat} (row : n ∣ rowSize parts) {P : Region κ → Prop}
    (layers : ∀ layer ptr, n ∣ ptr → ∀ region ∈ place layer ptr parts, P region) {count layer ptr : Nat}
    (aligned : n ∣ ptr) : ∀ region ∈ walk parts count layer ptr, P region := by
  induction count generalizing layer ptr with
  | zero =>
      intro region member
      cases member
  | succ count ih =>
      intro region member
      rcases List.mem_append.1 member with here | later
      · exact layers layer ptr aligned region here
      · exact ih (Nat.dvd_add aligned row) region later

end Members

end XInfer.Regions
