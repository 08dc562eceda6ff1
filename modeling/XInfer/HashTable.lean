import Mathlib.Data.List.Induction

/-!
Tables with `table[key] = value` as association lists without two entries of one key,
and what a run of assignments leaves under a key: its last entry.
-/

namespace XInfer.HashTable

variable {α β : Type} [DecidableEq α]

/-- `table[key] = value`. -/
def assign (key : α) (value : β) (table : List (α × β)) : List (α × β) :=
  (key, value) :: table.filter fun entry => entry.1 ≠ key

def assignAll (entries table : List (α × β)) : List (α × β) :=
  entries.foldl (fun table entry => assign entry.1 entry.2 table) table

theorem assignAll_eq_nil (entries table : List (α × β)) :
    assignAll entries table = [] ↔ entries = [] ∧ table = [] := by
  induction entries using List.reverseRecOn with
  | nil => simp [assignAll]
  | append_singleton entries last ih => simp [assignAll, assign]

theorem assignAll_append (front back table : List (α × β)) :
    assignAll (front ++ back) table = assignAll back (assignAll front table) := by
  simp [assignAll]

/-- The value of the last entry under a key. -/
def latest [BEq α] (key : α) (entries : List (α × β)) : Option β := entries.reverse.lookup key

variable [BEq α] [LawfulBEq α]

theorem lookup_entry (key : α) (entry : α × β) (rest : List (α × β)) :
    (entry :: rest).lookup key = if key = entry.1 then some entry.2 else rest.lookup key := by
  by_cases same : key = entry.1
  · rw [List.lookup_cons, if_pos same, beq_iff_eq.mpr same]
  · have missed : (key == entry.1) = false := by simpa using same
    rw [List.lookup_cons, if_neg same, missed]

theorem lookup_filter_ne (key : α) (table : List (α × β)) {other : α} (apart : other ≠ key) :
    (table.filter fun entry => entry.1 ≠ key).lookup other = table.lookup other := by
  induction table with
  | nil => rfl
  | cons entry rest ih =>
      by_cases same : entry.1 = key
      · simpa [same, lookup_entry, apart] using ih
      · by_cases hit : other = entry.1
        · simp [same, hit, lookup_entry]
        · simpa [same, lookup_entry, hit] using ih

theorem lookup_assign (key other : α) (value : β) (table : List (α × β)) :
    (assign key value table).lookup other = if other = key then some value else table.lookup other := by
  by_cases same : other = key
  · simp [assign, same]
  · rw [assign, lookup_entry, if_neg same, if_neg same]
    exact lookup_filter_ne key table same

theorem latest_concat (key : α) (entries : List (α × β)) (last : α × β) :
    latest key (entries ++ [last]) = if key = last.1 then some last.2 else latest key entries := by
  rw [latest, List.reverse_append, List.reverse_singleton, List.singleton_append, lookup_entry]
  rfl

theorem lookup_assignAll (key : α) (entries table : List (α × β)) :
    (assignAll entries table).lookup key = (latest key entries).or (table.lookup key) := by
  induction entries using List.reverseRecOn with
  | nil => rfl
  | append_singleton entries last ih =>
      have grow : assignAll (entries ++ [last]) table =
          assign last.1 last.2 (assignAll entries table) := by simp [assignAll]
      rw [grow, lookup_assign, ih, latest_concat]
      split <;> rfl

/-- Where a key has one value only, the order of the entries does not matter. -/
theorem latest_eq_some {entries : List (α × β)}
    (single : ∀ left ∈ entries, ∀ right ∈ entries, left.1 = right.1 → left.2 = right.2) {key : α} {value : β} :
    latest key entries = some value ↔ (key, value) ∈ entries := by
  induction entries using List.reverseRecOn with
  | nil => simp [latest]
  | append_singleton entries last ih =>
      have earlier := ih fun left held right kept => single left (by simp [held]) right (by simp [kept])
      rw [latest_concat]
      constructor
      · intro found
        split at found
        · rename_i same
          cases found
          simp [same]
        · exact List.mem_append_left _ (earlier.mp found)
      · intro inside
        split
        · rename_i same
          exact congrArg some (single last (by simp) (key, value) inside same.symm)
        · rename_i apart
          rcases List.mem_append.mp inside with held | held
          · exact earlier.mpr held
          · rw [List.mem_singleton] at held
            exact absurd (congrArg Prod.fst held) apart

/-- The value that a fold over named entries leaves. -/
theorem foldl_named (key : α) (entries : List (α × β)) (start : β) :
    entries.foldl (fun value entry => if entry.1 = key then entry.2 else value) start =
      (latest key entries).getD start := by
  induction entries using List.reverseRecOn with
  | nil => rfl
  | append_singleton entries last ih =>
      rw [List.foldl_append, List.foldl_cons, List.foldl_nil, ih, latest_concat]
      by_cases same : last.1 = key
      · simp [same]
      · simp [same, Ne.symm same]

/-- A field that no step of a fold touches. -/
theorem foldl_frame {σ ε α : Type} (field : σ → α) (step : σ → ε → σ)
    (same : ∀ state entry, field (step state entry) = field state) (entries : List ε) (state : σ) :
    field (entries.foldl step state) = field state := by
  induction entries generalizing state with
  | nil => rfl
  | cons entry rest ih => exact (ih (step state entry)).trans (same state entry)

end XInfer.HashTable
