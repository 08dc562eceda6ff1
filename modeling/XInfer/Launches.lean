import Mathlib.Data.List.Perm.Basic
import Mathlib.Logic.Function.Basic
import Mathlib.Algebra.BigOperators.Group.List.Basic
import Mathlib.Data.List.GetD
import Mathlib.Data.List.Nodup
import Mathlib.Algebra.GroupWithZero.Nat

/-!
Work items that store into one memory. An item is the list of its stores, computed from the memory before
the launch; what a launch leaves in a cell does not depend on the order as long as the stores to the cell agree.
-/

namespace XInfer.Launches

variable {Cell Value : Type}

def storeAll [DecidableEq Cell] (stores : List (Cell × Value)) (memory : Cell → Value) : Cell → Value :=
  stores.foldl (fun memory store => Function.update memory store.1 store.2) memory

/-- All stores of the items of a launch. -/
def storesOf (items : Nat) (body : Nat → List (Cell × Value)) : List (Cell × Value) := (List.range items).flatMap body

def launch [DecidableEq Cell] (items : Nat) (body : Nat → List (Cell × Value)) (memory : Cell → Value) : Cell → Value :=
  storeAll (storesOf items body) memory

/-- No two stores to a cell differ. -/
def Agree (stores : List (Cell × Value)) : Prop :=
  ∀ first ∈ stores, ∀ second ∈ stores, first.1 = second.1 → first.2 = second.2

/-- Stores to cells of their own agree. -/
theorem agree_of_nodup {stores : List (Cell × Value)} (apart : (stores.map Prod.fst).Nodup) : Agree stores := by
  intro first member second member' same
  exact congrArg Prod.snd (List.inj_on_of_nodup_map apart member member' same)

theorem mem_storesOf {items : Nat} {body : Nat → List (Cell × Value)} {store : Cell × Value} :
    store ∈ storesOf items body ↔ ∃ item < items, store ∈ body item := by
  simp [storesOf]

/-- Items that store nothing at the end of the range may be left out. -/
theorem storesOf_idle {items more : Nat} {body : Nat → List (Cell × Value)} (le : items ≤ more)
    (idle : ∀ item, items ≤ item → item < more → body item = []) : storesOf more body = storesOf items body := by
  obtain ⟨extra, rfl⟩ := Nat.exists_eq_add_of_le le
  have silent : (List.map (items + ·) (List.range extra)).flatMap body = [] := by
    rw [List.flatMap_eq_nil_iff]
    intro item member
    obtain ⟨i, early, rfl⟩ := List.mem_map.1 member
    exact idle _ (Nat.le_add_right _ _) (Nat.add_lt_add_left (List.mem_range.1 early) _)
  unfold storesOf
  rw [List.range_add, List.flatMap_append, silent, List.append_nil]

/-- A guard against the padding of a launch. -/
theorem storesOf_guarded {items padded : Nat} (le : items ≤ padded) (body : Nat → List (Cell × Value)) :
    storesOf padded (fun item => if items ≤ item then [] else body item) = storesOf items body := by
  rw [storesOf_idle le fun item behind _ => if_pos behind]
  apply List.flatMap_congr
  intro item member
  exact if_neg (Nat.not_le.2 (List.mem_range.1 member))

theorem storesOf_add (front back : Nat) (body : Nat → List (Cell × Value)) :
    storesOf (front + back) body = storesOf front body ++ storesOf back fun item => body (front + item) := by
  unfold storesOf
  rw [List.range_add, List.flatMap_append, List.flatMap_map]

/-- Items in rows. -/
theorem storesOf_mul (rows width : Nat) (body : Nat → List (Cell × Value)) :
    storesOf (rows * width) body = storesOf rows fun row => storesOf width fun i => body (row * width + i) := by
  induction rows with
  | zero => simp [storesOf]
  | succ rows ih =>
      rw [Nat.add_mul, Nat.one_mul, storesOf_add, storesOf_add, ih]
      simp [storesOf]

/-- Items in parts of different widths. -/
theorem storesOf_parts (widths : List Nat) (body : Nat → List (Cell × Value)) {parts : Nat} (le : parts ≤ widths.length) :
    storesOf (widths.take parts).sum body =
      storesOf parts fun p => storesOf (widths.getD p 0) fun i => body ((widths.take p).sum + i) := by
  induction parts with
  | zero => simp [storesOf]
  | succ parts ih =>
      have width : widths.getD parts 0 = widths[parts] := List.getD_eq_getElem _ _ le
      rw [List.sum_take_succ _ _ le, storesOf_add, storesOf_add, ih (Nat.le_of_succ_le le), ← width]
      simp [storesOf]

/-- A range in rows. -/
theorem map_blocks {α : Type} (rows width : Nat) (f : Nat → α) :
    ((List.range rows).flatMap fun row => (List.range width).map fun i => f (row * width + i)) =
      (List.range (rows * width)).map f := by
  induction rows with
  | zero => simp
  | succ rows ih =>
      rw [List.range_succ, List.flatMap_append, ih, Nat.add_mul, Nat.one_mul, List.range_add]
      simp

section Grid

variable {slot width d : Nat}

theorem flat_div (inside : d < width) : (slot * width + d) / width = slot := by
  rw [Nat.add_comm, Nat.add_mul_div_right _ _ (Nat.zero_lt_of_lt inside), Nat.div_eq_of_lt inside, Nat.zero_add]

theorem flat_mod (inside : d < width) : (slot * width + d) % width = d := by
  rw [Nat.add_comm, Nat.add_mul_mod_self_right, Nat.mod_eq_of_lt inside]

theorem flat_injective {other e : Nat} (inside : d < width) (inside' : e < width)
    (same : slot * width + d = other * width + e) : slot = other ∧ d = e := by
  have slots := congrArg (· / width) same
  have elements := congrArg (· % width) same
  simp only [flat_div inside, flat_div inside', flat_mod inside, flat_mod inside'] at slots elements
  exact ⟨slots, elements⟩

theorem flat_lt {slots : Nat} (before : slot < slots) (inside : d < width) : slot * width + d < slots * width := by
  have last : (slot + 1) * width ≤ slots * width := Nat.mul_le_mul_right _ before
  rw [Nat.add_mul, Nat.one_mul] at last
  omega

/-- An output of so many columns, row by row. -/
def outputs (rows width : Nat) (value : Nat → Nat → Value) : List (Nat × Value) :=
  storesOf rows fun row => (List.range width).map fun i => (row * width + i, value row i)

theorem outputs_empty {rows width : Nat} (empty : rows = 0 ∨ width = 0) (value : Nat → Nat → Value) :
    outputs rows width value = [] := by
  rcases empty with rfl | rfl <;> simp [outputs, storesOf]

theorem outputs_addresses (rows width : Nat) (value : Nat → Nat → Value) :
    (outputs rows width value).map Prod.fst = List.range (rows * width) := by
  have addresses := map_blocks rows width id
  rw [List.map_id] at addresses
  rw [outputs, storesOf, List.map_flatMap, ← addresses]
  simp only [List.map_map]
  rfl

/-- One item for each element. -/
theorem outputs_items (rows width : Nat) (value : Nat → Nat → Value) :
    storesOf (rows * width) (fun item => [(item / width * width + item % width, value (item / width) (item % width))]) =
      outputs rows width value := by
  rw [storesOf_mul]
  unfold outputs storesOf
  apply List.flatMap_congr
  intro row _
  rw [← List.flatMap_singleton' (List.map _ _), List.flatMap_map]
  apply List.flatMap_congr
  intro i member
  rw [flat_div (List.mem_range.1 member), flat_mod (List.mem_range.1 member)]

theorem outputs_map (rows width : Nat) (value : Nat → Nat → Value) :
    outputs rows width value = (List.range (rows * width)).map fun i => (i, value (i / width) (i % width)) := by
  rw [← outputs_items, storesOf]
  simp only [Nat.div_add_mod']
  exact List.flatMap_pure_eq_map _ _

end Grid

section Stores

variable [DecidableEq Cell] {stores : List (Cell × Value)} {cell : Cell} {value : Value}

theorem storeAll_other (other : ∀ store ∈ stores, store.1 ≠ cell) (memory : Cell → Value) :
    storeAll stores memory cell = memory cell := by
  induction stores generalizing memory with
  | nil => rfl
  | cons store rest ih =>
      have step := ih (fun later member => other later (List.mem_cons_of_mem _ member))
        (Function.update memory store.1 store.2)
      rw [Function.update_of_ne (other store List.mem_cons_self).symm] at step
      exact step

theorem storeAll_here (member : (cell, value) ∈ stores) (agree : ∀ store ∈ stores, store.1 = cell → store.2 = value)
    (memory : Cell → Value) : storeAll stores memory cell = value := by
  induction stores generalizing memory with
  | nil => cases member
  | cons store rest ih =>
      have agreeRest : ∀ later ∈ rest, later.1 = cell → later.2 = value :=
        fun later member => agree later (List.mem_cons_of_mem _ member)
      by_cases again : ∃ later ∈ rest, later.1 = cell
      · obtain ⟨later, found, same⟩ := again
        have pair : later = (cell, value) := Prod.ext same (agreeRest later found same)
        exact ih (pair ▸ found) agreeRest _
      · -- the head is the last store to the cell
        have other : ∀ later ∈ rest, later.1 ≠ cell := fun later found same => again ⟨later, found, same⟩
        rcases List.mem_cons.1 member with head | tail
        · subst head
          exact (storeAll_other other _).trans (Function.update_self ..)
        · exact absurd rfl (other _ tail)

/-- A cell that is stored to forgets what it held. -/
theorem storeAll_stored (stored : ∃ store ∈ stores, store.1 = cell) (memory memory' : Cell → Value) :
    storeAll stores memory cell = storeAll stores memory' cell := by
  induction stores generalizing memory memory' with
  | nil => simp at stored
  | cons store rest ih =>
      by_cases again : ∃ later ∈ rest, later.1 = cell
      · exact ih again _ _
      · -- the head is the only store to the cell, and it decides
        have other : ∀ later ∈ rest, later.1 ≠ cell := fun later found same => again ⟨later, found, same⟩
        obtain ⟨first, member, same⟩ := stored
        obtain rfl : first = store := (List.mem_cons.1 member).resolve_right fun found => other first found same
        subst same
        have kept (memory : Cell → Value) : storeAll (first :: rest) memory first.1 = first.2 :=
          (storeAll_other other _).trans (Function.update_self ..)
        rw [kept, kept]

/-- Stores that agree may come in any order. -/
theorem storeAll_perm {stores stores' : List (Cell × Value)} (perm : stores.Perm stores') (agree : Agree stores)
    (memory : Cell → Value) : storeAll stores memory = storeAll stores' memory := by
  funext cell
  by_cases stored : ∃ store ∈ stores, store.1 = cell
  · obtain ⟨store, member, rfl⟩ := stored
    have value : ∀ other ∈ stores, other.1 = store.1 → other.2 = store.2 :=
      fun other found same => agree other found store member same
    rw [storeAll_here member value]
    exact (storeAll_here (perm.mem_iff.1 member) (fun other found => value other (perm.mem_iff.2 found)) _).symm
  · have other : ∀ store ∈ stores, store.1 ≠ cell := fun store member same => stored ⟨store, member, same⟩
    rw [storeAll_other other]
    exact (storeAll_other (fun store found => other store (perm.mem_iff.2 found)) _).symm

end Stores

section Launch

variable [DecidableEq Cell] {items : Nat} {body : Nat → List (Cell × Value)} {cell : Cell} {value : Value}

theorem launch_other (other : ∀ item < items, ∀ store ∈ body item, store.1 ≠ cell) (memory : Cell → Value) :
    launch items body memory cell = memory cell := by
  apply storeAll_other
  intro store member
  obtain ⟨item, inside, stores⟩ := mem_storesOf.1 member
  exact other item inside store stores

theorem launch_here {item : Nat} (inside : item < items) (stores : (cell, value) ∈ body item)
    (agree : ∀ other < items, ∀ store ∈ body other, store.1 = cell → store.2 = value) (memory : Cell → Value) :
    launch items body memory cell = value := by
  apply storeAll_here (mem_storesOf.2 ⟨item, inside, stores⟩)
  intro store member
  obtain ⟨other, before, found⟩ := mem_storesOf.1 member
  exact agree other before store found

/-- Stores that have the value of their cell. -/
theorem launch_valued (value : Cell → Value) (valued : ∀ item < items, ∀ store ∈ body item, store.2 = value store.1)
    {item : Nat} (inside : item < items) (covered : ∃ store ∈ body item, store.1 = cell) (memory : Cell → Value) :
    launch items body memory cell = value cell := by
  obtain ⟨store, member, rfl⟩ := covered
  have stores : (store.1, value store.1) ∈ body item := by
    rw [← valued item inside store member]
    exact member
  apply launch_here inside stores
  intro other before found stored same
  rw [valued other before found stored, same]

/-- A cell that some item stores to. -/
theorem launch_covered {item : Nat} (inside : item < items) (covered : ∃ store ∈ body item, store.1 = cell)
    (memory memory' : Cell → Value) : launch items body memory cell = launch items body memory' cell := by
  obtain ⟨store, member, same⟩ := covered
  exact storeAll_stored ⟨store, mem_storesOf.2 ⟨item, inside, member⟩, same⟩ memory memory'

/-- A launch is decided by what its items store. -/
theorem launch_congr {body' : Nat → List (Cell × Value)} (same : ∀ item < items, body item = body' item) :
    launch items body = launch items body' := by
  have stores : storesOf items body = storesOf items body' :=
    List.flatMap_congr fun item member => same item (List.mem_range.1 member)
  funext memory
  exact congrArg (fun stores => storeAll stores memory) stores

theorem launch_idle {more : Nat} (le : items ≤ more) (idle : ∀ item, items ≤ item → item < more → body item = []) :
    launch more body = launch items body := by
  funext memory
  exact congrArg (fun stores => storeAll stores memory) (storesOf_idle le idle)

end Launch

/-- What an output holds behind its launch. -/
theorem outputs_here {rows width row i : Nat} (inside : row < rows) (column : i < width) (value : Nat → Nat → Value)
    (memory : Nat → Value) : storeAll (outputs rows width value) memory (row * width + i) = value row i := by
  unfold outputs
  apply launch_here inside (List.mem_map.2 ⟨i, List.mem_range.2 column, rfl⟩)
  intro other _ store member same
  obtain ⟨j, within, rfl⟩ := List.mem_map.1 member
  obtain ⟨rfl, rfl⟩ := flat_injective (List.mem_range.1 within) column same
  rfl

/-- Three rows that the items fill by columns. -/
theorem columns_written (width : Nat) (value : Nat → Nat → Value) (memory : Nat → Value) :
    launch width (fun c => [(0 * width + c, value 0 c), (1 * width + c, value 1 c), (2 * width + c, value 2 c)]) memory =
      fun cell => if cell < 3 * width then value (cell / width) (cell % width) else memory cell := by
  funext cell
  by_cases inside : cell < 3 * width
  · have column : cell % width < width := Nat.mod_lt _ (by omega)
    have row : cell / width < 3 := Nat.div_lt_of_lt_mul (Nat.mul_comm 3 width ▸ inside)
    have place := Nat.div_add_mod' cell width
    rw [if_pos inside]
    apply launch_here column
    · generalize cell % width = c at place
      generalize cell / width = r at row place
      have rows : r = 0 ∨ r = 1 ∨ r = 2 := by omega
      rcases rows with first | second | third
      · rw [first] at place ⊢
        simp [← place]
      · rw [second] at place ⊢
        simp [← place]
      · rw [third] at place ⊢
        simp [← place]
    · intro other early store member same
      simp only [List.mem_cons, List.not_mem_nil, or_false] at member
      rcases member with rfl | rfl | rfl <;> subst same <;> rw [flat_div early, flat_mod early]
  · rw [if_neg inside]
    apply launch_other
    intro other early store member
    simp only [List.mem_cons, List.not_mem_nil, or_false] at member
    rcases member with rfl | rfl | rfl <;> dsimp only <;> omega

/-! Items with cells of their own, one behind the other. -/

section Rows

variable {items item width d cell : Nat} (base : Nat)

theorem row_here (before : item < items) (value : Nat → Value) (memory : Nat → Value) :
    launch items (fun item => [(base + item, value item)]) memory (base + item) = value item := by
  apply launch_here before (List.mem_singleton_self _)
  intro other early store member same
  cases List.mem_singleton.1 member
  obtain rfl : other = item := Nat.add_left_cancel same
  rfl

/-- An item for each cell. -/
theorem each_here (before : item < items) (value : Nat → Value) (memory : Nat → Value) :
    launch items (fun item => [(item, value item)]) memory item = value item := by
  have written := row_here 0 before value memory
  simpa only [Nat.zero_add] using written

theorem row_kept (outside : cell < base ∨ base + items ≤ cell) (value : Nat → Value) (memory : Nat → Value) :
    launch items (fun item => [(base + item, value item)]) memory cell = memory cell := by
  apply launch_other
  intro item early store member
  cases List.mem_singleton.1 member
  dsimp only
  omega

/-- The items of a launch with so many cells each. -/
def block (width : Nat) (value : Nat → Nat → Value) (item : Nat) : List (Nat × Value) :=
  (List.range width).map fun d => ((base + item) * width + d, value item d)

theorem block_here (before : item < items) (inside : d < width) (value : Nat → Nat → Value) (memory : Nat → Value) :
    launch items (block base width value) memory ((base + item) * width + d) = value item d := by
  apply launch_here before (List.mem_map.2 ⟨d, List.mem_range.2 inside, rfl⟩)
  intro other early store member same
  obtain ⟨e, within, rfl⟩ := List.mem_map.1 member
  obtain ⟨slots, rfl⟩ := flat_injective (List.mem_range.1 within) inside same
  obtain rfl : other = item := Nat.add_left_cancel slots
  rfl

/-- Items that store a vector each. -/
theorem vector_here {body : Nat → List (Nat × Value)} (value : Nat → Nat → Value)
    (stores : ∀ item < items, body item = (List.range width).map fun d => (item * width + d, value item d))
    (before : item < items) (inside : d < width) (memory : Nat → Value) :
    launch items body memory (item * width + d) = value item d := by
  have blocks : ∀ item < items, body item = block 0 width value item := by
    intro item early
    rw [stores item early, block, Nat.zero_add]
  have written := block_here 0 before inside value memory
  rw [Nat.zero_add] at written
  rw [launch_congr blocks, written]

theorem block_kept (outside : cell < base * width ∨ (base + items) * width ≤ cell) (value : Nat → Nat → Value)
    (memory : Nat → Value) : launch items (block base width value) memory cell = memory cell := by
  apply launch_other
  intro item early store member
  obtain ⟨d, within, rfl⟩ := List.mem_map.1 member
  have inside := List.mem_range.1 within
  have first : base * width ≤ (base + item) * width := Nat.mul_le_mul_right _ (Nat.le_add_right _ _)
  have last : (base + item + 1) * width ≤ (base + items) * width := Nat.mul_le_mul_right _ (by omega)
  rw [Nat.add_mul, Nat.one_mul] at last
  dsimp only
  omega

end Rows

end XInfer.Launches
