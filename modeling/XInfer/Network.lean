import XInfer.Kernels
import XInfer.Machine

/-!
The target of `targets/qwen3_8/forward.cpp` as its layers: `forward_layer` runs one layer
over a whole batch, `forward_chunk` all layers one after the other, each on its own part
of the cache. Layer by layer over a batch equals token by token through all layers, and
what a token reads of the cache lies below its own position: a network is a machine.
-/

namespace XInfer

open Transducer Kernels

section Layers

variable (Hidden Slot Acc Raw Conv State : Type)

inductive Layer where
  | full (kernel : FullKernel Hidden Slot Acc)
  | linear (kernel : LinearKernel Hidden Raw Conv State)

/-- A layer with the index of its part of the cache. -/
inductive Placed (n m : Nat) where
  | full (index : Fin n) (kernel : FullKernel Hidden Slot Acc)
  | linear (index : Fin m) (kernel : LinearKernel Hidden Raw Conv State)

end Layers

variable {Hidden Slot Acc Raw Conv State Logits : Type}

namespace Layer

def numFull : List (Layer Hidden Slot Acc Raw Conv State) → Nat
  | [] => 0
  | .full _ :: rest => numFull rest + 1
  | .linear _ :: rest => numFull rest

def numLinear : List (Layer Hidden Slot Acc Raw Conv State) → Nat
  | [] => 0
  | .full _ :: rest => numLinear rest
  | .linear _ :: rest => numLinear rest + 1

/-- `full_idx` and `linear_idx` count on from layer to layer. -/
def place {n m : Nat} : (layers : List (Layer Hidden Slot Acc Raw Conv State)) → (fullIdx linearIdx : Nat) →
    fullIdx + numFull layers = n → linearIdx + numLinear layers = m →
    List (Placed Hidden Slot Acc Raw Conv State n m)
  | [], _, _, _, _ => []
  | .full kernel :: rest, fullIdx, linearIdx, fulls, linears =>
      .full ⟨fullIdx, by simp only [numFull] at fulls; omega⟩ kernel ::
        place rest (fullIdx + 1) linearIdx (by simp only [numFull] at fulls; omega) linears
  | .linear kernel :: rest, fullIdx, linearIdx, fulls, linears =>
      .linear ⟨linearIdx, by simp only [numLinear] at linears; omega⟩ kernel ::
        place rest fullIdx (linearIdx + 1) fulls (by simp only [numLinear] at linears; omega)

end Layer

namespace Placed

variable {n m : Nat}

abbrev Cache (Slot Raw State : Type) (n m : Nat) := Memory (Fin n → Slot) (Fin m → LinearState Raw State)

/-- The K/V rows of one full-attention layer. -/
def column (index : Fin n) : Part (Cache Slot Raw State n m) (Nat → Slot) where
  get := fun memory i => memory.slots i index
  put := fun part memory =>
    { memory with slots := fun i f => if f = index then part i else memory.slots i f }
  get_put := by intro part state; simp
  put_get := by
    intro state
    congr
    funext i f
    by_cases own : f = index
    · subst own; simp
    · simp [own]
  put_put := by
    intro part other state
    congr
    funext i f
    by_cases own : f = index <;> simp [own]

/-- Convolution and delta state of one linear layer. -/
def linearState (index : Fin m) : Part (Cache Slot Raw State n m) (LinearState Raw State) where
  get := fun memory => memory.recurrent index
  put := fun part memory =>
    { memory with recurrent := fun l => if l = index then part else memory.recurrent l }
  get_put := by intro part state; simp
  put_get := by
    intro state
    congr
    funext l
    by_cases own : l = index
    · subst own; simp
    · simp [own]
  put_put := by
    intro part other state
    congr
    funext l
    by_cases own : l = index <;> simp [own]

theorem column_column {index other : Fin n} (apart : index ≠ other) :
    Apart (column index : Part (Cache Slot Raw State n m) _) (column other) where
  get_left := by intro part state; simp [column, apart.symm]
  get_right := by intro part state; simp [column, apart]
  swap := by
    intro part alternative state
    simp only [column]
    congr
    funext i f
    by_cases own : f = index
    · subst own; simp [apart]
    · simp [own]

theorem linearState_linearState {index other : Fin m} (apart : index ≠ other) :
    Apart (linearState index : Part (Cache Slot Raw State n m) _) (linearState other) where
  get_left := by intro part state; simp [linearState, apart.symm]
  get_right := by intro part state; simp [linearState, apart]
  swap := by
    intro part alternative state
    simp only [linearState]
    congr
    funext l
    by_cases own : l = index
    · subst own; simp [apart]
    · simp [own]

theorem column_linearState (index : Fin n) (other : Fin m) :
    Apart (column index : Part (Cache Slot Raw State n m) _) (linearState other) :=
  ⟨fun _ _ => rfl, fun _ _ => rfl, fun _ _ _ => rfl⟩

theorem linearState_column (index : Fin m) (other : Fin n) :
    Apart (linearState index : Part (Cache Slot Raw State n m) _) (column other) :=
  ⟨fun _ _ => rfl, fun _ _ => rfl, fun _ _ _ => rfl⟩

/-- One row through one layer. -/
def step (maxSeqLen : Nat) : Placed Hidden Slot Acc Raw Conv State n m →
    Cache Slot Raw State n m → Hidden × Nat → Cache Slot Raw State n m × (Hidden × Nat)
  | .full index kernel => (column index).lift (kernel.step maxSeqLen)
  | .linear index kernel => (linearState index).lift kernel.step

/-- Layers on different parts of the cache. -/
def Separate : Placed Hidden Slot Acc Raw Conv State n m → Placed Hidden Slot Acc Raw Conv State n m → Prop
  | .full index _, .full other _ => index ≠ other
  | .linear index _, .linear other _ => index ≠ other
  | _, _ => True

theorem commute_step (maxSeqLen : Nat) {layer other : Placed Hidden Slot Acc Raw Conv State n m}
    (separate : layer.Separate other) : Commute (layer.step maxSeqLen) (other.step maxSeqLen) := by
  cases layer with
  | full index kernel =>
      cases other with
      | full second _ => exact commute_lift (column_column separate) _ _
      | linear second _ => exact commute_lift (column_linearState index second) _ _
  | linear index kernel =>
      cases other with
      | full second _ => exact commute_lift (linearState_column index second) _ _
      | linear second _ => exact commute_lift (linearState_linearState separate) _ _

variable [Zero State]

/-- What `zero_linear_state` does to the states of the layers listed. -/
def zeroStates : List (Placed Hidden Slot Acc Raw Conv State n m) →
    (Fin m → LinearState Raw State) → Fin m → LinearState Raw State
  | [], states => states
  | .full _ _ :: rest, states => zeroStates rest states
  | .linear index _ :: rest, states =>
      zeroStates rest fun l => if l = index then (states l).zeroed else states l

theorem zeroStates_blank (layers : List (Placed Hidden Slot Acc Raw Conv State n m))
    {states : Fin m → LinearState Raw State} (blank : ∀ l, (states l).delta = 0) :
    zeroStates layers states = states := by
  have same : ∀ l, (states l).zeroed = states l := by
    intro l
    rw [LinearState.zeroed, ← blank l]
  induction layers with
  | nil => rfl
  | cons layer rest ih =>
      cases layer with
      | full index kernel => exact ih
      | linear index kernel => simpa [zeroStates, same] using ih

/-- States that no layer of the list owns are left alone, and the zeroing waits for no one. -/
theorem zeroStates_put (layers : List (Placed Hidden Slot Acc Raw Conv State n m)) {index : Fin m}
    (kernel : LinearKernel Hidden Raw Conv State)
    (separate : ∀ layer ∈ layers, Separate (.linear index kernel) layer)
    (part : LinearState Raw State) (states : Fin m → LinearState Raw State) :
    (zeroStates layers fun l => if l = index then part else states l) =
      fun l => if l = index then part else zeroStates layers states l := by
  induction layers generalizing states with
  | nil => rfl
  | cons layer rest ih =>
      have later := ih fun other member => separate other (List.mem_cons_of_mem layer member)
      cases layer with
      | full other _ => exact later states
      | linear other _ =>
          have apart : index ≠ other := separate _ List.mem_cons_self
          simp only [zeroStates]
          rw [← later]
          congr
          funext l
          by_cases own : l = index
          · subst own; simp [apart]
          · simp [own]

variable [Zero Raw]

/-- `forward_layer` over the rows of a batch. -/
def forwardLayer (maxSeqLen : Nat) (zeroLinear : Bool) (startPos : Nat) (memory : Cache Slot Raw State n m)
    (rows : List Hidden) :
    Placed Hidden Slot Acc Raw Conv State n m → Cache Slot Raw State n m × List Hidden
  | .full index kernel =>
      let done := kernel.batch maxSeqLen ((column index).get memory) startPos rows
      ((column index).put done.1 memory, done.2)
  | .linear index kernel =>
      let done := kernel.batch zeroLinear ((linearState index).get memory) rows
      ((linearState index).put done.1 memory, done.2)

def runLayers (maxSeqLen : Nat) (zeroLinear : Bool) (startPos : Nat) :
    List (Placed Hidden Slot Acc Raw Conv State n m) → Cache Slot Raw State n m → List Hidden →
    Cache Slot Raw State n m × List Hidden
  | [], memory, rows => (memory, rows)
  | layer :: rest, memory, rows =>
      let done := layer.forwardLayer maxSeqLen zeroLinear startPos memory rows
      runLayers maxSeqLen zeroLinear startPos rest done.1 done.2

theorem forwardLayer_scan (maxSeqLen startPos : Nat) (layer : Placed Hidden Slot Acc Raw Conv State n m)
    (memory : Cache Slot Raw State n m) (rows : List Hidden) :
    scan (layer.step maxSeqLen) memory (rows.zipIdx startPos) =
      ((layer.forwardLayer maxSeqLen false startPos memory rows).1,
        (layer.forwardLayer maxSeqLen false startPos memory rows).2.zipIdx startPos) := by
  cases layer with
  | full index kernel =>
      rw [step, scan_lift, FullKernel.scan_step]
      rfl
  | linear index kernel =>
      rw [step, scan_lift, LinearKernel.scan_step]
      rfl

theorem runLayers_stages (maxSeqLen startPos : Nat)
    (layers : List (Placed Hidden Slot Acc Raw Conv State n m)) (memory : Cache Slot Raw State n m)
    (rows : List Hidden) :
    stages (layers.map (step maxSeqLen)) memory (rows.zipIdx startPos) =
      ((runLayers maxSeqLen false startPos layers memory rows).1,
        (runLayers maxSeqLen false startPos layers memory rows).2.zipIdx startPos) := by
  induction layers generalizing memory rows with
  | nil => rfl
  | cons layer rest ih =>
      rw [List.map_cons, stages, forwardLayer_scan]
      exact ih _ _

/-- Layer by layer over the batch is row by row through all layers. -/
theorem runLayers_chain (maxSeqLen startPos : Nat)
    {layers : List (Placed Hidden Slot Acc Raw Conv State n m)} (separate : layers.Pairwise Separate)
    (memory : Cache Slot Raw State n m) (rows : List Hidden) :
    scan (chain (layers.map (step maxSeqLen))) memory (rows.zipIdx startPos) =
      ((runLayers maxSeqLen false startPos layers memory rows).1,
        (runLayers maxSeqLen false startPos layers memory rows).2.zipIdx startPos) := by
  have apart : (layers.map (step maxSeqLen)).Pairwise Commute :=
    List.pairwise_map.mpr (separate.imp fun both => commute_step maxSeqLen both)
  rw [← runLayers_stages, stages_chain apart]

theorem forwardLayer_length (maxSeqLen startPos : Nat) (layer : Placed Hidden Slot Acc Raw Conv State n m)
    (memory : Cache Slot Raw State n m) (rows : List Hidden) :
    (layer.forwardLayer maxSeqLen false startPos memory rows).2.length = rows.length := by
  have width := congrArg (fun done => done.2.length)
    (forwardLayer_scan maxSeqLen startPos layer memory rows)
  simpa using width.symm

/-- The flag of a pass zeroes all its states before the pass, whichever layer does it when. -/
theorem runLayers_zero (maxSeqLen startPos : Nat)
    {layers : List (Placed Hidden Slot Acc Raw Conv State n m)} (separate : layers.Pairwise Separate)
    (memory : Cache Slot Raw State n m) {rows : List Hidden} (some : rows ≠ []) :
    runLayers maxSeqLen true startPos layers memory rows =
      runLayers maxSeqLen false startPos layers
        { memory with recurrent := zeroStates layers memory.recurrent } rows := by
  induction layers generalizing memory rows with
  | nil => rfl
  | cons layer rest ih =>
      obtain ⟨apart, later⟩ := List.pairwise_cons.mp separate
      cases layer with
      | full index kernel =>
          have kept : (forwardLayer maxSeqLen false startPos memory rows
              (.full index kernel : Placed Hidden Slot Acc Raw Conv State n m)).2 ≠ [] := by
            rw [← List.length_pos_iff, forwardLayer_length]
            exact List.length_pos_iff.mpr some
          exact ih later _ kept
      | linear index kernel =>
          have zeroed := kernel.batch_zero ((linearState index).get memory) some
          have kept : (kernel.batch false (memory.recurrent index).zeroed rows).2 ≠ [] := by
            have width := forwardLayer_length maxSeqLen startPos
              (.linear index kernel : Placed Hidden Slot Acc Raw Conv State n m)
              ((linearState index).put (memory.recurrent index).zeroed memory) rows
            simp only [forwardLayer, (linearState index).get_put] at width
            rw [← List.length_pos_iff, width]
            exact List.length_pos_iff.mpr some
          have own : (fun l => if l = index then (memory.recurrent l).zeroed else memory.recurrent l) =
              fun l => if l = index then (memory.recurrent index).zeroed else memory.recurrent l := by
            funext l
            by_cases same : l = index
            · subst same; rfl
            · simp [same]
          simp only [runLayers, forwardLayer, zeroed, zeroStates, own, zeroStates_put rest kernel apart]
          simp only [linearState, if_true]
          rw [ih later _ kept, zeroStates_put rest kernel apart]
          congr
          funext l
          by_cases same : l = index <;> simp [same]

end Placed

namespace Layer

variable {n m : Nat}

/-- The counters only grow. -/
theorem place_bounds {layers : List (Layer Hidden Slot Acc Raw Conv State)} {fullIdx linearIdx : Nat}
    (fulls : fullIdx + numFull layers = n) (linears : linearIdx + numLinear layers = m) :
    ∀ layer ∈ place layers fullIdx linearIdx fulls linears, match layer with
      | .full index _ => fullIdx ≤ index.val
      | .linear index _ => linearIdx ≤ index.val := by
  induction layers generalizing fullIdx linearIdx with
  | nil => simp [place]
  | cons layer rest ih =>
      intro placed member
      cases layer with
      | full kernel =>
          rcases List.mem_cons.mp member with rfl | later
          · exact Nat.le_refl _
          · have bound := ih _ _ placed later
            cases placed with
            | full index _ => exact Nat.le_of_succ_le bound
            | linear index _ => exact bound
      | linear kernel =>
          rcases List.mem_cons.mp member with rfl | later
          · exact Nat.le_refl _
          · have bound := ih _ _ placed later
            cases placed with
            | full index _ => exact bound
            | linear index _ => exact Nat.le_of_succ_le bound

theorem place_separate {layers : List (Layer Hidden Slot Acc Raw Conv State)} {fullIdx linearIdx : Nat}
    (fulls : fullIdx + numFull layers = n) (linears : linearIdx + numLinear layers = m) :
    (place layers fullIdx linearIdx fulls linears).Pairwise Placed.Separate := by
  induction layers generalizing fullIdx linearIdx with
  | nil => exact .nil
  | cons layer rest ih =>
      cases layer with
      | full kernel =>
          refine .cons (fun placed member => ?_) (ih _ _)
          have bound := place_bounds _ _ placed member
          cases placed with
          | full index _ =>
              intro same
              rw [← same] at bound
              exact Nat.lt_irrefl _ bound
          | linear index _ => trivial
      | linear kernel =>
          refine .cons (fun placed member => ?_) (ih _ _)
          have bound := place_bounds _ _ placed member
          cases placed with
          | full index _ => trivial
          | linear index _ =>
              intro same
              rw [← same] at bound
              exact Nat.lt_irrefl _ bound

/-- Every part of the K/V cache belongs to a layer. -/
theorem place_covers {layers : List (Layer Hidden Slot Acc Raw Conv State)} {fullIdx linearIdx : Nat}
    (fulls : fullIdx + numFull layers = n) (linears : linearIdx + numLinear layers = m) (index : Fin n)
    (above : fullIdx ≤ index.val) :
    ∃ kernel, Placed.full index kernel ∈ place layers fullIdx linearIdx fulls linears := by
  induction layers generalizing fullIdx linearIdx with
  | nil =>
      simp only [numFull] at fulls
      omega
  | cons layer rest ih =>
      cases layer with
      | full kernel =>
          by_cases here : fullIdx = index.val
          · subst here
            exact ⟨kernel, List.mem_cons_self⟩
          · obtain ⟨found, member⟩ := ih _ _ (by omega : fullIdx + 1 ≤ index.val)
            exact ⟨found, List.mem_cons_of_mem _ member⟩
      | linear kernel =>
          obtain ⟨found, member⟩ := ih _ _ above
          exact ⟨found, List.mem_cons_of_mem _ member⟩

end Layer

namespace Placed

variable {n m : Nat}

section Reach

variable (maxSeqLen : Nat)

/-- A step touches no slot but its own position's. -/
theorem step_slots (layer : Placed Hidden Slot Acc Raw Conv State n m) (memory : Cache Slot Raw State n m)
    (row : Hidden × Nat) {i : Nat} (elsewhere : i ≠ row.2 ∨ maxSeqLen ≤ row.2) :
    (layer.step maxSeqLen memory row).1.slots i = memory.slots i ∧
      (layer.step maxSeqLen memory row).2.2 = row.2 := by
  cases layer with
  | linear index kernel => exact ⟨rfl, rfl⟩
  | full index kernel =>
      refine ⟨?_, rfl⟩
      funext f
      by_cases own : f = index
      · subst own
        simp only [step, Part.lift, column, FullKernel.step, FullKernel.writeKvCache_apply, if_true]
        split
        · have later : [kernel.slot row.1 row.2][i - row.2]? = none := by
            apply List.getElem?_eq_none
            rw [List.length_singleton]
            omega
          rw [later, Option.getD_none]
        · rfl
      · simp [step, Part.lift, column, own]

theorem chain_slots (layers : List (Placed Hidden Slot Acc Raw Conv State n m))
    (memory : Cache Slot Raw State n m) (row : Hidden × Nat) {i : Nat}
    (elsewhere : i ≠ row.2 ∨ maxSeqLen ≤ row.2) :
    (chain (layers.map (step maxSeqLen)) memory row).1.slots i = memory.slots i := by
  induction layers generalizing memory row with
  | nil => rfl
  | cons layer rest ih =>
      obtain ⟨here, position⟩ := step_slots maxSeqLen layer memory row elsewhere
      have later := ih (layer.step maxSeqLen memory row).1 (layer.step maxSeqLen memory row).2
        (by rwa [position])
      exact later.trans here

def Owns : Placed Hidden Slot Acc Raw Conv State n m → Fin n → Prop
  | .full index _, f => f = index
  | .linear _ _, _ => False

/-- Caches that agree below a position, on the parts of its own slot that have been
written, and in the recurrent states. -/
structure Like (position : Nat) (written : Fin n → Prop) (left right : Cache Slot Raw State n m) : Prop where
  below : ∀ i < position, left.slots i = right.slots i
  here : position < maxSeqLen → ∀ f, written f → left.slots position f = right.slots position f
  recurrent : left.recurrent = right.recurrent

variable {maxSeqLen}

/-- A step reads nothing that the two caches need not share, and writes its part of the
slot before it reads. -/
theorem step_like (layer : Placed Hidden Slot Acc Raw Conv State n m) (x : Hidden) {position : Nat}
    {written : Fin n → Prop} {left right : Cache Slot Raw State n m}
    (like : Like maxSeqLen position written left right) :
    Like maxSeqLen position (fun f => written f ∨ layer.Owns f)
        (layer.step maxSeqLen left (x, position)).1 (layer.step maxSeqLen right (x, position)).1 ∧
      (layer.step maxSeqLen left (x, position)).2 = (layer.step maxSeqLen right (x, position)).2 := by
  cases layer with
  | linear index kernel =>
      have part : (linearState index).get left = (linearState index).get right :=
        congrFun like.recurrent index
      simp only [step, Part.lift, part]
      refine ⟨⟨like.below, ?_, ?_⟩, trivial⟩
      · intro room f old
        exact like.here room f (old.resolve_right id)
      · simp only [linearState, like.recurrent]
  | full index kernel =>
      have below : ∀ i < position, (column index).get left i = (column index).get right i :=
        fun i inside => congrFun (like.below i inside) index
      have wrote : ∀ i ≤ position, i < maxSeqLen →
          FullKernel.writeKvCache maxSeqLen ((column index).get left) position [kernel.slot x position] i =
          FullKernel.writeKvCache maxSeqLen ((column index).get right) position [kernel.slot x position] i := by
        intro i upto room
        simp only [FullKernel.writeKvCache_apply]
        by_cases own : i = position
        · subst own
          simp [room]
        · rw [if_neg (by omega), if_neg (by omega)]
          exact below i (by omega)
      have read := kernel.sdpaCausalCached_local maxSeqLen (x, position) wrote
      constructor
      · refine ⟨fun i inside => ?_, fun room f owned => ?_, like.recurrent⟩
        · rw [(step_slots maxSeqLen _ left (x, position) (Or.inl (Nat.ne_of_lt inside))).1,
            (step_slots maxSeqLen _ right (x, position) (Or.inl (Nat.ne_of_lt inside))).1]
          exact like.below i inside
        · simp only [step, Part.lift, column]
          by_cases own : f = index
          · rw [if_pos own, if_pos own]
            exact wrote position (Nat.le_refl _) room
          · rw [if_neg own, if_neg own]
            exact like.here room f (owned.resolve_right own)
      · simp only [step, Part.lift, FullKernel.step]
        exact congrArg (fun acc => (kernel.close x position acc, position)) read

theorem chain_like (layers : List (Placed Hidden Slot Acc Raw Conv State n m)) (x : Hidden) {position : Nat}
    {written : Fin n → Prop} {left right : Cache Slot Raw State n m}
    (like : Like maxSeqLen position written left right) :
    Like maxSeqLen position (fun f => written f ∨ ∃ layer ∈ layers, layer.Owns f)
        (chain (layers.map (step maxSeqLen)) left (x, position)).1
        (chain (layers.map (step maxSeqLen)) right (x, position)).1 ∧
      (chain (layers.map (step maxSeqLen)) left (x, position)).2 =
        (chain (layers.map (step maxSeqLen)) right (x, position)).2 := by
  induction layers generalizing x written left right with
  | nil =>
      refine ⟨⟨like.below, fun room f owned => ?_, like.recurrent⟩, rfl⟩
      rcases owned with old | ⟨_, member, _⟩
      · exact like.here room f old
      · cases member
  | cons layer rest ih =>
      obtain ⟨after, same⟩ := step_like layer x like
      have position_kept : (layer.step maxSeqLen left (x, position)).2 =
          ((layer.step maxSeqLen left (x, position)).2.1, position) := by
        cases layer <;> rfl
      obtain ⟨last, outputs⟩ := ih (layer.step maxSeqLen left (x, position)).2.1 after
      rw [← position_kept] at last outputs
      simp only [List.map_cons, chain, pipe]
      rw [← same]
      refine ⟨⟨last.below, fun room f owned => last.here room f ?_, last.recurrent⟩, outputs⟩
      rcases owned with old | ⟨other, member, owns⟩
      · exact Or.inl (Or.inl old)
      · rcases List.mem_cons.mp member with rfl | later
        · exact Or.inl (Or.inr owns)
        · exact Or.inr ⟨other, later, owns⟩

end Reach

end Placed

/-- A loaded model. -/
structure Network (Hidden Slot Acc Raw Conv State Logits : Type) where
  config : ModelConfig
  embed : Int → Hidden
  layers : List (Layer Hidden Slot Acc Raw Conv State)
  /-- Final norm and LM head. -/
  head : Hidden → Logits
  argmax : Logits → Int
  argmax_inVocab : ∀ logits, config.InVocab (argmax logits)

namespace Network

open Layer Placed

variable (N : Network Hidden Slot Acc Raw Conv State Logits)

abbrev Cache := Placed.Cache Slot Raw State (numFull N.layers) (numLinear N.layers)

def placed : List (Placed Hidden Slot Acc Raw Conv State (numFull N.layers) (numLinear N.layers)) :=
  place N.layers 0 0 (Nat.zero_add _) (Nat.zero_add _)

theorem placed_covers (f : Fin (numFull N.layers)) : ∃ layer ∈ N.placed, layer.Owns f := by
  obtain ⟨kernel, member⟩ := place_covers (Nat.zero_add _) (Nat.zero_add _) f (Nat.zero_le _)
  exact ⟨_, member, rfl⟩

/-- One token through all layers. -/
def token (maxSeqLen : Nat) (memory : N.Cache) (input : Int × Nat) : N.Cache × (Hidden × Nat) :=
  chain (N.placed.map (Placed.step maxSeqLen)) memory (N.embed input.1, input.2)

/-- What a token reads lies below its position, or was written by it. -/
theorem token_local (maxSeqLen : Nat) {left right : N.Cache} (tok : Int) {position : Nat}
    (below : ∀ i < position, left.slots i = right.slots i) (same : left.recurrent = right.recurrent) :
    (position < maxSeqLen → (N.token maxSeqLen left (tok, position)).1.slots position =
        (N.token maxSeqLen right (tok, position)).1.slots position) ∧
      (N.token maxSeqLen left (tok, position)).1.recurrent =
        (N.token maxSeqLen right (tok, position)).1.recurrent ∧
      (N.token maxSeqLen left (tok, position)).2 = (N.token maxSeqLen right (tok, position)).2 := by
  have like : Like maxSeqLen position (fun _ => False) left right := ⟨below, fun _ _ => False.elim, same⟩
  obtain ⟨after, outputs⟩ := chain_like N.placed (N.embed tok) like
  refine ⟨fun room => ?_, after.recurrent, outputs⟩
  funext f
  exact after.here room f (Or.inr (N.placed_covers f))

variable [Zero Raw] [Zero State]

/-- All of recurrent storage after `memset`. -/
def cleared : Fin (numLinear N.layers) → LinearState Raw State := fun _ => ⟨⟨0, 0, 0⟩, 0⟩

/-- The layers of `forward_chunk` over a batch; the LM head looks at one row at a time. -/
def pass (maxSeqLen : Nat) (zeroLinear : Bool) (memory : N.Cache) (tokens : List Int) (startPos : Nat) :
    N.Cache × List Logits :=
  let done := if tokens = [] then (memory, [])
    else runLayers maxSeqLen zeroLinear startPos N.placed memory (tokens.map N.embed)
  (done.1, done.2.map N.head)

def backend : Backend (Fin (numFull N.layers) → Slot) (Fin (numLinear N.layers) → LinearState Raw State)
    Logits where
  config := N.config
  cleared := N.cleared
  pass := N.pass
  argmax := N.argmax

variable [Zero Slot]

/-- The network as the host code may take it. A position past the cache keeps no slot. -/
def machine : Machine (Fin (numFull N.layers) → Slot) (Fin (numLinear N.layers) → LinearState Raw State)
    Logits where
  config := N.config
  cleared := N.cleared
  zeroLinear := zeroStates N.placed
  zeroLinear_cleared := zeroStates_blank _ fun _ => rfl
  step := fun maxSeqLen slots recurrent tok position =>
    let done := N.token maxSeqLen ⟨slots, recurrent⟩ (tok, position)
    (if position < maxSeqLen then done.1.slots position else fun _ => 0, done.1.recurrent, N.head done.2.1)
  step_local := by
    intro maxSeqLen slots other recurrent tok position below
    have same : (⟨slots, recurrent⟩ : N.Cache).recurrent = (⟨other, recurrent⟩ : N.Cache).recurrent := rfl
    obtain ⟨slot, states, outputs⟩ := N.token_local maxSeqLen tok below same
    dsimp only
    rw [states, outputs]
    by_cases room : position < maxSeqLen
    · rw [if_pos room, if_pos room, slot room]
    · rw [if_neg room, if_neg room]
  argmax := N.argmax
  argmax_inVocab := N.argmax_inVocab

theorem machine_forward (maxSeqLen : Nat) (memory : N.Cache) (input : Int × Nat) :
    N.machine.forward maxSeqLen memory input =
      ((N.token maxSeqLen memory input).1, N.head (N.token maxSeqLen memory input).2.1) := by
  have elsewhere : ∀ i, (i ≠ input.2 ∨ maxSeqLen ≤ input.2) →
      (N.token maxSeqLen memory input).1.slots i = memory.slots i := fun i away =>
    chain_slots maxSeqLen N.placed memory (N.embed input.1, input.2) away
  refine Prod.ext (congrArg (fun slots => Memory.mk slots (N.token maxSeqLen memory input).1.recurrent) ?_)
    rfl
  by_cases room : input.2 < maxSeqLen
  · rw [if_pos room]
    funext i
    by_cases own : i = input.2
    · simp only [Memory.write, if_pos own, machine, if_pos room]
      rw [own]
    · simp only [Memory.write, if_neg own]
      exact (elsewhere i (Or.inl own)).symm
  · rw [if_neg room]
    funext i
    exact (elsewhere i (Or.inr (Nat.le_of_not_lt room))).symm

/-- The layer-by-layer pass is the machine's. -/
theorem machine_pass (maxSeqLen : Nat) (zeroLinear : Bool) (memory : N.Cache) (tokens : List Int)
    (startPos : Nat) : N.machine.pass maxSeqLen zeroLinear memory tokens startPos =
      N.pass maxSeqLen zeroLinear memory tokens startPos := by
  have separate : N.placed.Pairwise Separate := place_separate _ _
  have steps : N.machine.forward maxSeqLen = fun memory input =>
      ((N.token maxSeqLen memory input).1, N.head (N.token maxSeqLen memory input).2.1) := by
    funext memory input
    exact N.machine_forward maxSeqLen memory input
  have through : ∀ memory : N.Cache, N.machine.pass maxSeqLen false memory tokens startPos =
      ((runLayers maxSeqLen false startPos N.placed memory (tokens.map N.embed)).1,
        (runLayers maxSeqLen false startPos N.placed memory (tokens.map N.embed)).2.map N.head) := by
    intro memory
    have rows := runLayers_chain maxSeqLen startPos separate memory (tokens.map N.embed)
    rw [List.zipIdx_map] at rows
    have translated := scan_map (chain (N.placed.map (Placed.step maxSeqLen))) (Prod.map N.embed id)
      (N.head ∘ Prod.fst) memory (tokens.zipIdx startPos)
    rw [rows, ← List.map_map, List.zipIdx_map_fst] at translated
    simp only [Machine.pass, Bool.false_and, Bool.false_eq_true, if_false, steps]
    exact translated
  by_cases empty : tokens = []
  · subst empty
    simp [pass]
  · cases zeroLinear with
    | false => rw [through, pass, if_neg empty]
    | true =>
        have nonempty : tokens.map N.embed ≠ [] := by simpa using empty
        have flagged : N.machine.pass maxSeqLen true memory tokens startPos = N.machine.pass maxSeqLen false
            { memory with recurrent := zeroStates N.placed memory.recurrent } tokens startPos := by
          simp [Machine.pass, empty, machine]
        rw [flagged, through, pass, if_neg empty, runLayers_zero maxSeqLen startPos separate memory nonempty]

theorem machine_backend : N.machine.backend = N.backend := by
  unfold Machine.backend backend
  congr
  funext maxSeqLen zeroLinear memory tokens startPos
  exact N.machine_pass maxSeqLen zeroLinear memory tokens startPos

end Network

end XInfer
