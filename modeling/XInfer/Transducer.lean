import Mathlib.Tactic.Common
import Mathlib.Data.List.Basic

/-!
Stateful steps run over a list. A network evaluated layer by layer over a batch
and the same network evaluated token by token are two orders of one set of
steps; `scan_pipe` says that they agree when the stages commute on their shared
state, and `scan_unique` turns any batch function that peels its first element
off into a scan.
-/

namespace XInfer.Transducer

variable {σ ι ο κ μ : Type}

def scan (step : σ → ι → σ × ο) : σ → List ι → σ × List ο
  | state, [] => (state, [])
  | state, input :: rest =>
      let here := step state input
      let later := scan step here.1 rest
      (later.1, here.2 :: later.2)

@[simp] theorem scan_nil (step : σ → ι → σ × ο) (state : σ) : scan step state [] = (state, []) := rfl

theorem scan_cons (step : σ → ι → σ × ο) (state : σ) (input : ι) (rest : List ι) :
    scan step state (input :: rest) =
      ((scan step (step state input).1 rest).1,
        (step state input).2 :: (scan step (step state input).1 rest).2) := rfl

@[simp] theorem scan_length (step : σ → ι → σ × ο) (state : σ) (inputs : List ι) :
    (scan step state inputs).2.length = inputs.length := by
  induction inputs generalizing state with
  | nil => rfl
  | cons input rest ih => simp [scan_cons, ih]

theorem scan_append (step : σ → ι → σ × ο) (state : σ) (front back : List ι) :
    scan step state (front ++ back) =
      ((scan step (scan step state front).1 back).1,
        (scan step state front).2 ++ (scan step (scan step state front).1 back).2) := by
  induction front generalizing state with
  | nil => rfl
  | cons input rest ih => simp [scan_cons, ih]

/-- Inputs and outputs translated on the way. -/
theorem scan_map (step : σ → ι → σ × ο) (enter : κ → ι) (leave : ο → μ) (state : σ) (inputs : List κ) :
    scan (fun state input =>
        ((step state (enter input)).1, leave (step state (enter input)).2)) state inputs =
      ((scan step state (inputs.map enter)).1, (scan step state (inputs.map enter)).2.map leave) := by
  induction inputs generalizing state with
  | nil => rfl
  | cons input rest ih => simp [scan_cons, ih]

/-- A batch function is the scan of its first element. -/
theorem scan_unique (step : σ → ι → σ × ο) (batch : σ → List ι → σ × List ο)
    (empty : ∀ state, batch state [] = (state, []))
    (peel : ∀ state input rest, batch state (input :: rest) =
      ((batch (step state input).1 rest).1, (step state input).2 :: (batch (step state input).1 rest).2))
    (state : σ) (inputs : List ι) : batch state inputs = scan step state inputs := by
  induction inputs generalizing state with
  | nil => rw [empty, scan_nil]
  | cons input rest ih => rw [peel, scan_cons, ih]

def pipe (first : σ → ι → σ × ο) (second : σ → ο → σ × κ) : σ → ι → σ × κ :=
  fun state input => second (first state input).1 (first state input).2

/-- Steps that may be swapped: the state they leave together and the output of
each do not depend on their order. -/
def Commute (first : σ → ι → σ × ο) (second : σ → κ → σ × μ) : Prop :=
  ∀ state input other,
    (second (first state input).1 other).1 = (first (second state other).1 input).1 ∧
    (first (second state other).1 input).2 = (first state input).2 ∧
    (second (first state input).1 other).2 = (second state other).2

theorem commute_pipe {first : σ → ι → σ × ο} {second : σ → κ → σ × κ} {third : σ → κ → σ × κ}
    (left : Commute first second) (right : Commute first third) :
    Commute first (pipe second third) := by
  intro state input other
  obtain ⟨state₁, out₁, in₁⟩ := left state input other
  obtain ⟨state₂, out₂, in₂⟩ := right (second state other).1 input (second state other).2
  refine ⟨?_, ?_, ?_⟩
  · rw [pipe, pipe, state₁, in₁, state₂]
  · rw [pipe, out₂, out₁]
  · rw [pipe, pipe, state₁, in₁, in₂]

/-- A step that commutes with every step of a scan commutes with the scan. -/
theorem commute_scan {first : σ → ι → σ × ο} {second : σ → κ → σ × μ}
    (commute : Commute first second) (inputs : List ι) (state : σ) (other : κ) :
    (second (scan first state inputs).1 other).1 = (scan first (second state other).1 inputs).1 ∧
    (scan first (second state other).1 inputs).2 = (scan first state inputs).2 ∧
    (second (scan first state inputs).1 other).2 = (second state other).2 := by
  induction inputs generalizing state with
  | nil => exact ⟨rfl, rfl, rfl⟩
  | cons input rest ih =>
      obtain ⟨state₁, out₁, in₁⟩ := commute state input other
      obtain ⟨state₂, out₂, in₂⟩ := ih (first state input).1
      simp only [scan_cons]
      refine ⟨?_, ?_, ?_⟩
      · rw [state₂, state₁]
      · rw [out₁, ← state₁, out₂]
      · rw [in₂, in₁]

/-- Stage by stage over the whole batch equals element by element through both
stages. -/
theorem scan_pipe {first : σ → ι → σ × ο} {second : σ → ο → σ × κ}
    (commute : Commute first second) (inputs : List ι) (state : σ) :
    scan second (scan first state inputs).1 (scan first state inputs).2 =
      scan (pipe first second) state inputs := by
  induction inputs generalizing state with
  | nil => rfl
  | cons input rest ih =>
      obtain ⟨swapped, outputs, same⟩ :=
        commute_scan commute rest (first state input).1 (first state input).2
      have tail := ih (second (first state input).1 (first state input).2).1
      rw [outputs] at tail
      simp only [scan_cons, pipe]
      rw [swapped, same, tail]

/-- Stages that each pass their outputs on, element by element. -/
def chain : List (σ → ι → σ × ι) → σ → ι → σ × ι
  | [] => fun state input => (state, input)
  | step :: rest => pipe step (chain rest)

/-- The same stages, each run over the whole batch before the next begins. -/
def stages : List (σ → ι → σ × ι) → σ → List ι → σ × List ι
  | [], state, inputs => (state, inputs)
  | step :: rest, state, inputs =>
      let done := scan step state inputs
      stages rest done.1 done.2

theorem commute_chain {first : σ → ι → σ × ι} {steps : List (σ → ι → σ × ι)}
    (each : ∀ step ∈ steps, Commute first step) : Commute first (chain steps) := by
  induction steps with
  | nil => exact fun state input other => ⟨rfl, rfl, rfl⟩
  | cons step rest ih =>
      have here := each step List.mem_cons_self
      exact commute_pipe here (ih fun other member => each other (List.mem_cons_of_mem step member))

theorem scan_chain_nil (state : σ) (inputs : List ι) : scan (chain []) state inputs = (state, inputs) := by
  induction inputs with
  | nil => rfl
  | cons input rest ih => rw [scan_cons]; exact congrArg (fun done => (done.1, input :: done.2)) ih

theorem stages_chain {steps : List (σ → ι → σ × ι)} (apart : steps.Pairwise Commute) (state : σ)
    (inputs : List ι) : stages steps state inputs = scan (chain steps) state inputs := by
  induction steps generalizing state inputs with
  | nil => exact (scan_chain_nil state inputs).symm
  | cons step rest ih =>
      obtain ⟨here, later⟩ := List.pairwise_cons.mp apart
      rw [stages, ih later]
      exact scan_pipe (commute_chain here) inputs state

section Parts

variable {ρ τ : Type}

/-- A part of a state that can be read and replaced on its own. -/
structure Part (σ ρ : Type) where
  get : σ → ρ
  put : ρ → σ → σ
  get_put : ∀ part state, get (put part state) = part
  put_get : ∀ state, put (get state) state = state
  put_put : ∀ part other state, put part (put other state) = put part state

/-- Parts that share nothing. -/
structure Apart (left : Part σ ρ) (right : Part σ τ) : Prop where
  get_left : ∀ part state, right.get (left.put part state) = right.get state
  get_right : ∀ part state, left.get (right.put part state) = left.get state
  swap : ∀ part other state, right.put other (left.put part state) = left.put part (right.put other state)

/-- A step of a part, as a step of the whole. -/
def Part.lift (part : Part σ ρ) (step : ρ → ι → ρ × ο) : σ → ι → σ × ο := fun state input =>
  let done := step (part.get state) input
  (part.put done.1 state, done.2)

theorem scan_lift (part : Part σ ρ) (step : ρ → ι → ρ × ο) (state : σ) (inputs : List ι) :
    scan (part.lift step) state inputs =
      (part.put (scan step (part.get state) inputs).1 state, (scan step (part.get state) inputs).2) := by
  induction inputs generalizing state with
  | nil => exact congrArg (·, []) (part.put_get state).symm
  | cons input rest ih =>
      simp only [scan_cons, Part.lift] at ih ⊢
      rw [ih, part.get_put, part.put_put]

theorem commute_lift {left : Part σ ρ} {right : Part σ τ} (apart : Apart left right)
    (first : ρ → ι → ρ × ο) (second : τ → κ → τ × μ) :
    Commute (left.lift first) (right.lift second) := by
  intro state input other
  simp only [Part.lift, apart.get_left, apart.get_right, apart.swap]
  exact ⟨trivial, trivial, trivial⟩

end Parts

end XInfer.Transducer
