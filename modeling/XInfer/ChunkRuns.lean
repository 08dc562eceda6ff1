import Mathlib.Algebra.BigOperators.Group.List.Basic
import Mathlib.Algebra.GroupWithZero.Nat

/-!
A sequence of rows handed over chunk by chunk, with a state that the calls carry. What one call does to the rows
behind it and to its own is enough for the whole run.
-/

namespace XInfer.ChunkRuns

variable {Error State Value : Type}

/-- A call is given the rows before it, its own number of rows, what its output buffer holds, and the state. -/
abbrev Call (Error State Value : Type) : Type :=
  Nat → Nat → (Nat → Value) → State → Except Error ((Nat → Value) × State)

/-- A chunk is its number of rows and what its output buffer holds before. -/
abbrev Chunk (Value : Type) : Type := Nat × (Nat → Value)

def runChunks (call : Call Error State Value) :
    List (Chunk Value) → Nat → State → Except Error (List (Nat → Value) × State)
  | [], _, state => .ok ([], state)
  | (rows, buffer) :: chunks, offset, state => do
      let (output, state) ← call offset rows buffer state
      let (outputs, state) ← runChunks call chunks (offset + rows) state
      return (output :: outputs, state)

/-- The rows of the chunks. -/
def total (chunks : List (Chunk Value)) : Nat := (chunks.map Prod.fst).sum

theorem total_cons (rows : Nat) (buffer : Nat → Value) (chunks : List (Chunk Value)) :
    total ((rows, buffer) :: chunks) = rows + total chunks := by
  simp [total]

/-- The outputs of the chunks are the rows of one output, from `offset` on. -/
inductive Slices (width : Nat) (whole : Nat → Value) : Nat → List (Chunk Value) → List (Nat → Value) → Prop
  | nil (offset : Nat) : Slices width whole offset [] []
  | cons {offset rows : Nat} {buffer output : Nat → Value} {chunks : List (Chunk Value)} {outputs : List (Nat → Value)}
      (here : ∀ t < rows, ∀ i < width, output (t * width + i) = whole ((offset + t) * width + i))
      (later : Slices width whole (offset + rows) chunks outputs) :
      Slices width whole offset ((rows, buffer) :: chunks) (output :: outputs)

/-- A call that keeps the invariant of the rows before it and outputs rows of `whole`. -/
def Carries (call : Call Error State Value) (width length : Nat) (whole : Nat → Value)
    (invariant : Nat → State → Prop) : Prop :=
  ∀ offset rows buffer state, offset + rows ≤ length → invariant offset state →
    ∃ output after, call offset rows buffer state = .ok (output, after) ∧ invariant (offset + rows) after ∧
      ∀ t < rows, ∀ i < width, output (t * width + i) = whole ((offset + t) * width + i)

theorem runChunks_slices {call : Call Error State Value} {width length : Nat} {whole : Nat → Value}
    {invariant : Nat → State → Prop} (carries : Carries call width length whole invariant)
    (chunks : List (Chunk Value)) (offset : Nat) (state : State) (within : offset + total chunks ≤ length)
    (start : invariant offset state) :
    ∃ outputs after, runChunks call chunks offset state = .ok (outputs, after) ∧
      invariant (offset + total chunks) after ∧ Slices width whole offset chunks outputs := by
  induction chunks generalizing offset state with
  | nil => exact ⟨[], state, rfl, start, .nil offset⟩
  | cons chunk chunks ih =>
      obtain ⟨rows, buffer⟩ := chunk
      rw [total_cons, ← Nat.add_assoc] at within ⊢
      obtain ⟨output, middle, called, kept, here⟩ :=
        carries offset rows buffer state (Nat.le_trans (Nat.le_add_right _ _) within) start
      obtain ⟨outputs, after, ran, last, later⟩ := ih (offset + rows) middle within kept
      refine ⟨output :: outputs, after, ?_, last, .cons here later⟩
      rw [runChunks, called]
      dsimp only [bind, Except.bind]
      rw [ran]
      rfl

end XInfer.ChunkRuns
