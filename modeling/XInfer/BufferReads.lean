import Mathlib.Data.List.Basic

/-!
Programs that read a memory place by place. A program is the tree of its reads, so that what it answers
and where it has read are both functions of the memory, and a property of the places is proved along the
program's own structure. Every program is finite: a loop carries its own bound.
-/

namespace XInfer.BufferReads

variable {κ ν α β : Type}

inductive Reading (κ ν α : Type) where
  | done (value : α)
  | read (place : κ) (next : ν → Reading κ ν α)

namespace Reading

def bind : Reading κ ν α → (α → Reading κ ν β) → Reading κ ν β
  | done value, next => next value
  | read place rest, next => read place fun content => (rest content).bind next

instance : Monad (Reading κ ν) where
  pure := done
  bind := bind

/-- The content of one place. -/
def fetch (place : κ) : Reading κ ν ν := read place done

def run (memory : κ → ν) : Reading κ ν α → α
  | done value => value
  | read place next => (next (memory place)).run memory

/-- The places in the order in which they are read. -/
def places (memory : κ → ν) : Reading κ ν α → List κ
  | done _ => []
  | read place next => place :: (next (memory place)).places memory

variable (memory : κ → ν)

@[simp] theorem run_pure (value : α) : (pure value : Reading κ ν α).run memory = value := rfl

@[simp] theorem run_fetch (place : κ) : (fetch place : Reading κ ν ν).run memory = memory place := rfl

@[simp] theorem run_bind (program : Reading κ ν α) (next : α → Reading κ ν β) :
    (program >>= next).run memory = (next (program.run memory)).run memory := by
  induction program with
  | done value => rfl
  | read place rest ih => exact ih (memory place)

theorem run_ite {c : Prop} [Decidable c] (left right : Reading κ ν α) :
    (if c then left else right).run memory = if c then left.run memory else right.run memory := by
  split_ifs
  · rfl
  · rfl

@[simp] theorem places_pure (value : α) : (pure value : Reading κ ν α).places memory = [] := rfl

@[simp] theorem places_fetch (place : κ) : (fetch place : Reading κ ν ν).places memory = [place] := rfl

@[simp] theorem places_bind (program : Reading κ ν α) (next : α → Reading κ ν β) :
    (program >>= next).places memory =
      program.places memory ++ (next (program.run memory)).places memory := by
  induction program with
  | done value => rfl
  | read place rest ih => exact congrArg (place :: ·) (ih (memory place))

/-- Every read goes to an allowed place. -/
def Within (allowed : κ → Prop) (program : Reading κ ν α) : Prop :=
  ∀ place ∈ program.places memory, allowed place

variable {memory} {allowed : κ → Prop}

theorem within_pure (value : α) : Within memory allowed (pure value) := by
  intro place impossible
  cases impossible

theorem within_fetch {place : κ} : Within memory allowed (fetch place) ↔ allowed place := by
  simp [Within]

theorem within_bind {program : Reading κ ν α} {next : α → Reading κ ν β} :
    Within memory allowed (program >>= next) ↔
      Within memory allowed program ∧ Within memory allowed (next (program.run memory)) := by
  simp only [Within, places_bind, List.mem_append, or_imp, forall_and]

theorem Within.bind {program : Reading κ ν α} {next : α → Reading κ ν β}
    (first : Within memory allowed program) (rest : Within memory allowed (next (program.run memory))) :
    Within memory allowed (program >>= next) := within_bind.mpr ⟨first, rest⟩

end Reading

end XInfer.BufferReads
