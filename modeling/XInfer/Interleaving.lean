import Mathlib.Algebra.BigOperators.Fin
import Mathlib.Algebra.Order.BigOperators.Group.Finset
import Mathlib.Tactic.Common

/-!
Runs of a system whose parts take their steps in any order. A step is a partial function
of the state and a label that says which part moves; a run is a list of labels none of
which is disabled where it is taken. Threads of one kind are a family of program counters,
and what they hold together is a sum over the family.
-/

namespace XInfer.Interleaving

section Runs

variable {State Label : Type} (step : State → Label → Option State)

def run (state : State) : List Label → Option State
  | [] => some state
  | label :: rest => match step state label with
    | some next => run next rest
    | none => none

variable {step}

theorem run_cons {state last : State} {label : Label} {rest : List Label}
    (runs : run step state (label :: rest) = some last) :
    ∃ next, step state label = some next ∧ run step next rest = some last := by
  unfold run at runs
  cases moved : step state label with
  | none => simp [moved] at runs
  | some next =>
      rw [moved] at runs
      exact ⟨next, rfl, runs⟩

/-- What every step of an allowed label keeps, a run of such labels keeps. -/
theorem run_keeps (allowed : Label → Prop) (invariant : State → Prop)
    (keeps : ∀ state label next, allowed label → invariant state → step state label = some next →
      invariant next)
    {state last : State} {labels : List Label} (all : ∀ label ∈ labels, allowed label)
    (start : invariant state) (runs : run step state labels = some last) : invariant last := by
  induction labels generalizing state with
  | nil =>
      cases runs
      exact start
  | cons label rest ih =>
      obtain ⟨next, moved, runs⟩ := run_cons runs
      have here := keeps state label next (all label List.mem_cons_self) start moved
      exact ih (fun later member => all later (List.mem_cons_of_mem _ member)) here runs

theorem run_invariant (invariant : State → Prop)
    (keeps : ∀ state label next, invariant state → step state label = some next → invariant next)
    {state last : State} {labels : List Label} (start : invariant state)
    (runs : run step state labels = some last) : invariant last :=
  run_keeps (fun _ => True) invariant (fun state label next _ => keeps state label next)
    (fun _ _ => trivial) start runs

theorem run_append {state middle last : State} {first second : List Label}
    (here : run step state first = some middle) (there : run step middle second = some last) :
    run step state (first ++ second) = some last := by
  induction first generalizing state with
  | nil =>
      cases here
      exact there
  | cons label rest ih =>
      obtain ⟨next, moved, here⟩ := run_cons here
      rw [List.cons_append, run, moved]
      exact ih here

variable (step) in
def Reaches (state last : State) : Prop := ∃ labels, run step state labels = some last

theorem Reaches.refl (state : State) : Reaches step state state := ⟨[], rfl⟩

theorem Reaches.trans {state middle last : State} (first : Reaches step state middle)
    (second : Reaches step middle last) : Reaches step state last := by
  obtain ⟨here, runs⟩ := first
  obtain ⟨there, goes⟩ := second
  exact ⟨here ++ there, run_append runs goes⟩

theorem Reaches.single {state next : State} {label : Label} (moved : step state label = some next) :
    Reaches step state next := ⟨[label], by rw [run, moved]; rfl⟩

end Runs

section Threads

variable {Pc : Type} {n : Nat}

/-- What the threads hold together. -/
def total (weight : Pc → Nat) (threads : Fin n → Pc) : Nat := ∑ thread, weight (threads thread)

theorem total_update (weight : Pc → Nat) (threads : Fin n → Pc) (thread : Fin n) (pc : Pc) :
    total weight (Function.update threads thread pc) + weight (threads thread) =
      total weight threads + weight pc := by
  have rest : ∑ other ∈ Finset.univ.erase thread, weight (Function.update threads thread pc other) =
      ∑ other ∈ Finset.univ.erase thread, weight (threads other) :=
    Finset.sum_congr rfl fun other member => by
      rw [Function.update_of_ne (Finset.ne_of_mem_erase member)]
  have before := Finset.add_sum_erase Finset.univ (fun other => weight (threads other)) (Finset.mem_univ thread)
  have after := Finset.add_sum_erase Finset.univ
    (fun other => weight (Function.update threads thread pc other)) (Finset.mem_univ thread)
  rw [rest, Function.update_self] at after
  unfold total
  omega

theorem total_eq_zero {weight : Pc → Nat} {threads : Fin n → Pc}
    (empty : ∀ thread, weight (threads thread) = 0) : total weight threads = 0 :=
  Finset.sum_eq_zero fun thread _ => empty thread

/-- Two threads hold together no more than all of them. -/
theorem total_two_le (weight : Pc → Nat) (threads : Fin n → Pc) {first second : Fin n}
    (apart : second ≠ first) : weight (threads first) + weight (threads second) ≤ total weight threads := by
  have split := Finset.add_sum_erase Finset.univ (fun other => weight (threads other)) (Finset.mem_univ first)
  have single : weight (threads second) ≤ ∑ other ∈ Finset.univ.erase first, weight (threads other) :=
    Finset.single_le_sum (fun other _ => Nat.zero_le (weight (threads other)))
      (Finset.mem_erase.mpr ⟨apart, Finset.mem_univ second⟩)
  unfold total
  omega

end Threads

end XInfer.Interleaving
