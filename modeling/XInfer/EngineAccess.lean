import XInfer.Interleaving
import Mathlib.Data.List.Pairwise

/-!
The engine calls of `handle_client` and what it locks around them. A request is one way
through the handler, including the ways that end in a catch block; `lock_guard` releases
the mutex before a handler of the `try` block it belongs to runs. Workers take requests
from one queue, and a call lasts from the step that enters it to the step that leaves it.
-/

namespace XInfer.EngineAccess

open Interleaving

inductive EngineCall where
  | applyChatTemplate
  | countTokens
  | validateTokens
  | maxSeqLen
  | thinkTokenIds
  | generate
  | reset
  deriving DecidableEq

/-- The calls that write to the tokenizer's cache or to the state of the engine. None of
that state has a lock of its own. -/
def EngineCall.changes : EngineCall → Bool
  | .countTokens | .generate | .reset => true
  | _ => false

inductive Action where
  | call (callee : EngineCall)
  | lock
  | unlock

/-- How the inference part of a request ends. -/
inductive Inference where
  | lockThrows
  | throwsBefore (idsAsked : Bool)
  | throwsAfter
  | completes

/-- How far a request gets: it is answered or thrown out of the handler after the calls
named by its constructor. -/
inductive Request where
  | early
  | templated
  | counted
  | validated
  | tooLong
  | inference (stream : Bool) (ending : Inference)

/-- A streaming request asks for the ids of the think markers. -/
def ids (asked : Bool) : List Action := if asked then [.call .thinkTokenIds, .call .thinkTokenIds] else []

def Inference.actions (stream : Bool) : Inference → List Action
  | .lockThrows => [.call .reset]
  | .throwsBefore asked => .lock :: ids (stream && asked) ++ [.unlock, .call .reset]
  | .throwsAfter => .lock :: ids stream ++ [.call .generate, .unlock, .call .reset]
  | .completes => .lock :: ids stream ++ [.call .generate, .unlock]

def Request.actions : Request → List Action
  | .early => []
  | .templated => [.call .applyChatTemplate]
  | .counted => [.call .applyChatTemplate, .call .countTokens]
  | .validated => [.call .applyChatTemplate, .call .countTokens, .call .validateTokens]
  | .tooLong => [.call .applyChatTemplate, .call .countTokens, .call .validateTokens, .call .maxSeqLen]
  | .inference stream ending => [.call .applyChatTemplate, .call .countTokens, .call .validateTokens] ++
      ending.actions stream

inductive Worker where
  | idle
  | between (request : Request) (rest : List Action)
  | inside (request : Request) (callee : EngineCall) (rest : List Action)

structure Server (n : Nat) where
  queue : List Request
  engineMutex : Option (Fin n)
  workers : Fin n → Worker

def start (n : Nat) (requests : List Request) : Server n where
  queue := requests
  engineMutex := none
  workers := fun _ => .idle

inductive Label (n : Nat) where
  | takes (worker : Fin n)
  | acts (worker : Fin n)
  | leaves (worker : Fin n)

def Server.worker {n : Nat} (server : Server n) (worker : Fin n) (pc : Worker) : Server n :=
  { server with workers := Function.update server.workers worker pc }

/-- The next action of a request. A lock that is held lets nobody in. -/
def act {n : Nat} (server : Server n) (worker : Fin n) (request : Request) :
    List Action → Option (Server n)
  | [] => some (server.worker worker .idle)
  | .call callee :: rest => some (server.worker worker (.inside request callee rest))
  | .lock :: rest => match server.engineMutex with
    | none => some { server.worker worker (.between request rest) with engineMutex := some worker }
    | some _ => none
  | .unlock :: rest => some { server.worker worker (.between request rest) with engineMutex := none }

def step {n : Nat} (server : Server n) : Label n → Option (Server n)
  | .takes worker => match server.workers worker, server.queue with
    | .idle, request :: rest => some
        { server.worker worker (.between request request.actions) with queue := rest }
    | _, _ => none
  | .acts worker => match server.workers worker with
    | .between request rest => act server worker request rest
    | _ => none
  | .leaves worker => match server.workers worker with
    | .inside request _ rest => some (server.worker worker (.between request rest))
    | _ => none

/-- Two workers are in the engine at once, and the call of one changes its state. -/
def Overlap {n : Nat} (server : Server n) : Prop :=
  ∃ first second, first ≠ second ∧
    ∃ request callee rest other met tail, server.workers first = .inside request callee rest ∧
      server.workers second = .inside other met tail ∧ callee.changes = true

/-- No order of steps lets two workers meet in the engine. -/
def Serialised (n : Nat) (requests : List Request) : Prop :=
  ∀ labels server, run step (start n requests) labels = some server → ¬ Overlap server

def Request.callsEngine : Request → Bool
  | .early => false
  | _ => true

def Request.countsTokens : Request → Bool
  | .early | .templated => false
  | _ => true

/-- Two requests that cannot disturb each other: one of them stays away from the engine,
or neither gets as far as `count_tokens`. -/
def Compatible (first second : Request) : Prop :=
  first.callsEngine = true → second.callsEngine = true →
    first.countsTokens = false ∧ second.countsTokens = false

section Invariant

variable {n : Nat}

/-- The actions left to a worker are the end of its request's. -/
def Follows (pc : Worker) : Prop := match pc with
  | .idle => True
  | .between request rest => rest <:+ request.actions
  | .inside request callee rest => .call callee :: rest <:+ request.actions

/-- The request a worker is at. -/
def Worker.request : Worker → Option Request
  | .idle => none
  | .between request _ | .inside request _ _ => some request

structure Quiet (server : Server n) : Prop where
  follows : ∀ worker, Follows (server.workers worker)
  queued : server.queue.Pairwise Compatible
  waiting : ∀ worker request, (server.workers worker).request = some request →
    ∀ later ∈ server.queue, Compatible request later
  apart : ∀ first second request other, first ≠ second → (server.workers first).request = some request →
    (server.workers second).request = some other → Compatible request other

theorem Compatible.symm {first second : Request} (compatible : Compatible first second) :
    Compatible second first := fun one other => (compatible other one).symm

theorem calls_of_mem {request : Request} {callee : EngineCall}
    (called : Action.call callee ∈ request.actions) : request.callsEngine = true := by
  cases request with
  | early => cases called
  | _ => rfl

/-- Before any call that changes the engine comes `count_tokens`. -/
theorem counts_of_mem {request : Request} {callee : EngineCall}
    (called : Action.call callee ∈ request.actions) (changes : callee.changes = true) :
    request.countsTokens = true := by
  cases request with
  | early => cases called
  | templated =>
      simp only [Request.actions, List.mem_singleton, Action.call.injEq] at called
      subst called
      cases changes
  | _ => rfl

theorem called_of_inside {request : Request} {callee : EngineCall} {rest : List Action}
    (follows : Follows (.inside request callee rest)) : Action.call callee ∈ request.actions :=
  follows.subset List.mem_cons_self

theorem Quiet.alone {server : Server n} (quiet : Quiet server) : ¬ Overlap server := by
  rintro ⟨first, second, differ, request, callee, rest, other, met, tail, one, two, changes⟩
  have called := called_of_inside (one ▸ quiet.follows first)
  have meets := called_of_inside (two ▸ quiet.follows second)
  have compatible := quiet.apart first second request other differ (by rw [one]; rfl) (by rw [two]; rfl)
  have stays := (compatible (calls_of_mem called) (calls_of_mem meets)).1
  exact absurd (counts_of_mem called changes) (by rw [stays]; exact nofun)

theorem start_quiet {requests : List Request} (compatible : requests.Pairwise Compatible) :
    Quiet (start n requests) where
  follows := fun _ => trivial
  queued := compatible
  waiting := nofun
  apart := nofun

/-- A worker that goes on with its request, or is through with it. -/
theorem Quiet.worker {server : Server n} (quiet : Quiet server) (worker : Fin n) (pc : Worker)
    (follows : Follows pc) (same : ∀ request, pc.request = some request →
      (server.workers worker).request = some request) (engineMutex : Option (Fin n)) :
    Quiet { server.worker worker pc with engineMutex := engineMutex } := by
  have earlier : ∀ other request, (Function.update server.workers worker pc other).request = some request →
      (server.workers other).request = some request := by
    intro other request now
    by_cases moved : other = worker
    · subst moved
      rw [Function.update_self] at now
      exact same request now
    · rwa [Function.update_of_ne moved] at now
  refine ⟨?_, quiet.queued, ?_, ?_⟩
  · intro other
    by_cases moved : other = worker
    · subst moved
      simpa [Server.worker] using follows
    · simpa [Server.worker, Function.update_of_ne moved] using quiet.follows other
  · exact fun other request now => quiet.waiting other request (earlier other request now)
  · exact fun first second request other differ one two =>
      quiet.apart first second request other differ (earlier _ _ one) (earlier _ _ two)

theorem Quiet.takes {server : Server n} (quiet : Quiet server) {worker : Fin n} {request : Request}
    {rest : List Request} (front : server.queue = request :: rest) :
    Quiet { server.worker worker (.between request request.actions) with queue := rest } := by
  obtain ⟨ahead, queued⟩ := List.pairwise_cons.mp (front ▸ quiet.queued)
  have known : ∀ other asked, (Function.update server.workers worker
      (.between request request.actions) other).request = some asked →
        (other = worker ∧ asked = request) ∨ (other ≠ worker ∧ (server.workers other).request = some asked) := by
    intro other asked now
    by_cases moved : other = worker
    · rw [moved, Function.update_self] at now
      exact Or.inl ⟨moved, (Option.some.inj now).symm⟩
    · rw [Function.update_of_ne moved] at now
      exact Or.inr ⟨moved, now⟩
  have inFront : ∀ other asked, (server.workers other).request = some asked → Compatible asked request :=
    fun other asked now => quiet.waiting other asked now request (by rw [front]; exact List.mem_cons_self)
  refine ⟨?_, queued, ?_, ?_⟩
  · intro other
    by_cases moved : other = worker
    · subst moved
      simp [Server.worker, Follows]
    · simpa [Server.worker, Function.update_of_ne moved] using quiet.follows other
  · intro other asked now later member
    rcases known other asked now with ⟨_, rfl⟩ | ⟨_, before⟩
    · exact ahead later member
    · exact quiet.waiting other asked before later (by rw [front]; exact List.mem_cons_of_mem _ member)
  · intro first second asked other differ one two
    rcases known first asked one with ⟨here, rfl⟩ | ⟨_, before⟩ <;>
      rcases known second other two with ⟨there, rfl⟩ | ⟨_, also⟩
    · exact absurd (here.trans there.symm) differ
    · exact (inFront second other also).symm
    · exact inFront first asked before
    · exact quiet.apart first second asked other differ before also

theorem step_quiet {server next : Server n} (label : Label n) (quiet : Quiet server)
    (moved : step server label = some next) : Quiet next := by
  cases label with
  | takes worker =>
      simp only [step] at moved
      split at moved
      · rename_i request rest idle front
        cases moved
        exact quiet.takes front
      · cases moved
  | acts worker =>
      have follows := quiet.follows worker
      cases pc : server.workers worker with
      | idle => simp [step, pc] at moved
      | inside request callee rest => simp [step, pc] at moved
      | between request rest =>
          rw [pc] at follows
          have same : ∀ asked, some request = some asked → (server.workers worker).request = some asked :=
            fun asked now => by rw [pc]; exact now
          simp only [step, pc] at moved
          cases rest with
          | nil =>
              cases moved
              exact quiet.worker worker .idle trivial nofun server.engineMutex
          | cons action rest =>
              have later : rest <:+ request.actions := (List.suffix_cons action rest).trans follows
              cases action with
              | call callee =>
                  cases moved
                  exact quiet.worker worker (.inside request callee rest) follows same server.engineMutex
              | lock =>
                  cases held : server.engineMutex with
                  | some owner => simp [act, held] at moved
                  | none =>
                      simp only [act, held, Option.some.injEq] at moved
                      subst moved
                      exact quiet.worker worker (.between request rest) later same (some worker)
              | unlock =>
                  cases moved
                  exact quiet.worker worker (.between request rest) later same none
  | leaves worker =>
      have follows := quiet.follows worker
      cases pc : server.workers worker with
      | idle => simp [step, pc] at moved
      | between request rest => simp [step, pc] at moved
      | inside request callee rest =>
          rw [pc] at follows
          simp only [step, pc, Option.some.injEq] at moved
          subst moved
          exact quiet.worker worker (.between request rest)
            ((List.suffix_cons _ rest).trans follows) (fun asked now => by rw [pc]; exact now)
            server.engineMutex

/-- Every lock of the actions is released again, and none is taken twice. -/
def Balanced : Bool → List Action → Bool
  | held, [] => !held
  | held, .call _ :: rest => Balanced held rest
  | false, .lock :: rest => Balanced true rest
  | true, .unlock :: rest => Balanced false rest
  | _, _ => false

theorem actions_balanced (request : Request) : Balanced false request.actions = true := by
  cases request with
  | inference stream ending => cases ending with
    | throwsBefore asked => cases stream <;> cases asked <;> rfl
    | lockThrows => rfl
    | throwsAfter | completes => cases stream <;> rfl
  | _ => rfl

theorem worker_worker (server : Server n) (worker : Fin n) (pc last : Worker) :
    (server.worker worker pc).worker worker last = server.worker worker last := by
  simp only [Server.worker, Function.update_idem]

theorem worker_at (server : Server n) (worker : Fin n) (pc : Worker) :
    (server.worker worker pc).workers worker = pc := by
  simp only [Server.worker, Function.update_self]

theorem enters {worker : Fin n} {request : Request} {callee : EngineCall} {rest : List Action}
    {server : Server n} (pc : server.workers worker = .between request (.call callee :: rest)) :
    Reaches step server (server.worker worker (.inside request callee rest)) := by
  have acts : step server (.acts worker) = some (server.worker worker (.inside request callee rest)) := by
    simp only [step, pc, act]
  exact Reaches.single acts

/-- A call that is entered is left again. -/
theorem calls {worker : Fin n} {request : Request} {callee : EngineCall} {rest : List Action}
    {server : Server n} (pc : server.workers worker = .between request (.call callee :: rest)) :
    Reaches step server (server.worker worker (.between request rest)) := by
  have leaves : step (server.worker worker (.inside request callee rest)) (.leaves worker) =
      some (server.worker worker (.between request rest)) := by
    simp only [step, worker_at, worker_worker]
  exact (enters pc).trans (Reaches.single leaves)

/-- A worker that nobody keeps out finishes its request. -/
theorem finishes {worker : Fin n} {request : Request} {rest : List Action} {held : Bool}
    {server : Server n} (pc : server.workers worker = .between request rest)
    (balanced : Balanced held rest = true) (mutex : server.engineMutex = if held then some worker else none) :
    Reaches step server { server.worker worker .idle with engineMutex := none } := by
  induction rest generalizing held server with
  | nil => cases held with
    | true => cases balanced
    | false =>
        have ends : step server (.acts worker) = some { server.worker worker .idle with engineMutex := none } := by
          simp only [step, pc, act]
          cases server
          cases mutex
          rfl
        exact Reaches.single ends
  | cons action rest ih =>
      have later : ∀ (held : Bool) (engineMutex : Option (Fin n)), Balanced held rest = true →
          engineMutex = (if held then some worker else none) →
          Reaches step { server.worker worker (.between request rest) with engineMutex := engineMutex }
            { server.worker worker .idle with engineMutex := none } := by
        intro held engineMutex balanced mutex
        have here : ({ server.worker worker (.between request rest) with
            engineMutex := engineMutex } : Server n).workers worker = .between request rest :=
          worker_at server worker _
        have goes := ih here balanced mutex
        simp only [Server.worker, Function.update_idem] at goes ⊢
        exact goes
      cases action with
      | call callee =>
          refine (calls pc).trans ?_
          exact later held server.engineMutex balanced mutex
      | lock => cases held with
        | true => cases balanced
        | false =>
            have locks : step server (.acts worker) =
                some { server.worker worker (.between request rest) with engineMutex := some worker } := by
              simp only [step, pc, act, mutex]
              rfl
            exact (Reaches.single locks).trans (later true (some worker) balanced rfl)
      | unlock => cases held with
        | false => cases balanced
        | true =>
            have unlocks : step server (.acts worker) =
                some { server.worker worker (.between request rest) with engineMutex := none } := by
              simp only [step, pc, act]
            exact (Reaches.single unlocks).trans (later false none balanced rfl)

/-- An idle worker serves the front of the queue, as long as the lock is free. -/
theorem serves (worker : Fin n) (server : Server n) (idle : server.workers worker = .idle)
    (free : server.engineMutex = none) {first rest : List Request} (queued : server.queue = first ++ rest) :
    Reaches step server { server with queue := rest } := by
  induction first generalizing server with
  | nil =>
      rw [List.nil_append] at queued
      subst queued
      exact Reaches.refl server
  | cons request first ih =>
      have takes : step server (.takes worker) = some
          { server.worker worker (.between request request.actions) with queue := first ++ rest } := by
        simp only [step, idle, queued, List.cons_append]
      have here : ({ server.worker worker (.between request request.actions) with
          queue := first ++ rest } : Server n).workers worker = .between request request.actions :=
        worker_at server worker _
      have done := finishes here (actions_balanced request) free
      have back : Function.update server.workers worker .idle = server.workers := by
        rw [← idle, Function.update_eq_self]
      simp only [Server.worker, Function.update_idem, back, ← free] at done
      have next : Reaches step { server with queue := first ++ rest } { server with queue := rest } :=
        ih _ idle free rfl
      exact (Reaches.single takes).trans (done.trans next)

/-- A worker that takes a request gets into either of its first two calls. -/
theorem takesUpTo (worker : Fin n) (server : Server n) {request : Request} {rest : List Request}
    (idle : server.workers worker = .idle) (front : server.queue = request :: rest) {callee : EngineCall}
    (called : (callee = .applyChatTemplate ∧ request.callsEngine = true) ∨
      (callee = .countTokens ∧ request.countsTokens = true)) :
    ∃ tail, Reaches step server { server.worker worker (.inside request callee tail) with queue := rest } := by
  have takes : step server (.takes worker) = some
      { server.worker worker (.between request request.actions) with queue := rest } := by
    simp only [step, idle, front]
  have here : ({ server.worker worker (.between request request.actions) with
      queue := rest } : Server n).workers worker = .between request request.actions :=
    worker_at server worker _
  rcases called with ⟨rfl, engine⟩ | ⟨rfl, counts⟩
  · obtain ⟨tail, actions⟩ : ∃ tail, request.actions = .call .applyChatTemplate :: tail := by
      cases request with
      | early => cases engine
      | _ => exact ⟨_, rfl⟩
    have inside := enters (here.trans (congrArg (Worker.between request) actions))
    simp only [Server.worker, Function.update_idem] at inside
    exact ⟨tail, (Reaches.single takes).trans inside⟩
  · obtain ⟨tail, actions⟩ : ∃ tail, request.actions =
        .call .applyChatTemplate :: .call .countTokens :: tail := by
      cases request with
      | early | templated => cases counts
      | _ => exact ⟨_, rfl⟩
    have past := calls (here.trans (congrArg (Worker.between request) actions))
    have inside := enters (worker_at ({ server.worker worker (.between request request.actions) with
      queue := rest } : Server n) worker (.between request (.call .countTokens :: tail)))
    simp only [Server.worker, Function.update_idem] at past inside
    exact ⟨tail, (Reaches.single takes).trans (past.trans inside)⟩

end Invariant

/-- Somewhere in the list two requests disturb each other. -/
theorem disturbed {requests : List Request} (apart : ¬ requests.Pairwise Compatible) :
    ∃ before first between second after,
      requests = before ++ first :: (between ++ second :: after) ∧ ¬ Compatible first second := by
  induction requests with
  | nil => exact absurd List.Pairwise.nil apart
  | cons request rest ih =>
      by_cases later : rest.Pairwise Compatible
      · have here : ¬ ∀ other ∈ rest, Compatible request other := fun all =>
          apart (List.pairwise_cons.mpr ⟨all, later⟩)
        simp only [not_forall] at here
        obtain ⟨other, member, disturbs⟩ := here
        obtain ⟨between, after, split⟩ := List.append_of_mem member
        exact ⟨[], request, between, other, after, by rw [split]; rfl, disturbs⟩
      · obtain ⟨before, first, between, second, after, split, disturbs⟩ := ih later
        exact ⟨request :: before, first, between, second, after, by rw [split]; rfl, disturbs⟩

/-- Two workers meet over two requests: one stays inside its call while the other serves
what lies between and gets into its own. -/
theorem meets {n : Nat} {one two : Fin n} (differ : one ≠ two) (before between after : List Request)
    {first second : Request} {callee met : EngineCall}
    (here : (callee = .applyChatTemplate ∧ first.callsEngine = true) ∨
      (callee = .countTokens ∧ first.countsTokens = true))
    (there : (met = .applyChatTemplate ∧ second.callsEngine = true) ∨
      (met = .countTokens ∧ second.countsTokens = true)) :
    ∃ server rest tail, Reaches step (start n (before ++ first :: (between ++ second :: after))) server ∧
      server.workers one = .inside first callee rest ∧ server.workers two = .inside second met tail := by
  have served := serves one (start n (before ++ first :: (between ++ second :: after))) rfl rfl rfl
  obtain ⟨rest, stays⟩ := takesUpTo one (start n (first :: (between ++ second :: after))) rfl rfl here
  -- the second worker finds the lock free: the first holds none inside its call
  let held : Server n := { (start n (first :: (between ++ second :: after))).worker one
    (.inside first callee rest) with queue := between ++ second :: after }
  have idle : held.workers two = .idle := by
    simp only [held, Server.worker, Function.update_of_ne (Ne.symm differ)]
    rfl
  have passed := serves two held idle rfl rfl
  obtain ⟨tail, inside⟩ := takesUpTo two { held with queue := second :: after } idle rfl there
  refine ⟨_, rest, tail, served.trans (stays.trans (passed.trans inside)), ?_, ?_⟩
  · simp only [held, Server.worker, Function.update_of_ne differ, Function.update_self]
  · simp only [Server.worker, Function.update_self]

theorem overlaps {n : Nat} (workers : 2 ≤ n) {requests : List Request}
    (apart : ¬ requests.Pairwise Compatible) : ¬ Serialised n requests := by
  obtain ⟨before, first, between, second, after, rfl, disturbs⟩ := disturbed apart
  have engine : first.callsEngine = true := by
    by_contra away
    exact disturbs fun calls _ => absurd calls away
  have other : second.callsEngine = true := by
    by_contra away
    exact disturbs fun _ calls => absurd calls away
  have counts : first.countsTokens = true ∨ second.countsTokens = true := by
    by_contra neither
    exact disturbs fun _ _ => by simpa [not_or] using neither
  have differ : (⟨0, by omega⟩ : Fin n) ≠ ⟨1, by omega⟩ := by simp
  intro serialised
  rcases counts with counts | counts
  · obtain ⟨server, rest, tail, ⟨labels, runs⟩, one, two⟩ := meets differ before between after
      (Or.inr ⟨rfl, counts⟩) (Or.inl ⟨rfl, other⟩)
    exact serialised labels server runs ⟨_, _, differ, _, _, _, _, _, _, one, two, rfl⟩
  · obtain ⟨server, rest, tail, ⟨labels, runs⟩, one, two⟩ := meets differ before between after
      (Or.inl ⟨rfl, engine⟩) (Or.inr ⟨rfl, counts⟩)
    exact serialised labels server runs ⟨_, _, differ.symm, _, _, _, _, _, _, two, one, rfl⟩

/-- Engine access is serialised exactly when there is one worker, or of any two requests
of the list one stays away from the engine or neither gets to `count_tokens`. -/
theorem serialised_iff (n : Nat) (requests : List Request) :
    Serialised n requests ↔ n ≤ 1 ∨ requests.Pairwise Compatible := by
  constructor
  · intro serialised
    by_cases alone : n ≤ 1
    · exact Or.inl alone
    · by_contra apart
      exact overlaps (by omega) (fun pairwise => apart (Or.inr pairwise)) serialised
  · rintro (alone | compatible) labels server runs
    · rintro ⟨first, second, differ, _⟩
      exact differ (Fin.ext (by omega))
    · exact (run_invariant Quiet (fun _ label _ quiet => step_quiet label quiet)
        (start_quiet compatible) runs).alone

/-- Two plain requests: one worker fills the tokenizer's cache while the other generates
under the lock. -/
theorem generate_overlapped : ¬ ∀ n requests, Serialised n requests := by
  intro claim
  have serialised := claim 2 [.inference false .completes, .inference false .completes]
    [.takes 0, .acts 0, .leaves 0, .acts 0, .leaves 0, .acts 0, .leaves 0, .acts 0, .acts 0,
      .takes 1, .acts 1, .leaves 1, .acts 1] _ rfl
  exact serialised ⟨0, 1, by decide, _, _, _, _, _, _, rfl, rfl, rfl⟩

end XInfer.EngineAccess
