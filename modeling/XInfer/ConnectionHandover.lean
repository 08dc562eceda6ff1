import XInfer.Interleaving
import Mathlib.Data.List.Count

/-!
`accept_loop`, `worker_loop` and `stop` of `HttpServer`, one step for each critical section
or blocking call. A socket is named by its place in the order of acceptance. `accept`
may return a connection at any time, also after its own socket was closed. A handler
that returns has closed its socket; one that throws has not. Notifications have no step
of their own: a worker may look at the queue whenever its wait would let it through.
-/

namespace XInfer.ConnectionHandover

open Interleaving

inductive Acceptor where
  | test
  | accepting
  | invalid
  | accepted (socket : Nat)
  | enqueued
  | rejecting (socket : Nat)
  | done
  deriving DecidableEq

inductive Worker where
  | test
  | waiting
  | handling (socket : Nat)
  | done
  deriving DecidableEq

/-- The caller of `stop`, by what it does next. -/
inductive Stopper where
  | idle
  | closesListener
  | joinsAcceptor
  | wakesWorkers
  | joinsWorkers
  | drains
  | returned
  deriving DecidableEq

structure Server (n : Nat) where
  isRunning : Bool
  clientQueue : List Nat
  acceptor : Acceptor
  workers : Fin n → Worker
  stopper : Stopper
  /-- How many sockets were accepted, and how often each was handled, closed, thrown over. -/
  accepted : Nat
  handled : Nat → Nat
  closed : Nat → Nat
  thrown : Nat → Nat

inductive Label (n : Nat) where
  | acceptTests
  | acceptReturns (valid : Bool)
  | acceptRetries
  | acceptEnqueues
  | acceptNotifies
  | acceptRejects
  | workerTests (worker : Fin n)
  | workerTakes (worker : Fin n)
  | handlerReturns (worker : Fin n)
  | handlerThrows (worker : Fin n)
  | stopFlags
  | stopCloses
  | stopJoinsAcceptor
  | stopWakes
  | stopJoinsWorkers
  | stopDrains

/-- A server right after `start`. -/
def start (n : Nat) : Server n where
  isRunning := true
  clientQueue := []
  acceptor := .test
  workers := fun _ => .test
  stopper := .idle
  accepted := 0
  handled := fun _ => 0
  closed := fun _ => 0
  thrown := fun _ => 0

def bump (count : Nat → Nat) (socket : Nat) : Nat → Nat :=
  fun other => if other = socket then count other + 1 else count other

def Server.close {n : Nat} (server : Server n) (socket : Nat) : Server n :=
  { server with closed := bump server.closed socket }

def Server.worker {n : Nat} (server : Server n) (worker : Fin n) (pc : Worker) : Server n :=
  { server with workers := Function.update server.workers worker pc }

/-- The part of the wait that follows a true predicate. -/
def take {n : Nat} (server : Server n) (worker : Fin n) : Option (Server n) :=
  match server.clientQueue with
  | socket :: rest => some
      { server.worker worker (.handling socket) with
        clientQueue := rest
        handled := bump server.handled socket }
  | [] => if server.isRunning then none else some (server.worker worker .done)

def step (maxQueuedRequests : Nat) {n : Nat} (server : Server n) : Label n → Option (Server n)
  | .acceptTests => match server.acceptor with
    | .test => some { server with acceptor := if server.isRunning then .accepting else .done }
    | _ => none
  | .acceptReturns valid => match server.acceptor with
    | .accepting => some (if valid then
        { server with acceptor := .accepted server.accepted, accepted := server.accepted + 1 }
      else { server with acceptor := .invalid })
    | _ => none
  | .acceptRetries => match server.acceptor with
    | .invalid => some { server with acceptor := if server.isRunning then .test else .done }
    | _ => none
  | .acceptEnqueues => match server.acceptor with
    | .accepted socket => some (if server.clientQueue.length < maxQueuedRequests then
        { server with clientQueue := server.clientQueue ++ [socket], acceptor := .enqueued }
      else { server with acceptor := .rejecting socket })
    | _ => none
  | .acceptNotifies => match server.acceptor with
    | .enqueued => some { server with acceptor := .test }
    | _ => none
  | .acceptRejects => match server.acceptor with
    | .rejecting socket => some { server.close socket with acceptor := .test }
    | _ => none
  | .workerTests worker => match server.workers worker with
    | .test => some (server.worker worker (if server.isRunning then .waiting else .done))
    | _ => none
  | .workerTakes worker => match server.workers worker with
    | .waiting => take server worker
    | _ => none
  | .handlerReturns worker => match server.workers worker with
    | .handling socket => some ((server.close socket).worker worker .test)
    | _ => none
  | .handlerThrows worker => match server.workers worker with
    | .handling socket => some
        { server.worker worker .test with thrown := bump server.thrown socket }
    | _ => none
  | .stopFlags => match server.stopper with
    | .idle => some { server with isRunning := false, stopper := .closesListener }
    | _ => none
  | .stopCloses => match server.stopper with
    | .closesListener => some { server with stopper := .joinsAcceptor }
    | _ => none
  | .stopJoinsAcceptor => match server.stopper, server.acceptor with
    | .joinsAcceptor, .done => some { server with stopper := .wakesWorkers }
    | _, _ => none
  | .stopWakes => match server.stopper with
    | .wakesWorkers => some { server with stopper := .joinsWorkers }
    | _ => none
  | .stopJoinsWorkers => match server.stopper with
    | .joinsWorkers =>
        if ∀ worker, server.workers worker = .done then some { server with stopper := .drains } else none
    | _ => none
  | .stopDrains => match server.stopper, server.clientQueue with
    | .drains, socket :: rest => some { server.close socket with clientQueue := rest }
    | .drains, [] => some { server with stopper := .returned }
    | _, _ => none

section Ownership

variable {n : Nat}

def acceptorHolds (socket : Nat) : Acceptor → Nat
  | .accepted held | .rejecting held => if socket = held then 1 else 0
  | _ => 0

def workerHolds (socket : Nat) : Worker → Nat
  | .handling held => if socket = held then 1 else 0
  | _ => 0

/-- How many times a socket is held, closed or left behind. -/
def places (server : Server n) (socket : Nat) : Nat :=
  acceptorHolds socket server.acceptor + server.clientQueue.count socket +
    total (workerHolds socket) server.workers + server.closed socket + server.thrown socket

/-- How many times a socket was handed to a handler or still can be. -/
def handlings (server : Server n) (socket : Nat) : Nat :=
  acceptorHolds socket server.acceptor + server.clientQueue.count socket + server.handled socket

def acceptorJoined : Stopper → Bool
  | .wakesWorkers | .joinsWorkers | .drains | .returned => true
  | _ => false

def workersJoined : Stopper → Bool
  | .drains | .returned => true
  | _ => false

structure Owned (maxQueuedRequests : Nat) (server : Server n) : Prop where
  bounded : server.clientQueue.length ≤ maxQueuedRequests
  placed : ∀ socket, places server socket = if socket < server.accepted then 1 else 0
  once : ∀ socket, handlings server socket ≤ if socket < server.accepted then 1 else 0
  accepting : acceptorJoined server.stopper = true → server.acceptor = .done
  working : workersJoined server.stopper = true → ∀ worker, server.workers worker = .done
  drained : server.stopper = .returned → server.clientQueue = []

theorem bump_apply (count : Nat → Nat) (socket other : Nat) :
    bump count socket other = count other + if other = socket then 1 else 0 := by
  unfold bump
  split <;> rfl

theorem count_front (socket other : Nat) (rest : List Nat) :
    (socket :: rest).count other = rest.count other + if other = socket then 1 else 0 := by
  rw [List.count_cons]
  by_cases same : other = socket
  · simp [same]
  · simp [same, Ne.symm same]

theorem count_snoc (socket other : Nat) (queue : List Nat) :
    (queue ++ [socket]).count other = queue.count other + if other = socket then 1 else 0 := by
  rw [List.count_append, count_front, List.count_nil, Nat.zero_add]

theorem start_owned (maxQueuedRequests : Nat) : Owned maxQueuedRequests (start n) where
  bounded := Nat.zero_le _
  placed := fun socket => by
    have idle : total (workerHolds socket) (fun _ : Fin n => Worker.test) = 0 := total_eq_zero fun _ => rfl
    simp [places, start, acceptorHolds, idle]
  once := fun socket => by simp [handlings, start, acceptorHolds]
  accepting := nofun
  working := nofun
  drained := nofun

variable {maxQueuedRequests : Nat} {server next : Server n}

theorem places_worker (server : Server n) (worker : Fin n) (pc : Worker) (socket : Nat) :
    places (server.worker worker pc) socket + workerHolds socket (server.workers worker) =
      places server socket + workerHolds socket pc := by
  have moved := total_update (workerHolds socket) server.workers worker pc
  simp only [places, Server.worker]
  omega

/-- Before it has been joined the acceptor is in nobody's way. -/
theorem Owned.running (owned : Owned maxQueuedRequests server) (active : server.acceptor ≠ .done) :
    acceptorJoined server.stopper = false := by
  cases joined : acceptorJoined server.stopper with
  | false => rfl
  | true => exact absurd (owned.accepting joined) active

/-- A step of the acceptor that moves no socket. -/
theorem Owned.idle (owned : Owned maxQueuedRequests server) {pc : Acceptor}
    (active : server.acceptor ≠ .done)
    (same : ∀ socket, acceptorHolds socket pc = acceptorHolds socket server.acceptor) :
    Owned maxQueuedRequests { server with acceptor := pc } where
  bounded := owned.bounded
  placed := fun socket => by
    have before := owned.placed socket
    simpa only [places, same] using before
  once := fun socket => by
    have before := owned.once socket
    simpa only [handlings, same] using before
  accepting := fun joined => absurd (owned.running active) (by rw [joined]; exact nofun)
  working := owned.working
  drained := owned.drained

/-- A step of a worker that moves no socket. -/
theorem Owned.workerIdle (owned : Owned maxQueuedRequests server) {worker : Fin n} {pc : Worker}
    (active : server.workers worker ≠ .done)
    (same : ∀ socket, workerHolds socket pc = workerHolds socket (server.workers worker)) :
    Owned maxQueuedRequests (server.worker worker pc) where
  bounded := owned.bounded
  placed := fun socket => by
    have moved := places_worker server worker pc socket
    rw [same] at moved
    exact (Nat.add_right_cancel moved).trans (owned.placed socket)
  once := owned.once
  accepting := owned.accepting
  working := fun joined => absurd (owned.working joined worker) active
  drained := owned.drained

/-- A connection comes in under the next name. -/
theorem Owned.admit (owned : Owned maxQueuedRequests server) (pc : server.acceptor = .accepting) :
    Owned maxQueuedRequests
      { server with acceptor := .accepted server.accepted, accepted := server.accepted + 1 } where
  bounded := owned.bounded
  placed := fun socket => by
    have before := owned.placed socket
    simp only [places, pc, acceptorHolds] at before ⊢
    split <;> split at before <;> split <;> omega
  once := fun socket => by
    have before := owned.once socket
    simp only [handlings, pc, acceptorHolds] at before ⊢
    split <;> split at before <;> split <;> omega
  accepting := fun joined => absurd (owned.running (by rw [pc]; exact nofun)) (by rw [joined]; exact nofun)
  working := owned.working
  drained := owned.drained

theorem Owned.enqueue (owned : Owned maxQueuedRequests server) {socket : Nat}
    (pc : server.acceptor = .accepted socket) (room : server.clientQueue.length < maxQueuedRequests) :
    Owned maxQueuedRequests
      { server with clientQueue := server.clientQueue ++ [socket], acceptor := .enqueued } where
  bounded := by
    rw [List.length_append]
    exact room
  placed := fun other => by
    have before := owned.placed other
    simp only [places, pc, acceptorHolds, count_snoc] at before ⊢
    omega
  once := fun other => by
    have before := owned.once other
    simp only [handlings, pc, acceptorHolds, count_snoc] at before ⊢
    omega
  accepting := fun joined => absurd (owned.running (by rw [pc]; exact nofun)) (by rw [joined]; exact nofun)
  working := owned.working
  drained := fun returned => absurd (owned.running (by rw [pc]; exact nofun))
    (by rw [show server.stopper = .returned from returned]; exact nofun)

/-- The acceptor closes what it holds. -/
theorem Owned.reject (owned : Owned maxQueuedRequests server) {socket : Nat}
    (pc : server.acceptor = .rejecting socket) :
    Owned maxQueuedRequests { server.close socket with acceptor := .test } where
  bounded := owned.bounded
  placed := fun other => by
    have before := owned.placed other
    simp only [places, pc, acceptorHolds, Server.close, bump_apply] at before ⊢
    omega
  once := fun other => by
    have before := owned.once other
    simp only [handlings, pc, acceptorHolds, Server.close] at before ⊢
    omega
  accepting := fun joined => absurd (owned.running (by rw [pc]; exact nofun))
    (by rw [show acceptorJoined server.stopper = true from joined]; exact nofun)
  working := owned.working
  drained := owned.drained

/-- The queue without its front. -/
theorem Owned.shorter (owned : Owned maxQueuedRequests server) {socket : Nat} {rest : List Nat}
    (front : server.clientQueue = socket :: rest) : rest.length ≤ maxQueuedRequests := by
  have before := owned.bounded
  rw [front, List.length_cons] at before
  exact Nat.le_of_succ_le before

/-- The front of the queue goes to a worker. -/
theorem Owned.take (owned : Owned maxQueuedRequests server) {worker : Fin n} {socket : Nat}
    {rest : List Nat} (pc : server.workers worker = .waiting) (front : server.clientQueue = socket :: rest) :
    Owned maxQueuedRequests { server.worker worker (.handling socket) with
      clientQueue := rest
      handled := bump server.handled socket } where
  bounded := owned.shorter front
  placed := fun other => by
    have before := owned.placed other
    have moved := total_update (workerHolds other) server.workers worker (.handling socket)
    simp only [places, front, count_front, Server.worker, pc, workerHolds] at before moved ⊢
    omega
  once := fun other => by
    have before := owned.once other
    simp only [handlings, front, count_front, Server.worker, bump_apply] at before ⊢
    omega
  accepting := owned.accepting
  working := fun joined => absurd (owned.working joined worker) (by rw [pc]; exact nofun)
  drained := fun returned => absurd (owned.drained returned) (by rw [front]; exact nofun)

/-- A worker closes what it handled, or leaves it behind. -/
theorem Owned.release (owned : Owned maxQueuedRequests server) {worker : Fin n} {socket : Nat}
    (pc : server.workers worker = .handling socket) {closed thrown : Nat → Nat}
    (gone : ∀ other, closed other + thrown other =
      server.closed other + server.thrown other + if other = socket then 1 else 0) :
    Owned maxQueuedRequests { server.worker worker .test with closed := closed, thrown := thrown } where
  bounded := owned.bounded
  placed := fun other => by
    have before := owned.placed other
    have moved := total_update (workerHolds other) server.workers worker .test
    have now := gone other
    change _ = if other < server.accepted then 1 else 0
    simp only [places, Server.worker, pc, workerHolds] at before moved ⊢
    omega
  once := owned.once
  accepting := owned.accepting
  working := fun joined => absurd (owned.working joined worker) (by rw [pc]; exact nofun)
  drained := owned.drained

/-- `stop` closes the front of the queue. -/
theorem Owned.drain (owned : Owned maxQueuedRequests server) {socket : Nat} {rest : List Nat}
    (front : server.clientQueue = socket :: rest) :
    Owned maxQueuedRequests { server.close socket with clientQueue := rest } where
  bounded := owned.shorter front
  placed := fun other => by
    have before := owned.placed other
    simp only [places, front, count_front, Server.close, bump_apply] at before ⊢
    omega
  once := fun other => by
    have before := owned.once other
    simp only [handlings, front, count_front, Server.close] at before ⊢
    omega
  accepting := owned.accepting
  working := owned.working
  drained := fun returned => absurd (owned.drained returned) (by rw [front]; exact nofun)

/-- `stop` goes on, with what it has joined by then. -/
theorem Owned.stops (owned : Owned maxQueuedRequests server) (isRunning : Bool) {pc : Stopper}
    (accepting : acceptorJoined pc = true → server.acceptor = .done)
    (working : workersJoined pc = true → ∀ worker, server.workers worker = .done)
    (drained : pc = .returned → server.clientQueue = []) :
    Owned maxQueuedRequests { server with isRunning := isRunning, stopper := pc } :=
  { owned with accepting := accepting, working := working, drained := drained }

theorem step_owned (label : Label n) (owned : Owned maxQueuedRequests server)
    (moved : step maxQueuedRequests server label = some next) : Owned maxQueuedRequests next := by
  cases label with
  | acceptTests =>
      cases pc : server.acceptor <;> simp only [step, pc, reduceCtorEq, Option.some.injEq] at moved
      subst moved
      exact owned.idle (by simp [pc]) fun socket => by rw [pc]; cases server.isRunning <;> rfl
  | acceptReturns valid =>
      cases pc : server.acceptor <;> simp only [step, pc, reduceCtorEq, Option.some.injEq] at moved
      subst moved
      cases valid with
      | true => exact owned.admit pc
      | false => exact owned.idle (by simp [pc]) fun socket => by rw [pc]; rfl
  | acceptRetries =>
      cases pc : server.acceptor <;> simp only [step, pc, reduceCtorEq, Option.some.injEq] at moved
      subst moved
      exact owned.idle (by simp [pc]) fun socket => by rw [pc]; cases server.isRunning <;> rfl
  | acceptEnqueues =>
      cases pc : server.acceptor <;> simp only [step, pc, reduceCtorEq, Option.some.injEq] at moved
      subst moved
      split
      · rename_i room
        exact owned.enqueue pc room
      · exact owned.idle (by simp [pc]) fun socket => by rw [pc]; rfl
  | acceptNotifies =>
      cases pc : server.acceptor <;> simp only [step, pc, reduceCtorEq, Option.some.injEq] at moved
      subst moved
      exact owned.idle (by simp [pc]) fun socket => by rw [pc]; rfl
  | acceptRejects =>
      cases pc : server.acceptor <;> simp only [step, pc, reduceCtorEq, Option.some.injEq] at moved
      subst moved
      exact owned.reject pc
  | workerTests worker =>
      cases pc : server.workers worker <;> simp only [step, pc, reduceCtorEq, Option.some.injEq] at moved
      subst moved
      exact owned.workerIdle (by simp [pc]) fun socket => by rw [pc]; cases server.isRunning <;> rfl
  | workerTakes worker =>
      cases pc : server.workers worker <;> simp only [step, pc, reduceCtorEq] at moved
      unfold ConnectionHandover.take at moved
      cases front : server.clientQueue with
      | nil =>
          simp only [front] at moved
          split at moved
          · cases moved
          · cases moved
            exact owned.workerIdle (by simp [pc]) fun socket => by rw [pc]; rfl
      | cons socket rest =>
          simp only [front, Option.some.injEq] at moved
          subst moved
          exact owned.take pc front
  | handlerReturns worker =>
      cases pc : server.workers worker <;> simp only [step, pc, reduceCtorEq, Option.some.injEq] at moved
      subst moved
      exact owned.release pc fun other => by simp only [Server.close, bump_apply]; omega
  | handlerThrows worker =>
      cases pc : server.workers worker <;> simp only [step, pc, reduceCtorEq, Option.some.injEq] at moved
      subst moved
      exact owned.release pc fun other => by simp only [Server.worker, bump_apply]; omega
  | stopFlags =>
      cases pc : server.stopper <;> simp only [step, pc, reduceCtorEq, Option.some.injEq] at moved
      subst moved
      exact owned.stops false nofun nofun nofun
  | stopCloses =>
      cases pc : server.stopper <;> simp only [step, pc, reduceCtorEq, Option.some.injEq] at moved
      subst moved
      exact owned.stops server.isRunning nofun nofun nofun
  | stopJoinsAcceptor =>
      simp only [step] at moved
      split at moved
      · rename_i joined
        cases moved
        exact owned.stops server.isRunning (fun _ => joined) nofun nofun
      · cases moved
  | stopWakes =>
      cases pc : server.stopper <;> simp only [step, pc, reduceCtorEq, Option.some.injEq] at moved
      subst moved
      exact owned.stops server.isRunning (fun _ => owned.accepting (by rw [pc]; rfl)) nofun nofun
  | stopJoinsWorkers =>
      cases pc : server.stopper <;> simp only [step, pc, reduceCtorEq] at moved
      split at moved
      · rename_i joined
        cases moved
        exact owned.stops server.isRunning (fun _ => owned.accepting (by rw [pc]; rfl)) (fun _ => joined) nofun
      · cases moved
  | stopDrains =>
      simp only [step] at moved
      split at moved
      · rename_i front
        cases moved
        exact owned.drain front
      · rename_i pc empty
        cases moved
        exact owned.stops server.isRunning (fun _ => owned.accepting (by rw [pc]; rfl))
          (fun _ => owned.working (by rw [pc]; rfl)) fun _ => empty
      · cases moved

/-- What the hand-over promises in a state. -/
structure HandedOver (maxQueuedRequests : Nat) (server : Server n) : Prop where
  bounded : server.clientQueue.length ≤ maxQueuedRequests
  apart : ∀ first second socket, server.workers first = .handling socket →
    server.workers second = .handling socket → first = second
  handledOnce : ∀ socket, server.handled socket ≤ 1
  closedOnce : ∀ socket, server.closed socket ≤ 1
  allClosed : server.stopper = .returned → ∀ socket < server.accepted, server.closed socket = 1

def Label.throws : Label n → Bool
  | .handlerThrows _ => true
  | _ => false

theorem run_owned {labels : List (Label n)}
    (runs : run (step maxQueuedRequests) (start n) labels = some server) : Owned maxQueuedRequests server :=
  run_invariant _ (fun _ label _ owned => step_owned label owned) (start_owned maxQueuedRequests) runs

theorem Owned.apart (owned : Owned maxQueuedRequests server) {first second : Fin n} {socket : Nat}
    (one : server.workers first = .handling socket) (other : server.workers second = .handling socket) :
    first = second := by
  by_contra differ
  have both := total_two_le (workerHolds socket) server.workers (Ne.symm differ)
  have placed := owned.placed socket
  simp only [one, other, workerHolds, if_true] at both
  unfold places at placed
  split at placed <;> omega

/-- After `stop` a socket has been closed or left behind. -/
theorem Owned.settled (owned : Owned maxQueuedRequests server) (returned : server.stopper = .returned)
    (socket : Nat) : server.closed socket + server.thrown socket = if socket < server.accepted then 1 else 0 := by
  have placed := owned.placed socket
  have done := owned.working (by rw [returned]; rfl)
  have idle : total (workerHolds socket) server.workers = 0 := total_eq_zero fun worker => by rw [done]; rfl
  rw [places, owned.accepting (by rw [returned]; rfl), owned.drained returned, idle] at placed
  simpa [acceptorHolds] using placed

theorem step_thrown {label : Label n} (moved : step maxQueuedRequests server label = some next)
    (quiet : label.throws = false) : next.thrown = server.thrown := by
  cases label with
  | handlerThrows worker => cases quiet
  | _ =>
      simp only [step, ConnectionHandover.take] at moved
      repeat' split at moved
      all_goals cases moved
      all_goals rfl

theorem throw_leaves {label : Label n} (moved : step maxQueuedRequests server label = some next)
    (throws : label.throws = true) : ∃ socket, 0 < next.thrown socket := by
  cases label with
  | handlerThrows worker =>
      cases pc : server.workers worker <;> simp only [step, pc, reduceCtorEq, Option.some.injEq] at moved
      rename_i socket
      subst moved
      exact ⟨socket, by simp only [bump_apply, if_true]; omega⟩
  | _ => cases throws

/-- What was left behind stays behind. -/
theorem step_keeps_thrown {label : Label n} (moved : step maxQueuedRequests server label = some next)
    {socket : Nat} (left : 0 < server.thrown socket) : 0 < next.thrown socket := by
  cases throws : label.throws with
  | false => rwa [step_thrown moved throws]
  | true => cases label with
    | handlerThrows worker =>
        cases pc : server.workers worker <;> simp only [step, pc, reduceCtorEq, Option.some.injEq] at moved
        subst moved
        simp only [bump_apply]
        omega
    | _ => cases throws

/-- Nothing is left behind exactly in the runs in which no handler throws. -/
theorem thrown_iff {labels : List (Label n)}
    (runs : run (step maxQueuedRequests) server labels = some next) (clean : ∀ socket, server.thrown socket = 0) :
    (∀ socket, next.thrown socket = 0) ↔ ∀ label ∈ labels, label.throws = false := by
  induction labels generalizing server with
  | nil =>
      cases runs
      simpa using clean
  | cons label rest ih =>
      obtain ⟨middle, moved, runs⟩ := run_cons runs
      cases throws : label.throws with
      | false =>
          have same := step_thrown moved throws
          rw [ih runs (by rw [same]; exact clean)]
          simp [throws]
      | true =>
          obtain ⟨socket, left⟩ := throw_leaves moved throws
          have still := run_invariant (fun state => 0 < state.thrown socket)
            (fun _ _ _ left moved => step_keeps_thrown moved left) left runs
          constructor
          · intro none
            exact absurd (none socket) (Nat.ne_of_gt still)
          · intro quiet
            exact absurd throws (by rw [quiet label List.mem_cons_self]; exact nofun)

/-- The hand-over keeps its promises in every run, but for the sockets of handlers that
threw: those are never closed. -/
theorem handover_iff {labels : List (Label n)}
    (runs : run (step maxQueuedRequests) (start n) labels = some server) :
    HandedOver maxQueuedRequests server ↔
      (server.stopper = .returned → ∀ label ∈ labels, label.throws = false) := by
  have owned := run_owned runs
  rw [← thrown_iff runs fun _ => rfl]
  constructor
  · intro promised returned socket
    have settled := owned.settled returned socket
    split at settled
    · rename_i inside
      have once := promised.allClosed returned socket inside
      omega
    · omega
  · intro quiet
    refine ⟨owned.bounded, fun _ _ _ => owned.apart, ?_, ?_, ?_⟩
    · intro socket
      have once := owned.once socket
      unfold handlings at once
      split at once <;> omega
    · intro socket
      have placed := owned.placed socket
      unfold places at placed
      split at placed <;> omega
    · intro returned socket inside
      have settled := owned.settled returned socket
      rw [if_pos inside, quiet returned socket] at settled
      exact settled

/-- One connection from its acceptance to the end of `stop`. -/
def oneConnection (handler : Label 1) : List (Label 1) :=
  [.acceptTests, .acceptReturns true, .acceptEnqueues, .acceptNotifies, .workerTests 0, .workerTakes 0,
    handler, .stopFlags, .stopCloses, .acceptTests, .stopJoinsAcceptor, .stopWakes, .workerTests 0,
    .stopJoinsWorkers, .stopDrains]

theorem handover_oneConnection : ∃ server,
    run (step 1) (start 1) (oneConnection (.handlerReturns 0)) = some server ∧
      server.stopper = .returned ∧ server.accepted = 1 ∧ HandedOver 1 server := by
  obtain ⟨server, runs⟩ : ∃ server,
      run (step 1) (start 1) (oneConnection (.handlerReturns 0)) = some server := ⟨_, rfl⟩
  have ends : server.stopper = .returned ∧ server.accepted = 1 := by
    cases runs
    exact ⟨rfl, rfl⟩
  refine ⟨server, runs, ends.1, ends.2, (handover_iff runs).mpr fun _ => ?_⟩
  simp [oneConnection, Label.throws]

/-- The handler throws: the worker goes on, `stop` returns, and nobody has closed the socket. -/
theorem handover_thrown : ¬ ∀ n maxQueuedRequests labels (server : Server n),
    run (step maxQueuedRequests) (start n) labels = some server → HandedOver maxQueuedRequests server := by
  intro claim
  have promised := claim 1 1 (oneConnection (.handlerThrows 0)) _ rfl
  have closed := promised.allClosed rfl 0 (by decide)
  cases closed

end Ownership

end XInfer.ConnectionHandover
