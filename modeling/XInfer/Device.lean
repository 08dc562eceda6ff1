import XInfer.StateException
import XInfer.DeviceArena
import XInfer.KVCache

/-!
The device side of one engine: the KV cache, the two scratch arenas with the
logits rows held in their persistent buffers, and a record of what was done.
A `Platform` stands for the driver below the sources: how requests for memory are
answered, and which submission throws. A submission that throws may leave any
content in the device memory.
-/

namespace XInfer

open Primitives StateException

/-- The main arena, and the one of the draft context. -/
inductive Owner where
  | main
  | draft
  deriving DecidableEq

/-- A buffer of logits rows. -/
inductive Buffer where
  | persistent (owner : Owner)
  | graph (owner : Owner)
  | caller
  deriving DecidableEq

inductive Event where
  | forward (token : Int) (position : Nat)
  -- a request to `persistent_buffer`, with the capacity that it is measured against
  | persistentBuffer (owner : Owner) (bytes capacity : Nat)
  | length (currentSeqLen : Nat)
  | failedAdvance
  | overflow
  deriving DecidableEq

structure Fault (KV Rec : Type) where
  thrown : Exn
  harm : Memory KV Rec → Rec → Memory KV Rec × Rec

structure Platform (KV Rec : Type) where
  allocate : DeviceArena → Nat → Except Exn DeviceArena
  persistentBuffer : DeviceArena → Nat → Except Exn DeviceArena
  fault : Nat → Option (Fault KV Rec)

structure Device (KV Rec Logits : Type) where
  kv : KVCache KV Rec
  arena : Owner → DeviceArena
  logits : Buffer → Nat → Logits
  submissions : Nat
  events : List Event

variable {KV Rec Logits : Type}

namespace Platform

/-- The sources' own arena over a device that `available` says can serve the
first request for a persistent buffer. -/
def real (available : Bool) (fault : Nat → Option (Fault KV Rec)) : Platform KV Rec where
  allocate := DeviceArena.allocate
  persistentBuffer := DeviceArena.persistentBuffer available
  fault := fault

/-- Every request succeeds and nothing throws. -/
structure Granting (P : Platform KV Rec) : Prop where
  allocate : ∀ arena bytes, ∃ after, P.allocate arena bytes = .ok after
  persistentBuffer : ∀ arena bytes, ∃ after, P.persistentBuffer arena bytes = .ok after
  fault : ∀ submission, P.fault submission = none

def granting : Platform KV Rec where
  allocate := fun arena _ => .ok arena
  persistentBuffer := fun arena _ => .ok arena
  fault := fun _ => none

theorem granting_grants : (granting : Platform KV Rec).Granting :=
  ⟨fun arena _ => ⟨arena, rfl⟩, fun arena _ => ⟨arena, rfl⟩, fun _ => rfl⟩

end Platform

abbrev DeviceM (KV Rec Logits : Type) := EStateM Exn (Device KV Rec Logits)

namespace Device

def record (event : Event) (d : Device KV Rec Logits) : Device KV Rec Logits :=
  { d with events := event :: d.events }

def setArena (owner : Owner) (arena : DeviceArena) (d : Device KV Rec Logits) :
    Device KV Rec Logits :=
  { d with arena := fun o => if o = owner then arena else d.arena o }

def setKV (kv : KVCache KV Rec) (d : Device KV Rec Logits) : Device KV Rec Logits :=
  { d with kv := kv }

/-- A change of the length counter, recorded. -/
def setLength (kv : KVCache KV Rec) (d : Device KV Rec Logits) : Device KV Rec Logits :=
  (d.setKV kv).record (.length kv.currentSeqLen)

/-- Rows written to a buffer, from `row` on. -/
def writeLogits (buffer : Buffer) (row : Nat) (rows : List Logits) (d : Device KV Rec Logits) :
    Device KV Rec Logits :=
  { d with logits := fun b i =>
      if b = buffer ∧ row ≤ i then (rows[i - row]?).getD (d.logits b i) else d.logits b i }

/-- A pass over the device memory, each position recorded as it is fed. -/
def runPass (B : Backend KV Rec Logits) (zeroLinear : Bool) (tokens : List Int) (startPos : Nat)
    (d : Device KV Rec Logits) : Device KV Rec Logits × List Logits :=
  let done := B.pass d.kv.maxSeqLen zeroLinear d.kv.memory tokens startPos
  let fed := (tokens.zipIdx startPos).reverse.map fun input => Event.forward input.1 input.2
  ({ d with kv := { d.kv with memory := done.1 }, events := fed ++ d.events }, done.2)

/-- One submission to the queue, waited for. -/
def submit (P : Platform KV Rec) : DeviceM KV Rec Logits Unit := fun d =>
  match P.fault d.submissions with
  | none => .ok () { d with submissions := d.submissions + 1 }
  | some fault =>
      let harmed := fault.harm d.kv.memory d.kv.checkpoint
      .error fault.thrown { d with
        submissions := d.submissions + 1
        kv := { d.kv with memory := harmed.1, checkpoint := harmed.2 } }

def allocate (P : Platform KV Rec) (owner : Owner) (bytes : Nat) : DeviceM KV Rec Logits Unit :=
  fun d => match P.allocate (d.arena owner) bytes with
    | .ok arena => .ok () (d.setArena owner arena)
    | .error thrown => .error thrown d

def allocateAll (P : Platform KV Rec) (owner : Owner) : List Nat → DeviceM KV Rec Logits Unit
  | [] => pure ()
  | bytes :: rest => do
      allocate P owner bytes
      allocateAll P owner rest

def persistentBuffer (P : Platform KV Rec) (owner : Owner) (bytes : Nat) :
    DeviceM KV Rec Logits Unit := fun d =>
  let capacity := (d.arena owner).persistentCapacity.getD bytes
  let asked := d.record (.persistentBuffer owner bytes capacity)
  match P.persistentBuffer (d.arena owner) bytes with
  | .ok arena => .ok () (asked.setArena owner arena)
  | .error thrown => .error thrown asked

/-- `KVCache::clear` on the device: the `memset`, the counters, and the wait. -/
def clear (B : Backend KV Rec Logits) (P : Platform KV Rec) : DeviceM KV Rec Logits Unit := do
  submit P
  modify fun d => d.setLength (d.kv.clear B.cleared)
  submit P

/-- `KVCache::advance` on the device; the answer is the caller's to check. -/
def advance (delta : Nat) : DeviceM KV Rec Logits Bool := fun d =>
  let moved := d.kv.advance delta
  let after := d.setLength moved.2
  .ok moved.1 (if moved.1 then after else after.record .failedAdvance)

def resetArena (owner : Owner) (d : Device KV Rec Logits) : Device KV Rec Logits :=
  d.setArena owner (d.arena owner).reset

/-- `ops::argmax` over one row. -/
def argmax (B : Backend KV Rec Logits) (P : Platform KV Rec) (buffer : Buffer) (row : Nat) :
    DeviceM KV Rec Logits Int := do
  submit P
  read fun d => B.argmax (d.logits buffer row)

def checkpointRecurrentState (P : Platform KV Rec) : DeviceM KV Rec Logits Unit := do
  submit P
  modify fun d => d.setKV d.kv.checkpointRecurrentState

/-- `KVCache::rollback`: the length first, then the copy back from the checkpoint. -/
def settleRollback (P : Platform KV Rec) (shortened : KVCache KV Rec) :
    DeviceM KV Rec Logits Unit := do
  modify fun d => d.setLength { d.kv with currentSeqLen := shortened.currentSeqLen }
  submit P
  modify fun d => d.setKV shortened

def rollback (P : Platform KV Rec) (steps : Nat) : DeviceM KV Rec Logits Unit := do
  let kv ← read (·.kv)
  match kv.rollback steps with
  | .error thrown => throw thrown
  | .ok shortened => settleRollback P shortened

end Device

end XInfer
