import XInfer.Machine

/-!
`KVCache` of `core/kv_cache.cpp`: the length counter beside the device memory and
the checkpoint of the recurrent storage. The cache of the Qwen target has linear
layers, so its recurrent storage is never empty and the early returns for a
missing buffer do not occur.
-/

namespace XInfer

open Primitives

structure KVCache (KV Rec : Type) where
  maxSeqLen : Nat
  currentSeqLen : Nat
  memory : Memory KV Rec
  /-- Content of the checkpoint buffer. -/
  checkpoint : Rec
  hasRecurrentCheckpoint : Bool

namespace KVCache

variable {KV Rec : Type}

def setSeqLen (cache : KVCache KV Rec) (len : Nat) : KVCache KV Rec :=
  { cache with currentSeqLen := min len cache.maxSeqLen }

/-- `advance`: the answer, and the cache it leaves. -/
def advance (cache : KVCache KV Rec) (delta : Nat) : Bool × KVCache KV Rec :=
  if cache.maxSeqLen < sizeAdd cache.currentSeqLen delta then
    (false, { cache with currentSeqLen := cache.maxSeqLen })
  else (true, { cache with currentSeqLen := sizeAdd cache.currentSeqLen delta })

def canAdvance (cache : KVCache KV Rec) (delta : Nat) : Bool :=
  decide (sizeAdd cache.currentSeqLen delta ≤ cache.maxSeqLen)

/-- The recurrent storage is zeroed; K/V slots keep what they hold. -/
def clear (cleared : Rec) (cache : KVCache KV Rec) : KVCache KV Rec :=
  { cache with
    memory := { cache.memory with recurrent := cleared }
    currentSeqLen := 0
    hasRecurrentCheckpoint := false }

def checkpointRecurrentState (cache : KVCache KV Rec) : KVCache KV Rec :=
  { cache with checkpoint := cache.memory.recurrent, hasRecurrentCheckpoint := true }

def restoreRecurrentState (cache : KVCache KV Rec) : KVCache KV Rec :=
  if cache.hasRecurrentCheckpoint then
    { cache with memory := { cache.memory with recurrent := cache.checkpoint } }
  else cache

def rollback (cache : KVCache KV Rec) (steps : Nat) : Except Exn (KVCache KV Rec) :=
  if cache.currentSeqLen < steps then
    .error (.standard (ascii "KVCache::rollback: steps (" ++ decimal steps ++
      ascii ") > current_seq_len (" ++ decimal cache.currentSeqLen ++ ascii ")"))
  else
    let shortened := { cache with currentSeqLen := cache.currentSeqLen - steps }
    if shortened.hasRecurrentCheckpoint then
      .ok { shortened.restoreRecurrentState with hasRecurrentCheckpoint := false }
    else .ok shortened

@[simp] theorem setSeqLen_memory (cache : KVCache KV Rec) (len : Nat) :
    (cache.setSeqLen len).memory = cache.memory := rfl

@[simp] theorem setSeqLen_maxSeqLen (cache : KVCache KV Rec) (len : Nat) :
    (cache.setSeqLen len).maxSeqLen = cache.maxSeqLen := rfl

@[simp] theorem clear_maxSeqLen (cleared : Rec) (cache : KVCache KV Rec) :
    (cache.clear cleared).maxSeqLen = cache.maxSeqLen := rfl

@[simp] theorem clear_currentSeqLen (cleared : Rec) (cache : KVCache KV Rec) :
    (cache.clear cleared).currentSeqLen = 0 := rfl

@[simp] theorem clear_recurrent (cleared : Rec) (cache : KVCache KV Rec) :
    (cache.clear cleared).memory.recurrent = cleared := rfl

/-- Where the room is there, `advance` succeeds and moves the length only. -/
theorem advance_of_le {cache : KVCache KV Rec} {delta : Nat} (word : cache.maxSeqLen < 2 ^ 64)
    (room : cache.currentSeqLen + delta ≤ cache.maxSeqLen) :
    cache.advance delta = (true, { cache with currentSeqLen := cache.currentSeqLen + delta }) := by
  have unwrapped : sizeAdd cache.currentSeqLen delta = cache.currentSeqLen + delta :=
    sizeAdd_of_lt (by omega)
  have within : ¬ cache.maxSeqLen < cache.currentSeqLen + delta := by omega
  simp only [advance, unwrapped, if_neg within]

/-- Within the length, `rollback` shortens it and consumes a checkpoint. -/
theorem rollback_of_le {cache : KVCache KV Rec} {steps : Nat} (room : steps ≤ cache.currentSeqLen) :
    cache.rollback steps = .ok { cache with
      currentSeqLen := cache.currentSeqLen - steps
      memory := { cache.memory with recurrent :=
        if cache.hasRecurrentCheckpoint then cache.checkpoint else cache.memory.recurrent }
      hasRecurrentCheckpoint := false } := by
  have within : ¬ cache.currentSeqLen < steps := by omega
  by_cases saved : cache.hasRecurrentCheckpoint
  · simp [rollback, within, saved, restoreRecurrentState]
  · simp [rollback, within, saved]

end KVCache

end XInfer
