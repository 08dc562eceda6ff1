import XInfer.Primitives

/-!
`DeviceArena` of `core/arena.cpp`: a bump allocator over one device block, and a
persistent buffer that the first request sizes and `reset` does not release.
Addresses are 64-bit, so the alignment and the new offset wrap as they do there.
The `assert` on an empty first request is the `NDEBUG` build's: the exception
below it is what a release build throws.
-/

namespace XInfer

open Primitives

structure DeviceArena where
  /-- Address of the device block; zero when the constructor got none. -/
  basePtr : Nat
  capacity : Nat
  offset : Nat
  peakOffset : Nat
  defaultAlignment : Nat
  /-- Capacity of the persistent buffer once it exists. -/
  persistentCapacity : Option Nat
  deriving DecidableEq

namespace DeviceArena

def DEFAULT_ALIGNMENT : Nat := 64

/-- The constructor: a device block is requested for a positive capacity only. -/
def create (block capacity : Nat) : DeviceArena where
  basePtr := if 0 < capacity then block else 0
  capacity := capacity
  offset := 0
  peakOffset := 0
  defaultAlignment := DEFAULT_ALIGNMENT
  persistentCapacity := none

def alignUp (address align : Nat) : Nat :=
  ((address + align + 2 ^ 64 - 1) % 2 ^ 64) &&& (2 ^ 64 - 1 - (align + 2 ^ 64 - 1) % 2 ^ 64)

def allocate (arena : DeviceArena) (bytes : Nat) : Except Exn DeviceArena :=
  if bytes = 0 then .ok arena
  else if arena.basePtr = 0 then .error .badAlloc
  else
    let aligned := alignUp (sizeAdd arena.basePtr arena.offset) arena.defaultAlignment
    let newOffset := sizeAdd (sizeAdd aligned (2 ^ 64 - arena.basePtr)) bytes
    if arena.capacity < newOffset then .error .badAlloc
    else .ok { arena with offset := newOffset, peakOffset := max arena.peakOffset newOffset }

/-- `persistent_buffer`; `available` says whether the device can serve the first
request. -/
def persistentBuffer (available : Bool) (arena : DeviceArena) (bytes : Nat) :
    Except Exn DeviceArena :=
  match arena.persistentCapacity with
  | none =>
      if bytes = 0 then
        .error (.standard (ascii
          "DeviceArena::persistent_buffer: initial allocation must specify non-zero bytes"))
      else if available then .ok { arena with persistentCapacity := some bytes }
      else .error .badAlloc
  | some capacity =>
      if 0 < bytes ∧ capacity < bytes then
        .error (.standard (ascii "DeviceArena::persistent_buffer: requested bytes (" ++
          decimal bytes ++ ascii ") exceeds allocated persistent capacity (" ++
          decimal capacity ++ ascii ")"))
      else .ok arena

def reset (arena : DeviceArena) : DeviceArena := { arena with offset := 0 }

/-- A request within an existing buffer leaves the arena as it is. -/
theorem persistentBuffer_of_le (available : Bool) (arena : DeviceArena) {bytes capacity : Nat}
    (present : arena.persistentCapacity = some capacity) (fits : bytes ≤ capacity) :
    arena.persistentBuffer available bytes = .ok arena := by
  have within : ¬ (0 < bytes ∧ capacity < bytes) := by omega
  simp only [persistentBuffer, present, if_neg within]

/-- A request beyond an existing buffer always throws. -/
theorem persistentBuffer_of_lt (available : Bool) (arena : DeviceArena) {bytes capacity : Nat}
    (present : arena.persistentCapacity = some capacity) (large : capacity < bytes) :
    ∃ what, arena.persistentBuffer available bytes = .error (.standard what) := by
  have beyond : 0 < bytes ∧ capacity < bytes := by omega
  simp only [persistentBuffer, present, if_pos beyond]
  exact ⟨_, rfl⟩

@[simp] theorem reset_persistentCapacity (arena : DeviceArena) :
    arena.reset.persistentCapacity = arena.persistentCapacity := rfl

/-- The bump moves nothing but the offsets. -/
theorem allocate_moves {arena after : DeviceArena} {bytes : Nat}
    (done : arena.allocate bytes = .ok after) :
    after = { arena with offset := after.offset, peakOffset := after.peakOffset } := by
  unfold allocate at done
  split at done
  · cases done; rfl
  · split at done
    · cases done
    · dsimp only at done
      split at done
      · cases done
      · cases done; rfl

theorem allocate_persistentCapacity {arena after : DeviceArena} {bytes : Nat}
    (done : arena.allocate bytes = .ok after) :
    after.persistentCapacity = arena.persistentCapacity := by
  rw [allocate_moves done]

theorem persistentBuffer_capacity {available : Bool} {arena after : DeviceArena} {bytes : Nat}
    (done : arena.persistentBuffer available bytes = .ok after) :
    after = arena ∨ arena.persistentCapacity = none ∧
      after = { arena with persistentCapacity := some bytes } := by
  unfold persistentBuffer at done
  split at done
  · rename_i absent
    split at done
    · cases done
    · split at done
      · cases done; exact Or.inr ⟨absent, rfl⟩
      · cases done
  · split at done
    · cases done
    · cases done; exact Or.inl rfl

end DeviceArena

end XInfer
