import XInfer.Alignment
import XInfer.DeviceArena
import XInfer.StateException
import XInfer.StepConditions

/-!
The blocks that `DeviceArena::allocate` returns, with the alignment of each request. Address and offset
are 64-bit sums, and the only comparison is that of the new offset with the capacity: where the sum
wraps, a request far beyond the arena is granted.
-/

namespace XInfer.ArenaBlocks

open Primitives StateException Alignment StepConditions DeviceArena

/-- `allocate`; a null pointer is `none`. -/
def allocateAt (bytes alignment : Nat) : EStateM Exn DeviceArena (Option Nat) := do
  if bytes = 0 then pure none
  else do
    let arena ← read id
    if arena.basePtr = 0 then throw .badAlloc
    else do
      let align := if 0 < alignment then alignment else arena.defaultAlignment
      let alignedAddr := alignUp (sizeAdd arena.basePtr arena.offset) align
      let newOffset := sizeAdd (sizeAdd alignedAddr (2 ^ 64 - arena.basePtr)) bytes
      if arena.capacity < newOffset then throw .badAlloc
      else do
        modify fun arena =>
          { arena with offset := newOffset, peakOffset := max arena.peakOffset newOffset }
        pure (some alignedAddr)

section Steps

variable {arena : DeviceArena} {bytes alignment align alignedAddr newOffset : Nat} (some' : bytes ≠ 0)
  (base : arena.basePtr ≠ 0)
include some' base

/-- The values that `allocate` computes, by name. -/
theorem allocateAt_eq (chosen : (if 0 < alignment then alignment else arena.defaultAlignment) = align)
    (aligned : alignUp (sizeAdd arena.basePtr arena.offset) align = alignedAddr)
    (offset : sizeAdd (sizeAdd alignedAddr (2 ^ 64 - arena.basePtr)) bytes = newOffset) :
    allocateAt bytes alignment arena = if arena.capacity < newOffset then .error .badAlloc arena
      else .ok (some alignedAddr)
        { arena with offset := newOffset, peakOffset := max arena.peakOffset newOffset } := by
  simp only [allocateAt, if_neg some', bind_apply, read_apply, id_eq, if_neg base, chosen, aligned, offset]
  split
  · rfl
  · rfl

theorem allocate_eq (aligned : alignUp (sizeAdd arena.basePtr arena.offset) arena.defaultAlignment = alignedAddr)
    (offset : sizeAdd (sizeAdd alignedAddr (2 ^ 64 - arena.basePtr)) bytes = newOffset) :
    arena.allocate bytes = if arena.capacity < newOffset then .error .badAlloc
      else .ok { arena with offset := newOffset, peakOffset := max arena.peakOffset newOffset } := by
  simp only [DeviceArena.allocate, if_neg some', if_neg base, aligned, offset]

theorem allocateAt_zero (positive : 0 < arena.defaultAlignment) :
    allocateAt bytes 0 arena = allocateAt bytes arena.defaultAlignment arena := by
  rw [allocateAt_eq some' base (if_neg (Nat.lt_irrefl 0)) rfl rfl, allocateAt_eq some' base (if_pos positive) rfl rfl]

end Steps

/-- The requests without an alignment of their own are those of `DeviceArena.allocate`. -/
theorem allocateAt_default (bytes : Nat) (arena : DeviceArena) : arena.allocate bytes =
    match allocateAt bytes 0 arena with
      | .ok _ after => .ok after
      | .error thrown _ => .error thrown := by
  by_cases some' : bytes = 0
  · simp [allocateAt, DeviceArena.allocate, some']
  by_cases base : arena.basePtr = 0
  · simp [allocateAt, DeviceArena.allocate, some', base, bind_apply]
  rw [allocate_eq some' base rfl rfl, allocateAt_eq some' base (if_neg (Nat.lt_irrefl 0)) rfl rfl]
  split
  · rfl
  · rfl

section Rounding

theorem alignUp_roundUp {shift : Nat} (within : shift < 64) (address : Nat) :
    alignUp (address % 2 ^ 64) (2 ^ shift) = roundUp address (2 ^ shift) % 2 ^ 64 := by
  have positive : 0 < 2 ^ shift := Nat.two_pow_pos shift
  have small : 2 ^ shift < 2 ^ 64 := Nat.pow_lt_pow_right (by decide) within
  have mask : 2 ^ 64 - 1 - (2 ^ shift + 2 ^ 64 - 1) % 2 ^ 64 = 2 ^ 64 - 2 ^ shift := by omega
  have sum : (address % 2 ^ 64 + 2 ^ shift + 2 ^ 64 - 1) % 2 ^ 64 = (address + 2 ^ shift - 1) % 2 ^ 64 := by omega
  unfold alignUp
  rw [mask, sum, and_mask (Nat.le_of_lt within) (Nat.mod_lt _ (by decide)), mod_round (Nat.le_of_lt within),
    roundUp_eq]

/-- Where a block of an arena would begin, and the offset at its end, without wrapping. -/
def start (arena : DeviceArena) (alignment : Nat) : Nat := roundUp (arena.basePtr + arena.offset) alignment

def stop (arena : DeviceArena) (bytes alignment : Nat) : Nat := start arena alignment - arena.basePtr + bytes

/-- What `allocate` does of a request, in terms of the sums without wrapping. -/
theorem allocateAt_apply {arena : DeviceArena} {bytes shift : Nat} (some' : bytes ≠ 0)
    (base : arena.basePtr ≠ 0) (word : arena.basePtr ≤ 2 ^ 64) (within : shift < 64) :
    allocateAt bytes (2 ^ shift) arena =
      if arena.capacity < stop arena bytes (2 ^ shift) % 2 ^ 64 then .error .badAlloc arena
      else .ok (some (start arena (2 ^ shift) % 2 ^ 64)) { arena with
        offset := stop arena bytes (2 ^ shift) % 2 ^ 64
        peakOffset := max arena.peakOffset (stop arena bytes (2 ^ shift) % 2 ^ 64) } := by
  have positive : 0 < 2 ^ shift := Nat.two_pow_pos shift
  have below : arena.basePtr ≤ start arena (2 ^ shift) :=
    Nat.le_trans (Nat.le_add_right _ _) (le_roundUp positive _)
  have offset : sizeAdd (sizeAdd (start arena (2 ^ shift) % 2 ^ 64) (2 ^ 64 - arena.basePtr)) bytes =
      stop arena bytes (2 ^ shift) % 2 ^ 64 := by
    unfold sizeAdd stop
    omega
  have aligned : alignUp (sizeAdd arena.basePtr arena.offset) (2 ^ shift) = start arena (2 ^ shift) % 2 ^ 64 :=
    alignUp_roundUp within _
  exact allocateAt_eq some' base (if_pos positive) aligned offset

end Rounding

section Requests

/-- The requests of a list, as long as they are granted. -/
def requestAll : List Nat → DeviceArena → Except Exn DeviceArena
  | [], arena => .ok arena
  | bytes :: rest, arena => do
      let after ← arena.allocate bytes
      requestAll rest after

def Granted (arena : DeviceArena) (sizes : List Nat) : Prop := ∃ after, requestAll sizes arena = .ok after

theorem granted_nil (arena : DeviceArena) : Granted arena [] := ⟨arena, rfl⟩

theorem requestAll_cons {arena after : DeviceArena} {bytes : Nat} (rest : List Nat)
    (allocated : arena.allocate bytes = .ok after) : requestAll (bytes :: rest) arena = requestAll rest after := by
  rw [requestAll, allocated]
  rfl

theorem granted_cons {arena after : DeviceArena} {bytes : Nat} {rest : List Nat}
    (allocated : arena.allocate bytes = .ok after) : Granted arena (bytes :: rest) ↔ Granted after rest := by
  unfold Granted
  rw [requestAll_cons rest allocated]

theorem not_granted {arena : DeviceArena} {bytes : Nat} {rest : List Nat} {thrown : Exn}
    (refused : arena.allocate bytes = .error thrown) : ¬ Granted arena (bytes :: rest) := by
  rintro ⟨after, run⟩
  rw [requestAll, refused] at run
  cases run

theorem allocate_peak (arena : DeviceArena) (peak bytes : Nat) :
    (∃ thrown, arena.allocate bytes = .error thrown ∧ { arena with peakOffset := peak }.allocate bytes = .error thrown) ∨
      ∃ after higher, arena.allocate bytes = .ok after ∧
        { arena with peakOffset := peak }.allocate bytes = .ok { after with peakOffset := higher } := by
  simp only [DeviceArena.allocate]
  split
  · exact Or.inr ⟨_, _, rfl, rfl⟩
  · split
    · exact Or.inl ⟨_, rfl, rfl⟩
    · split
      · exact Or.inl ⟨_, rfl, rfl⟩
      · exact Or.inr ⟨_, _, rfl, rfl⟩

/-- What is granted does not depend on the highest offset so far. -/
theorem granted_peak (arena : DeviceArena) (peak : Nat) (sizes : List Nat) :
    Granted { arena with peakOffset := peak } sizes ↔ Granted arena sizes := by
  induction sizes generalizing arena peak with
  | nil => exact iff_of_true (granted_nil _) (granted_nil _)
  | cons bytes rest ih =>
      rcases allocate_peak arena peak bytes with ⟨_, left, right⟩ | ⟨after, higher, left, right⟩
      · exact iff_of_false (not_granted right) (not_granted left)
      · rw [granted_cons left, granted_cons right, ih]

/-- What no allocation and no reset changes. -/
structure SameBlock (left right : DeviceArena) : Prop where
  basePtr : left.basePtr = right.basePtr
  capacity : left.capacity = right.capacity
  line : left.defaultAlignment = right.defaultAlignment

theorem SameBlock.trans {left middle right : DeviceArena} (first : SameBlock left middle)
    (second : SameBlock middle right) : SameBlock left right :=
  ⟨first.basePtr.trans second.basePtr, first.capacity.trans second.capacity, first.line.trans second.line⟩

theorem sameBlock_allocate {arena after : DeviceArena} {bytes : Nat} (done : arena.allocate bytes = .ok after) :
    SameBlock after arena := by
  rw [allocate_moves done]
  exact ⟨rfl, rfl, rfl⟩

/-- Addresses of 64 bits, and the default alignment. -/
structure Lined (arena : DeviceArena) : Prop where
  room : arena.basePtr + arena.capacity ≤ 2 ^ 64
  line : arena.defaultAlignment = DEFAULT_ALIGNMENT

theorem Lined.of_same {left right : DeviceArena} (same : SameBlock left right) (lined : Lined right) : Lined left where
  room := by
    rw [same.basePtr, same.capacity]
    exact lined.room
  line := same.line.trans lined.line

theorem Lined.reset {arena : DeviceArena} (lined : Lined arena) : Lined arena.reset := ⟨lined.room, lined.line⟩

/-- What `allocate` does of a request without an alignment of its own. -/
theorem allocateAt_cases {arena : DeviceArena} (lined : Lined arena) (bytes : Nat) :
    (bytes = 0 ∧ allocateAt bytes 0 arena = .ok none arena) ∨
      (bytes ≠ 0 ∧ allocateAt bytes 0 arena = .error .badAlloc arena ∧
        (arena.basePtr ≠ 0 → arena.capacity < stop arena bytes 64 % 2 ^ 64)) ∨
      (bytes ≠ 0 ∧ arena.basePtr ≠ 0 ∧ stop arena bytes 64 % 2 ^ 64 ≤ arena.capacity ∧
        ∃ after, allocateAt bytes 0 arena = .ok (some (start arena 64 % 2 ^ 64)) after ∧
          after.offset = stop arena bytes 64 % 2 ^ 64) := by
  have line : arena.defaultAlignment = 2 ^ 6 := lined.line
  by_cases some' : bytes = 0
  · left
    simp [allocateAt, some']
  right
  by_cases base : arena.basePtr = 0
  · left
    refine ⟨some', ?_, fun nonzero => absurd base nonzero⟩
    simp only [allocateAt, if_neg some', bind_apply, read_apply, id_eq, if_pos base]
    rfl
  · have word : arena.basePtr ≤ 2 ^ 64 := Nat.le_trans (Nat.le_add_right _ _) lined.room
    have run := allocateAt_zero some' base (by rw [line]; decide)
    rw [line, allocateAt_apply some' base word (by decide : 6 < 64)] at run
    by_cases full : arena.capacity < stop arena bytes (2 ^ 6) % 2 ^ 64
    · left
      rw [if_pos full] at run
      exact ⟨some', run, fun _ => full⟩
    · right
      rw [if_neg full] at run
      exact ⟨some', base, Nat.le_of_not_lt full, _, run, rfl⟩

/-- A granted request that does not wrap moves the offset up. -/
theorem allocate_grows {arena after : DeviceArena} {bytes : Nat} (lined : Lined arena)
    (inside : arena.offset ≤ arena.capacity) (small : arena.capacity + 64 + bytes ≤ 2 ^ 64)
    (done : arena.allocate bytes = .ok after) : after.offset ≤ after.capacity ∧ arena.offset ≤ after.offset ∧
      (bytes ≠ 0 → arena.offset < after.offset) := by
  have agree := allocateAt_default bytes arena
  have same := (sameBlock_allocate done).capacity
  rw [done] at agree
  rcases allocateAt_cases lined bytes with ⟨none', run⟩ | ⟨_, run, _⟩ | ⟨some', base, fits, next, run, offset⟩
  · rw [run] at agree
    cases agree
    exact ⟨inside, Nat.le_refl _, fun some' => absurd none' some'⟩
  · rw [run] at agree
    cases agree
  · rw [run] at agree
    cases agree
    have behind : arena.basePtr + arena.offset ≤ start arena 64 := le_roundUp (by decide) _
    have near : start arena 64 < arena.basePtr + arena.offset + 64 := by
      unfold start
      rw [roundUp_eq]
      omega
    have whole : stop arena bytes 64 % 2 ^ 64 = stop arena bytes 64 := by
      apply Nat.mod_eq_of_lt
      unfold stop
      omega
    rw [whole] at offset fits
    unfold stop at offset fits
    omega

/-- So do the requests of a list. -/
theorem requestAll_grows {arena after : DeviceArena} {sizes : List Nat} (lined : Lined arena)
    (inside : arena.offset ≤ arena.capacity) (small : ∀ bytes ∈ sizes, arena.capacity + 64 + bytes ≤ 2 ^ 64)
    (done : requestAll sizes arena = .ok after) : after.offset ≤ after.capacity ∧ arena.offset ≤ after.offset ∧
      (sizes.head?.getD 0 ≠ 0 → arena.offset < after.offset) := by
  induction sizes generalizing arena with
  | nil =>
      cases done
      exact ⟨inside, Nat.le_refl _, fun some' => absurd rfl some'⟩
  | cons bytes rest ih =>
      obtain ⟨next, first, others⟩ := except_bind_ok done
      have same := sameBlock_allocate first
      obtain ⟨bound, up, strict⟩ := allocate_grows lined inside (small bytes List.mem_cons_self) first
      obtain ⟨bound', up', _⟩ := ih (lined.of_same same) bound
        (fun other member => same.capacity ▸ small other (List.mem_cons_of_mem _ member)) others
      exact ⟨bound', Nat.le_trans up up', fun some' => Nat.lt_of_lt_of_le (strict some') up'⟩

end Requests

section Runs

structure Block where
  start : Nat
  bytes : Nat
  alignment : Nat
  deriving DecidableEq

/-- A non-zero `size_t` of bytes and a power of two to align them to. -/
structure Demand where
  bytes : Nat
  bytes_pos : 0 < bytes
  bytes_lt : bytes < 2 ^ 64
  shift : Nat
  shift_lt : shift < 64

def Demand.alignment (demand : Demand) : Nat := 2 ^ demand.shift

inductive Request where
  | allocate (demand : Demand)
  | reset

/-- An arena and the blocks it has returned since the last reset. -/
structure Held where
  arena : DeviceArena
  blocks : List Block

def Request.step (request : Request) (held : Held) : Held :=
  match request with
  | .reset => ⟨held.arena.reset, []⟩
  | .allocate demand => match allocateAt demand.bytes demand.alignment held.arena with
      | .ok (some start) arena => ⟨arena, ⟨start, demand.bytes, demand.alignment⟩ :: held.blocks⟩
      | .ok none arena => ⟨arena, held.blocks⟩
      | .error _ arena => ⟨arena, held.blocks⟩

def Apart (left right : Block) : Prop :=
  left.start + left.bytes ≤ right.start ∨ right.start + right.bytes ≤ left.start

/-- Aligned as requested, within the arena, and pairwise disjoint. -/
structure Sound (held : Held) : Prop where
  aligned : ∀ block ∈ held.blocks, block.alignment ∣ block.start
  within : ∀ block ∈ held.blocks, held.arena.basePtr ≤ block.start ∧
    block.start + block.bytes ≤ held.arena.basePtr + held.arena.capacity
  apart : held.blocks.Pairwise Apart

/-- The blocks after a call are sound, and a call that throws leaves the offset. -/
def Kept (held : Held) (request : Request) : Prop :=
  Sound (request.step held) ∧ ∀ demand thrown after, request = .allocate demand →
    allocateAt demand.bytes demand.alignment held.arena = .error thrown after →
      after.offset = held.arena.offset

/-- A demand whose end wraps to an offset within the capacity. -/
def Wraps (held : Held) : Request → Prop
  | .reset => False
  | .allocate demand => held.arena.basePtr ≠ 0 ∧
      2 ^ 64 ≤ stop held.arena demand.bytes demand.alignment ∧
      stop held.arena demand.bytes demand.alignment % 2 ^ 64 ≤ held.arena.capacity

/-- The blocks lie below the offset. -/
structure Packed (held : Held) : Prop where
  room : held.arena.basePtr + held.arena.capacity ≤ 2 ^ 64
  offset : held.arena.offset ≤ held.arena.capacity
  aligned : ∀ block ∈ held.blocks, block.alignment ∣ block.start
  below : ∀ block ∈ held.blocks, held.arena.basePtr ≤ block.start ∧
    block.start + block.bytes ≤ held.arena.basePtr + held.arena.offset
  apart : held.blocks.Pairwise Apart

variable {held : Held}

theorem Packed.sound (packed : Packed held) : Sound held where
  aligned := packed.aligned
  within := by
    intro block member
    have below := packed.below block member
    have offset := packed.offset
    omega
  apart := packed.apart

theorem packed_reset (packed : Packed held) : Packed (Request.reset.step held) where
  room := packed.room
  offset := Nat.zero_le _
  aligned := fun _ impossible => absurd impossible List.not_mem_nil
  below := fun _ impossible => absurd impossible List.not_mem_nil
  apart := List.Pairwise.nil

/-- A demand is refused, and nothing changes, or a block is granted. -/
theorem step_cases (packed : Packed held) (demand : Demand) :
    ((∃ thrown, allocateAt demand.bytes demand.alignment held.arena = .error thrown held.arena) ∧
        (Request.allocate demand).step held = held ∧ ¬ Wraps held (.allocate demand)) ∨
      (held.arena.basePtr ≠ 0 ∧ stop held.arena demand.bytes demand.alignment % 2 ^ 64 ≤ held.arena.capacity ∧
        (∀ thrown after, allocateAt demand.bytes demand.alignment held.arena ≠ .error thrown after) ∧
        (Request.allocate demand).step held =
          ⟨{ held.arena with
              offset := stop held.arena demand.bytes demand.alignment % 2 ^ 64
              peakOffset := max held.arena.peakOffset
                (stop held.arena demand.bytes demand.alignment % 2 ^ 64) },
            ⟨start held.arena demand.alignment % 2 ^ 64, demand.bytes, demand.alignment⟩ :: held.blocks⟩) := by
  have some' : demand.bytes ≠ 0 := Nat.ne_of_gt demand.bytes_pos
  by_cases base : held.arena.basePtr = 0
  · have refused : allocateAt demand.bytes demand.alignment held.arena = .error .badAlloc held.arena := by
      simp only [allocateAt, if_neg some', bind_apply, read_apply, id_eq, if_pos base]
      rfl
    refine Or.inl ⟨⟨_, refused⟩, ?_, fun wraps => wraps.1 base⟩
    simp only [Request.step, refused]
  · have word : held.arena.basePtr ≤ 2 ^ 64 := Nat.le_trans (Nat.le_add_right _ _) packed.room
    have run := allocateAt_apply some' base word demand.shift_lt
    change allocateAt demand.bytes demand.alignment held.arena = _ at run
    by_cases full : held.arena.capacity < stop held.arena demand.bytes demand.alignment % 2 ^ 64
    · have refused := run.trans (if_pos full)
      refine Or.inl ⟨⟨_, refused⟩, ?_, fun wraps => absurd wraps.2.2 (Nat.not_le_of_lt full)⟩
      simp only [Request.step, refused]
    · have granted := run.trans (if_neg full)
      refine Or.inr ⟨base, Nat.le_of_not_lt full, ?_, ?_⟩
      · intro thrown after refused
        rw [granted] at refused
        cases refused
      · simp only [Request.step, granted]
        rfl

theorem start_ge (arena : DeviceArena) (demand : Demand) :
    arena.basePtr + arena.offset ≤ start arena demand.alignment :=
  le_roundUp (Nat.two_pow_pos demand.shift) _

/-- A call that does not wrap keeps the blocks below the offset. -/
theorem packed_step (packed : Packed held) {request : Request} (unwrapped : ¬ Wraps held request) :
    Packed (request.step held) := by
  cases request with
  | reset => exact packed_reset packed
  | allocate demand =>
      rcases step_cases packed demand with ⟨_, same, _⟩ | ⟨base, fits, _, granted⟩
      · rw [same]
        exact packed
      · have behind := start_ge held.arena demand
        have some' := demand.bytes_pos
        have room := packed.room
        have whole : stop held.arena demand.bytes demand.alignment < 2 ^ 64 := by
          by_contra wrapped
          exact unwrapped ⟨base, Nat.le_of_not_lt wrapped, fits⟩
        have ends : held.arena.basePtr + stop held.arena demand.bytes demand.alignment =
            start held.arena demand.alignment + demand.bytes := by
          unfold stop
          omega
        rw [Nat.mod_eq_of_lt whole] at fits granted
        rw [Nat.mod_eq_of_lt (by omega)] at granted
        rw [granted]
        refine ⟨room, fits, ?_, ?_, ?_⟩
        · rw [List.forall_mem_cons]
          exact ⟨dvd_roundUp _ _, packed.aligned⟩
        · rw [List.forall_mem_cons]
          refine ⟨⟨by dsimp only; omega, by dsimp only; omega⟩, fun block member => ?_⟩
          have below := packed.below block member
          dsimp only
          omega
        · refine List.pairwise_cons.mpr ⟨fun block member => Or.inr ?_, packed.apart⟩
          have below := packed.below block member
          dsimp only
          omega

/-- The block of a demand that wraps does not end within the arena. -/
theorem wraps_unsound (packed : Packed held) {request : Request} (wraps : Wraps held request) :
    ¬ Sound (request.step held) := by
  cases request with
  | reset => exact absurd wraps not_false
  | allocate demand =>
      obtain ⟨base, wrapped, fits⟩ := wraps
      rcases step_cases packed demand with ⟨_, _, unwrapped⟩ | ⟨_, _, _, granted⟩
      · exact absurd ⟨base, wrapped, fits⟩ unwrapped
      · intro sound
        rw [granted] at sound
        obtain ⟨above, inside⟩ := sound.within _ List.mem_cons_self
        dsimp only at above inside
        have room := packed.room
        have offset := packed.offset
        have behind := start_ge held.arena demand
        -- an address below 2^64 is the start itself, and the block runs past the end of the words
        have top : start held.arena demand.alignment ≤ 2 ^ 64 := by
          have multiple : demand.alignment ∣ 2 ^ 64 := Nat.pow_dvd_pow 2 (Nat.le_of_lt demand.shift_lt)
          refine (roundUp_le (Nat.two_pow_pos demand.shift) multiple).mpr ?_
          omega
        unfold stop at wrapped
        rcases Nat.lt_or_eq_of_le top with low | high
        · rw [Nat.mod_eq_of_lt low] at inside
          omega
        · rw [high, Nat.mod_self] at above
          omega

theorem kept_iff_not_wraps (packed : Packed held) (request : Request) : Kept held request ↔ ¬ Wraps held request := by
  constructor
  · exact fun kept wraps => wraps_unsound packed wraps kept.1
  · intro unwrapped
    refine ⟨(packed_step packed unwrapped).sound, ?_⟩
    rintro demand thrown after rfl refused
    rcases step_cases packed demand with ⟨⟨_, same⟩, _, _⟩ | ⟨_, _, never, _⟩
    · rw [refused] at same
      cases same
      rfl
    · exact absurd refused (never thrown after)

/-- An arena over a device block, with nothing allocated. -/
def held₀ (block capacity : Nat) : Held := ⟨DeviceArena.create block capacity, []⟩

theorem packed_create {block capacity : Nat} (room : block + capacity ≤ 2 ^ 64) : Packed (held₀ block capacity) where
  room := by
    change (if 0 < capacity then block else 0) + capacity ≤ 2 ^ 64
    split
    · exact room
    · omega
  offset := Nat.zero_le _
  aligned := fun _ impossible => absurd impossible List.not_mem_nil
  below := fun _ impossible => absurd impossible List.not_mem_nil
  apart := List.Pairwise.nil

/-- Every call of a sequence keeps the blocks sound exactly when none of its demands wraps. -/
theorem blocks_sound_iff {block capacity : Nat} (room : block + capacity ≤ 2 ^ 64) (requests : List Request) :
    Throughout Request.step Kept (held₀ block capacity) requests ↔
      Throughout Request.step (fun held request => ¬ Wraps held request) (held₀ block capacity) requests :=
  throughout_iff (packed_create room) (fun _ request packed => kept_iff_not_wraps packed request)
    fun _ _ packed unwrapped => packed_step packed unwrapped

def hundred : Request := .allocate ⟨100, by decide, by decide, 6, by decide⟩

/-- So many bytes that the end wraps to offset 28. -/
def nearlyAll : Request := .allocate ⟨2 ^ 64 - 100, by decide, by decide, 6, by decide⟩

/-- The second block begins within the arena and ends nowhere near it. -/
theorem nearlyAll_granted : ((nearlyAll.step (hundred.step (held₀ 64 1024))).blocks.map
      fun block => (block.start, block.bytes)) = [(192, 2 ^ 64 - 100), (64, 100)] ∧
    (nearlyAll.step (hundred.step (held₀ 64 1024))).arena.offset = 28 ∧
    ¬ Throughout Request.step Kept (held₀ 64 1024) [hundred, nearlyAll] := by
  refine ⟨by decide +kernel, by decide +kernel, fun kept => ?_⟩
  obtain ⟨_, ⟨sound, _⟩, _⟩ := kept
  have inside := sound.within ⟨192, 2 ^ 64 - 100, 64⟩ (by decide +kernel)
  exact absurd inside.2 (by decide +kernel)

theorem blocks_sound_hundred : Throughout Request.step Kept (held₀ 64 1024) [hundred, .reset, hundred] := by
  refine (blocks_sound_iff (by decide) [hundred, .reset, hundred]).mpr ⟨?_, not_false, ?_, trivial⟩
  · exact fun wraps => absurd wraps.2.1 (by decide +kernel)
  · exact fun wraps => absurd wraps.2.1 (by decide +kernel)

end Runs

end XInfer.ArenaBlocks
