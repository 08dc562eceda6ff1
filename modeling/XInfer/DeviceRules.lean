import XInfer.Device

/-!
What the primitive device operations do, as triples. A `Setting` collects what a
group of results assumes: which events count as sound, what the arenas keep, which
multiples of one logits row may be asked of a persistent buffer, and when the
platform serves every request. `Holds` is the state between two operations, and
`Broken` the state an exception may be thrown in.
-/

namespace XInfer.DeviceRules

open Primitives StateException Device

variable {KV Rec Logits : Type}

structure Setting (P : Platform KV Rec) (maxSeqLen rowBytes : Nat) where
  good : Event → Prop
  sized : Owner → DeviceArena → Prop
  requests : Nat → Prop
  serving : Prop
  word : maxSeqLen < 2 ^ 64
  forward : ∀ token position, position < maxSeqLen → good (.forward token position)
  length : ∀ len, len ≤ maxSeqLen → good (.length len)
  single : requests 1
  request : ∀ owner arena rows, requests rows → sized owner arena →
    good (.persistentBuffer owner (rows * rowBytes)
      (arena.persistentCapacity.getD (rows * rowBytes)))
  reset_sized : ∀ owner arena, sized owner arena → sized owner arena.reset
  allocate_sized : ∀ owner arena after bytes, sized owner arena →
    P.allocate arena bytes = .ok after → sized owner after
  buffer_sized : ∀ owner arena after rows, requests rows → sized owner arena →
    P.persistentBuffer arena (rows * rowBytes) = .ok after → sized owner after
  serves_allocate : serving → ∀ owner arena bytes, sized owner arena →
    ∃ after, P.allocate arena bytes = .ok after
  serves_buffer : serving → ∀ owner arena rows, requests rows → sized owner arena →
    ∃ after, P.persistentBuffer arena (rows * rowBytes) = .ok after
  serves_submit : serving → ∀ submission, P.fault submission = none

theorem word_of_half {n : Nat} (half : n < 2 ^ 63) : n < 2 ^ 64 := by omega

/-- A platform that serves everything. -/
def served {P : Platform KV Rec} (grants : P.Granting) {maxSeqLen : Nat} (rowBytes : Nat)
    (word : maxSeqLen < 2 ^ 63) : Setting P maxSeqLen rowBytes where
  good := fun _ => True
  sized := fun _ _ => True
  requests := fun _ => True
  serving := True
  word := word_of_half word
  forward := fun _ _ _ => trivial
  length := fun _ _ => trivial
  single := trivial
  request := fun _ _ _ _ _ => trivial
  reset_sized := fun _ _ _ => trivial
  allocate_sized := fun _ _ _ _ _ _ => trivial
  buffer_sized := fun _ _ _ _ _ _ _ => trivial
  serves_allocate := fun _ _ arena bytes _ => grants.allocate arena bytes
  serves_buffer := fun _ _ arena _ _ _ => grants.persistentBuffer arena _
  serves_submit := fun _ => grants.fault

/-- A cache of the setting's size. -/
structure Fits (maxSeqLen : Nat) (kv : KVCache KV Rec) : Prop where
  size : kv.maxSeqLen = maxSeqLen
  within : kv.currentSeqLen ≤ maxSeqLen

variable {P : Platform KV Rec} {maxSeqLen rowBytes : Nat} (S : Setting P maxSeqLen rowBytes)

structure Holds (kv : KVCache KV Rec) (d : Device KV Rec Logits) : Prop where
  cache : d.kv = kv
  arenas : ∀ owner, S.sized owner (d.arena owner)
  events : ∀ event ∈ d.events, S.good event

/-- What holds of a device between any two operations, also after a throw. -/
structure Sound (d : Device KV Rec Logits) : Prop where
  cache : Fits maxSeqLen d.kv
  arenas : ∀ owner, S.sized owner (d.arena owner)
  events : ∀ event ∈ d.events, S.good event

/-- The platform has failed to serve. -/
structure Broken (d : Device KV Rec Logits) : Prop where
  sound : Sound S d
  unserved : ¬ S.serving

variable {S} {kv : KVCache KV Rec}

theorem Holds.sound {d : Device KV Rec Logits} (holds : Holds S kv d) (fits : Fits maxSeqLen kv) :
    Sound S d :=
  ⟨holds.cache ▸ fits, holds.arenas, holds.events⟩

theorem Sound.holds {d : Device KV Rec Logits} (sound : Sound S d) : Holds S d.kv d :=
  ⟨rfl, sound.arenas, sound.events⟩

theorem Holds.record {d : Device KV Rec Logits} (holds : Holds S kv d) {event : Event}
    (sound : S.good event) : Holds S kv (d.record event) where
  cache := holds.cache
  arenas := holds.arenas
  events := by
    intro other member
    rcases List.mem_cons.mp member with rfl | old
    · exact sound
    · exact holds.events other old

theorem Holds.setKV {d : Device KV Rec Logits} (holds : Holds S kv d) (after : KVCache KV Rec) :
    Holds S after (d.setKV after) where
  cache := rfl
  arenas := holds.arenas
  events := holds.events

theorem Holds.setLength {d : Device KV Rec Logits} (holds : Holds S kv d) {after : KVCache KV Rec}
    (within : after.currentSeqLen ≤ maxSeqLen) : Holds S after (d.setLength after) :=
  (holds.setKV after).record (S.length _ within)

theorem Holds.setArena {d : Device KV Rec Logits} (holds : Holds S kv d) (owner : Owner)
    {arena : DeviceArena} (sized : S.sized owner arena) : Holds S kv (d.setArena owner arena) where
  cache := holds.cache
  arenas := by
    intro other
    unfold Device.setArena
    by_cases same : other = owner
    · subst same
      simpa using sized
    · simpa [same] using holds.arenas other
  events := holds.events

theorem Holds.writeLogits {d : Device KV Rec Logits} (holds : Holds S kv d) (buffer : Buffer)
    (row : Nat) (rows : List Logits) : Holds S kv (d.writeLogits buffer row rows) where
  cache := holds.cache
  arenas := holds.arenas
  events := holds.events

theorem submit_rule (fits : Fits maxSeqLen kv) (view : (Buffer → Nat → Logits) → Prop) :
    Triple (fun d : Device KV Rec Logits => Holds S kv d ∧ view d.logits) (submit P)
      (fun _ d => Holds S kv d ∧ view d.logits) (fun _ => Broken S) := by
  rintro d ⟨holds, seen⟩
  unfold submit
  cases fault : P.fault d.submissions with
  | none => exact ⟨⟨holds.cache, holds.arenas, holds.events⟩, seen⟩
  | some thrown =>
      have unserved : ¬ S.serving := fun serving => by simp [S.serves_submit serving] at fault
      refine ⟨⟨⟨?_, ?_⟩, holds.arenas, holds.events⟩, unserved⟩
      · exact holds.cache ▸ fits.size
      · exact holds.cache ▸ fits.within

theorem allocate_rule (fits : Fits maxSeqLen kv) (owner : Owner) (bytes : Nat) :
    Triple (Holds S kv) (allocate P owner bytes : DeviceM KV Rec Logits Unit) (fun _ => Holds S kv)
      (fun _ => Broken S) := by
  intro d holds
  unfold allocate
  cases answer : P.allocate (d.arena owner) bytes with
  | ok arena => exact holds.setArena owner (S.allocate_sized owner _ _ _ (holds.arenas owner) answer)
  | error thrown =>
      have unserved : ¬ S.serving := by
        intro serving
        obtain ⟨after, ok⟩ := S.serves_allocate serving owner (d.arena owner) bytes (holds.arenas owner)
        rw [ok] at answer
        cases answer
      exact ⟨holds.sound fits, unserved⟩

theorem allocateAll_rule (fits : Fits maxSeqLen kv) (owner : Owner) (sizes : List Nat) :
    Triple (Holds S kv) (allocateAll P owner sizes : DeviceM KV Rec Logits Unit) (fun _ => Holds S kv)
      (fun _ => Broken S) := by
  induction sizes with
  | nil => exact fun d holds => holds
  | cons bytes rest ih => exact triple_bind (allocate_rule fits owner bytes) fun _ => ih

theorem persistentBuffer_rule (fits : Fits maxSeqLen kv) (owner : Owner) {rows : Nat}
    (asked : S.requests rows) :
    Triple (Holds S kv) (persistentBuffer P owner (rows * rowBytes) : DeviceM KV Rec Logits Unit)
      (fun _ => Holds S kv) (fun _ => Broken S) := by
  intro d holds
  have recorded := holds.record (S.request owner _ rows asked (holds.arenas owner))
  unfold persistentBuffer
  dsimp only
  cases answer : P.persistentBuffer (d.arena owner) (rows * rowBytes) with
  | ok arena =>
      exact recorded.setArena owner (S.buffer_sized owner _ _ _ asked (holds.arenas owner) answer)
  | error thrown =>
      have unserved : ¬ S.serving := by
        intro serving
        obtain ⟨after, ok⟩ := S.serves_buffer serving owner (d.arena owner) rows asked (holds.arenas owner)
        rw [ok] at answer
        cases answer
      exact ⟨recorded.sound fits, unserved⟩

theorem submit_holds (fits : Fits maxSeqLen kv) :
    Triple (Holds S kv) (submit P : DeviceM KV Rec Logits Unit) (fun _ => Holds S kv)
      (fun _ => Broken S) :=
  triple_conseq (submit_rule fits fun _ => True) (fun _ holds => ⟨holds, trivial⟩)
    (fun _ _ both => both.1) fun _ _ broken => broken

variable (T : Machine KV Rec Logits)

theorem Fits.clear (fits : Fits maxSeqLen kv) (cleared : Rec) : Fits maxSeqLen (kv.clear cleared) :=
  ⟨fits.size, Nat.zero_le _⟩

theorem clear_rule (fits : Fits maxSeqLen kv) :
    Triple (Holds S kv) (clear T.backend P) (fun _ => Holds S (kv.clear T.cleared))
      (fun _ => Broken S) := by
  apply triple_bind (submit_holds fits)
  intro _
  apply triple_then (Holds S (kv.clear T.cleared))
  · apply triple_modify
    intro d holds
    rw [Machine.backend_cleared, holds.cache]
    apply holds.setLength
    exact Nat.zero_le _
  · exact fun _ => submit_holds (fits.clear T.cleared)

/-- Where there is room for one more token, `advance` grants it. -/
theorem advance_rule (fits : Fits maxSeqLen kv) (room : kv.currentSeqLen < maxSeqLen)
    (view : (Buffer → Nat → Logits) → Prop) :
    Triple (fun d : Device KV Rec Logits => Holds S kv d ∧ view d.logits) (advance 1)
      (fun moved d => moved = true ∧
        Holds S { kv with currentSeqLen := kv.currentSeqLen + 1 } d ∧ view d.logits)
      (fun _ => Broken S) := by
  rintro d ⟨holds, seen⟩
  have word : kv.maxSeqLen < 2 ^ 64 := fits.size ▸ S.word
  have space : kv.currentSeqLen + 1 ≤ kv.maxSeqLen := by rw [fits.size]; exact room
  simp only [advance, holds.cache, KVCache.advance_of_le word space, if_true]
  exact ⟨trivial, holds.setLength room, seen⟩

theorem argmax_rule (fits : Fits maxSeqLen kv) (buffer : Buffer) (row : Nat) (logits : Logits) :
    Triple (fun d => Holds S kv d ∧ d.logits buffer row = logits)
      (argmax T.backend P buffer row)
      (fun tok d => Holds S kv d ∧ d.logits buffer row = logits ∧ tok = T.argmax logits)
      (fun _ => Broken S) := by
  apply triple_bind (submit_rule fits fun rows => rows buffer row = logits)
  rintro _ d ⟨holds, seen⟩
  exact ⟨holds, seen, congrArg T.argmax seen⟩

theorem checkpoint_rule (fits : Fits maxSeqLen kv) :
    Triple (fun d : Device KV Rec Logits => Holds S kv d) (checkpointRecurrentState P)
      (fun _ => Holds S kv.checkpointRecurrentState) (fun _ => Broken S) := by
  apply triple_bind (submit_holds fits)
  intro _
  apply triple_modify
  intro d holds
  rw [holds.cache]
  exact holds.setKV _

theorem setSeqLen_rule (fits : Fits maxSeqLen kv) {len : Nat} (room : len ≤ maxSeqLen)
    (view : (Buffer → Nat → Logits) → Prop) :
    Triple (fun d : Device KV Rec Logits => Holds S kv d ∧ view d.logits)
      (modify fun d => d.setLength (d.kv.setSeqLen len) : DeviceM KV Rec Logits Unit)
      (fun _ d => Holds S { kv with currentSeqLen := len } d ∧ view d.logits) (fun _ => Broken S) := by
  apply triple_modify
  rintro d ⟨holds, seen⟩
  have exact_len : min len kv.maxSeqLen = len := Nat.min_eq_left (by rw [fits.size]; exact room)
  rw [holds.cache, KVCache.setSeqLen, exact_len]
  exact ⟨holds.setLength room, seen⟩

/-- What a rollback to `kept` tokens leaves of a cache with a checkpoint. -/
def rolledBack (kv : KVCache KV Rec) (kept : Nat) : KVCache KV Rec :=
  { kv with
    currentSeqLen := kept
    memory := { kv.memory with recurrent :=
      if kv.hasRecurrentCheckpoint then kv.checkpoint else kv.memory.recurrent }
    hasRecurrentCheckpoint := false }

theorem rollback_rule (fits : Fits maxSeqLen kv) {steps : Nat} (room : steps ≤ kv.currentSeqLen) :
    Triple (fun d : Device KV Rec Logits => Holds S kv d) (rollback P steps)
      (fun _ => Holds S (rolledBack kv (kv.currentSeqLen - steps))) (fun _ => Broken S) := by
  have shorter : kv.currentSeqLen - steps ≤ maxSeqLen := by have := fits.within; omega
  have settle : Triple (Holds S kv)
      (settleRollback P (rolledBack kv (kv.currentSeqLen - steps)) : DeviceM KV Rec Logits Unit)
      (fun _ => Holds S (rolledBack kv (kv.currentSeqLen - steps))) (fun _ => Broken S) := by
    have between : Fits maxSeqLen { kv with currentSeqLen := kv.currentSeqLen - steps } :=
      ⟨fits.size, shorter⟩
    apply triple_then (Holds S { kv with currentSeqLen := kv.currentSeqLen - steps })
    · apply triple_modify
      intro d holds
      rw [holds.cache]
      apply holds.setLength
      exact shorter
    · intro _
      apply triple_bind (submit_holds between)
      intro _
      apply triple_modify
      exact fun d holds => holds.setKV _
  intro d holds
  have answer : kv.rollback steps = .ok (rolledBack kv (kv.currentSeqLen - steps)) :=
    KVCache.rollback_of_le room
  have run : rollback P steps d = settleRollback P (rolledBack kv (kv.currentSeqLen - steps)) d := by
    simp only [rollback, bind_apply, read_apply, holds.cache, answer]
  rw [run]
  exact settle d holds

/-- A pass within the cache. -/
theorem Holds.runPass {d : Device KV Rec Logits} (holds : Holds S kv d) (zeroLinear : Bool)
    (tokens : List Int) (startPos : Nat) (room : startPos + tokens.length ≤ maxSeqLen) :
    Holds S { kv with memory := (T.pass kv.maxSeqLen zeroLinear kv.memory tokens startPos).1 }
        (d.runPass T.backend zeroLinear tokens startPos).1 ∧
      (d.runPass T.backend zeroLinear tokens startPos).2 =
        (T.pass kv.maxSeqLen zeroLinear kv.memory tokens startPos).2 := by
  simp only [Device.runPass, Machine.backend_pass, holds.cache]
  refine ⟨⟨rfl, holds.arenas, ?_⟩, trivial⟩
  intro event member
  rcases List.mem_append.mp member with fed | old
  · simp only [List.map_reverse, List.mem_reverse, List.mem_map] at fed
    obtain ⟨⟨token, position⟩, inside, rfl⟩ := fed
    have below := List.snd_lt_add_of_mem_zipIdx inside
    exact S.forward token position (by omega)
  · exact holds.events event old

end XInfer.DeviceRules
