import XInfer.PersistentBuffer

/-!
Budget and positions of one call, on any platform: whatever throws, no length, position
or token count leaves its bound, and every iteration that goes on has emitted a
token. That a generation ended by `length` has used up its budget holds where nothing
throws between the first token and the end.
-/

namespace XInfer.TokenBudget

open Primitives StateException WhileLoop Device DeviceRules Generation SessionRules LoopRules
  CallRules PersistentBuffer

variable {KV Rec Logits : Type}

/-- Neither a position past the cache nor a refused advance, nor the branch for either. -/
def InBounds (maxSeqLen : Nat) : Event → Prop
  | .forward _ position => position < maxSeqLen
  | .length currentSeqLen => currentSeqLen ≤ maxSeqLen
  | .failedAdvance | .overflow => False
  | .persistentBuffer _ _ _ => True

/-- Nothing is assumed of the platform. -/
def anyPlatform (P : Platform KV Rec) {maxSeqLen : Nat} (rowBytes : Nat) (word : maxSeqLen < 2 ^ 63) :
    Setting P maxSeqLen rowBytes where
  good := InBounds maxSeqLen
  sized := fun _ _ => True
  requests := fun _ => True
  serving := False
  word := word_of_half word
  forward := fun _ _ below => below
  length := fun _ within => within
  single := trivial
  request := fun _ _ _ _ _ => trivial
  reset_sized := fun _ _ _ => trivial
  allocate_sized := fun _ _ _ _ _ _ => trivial
  buffer_sized := fun _ _ _ _ _ _ _ => trivial
  serves_allocate := fun serving => serving.elim
  serves_buffer := fun serving => serving.elim
  serves_submit := fun serving => serving.elim

/-- Memory never runs out and no submission throws; the persistent buffer is the
sources' own. -/
structure Ample (P : Platform KV Rec) : Prop where
  allocate : ∀ arena bytes, ∃ after, P.allocate arena bytes = .ok after
  keeps : ∀ arena after bytes, P.allocate arena bytes = .ok after →
    after.persistentCapacity = arena.persistentCapacity
  persistentBuffer : P.persistentBuffer = DeviceArena.persistentBuffer true
  fault : ∀ submission, P.fault submission = none

/-- One row at a time is always served. -/
def ampleOneRow {P : Platform KV Rec} (ample : Ample P) {maxSeqLen rowBytes : Nat}
    (word : maxSeqLen < 2 ^ 63) (visible : 0 < rowBytes) : Setting P maxSeqLen rowBytes where
  good := fun _ => True
  sized := fun _ => OneRow rowBytes
  requests := fun rows => rows = 1
  serving := True
  word := word_of_half word
  forward := fun _ _ _ => trivial
  length := fun _ _ => trivial
  single := oneRow_requested
  request := fun _ _ _ _ _ => trivial
  reset_sized := oneRow_reset rowBytes
  allocate_sized := fun _ arena after bytes sized done =>
    oneRow_keeps (ample.keeps arena after bytes done) sized
  buffer_sized := by
    rintro _ arena after rows rfl sized done
    rw [ample.persistentBuffer] at done
    rcases DeviceArena.persistentBuffer_capacity done with rfl | ⟨_, rfl⟩
    · exact sized
    · exact Or.inr (by rw [Nat.one_mul])
  serves_allocate := fun _ _ arena bytes _ => ample.allocate arena bytes
  serves_buffer := by
    rintro _ _ arena rows rfl sized
    rw [ample.persistentBuffer, Nat.one_mul]
    rcases sized with none | some
    · have nonzero : rowBytes ≠ 0 := Nat.ne_of_gt visible
      refine ⟨{ arena with persistentCapacity := some rowBytes }, ?_⟩
      simp [DeviceArena.persistentBuffer, none, nonzero]
    · exact ⟨arena, DeviceArena.persistentBuffer_of_le true arena some (Nat.le_refl _)⟩
  serves_submit := fun _ => ample.fault

section Call

variable (E : Engine) (T : Machine KV Rec Logits) (P : Platform KV Rec) (prompt : Bytes)
  (g : GenerationConfig) (callback : Option TokenCallback) (runtime : Runtime KV Rec Logits)

/-- The heads of the loop of one call. -/
def HeadOf (start head : Session KV Rec Logits) : Prop :=
  prepare E T.backend P prompt g callback (enter runtime) = .ok none start ∧
    Head (unfinished (request E g callback)) (decodeIteration T.backend P (request E g callback))
      (fun _ => True) start head

/-- What no failure can break. -/
structure Bounded : Prop where
  events : ∀ event ∈ (generate E T.backend P prompt g callback runtime).2.device.events,
    InBounds runtime.device.kv.maxSeqLen event
  tokens : ∀ r, (generate E T.backend P prompt g callback runtime).1 = .ok r →
    r.tokenIds.length ≤ g.maxNewTokens.toNat
  heads : ∀ start head, HeadOf E T P prompt g callback runtime start head →
    head.routing.tokenIds.length ≤ g.maxNewTokens.toNat
  progress : ∀ start head after, HeadOf E T P prompt g callback runtime start head →
    unfinished (request E g callback) head = true →
    decodeIteration T.backend P (request E g callback) head = .ok .again after →
    head.routing.tokenIds.length < after.routing.tokenIds.length
  ends : ∀ start fuel, prepare E T.backend P prompt g callback (enter runtime) = .ok none start →
    g.maxNewTokens.toNat ≤ fuel →
    whileLoop (unfinished (request E g callback))
        (decodeIteration T.backend P (request E g callback)) fuel start =
      decodeLoop T.backend P (request E g callback) start

/-- `length` says that the budget is used up. -/
def LengthIsFull : Prop :=
  ∀ r, (generate E T.backend P prompt g callback runtime).1 = .ok r → r.finishReason = .length →
    r.tokenIds.length = g.maxNewTokens.toNat

variable {E T P prompt g callback runtime}

theorem head_committed {maxSeqLen : Nat} {S : Setting P maxSeqLen T.config.logitsBytes}
    (word : maxSeqLen < 2 ^ 63) (fits : Fits maxSeqLen runtime.device.kv)
    (arenas : ∀ owner, S.sized owner (runtime.device.arena owner))
    (permits : ∀ tokenSeq, encoded E g prompt runtime.bpeCache = .ok tokenSeq →
      Permits T E g callback S tokenSeq.length)
    {start head : Session KV Rec Logits} (reached : HeadOf E T P prompt g callback runtime start head) :
    ∃ promptLen first, Granted T S (request E g callback) promptLen [first] ∧
      AtHead T S (request E g callback) promptLen [first] head := by
  obtain ⟨prepared, path⟩ := reached
  have begun := (prepare_rule T E g callback prompt word fits permits).ok
    ⟨at_enter T runtime arenas, rfl⟩ prepared
  obtain ⟨tokenSeq, _, first, granted, _, committed⟩ := begun
  exact ⟨tokenSeq.length, first, granted, head_reached granted ⟨_, _, _, committed⟩ path⟩

theorem bounded (word : runtime.device.kv.maxSeqLen < 2 ^ 63)
    (within : runtime.device.kv.currentSeqLen ≤ runtime.device.kv.maxSeqLen) :
    Bounded E T P prompt g callback runtime := by
  have fits : Fits runtime.device.kv.maxSeqLen runtime.device.kv := ⟨rfl, within⟩
  let S := anyPlatform P T.config.logitsBytes word
  have permits : ∀ tokenSeq, encoded E g prompt runtime.bpeCache = .ok tokenSeq →
      Permits T E g callback S tokenSeq.length := fun _ _ _ _ => trivial
  have arenas : ∀ owner, S.sized owner (runtime.device.arena owner) := fun _ => trivial
  obtain ⟨sound, replies⟩ := generate_rule T E g callback prompt word runtime fits arenas permits
  refine ⟨sound.events, ?_, ?_, ?_, ?_⟩
  · intro r answered
    obtain ⟨s, _, replied⟩ := replies r answered
    rw [replied.tokenIds]
    exact replied.ended.budget
  · intro start head reached
    obtain ⟨_, _, _, kv, tokens, tok, committed⟩ := head_committed word fits arenas permits reached
    rw [committed.here.tokenIds]
    exact committed.budget
  · intro start head after reached more run
    obtain ⟨_, _, granted, at_head⟩ := head_committed word fits arenas permits reached
    have step := head_step granted at_head more
    rw [run] at step
    exact step.2
  · intro start fuel prepared enough
    obtain ⟨_, _, granted, at_head⟩ := head_committed word fits arenas permits ⟨prepared, .first⟩
    exact decodeLoop_fuel granted at_head fuel enough

theorem lengthIsFull (word : runtime.device.kv.maxSeqLen < 2 ^ 63)
    (sized : Sized T runtime.device.kv.maxSeqLen runtime) (ample : Ample P)
    (willing : Willing (request E g callback))
    (single : SingleDrafts E prompt g callback runtime) :
    LengthIsFull E T P prompt g callback runtime := by
  have visible := T.logitsBytes_pos (runtime.device.logits .caller 0)
  let S := ampleOneRow ample word visible
  have permits : ∀ tokenSeq, encoded E g prompt runtime.bpeCache = .ok tokenSeq →
      Permits T E g callback S tokenSeq.length := single
  have replies := And.right
    (generate_rule T E g callback prompt word runtime sized.cache sized.arenas permits)
  intro r answered length
  obtain ⟨s, _, replied⟩ := replies r answered
  exact replied.full trivial willing length

end Call

/-- The request for the second row throws in the first round, and the error result says
`length` after one token of four. -/
theorem draftingCall_cut_short :
    (generate draftingEngine steadyMachine.backend (Platform.real true fun _ => none)
        draftingCall.prompt draftingCall.options none loadedRuntime).1.toOption.map
      (fun r => (r.finishReason, r.tokenIds, r.success)) = some (.length, [1], false) := by
  decide +kernel

def amplePlatform : Platform Unit Unit :=
  { Platform.granting with persistentBuffer := DeviceArena.persistentBuffer true }

theorem amplePlatform_ample : Ample amplePlatform where
  allocate := fun arena _ => ⟨arena, rfl⟩
  keeps := by
    rintro arena _ bytes ⟨⟩
    rfl
  persistentBuffer := rfl
  fault := fun _ => rfl

end XInfer.TokenBudget
