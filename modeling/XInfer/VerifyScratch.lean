import XInfer.CacheContent
import XInfer.SessionFrames
import XInfer.TokenBudget
import XInfer.VisualIndices

/-!
The main arena over the rounds of one call. `forward_verify` allocates from it without a reset, and of
the rest of a round only the persistent buffer touches it: drafts come from the arena of the draft context.
So each round begins where the last one has ended.
-/

namespace XInfer.VerifyScratch

open Primitives StateException WhileLoop Alignment Device DeviceRules Forward ForwardRules Generation SessionFrames
  SessionRules LoopRules CallRules TokenBudget

open ArenaBlocks (SameBlock Lined requestAll requestAll_cons requestAll_grows sameBlock_allocate)
open VisualIndices (chunkBytes chunkBytes_mono)

variable {KV Rec Logits : Type}

section Frames

variable {B : Backend KV Rec Logits} {P : Platform KV Rec} {R : Request}

def mainArena (d : Device KV Rec Logits) : DeviceArena := d.arena .main

def scratch (s : Session KV Rec Logits) : DeviceArena := mainArena s.device

theorem mainArena_draft (arena : DeviceArena) (d : Device KV Rec Logits) :
    mainArena (d.setArena .draft arena) = mainArena d := rfl

theorem frame_submit : Frame mainArena (submit P : DeviceM KV Rec Logits Unit) := by
  intro d
  unfold submit
  cases P.fault d.submissions <;> rfl

theorem frame_allocate (bytes : Nat) : Frame mainArena (allocate P .draft bytes : DeviceM KV Rec Logits Unit) := by
  intro d
  unfold Device.allocate
  cases P.allocate (d.arena .draft) bytes with
  | ok arena => exact mainArena_draft arena d
  | error thrown => rfl

theorem frame_allocateAll (sizes : List Nat) :
    Frame mainArena (allocateAll P .draft sizes : DeviceM KV Rec Logits Unit) := by
  induction sizes with
  | nil => exact frame_pure _
  | cons bytes rest ih => exact frame_bind (frame_allocate bytes) fun _ => ih

theorem frame_persistentBuffer (bytes : Nat) :
    Frame mainArena (Device.persistentBuffer P .draft bytes : DeviceM KV Rec Logits Unit) := by
  intro d
  unfold Device.persistentBuffer
  dsimp only
  cases P.persistentBuffer (d.arena .draft) bytes <;> rfl

theorem frame_advance (delta : Nat) : Frame mainArena (advance delta : DeviceM KV Rec Logits Bool) := by
  intro d
  unfold advance
  dsimp only [finalState]
  split <;> rfl

theorem frame_argmax (buffer : Buffer) (row : Nat) : Frame mainArena (argmax B P buffer row) :=
  frame_bind frame_submit fun _ => frame_read _

theorem frame_runLayers (zeroLinear : Bool) (tokens : List Int) (startPos : Nat) :
    Frame mainArena (runLayers B zeroLinear tokens startPos) := fun _ => rfl

theorem frame_acquire (n : Nat) : Frame mainArena (acquire B P .draft n) := by
  apply frame_bind (frame_allocate _)
  intro _
  apply frame_bind frame_submit
  intro _
  apply frame_bind (frame_allocate _)
  intro _
  apply frame_bind frame_submit
  intro _
  exact frame_bind (frame_allocateAll _) fun _ => frame_submit

theorem frame_forwardChunk (tokens : List Int) (startPos : Nat) (zeroLinear : Bool) (out : Option (Buffer × Nat)) :
    Frame mainArena (forwardChunk B P .draft tokens startPos zeroLinear out) := by
  apply frame_ite (frame_pure _)
  apply frame_bind (frame_read _)
  intro kv
  refine frame_ite (frame_modify fun _ => rfl) ?_
  refine frame_bind (frame_modify fun _ => rfl) fun _ => ?_
  apply frame_bind (frame_acquire _)
  intro _
  apply frame_bind (frame_runLayers _ _ _)
  intro rows
  cases out with
  | none => exact frame_pure _
  | some out => exact frame_bind frame_submit fun _ => frame_modify fun _ => rfl

theorem frame_decodeStep (tok : Int) : Frame mainArena (decodeStep B P .draft tok none) := by
  apply frame_bind (frame_read _)
  intro kv
  apply frame_ite
  · exact frame_bind (frame_modify fun _ => rfl) fun _ => frame_pure _
  · refine frame_ite ?_ (frame_pure _)
    apply frame_bind (frame_persistentBuffer _)
    intro _
    apply frame_bind (frame_forwardChunk _ _ _ _)
    intro _
    apply frame_bind (frame_advance 1)
    intro moved
    exact frame_ite (frame_argmax _ _) (frame_pure _)

theorem frame_graphDecodeStep (tok : Int) (curPos : Nat) : Frame mainArena (graphDecodeStep B P .draft tok curPos) := by
  refine frame_ite ?_ (frame_pure _)
  apply frame_bind (frame_read _)
  intro kv
  apply frame_ite
  · exact frame_bind (frame_modify fun _ => rfl) fun _ => frame_pure _
  · apply frame_bind frame_submit
    intro _
    apply frame_bind (frame_runLayers _ _ _)
    intro rows
    exact frame_bind (frame_modify fun _ => rfl) fun _ => frame_argmax _ _

theorem frame_singleStep (captured : Bool) (tok : Int) : Frame mainArena (singleStep B P .draft captured tok) := by
  refine frame_ite ?_ (frame_decodeStep tok)
  apply frame_bind (frame_read _)
  intro kv
  apply frame_bind (frame_graphDecodeStep _ _)
  intro next
  apply frame_ite (frame_pure _)
  apply frame_bind (frame_advance 1)
  intro moved
  exact frame_ite (frame_pure _) (frame_pure _)

theorem frame_draftSteps (captured : Bool) (left : Nat) (tok : Int) (tokens : List Int) :
    Frame mainArena (draftSteps B P captured left tok tokens) := by
  induction left generalizing tok tokens with
  | zero => exact frame_pure _
  | succ left ih =>
      apply frame_bind (frame_read _)
      intro kv
      apply frame_ite
      · exact frame_bind (frame_modify fun _ => rfl) fun _ => frame_pure _
      · apply frame_bind (frame_singleStep captured tok)
        intro next
        exact frame_ite (frame_pure _) (ih _ _)

/-- The drafts never touch the main arena. -/
theorem frame_draftDecodeLoop (captured : Bool) (tok : Int) (count : Nat) :
    Frame mainArena (draftDecodeLoop B P captured tok count) := by
  apply frame_ite (frame_pure _)
  apply frame_bind (frame_read _)
  intro kv
  apply frame_ite
  · exact frame_bind (frame_modify fun _ => rfl) fun _ => frame_pure _
  · exact frame_draftSteps _ _ _ _

theorem frame_checkpoint : Frame mainArena (checkpointRecurrentState P : DeviceM KV Rec Logits Unit) :=
  frame_bind frame_submit fun _ => frame_modify fun _ => rfl

theorem frame_rollback (steps : Nat) : Frame mainArena (rollback P steps : DeviceM KV Rec Logits Unit) := by
  apply frame_bind (frame_read _)
  intro kv
  cases kv.rollback steps with
  | error thrown => exact fun _ => rfl
  | ok shortened =>
      refine frame_bind (frame_modify fun _ => rfl) fun _ => ?_
      exact frame_bind frame_submit fun _ => frame_modify fun _ => rfl

theorem frame_onDevice {α : Type} {program : DeviceM KV Rec Logits α} (frame : Frame mainArena program) :
    Frame scratch (onDevice program) := by
  intro s
  have same := frame s.device
  unfold onDevice within
  cases run : program s.device with
  | ok value d => rw [run] at same; exact same
  | error thrown d => rw [run] at same; exact same

theorem scratch_outside : Outside (scratch : Session KV Rec Logits → DeviceArena) where
  routing := fun _ _ => rfl
  calls := fun _ _ => rfl
  finish := fun _ _ => rfl
  current := fun _ _ => rfl

/-- Settling a round releases nothing either. -/
theorem frame_settle (total : Nat) (accepted : Sampling.SpeculativeAcceptanceResult) :
    Frame scratch (if accepted.hasRejectedToken then settleRejected P R total accepted
      else settleAccepted R accepted : SessionM KV Rec Logits Control) := by
  have moves : Frame scratch (onDevice (advance 1) : SessionM KV Rec Logits Bool) := frame_onDevice (frame_advance 1)
  apply frame_ite
  · exact frame_settleRejected scratch_outside moves (fun steps => frame_onDevice (frame_rollback steps)) _ _
  · exact frame_settleAccepted scratch_outside moves _

end Frames

section Rounds

/-- The driver's own arena, and a persistent buffer that serves every request. -/
structure Sure (P : Platform KV Rec) : Prop where
  allocate : P.allocate = DeviceArena.allocate
  persistentBuffer : ∀ arena bytes, ∃ capacity,
    P.persistentBuffer arena bytes = .ok { arena with persistentCapacity := capacity }

variable {B : Backend KV Rec Logits} {P : Platform KV Rec} {R : Request} (sure : Sure P)
include sure

theorem allocate_ok {bytes : Nat} {d after : Device KV Rec Logits}
    (done : allocate P .main bytes d = .ok () after) :
    (mainArena d).allocate bytes = .ok (mainArena after) := by
  unfold Device.allocate at done
  rw [sure.allocate] at done
  cases answer : (d.arena .main).allocate bytes with
  | ok arena =>
      rw [answer] at done
      cases done
      exact answer
  | error thrown =>
      rw [answer] at done
      cases done

theorem allocateAll_ok {sizes : List Nat} {d after : Device KV Rec Logits}
    (done : allocateAll P .main sizes d = .ok () after) :
    requestAll sizes (mainArena d) = .ok (mainArena after) := by
  induction sizes generalizing d with
  | nil =>
      cases done
      rfl
  | cons bytes rest ih =>
      obtain ⟨_, middle, first, others⟩ := bind_ok done
      rw [requestAll_cons rest (allocate_ok sure first)]
      exact ih others

theorem acquire_ok {n : Nat} {d after : Device KV Rec Logits} (done : acquire B P .main n d = .ok () after) :
    requestAll (chunkBytes B.config n) (mainArena d) = .ok (mainArena after) := by
  obtain ⟨_, d1, tokens, done⟩ := bind_ok done
  obtain ⟨_, d2, copied, done⟩ := bind_ok done
  obtain ⟨_, d3, positions, done⟩ := bind_ok done
  obtain ⟨_, d4, written, done⟩ := bind_ok done
  obtain ⟨_, d5, activations, launched⟩ := bind_ok done
  have first := allocate_ok sure tokens
  have second := allocate_ok sure positions
  have rest := allocateAll_ok sure activations
  rw [frame_submit.ok copied] at second
  rw [frame_submit.ok written] at rest
  rw [frame_submit.ok launched, chunkBytes, requestAll_cons _ first, requestAll_cons _ second]
  exact rest

theorem forwardVerify_ok {drafts : List Int} {prefixLen : Nat} {d after : Device KV Rec Logits} (some' : drafts ≠ [])
    (done : forwardVerify B P drafts prefixLen d = .ok () after) :
    requestAll (chunkBytes B.config drafts.length) (mainArena d) = .ok (mainArena after) := by
  unfold forwardVerify at done
  rw [if_neg some'] at done
  obtain ⟨kv, d1, looked, done⟩ := bind_ok done
  cases looked
  split at done
  · obtain ⟨_, _, _, thrown⟩ := bind_ok done
    cases thrown
  · cases unknown : drafts.zipIdx.find? (fun pair => decide (¬ B.config.InVocab pair.1)) with
    | some pair =>
        rw [unknown] at done
        cases done
    | none =>
        rw [unknown] at done
        obtain ⟨_, d2, acquired, done⟩ := bind_ok done
        obtain ⟨rows, d3, ran, done⟩ := bind_ok done
        obtain ⟨_, d4, wrote, waited⟩ := bind_ok done
        cases ran
        cases wrote
        have granted := acquire_ok sure acquired
        rw [frame_submit.ok waited]
        exact granted

omit sure in
theorem persistentBuffer_ok {bytes : Nat} {d after : Device KV Rec Logits}
    (done : Device.persistentBuffer P .main bytes d = .ok () after) :
    P.persistentBuffer (mainArena d) bytes = .ok (mainArena after) := by
  unfold Device.persistentBuffer at done
  dsimp only at done
  cases answer : P.persistentBuffer (d.arena .main) bytes with
  | ok arena =>
      rw [answer] at done
      cases done
      exact answer
  | error thrown =>
      rw [answer] at done
      cases done

omit sure in
theorem onDevice_ok {α : Type} {program : DeviceM KV Rec Logits α} {value : α} {s after : Session KV Rec Logits}
    (done : onDevice program s = .ok value after) : program s.device = .ok value after.device := by
  unfold onDevice within at done
  cases run : program s.device with
  | ok other d =>
      rw [run] at done
      cases done
      rfl
  | error thrown d =>
      rw [run] at done
      cases done

/-- A verification that does not throw has allocated for its drafts, and released nothing. -/
theorem verifyDrafts_ok {drafts : List Int} {prefixLen : Nat} {control : Control} {s after : Session KV Rec Logits}
    (some' : drafts ≠ []) (done : verifyDrafts B P R drafts prefixLen s = .ok control after) :
    ∃ capacity, requestAll (chunkBytes B.config drafts.length) { scratch s with persistentCapacity := capacity } =
      .ok (scratch after) := by
  obtain ⟨_, s1, sized, done⟩ := bind_ok done
  obtain ⟨_, s2, verified, done⟩ := bind_ok done
  obtain ⟨_, s3, waited, done⟩ := bind_ok done
  obtain ⟨rows, s4, looked, done⟩ := bind_ok done
  obtain ⟨accepted, s5, raised, done⟩ := bind_ok done
  obtain ⟨capacity, served⟩ := sure.persistentBuffer (scratch s) (drafts.length * B.config.logitsBytes)
  have buffered : scratch s1 = { scratch s with persistentCapacity := capacity } := by
    have answered := persistentBuffer_ok (onDevice_ok sized)
    change P.persistentBuffer (scratch s) _ = .ok (scratch s1) at answered
    rw [served] at answered
    exact (Except.ok.inj answered).symm
  have settled : scratch after = scratch s2 := by
    have chosen : scratch s5 = scratch s4 := (frame_raise _).ok raised
    have seen : scratch s4 = scratch s3 := (frame_read _).ok looked
    rw [(frame_settle drafts.length accepted).ok done, chosen, seen, (frame_onDevice frame_submit).ok waited]
  refine ⟨capacity, ?_⟩
  rw [← buffered, settled]
  exact forwardVerify_ok sure some' (onDevice_ok verified)

variable {T : Machine KV Rec Logits} {maxSeqLen promptLen : Nat} {S : Setting P maxSeqLen T.config.logitsBytes}
  {front tokens : List Int} {kv : KVCache KV Rec} {tok : Int} {s after : Session KV Rec Logits} {control : Control}

/-- A round that does not throw has verified drafts. -/
theorem round_ok (granted : Granted T S R promptLen front)
    (committed : Committed T S R promptLen front kv tokens tok s) (round : beginsRound R s = true)
    (done : decodeIteration T.backend P R s = .ok control after) :
    ∃ count capacity, 0 < count ∧ count ≤ R.maxNewTokens ∧
      requestAll (chunkBytes T.config count) { scratch s with persistentCapacity := capacity } =
        .ok (scratch after) := by
  have here := committed.here
  have behind := committed.behind
  have window := granted.window
  have begun := here.begins.symm.trans round
  simp only [begins, Bool.and_eq_true, decide_eq_true_eq] at begun
  have positive : 0 < min R.draftN (R.maxNewTokens - tokens.length - 1) := by
    have drafting := granted.drafting
    omega
  have unfilled : ¬ kv.maxSeqLen ≤ kv.currentSeqLen := by
    rw [committed.fits.size]
    omega
  simp only [decodeIteration, bind_apply, read_apply, here.device.cache, if_neg unfilled, round, if_true,
    here.tokenIds] at done
  obtain ⟨prefixLen, s0, looked, done⟩ := bind_ok done
  obtain ⟨_, s1, saved, done⟩ := bind_ok done
  obtain ⟨last, s2, fetched, done⟩ := bind_ok done
  obtain ⟨draft, s3, drafted, done⟩ := bind_ok done
  cases looked
  cases fetched
  have fits : Fits maxSeqLen kv.checkpointRecurrentState := ⟨committed.fits.size, committed.fits.within⟩
  have checkpoint : Triple (Holds S kv) (checkpointRecurrentState P : DeviceM KV Rec Logits Unit)
      (fun _ d => Holds S kv.checkpointRecurrentState d ∧ True) (fun _ => Broken S) :=
    triple_conseq (checkpoint_rule committed.fits) (fun _ holds => holds) (fun _ _ holds => ⟨holds, trivial⟩)
      fun _ _ broken => broken
  obtain ⟨there, _⟩ := (onDevice_plain committed.kept committed.budget checkpoint).ok here saved
  dsimp only at drafted
  rw [there.current] at drafted
  have room : kv.currentSeqLen + min R.draftN (R.maxNewTokens - tokens.length - 1) ≤ maxSeqLen := by omega
  obtain ⟨_, rfl⟩ := (onDevice_plain committed.kept committed.budget
    (draftDecodeLoop_rule T R.draftCaptured _ committed.chosen.inVocab fits room)).ok there drafted
  have width := drafts_length T (min R.draftN (R.maxNewTokens - tokens.length - 1)) kv.checkpointRecurrentState tok
  have some' : (drafts T (min R.draftN (R.maxNewTokens - tokens.length - 1)) kv.checkpointRecurrentState tok).1 ≠ [] := by
    rw [← List.length_pos_iff, width]
    exact positive
  rw [if_pos ⟨rfl, some'⟩] at done
  obtain ⟨capacity, verified⟩ := verifyDrafts_ok sure some' done
  rw [(frame_onDevice (frame_draftDecodeLoop _ _ _)).ok drafted, (frame_onDevice frame_checkpoint).ok saved, width]
    at verified
  exact ⟨_, capacity, positive, by omega, verified⟩

end Rounds

section Blocks

/-- The arena lies in the block, with its offset inside. -/
structure Inside (block arena : DeviceArena) : Prop where
  same : SameBlock arena block
  offset : arena.offset ≤ block.capacity

theorem Inside.allocate {block arena after : DeviceArena} {bytes : Nat} (inside : Inside block arena)
    (done : arena.allocate bytes = .ok after) : Inside block after := by
  refine ⟨(sameBlock_allocate done).trans inside.same, ?_⟩
  have capacity := inside.same.capacity
  have offset := inside.offset
  unfold DeviceArena.allocate at done
  split at done
  · cases done
    exact offset
  · split at done
    · cases done
    · dsimp only at done
      split at done
      · cases done
      · cases done
        dsimp only
        omega

/-- A setting that serves nothing owes no submission. -/
theorem unserved_submit {P : Platform KV Rec} (serving : False) : ∀ submission, P.fault submission = none :=
  serving.elim

/-- Calls on a main arena in the block. -/
def inBlock {P : Platform KV Rec} (sure : Sure P) (block : DeviceArena) {maxSeqLen : Nat} (rowBytes : Nat)
    (word : maxSeqLen < 2 ^ 63) : Setting P maxSeqLen rowBytes where
  good := fun _ => True
  sized := fun owner arena => owner = .main → Inside block arena
  requests := fun _ => True
  serving := False
  word := word_of_half word
  forward := fun _ _ _ => trivial
  length := fun _ _ => trivial
  single := trivial
  request := fun _ _ _ _ _ => trivial
  reset_sized := by
    intro _ arena sized main
    obtain ⟨same, _⟩ := sized main
    exact ⟨⟨same.basePtr, same.capacity, same.line⟩, Nat.zero_le _⟩
  allocate_sized := by
    intro _ arena after bytes sized done main
    rw [sure.allocate] at done
    exact (sized main).allocate done
  buffer_sized := by
    intro _ arena after rows _ sized done main
    obtain ⟨capacity, served⟩ := sure.persistentBuffer arena (rows * rowBytes)
    rw [served] at done
    cases done
    obtain ⟨same, offset⟩ := sized main
    exact ⟨⟨same.basePtr, same.capacity, same.line⟩, offset⟩
  serves_allocate := fun serving => serving.elim
  serves_buffer := fun serving => serving.elim
  serves_submit := unserved_submit

end Blocks

section Runs

variable (E : Engine) (T : Machine KV Rec Logits) (P : Platform KV Rec) (prompt : Bytes)
  (g : GenerationConfig) (callback : Option TokenCallback) (runtime : Runtime KV Rec Logits)

/-- The first speculative round of a call begins at the head. -/
structure FirstRound (start first : Session KV Rec Logits) : Prop where
  prepared : prepare E T.backend P prompt g callback (enter runtime) = .ok none start
  path : Head (unfinished (request E g callback)) (decodeIteration T.backend P (request E g callback))
    (fun s => beginsRound (request E g callback) s = false) start first
  round : beginsRound (request E g callback) first = true

/-- No later round begins at a higher offset than the first. -/
def Reclaimed : Prop :=
  ∀ start first later, FirstRound E T P prompt g callback runtime start first →
    Head (unfinished (request E g callback)) (decodeIteration T.backend P (request E g callback)) (fun _ => True)
      first later →
    beginsRound (request E g callback) later = true → (scratch later).offset ≤ (scratch first).offset

/-- The iteration after the first round begins no other. -/
def SingleRound : Prop :=
  ∀ start first next, FirstRound E T P prompt g callback runtime start first →
    decodeIteration T.backend P (request E g callback) first = .ok .again next →
    beginsRound (request E g callback) next = false

/-- A main arena that is not at the end of the address space, with buffers that no sum wraps for. -/
structure Spacious : Prop where
  lined : Lined (runtime.device.arena .main)
  offset : (runtime.device.arena .main).offset ≤ (runtime.device.arena .main).capacity
  small : ∀ count ≤ g.maxNewTokens.toNat, ∀ bytes ∈ chunkBytes T.config count,
    (runtime.device.arena .main).capacity + 64 + bytes ≤ 2 ^ 64

variable {E T P prompt g callback runtime}

section Heads

variable {R : Request} {maxSeqLen promptLen : Nat} {S : Setting P maxSeqLen T.config.logitsBytes} {front : List Int}
  {s a b c : Session KV Rec Logits}

theorem head_length (head : AtHead T S R promptLen front s) : s.device.kv.maxSeqLen = maxSeqLen ∧
    s.device.kv.currentSeqLen ≤ maxSeqLen ∧
    s.device.kv.currentSeqLen + 1 = promptLen + s.routing.tokenIds.length := by
  obtain ⟨kv, tokens, tok, committed⟩ := head
  rw [committed.here.device.cache, committed.here.tokenIds]
  exact ⟨committed.fits.size, committed.fits.within, committed.behind⟩

/-- Rounds follow each other: the window of a round is an interval of lengths, also where the sum wraps. -/
theorem begins_between (word : maxSeqLen < 2 ^ 63) (first : AtHead T S R promptLen front a)
    (middle : AtHead T S R promptLen front b) (last : AtHead T S R promptLen front c)
    (up : a.routing.tokenIds.length ≤ b.routing.tokenIds.length)
    (on : b.routing.tokenIds.length ≤ c.routing.tokenIds.length)
    (begun : beginsRound R a = true) (later : beginsRound R c = true) : beginsRound R b = true := by
  obtain ⟨sizeA, _, lenA⟩ := head_length first
  obtain ⟨sizeB, _, lenB⟩ := head_length middle
  obtain ⟨sizeC, withinC, lenC⟩ := head_length last
  simp only [beginsRound, Bool.and_eq_true, decide_eq_true_eq] at begun later ⊢
  unfold sizeAdd at begun later ⊢
  refine ⟨⟨begun.1.1, ?_⟩, ?_⟩
  · omega
  · omega

theorem head_tokens (granted : Granted T S R promptLen front) {allowed : Session KV Rec Logits → Prop}
    (start : AtHead T S R promptLen front a)
    (path : Head (unfinished R) (decodeIteration T.backend P R) allowed a b) :
    a.routing.tokenIds.length ≤ b.routing.tokenIds.length := by
  induction path with
  | first => exact Nat.le_refl _
  | again reached more _ step ih =>
      have grown := head_step granted (head_reached granted start reached) more
      rw [step] at grown
      exact Nat.le_trans ih (Nat.le_of_lt grown.2)

end Heads

theorem FirstRound.reached {start first : Session KV Rec Logits}
    (begun : FirstRound E T P prompt g callback runtime start first) :
    HeadOf E T P prompt g callback runtime start first := ⟨begun.prepared, begun.path.mono fun _ _ => trivial⟩

theorem FirstRound.unique {start first other : Session KV Rec Logits}
    (begun : FirstRound E T P prompt g callback runtime start first)
    (here : FirstRound E T P prompt g callback runtime other other) : start = other ∧ first = other := by
  have same : start = other := (EStateM.Result.ok.inj (begun.prepared.symm.trans here.prepared)).2
  refine ⟨same, ?_⟩
  subst same
  exact begun.path.stays fun single => Bool.noConfusion (single.symm.trans here.round)

/-- Where the next iteration begins no round, none begins later. -/
theorem reclaimed_of_single (word : runtime.device.kv.maxSeqLen < 2 ^ 63)
    (within : runtime.device.kv.currentSeqLen ≤ runtime.device.kv.maxSeqLen)
    (single : SingleRound E T P prompt g callback runtime) : Reclaimed E T P prompt g callback runtime := by
  intro start first later begun path again
  rcases path.later with rfl | ⟨next, more, step, reached⟩
  · exact Nat.le_refl _
  · obtain ⟨promptLen, front, granted, head⟩ := head_committed (S := anyPlatform P T.config.logitsBytes word) word
      ⟨rfl, within⟩ (fun _ => trivial) (fun _ _ _ _ => trivial) begun.reached
    have once : Head (unfinished (request E g callback)) (decodeIteration T.backend P (request E g callback))
        (fun _ => True) first next := .again .first more trivial step
    have after := head_reached granted head once
    have grown := head_tokens granted head once
    have last := head_reached granted after reached
    have others := head_tokens granted after reached
    have contiguous := begins_between word head after last grown others begun.round again
    rw [single start first next begun step] at contiguous
    cases contiguous

/-- Every round moves the offset up. -/
theorem round_grows (word : runtime.device.kv.maxSeqLen < 2 ^ 63)
    (within : runtime.device.kv.currentSeqLen ≤ runtime.device.kv.maxSeqLen) (sure : Sure P)
    (spacious : Spacious T g runtime) {start head next : Session KV Rec Logits}
    (reached : HeadOf E T P prompt g callback runtime start head) (round : beginsRound (request E g callback) head = true)
    (step : decodeIteration T.backend P (request E g callback) head = .ok .again next) :
    (scratch head).offset < (scratch next).offset := by
  have arenas : ∀ owner, (inBlock sure (runtime.device.arena .main) T.config.logitsBytes word).sized owner
      (runtime.device.arena owner) := by
    rintro _ rfl
    exact ⟨⟨rfl, rfl, rfl⟩, spacious.offset⟩
  obtain ⟨promptLen, front, granted, kv, tokens, tok, committed⟩ :=
    head_committed word ⟨rfl, within⟩ arenas (fun _ _ _ _ => trivial) reached
  obtain ⟨count, capacity, positive, few, requests⟩ := round_ok sure granted committed round step
  obtain ⟨same, offset⟩ := committed.here.device.arenas .main rfl
  have block : SameBlock { scratch head with persistentCapacity := capacity } (runtime.device.arena .main) :=
    ⟨same.basePtr, same.capacity, same.line⟩
  have size : (scratch head).capacity = (runtime.device.arena .main).capacity := same.capacity
  have grown := requestAll_grows (spacious.lined.of_same block) (by dsimp only; rw [size]; exact offset)
    (fun bytes member => by dsimp only; rw [size]; exact spacious.small count few bytes member) requests
  refine grown.2.2 ?_
  simp only [chunkBytes, List.head?_cons, Option.getD_some]
  omega

/-- Exactly the calls with one round at most reclaim what a round has taken. -/
theorem reclaimed_iff (word : runtime.device.kv.maxSeqLen < 2 ^ 63)
    (within : runtime.device.kv.currentSeqLen ≤ runtime.device.kv.maxSeqLen) :
    (SingleRound E T P prompt g callback runtime → Reclaimed E T P prompt g callback runtime) ∧
      (Sure P → Spacious T g runtime → Reclaimed E T P prompt g callback runtime →
        SingleRound E T P prompt g callback runtime) := by
  refine ⟨reclaimed_of_single word within, fun sure spacious reclaimed start first next begun step => ?_⟩
  have grown := round_grows word within sure spacious begun.reached begun.round step
  by_contra again
  have more : unfinished (request E g callback) first = true := by
    have round := begun.round
    simp only [beginsRound, Bool.and_eq_true, decide_eq_true_eq] at round
    rw [unfinished, decide_eq_true_iff]
    omega
  have kept := reclaimed start first next begun (.again .first more trivial step)
    (Bool.not_eq_false _ ▸ again)
  omega

end Runs

section Example

open PersistentBuffer CacheContent

def surePlatform : Platform Unit Unit where
  allocate := DeviceArena.allocate
  persistentBuffer := fun arena _ => .ok arena
  fault := fun _ => none

def steadyStart (g : GenerationConfig) : Session Unit Unit Unit :=
  finalState (prepare draftingEngine steadyMachine.backend surePlatform (ascii "a") g none (enter loadedRuntime))

def steadyNext (g : GenerationConfig) : Session Unit Unit Unit :=
  finalState (decodeIteration steadyMachine.backend surePlatform (request draftingEngine g none) (steadyStart g))

/-- The call begins with a round, and goes on after it. -/
theorem steady_round {g : GenerationConfig} (begun : answer (prepare draftingEngine steadyMachine.backend surePlatform
      (ascii "a") g none (enter loadedRuntime)) = some none)
    (round : beginsRound (request draftingEngine g none) (steadyStart g) = true)
    (again : answer (decodeIteration steadyMachine.backend surePlatform (request draftingEngine g none)
      (steadyStart g)) = some .again) :
    FirstRound draftingEngine steadyMachine surePlatform (ascii "a") g none loadedRuntime (steadyStart g) (steadyStart g) ∧
      decodeIteration steadyMachine.backend surePlatform (request draftingEngine g none) (steadyStart g) =
        .ok .again (steadyNext g) :=
  ⟨⟨eq_ok_of_answer begun, .first, round⟩, eq_ok_of_answer again⟩

/-- Six tokens leave the budget for two rounds of one draft, and the second begins where the first has ended. -/
theorem steady_not_reclaimed :
    ((scratch (steadyStart (oneDraft 6))).offset, (scratch (steadyNext (oneDraft 6))).offset) = (184704, 369408) ∧
      ¬ Reclaimed draftingEngine steadyMachine surePlatform (ascii "a") (oneDraft 6) none loadedRuntime := by
  have offsets : ((scratch (steadyStart (oneDraft 6))).offset, (scratch (steadyNext (oneDraft 6))).offset) =
      (184704, 369408) := by decide +kernel
  refine ⟨offsets, fun reclaimed => ?_⟩
  obtain ⟨first, again⟩ := steady_round (g := oneDraft 6) (by decide +kernel) (by decide +kernel) (by decide +kernel)
  have kept := reclaimed _ _ _ first (.again .first (by decide +kernel) trivial again) (by decide +kernel)
  obtain ⟨before, after⟩ := Prod.ext_iff.mp offsets
  dsimp only at before after
  omega

/-- An arena in which the verification of one round fits. -/
def tightRuntime : Runtime Unit Unit Unit :=
  { loadedRuntime with device := { loadedRuntime.device with arena := fun _ => DeviceArena.create 64 400000 } }

/-- In it a call of one round succeeds, and a call of two fails. -/
theorem tight_runs_out : [oneDraft 4, oneDraft 6].map (fun g =>
      (generate draftingEngine steadyMachine.backend surePlatform (ascii "a") g none tightRuntime).1.toOption.map
        fun r => (r.success, r.tokenIds, r.errorCode)) =
    [some (true, [1, 1, 1, 1], []), some (false, [1, 1, 1], ascii "bad_alloc")] := by
  decide +kernel

theorem steady_reclaimed :
    Reclaimed draftingEngine steadyMachine surePlatform (ascii "a") (oneDraft 4) none loadedRuntime := by
  refine (reclaimed_iff (by decide) (by decide)).1 ?_
  intro start first next begun step
  obtain ⟨here, again⟩ := steady_round (g := oneDraft 4) (by decide +kernel) (by decide +kernel) (by decide +kernel)
  rw [(begun.unique here).2, again] at step
  rw [← (EStateM.Result.ok.inj step).2]
  decide +kernel

end Example

end XInfer.VerifyScratch
