import XInfer.SessionFrames
import XInfer.SessionTwins
import XInfer.PersistentBuffer
import XInfer.ChunkedPrefill

/-!
Requests on one engine. Whatever the calls before it have left, a call with speculation off
answers as it does on an engine that has just been loaded. Calls leave the block of each arena
and the size of the cache alone, a persistent buffer that holds one row, and a memo table that
answers as merging does; the rest of what they leave is never read.
-/

namespace XInfer.Isolation

open Primitives StateException WhileLoop Device DeviceRules Forward Generation CallRules LoopRules Tokenizer
  TwinRules SessionFrames SessionTwins PersistentBuffer Kernels

variable {KV Rec Logits : Type}

/-! The memo table: only the encoding of the prompt touches it. -/

section Cache

variable {E : Engine} {B : Backend KV Rec Logits} {P : Platform KV Rec} {R : Request}

def memo (s : Session KV Rec Logits) : BpeCache := s.bpeCache

theorem frame_onDevice {α : Type} (program : DeviceM KV Rec Logits α) : Frame memo (onDevice program) :=
  frame_within _ _ fun _ _ => rfl

theorem memo_outside : Outside (memo : Session KV Rec Logits → BpeCache) where
  routing := fun _ _ => rfl
  calls := fun _ _ => rfl
  finish := fun _ _ => rfl
  current := fun _ _ => rfl

theorem frame_decodeSingle : Frame memo (decodeSingle B P R) := by
  unfold decodeSingle
  apply frame_bind (frame_read _)
  intro _
  apply frame_bind (frame_onDevice _)
  intro _
  apply frame_ite (frame_leaves memo_outside _)
  apply frame_bind (frame_emit memo_outside _)
  intro control
  cases control with
  | leave => exact frame_pure _
  | again => exact frame_current memo_outside _

theorem frame_verifyDrafts (drafts : List Int) (prefixLen : Nat) :
    Frame memo (verifyDrafts B P R drafts prefixLen) := by
  unfold verifyDrafts
  apply frame_bind (frame_onDevice _)
  intro _
  apply frame_bind (frame_onDevice _)
  intro _
  apply frame_bind (frame_onDevice _)
  intro _
  apply frame_bind (frame_read _)
  intro _
  apply frame_bind (frame_raise _)
  exact fun _ => frame_ite
    (frame_settleRejected memo_outside (frame_onDevice _) (fun _ => frame_onDevice _) _ _)
    (frame_settleAccepted memo_outside (frame_onDevice _) _)

theorem frame_speculativeRound (remaining : Nat) : Frame memo (speculativeRound B P R remaining) := by
  unfold speculativeRound
  apply frame_bind (frame_read _)
  intro _
  apply frame_bind (frame_onDevice _)
  intro _
  apply frame_bind (frame_read _)
  intro _
  apply frame_bind (frame_onDevice _)
  exact fun _ => frame_ite (frame_verifyDrafts _ _) frame_decodeSingle

theorem frame_decodeIteration : Frame memo (decodeIteration B P R) := by
  unfold decodeIteration
  apply frame_bind (frame_read _)
  intro _
  apply frame_ite
  · exact frame_bind (frame_onDevice _) fun _ => frame_leaves memo_outside _
  · apply frame_bind (frame_read _)
    intro _
    apply frame_ite _ frame_decodeSingle
    exact frame_bind (frame_read _) fun _ => frame_speculativeRound _

theorem frame_decodeLoop : Frame memo (decodeLoop B P R) := frame_while frame_decodeIteration _

theorem frame_admitFirst (first : Int) :
    Frame memo (admitFirst R first : SessionM KV Rec Logits (Option GenerationResult)) := by
  unfold admitFirst
  apply frame_ite (frame_read _)
  apply frame_ite
  · exact frame_bind (frame_setFinish memo_outside _) fun _ => frame_read _
  · refine frame_bind (frame_modify fun _ => rfl) fun _ => ?_
    apply frame_bind (frame_processToken memo_outside _)
    intro _
    apply frame_ite
    · exact frame_bind (frame_setFinish memo_outside _) fun _ => frame_pure _
    · exact frame_bind (frame_modify fun _ => rfl) fun _ => frame_read _

-- After the encoding no part of a call writes the table.
theorem frame_prepareTokens (g : GenerationConfig) (callback : Option TokenCallback) (tokenSeq : List Int) :
    Frame memo (prepareTokens E B P g callback tokenSeq) := by
  unfold prepareTokens
  apply frame_ite (frame_read _)
  refine frame_bind (frame_modify fun _ => rfl) fun _ => ?_
  apply frame_bind (frame_read _)
  intro kv
  cases validateTokens kv.maxSeqLen tokenSeq.length g.maxNewTokens with
  | some message => exact frame_read _
  | none =>
      apply frame_bind (frame_onDevice _)
      exact fun _ => frame_ite (frame_read _) (frame_admitFirst _)

/-- The table answers as merging does. -/
def Transparent (E : Engine) (s : Session KV Rec Logits) : Prop := CacheConsistent E.tokenizer s.bpeCache

theorem transparent_of_frame {α : Type} {program : SessionM KV Rec Logits α} (frame : Frame memo program) :
    Triple (Transparent E) program (fun _ => Transparent E) fun _ => Transparent E := by
  apply triple_frame frame
  · intro before after same start
    have equal : after.bpeCache = before.bpeCache := same
    rwa [Transparent, equal]
  · exact fun _ _ start => start

theorem encodePrompt_transparent (text : Bytes) :
    Triple (Transparent E) (encodePrompt E text : SessionM KV Rec Logits (List Int)) (fun _ => Transparent E)
      fun _ => Transparent E := by
  intro s start
  have kept := (encode_consistent text start start).2.1
  unfold encodePrompt
  dsimp only
  cases (encode E.tokenizer text s.bpeCache).1 with
  | ok tokens => exact kept
  | error thrown => exact kept

theorem generateSession_transparent (prompt : Bytes) (g : GenerationConfig) (callback : Option TokenCallback) :
    Triple (Transparent E) (generateSession E B P prompt g callback) (fun _ => Transparent E)
      fun _ => Transparent E := by
  have prepared : Triple (Transparent E) (prepare E B P prompt g callback) (fun _ => Transparent E)
      fun _ => Transparent E := by
    unfold prepare
    cases refuseOptions E g with
    | some refusal => exact transparent_of_frame (frame_read _)
    | none =>
        apply triple_bind (encodePrompt_transparent _)
        exact fun tokenSeq => transparent_of_frame (frame_prepareTokens g callback tokenSeq)
  have body : Triple (Transparent E) (generateBody E B P prompt g callback) (fun _ => Transparent E)
      fun _ => Transparent E := by
    apply triple_bind prepared
    intro answer
    cases answer with
    | some early => exact transparent_of_frame (frame_pure _)
    | none =>
        apply transparent_of_frame
        exact frame_bind frame_decodeLoop fun _ => frame_read _
  apply triple_guarded body
  intro thrown
  apply transparent_of_frame
  exact frame_bind (frame_onDevice _) fun _ => frame_read _

theorem generate_transparent (prompt : Bytes) (g : GenerationConfig) (callback : Option TokenCallback)
    {runtime : Runtime KV Rec Logits} (kept : CacheConsistent E.tokenizer runtime.bpeCache) :
    CacheConsistent E.tokenizer (generate E B P prompt g callback runtime).2.bpeCache := by
  have run := @generateSession_transparent KV Rec Logits E B P prompt g callback (enter runtime) kept
  unfold generate
  cases done : generateSession E B P prompt g callback (enter runtime) <;> rw [done] at run <;> exact run

end Cache

section Blocks

variable {rowBytes : Nat}

/-- The arena over `block`, wherever its offsets stand; its buffer, once there, holds one row. -/
structure Over (rowBytes : Nat) (block arena : DeviceArena) : Prop where
  basePtr : arena.basePtr = block.basePtr
  capacity : arena.capacity = block.capacity
  alignment : arena.defaultAlignment = block.defaultAlignment
  holds : ∀ capacity, arena.persistentCapacity = some capacity → rowBytes ≤ capacity

variable {block arena after : DeviceArena}

theorem Over.reset (lies : Over rowBytes block arena) : Over rowBytes block arena.reset :=
  ⟨lies.basePtr, lies.capacity, lies.alignment, lies.holds⟩

theorem Over.allocate (lies : Over rowBytes block arena) {bytes : Nat}
    (done : arena.allocate bytes = .ok after) : Over rowBytes block after := by
  rw [DeviceArena.allocate_moves done]
  exact ⟨lies.basePtr, lies.capacity, lies.alignment, lies.holds⟩

/-- The first request sizes the buffer, and asks for a row at least. -/
theorem Over.buffer (lies : Over rowBytes block arena) {available : Bool} {rows : Nat} (asked : 0 < rows)
    (done : arena.persistentBuffer available (rows * rowBytes) = .ok after) : Over rowBytes block after := by
  rcases DeviceArena.persistentBuffer_capacity done with rfl | ⟨_, rfl⟩
  · exact lies
  · refine ⟨lies.basePtr, lies.capacity, lies.alignment, ?_⟩
    rintro _ ⟨⟩
    exact Nat.le_mul_of_pos_left rowBytes asked

theorem Over.alike {other : DeviceArena} (left : Over rowBytes block arena) (right : Over rowBytes block other) :
    Alike rowBytes arena other :=
  ⟨left.basePtr.trans right.basePtr.symm, left.capacity.trans right.capacity.symm,
    left.alignment.trans right.alignment.symm, left.holds, right.holds⟩

theorem over_reset (block : Owner → DeviceArena) (owner : Owner) (arena : DeviceArena)
    (lies : Over rowBytes (block owner) arena) : Over rowBytes (block owner) arena.reset := lies.reset

theorem one_row : 0 < 1 := Nat.one_pos

theorem nothing_served (available : Bool) (fault : Nat → Option (Fault KV Rec)) (serving : False) (submission : Nat) :
    (Platform.real available fault).fault submission = none := serving.elim

/-- What is assumed of calls on given blocks: nothing of the driver, one row a request. -/
def keeping (block : Owner → DeviceArena) (available : Bool) (fault : Nat → Option (Fault KV Rec))
    {maxSeqLen : Nat} (rowBytes : Nat) (word : maxSeqLen < 2 ^ 63) :
    Setting (Platform.real available fault) maxSeqLen rowBytes where
  good := fun _ => True
  sized := fun owner => Over rowBytes (block owner)
  requests := fun rows => 0 < rows
  serving := False
  word := word_of_half word
  forward := fun _ _ _ => trivial
  length := fun _ _ => trivial
  single := one_row
  request := fun _ _ _ _ _ => trivial
  reset_sized := over_reset block
  allocate_sized := fun _ _ _ _ lies done => lies.allocate done
  buffer_sized := fun _ _ _ _ asked lies done => lies.buffer asked done
  serves_allocate := fun serving => serving.elim
  serves_buffer := fun serving => serving.elim
  serves_submit := nothing_served available fault

end Blocks

section Histories

variable (E : Engine) (T : Machine KV Rec Logits)

/-- Engines after any number of calls, with speculation or without it, however each has ended. -/
inductive History (B : Backend KV Rec Logits) (start : Runtime KV Rec Logits) :
    Runtime KV Rec Logits → Prop where
  | loaded : History B start start
  | call {runtime : Runtime KV Rec Logits} (call : Call KV Rec) : History B start runtime →
      History B start (generate E B (Platform.real call.available call.fault) call.prompt call.options
        call.callback runtime).2

/-- An engine that no call has been made on. Its cache and its blocks are in memory; what they hold
is not known. -/
structure FreshlyLoaded (maxSeqLen : Nat) (base capacity : Owner → Nat) (runtime : Runtime KV Rec Logits) :
    Prop where
  size : runtime.device.kv.maxSeqLen = maxSeqLen
  word : maxSeqLen < 2 ^ 63
  empty : runtime.device.kv.currentSeqLen = 0
  arenas : ∀ owner, runtime.device.arena owner = DeviceArena.create (base owner) (capacity owner)
  memo : runtime.bpeCache = []

/-- What every call finds and leaves. -/
structure Settled (maxSeqLen : Nat) (block : Owner → DeviceArena) (runtime : Runtime KV Rec Logits) :
    Prop where
  cache : Fits maxSeqLen runtime.device.kv
  arenas : ∀ owner, Over T.config.logitsBytes (block owner) (runtime.device.arena owner)
  memo : CacheConsistent E.tokenizer runtime.bpeCache

variable {E T} {maxSeqLen : Nat} {base capacity : Owner → Nat} {start runtime : Runtime KV Rec Logits}

theorem FreshlyLoaded.settled (loaded : FreshlyLoaded maxSeqLen base capacity runtime) :
    Settled E T maxSeqLen (fun owner => DeviceArena.create (base owner) (capacity owner)) runtime where
  cache := ⟨loaded.size, by rw [loaded.empty]; exact Nat.zero_le _⟩
  arenas := by
    intro owner
    rw [loaded.arenas owner]
    exact ⟨rfl, rfl, rfl, fun _ present => by cases present⟩
  memo := by
    rw [loaded.memo]
    exact consistent_nil E.tokenizer

/-- A round verifies one draft at least. -/
theorem asks_pos {g : GenerationConfig} {callback : Option TokenCallback} {promptLen count : Nat}
    (asks : Asks (request E g callback) promptLen maxSeqLen count) : 0 < count := by
  obtain ⟨_, len, _, window, _, rfl⟩ := asks
  have drafts := request_draftN_pos E g callback
  omega

theorem call_settled {block : Owner → DeviceArena} (word : maxSeqLen < 2 ^ 63)
    (settled : Settled E T maxSeqLen block runtime) (call : Call KV Rec) :
    Settled E T maxSeqLen block (generate E T.backend (Platform.real call.available call.fault) call.prompt
      call.options call.callback runtime).2 := by
  -- A round asks for a row for each draft, so the first request is one row or more.
  have permits (tokenSeq : List Int) (_ : encoded E call.options call.prompt runtime.bpeCache = .ok tokenSeq) :
      Permits T E call.options call.callback
        (keeping block call.available call.fault T.config.logitsBytes word) tokenSeq.length :=
    fun _ asks => asks_pos asks
  have sound := And.left (generate_rule T E call.options call.callback call.prompt word runtime settled.cache
    settled.arenas permits)
  exact ⟨sound.cache, sound.arenas, generate_transparent call.prompt call.options call.callback settled.memo⟩

theorem history_settled {block : Owner → DeviceArena} (word : maxSeqLen < 2 ^ 63)
    (settled : Settled E T maxSeqLen block start) (history : History E T.backend start runtime) :
    Settled E T maxSeqLen block runtime := by
  induction history with
  | loaded => exact settled
  | call call _ ih => exact call_settled word ih call

/-- Two engines over the same blocks begin a call beside each other. -/
theorem Settled.beside {block : Owner → DeviceArena} {other : Runtime KV Rec Logits}
    (left : Settled E T maxSeqLen block runtime) (right : Settled E T maxSeqLen block other) :
    Beside maxSeqLen T.config.logitsBytes (enter runtime).device (enter other).device :=
  ⟨left.cache.size, right.cache.size, rfl, fun owner => (left.arenas owner).alike (right.arenas owner)⟩

theorem settled_generate {block : Owner → DeviceArena} {other : Runtime KV Rec Logits}
    (word : maxSeqLen < 2 ^ 63) (left : Settled E T maxSeqLen block runtime)
    (right : Settled E T maxSeqLen block other) (prompt : Bytes) {g : GenerationConfig}
    {callback : Option TokenCallback} (off : (request E g callback).useSpeculative = false)
    (fault : Nat → Option (Fault KV Rec)) :
    (generate E T.backend (driver fault) prompt g callback runtime).1 =
      (generate E T.backend (driver fault) prompt g callback other).1 := by
  have visible := T.logitsBytes_pos (runtime.device.logits .caller 0)
  exact generate_twin E T g callback prompt (word_of_half word) visible off (left.beside right) left.memo
    right.memo

end Histories

section Network

open Layer

variable {Hidden Slot Acc Raw Conv State : Type} [Zero Slot] [Zero Raw] [Zero State]

/-- Whatever calls an engine has served, it answers the next one as it does just after loading,
whatever its memory then holds. -/
theorem generate_isolated (E : Engine) (N : Network Hidden Slot Acc Raw Conv State Logits) {maxSeqLen : Nat}
    {base capacity : Owner → Nat}
    {start runtime fresh : Runtime (Fin (numFull N.layers) → Slot) (Fin (numLinear N.layers) → LinearState Raw State) Logits}
    (loaded : FreshlyLoaded maxSeqLen base capacity start) (history : History E N.backend start runtime)
    (reloaded : FreshlyLoaded maxSeqLen base capacity fresh) (prompt : Bytes) (g : GenerationConfig)
    (callback : Option TokenCallback) (off : (request E g callback).useSpeculative = false)
    (fault : Nat → Option (Fault (Fin (numFull N.layers) → Slot) (Fin (numLinear N.layers) → LinearState Raw State))) :
    (generate E N.backend (Platform.real true fault) prompt g callback runtime).1 =
      (generate E N.backend (Platform.real true fault) prompt g callback fresh).1 := by
  -- The host code takes the network as the machine that its layers make up.
  rw [← N.machine_backend] at history ⊢
  have left := history_settled loaded.word loaded.settled history
  exact settled_generate loaded.word left reloaded.settled prompt off fault

end Network

section Example

open ChunkedPrefill

def freshRuntime (content : Int) : Runtime (Fin 1 → Int) (Fin 1 → LinearState Int Int) Int where
  device := {
    kv := { maxSeqLen := 8, currentSeqLen := 0,
            memory := { slots := fun _ _ => content, recurrent := fun _ => ⟨⟨content, 0, 0⟩, 0⟩ },
            checkpoint := fun _ => ⟨⟨0, 0, 0⟩, content⟩, hasRecurrentCheckpoint := false }
    arena := fun _ => DeviceArena.create 64 268435456
    logits := fun _ _ => content
    submissions := 0
    events := [] }
  bpeCache := []

theorem freshRuntime_loaded (content : Int) :
    FreshlyLoaded 8 (fun _ => 64) (fun _ => 268435456) (freshRuntime content) :=
  ⟨rfl, by decide, rfl, fun _ => rfl, rfl⟩

def plainOptions : GenerationConfig := { draftingCall.options with draftTokensNum := 0 }

/-- A call whose queue throws in the second step after the prefill, and spoils every slot. -/
def brokenCall : Call (Fin 1 → Int) (Fin 1 → LinearState Int Int) where
  prompt := ascii "a"
  options := plainOptions
  callback := none
  available := true
  fault := fun submission => if submission = 13 then
    some ⟨.unknown, fun memory checkpoint => ({ memory with slots := fun _ _ => 7 }, checkpoint)⟩ else none

def afterBrokenCall : Runtime (Fin 1 → Int) (Fin 1 → LinearState Int Int) Int :=
  (generate draftingEngine twoLayers.backend (Platform.real brokenCall.available brokenCall.fault)
    brokenCall.prompt brokenCall.options brokenCall.callback (freshRuntime 3)).2

/-- After it the engine answers as one that has been loaded over other content. -/
theorem generate_isolated_broken :
    (generate draftingEngine twoLayers.backend (Platform.real true fun _ => none) (ascii "a") plainOptions none
        afterBrokenCall).1 =
      (generate draftingEngine twoLayers.backend (Platform.real true fun _ => none) (ascii "a") plainOptions none
        (freshRuntime 5)).1 ∧
    (generate draftingEngine twoLayers.backend (Platform.real true fun _ => none) (ascii "a") plainOptions none
        afterBrokenCall).1.toOption.map (fun r => r.tokenIds) = some [2, 15, 84, 460] := by
  constructor
  · exact generate_isolated draftingEngine twoLayers (freshRuntime_loaded 3) (.call brokenCall .loaded)
      (freshRuntime_loaded 5) (ascii "a") plainOptions none (by decide) fun _ => none
  · decide +kernel

end Example

end XInfer.Isolation
