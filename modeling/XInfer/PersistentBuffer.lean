import XInfer.CallRules

/-!
Requests for the persistent buffer over a history of calls on one engine. Prefill and
the single step ask for one row of logits, and so size the buffer; verification asks
for a row for each draft. The arena is the sources' own, whatever else fails.
-/

namespace XInfer.PersistentBuffer

open Primitives StateException Device DeviceRules Generation CallRules LoopRules Tokenizer

variable {KV Rec Logits : Type}

/-- A request is no larger than the buffer it is made on. -/
def Within : Event → Prop
  | .persistentBuffer _ bytes capacity => bytes ≤ capacity
  | _ => True

instance : DecidablePred Within := fun event => by
  cases event <;> unfold Within <;> infer_instance

/-- The buffer, once it exists, holds one row. -/
def OneRow (rowBytes : Nat) (arena : DeviceArena) : Prop :=
  arena.persistentCapacity = none ∨ arena.persistentCapacity = some rowBytes

theorem oneRow_keeps {rowBytes : Nat} {arena after : DeviceArena}
    (same : after.persistentCapacity = arena.persistentCapacity) (sized : OneRow rowBytes arena) :
    OneRow rowBytes after := by
  rwa [OneRow, same]

theorem oneRow_reset (rowBytes : Nat) (_owner : Owner) (arena : DeviceArena) (kept : OneRow rowBytes arena) :
    OneRow rowBytes arena.reset :=
  oneRow_keeps arena.reset_persistentCapacity kept

theorem oneRow_requested : (fun rows : Nat => rows = 1) 1 := rfl

/-- What is assumed of calls whose rounds verify one row each. -/
def setting (available : Bool) (fault : Nat → Option (Fault KV Rec)) {maxSeqLen : Nat}
    (rowBytes : Nat) (word : maxSeqLen < 2 ^ 63) :
    Setting (Platform.real available fault) maxSeqLen rowBytes where
  good := Within
  sized := fun _ => OneRow rowBytes
  requests := fun rows => rows = 1
  serving := False
  word := word_of_half word
  forward := fun _ _ _ => trivial
  length := fun _ _ => trivial
  single := oneRow_requested
  request := by
    rintro owner arena rows rfl sized
    rcases sized with none | some
    · simp [Within, none]
    · simp [Within, some]
  reset_sized := oneRow_reset rowBytes
  allocate_sized := fun _ arena after bytes sized done =>
    oneRow_keeps (DeviceArena.allocate_persistentCapacity done) sized
  buffer_sized := by
    rintro _ arena after rows rfl sized done
    rcases DeviceArena.persistentBuffer_capacity done with rfl | ⟨_, rfl⟩
    · exact sized
    · exact Or.inr (by rw [Nat.one_mul])
  serves_allocate := fun serving => serving.elim
  serves_buffer := fun serving => serving.elim
  serves_submit := fun serving => serving.elim

/-- One call, and what the device below it does meanwhile. -/
structure Call (KV Rec : Type) where
  prompt : Bytes
  options : GenerationConfig
  callback : Option TokenCallback
  available : Bool
  fault : Nat → Option (Fault KV Rec)

variable (E : Engine) (T : Machine KV Rec Logits)

def Call.run (call : Call KV Rec) (runtime : Runtime KV Rec Logits) : Runtime KV Rec Logits :=
  (generate E T.backend (Platform.real call.available call.fault) call.prompt call.options
    call.callback runtime).2

/-- Every round that the call can begin verifies a single draft. -/
def SingleDrafts (prompt : Bytes) (g : GenerationConfig) (callback : Option TokenCallback)
    (runtime : Runtime KV Rec Logits) : Prop :=
  ∀ tokenSeq, encoded E g prompt runtime.bpeCache = .ok tokenSeq →
    ∀ count, Asks (request E g callback) tokenSeq.length runtime.device.kv.maxSeqLen count → count = 1

def Call.SingleDrafts (call : Call KV Rec) (runtime : Runtime KV Rec Logits) : Prop :=
  PersistentBuffer.SingleDrafts E call.prompt call.options call.callback runtime

/-- Engines after any number of calls. -/
inductive History (start : Runtime KV Rec Logits) : Runtime KV Rec Logits → Prop where
  | loaded : History start start
  | call {runtime : Runtime KV Rec Logits} (call : Call KV Rec) : History start runtime →
      call.SingleDrafts E runtime → History start (call.run E T runtime)

/-- An engine that no call has been made on. -/
structure Loaded (runtime : Runtime KV Rec Logits) : Prop where
  arenas : ∀ owner, (runtime.device.arena owner).persistentCapacity = none
  within : runtime.device.kv.currentSeqLen ≤ runtime.device.kv.maxSeqLen
  word : runtime.device.kv.maxSeqLen < 2 ^ 63

/-- What every call finds and leaves. -/
structure Sized (maxSeqLen : Nat) (runtime : Runtime KV Rec Logits) : Prop where
  cache : Fits maxSeqLen runtime.device.kv
  arenas : ∀ owner, OneRow T.config.logitsBytes (runtime.device.arena owner)

variable {E T}

theorem call_sized {maxSeqLen : Nat} (word : maxSeqLen < 2 ^ 63) {call : Call KV Rec}
    {runtime : Runtime KV Rec Logits} (sized : Sized T maxSeqLen runtime)
    (single : call.SingleDrafts E runtime) :
    Sized T maxSeqLen (call.run E T runtime) ∧
      ∀ event ∈ (call.run E T runtime).device.events, Within event := by
  have permits : ∀ tokenSeq, encoded E call.options call.prompt runtime.bpeCache = .ok tokenSeq →
      Permits T E call.options call.callback
        (setting call.available call.fault T.config.logitsBytes word) tokenSeq.length := by
    intro tokenSeq tokens count asks
    rw [← sized.cache.size] at asks
    exact single tokenSeq tokens count asks
  have sound := And.left (generate_rule T E call.options call.callback call.prompt word runtime
    sized.cache sized.arenas permits)
  exact ⟨⟨sound.cache, sound.arenas⟩, sound.events⟩

theorem history_sized {start runtime : Runtime KV Rec Logits} (loaded : Loaded start)
    (history : History E T start runtime) : Sized T start.device.kv.maxSeqLen runtime := by
  induction history with
  | loaded => exact ⟨⟨rfl, loaded.within⟩, fun owner => Or.inl (loaded.arenas owner)⟩
  | call call _ single ih => exact (call_sized loaded.word ih single).1

/-- Rounds of one draft, whatever the window. -/
theorem singleDrafts_of_draftN {prompt : Bytes} {g : GenerationConfig}
    {callback : Option TokenCallback} (runtime : Runtime KV Rec Logits)
    (one : (request E g callback).draftN = 1) : SingleDrafts E prompt g callback runtime := by
  rintro tokenSeq _ count ⟨_, len, _, window, _, rfl⟩
  rw [one]
  omega

/-- Over any history of calls whose rounds verify one draft each, no request exceeds
the buffer. -/
theorem requests_within {start runtime : Runtime KV Rec Logits} (loaded : Loaded start)
    (history : History E T start runtime) (call : Call KV Rec)
    (single : call.SingleDrafts E runtime) :
    ∀ event ∈ (call.run E T runtime).device.events, Within event :=
  (call_sized loaded.word (history_sized loaded history) single).2

section Overrun

/-- A tokenizer that reads and writes one letter. -/
def letterTokenizer : QwenTokenizer where
  vocab := [(ascii "a", 1)]
  idToToken := [(1, ascii "a")]
  bpeRanks := []
  specialTokens := [(ascii "a", 1)]
  eosTokenId := 248044
  imEndTokenId := 248046
  thinkStartTokenId := 248068
  thinkEndTokenId := 248069
  chatTemplate := ChatTemplate.initDefaults
  split := fun _ => []

/-- An engine with a draft context. -/
def draftingEngine : Engine where
  isLoaded := true
  config := {}
  tokenizer := letterTokenizer
  graphCaptured := false
  draftInitialized := true
  draftGraphCaptured := false

/-- A machine that always chooses the letter. -/
def steadyMachine : Machine Unit Unit Unit where
  config := ModelConfig.defaults
  cleared := ()
  zeroLinear := fun _ => ()
  zeroLinear_cleared := rfl
  step := fun _ _ _ _ _ => ((), (), ())
  step_local := fun _ _ _ _ _ _ _ => rfl
  argmax := fun _ => 1
  argmax_inVocab := fun _ => by decide

def loadedRuntime : Runtime Unit Unit Unit where
  device := {
    kv := { maxSeqLen := 8192, currentSeqLen := 0, memory := { slots := fun _ => (), recurrent := () },
            checkpoint := (), hasRecurrentCheckpoint := false }
    arena := fun _ => DeviceArena.create 64 268435456
    logits := fun _ _ => ()
    submissions := 0
    events := [] }
  bpeCache := []

/-- Four tokens after the letter, two drafts a round. -/
def draftingCall : Call Unit Unit where
  prompt := ascii "a"
  options := { maxNewTokens := 4, draftTokensNum := 2, applyChatTemplate := false }
  callback := none
  available := true
  fault := fun _ => none

def oneDraftCall : Call Unit Unit :=
  { draftingCall with options := { maxNewTokens := 4, draftTokensNum := 1, applyChatTemplate := false } }

theorem loadedRuntime_loaded : Loaded loadedRuntime :=
  ⟨fun _ => rfl, by decide, by decide⟩

/-- The first verification asks for two rows of a buffer that holds one. -/
theorem draftingCall_overruns :
    ∃ event ∈ (draftingCall.run draftingEngine steadyMachine loadedRuntime).device.events,
      ¬ Within event := by
  decide +kernel

/-- Of two calls with one draft a round, the second leaves a record of sound requests. -/
theorem oneDraftCalls_within :
    (oneDraftCall.run draftingEngine steadyMachine
      (oneDraftCall.run draftingEngine steadyMachine loadedRuntime)).device.events ≠ [] ∧
    ∀ event ∈ (oneDraftCall.run draftingEngine steadyMachine
      (oneDraftCall.run draftingEngine steadyMachine loadedRuntime)).device.events, Within event := by
  refine ⟨by decide +kernel, ?_⟩
  exact requests_within loadedRuntime_loaded
    (.call oneDraftCall .loaded (singleDrafts_of_draftN loadedRuntime rfl)) oneDraftCall
    (singleDrafts_of_draftN _ rfl)

end Overrun

end XInfer.PersistentBuffer
