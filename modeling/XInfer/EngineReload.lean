import XInfer.StateException
import XInfer.TokenizerLoad

/-!
`Engine::EngineImpl::load` over a sequence of calls. Every part the engine holds is
tagged with the call that made it, and a graph also with the model and the cache it was
built on. A stage succeeds, returns a failure or throws as the call says; the tokenizer
stage reads its tables with the loader of `tokenizer.cpp`. A thrown exception is caught
at the end of `load`, so it stops the call as a failure does.
-/

namespace XInfer.EngineReload

open Primitives TokenizerLoad StateException

/-- What the four catch blocks of `load` tell apart. -/
inductive Thrown where
  | sycl (what : Bytes)
  | badAlloc
  | standard (what : Bytes)
  | unknown

def caught : Thrown → Bytes
  | .sycl what => ascii "SYCL exception during model load: " ++ what
  | .badAlloc => ascii "Memory allocation failed (std::bad_alloc / OOM) during model load"
  | .standard what => ascii "Exception during model load: " ++ what
  | .unknown => ascii "Unknown exception during model load"

inductive Outcome where
  | succeeds
  | fails (err : Bytes)
  | throws (thrown : Thrown)

/-- A section of the artifact and its load into the tokenizer. An interrupted load threw
after the tables were cleared and leaves them in some state. -/
inductive TokenizerSection where
  | absent
  | unreadable
  | throws (thrown : Thrown)
  | holds (data : Bytes)
  | interrupted (thrown : Thrown) (left : LoadedTokenizer)

/-- A chat template load. Nothing is read when there is no section, no file or no text. -/
inductive TemplateLoad where
  | untouched
  | loads
  | rejected
  | throws (thrown : Thrown) (cleared : Bool)

/-- The file at the tokenizer path with the `config.json` and the template beside it. -/
inductive TokenizerFile where
  | unopened (path : Bytes)
  | throws (thrown : Thrown)
  | holds (data : Bytes) (config : Outcome) (template : TemplateLoad)
  | interrupted (thrown : Thrown) (left : LoadedTokenizer)

structure EngineConfig where
  artifactPath : Bytes
  tokenizerPath : Bytes := []
  chatTemplatePath : Bytes := []
  validateChecksum : Bool := true
  enableSpeculative : Bool := false

/-- One call of `load`. An allocation throws or is made (`none`). -/
structure Call where
  config : EngineConfig
  device : Outcome
  artifact : Outcome
  checksum : Outcome
  tokenizerSection : TokenizerSection
  templateSection : TemplateLoad
  tokenizerFile : TokenizerFile
  templateFile : TemplateLoad
  model : Outcome
  arena : Option Thrown
  kvCache : Option Thrown
  allocate : Outcome
  graph : Option Thrown
  capture : Outcome
  draftArena : Option Thrown
  draftGraph : Option Thrown
  draftCapture : Outcome

/-- `tokenizer_`, which owns the chat template. -/
structure EngineTokenizer where
  tables : LoadedTokenizer
  tablesCall : Option Nat
  templateLoaded : Bool
  templateCall : Option Nat

structure KVCache where
  call : Nat
  allocated : Bool
  deriving DecidableEq

structure DecodeGraph where
  call : Nat
  model : Option Nat
  kvCache : Option Nat

structure DraftContext where
  arena : Option Nat
  decodeGraph : Option DecodeGraph
  isInitialized : Bool

/-- The parts built from the artifact's weights. -/
structure Parts where
  model : Option Nat
  arena : Option Nat
  kvCache : Option KVCache
  decodeGraph : Option DecodeGraph
  draftCtx : DraftContext

structure Engine where
  config : EngineConfig
  ctx : Option Nat
  tokenizer : EngineTokenizer
  parts : Parts
  loaded : Bool

/-- A stage goes on, or stops the call with its message. Either way what it has replaced
stays replaced. -/
abbrev Stage (State : Type) := EStateM Bytes State

/-- Replace something, then stop. -/
def leaving {State : Type} (change : State → State) (err : Bytes) : Stage State Unit := do
  modify change
  throw err

def createDevice (call : Nat) (c : Call) : Stage Engine Unit :=
  match c.device with
  | .succeeds => modify fun engine => { engine with ctx := some call }
  | .fails _ => leaving (fun engine => { engine with ctx := none })
      (ascii "Failed to initialize Intel GPU DeviceContext")
  | .throws thrown => throw (caught thrown)

def openArtifact (c : Call) : Stage Engine Unit :=
  match c.artifact with
  | .succeeds => pure ()
  | .fails err => throw err
  | .throws thrown => throw (caught thrown)

def validateChecksum (c : Call) : Stage Engine Unit :=
  if c.config.validateChecksum then
    match c.checksum with
    | .succeeds => pure ()
    | .fails err => throw (ascii "Artifact whole-file checksum validation failed: " ++ err)
    | .throws thrown => throw (caught thrown)
  else pure ()

/-- The tables after a buffer. An empty one leaves them as they were. -/
def refill (call : Nat) (data : Bytes) (tok : EngineTokenizer) : EngineTokenizer :=
  { tok with
    tables := (loadFromJsonBuffer data tok.tables).2
    tablesCall := if data = [] then tok.tablesCall else some call }

/-- The tables after a load that threw between its `clear` calls and its end. -/
def abandon (call : Nat) (left : LoadedTokenizer) (tok : EngineTokenizer) : EngineTokenizer :=
  { tok with tables := left, tablesCall := some call }

def setTemplate (call : Nat) (loaded : Bool) (tok : EngineTokenizer) : EngineTokenizer :=
  { tok with templateLoaded := loaded, templateCall := some call }

def loadTemplate (call : Nat) (template : TemplateLoad) : Stage EngineTokenizer Unit :=
  match template with
  | .untouched => pure ()
  | .loads => modify (setTemplate call true)
  | .rejected => modify (setTemplate call false)
  | .throws thrown true => leaving (setTemplate call false) (caught thrown)
  | .throws thrown false => throw (caught thrown)

/-- A section that does not load is only logged. -/
def embeddedTokenizer (call : Nat) (c : Call) : Stage EngineTokenizer Unit :=
  match c.tokenizerSection with
  | .absent | .unreadable => pure ()
  | .throws thrown => throw (caught thrown)
  | .holds data => modify (refill call data)
  | .interrupted thrown left => leaving (abandon call left) (caught thrown)

def fromPath (c : Call) (err : Bytes) : Bytes :=
  ascii "Failed to load tokenizer from specified path '" ++ c.config.tokenizerPath ++ ascii "': " ++ err

/-- The verdict of `load_from_json_buffer`, read before its tables are stored. -/
def verdict (data : Bytes) (tok : EngineTokenizer) : Except Bytes Unit :=
  (loadFromJsonBuffer data tok.tables).1

def loadFromFile (call : Nat) (c : Call) : Stage EngineTokenizer Unit :=
  match c.tokenizerFile with
  | .unopened path => throw (fromPath c (ascii "Could not open tokenizer file: " ++ path))
  | .throws thrown => throw (caught thrown)
  | .interrupted thrown left => leaving (abandon call left) (caught thrown)
  | .holds data config template => do
      let loads ← read (verdict data)
      modify (refill call data)
      match loads, config with
      | .error err, _ => throw (fromPath c err)
      | .ok _, .fails err => throw (fromPath c err)
      | .ok _, .throws thrown => throw (caught thrown)
      | .ok _, .succeeds => loadTemplate call template

def fallbackTokenizer (call : Nat) (c : Call) : Stage EngineTokenizer Unit := do
  let loaded ← read fun tok => decide (IsLoaded tok.tables)
  if loaded then pure ()
  else if c.config.tokenizerPath = [] then
    throw (ascii "No tokenizer embedded in artifact '" ++ c.config.artifactPath ++
      ascii "' and no external tokenizer path provided. Specify --tokenizer-path <path>.")
  else loadFromFile call c

def fallbackTemplate (call : Nat) (c : Call) : Stage EngineTokenizer Unit := do
  let loaded ← read EngineTokenizer.templateLoaded
  if loaded || c.config.chatTemplatePath.isEmpty then pure () else loadTemplate call c.templateFile

def checkSpecialTokens : Stage EngineTokenizer Unit := do
  let tables ← read EngineTokenizer.tables
  if tables.eosTokenId < 0 then
    throw (ascii "Loaded tokenizer missing valid EOS token ID (<|endoftext|>)")
  else if tables.imEndTokenId < 0 then
    throw (ascii "Loaded tokenizer missing valid IM_END token ID (<|im_end|>)")
  else pure ()

def loadTokenizer (call : Nat) (c : Call) : Stage EngineTokenizer Unit := do
  embeddedTokenizer call c
  loadTemplate call c.templateSection
  fallbackTokenizer call c
  fallbackTemplate call c
  checkSpecialTokens

/-- A failed load has already replaced the model by a null pointer. -/
def loadModel (call : Nat) (c : Call) : Stage Parts Unit :=
  match c.model with
  | .succeeds => modify fun parts => { parts with model := some call }
  | .fails err => leaving (fun parts => { parts with model := none }) err
  | .throws thrown => throw (caught thrown)

def makeArena (call : Nat) (c : Call) : Stage Parts Unit :=
  match c.arena with
  | none => modify fun parts => { parts with arena := some call }
  | some thrown => throw (caught thrown)

def setCache (call : Nat) (allocated : Bool) (parts : Parts) : Parts :=
  { parts with kvCache := some { call := call, allocated := allocated } }

def makeCache (call : Nat) (c : Call) : Stage Parts Unit :=
  match c.kvCache, c.allocate with
  | some thrown, _ => throw (caught thrown)
  | none, .succeeds => modify (setCache call true)
  | none, .fails _ => leaving (setCache call false) (ascii "Failed to allocate KV cache on Intel GPU")
  | none, .throws thrown => leaving (setCache call false) (caught thrown)

/-- A new graph refers to the model and the cache of the moment. -/
def newGraph (call : Nat) (parts : Parts) : DecodeGraph where
  call := call
  model := parts.model
  kvCache := parts.kvCache.map KVCache.call

def setGraph (call : Nat) (parts : Parts) : Parts :=
  { parts with decodeGraph := some (newGraph call parts) }

/-- A capture that returns false falls back to plain submission. -/
def captureGraph (call : Nat) (c : Call) : Stage Parts Unit :=
  match c.graph, c.capture with
  | some thrown, _ => throw (caught thrown)
  | none, .throws thrown => leaving (setGraph call) (caught thrown)
  | none, _ => modify (setGraph call)

def setDraftArena (call : Nat) (parts : Parts) : Parts :=
  { parts with draftCtx := { parts.draftCtx with arena := some call } }

def setDraftGraph (call : Nat) (parts : Parts) : Parts :=
  { parts with draftCtx := { parts.draftCtx with decodeGraph := some (newGraph call parts) } }

/-- `DraftContext::init`. -/
def initDraft (call : Nat) (c : Call) : Stage Parts Unit :=
  match c.draftArena, c.draftGraph, c.draftCapture with
  | some thrown, _, _ => throw (caught thrown)
  | none, some thrown, _ => leaving (setDraftArena call) (caught thrown)
  | none, none, .throws thrown => leaving (setDraftGraph call ∘ setDraftArena call) (caught thrown)
  | none, none, _ => do
      modify (setDraftGraph call ∘ setDraftArena call)
      modify fun parts => { parts with draftCtx := { parts.draftCtx with isInitialized := true } }

def buildParts (call : Nat) (c : Call) : Stage Parts Unit := do
  loadModel call c
  makeArena call c
  makeCache call c
  captureGraph call c
  if c.config.enableSpeculative then initDraft call c else pure ()

def load (call : Nat) (c : Call) : Stage Engine Unit := do
  modify fun engine => { engine with config := c.config }
  createDevice call c
  openArtifact c
  validateChecksum c
  within Engine.tokenizer (fun tok engine => { engine with tokenizer := tok }) (loadTokenizer call c)
  within Engine.parts (fun parts engine => { engine with parts := parts }) (buildParts call c)
  modify fun engine => { engine with loaded := true }

def isLoaded (engine : Engine) : Bool :=
  engine.loaded && engine.parts.model.isSome && engine.parts.kvCache.isSome

/-- `use_speculative` of `generate` for the draft length of its request. -/
def useSpeculative (engine : Engine) (draftTokensNum : Int) : Bool :=
  (engine.config.enableSpeculative || decide (0 < draftTokensNum)) &&
    (engine.parts.draftCtx.isInitialized || engine.parts.draftCtx.arena.isSome)

/-- The first check of `generate`. -/
def refusal (engine : Engine) : Option Bytes :=
  if isLoaded engine then none else some (ascii "model_not_loaded")

/-- The engine after some calls, with the last of them that returned true. -/
structure History where
  engine : Engine
  calls : Nat
  lastLoaded : Option Nat

/-- A call that throws or fails returns false over what it leaves. -/
def History.load (h : History) (c : Call) : History :=
  match EngineReload.load h.calls c h.engine with
  | .ok _ engine => { engine := engine, calls := h.calls + 1, lastLoaded := some h.calls }
  | .error _ engine => { h with engine := engine, calls := h.calls + 1 }

def fresh (split : List Nat → List (Nat × Nat)) : Engine where
  config := { artifactPath := [] }
  ctx := none
  tokenizer := { tables := unloaded split, tablesCall := none, templateLoaded := false, templateCall := none }
  parts := { model := none, arena := none, kvCache := none, decodeGraph := none,
             draftCtx := { arena := none, decodeGraph := none, isInitialized := false } }
  loaded := false

def start (split : List Nat → List (Nat × Nat)) : History where
  engine := fresh split
  calls := 0
  lastLoaded := none

def run (split : List Nat → List (Nat × Nat)) (calls : List Call) : History :=
  calls.foldl History.load (start split)

/-- Every part the engine would generate with is of one call. -/
structure FromCall (call : Nat) (engine : Engine) : Prop where
  tables : engine.tokenizer.tablesCall = some call
  template : engine.tokenizer.templateLoaded = true → engine.tokenizer.templateCall = some call
  model : engine.parts.model = some call
  arena : engine.parts.arena = some call
  kvCache : engine.parts.kvCache = some { call := call, allocated := true }
  decodeGraph : engine.parts.decodeGraph =
    some { call := call, model := some call, kvCache := some call }
  draft : ∀ draftTokensNum, useSpeculative engine draftTokensNum = true →
    engine.parts.draftCtx.arena = some call ∧ engine.parts.draftCtx.decodeGraph =
      some { call := call, model := some call, kvCache := some call }

/-- What `is_loaded` promises: one call that returned true made everything, the last such
call; otherwise `generate` refuses. -/
def AllOrNothing (h : History) : Prop :=
  (isLoaded h.engine = true → ∃ call, h.lastLoaded = some call ∧ FromCall call h.engine) ∧
    (refusal h.engine = some (ascii "model_not_loaded") ∨
      ∃ call, h.lastLoaded = some call ∧ FromCall call h.engine)

/-- The call stops before it replaces a part. -/
def StopsFirst (c : Call) : Prop :=
  c.device ≠ .succeeds ∨ c.artifact ≠ .succeeds ∨
    (c.config.validateChecksum = true ∧ c.checksum ≠ .succeeds)

/-- The section replaces the tables. -/
def TokenizerSection.Fills : TokenizerSection → Prop
  | .holds data => data ≠ []
  | .interrupted _ _ => True
  | _ => False

def TemplateLoad.Replaces : TemplateLoad → Prop
  | .loads | .rejected => True
  | .throws _ cleared => cleared = true
  | .untouched => False

/-- The tokenizer stage leaves what an earlier call filled. -/
def Leaves (c : Call) (tok : EngineTokenizer) : Prop :=
  ¬ c.tokenizerSection.Fills ∧ IsLoaded tok.tables ∧ ¬ c.templateSection.Replaces ∧
    (tok.templateLoaded = true ∨ c.config.chatTemplatePath = [] ∨ ¬ c.templateFile.Replaces)

/-- Nothing of an earlier call stays in use once this one is through: it fills the
tables, replaces the template and builds the draft context, or there is none yet. -/
def Renews (c : Call) (engine : Engine) : Prop :=
  (c.tokenizerSection.Fills ∨ ¬ IsLoaded engine.tokenizer.tables) ∧
    (c.templateSection.Replaces ∨ engine.tokenizer.templateLoaded = false) ∧
    (c.config.enableSpeculative = true ∨ (engine.parts.draftCtx.isInitialized = false ∧
      engine.parts.draftCtx.arena = none))

/-- The stages after the model go through. A graph capture may only not throw. -/
def Builds (c : Call) : Prop :=
  c.arena = none ∧ c.kvCache = none ∧ c.allocate = .succeeds ∧ c.graph = none ∧
    (∀ thrown, c.capture ≠ .throws thrown) ∧
    (c.config.enableSpeculative = true →
      c.draftArena = none ∧ c.draftGraph = none ∧ ∀ thrown, c.draftCapture ≠ .throws thrown)

/-- The tokenizer stage of a call, over what the engine holds. -/
def TokenizerPasses (h : History) (c : Call) : Prop :=
  ∃ tok, loadTokenizer h.calls c h.engine.tokenizer = .ok () tok

/-- Every stage goes through. -/
def Completes (h : History) (c : Call) : Prop :=
  TokenizerPasses h c ∧ c.model = .succeeds ∧ Builds c

/-- A call that stops in the middle does no harm when the engine was never loaded, when it
ends without a model, or when it has replaced nothing by then. -/
def Harmless (h : History) (c : Call) : Prop :=
  h.engine.loaded = false ∨ (TokenizerPasses h c ∧ ∃ err, c.model = .fails err) ∨
    (¬ (TokenizerPasses h c ∧ c.model = .succeeds) ∧
      (h.engine.parts.model = none ∨ Leaves c h.engine.tokenizer))

def Safe (h : History) (c : Call) : Prop :=
  StopsFirst c ∨ (Completes h c ∧ Renews c h.engine) ∨ (¬ Completes h c ∧ Harmless h c)

/-- Sequences of calls each of which is safe where it is made. -/
inductive SafeRun (split : List Nat → List (Nat × Nat)) : List Call → Prop where
  | start : SafeRun split []
  | load {calls : List Call} {c : Call} (before : SafeRun split calls)
      (safe : Safe (run split calls) c) : SafeRun split (calls ++ [c])

section Stages

variable (call : Nat) (c : Call)

/-- What is left of `load` once the artifact is open. -/
theorem load_opened (opens : ¬ StopsFirst c) (engine : Engine) :
    load call c engine = match loadTokenizer call c engine.tokenizer with
      | .error err tok => .error err { engine with config := c.config, ctx := some call, tokenizer := tok }
      | .ok _ tok => match buildParts call c engine.parts with
        | .error err parts => .error err
            { engine with config := c.config, ctx := some call, tokenizer := tok, parts := parts }
        | .ok _ parts => .ok () { config := c.config, ctx := some call, tokenizer := tok,
                                  parts := parts, loaded := true } := by
  simp only [StopsFirst, not_or, not_and, not_not] at opens
  obtain ⟨device, artifact, checksum⟩ := opens
  have checked : validateChecksum c = pure () := by
    unfold validateChecksum
    split
    · rename_i validates
      rw [checksum validates]
    · rfl
  simp only [load, createDevice, device, openArtifact, artifact, checked, bind_apply, modify_apply,
    pure_apply, within]
  cases loadTokenizer call c engine.tokenizer with
  | error err tok => rfl
  | ok _ tok =>
      dsimp only
      cases buildParts call c engine.parts <;> rfl

/-- A call that stops first leaves every part alone. -/
theorem load_stopped (stops : StopsFirst c) (engine : Engine) :
    ∃ err ctx, load call c engine = .error err { engine with config := c.config, ctx := ctx } := by
  cases device : c.device with
  | fails err => exact ⟨ascii "Failed to initialize Intel GPU DeviceContext", none, by
      simp [load, createDevice, leaving, device, bind_apply]⟩
  | throws thrown => exact ⟨_, engine.ctx, by simp [load, createDevice, device, bind_apply]; rfl⟩
  | succeeds =>
  cases artifact : c.artifact with
  | fails err => exact ⟨err, some call, by simp [load, createDevice, openArtifact, device, artifact, bind_apply]⟩
  | throws thrown =>
      exact ⟨_, some call, by simp [load, createDevice, openArtifact, device, artifact, bind_apply]; rfl⟩
  | succeeds =>
  simp only [StopsFirst, device, artifact, ne_eq, not_true_eq_false, false_or] at stops
  obtain ⟨validates, checksum⟩ := stops
  cases outcome : c.checksum with
  | succeeds => exact absurd outcome checksum
  | fails err => exact ⟨_, some call, by
      simp [load, createDevice, openArtifact, validateChecksum, device, artifact, validates, outcome, bind_apply]; rfl⟩
  | throws thrown => exact ⟨_, some call, by
      simp [load, createDevice, openArtifact, validateChecksum, device, artifact, validates, outcome, bind_apply]; rfl⟩

/-- What a build that goes through leaves. -/
structure Built (before parts : Parts) : Prop where
  model : parts.model = some call
  arena : parts.arena = some call
  kvCache : parts.kvCache = some { call := call, allocated := true }
  decodeGraph : parts.decodeGraph = some { call := call, model := some call, kvCache := some call }
  draft : if c.config.enableSpeculative = true then
      parts.draftCtx.arena = some call ∧ parts.draftCtx.decodeGraph =
        some { call := call, model := some call, kvCache := some call }
    else parts.draftCtx = before.draftCtx

variable {call c}

theorem loadModel_ok {before parts : Parts} (run : loadModel call c before = .ok () parts) :
    c.model = .succeeds ∧ parts = { before with model := some call } := by
  cases outcome : c.model with
  | succeeds =>
      simp only [loadModel, outcome, modify_apply, EStateM.Result.ok.injEq, true_and] at run
      exact ⟨rfl, run.symm⟩
  | fails err => simp [loadModel, outcome, leaving, bind_apply] at run
  | throws thrown => simp [loadModel, outcome] at run

theorem makeArena_ok {before parts : Parts} (run : makeArena call c before = .ok () parts) :
    c.arena = none ∧ parts = { before with arena := some call } := by
  cases outcome : c.arena with
  | none =>
      simp only [makeArena, outcome, modify_apply, EStateM.Result.ok.injEq, true_and] at run
      exact ⟨rfl, run.symm⟩
  | some thrown => simp [makeArena, outcome] at run

theorem makeCache_ok {before parts : Parts} (run : makeCache call c before = .ok () parts) :
    c.kvCache = none ∧ c.allocate = .succeeds ∧ parts = setCache call true before := by
  cases made : c.kvCache with
  | some thrown => simp [makeCache, made] at run
  | none =>
  cases outcome : c.allocate with
  | succeeds =>
      simp only [makeCache, made, outcome, modify_apply, EStateM.Result.ok.injEq, true_and] at run
      exact ⟨rfl, rfl, run.symm⟩
  | fails err => simp [makeCache, made, outcome, leaving, bind_apply] at run
  | throws thrown => simp [makeCache, made, outcome, leaving, bind_apply] at run

theorem captureGraph_ok {before parts : Parts} (run : captureGraph call c before = .ok () parts) :
    c.graph = none ∧ (∀ thrown, c.capture ≠ .throws thrown) ∧ parts = setGraph call before := by
  cases made : c.graph with
  | some thrown => simp [captureGraph, made] at run
  | none =>
  cases outcome : c.capture with
  | throws thrown => simp [captureGraph, made, outcome, leaving, bind_apply] at run
  | succeeds | fails err =>
      simp only [captureGraph, made, outcome, modify_apply, EStateM.Result.ok.injEq, true_and] at run
      exact ⟨rfl, nofun, run.symm⟩

theorem initDraft_ok {before parts : Parts} (run : initDraft call c before = .ok () parts) :
    (c.draftArena = none ∧ c.draftGraph = none ∧ ∀ thrown, c.draftCapture ≠ .throws thrown) ∧
      parts = { before with draftCtx := { arena := some call,
                                          decodeGraph := some (newGraph call before),
                                          isInitialized := true } } := by
  cases arena : c.draftArena with
  | some thrown => simp [initDraft, arena] at run
  | none =>
  cases graph : c.draftGraph with
  | some thrown => simp [initDraft, arena, graph, leaving, bind_apply] at run
  | none =>
  cases outcome : c.draftCapture with
  | throws thrown => simp [initDraft, arena, graph, outcome, leaving, bind_apply] at run
  | succeeds | fails err =>
      simp only [initDraft, arena, graph, outcome, bind_apply, modify_apply, EStateM.Result.ok.injEq,
        true_and] at run
      exact ⟨⟨rfl, rfl, nofun⟩, run.symm⟩

/-- A build goes through only if each of its stages does. -/
theorem buildParts_ok {before parts : Parts} (run : buildParts call c before = .ok () parts) :
    c.model = .succeeds ∧ Builds c ∧ Built call c before parts := by
  obtain ⟨_, _, model, run⟩ := bind_ok run
  obtain ⟨_, _, arena, run⟩ := bind_ok run
  obtain ⟨_, _, cache, run⟩ := bind_ok run
  obtain ⟨_, _, graph, run⟩ := bind_ok run
  obtain ⟨loads, rfl⟩ := loadModel_ok model
  obtain ⟨arenaMade, rfl⟩ := makeArena_ok arena
  obtain ⟨cacheMade, allocated, rfl⟩ := makeCache_ok cache
  obtain ⟨graphMade, captured, rfl⟩ := captureGraph_ok graph
  by_cases speculative : c.config.enableSpeculative = true
  · rw [if_pos speculative] at run
    obtain ⟨drafts, rfl⟩ := initDraft_ok run
    exact ⟨loads, ⟨arenaMade, cacheMade, allocated, graphMade, captured, fun _ => drafts⟩,
      ⟨rfl, rfl, rfl, rfl, by rw [if_pos speculative]; exact ⟨rfl, rfl⟩⟩⟩
  · rw [if_neg speculative] at run
    cases run
    exact ⟨loads, ⟨arenaMade, cacheMade, allocated, graphMade, captured,
        fun enabled => absurd enabled speculative⟩,
      ⟨rfl, rfl, rfl, rfl, by rw [if_neg speculative]; rfl⟩⟩

/-- The tables are the call's own, or not filled. -/
def TablesFresh (call : Nat) (tok : EngineTokenizer) : Prop :=
  tok.tablesCall = some call ∨ ¬ IsLoaded tok.tables

def TemplateFresh (call : Nat) (tok : EngineTokenizer) : Prop :=
  tok.templateLoaded = true → tok.templateCall = some call

theorem embeddedTokenizer_fresh : Triple
    (fun tok => (c.tokenizerSection.Fills ∨ ¬ IsLoaded tok.tables) ∧
      (c.templateSection.Replaces ∨ tok.templateLoaded = false))
    (embeddedTokenizer call c)
    (fun _ tok => TablesFresh call tok ∧ (c.templateSection.Replaces ∨ tok.templateLoaded = false))
    (fun _ _ => True) := by
  rintro tok ⟨tables, template⟩
  unfold embeddedTokenizer
  cases outcome : c.tokenizerSection with
  | absent | unreadable =>
      rw [outcome] at tables
      exact ⟨Or.inr (tables.resolve_left id), template⟩
  | throws thrown => exact trivial
  | interrupted thrown left => exact trivial
  | holds data =>
      rw [outcome] at tables
      refine ⟨?_, template⟩
      by_cases empty : data = []
      · subst empty
        exact Or.inr (tables.resolve_left fun fills => fills rfl)
      · exact Or.inl (if_neg empty)

theorem loadTemplate_fresh : Triple
    (fun tok => TablesFresh call tok ∧ (c.templateSection.Replaces ∨ tok.templateLoaded = false))
    (loadTemplate call c.templateSection)
    (fun _ tok => TablesFresh call tok ∧ TemplateFresh call tok) (fun _ _ => True) := by
  rintro tok ⟨tables, template⟩
  unfold loadTemplate
  cases outcome : c.templateSection with
  | untouched =>
      rw [outcome] at template
      have unset := template.resolve_left id
      exact ⟨tables, fun loaded => absurd (unset.symm.trans loaded) Bool.false_ne_true⟩
  | loads | rejected => exact ⟨tables, fun _ => rfl⟩
  | throws thrown cleared => cases cleared <;> exact trivial

/-- A template load from anywhere keeps the tables and what is known of the template. -/
theorem loadTemplate_keeps (template : TemplateLoad) : Triple
    (fun tok => tok.tablesCall = some call ∧ TemplateFresh call tok) (loadTemplate call template)
    (fun _ tok => tok.tablesCall = some call ∧ TemplateFresh call tok) (fun _ _ => True) := by
  rintro tok ⟨tables, known⟩
  unfold loadTemplate
  cases template with
  | untouched => exact ⟨tables, known⟩
  | loads | rejected => exact ⟨tables, fun _ => rfl⟩
  | throws thrown cleared => cases cleared <;> exact trivial

theorem loadFromFile_fills : Triple (TemplateFresh call) (loadFromFile call c)
    (fun _ tok => tok.tablesCall = some call ∧ TemplateFresh call tok) (fun _ _ => True) := by
  intro tok known
  unfold loadFromFile
  cases c.tokenizerFile with
  | unopened path => exact trivial
  | throws thrown => exact trivial
  | interrupted thrown left => exact trivial
  | holds data config template =>
      by_cases empty : data = []
      · subst empty
        cases config <;> exact trivial
      · simp only [bind_apply, read_apply, modify_apply]
        cases verdict data tok with
        | error err => exact trivial
        | ok _ => cases config with
          | fails err => exact trivial
          | throws thrown => exact trivial
          | succeeds => exact loadTemplate_keeps template _ ⟨if_neg empty, known⟩

theorem fallbackTokenizer_fills : Triple
    (fun tok => TablesFresh call tok ∧ TemplateFresh call tok) (fallbackTokenizer call c)
    (fun _ tok => tok.tablesCall = some call ∧ TemplateFresh call tok) (fun _ _ => True) := by
  rintro tok ⟨tables, template⟩
  unfold fallbackTokenizer
  simp only [bind_apply, read_apply]
  by_cases loaded : IsLoaded tok.tables
  · simpa only [loaded, decide_true, if_true, pure_apply] using
      ⟨tables.resolve_right fun unfilled => unfilled loaded, template⟩
  · by_cases path : c.config.tokenizerPath = []
    · simp [loaded, path]
    · simpa only [loaded, path, decide_false, Bool.false_eq_true, if_false] using
        loadFromFile_fills tok template

theorem fallbackTemplate_keeps : Triple
    (fun tok => tok.tablesCall = some call ∧ TemplateFresh call tok) (fallbackTemplate call c)
    (fun _ tok => tok.tablesCall = some call ∧ TemplateFresh call tok) (fun _ _ => True) := by
  refine triple_read _ fun loaded => triple_ite (fun _ => ?_) fun _ => ?_
  · exact triple_pure _ fun _ known => known.1
  · exact triple_conseq (loadTemplate_keeps c.templateFile) (fun _ known => known.1)
      (fun _ _ kept => kept) fun _ _ _ => trivial

theorem checkSpecialTokens_keeps (state : EngineTokenizer → Prop) :
    Triple state checkSpecialTokens (fun _ => state) (fun _ => state) := by
  refine triple_read _ fun tables => triple_ite (fun _ => ?_) fun _ => triple_ite (fun _ => ?_) fun _ => ?_
  · exact fun _ holds => holds.1
  · exact fun _ holds => holds.1
  · exact fun _ holds => holds.1

/-- A tokenizer stage that goes through leaves the call's own tables, and no template
that another call loaded. -/
theorem loadTokenizer_fresh : Triple
    (fun tok => (c.tokenizerSection.Fills ∨ ¬ IsLoaded tok.tables) ∧
      (c.templateSection.Replaces ∨ tok.templateLoaded = false))
    (loadTokenizer call c)
    (fun _ tok => tok.tablesCall = some call ∧ TemplateFresh call tok) (fun _ _ => True) := by
  refine triple_bind embeddedTokenizer_fresh fun _ => ?_
  refine triple_bind loadTemplate_fresh fun _ => ?_
  refine triple_bind fallbackTokenizer_fills fun _ => ?_
  refine triple_bind fallbackTemplate_keeps fun _ => ?_
  exact triple_conseq (checkSpecialTokens_keeps _) (fun _ => id) (fun _ _ => id) fun _ _ _ => trivial

theorem loadTemplate_idle {template : TemplateLoad} (idle : ¬ template.Replaces) (tok : EngineTokenizer) :
    finalState (loadTemplate call template tok) = tok := by
  cases template with
  | untouched => rfl
  | loads | rejected => exact absurd trivial idle
  | throws thrown cleared => cases cleared with
    | true => exact absurd rfl idle
    | false => rfl

theorem embeddedTokenizer_idle (idle : ¬ c.tokenizerSection.Fills) (tok : EngineTokenizer) :
    finalState (embeddedTokenizer call c tok) = tok := by
  unfold embeddedTokenizer
  cases outcome : c.tokenizerSection with
  | absent | unreadable | throws thrown => rfl
  | interrupted thrown left => exact absurd (by rw [outcome]; exact trivial) idle
  | holds data =>
      have empty : data = [] := not_not.mp fun fills => idle (by rw [outcome]; exact fills)
      rw [empty]
      rfl

/-- The stage that replaces nothing, wherever it ends. -/
theorem loadTokenizer_leaves (call : Nat) {tok : EngineTokenizer} (leaves : Leaves c tok) :
    finalState (loadTokenizer call c tok) = tok := by
  obtain ⟨unfilled, loaded, template, file⟩ := leaves
  refine stays_bind (embeddedTokenizer_idle unfilled tok) fun _ => ?_
  refine stays_bind (loadTemplate_idle template tok) fun _ => ?_
  refine stays_bind (by simp [fallbackTokenizer, bind_apply, loaded, finalState]) fun _ => ?_
  refine stays_bind ?_ fun _ => ?_
  · simp only [fallbackTemplate, bind_apply, read_apply]
    split
    · rfl
    · rename_i absent
      simp only [Bool.or_eq_true, List.isEmpty_iff, not_or] at absent
      exact loadTemplate_idle ((file.resolve_left absent.1).resolve_left absent.2) tok
  · simp only [checkSpecialTokens, bind_apply, read_apply]
    split
    · rfl
    · split <;> rfl

theorem buildParts_completes (call : Nat) (loads : c.model = .succeeds) (builds : Builds c) (before : Parts) :
    ∃ parts, buildParts call c before = .ok () parts := by
  obtain ⟨arena, cache, allocated, graph, captured, drafts⟩ := builds
  have draft : ∀ parts, ∃ after, (if c.config.enableSpeculative then initDraft call c else pure ()) parts =
      .ok () after := by
    intro parts
    by_cases speculative : c.config.enableSpeculative = true
    · obtain ⟨draftArena, draftGraph, drawn⟩ := drafts speculative
      simp only [speculative, if_true, initDraft, draftArena, draftGraph]
      cases outcome : c.draftCapture with
      | throws thrown => exact absurd outcome (drawn thrown)
      | succeeds | fails err => exact ⟨_, rfl⟩
    · exact ⟨parts, by rw [if_neg speculative]; rfl⟩
  have drawn : ∀ parts, captureGraph call c parts = .ok () (setGraph call parts) := by
    intro parts
    cases outcome : c.capture with
    | throws thrown => exact absurd outcome (captured thrown)
    | succeeds | fails err => simp [captureGraph, graph, outcome]
  simp only [buildParts, loadModel, loads, makeArena, arena, makeCache, cache, allocated, bind_apply,
    modify_apply, drawn]
  exact draft _

theorem buildParts_without (err : Bytes) (fails : c.model = .fails err) (parts : Parts) :
    buildParts call c parts = .error err { parts with model := none } := by
  simp [buildParts, loadModel, fails, leaving, bind_apply]

theorem buildParts_interrupted (thrown : Thrown) (throws : c.model = .throws thrown) (parts : Parts) :
    buildParts call c parts = .error (caught thrown) parts := by
  simp [buildParts, loadModel, throws, bind_apply]

end Stages

section Runs

theorem useSpeculative_one (engine : Engine) : useSpeculative engine 1 = true ↔
    engine.parts.draftCtx.isInitialized = true ∨ engine.parts.draftCtx.arena.isSome = true := by
  simp [useSpeculative]

theorem useSpeculative_usable {engine : Engine} {draftTokensNum : Int}
    (uses : useSpeculative engine draftTokensNum = true) : useSpeculative engine 1 = true :=
  (useSpeculative_one engine).mpr (by simpa using (Bool.and_eq_true_iff.mp uses).2)

/-- The configuration and the device context are not among the parts. -/
theorem FromCall.transfer {call : Nat} {engine after : Engine} (old : FromCall call engine)
    (tokenizer : after.tokenizer = engine.tokenizer) (parts : after.parts = engine.parts) :
    FromCall call after where
  tables := tokenizer ▸ old.tables
  template := tokenizer ▸ old.template
  model := parts ▸ old.model
  arena := parts ▸ old.arena
  kvCache := parts ▸ old.kvCache
  decodeGraph := parts ▸ old.decodeGraph
  draft := by
    intro draftTokensNum uses
    have usable := (useSpeculative_one after).mp (useSpeculative_usable uses)
    rw [parts] at usable ⊢
    exact old.draft 1 ((useSpeculative_one engine).mpr usable)

def Sound (h : History) : Prop :=
  isLoaded h.engine = true → ∃ call, h.lastLoaded = some call ∧ FromCall call h.engine

/-- A call that stops over the parts it found. -/
theorem Sound.unmoved {h : History} (sound : Sound h) {engine : Engine} (calls : Nat)
    (tokenizer : engine.tokenizer = h.engine.tokenizer) (parts : engine.parts = h.engine.parts)
    (loaded : engine.loaded = h.engine.loaded) :
    Sound { h with engine := engine, calls := calls } := by
  intro usable
  have before : isLoaded h.engine = true := by
    rw [← usable, isLoaded, isLoaded, parts, loaded]
  obtain ⟨call, last, all⟩ := sound before
  exact ⟨call, last, all.transfer tokenizer parts⟩

theorem sound_unloaded {h : History} (missing : h.engine.loaded = false ∨ h.engine.parts.model = none) :
    Sound h := by
  intro usable
  rcases missing with unset | model
  · simp [isLoaded, unset] at usable
  · simp [isLoaded, model] at usable

/-- A call that goes through and renews everything. -/
theorem fromCall_completed {h : History} {c : Call} {tok : EngineTokenizer} {parts : Parts}
    (renews : Renews c h.engine)
    (tokenizer : loadTokenizer h.calls c h.engine.tokenizer = .ok () tok)
    (built : Built h.calls c h.engine.parts parts) (ctx : Option Nat) :
    FromCall h.calls { config := c.config, ctx := ctx, tokenizer := tok, parts := parts, loaded := true } := by
  obtain ⟨tables, template, draft⟩ := renews
  obtain ⟨own, ownTemplate⟩ := loadTokenizer_fresh.ok ⟨tables, template⟩ tokenizer
  refine ⟨own, ownTemplate, built.model, built.arena, built.kvCache, built.decodeGraph, ?_⟩
  intro draftTokensNum uses
  have drawn := built.draft
  by_cases speculative : c.config.enableSpeculative = true
  · rwa [if_pos speculative] at drawn
  · -- an engine without a draft context still has none
    rw [if_neg speculative] at drawn
    obtain ⟨unset, empty⟩ := draft.resolve_left speculative
    have usable := (useSpeculative_one _).mp (useSpeculative_usable uses)
    simp [drawn, unset, empty] at usable

theorem load_sound {h : History} {c : Call} (sound : Sound h) (safe : Safe h c) : Sound (h.load c) := by
  by_cases stops : StopsFirst c
  · obtain ⟨err, ctx, stopped⟩ := load_stopped h.calls c stops h.engine
    rw [History.load, stopped]
    exact sound.unmoved _ rfl rfl rfl
  replace safe := safe.resolve_left stops
  rw [History.load, load_opened h.calls c stops]
  cases tokenizer : loadTokenizer h.calls c h.engine.tokenizer with
  | error err tok =>
      have blocked : ¬ TokenizerPasses h c := by
        rintro ⟨other, passes⟩
        rw [tokenizer] at passes
        cases passes
      have incomplete : ¬ Completes h c := fun completes => blocked completes.1
      rcases (safe.resolve_left fun completes => incomplete completes.1).2 with unset | ended | ⟨_, model | leaves⟩
      · exact sound_unloaded (Or.inl unset)
      · exact absurd ended.1 blocked
      · exact sound_unloaded (Or.inr model)
      · have kept := loadTokenizer_leaves h.calls leaves
        rw [tokenizer] at kept
        exact sound.unmoved _ kept rfl rfl
  | ok _ tok =>
      have passes : TokenizerPasses h c := ⟨tok, tokenizer⟩
      cases build : buildParts h.calls c h.engine.parts with
      | ok _ parts =>
          obtain ⟨loads, builds, built⟩ := buildParts_ok build
          have renews := (safe.resolve_right fun harmless => harmless.1 ⟨passes, loads, builds⟩).2
          intro _
          exact ⟨h.calls, rfl, fromCall_completed renews tokenizer built _⟩
      | error err parts =>
          have incomplete : ¬ Completes h c := by
            rintro ⟨_, loads, builds⟩
            obtain ⟨other, run⟩ := buildParts_completes h.calls loads builds h.engine.parts
            rw [build] at run
            cases run
          rcases (safe.resolve_left fun completes => incomplete completes.1).2 with
            unset | ⟨_, _, fails⟩ | ⟨without, kept⟩
          · exact sound_unloaded (Or.inl unset)
          · rw [buildParts_without _ fails] at build
            cases build
            exact sound_unloaded (Or.inr rfl)
          · cases model : c.model with
            | succeeds => exact absurd ⟨passes, model⟩ without
            | fails err =>
                rw [buildParts_without _ model] at build
                cases build
                exact sound_unloaded (Or.inr rfl)
            | throws thrown =>
                rw [buildParts_interrupted _ model] at build
                cases build
                rcases kept with empty | leaves
                · exact sound_unloaded (Or.inr empty)
                · have same := loadTokenizer_leaves h.calls leaves
                  rw [tokenizer] at same
                  exact sound.unmoved _ same rfl rfl

theorem run_append (split : List Nat → List (Nat × Nat)) (calls : List Call) (c : Call) :
    run split (calls ++ [c]) = (run split calls).load c := by
  simp [run]

theorem safeRun_sound {split : List Nat → List (Nat × Nat)} {calls : List Call}
    (safe : SafeRun split calls) : Sound (run split calls) := by
  induction safe with
  | start => exact sound_unloaded (Or.inl rfl)
  | load before safe ih =>
      rw [run_append]
      exact load_sound ih safe

def tokenizerJson : Bytes := ascii ("\x7b\"added_tokens\":[\x7b\"id\":1,\"content\":\"<|endoftext|>\"\x7d," ++
  "\x7b\"id\":2,\"content\":\"<|im_start|>\"\x7d,\x7b\"id\":3,\"content\":\"<|im_end|>\"\x7d]," ++
  "\"model\":\x7b\"vocab\":\x7b\"a\":0\x7d,\"merges\":[\"a a\"]\x7d\x7d")

/-- A call whose every stage succeeds. -/
def firstCall : Call where
  config := { artifactPath := ascii "model.xinfer" }
  device := .succeeds
  artifact := .succeeds
  checksum := .succeeds
  tokenizerSection := .holds tokenizerJson
  templateSection := .loads
  tokenizerFile := .unopened []
  templateFile := .untouched
  model := .succeeds
  arena := none
  kvCache := none
  allocate := .succeeds
  graph := none
  capture := .succeeds
  draftArena := none
  draftGraph := none
  draftCapture := .succeeds

theorem firstCall_passes : TokenizerPasses (start fun _ => []) firstCall := by
  have passes : (match loadTokenizer 0 firstCall (fresh fun _ => []).tokenizer with
      | .ok _ _ => true
      | .error _ _ => false) = true := by
    simp only [firstCall, tokenizerJson, ascii_append]
    repeat rw [ascii_ofList]
    decide +kernel
  unfold TokenizerPasses start
  dsimp only
  split at passes
  · rename_i tok outcome
    exact ⟨tok, outcome⟩
  · cases passes

end Runs

end XInfer.EngineReload
