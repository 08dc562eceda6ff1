import XInfer.TokenBudget

/-!
What the cache holds at the heads of the decode loop. Single steps feed the committed
tokens once and in order, and then slots and recurrent state are those of a blank
cache fed with them. A speculative round leaves the slots of its first draft, and the
recurrent state of all its passes or of none, where those of the committed tokens
belong.
-/

namespace XInfer.CacheContent

open Primitives StateException WhileLoop Device DeviceRules ForwardRules Tokenizer Generation
  SessionRules LoopRules CallRules

variable {KV Rec Logits : Type} {α : Type}

/-- The cache is the one of a blank memory that was fed `tokens` from position 0 on, up
to the length; nothing of an earlier request shows. -/
def FedWith (T : Machine KV Rec Logits) (tokens : List Int) (kv : KVCache KV Rec) : Prop :=
  ∀ blank : Memory KV Rec, blank.recurrent = T.cleared →
    kv.memory.Agree kv.currentSeqLen (T.pass kv.maxSeqLen false blank tokens 0).1

/-- The newest token has not been fed; all before it have, once and in order. -/
structure CacheMatches (T : Machine KV Rec Logits) (promptTokens : List Int)
    (s : Session KV Rec Logits) : Prop where
  length : s.device.kv.currentSeqLen + 1 = promptTokens.length + s.routing.tokenIds.length
  content : FedWith T ((promptTokens ++ s.routing.tokenIds).take s.device.kv.currentSeqLen) s.device.kv

section Feeding

variable (T : Machine KV Rec Logits) {kv : KVCache KV Rec} {tokens : List Int}

theorem prefilled_fedWith (kv : KVCache KV Rec) {promptTokens : List Int}
    (room : promptTokens.length ≤ kv.maxSeqLen) :
    FedWith T promptTokens (prefilled T kv promptTokens) := by
  intro blank cleared
  have same : (kv.clear T.cleared).memory.Agree 0 blank :=
    Memory.agree_zero ((kv.clear_recurrent T.cleared).trans cleared.symm)
  have inside : 0 + promptTokens.length ≤ kv.maxSeqLen := by omega
  have fed := (T.pass_agree promptTokens same inside).1
  rwa [Nat.zero_add] at fed

/-- A token fed at the length extends what the cache was fed with. -/
theorem fed_fedWith (content : FedWith T tokens kv) (width : tokens.length = kv.currentSeqLen)
    (room : kv.currentSeqLen < kv.maxSeqLen) (tok : Int) :
    FedWith T (tokens ++ [tok]) (fed T kv tok) := by
  intro blank cleared
  have agree := content blank cleared
  have one := (T.pass_agree [tok] agree room).1
  have split := congrArg Prod.fst (T.pass_append kv.maxSeqLen blank tokens [tok] 0)
  rw [Nat.zero_add, width] at split
  rw [Machine.pass_cons, Machine.pass_nil] at one
  show (T.forward kv.maxSeqLen kv.memory (tok, kv.currentSeqLen)).1.Agree (kv.currentSeqLen + 1)
    (T.pass kv.maxSeqLen false blank (tokens ++ [tok]) 0).1
  rw [split]
  exact one

end Feeding

section Loop

variable {T : Machine KV Rec Logits} {P : Platform KV Rec} {maxSeqLen : Nat}
  {S : Setting P maxSeqLen T.config.logitsBytes} {R : Request} {promptTokens front : List Int}

/-- A head whose cache was fed the prompt and all tokens but the newest. -/
def Settled (S : Setting P maxSeqLen T.config.logitsBytes) (R : Request)
    (promptTokens front : List Int) (s : Session KV Rec Logits) : Prop :=
  ∃ kv tokens tok, Committed T S R promptTokens.length front kv (tokens ++ [tok]) tok s ∧
    FedWith T (promptTokens ++ tokens) kv

theorem Settled.matches (settled : Settled S R promptTokens front s) : CacheMatches T promptTokens s := by
  obtain ⟨kv, tokens, tok, committed, content⟩ := settled
  have behind := committed.behind
  have cache := committed.here.device.cache
  have emitted := committed.here.tokenIds
  rw [List.length_append, List.length_singleton] at behind
  have width : (promptTokens ++ tokens).length = kv.currentSeqLen := by
    rw [List.length_append]
    omega
  constructor
  · rw [cache, emitted, List.length_append, List.length_singleton]
    exact behind
  · rw [cache, emitted, ← List.append_assoc, ← width, List.take_left]
    exact content

/-- A single step feeds the newest token and leaves a newer one. -/
theorem settled_step (granted : Granted T S R promptTokens.length front) {s after : Session KV Rec Logits}
    (settled : Settled S R promptTokens front s) (more : unfinished R s = true)
    (single : beginsRound R s = false) (run : decodeIteration T.backend P R s = .ok .again after) :
    Settled S R promptTokens front after := by
  obtain ⟨kv, tokens, tok, committed, content⟩ := settled
  have behind := committed.behind
  have window := granted.window
  have budget := (unfinished_iff committed.here).mp more
  have room : kv.currentSeqLen < maxSeqLen := by omega
  have alone := committed.here.begins.symm.trans single
  have step := decodeIteration_single T committed.fits room alone committed.chosen committed.kept budget
    s committed.here
  rw [run] at step
  obtain ⟨here, _⟩ := step
  have width : (promptTokens ++ tokens).length = kv.currentSeqLen := by
    rw [List.length_append, List.length_singleton] at behind
    rw [List.length_append]
    omega
  have fed := fed_fedWith T content width (by rw [committed.fits.size]; exact room) tok
  rw [List.append_assoc] at fed
  have later : Committed T S R promptTokens.length front (ForwardRules.fed T kv tok)
      ((tokens ++ [tok]) ++ [next T kv tok]) (next T kv tok) after := by
    refine ⟨here, fed_fits T committed.fits room tok, next_chosen T kv tok,
      committed.kept.trans (List.prefix_append _ _), ?_, snoc_within budget _⟩
    rw [List.length_append, List.length_singleton]
    dsimp only [ForwardRules.fed]
    omega
  exact ⟨_, _, _, later, fed⟩

end Loop

section Call

variable {E : Engine} {T : Machine KV Rec Logits} {P : Platform KV Rec} {prompt : Bytes}
  {g : GenerationConfig} {callback : Option TokenCallback} {runtime : Runtime KV Rec Logits}

/-- The heads of the loop of one call that no round precedes. -/
def SingleStepHead (E : Engine) (T : Machine KV Rec Logits) (P : Platform KV Rec) (prompt : Bytes)
    (g : GenerationConfig) (callback : Option TokenCallback) (runtime : Runtime KV Rec Logits)
    (start head : Session KV Rec Logits) : Prop :=
  prepare E T.backend P prompt g callback (enter runtime) = .ok none start ∧
    Head (unfinished (request E g callback)) (decodeIteration T.backend P (request E g callback))
      (fun s => beginsRound (request E g callback) s = false) start head

/-- On any platform, at every head that only single steps precede, the cache holds the
request's own tokens. -/
theorem heads_match (word : runtime.device.kv.maxSeqLen < 2 ^ 63)
    (within : runtime.device.kv.currentSeqLen ≤ runtime.device.kv.maxSeqLen)
    {start head : Session KV Rec Logits}
    (reached : SingleStepHead E T P prompt g callback runtime start head) :
    ∃ promptTokens, encoded E g prompt runtime.bpeCache = .ok promptTokens ∧
      CacheMatches T promptTokens head := by
  obtain ⟨prepared, path⟩ := reached
  have fits : Fits runtime.device.kv.maxSeqLen runtime.device.kv := ⟨rfl, within⟩
  let S := TokenBudget.anyPlatform P T.config.logitsBytes word
  have permits : ∀ tokenSeq, encoded E g prompt runtime.bpeCache = .ok tokenSeq →
      Permits T E g callback S tokenSeq.length := fun _ _ _ _ => trivial
  obtain ⟨promptTokens, tokens, first, granted, _, committed⟩ :=
    (prepare_rule T E g callback prompt word fits permits).ok
      ⟨at_enter T runtime fun _ => trivial, rfl⟩ prepared
  have window := granted.window
  have filled : FedWith T (promptTokens ++ []) (prefilled T runtime.device.kv promptTokens) := by
    rw [List.append_nil]
    exact prefilled_fedWith T _ (by omega)
  have begun : Settled S (request E g callback) promptTokens [first] start :=
    ⟨_, [], first, committed, filled⟩
  have settled := path.invariant (Settled S (request E g callback) promptTokens [first]) begun
    fun state after holds more single run => settled_step granted holds more single run
  exact ⟨promptTokens, tokens, settled.matches⟩

end Call

section Example

open PersistentBuffer

/-- A machine whose slots hold the tokens written to them and whose recurrent state is
all tokens fed; its choices alternate between two tokens. -/
def tape : Machine Int (List Int) Int where
  config := ModelConfig.defaults
  cleared := []
  zeroLinear := fun _ => []
  zeroLinear_cleared := rfl
  step := fun _ _ recurrent tok _ => (tok, recurrent ++ [tok], tok)
  step_local := fun _ _ _ _ _ _ _ => rfl
  argmax := fun tok => if tok = 2 then 3 else 2
  argmax_inVocab := by
    intro tok
    show ModelConfig.defaults.InVocab (if tok = 2 then 3 else 2)
    split <;> decide

def blankTape : Runtime Int (List Int) Int where
  device := {
    kv := { maxSeqLen := 8192, currentSeqLen := 0, memory := { slots := fun _ => 0, recurrent := [] },
            checkpoint := [], hasRecurrentCheckpoint := false }
    arena := fun _ => DeviceArena.create 64 268435456
    logits := fun _ _ => 0
    submissions := 0
    events := [] }
  bpeCache := []

/-- One draft a round. -/
def oneDraft (maxNewTokens : Int) (lt : maxNewTokens < 2 ^ 31 := by decide) : GenerationConfig where
  maxNewTokens := maxNewTokens
  maxNewTokens_lt := lt
  draftTokensNum := 1
  applyChatTemplate := false

def tapeStart (g : GenerationConfig) : Session Int (List Int) Int :=
  finalState (prepare draftingEngine tape.backend Platform.granting (ascii "a") g none (enter blankTape))

/-- The head after one iteration. -/
def tapeHead (g : GenerationConfig) : Session Int (List Int) Int :=
  finalState (decodeIteration tape.backend Platform.granting (request draftingEngine g none) (tapeStart g))

def answer : EStateM.Result Exn (Session KV Rec Logits) α → Option α
  | .ok value _ => some value
  | .error _ _ => none

theorem eq_ok_of_answer {outcome : EStateM.Result Exn (Session KV Rec Logits) α} {value : α}
    (answered : answer outcome = some value) : outcome = .ok value (finalState outcome) := by
  cases outcome with
  | ok value state => cases answered; rfl
  | error thrown state => cases answered

/-- Four tokens leave the budget for a round, and the loop goes on after it. -/
theorem roundHead_reached :
    TokenBudget.HeadOf draftingEngine tape Platform.granting (ascii "a") (oneDraft 4) none blankTape
      (tapeStart (oneDraft 4)) (tapeHead (oneDraft 4)) := by
  have begun : prepare draftingEngine tape.backend Platform.granting (ascii "a") (oneDraft 4) none
      (enter blankTape) = .ok none (tapeStart (oneDraft 4)) := eq_ok_of_answer (by decide +kernel)
  have again : decodeIteration tape.backend Platform.granting (request draftingEngine (oneDraft 4) none)
      (tapeStart (oneDraft 4)) = .ok .again (tapeHead (oneDraft 4)) := eq_ok_of_answer (by decide +kernel)
  exact ⟨begun, .again .first (by decide +kernel) trivial again⟩

theorem roundHead_content : (tapeHead (oneDraft 4)).device.kv.currentSeqLen = 2 ∧
    (tapeHead (oneDraft 4)).device.kv.maxSeqLen = 8192 ∧
    (tapeHead (oneDraft 4)).routing.tokenIds = [2, 2] ∧
    (tapeHead (oneDraft 4)).device.kv.memory.slots 1 = 3 := by
  decide +kernel

/-- Slot 1 belongs to the first generated token, 2; the round has left its draft, 3, there. -/
theorem roundHead_mismatched :
    ∃ start head, TokenBudget.HeadOf draftingEngine tape Platform.granting (ascii "a") (oneDraft 4) none
        blankTape start head ∧
      ∀ promptTokens, encoded draftingEngine (oneDraft 4) (ascii "a") blankTape.bpeCache =
        .ok promptTokens → ¬ CacheMatches tape promptTokens head := by
  refine ⟨_, _, roundHead_reached, fun promptTokens tokens matched => ?_⟩
  have letter : encoded draftingEngine (oneDraft 4) (ascii "a") blankTape.bpeCache = .ok [1] := by
    decide +kernel
  rw [letter] at tokens
  cases tokens
  obtain ⟨len, size, emitted, slot⟩ := roundHead_content
  have content := matched.content { slots := fun _ => 0, recurrent := [] } rfl
  rw [len, size, emitted] at content
  have written := content.1 1 (by decide)
  rw [slot] at written
  exact absurd written (by decide +kernel)

/-- Two tokens leave no budget for a round: the head after the single step. -/
theorem stepHead_matches :
    ∃ promptTokens, encoded draftingEngine (oneDraft 2) (ascii "a") blankTape.bpeCache = .ok promptTokens ∧
      CacheMatches tape promptTokens (tapeHead (oneDraft 2)) := by
  have begun : prepare draftingEngine tape.backend Platform.granting (ascii "a") (oneDraft 2) none
      (enter blankTape) = .ok none (tapeStart (oneDraft 2)) := eq_ok_of_answer (by decide +kernel)
  have again : decodeIteration tape.backend Platform.granting (request draftingEngine (oneDraft 2) none)
      (tapeStart (oneDraft 2)) = .ok .again (tapeHead (oneDraft 2)) := eq_ok_of_answer (by decide +kernel)
  exact heads_match (by decide : blankTape.device.kv.maxSeqLen < 2 ^ 63) (Nat.zero_le _)
    ⟨begun, .again .first (by decide +kernel) (by decide +kernel) again⟩

end Example

end XInfer.CacheContent
