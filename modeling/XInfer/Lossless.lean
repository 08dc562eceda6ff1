import XInfer.TokenBudget

/-!
Speculative decoding beside the single-token branch. Where no round can begin the two
are one program. Where one can, a machine that only looks at its input tells them
apart: the first row that a round verifies answers the token after the first draft,
which the round takes for the first draft itself.
-/

namespace XInfer.Lossless

open Primitives StateException WhileLoop Device DeviceRules ForwardRules Tokenizer Generation
  SessionRules LoopRules CallRules

variable {KV Rec Logits : Type}

/-- The same engine and options with speculation switched off. -/
def sequentialEngine (E : Engine) : Engine :=
  { E with config := { E.config with enableSpeculative := false } }

def sequentialConfig (g : GenerationConfig) : GenerationConfig := { g with draftTokensNum := 0 }

def sequential (R : Request) (draftN : Nat) : Request :=
  { R with useSpeculative := false, draftN := draftN }

theorem request_sequential (E : Engine) (g : GenerationConfig) (callback : Option TokenCallback) :
    ∃ draftN, request (sequentialEngine E) (sequentialConfig g) callback =
      sequential (request E g callback) draftN := ⟨_, rfl⟩

theorem prepare_sequential (E : Engine) (B : Backend KV Rec Logits) (P : Platform KV Rec)
    (prompt : Bytes) (g : GenerationConfig) (callback : Option TokenCallback) :
    prepare (sequentialEngine E) B P prompt (sequentialConfig g) callback =
      prepare E B P prompt g callback := rfl

section Agreement

variable {T : Machine KV Rec Logits} {P : Platform KV Rec} {R : Request} {draftN : Nat}

/-- An iteration that begins no round is the single step in both branches. -/
theorem decodeIteration_sequential (B : Backend KV Rec Logits) (s : Session KV Rec Logits)
    (single : beginsRound R s = false) :
    decodeIteration B P (sequential R draftN) s = decodeIteration B P R s := by
  have never : beginsRound (sequential R draftN) s = false := by simp [beginsRound, sequential]
  unfold decodeIteration
  rw [bind_apply, bind_apply, read_apply]
  dsimp only
  split
  · rfl
  · rw [bind_apply, bind_apply, read_apply, read_apply, never, single]
    rfl

variable {maxSeqLen : Nat} {S : Setting P maxSeqLen T.config.logitsBytes} {promptLen : Nat}
  {front : List Int}

theorem decodeLoop_sequential (granted : Granted T S R promptLen front)
    (never : ∀ count, ¬ Asks R promptLen maxSeqLen count) {s : Session KV Rec Logits}
    (head : AtHead T S R promptLen front s) :
    decodeLoop T.backend P (sequential R draftN) s = decodeLoop T.backend P R s := by
  refine (while_congr (AtHead T S R promptLen front) ?_ ?_ R.maxNewTokens s head).symm
  · rintro state ⟨kv, tokens, tok, committed⟩ more
    refine (decodeIteration_sequential T.backend state ?_).symm
    rw [committed.here.begins]
    by_contra round
    exact never _ (asks_of_begins granted committed (by simpa using round))
  · intro state after committed more run
    exact (left_decreases granted state after committed more run).1

end Agreement

section Calls

variable (E : Engine) (g : GenerationConfig) (callback : Option TokenCallback) (prompt : Bytes)

/-- The window and the budget of the request leave no room for a round. -/
def NeverSpeculates (maxSeqLen promptLen : Nat) : Prop :=
  ∀ count, ¬ Asks (request E g callback) promptLen maxSeqLen count

variable {E g callback prompt} {T : Machine KV Rec Logits} {P : Platform KV Rec}
  {runtime : Runtime KV Rec Logits}

theorem generateBody_sequential (word : runtime.device.kv.maxSeqLen < 2 ^ 63)
    (within : runtime.device.kv.currentSeqLen ≤ runtime.device.kv.maxSeqLen)
    (never : ∀ tokenSeq, encoded E g prompt runtime.bpeCache = .ok tokenSeq →
      NeverSpeculates E g callback runtime.device.kv.maxSeqLen tokenSeq.length) :
    generateBody (sequentialEngine E) T.backend P prompt (sequentialConfig g) callback (enter runtime) =
      generateBody E T.backend P prompt g callback (enter runtime) := by
  have fits : Fits runtime.device.kv.maxSeqLen runtime.device.kv := ⟨rfl, within⟩
  let S := TokenBudget.anyPlatform P T.config.logitsBytes word
  have permits : ∀ tokenSeq, encoded E g prompt runtime.bpeCache = .ok tokenSeq →
      Permits T E g callback S tokenSeq.length := fun _ _ _ _ => trivial
  have here : At S (request E g callback) .stop runtime.device.kv [] 0 (enter runtime) :=
    at_enter T runtime fun _ => trivial
  have prepared := prepare_rule T E g callback prompt word fits permits (enter runtime) ⟨here, rfl⟩
  obtain ⟨draftN, switched⟩ := request_sequential E g callback
  unfold generateBody
  rw [prepare_sequential, switched, bind_apply, bind_apply]
  cases run : prepare E T.backend P prompt g callback (enter runtime) with
  | error thrown s => rfl
  | ok answer s =>
      rw [run] at prepared
      cases answer with
      | some early => rfl
      | none =>
          obtain ⟨tokenSeq, tokens, first, granted, _, committed⟩ := prepared
          dsimp only
          rw [bind_apply, bind_apply,
            decodeLoop_sequential granted (never tokenSeq tokens) ⟨_, _, _, committed⟩]

/-- Where no round can begin, the two branches are one program. -/
theorem generate_sequential (word : runtime.device.kv.maxSeqLen < 2 ^ 63)
    (within : runtime.device.kv.currentSeqLen ≤ runtime.device.kv.maxSeqLen)
    (never : ∀ tokenSeq, encoded E g prompt runtime.bpeCache = .ok tokenSeq →
      NeverSpeculates E g callback runtime.device.kv.maxSeqLen tokenSeq.length) :
    generate (sequentialEngine E) T.backend P prompt (sequentialConfig g) callback runtime =
      generate E T.backend P prompt g callback runtime := by
  have same : generateBody (sequentialEngine E) T.backend P prompt (sequentialConfig g) callback
      (enter runtime) = _ := generateBody_sequential word within never
  unfold generate generateSession guarded
  rw [same]
  rfl

end Calls

section Divergence

variable {T : Machine KV Rec Logits} {P : Platform KV Rec} {maxSeqLen : Nat}
  {S : Setting P maxSeqLen T.config.logitsBytes} {R : Request} {draftN promptLen : Nat}
  {front : List Int}

/-- Nothing ends the request but its budget. -/
structure Unhindered (T : Machine KV Rec Logits) (S : Setting P maxSeqLen T.config.logitsBytes)
    (R : Request) : Prop where
  serving : S.serving
  agreeable : Agreeable R
  going : ∀ logits, R.isStop (T.argmax logits) = false

theorem Unhindered.again (free : Unhindered T S R) {program : SessionM KV Rec Logits Control}
    {before goes : Session KV Rec Logits → Prop} {s : Session KV Rec Logits}
    (rule : Triple before program (Goes T S R front goes) fun _ => Thrown S R front)
    (start : before s) : ∃ after, program s = .ok .again after ∧ goes after := by
  have run := rule s start
  cases done : program s with
  | error thrown after =>
      rw [done] at run
      exact absurd free.agreeable.willing (run.2 free.serving)
  | ok control after =>
      rw [done] at run
      cases control with
      | again => exact ⟨after, rfl, run⟩
      | leave =>
          obtain ⟨logits, stop⟩ := run.cause free.agreeable
          rw [free.going logits] at stop
          cases stop

theorem Unhindered.finishes (free : Unhindered T S R) (granted : Granted T S R promptLen front)
    {s : Session KV Rec Logits} (head : AtHead T S R promptLen front s) {fuel : Nat}
    (enough : left R s ≤ fuel) :
    ∃ last, whileLoop (unfinished R) (decodeIteration T.backend P R) fuel s = .ok () last ∧
      front <+: last.routing.tokenIds := by
  have run := whileLoop_rule granted fuel s ⟨head, enough⟩
  cases done : whileLoop (unfinished R) (decodeIteration T.backend P R) fuel s with
  | error thrown last =>
      rw [done] at run
      exact absurd free.agreeable.willing (run.2 free.serving)
  | ok value last =>
      rw [done] at run
      exact ⟨last, rfl, run.1.kept⟩

theorem prefix_apart {tokens : List Int} {first second : Int} {left right : List Int}
    (apart : first ≠ second) (one : tokens ++ [first] <+: left) (other : tokens ++ [second] <+: right) :
    left ≠ right := by
  rintro rfl
  have same := (List.prefix_of_prefix_length_le one other (by simp)).eq_of_length (by simp)
  exact apart (List.singleton_inj.mp (List.append_cancel_left same))

/-- A head of one branch is a head of the other. -/
theorem committed_sequential {kv : KVCache KV Rec} {tokens : List Int} {tok : Int}
    {s : Session KV Rec Logits} (committed : Committed T S R promptLen front kv tokens tok s) :
    Committed T S (sequential R draftN) promptLen front kv tokens tok s :=
  ⟨⟨committed.here.device, committed.here.routing, committed.here.calls, committed.here.current,
      committed.here.finish⟩, committed.fits, committed.chosen, committed.kept, committed.behind,
    committed.budget⟩

theorem granted_sequential (positive : 0 < draftN) (granted : Granted T S R promptLen front)
    {longer : List Int} (some : longer ≠ []) :
    Granted T S (sequential R draftN) promptLen longer where
  started := some
  drafting := positive
  window := granted.window
  asks := by
    rintro count ⟨speculative, _⟩
    cases speculative

/-- After one more iteration with a new token `first`, the rest of the loop keeps it. -/
theorem Unhindered.keeps (free : Unhindered T S R) (granted : Granted T S R promptLen front)
    {kv : KVCache KV Rec} {tokens : List Int} {tok first : Int} {s after : Session KV Rec Logits}
    (committed : Committed T S R promptLen front kv tokens tok s)
    (more : tokens.length < R.maxNewTokens)
    (step : decodeIteration T.backend P R s = .ok .again after)
    (advanced : Advanced T S R .length kv.currentSeqLen tokens first after) {fuel : Nat}
    (enough : left R s ≤ fuel + 1) :
    ∃ last, whileLoop (unfinished R) (decodeIteration T.backend P R) (fuel + 1) s = .ok () last ∧
      tokens ++ [first] <+: last.routing.tokenIds := by
  have entered := (unfinished_iff committed.here).mpr more
  obtain ⟨kv', rest, tok', later⟩ := Advanced.committed committed advanced
  have smaller := (left_decreases granted s after ⟨_, _, _, committed⟩ entered step).2
  have kept : tokens ++ [first] <+: tokens ++ first :: rest := by
    rw [List.prefix_append_right_inj]
    exact ⟨rest, rfl⟩
  have longer : Granted T S R promptLen (tokens ++ [first]) :=
    ⟨by simp, granted.drafting, granted.window, granted.asks⟩
  have head : AtHead T S R promptLen (tokens ++ [first]) after :=
    ⟨kv', _, tok', later.here, later.fits, later.chosen, kept, later.behind, later.budget⟩
  rw [while_again fuel s after entered step]
  exact free.finishes longer head (by omega)

/-- A round and a single step from one head begin with different tokens. -/
def Tells (T : Machine KV Rec Logits) : Prop :=
  ∀ kv tok count, 0 < count → T.Chooses tok → roundFirst T kv tok count ≠ next T kv tok

theorem unhindered_sequential (free : Unhindered T S R) : Unhindered T S (sequential R draftN) :=
  ⟨free.serving, free.agreeable, free.going⟩

/-- From the first round on the two loops have emitted different tokens. -/
theorem round_parts (free : Unhindered T S R) (tells : Tells T) (positive : 0 < draftN)
    (granted : Granted T S R promptLen front) {kv : KVCache KV Rec} {tokens : List Int} {tok : Int}
    {s : Session KV Rec Logits} (committed : Committed T S R promptLen front kv tokens tok s)
    (round : begins R kv tokens = true) {fuel : Nat} (enough : left R s ≤ fuel + 1) :
    ∃ first second,
      whileLoop (unfinished R) (decodeIteration T.backend P R) (fuel + 1) s = .ok () first ∧
      whileLoop (unfinished R) (decodeIteration T.backend P (sequential R draftN)) (fuel + 1) s =
        .ok () second ∧ first.routing.tokenIds ≠ second.routing.tokenIds := by
  have remaining : 1 < R.maxNewTokens - tokens.length := by
    simp only [begins, Bool.and_eq_true, decide_eq_true_eq] at round
    exact round.1.2
  have behind := committed.behind
  have window := granted.window
  have more : tokens.length < R.maxNewTokens := by omega
  have drafting := granted.drafting
  have count : 0 < min R.draftN (R.maxNewTokens - tokens.length - 1) := by omega
  have asked := granted.asks _ (asks_of_begins granted committed round)
  have twin : Committed T S (sequential R draftN) promptLen front kv tokens tok s :=
    committed_sequential committed
  have alone : begins (sequential R draftN) kv tokens = false := by simp [begins, sequential]
  obtain ⟨after, step, advanced⟩ := free.again (decodeIteration_round T committed.fits round drafting
    asked (by omega) committed.chosen committed.kept) committed.here
  obtain ⟨other, single, here, _⟩ := (unhindered_sequential free).again
    (decodeIteration_single T twin.fits (by omega) alone twin.chosen twin.kept more) twin.here
  have stepped : Advanced T S (sequential R draftN) .length kv.currentSeqLen tokens (next T kv tok) other :=
    ⟨fed T kv tok, next T kv tok, [], here, fed_fits T committed.fits (by omega) tok,
      next_chosen T kv tok, rfl, snoc_within more _⟩
  obtain ⟨first, run, kept⟩ := free.keeps granted committed more step advanced enough
  obtain ⟨second, twin_run, twin_kept⟩ := (unhindered_sequential free).keeps
    (granted_sequential positive granted granted.started) twin more single stepped enough
  exact ⟨first, second, run, twin_run,
    prefix_apart (tells kv tok _ count committed.chosen) kept twin_kept⟩

/-- Up to the first round the loops run alike; `gap` counts the steps to a length at
which a round is due. -/
theorem branches_part (free : Unhindered T S R) (tells : Tells T) (positive : 0 < draftN)
    (granted : Granted T S R promptLen front) {len : Nat} (speculative : R.useSpeculative = true)
    (budget : len + 3 ≤ promptLen + R.maxNewTokens) (room : sizeAdd len R.draftN ≤ maxSeqLen)
    (gap : Nat) {kv : KVCache KV Rec} {tokens : List Int} {tok : Int} {s : Session KV Rec Logits}
    (committed : Committed T S R promptLen front kv tokens tok s)
    (due : kv.currentSeqLen + gap = len) (fuel : Nat) (enough : left R s ≤ fuel) :
    ∃ first second,
      whileLoop (unfinished R) (decodeIteration T.backend P R) fuel s = .ok () first ∧
      whileLoop (unfinished R) (decodeIteration T.backend P (sequential R draftN)) fuel s =
        .ok () second ∧ first.routing.tokenIds ≠ second.routing.tokenIds := by
  induction gap generalizing kv tokens tok s fuel with
  | zero =>
      have behind := committed.behind
      have emitted := committed.here.tokenIds
      have round : begins R kv tokens = true := by
        have remaining : 1 < R.maxNewTokens - tokens.length := by omega
        have space : sizeAdd kv.currentSeqLen R.draftN ≤ kv.maxSeqLen := by
          rw [committed.fits.size, show kv.currentSeqLen = len by omega]
          exact room
        simp [begins, speculative, remaining, space]
      obtain ⟨fuel, rfl⟩ : ∃ rest, fuel = rest + 1 := by
        refine ⟨fuel - 1, ?_⟩
        unfold left at enough
        rw [emitted] at enough
        omega
      exact round_parts free tells positive granted committed round enough
  | succ gap ih =>
      have behind := committed.behind
      have emitted := committed.here.tokenIds
      have more : tokens.length < R.maxNewTokens := by omega
      obtain ⟨fuel, rfl⟩ : ∃ rest, fuel = rest + 1 := by
        refine ⟨fuel - 1, ?_⟩
        unfold left at enough
        rw [emitted] at enough
        omega
      cases round : begins R kv tokens with
      | true => exact round_parts free tells positive granted committed round enough
      | false =>
          have window := granted.window
          have entered := (unfinished_iff committed.here).mpr more
          obtain ⟨after, step, here, _⟩ := free.again (decodeIteration_single T committed.fits
            (by omega) round committed.chosen committed.kept more) committed.here
          have twin : decodeIteration T.backend P (sequential R draftN) s = .ok .again after := by
            rw [decodeIteration_sequential T.backend s (committed.here.begins.trans round), step]
          have later : Committed T S R promptLen front (fed T kv tok) (tokens ++ [next T kv tok])
              (next T kv tok) after := by
            refine ⟨here, fed_fits T committed.fits (by omega) tok, next_chosen T kv tok,
              committed.kept.trans (List.prefix_append _ _), ?_, snoc_within more _⟩
            rw [List.length_append, List.length_singleton]
            dsimp only [fed]
            omega
          have smaller := (left_decreases granted s after ⟨_, _, _, committed⟩ entered step).2
          rw [while_again fuel s after entered step, while_again fuel s after entered twin]
          exact ih later (by dsimp only [fed]; omega) fuel (by omega)

end Divergence

section Recorder

/-- The other one of two tokens. -/
def swap (fresh : Nat) (tok : Int) : Int :=
  if tok = (fresh : Int) then (fresh : Int) + 1 else (fresh : Int)

theorem swap_cases (fresh : Nat) (tok : Int) :
    swap fresh tok = (fresh : Int) ∨ swap fresh tok = (fresh : Int) + 1 := by
  unfold swap
  split
  · exact Or.inr rfl
  · exact Or.inl rfl

/-- A machine whose logits are the token it was fed last, and whose choices are two
tokens that nothing else uses. -/
def recorder (fresh : Nat) : Machine Unit Unit Int where
  config := textConfig fresh
  cleared := ()
  zeroLinear := fun _ => ()
  zeroLinear_cleared := rfl
  step := fun _ _ _ tok _ => ((), (), tok)
  step_local := fun _ _ _ _ _ _ _ => rfl
  argmax := swap fresh
  argmax_inVocab := by
    intro tok
    show 0 ≤ swap fresh tok ∧ swap fresh tok < (fresh : Int) + 2
    rcases swap_cases fresh tok with same | same <;> rw [same] <;> omega

/-- The row after the first draft answers the token after it. -/
theorem recorder_roundFirst (fresh : Nat) (kv : KVCache Unit Unit) (tok : Int) {count : Nat}
    (positive : 0 < count) :
    roundFirst (recorder fresh) kv tok count = swap fresh (next (recorder fresh) kv tok) := by
  obtain ⟨rest, rfl⟩ := Nat.exists_eq_add_one_of_ne_zero (Nat.ne_of_gt positive)
  rfl

theorem recorder_tells (fresh : Nat) : Tells (recorder fresh) := by
  intro kv tok count positive _ same
  rw [recorder_roundFirst fresh kv tok positive] at same
  have cases := swap_cases fresh tok
  have chosen : next (recorder fresh) kv tok = swap fresh tok := rfl
  rw [chosen] at same
  rcases cases with first | second
  · rw [first, swap, if_pos rfl] at same
    omega
  · have apart : (fresh : Int) + 1 ≠ (fresh : Int) := by omega
    rw [second, swap, if_neg apart] at same
    omega

def idle (maxSeqLen : Nat) : Runtime Unit Unit Int where
  device := {
    kv := { maxSeqLen := maxSeqLen, currentSeqLen := 0,
            memory := { slots := fun _ => (), recurrent := () },
            checkpoint := (), hasRecurrentCheckpoint := false }
    arena := fun _ => DeviceArena.create 0 0
    logits := fun _ _ => 0
    submissions := 0
    events := [] }
  bpeCache := []

end Recorder

section Claim

variable (E : Engine) (g : GenerationConfig) (callback : Option TokenCallback) (prompt : Bytes)
  (maxSeqLen : Nat)

/-- A request that `generate` accepts, whose callback always asks for more. -/
structure Accepted (tokenSeq : List Int) : Prop where
  checked : refuseOptions E g = none
  tokens : encoded E g prompt [] = .ok tokenSeq
  nonempty : tokenSeq ≠ []
  nonneg : ∀ tok ∈ tokenSeq, 0 ≤ tok
  valid : validateTokens maxSeqLen tokenSeq.length g.maxNewTokens = none
  eos : 0 ≤ (request E g callback).eosTok
  agreeable : Agreeable (request E g callback)

/-- What a caller sees of an outcome. -/
def observed (outcome : Except Exn GenerationResult) : Except Exn (List Int × FinishReason) :=
  outcome.map fun r => (r.tokenIds, r.finishReason)

/-- On every machine, and on every platform that serves all requests, speculation does
not show in the answer. -/
def SameAnswers : Prop :=
  ∀ (KV Rec Logits : Type) (T : Machine KV Rec Logits) (P : Platform KV Rec), P.Granting →
    ∀ runtime : Runtime KV Rec Logits, runtime.device.kv.maxSeqLen = maxSeqLen →
      runtime.device.kv.currentSeqLen ≤ maxSeqLen → CacheConsistent E.tokenizer runtime.bpeCache →
      observed (generate E T.backend P prompt g callback runtime).1 =
        observed (generate (sequentialEngine E) T.backend P prompt (sequentialConfig g) callback
          runtime).1

variable {E g callback prompt maxSeqLen}

theorem generate_of_loop {T : Machine KV Rec Logits} {P : Platform KV Rec}
    {runtime : Runtime KV Rec Logits} {start last : Session KV Rec Logits}
    (begun : prepare E T.backend P prompt g callback (enter runtime) = .ok none start)
    (run : decodeLoop T.backend P (request E g callback) start = .ok () last) :
    (generate E T.backend P prompt g callback runtime).1 = .ok (finished last) := by
  simp [generate, generateSession, guarded, generateBody, bind_apply, begun, run]

/-- Some machine tells the branches apart where a round can begin. -/
theorem not_lossless (word : maxSeqLen < 2 ^ 63) {tokenSeq : List Int}
    (accepted : Accepted E g callback prompt maxSeqLen tokenSeq) {count : Nat}
    (asks : Asks (request E g callback) tokenSeq.length maxSeqLen count) :
    ¬ SameAnswers E g callback prompt maxSeqLen := by
  obtain ⟨fresh, above⟩ := exists_fresh
    ((request E g callback).eosTok :: (request E g callback).imEndTok :: tokenSeq)
  have eos := above _ List.mem_cons_self
  have im := above _ (List.mem_cons_of_mem _ List.mem_cons_self)
  have prompts : ∀ tok ∈ tokenSeq, tok < fresh := fun tok member =>
    above tok (List.mem_cons_of_mem _ (List.mem_cons_of_mem _ member))
  let T := recorder fresh
  let S := served (Platform.granting_grants : (Platform.granting : Platform Unit Unit).Granting)
    T.config.logitsBytes word
  have free : Unhindered T S (request E g callback) := by
    refine ⟨trivial, accepted.agreeable, fun tok => ?_⟩
    have chosen : T.argmax tok = swap fresh tok := rfl
    rw [chosen]
    rcases swap_cases fresh tok with same | same <;>
      simp only [Request.isStop, same, Bool.or_eq_false_iff, Bool.and_eq_false_iff,
        decide_eq_false_iff_not] <;> omega
  have accepts : Accepts T S (request E g callback) g tokenSeq :=
    ⟨trivial, accepted.nonempty, accepted.valid, textConfig_readable prompts accepted.nonneg,
      accepted.eos, accepted.agreeable, free.going⟩
  have fits : Fits maxSeqLen (idle maxSeqLen).device.kv := ⟨rfl, Nat.zero_le _⟩
  obtain ⟨start, begun, first, granted, _, committed⟩ := prepare_begins T E g callback prompt word fits
    (at_enter T (idle maxSeqLen) fun _ => trivial) accepted.checked accepted.tokens
    (fun _ _ => trivial) accepts
  obtain ⟨speculative, len, longer, budget, room, _⟩ := asks
  obtain ⟨draftN, switched⟩ := request_sequential E g callback
  have positive : 0 < draftN := by
    have counted := request_draftN_pos (sequentialEngine E) (sequentialConfig g) callback
    rwa [switched] at counted
  obtain ⟨one, other, run, twin, apart⟩ := branches_part free (recorder_tells fresh) positive granted
    speculative budget room (len - tokenSeq.length) committed (by dsimp only [prefilled]; omega)
    (request E g callback).maxNewTokens (Nat.sub_le _ _)
  intro lossless
  have same := lossless Unit Unit Int T Platform.granting Platform.granting_grants (idle maxSeqLen) rfl
    (Nat.zero_le _) (consistent_nil _)
  have alone : (generate (sequentialEngine E) T.backend Platform.granting prompt (sequentialConfig g)
      callback (idle maxSeqLen)).1 = .ok (finished other) :=
    generate_of_loop begun (by rw [switched]; exact twin)
  rw [generate_of_loop begun run, alone] at same
  exact apart (congrArg Prod.fst (Except.ok.inj same))

/-- Speculative decoding is lossless exactly where it never begins a round. -/
theorem lossless_iff (word : maxSeqLen < 2 ^ 63) {tokenSeq : List Int}
    (accepted : Accepted E g callback prompt maxSeqLen tokenSeq) :
    SameAnswers E g callback prompt maxSeqLen ↔
      NeverSpeculates E g callback maxSeqLen tokenSeq.length := by
  constructor
  · intro lossless count asks
    exact not_lossless word accepted asks lossless
  · rintro never KV Rec Logits T P _ runtime rfl within consistent
    have same : encoded E g prompt runtime.bpeCache = encoded E g prompt [] :=
      (encode_consistent _ consistent (consistent_nil _)).1
    rw [generate_sequential word within]
    intro other tokens
    rw [same, accepted.tokens] at tokens
    cases tokens
    exact never

end Claim

section Example

open PersistentBuffer

def threeTokens : GenerationConfig :=
  { maxNewTokens := 3, draftTokensNum := 1, applyChatTemplate := false }

/-- One draft: the round rejects the right token for the one after it. -/
theorem threeTokens_differ :
    observed (generate draftingEngine (recorder 2).backend Platform.granting (ascii "a") threeTokens
        none (idle 8192)).1 = .ok ([2, 2, 3], .length) ∧
      observed (generate (sequentialEngine draftingEngine) (recorder 2).backend Platform.granting
        (ascii "a") (sequentialConfig threeTokens) none (idle 8192)).1 = .ok ([2, 3, 2], .length) := by
  decide +kernel

theorem threeTokens_not_same : ¬ SameAnswers draftingEngine threeTokens none (ascii "a") 8192 := by
  intro same
  have equal := same Unit Unit Int (recorder 2) Platform.granting Platform.granting_grants (idle 8192)
    rfl (Nat.zero_le _) (consistent_nil _)
  rw [threeTokens_differ.1, threeTokens_differ.2] at equal
  exact absurd equal (by decide)

def twoTokens : GenerationConfig :=
  { maxNewTokens := 2, draftTokensNum := 1, applyChatTemplate := false }

/-- With two tokens in all there is no budget for a round. -/
theorem twoTokens_same : SameAnswers draftingEngine twoTokens none (ascii "a") 8192 := by
  have accepted : Accepted draftingEngine twoTokens none (ascii "a") 8192 [1] := by
    refine ⟨by decide, by decide, by decide, by decide, by decide, by decide, ?_⟩
    intro callback some
    cases some
  apply (lossless_iff (by decide) accepted).mpr
  rintro count ⟨_, len, longer, budget, _⟩
  have two : (request draftingEngine twoTokens none).maxNewTokens = 2 := rfl
  rw [two] at budget
  simp at longer
  simp at budget
  omega

end Example

end XInfer.Lossless
