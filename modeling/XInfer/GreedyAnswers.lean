import XInfer.CacheContent
import XInfer.Lossless
import XInfer.SessionFrames
import XInfer.Continuation

/-!
What `generate` answers where no round begins and nothing throws: the prompt continued by the choices of the
model, up to a stop token, a refusal of the callback or the budget.
-/

namespace XInfer.GreedyAnswers

open Primitives StateException WhileLoop Device DeviceRules Forward ForwardRules TokenRouting Generation SessionRules
  LoopRules CallRules CacheContent SessionFrames Continuation PersistentBuffer

variable {KV Rec Logits : Type}

/-- The choice behind some tokens that are fed to a blank cache. -/
def choice (T : Machine KV Rec Logits) (maxSeqLen : Nat) (slots : Nat → KV) (tokens : List Int) : Int :=
  (((T.pass maxSeqLen false ⟨slots, T.cleared⟩ tokens 0).2.getLast?).map T.argmax).getD (-1)

/-- Whether the callback asks for more behind a token. It does not hear of markers. -/
def asksForMore (R : Request) (tokens : List Int) (tok : Int) : Bool :=
  R.markers.isMarker tok || match R.callback with
    | none => true
    | some callback => match callback (called R (tokens ++ [tok])) with
        | .ok goOn => goOn
        | .error _ => false

/-- A first token that the callback refuses is answered as it stands. -/
def isCleaned (R : Request) : List Int → Bool
  | [first] => asksForMore R [] first
  | _ => true

def answer (R : Request) (promptTokens : Nat) (done : List Int × Bool) : GenerationResult :=
  let routed := R.markers.routeAll done.1
  let shown := if isCleaned R done.1 then cleanUp routed.text routed.reasoningContent
    else (routed.text, routed.reasoningContent)
  { text := shown.1
    reasoningContent := shown.2
    tokenIds := done.1
    promptTokens := promptTokens
    generatedTokens := done.1.length
    finishReason := if done.2 then .length else .stop }

section Frames

/-- The counters of the result. -/
def counts (s : Session KV Rec Logits) : Nat × Nat := (s.promptTokens, s.generatedTokens)

theorem counts_outside : Outside (counts : Session KV Rec Logits → Nat × Nat) :=
  ⟨fun _ _ => rfl, fun _ _ => rfl, fun _ _ => rfl, fun _ _ => rfl⟩

theorem frame_onDevice {α : Type} (program : DeviceM KV Rec Logits α) : Frame counts (onDevice program) :=
  frame_within _ _ fun _ _ => rfl

theorem frame_decodeSingle (B : Backend KV Rec Logits) (P : Platform KV Rec) (R : Request) :
    Frame counts (decodeSingle B P R) := by
  apply frame_bind (frame_read _)
  intro tok
  apply frame_bind (frame_onDevice _)
  intro next
  apply frame_ite (frame_leaves counts_outside _)
  apply frame_bind (frame_emit counts_outside next)
  intro control
  cases control with
  | leave => exact frame_pure _
  | again => exact frame_current counts_outside next

end Frames

section Statements

variable {P : Platform KV Rec} {maxSeqLen rowBytes : Nat} {S : Setting P maxSeqLen rowBytes} {R : Request}
  {reason : FinishReason} {kv : KVCache KV Rec} {tokens : List Int} {tok : Int}

/-- The session behind a token, with the tokens said up to it. -/
def Behind (S : Setting P maxSeqLen rowBytes) (R : Request) (reason : FinishReason) (kv : KVCache KV Rec)
    (done : List Int × Bool) (tok : Int) (control : Control) (s : Session KV Rec Logits) : Prop :=
  control = (if done.2 then .again else .leave) ∧ At S R (if done.2 then reason else .stop) kv done.1 tok s

theorem processToken_asks (new : Int) :
    Triple (fun s : Session KV Rec Logits => s.calls = called R tokens) (processToken R new)
      (fun goOn _ => goOn = asksForMore R tokens new) (fun _ _ => ¬ Willing R) := by
  intro s here
  have told := called_snoc (R := R) tokens new
  simp only [processToken, bind_apply, modify_apply]
  unfold asksForMore
  cases marker : R.markers.isMarker new with
  | true => exact rfl
  | false =>
      cases answer : R.callback with
      | none => exact rfl
      | some callback =>
          have same : s.calls ++ [(R.markers.decodeToken new, new)] = called R (tokens ++ [new]) := by
            simp [told, marker, answer, here]
          simp only [if_neg Bool.false_ne_true, Bool.false_or, bind_apply, modify_apply, read_apply, same]
          cases outcome : callback (called R (tokens ++ [new])) with
          | ok goOn => exact rfl
          | error thrown =>
              intro willing
              obtain ⟨goOn, fine⟩ := willing callback answer (called R (tokens ++ [new]))
              rw [outcome] at fine
              cases fine

/-- The callback is asked once the token is said. -/
theorem processToken_said (willing : Willing R) (fits : Fits maxSeqLen kv) (budget : tokens.length < R.maxNewTokens)
    (new : Int) : Triple (At S R reason kv tokens tok : Session KV Rec Logits → Prop) (processToken R new)
      (fun goOn s => At S R reason kv (tokens ++ [new]) tok s ∧ goOn = asksForMore R tokens new)
      (fun _ _ => False) :=
  triple_conseq (triple_both (processToken_rule fits List.nil_prefix budget new) (processToken_asks new))
    (fun _ here => ⟨here, here.calls⟩) (fun _ _ done => ⟨done.1.1, done.2⟩) fun _ _ failed => failed.2 willing

/-- A token is said unless it ends the answer. -/
theorem emit_behind (willing : Willing R) (fits : Fits maxSeqLen kv) (budget : tokens.length < R.maxNewTokens)
    (new : Int) : Triple (At S R reason kv tokens tok : Session KV Rec Logits → Prop) (emit R new)
      (Behind S R reason kv (heard R.isStop (asksForMore R) tokens new) tok) (fun _ _ => False) := by
  unfold emit
  cases stop : R.isStop new with
  | true =>
      rw [heard_ended stop]
      exact fun s here => ⟨rfl, here.device, here.routing, here.calls, here.current, rfl⟩
  | false =>
      rw [heard_said stop]
      apply triple_bind (processToken_said willing fits budget new)
      rintro goOn s ⟨here, rfl⟩
      cases more : asksForMore R tokens new with
      | true => exact ⟨rfl, here⟩
      | false => exact ⟨rfl, here.device, here.routing, here.calls, here.current, rfl⟩

end Statements

section Loop

variable {T : Machine KV Rec Logits} {P : Platform KV Rec} {maxSeqLen : Nat}
  {S : Setting P maxSeqLen T.config.logitsBytes} {R : Request} {reason : FinishReason} {kv : KVCache KV Rec}
  {promptTokens tokens : List Int} {tok : Int}

/-- The newest token is fed, and the choice behind it is said. -/
theorem decodeSingle_behind (serving : S.serving) (willing : Willing R) (fits : Fits maxSeqLen kv)
    (room : kv.currentSeqLen < maxSeqLen) (known : T.Chooses tok) (budget : tokens.length < R.maxNewTokens) :
    Triple (At S R reason kv tokens tok : Session KV Rec Logits → Prop) (decodeSingle T.backend P R)
      (fun control s =>
        let done := heard R.isStop (asksForMore R) tokens (next T kv tok)
        Behind S R reason (fed T kv tok) done (if done.2 then next T kv tok else tok) control s)
      (fun _ _ => False) := by
  have nonneg : ¬ next T kv tok < 0 := by have := (next_inVocab T kv tok).1; omega
  have step : Triple (At S R reason kv tokens tok : Session KV Rec Logits → Prop)
      (onDevice (singleStep T.backend P .main R.captured tok))
      (fun answer s => At S R reason (fed T kv tok) tokens tok s ∧ answer = next T kv tok) (fun _ _ => False) :=
    triple_conseq (onDevice_plain List.nil_prefix (Nat.le_of_lt budget)
      (singleStep_rule T fits room .main R.captured known.inVocab)) (fun _ here => here) (fun _ _ done => done)
      fun _ _ thrown => thrown.2 serving willing
  unfold decodeSingle
  apply triple_known fun s here => here.current
  apply triple_bind step
  rintro answer s ⟨here, rfl⟩
  rw [if_neg nonneg]
  refine triple_bind (emit_behind willing (fed_fits T fits room tok) budget (next T kv tok)) ?_ s here
  rintro control s ⟨rfl, here⟩
  generalize heard R.isStop (asksForMore R) tokens (next T kv tok) = done at here ⊢
  obtain ⟨said, goOn⟩ := done
  cases goOn with
  | true => exact ⟨rfl, here.device, here.routing, here.calls, rfl, here.finish⟩
  | false => exact ⟨rfl, here⟩

/-- The choice behind a token at the length is the one behind all tokens up to it. -/
theorem next_choice {front : List Int} (content : FedWith T front kv) (width : front.length = kv.currentSeqLen)
    (slots : Nat → KV) (tok : Int) : next T kv tok = choice T kv.maxSeqLen slots (front ++ [tok]) := by
  have agree := content ⟨slots, T.cleared⟩ rfl
  have split := congrArg Prod.snd (T.pass_append kv.maxSeqLen ⟨slots, T.cleared⟩ front [tok] 0)
  rw [Nat.zero_add, width, T.pass_cons, T.pass_nil] at split
  unfold choice
  rw [split, List.getLast?_concat, ← T.forward_logits tok agree]
  rfl

theorem decodeIteration_alone (fits : Fits maxSeqLen kv) (room : kv.currentSeqLen < maxSeqLen)
    (single : begins R kv tokens = false) {s : Session KV Rec Logits} (here : At S R reason kv tokens tok s) :
    decodeIteration T.backend P R s = decodeSingle T.backend P R s := by
  have unfilled : ¬ s.device.kv.maxSeqLen ≤ s.device.kv.currentSeqLen := by
    rw [here.device.cache, fits.size]
    omega
  rw [decodeIteration, bind_apply, read_apply]
  dsimp only
  rw [if_neg unfilled, bind_apply, read_apply]
  dsimp only
  rw [here.begins, single, if_neg Bool.false_ne_true]

/-- From a head of the loop on, the tokens are continued by the choices behind the prompt and themselves. -/
theorem whileLoop_speaks (serving : S.serving) (willing : Willing R) {front : List Int}
    (granted : Granted T S R promptTokens.length front)
    (never : ∀ count, ¬ Asks R promptTokens.length maxSeqLen count) (slots : Nat → KV) (tokens : List Int)
    {fuel left : Nat} (enough : left ≤ fuel) {s : Session KV Rec Logits}
    (committed : Committed T S R promptTokens.length front kv (tokens ++ [tok]) tok s)
    (content : FedWith T (promptTokens ++ tokens) kv) (budget : tokens.length + 1 + left = R.maxNewTokens) :
    ∃ kv' tok' last, whileLoop (unfinished R) (decodeIteration T.backend P R) fuel s = .ok () last ∧
      counts last = counts s ∧
      let done := speak R.isStop (asksForMore R) (fun said => choice T maxSeqLen slots (promptTokens ++ said)) left
        (tokens ++ [tok])
      At S R (if done.2 then .length else .stop) kv' done.1 tok' last := by
  induction left generalizing fuel kv tokens tok s with
  | zero =>
      have full : unfinished R s = false := by
        rw [← Bool.not_eq_true, unfinished_iff committed.here, List.length_append, List.length_singleton]
        omega
      exact ⟨kv, tok, s, while_done fuel s full, rfl, committed.here⟩
  | succ left ih =>
      obtain ⟨fuel, rfl⟩ : ∃ rest, fuel = rest + 1 := ⟨fuel - 1, by omega⟩
      have long : (tokens ++ [tok]).length = tokens.length + 1 := by rw [List.length_append, List.length_singleton]
      have behind := committed.behind
      have window := granted.window
      have room : kv.currentSeqLen < maxSeqLen := by omega
      have more : (tokens ++ [tok]).length < R.maxNewTokens := by omega
      have entered := (unfinished_iff committed.here).mpr more
      have width : (promptTokens ++ tokens).length = kv.currentSeqLen := by
        rw [List.length_append]
        omega
      have single : begins R kv (tokens ++ [tok]) = false := by
        by_contra round
        exact never _ (asks_of_begins granted committed (by simpa using round))
      have alone := decodeIteration_alone committed.fits room single committed.here
      have picked : next T kv tok = choice T maxSeqLen slots (promptTokens ++ (tokens ++ [tok])) := by
        rw [← committed.fits.size, ← List.append_assoc]
        exact next_choice content width slots tok
      have step := decodeSingle_behind serving willing committed.fits room committed.chosen more s committed.here
      cases run : decodeSingle T.backend P R s with
      | error thrown after =>
          rw [run] at step
          exact step.elim
      | ok control after =>
          rw [run] at step
          obtain ⟨rfl, here⟩ := step
          have counted : counts after = counts s := (frame_decodeSingle T.backend P R).ok run
          rw [run] at alone
          cases goes : (heard R.isStop (asksForMore R) (tokens ++ [tok]) (next T kv tok)).2 with
          | true =>
              rw [goes, (heard_goes goes).1] at here
              rw [goes] at alone
              have later : Committed T S R promptTokens.length front (fed T kv tok)
                  ((tokens ++ [tok]) ++ [next T kv tok]) (next T kv tok) after :=
                ⟨here, fed_fits T committed.fits room tok, next_chosen T kv tok,
                  committed.kept.trans (List.prefix_append _ _), by
                    rw [List.length_append, List.length_singleton]
                    dsimp only [fed]
                    omega, snoc_within more _⟩
              have fed := fed_fedWith T content width (by rw [committed.fits.size]; exact room) tok
              rw [List.append_assoc] at fed
              obtain ⟨kv', tok', last, ran, same, done⟩ := ih (tokens ++ [tok]) (Nat.le_of_succ_le_succ enough) later fed (by omega)
              rw [picked] at goes done
              refine ⟨kv', tok', last, (while_again fuel s after entered alone).trans ran, same.trans counted, ?_⟩
              rw [speak_more goes]
              exact done
          | false =>
              rw [goes] at here alone
              refine ⟨fed T kv tok, tok, after, while_leave fuel s after entered alone, counted, ?_⟩
              rw [picked] at goes here
              rw [speak_last goes]
              dsimp only
              rw [goes]
              exact here

end Loop

section Call

variable {T : Machine KV Rec Logits} {P : Platform KV Rec} {maxSeqLen : Nat}
  {S : Setting P maxSeqLen T.config.logitsBytes} {kv : KVCache KV Rec} {promptTokens : List Int} {tok first : Int}

/-- The text is cleaned once the callback has asked for more behind the first token. -/
theorem isCleaned_behind {R : Request} {tokens : List Int} (some' : [first] <+: tokens)
    (asks : asksForMore R [] first = true) : isCleaned R tokens = true := by
  obtain ⟨rest, rfl⟩ := some'
  cases rest with
  | nil => exact asks
  | cons _ _ => rfl

theorem answer_of {R : Request} {reason : FinishReason} {done : List Int × Bool} {s : Session KV Rec Logits}
    (here : At S R reason kv done.1 tok s) (ended : reason = if done.2 then .length else .stop)
    (cleaned : isCleaned R done.1 = true) : finished s = answer R s.promptTokens done := by
  unfold finished answer
  dsimp only [result]
  rw [cleaned, here.tokenIds, here.finish, ended, here.routing]
  rfl

/-- The first token ends the call, or becomes the newest one of a loop. -/
theorem admitFirst_answers {R : Request} (willing : Willing R) (eos : 0 ≤ R.eosTok) (fits : Fits maxSeqLen kv)
    (budget : 0 < R.maxNewTokens) (first : Int) (n : Nat) :
    Triple (fun s : Session KV Rec Logits => At S R .stop kv [] tok s ∧ counts s = (n, 0)) (admitFirst R first)
      (fun reply s =>
        let done := heard R.isStop (asksForMore R) [] first
        if done.2 then reply = none ∧ At S R .length kv [first] first s ∧ counts s = (n, 0)
        else reply = some (answer R n done)) (fun _ _ => False) := by
  have room : ([] : List Int).length < R.maxNewTokens := budget
  unfold admitFirst
  rw [if_neg (by omega)]
  cases stop : R.isStop first with
  | true =>
      rw [heard_ended stop]
      rintro s ⟨here, counted⟩
      obtain ⟨rfl, zero⟩ := Prod.mk.inj counted
      show some (result { s with finishReason := .stop }) = some (answer R s.promptTokens ([], false))
      rw [result, here.routing, zero]
      rfl
  | false =>
      rw [heard_said stop]
      apply triple_then fun s => At S R .stop kv [] first s ∧ counts s = (n, 0)
      · apply triple_modify
        rintro s ⟨here, counted⟩
        exact ⟨⟨here.device, here.routing, here.calls, rfl, here.finish⟩, counted⟩
      · intro _
        have asked : Triple (fun s : Session KV Rec Logits => At S R .stop kv [] first s ∧ counts s = (n, 0))
            (processToken R first)
            (fun goOn s => (At S R .stop kv [first] first s ∧ goOn = asksForMore R [] first) ∧ counts s = (n, 0))
            (fun _ _ => False) :=
          triple_conseq (triple_both (processToken_said willing fits room first)
            (triple_frame (frame_processToken counts_outside first) (fun _ _ same start => same.trans start)
              fun _ _ _ => trivial)) (fun _ start => start) (fun _ _ done => done) fun _ _ failed => failed.1
        apply triple_bind asked
        rintro goOn s ⟨⟨here, rfl⟩, counted⟩
        cases more : asksForMore R [] first with
        | true => exact ⟨rfl, ⟨here.device, here.routing, here.calls, here.current, rfl⟩, counted⟩
        | false =>
            obtain ⟨rfl, zero⟩ := Prod.mk.inj counted
            show some (result { s with generatedTokens := 1, finishReason := .stop }) =
              some (answer R s.promptTokens ([first], false))
            have raw : isCleaned R [first] = false := more
            unfold answer
            rw [raw, result, here.tokenIds, here.routing]
            rfl

/-- The first token is the choice behind the prompt. -/
theorem firstToken_choice (room : promptTokens.length ≤ kv.maxSeqLen) (slots : Nat → KV)
    (chosen : firstToken T kv.maxSeqLen (kv.clear T.cleared).memory promptTokens = some first) :
    first = choice T kv.maxSeqLen slots promptTokens := by
  have blank : (kv.clear T.cleared).memory.Agree 0 ⟨slots, T.cleared⟩ :=
    Memory.agree_zero (kv.clear_recurrent T.cleared)
  have rows := (T.pass_agree promptTokens blank (by omega : 0 + promptTokens.length ≤ kv.maxSeqLen)).2
  unfold firstToken at chosen
  unfold choice
  rw [← rows, chosen]
  rfl

variable (E : Engine) (g : GenerationConfig) (callback : Option TokenCallback)

/-- What the call's own checks let through to the loop. -/
structure Admitted (E : Engine) (g : GenerationConfig) (callback : Option TokenCallback) (config : ModelConfig)
    (maxSeqLen : Nat) (promptTokens : List Int) : Prop where
  checked : refuseOptions E g = none
  nonempty : promptTokens ≠ []
  valid : validateTokens maxSeqLen promptTokens.length g.maxNewTokens = none
  readable : Readable config promptTokens
  eos : 0 ≤ (request E g callback).eosTok

variable {E g callback}

theorem prepareTokens_answers (serving : S.serving) (word : maxSeqLen < 2 ^ 63)
    (willing : Willing (request E g callback))
    (never : ∀ count, ¬ Asks (request E g callback) promptTokens.length maxSeqLen count)
    (admitted : Admitted E g callback T.config maxSeqLen promptTokens) (fits : Fits maxSeqLen kv) (slots : Nat → KV) :
    Triple (fun s : Session KV Rec Logits => At S (request E g callback) .stop kv [] tok s ∧ s.generatedTokens = 0)
      (prepareTokens E T.backend P g callback promptTokens)
      (fun reply s =>
        let R := request E g callback
        let first := choice T maxSeqLen slots promptTokens
        let done := heard R.isStop (asksForMore R) [] first
        if done.2 then reply = none ∧ counts s = (promptTokens.length, 0) ∧
          Granted T S R promptTokens.length [first] ∧
          Committed T S R promptTokens.length [first] (prefilled T kv promptTokens) [first] first s
        else reply = some (answer R promptTokens.length done)) (fun _ _ => False) := by
  obtain ⟨positive, window⟩ := validateTokens_none admitted.valid word g.maxNewTokens_lt
  have room : promptTokens.length ≤ maxSeqLen := by omega
  have budget : 0 < (request E g callback).maxNewTokens := by
    rw [request_maxNewTokens]
    omega
  have filled : Fits maxSeqLen (prefilled T kv promptTokens) := ⟨fits.size, room⟩
  unfold prepareTokens
  rw [if_neg admitted.nonempty]
  apply triple_then fun s => At S (request E g callback) .stop kv [] tok s ∧ counts s = (promptTokens.length, 0)
  · apply triple_modify
    rintro s ⟨here, zero⟩
    exact ⟨⟨here.device, here.routing, here.calls, here.current, here.finish⟩, Prod.ext rfl zero⟩
  · intro _
    apply triple_known fun s start => start.1.device.cache
    rw [fits.size, admitted.valid]
    have prefill : Triple (fun s : Session KV Rec Logits => At S (request E g callback) .stop kv [] tok s ∧
        counts s = (promptTokens.length, 0)) (onDevice
          (prefillPrompt T.backend P promptTokens E.config.prefillChunkSize))
        (fun answer s => (At S (request E g callback) .stop (prefilled T kv promptTokens) [] tok s ∧
          answer = choice T maxSeqLen slots promptTokens ∧ T.Chooses answer) ∧ counts s = (promptTokens.length, 0))
        (fun _ _ => False) := by
      refine triple_conseq (triple_both (onDevice_prefill T fits admitted.nonempty room E.config.prefillChunkSize)
        (triple_frame (frame_onDevice _) (fun _ _ same start => same.trans start) fun _ _ _ => trivial))
        (fun _ start => start) ?_ fun _ _ failed => failed.1.2 serving admitted.readable
      rintro first s ⟨⟨here, chosen⟩ | ⟨_, _, unreadable⟩, counted⟩
      · refine ⟨⟨here, ?_, firstToken_chosen T chosen⟩, counted⟩
        rw [← fits.size]
        exact firstToken_choice (fits.size ▸ room) slots chosen
      · exact absurd admitted.readable unreadable
    apply triple_bind prefill
    rintro first s ⟨⟨here, rfl, picked⟩, counted⟩
    have nonneg : ¬ choice T maxSeqLen slots promptTokens < 0 := by have := picked.inVocab.1; omega
    rw [if_neg nonneg]
    refine triple_conseq (admitFirst_answers willing admitted.eos filled budget _ promptTokens.length)
      (fun _ start => start) ?_ (fun _ _ failed => failed) s ⟨here, counted⟩
    intro reply s done
    dsimp only at done ⊢
    split
    · rename_i more
      rw [if_pos more] at done
      exact ⟨done.1, done.2.2, granted_of_valid T E g callback word (fun count asks => absurd asks (never count))
        admitted.valid _, done.2.1, filled, picked, List.prefix_rfl, rfl, budget⟩
    · rename_i more
      rwa [if_neg more] at done

/-- The whole call, on a platform that serves it. -/
theorem generateSession_answers (serving : S.serving) (word : maxSeqLen < 2 ^ 63)
    (willing : Willing (request E g callback))
    (never : ∀ count, ¬ Asks (request E g callback) promptTokens.length maxSeqLen count)
    (admitted : Admitted E g callback T.config maxSeqLen promptTokens) (fits : Fits maxSeqLen kv) (slots : Nat → KV)
    {prompt : Bytes} {s : Session KV Rec Logits} (tokens : encoded E g prompt s.bpeCache = .ok promptTokens)
    (here : At S (request E g callback) .stop kv [] tok s) (zero : s.generatedTokens = 0) :
    let R := request E g callback
    ∃ last, generateSession E T.backend P prompt g callback s = .ok (answer R promptTokens.length
      (speak R.isStop (asksForMore R) (fun said => choice T maxSeqLen slots (promptTokens ++ said)) R.maxNewTokens []))
      last := by
  intro R
  obtain ⟨positive, window⟩ := validateTokens_none admitted.valid word g.maxNewTokens_lt
  obtain ⟨left, budget⟩ : ∃ left, R.maxNewTokens = left + 1 := by
    refine ⟨g.maxNewTokens.toNat - 1, ?_⟩
    rw [request_maxNewTokens]
    omega
  have after : At S R .stop kv [] tok { s with
      bpeCache := (Tokenizer.encode E.tokenizer (inputText E prompt g) s.bpeCache).2 } :=
    ⟨here.device, here.routing, here.calls, here.current, here.finish⟩
  have prepared := prepareTokens_answers serving word willing never admitted fits slots _ ⟨after, zero⟩
  rw [← prepare_run T E g callback prompt s admitted.checked tokens] at prepared
  unfold generateSession guarded generateBody
  rw [bind_apply]
  cases run : prepare E T.backend P prompt g callback s with
  | error thrown last =>
      rw [run] at prepared
      exact prepared.elim
  | ok reply start =>
      rw [run] at prepared
      dsimp only at prepared ⊢
      let choose := fun said => choice T maxSeqLen slots (promptTokens ++ said)
      have first : choose [] = choice T maxSeqLen slots promptTokens :=
        congrArg (choice T maxSeqLen slots) (List.append_nil promptTokens)
      rw [← first] at prepared
      cases goes : (heard R.isStop (asksForMore R) [] (choose [])).2 with
      | true =>
          rw [if_pos goes] at prepared
          obtain ⟨rfl, counted, granted, committed⟩ := prepared
          have content : FedWith T (promptTokens ++ []) (prefilled T kv promptTokens) := by
            rw [List.append_nil]
            exact prefilled_fedWith T kv (by rw [fits.size]; omega)
          obtain ⟨kv', tok', last, ran, same, said⟩ := whileLoop_speaks serving willing granted never slots []
            (show left ≤ R.maxNewTokens by omega) committed content
            (show 0 + 1 + left = R.maxNewTokens by omega)
          have counted' : last.promptTokens = promptTokens.length := congrArg Prod.fst (same.trans counted)
          let done := speak R.isStop (asksForMore R) choose left [choose []]
          have cleaned : isCleaned R done.1 = true := isCleaned_behind (speak_extends left _) (heard_goes goes).2
          have replied : finished last = answer R last.promptTokens done := answer_of said rfl cleaned
          have loop : decodeLoop T.backend P R start = .ok () last := ran
          refine ⟨last, ?_⟩
          rw [budget, speak_more goes, ← counted']
          dsimp only
          rw [bind_apply, loop]
          dsimp only
          rw [read_apply, replied]
          rfl
      | false =>
          rw [if_neg (by rw [goes]; decide)] at prepared
          obtain rfl := prepared
          rw [budget, speak_last goes]
          exact ⟨start, rfl⟩

end Call

section Example

/-- Asks for a second token, and for no third. -/
def twice : TokenCallback := fun calls => .ok (decide (calls.length < 2))

/-- Four tokens, and no drafts. -/
def letters : GenerationConfig := Lossless.sequentialConfig draftingCall.options

end Example

end XInfer.GreedyAnswers
