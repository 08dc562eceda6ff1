import XInfer.LoopRules

/-!
A whole call of `generate`: what it answers and the device it leaves, whichever way
it ends. A result that an exception was turned into is covered as well.
-/

namespace XInfer.CallRules

open Primitives StateException WhileLoop Device DeviceRules Forward ForwardRules Tokenizer TokenRouting
  Generation SessionRules LoopRules

variable {KV Rec Logits : Type}

section Replies

variable {P : Platform KV Rec} {maxSeqLen rowBytes : Nat} (S : Setting P maxSeqLen rowBytes)
  (R : Request)

/-- What a call answers about the tokens it has emitted. -/
structure Replied (r : GenerationResult) (s : Session KV Rec Logits) : Prop where
  ended : Ended S R [] s
  tokenIds : r.tokenIds = s.routing.tokenIds
  full : S.serving → Willing R → r.finishReason = .length → r.tokenIds.length = R.maxNewTokens
  plain : R.callback = none → r.success = true → (r.text, r.reasoningContent) =
    cleanUp (R.markers.routeAll r.tokenIds).text (R.markers.routeAll r.tokenIds).reasoningContent

/-- Before the first token, and after an exception. -/
structure Refused (s : Session KV Rec Logits) : Prop where
  ended : Ended S R [] s
  excuse : s.finishReason = .stop ∨ (S.serving → ¬ Willing R)

variable {S R} {kv : KVCache KV Rec} {tokens front : List Int} {tok : Int} {s : Session KV Rec Logits}

theorem ended_whole (ended : Ended S R front s) : Ended S R [] s :=
  ⟨ended.sound, ended.routing, ended.calls, List.nil_prefix, ended.budget⟩

theorem thrown_refused (thrown : Thrown S R front s) : Refused S R s :=
  ⟨ended_whole thrown.1, Or.inr thrown.2⟩

theorem at_refused (here : At S R .stop kv tokens tok s) (fits : Fits maxSeqLen kv)
    (budget : tokens.length ≤ R.maxNewTokens) : Refused S R s := by
  have ended := here.ended List.nil_prefix budget (here.device.sound fits) s.finishReason
  exact ⟨ended, Or.inl here.finish⟩

theorem Refused.replied (refused : Refused S R s) (code message : Bytes) :
    Replied S R (failed code message s) s where
  ended := refused.ended
  tokenIds := rfl
  full := by
    intro serving willing length
    rcases refused.excuse with stop | unwilling
    · have both : FinishReason.stop = .length := stop.symm.trans length
      cases both
    · exact absurd willing (unwilling serving)
  plain := fun _ success => by cases success

/-- A result that says `stop`, with the text as it stands in the session. -/
theorem ended_replied (ended : Ended S R front s) (stop : s.finishReason = .stop)
    (plain : R.callback = none → s.routing.tokenIds = []) : Replied S R (result s) s where
  ended := ended_whole ended
  tokenIds := rfl
  full := by
    intro _ _ length
    have both : FinishReason.stop = .length := stop.symm.trans length
    cases both
  plain := by
    intro silent _
    have routing := ended.routing
    rw [plain silent] at routing
    show (s.routing.text, s.routing.reasoningContent) = _
    rw [result, routing]
    rfl

theorem finished_replied {T : Machine KV Rec Logits} {S : Setting P maxSeqLen T.config.logitsBytes}
    (finished : Finished S R front s) : Replied S R (Generation.finished s) s where
  ended := ended_whole finished.1
  tokenIds := rfl
  full := fun _ _ length => finished.2 length
  plain := by
    intro _ _
    have routing := finished.1.routing
    show cleanUp s.routing.text s.routing.reasoningContent = _
    rw [routing]
    rfl

end Replies

section Call

variable (T : Machine KV Rec Logits) {P : Platform KV Rec} {maxSeqLen : Nat}
  {S : Setting P maxSeqLen T.config.logitsBytes} {R : Request} {promptLen : Nat}
  {kv : KVCache KV Rec} {tok first : Int}

/-- A request that no token and no answer of its callback can end. -/
structure Admits (R : Request) : Prop where
  eos : 0 ≤ R.eosTok
  agreeable : Agreeable R
  going : ∀ logits, R.isStop (T.argmax logits) = false

/-- Nothing keeps the request from its loop. -/
structure Accepts (S : Setting P maxSeqLen T.config.logitsBytes) (R : Request)
    (g : GenerationConfig) (tokenSeq : List Int) : Prop where
  serving : S.serving
  nonempty : tokenSeq ≠ []
  valid : validateTokens maxSeqLen tokenSeq.length g.maxNewTokens = none
  readable : Readable T.config tokenSeq
  admits : Admits T R

/-- What the code before the loop leaves: a result to return, or a head of the loop
with its first token. -/
def Prepared (S : Setting P maxSeqLen T.config.logitsBytes) (R : Request) (g : GenerationConfig)
    (kv : KVCache KV Rec) (tokenSeq : List Int) :
    Option GenerationResult → Session KV Rec Logits → Prop
  | some early, s => Replied S R early s ∧ ¬ Accepts T S R g tokenSeq
  | none, s => ∃ first, Granted T S R tokenSeq.length [first] ∧
      firstToken T kv.maxSeqLen (kv.clear T.cleared).memory tokenSeq = some first ∧
      Committed T S R tokenSeq.length [first] (prefilled T kv tokenSeq) [first] first s

/-- The first token is emitted before the finish reason becomes `length`. -/
theorem admitFirst_rule (fits : Fits maxSeqLen kv) (positive : 0 < R.maxNewTokens)
    (chosen : T.Chooses first) :
    Triple (At S R .stop kv [] tok : Session KV Rec Logits → Prop) (admitFirst R first)
      (fun answer s => match answer with
        | some early => Replied S R early s ∧ ¬ Admits T R
        | none => At S R .length kv [first] first s)
      (fun _ s => Refused S R s ∧ (S.serving → ¬ Admits T R)) := by
  have empty : ([] : List Int).length ≤ R.maxNewTokens := Nat.zero_le _
  have room : ([] : List Int).length < R.maxNewTokens := positive
  have one : [first].length ≤ R.maxNewTokens := positive
  unfold admitFirst
  apply triple_ite
  · intro missing s here
    exact ⟨(at_refused here fits empty).replied _ _, fun admits => absurd admits.eos (by omega)⟩
  · intro _
    apply triple_ite
    · intro stop s here
      have ended := here.ended List.nil_prefix empty (here.device.sound fits) .stop
      refine ⟨ended_replied ended rfl fun _ => here.tokenIds, fun admits => ?_⟩
      obtain ⟨logits, rfl⟩ := chosen
      rw [admits.going logits] at stop
      cases stop
    · intro _
      apply triple_then (At S R .stop kv [] first)
      · apply triple_modify
        intro s here
        exact ⟨here.device, here.routing, here.calls, rfl, here.finish⟩
      · intro _
        have processed : Triple (At S R .stop kv [] first : Session KV Rec Logits → Prop)
            (processToken R first)
            (fun goOn s => At S R .stop kv [first] first s ∧ (Agreeable R → goOn = true))
            (fun _ s => Refused S R s ∧ (S.serving → ¬ Admits T R)) :=
          triple_conseq (processToken_rule fits List.nil_prefix room first) (fun _ here => here)
            (fun _ _ done => done) fun _ _ thrown =>
              ⟨thrown_refused thrown, fun serving admits => thrown.2 serving admits.agreeable.willing⟩
        apply triple_bind processed
        rintro goOn s ⟨here, asked⟩
        cases goOn with
        | true => exact ⟨here.device, here.routing, here.calls, here.current, rfl⟩
        | false =>
            have ended := here.ended List.nil_prefix one (here.device.sound fits) .stop
            refine ⟨ended_replied ⟨ended.sound, ended.routing, ended.calls, ended.kept, ended.budget⟩ rfl
              fun none => ?_, fun admits => ?_⟩
            · have agreeable : Agreeable R := by
                intro callback some
                rw [none] at some
                cases some
              cases asked agreeable
            · cases asked admits.agreeable

/-- What `validate_tokens` has checked once it finds no fault; the sums do not wrap,
since a cache holds fewer than 2^63 rows and a budget is an `int`. -/
theorem validateTokens_none {limit promptTokens : Nat} {maxNewTokens : Int}
    (valid : validateTokens limit promptTokens maxNewTokens = none) (word : limit < 2 ^ 63)
    (int : maxNewTokens < 2 ^ 31) : 0 < maxNewTokens ∧ promptTokens + maxNewTokens.toNat ≤ limit := by
  unfold validateTokens at valid
  split at valid
  · cases valid
  · split at valid
    · cases valid
    · rename_i positive prompt
      have small : promptTokens + maxNewTokens.toNat < 2 ^ 64 := by omega
      rw [sizeAdd_of_lt small] at valid
      split at valid
      · cases valid
      · exact ⟨by omega, by omega⟩

variable (E : Engine) (g : GenerationConfig) (callback : Option TokenCallback)

@[simp] theorem request_maxNewTokens : (request E g callback).maxNewTokens = g.maxNewTokens.toNat := rfl

theorem request_draftN_pos : 0 < (request E g callback).draftN := by
  dsimp only [request]
  generalize (if 0 < g.draftTokensNum then g.draftTokensNum.toNat else E.config.draftTokensNum) = chosen
  split
  · decide
  · exact Nat.pos_of_ne_zero ‹_›

/-- The rounds that a request may begin verify as many rows as the setting allows. -/
def Permits (S : Setting P maxSeqLen T.config.logitsBytes) (promptLen : Nat) : Prop :=
  ∀ count, Asks (request E g callback) promptLen maxSeqLen count → S.requests count

theorem granted_of_valid {tokenSeq : List Int} (word : maxSeqLen < 2 ^ 63)
    (permits : Permits T E g callback S tokenSeq.length)
    (valid : validateTokens maxSeqLen tokenSeq.length g.maxNewTokens = none) (first : Int) :
    Granted T S (request E g callback) tokenSeq.length [first] where
  started := List.cons_ne_nil _ _
  drafting := request_draftN_pos E g callback
  window := (validateTokens_none valid word g.maxNewTokens_lt).2
  asks := permits

theorem onDevice_prefill (fits : Fits maxSeqLen kv) {tokenSeq : List Int} (nonempty : tokenSeq ≠ [])
    (room : tokenSeq.length ≤ maxSeqLen) (chunkSize : Nat) :
    Triple (At S R .stop kv [] tok : Session KV Rec Logits → Prop)
      (onDevice (prefillPrompt T.backend P tokenSeq chunkSize))
      (fun answer s =>
        (At S R .stop (prefilled T kv tokenSeq) [] tok s ∧
          firstToken T kv.maxSeqLen (kv.clear T.cleared).memory tokenSeq = some answer) ∨
        (At S R .stop kv [] tok s ∧ answer = -1 ∧ ¬ Readable T.config tokenSeq))
      (fun _ s => Refused S R s ∧ (S.serving → ¬ Readable T.config tokenSeq)) := by
  have prefill : Triple (Holds S kv) (prefillPrompt T.backend P tokenSeq chunkSize) _ _ :=
    prefillPrompt_rule T fits nonempty room chunkSize
  apply triple_within
  rintro s here d rfl
  have run := prefill s.device here.device
  cases done : prefillPrompt T.backend P tokenSeq chunkSize s.device with
  | ok answer d =>
      rw [done] at run
      rcases run with ⟨_, holds, chosen, _⟩ | ⟨unreadable, holds, refused⟩
      · exact Or.inl ⟨here.onto holds, chosen⟩
      · exact Or.inr ⟨here.onto holds, refused, unreadable⟩
  | error thrown d =>
      rw [done] at run
      rcases run with ⟨unreadable, holds⟩ | broken
      · exact ⟨at_refused (here.onto holds) fits (Nat.zero_le _), fun _ => unreadable⟩
      · exact ⟨thrown_refused (here.thrown List.nil_prefix (Nat.zero_le _) broken.sound
          fun serving => absurd serving broken.unserved), fun serving => absurd serving broken.unserved⟩

theorem prepareTokens_rule (word : maxSeqLen < 2 ^ 63) {tokenSeq : List Int}
    (permits : Permits T E g callback S tokenSeq.length) (fits : Fits maxSeqLen kv) :
    Triple (At S (request E g callback) .stop kv [] tok : Session KV Rec Logits → Prop)
      (prepareTokens E T.backend P g callback tokenSeq)
      (Prepared T S (request E g callback) g kv tokenSeq)
      (fun _ s => Refused S (request E g callback) s ∧
        ¬ Accepts T S (request E g callback) g tokenSeq) := by
  have refuse : ∀ {s : Session KV Rec Logits}, At S (request E g callback) .stop kv [] tok s →
      ∀ code message, Replied S (request E g callback) (failed code message s) s :=
    fun here code message => (at_refused here fits (Nat.zero_le _)).replied code message
  unfold prepareTokens
  by_cases empty : tokenSeq = []
  · rw [if_pos empty]
    exact fun s here => ⟨refuse here _ _, fun accepts => accepts.nonempty empty⟩
  · rw [if_neg empty]
    apply triple_then (At S (request E g callback) .stop kv [] tok)
    · apply triple_modify
      intro s here
      exact ⟨here.device, here.routing, here.calls, here.current, here.finish⟩
    · intro _
      apply triple_known fun s here => here.device.cache
      rw [fits.size]
      cases valid : validateTokens maxSeqLen tokenSeq.length g.maxNewTokens with
      | some message =>
          refine fun s here => ⟨refuse here _ _, fun accepts => ?_⟩
          rw [accepts.valid] at valid
          cases valid
      | none =>
          obtain ⟨positive, window⟩ := validateTokens_none valid word g.maxNewTokens_lt
          have budget : 0 < (request E g callback).maxNewTokens := by
            rw [request_maxNewTokens]
            omega
          have prefill : Triple (At S (request E g callback) .stop kv [] tok) _ _ _ :=
            onDevice_prefill T fits empty (by omega) E.config.prefillChunkSize
          apply triple_bind (triple_conseq prefill (fun _ here => here) (fun _ _ done => done)
            fun _ _ refused => ⟨refused.1, fun accepts => refused.2 accepts.serving accepts.readable⟩)
          rintro first s (⟨here, chosen⟩ | ⟨here, rfl, unreadable⟩)
          · have picked := firstToken_chosen T chosen
            have filled : Fits maxSeqLen (prefilled T kv tokenSeq) :=
              ⟨fits.size, by dsimp only [prefilled]; omega⟩
            have nonneg : ¬ first < 0 := by have := picked.inVocab.1; omega
            rw [if_neg nonneg]
            refine triple_conseq (admitFirst_rule T filled budget picked) (fun _ start => start) ?_
              (fun _ _ refused => ⟨refused.1, fun accepts => refused.2 accepts.serving accepts.admits⟩)
              s here
            intro answer s done
            cases answer with
            | some early => exact ⟨done.1, fun accepts => done.2 accepts.admits⟩
            | none => exact ⟨first, granted_of_valid T E g callback word permits valid first, chosen,
                done, filled, picked, List.prefix_rfl, rfl, budget⟩
          · exact ⟨refuse here _ _, fun accepts => unreadable accepts.readable⟩

theorem reset_rule : Triple (Sound S) (reset E T.backend P) (fun _ => Sound S) (fun _ => Sound S) := by
  intro d sound
  have cleared : Triple (Holds S d.kv) (clear T.backend P)
      (fun _ => Holds S (d.kv.clear T.cleared)) (fun _ => Sound S) :=
    triple_conseq (clear_rule T sound.cache) (fun _ holds => holds) (fun _ _ holds => holds)
      fun _ _ broken => broken.sound
  refine triple_bind cleared (fun _ => ?_) d sound.holds
  intro d holds
  have main := holds.setArena .main (S.reset_sized .main _ (holds.arenas .main))
  have draft := main.setArena .draft (S.reset_sized .draft _ (main.arenas .draft))
  have fits := sound.cache.clear T.cleared
  cases initialized : E.draftInitialized with
  | true => simpa [reset, initialized, bind_apply, resetArena] using draft.sound fits
  | false => simpa [reset, initialized, bind_apply, resetArena] using main.sound fits

variable (prompt : Bytes)

/-- The tokens of the prompt, as the call encodes it. -/
def encoded (cache : BpeCache) : Except Exn (List Int) :=
  (encode E.tokenizer (inputText E prompt g) cache).1

/-- The encoding runs first and touches the memo table only. -/
theorem prepare_run {tokenSeq : List Int} (s : Session KV Rec Logits)
    (checked : refuseOptions E g = none) (tokens : encoded E g prompt s.bpeCache = .ok tokenSeq) :
    prepare E T.backend P prompt g callback s = prepareTokens E T.backend P g callback tokenSeq
      { s with bpeCache := (encode E.tokenizer (inputText E prompt g) s.bpeCache).2 } := by
  unfold encoded at tokens
  simp only [prepare, checked, bind_apply, encodePrompt, tokens]

theorem prepare_rule (word : maxSeqLen < 2 ^ 63) (fits : Fits maxSeqLen kv) {cache : BpeCache}
    (permits : ∀ tokenSeq, encoded E g prompt cache = .ok tokenSeq →
      Permits T E g callback S tokenSeq.length) :
    Triple (fun s : Session KV Rec Logits => At S (request E g callback) .stop kv [] tok s ∧
        s.bpeCache = cache) (prepare E T.backend P prompt g callback)
      (fun answer s => match answer with
        | some early => Replied S (request E g callback) early s
        | none => ∃ tokenSeq, encoded E g prompt cache = .ok tokenSeq ∧
            Prepared T S (request E g callback) g kv tokenSeq none s)
      (fun _ => Refused S (request E g callback)) := by
  rintro s ⟨here, rfl⟩
  have after : At S (request E g callback) .stop kv [] tok
      { s with bpeCache := (encode E.tokenizer (inputText E prompt g) s.bpeCache).2 } :=
    ⟨here.device, here.routing, here.calls, here.current, here.finish⟩
  cases checked : refuseOptions E g with
  | some refusal =>
      have run : prepare E T.backend P prompt g callback s =
          .ok (some (failed refusal.1 refusal.2 s)) s := by
        simp only [prepare, checked, read_apply]
      rw [run]
      exact (at_refused here fits (Nat.zero_le _)).replied _ _
  | none =>
      cases tokens : encoded E g prompt s.bpeCache with
      | error thrown =>
          have same := tokens
          unfold encoded at same
          simp only [prepare, checked, bind_apply, encodePrompt, same]
          exact at_refused after fits (Nat.zero_le _)
      | ok tokenSeq =>
          rw [prepare_run T E g callback prompt s checked tokens]
          refine triple_conseq (prepareTokens_rule T E g callback word (permits tokenSeq tokens) fits)
            (fun _ start => start) ?_ (fun _ _ refused => refused.1) _ after
          intro answer s done
          cases answer with
          | some early => exact done.1
          | none => exact ⟨tokenSeq, rfl, done⟩

/-- A request that nothing keeps from its loop begins it. -/
theorem prepare_begins (word : maxSeqLen < 2 ^ 63) (fits : Fits maxSeqLen kv) {tokenSeq : List Int}
    {s : Session KV Rec Logits} (here : At S (request E g callback) .stop kv [] tok s)
    (checked : refuseOptions E g = none) (tokens : encoded E g prompt s.bpeCache = .ok tokenSeq)
    (permits : Permits T E g callback S tokenSeq.length)
    (accepts : Accepts T S (request E g callback) g tokenSeq) :
    ∃ start, prepare E T.backend P prompt g callback s = .ok none start ∧
      Prepared T S (request E g callback) g kv tokenSeq none start := by
  have after : At S (request E g callback) .stop kv [] tok
      { s with bpeCache := (encode E.tokenizer (inputText E prompt g) s.bpeCache).2 } :=
    ⟨here.device, here.routing, here.calls, here.current, here.finish⟩
  have run := prepareTokens_rule T E g callback word permits fits _ after
  rw [prepare_run T E g callback prompt s checked tokens]
  cases done : prepareTokens E T.backend P g callback tokenSeq
      { s with bpeCache := (encode E.tokenizer (inputText E prompt g) s.bpeCache).2 } with
  | error thrown last =>
      rw [done] at run
      exact absurd accepts run.2
  | ok answer start =>
      rw [done] at run
      cases answer with
      | some early => exact absurd accepts run.2
      | none => exact ⟨start, rfl, run⟩

theorem generateBody_rule (word : maxSeqLen < 2 ^ 63) (fits : Fits maxSeqLen kv) {cache : BpeCache}
    (permits : ∀ tokenSeq, encoded E g prompt cache = .ok tokenSeq →
      Permits T E g callback S tokenSeq.length) :
    Triple (fun s : Session KV Rec Logits => At S (request E g callback) .stop kv [] tok s ∧
        s.bpeCache = cache) (generateBody E T.backend P prompt g callback)
      (Replied S (request E g callback)) (fun _ => Refused S (request E g callback)) := by
  apply triple_bind (prepare_rule T E g callback prompt word fits permits)
  rintro (_ | early) s prepared
  · obtain ⟨tokenSeq, _, first, granted, _, committed⟩ := prepared
    exact triple_bind (triple_conseq (decodeLoop_rule granted) (fun _ start => start)
      (fun _ _ done => done) fun _ _ thrown => thrown_refused thrown)
      (fun _ s finished => finished_replied finished) _ ⟨_, _, _, committed⟩
  · exact prepared

theorem generateSession_rule (word : maxSeqLen < 2 ^ 63) (fits : Fits maxSeqLen kv) {cache : BpeCache}
    (permits : ∀ tokenSeq, encoded E g prompt cache = .ok tokenSeq →
      Permits T E g callback S tokenSeq.length) :
    Triple (fun s : Session KV Rec Logits => At S (request E g callback) .stop kv [] tok s ∧
        s.bpeCache = cache) (generateSession E T.backend P prompt g callback)
      (Replied S (request E g callback)) (fun _ s => Sound S s.device) := by
  apply triple_guarded (generateBody_rule T E g callback prompt word fits permits)
  intro thrown
  have restored : Triple (Refused S (request E g callback) : Session KV Rec Logits → Prop)
      (onDevice (reset E T.backend P)) (fun _ => Refused S (request E g callback))
      (fun _ s => Sound S s.device) := by
    apply triple_within
    rintro s ⟨ended, excuse⟩ d rfl
    have run := reset_rule T E s.device ended.sound
    cases done : reset E T.backend P s.device with
    | error thrown d => rwa [done] at run
    | ok value d =>
        rw [done] at run
        exact ⟨⟨run, ended.routing, ended.calls, ended.kept, ended.budget⟩, excuse⟩
  exact triple_bind restored fun _ s refused => refused.replied _ _

/-- The state a call begins in. -/
theorem at_enter (runtime : Runtime KV Rec Logits)
    (arenas : ∀ owner, S.sized owner (runtime.device.arena owner)) :
    At S R .stop runtime.device.kv [] 0 (enter runtime) where
  device := ⟨rfl, arenas, fun event member => by cases member⟩
  routing := rfl
  calls := by simp [called, Markers.passed, enter]
  current := rfl
  finish := rfl

/-- One call on an engine whose cache and arenas are sound: it leaves them sound
again, and what it answers agrees with the session it ends in. -/
theorem generate_rule (word : maxSeqLen < 2 ^ 63) (runtime : Runtime KV Rec Logits)
    (fits : Fits maxSeqLen runtime.device.kv)
    (arenas : ∀ owner, S.sized owner (runtime.device.arena owner))
    (permits : ∀ tokenSeq, encoded E g prompt runtime.bpeCache = .ok tokenSeq →
      Permits T E g callback S tokenSeq.length) :
    Sound S (generate E T.backend P prompt g callback runtime).2.device ∧
      ∀ r, (generate E T.backend P prompt g callback runtime).1 = .ok r →
        ∃ s, leave s = (generate E T.backend P prompt g callback runtime).2 ∧
          Replied S (request E g callback) r s := by
  have run := generateSession_rule T E g callback prompt word fits permits (enter runtime)
    ⟨at_enter T runtime arenas, rfl⟩
  unfold generate
  cases done : generateSession E T.backend P prompt g callback (enter runtime) with
  | ok r s =>
      rw [done] at run
      refine ⟨run.ended.sound, ?_⟩
      rintro _ ⟨⟩
      exact ⟨s, rfl, run⟩
  | error thrown s =>
      rw [done] at run
      refine ⟨run, ?_⟩
      rintro _ ⟨⟩

end Call

end XInfer.CallRules
