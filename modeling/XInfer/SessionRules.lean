import XInfer.ForwardRules
import XInfer.Generation

/-!
What the statements of the decode loop do to a session, as triples. `At` is the
state between two of them: the cache, the tokens emitted so far and the token to be
fed next. A statement that ends the loop leaves the session `Stopped`, and one that
throws leaves it `Thrown`; both keep every token of the `front` they began with.
-/

namespace XInfer.SessionRules

open Primitives StateException WhileLoop Device DeviceRules Forward ForwardRules TokenRouting Generation

variable {KV Rec Logits : Type}

/-- The callback has been told of every token but the markers. -/
def called (R : Request) (tokens : List Int) : List (Bytes × Int) :=
  if R.callback.isSome then R.markers.passed tokens else []

/-- A callback that throws nothing. -/
def Willing (R : Request) : Prop :=
  ∀ callback, R.callback = some callback → ∀ calls, ∃ goOn, callback calls = .ok goOn

/-- A callback that always asks for more. -/
def Agreeable (R : Request) : Prop :=
  ∀ callback, R.callback = some callback → ∀ calls, callback calls = .ok true

theorem Agreeable.willing {R : Request} (agreeable : Agreeable R) : Willing R :=
  fun callback answer calls => ⟨true, agreeable callback answer calls⟩

section Assertions

variable (T : Machine KV Rec Logits) {P : Platform KV Rec} {maxSeqLen rowBytes : Nat} (S : Setting P maxSeqLen rowBytes)
  (R : Request)

structure At (reason : FinishReason) (kv : KVCache KV Rec) (tokens : List Int) (tok : Int) (s : Session KV Rec Logits) :
    Prop where
  device : Holds S kv s.device
  routing : s.routing = R.markers.routeAll tokens
  calls : s.calls = called R tokens
  current : s.currentTok = tok
  finish : s.finishReason = reason

structure Ended (front : List Int) (s : Session KV Rec Logits) : Prop where
  sound : Sound S s.device
  routing : s.routing = R.markers.routeAll s.routing.tokenIds
  calls : s.calls = called R s.routing.tokenIds
  kept : front <+: s.routing.tokenIds
  budget : s.routing.tokenIds.length ≤ R.maxNewTokens

/-- An agreeable callback leaves a chosen stop token as the only cause. -/
structure Stopped (front : List Int) (s : Session KV Rec Logits) : Prop where
  ended : Ended S R front s
  finish : s.finishReason = .stop
  cause : Agreeable R → ∃ logits, R.isStop (T.argmax logits) = true

def Thrown (front : List Int) (s : Session KV Rec Logits) : Prop :=
  Ended S R front s ∧ (S.serving → ¬ Willing R)

variable {T S R} {reason : FinishReason} {kv : KVCache KV Rec} {front tokens : List Int} {tok : Int}
  {s : Session KV Rec Logits}

theorem At.tokenIds (here : At S R reason kv tokens tok s) : s.routing.tokenIds = tokens := by
  rw [here.routing, Markers.routeAll_tokenIds]

theorem At.onto (here : At S R reason kv tokens tok s) {after : KVCache KV Rec}
    {d : Device KV Rec Logits} (holds : Holds S after d) :
    At S R reason after tokens tok { s with device := d } :=
  ⟨holds, here.routing, here.calls, here.current, here.finish⟩

/-- Whatever has become of the device and the finish reason. -/
theorem At.ended (here : At S R reason kv tokens tok s) (kept : front <+: tokens)
    (budget : tokens.length ≤ R.maxNewTokens) {d : Device KV Rec Logits} (sound : Sound S d)
    (reason : FinishReason) : Ended S R front { s with device := d, finishReason := reason } := by
  have same := here.tokenIds
  refine ⟨sound, ?_, ?_, ?_, ?_⟩ <;> dsimp only <;> rw [same]
  · exact here.routing
  · exact here.calls
  · exact kept
  · exact budget

theorem At.stop (here : At S R reason kv tokens tok s) (fits : Fits maxSeqLen kv)
    (kept : front <+: tokens) (budget : tokens.length ≤ R.maxNewTokens)
    (cause : Agreeable R → ∃ logits, R.isStop (T.argmax logits) = true) :
    Stopped T S R front { s with finishReason := .stop } :=
  ⟨here.ended kept budget (here.device.sound fits) .stop, rfl, cause⟩

theorem At.thrown (here : At S R reason kv tokens tok s) (kept : front <+: tokens)
    (budget : tokens.length ≤ R.maxNewTokens) {d : Device KV Rec Logits} (sound : Sound S d)
    (excuse : S.serving → ¬ Willing R) : Thrown S R front { s with device := d } := by
  have ended := here.ended kept budget sound s.finishReason
  exact ⟨ended, excuse⟩

theorem snoc_within {limit : Nat} (budget : tokens.length < limit) (new : Int) :
    (tokens ++ [new]).length ≤ limit := by
  rw [List.length_append, List.length_singleton]
  omega

theorem called_snoc (tokens : List Int) (tok : Int) : called R (tokens ++ [tok]) =
    called R tokens ++
      if R.callback.isSome && !R.markers.isMarker tok then [(R.markers.decodeToken tok, tok)] else [] := by
  unfold called
  cases R.callback.isSome <;> cases marker : R.markers.isMarker tok <;>
    simp [Markers.passed_snoc, marker]

end Assertions

section Statements

variable {P : Platform KV Rec} {maxSeqLen rowBytes : Nat} {S : Setting P maxSeqLen rowBytes}
  {R : Request} {reason : FinishReason} {kv : KVCache KV Rec} {front tokens : List Int} {tok : Int}

/-- A device operation within the loop. -/
theorem onDevice_rule {α : Type} {program : DeviceM KV Rec Logits α} {after : KVCache KV Rec}
    {before : Device KV Rec Logits → Prop} {answers : α → Device KV Rec Logits → Prop}
    (kept : front <+: tokens) (budget : tokens.length ≤ R.maxNewTokens)
    (rule : Triple (fun d => Holds S kv d ∧ before d) program
      (fun value d => Holds S after d ∧ answers value d) (fun _ => Broken S)) :
    Triple (fun s => At S R reason kv tokens tok s ∧ before s.device) (onDevice program)
      (fun value s => At S R reason after tokens tok s ∧ answers value s.device)
      (fun _ => Thrown S R front) := by
  apply triple_within
  rintro s ⟨here, seen⟩ d rfl
  have run := rule s.device ⟨here.device, seen⟩
  cases done : program s.device with
  | ok value d =>
      rw [done] at run
      exact ⟨here.onto run.1, run.2⟩
  | error thrown d =>
      rw [done] at run
      exact here.thrown kept budget run.sound fun serving => absurd serving run.unserved

/-- The same without a view of the device. -/
theorem onDevice_plain {α : Type} {program : DeviceM KV Rec Logits α} {after : KVCache KV Rec}
    {answer : α → Prop} (kept : front <+: tokens) (budget : tokens.length ≤ R.maxNewTokens)
    (rule : Triple (Holds S kv) program (fun value d => Holds S after d ∧ answer value)
      (fun _ => Broken S)) :
    Triple (At S R reason kv tokens tok) (onDevice program)
      (fun value s => At S R reason after tokens tok s ∧ answer value) (fun _ => Thrown S R front) := by
  have viewed : Triple (fun d => Holds S kv d ∧ True) program
      (fun value d => Holds S after d ∧ answer value) (fun _ => Broken S) :=
    fun d start => rule d start.1
  exact fun s here => onDevice_rule kept budget viewed s ⟨here, trivial⟩

/-- The callback hears of the token unless it is a marker. -/
theorem processToken_rule (fits : Fits maxSeqLen kv) (kept : front <+: tokens)
    (budget : tokens.length < R.maxNewTokens) (new : Int) :
    Triple (At S R reason kv tokens tok : Session KV Rec Logits → Prop) (processToken R new)
      (fun goOn s => At S R reason kv (tokens ++ [new]) tok s ∧ (Agreeable R → goOn = true))
      (fun _ => Thrown S R front) := by
  intro s here
  have routed : R.markers.route s.routing new = R.markers.routeAll (tokens ++ [new]) := by
    rw [here.routing, Markers.routeAll_snoc]
  have grown : front <+: tokens ++ [new] := kept.trans (List.prefix_append _ _)
  have within : (tokens ++ [new]).length ≤ R.maxNewTokens := snoc_within budget new
  have told := called_snoc (R := R) tokens new
  simp only [processToken, bind_apply, modify_apply]
  cases marker : R.markers.isMarker new with
  | true =>
      have same : s.calls = called R (tokens ++ [new]) := by simp [told, marker, here.calls]
      exact ⟨⟨here.device, routed, same, here.current, here.finish⟩, fun _ => rfl⟩
  | false =>
      cases answer : R.callback with
      | none =>
          have same : s.calls = called R (tokens ++ [new]) := by simp [told, answer, here.calls]
          exact ⟨⟨here.device, routed, same, here.current, here.finish⟩, fun _ => rfl⟩
      | some callback =>
          have same : s.calls ++ [(R.markers.decodeToken new, new)] = called R (tokens ++ [new]) := by
            simp [told, marker, answer, here.calls]
          have after : At S R reason kv (tokens ++ [new]) tok { s with
              routing := R.markers.route s.routing new
              calls := s.calls ++ [(R.markers.decodeToken new, new)] } :=
            ⟨here.device, routed, same, here.current, here.finish⟩
          cases outcome : callback (s.calls ++ [(R.markers.decodeToken new, new)]) with
          | ok goOn =>
              have asked : Agreeable R → goOn = true := by
                intro agreeable
                rw [agreeable callback answer] at outcome
                exact (Except.ok.inj outcome).symm
              simpa [bind_apply, outcome] using ⟨after, asked⟩
          | error thrown =>
              have unwilling : ¬ Willing R := by
                intro willing
                obtain ⟨goOn, fine⟩ := willing callback answer _
                rw [outcome] at fine
                cases fine
              have ended := after.thrown grown within (here.device.sound fits) fun _ => unwilling
              simpa [bind_apply, outcome] using ended

variable (T : Machine KV Rec Logits)

/-- What one statement of the loop leaves: more to come, or a stopped generation. -/
def Goes (S : Setting P maxSeqLen rowBytes) (R : Request) (front : List Int)
    (goes : Session KV Rec Logits → Prop) : Control → Session KV Rec Logits → Prop
  | .again => goes
  | .leave => Stopped T S R front

/-- Once a statement has stopped the generation, the rest is skipped. -/
theorem goes_bind {program next : SessionM KV Rec Logits Control}
    {before middle goes : Session KV Rec Logits → Prop} {fail : Exn → Session KV Rec Logits → Prop}
    (first : Triple before program (Goes T S R front middle) fail)
    (second : Triple middle next (Goes T S R front goes) fail) :
    Triple before (do
      match ← program with
      | .leave => pure .leave
      | .again => next) (Goes T S R front goes) fail := by
  apply triple_bind first
  intro control
  cases control with
  | leave => exact triple_pure _ fun s stopped => stopped
  | again => exact second

/-- A token that is emitted and does not end the generation is no stop token. -/
theorem emit_rule (fits : Fits maxSeqLen kv) (kept : front <+: tokens)
    (budget : tokens.length < R.maxNewTokens) {new : Int} (chosen : T.Chooses new) :
    Triple (At S R reason kv tokens tok : Session KV Rec Logits → Prop) (emit R new)
      (Goes T S R front fun s => At S R reason kv (tokens ++ [new]) tok s ∧ R.isStop new = false)
      (fun _ => Thrown S R front) := by
  have grown : front <+: tokens ++ [new] := kept.trans (List.prefix_append _ _)
  have within : (tokens ++ [new]).length ≤ R.maxNewTokens := snoc_within budget new
  unfold emit
  cases stop : R.isStop new with
  | true =>
      obtain ⟨logits, rfl⟩ := chosen
      exact fun s here => here.stop fits kept (Nat.le_of_lt budget) fun _ => ⟨logits, stop⟩
  | false =>
      apply triple_bind (processToken_rule fits kept budget new)
      rintro goOn s ⟨here, asked⟩
      cases goOn with
      | true => exact ⟨here, rfl⟩
      | false =>
          refine here.stop fits grown within fun agreeable => ?_
          cases asked agreeable

theorem emitAll_rule (fits : Fits maxSeqLen kv) {new : List Int}
    (chosen : ∀ tok ∈ new, T.Chooses tok) (kept : front <+: tokens)
    (budget : tokens.length + new.length ≤ R.maxNewTokens) :
    Triple (At S R reason kv tokens tok : Session KV Rec Logits → Prop) (emitAll R new)
      (Goes T S R front fun s => At S R reason kv (tokens ++ new) tok s) (fun _ => Thrown S R front) := by
  induction new generalizing tokens with
  | nil =>
      rw [List.append_nil]
      exact triple_pure _ fun s here => here
  | cons first rest ih =>
      rw [List.length_cons] at budget
      apply goes_bind T (emit_rule T fits kept (by omega) (chosen first List.mem_cons_self))
      have grown : front <+: tokens ++ [first] := kept.trans (List.prefix_append _ _)
      have later := ih (fun tok member => chosen tok (List.mem_cons_of_mem first member)) grown (by
        rw [List.length_append]
        simp only [List.length_singleton]
        omega)
      rw [List.append_assoc, List.singleton_append] at later
      exact fun s here => later s here.1

end Statements

section Iterations

variable (T : Machine KV Rec Logits) {P : Platform KV Rec} {maxSeqLen : Nat}
  {S : Setting P maxSeqLen T.config.logitsBytes} {R : Request} {reason : FinishReason}
  {kv : KVCache KV Rec} {front tokens : List Int} {tok : Int}

/-- After a completed iteration that began at length `len`: the tokens have grown,
the first of the new ones being `first`, and the length by as many. -/
def Advanced (S : Setting P maxSeqLen T.config.logitsBytes) (R : Request)
    (reason : FinishReason) (len : Nat) (tokens : List Int) (first : Int) (s : Session KV Rec Logits) : Prop :=
  ∃ kv tok more, At S R reason kv (tokens ++ first :: more) tok s ∧ Fits maxSeqLen kv ∧
    T.Chooses tok ∧ kv.currentSeqLen = len + 1 + more.length ∧
    (tokens ++ first :: more).length ≤ R.maxNewTokens

/-- The extra token of a round is accounted for without being fed. -/
theorem emitExtra_rule (fits : Fits maxSeqLen kv) (room : kv.currentSeqLen < maxSeqLen)
    (kept : front <+: tokens) (budget : tokens.length < R.maxNewTokens) {new : Int}
    (chosen : T.Chooses new) :
    Triple (At S R reason kv tokens tok : Session KV Rec Logits → Prop) (emitExtra R new)
      (Goes T S R front fun s =>
        At S R reason { kv with currentSeqLen := kv.currentSeqLen + 1 } (tokens ++ [new]) new s)
      (fun _ => Thrown S R front) := by
  have grown : front <+: tokens ++ [new] := kept.trans (List.prefix_append _ _)
  have moves : Triple (Holds S kv) (advance 1 : DeviceM KV Rec Logits Bool)
      (fun moved d => Holds S { kv with currentSeqLen := kv.currentSeqLen + 1 } d ∧ moved = true)
      (fun _ => Broken S) :=
    triple_conseq (advance_rule fits room fun _ => True) (fun _ holds => ⟨holds, trivial⟩)
      (fun _ _ done => ⟨done.2.1, done.1⟩) fun _ _ broken => broken
  unfold emitExtra
  apply goes_bind T (emit_rule T fits kept budget chosen)
  rintro s ⟨here, _⟩
  refine triple_bind (onDevice_plain grown (snoc_within budget new) moves) ?_ s here
  rintro moved s ⟨here, rfl⟩
  exact ⟨here.device, here.routing, here.calls, rfl, here.finish⟩

/-- The single step feeds the newest token and emits the machine's choice. -/
theorem decodeSingle_rule (fits : Fits maxSeqLen kv) (room : kv.currentSeqLen < maxSeqLen)
    (known : T.Chooses tok) (kept : front <+: tokens)
    (budget : tokens.length < R.maxNewTokens) :
    Triple (At S R reason kv tokens tok : Session KV Rec Logits → Prop) (decodeSingle T.backend P R)
      (Goes T S R front fun s => At S R reason (fed T kv tok) (tokens ++ [next T kv tok]) (next T kv tok) s ∧
        R.isStop (next T kv tok) = false)
      (fun _ => Thrown S R front) := by
  have nonneg : ¬ next T kv tok < 0 := by have := (next_inVocab T kv tok).1; omega
  unfold decodeSingle
  apply triple_known fun s here => here.current
  apply triple_bind (onDevice_plain kept (Nat.le_of_lt budget)
    (singleStep_rule T fits room .main R.captured known.inVocab))
  rintro answer s ⟨here, rfl⟩
  rw [if_neg nonneg]
  refine goes_bind T (emit_rule T (fed_fits T fits room tok) kept budget (next_chosen T kv tok)) ?_ s here
  rintro s ⟨here, going⟩
  exact ⟨⟨here.device, here.routing, here.calls, rfl, here.finish⟩, going⟩

theorem Goes.mono {goes also : Session KV Rec Logits → Prop} (imply : ∀ s, goes s → also s)
    {control : Control} {s : Session KV Rec Logits} (done : Goes T S R front goes control s) :
    Goes T S R front also control s := by
  cases control with
  | again => exact imply s done
  | leave => exact done

section Round

variable {drafts targets : List Int} {accepted : Sampling.SpeculativeAcceptanceResult}
  {prefixLen : Nat}

/-- The last token of a round, after the accepted ones. -/
theorem emitBonus_rule (outcome : Sampling.Outcome Sampling.greedy drafts targets accepted)
    (nonempty : drafts ≠ []) (rows : targets.length = drafts.length)
    (known : ∀ target ∈ targets, T.Chooses target) (fits : Fits maxSeqLen kv)
    (here : kv.currentSeqLen = prefixLen + accepted.numAccepted) (room : kv.currentSeqLen < maxSeqLen)
    (kept : front <+: tokens) (budget : tokens.length + drafts.length < R.maxNewTokens) :
    Triple (At S R reason kv (tokens ++ accepted.acceptedTokens) tok : Session KV Rec Logits → Prop)
      (emitExtra R accepted.bonusOrResampledToken)
      (Goes T S R front (Advanced T S R reason prefixLen tokens (targets.getD 0 0)))
      (fun _ => Thrown S R front) := by
  obtain ⟨more, emitted, count⟩ := outcome.emits nonempty rows
  have within := outcome.accepted.within
  have width := outcome.width
  have space : (tokens ++ accepted.acceptedTokens).length < R.maxNewTokens := by
    rw [List.length_append]
    omega
  have grown : front <+: tokens ++ accepted.acceptedTokens := kept.trans (List.prefix_append _ _)
  refine triple_conseq (emitExtra_rule T fits room grown space (known _ (outcome.bonus_mem nonempty rows))) (fun _ start => start)
    (fun control s done => done.mono T ?_) fun _ _ thrown => thrown
  intro s after
  rw [List.append_assoc, emitted] at after
  refine ⟨_, _, more, after, ⟨fits.size, room⟩, known _ (outcome.bonus_mem nonempty rows), ?_, ?_⟩
  · rw [count]
    dsimp only
    omega
  · rw [List.length_append, List.length_cons, count]
    omega

theorem rollback_to (fits : Fits maxSeqLen kv) (kept steps : Nat)
    (room : kv.currentSeqLen = kept + steps) :
    Triple (Holds S kv) (rollback P steps : DeviceM KV Rec Logits Unit)
      (fun _ d => Holds S (rolledBack kv kept) d ∧ True) (fun _ => Broken S) := by
  have rule : Triple (Holds S kv) (rollback P steps : DeviceM KV Rec Logits Unit)
      (fun _ => Holds S (rolledBack kv (kv.currentSeqLen - steps))) (fun _ => Broken S) :=
    rollback_rule fits (by omega)
  have left : kv.currentSeqLen - steps = kept := by omega
  rw [left] at rule
  exact triple_conseq rule (fun _ holds => holds) (fun _ _ holds => ⟨holds, trivial⟩)
    fun _ _ broken => broken

/-- A round with a rejection goes back to the accepted drafts first. -/
theorem settleRejected_rule (outcome : Sampling.Outcome Sampling.greedy drafts targets accepted)
    (refused : accepted.hasRejectedToken = true)
    (nonempty : drafts ≠ []) (rows : targets.length = drafts.length)
    (chosen : ∀ draft ∈ drafts, T.Chooses draft)
    (known : ∀ target ∈ targets, T.Chooses target) (fits : Fits maxSeqLen kv)
    (here : kv.currentSeqLen = prefixLen + drafts.length)
    (kept : front <+: tokens) (budget : tokens.length + drafts.length < R.maxNewTokens) :
    Triple (At S R reason kv tokens tok : Session KV Rec Logits → Prop)
      (settleRejected P R drafts.length accepted)
      (Goes T S R front (Advanced T S R reason prefixLen tokens (targets.getD 0 0)))
      (fun _ => Thrown S R front) := by
  have inside := (outcome.rejected refused).1
  have within := fits.within
  have width := outcome.width
  have nonneg := (known _ (outcome.bonus_mem nonempty rows)).inVocab.1
  have shorter : Fits maxSeqLen (rolledBack kv (prefixLen + accepted.numAccepted)) :=
    ⟨fits.size, by dsimp only [rolledBack]; omega⟩
  unfold settleRejected
  apply triple_bind (onDevice_plain kept (by omega)
    (rollback_to T fits (prefixLen + accepted.numAccepted) _ (by omega)))
  rintro _ s ⟨start, _⟩
  refine goes_bind T (emitAll_rule T shorter (outcome.accepted_mem chosen) kept (by omega)) ?_ s start
  rw [if_pos nonneg]
  exact emitBonus_rule T outcome nonempty rows known shorter rfl
    (by dsimp only [rolledBack]; omega) kept budget

theorem settleAccepted_rule (outcome : Sampling.Outcome Sampling.greedy drafts targets accepted)
    (full : accepted.hasRejectedToken = false)
    (nonempty : drafts ≠ []) (rows : targets.length = drafts.length)
    (chosen : ∀ draft ∈ drafts, T.Chooses draft)
    (known : ∀ target ∈ targets, T.Chooses target) (fits : Fits maxSeqLen kv)
    (here : kv.currentSeqLen = prefixLen + drafts.length) (room : kv.currentSeqLen < maxSeqLen)
    (kept : front <+: tokens) (budget : tokens.length + drafts.length < R.maxNewTokens) :
    Triple (At S R reason kv tokens tok : Session KV Rec Logits → Prop) (settleAccepted R accepted)
      (Goes T S R front (Advanced T S R reason prefixLen tokens (targets.getD 0 0)))
      (fun _ => Thrown S R front) := by
  have all := (outcome.full full).1
  have width := outcome.width
  have nonneg := (known _ (outcome.bonus_mem nonempty rows)).inVocab.1
  have space : (tokens ++ accepted.acceptedTokens).length < R.maxNewTokens := by
    rw [List.length_append]
    omega
  unfold settleAccepted
  apply goes_bind T (emitAll_rule T fits (outcome.accepted_mem chosen) kept (by omega))
  apply triple_known fun s start => congrArg List.length start.tokenIds
  rw [if_pos ⟨nonneg, space⟩]
  exact emitBonus_rule T outcome nonempty rows known fits (by omega) room kept budget

/-- The target's choice after each draft, fed from `prefixLen` on. -/
def choices (kv : KVCache KV Rec) (drafts : List Int) (prefixLen : Nat) : List Int :=
  (T.pass kv.maxSeqLen false kv.memory drafts prefixLen).2.map T.argmax

theorem choices_chosen (kv : KVCache KV Rec) (drafts : List Int) (prefixLen : Nat) :
    ∀ target ∈ choices T kv drafts prefixLen, T.Chooses target := by
  intro target member
  obtain ⟨logits, _, same⟩ := List.mem_map.mp member
  exact ⟨logits, same⟩

@[simp] theorem choices_length (kv : KVCache KV Rec) (drafts : List Int) (prefixLen : Nat) :
    (choices T kv drafts prefixLen).length = drafts.length := by
  simp [choices]

/-- A round's drafts are verified from the prefix on, and its first new token is the
target's choice after the first draft at the prefix length. -/
theorem verifyDrafts_rule (asked : S.requests drafts.length) (nonempty : drafts ≠ [])
    (chosen : ∀ draft ∈ drafts, T.Chooses draft) (fits : Fits maxSeqLen kv)
    (here : kv.currentSeqLen = prefixLen + drafts.length) (room : kv.currentSeqLen < maxSeqLen)
    (kept : front <+: tokens) (budget : tokens.length + drafts.length < R.maxNewTokens) :
    Triple (At S R reason kv tokens tok : Session KV Rec Logits → Prop)
      (verifyDrafts T.backend P R drafts prefixLen)
      (Goes T S R front (Advanced T S R reason prefixLen tokens ((choices T kv drafts prefixLen).getD 0 0)))
      (fun _ => Thrown S R front) := by
  let seen : (Buffer → Nat → Logits) → Prop := fun rows =>
    (List.range drafts.length).map (rows (.persistent .main)) =
      (T.pass kv.maxSeqLen false kv.memory drafts prefixLen).2
  have within : tokens.length ≤ R.maxNewTokens := by omega
  have after : Fits maxSeqLen (passed T kv false drafts prefixLen) := ⟨fits.size, fits.within⟩
  have buffer : Triple (Holds S kv)
      (persistentBuffer P .main (drafts.length * T.config.logitsBytes) : DeviceM KV Rec Logits Unit)
      (fun _ d => Holds S kv d ∧ True) (fun _ => Broken S) :=
    triple_conseq (persistentBuffer_rule fits .main asked) (fun _ holds => holds)
      (fun _ _ holds => ⟨holds, trivial⟩) fun _ _ broken => broken
  have verify : Triple (fun d => Holds S kv d ∧ True) (forwardVerify T.backend P drafts prefixLen)
      (fun _ d => Holds S (passed T kv false drafts prefixLen) d ∧ seen d.logits)
      (fun _ => Broken S) := fun d start =>
    forwardVerify_rule T fits nonempty (fun draft member => (chosen draft member).inVocab)
      prefixLen (by omega) d start.1
  have rows := choices_length T kv drafts prefixLen
  have wanted := choices_chosen T kv drafts prefixLen
  unfold verifyDrafts
  apply triple_bind (onDevice_plain kept within buffer)
  rintro _ s ⟨start, _⟩
  refine triple_bind (onDevice_rule kept within verify) ?_ s ⟨start, trivial⟩
  intro _
  apply triple_bind (onDevice_rule kept within (submit_rule after seen))
  intro _
  apply triple_read
  rintro logits s ⟨⟨start, filled⟩, rfl⟩
  have targets : (List.range drafts.length).map
      (fun i => T.argmax (s.device.logits (.persistent .main) i)) = choices T kv drafts prefixLen := by
    have mapped := congrArg (List.map T.argmax) filled
    rwa [List.map_map] at mapped
  obtain ⟨accepted, accepts, outcome⟩ :=
    Sampling.speculativeAcceptReject_ok Sampling.greedy nonempty rows
  dsimp only [Machine.backend_argmax]
  rw [targets, accepts, raise_bind]
  cases refused : accepted.hasRejectedToken with
  | true => exact settleRejected_rule T outcome refused nonempty rows chosen wanted after here kept budget s start
  | false =>
      exact settleAccepted_rule T outcome refused nonempty rows chosen wanted after here room kept budget s start

end Round

/-- The first new token of a round of `count` drafts. -/
def roundFirst (kv : KVCache KV Rec) (tok : Int) (count : Nat) : Int :=
  let drafted := drafts T count kv.checkpointRecurrentState tok
  (choices T drafted.2 drafted.1 kv.currentSeqLen).getD 0 0

theorem speculativeRound_rule {remaining : Nat} (positive : 0 < min R.draftN (remaining - 1))
    (asked : S.requests (min R.draftN (remaining - 1))) (fits : Fits maxSeqLen kv)
    (known : T.Chooses tok) (kept : front <+: tokens)
    (room : kv.currentSeqLen + min R.draftN (remaining - 1) < maxSeqLen)
    (budget : tokens.length + min R.draftN (remaining - 1) < R.maxNewTokens) :
    Triple (At S R reason kv tokens tok : Session KV Rec Logits → Prop)
      (speculativeRound T.backend P R remaining)
      (Goes T S R front (Advanced T S R reason kv.currentSeqLen tokens
        (roundFirst T kv tok (min R.draftN (remaining - 1)))))
      (fun _ => Thrown S R front) := by
  have within : tokens.length ≤ R.maxNewTokens := by omega
  have saved : Fits maxSeqLen kv.checkpointRecurrentState := ⟨fits.size, fits.within⟩
  have checkpoint : Triple (Holds S kv) (checkpointRecurrentState P : DeviceM KV Rec Logits Unit)
      (fun _ d => Holds S kv.checkpointRecurrentState d ∧ True) (fun _ => Broken S) :=
    triple_conseq (checkpoint_rule fits) (fun _ holds => holds)
      (fun _ _ holds => ⟨holds, trivial⟩) fun _ _ broken => broken
  unfold speculativeRound
  apply triple_known fun s here => congrArg KVCache.currentSeqLen here.device.cache
  apply triple_bind (onDevice_plain kept within checkpoint)
  rintro _ s ⟨here, _⟩
  revert here s
  show Triple _ _ _ _
  apply triple_known fun s here => here.current
  apply triple_bind (onDevice_plain kept within
    (draftDecodeLoop_rule T R.draftCaptured _ known.inVocab saved (Nat.le_of_lt room)))
  rintro draft s ⟨here, rfl⟩
  have width := drafts_length T (min R.draftN (remaining - 1)) kv.checkpointRecurrentState tok
  have nonempty : (drafts T (min R.draftN (remaining - 1)) kv.checkpointRecurrentState tok).1 ≠ [] := by
    rw [← List.length_pos_iff, width]
    exact positive
  obtain ⟨length, size, _⟩ := drafts_cache T (min R.draftN (remaining - 1))
    kv.checkpointRecurrentState tok
  have moved : (drafts T (min R.draftN (remaining - 1)) kv.checkpointRecurrentState tok).2.currentSeqLen =
      kv.currentSeqLen + min R.draftN (remaining - 1) := length
  rw [if_pos ⟨rfl, nonempty⟩]
  exact verifyDrafts_rule T (by rwa [width]) nonempty (drafts_chosen T _ _ _)
    ⟨size.trans fits.size, by omega⟩ (by rw [width, moved]) (by omega) kept (by rw [width]; exact budget)
    s here

/-- Whether an iteration with this cache and these tokens begins a round. -/
def begins (R : Request) (kv : KVCache KV Rec) (tokens : List Int) : Bool :=
  R.useSpeculative && decide (1 < R.maxNewTokens - tokens.length) &&
    decide (sizeAdd kv.currentSeqLen R.draftN ≤ kv.maxSeqLen)

theorem At.begins {s : Session KV Rec Logits} (here : At S R reason kv tokens tok s) :
    beginsRound R s = begins R kv tokens := by
  unfold beginsRound SessionRules.begins
  rw [here.device.cache, here.tokenIds]

theorem decodeIteration_single (fits : Fits maxSeqLen kv) (room : kv.currentSeqLen < maxSeqLen)
    (single : begins R kv tokens = false) (known : T.Chooses tok) (kept : front <+: tokens)
    (budget : tokens.length < R.maxNewTokens) :
    Triple (At S R reason kv tokens tok : Session KV Rec Logits → Prop) (decodeIteration T.backend P R)
      (Goes T S R front fun s => At S R reason (fed T kv tok) (tokens ++ [next T kv tok]) (next T kv tok) s ∧
        R.isStop (next T kv tok) = false)
      (fun _ => Thrown S R front) := by
  have unfilled : ¬ kv.maxSeqLen ≤ kv.currentSeqLen := by rw [fits.size]; omega
  unfold decodeIteration
  apply triple_known fun s here => here.device.cache
  rw [if_neg unfilled]
  apply triple_known fun s here => here.begins.trans single
  exact decodeSingle_rule T fits room known kept budget

theorem decodeIteration_round (fits : Fits maxSeqLen kv)
    (speculative : begins R kv tokens = true) (positive : 0 < R.draftN)
    (asked : S.requests (min R.draftN (R.maxNewTokens - tokens.length - 1)))
    (room : kv.currentSeqLen + (R.maxNewTokens - tokens.length - 1) < maxSeqLen)
    (known : T.Chooses tok) (kept : front <+: tokens) :
    Triple (At S R reason kv tokens tok : Session KV Rec Logits → Prop) (decodeIteration T.backend P R)
      (Goes T S R front (Advanced T S R reason kv.currentSeqLen tokens
        (roundFirst T kv tok (min R.draftN (R.maxNewTokens - tokens.length - 1)))))
      (fun _ => Thrown S R front) := by
  have unfilled : ¬ kv.maxSeqLen ≤ kv.currentSeqLen := by rw [fits.size]; omega
  have remaining : 1 < R.maxNewTokens - tokens.length := by
    simp only [begins, Bool.and_eq_true, decide_eq_true_eq] at speculative
    exact speculative.1.2
  unfold decodeIteration
  apply triple_known fun s here => here.device.cache
  rw [if_neg unfilled]
  apply triple_known fun s here => here.begins.trans speculative
  rw [if_pos rfl]
  apply triple_known fun s here => congrArg List.length here.tokenIds
  exact speculativeRound_rule T (by omega) asked fits known kept (by omega) (by omega)

end Iterations

end XInfer.SessionRules
