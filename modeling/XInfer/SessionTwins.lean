import XInfer.TwinRules
import XInfer.CallRules

/-!
Two calls of `generate` with the same arguments on two engines, side by side with speculation
off. What is local to a call is the same on both sides throughout, so the results are.
-/

namespace XInfer.SessionTwins

open Primitives StateException WhileLoop Device Forward Generation TokenRouting Tokenizer TwinRules

variable {KV Rec Logits : Type}

/-- Sessions that differ in their devices and memo tables only. -/
structure Paired (devices : Device KV Rec Logits → Device KV Rec Logits → Prop)
    (s t : Session KV Rec Logits) : Prop where
  device : devices s.device t.device
  routing : s.routing = t.routing
  promptTokens : s.promptTokens = t.promptTokens
  generatedTokens : s.generatedTokens = t.generatedTokens
  finishReason : s.finishReason = t.finishReason
  currentTok : s.currentTok = t.currentTok
  calls : s.calls = t.calls

section Steps

variable {devices others : Device KV Rec Logits → Device KV Rec Logits → Prop}
  {s t : Session KV Rec Logits}

theorem Paired.mono (paired : Paired devices s t) (weaker : ∀ d e, devices d e → others d e) :
    Paired others s t :=
  { paired with device := weaker _ _ paired.device }

theorem Paired.result (paired : Paired devices s t) : result s = result t := by
  simp only [Generation.result, paired.routing, paired.promptTokens, paired.generatedTokens,
    paired.finishReason]

theorem Paired.failed (paired : Paired devices s t) (code message : Bytes) :
    failed code message s = failed code message t := by
  rw [Generation.failed, Generation.failed, paired.result]

theorem Paired.finished (paired : Paired devices s t) : finished s = finished t := by
  rw [Generation.finished, Generation.finished, paired.result, paired.routing]

theorem onDevice_twin {α : Type} {program : DeviceM KV Rec Logits α}
    {after : α → Device KV Rec Logits → Device KV Rec Logits → Prop}
    (twin : Related devices program program after fun _ => others) :
    Related (Paired devices) (onDevice program) (onDevice program) (fun value => Paired (after value))
      fun _ => Paired others := by
  apply related_within
  rintro s t paired d e ⟨rfl, rfl⟩
  have run := twin s.device t.device paired.device
  cases left : program s.device <;> cases right : program t.device <;> rw [left, right] at run
  · exact ⟨run.1, { paired with device := run.2 }⟩
  · exact run
  · exact run
  · exact ⟨run.1, { paired with device := run.2 }⟩

theorem setFinish_twin (reason : FinishReason) {escaped : Exn → Session KV Rec Logits → Session KV Rec Logits → Prop} :
    Related (Paired devices) (setFinish reason) (setFinish reason) (fun _ => Paired devices) escaped :=
  related_modify _ _ fun _ _ paired => { paired with finishReason := rfl }

/-- The last word of an iteration that ends the loop. -/
theorem leaves_twin (reason : FinishReason) {escaped : Exn → Session KV Rec Logits → Session KV Rec Logits → Prop}
    {after : Control → Session KV Rec Logits → Session KV Rec Logits → Prop}
    (left : ∀ s t, Paired devices s t → after .leave s t) :
    Related (Paired devices) (do setFinish reason; pure .leave) (do setFinish reason; pure .leave) after escaped :=
  related_bind (setFinish_twin reason) fun _ => related_pure _ left

variable (R : Request)

/-- A callback sees the same calls on both sides. -/
theorem processToken_twin (tok : Int) : Related (Paired devices) (processToken R tok) (processToken R tok)
    (fun _ => Paired devices) fun _ => Paired devices := by
  unfold processToken
  have routed : Related (Paired devices)
      (modify fun s => { s with routing := R.markers.route s.routing tok } : SessionM KV Rec Logits Unit)
      (modify fun s => { s with routing := R.markers.route s.routing tok }) (fun _ => Paired devices)
      fun _ => Paired devices :=
    related_modify _ _ fun _ _ paired =>
      { paired with routing := congrArg (R.markers.route · tok) paired.routing }
  apply related_bind routed
  intro _
  apply related_ite
  · exact fun _ => related_pure _ fun _ _ paired => paired
  intro _
  cases R.callback with
  | none => exact related_pure _ fun _ _ paired => paired
  | some callback =>
      have called : Related (Paired devices)
          (modify fun s => { s with calls := s.calls ++ [(R.markers.decodeToken tok, tok)] } : SessionM KV Rec Logits Unit)
          (modify fun s => { s with calls := s.calls ++ [(R.markers.decodeToken tok, tok)] })
          (fun _ => Paired devices) fun _ => Paired devices :=
        related_modify _ _ fun _ _ paired =>
          { paired with calls := congrArg (· ++ [(R.markers.decodeToken tok, tok)]) paired.calls }
      apply related_bind called
      intro _
      apply related_read _ _ fun _ _ paired => paired.calls
      -- The callback is a function of the calls so far, so it answers or throws alike.
      rintro calls s t ⟨paired, _⟩
      cases callback calls with
      | ok goOn => exact ⟨rfl, paired⟩
      | error thrown => exact ⟨rfl, paired⟩

theorem emit_twin (tok : Int) : Related (Paired devices) (emit R tok) (emit R tok)
    (fun _ => Paired devices) fun _ => Paired devices := by
  unfold emit
  apply related_ite
  · exact fun _ => leaves_twin .stop fun _ _ paired => paired
  intro _
  apply related_bind (processToken_twin R tok)
  intro goOn
  apply related_ite
  · exact fun _ => related_pure _ fun _ _ paired => paired
  · exact fun _ => leaves_twin .stop fun _ _ paired => paired

end Steps

section Loop

variable (T : Machine KV Rec Logits) {fault : Nat → Option (Fault KV Rec)} {maxSeqLen : Nat} (R : Request)

/-- At a loop head everything below the length is shared. -/
def Abreast (maxSeqLen rowBytes : Nat) (s t : Session KV Rec Logits) : Prop :=
  ∃ n, Paired (Level maxSeqLen rowBytes n) s t

variable {T} in
theorem abreast_paired {s t : Session KV Rec Logits} (abreast : Abreast maxSeqLen T.config.logitsBytes s t) :
    Paired (Beside maxSeqLen T.config.logitsBytes) s t := by
  obtain ⟨n, paired⟩ := abreast
  exact paired.mono fun _ _ level => level.beside

/-- After an iteration: at the next head, or out of the loop. -/
def Turned (maxSeqLen rowBytes : Nat) : Control → Session KV Rec Logits → Session KV Rec Logits → Prop
  | .again, s, t => Abreast maxSeqLen rowBytes s t
  | .leave, s, t => Paired (Beside maxSeqLen rowBytes) s t

theorem decodeSingle_twin (word : maxSeqLen < 2 ^ 64) (visible : 0 < T.config.logitsBytes) (n : Nat) :
    Related (Paired (Level maxSeqLen T.config.logitsBytes n))
      (decodeSingle T.backend (driver fault) R) (decodeSingle T.backend (driver fault) R)
      (Turned maxSeqLen T.config.logitsBytes) fun _ => Paired (Beside maxSeqLen T.config.logitsBytes) := by
  unfold decodeSingle
  apply related_read _ _ fun _ _ paired => paired.currentTok
  intro tok
  have stepped : Related
      (fun s t => Paired (Level maxSeqLen T.config.logitsBytes n) s t ∧ s.currentTok = tok)
      (onDevice (singleStep T.backend (driver fault) .main R.captured tok))
      (onDevice (singleStep T.backend (driver fault) .main R.captured tok))
      (fun answer => Paired (Stepped maxSeqLen T.config.logitsBytes n answer))
      fun _ => Paired (Beside maxSeqLen T.config.logitsBytes) :=
    related_conseq (onDevice_twin (singleStep_twin T word visible .main R.captured tok n))
      (fun _ _ both => both.1) (fun _ _ _ done => done) fun _ _ _ beside => beside
  apply related_bind stepped
  intro next
  apply related_ite
  · exact fun _ => leaves_twin .length fun _ _ paired => paired.mono fun _ _ stepped => stepped.1
  intro reached
  have moved (s t : Session KV Rec Logits) (paired : Paired (Stepped maxSeqLen T.config.logitsBytes n next) s t) :
      Paired (Level maxSeqLen T.config.logitsBytes (n + 1)) s t :=
    paired.mono fun _ _ stepped => (stepped.2 (Int.not_lt.mp reached)).2
  have emitted : Related (Paired (Stepped maxSeqLen T.config.logitsBytes n next)) (emit R next) (emit R next)
      (fun _ => Paired (Level maxSeqLen T.config.logitsBytes (n + 1)))
      fun _ => Paired (Beside maxSeqLen T.config.logitsBytes) :=
    related_conseq (emit_twin R next) moved (fun _ _ _ paired => paired)
      fun _ _ _ paired => paired.mono fun _ _ level => level.beside
  apply related_bind emitted
  intro control
  cases control with
  | leave => exact related_pure _ fun _ _ paired => paired.mono fun _ _ level => level.beside
  | again =>
      have fed : Related (Paired (Level maxSeqLen T.config.logitsBytes (n + 1)))
          (modify fun s => { s with currentTok := next } : SessionM KV Rec Logits Unit)
          (modify fun s => { s with currentTok := next })
          (fun _ => Paired (Level maxSeqLen T.config.logitsBytes (n + 1)))
          fun _ => Paired (Beside maxSeqLen T.config.logitsBytes) :=
        related_modify _ _ fun _ _ paired => { paired with currentTok := rfl }
      exact related_bind fed fun _ => related_pure _ fun _ _ paired => ⟨n + 1, paired⟩

/-- Without speculation an iteration is a single step. -/
theorem decodeIteration_twin (word : maxSeqLen < 2 ^ 64) (visible : 0 < T.config.logitsBytes)
    (off : R.useSpeculative = false) (n : Nat) :
    Related (Paired (Level maxSeqLen T.config.logitsBytes n))
      (decodeIteration T.backend (driver fault) R) (decodeIteration T.backend (driver fault) R)
      (Turned maxSeqLen T.config.logitsBytes) fun _ => Paired (Beside maxSeqLen T.config.logitsBytes) := by
  unfold decodeIteration
  apply related_look
  intro s t paired
  rw [paired.device.beside.left_size, paired.device.beside.right_size, paired.device.left_length,
    paired.device.right_length]
  clear paired s t
  apply related_ite
  · intro _
    have recorded : Related (Level maxSeqLen T.config.logitsBytes n)
        (modify (record .overflow) : DeviceM KV Rec Logits Unit) (modify (record .overflow))
        (fun _ => Beside maxSeqLen T.config.logitsBytes) fun _ => Beside maxSeqLen T.config.logitsBytes :=
      related_modify _ _ fun _ _ level => { level.beside with }
    apply related_bind (onDevice_twin recorded)
    exact fun _ => leaves_twin .length fun _ _ paired => paired
  · intro _
    -- `begins_round` reads the request first, so the two lengths need not be compared.
    have none (s : Session KV Rec Logits) : beginsRound R s = false := by
      simp [beginsRound, off]
    apply related_look
    intro s t _
    rw [none, none]
    exact decodeSingle_twin T R word visible n

theorem decodeLoop_twin (word : maxSeqLen < 2 ^ 64) (visible : 0 < T.config.logitsBytes)
    (off : R.useSpeculative = false) :
    Related (Abreast maxSeqLen T.config.logitsBytes)
      (decodeLoop T.backend (driver fault) R) (decodeLoop T.backend (driver fault) R)
      (fun _ => Paired (Beside maxSeqLen T.config.logitsBytes))
      fun _ => Paired (Beside maxSeqLen T.config.logitsBytes) := by
  apply while_related (Abreast maxSeqLen T.config.logitsBytes)
  · rintro s t ⟨n, paired⟩
    simp only [unfinished, paired.routing]
  · rintro s t ⟨⟨n, paired⟩, _⟩
    have turned := @decodeIteration_twin KV Rec Logits T fault _ R word visible off n s t paired
    cases left : decodeIteration T.backend (driver fault) R s <;>
      cases right : decodeIteration T.backend (driver fault) R t <;> rw [left, right] at turned
    · refine ⟨turned.1, ?_⟩
      rename_i control _ _ _
      cases control <;> exact turned.2
    · exact turned
    · exact turned
    · exact turned
  · exact fun s t => abreast_paired

end Loop

section Call

variable (E : Engine) (T : Machine KV Rec Logits) {fault : Nat → Option (Fault KV Rec)} {maxSeqLen : Nat}
  {devices : Device KV Rec Logits → Device KV Rec Logits → Prop}

/-- Before the loop: a result to return, or its first head. -/
def Admitted (maxSeqLen rowBytes : Nat) :
    Option GenerationResult → Session KV Rec Logits → Session KV Rec Logits → Prop
  | some _, s, t => Paired (Beside maxSeqLen rowBytes) s t
  | none, s, t => Abreast maxSeqLen rowBytes s t

/-- An answer that is read off what the two sessions share. -/
theorem early_twin (view : Session KV Rec Logits → GenerationResult)
    (same : ∀ s t, Paired devices s t → view s = view t)
    (weaker : ∀ d e, devices d e → Beside maxSeqLen T.config.logitsBytes d e)
    {escaped : Exn → Session KV Rec Logits → Session KV Rec Logits → Prop} :
    Related (Paired devices) (read fun s => some (view s)) (read fun s => some (view s))
      (Admitted maxSeqLen T.config.logitsBytes) escaped :=
  fun s t paired => ⟨congrArg some (same s t paired), paired.mono weaker⟩

theorem admitFirst_twin (R : Request) (first : Int) (n : Nat) :
    Related (Paired (Level maxSeqLen T.config.logitsBytes n))
      (admitFirst R first : SessionM KV Rec Logits _) (admitFirst R first) (Admitted maxSeqLen T.config.logitsBytes)
      fun _ => Paired (Beside maxSeqLen T.config.logitsBytes) := by
  have beside (d e : Device KV Rec Logits) (level : Level maxSeqLen T.config.logitsBytes n d e) :
      Beside maxSeqLen T.config.logitsBytes d e := level.beside
  unfold admitFirst
  apply related_ite
  · exact fun _ => early_twin T _ (fun _ _ paired => paired.failed _ _) beside
  intro _
  apply related_ite
  · intro _
    apply related_bind (setFinish_twin .stop)
    exact fun _ => early_twin T _ (fun _ _ paired => paired.result) beside
  intro _
  have chosen : Related (Paired (Level maxSeqLen T.config.logitsBytes n))
      (modify fun s => { s with currentTok := first } : SessionM KV Rec Logits Unit)
      (modify fun s => { s with currentTok := first })
      (fun _ => Paired (Level maxSeqLen T.config.logitsBytes n))
      fun _ => Paired (Beside maxSeqLen T.config.logitsBytes) :=
    related_modify _ _ fun _ _ paired => { paired with currentTok := rfl }
  apply related_bind chosen
  intro _
  have processed : Related (Paired (Level maxSeqLen T.config.logitsBytes n))
      (processToken R first) (processToken R first) (fun _ => Paired (Level maxSeqLen T.config.logitsBytes n))
      fun _ => Paired (Beside maxSeqLen T.config.logitsBytes) :=
    related_conseq (processToken_twin R first) (fun _ _ paired => paired) (fun _ _ _ paired => paired)
      fun _ _ _ paired => paired.mono beside
  apply related_bind processed
  intro goOn
  apply related_ite
  · intro _
    apply related_bind (setFinish_twin .length)
    exact fun _ => related_pure _ fun _ _ paired => ⟨n, paired⟩
  · intro _
    have declined : Related (Paired (Level maxSeqLen T.config.logitsBytes n))
        (modify fun s => { s with generatedTokens := 1, finishReason := .stop } : SessionM KV Rec Logits Unit)
        (modify fun s => { s with generatedTokens := 1, finishReason := .stop })
        (fun _ => Paired (Level maxSeqLen T.config.logitsBytes n))
        fun _ => Paired (Beside maxSeqLen T.config.logitsBytes) :=
      related_modify _ _ fun _ _ paired => { paired with generatedTokens := rfl, finishReason := rfl }
    apply related_bind declined
    exact fun _ => early_twin T _ (fun _ _ paired => paired.result) beside

variable (g : GenerationConfig) (callback : Option TokenCallback)

theorem prepareTokens_twin (visible : 0 < T.config.logitsBytes) (tokenSeq : List Int) :
    Related (Paired (Beside maxSeqLen T.config.logitsBytes))
      (prepareTokens E T.backend (driver fault) g callback tokenSeq)
      (prepareTokens E T.backend (driver fault) g callback tokenSeq)
      (Admitted maxSeqLen T.config.logitsBytes) fun _ => Paired (Beside maxSeqLen T.config.logitsBytes) := by
  unfold prepareTokens
  by_cases empty : tokenSeq = []
  · rw [if_pos empty]
    exact early_twin T _ (fun _ _ paired => paired.failed _ _) fun _ _ beside => beside
  rw [if_neg empty]
  have counted : Related (Paired (Beside maxSeqLen T.config.logitsBytes))
      (modify fun s => { s with promptTokens := tokenSeq.length } : SessionM KV Rec Logits Unit)
      (modify fun s => { s with promptTokens := tokenSeq.length })
      (fun _ => Paired (Beside maxSeqLen T.config.logitsBytes))
      fun _ => Paired (Beside maxSeqLen T.config.logitsBytes) :=
    related_modify _ _ fun _ _ paired => { paired with promptTokens := rfl }
  apply related_bind counted
  intro _
  apply related_look
  intro s t paired
  rw [paired.device.left_size, paired.device.right_size]
  clear paired s t
  cases validateTokens maxSeqLen tokenSeq.length g.maxNewTokens with
  | some message => exact early_twin T _ (fun _ _ paired => paired.failed _ _) fun _ _ beside => beside
  | none =>
      apply related_bind (onDevice_twin (prefillPrompt_twin T visible empty E.config.prefillChunkSize))
      intro first
      apply related_ite
      · exact fun _ => early_twin T _ (fun _ _ paired => paired.failed _ _) fun _ _ both => both.1
      · intro fed s t paired
        exact admitFirst_twin T (request E g callback) first tokenSeq.length s t
          (paired.mono fun _ _ both => both.2 (Int.not_lt.mp fed))

/-- Sessions whose memo tables hold nothing but what merging answers. -/
def Consistent (maxSeqLen rowBytes : Nat) (s t : Session KV Rec Logits) : Prop :=
  Paired (Beside maxSeqLen rowBytes) s t ∧ CacheConsistent E.tokenizer s.bpeCache ∧
    CacheConsistent E.tokenizer t.bpeCache

theorem encodePrompt_twin (rowBytes : Nat) (text : Bytes) :
    Related (Consistent E maxSeqLen rowBytes) (encodePrompt E text : SessionM KV Rec Logits _)
      (encodePrompt E text) (fun _ => Paired (Beside maxSeqLen rowBytes)) fun _ => Paired (Beside maxSeqLen rowBytes) := by
  rintro s t ⟨paired, left, right⟩
  -- The tables may hold different words; what they answer is the merging's either way.
  have same := (encode_consistent text left right).1
  unfold encodePrompt
  dsimp only
  rw [same]
  cases (encode E.tokenizer text t.bpeCache).1 with
  | ok tokens => exact ⟨rfl, { paired with }⟩
  | error thrown => exact ⟨rfl, { paired with }⟩

variable (prompt : Bytes)

theorem prepare_twin (visible : 0 < T.config.logitsBytes) :
    Related (Consistent E maxSeqLen T.config.logitsBytes)
      (prepare E T.backend (driver fault) prompt g callback)
      (prepare E T.backend (driver fault) prompt g callback)
      (Admitted maxSeqLen T.config.logitsBytes) fun _ => Paired (Beside maxSeqLen T.config.logitsBytes) := by
  unfold prepare
  cases refuseOptions E g with
  | some refusal =>
      exact fun s t both => ⟨congrArg some (both.1.failed _ _), both.1⟩
  | none =>
      apply related_bind (encodePrompt_twin E _ _)
      exact prepareTokens_twin E T g callback visible

theorem generateBody_twin (word : maxSeqLen < 2 ^ 64) (visible : 0 < T.config.logitsBytes)
    (off : (request E g callback).useSpeculative = false) :
    Related (Consistent E maxSeqLen T.config.logitsBytes)
      (generateBody E T.backend (driver fault) prompt g callback)
      (generateBody E T.backend (driver fault) prompt g callback)
      (fun _ => Paired (Beside maxSeqLen T.config.logitsBytes))
      fun _ => Paired (Beside maxSeqLen T.config.logitsBytes) := by
  unfold generateBody
  apply related_bind (prepare_twin E T g callback prompt visible)
  intro answer
  cases answer with
  | some early => exact related_pure _ fun _ _ paired => paired
  | none =>
      apply related_bind (decodeLoop_twin T (request E g callback) word visible off)
      exact fun _ s t paired => ⟨paired.finished, paired⟩

theorem reset_twin : Related (Beside maxSeqLen T.config.logitsBytes) (reset E T.backend (driver fault))
    (reset E T.backend (driver fault)) (fun _ => Beside maxSeqLen T.config.logitsBytes)
    fun _ => Beside maxSeqLen T.config.logitsBytes := by
  have emptied (owner : Owner) (d e : Device KV Rec Logits) (beside : Beside maxSeqLen T.config.logitsBytes d e) :
      Beside maxSeqLen T.config.logitsBytes (resetArena owner d) (resetArena owner e) :=
    beside.setArena owner (beside.arenas owner).reset
  unfold reset
  apply related_bind (clear_twin T)
  intro _
  have main : Related (Level maxSeqLen T.config.logitsBytes 0)
      (modify (resetArena .main) : DeviceM KV Rec Logits Unit) (modify (resetArena .main))
      (fun _ => Beside maxSeqLen T.config.logitsBytes) fun _ => Beside maxSeqLen T.config.logitsBytes :=
    related_modify _ _ fun d e level => emptied .main d e level.beside
  apply related_bind main
  intro _
  apply related_modify
  intro d e beside
  split
  · exact emptied .draft d e beside
  · exact beside

/-- The handler reports the same exception in the same words. -/
theorem generateSession_twin (word : maxSeqLen < 2 ^ 64) (visible : 0 < T.config.logitsBytes)
    (off : (request E g callback).useSpeculative = false) :
    Related (Consistent E maxSeqLen T.config.logitsBytes)
      (generateSession E T.backend (driver fault) prompt g callback)
      (generateSession E T.backend (driver fault) prompt g callback)
      (fun _ => Paired (Beside maxSeqLen T.config.logitsBytes))
      fun _ => Paired (Beside maxSeqLen T.config.logitsBytes) := by
  unfold generateSession
  apply related_guarded (generateBody_twin E T g callback prompt word visible off)
  intro thrown
  apply related_bind (onDevice_twin (reset_twin E T))
  exact fun _ s t paired => ⟨paired.failed _ _, paired⟩

/-- Two engines beside each other answer a call alike. -/
theorem generate_twin (word : maxSeqLen < 2 ^ 64) (visible : 0 < T.config.logitsBytes)
    (off : (request E g callback).useSpeculative = false) {left right : Runtime KV Rec Logits}
    (beside : Beside maxSeqLen T.config.logitsBytes (enter left).device (enter right).device)
    (first : CacheConsistent E.tokenizer left.bpeCache) (second : CacheConsistent E.tokenizer right.bpeCache) :
    (generate E T.backend (driver fault) prompt g callback left).1 =
      (generate E T.backend (driver fault) prompt g callback right).1 := by
  have start : Paired (Beside maxSeqLen T.config.logitsBytes) (enter left) (enter right) :=
    ⟨beside, rfl, rfl, rfl, rfl, rfl, rfl⟩
  have run := @generateSession_twin KV Rec Logits E T fault _ g callback prompt word visible off (enter left)
    (enter right) ⟨start, first, second⟩
  unfold generate
  cases one : generateSession E T.backend (driver fault) prompt g callback (enter left) <;>
    cases other : generateSession E T.backend (driver fault) prompt g callback (enter right) <;>
      rw [one, other] at run
  · exact congrArg Except.ok run.1
  · exact run.elim
  · exact run.elim
  · exact congrArg Except.error run.1

end Call

end XInfer.SessionTwins
