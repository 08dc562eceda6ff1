import XInfer.SessionRules

/-!
The decode loop of `generate` as a whole. `Committed` is the invariant of its heads:
the newest token has been emitted and not been fed, so the length stays one behind
prompt and tokens together, and the window the request was granted is never left.
-/

namespace XInfer.LoopRules

open Primitives StateException WhileLoop Device DeviceRules ForwardRules TokenRouting Generation
  SessionRules

variable {KV Rec Logits : Type}

/-- A round that verifies `count` drafts may begin at a length that the request can
reach. -/
def Asks (R : Request) (promptLen maxSeqLen count : Nat) : Prop :=
  R.useSpeculative = true ∧ ∃ len, promptLen ≤ len ∧ len + 3 ≤ promptLen + R.maxNewTokens ∧
    sizeAdd len R.draftN ≤ maxSeqLen ∧ count = min R.draftN (promptLen + R.maxNewTokens - len - 2)

section Loop

variable (T : Machine KV Rec Logits) {P : Platform KV Rec} {maxSeqLen : Nat}
  (S : Setting P maxSeqLen T.config.logitsBytes) (R : Request) (promptLen : Nat) (front : List Int)

structure Committed (kv : KVCache KV Rec) (tokens : List Int) (tok : Int)
    (s : Session KV Rec Logits) : Prop where
  here : At S R .length kv tokens tok s
  fits : Fits maxSeqLen kv
  chosen : T.Chooses tok
  kept : front <+: tokens
  behind : kv.currentSeqLen + 1 = promptLen + tokens.length
  budget : tokens.length ≤ R.maxNewTokens

def AtHead (s : Session KV Rec Logits) : Prop :=
  ∃ kv tokens tok, Committed T S R promptLen front kv tokens tok s

/-- What the request's checks grant a loop that has emitted its first token. -/
structure Granted : Prop where
  started : front ≠ []
  drafting : 0 < R.draftN
  window : promptLen + R.maxNewTokens ≤ maxSeqLen
  asks : ∀ count, Asks R promptLen maxSeqLen count → S.requests count

variable {T S R promptLen front} {kv : KVCache KV Rec} {tokens : List Int} {tok : Int}
  {s : Session KV Rec Logits}

theorem unfinished_iff (here : At S R .length kv tokens tok s) :
    unfinished R s = true ↔ tokens.length < R.maxNewTokens := by
  rw [unfinished, decide_eq_true_iff, here.tokenIds]

theorem asks_of_begins (granted : Granted T S R promptLen front)
    (committed : Committed T S R promptLen front kv tokens tok s) (round : begins R kv tokens = true) :
    Asks R promptLen maxSeqLen (min R.draftN (R.maxNewTokens - tokens.length - 1)) := by
  have behind := committed.behind
  have emitted : 0 < tokens.length :=
    Nat.lt_of_lt_of_le (List.length_pos_iff.mpr granted.started) committed.kept.length_le
  simp only [begins, Bool.and_eq_true, decide_eq_true_eq] at round
  obtain ⟨⟨speculative, remaining⟩, room⟩ := round
  rw [committed.fits.size] at room
  refine ⟨speculative, kv.currentSeqLen, by omega, by omega, room, ?_⟩
  congr 1
  omega

/-- An iteration that goes on has grown the tokens, and the length by as many. -/
theorem decodeIteration_rule (granted : Granted T S R promptLen front)
    (committed : Committed T S R promptLen front kv tokens tok s)
    (more : tokens.length < R.maxNewTokens) :
    Triple (At S R .length kv tokens tok) (decodeIteration T.backend P R)
      (Goes T S R front fun after => ∃ first, Advanced T S R .length kv.currentSeqLen tokens first after)
      (fun _ => Thrown S R front) := by
  have behind := committed.behind
  have window := granted.window
  have room : kv.currentSeqLen < maxSeqLen := by omega
  cases round : begins R kv tokens with
  | true =>
      have asked := granted.asks _ (asks_of_begins granted committed round)
      exact triple_conseq (decodeIteration_round T committed.fits round granted.drafting asked
        (by omega) committed.chosen committed.kept) (fun _ start => start)
        (fun _ _ done => done.mono T fun _ advanced => ⟨_, advanced⟩) fun _ _ thrown => thrown
  | false =>
      refine triple_conseq (decodeIteration_single T committed.fits room round committed.chosen
        committed.kept more) (fun _ start => start) (fun _ _ done => done.mono T ?_)
        fun _ _ thrown => thrown
      rintro after ⟨here, _⟩
      refine ⟨next T kv tok, fed T kv tok, next T kv tok, [], here, fed_fits T committed.fits room tok,
        next_chosen T kv tok, rfl, ?_⟩
      exact snoc_within more _

theorem Advanced.committed {first : Int} (committed : Committed T S R promptLen front kv tokens tok s)
    {after : Session KV Rec Logits}
    (advanced : Advanced T S R .length kv.currentSeqLen tokens first after) :
    ∃ kv' more tok', Committed T S R promptLen front kv' (tokens ++ first :: more) tok' after := by
  obtain ⟨kv', tok', more, here, fits, chosen, moved, budget⟩ := advanced
  have behind := committed.behind
  refine ⟨kv', more, tok', here, fits, chosen, committed.kept.trans (List.prefix_append _ _), ?_, budget⟩
  rw [List.length_append, List.length_cons]
  omega

/-- What one iteration leaves of a head. -/
theorem head_step (granted : Granted T S R promptLen front) (head : AtHead T S R promptLen front s)
    (more : unfinished R s = true) :
    match decodeIteration T.backend P R s with
    | .ok .again after => AtHead T S R promptLen front after ∧
        s.routing.tokenIds.length < after.routing.tokenIds.length
    | .ok .leave after => Stopped T S R front after
    | .error _ after => Thrown S R front after := by
  obtain ⟨kv, tokens, tok, committed⟩ := head
  have room := (unfinished_iff committed.here).mp more
  have step := decodeIteration_rule granted committed room s committed.here
  cases run : decodeIteration T.backend P R s with
  | error thrown after => simpa only [run] using step
  | ok control after =>
      rw [run] at step
      cases control with
      | leave => exact step
      | again =>
          obtain ⟨first, advanced⟩ := step
          obtain ⟨kv', rest, tok', later⟩ := Advanced.committed committed advanced
          refine ⟨⟨kv', _, tok', later⟩, ?_⟩
          rw [committed.here.tokenIds, later.here.tokenIds, List.length_append, List.length_cons]
          omega

/-- Every head of the loop is committed. -/
theorem head_reached (granted : Granted T S R promptLen front) {head : Session KV Rec Logits}
    {allowed : Session KV Rec Logits → Prop} (start : AtHead T S R promptLen front s)
    (reached : Head (unfinished R) (decodeIteration T.backend P R) allowed s head) :
    AtHead T S R promptLen front head := by
  refine reached.invariant (AtHead T S R promptLen front) start ?_
  intro state after committed more _ run
  have step := head_step granted committed more
  rw [run] at step
  exact step.1

/-- Tokens that the budget still has room for. -/
def left (R : Request) (s : Session KV Rec Logits) : Nat := R.maxNewTokens - s.routing.tokenIds.length

theorem left_decreases (granted : Granted T S R promptLen front) (state after : Session KV Rec Logits)
    (head : AtHead T S R promptLen front state) (more : unfinished R state = true)
    (run : decodeIteration T.backend P R state = .ok .again after) :
    AtHead T S R promptLen front after ∧ left R after < left R state := by
  have step := head_step granted head more
  rw [run] at step
  refine ⟨step.1, ?_⟩
  rw [unfinished, decide_eq_true_iff] at more
  unfold left
  omega

theorem unfinished_of_left (state : Session KV Rec Logits) (full : left R state = 0) :
    unfinished R state = false := by
  unfold left at full
  rw [unfinished, decide_eq_false_iff_not]
  omega

/-- The budget bounds the iterations: more fuel changes nothing. -/
theorem decodeLoop_fuel (granted : Granted T S R promptLen front) (start : AtHead T S R promptLen front s)
    (fuel : Nat) (enough : R.maxNewTokens ≤ fuel) :
    whileLoop (unfinished R) (decodeIteration T.backend P R) fuel s = decodeLoop T.backend P R s :=
  while_fuel (AtHead T S R promptLen front) (left R) (left_decreases granted)
    (fun state _ full => unfinished_of_left state full) R.maxNewTokens fuel s start
    (Nat.sub_le _ _) enough

/-- How a generation may end: stopped, or with its budget used up. -/
def Finished (S : Setting P maxSeqLen T.config.logitsBytes) (R : Request) (front : List Int)
    (s : Session KV Rec Logits) : Prop :=
  Ended S R front s ∧ (s.finishReason = .length → s.routing.tokenIds.length = R.maxNewTokens)

theorem stopped_finished (stopped : Stopped T S R front s) : Finished S R front s := by
  refine ⟨stopped.ended, fun length => ?_⟩
  rw [stopped.finish] at length
  cases length

theorem AtHead.finished (head : AtHead T S R promptLen front s) (full : unfinished R s = false) :
    Finished S R front s := by
  obtain ⟨kv, tokens, tok, committed⟩ := head
  have ended := committed.here.ended committed.kept committed.budget
    (committed.here.device.sound committed.fits) s.finishReason
  refine ⟨ended, fun _ => ?_⟩
  have within := ended.budget
  rw [unfinished, decide_eq_false_iff_not] at full
  dsimp only at within
  omega

/-- The loop with any fuel that the budget does not exceed. -/
theorem whileLoop_rule (granted : Granted T S R promptLen front) (fuel : Nat) :
    Triple (fun s => AtHead T S R promptLen front s ∧ left R s ≤ fuel)
      (whileLoop (unfinished R) (decodeIteration T.backend P R) fuel)
      (fun _ => Finished S R front) (fun _ => Thrown S R front) := by
  rintro s ⟨start, enough⟩
  rcases while_complete (AtHead T S R promptLen front) (left R) (left_decreases granted)
      (fun state _ full => unfinished_of_left state full) fuel s start enough with
    ⟨last, reached, full, run⟩ | ⟨head, last, reached, more, step, run⟩ |
    ⟨head, last, thrown, reached, more, step, run⟩
  · rw [run]
    exact (head_reached granted start reached).finished full
  · rw [run]
    have stopped := head_step granted (head_reached granted start reached) more
    rw [step] at stopped
    exact stopped_finished stopped
  · rw [run]
    have failed := head_step granted (head_reached granted start reached) more
    rw [step] at failed
    exact failed

theorem decodeLoop_rule (granted : Granted T S R promptLen front) :
    Triple (AtHead T S R promptLen front) (decodeLoop T.backend P R)
      (fun _ => Finished S R front) (fun _ => Thrown S R front) :=
  fun s start => whileLoop_rule granted R.maxNewTokens s ⟨start, Nat.sub_le _ _⟩

end Loop

end XInfer.LoopRules
