import XInfer.Generation

/-!
What handing out tokens leaves alone: any view of a session that does not look at the text, the calls
made, the finish reason and the current token, where the device operations in between leave it alone too.
-/

namespace XInfer.SessionFrames

open StateException WhileLoop Device Generation

variable {KV Rec Logits : Type} {P : Platform KV Rec} {R : Request} {γ : Type} {view : Session KV Rec Logits → γ}

/-- The view sees nothing of what a call keeps of its tokens. -/
structure Outside (view : Session KV Rec Logits → γ) : Prop where
  routing : ∀ s routing, view { s with routing := routing } = view s
  calls : ∀ s calls, view { s with calls := calls } = view s
  finish : ∀ s reason, view { s with finishReason := reason } = view s
  current : ∀ s tok, view { s with currentTok := tok } = view s

variable (outside : Outside view)
include outside

theorem frame_setFinish (reason : FinishReason) : Frame view (setFinish reason : SessionM KV Rec Logits Unit) :=
  frame_modify fun s => outside.finish s reason

theorem frame_leaves (reason : FinishReason) :
    Frame view (do setFinish reason; pure .leave : SessionM KV Rec Logits Control) :=
  frame_bind (frame_setFinish outside reason) fun _ => frame_pure _

theorem frame_current (tok : Int) :
    Frame view (do modify fun s => { s with currentTok := tok }; pure .again : SessionM KV Rec Logits Control) :=
  frame_bind (frame_modify fun s => outside.current s tok) fun _ => frame_pure _

theorem frame_processToken (tok : Int) : Frame view (processToken R tok : SessionM KV Rec Logits Bool) := by
  unfold processToken
  refine frame_bind (frame_modify fun s => outside.routing s _) fun _ => ?_
  apply frame_ite (frame_pure _)
  cases R.callback with
  | none => exact frame_pure _
  | some callback =>
      refine frame_bind (frame_modify fun s => outside.calls s _) fun _ => ?_
      exact frame_bind (frame_read _) fun _ => frame_raise _

theorem frame_emit (tok : Int) : Frame view (emit R tok : SessionM KV Rec Logits Control) := by
  apply frame_ite (frame_leaves outside _)
  apply frame_bind (frame_processToken outside tok)
  exact fun _ => frame_ite (frame_pure _) (frame_leaves outside _)

theorem frame_emitAll (tokens : List Int) : Frame view (emitAll R tokens : SessionM KV Rec Logits Control) := by
  induction tokens with
  | nil => exact frame_pure _
  | cons tok rest ih =>
      apply frame_bind (frame_emit outside tok)
      intro control
      cases control with
      | leave => exact frame_pure _
      | again => exact ih

variable (moves : Frame view (onDevice (advance 1)))
include moves

theorem frame_emitExtra (tok : Int) : Frame view (emitExtra R tok : SessionM KV Rec Logits Control) := by
  apply frame_bind (frame_emit outside tok)
  intro control
  cases control with
  | leave => exact frame_pure _
  | again =>
      apply frame_bind moves
      exact fun _ => frame_ite (frame_current outside tok) (frame_leaves outside _)

theorem frame_settleRejected (returns : ∀ steps, Frame view (onDevice (rollback P steps))) (total : Nat)
    (accepted : Sampling.SpeculativeAcceptanceResult) :
    Frame view (settleRejected P R total accepted : SessionM KV Rec Logits Control) := by
  apply frame_bind (returns _)
  intro _
  apply frame_bind (frame_emitAll outside _)
  intro control
  cases control with
  | leave => exact frame_pure _
  | again => exact frame_ite (frame_emitExtra outside moves _) (frame_pure _)

theorem frame_settleAccepted (accepted : Sampling.SpeculativeAcceptanceResult) :
    Frame view (settleAccepted R accepted : SessionM KV Rec Logits Control) := by
  apply frame_bind (frame_emitAll outside _)
  intro control
  cases control with
  | leave => exact frame_pure _
  | again =>
      apply frame_bind (frame_read _)
      intro emitted
      refine frame_ite (frame_emitExtra outside moves _) ?_
      exact frame_bind (frame_modify fun s => outside.current s _) fun _ => frame_pure _

end XInfer.SessionFrames
