import XInfer.ModelConfig
import XInfer.Transducer

/-!
What decoding needs to know of a model. `Backend` is the interface the host code
drives: one pass over a batch of tokens, and the greedy choice. `Machine` is the
abstract target: a token forwarded at a position writes its own cache slot, moves
the recurrent state, and yields logits that depend on the slots below that
position only. A machine is a backend whose pass is the scan of its steps;
`XInfer.Network` shows that the layer-by-layer kernels are one.
-/

namespace XInfer

open Transducer

/-- Device memory that outlives a pass: the K/V slots of all full-attention
layers, and the recurrent and conv states of all linear layers. -/
structure Memory (KV Rec : Type) where
  slots : Nat → KV
  recurrent : Rec

structure Backend (KV Rec Logits : Type) where
  config : ModelConfig
  /-- The recurrent storage after `memset` to zero. -/
  cleared : Rec
  /-- `pass maxSeqLen zeroLinear memory tokens startPos`: memory afterwards, and
  one row of logits for each token. -/
  pass : Nat → Bool → Memory KV Rec → List Int → Nat → Memory KV Rec × List Logits
  argmax : Logits → Int

structure Machine (KV Rec Logits : Type) where
  config : ModelConfig
  cleared : Rec
  /-- What `zero_linear_state` does before the first token of a pass. -/
  zeroLinear : Rec → Rec
  zeroLinear_cleared : zeroLinear cleared = cleared
  /-- `step maxSeqLen slots recurrent token position`. -/
  step : Nat → (Nat → KV) → Rec → Int → Nat → KV × Rec × Logits
  step_local : ∀ maxSeqLen slots other recurrent token position,
    (∀ i < position, slots i = other i) →
    step maxSeqLen slots recurrent token position = step maxSeqLen other recurrent token position
  argmax : Logits → Int
  argmax_inVocab : ∀ logits, config.InVocab (argmax logits)

variable {KV Rec Logits : Type}

namespace Memory

def write (memory : Memory KV Rec) (position : Nat) (row : KV) : Memory KV Rec :=
  { memory with slots := fun i => if i = position then row else memory.slots i }

/-- Two memories that no read below `len` can tell apart. -/
def Agree (len : Nat) (left right : Memory KV Rec) : Prop :=
  (∀ i < len, left.slots i = right.slots i) ∧ left.recurrent = right.recurrent

theorem Agree.symm {len : Nat} {left right : Memory KV Rec} (agree : Agree len left right) :
    Agree len right left :=
  ⟨fun i below => (agree.1 i below).symm, agree.2.symm⟩

theorem Agree.trans {len : Nat} {left middle right : Memory KV Rec} (first : Agree len left middle)
    (second : Agree len middle right) : Agree len left right :=
  ⟨fun i below => (first.1 i below).trans (second.1 i below), first.2.trans second.2⟩

theorem agree_zero {left right : Memory KV Rec} (same : left.recurrent = right.recurrent) :
    Agree 0 left right :=
  ⟨fun i below => absurd below (Nat.not_lt_zero i), same⟩

end Memory

namespace Machine

variable (T : Machine KV Rec Logits)

/-- One token: the slot is written where the cache has one. -/
def forward (maxSeqLen : Nat) (memory : Memory KV Rec) (input : Int × Nat) :
    Memory KV Rec × Logits :=
  let result := T.step maxSeqLen memory.slots memory.recurrent input.1 input.2
  let written := if input.2 < maxSeqLen then memory.write input.2 result.1 else memory
  ({ written with recurrent := result.2.1 }, result.2.2)

def pass (maxSeqLen : Nat) (zeroLinear : Bool) (memory : Memory KV Rec) (tokens : List Int)
    (startPos : Nat) : Memory KV Rec × List Logits :=
  let entered := if zeroLinear && !tokens.isEmpty
    then { memory with recurrent := T.zeroLinear memory.recurrent } else memory
  scan (T.forward maxSeqLen) entered (tokens.zipIdx startPos)

/-- A token that the greedy choice can answer. -/
def Chooses (tok : Int) : Prop := ∃ logits, T.argmax logits = tok

theorem Chooses.inVocab {tok : Int} (chosen : T.Chooses tok) : T.config.InVocab tok := by
  obtain ⟨logits, rfl⟩ := chosen
  exact T.argmax_inVocab logits

/-- A greedy choice has a vocabulary to choose from. -/
theorem logitsBytes_pos (logits : Logits) : 0 < T.config.logitsBytes := by
  have chosen := T.argmax_inVocab logits
  have positive : 0 < T.config.vocabSize := Int.lt_of_le_of_lt chosen.1 chosen.2
  unfold ModelConfig.logitsBytes
  omega

def backend : Backend KV Rec Logits where
  config := T.config
  cleared := T.cleared
  pass := T.pass
  argmax := T.argmax

@[simp] theorem backend_config : T.backend.config = T.config := rfl
@[simp] theorem backend_cleared : T.backend.cleared = T.cleared := rfl
@[simp] theorem backend_pass : T.backend.pass = T.pass := rfl
@[simp] theorem backend_argmax : T.backend.argmax = T.argmax := rfl

@[simp] theorem pass_nil (maxSeqLen : Nat) (zeroLinear : Bool) (memory : Memory KV Rec)
    (startPos : Nat) : T.pass maxSeqLen zeroLinear memory [] startPos = (memory, []) := by
  simp [pass]

theorem pass_cons (maxSeqLen : Nat) (memory : Memory KV Rec) (token : Int) (rest : List Int)
    (startPos : Nat) : T.pass maxSeqLen false memory (token :: rest) startPos =
      ((T.pass maxSeqLen false (T.forward maxSeqLen memory (token, startPos)).1 rest
          (startPos + 1)).1,
        (T.forward maxSeqLen memory (token, startPos)).2 ::
          (T.pass maxSeqLen false (T.forward maxSeqLen memory (token, startPos)).1 rest
            (startPos + 1)).2) := by
  simp [pass, List.zipIdx_cons, scan_cons]

theorem pass_append (maxSeqLen : Nat) (memory : Memory KV Rec) (front back : List Int)
    (startPos : Nat) : T.pass maxSeqLen false memory (front ++ back) startPos =
      ((T.pass maxSeqLen false (T.pass maxSeqLen false memory front startPos).1 back
          (startPos + front.length)).1,
        (T.pass maxSeqLen false memory front startPos).2 ++
          (T.pass maxSeqLen false (T.pass maxSeqLen false memory front startPos).1 back
            (startPos + front.length)).2) := by
  simp [pass, List.zipIdx_append, scan_append]

/-- Zeroing a state that is already clear changes nothing. -/
theorem pass_zero (maxSeqLen : Nat) (memory : Memory KV Rec) (tokens : List Int) (startPos : Nat)
    (clear : memory.recurrent = T.cleared) :
    T.pass maxSeqLen true memory tokens startPos = T.pass maxSeqLen false memory tokens startPos := by
  have same : { memory with recurrent := T.zeroLinear memory.recurrent } = memory := by
    rw [clear, T.zeroLinear_cleared, ← clear]
  simp [pass, same]

@[simp] theorem pass_length (maxSeqLen : Nat) (zeroLinear : Bool) (memory : Memory KV Rec)
    (tokens : List Int) (startPos : Nat) :
    (T.pass maxSeqLen zeroLinear memory tokens startPos).2.length = tokens.length := by
  simp [pass]

/-- A token forwarded at the agreed length extends the agreement by its slot. -/
theorem forward_agree {maxSeqLen len : Nat} {left right : Memory KV Rec} (token : Int)
    (agree : left.Agree len right) :
    (T.forward maxSeqLen left (token, len)).1.Agree (len + 1)
      (T.forward maxSeqLen right (token, len)).1 ∨ maxSeqLen ≤ len := by
  by_cases room : len < maxSeqLen
  · left
    have same := T.step_local maxSeqLen left.slots right.slots left.recurrent token len agree.1
    rw [agree.2] at same
    constructor
    · intro i below
      simp only [forward, if_pos room, Memory.write, agree.2, same]
      by_cases own : i = len
      · simp [own]
      · simp only [if_neg own]
        exact agree.1 i (by omega)
    · simp only [forward, agree.2, same]
  · exact Or.inr (Nat.le_of_not_lt room)

theorem forward_logits {maxSeqLen len : Nat} {left right : Memory KV Rec} (token : Int)
    (agree : left.Agree len right) :
    (T.forward maxSeqLen left (token, len)).2 = (T.forward maxSeqLen right (token, len)).2 := by
  have same := T.step_local maxSeqLen left.slots right.slots left.recurrent token len agree.1
  rw [agree.2] at same
  simp only [forward, agree.2, same]

/-- A pass within the cache extends the agreement over all its positions and
yields the same rows. -/
theorem pass_agree {maxSeqLen len : Nat} (tokens : List Int) {left right : Memory KV Rec}
    (agree : left.Agree len right) (room : len + tokens.length ≤ maxSeqLen) :
    (T.pass maxSeqLen false left tokens len).1.Agree (len + tokens.length)
        (T.pass maxSeqLen false right tokens len).1 ∧
      (T.pass maxSeqLen false left tokens len).2 = (T.pass maxSeqLen false right tokens len).2 := by
  induction tokens generalizing len left right with
  | nil => simpa using agree
  | cons token rest ih =>
      have inside : len + 1 + rest.length ≤ maxSeqLen := by simp at room; omega
      have next : (T.forward maxSeqLen left (token, len)).1.Agree (len + 1)
          (T.forward maxSeqLen right (token, len)).1 := by
        rcases T.forward_agree token agree with next | full
        · exact next
        · omega
      obtain ⟨last, rows⟩ := ih next inside
      have total : len + (token :: rest).length = len + 1 + rest.length := by simp; omega
      rw [pass_cons, pass_cons, total, rows, T.forward_logits token agree]
      exact ⟨last, rfl⟩

/-- The same under either value of the flag. -/
theorem pass_agree_flag {maxSeqLen len : Nat} (zeroLinear : Bool) (tokens : List Int)
    {left right : Memory KV Rec} (agree : left.Agree len right) (room : len + tokens.length ≤ maxSeqLen) :
    (T.pass maxSeqLen zeroLinear left tokens len).1.Agree (len + tokens.length)
        (T.pass maxSeqLen zeroLinear right tokens len).1 ∧
      (T.pass maxSeqLen zeroLinear left tokens len).2 = (T.pass maxSeqLen zeroLinear right tokens len).2 := by
  have flagged : ∀ memory : Memory KV Rec, T.pass maxSeqLen zeroLinear memory tokens len =
      T.pass maxSeqLen false (if zeroLinear && !tokens.isEmpty
        then { memory with recurrent := T.zeroLinear memory.recurrent } else memory) tokens len := by
    intro memory
    simp [pass]
  rw [flagged left, flagged right]
  refine T.pass_agree tokens ?_ room
  split
  · exact ⟨agree.1, congrArg T.zeroLinear agree.2⟩
  · exact agree

end Machine

end XInfer
