import XInfer.ForwardRules
import XInfer.Network
import Mathlib.Algebra.Ring.Int.Defs

/-!
The chunk size of `prefill_prompt`. What a prefill leaves is told by the pass over the
whole prompt, in which neither the chunks nor their edges appear: two chunk sizes leave
the same slots, the same conv and recurrent states, the same length and the same logits.
-/

namespace XInfer.ChunkedPrefill

open Primitives StateException Device DeviceRules Forward ForwardRules VisionGate Kernels

variable {Hidden Slot Acc Raw Conv State Logits KV Rec : Type}

/-- What two prefills of `n` tokens have in common. -/
structure SamePrefill (n : Nat) (left right : Device KV Rec Logits) : Prop where
  slots : ∀ i < n, left.kv.memory.slots i = right.kv.memory.slots i
  recurrent : left.kv.memory.recurrent = right.kv.memory.recurrent
  length : left.kv.currentSeqLen = right.kv.currentSeqLen
  logits : left.logits (.persistent .main) 0 = right.logits (.persistent .main) 0

/-- Any platform, with an exception only where it does not grant everything. -/
def whenGranting (P : Platform KV Rec) {maxSeqLen : Nat} (rowBytes : Nat) (word : maxSeqLen < 2 ^ 64) :
    Setting P maxSeqLen rowBytes where
  good := fun _ => True
  sized := fun _ _ => True
  requests := fun _ => True
  serving := P.Granting
  word := word
  forward := fun _ _ _ => trivial
  length := fun _ _ => trivial
  single := trivial
  request := fun _ _ _ _ _ => trivial
  reset_sized := fun _ _ _ => trivial
  allocate_sized := fun _ _ _ _ _ _ => trivial
  buffer_sized := fun _ _ _ _ _ _ _ => trivial
  serves_allocate := fun grants _ arena bytes _ => grants.allocate arena bytes
  serves_buffer := fun grants _ arena _ _ _ => grants.persistentBuffer arena _
  serves_submit := fun grants => grants.fault

/-- A prompt with a token outside the vocabulary never reaches the first chunk. -/
theorem prefillPrompt_unknown (B : Backend KV Rec Logits) (P : Platform KV Rec) {promptTokens : List Int}
    (nonempty : promptTokens ≠ []) (text : visualTokenCount B.config promptTokens = 0)
    (unknown : ¬ ∀ tok ∈ promptTokens, B.config.InVocab tok) {d : Device KV Rec Logits}
    (room : promptTokens.length ≤ d.kv.maxSeqLen) (chunkSize : Nat) :
    prefillPrompt B P promptTokens chunkSize d = .ok (-1) d := by
  have inside : ¬ d.kv.maxSeqLen < promptTokens.length := Nat.not_lt.mpr room
  have passes : checkVision B.config none promptTokens = .ok 0 := by
    rcases checkVision_none B.config promptTokens with ⟨_, passes⟩ | ⟨present, _⟩
    · exact passes
    · omega
  have refused : ¬ promptTokens.all (fun token => decide (B.config.InVocab token)) = true := by
    simpa using unknown
  rw [prefillPrompt, if_neg nonempty, bind_apply, read_apply]
  dsimp only
  rw [if_neg inside, passes, raise_bind, if_neg refused]
  rfl

section Prefill
variable [Zero Raw] [Zero State] [Zero Slot] (N : Network Hidden Slot Acc Raw Conv State Logits)
  {P : Platform (Fin (Layer.numFull N.layers) → Slot) (Fin (Layer.numLinear N.layers) → LinearState Raw State)}
  {d : Device (Fin (Layer.numFull N.layers) → Slot) (Fin (Layer.numLinear N.layers) → LinearState Raw State)
    Logits}

/-- What any chunk size leaves of a prompt that passes the checks: the pass of the
machine over the whole of it. -/
theorem prefillPrompt_readable (word : d.kv.maxSeqLen < 2 ^ 64)
    (within : d.kv.currentSeqLen ≤ d.kv.maxSeqLen) {promptTokens : List Int} (nonempty : promptTokens ≠ [])
    (readable : Readable N.config promptTokens) (room : promptTokens.length ≤ d.kv.maxSeqLen) (chunkSize : Nat) :
    match prefillPrompt N.backend P promptTokens chunkSize d with
      | .ok answer after => after.kv = prefilled N.machine d.kv promptTokens ∧
          firstToken N.machine d.kv.maxSeqLen (d.kv.clear N.cleared).memory promptTokens = some answer ∧
          (N.machine.pass d.kv.maxSeqLen false (d.kv.clear N.cleared).memory promptTokens 0).2.getLast? =
            some (after.logits (.persistent .main) 0)
      | .error _ _ => ¬ P.Granting := by
  have start : Holds (whenGranting P N.config.logitsBytes word) d.kv d :=
    ⟨rfl, fun _ => trivial, fun _ _ => trivial⟩
  have rule := prefillPrompt_rule N.machine (S := whenGranting P N.config.logitsBytes word)
    ⟨rfl, within⟩ nonempty room chunkSize d start
  rw [N.machine_backend] at rule
  cases run : prefillPrompt N.backend P promptTokens chunkSize d with
  | ok answer after =>
      rw [run] at rule
      rcases rule with ⟨_, holds, chosen, last⟩ | ⟨unread, _⟩
      · exact ⟨holds.cache, chosen, last⟩
      · exact absurd readable unread
  | error thrown after =>
      rw [run] at rule
      rcases rule with ⟨unread, _⟩ | broken
      · exact absurd readable unread
      · exact broken.unserved

end Prefill

section Example

/-- A full and a linear layer over the integers. -/
def twoLayers : Network Int Int Int Int Int Int Int where
  config := ModelConfig.defaults
  embed := fun tok => tok
  layers := [
    .full {
      slot := fun x position => x + position
      start := 0
      absorb := fun _ _ acc slot => 2 * acc + slot
      close := fun x _ acc => x + acc },
    .linear {
      raw := fun x => x
      convolve := fun s0 s1 s2 x => s0 + 2 * s1 + 3 * s2 + 4 * x
      delta := fun x conv state => (state + conv, x + state) }]
  head := fun x => x
  argmax := fun x => if 0 ≤ x ∧ x < 248320 then x else 0
  argmax_inVocab := by
    intro x
    show 0 ≤ (if 0 ≤ x ∧ x < 248320 then x else 0) ∧ (if 0 ≤ x ∧ x < 248320 then x else 0) < 248320
    split <;> omega

def fourSlots : Device (Fin 1 → Int) (Fin 1 → LinearState Int Int) Int where
  kv := { maxSeqLen := 4, currentSeqLen := 0, memory := { slots := fun _ _ => 0, recurrent := fun _ => ⟨⟨0, 0, 0⟩, 0⟩ },
          checkpoint := fun _ => ⟨⟨0, 0, 0⟩, 0⟩, hasRecurrentCheckpoint := false }
  arena := fun _ => DeviceArena.create 64 268435456
  logits := fun _ _ => 0
  submissions := 0
  events := []

end Example

end XInfer.ChunkedPrefill
