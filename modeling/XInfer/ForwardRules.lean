import XInfer.DeviceRules
import XInfer.Forward

/-!
What the host functions of the forward pass do to the cache of a machine, as
triples over `Holds`. Each rule names the cache that the function leaves and the
token it answers; the caller never looks into the function again.
-/

namespace XInfer.ForwardRules

open Primitives StateException Device DeviceRules Forward VisionGate

variable {KV Rec Logits : Type} (T : Machine KV Rec Logits)

/-- The cache after a pass; the length counter is not the pass's concern. -/
def passed (kv : KVCache KV Rec) (zeroLinear : Bool) (tokens : List Int) (startPos : Nat) :
    KVCache KV Rec :=
  { kv with memory := (T.pass kv.maxSeqLen zeroLinear kv.memory tokens startPos).1 }

/-- The logits after one token fed at the current length. -/
def row (kv : KVCache KV Rec) (tok : Int) : Logits :=
  (T.forward kv.maxSeqLen kv.memory (tok, kv.currentSeqLen)).2

def next (kv : KVCache KV Rec) (tok : Int) : Int := T.argmax (row T kv tok)

/-- The cache after one token fed at the current length. -/
def fed (kv : KVCache KV Rec) (tok : Int) : KVCache KV Rec :=
  { kv with
    memory := (T.forward kv.maxSeqLen kv.memory (tok, kv.currentSeqLen)).1
    currentSeqLen := kv.currentSeqLen + 1 }

/-- The drafts of a round, each the machine's choice after the one before. -/
def drafts : Nat → KVCache KV Rec → Int → List Int × KVCache KV Rec
  | 0, kv, _ => ([], kv)
  | count + 1, kv, tok =>
      let later := drafts count (fed T kv tok) (next T kv tok)
      (next T kv tok :: later.1, later.2)

@[simp] theorem drafts_length (count : Nat) (kv : KVCache KV Rec) (tok : Int) :
    (drafts T count kv tok).1.length = count := by
  induction count generalizing kv tok with
  | zero => rfl
  | succ count ih => simp [drafts, ih]

theorem next_chosen (kv : KVCache KV Rec) (tok : Int) : T.Chooses (next T kv tok) :=
  ⟨row T kv tok, rfl⟩

theorem drafts_chosen (count : Nat) (kv : KVCache KV Rec) (tok : Int) :
    ∀ draft ∈ (drafts T count kv tok).1, T.Chooses draft := by
  induction count generalizing kv tok with
  | zero => simp [drafts]
  | succ count ih =>
      intro draft member
      rcases List.mem_cons.mp member with rfl | later
      · exact next_chosen T kv tok
      · exact ih _ _ draft later

/-- Drafting moves the length and the memory only. -/
theorem drafts_cache (count : Nat) (kv : KVCache KV Rec) (tok : Int) :
    (drafts T count kv tok).2.currentSeqLen = kv.currentSeqLen + count ∧
      (drafts T count kv tok).2.maxSeqLen = kv.maxSeqLen ∧
      (drafts T count kv tok).2.checkpoint = kv.checkpoint ∧
      (drafts T count kv tok).2.hasRecurrentCheckpoint = kv.hasRecurrentCheckpoint := by
  induction count generalizing kv tok with
  | zero => exact ⟨rfl, rfl, rfl, rfl⟩
  | succ count ih =>
      obtain ⟨len, size, saved, has⟩ := ih (fed T kv tok) (next T kv tok)
      refine ⟨len.trans ?_, size, saved, has⟩
      simp only [fed]
      omega

variable {P : Platform KV Rec} {maxSeqLen : Nat} {S : Setting P maxSeqLen T.config.logitsBytes}
  {kv : KVCache KV Rec}

theorem acquire_rule (fits : Fits maxSeqLen kv) (owner : Owner) (n : Nat) :
    Triple (Holds S kv) (acquire T.backend P owner n) (fun _ => Holds S kv) (fun _ => Broken S) := by
  apply triple_bind (allocate_rule fits owner (n * 8))
  intro _
  apply triple_bind (submit_holds fits)
  intro _
  apply triple_bind (allocate_rule fits owner (n * 8))
  intro _
  apply triple_bind (submit_holds fits)
  intro _
  apply triple_bind (allocateAll_rule fits owner _)
  exact fun _ => submit_holds fits

theorem runLayers_rule (zeroLinear : Bool) (tokens : List Int)
    (startPos : Nat) (room : startPos + tokens.length ≤ maxSeqLen) :
    Triple (Holds S kv) (runLayers T.backend zeroLinear tokens startPos)
      (fun rows d => Holds S (passed T kv zeroLinear tokens startPos) d ∧
        rows = (T.pass kv.maxSeqLen zeroLinear kv.memory tokens startPos).2)
      (fun _ => Broken S) := by
  intro d holds
  exact holds.runPass T zeroLinear tokens startPos room

theorem writeLogits_here (buffer : Buffer) (first i : Nat) (rows : List Logits)
    (d : Device KV Rec Logits) (inside : i < rows.length) :
    (d.writeLogits buffer first rows).logits buffer (first + i) = rows[i] := by
  have below : first ≤ first + i := Nat.le_add_right _ _
  simp [Device.writeLogits, below, inside]

/-- A chunk within the cache: one pass, and the last row where it was asked for. -/
theorem forwardChunk_rule (fits : Fits maxSeqLen kv) (owner : Owner) {tokens : List Int}
    {startPos : Nat} (nonempty : tokens ≠ []) (room : startPos + tokens.length ≤ maxSeqLen)
    (zeroLinear : Bool) (out : Option (Buffer × Nat)) :
    Triple (Holds S kv) (forwardChunk T.backend P owner tokens startPos zeroLinear out)
      (fun _ d => Holds S (passed T kv zeroLinear tokens startPos) d ∧
        ∀ buffer i, out = some (buffer, i) →
          (T.pass kv.maxSeqLen zeroLinear kv.memory tokens startPos).2.getLast? =
            some (d.logits buffer i))
      (fun _ => Broken S) := by
  have inside : ¬ kv.maxSeqLen < startPos + tokens.length := by rw [fits.size]; omega
  have after : Fits maxSeqLen (passed T kv zeroLinear tokens startPos) := ⟨fits.size, fits.within⟩
  unfold forwardChunk
  rw [if_neg nonempty]
  apply triple_known fun d holds => holds.cache
  rw [if_neg inside]
  apply triple_then (Holds S kv)
  · exact triple_modify _ fun d holds => holds.setArena owner (S.reset_sized owner _ (holds.arenas owner))
  · intro _
    apply triple_bind (acquire_rule T fits owner tokens.length)
    intro _
    apply triple_bind (runLayers_rule T zeroLinear tokens startPos room)
    intro rows
    cases out with
    | none =>
        apply triple_pure
        rintro d ⟨holds, _⟩
        exact ⟨holds, fun buffer i absent => by cases absent⟩
    | some place =>
        obtain ⟨buffer, i⟩ := place
        rintro d ⟨holds, same⟩
        have written : Triple (Holds S (passed T kv zeroLinear tokens startPos)) (do
              submit P
              modify (Device.writeLogits buffer i (rows.drop (tokens.length - 1))))
            (fun _ d => Holds S (passed T kv zeroLinear tokens startPos) d ∧
              rows.getLast? = some (d.logits buffer i)) (fun _ => Broken S) := by
          apply triple_bind (submit_holds after)
          intro _
          apply triple_modify
          intro d holds
          refine ⟨holds.writeLogits buffer i _, ?_⟩
          have width : rows.length = tokens.length := by rw [same, T.pass_length]
          have positive : 0 < tokens.length := List.length_pos_iff.mpr nonempty
          have one : 0 < (rows.drop (tokens.length - 1)).length := by
            rw [List.length_drop]
            omega
          have here := writeLogits_here buffer i 0 _ d one
          rw [Nat.add_zero] at here
          rw [here, List.getElem_drop, List.getLast?_eq_getElem?, width,
            List.getElem?_eq_getElem (by omega)]
          simp
        refine triple_conseq written (fun _ holds => holds) ?_ (fun _ _ broken => broken) d holds
        rintro _ d ⟨holds, last⟩
        refine ⟨holds, fun other j place => ?_⟩
        cases place
        rw [← same]
        exact last

theorem pass_single (kv : KVCache KV Rec) (tok : Int) :
    (T.pass kv.maxSeqLen false kv.memory [tok] kv.currentSeqLen).2 = [row T kv tok] ∧
      { passed T kv false [tok] kv.currentSeqLen with currentSeqLen := kv.currentSeqLen + 1 } =
        fed T kv tok := by
  simp [passed, fed, row, Machine.pass_cons]

theorem fed_fits (fits : Fits maxSeqLen kv) (room : kv.currentSeqLen < maxSeqLen) (tok : Int) :
    Fits maxSeqLen (fed T kv tok) := ⟨fits.size, room⟩

theorem rowBuffer_rule (fits : Fits maxSeqLen kv) (owner : Owner) :
    Triple (Holds S kv)
      (persistentBuffer P owner T.config.logitsBytes : DeviceM KV Rec Logits Unit)
      (fun _ => Holds S kv) (fun _ => Broken S) := by
  have one : Triple (Holds S kv)
      (persistentBuffer P owner (1 * T.config.logitsBytes) : DeviceM KV Rec Logits Unit)
      (fun _ => Holds S kv) (fun _ => Broken S) := persistentBuffer_rule fits owner S.single
  rwa [Nat.one_mul] at one

/-- The counter moves once the slot is written, and the token is chosen after that. -/
theorem advance_choose_rule (fits : Fits maxSeqLen kv) (room : kv.currentSeqLen < maxSeqLen)
    (tok : Int) (buffer : Buffer) (i : Nat) :
    Triple (fun d => Holds S (passed T kv false [tok] kv.currentSeqLen) d ∧
        d.logits buffer i = row T kv tok)
      (do
        let moved ← advance 1
        if moved then argmax T.backend P buffer i else pure (-1))
      (fun answer d => Holds S (fed T kv tok) d ∧ d.logits buffer i = row T kv tok ∧
        answer = next T kv tok) (fun _ => Broken S) := by
  have moves : Triple (fun d => Holds S (passed T kv false [tok] kv.currentSeqLen) d ∧
        d.logits buffer i = row T kv tok) (advance 1)
      (fun moved d => moved = true ∧ Holds S (fed T kv tok) d ∧ d.logits buffer i = row T kv tok)
      (fun _ => Broken S) := by
    rw [← (pass_single T kv tok).2]
    have after : Fits maxSeqLen (passed T kv false [tok] kv.currentSeqLen) := ⟨fits.size, fits.within⟩
    exact advance_rule after room fun rows => rows buffer i = row T kv tok
  apply triple_bind moves
  intro moved
  cases moved with
  | false =>
      rintro d ⟨refused, _⟩
      cases refused
  | true =>
      rw [if_pos rfl]
      exact triple_conseq (argmax_rule T (fed_fits T fits room tok) buffer i (row T kv tok))
        (fun _ both => both.2) (fun _ _ done => done) fun _ _ broken => broken

/-- The part of `decode_step` that follows the choice of the buffer. -/
theorem feed_rule (fits : Fits maxSeqLen kv) (room : kv.currentSeqLen < maxSeqLen)
    (owner : Owner) (tok : Int) (buffer : Buffer) (i : Nat) :
    Triple (Holds S kv)
      (do
        forwardChunk T.backend P owner [tok] kv.currentSeqLen false (some (buffer, i))
        let moved ← advance 1
        if moved then argmax T.backend P buffer i else pure (-1))
      (fun answer d => Holds S (fed T kv tok) d ∧ d.logits buffer i = row T kv tok ∧
        answer = next T kv tok) (fun _ => Broken S) := by
  apply triple_bind (forwardChunk_rule T fits owner (List.cons_ne_nil tok []) room false
    (some (buffer, i)))
  intro _
  refine triple_conseq (advance_choose_rule T fits room tok buffer i) ?_
    (fun _ _ done => done) fun _ _ broken => broken
  rintro d ⟨holds, written⟩
  have last := written buffer i rfl
  rw [(pass_single T kv tok).1] at last
  exact ⟨holds, (Option.some.inj last).symm⟩

/-- `decode_step` within the cache feeds its token at the current length. -/
theorem decodeStep_rule (fits : Fits maxSeqLen kv) (room : kv.currentSeqLen < maxSeqLen)
    (owner : Owner) {tok : Int} (known : T.config.InVocab tok) (dLogits : Option Nat) :
    Triple (Holds S kv) (decodeStep T.backend P owner tok dLogits)
      (fun answer d => Holds S (fed T kv tok) d ∧
        (∀ i, dLogits = some i → d.logits .caller i = row T kv tok) ∧ answer = next T kv tok)
      (fun _ => Broken S) := by
  have unfilled : ¬ kv.maxSeqLen ≤ kv.currentSeqLen := by rw [fits.size]; omega
  unfold decodeStep
  apply triple_known fun d holds => holds.cache
  rw [if_neg unfilled, Machine.backend_config, if_pos known]
  cases dLogits with
  | some i =>
      refine triple_conseq (feed_rule T fits room owner tok .caller i) (fun _ holds => holds) ?_
        fun _ _ broken => broken
      rintro answer d ⟨holds, written, same⟩
      exact ⟨holds, fun j place => by cases place; exact written, same⟩
  | none =>
      apply triple_bind (rowBuffer_rule T fits owner)
      intro _
      refine triple_conseq (feed_rule T fits room owner tok (.persistent owner) 0)
        (fun _ holds => holds) ?_ fun _ _ broken => broken
      rintro answer d ⟨holds, _, same⟩
      exact ⟨holds, fun j absent => (by cases absent), same⟩

/-- The captured pass writes the slot and chooses; its caller moves the counter. -/
theorem graphDecodeStep_rule (fits : Fits maxSeqLen kv) (room : kv.currentSeqLen < maxSeqLen)
    (owner : Owner) {tok : Int} (known : T.config.InVocab tok) :
    Triple (Holds S kv) (graphDecodeStep T.backend P owner tok kv.currentSeqLen)
      (fun answer d => Holds S (passed T kv false [tok] kv.currentSeqLen) d ∧
        answer = next T kv tok) (fun _ => Broken S) := by
  have unfilled : ¬ kv.maxSeqLen ≤ kv.currentSeqLen := by rw [fits.size]; omega
  have after : Fits maxSeqLen (passed T kv false [tok] kv.currentSeqLen) := ⟨fits.size, fits.within⟩
  unfold graphDecodeStep
  rw [Machine.backend_config, if_pos known]
  apply triple_known fun d holds => holds.cache
  rw [if_neg unfilled]
  apply triple_bind (submit_holds fits)
  intro _
  apply triple_bind (runLayers_rule T false [tok] kv.currentSeqLen room)
  intro rows
  apply triple_then fun d => Holds S (passed T kv false [tok] kv.currentSeqLen) d ∧
    d.logits (.graph owner) 0 = row T kv tok
  · apply triple_modify
    rintro d ⟨holds, rfl⟩
    refine ⟨holds.writeLogits _ _ _, ?_⟩
    rw [(pass_single T kv tok).1]
    exact writeLogits_here (.graph owner) 0 0 [row T kv tok] d Nat.one_pos
  · intro _
    exact triple_conseq (argmax_rule T after (.graph owner) 0 (row T kv tok)) (fun _ both => both)
      (fun _ _ done => ⟨done.1, done.2.2⟩) fun _ _ broken => broken

theorem next_inVocab (kv : KVCache KV Rec) (tok : Int) : T.config.InVocab (next T kv tok) :=
  T.argmax_inVocab _

/-- Captured or eager, a step within the cache feeds its token and never reports
a failure. -/
theorem singleStep_rule (fits : Fits maxSeqLen kv) (room : kv.currentSeqLen < maxSeqLen)
    (owner : Owner) (captured : Bool) {tok : Int} (known : T.config.InVocab tok) :
    Triple (Holds S kv) (singleStep T.backend P owner captured tok)
      (fun answer d => Holds S (fed T kv tok) d ∧ answer = next T kv tok) (fun _ => Broken S) := by
  have nonneg : ¬ next T kv tok < 0 := by have := (next_inVocab T kv tok).1; omega
  have after : Fits maxSeqLen (passed T kv false [tok] kv.currentSeqLen) := ⟨fits.size, fits.within⟩
  unfold singleStep
  cases captured with
  | false =>
      exact triple_conseq (decodeStep_rule T fits room owner known none) (fun _ holds => holds)
        (fun _ _ done => ⟨done.1, done.2.2⟩) fun _ _ broken => broken
  | true =>
      rw [if_pos rfl]
      apply triple_known fun d holds => holds.cache
      apply triple_bind (graphDecodeStep_rule T fits room owner known)
      rintro answer d ⟨holds, rfl⟩
      rw [if_neg nonneg]
      have moves : Triple (fun d => Holds S (passed T kv false [tok] kv.currentSeqLen) d ∧ True)
          ((do
            let moved ← advance 1
            if moved then pure (next T kv tok) else pure (-1)) : DeviceM KV Rec Logits Int)
          (fun answer d => Holds S (fed T kv tok) d ∧ answer = next T kv tok)
          (fun _ => Broken S) := by
        rw [← (pass_single T kv tok).2]
        apply triple_bind (advance_rule after room fun _ => True)
        rintro moved d ⟨rfl, holds, _⟩
        exact ⟨holds, rfl⟩
      exact moves d ⟨holds, trivial⟩

/-- Each draft is the machine's own choice after the one before it. -/
theorem draftSteps_rule (captured : Bool) (left : Nat) {tok : Int}
    (known : T.config.InVocab tok) (before : List Int) (fits : Fits maxSeqLen kv)
    (room : kv.currentSeqLen + left ≤ maxSeqLen) :
    Triple (Holds S kv) (draftSteps T.backend P captured left tok before)
      (fun draft d => Holds S (drafts T left kv tok).2 d ∧
        draft = { tokens := before ++ (drafts T left kv tok).1 }) (fun _ => Broken S) := by
  induction left generalizing kv tok before with
  | zero =>
      apply triple_pure
      intro d holds
      exact ⟨holds, by rw [drafts, List.append_nil]⟩
  | succ left ih =>
      have space : kv.currentSeqLen < maxSeqLen := by omega
      have unfilled : ¬ kv.maxSeqLen ≤ kv.currentSeqLen := by rw [fits.size]; omega
      have nonneg : ¬ next T kv tok < 0 := by have := (next_inVocab T kv tok).1; omega
      unfold draftSteps
      apply triple_known fun d holds => holds.cache
      rw [if_neg unfilled]
      apply triple_bind (singleStep_rule T fits space .draft captured known)
      rintro answer d ⟨holds, rfl⟩
      rw [if_neg nonneg]
      have later := ih (next_inVocab T kv tok) (before ++ [next T kv tok])
        (fed_fits T fits space tok) (by simp only [fed]; omega) d holds
      simpa only [drafts, List.append_assoc, List.singleton_append] using later

theorem draftDecodeLoop_rule (captured : Bool) (count : Nat) {tok : Int}
    (known : T.config.InVocab tok) (fits : Fits maxSeqLen kv)
    (room : kv.currentSeqLen + count ≤ maxSeqLen) :
    Triple (Holds S kv) (draftDecodeLoop T.backend P captured tok count)
      (fun draft d => Holds S (drafts T count kv tok).2 d ∧
        draft = { tokens := (drafts T count kv tok).1 }) (fun _ => Broken S) := by
  have small : kv.currentSeqLen + count < 2 ^ 64 := by have := S.word; omega
  have within : ¬ kv.maxSeqLen < sizeAdd kv.currentSeqLen count := by
    rw [fits.size, sizeAdd_of_lt small]
    omega
  unfold draftDecodeLoop
  by_cases none : count = 0
  · subst none
    rw [if_pos rfl]
    exact triple_pure _ fun d holds => ⟨holds, rfl⟩
  · rw [if_neg none]
    apply triple_known fun d holds => holds.cache
    rw [if_neg within]
    exact draftSteps_rule T captured count known [] fits room

theorem find_outOfVocab {tokens : List Int} (known : ∀ tok ∈ tokens, T.config.InVocab tok)
    (first : Nat) : (tokens.zipIdx first).find?
      (fun pair => decide (¬ T.backend.config.InVocab pair.1)) = none := by
  rw [List.find?_eq_none]
  rintro ⟨tok, i⟩ member
  have inside : tok ∈ tokens := List.fst_mem_of_mem_zipIdx member
  simp [known tok inside]

/-- Verification overwrites the slots from the prefix on, and leaves one row for
each draft in the main buffer. -/
theorem forwardVerify_rule (fits : Fits maxSeqLen kv) {tokens : List Int} (nonempty : tokens ≠ [])
    (known : ∀ tok ∈ tokens, T.config.InVocab tok) (prefixLen : Nat)
    (room : prefixLen + tokens.length ≤ maxSeqLen) :
    Triple (Holds S kv) (forwardVerify T.backend P tokens prefixLen)
      (fun _ d => Holds S (passed T kv false tokens prefixLen) d ∧
        (List.range tokens.length).map (d.logits (.persistent .main)) =
          (T.pass kv.maxSeqLen false kv.memory tokens prefixLen).2) (fun _ => Broken S) := by
  have inside : ¬ kv.maxSeqLen < prefixLen + tokens.length := by rw [fits.size]; omega
  have after : Fits maxSeqLen (passed T kv false tokens prefixLen) := ⟨fits.size, fits.within⟩
  unfold forwardVerify
  rw [if_neg nonempty]
  apply triple_known fun d holds => holds.cache
  rw [if_neg inside, find_outOfVocab T known]
  apply triple_bind (acquire_rule T fits .main tokens.length)
  intro _
  apply triple_bind (runLayers_rule T false tokens prefixLen room)
  intro rows
  apply triple_then fun d => Holds S (passed T kv false tokens prefixLen) d ∧
    (List.range tokens.length).map (d.logits (.persistent .main)) =
      (T.pass kv.maxSeqLen false kv.memory tokens prefixLen).2
  · apply triple_modify
    rintro d ⟨holds, rfl⟩
    refine ⟨holds.writeLogits _ _ _, ?_⟩
    apply List.ext_getElem
    · simp
    · intro i left right
      rw [List.getElem_map, List.getElem_range]
      have here := writeLogits_here (.persistent .main) 0 i _ d right
      rwa [Nat.zero_add] at here
  · intro _
    exact submit_rule after fun rows => (List.range tokens.length).map
      (rows (.persistent .main)) = (T.pass kv.maxSeqLen false kv.memory tokens prefixLen).2

theorem passed_append (kv : KVCache KV Rec) (front back : List Int) :
    passed T (passed T kv false front 0) false back front.length =
      passed T kv false (front ++ back) 0 := by
  simp [passed, Machine.pass_append]

/-- A later chunk continues the pass over the tokens before it. -/
theorem pass_rows_last (kv : KVCache KV Rec) (front : List Int) {back : List Int}
    (nonempty : back ≠ []) :
    (T.pass kv.maxSeqLen false kv.memory (front ++ back) 0).2.getLast? =
      (T.pass kv.maxSeqLen false (passed T kv false front 0).memory back front.length).2.getLast? := by
  rw [Machine.pass_append, Nat.zero_add]
  apply List.getLast?_append_of_ne_nil
  intro empty
  have width := congrArg List.length empty
  rw [Machine.pass_length, List.length_nil] at width
  exact nonempty (List.length_eq_zero_iff.mp width)

/-- The flag is raised for the first chunk only, where the state is already clear. -/
theorem passed_zero (clear : kv.memory.recurrent = T.cleared) (front back : List Int) :
    T.pass kv.maxSeqLen (decide (front.length = 0)) (passed T kv false front 0).memory back
        front.length =
      T.pass kv.maxSeqLen false (passed T kv false front 0).memory back front.length := by
  cases front with
  | nil =>
      apply T.pass_zero
      simpa [passed] using clear
  | cons tok rest => rfl

/-- One chunk of a prompt continues the pass over the chunks before it. -/
theorem chunk_rule (clear : kv.memory.recurrent = T.cleared) (fits : Fits maxSeqLen kv)
    (front : List Int) {back : List Int} (nonempty : back ≠ [])
    (room : front.length + back.length ≤ maxSeqLen) (out : Option (Buffer × Nat)) :
    Triple (Holds S (passed T kv false front 0))
      (forwardChunk T.backend P .main back front.length (decide (front.length = 0)) out)
      (fun _ d => Holds S (passed T kv false (front ++ back) 0) d ∧
        ∀ buffer i, out = some (buffer, i) →
          (T.pass kv.maxSeqLen false kv.memory (front ++ back) 0).2.getLast? =
            some (d.logits buffer i)) (fun _ => Broken S) := by
  have middle : Fits maxSeqLen (passed T kv false front 0) := ⟨fits.size, fits.within⟩
  have unzeroed := passed_zero T clear front back
  refine triple_conseq (forwardChunk_rule T middle .main nonempty room _ out)
    (fun _ holds => holds) ?_ fun _ _ broken => broken
  rintro _ d ⟨holds, written⟩
  constructor
  · have same : passed T (passed T kv false front 0) (decide (front.length = 0)) back front.length =
        passed T (passed T kv false front 0) false back front.length :=
      congrArg (fun result => { passed T kv false front 0 with memory := result.1 }) unzeroed
    rw [← passed_append, ← same]
    exact holds
  · intro buffer i place
    rw [pass_rows_last T kv front nonempty, ← written buffer i place]
    exact congrArg (fun result => result.2.getLast?) unzeroed.symm

theorem prefillChunks_nil (B : Backend KV Rec Logits) (chunkSize fuel offset : Nat) :
    prefillChunks B P chunkSize fuel [] offset = pure () := by
  cases fuel <;> simp [prefillChunks]

/-- The chunks of a prompt are one pass over it, whatever the chunk size. -/
theorem prefillChunks_rule {chunkSize : Nat} (positive : 0 < chunkSize)
    (clear : kv.memory.recurrent = T.cleared) (fits : Fits maxSeqLen kv) (fuel : Nat)
    (front pending : List Int) (nonempty : pending ≠ []) (enough : pending.length ≤ fuel)
    (room : front.length + pending.length ≤ maxSeqLen) :
    Triple (Holds S (passed T kv false front 0))
      (prefillChunks T.backend P chunkSize fuel pending front.length)
      (fun _ d => Holds S (passed T kv false (front ++ pending) 0) d ∧
        (T.pass kv.maxSeqLen false kv.memory (front ++ pending) 0).2.getLast? =
          some (d.logits (.persistent .main) 0)) (fun _ => Broken S) := by
  induction fuel generalizing front pending with
  | zero => exact absurd (List.length_eq_zero_iff.mp (Nat.le_zero.mp enough)) nonempty
  | succ fuel ih =>
      have some : 0 < pending.length := List.length_pos_iff.mpr nonempty
      unfold prefillChunks
      rw [if_neg nonempty]
      dsimp only
      by_cases last : pending.length ≤ chunkSize
      · rw [List.take_of_length_le last, List.drop_of_length_le last, prefillChunks_nil,
          if_pos (decide_eq_true last)]
        apply triple_bind (chunk_rule T clear fits front nonempty room _)
        rintro _ d ⟨holds, written⟩
        exact ⟨holds, written _ _ rfl⟩
      · -- the rest of the prompt is another prefill from where this chunk ends
        have width : (pending.take chunkSize).length = chunkSize := by
          rw [List.length_take]
          omega
        have rest : (pending.drop chunkSize).length = pending.length - chunkSize :=
          List.length_drop
        have taken : pending.take chunkSize ≠ [] := List.length_pos_iff.mp (by omega)
        have left : pending.drop chunkSize ≠ [] := List.length_pos_iff.mp (by omega)
        have total : (front ++ pending.take chunkSize).length = front.length + chunkSize := by
          rw [List.length_append, width]
        apply triple_bind (chunk_rule T clear fits front taken (by omega) _)
        rintro _ d ⟨holds, _⟩
        have later := ih (front ++ pending.take chunkSize) (pending.drop chunkSize) left
          (by omega) (by omega) d holds
        rw [total, List.append_assoc, List.take_append_drop] at later
        rw [width]
        exact later

/-- A prompt that the checks before the first pass let through. -/
def Readable (config : ModelConfig) (promptTokens : List Int) : Prop :=
  visualTokenCount config promptTokens = 0 ∧ ∀ tok ∈ promptTokens, config.InVocab tok

theorem exists_fresh (tokens : List Int) : ∃ fresh : Nat, ∀ tok ∈ tokens, tok < fresh := by
  induction tokens with
  | nil => exact ⟨0, by simp⟩
  | cons tok rest ih =>
      obtain ⟨fresh, above⟩ := ih
      refine ⟨max fresh (tok.toNat + 1), ?_⟩
      intro other member
      rcases List.mem_cons.mp member with rfl | later
      · omega
      · have := above other later
        omega

/-- A configuration without visual tokens, its vocabulary two tokens past `fresh`. -/
def textConfig (fresh : Nat) : ModelConfig := { ModelConfig.defaults with
  vocabSize := (fresh : Int) + 2, visualTokenStart := 0, visualTokenEnd := -1 }

theorem textConfig_readable {fresh : Nat} {tokens : List Int} (above : ∀ tok ∈ tokens, tok < fresh)
    (nonneg : ∀ tok ∈ tokens, 0 ≤ tok) : Readable (textConfig fresh) tokens := by
  constructor
  · apply List.countP_eq_zero.mpr
    intro tok member visual
    have seen := (VisionGate.isVisual_iff _ tok).mp visual
    dsimp only [textConfig] at seen
    omega
  · intro tok member
    have := nonneg tok member
    have := above tok member
    constructor
    · omega
    · dsimp only [textConfig]
      omega

/-- The cache after the prefill of a prompt. -/
def prefilled (kv : KVCache KV Rec) (promptTokens : List Int) : KVCache KV Rec :=
  { passed T (kv.clear T.cleared) false promptTokens 0 with currentSeqLen := promptTokens.length }

/-- The choice after the prompt. -/
def firstToken (maxSeqLen : Nat) (memory : Memory KV Rec) (promptTokens : List Int) : Option Int :=
  (T.pass maxSeqLen false memory promptTokens 0).2.getLast?.map T.argmax

theorem firstToken_chosen {size : Nat} {memory : Memory KV Rec} {promptTokens : List Int}
    {answer : Int} (chosen : firstToken T size memory promptTokens = some answer) :
    T.Chooses answer := by
  obtain ⟨logits, _, same⟩ := Option.map_eq_some_iff.mp chosen
  exact ⟨logits, same⟩

/-- What `prefill_prompt` does once the prompt has passed its checks. -/
theorem prefill_readable_rule (fits : Fits maxSeqLen kv) {promptTokens : List Int}
    (nonempty : promptTokens ≠ []) (room : promptTokens.length ≤ maxSeqLen) {chunkSize : Nat}
    (positive : 0 < chunkSize) :
    Triple (Holds S kv)
      (do
        clear T.backend P
        persistentBuffer P .main T.config.logitsBytes
        prefillChunks T.backend P chunkSize promptTokens.length promptTokens 0
        modify fun d => d.setLength (d.kv.setSeqLen promptTokens.length)
        argmax T.backend P (.persistent .main) 0)
      (fun answer d => Holds S (prefilled T kv promptTokens) d ∧
        firstToken T kv.maxSeqLen (kv.clear T.cleared).memory promptTokens = some answer ∧
        (T.pass kv.maxSeqLen false (kv.clear T.cleared).memory promptTokens 0).2.getLast? =
          some (d.logits (.persistent .main) 0))
      (fun _ => Broken S) := by
  have clean := fits.clear T.cleared
  have start : passed T (kv.clear T.cleared) false [] 0 = kv.clear T.cleared := by
    rw [passed, Machine.pass_nil]
  have after : Fits maxSeqLen (passed T (kv.clear T.cleared) false promptTokens 0) :=
    ⟨clean.size, clean.within⟩
  have filled : Fits maxSeqLen (prefilled T kv promptTokens) := ⟨clean.size, room⟩
  apply triple_bind (clear_rule T fits)
  intro _
  apply triple_bind (rowBuffer_rule T clean .main)
  intro _
  have chunks : Triple (Holds S (kv.clear T.cleared))
      (prefillChunks T.backend P chunkSize promptTokens.length promptTokens 0)
      (fun _ d => Holds S (passed T (kv.clear T.cleared) false promptTokens 0) d ∧
        (T.pass kv.maxSeqLen false (kv.clear T.cleared).memory promptTokens 0).2.getLast? =
          some (d.logits (.persistent .main) 0)) (fun _ => Broken S) := by
    have rule : Triple (Holds S (passed T (kv.clear T.cleared) false [] 0)) _ _ _ :=
      prefillChunks_rule T positive (KVCache.clear_recurrent _ _) clean promptTokens.length []
        promptTokens nonempty (Nat.le_refl _) (by simpa using room)
    rwa [start] at rule
  apply triple_bind chunks
  intro _
  rintro d ⟨holds, written⟩
  refine triple_bind (setSeqLen_rule after room fun rows =>
    (T.pass kv.maxSeqLen false (kv.clear T.cleared).memory promptTokens 0).2.getLast? =
      some (rows (.persistent .main) 0)) ?_ d ⟨holds, written⟩
  rintro _ d ⟨holds, written⟩
  refine triple_conseq (argmax_rule T filled (.persistent .main) 0 (d.logits (.persistent .main) 0))
    (fun _ same => same) ?_ (fun _ _ broken => broken) d ⟨holds, rfl⟩
  rintro answer last ⟨holds, same, rfl⟩
  exact ⟨holds, by rw [firstToken, written]; rfl, by rw [written, same]⟩

/-- A prompt that fails a check leaves the cache as it was, with an answer of -1 or
a vision format error. -/
theorem prefillPrompt_rule (fits : Fits maxSeqLen kv) {promptTokens : List Int}
    (nonempty : promptTokens ≠ []) (room : promptTokens.length ≤ maxSeqLen) (chunkSize : Nat) :
    Triple (Holds S kv) (prefillPrompt T.backend P promptTokens chunkSize)
      (fun answer d =>
        (Readable T.config promptTokens ∧ Holds S (prefilled T kv promptTokens) d ∧
          firstToken T kv.maxSeqLen (kv.clear T.cleared).memory promptTokens = some answer ∧
          (T.pass kv.maxSeqLen false (kv.clear T.cleared).memory promptTokens 0).2.getLast? =
            some (d.logits (.persistent .main) 0)) ∨
        (¬ Readable T.config promptTokens ∧ Holds S kv d ∧ answer = -1))
      (fun _ d => (¬ Readable T.config promptTokens ∧ Holds S kv d) ∨ Broken S d) := by
  have inside : ¬ kv.maxSeqLen < promptTokens.length := by rw [fits.size]; omega
  have chunked : 0 < (if chunkSize = 0 then 512 else chunkSize) := by split <;> omega
  unfold prefillPrompt
  rw [if_neg nonempty]
  apply triple_known fun d holds => holds.cache
  rw [if_neg inside, Machine.backend_config]
  rcases checkVision_none T.config promptTokens with ⟨none, passes⟩ | ⟨some, what, refused⟩
  · rw [passes, raise_bind]
    by_cases known : ∀ tok ∈ promptTokens, T.config.InVocab tok
    · have all : promptTokens.all (fun token => decide (T.config.InVocab token)) = true := by
        simpa using known
      rw [if_pos all]
      exact triple_conseq (prefill_readable_rule T fits nonempty room chunked)
        (fun _ holds => holds) (fun _ _ done => Or.inl ⟨⟨none, known⟩, done⟩)
        fun _ _ broken => Or.inr broken
    · have some : ¬ promptTokens.all (fun token => decide (T.config.InVocab token)) = true := by
        simpa using known
      rw [if_neg some]
      apply triple_pure
      intro d holds
      exact Or.inr ⟨fun readable => known readable.2, holds, rfl⟩
  · rw [refused]
    intro d holds
    exact Or.inl ⟨fun readable => by have := readable.1; omega, holds⟩

end XInfer.ForwardRules
