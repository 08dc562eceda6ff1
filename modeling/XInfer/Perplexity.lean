import XInfer.ForwardRules

/-!
The logit collection of `tools/eval/eval_perplexity.cpp`. `forward_chunk` feeds the
first token and does not move the length, so `decode_step` feeds every later token one
position too early, the second over the slot of the first. What the loop collects is
stated exactly, and compared with the rows of `prefill_prompt`.
-/

namespace XInfer.Perplexity

open Primitives StateException Device DeviceRules Forward ForwardRules

variable {KV Rec Logits : Type}

section Loop

variable (B : Backend KV Rec Logits) (P : Platform KV Rec) (tokens : List Int)

/-- One position: its row of the logits buffer is the position's own. -/
def collectToken (curPos : Nat) : DeviceM KV Rec Logits Unit := do
  if curPos = 0 then forwardChunk B P .main (tokens.take 1) 0 true (some (.caller, 0))
  else do
    -- the answer of `decode_step`, -1 included, is dropped
    let _next ← decodeStep B P .main (tokens.getD curPos 0) (some curPos)

/-- The positions of one chunk, from `pos` on. -/
def collectFrom : Nat → Nat → DeviceM KV Rec Logits Unit
  | _, 0 => pure ()
  | pos, left + 1 => do
      collectToken B P tokens pos
      collectFrom (pos + 1) left

def collectChunks (chunkSize : Nat) : Nat → Nat → DeviceM KV Rec Logits Unit
  | 0, _ => pure ()
  | fuel + 1, processed => do
      if processed < tokens.length then do
        let chunkLen := min chunkSize (tokens.length - processed)
        collectFrom B P tokens processed chunkLen
        collectChunks chunkSize fuel (processed + chunkLen)
      else pure ()

def collectLogits : DeviceM KV Rec Logits Unit := collectChunks B P tokens 512 tokens.length 0

theorem collectFrom_add (pos first second : Nat) :
    collectFrom B P tokens pos (first + second) = (do
      collectFrom B P tokens pos first
      collectFrom B P tokens (pos + first) second) := by
  induction first generalizing pos with
  | zero => simp [collectFrom]
  | succ first ih =>
      rw [Nat.succ_add]
      simp only [collectFrom, ih, bind_assoc]
      rw [Nat.add_assoc pos 1 first, Nat.add_comm 1 first]

/-- The chunks only report progress: they are one pass over all positions. -/
theorem collectChunks_flat {chunkSize : Nat} (positive : 0 < chunkSize) (fuel processed : Nat)
    (enough : tokens.length - processed ≤ fuel) :
    collectChunks B P tokens chunkSize fuel processed =
      collectFrom B P tokens processed (tokens.length - processed) := by
  induction fuel generalizing processed with
  | zero =>
      have done : tokens.length - processed = 0 := Nat.le_zero.mp enough
      rw [done]
      rfl
  | succ fuel ih =>
      by_cases more : processed < tokens.length
      · simp only [collectChunks, if_pos more]
        rw [ih _ (by omega), ← collectFrom_add]
        congr 1
        omega
      · have done : tokens.length - processed = 0 := by omega
        simp only [collectChunks, if_neg more, done]
        rfl

theorem collectLogits_flat : collectLogits B P tokens = collectFrom B P tokens 0 tokens.length :=
  collectChunks_flat B P tokens (by decide) tokens.length 0 (Nat.sub_le _ _)

end Loop

section Frame

/-- The tokens fed so far and their positions, in the order they were fed. -/
def forwarded (events : List Event) : List (Int × Nat) :=
  events.reverse.filterMap fun
    | .forward token position => some (token, position)
    | _ => none

theorem forwarded_feed (events : List Event) (inputs : List (Int × Nat)) :
    forwarded ((inputs.reverse.map fun input => Event.forward input.1 input.2) ++ events) =
      forwarded events ++ inputs := by
  simp [forwarded, List.filterMap_append]

/-- What has been fed, and the rows that the caller's buffer has taken. -/
structure Kept (trace : List (Int × Nat)) (rows : List Logits) (d : Device KV Rec Logits) : Prop where
  trace : forwarded d.events = trace
  rows : ∀ i (inside : i < rows.length), d.logits .caller i = rows[i]

/-- A program that feeds nothing and leaves all rows of logits alone. -/
def Quiet {α : Type} (program : DeviceM KV Rec Logits α) : Prop :=
  Frame (fun d : Device KV Rec Logits => (forwarded d.events, d.logits)) program

theorem quiet_kept {α : Type} {program : DeviceM KV Rec Logits α} (quiet : Quiet program)
    (trace : List (Int × Nat)) (rows : List Logits) :
    Triple (Kept trace rows) program (fun _ => Kept trace rows) fun _ _ => True := by
  refine triple_frame quiet ?_ fun _ _ _ => trivial
  intro before after same kept
  obtain ⟨fed, logits⟩ := Prod.mk.inj same
  constructor
  · exact fed.trans kept.trace
  · rw [logits]
    exact kept.rows

variable (B : Backend KV Rec Logits) (P : Platform KV Rec)

theorem quiet_submit : Quiet (submit P : DeviceM KV Rec Logits Unit) := by
  intro d
  unfold submit
  cases P.fault d.submissions <;> rfl

theorem quiet_allocate (owner : Owner) (bytes : Nat) :
    Quiet (allocate P owner bytes : DeviceM KV Rec Logits Unit) := by
  intro d
  unfold allocate
  cases P.allocate (d.arena owner) bytes <;> rfl

theorem quiet_allocateAll (owner : Owner) (sizes : List Nat) :
    Quiet (allocateAll P owner sizes : DeviceM KV Rec Logits Unit) := by
  induction sizes with
  | nil => exact frame_pure ()
  | cons bytes rest ih => exact frame_bind (quiet_allocate P owner bytes) fun _ => ih

theorem quiet_acquire (owner : Owner) (n : Nat) :
    Quiet (acquire B P owner n : DeviceM KV Rec Logits Unit) := by
  apply frame_bind (quiet_allocate P owner _)
  intro _
  apply frame_bind (quiet_submit P)
  intro _
  apply frame_bind (quiet_allocate P owner _)
  intro _
  apply frame_bind (quiet_submit P)
  intro _
  apply frame_bind (quiet_allocateAll P owner _)
  exact fun _ => quiet_submit P

theorem quiet_argmax (buffer : Buffer) (row : Nat) :
    Quiet (argmax B P buffer row : DeviceM KV Rec Logits Int) :=
  frame_bind (quiet_submit P) fun _ => frame_read _

theorem quiet_advance (delta : Nat) : Quiet (advance delta : DeviceM KV Rec Logits Bool) := by
  intro d
  unfold advance
  dsimp only [finalState]
  split <;> simp [forwarded, setLength, setKV, record]

variable {trace : List (Int × Nat)} {rows : List Logits} {kv : KVCache KV Rec}

theorem runLayers_kept (zeroLinear : Bool) (tokens : List Int) (startPos : Nat) :
    Triple (Kept trace rows : Device KV Rec Logits → Prop) (runLayers B zeroLinear tokens startPos)
      (fun _ => Kept (trace ++ tokens.zipIdx startPos) rows) fun _ _ => True := by
  intro d holds
  refine ⟨?_, holds.rows⟩
  exact (forwarded_feed d.events _).trans (congrArg (· ++ _) holds.trace)

/-- A chunk within the cache feeds its tokens; the row it fills is past the rows kept. -/
theorem forwardChunk_kept (owner : Owner) {tokens : List Int} {startPos : Nat} (nonempty : tokens ≠ [])
    (room : startPos + tokens.length ≤ kv.maxSeqLen) (zeroLinear : Bool) :
    Triple (fun d => d.kv = kv ∧ Kept trace rows d)
      (forwardChunk B P owner tokens startPos zeroLinear (some (.caller, rows.length)))
      (fun _ => Kept (trace ++ tokens.zipIdx startPos) rows) fun _ _ => True := by
  unfold forwardChunk
  rw [if_neg nonempty]
  apply triple_known fun d holds => holds.1
  rw [if_neg (by omega)]
  refine triple_conseq ?_ (fun _ both => both.2) (fun _ _ kept => kept) fun _ _ thrown => thrown
  have reset : Quiet (modify (resetArena owner) : DeviceM KV Rec Logits Unit) := frame_modify fun _ => rfl
  apply triple_bind (quiet_kept reset trace rows)
  intro _
  apply triple_bind (quiet_kept (quiet_acquire B P owner tokens.length) trace rows)
  intro _
  apply triple_bind (runLayers_kept B zeroLinear tokens startPos)
  intro filled
  apply triple_bind (quiet_kept (quiet_submit P) _ rows)
  intro _
  apply triple_modify
  intro d kept
  refine ⟨kept.trace, fun i inside => ?_⟩
  have below : ¬ rows.length ≤ i := by omega
  simp only [Device.writeLogits, below, and_false, if_false]
  exact kept.rows i inside

theorem decodeStep_kept (owner : Owner) {tok : Int} (room : kv.currentSeqLen < kv.maxSeqLen)
    (known : B.config.InVocab tok) :
    Triple (fun d => d.kv = kv ∧ Kept trace rows d) (decodeStep B P owner tok (some rows.length))
      (fun _ => Kept (trace ++ [(tok, kv.currentSeqLen)]) rows) fun _ _ => True := by
  unfold decodeStep
  apply triple_known fun d holds => holds.1
  rw [if_neg (by omega), if_pos known]
  apply triple_bind (forwardChunk_kept B P owner (List.cons_ne_nil tok []) room false)
  intro _
  apply triple_bind (quiet_kept (quiet_advance 1) _ rows)
  intro moved
  cases moved with
  | true => exact quiet_kept (quiet_argmax B P .caller rows.length) _ rows
  | false => exact fun d kept => kept

/-- One more row. -/
theorem Kept.snoc {d : Device KV Rec Logits} (kept : Kept trace rows d) {row : Logits}
    (last : d.logits .caller rows.length = row) : Kept trace (rows ++ [row]) d := by
  refine ⟨kept.trace, fun i inside => ?_⟩
  rw [List.length_append, List.length_singleton] at inside
  by_cases old : i < rows.length
  · rw [List.getElem_append_left old]
    exact kept.rows i old
  · have here : i = rows.length := by omega
    subst here
    rw [List.getElem_concat_length rfl]
    exact last

end Frame

section Collection

variable (T : Machine KV Rec Logits)

/-- The cache after the first token and the tokens `fed` behind it; the first one does
not count. -/
def scoredCache (kv : KVCache KV Rec) (first : Int) (fed : List Int) : KVCache KV Rec :=
  { passed T (passed T kv false [first] 0) false fed 0 with currentSeqLen := fed.length }

def scoredRows (kv : KVCache KV Rec) (first : Int) (fed : List Int) : List Logits :=
  (T.pass kv.maxSeqLen false kv.memory [first] 0).2 ++
    (T.pass kv.maxSeqLen false (passed T kv false [first] 0).memory fed 0).2

@[simp] theorem scoredRows_length (kv : KVCache KV Rec) (first : Int) (fed : List Int) :
    (scoredRows T kv first fed).length = fed.length + 1 := by
  simp [scoredRows, Nat.add_comm]

theorem scored_snoc (kv : KVCache KV Rec) (first : Int) (done : List Int) (tok : Int) :
    fed T (scoredCache T kv first done) tok = scoredCache T kv first (done ++ [tok]) ∧
      scoredRows T kv first done ++ [row T (scoredCache T kv first done) tok] =
        scoredRows T kv first (done ++ [tok]) := by
  have split := T.pass_append kv.maxSeqLen (passed T kv false [first] 0).memory done [tok] 0
  rw [Machine.pass_cons, Machine.pass_nil, Nat.zero_add] at split
  constructor
  · simp [fed, scoredCache, passed, T.pass_append, Machine.pass_cons]
  · simp [scoredRows, row, scoredCache, passed, T.pass_append, Machine.pass_cons]

/-- A freshly allocated cache, and nothing recorded yet. -/
structure Fresh (maxSeqLen : Nat) (d : Device KV Rec Logits) : Prop where
  size : d.kv.maxSeqLen = maxSeqLen
  empty : d.kv.currentSeqLen = 0
  clear : d.kv.memory.recurrent = T.cleared
  events : d.events = []

variable {P : Platform KV Rec} {maxSeqLen : Nat} {S : Setting P maxSeqLen T.config.logitsBytes}
  {kv : KVCache KV Rec} {first : Int}

/-- The loop between two positions. -/
def Scored (S : Setting P maxSeqLen T.config.logitsBytes) (kv : KVCache KV Rec) (first : Int)
    (done : List Int) (d : Device KV Rec Logits) : Prop :=
  Holds S (scoredCache T kv first done) d ∧
    Kept ((first, 0) :: done.zipIdx) (scoredRows T kv first done) d

theorem scoredCache_fits (size : kv.maxSeqLen = maxSeqLen) {done : List Int}
    (room : done.length ≤ maxSeqLen) : Fits maxSeqLen (scoredCache T kv first done) :=
  ⟨size, room⟩

theorem collectToken_first (size : kv.maxSeqLen = maxSeqLen) (empty : kv.currentSeqLen = 0)
    (clear : kv.memory.recurrent = T.cleared) (room : 0 < maxSeqLen) (rest : List Int) :
    Triple (fun d => Holds S kv d ∧ d.events = []) (collectToken T.backend P (first :: rest) 0)
      (fun _ => Scored T S kv first []) (fun _ => Broken S) := by
  have fits : Fits maxSeqLen kv := ⟨size, by omega⟩
  have inside : 0 + [first].length ≤ kv.maxSeqLen := by rw [size]; exact room
  have blank : (passed T kv true [first] 0) = scoredCache T kv first [] := by
    simp [passed, scoredCache, T.pass_zero _ _ _ _ clear, empty]
  have rows : (T.pass kv.maxSeqLen true kv.memory [first] 0).2 = scoredRows T kv first [] := by
    simp [scoredRows, T.pass_zero _ _ _ _ clear]
  have chunk : Triple (Holds S kv) (forwardChunk T.backend P .main [first] 0 true _) _ _ :=
    forwardChunk_rule T fits .main (List.cons_ne_nil first []) (by rwa [← size]) true
      (some (.caller, 0))
  have feeds : Triple (fun d => d.kv = kv ∧ Kept [] [] d)
      (forwardChunk T.backend P .main [first] 0 true _) _ _ :=
    forwardChunk_kept T.backend P .main (List.cons_ne_nil first []) inside true
  refine triple_conseq (triple_both chunk feeds) ?_ ?_ fun _ _ broken => broken.1
  · rintro d ⟨holds, none⟩
    refine ⟨holds, holds.cache, ?_, fun i absent => ?_⟩
    · rw [none]
      rfl
    · cases absent
  · rintro _ d ⟨⟨holds, written⟩, kept⟩
    have last := written .caller 0 rfl
    rw [rows] at last
    rw [blank] at holds
    have one : scoredRows T kv first [] = [d.logits .caller 0] := by
      obtain ⟨only, alone⟩ := List.length_eq_one_iff.mp (scoredRows_length T kv first [])
      rw [alone] at last
      have same : only = d.logits .caller 0 := Option.some.inj last
      rw [alone, same]
    refine ⟨holds, ?_⟩
    rw [one]
    exact kept.snoc rfl

/-- A later token is fed at the length, which is one behind its index. -/
theorem collectToken_later (size : kv.maxSeqLen = maxSeqLen) {done todo : List Int} {tok : Int}
    (room : done.length < maxSeqLen) (known : T.config.InVocab tok) :
    Triple (Scored T S kv first done)
      (collectToken T.backend P (first :: (done ++ tok :: todo)) (done.length + 1))
      (fun _ => Scored T S kv first (done ++ [tok])) (fun _ => Broken S) := by
  have fits : Fits maxSeqLen (scoredCache T kv first done) :=
    scoredCache_fits T size (Nat.le_of_lt room)
  have fetched : (first :: (done ++ tok :: todo)).getD (done.length + 1) 0 = tok := by
    simp [List.getD]
  have width := scoredRows_length T kv first done
  obtain ⟨cache, rows⟩ := scored_snoc T kv first done tok
  unfold collectToken
  rw [if_neg (Nat.succ_ne_zero _), fetched, ← width]
  have step : Triple (Holds S (scoredCache T kv first done)) (decodeStep T.backend P .main tok _) _ _ :=
    decodeStep_rule T fits room .main known (some (scoredRows T kv first done).length)
  have feeds : Triple (fun d => d.kv = scoredCache T kv first done ∧
      Kept ((first, 0) :: done.zipIdx) (scoredRows T kv first done) d)
      (decodeStep T.backend P .main tok _) _ _ :=
    decodeStep_kept T.backend P .main (by rw [fits.size]; exact room) known
  refine triple_bind (triple_conseq (triple_both step feeds) ?_ (fun _ _ done => done)
    fun _ _ broken => broken.1) ?_
  · rintro d ⟨holds, kept⟩
    exact ⟨holds, holds.cache, kept⟩
  · rintro _ d ⟨⟨holds, written, _⟩, kept⟩
    rw [cache] at holds
    have grown := kept.snoc (written _ rfl)
    rw [rows] at grown
    refine ⟨holds, ?_⟩
    rw [List.zipIdx_append]
    simpa [scoredCache] using grown

theorem collectFrom_rule (size : kv.maxSeqLen = maxSeqLen) {done todo : List Int}
    (room : done.length + todo.length ≤ maxSeqLen) (known : ∀ tok ∈ todo, T.config.InVocab tok) :
    Triple (Scored T S kv first done)
      (collectFrom T.backend P (first :: (done ++ todo)) (done.length + 1) todo.length)
      (fun _ => Scored T S kv first (done ++ todo)) (fun _ => Broken S) := by
  induction todo generalizing done with
  | nil =>
      rw [List.append_nil]
      exact triple_pure _ fun _ scored => scored
  | cons tok todo ih =>
      rw [List.length_cons] at room
      apply triple_bind (collectToken_later T size (by omega) (known tok List.mem_cons_self))
      intro _
      have width : (done ++ [tok]).length = done.length + 1 := by simp
      have later : Triple (Scored T S kv first (done ++ [tok])) _ _ _ := ih (by rw [width]; omega)
        fun other member => known other (List.mem_cons_of_mem tok member)
      rw [width, List.append_assoc, List.singleton_append] at later
      exact later

/-- The whole loop: the first token, and every later one at its index less one. -/
theorem collectLogits_rule (size : kv.maxSeqLen = maxSeqLen) (empty : kv.currentSeqLen = 0)
    (clear : kv.memory.recurrent = T.cleared) {rest : List Int} (room : rest.length < maxSeqLen)
    (known : ∀ tok ∈ rest, T.config.InVocab tok) :
    Triple (fun d => Holds S kv d ∧ d.events = []) (collectLogits T.backend P (first :: rest))
      (fun _ => Scored T S kv first rest) (fun _ => Broken S) := by
  rw [collectLogits_flat]
  apply triple_bind (collectToken_first T size empty clear (Nat.zero_lt_of_lt room) rest)
  intro _
  have later : Triple (Scored T S kv first []) _ _ _ :=
    collectFrom_rule T size (by rw [List.length_nil, Nat.zero_add]; exact Nat.le_of_lt room) known
  exact later

/-- Where the platform serves every request, the loop ends with exactly these rows. -/
theorem collectLogits_run (word : maxSeqLen < 2 ^ 63) (grants : P.Granting) {d : Device KV Rec Logits}
    (fresh : Fresh T maxSeqLen d) {rest : List Int} (room : rest.length < maxSeqLen)
    (known : ∀ tok ∈ rest, T.config.InVocab tok) :
    ∃ after, collectLogits T.backend P (first :: rest) d = .ok () after ∧
      Kept ((first, 0) :: rest.zipIdx) (scoredRows T d.kv first rest) after := by
  let S := served grants T.config.logitsBytes word
  have start : Holds S d.kv d := ⟨rfl, fun _ => trivial, fun _ _ => trivial⟩
  have rule : Triple (fun d' => Holds S d.kv d' ∧ d'.events = [])
      (collectLogits T.backend P (first :: rest)) _ _ := collectLogits_rule T fresh.size fresh.empty fresh.clear room known
  have run := rule d ⟨start, fresh.events⟩
  cases done : collectLogits T.backend P (first :: rest) d with
  | ok value after =>
      rw [done] at run
      exact ⟨after, rfl, run.2⟩
  | error thrown after =>
      rw [done] at run
      exact absurd trivial run.unserved

end Collection

section Claim

/-- Row `i` of the buffer that the loop leaves. -/
def scoredRow (B : Backend KV Rec Logits) (P : Platform KV Rec) (tokens : List Int) (i : Nat)
    (d : Device KV Rec Logits) : Option Logits :=
  match collectLogits B P tokens d with
  | .ok _ after => some (after.logits .caller i)
  | .error _ _ => none

/-- The last token's logits that `prefill_prompt` leaves. -/
def prefillRow (B : Backend KV Rec Logits) (P : Platform KV Rec) (chunkSize : Nat) (tokens : List Int)
    (d : Device KV Rec Logits) : Option Logits :=
  match prefillPrompt B P tokens chunkSize d with
  | .ok _ after => some (after.logits (.persistent .main) 0)
  | .error _ _ => none

/-- On every machine that reads the tokens, row `i` is the one of the prefix it ends. -/
def OwnRow (maxSeqLen : Nat) (tokens : List Int) (i : Nat) : Prop :=
  ∀ (KV Rec Logits : Type) (T : Machine KV Rec Logits) (P : Platform KV Rec), P.Granting →
    ∀ d, Fresh T maxSeqLen d → Readable T.config tokens → ∀ chunkSize,
      scoredRow T.backend P tokens i d = prefillRow T.backend P chunkSize (tokens.take (i + 1)) d

/-- Token `j` is forwarded at position `j`, once and in order. -/
def FedInOrder (B : Backend KV Rec Logits) (P : Platform KV Rec) (tokens : List Int)
    (d : Device KV Rec Logits) : Prop :=
  ∃ after, collectLogits B P tokens d = .ok () after ∧ forwarded after.events = tokens.zipIdx

variable (T : Machine KV Rec Logits) {P : Platform KV Rec} {maxSeqLen : Nat}

theorem prefillRow_run (word : maxSeqLen < 2 ^ 63) (grants : P.Granting) {d : Device KV Rec Logits}
    (fresh : Fresh T maxSeqLen d) {tokens : List Int} (nonempty : tokens ≠ [])
    (room : tokens.length ≤ maxSeqLen) (readable : Readable T.config tokens) (chunkSize : Nat) :
    prefillRow T.backend P chunkSize tokens d =
      (T.pass d.kv.maxSeqLen false d.kv.memory tokens 0).2.getLast? := by
  let S := served grants T.config.logitsBytes word
  have start : Holds S d.kv d := ⟨rfl, fun _ => trivial, fun _ _ => trivial⟩
  have fits : Fits maxSeqLen d.kv := ⟨fresh.size, by rw [fresh.empty]; exact Nat.zero_le _⟩
  have same : (d.kv.clear T.cleared).memory = d.kv.memory := by
    simp only [KVCache.clear]
    rw [← fresh.clear]
  have run := prefillPrompt_rule T fits nonempty room chunkSize d start
  unfold prefillRow
  cases done : prefillPrompt T.backend P tokens chunkSize d with
  | ok answer after =>
      rw [done] at run
      rcases run with ⟨_, _, _, last⟩ | ⟨unreadable, _⟩
      · rw [same] at last
        exact last.symm
      · exact absurd readable unreadable
  | error thrown after =>
      rw [done] at run
      rcases run with ⟨unreadable, _⟩ | broken
      · exact absurd readable unreadable
      · exact absurd trivial broken.unserved

theorem scoredRow_run (word : maxSeqLen < 2 ^ 63) (grants : P.Granting) {d : Device KV Rec Logits}
    (fresh : Fresh T maxSeqLen d) {first : Int} {rest : List Int} (room : rest.length < maxSeqLen)
    (known : ∀ tok ∈ rest, T.config.InVocab tok) {i : Nat} (inside : i ≤ rest.length) :
    scoredRow T.backend P (first :: rest) i d = (scoredRows T d.kv first rest)[i]? := by
  obtain ⟨after, run, kept⟩ : ∃ after, collectLogits T.backend P (first :: rest) d = .ok () after ∧ _ :=
    collectLogits_run T word grants fresh room known
  have width : i < (scoredRows T d.kv first rest).length := by
    rw [scoredRows_length]
    omega
  simp only [scoredRow, run]
  rw [kept.rows i width, List.getElem?_eq_getElem width]

/-- A machine whose logits are the token and the position it was fed at. -/
def positions (fresh : Nat) : Machine Unit Unit (Int × Nat) where
  config := textConfig fresh
  cleared := ()
  zeroLinear := fun _ => ()
  zeroLinear_cleared := rfl
  step := fun _ _ _ tok position => ((), (), (tok, position))
  step_local := fun _ _ _ _ _ _ _ => rfl
  argmax := fun _ => fresh
  argmax_inVocab := by
    intro _
    constructor
    · exact Int.natCast_nonneg fresh
    · show (fresh : Int) < (fresh : Int) + 2
      omega

theorem positions_pass (fresh maxSeqLen : Nat) (memory : Memory Unit Unit) (tokens : List Int)
    (startPos : Nat) :
    ((positions fresh).pass maxSeqLen false memory tokens startPos).2 = tokens.zipIdx startPos := by
  induction tokens generalizing memory startPos with
  | nil => simp
  | cons tok rest ih =>
      rw [Machine.pass_cons, List.zipIdx_cons, ih]
      rfl

def unused (maxSeqLen : Nat) : Device Unit Unit (Int × Nat) where
  kv := { maxSeqLen := maxSeqLen, currentSeqLen := 0, memory := { slots := fun _ => (), recurrent := () },
          checkpoint := (), hasRecurrentCheckpoint := false }
  arena := fun _ => DeviceArena.create 0 0
  logits := fun _ _ => (0, 0)
  submissions := 0
  events := []

theorem unused_fresh (fresh maxSeqLen : Nat) : Fresh (positions fresh) maxSeqLen (unused maxSeqLen) :=
  ⟨rfl, rfl, rfl, rfl⟩

theorem positions_own {fresh : Nat} (word : maxSeqLen < 2 ^ 63) {tokens : List Int}
    (room : tokens.length ≤ maxSeqLen) (readable : Readable (textConfig fresh) tokens) {i : Nat}
    (inside : i < tokens.length) :
    prefillRow (positions fresh).backend Platform.granting 512 (tokens.take (i + 1)) (unused maxSeqLen) =
      some (tokens[i], i) := by
  have width : (tokens.take (i + 1)).length = i + 1 := by
    rw [List.length_take]
    omega
  have nonempty : tokens.take (i + 1) ≠ [] := by
    rw [← List.length_pos_iff, width]
    exact Nat.succ_pos i
  have split : tokens.take (i + 1) = tokens.take i ++ [tokens[i]] := by
    rw [List.take_add_one, List.getElem?_eq_getElem inside]
    rfl
  have short : (tokens.take i).length = i := List.length_take_of_le (Nat.le_of_lt inside)
  have part : Readable (textConfig fresh) (tokens.take (i + 1)) := by
    constructor
    · exact List.countP_eq_zero.mpr fun tok member =>
        List.countP_eq_zero.mp readable.1 tok (List.mem_of_mem_take member)
    · exact fun tok member => readable.2 tok (List.mem_of_mem_take member)
  rw [prefillRow_run (positions fresh) word Platform.granting_grants (unused_fresh fresh maxSeqLen)
    nonempty (by omega) part, positions_pass, split, List.zipIdx_append, short, Nat.zero_add,
    List.zipIdx_singleton, List.getLast?_concat]

theorem positions_scored {fresh : Nat} (word : maxSeqLen < 2 ^ 63) {first : Int} {rest : List Int}
    (room : rest.length < maxSeqLen) (readable : Readable (textConfig fresh) (first :: rest)) {i : Nat}
    (inside : i < rest.length) :
    scoredRow (positions fresh).backend Platform.granting (first :: rest) (i + 1) (unused maxSeqLen) =
      some (rest[i], i) := by
  have known : ∀ tok ∈ rest, (positions fresh).config.InVocab tok :=
    fun tok member => readable.2 tok (List.mem_cons_of_mem first member)
  rw [scoredRow_run (positions fresh) word Platform.granting_grants (unused_fresh fresh maxSeqLen) room
    known (by omega), scoredRows, positions_pass, positions_pass]
  simp [inside]

/-- Only the first row is the model's own. -/
theorem ownRow_iff (word : maxSeqLen < 2 ^ 63) {tokens : List Int} (room : tokens.length ≤ maxSeqLen)
    (nonneg : ∀ tok ∈ tokens, 0 ≤ tok) {i : Nat} (inside : i < tokens.length) :
    OwnRow maxSeqLen tokens i ↔ i = 0 := by
  cases tokens with
  | nil => cases inside
  | cons first rest =>
      rw [List.length_cons] at room inside
      constructor
      · intro own
        obtain ⟨fresh, above⟩ := exists_fresh (first :: rest)
        have readable := textConfig_readable above nonneg
        cases i with
        | zero => rfl
        | succ i =>
            have later : i < rest.length := by omega
            have same := own Unit Unit (Int × Nat) (positions fresh) Platform.granting
              Platform.granting_grants (unused maxSeqLen) (unused_fresh fresh maxSeqLen) readable 512
            rw [positions_scored word room readable later,
              positions_own word (by simpa using room) readable (by simpa using inside)] at same
            simp at same
      · rintro rfl KV Rec Logits T P grants d fresh readable chunkSize
        have one : Readable T.config [first] := by
          constructor
          · have none := List.countP_eq_zero.mp readable.1 first List.mem_cons_self
            exact List.countP_eq_zero.mpr (by simpa using none)
          · intro tok member
            rw [List.mem_singleton] at member
            rw [member]
            exact readable.2 first List.mem_cons_self
        have only : (first :: rest).take (0 + 1) = [first] := by simp
        rw [only, prefillRow_run T word grants fresh (List.cons_ne_nil first []) (by simp; omega) one,
          scoredRow_run T word grants fresh room
            (fun tok member => readable.2 tok (List.mem_cons_of_mem first member)) (Nat.zero_le _),
          scoredRows, Machine.pass_cons, Machine.pass_nil]
        simp

/-- The second token takes the position of the first. -/
theorem not_fedInOrder (word : maxSeqLen < 2 ^ 63) {tokens : List Int} (long : 2 ≤ tokens.length)
    (room : tokens.length ≤ maxSeqLen) (grants : P.Granting) {d : Device KV Rec Logits}
    (fresh : Fresh T maxSeqLen d) (known : ∀ tok ∈ tokens, T.config.InVocab tok) :
    ¬ FedInOrder T.backend P tokens d := by
  rintro ⟨after, run, ordered⟩
  match tokens with
  | first :: second :: rest =>
      obtain ⟨last, same, kept⟩ : ∃ last,
          collectLogits T.backend P (first :: second :: rest) d = .ok () last ∧ _ :=
        collectLogits_run T word grants fresh room
          fun tok member => known tok (List.mem_cons_of_mem first member)
      rw [run] at same
      cases same
      rw [kept.trace] at ordered
      simp [List.zipIdx_cons] at ordered

/-- For no input of two tokens or more are the rows the model's own, whatever the
machine is are the tokens fed in order. -/
theorem never_own (word : maxSeqLen < 2 ^ 63) {tokens : List Int} (long : 2 ≤ tokens.length)
    (room : tokens.length ≤ maxSeqLen) (nonneg : ∀ tok ∈ tokens, 0 ≤ tok) :
    (¬ ∀ i < tokens.length, OwnRow maxSeqLen tokens i) ∧
      ∀ (KV Rec Logits : Type) (T : Machine KV Rec Logits) (P : Platform KV Rec), P.Granting →
        ∀ d, Fresh T maxSeqLen d → Readable T.config tokens → ¬ FedInOrder T.backend P tokens d := by
  constructor
  · intro own
    have second := (ownRow_iff word room nonneg long).mp (own 1 long)
    cases second
  · intro KV Rec Logits T P grants d fresh readable
    exact not_fedInOrder T word long room grants fresh readable.2

end Claim

section Example

/-- The second row of two tokens is that of token 2 at position 0. -/
theorem twoTokens_shifted : ¬ ∀ i < [(1 : Int), 2].length, OwnRow 4096 [1, 2] i := by
  intro own
  have same := own 1 (by decide) Unit Unit (Int × Nat) (positions 3) Platform.granting
    Platform.granting_grants (unused 4096) (unused_fresh 3 4096)
    (textConfig_readable (by decide) (by decide)) 512
  have scored : scoredRow (positions 3).backend Platform.granting [1, 2] 1 (unused 4096) =
      some (2, 0) := by
    decide +kernel
  have filled : prefillRow (positions 3).backend Platform.granting 512 [1, 2] (unused 4096) =
      some (2, 1) := by
    decide +kernel
  rw [scored] at same
  exact absurd (same.trans filled) (by decide)

theorem twoTokens_never_own :
    (¬ ∀ i < [(1 : Int), 2].length, OwnRow 4096 [1, 2] i) ∧
      ∀ (KV Rec Logits : Type) (T : Machine KV Rec Logits) (P : Platform KV Rec), P.Granting →
        ∀ d, Fresh T 4096 d → Readable T.config [1, 2] → ¬ FedInOrder T.backend P [1, 2] d :=
  never_own (by decide) (by decide) (by decide) (by decide)

end Example

end XInfer.Perplexity
