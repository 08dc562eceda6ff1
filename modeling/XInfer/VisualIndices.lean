import XInfer.ArenaBlocks
import XInfer.VisionGate

/-!
The arena during `prefill_prompt` of `targets/qwen3_8/forward.cpp` with a `vision_input` and without
graph capture: the buffer of the visual indices, and the buffers of every `forward_chunk`, which resets
the arena first. Copies and kernels, which allocate nothing, are left out.
-/

namespace XInfer.VisualIndices

open Primitives StateException Alignment DeviceArena ArenaBlocks VisionGate

/-- The arena with the index buffer and the buffers that chunks have been given, the latest first. -/
structure Prefill where
  arena : DeviceArena
  indices : Option Block := none
  buffers : List Block := []

abbrev PrefillM := EStateM Exn Prefill

section Program

def place (bytes : Nat) : PrefillM (Option Block) := do
  let start ← within (·.arena) (fun arena s => { s with arena := arena }) (allocateAt bytes 0)
  let alignment ← read (·.arena.defaultAlignment)
  pure (start.map fun start => ⟨start, bytes, alignment⟩)

def chunkBuffer (bytes : Nat) : PrefillM Unit := do
  let block ← place bytes
  modify fun s => { s with buffers := block.toList ++ s.buffers }

def chunkBuffers : List Nat → PrefillM Unit
  | [] => pure ()
  | bytes :: rest => do
      chunkBuffer bytes
      chunkBuffers rest

/-- Token ids, positions, and the activation buffers. -/
def chunkBytes (cfg : ModelConfig) (seqLen : Nat) : List Nat :=
  seqLen * 8 :: seqLen * 8 :: cfg.activationBytes seqLen

def forwardChunk (cfg : ModelConfig) (seqLen : Nat) : PrefillM Unit := do
  modify fun s => { s with arena := s.arena.reset }
  chunkBuffers (chunkBytes cfg seqLen)

/-- The loop over the chunks, with the tokens that are left. -/
def chunkLoop (cfg : ModelConfig) (chunkSize : Nat) : Nat → Nat → PrefillM Unit
  | 0, _ => pure ()
  | fuel + 1, left =>
      if left = 0 then pure ()
      else do
        let curChunk := min chunkSize left
        forwardChunk cfg curChunk
        chunkLoop cfg chunkSize fuel (left - curChunk)

/-- From the logits on; `available` says whether the device can serve the first request for them. -/
def fillPrompt (cfg : ModelConfig) (available : Bool) (visualTokenCount chunkSize tokens : Nat) : PrefillM Unit := do
  let arena ← read (·.arena)
  let served ← raise (arena.persistentBuffer available cfg.logitsBytes)
  modify fun s => { s with arena := served }
  if 0 < visualTokenCount then do
    let block ← place (tokens * 8)
    modify fun s => { s with indices := block }
  chunkLoop cfg chunkSize tokens tokens

def prefillPrompt (cfg : ModelConfig) (available : Bool) (maxSeqLen : Nat) (promptTokens : List Int)
    (chunkSize : Nat) (vision : VisionInput) : PrefillM Unit := do
  if promptTokens = [] then pure ()
  else if maxSeqLen < promptTokens.length then
    throw (.contextLengthExceeded (ascii "context_length_exceeded: Prompt tokens (" ++
      decimal promptTokens.length ++ ascii ") exceeds KV cache max_seq_len (" ++ decimal maxSeqLen ++ ascii ")"))
  else do
    let visualTokenCount ← raise (checkVision cfg (some vision) promptTokens)
    if promptTokens.all fun token => decide (cfg.InVocab token) then
      fillPrompt cfg available visualTokenCount (if chunkSize = 0 then 512 else chunkSize) promptTokens.length
    else pure ()

end Program

section Layout

/-- The offset behind buffers laid one after the other, each at the alignment. -/
def need (base align : Nat) : Nat → List Nat → Nat
  | offset, [] => offset
  | offset, bytes :: rest =>
      need base align (if bytes = 0 then offset else roundUp (base + offset) align - base + bytes) rest

variable {base align : Nat} (positive : 0 < align)
include positive

theorem le_rounded (base offset : Nat) : offset ≤ roundUp (base + offset) align - base := by
  have above := le_roundUp positive (base + offset)
  omega

theorem le_need (sizes : List Nat) (offset : Nat) : offset ≤ need base align offset sizes := by
  induction sizes generalizing offset with
  | nil => exact Nat.le_refl offset
  | cons bytes rest ih =>
      refine Nat.le_trans ?_ (ih _)
      have above := le_rounded positive base offset
      split
      · exact Nat.le_refl offset
      · omega

theorem need_prefix {front sizes : List Nat} (front_le : front <+: sizes) (offset : Nat) :
    need base align offset front ≤ need base align offset sizes := by
  obtain ⟨back, rfl⟩ := front_le
  induction front generalizing offset with
  | nil => exact le_need positive back offset
  | cons bytes rest ih => exact ih _

/-- Smaller buffers in the same order end no later. -/
theorem need_mono {small large : List Nat} (pointwise : List.Forall₂ (· ≤ ·) small large) {low high : Nat}
    (le : low ≤ high) : need base align low small ≤ need base align high large := by
  induction pointwise generalizing low high with
  | nil => exact le
  | @cons bytes more rest others here _ ih =>
      apply ih
      have above := le_rounded positive base high
      have rounded := @roundUp_mono (base + low) (base + high) align positive (by omega)
      split_ifs <;> omega

end Layout

section Buffers

/-- A buffer is empty, refused, or laid at the next cache line. -/
theorem place_cases {s : Prefill} (lined : Lined s.arena) (bytes : Nat) :
    (bytes = 0 ∧ s.arena.allocate bytes = .ok s.arena ∧ place bytes s = .ok none s) ∨
      (bytes ≠ 0 ∧ (∃ thrown, s.arena.allocate bytes = .error thrown ∧ place bytes s = .error thrown s) ∧
        (s.arena.basePtr ≠ 0 → s.arena.capacity < stop s.arena bytes 64 % 2 ^ 64)) ∨
      (bytes ≠ 0 ∧ s.arena.basePtr ≠ 0 ∧ stop s.arena bytes 64 % 2 ^ 64 ≤ s.arena.capacity ∧
        ∃ after, s.arena.allocate bytes = .ok after ∧ after.offset = stop s.arena bytes 64 % 2 ^ 64 ∧
          place bytes s = .ok (some ⟨start s.arena 64 % 2 ^ 64, bytes, 64⟩) { s with arena := after }) := by
  have agree := allocateAt_default bytes s.arena
  have line : s.arena.defaultAlignment = 64 := lined.line
  rcases allocateAt_cases lined bytes with ⟨none', run⟩ | ⟨some', run, full⟩ | ⟨some', base, fits, after, run, offset⟩
  · rw [run] at agree
    refine Or.inl ⟨none', agree, ?_⟩
    simp only [place, bind_apply, within, run, read_apply, Option.map_none]
    rfl
  · rw [run] at agree
    refine Or.inr (Or.inl ⟨some', ⟨_, agree, ?_⟩, full⟩)
    simp only [place, bind_apply, within, run]
  · rw [run] at agree
    refine Or.inr (Or.inr ⟨some', base, fits, after, agree, offset, ?_⟩)
    have same := (sameBlock_allocate agree).line
    simp only [place, bind_apply, within, run, read_apply, same, line, Option.map_some]
    rfl

end Buffers

section Chunk

/-- The granted requests of a list end at an address or before it. -/
def Below (arena : DeviceArena) (limit : Nat) (sizes : List Nat) : Prop :=
  ∀ front, front <+: sizes → Granted arena front →
    arena.basePtr + need arena.basePtr 64 arena.offset front ≤ limit

variable {arena after : DeviceArena} {limit bytes : Nat} {rest : List Nat}

theorem below_nil (behind : arena.basePtr + arena.offset ≤ limit) : Below arena limit [] := by
  intro front front_le _
  rw [List.prefix_nil.mp front_le]
  exact behind

theorem below_refused {thrown : Exn} (behind : arena.basePtr + arena.offset ≤ limit)
    (refused : arena.allocate bytes = .error thrown) : Below arena limit (bytes :: rest) := by
  intro front front_le granted
  rcases List.prefix_cons_iff.mp front_le with rfl | ⟨tail, rfl, _⟩
  · exact behind
  · exact absurd granted (not_granted refused)

theorem below_granted (behind : arena.basePtr + arena.offset ≤ limit) (done : arena.allocate bytes = .ok after)
    (offset : after.offset = if bytes = 0 then arena.offset
      else roundUp (arena.basePtr + arena.offset) 64 - arena.basePtr + bytes) :
    Below arena limit (bytes :: rest) ↔ Below after limit rest := by
  have base := (sameBlock_allocate done).basePtr
  constructor
  · intro below front front_le granted
    rw [offset, base]
    exact below (bytes :: front) (List.cons_prefix_cons.mpr ⟨rfl, front_le⟩) ((granted_cons done).mpr granted)
  · intro below front front_le granted
    rcases List.prefix_cons_iff.mp front_le with rfl | ⟨tail, rfl, tail_le⟩
    · exact behind
    · have step := below tail tail_le ((granted_cons done).mp granted)
      rw [offset, base] at step
      exact step

theorem not_below (done : arena.allocate bytes = .ok after) (some' : bytes ≠ 0)
    (beyond : limit < arena.basePtr + (roundUp (arena.basePtr + arena.offset) 64 - arena.basePtr + bytes)) :
    ¬ Below arena limit (bytes :: rest) := by
  intro below
  have step := below [bytes] ⟨rest, rfl⟩ ((granted_cons done).mpr (granted_nil after))
  rw [need, need, if_neg some'] at step
  omega

/-- A request moves the arena only. -/
theorem place_frame (bytes : Nat) (s : Prefill) :
    ∃ after, finalState (place bytes s) = { s with arena := after } := by
  simp only [place, bind_apply, within]
  cases allocateAt bytes 0 s.arena with
  | ok block after => exact ⟨after, rfl⟩
  | error thrown after => exact ⟨after, rfl⟩

theorem chunkBuffer_frame (bytes : Nat) (s : Prefill) : (finalState (chunkBuffer bytes s)).indices = s.indices ∧
    ∀ block ∈ s.buffers, block ∈ (finalState (chunkBuffer bytes s)).buffers := by
  obtain ⟨arena, moved⟩ := place_frame bytes s
  rw [chunkBuffer, bind_apply]
  cases run : place bytes s with
  | ok block after =>
      rw [run] at moved
      subst moved
      exact ⟨rfl, fun _ member => List.mem_append_right _ member⟩
  | error thrown after =>
      rw [run] at moved
      subst moved
      exact ⟨rfl, fun _ member => member⟩

theorem chunkBuffers_frame (sizes : List Nat) (s : Prefill) : (finalState (chunkBuffers sizes s)).indices = s.indices ∧
    ∀ block ∈ s.buffers, block ∈ (finalState (chunkBuffers sizes s)).buffers := by
  induction sizes generalizing s with
  | nil => exact ⟨rfl, fun _ member => member⟩
  | cons bytes rest ih =>
      have first := chunkBuffer_frame bytes s
      rw [chunkBuffers, bind_apply]
      cases run : chunkBuffer bytes s with
      | ok value after =>
          rw [run] at first
          have others := ih after
          exact ⟨others.1.trans first.1, fun block member => others.2 block (first.2 block member)⟩
      | error thrown after =>
          rw [run] at first
          exact first

/-- The buffers of a chunk stay off a block above the arena's offset exactly when they end before it. -/
theorem chunkBuffers_apart {index : Block} (whole : 0 < index.bytes) (multiple : 64 ∣ index.start)
    (sizes : List Nat) {s : Prefill} (lined : Lined s.arena)
    (addressed : index.start < 2 ^ 64) (behind : s.arena.basePtr + s.arena.offset ≤ index.start) :
    (∀ block ∈ (finalState (chunkBuffers sizes s)).buffers, Apart index block) ↔
      (∀ block ∈ s.buffers, Apart index block) ∧ Below s.arena index.start sizes := by
  induction sizes generalizing s with
  | nil => exact ⟨fun apart => ⟨apart, below_nil behind⟩, fun both => both.1⟩
  | cons bytes rest ih =>
      rcases place_cases lined bytes with ⟨none', done, run⟩ | ⟨_, ⟨thrown, refused, run⟩, _⟩ |
        ⟨some', base, fits, after, done, offset, run⟩
      · have next : chunkBuffers (bytes :: rest) s = chunkBuffers rest s := by
          simp only [chunkBuffers, chunkBuffer, bind_apply, run, modify_apply, Option.toList_none, List.nil_append]
        rw [next, ih lined behind, below_granted behind done (if_pos none').symm]
      · have stays : chunkBuffers (bytes :: rest) s = .error thrown s := by
          simp only [chunkBuffers, chunkBuffer, bind_apply, run]
        rw [stays]
        exact ⟨fun apart => ⟨apart, below_refused behind refused⟩, fun both => both.1⟩
      · have next : chunkBuffers (bytes :: rest) s = chunkBuffers rest { s with
            arena := after
            buffers := ⟨start s.arena 64 % 2 ^ 64, bytes, 64⟩ :: s.buffers } := by
          simp only [chunkBuffers, chunkBuffer, bind_apply, run, modify_apply]
          rfl
        have same := sameBlock_allocate done
        have under : start s.arena 64 ≤ index.start := (roundUp_le (by decide) multiple).mpr behind
        have above : s.arena.basePtr + s.arena.offset ≤ start s.arena 64 := le_roundUp (by decide) _
        rw [Nat.mod_eq_of_lt (Nat.lt_of_le_of_lt under addressed)] at next
        by_cases ends : start s.arena 64 + bytes ≤ index.start
        · have whole' : stop s.arena bytes 64 % 2 ^ 64 = stop s.arena bytes 64 := by
            apply Nat.mod_eq_of_lt
            unfold stop
            omega
          rw [whole'] at offset
          rw [next, ih (lined.of_same same), below_granted behind done]
          · simp only [List.forall_mem_cons, and_congr_left_iff, and_iff_right_iff_imp]
            exact fun _ _ => Or.inr ends
          · rw [offset, if_neg some']
            rfl
          · dsimp only
            rw [same.basePtr, offset]
            unfold stop
            omega
        · rw [next]
          constructor
          · intro apart
            rcases apart _ ((chunkBuffers_frame rest _).2 _ List.mem_cons_self) with clear | clear
            · dsimp only at clear
              omega
            · exact absurd clear ends
          · rintro ⟨_, below⟩
            refine absurd below (not_below done some' ?_)
            unfold start at ends above
            omega

end Chunk

section Loop

theorem SameBlock.refl (arena : DeviceArena) : SameBlock arena arena := ⟨rfl, rfl, rfl⟩

theorem chunkBuffers_ok {sizes : List Nat} {s after : Prefill} (lined : Lined s.arena)
    (done : chunkBuffers sizes s = .ok () after) : Granted s.arena sizes ∧ SameBlock after.arena s.arena := by
  induction sizes generalizing s with
  | nil =>
      cases done
      exact ⟨granted_nil _, SameBlock.refl _⟩
  | cons bytes rest ih =>
      obtain ⟨_, middle, first, others⟩ := bind_ok done
      obtain ⟨block, placed, run, pushed⟩ := bind_ok first
      cases pushed
      rcases place_cases lined bytes with ⟨none', granted, placed'⟩ | ⟨_, ⟨_, _, refused⟩, _⟩ |
        ⟨_, _, _, next, granted, _, placed'⟩
      · rw [placed'] at run
        cases run
        have tail := ih lined others
        exact ⟨(granted_cons granted).mpr tail.1, tail.2⟩
      · rw [refused] at run
        cases run
      · rw [placed'] at run
        cases run
        have same := sameBlock_allocate granted
        have tail := ih (lined.of_same same) others
        exact ⟨(granted_cons granted).mpr tail.1, tail.2.trans same⟩

theorem chunkBytes_mono (cfg : ModelConfig) {few many : Nat} (le : few ≤ many) :
    List.Forall₂ (· ≤ ·) (chunkBytes cfg few) (chunkBytes cfg many) := by
  have double : ∀ dim, few * dim * 2 ≤ many * dim * 2 :=
    fun dim => Nat.mul_le_mul_right 2 (Nat.mul_le_mul_right dim le)
  have eight : few * 8 ≤ many * 8 := Nat.mul_le_mul_right 8 le
  simp only [chunkBytes, ModelConfig.activationBytes, List.forall₂_cons, List.Forall₂.nil, double, eight,
    and_self]

variable {cfg : ModelConfig} {index : Block} {s : Prefill}

theorem forwardChunk_apart (whole : 0 < index.bytes) (multiple : 64 ∣ index.start) (addressed : index.start < 2 ^ 64)
    (lined : Lined s.arena) (behind : s.arena.basePtr ≤ index.start) (seqLen : Nat) :
    (∀ block ∈ (finalState (forwardChunk cfg seqLen s)).buffers, Apart index block) ↔
      (∀ block ∈ s.buffers, Apart index block) ∧ Below s.arena.reset index.start (chunkBytes cfg seqLen) :=
  chunkBuffers_apart whole multiple (chunkBytes cfg seqLen) (s := { s with arena := s.arena.reset })
    lined.reset addressed behind

theorem forwardChunk_ok {seqLen : Nat} {after : Prefill} (lined : Lined s.arena)
    (done : forwardChunk cfg seqLen s = .ok () after) :
    Granted s.arena.reset (chunkBytes cfg seqLen) ∧ SameBlock after.arena s.arena := by
  obtain ⟨granted, same⟩ := chunkBuffers_ok (s := { s with arena := s.arena.reset }) lined.reset done
  exact ⟨granted, same.trans ⟨rfl, rfl, rfl⟩⟩

theorem chunkLoop_frame (chunkSize fuel left : Nat) (s : Prefill) :
    (finalState (chunkLoop cfg chunkSize fuel left s)).indices = s.indices ∧
      ∀ block ∈ s.buffers, block ∈ (finalState (chunkLoop cfg chunkSize fuel left s)).buffers := by
  induction fuel generalizing left s with
  | zero => exact ⟨rfl, fun _ member => member⟩
  | succ fuel ih =>
      rw [chunkLoop]
      split
      · exact ⟨rfl, fun _ member => member⟩
      · have first := chunkBuffers_frame (chunkBytes cfg (min chunkSize left)) { s with arena := s.arena.reset }
        rw [bind_apply]
        cases run : forwardChunk cfg (min chunkSize left) s with
        | ok value after =>
            rw [show chunkBuffers _ _ = _ from run] at first
            have others := ih (left - min chunkSize left) after
            exact ⟨others.1.trans first.1, fun block member => others.2 block (first.2 block member)⟩
        | error thrown after =>
            rw [show chunkBuffers _ _ = _ from run] at first
            exact first

/-- Chunks no larger than one that ends before the block end before it too. -/
theorem below_of_fits {limit few many : Nat} {arena : DeviceArena} (le : few ≤ many)
    (fits : arena.basePtr + need arena.basePtr 64 0 (chunkBytes cfg many) ≤ limit) :
    Below arena.reset limit (chunkBytes cfg few) := by
  intro front front_le _
  have first : need arena.basePtr 64 0 front ≤ need arena.basePtr 64 0 (chunkBytes cfg few) :=
    need_prefix (by decide) front_le 0
  have second : need arena.basePtr 64 0 (chunkBytes cfg few) ≤ need arena.basePtr 64 0 (chunkBytes cfg many) :=
    need_mono (by decide) (chunkBytes_mono cfg le) (Nat.le_refl 0)
  change arena.basePtr + need arena.basePtr 64 0 front ≤ limit
  omega

theorem chunkLoop_of_fits (whole : 0 < index.bytes) (multiple : 64 ∣ index.start) (addressed : index.start < 2 ^ 64)
    {chunkSize most : Nat} (fuel left : Nat) (small : min chunkSize left ≤ most) (lined : Lined s.arena)
    (behind : s.arena.basePtr ≤ index.start)
    (fits : s.arena.basePtr + need s.arena.basePtr 64 0 (chunkBytes cfg most) ≤ index.start)
    (apart : ∀ block ∈ s.buffers, Apart index block) :
    ∀ block ∈ (finalState (chunkLoop cfg chunkSize fuel left s)).buffers, Apart index block := by
  induction fuel generalizing left s with
  | zero => exact apart
  | succ fuel ih =>
      rw [chunkLoop]
      split
      · exact apart
      · have first := (forwardChunk_apart whole multiple addressed lined behind _).mpr
          ⟨apart, below_of_fits small fits⟩
        rw [bind_apply]
        cases run : forwardChunk cfg (min chunkSize left) s with
        | ok value after =>
            rw [run] at first
            have same := (forwardChunk_ok lined run).2
            apply ih _ _ (lined.of_same same) (by rw [same.basePtr]; exact behind)
              (by rw [same.basePtr]; exact fits) first
            exact Nat.le_trans (min_le_min_left chunkSize (Nat.sub_le _ _)) small
        | error thrown after =>
            rw [run] at first
            exact first

/-- Only the first chunk matters: it is the largest, and the others begin at the same address. -/
theorem chunkLoop_apart (whole : 0 < index.bytes) (multiple : 64 ∣ index.start) (addressed : index.start < 2 ^ 64)
    (chunkSize fuel : Nat) {left : Nat} (some' : left ≠ 0) (lined : Lined s.arena)
    (behind : s.arena.basePtr ≤ index.start) :
    (∀ block ∈ (finalState (chunkLoop cfg chunkSize (fuel + 1) left s)).buffers, Apart index block) ↔
      (∀ block ∈ s.buffers, Apart index block) ∧
        Below s.arena.reset index.start (chunkBytes cfg (min chunkSize left)) := by
  have first : (∀ block ∈ (finalState (forwardChunk cfg (min chunkSize left) s)).buffers, Apart index block) ↔ _ :=
    forwardChunk_apart whole multiple addressed lined behind (min chunkSize left)
  rw [chunkLoop, if_neg some', bind_apply, ← first]
  cases run : forwardChunk cfg (min chunkSize left) s with
  | error thrown after => rfl
  | ok value after =>
      rw [run] at first
      constructor
      · exact fun apart block member => apart block ((chunkLoop_frame _ _ _ after).2 block member)
      · intro apart
        obtain ⟨granted, same⟩ := forwardChunk_ok lined run
        have fits := (first.mp apart).2 _ (List.prefix_refl _) granted
        apply chunkLoop_of_fits whole multiple addressed fuel _ _ (lined.of_same same)
          (by rw [same.basePtr]; exact behind) (by rw [same.basePtr]; exact fits) apart
        exact min_le_min_left chunkSize (Nat.sub_le _ _)

end Loop

section Prompt

/-- No buffer that a chunk was given meets the index buffer. -/
def Alive (s : Prefill) : Prop :=
  ∀ index, s.indices = some index → ∀ block ∈ s.buffers, Apart index block

/-- Not at the end of the address space, an offset within the block, and the default alignment. -/
structure Addressable (arena : DeviceArena) : Prop where
  room : arena.basePtr + arena.capacity + 64 ≤ 2 ^ 64
  offset : arena.offset ≤ arena.capacity
  line : arena.defaultAlignment = DEFAULT_ALIGNMENT

/-- What the arena holds already reaches beyond all that the first chunk is granted. -/
def Beyond (cfg : ModelConfig) (chunkSize tokens : Nat) (arena served : DeviceArena) : Prop :=
  arena.basePtr ≠ 0 → stop arena (tokens * 8) 64 % 2 ^ 64 ≤ arena.capacity →
    Below served.reset (start arena 64) (chunkBytes cfg (min chunkSize tokens))

/-- Wherever the index buffer is allocated, the arena held enough before. -/
def Outlives (cfg : ModelConfig) (available : Bool) (maxSeqLen : Nat) (promptTokens : List Int) (chunkSize : Nat)
    (arena : DeviceArena) : Prop :=
  promptTokens.length ≤ maxSeqLen → (∀ token ∈ promptTokens, cfg.InVocab token) →
    ∀ served, arena.persistentBuffer available cfg.logitsBytes = .ok served →
      Beyond cfg (if chunkSize = 0 then 512 else chunkSize) promptTokens.length arena served

theorem checkVision_count {cfg : ModelConfig} {vision : Option VisionInput} {promptTokens : List Int} {count : Nat}
    (passes : checkVision cfg vision promptTokens = .ok count) : count = visualTokenCount cfg promptTokens := by
  cases vision with
  | none =>
      simp only [checkVision] at passes
      split_ifs at passes
      cases passes
      rfl
  | some input =>
      simp only [checkVision] at passes
      split_ifs at passes <;> cases passes <;> rfl

theorem alive_of_none {s : Prefill} (none' : s.indices = none) : Alive s := by
  intro index present
  rw [none'] at present
  cases present

theorem alive_of_some {s : Prefill} {index : Block} (present : s.indices = some index) :
    Alive s ↔ ∀ block ∈ s.buffers, Apart index block := by
  unfold Alive
  simp only [present, Option.some.injEq, forall_eq']

theorem below_peak (arena : DeviceArena) (peak limit : Nat) (sizes : List Nat) :
    Below { arena with peakOffset := peak } limit sizes ↔ Below arena limit sizes := by
  unfold Below
  simp only [granted_peak]

variable {cfg : ModelConfig} {available : Bool} {maxSeqLen chunkSize count tokens : Nat} {promptTokens : List Int}
  {vision : VisionInput} {arena served after : DeviceArena}

theorem fillPrompt_refused {thrown : Exn} (refused : arena.persistentBuffer available cfg.logitsBytes = .error thrown) :
    fillPrompt cfg available count chunkSize tokens ⟨arena, none, []⟩ = .error thrown ⟨arena, none, []⟩ := by
  simp only [fillPrompt, bind_apply, read_apply, refused, raise_error]

section Served

variable (buffer : arena.persistentBuffer available cfg.logitsBytes = .ok served) (visual : 0 < count)
include buffer visual

theorem fillPrompt_unplaced {thrown : Exn}
    (refused : place (tokens * 8) ⟨served, none, []⟩ = .error thrown ⟨served, none, []⟩) :
    fillPrompt cfg available count chunkSize tokens ⟨arena, none, []⟩ = .error thrown ⟨served, none, []⟩ := by
  simp only [fillPrompt, bind_apply, read_apply, buffer, raise_ok, modify_apply, if_pos visual, refused]

theorem fillPrompt_placed {index : Block}
    (placed : place (tokens * 8) ⟨served, none, []⟩ = .ok (some index) ⟨after, none, []⟩) :
    fillPrompt cfg available count chunkSize tokens ⟨arena, none, []⟩ =
      chunkLoop cfg chunkSize tokens tokens ⟨after, some index, []⟩ := by
  simp only [fillPrompt, bind_apply, read_apply, buffer, raise_ok, modify_apply, if_pos visual, placed]

/-- The prompt from the logits on. -/
theorem fillPrompt_alive (some' : 0 < tokens) (addressable : Addressable arena) :
    Alive (finalState (fillPrompt cfg available count chunkSize tokens ⟨arena, none, []⟩)) ↔
      Beyond cfg chunkSize tokens arena served := by
  obtain ⟨more, grown⟩ : ∃ more, served = { arena with persistentCapacity := more } := by
    rcases persistentBuffer_capacity buffer with rfl | ⟨_, rfl⟩
    · exact ⟨_, rfl⟩
    · exact ⟨_, rfl⟩
  have offset : served.offset = arena.offset := by rw [grown]
  have same : SameBlock served arena := by rw [grown]; exact ⟨rfl, rfl, rfl⟩
  have room := addressable.room
  have inside := addressable.offset
  have lined : Lined served := Lined.of_same same ⟨by omega, addressable.line⟩
  have starts : start served 64 = start arena 64 := by
    unfold start
    rw [same.basePtr, offset]
  have stops : stop served (tokens * 8) 64 = stop arena (tokens * 8) 64 := by
    unfold stop
    rw [starts, same.basePtr]
  rcases place_cases (s := ⟨served, none, []⟩) lined (tokens * 8) with
    ⟨empty, _, _⟩ | ⟨_, ⟨thrown, _, run⟩, full⟩ | ⟨_, base, fits, next, done, _, run⟩
  · omega
  · rw [fillPrompt_unplaced buffer visual run]
    refine iff_of_true (alive_of_none rfl) fun base fits => ?_
    have full := full (by rw [same.basePtr]; exact base)
    rw [stops, same.capacity] at full
    omega
  · have top : start arena 64 < 2 ^ 64 := by
      have near : start arena 64 < arena.basePtr + arena.offset + 64 := by
        unfold start
        rw [roundUp_eq]
        omega
      omega
    have above : arena.basePtr + arena.offset ≤ start arena 64 := le_roundUp (by decide) _
    have kept := sameBlock_allocate done
    have reset : next.reset = { served.reset with peakOffset := next.peakOffset } := by
      rw [allocate_moves done]
      rfl
    rw [starts, Nat.mod_eq_of_lt top] at run
    rw [stops, same.capacity] at fits
    rw [same.basePtr] at base
    obtain ⟨fuel, rfl⟩ := Nat.exists_eq_succ_of_ne_zero (Nat.ne_of_gt some')
    rw [fillPrompt_placed buffer visual run]
    rw [alive_of_some (chunkLoop_frame chunkSize (fuel + 1) (fuel + 1) _).1,
      chunkLoop_apart (by dsimp only; omega) (dvd_roundUp _ _) top chunkSize fuel (Nat.ne_of_gt some')
        (lined.of_same kept) (by rw [kept.basePtr, same.basePtr]; dsimp only; omega), reset, below_peak]
    constructor
    · exact fun both _ _ => both.2
    · exact fun beyond => ⟨fun _ impossible => absurd impossible List.not_mem_nil, beyond base fits⟩

end Served

/-- The index buffer of a prompt with visual tokens that passes the checks. -/
theorem alive_iff (passes : checkVision cfg (some vision) promptTokens = .ok count) (visual : 0 < count)
    (addressable : Addressable arena) :
    Alive (finalState (prefillPrompt cfg available maxSeqLen promptTokens chunkSize vision ⟨arena, none, []⟩)) ↔
      Outlives cfg available maxSeqLen promptTokens chunkSize arena := by
  have some' : promptTokens ≠ [] := by
    rintro rfl
    rw [checkVision_count passes] at visual
    exact absurd visual (Nat.lt_irrefl 0)
  simp only [prefillPrompt, if_neg some']
  by_cases long : maxSeqLen < promptTokens.length
  · rw [if_pos long]
    exact iff_of_true (alive_of_none rfl) fun short => absurd long (Nat.not_lt_of_le short)
  rw [if_neg long, passes, raise_bind]
  by_cases vocab : ∀ token ∈ promptTokens, cfg.InVocab token
  · rw [if_pos (List.all_eq_true.mpr fun token member => decide_eq_true (vocab token member))]
    cases buffer : arena.persistentBuffer available cfg.logitsBytes with
    | error thrown =>
        rw [fillPrompt_refused buffer]
        refine iff_of_true (alive_of_none rfl) fun _ _ served impossible => ?_
        rw [buffer] at impossible
        cases impossible
    | ok served =>
        rw [fillPrompt_alive buffer visual (List.length_pos_iff.mpr some') addressable]
        constructor
        · intro beyond _ _ other same
          rw [buffer] at same
          cases same
          exact beyond
        · exact fun outlives => outlives (Nat.le_of_not_lt long) vocab served buffer
  · rw [if_neg]
    · exact iff_of_true (alive_of_none rfl) fun _ within => absurd within vocab
    · intro all
      exact vocab fun token member => of_decide_eq_true (List.all_eq_true.mp all token member)

/-- One image, and nothing else. -/
def imagePrompt : List Int := List.replicate 256 248000

def image : VisionInput := ⟨true, 256, 1⟩

def fresh : DeviceArena := DeviceArena.create 64 (2 ^ 31)

/-- An arena half of which was handed out since its last reset. -/
def halfFull : DeviceArena := { fresh with offset := 2 ^ 30, peakOffset := 2 ^ 30 }

theorem imagePrompt_passes : checkVision ModelConfig.defaults (some image) imagePrompt = .ok 256 := by
  decide +kernel

/-- The token ids of the first chunk are laid over the indices. -/
theorem fresh_overlaid : ¬ Alive (finalState
    (prefillPrompt ModelConfig.defaults true 4096 imagePrompt 512 image ⟨fresh, none, []⟩)) := by
  have indices : (finalState (prefillPrompt ModelConfig.defaults true 4096 imagePrompt 512 image
      ⟨fresh, none, []⟩)).indices = some ⟨64, 2048, 64⟩ := by decide +kernel
  have tokens : ⟨64, 2048, 64⟩ ∈ (finalState (prefillPrompt ModelConfig.defaults true 4096 imagePrompt 512 image
      ⟨fresh, none, []⟩)).buffers := by decide +kernel
  intro alive
  rcases alive _ indices _ tokens with clear | clear
  · exact absurd clear (by decide)
  · exact absurd clear (by decide)

theorem halfFull_alive : Alive (finalState
    (prefillPrompt ModelConfig.defaults true 4096 imagePrompt 512 image ⟨halfFull, none, []⟩)) := by
  refine (alive_iff imagePrompt_passes (by decide) ⟨by decide +kernel, by decide +kernel, rfl⟩).mpr ?_
  intro _ _ served buffer _ _
  have base : served.basePtr = 64 := by
    rcases persistentBuffer_capacity buffer with rfl | ⟨_, rfl⟩
    · rfl
    · rfl
  apply below_of_fits (Nat.le_refl _)
  rw [base]
  decide +kernel

end Prompt

end XInfer.VisualIndices
