import XInfer.PassRefinement

/-!
Runs of passes. What a prompt or a draft leaves does not depend on the calls that its tokens come in, nor on what the
activation buffers held before any of them.
-/

namespace XInfer.PassRuns

open AttentionKernels DecodePass LayerKernels LayerRows PassRefinement Transducer

section Machines

variable {KV Rec Logits : Type} (N : Machine KV Rec Logits)

/-- The flag is that of the first call. -/
theorem pass_append_zero (maxSeqLen : Nat) (zeroLinear : Bool) (memory : Memory KV Rec) {front : List Int}
    (some' : front ≠ []) (back : List Int) (startPos : Nat) :
    let first := N.pass maxSeqLen zeroLinear memory front startPos
    let second := N.pass maxSeqLen false first.1 back (startPos + front.length)
    N.pass maxSeqLen zeroLinear memory (front ++ back) startPos = (second.1, first.2 ++ second.2) := by
  have entered : (front ++ back).isEmpty = front.isEmpty := by
    cases front with
    | nil => exact absurd rfl some'
    | cons token rest => rfl
  simp only [Machine.pass, entered, Bool.false_and, Bool.false_eq_true, if_false, List.zipIdx_append, scan_append]

end Machines

section Runs

/-- The last row of each call. -/
def lastRows {α : Type} : List Nat → List α → List (Option α)
  | [], _ => []
  | seqLen :: rest, rows => (rows.take seqLen).getLast? :: lastRows rest (rows.drop seqLen)

variable {M : LoadedModel} {maxSeqLen : Nat} (vocabulary : 0 < M.config.vocabSize)

/-- All tokens of the calls. -/
def tokensOf {F : Type} (calls : List (List Int × DeviceMemory F)) : List Int := calls.flatMap Prod.fst

variable (maxSeqLen) in
/-- The network's pass, as the machine's. -/
theorem network_append (zeroLinear : Bool) (memory : (network M vocabulary).Cache) {front : List Int}
    (some' : front ≠ []) (back : List Int) (startPos : Nat) :
    let N := network M vocabulary
    let first := N.pass maxSeqLen zeroLinear memory front startPos
    let second := N.pass maxSeqLen false first.1 back (startPos + front.length)
    N.pass maxSeqLen zeroLinear memory (front ++ back) startPos = (second.1, first.2 ++ second.2) := by
  intro N first second
  have joined := pass_append_zero N.machine maxSeqLen zeroLinear memory some' back startPos
  simp only [Network.machine_pass] at joined
  exact joined

variable (maxSeqLen) in
theorem network_length (zeroLinear : Bool) (memory : (network M vocabulary).Cache) (tokens : List Int) (startPos : Nat) :
    ((network M vocabulary).pass maxSeqLen zeroLinear memory tokens startPos).2.length = tokens.length := by
  rw [← Network.machine_pass]
  exact Machine.pass_length _ _ _ _ _ _

/-- Logits of a single row. -/
noncomputable def logitsOf (M : LoadedModel) (logits : List ℝ) : LogitsRow M :=
  rowOf M.config.vocabSize.toNat (elements logits) 0

/-- A run of calls is one pass of the network: each call's logits are those of its last row. -/
theorem chunkRun_refines (supported : M.Supported) (zeroLinear : Bool) {calls : List (List Int × DeviceMemory ℝ)}
    (filled : ∀ call ∈ calls, call.1 ≠ []) {startPos : Nat} (room : startPos + (tokensOf calls).length ≤ maxSeqLen)
    (storage : Storage ℝ) :
    let done := (network M vocabulary).pass maxSeqLen zeroLinear (cache vocabulary storage) (tokensOf calls) startPos
    let after := chunkRun M.target maxSeqLen zeroLinear calls startPos storage
    cache vocabulary after.1 = done.1 ∧
      after.2.map (fun logits => some (logitsOf M logits)) = lastRows (calls.map fun call => call.1.length) done.2 := by
  induction calls generalizing zeroLinear startPos storage with
  | nil => exact ⟨rfl, rfl⟩
  | cons call rest ih =>
      obtain ⟨tokens, m⟩ := call
      have some' : tokens ≠ [] := filled (tokens, m) List.mem_cons_self
      have later : ∀ call ∈ rest, call.1 ≠ [] := fun call member => filled call (List.mem_cons_of_mem _ member)
      have all : tokensOf ((tokens, m) :: rest) = tokens ++ tokensOf rest := rfl
      rw [all] at room ⊢
      rw [List.length_append] at room
      obtain ⟨stored, last⟩ := chunk_refines vocabulary supported zeroLinear some'
        (show startPos + tokens.length ≤ maxSeqLen by omega) { m with storage := storage }
      have joined := network_append maxSeqLen vocabulary zeroLinear (cache vocabulary storage) some'
        (tokensOf rest) startPos
      have width := network_length maxSeqLen vocabulary zeroLinear (cache vocabulary storage) tokens startPos
      obtain ⟨final, logits⟩ := ih false later
        (show startPos + tokens.length + (tokensOf rest).length ≤ maxSeqLen by omega)
        (GraphReplay.forwardChunk M.target maxSeqLen tokens startPos zeroLinear { m with storage := storage }).storage
      rw [stored] at final logits
      dsimp only at joined last ⊢
      rw [joined]
      refine ⟨final, ?_⟩
      rw [List.map_cons, lastRows, List.take_left' width, List.drop_left' width, last, ← logits]
      rfl

theorem lastRows_getLast {α : Type} {lengths : List Nat} {rows : List α} (whole : lengths.sum = rows.length)
    (filled : ∀ seqLen ∈ lengths, 0 < seqLen) (some' : lengths ≠ []) :
    (lastRows lengths rows).getLast? = some rows.getLast? := by
  induction lengths generalizing rows with
  | nil => exact absurd rfl some'
  | cons seqLen rest ih =>
      rw [List.sum_cons] at whole
      cases rest with
      | nil =>
          have all : rows.take seqLen = rows := List.take_of_length_le (by simpa using whole.symm.le)
          rw [lastRows, lastRows, all]
          rfl
      | cons second rest =>
          have positive : 0 < second := filled second (by simp)
          rw [List.sum_cons] at whole
          have left : (second :: rest).sum = (rows.drop seqLen).length := by
            rw [List.sum_cons, List.length_drop]
            omega
          have later := ih left (fun n member => filled n (List.mem_cons_of_mem _ member)) (by simp)
          have behind : seqLen < rows.length := by omega
          rw [List.getLast?_drop, if_neg (by omega)] at later
          rw [lastRows, ← later]
          exact List.getLast?_cons_cons

theorem lastRows_single {α : Type} {lengths : List Nat} {rows : List α} (whole : lengths.length = rows.length)
    (single : ∀ seqLen ∈ lengths, seqLen = 1) : lastRows lengths rows = rows.map some := by
  induction lengths generalizing rows with
  | nil =>
      obtain rfl := List.length_eq_zero_iff.1 whole.symm
      rfl
  | cons seqLen rest ih =>
      obtain rfl : seqLen = 1 := single seqLen List.mem_cons_self
      cases rows with
      | nil => cases whole
      | cons row rows =>
          have later := ih (Nat.succ.inj whole) fun n member => single n (List.mem_cons_of_mem _ member)
          rw [lastRows, List.map_cons, ← later]
          rfl

end Runs

section Agreement

variable {M : LoadedModel} {maxSeqLen startPos : Nat}

theorem length_tokensOf {F : Type} (calls : List (List Int × DeviceMemory F)) :
    (tokensOf calls).length = (calls.map fun call => call.1.length).sum := by
  rw [tokensOf, List.length_flatMap]

/-- The logits of the last token of a run. -/
theorem chunkRun_last (vocabulary : 0 < M.config.vocabSize) (supported : M.Supported) (zeroLinear : Bool)
    {calls : List (List Int × DeviceMemory ℝ)} (filled : ∀ call ∈ calls, call.1 ≠ []) (some' : calls ≠ [])
    (room : startPos + (tokensOf calls).length ≤ maxSeqLen) (storage : Storage ℝ) :
    (chunkRun M.target maxSeqLen zeroLinear calls startPos storage).2.getLast?.map (logitsOf M) =
      ((network M vocabulary).pass maxSeqLen zeroLinear (cache vocabulary storage) (tokensOf calls) startPos).2.getLast? := by
  have rows := (chunkRun_refines vocabulary supported zeroLinear filled room storage).2
  have whole : (calls.map fun call => call.1.length).sum = ((network M vocabulary).pass maxSeqLen zeroLinear
      (cache vocabulary storage) (tokensOf calls) startPos).2.length := by
    rw [network_length, length_tokensOf]
  have positive : ∀ n ∈ calls.map fun call => call.1.length, 0 < n := by
    intro n member
    obtain ⟨call, inside, rfl⟩ := List.mem_map.1 member
    exact List.length_pos_of_ne_nil (filled call inside)
  have last := lastRows_getLast whole positive (by simpa using some')
  rw [← rows, List.getLast?_map] at last
  generalize (chunkRun M.target maxSeqLen zeroLinear calls startPos storage).2.getLast? = found at last ⊢
  cases found with
  | none => cases last
  | some logits => exact Option.some.inj last

/-- A prompt in whatever calls: the slots, the states and the logits of its last token are the same. -/
theorem calls_agree (vocabulary : 0 < M.config.vocabSize) (supported : M.Supported) (zeroLinear : Bool)
    {calls calls' : List (List Int × DeviceMemory ℝ)} (filled : ∀ call ∈ calls, call.1 ≠ [])
    (filled' : ∀ call ∈ calls', call.1 ≠ []) (some' : calls ≠ []) (same : tokensOf calls = tokensOf calls')
    (room : startPos + (tokensOf calls).length ≤ maxSeqLen) {storage storage' : Storage ℝ}
    (alike : cache vocabulary storage = cache vocabulary storage') :
    let ran := chunkRun M.target maxSeqLen zeroLinear calls startPos storage
    let ran' := chunkRun M.target maxSeqLen zeroLinear calls' startPos storage'
    cache vocabulary ran.1 = cache vocabulary ran'.1 ∧
      ran.2.getLast?.map (logitsOf M) = ran'.2.getLast?.map (logitsOf M) := by
  intro ran ran'
  have some'' : calls' ≠ [] := by
    rintro rfl
    cases calls with
    | nil => exact some' rfl
    | cons call rest =>
        have first := filled call List.mem_cons_self
        have empty : call.1 = [] := List.append_eq_nil_iff.1 same |>.1
        exact first empty
  have stored := (chunkRun_refines vocabulary supported zeroLinear filled room storage).1
  have stored' := (chunkRun_refines vocabulary supported zeroLinear filled' (same ▸ room) storage').1
  have last := chunkRun_last vocabulary supported zeroLinear filled some' room storage
  have last' := chunkRun_last vocabulary supported zeroLinear filled' some'' (same ▸ room) storage'
  rw [← same, ← alike] at stored' last'
  exact ⟨stored.trans stored'.symm, last.trans last'.symm⟩

/-- Three tokens at once, and a call of two before one. -/
theorem calls_agree_three :
    let ran := chunkRun twoLayers.target 8 true [([5, 6, 7], PassRules.blank)] 0 PassRules.blank.storage
    let ran' := chunkRun twoLayers.target 8 true [([5, 6], PassRules.blank), ([7], PassRules.blank)] 0
      PassRules.blank.storage
    cache twoLayers_vocabulary ran.1 = cache twoLayers_vocabulary ran'.1 ∧
      ran.2.getLast?.map (logitsOf twoLayers) = ran'.2.getLast?.map (logitsOf twoLayers) := by
  apply calls_agree twoLayers_vocabulary twoLayers_supported
  · simp
  · simp
  · simp
  · rfl
  · decide
  · rfl

/-- Verifying a batch is decoding its tokens one by one: the logits of each, and what is left of them. -/
theorem verify_decodes (vocabulary : 0 < M.config.vocabSize) (supported : M.Supported)
    {calls : List (List Int × DeviceMemory ℝ)} (single : ∀ call ∈ calls, call.1.length = 1) (some' : calls ≠ [])
    (room : startPos + (tokensOf calls).length ≤ maxSeqLen) (m : DeviceMemory ℝ) {storage : Storage ℝ}
    (alike : cache vocabulary m.storage = cache vocabulary storage) :
    let verified := forwardVerify M.target maxSeqLen (tokensOf calls) startPos m
    let decoded := chunkRun M.target maxSeqLen false calls startPos storage
    cache vocabulary verified.storage = cache vocabulary decoded.1 ∧
      rowsOf M.config.vocabSize.toNat (tokensOf calls).length verified.logits = decoded.2.map (logitsOf M) := by
  intro verified decoded
  have filled : ∀ call ∈ calls, call.1 ≠ [] := fun call member empty => by
    have one := single call member
    rw [empty] at one
    cases one
  have drafts : tokensOf calls ≠ [] := by
    cases calls with
    | nil => exact absurd rfl some'
    | cons call rest => exact fun empty => filled call List.mem_cons_self (List.append_eq_nil_iff.1 empty).1
  obtain ⟨stored, rows⟩ := verify_refines vocabulary supported drafts room m
  obtain ⟨stored', logits⟩ := chunkRun_refines vocabulary supported false filled room storage
  have ones : ∀ n ∈ calls.map fun call => call.1.length, n = 1 := by
    intro n member
    obtain ⟨call, inside, rfl⟩ := List.mem_map.1 member
    exact single call inside
  have count : (tokensOf calls).length = calls.length := by
    rw [length_tokensOf, List.eq_replicate_of_mem ones, List.length_map, List.sum_replicate, smul_eq_mul, Nat.mul_one]
  rw [lastRows_single (by rw [List.length_map, network_length, count]) ones] at logits
  rw [alike] at stored rows
  refine ⟨stored.trans stored'.symm, rows.trans ?_⟩
  apply List.map_injective_iff.2 (Option.some_injective _)
  rw [← logits, List.map_map]
  rfl

theorem verify_decodes_two :
    let calls : List (List Int × DeviceMemory ℝ) := [([5], PassRules.blank), ([6], PassRules.blank)]
    let verified := forwardVerify twoLayers.target 8 (tokensOf calls) 3 PassRules.blank
    let decoded := chunkRun twoLayers.target 8 false calls 3 PassRules.blank.storage
    cache twoLayers_vocabulary verified.storage = cache twoLayers_vocabulary decoded.1 ∧
      rowsOf twoLayers.config.vocabSize.toNat (tokensOf calls).length verified.logits =
        decoded.2.map (logitsOf twoLayers) := by
  apply verify_decodes twoLayers_vocabulary twoLayers_supported
  · simp
  · simp
  · decide
  · rfl

end Agreement

end XInfer.PassRuns
