import XInfer.ForwardRules

/-!
Two devices of one engine, run side by side with speculation off. What they may differ in
is what earlier calls have left: slots at and beyond the length, recurrent states before
the next `clear`, old logits, offsets of the bump arenas before the next `reset`, and
whether the persistent buffer exists. The rules say that no function of the forward pass
lets a difference show. The queue fails alike on both sides, memory for the first
persistent buffer is there.
-/

namespace XInfer.TwinRules

open Primitives StateException Device Forward ForwardRules VisionGate

variable {KV Rec Logits : Type}

section Arenas

/-- Two arenas over one block. -/
structure Alike (rowBytes : Nat) (left right : DeviceArena) : Prop where
  basePtr : left.basePtr = right.basePtr
  capacity : left.capacity = right.capacity
  alignment : left.defaultAlignment = right.defaultAlignment
  left_holds : ∀ capacity, left.persistentCapacity = some capacity → rowBytes ≤ capacity
  right_holds : ∀ capacity, right.persistentCapacity = some capacity → rowBytes ≤ capacity

variable {rowBytes : Nat} {left right : DeviceArena}

theorem Alike.reset (alike : Alike rowBytes left right) : Alike rowBytes left.reset right.reset :=
  ⟨alike.basePtr, alike.capacity, alike.alignment, alike.left_holds, alike.right_holds⟩

/-- From one offset on the arenas serve alike. -/
theorem Alike.allocate (alike : Alike rowBytes left right) (offset : left.offset = right.offset)
    (bytes : Nat) :
    (∃ first second, left.allocate bytes = .ok first ∧ right.allocate bytes = .ok second ∧
      Alike rowBytes first second ∧ first.offset = second.offset) ∨
    (left.allocate bytes = .error .badAlloc ∧ right.allocate bytes = .error .badAlloc) := by
  unfold DeviceArena.allocate
  rw [alike.basePtr, alike.capacity, alike.alignment, offset]
  -- Address, capacity and offset decide the answer, and they are the same on both sides.
  by_cases none : bytes = 0
  · rw [if_pos none, if_pos none]
    exact Or.inl ⟨left, right, rfl, rfl, alike, offset⟩
  · rw [if_neg none, if_neg none]
    split
    · exact Or.inr ⟨rfl, rfl⟩
    · dsimp only
      split
      · exact Or.inr ⟨rfl, rfl⟩
      · exact Or.inl ⟨_, _, rfl, rfl,
          ⟨rfl, rfl, rfl, alike.left_holds, alike.right_holds⟩, rfl⟩

/-- One row is served whether or not the buffer is there already. -/
theorem serves_row (visible : 0 < rowBytes)
    (holds : ∀ capacity, left.persistentCapacity = some capacity → rowBytes ≤ capacity) :
    ∃ after, left.persistentBuffer true rowBytes = .ok after ∧ after.basePtr = left.basePtr ∧
      after.capacity = left.capacity ∧ after.defaultAlignment = left.defaultAlignment ∧
      after.offset = left.offset ∧
      ∀ capacity, after.persistentCapacity = some capacity → rowBytes ≤ capacity := by
  cases present : left.persistentCapacity with
  -- the request that sizes the buffer
  | none =>
      refine ⟨{ left with persistentCapacity := some rowBytes }, ?_, rfl, rfl, rfl, rfl, ?_⟩
      · simp [DeviceArena.persistentBuffer, present, Nat.ne_of_gt visible]
      · rintro capacity ⟨⟩
        exact Nat.le_refl _
  | some capacity =>
      exact ⟨left, DeviceArena.persistentBuffer_of_le true left present (holds capacity present), rfl, rfl,
        rfl, rfl, holds⟩

end Arenas

section Relations

variable (maxSeqLen rowBytes : Nat)

/-- Two devices that only the next `clear` and `reset` make equal. -/
structure Beside (d e : Device KV Rec Logits) : Prop where
  left_size : d.kv.maxSeqLen = maxSeqLen
  right_size : e.kv.maxSeqLen = maxSeqLen
  submissions : d.submissions = e.submissions
  arenas : ∀ owner, Alike rowBytes (d.arena owner) (e.arena owner)

/-- What two devices are known to share: the slots below `len`, the length counter, and the
rows of logits and the bump offsets that are listed. -/
structure Shared where
  len : Nat
  cur : Nat
  rows : Buffer → Nat → Prop := fun _ _ => False
  offsets : Owner → Prop := fun _ => False

/-- No more than the row that a chunk was asked for. -/
def Shared.row (len cur : Nat) (place : Option (Buffer × Nat)) : Shared where
  len := len
  cur := cur
  rows := fun buffer i => place = some (buffer, i)

structure Twin (K : Shared) (d e : Device KV Rec Logits) : Prop where
  beside : Beside maxSeqLen rowBytes d e
  left_length : d.kv.currentSeqLen = K.cur
  right_length : e.kv.currentSeqLen = K.cur
  memory : d.kv.memory.Agree K.len e.kv.memory
  rows : ∀ buffer i, K.rows buffer i → d.logits buffer i = e.logits buffer i
  offsets : ∀ owner, K.offsets owner → (d.arena owner).offset = (e.arena owner).offset

/-- Between two tokens: everything below the length is shared. -/
def Level (n : Nat) : Device KV Rec Logits → Device KV Rec Logits → Prop :=
  Twin maxSeqLen rowBytes { len := n, cur := n }

variable {maxSeqLen rowBytes} {K : Shared} {d e : Device KV Rec Logits}

theorem Beside.setArena (beside : Beside maxSeqLen rowBytes d e) (owner : Owner)
    {left right : DeviceArena} (alike : Alike rowBytes left right) :
    Beside maxSeqLen rowBytes (d.setArena owner left) (e.setArena owner right) := by
  refine ⟨beside.left_size, beside.right_size, beside.submissions, fun other => ?_⟩
  unfold Device.setArena
  by_cases own : other = owner
  · simpa [own] using alike
  · simpa [own] using beside.arenas other

theorem Twin.setArena (twin : Twin maxSeqLen rowBytes K d e) (owner : Owner)
    {left right : DeviceArena} (alike : Alike rowBytes left right) (offset : left.offset = right.offset) :
    Twin maxSeqLen rowBytes { K with offsets := fun o => o = owner ∨ K.offsets o } (d.setArena owner left)
      (e.setArena owner right) := by
  refine ⟨twin.beside.setArena owner alike, twin.left_length, twin.right_length, twin.memory, twin.rows, ?_⟩
  intro other known
  unfold Device.setArena
  by_cases own : other = owner
  · simpa [own] using offset
  · simpa [own] using twin.offsets other (known.resolve_left own)

/-- Less is known afterwards. -/
theorem Twin.forget (twin : Twin maxSeqLen rowBytes K d e) {L : Shared} (len : L.len = K.len)
    (cur : L.cur = K.cur) (rows : ∀ buffer i, L.rows buffer i → K.rows buffer i)
    (offsets : ∀ owner, L.offsets owner → K.offsets owner) : Twin maxSeqLen rowBytes L d e where
  beside := twin.beside
  left_length := twin.left_length.trans cur.symm
  right_length := twin.right_length.trans cur.symm
  memory := len ▸ twin.memory
  rows := fun buffer i known => twin.rows buffer i (rows buffer i known)
  offsets := fun owner known => twin.offsets owner (offsets owner known)

end Relations

section Rules

variable {fault : Nat → Option (Fault KV Rec)} {maxSeqLen rowBytes : Nat} {K : Shared}

/-- The driver below both runs. -/
abbrev driver (fault : Nat → Option (Fault KV Rec)) : Platform KV Rec := Platform.real true fault

/-- A failed submission fails on both sides; what it has done to the memories is not shared. -/
theorem submit_related {relation : Device KV Rec Logits → Device KV Rec Logits → Prop}
    (beside : ∀ d e, relation d e → Beside maxSeqLen rowBytes d e)
    (counted : ∀ d e, relation d e → relation { d with submissions := d.submissions + 1 }
      { e with submissions := e.submissions + 1 }) :
    Related relation (submit (driver fault)) (submit (driver fault)) (fun _ => relation)
      fun _ => Beside maxSeqLen rowBytes := by
  intro d e start
  have here := beside d e start
  unfold submit
  rw [← here.submissions]
  cases (driver fault).fault d.submissions with
  | none =>
      have both := counted d e start
      rw [← here.submissions] at both
      exact ⟨rfl, both⟩
  | some thrown => exact ⟨rfl, here.left_size, here.right_size, rfl, here.arenas⟩

theorem submit_beside : Related (Beside maxSeqLen rowBytes)
    (submit (driver fault) : DeviceM KV Rec Logits Unit) (submit (driver fault))
    (fun _ => Beside maxSeqLen rowBytes) fun _ => Beside maxSeqLen rowBytes :=
  submit_related (fun _ _ beside => beside) fun _ _ beside =>
    ⟨beside.left_size, beside.right_size, congrArg (· + 1) beside.submissions, beside.arenas⟩

theorem submit_twin : Related (Twin maxSeqLen rowBytes K)
    (submit (driver fault) : DeviceM KV Rec Logits Unit) (submit (driver fault))
    (fun _ => Twin maxSeqLen rowBytes K) fun _ => Beside maxSeqLen rowBytes :=
  submit_related (fun _ _ twin => twin.beside) fun _ _ twin =>
    ⟨⟨twin.beside.left_size, twin.beside.right_size, congrArg (· + 1) twin.beside.submissions,
      twin.beside.arenas⟩, twin.left_length, twin.right_length, twin.memory, twin.rows, twin.offsets⟩

theorem allocate_twin {owner : Owner} (level : K.offsets owner) (bytes : Nat) :
    Related (Twin maxSeqLen rowBytes K) (allocate (driver fault) owner bytes : DeviceM KV Rec Logits Unit)
      (allocate (driver fault) owner bytes) (fun _ => Twin maxSeqLen rowBytes K)
      fun _ => Beside maxSeqLen rowBytes := by
  intro d e twin
  unfold allocate
  simp only [driver, Platform.real]
  rcases (twin.beside.arenas owner).allocate (twin.offsets owner level) bytes with
    ⟨first, second, left, right, alike, offset⟩ | ⟨left, right⟩
  · rw [left, right]
    refine ⟨trivial, (twin.setArena owner alike offset).forget rfl rfl (fun _ _ known => known) ?_⟩
    exact fun other known => Or.inr known
  · rw [left, right]
    exact ⟨rfl, twin.beside⟩

theorem allocateAll_twin {owner : Owner} (level : K.offsets owner) (sizes : List Nat) :
    Related (Twin maxSeqLen rowBytes K) (allocateAll (driver fault) owner sizes : DeviceM KV Rec Logits Unit)
      (allocateAll (driver fault) owner sizes) (fun _ => Twin maxSeqLen rowBytes K)
      fun _ => Beside maxSeqLen rowBytes := by
  induction sizes with
  | nil => exact related_pure () fun _ _ twin => twin
  | cons bytes rest ih => exact related_bind (allocate_twin level bytes) fun _ => ih

theorem persistentBuffer_twin (visible : 0 < rowBytes) (owner : Owner) :
    Related (Twin maxSeqLen rowBytes K)
      (persistentBuffer (driver fault) owner rowBytes : DeviceM KV Rec Logits Unit)
      (persistentBuffer (driver fault) owner rowBytes)
      (fun _ => Twin maxSeqLen rowBytes K) fun _ => Beside maxSeqLen rowBytes := by
  intro d e twin
  have alike := twin.beside.arenas owner
  obtain ⟨first, left, base, capacity, alignment, offset, holds⟩ := serves_row visible alike.left_holds
  obtain ⟨second, right, base', capacity', alignment', offset', holds'⟩ := serves_row visible alike.right_holds
  unfold persistentBuffer
  simp only [driver, Platform.real, left, right]
  refine ⟨trivial, ⟨⟨twin.beside.left_size, twin.beside.right_size, twin.beside.submissions, ?_⟩,
    twin.left_length, twin.right_length, twin.memory, twin.rows, ?_⟩⟩
  · intro other
    unfold Device.setArena
    by_cases own : other = owner
    · simp only [own, if_true]
      exact ⟨base.trans (alike.basePtr.trans base'.symm), capacity.trans (alike.capacity.trans capacity'.symm),
        alignment.trans (alike.alignment.trans alignment'.symm), holds, holds'⟩
    · simpa [own, record] using twin.beside.arenas other
  · intro other known
    unfold Device.setArena
    by_cases own : other = owner
    · subst own
      simp only [if_true]
      exact offset.trans ((twin.offsets other known).trans offset'.symm)
    · simpa [own, record] using twin.offsets other known

variable (T : Machine KV Rec Logits)

theorem acquire_twin {owner : Owner} (level : K.offsets owner) (n : Nat) :
    Related (Twin maxSeqLen rowBytes K) (acquire T.backend (driver fault) owner n : DeviceM KV Rec Logits Unit)
      (acquire T.backend (driver fault) owner n) (fun _ => Twin maxSeqLen rowBytes K)
      fun _ => Beside maxSeqLen rowBytes := by
  apply related_bind (allocate_twin level _)
  intro _
  apply related_bind submit_twin
  intro _
  apply related_bind (allocate_twin level _)
  intro _
  apply related_bind submit_twin
  intro _
  apply related_bind (allocateAll_twin level _)
  exact fun _ => submit_twin

/-- After the `memset` nothing of the recurrent states is left to differ. -/
theorem clear_twin : Related (Beside maxSeqLen rowBytes)
    (clear T.backend (driver fault) : DeviceM KV Rec Logits Unit) (clear T.backend (driver fault))
    (fun _ => Level maxSeqLen rowBytes 0) fun _ => Beside maxSeqLen rowBytes := by
  apply related_bind submit_beside
  intro _
  have zeroed : Related (Beside maxSeqLen rowBytes)
      (modify fun d => d.setLength (d.kv.clear T.cleared) : DeviceM KV Rec Logits Unit)
      (modify fun d => d.setLength (d.kv.clear T.cleared)) (fun _ => Level maxSeqLen rowBytes 0)
      fun _ => Beside maxSeqLen rowBytes := by
    apply related_modify
    intro d e beside
    refine ⟨{ beside with }, rfl, rfl, ?_, ?_, ?_⟩
    · exact Memory.agree_zero rfl
    · exact fun _ _ => False.elim
    · exact fun _ => False.elim
  apply related_bind zeroed
  exact fun _ => submit_twin

theorem setSeqLen_twin {len : Nat} (room : len ≤ maxSeqLen) : Related (Twin maxSeqLen rowBytes K)
    (modify fun d => d.setLength (d.kv.setSeqLen len) : DeviceM KV Rec Logits Unit)
    (modify fun d => d.setLength (d.kv.setSeqLen len)) (fun _ => Twin maxSeqLen rowBytes { K with cur := len })
    fun _ => Beside maxSeqLen rowBytes := by
  apply related_modify
  intro d e twin
  have left : min len d.kv.maxSeqLen = len := by rw [twin.beside.left_size, Nat.min_eq_left room]
  have right : min len e.kv.maxSeqLen = len := by rw [twin.beside.right_size, Nat.min_eq_left room]
  exact ⟨{ twin.beside with }, left, right, twin.memory, twin.rows, twin.offsets⟩

theorem argmax_twin {buffer : Buffer} {i : Nat} (known : K.rows buffer i) :
    Related (Twin maxSeqLen rowBytes K) (argmax T.backend (driver fault) buffer i)
      (argmax T.backend (driver fault) buffer i) (fun _ => Twin maxSeqLen rowBytes K)
      fun _ => Beside maxSeqLen rowBytes := by
  apply related_bind submit_twin
  intro _ d e twin
  exact ⟨congrArg T.argmax (twin.rows buffer i known), twin⟩

/-- The pass reads nothing that the devices do not share. -/
theorem runLayers_twin (zeroLinear : Bool) (tokens : List Int) (room : K.len + tokens.length ≤ maxSeqLen) :
    Related (Twin maxSeqLen rowBytes K) (runLayers T.backend zeroLinear tokens K.len)
      (runLayers T.backend zeroLinear tokens K.len)
      (fun rows d e => rows.length = tokens.length ∧
        Twin maxSeqLen rowBytes { K with len := K.len + tokens.length } d e)
      fun _ => Beside maxSeqLen rowBytes := by
  intro d e twin
  obtain ⟨agree, rows⟩ := T.pass_agree_flag zeroLinear tokens twin.memory room
  simp only [runLayers, Device.runPass, Machine.backend_pass, twin.beside.left_size, twin.beside.right_size]
  refine ⟨rows, T.pass_length _ _ _ _ _, ⟨rfl, rfl, twin.beside.submissions, twin.beside.arenas⟩,
    twin.left_length, twin.right_length, agree, twin.rows, twin.offsets⟩

theorem writeLogits_twin (buffer : Buffer) (row : Nat) {rows : List Logits} (one : 0 < rows.length) :
    Related (Twin maxSeqLen rowBytes K)
      (modify (Device.writeLogits buffer row rows) : DeviceM KV Rec Logits Unit)
      (modify (Device.writeLogits buffer row rows))
      (fun _ => Twin maxSeqLen rowBytes (.row K.len K.cur (some (buffer, row))))
      fun _ => Beside maxSeqLen rowBytes := by
  apply related_modify
  intro d e twin
  refine ⟨{ twin.beside with }, twin.left_length, twin.right_length, twin.memory, ?_, fun _ => False.elim⟩
  rintro b i ⟨⟩
  have left := writeLogits_here buffer row 0 rows d one
  have right := writeLogits_here buffer row 0 rows e one
  exact left.trans right.symm

/-- A chunk at the shared length extends it, and its last row is shared where it was asked for. -/
theorem forwardChunk_twin (owner : Owner) {tokens : List Int} (nonempty : tokens ≠ [])
    (room : K.len + tokens.length ≤ maxSeqLen) (zeroLinear : Bool) (out : Option (Buffer × Nat)) :
    Related (Twin maxSeqLen rowBytes K)
      (forwardChunk T.backend (driver fault) owner tokens K.len zeroLinear out)
      (forwardChunk T.backend (driver fault) owner tokens K.len zeroLinear out)
      (fun _ => Twin maxSeqLen rowBytes (.row (K.len + tokens.length) K.cur out))
      fun _ => Beside maxSeqLen rowBytes := by
  unfold forwardChunk
  rw [if_neg nonempty]
  apply related_look
  intro d e twin
  have inside : ¬ d.kv.maxSeqLen < K.len + tokens.length := by rw [twin.beside.left_size]; omega
  have within : ¬ e.kv.maxSeqLen < K.len + tokens.length := by rw [twin.beside.right_size]; omega
  rw [if_neg inside, if_neg within]
  clear twin inside within d e
  have reset : Related (Twin maxSeqLen rowBytes K)
      (modify (resetArena owner) : DeviceM KV Rec Logits Unit) (modify (resetArena owner))
      (fun _ => Twin maxSeqLen rowBytes { len := K.len, cur := K.cur, offsets := fun o => o = owner })
      fun _ => Beside maxSeqLen rowBytes := by
    apply related_modify
    intro d e twin
    refine (twin.setArena owner (twin.beside.arenas owner).reset rfl).forget rfl rfl ?_ fun _ same => Or.inl same
    exact fun _ _ => False.elim
  apply related_bind reset
  intro _
  apply related_bind (acquire_twin T (rfl : owner = owner) tokens.length)
  intro _
  apply related_bind (runLayers_twin (K := { len := K.len, cur := K.cur, offsets := fun o => o = owner }) T
    zeroLinear tokens room)
  intro rows
  cases out with
  | none =>
      apply related_pure
      rintro d e ⟨_, twin⟩
      refine twin.forget rfl rfl ?_ fun _ => False.elim
      rintro _ _ ⟨⟩
  | some place =>
      obtain ⟨buffer, i⟩ := place
      rintro d e ⟨width, twin⟩
      have one : 0 < (rows.drop (tokens.length - 1)).length := by
        have positive := List.length_pos_iff.mpr nonempty
        rw [List.length_drop, width]
        omega
      refine related_bind submit_twin (fun _ => ?_) d e twin
      exact writeLogits_twin buffer i one

/-- The level of a prompt that has been fed up to an offset. -/
theorem prefillChunks_twin {chunkSize : Nat} (positive : 0 < chunkSize) (fuel : Nat) {pending : List Int}
    (nonempty : pending ≠ []) (enough : pending.length ≤ fuel) {offset cur : Nat}
    (room : offset + pending.length ≤ maxSeqLen) :
    Related (Twin maxSeqLen rowBytes { len := offset, cur := cur })
      (prefillChunks T.backend (driver fault) chunkSize fuel pending offset)
      (prefillChunks T.backend (driver fault) chunkSize fuel pending offset)
      (fun _ => Twin maxSeqLen rowBytes (.row (offset + pending.length) cur (some (.persistent .main, 0))))
      fun _ => Beside maxSeqLen rowBytes := by
  -- One chunk each turn: the fuel counts the tokens that are left, and the level is the offset.
  induction fuel generalizing pending offset with
  | zero => exact absurd (List.length_eq_zero_iff.mp (Nat.le_zero.mp enough)) nonempty
  | succ fuel ih =>
      have some : 0 < pending.length := List.length_pos_iff.mpr nonempty
      unfold prefillChunks
      rw [if_neg nonempty]
      dsimp only
      -- Only the last chunk asks for its row.
      by_cases last : pending.length ≤ chunkSize
      · rw [List.take_of_length_le last, List.drop_of_length_le last, prefillChunks_nil,
          if_pos (decide_eq_true last)]
        apply related_bind (forwardChunk_twin T .main nonempty room _ _)
        intro _
        exact related_pure _ fun _ _ twin => twin
      · have width : (pending.take chunkSize).length = chunkSize := by
          rw [List.length_take]
          omega
        have rest : (pending.drop chunkSize).length = pending.length - chunkSize := List.length_drop
        have taken : pending.take chunkSize ≠ [] := List.length_pos_iff.mp (by omega)
        have left : pending.drop chunkSize ≠ [] := List.length_pos_iff.mp (by omega)
        have inside : offset + (pending.take chunkSize).length ≤ maxSeqLen := by omega
        rw [if_neg (by simpa using last)]
        apply related_bind (forwardChunk_twin T .main taken inside _ _)
        intro _
        rw [width]
        have total : offset + chunkSize + (pending.drop chunkSize).length = offset + pending.length := by omega
        have later := ih left (by omega) (by omega : offset + chunkSize + _ ≤ maxSeqLen)
        rw [total] at later
        refine related_conseq later (fun d e twin => ?_) (fun _ _ _ twin => twin) fun _ _ _ beside => beside
        exact twin.forget rfl rfl (fun _ _ => False.elim) fun _ => False.elim

/-- A prompt fed from the start: from then on the devices share all that is read. -/
theorem prefillPrompt_twin (visible : 0 < T.config.logitsBytes) {promptTokens : List Int}
    (nonempty : promptTokens ≠ []) (chunkSize : Nat) :
    Related (Beside maxSeqLen T.config.logitsBytes)
      (prefillPrompt T.backend (driver fault) promptTokens chunkSize)
      (prefillPrompt T.backend (driver fault) promptTokens chunkSize)
      (fun answer d e => Beside maxSeqLen T.config.logitsBytes d e ∧
        (0 ≤ answer → Level maxSeqLen T.config.logitsBytes promptTokens.length d e))
      fun _ => Beside maxSeqLen T.config.logitsBytes := by
  have chunked : 0 < (if chunkSize = 0 then 512 else chunkSize) := by split <;> omega
  unfold prefillPrompt
  rw [if_neg nonempty, Machine.backend_config]
  apply related_look
  intro d e beside
  rw [beside.left_size, beside.right_size]
  apply related_ite
  · exact fun _ => related_throw _ fun _ _ beside => beside
  intro long
  have room : promptTokens.length ≤ maxSeqLen := Nat.le_of_not_lt long
  rcases checkVision_none T.config promptTokens with ⟨_, passes⟩ | ⟨_, what, refused⟩
  · rw [passes, raise_bind]
    apply related_ite
    · intro _
      apply related_bind (clear_twin T)
      intro _
      apply related_bind (persistentBuffer_twin visible .main)
      intro _
      have fed : Related (Level maxSeqLen T.config.logitsBytes 0)
          (prefillChunks T.backend (driver fault) (if chunkSize = 0 then 512 else chunkSize) promptTokens.length
            promptTokens 0)
          (prefillChunks T.backend (driver fault) (if chunkSize = 0 then 512 else chunkSize) promptTokens.length
            promptTokens 0)
          (fun _ => Twin maxSeqLen T.config.logitsBytes
            (.row (0 + promptTokens.length) 0 (some (.persistent .main, 0))))
          fun _ => Beside maxSeqLen T.config.logitsBytes :=
        prefillChunks_twin T chunked promptTokens.length nonempty (Nat.le_refl _) (by omega)
      apply related_bind fed
      intro _
      rw [Nat.zero_add]
      apply related_bind (setSeqLen_twin (K := .row promptTokens.length 0 (some (.persistent .main, 0))) room)
      intro _
      refine related_conseq (argmax_twin (K := .row promptTokens.length promptTokens.length _) T rfl)
        (fun _ _ twin => twin) ?_ fun _ _ _ beside => beside
      intro _ d e twin
      exact ⟨twin.beside, fun _ => twin.forget rfl rfl (fun _ _ => False.elim) fun _ => False.elim⟩
    · exact fun _ => related_pure _ fun _ _ beside => ⟨beside, fun answered => absurd answered (by decide)⟩
  · rw [refused]
    exact fun d e beside => ⟨rfl, beside⟩

theorem advance_twin (word : maxSeqLen < 2 ^ 64) (room : K.cur + 1 ≤ maxSeqLen) :
    Related (Twin maxSeqLen rowBytes K) (advance 1 : DeviceM KV Rec Logits Bool) (advance 1)
      (fun moved d e => moved = true ∧ Twin maxSeqLen rowBytes { K with cur := K.cur + 1 } d e)
      fun _ => Beside maxSeqLen rowBytes := by
  intro d e twin
  have left := @KVCache.advance_of_le _ _ d.kv 1 (twin.beside.left_size ▸ word)
    (by rw [twin.beside.left_size, twin.left_length]; exact room)
  have right := @KVCache.advance_of_le _ _ e.kv 1 (twin.beside.right_size ▸ word)
    (by rw [twin.beside.right_size, twin.right_length]; exact room)
  simp only [advance, left, right, if_true]
  refine ⟨trivial, trivial, { twin.beside with }, ?_, ?_, twin.memory, twin.rows, twin.offsets⟩
  · exact congrArg (· + 1) twin.left_length
  · exact congrArg (· + 1) twin.right_length

/-- What a single step leaves of two devices at one level: the next level, or a step that
failed on both. -/
def Stepped (maxSeqLen rowBytes n : Nat) (answer : Int) (d e : Device KV Rec Logits) : Prop :=
  Beside maxSeqLen rowBytes d e ∧ (0 ≤ answer → n < maxSeqLen ∧ Level maxSeqLen rowBytes (n + 1) d e)

/-- The overflow that a full cache is reported with leaves the devices beside each other. -/
theorem overflow_twin (answer : Int) (failed : answer < 0) {n : Nat} :
    Related (Level maxSeqLen rowBytes n)
      (do modify (record .overflow); pure answer : DeviceM KV Rec Logits Int)
      (do modify (record .overflow); pure answer)
      (Stepped maxSeqLen rowBytes n) fun _ => Beside maxSeqLen rowBytes := by
  intro d e level
  exact ⟨rfl, { level.beside with }, fun answered => by omega⟩

theorem decodeStep_twin (word : maxSeqLen < 2 ^ 64) (visible : 0 < T.config.logitsBytes) (owner : Owner)
    (inputToken : Int) (n : Nat) :
    Related (Level maxSeqLen T.config.logitsBytes n)
      (decodeStep T.backend (driver fault) owner inputToken none)
      (decodeStep T.backend (driver fault) owner inputToken none)
      (Stepped maxSeqLen T.config.logitsBytes n) fun _ => Beside maxSeqLen T.config.logitsBytes := by
  unfold decodeStep
  apply related_look
  intro d e level
  rw [level.beside.left_size, level.beside.right_size, level.left_length, level.right_length]
  clear level d e
  apply related_ite
  · exact fun _ => overflow_twin (-1) (by decide)
  intro full
  have room : n < maxSeqLen := Nat.lt_of_not_le full
  apply related_ite
  · intro _
    apply related_bind (persistentBuffer_twin visible owner)
    intro _
    have fed : Related (Level maxSeqLen T.config.logitsBytes n)
        (forwardChunk T.backend (driver fault) owner [inputToken] n false (some (.persistent owner, 0)))
        (forwardChunk T.backend (driver fault) owner [inputToken] n false (some (.persistent owner, 0)))
        (fun _ => Twin maxSeqLen T.config.logitsBytes (.row (n + 1) n (some (.persistent owner, 0))))
        fun _ => Beside maxSeqLen T.config.logitsBytes :=
      forwardChunk_twin (K := { len := n, cur := n }) T owner (List.cons_ne_nil _ _) room false _
    apply related_bind fed
    intro _
    apply related_bind (advance_twin (K := .row (n + 1) n (some (.persistent owner, 0))) word room)
    intro moved
    cases moved with
    | false => exact fun d e impossible => absurd impossible.1 (by decide)
    | true =>
        refine related_conseq (argmax_twin (K := .row (n + 1) (n + 1) (some (.persistent owner, 0))) T rfl)
          (fun _ _ both => both.2) ?_ fun _ _ _ beside => beside
        intro _ d e twin
        refine ⟨twin.beside, fun _ => ⟨room, ?_⟩⟩
        exact twin.forget rfl rfl (fun _ _ => False.elim) fun _ => False.elim
  · exact fun _ => related_pure _ fun _ _ level =>
      ⟨level.beside, fun answered => absurd answered (by decide)⟩

/-- The captured pass leaves the counter to its caller. -/
theorem graphDecodeStep_twin (owner : Owner) (inputToken : Int) (n : Nat) :
    Related (Level maxSeqLen rowBytes n) (graphDecodeStep T.backend (driver fault) owner inputToken n)
      (graphDecodeStep T.backend (driver fault) owner inputToken n)
      (fun answer d e => Beside maxSeqLen rowBytes d e ∧ (0 ≤ answer → n < maxSeqLen ∧
        Twin maxSeqLen rowBytes { len := n + 1, cur := n } d e))
      fun _ => Beside maxSeqLen rowBytes := by
  unfold graphDecodeStep
  apply related_ite
  · intro _
    apply related_look
    intro d e level
    rw [level.beside.left_size, level.beside.right_size]
    clear level d e
    apply related_ite
    · intro _ d e level
      exact ⟨rfl, { level.beside with }, fun answered => absurd answered (by decide)⟩
    intro full
    apply related_bind submit_twin
    intro _
    have room : n + [inputToken].length ≤ maxSeqLen := by
      rw [List.length_singleton]
      omega
    apply related_bind (runLayers_twin (K := { len := n, cur := n }) T false [inputToken] room)
    rintro rows d e ⟨width, twin⟩
    have one : 0 < rows.length := by rw [width]; exact Nat.one_pos
    refine related_bind (writeLogits_twin (.graph owner) 0 one) (fun _ => ?_) d e twin
    refine related_conseq (argmax_twin (K := .row (n + 1) n (some (.graph owner, 0))) T rfl) (fun _ _ twin => twin) ?_ fun _ _ _ beside => beside
    intro _ d e twin
    refine ⟨twin.beside, fun _ => ⟨Nat.lt_of_not_le full, ?_⟩⟩
    exact twin.forget rfl rfl (fun _ _ => False.elim) fun _ => False.elim
  · exact fun _ => related_pure _ fun _ _ level =>
      ⟨level.beside, fun answered => absurd answered (by decide)⟩

theorem singleStep_twin (word : maxSeqLen < 2 ^ 64) (visible : 0 < T.config.logitsBytes) (owner : Owner)
    (captured : Bool) (inputToken : Int) (n : Nat) :
    Related (Level maxSeqLen T.config.logitsBytes n)
      (singleStep T.backend (driver fault) owner captured inputToken)
      (singleStep T.backend (driver fault) owner captured inputToken)
      (Stepped maxSeqLen T.config.logitsBytes n) fun _ => Beside maxSeqLen T.config.logitsBytes := by
  unfold singleStep
  cases captured with
  | false => exact decodeStep_twin T word visible owner inputToken n
  | true =>
      apply related_look
      intro d e level
      rw [level.left_length, level.right_length]
      clear level d e
      apply related_bind (graphDecodeStep_twin T owner inputToken n)
      intro next
      apply related_ite
      · exact fun failed => related_pure _ fun _ _ both => ⟨both.1, fun answered => by omega⟩
      intro reached d e both
      obtain ⟨room, twin⟩ := both.2 (by omega)
      refine related_bind (advance_twin (K := { len := n + 1, cur := n }) word room) (fun moved => ?_) d e twin
      cases moved with
      | false => exact fun d e impossible => absurd impossible.1 (by decide)
      | true => exact related_pure _ fun _ _ done => ⟨done.2.beside, fun _ => ⟨room, done.2⟩⟩

end Rules

end XInfer.TwinRules
