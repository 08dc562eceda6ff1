import XInfer.DecodePass

/-!
What the submissions of a pass over one token leave. With the position on the device they leave the same memory as
with the position from the host, and of the memory before they keep nothing but the token, the position and the
storage of the cache: every element of a buffer is written before it is read.
-/

namespace XInfer.PassRules

open AttentionKernels DynamicKernels DecodePass Launches

variable {F Weight : Type}

section Covered

/-- Kernels that write all elements make the same of any buffer. -/
theorem overwrite_covered [DeviceExp F] {size : Nat} {kernel : (Nat → F) → Nat → F}
    (covers : ∀ out out' : Nat → F, ∀ i < size, kernel out i = kernel out' i) (buffer buffer' : List F) :
    overwrite size kernel buffer = overwrite size kernel buffer' :=
  List.map_congr_left fun i member => covers _ _ i (List.mem_range.1 member)

/-- Items with a vector each write all of a buffer. -/
theorem vectors_cover {items width : Nat} {body : Nat → List (Nat × F)}
    (addresses : ∀ item < items, (body item).map Prod.fst = (List.range width).map fun d => item * width + d)
    (out out' : Nat → F) {i : Nat} (inside : i < items * width) : launch items body out i = launch items body out' i := by
  have before : i / width < items := Nat.div_lt_of_lt_mul (Nat.mul_comm items width ▸ inside)
  have filled : 0 < width := Nat.pos_of_mul_pos_left (Nat.zero_lt_of_lt inside)
  apply launch_covered before
  have address : i ∈ (body (i / width)).map Prod.fst := by
    rw [addresses _ before]
    exact List.mem_map.2 ⟨i % width, List.mem_range.2 (Nat.mod_lt _ filled), Nat.div_add_mod' i width⟩
  exact List.mem_map.1 address

variable [DeviceExp F]

/-- A memory without content. -/
def blank : DeviceMemory F where
  tokenIds _ := 0
  positions _ := 0
  bufs := ⟨[], [], [], [], [], [], [], [], [], [], [], [], [], [], []⟩
  logits := []
  storage := ⟨fun _ => ⟨fun _ => 0, fun _ => 0⟩,
    fun _ => ⟨fun _ => 0, fun _ => 0, fun _ => 0, fun _ => 0, fun _ => 0, fun _ => 0⟩, fun _ => [], fun _ => []⟩

variable (T : Target F Weight) (maxSeqLen : Nat)

/-- The row of a token. -/
def embedded (token : Int) : List F := (embedTokensLookup T 1 { blank with tokenIds := fun _ => token }).bufs.actX

theorem embedTokensLookup_eq (m : DeviceMemory F) :
    embedTokensLookup T 1 m = { m with bufs := { m.bufs with actX := embedded T (m.tokenIds 0) } } := by
  have rows : ∀ item < 1 * T.config.hiddenSize, m.tokenIds (item / T.config.hiddenSize) = m.tokenIds 0 := by
    intro item inside
    rw [Nat.div_eq_of_lt (by omega)]
  unfold embedded embedTokensLookup
  dsimp only
  rw [launch_congr fun item inside => by rw [rows item inside]]
  congr 2
  apply overwrite_covered
  intro out out' i inside
  apply launch_covered inside
  split
  · exact ⟨_, List.mem_singleton_self _, Nat.div_add_mod' i _⟩
  · exact ⟨_, List.mem_singleton_self _, Nat.div_add_mod' i _⟩

def queryOf (qGate : List F) : List F :=
  (extractQuery T 1 { blank with bufs := { blank.bufs with actQGate := qGate } }).bufs.actQ

theorem extractQuery_eq (m : DeviceMemory F) :
    extractQuery T 1 m = { m with bufs := { m.bufs with actQ := queryOf T m.bufs.actQGate } } := by
  unfold queryOf extractQuery
  dsimp only
  congr 2
  apply overwrite_covered
  intro out out' i inside
  refine vectors_cover (fun item _ => ?_) out out' (by rwa [Nat.mul_assoc])
  rw [List.map_map, Nat.div_add_mod']
  rfl

/-- The answers to the queries of a token. -/
def attendedOf (fullIdx startPos : Nat) (q : List F) (storage : Storage F) : List F :=
  (sdpaCausal T maxSeqLen fullIdx 1 startPos false
    { blank with bufs := { blank.bufs with actQ := q }, storage := storage }).bufs.actAttnOut

/-- What the loader makes sure of: whole lanes, and heads to share. -/
structure Shaped (config : ModelConfig) : Prop where
  lanes : SG_SIZE ∣ config.headDim
  heads : 0 < config.numKeyValueHeads

theorem launchSubgroups_covers (shaped : Shaped T.config) (cast : F → F) (Q : Nat → F) (key value : Nat → Nat → F)
    (startPos : Nat) (scale : F) (out out' : Nat → F) {i : Nat} (inside : i < 1 * T.config.fullOutDim) :
    let answered := fun out => launchSubgroups cast out Q key value startPos 1 T.config.numAttentionHeads
      T.config.numKeyValueHeads T.config.headDim scale maxSeqLen
    answered out i = answered out' i := by
  intro answered
  rw [Nat.one_mul, ModelConfig.fullOutDim] at inside
  -- an element of the output is one of a head's vector, so there are heads and elements
  have heads := shaped.heads
  have some' : ¬ (1 = 0 ∨ T.config.numAttentionHeads = 0 ∨ T.config.numKeyValueHeads = 0 ∨ T.config.headDim = 0) := by
    have filled : 0 < T.config.numAttentionHeads * T.config.headDim := Nat.zero_lt_of_lt inside
    have queries := Nat.pos_of_mul_pos_right filled
    have elements := Nat.pos_of_mul_pos_left filled
    omega
  dsimp only [answered]
  rw [launchSubgroups_active _ _ _ _ _ _ some', launchSubgroups_active _ _ _ _ _ _ some']
  exact vectors_cover (fun item active => attendSubgroup_addresses _ _ _ _ _ _ shaped.lanes active (Int.natCast_nonneg _))
    out out' (by rwa [Nat.one_mul])

theorem sdpaCausal_eq (shaped : Shaped T.config) (fullIdx startPos : Nat) (m : DeviceMemory F) :
    sdpaCausal T maxSeqLen fullIdx 1 startPos false m =
      { m with bufs := { m.bufs with actAttnOut := attendedOf T maxSeqLen fullIdx startPos m.bufs.actQ m.storage } } := by
  unfold attendedOf sdpaCausal
  dsimp only
  congr 2
  apply overwrite_covered
  intro out out' i inside
  split
  · exact launchSubgroups_covers T maxSeqLen shaped _ _ _ _ startPos _ out out' inside
  · exact launchSubgroups_covers T maxSeqLen shaped _ _ _ _ startPos _ out out' inside

end Covered

section Dynamic

variable [DeviceExp F] (T : Target F Weight) {startPos maxSeqLen : Nat} (inside : startPos < maxSeqLen)
  {m : DeviceMemory F} (uploaded : m.positions 0 = startPos)

include inside uploaded

theorem writeKvCache_dynamic (fullIdx seqLen : Nat) (ignored : Int) : writeKvCache T maxSeqLen fullIdx seqLen ignored true m =
    writeKvCache T maxSeqLen fullIdx seqLen startPos false m := by
  unfold writeKvCache
  simp only [write_dynamic _ _ _ inside uploaded, write_int8_dynamic _ _ _ inside uploaded, if_true, Bool.false_eq_true,
    if_false]

omit inside in
theorem sdpaCausal_dynamic (fullIdx seqLen : Nat) (ignored : Int) : sdpaCausal T maxSeqLen fullIdx seqLen ignored true m =
    sdpaCausal T maxSeqLen fullIdx seqLen startPos false m := by
  unfold sdpaCausal
  simp only [sdpaCausalCachedDynamic, sdpaCausalCachedInt8Dynamic, uploaded, if_true, Bool.false_eq_true, if_false]
  rfl

end Dynamic

section Runs

theorem run_append (front back : List (Submission F)) (m : DeviceMemory F) : run (front ++ back) m = run back (run front m) :=
  List.foldl_append

theorem run_cons (submission : Submission F) (rest : List (Submission F)) (m : DeviceMemory F) :
    run (submission :: rest) m = run rest (submission m) := rfl

/-- Submissions that do the same where the device has the position, and leave it there. -/
def Same (position : Int) (recorded eager : Submission F) : Prop :=
  ∀ m : DeviceMemory F, m.positions 0 = position → recorded m = eager m ∧ (eager m).positions 0 = position

theorem Same.kept {position : Int} {submission : Submission F} (kept : ∀ m, (submission m).positions = m.positions) :
    Same position submission submission := fun m uploaded => ⟨rfl, kept m ▸ uploaded⟩

/-- One submission after the other. -/
theorem run_same {position : Int} {recorded eager : List (Submission F)}
    (same : List.Forall₂ (Same position) recorded eager) (m : DeviceMemory F) (uploaded : m.positions 0 = position) :
    run recorded m = run eager m ∧ (run eager m).positions 0 = position := by
  induction same generalizing m with
  | nil => exact ⟨rfl, uploaded⟩
  | cons head _ ih =>
      obtain ⟨step, after⟩ := head m uploaded
      rw [run_cons, run_cons, step]
      exact ih _ after

variable [DeviceExp F] (T : Target F Weight) {startPos maxSeqLen : Nat} (inside : startPos < maxSeqLen)

include inside

theorem writeKvCache_same (fullIdx seqLen : Nat) : Same startPos (writeKvCache T maxSeqLen fullIdx seqLen 0 true)
    (writeKvCache T maxSeqLen fullIdx seqLen startPos false) := by
  intro m uploaded
  refine ⟨writeKvCache_dynamic T inside uploaded fullIdx seqLen 0, ?_⟩
  unfold writeKvCache
  split
  · exact uploaded
  · exact uploaded

theorem attention_same (weights : AttentionWeights Weight) (fullIdx linearIdx seqLen : Nat) (zeroLinearState : Bool) :
    List.Forall₂ (Same startPos)
      (attentionSubmissions T maxSeqLen weights fullIdx linearIdx seqLen 0 true zeroLinearState)
      (attentionSubmissions T maxSeqLen weights fullIdx linearIdx seqLen startPos false zeroLinearState) := by
  cases weights with
  | full qProj kProj vProj qNorm kNorm oProj =>
      refine .cons (.kept fun _ => rfl) (.cons (.kept fun _ => rfl) (.cons (.kept fun _ => rfl) (.cons (.kept fun _ => rfl)
        (.cons (.kept fun _ => rfl) (.cons ?_ (.cons ?_ (.cons (.kept fun _ => rfl) (.cons (.kept fun _ => rfl) .nil))))))))
      · exact writeKvCache_same T inside fullIdx seqLen
      · exact fun m uploaded => ⟨sdpaCausal_dynamic T uploaded fullIdx seqLen 0, uploaded⟩
  | linear =>
      exact .cons (.kept fun _ => rfl) (.cons (.kept fun _ => rfl) (.cons (.kept fun _ => rfl) (.cons (.kept fun _ => rfl) .nil)))

theorem forwardLayer_same (weights : LayerWeights Weight) (fullIdx linearIdx seqLen : Nat) (zeroLinearState : Bool) :
    List.Forall₂ (Same startPos) (forwardLayer T maxSeqLen weights fullIdx linearIdx seqLen 0 true zeroLinearState)
      (forwardLayer T maxSeqLen weights fullIdx linearIdx seqLen startPos false zeroLinearState) := by
  refine List.rel_append (List.rel_append ?_ (attention_same T inside _ _ _ _ _)) ?_
  · exact .cons (.kept fun _ => rfl) .nil
  · exact .cons (.kept fun _ => rfl) (.cons (.kept fun _ => rfl) (.cons (.kept fun _ => rfl) (.cons (.kept fun _ => rfl)
      (.cons (.kept fun _ => rfl) .nil))))

theorem forwardLayers_same (seqLen : Nat) (zeroLinearState : Bool) (layers : List (LayerWeights Weight))
    (fullIdx linearIdx : Nat) : List.Forall₂ (Same startPos)
      (forwardLayers T maxSeqLen seqLen 0 true zeroLinearState layers fullIdx linearIdx)
      (forwardLayers T maxSeqLen seqLen startPos false zeroLinearState layers fullIdx linearIdx) := by
  induction layers generalizing fullIdx linearIdx with
  | nil => exact .nil
  | cons weights rest ih => exact List.rel_append (forwardLayer_same T inside weights _ _ _ _) (ih _ _)

/-- The pass that is recorded, where the position is on the device. -/
theorem pass_same (seqLen : Nat) (zeroLinearState : Bool) : List.Forall₂ (Same startPos)
    (passSubmissions T maxSeqLen seqLen 0 true zeroLinearState)
    (passSubmissions T maxSeqLen seqLen startPos false zeroLinearState) := by
  refine List.rel_append (List.rel_append ?_ (forwardLayers_same T inside seqLen zeroLinearState T.layers 0 0)) ?_
  · exact .cons (.kept fun _ => rfl) .nil
  · exact .cons (.kept fun _ => rfl) .nil

end Runs

section Live

variable [DeviceExp F] (T : Target F Weight) {maxSeqLen : Nat}

/-- What a pass over one token looks at: its position, the row and the storage. -/
def live (m : DeviceMemory F) : DeviceMemory F :=
  { blank with
    positions := fun _ => m.positions 0
    bufs := { blank.bufs with actX := m.bufs.actX }
    storage := m.storage }

theorem forwardLayer_live (shaped : Shaped T.config) (weights : LayerWeights Weight) (fullIdx linearIdx startPos : Nat)
    (zeroLinearState : Bool) (m : DeviceMemory F) :
    live (run (forwardLayer T maxSeqLen weights fullIdx linearIdx 1 startPos false zeroLinearState) m) =
      live (run (forwardLayer T maxSeqLen weights fullIdx linearIdx 1 startPos false zeroLinearState) (live m)) := by
  unfold forwardLayer
  rw [run_append, run_append, run_append, run_append]
  cases weights.attention with
  | full qProj kProj vProj qNorm kNorm oProj =>
      -- the buffers of queries and answers are functions of what comes before, and the rest follows by computation
      simp only [attentionSubmissions, run_cons, extractQuery_eq, sdpaCausal_eq T maxSeqLen shaped]
      unfold writeKvCache
      split <;> rfl
  | linear => rfl

theorem forwardLayers_live (shaped : Shaped T.config) (startPos : Nat) (zeroLinearState : Bool)
    (layers : List (LayerWeights Weight)) (fullIdx linearIdx : Nat) (m : DeviceMemory F) :
    let pass := forwardLayers T maxSeqLen 1 startPos false zeroLinearState layers fullIdx linearIdx
    live (run pass m) = live (run pass (live m)) := by
  induction layers generalizing fullIdx linearIdx m with
  | nil => rfl
  | cons weights rest ih =>
      simp only [forwardLayers]
      rw [run_append, run_append, ih, forwardLayer_live T shaped, ← ih]

/-- The logits and the storage come from the token, the position and the storage alone. -/
theorem pass_fresh (shaped : Shaped T.config) (startPos : Nat) (zeroLinearState : Bool) {m m' : DeviceMemory F}
    (token : m.tokenIds 0 = m'.tokenIds 0) (position : m.positions 0 = m'.positions 0) (storage : m.storage = m'.storage) :
    let after := run (passSubmissions T maxSeqLen 1 startPos false zeroLinearState)
    (after m).logits = (after m').logits ∧ (after m).storage = (after m').storage := by
  intro after
  have entered : live (embedTokensLookup T 1 m) = live (embedTokensLookup T 1 m') := by
    rw [embedTokensLookup_eq, embedTokensLookup_eq, token]
    simp only [live, position, storage]
  have rows : live (run (forwardLayers T maxSeqLen 1 startPos false zeroLinearState T.layers 0 0) (embedTokensLookup T 1 m)) =
      live (run (forwardLayers T maxSeqLen 1 startPos false zeroLinearState T.layers 0 0) (embedTokensLookup T 1 m')) := by
    rw [forwardLayers_live T shaped, entered, ← forwardLayers_live T shaped]
  -- the head looks at the row only
  have head : ∀ m, (forwardLmHead T 1 m).logits = (forwardLmHead T 1 (live m)).logits ∧
      (forwardLmHead T 1 m).storage = (live m).storage := fun _ => ⟨rfl, rfl⟩
  dsimp only [after, passSubmissions]
  rw [run_append, run_append, run_append, run_append]
  constructor
  · exact (head _).1.trans ((congrArg (fun m => (forwardLmHead T 1 m).logits) rows).trans (head _).1.symm)
  · exact (head _).2.trans ((congrArg DeviceMemory.storage rows).trans (head _).2.symm)

end Live

end XInfer.PassRules
