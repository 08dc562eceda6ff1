import XInfer.MetadataChecks

/-!
Metadata that the checks of `load_from_artifact` let through, against the configuration that they let it
through with: every check but those on the vision fields is acted on, and one conversion can throw.
-/

namespace XInfer.AcceptedMetadata

open Primitives NumberText FloatFormat MetadataChecks
open MetadataJson (ArtifactMetadata)

variable {reportsUnderflow : Rat → Bool} {what : Bytes → ParseFailure → Bytes} {metadata : ArtifactMetadata}

/-- The value of a property that is declared as a plain decimal integer. -/
def declaredInt (metadata : ArtifactMetadata) (key : Bytes) : Option Int := (declared metadata key).bind plainDecimal

def checkedInts (cfg : LoadConfig) : List (Bytes × Int) :=
  requiredInts cfg ++ [(intervalKey, cfg.fullAttentionInterval)] ++ linearInts cfg ++ visionInts cfg

def checkedFloats (cfg : LoadConfig) : List (Bytes × Rat) :=
  [(ascii "rms_norm_eps", cfg.rmsNormEps), (ascii "rope_theta", cfg.ropeTheta)]

/-- Every numeric property that is declared as an integer is the field of the configuration. -/
structure Agrees (metadata : ArtifactMetadata) (cfg : LoadConfig) : Prop where
  ints : ∀ prop ∈ checkedInts cfg, ∀ n, declaredInt metadata prop.1 = some n → n = prop.2
  floats : ∀ prop ∈ checkedFloats cfg, ∀ n, declaredInt metadata prop.1 = some n → (n : Rat) = prop.2

/-- No exception, and agreement where the checks let the metadata through. -/
def Upheld (reportsUnderflow : Rat → Bool) (what : Bytes → ParseFailure → Bytes) (metadata : ArtifactMetadata) : Prop :=
  (∀ failure, checkMetadata reportsUnderflow what metadata ≠ .error (.threw failure)) ∧
    ∀ cfg reported, checkMetadata reportsUnderflow what metadata = .ok (cfg, reported) → Agrees metadata cfg

/-- The text of the group size, where there is one, is an `int`. -/
def GroupReadable (quantScheme : Bytes) : Prop :=
  ∀ text, groupText quantScheme = some text → ∃ group, stoi text = .ok group

/-- What the checks that are acted on ask for. -/
structure Admitted (reportsUnderflow : Rat → Bool) (what : Bytes → ParseFailure → Bytes)
    (metadata : ArtifactMetadata) : Prop where
  group : ∀ text, groupText metadata.quantScheme = some text → stoi text = .ok 128
  interval : ∃ text parsed, declared metadata intervalKey = some text ∧ text ≠ [] ∧ stoll text = .ok parsed ∧ 0 < parsed
  required : ∀ prop ∈ requiredInts LoadConfig.defaults, validateIntProp what metadata prop = none
  epsilon : validateFloatProp reportsUnderflow what metadata (ascii "rms_norm_eps") LoadConfig.defaults.rmsNormEps
    (nearest binary32 (1 / 10 ^ 7)) = none
  theta : validateFloatProp reportsUnderflow what metadata (ascii "rope_theta") LoadConfig.defaults.ropeTheta 1 = none
  linear : ∀ prop ∈ linearInts LoadConfig.defaults, validateOptionalIntProp what metadata prop = none

section Answers

theorem refuseFirst_ok {answers : List (Option Bytes)} : refuseFirst answers = .ok () ↔ ∀ answer ∈ answers, answer = none := by
  unfold refuseFirst
  cases first : answers.findSome? id with
  | none => exact iff_of_true rfl (List.findSome?_eq_none_iff.1 first)
  | some message =>
      obtain ⟨answer, member, same⟩ := List.exists_of_findSome?_eq_some first
      refine iff_of_false (fun contra => nomatch contra) fun none' => ?_
      cases (none' answer member).symm.trans same

theorem checkGroup_threw (quantScheme : Bytes) (size : Nat) :
    (∃ failure, checkGroup quantScheme size = .error (.threw failure)) ↔ ¬ GroupReadable quantScheme := by
  unfold checkGroup GroupReadable
  cases groupText quantScheme with
  | none => simp
  | some text =>
      cases read : stoi text with
      | error failure => simp [read]
      | ok parsed =>
          simp only [Option.some.injEq, forall_eq', read]
          split <;> simp

theorem checkGroup_ok (quantScheme : Bytes) (size : Nat) : checkGroup quantScheme size = .ok () ↔
    ∀ text, groupText quantScheme = some text → stoi text = .ok (size : Int) := by
  unfold checkGroup
  cases groupText quantScheme with
  | none => simp
  | some text =>
      cases read : stoi text with
      | error failure => simp [read]
      | ok parsed => simp [read]

theorem compareInt_none {key text : Bytes} {expected : Int} :
    compareInt what key expected text = none ↔ stoll text = .ok expected := by
  unfold compareInt
  cases stoll text <;> simp

/-- An integer that a check passes is the one it expects. -/
theorem compareInt_plain {key text : Bytes} {expected n : Int} (passes : compareInt what key expected text = none)
    (plain : plainDecimal text = some n) : n = expected :=
  parseInteger_ok plain (compareInt_none.1 passes)

theorem plainDecimal_ne_nil {text : Bytes} {n : Int} (plain : plainDecimal text = some n) : text ≠ [] := by
  rintro rfl
  cases plain

theorem validateIntProp_plain {prop : Bytes × Int} {n : Int} (passes : validateIntProp what metadata prop = none)
    (plain : declaredInt metadata prop.1 = some n) : n = prop.2 := by
  obtain ⟨text, found, plain⟩ := Option.bind_eq_some_iff.1 plain
  simp only [validateIntProp, found, if_neg (plainDecimal_ne_nil plain)] at passes
  exact compareInt_plain passes plain

theorem validateOptionalIntProp_plain {prop : Bytes × Int} {n : Int}
    (passes : validateOptionalIntProp what metadata prop = none)
    (plain : declaredInt metadata prop.1 = some n) : n = prop.2 := by
  obtain ⟨text, found, plain⟩ := Option.bind_eq_some_iff.1 plain
  simp only [validateOptionalIntProp, found, if_neg (plainDecimal_ne_nil plain)] at passes
  exact compareInt_plain passes plain

theorem readInterval_ok {parsed : Int} : readInterval what metadata = .ok parsed ↔
    ∃ text, declared metadata intervalKey = some text ∧ text ≠ [] ∧ stoll text = .ok parsed ∧ 0 < parsed := by
  unfold readInterval
  cases declared metadata intervalKey with
  | none => simp
  | some text =>
      by_cases empty : text = []
      · simp [empty]
      · cases read : stoll text with
        | error failure => simp [empty, read]
        | ok value =>
            dsimp only
            rw [if_neg empty, read]
            dsimp only
            by_cases positive : value ≤ 0
            · rw [if_pos positive]
              refine iff_of_false (fun contra => nomatch contra) ?_
              rintro ⟨_, same, -, other, above⟩
              cases same
              cases read.symm.trans other
              omega
            · rw [if_neg positive]
              constructor
              · intro same
                cases same
                exact ⟨text, rfl, empty, read, by omega⟩
              · rintro ⟨_, same, -, other, -⟩
                cases same
                cases read.symm.trans other
                rfl

theorem readInterval_threw (failure : ParseFailure) : readInterval what metadata ≠ .error (.threw failure) := by
  unfold readInterval
  repeat' split
  all_goals simp

theorem refuseFirst_threw (answers : List (Option Bytes)) (failure : ParseFailure) :
    refuseFirst answers ≠ .error (.threw failure) := by
  unfold refuseFirst
  split <;> simp

end Answers

section Floats

/-- A text whose value rounds to a number at least `c` above the field, or below it, is refused. -/
theorem validateFloatProp_plain {key : Bytes} {expected tol : Rat} {n : Int}
    (passes : validateFloatProp reportsUnderflow what metadata key expected tol = none)
    (plain : declaredInt metadata key = some n) : |nearest binary32 (nearest binary32 n - expected)| ≤ tol := by
  obtain ⟨text, found, plain⟩ := Option.bind_eq_some_iff.1 plain
  simp only [validateFloatProp, found, if_neg (plainDecimal_ne_nil plain), stof_plain reportsUnderflow plain, strtof]
    at passes
  split at passes
  · cases passes
  · rename_i actual finite
    have value : actual = .finite (nearest binary32 n) := by
      split_ifs at finite
      exact (Except.ok.inj finite).symm
    subst value
    by_contra far
    simp [exceeds, lt_of_not_ge far] at passes

theorem nearest_diff_ge {n : Int} {expected c : Rat} (number : nearest binary32 c = c)
    (above : c ≤ nearest binary32 n - expected) : c ≤ |nearest binary32 (nearest binary32 n - expected)| := by
  have rounded := nearest_mono binary32 above
  rw [number] at rounded
  exact rounded.trans (le_abs_self _)

theorem nearest_diff_le {n : Int} {expected c : Rat} (number : nearest binary32 c = c)
    (below : nearest binary32 n - expected ≤ -c) : c ≤ |nearest binary32 (nearest binary32 n - expected)| := by
  have rounded := nearest_mono binary32 below
  rw [nearest_neg, number] at rounded
  exact (le_neg.1 rounded).trans (neg_le_abs _)

/-- Rounding does not leave the bounds that are numbers of the format. -/
theorem nearest_le_int {n bound : Int} (number : nearest binary32 bound = bound) (le : n ≤ bound) :
    nearest binary32 n ≤ bound := by
  have rounded := nearest_mono binary32 (show (n : Rat) ≤ bound from by exact_mod_cast le)
  rwa [number] at rounded

theorem int_le_nearest {n bound : Int} (number : nearest binary32 bound = bound) (le : bound ≤ n) :
    (bound : Rat) ≤ nearest binary32 n := by
  have rounded := nearest_mono binary32 (show (bound : Rat) ≤ n from by exact_mod_cast le)
  rwa [number] at rounded

/-- The tolerance of `rope_theta` is one. -/
theorem theta_near {n : Int} (near : |nearest binary32 (nearest binary32 n - 10000000)| ≤ 1) :
    n = 9999999 ∨ n = 10000000 ∨ n = 10000001 := by
  have two : nearest binary32 2 = 2 := nearest_int binary32 2 (by decide)
  have bounds : 9999998 < n ∧ n < 10000002 := by
    constructor
    · by_contra low
      have small : nearest binary32 n ≤ 9999998 :=
        nearest_le_int (nearest_int binary32 9999998 (by decide)) (not_lt.1 low)
      have far := nearest_diff_le two (show nearest binary32 n - 10000000 ≤ -2 by linarith)
      linarith
    · by_contra high
      have large : 10000002 ≤ nearest binary32 n :=
        int_le_nearest (nearest_int binary32 10000002 (by decide)) (not_lt.1 high)
      have far := nearest_diff_ge two (show 2 ≤ nearest binary32 n - 10000000 by linarith)
      linarith
  omega

/-- No integer is as close to `rms_norm_eps` as its tolerance asks. -/
theorem epsilon_far (n : Int) : ¬ |nearest binary32 (nearest binary32 n - LoadConfig.defaults.rmsNormEps)| ≤
    nearest binary32 (1 / 10 ^ 7) := by
  have facts : nearest binary32 LoadConfig.defaults.rmsNormEps = LoadConfig.defaults.rmsNormEps ∧
      nearest binary32 (1 / 10 ^ 7) < LoadConfig.defaults.rmsNormEps ∧
      LoadConfig.defaults.rmsNormEps < 1 / 2 := by decide +kernel
  obtain ⟨number, tolerance, small⟩ := facts
  intro near
  -- below one the rounded number is at most zero, and from one on it is at least one
  rcases lt_or_ge n 1 with low | high
  · have nonpos := nearest_le_int (nearest_int binary32 0 (by decide)) (Int.lt_add_one_iff.1 low)
    rw [Int.cast_zero] at nonpos
    have far := nearest_diff_le number (show nearest binary32 n - LoadConfig.defaults.rmsNormEps ≤ -LoadConfig.defaults.rmsNormEps by linarith)
    linarith
  · have large := int_le_nearest (nearest_int binary32 1 (by decide)) high
    rw [Int.cast_one] at large
    have far := nearest_diff_ge number (show LoadConfig.defaults.rmsNormEps ≤ nearest binary32 n - LoadConfig.defaults.rmsNormEps by linarith)
    linarith

end Floats

section Acceptance

theorem validateInterval {parsed : Int} (read : readInterval what metadata = .ok parsed) :
    validateIntProp what metadata (intervalKey, parsed) = none := by
  obtain ⟨text, found, filled, value, -⟩ := readInterval_ok.1 read
  simp only [validateIntProp, found, if_neg filled]
  exact compareInt_none.2 value

/-- What the checks hand on. -/
theorem checkMetadata_ok {cfg : LoadConfig} {reported : Option Bytes}
    (passes : checkMetadata reportsUnderflow what metadata = .ok (cfg, reported)) :
    Admitted reportsUnderflow what metadata ∧ readInterval what metadata = .ok cfg.fullAttentionInterval ∧
      requiredInts cfg = requiredInts LoadConfig.defaults ∧ linearInts cfg = linearInts LoadConfig.defaults ∧
      visionInts cfg = visionInts LoadConfig.defaults ∧ checkedFloats cfg = checkedFloats LoadConfig.defaults ∧
      cfg.quantScheme = metadata.quantScheme ∧ cfg.isInt8KV = declaresInt8KV metadata := by
  obtain ⟨_, group, passes⟩ := except_bind_ok passes
  obtain ⟨parsed, interval, passes⟩ := except_bind_ok passes
  obtain ⟨_, required, passes⟩ := except_bind_ok passes
  obtain ⟨_, linear, passes⟩ := except_bind_ok passes
  cases passes
  have answers := refuseFirst_ok.1 required
  refine ⟨⟨(checkGroup_ok _ _).1 group, ?_, ?_, ?_, ?_, ?_⟩, interval, rfl, rfl, rfl, rfl, rfl, rfl⟩
  · obtain ⟨text, facts⟩ := readInterval_ok.1 interval
    exact ⟨text, parsed, facts⟩
  · intro prop member
    exact answers _ (List.mem_append_left _ (List.mem_map_of_mem member))
  · exact answers _ (List.mem_append_right _ List.mem_cons_self)
  · exact answers _ (List.mem_append_right _ (List.mem_cons_of_mem _ List.mem_cons_self))
  · intro prop member
    exact refuseFirst_ok.1 linear _ (List.mem_map_of_mem member)

theorem requiredAnswers_pass (admitted : Admitted reportsUnderflow what metadata) {cfg : LoadConfig}
    (ints : requiredInts cfg = requiredInts LoadConfig.defaults)
    (floats : checkedFloats cfg = checkedFloats LoadConfig.defaults)
    (interval : readInterval what metadata = .ok cfg.fullAttentionInterval) :
    refuseFirst (requiredAnswers reportsUnderflow what metadata cfg) = .ok () := by
  have epsilon : cfg.rmsNormEps = LoadConfig.defaults.rmsNormEps := by injection floats with head; exact (Prod.mk.inj head).2
  have theta : cfg.ropeTheta = LoadConfig.defaults.ropeTheta := by
    injection floats with _ rest
    injection rest with head
    exact (Prod.mk.inj head).2
  rw [refuseFirst_ok, requiredAnswers, ints, epsilon, theta, List.forall_mem_append]
  constructor
  · exact List.forall_mem_map.2 admitted.required
  · intro answer member
    simp only [List.mem_cons, List.not_mem_nil, or_false] at member
    rcases member with rfl | rfl | rfl
    · exact admitted.epsilon
    · exact admitted.theta
    · exact validateInterval interval

theorem admitted_passes (admitted : Admitted reportsUnderflow what metadata) :
    ∃ cfg reported, checkMetadata reportsUnderflow what metadata = .ok (cfg, reported) := by
  obtain ⟨text, parsed, facts⟩ := admitted.interval
  have interval : readInterval what metadata = .ok parsed := readInterval_ok.2 ⟨text, facts⟩
  have group : checkGroup metadata.quantScheme 128 = .ok () := (checkGroup_ok _ _).2 admitted.group
  have linear : refuseFirst ((linearInts LoadConfig.defaults).map (validateOptionalIntProp what metadata)) = .ok () :=
    refuseFirst_ok.2 (List.forall_mem_map.2 admitted.linear)
  unfold checkMetadata
  dsimp only
  rw [show LoadConfig.defaults.groupSize = 128 from rfl, group, except_ok_bind, interval, except_ok_bind,
    requiredAnswers_pass admitted, except_ok_bind]
  · exact ⟨_, _, congrArg (fun stage => stage >>= _) linear⟩
  · rfl
  · rfl
  · exact interval

theorem checkMetadata_threw : (∃ failure, checkMetadata reportsUnderflow what metadata = .error (.threw failure)) ↔
    ¬ GroupReadable metadata.quantScheme := by
  rw [← checkGroup_threw metadata.quantScheme LoadConfig.defaults.groupSize]
  constructor
  · rintro ⟨failure, thrown⟩
    -- only the group size throws; the other stages refuse, or pass
    obtain group | ⟨_, -, thrown⟩ := except_bind_error thrown
    · exact ⟨failure, group⟩
    obtain interval | ⟨_, -, thrown⟩ := except_bind_error thrown
    · exact absurd interval (readInterval_threw failure)
    obtain required | ⟨_, -, thrown⟩ := except_bind_error thrown
    · exact absurd required (refuseFirst_threw _ failure)
    obtain linear | ⟨_, -, passed⟩ := except_bind_error thrown
    · exact absurd linear (refuseFirst_threw _ failure)
    · cases passed
  · rintro ⟨failure, thrown⟩
    refine ⟨failure, ?_⟩
    unfold checkMetadata
    dsimp only
    rw [thrown]
    rfl

end Acceptance

section Agreement

/-- What nothing refuses: a vision field that differs, and a `rope_theta` within its tolerance. -/
structure UnrefusedAgree (metadata : ArtifactMetadata) : Prop where
  vision : ∀ prop ∈ visionInts LoadConfig.defaults, ∀ n, declaredInt metadata prop.1 = some n → n = prop.2
  thetaBelow : declaredInt metadata (ascii "rope_theta") ≠ some 9999999
  thetaAbove : declaredInt metadata (ascii "rope_theta") ≠ some 10000001

theorem theta_agrees (admitted : Admitted reportsUnderflow what metadata) (unrefused : UnrefusedAgree metadata)
    {n : Int} (plain : declaredInt metadata (ascii "rope_theta") = some n) : (n : Rat) = 10000000 := by
  rcases theta_near (validateFloatProp_plain admitted.theta plain) with rfl | rfl | rfl
  · exact absurd plain unrefused.thetaBelow
  · norm_num
  · exact absurd plain unrefused.thetaAbove

/-- The fields that loading goes on with agree as soon as the ones that nothing refuses do. -/
theorem agrees_of_unrefused {cfg : LoadConfig} {reported : Option Bytes}
    (passes : checkMetadata reportsUnderflow what metadata = .ok (cfg, reported))
    (unrefused : UnrefusedAgree metadata) : Agrees metadata cfg := by
  obtain ⟨admitted, interval, required, linear, vision, floats, -, -⟩ := checkMetadata_ok passes
  constructor
  · intro prop member n plain
    simp only [checkedInts, required, linear, vision, List.mem_append, List.mem_singleton] at member
    rcases member with ((member | rfl) | member) | member
    · exact validateIntProp_plain (admitted.required prop member) plain
    · exact validateIntProp_plain (validateInterval interval) plain
    · exact validateOptionalIntProp_plain (admitted.linear prop member) plain
    · exact unrefused.vision prop member n plain
  · intro prop member n plain
    rw [floats] at member
    simp only [checkedFloats, List.mem_cons, List.not_mem_nil, or_false] at member
    rcases member with rfl | rfl
    · exact absurd (validateFloatProp_plain admitted.epsilon plain) (epsilon_far n)
    · exact theta_agrees admitted unrefused plain

theorem unrefused_of_agrees {cfg : LoadConfig} {reported : Option Bytes}
    (passes : checkMetadata reportsUnderflow what metadata = .ok (cfg, reported))
    (agrees : Agrees metadata cfg) : UnrefusedAgree metadata := by
  obtain ⟨-, -, -, -, vision, floats, -, -⟩ := checkMetadata_ok passes
  have theta : (ascii "rope_theta", LoadConfig.defaults.ropeTheta) ∈ checkedFloats cfg := by
    rw [floats]
    exact List.mem_cons_of_mem _ List.mem_cons_self
  constructor
  · intro prop member
    exact agrees.ints prop (List.mem_append_right _ (vision ▸ member))
  · intro below
    have same : ((9999999 : Int) : Rat) = 10000000 := agrees.floats _ theta _ below
    norm_num at same
  · intro above
    have same : ((10000001 : Int) : Rat) = 10000000 := agrees.floats _ theta _ above
    norm_num at same

/-- Accepted metadata agrees with the configuration exactly as far as nothing slips past the checks. -/
theorem accepted_agrees_iff (reportsUnderflow : Rat → Bool) (what : Bytes → ParseFailure → Bytes)
    (metadata : ArtifactMetadata) :
    Upheld reportsUnderflow what metadata ↔
      GroupReadable metadata.quantScheme ∧ (Admitted reportsUnderflow what metadata → UnrefusedAgree metadata) := by
  apply and_congr
  · rw [← not_exists, checkMetadata_threw, not_not]
  · constructor
    · intro agrees admitted
      obtain ⟨cfg, reported, passes⟩ := admitted_passes admitted
      exact unrefused_of_agrees passes (agrees cfg reported passes)
    · intro unrefused cfg reported passes
      exact agrees_of_unrefused passes (unrefused (checkMetadata_ok passes).1)

/-- A group size that is no number ends loading with an exception. -/
theorem letters_throw :
    ¬ Upheld (fun _ => true) (fun function _ => function) ⟨[], ascii "INT4-GX-SYM", [], .empty⟩ := by
  intro upheld
  have thrown : checkGroup (ascii "INT4-GX-SYM") 128 = .error (.threw .invalidArgument) := by decide +kernel
  refine upheld.1 .invalidArgument ?_
  unfold checkMetadata
  dsimp only
  rw [show LoadConfig.defaults.groupSize = 128 from rfl, thrown]
  rfl

end Agreement

end XInfer.AcceptedMetadata
