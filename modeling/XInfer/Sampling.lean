import XInfer.Primitives

/-!
`speculative_accept_reject` of `ops/sampling.cpp`. The acceptance test of one
draft is a parameter: the greedy test compares with the target's argmax, and the
stochastic one, which `generate` never selects, needs real arithmetic. The
accounting that the function asserts on its result is part of the model.
-/

namespace XInfer.Sampling

open Primitives

structure SpeculativeAcceptanceResult where
  acceptedTokens : List Int := []
  numAccepted : Nat := 0
  numRejected : Nat := 0
  numResampled : Nat := 0
  numRemaining : Nat := 0
  hasRejectedToken : Bool := false
  rejectedToken : Int := -1
  bonusOrResampledToken : Int := -1
  deriving DecidableEq

/-- The loop over the drafts: `targets` are the argmaxes of the rows of the
verification pass, in order, and `total` is the number of drafts. -/
def acceptLoop (accepts : Int → Int → Bool) (total : Nat) :
    List (Int × Int) → SpeculativeAcceptanceResult → SpeculativeAcceptanceResult
  | [], result => result
  | (draft, target) :: rest, result =>
      if accepts draft target then
        acceptLoop accepts total rest { result with
          acceptedTokens := result.acceptedTokens ++ [draft]
          numAccepted := result.numAccepted + 1 }
      else { result with
          hasRejectedToken := true
          rejectedToken := draft
          numRejected := 1
          bonusOrResampledToken := target
          numResampled := 1
          numRemaining := total - (result.numAccepted + 1) }

/-- `targets` holds one argmax for each draft; the bonus is the last of them. -/
def speculativeAcceptReject (accepts : Int → Int → Bool) (drafts targets : List Int) :
    Except Exn SpeculativeAcceptanceResult :=
  if drafts = [] then .ok {}
  else
    let result := acceptLoop accepts drafts.length (drafts.zip targets) {}
    if result.hasRejectedToken then
      let accounted := result.numAccepted + result.numRejected + result.numRemaining
      if accounted = drafts.length then .ok result
      else .error (.standard (ascii "Speculative decoding fail-loud contract violated: accepted (" ++
        decimal result.numAccepted ++ ascii ") + 1 (rejected) + remaining (" ++
        decimal result.numRemaining ++ ascii ") = " ++ decimal accounted ++ ascii " != N (" ++
        decimal drafts.length ++ ascii ")"))
    else if result.numAccepted = drafts.length then
      .ok { result with bonusOrResampledToken := targets.getLastD 0 }
    else .error (.standard (ascii
      "Speculative decoding fail-loud contract violated: all accepted but num_accepted (" ++
        decimal result.numAccepted ++ ascii ") != N (" ++ decimal drafts.length ++ ascii ")"))

/-- Greedy argmax acceptance. -/
def greedy (draft target : Int) : Bool := decide (draft = target)

/-- Drafts that have been accepted so far. -/
structure Accepted (accepts : Int → Int → Bool) (drafts targets : List Int) (count : Nat)
    (result : SpeculativeAcceptanceResult) : Prop where
  tokens : result.acceptedTokens = drafts.take count
  num : result.numAccepted = count
  within : count ≤ drafts.length
  agreed : ∀ i < count, accepts (drafts.getD i 0) (targets.getD i 0) = true

/-- What a round yields: a prefix of the drafts, and one more token. Either every
draft is accepted, or the prefix stops before the first one refused. -/
structure Outcome (accepts : Int → Int → Bool) (drafts targets : List Int)
    (result : SpeculativeAcceptanceResult) : Prop where
  accepted : Accepted accepts drafts targets result.numAccepted result
  rejected : result.hasRejectedToken = true → result.numAccepted < drafts.length ∧
    accepts (drafts.getD result.numAccepted 0) (targets.getD result.numAccepted 0) = false ∧
    result.bonusOrResampledToken = targets.getD result.numAccepted 0
  full : result.hasRejectedToken = false → result.numAccepted = drafts.length ∧
    result.bonusOrResampledToken = targets.getLastD 0

theorem zip_drop_cons {drafts targets : List Int} {count : Nat} {draft target : Int}
    {rest : List (Int × Int)} (split : (drafts.zip targets).drop count = (draft, target) :: rest) :
    count < drafts.length ∧ drafts.getD count 0 = draft ∧ targets.getD count 0 = target ∧
      (drafts.zip targets).drop (count + 1) = rest := by
  have inside : count < (drafts.zip targets).length := by
    have long := congrArg List.length split
    simp only [List.length_drop, List.length_cons] at long
    omega
  have head : (drafts.zip targets)[count] = (draft, target) := by
    have first := congrArg List.head? split
    rw [List.head?_drop, List.getElem?_eq_getElem inside, List.head?_cons] at first
    exact Option.some.inj first
  rw [List.length_zip] at inside
  have inDrafts : count < drafts.length := by omega
  have inTargets : count < targets.length := by omega
  rw [List.getElem_zip, Prod.mk.injEq] at head
  refine ⟨inDrafts, ?_, ?_, ?_⟩
  · simpa [List.getD, inDrafts] using head.1
  · simpa [List.getD, inTargets] using head.2
  · rw [← List.tail_drop, split, List.tail_cons]

/-- One more accepted draft. -/
theorem Accepted.snoc {accepts : Int → Int → Bool} {drafts targets : List Int} {count : Nat}
    {result : SpeculativeAcceptanceResult} (progress : Accepted accepts drafts targets count result)
    (inside : count < drafts.length)
    (agree : accepts (drafts.getD count 0) (targets.getD count 0) = true) :
    Accepted accepts drafts targets (count + 1) { result with
      acceptedTokens := result.acceptedTokens ++ [drafts.getD count 0]
      numAccepted := result.numAccepted + 1 } where
  tokens := by
    rw [progress.tokens, List.take_succ_eq_append_getElem inside]
    simp [List.getD, inside]
  num := by rw [progress.num]
  within := inside
  agreed := by
    intro i below
    by_cases last : i = count
    · rw [last]; exact agree
    · exact progress.agreed i (by omega)

/-- What the loop leaves before the bonus is chosen. -/
theorem acceptLoop_outcome (accepts : Int → Int → Bool) {drafts targets : List Int}
    (rows : targets.length = drafts.length) (pairs : List (Int × Int)) (count : Nat)
    (result : SpeculativeAcceptanceResult) (progress : Accepted accepts drafts targets count result)
    (fresh : result.hasRejectedToken = false) (left : (drafts.zip targets).drop count = pairs) :
    let last := acceptLoop accepts drafts.length pairs result
    Accepted accepts drafts targets last.numAccepted last ∧
      (last.hasRejectedToken = false ∧ last.numAccepted = drafts.length ∨
        last.hasRejectedToken = true ∧ last.numAccepted < drafts.length ∧
          accepts (drafts.getD last.numAccepted 0) (targets.getD last.numAccepted 0) = false ∧
          last.bonusOrResampledToken = targets.getD last.numAccepted 0 ∧
          last.numAccepted + last.numRejected + last.numRemaining = drafts.length) := by
  induction pairs generalizing count result with
  | nil =>
      have all : count = drafts.length := by
        have within := progress.within
        have short := congrArg List.length left
        simp [rows] at short
        omega
      rw [all] at progress
      simp only [acceptLoop, progress.num]
      exact ⟨progress, Or.inl ⟨fresh, trivial⟩⟩
  | cons pair rest ih =>
      obtain ⟨draft, target⟩ := pair
      obtain ⟨inside, rfl, rfl, follow⟩ := zip_drop_cons left
      by_cases agree : accepts (drafts.getD count 0) (targets.getD count 0) = true
      · rw [acceptLoop, if_pos agree]
        exact ih (count + 1) _ (progress.snoc inside agree) fresh follow
      · rw [acceptLoop, if_neg agree]
        simp only [progress.num]
        refine ⟨⟨progress.tokens, rfl, progress.within, progress.agreed⟩, Or.inr ?_⟩
        exact ⟨trivial, inside, Bool.eq_false_iff.mpr agree, trivial, by omega⟩

/-- The accounting always balances, so the assertion never throws, and the result
is an `Outcome` of the round. -/
theorem speculativeAcceptReject_ok (accepts : Int → Int → Bool) {drafts targets : List Int}
    (nonempty : drafts ≠ []) (rows : targets.length = drafts.length) :
    ∃ result, speculativeAcceptReject accepts drafts targets = .ok result ∧
      Outcome accepts drafts targets result := by
  have start : Accepted accepts drafts targets 0 {} :=
    ⟨rfl, rfl, Nat.zero_le _, fun i below => absurd below (Nat.not_lt_zero i)⟩
  have ends := acceptLoop_outcome accepts rows (drafts.zip targets) 0 {} start rfl rfl
  simp only at ends
  unfold speculativeAcceptReject
  rw [if_neg nonempty]
  generalize acceptLoop accepts drafts.length (drafts.zip targets) {} = last at ends
  obtain ⟨kept, ⟨everything, all⟩ | ⟨refusal, inside, refused, bonus, balance⟩⟩ := ends
  · refine ⟨{ last with bonusOrResampledToken := targets.getLastD 0 }, by simp [everything, all], ?_⟩
    refine ⟨⟨kept.tokens, rfl, kept.within, kept.agreed⟩, ?_, fun _ => ⟨all, rfl⟩⟩
    intro rejected
    simp [everything] at rejected
  · refine ⟨last, by simp [refusal, balance], kept, fun _ => ⟨inside, refused, bonus⟩, ?_⟩
    intro accepted
    simp [refusal] at accepted

theorem Outcome.width {accepts : Int → Int → Bool} {drafts targets : List Int}
    {result : SpeculativeAcceptanceResult} (outcome : Outcome accepts drafts targets result) :
    result.acceptedTokens.length = result.numAccepted := by
  rw [outcome.accepted.tokens, List.length_take, Nat.min_eq_left outcome.accepted.within]

/-- In a greedy round the first token emitted is the target's choice in the first
row, whether the first draft is accepted or not. -/
theorem Outcome.emits {drafts targets : List Int} {result : SpeculativeAcceptanceResult}
    (outcome : Outcome greedy drafts targets result) (nonempty : drafts ≠ [])
    (rows : targets.length = drafts.length) :
    ∃ more, result.acceptedTokens ++ [result.bonusOrResampledToken] = targets.getD 0 0 :: more ∧
      more.length = result.numAccepted := by
  have tokens := outcome.accepted.tokens
  have width := outcome.width
  obtain ⟨draft, rest, rfl⟩ := List.exists_cons_of_ne_nil nonempty
  by_cases none : result.numAccepted = 0
  · -- refused at once: the resampled token is the first row's choice
    have empty : result.acceptedTokens = [] := List.length_eq_zero_iff.mp (width.trans none)
    have refused : result.hasRejectedToken = true := by
      by_contra accepted
      have all := (outcome.full (Bool.eq_false_iff.mpr accepted)).1
      rw [none, List.length_cons] at all
      omega
    refine ⟨[], ?_, none.symm⟩
    rw [empty, (outcome.rejected refused).2.2, none, List.nil_append]
  · have agree : draft = targets.getD 0 0 := by
      simpa [greedy] using outcome.accepted.agreed 0 (Nat.pos_of_ne_zero none)
    obtain ⟨count, some⟩ := Nat.exists_eq_succ_of_ne_zero none
    refine ⟨rest.take count ++ [result.bonusOrResampledToken], ?_, ?_⟩
    · rw [tokens, some, List.take_succ_cons, ← agree, List.cons_append]
    · rw [tokens, some, List.take_succ_cons, List.length_cons] at width
      rw [List.length_append, List.length_singleton, some]
      omega

theorem Outcome.accepted_mem {accepts : Int → Int → Bool} {drafts targets : List Int}
    {result : SpeculativeAcceptanceResult} (outcome : Outcome accepts drafts targets result)
    {holds : Int → Prop} (every : ∀ draft ∈ drafts, holds draft) :
    ∀ tok ∈ result.acceptedTokens, holds tok := by
  intro tok member
  rw [outcome.accepted.tokens] at member
  exact every tok (List.mem_of_mem_take member)

/-- The token after the accepted ones is one of the target's choices. -/
theorem Outcome.bonus_mem {accepts : Int → Int → Bool} {drafts targets : List Int}
    {result : SpeculativeAcceptanceResult} (outcome : Outcome accepts drafts targets result)
    (nonempty : drafts ≠ []) (rows : targets.length = drafts.length) :
    result.bonusOrResampledToken ∈ targets := by
  have some : targets ≠ [] := by
    rw [← List.length_pos_iff, rows]
    exact List.length_pos_iff.mpr nonempty
  cases refused : result.hasRejectedToken with
  | true =>
      obtain ⟨inside, _, bonus⟩ := outcome.rejected refused
      rw [← rows] at inside
      have chosen : targets.getD result.numAccepted 0 = targets[result.numAccepted] := by
        simp [List.getD, inside]
      rw [bonus, chosen]
      exact List.getElem_mem inside
  | false =>
      rw [(outcome.full refused).2, List.getLastD_eq_getLast?, List.getLast?_eq_some_getLast some]
      exact List.getLast_mem some

end XInfer.Sampling
