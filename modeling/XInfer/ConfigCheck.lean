import XInfer.TokenizerFile
import Mathlib.Data.List.DropRight
import Mathlib.Data.List.TakeWhile

/-!
`QwenTokenizer::validate_against_config_buffer`: the search for the end token in a `config.json`, and its
agreement with the tokenizer. The loop over an array of ids goes on only as far as the integer scanner, a
blank or a comma takes it.
-/

namespace XInfer.ConfigCheck

open Primitives ByteString KeySearch Tokenizer TokenizerJson TokenizerFile

section Check

/-- The end of a turn: blanks, one comma, blanks. -/
def afterElement (text : Bytes) : Bytes :=
  let text := skipWhitespace text
  skipWhitespace (if text.head? = some 44 then text.drop 1 else text)

/-- The turns over an array; `none` has not ended within the fuel. -/
def arrayLoop (eos : Int) : Nat → Bytes → Int → Option Int
  | 0, _, _ => none
  | _ + 1, [], cfg => some cfg
  | fuel + 1, byte :: rest, cfg =>
      if byte = 93 then some cfg
      else
        let val := parseJsonInt64 (byte :: rest) 0
        if val.ok = true ∧ val.out = eos then some val.out
        else arrayLoop eos fuel (afterElement val.rest) (if val.ok = true ∧ cfg < 0 then val.out else cfg)

/-- The text behind the bracket of an array. -/
def arrayBody : Bytes → Option Bytes
  | [] => none
  | byte :: body => if byte = 91 then some body else none

def configEos (fuel : Nat) (eos : Int) (text : Bytes) : Option Int :=
  match arrayBody text with
  | some body => arrayLoop eos fuel (skipWhitespace body) (-1)
  | none => some (parseJsonInt64 text (-1)).out

/-- The value of `eos_token_id`. The search ends at a zero byte. -/
def eosValue (buffer : Bytes) : Option Bytes :=
  (find (quoted (ascii "eos_token_id")) (buffer.takeWhile (· ≠ 0))).bind fun pos =>
    match skipWhitespace (buffer.drop (pos + 14)) with
    | [] => none
    | colon :: rest => if colon = 58 then some (skipWhitespace rest) else none

def compareEos (cfg eos : Int) : Except Bytes Unit :=
  if 0 ≤ cfg ∧ 0 ≤ eos ∧ cfg ≠ eos then
    .error (ascii "Config eos_token_id (" ++ signedDecimal cfg ++
      ascii ") does not match tokenizer <|endoftext|> ID (" ++ signedDecimal eos ++ ascii ")")
  else .ok ()

/-- The function itself; a null buffer is an empty one. -/
def validateAgainstConfigBuffer (fuel : Nat) (tok : QwenTokenizer) (buffer : Bytes) : Option (Except Bytes Unit) :=
  match eosValue buffer with
  | none => some (.ok ())
  | some text => (configEos fuel tok.eosTokenId text).map fun cfg => compareEos cfg tok.eosTokenId

end Check

section Integers

/-- What the loop passes over. -/
def inArray (c : UInt8) : Bool := isBlank c || isDigit c || c == 45 || c == 44

def signed (negative : Bool) (digits : Bytes) : Int :=
  let value := int64 (digitValue digits)
  int64 (if negative then -value else value)

/-- The integers that a text spells: its longest rows of digits, negative right behind a minus sign. -/
def integers (negative : Bool) : Bytes → List Int
  | [] => []
  | c :: rest =>
      if isDigit c = true then
        signed negative (c :: rest.takeWhile isDigit) :: integers false (rest.dropWhile isDigit)
      else integers (c == 45) rest
  termination_by text => text.length
  decreasing_by
    · exact Nat.lt_succ_of_le ((List.dropWhile_suffix isDigit).length_le)
    · exact Nat.lt_succ_self _

theorem integers_gap {gap : Bytes} (plain : ∀ c ∈ gap, isDigit c = false ∧ c ≠ 45) (negative : Bool) (text : Bytes) :
    integers negative (gap ++ text) = integers (negative && gap.isEmpty) text := by
  induction gap generalizing negative with
  | nil => simp
  | cons c gap ih =>
      obtain ⟨digit, minus⟩ := plain c List.mem_cons_self
      have sign : (c == 45) = false := beq_false_of_ne minus
      rw [List.cons_append, integers, if_neg (by simp [digit]), sign,
        ih (fun d held => plain d (List.mem_cons_of_mem c held))]
      simp

/-- A sign counts only in front of a digit. -/
theorem integers_sign {text : Bytes} (stop : ∀ c, text.head? = some c → isDigit c = false) (negative : Bool) :
    integers negative text = integers false text := by
  cases text with
  | nil => simp [integers]
  | cons c rest =>
      have digit := stop c rfl
      rw [integers, integers, if_neg (by simp [digit]), if_neg (by simp [digit])]

theorem integers_digits {digits text : Bytes} (nonempty : digits ≠ []) (decimal : ∀ c ∈ digits, isDigit c = true)
    (stop : ∀ c, text.head? = some c → isDigit c = false) (negative : Bool) :
    integers negative (digits ++ text) = signed negative digits :: integers false text := by
  obtain ⟨digit, digits, rfl⟩ := List.exists_cons_of_ne_nil nonempty
  rw [List.forall_mem_cons] at decimal
  have none' : text.takeWhile isDigit = [] ∧ text.dropWhile isDigit = text := by
    cases text with
    | nil => exact ⟨rfl, rfl⟩
    | cons c rest =>
        have other := stop c rfl
        simp [other]
  rw [List.cons_append, integers, if_pos decimal.1, List.takeWhile_append_of_pos decimal.2,
    List.dropWhile_append_of_pos decimal.2, none'.1, none'.2, List.append_nil]

end Integers

section Turns

theorem blanks_split (text : Bytes) : ∃ gap, text = gap ++ skipWhitespace text ∧ ∀ c ∈ gap, isBlank c = true :=
  ⟨text.takeWhile isBlank, (List.takeWhile_append_dropWhile).symm, fun _ held => List.mem_takeWhile_imp held⟩

/-- What is left behind a row of such bytes begins with another one. -/
theorem dropWhile_head {p : UInt8 → Bool} {text : Bytes} {c : UInt8} (head : (text.dropWhile p).head? = some c) :
    p c = false := by
  have first := List.head?_dropWhile_not p text
  rw [head] at first
  simpa using first

theorem skipWhitespace_head {text : Bytes} {c : UInt8} (head : (skipWhitespace text).head? = some c) :
    isBlank c = false := dropWhile_head head

/-- Blanks and commas. -/
def passed (c : UInt8) : Bool := isBlank c || c == 44

theorem passed_plain {c : UInt8} (gap : passed c = true) : inArray c = true ∧ isDigit c = false ∧ c ≠ 45 := by
  simp only [passed, isBlank, Bool.or_eq_true, beq_iff_eq] at gap
  rcases gap with (((rfl | rfl) | rfl) | rfl) | rfl <;> decide

theorem blank_passed {c : UInt8} (blank : isBlank c = true) : passed c = true := by
  rw [passed, blank, Bool.true_or]

/-- A turn ends behind blanks and at most one comma, in front of a character that is no blank. -/
theorem afterElement_split (text : Bytes) : ∃ gap, text = gap ++ afterElement text ∧ (∀ c ∈ gap, passed c = true) ∧
    (text.head? = some 44 → gap ≠ []) ∧ ∀ c, (afterElement text).head? = some c → isBlank c = false := by
  obtain ⟨first, split, blank⟩ := blanks_split text
  by_cases comma : (skipWhitespace text).head? = some 44
  · have after : afterElement text = skipWhitespace ((skipWhitespace text).drop 1) := by
      rw [afterElement, if_pos comma]
    have cons : skipWhitespace text = 44 :: (skipWhitespace text).drop 1 := by
      cases shape : skipWhitespace text with
      | nil => rw [shape] at comma; cases comma
      | cons c rest =>
          rw [shape] at comma
          rw [Option.some.inj comma]
          rfl
    obtain ⟨second, split', blank'⟩ := blanks_split ((skipWhitespace text).drop 1)
    refine ⟨first ++ 44 :: second, ?_, ?_, by simp, ?_⟩
    · rw [after, List.append_assoc, List.cons_append, ← split', ← cons]
      exact split
    · intro c held
      rw [List.mem_append, List.mem_cons] at held
      rcases held with held | rfl | held
      · exact blank_passed (blank c held)
      · rfl
      · exact blank_passed (blank' c held)
    · rw [after]
      exact fun c head => skipWhitespace_head head
  · have after : afterElement text = skipWhitespace text := by
      have still (text : Bytes) : skipWhitespace (skipWhitespace text) = skipWhitespace text :=
        List.dropWhile_idempotent isBlank text
      rw [afterElement, if_neg comma, still]
    refine ⟨first, ?_, fun c held => blank_passed (blank c held), ?_, ?_⟩
    · rw [after]
      exact split
    · rintro head rfl
      rw [List.nil_append] at split
      exact comma (split ▸ head)
    · rw [after]
      exact fun c head => skipWhitespace_head head

/-- The integer scanner at a character that is no blank: a sign, digits, and what follows them, or a failure
behind a sign. -/
theorem scan_cases {byte : UInt8} (bright : isBlank byte = false) (rest : Bytes) :
    (∃ negative digits after, byte :: rest = (if negative = true then [45] else []) ++ (digits ++ after) ∧
      digits ≠ [] ∧ (∀ c ∈ digits, isDigit c = true) ∧ (∀ c, after.head? = some c → isDigit c = false) ∧
      parseJsonInt64 (byte :: rest) 0 = ⟨true, signed negative digits, after⟩) ∨
    ∃ after, byte :: rest = (if byte = 45 then [45] else []) ++ after ∧
      (∀ c, after.head? = some c → isDigit c = false) ∧ parseJsonInt64 (byte :: rest) 0 = ⟨false, 0, after⟩ := by
  have start : skipWhitespace (byte :: rest) = byte :: rest := skipWhitespace_mark bright rest
  have stop (text : Bytes) : ∀ c, (text.dropWhile isDigit).head? = some c → isDigit c = false :=
    fun c head => dropWhile_head head
  have none' {text : Bytes} (nothing : text.takeWhile isDigit = []) : ∀ c, text.head? = some c → isDigit c = false := by
    intro c head
    cases text with
    | nil => cases head
    | cons d text =>
        rw [List.head?_cons, Option.some.injEq] at head
        subst head
        by_contra digit
        rw [List.takeWhile_cons_of_pos (by simpa using digit)] at nothing
        cases nothing
  by_cases minus : byte = 45
  · subst minus
    by_cases nothing : rest.takeWhile isDigit = []
    · refine Or.inr ⟨rest, rfl, none' nothing, ?_⟩
      simp [parseJsonInt64, start, nothing]
    · refine Or.inl ⟨true, rest.takeWhile isDigit, rest.dropWhile isDigit, ?_, nothing,
        fun _ held => List.mem_takeWhile_imp held, stop rest, ?_⟩
      · rw [List.takeWhile_append_dropWhile]
        rfl
      · simp [parseJsonInt64, start, nothing, signed]
  · by_cases nothing : (byte :: rest).takeWhile isDigit = []
    · refine Or.inr ⟨byte :: rest, by rw [if_neg minus]; rfl, none' nothing, ?_⟩
      simp [parseJsonInt64, start, nothing, minus]
    · refine Or.inl ⟨false, (byte :: rest).takeWhile isDigit, (byte :: rest).dropWhile isDigit, ?_, nothing,
        fun _ held => List.mem_takeWhile_imp held, stop (byte :: rest), ?_⟩
      · rw [List.takeWhile_append_dropWhile]
        rfl
      · simp [parseJsonInt64, start, nothing, minus, signed]

/-- The row of characters that the loop can pass over. -/
def row (text : Bytes) : Bytes := text.takeWhile inArray

theorem row_append {front : Bytes} (inside : ∀ c ∈ front, inArray c = true) (back : Bytes) :
    row (front ++ back) = front ++ row back := List.takeWhile_append_of_pos inside

theorem row_head {text : Bytes} (stop : ∀ c, text.head? = some c → isDigit c = false) :
    ∀ c, (row text).head? = some c → isDigit c = false := by
  intro c head
  cases text with
  | nil => cases head
  | cons d text =>
      rw [row, List.takeWhile_cons] at head
      split at head
      · exact stop c head
      · cases head

theorem digit_inside {c : UInt8} (digit : isDigit c = true) : inArray c = true := by
  simp [inArray, digit]

/-- Blanks and commas in front of a row spell nothing. -/
theorem integers_passed {gap : Bytes} (gaps : ∀ c ∈ gap, passed c = true) (back : Bytes) :
    integers false (row (gap ++ back)) = integers false (row back) := by
  rw [row_append fun c held => (passed_plain (gaps c held)).1,
    integers_gap fun c held => (passed_plain (gaps c held)).2, Bool.false_and]

/-- A sign, or nothing. -/
theorem sign_inside (p : Prop) [Decidable p] : ∀ c ∈ (if p then [45] else [] : Bytes), inArray c = true := by
  split_ifs
  · decide
  · exact fun c impossible => absurd impossible List.not_mem_nil

/-- What one turn does in front of a character of the row: it consumes some of the row, with one integer or
none. -/
theorem turn_spec {byte : UInt8} (bright : isBlank byte = false) (inside : inArray byte = true) (rest : Bytes) :
    let val := parseJsonInt64 (byte :: rest) 0
    let next := afterElement val.rest
    (∀ c, next.head? = some c → isBlank c = false) ∧
      ∃ consumed, byte :: rest = consumed ++ next ∧ consumed ≠ [] ∧ (∀ c ∈ consumed, inArray c = true) ∧
        integers false (row (byte :: rest)) =
          (if val.ok = true then [val.out] else []) ++ integers false (row next) := by
  dsimp only
  rcases scan_cases bright rest with ⟨negative, digits, after, split, nonempty, decimal, stop, scanned⟩ |
    ⟨after, split, stop, scanned⟩
  · -- an integer, and what stands between it and the next turn
    rw [scanned]
    obtain ⟨gap, next, gaps, _, head⟩ := afterElement_split after
    have front : ∀ c ∈ (if negative = true then [45] else []) ++ digits, inArray c = true := by
      intro c held
      rw [List.mem_append] at held
      rcases held with sign | digit
      · exact sign_inside _ c sign
      · exact digit_inside (decimal c digit)
    refine ⟨head, (if negative = true then [45] else []) ++ digits ++ gap, ?_, ?_, ?_, ?_⟩
    · rw [split, List.append_assoc, List.append_assoc, ← next]
    · simp [nonempty]
    · intro c held
      rw [List.mem_append] at held
      exact held.elim (front c) fun between => (passed_plain (gaps c between)).1
    · have later : integers false (row after) = integers false (row (afterElement after)) := by
        conv_lhs => rw [next]
        exact integers_passed gaps _
      have sign (text : Bytes) : integers false ((if negative = true then [45] else []) ++ text) =
          integers negative text := by
        cases negative with
        | true =>
            rw [if_pos rfl, List.singleton_append, integers]
            rfl
        | false => rfl
      rw [split, ← List.append_assoc, row_append front, List.append_assoc, sign,
        integers_digits nonempty decimal (row_head stop), later]
      rfl
  · -- no integer: the turn passes a lone sign, or else a comma
    rw [scanned]
    obtain ⟨gap, next, gaps, comma, head⟩ := afterElement_split after
    have later : integers false (row after) = integers false (row (afterElement after)) := by
      conv_lhs => rw [next]
      exact integers_passed gaps _
    refine ⟨head, (if byte = 45 then [45] else []) ++ gap, ?_, ?_, ?_, ?_⟩
    · rw [split, List.append_assoc, ← next]
    · intro nothing
      rw [List.append_eq_nil_iff] at nothing
      have minus : byte ≠ 45 := fun same => by simp [same] at nothing
      rw [if_neg minus, List.nil_append] at split
      have digit := stop byte (split ▸ rfl)
      have comma' : byte = 44 := by
        simpa [inArray, bright, digit, minus] using inside
      exact comma (split ▸ congrArg some comma') nothing.2
    · intro c held
      rw [List.mem_append] at held
      rcases held with sign | between
      · exact sign_inside _ c sign
      · exact (passed_plain (gaps c between)).1
    · by_cases minus : byte = 45
      · rw [if_pos minus] at split
        have sign : row (byte :: rest) = [45] ++ row after := by
          rw [split]
          exact row_append (by simp [inArray]) after
        have step (text : Bytes) : integers false ([45] ++ text) = integers true text := by
          rw [List.singleton_append, integers]
          rfl
        rw [sign, step, integers_sign (row_head stop), later]
        rfl
      · rw [if_neg minus, List.nil_append] at split
        rw [split, later]
        rfl

end Turns

section Loop

variable {eos : Int}

/-- The row of characters that the loop passes over reaches the bracket or the end of the text, or spells the
end token on its way. -/
def Ends (eos : Int) (body : Bytes) : Prop :=
  (body.dropWhile inArray).head? = none ∨ (body.dropWhile inArray).head? = some 93 ∨ eos ∈ integers false (row body)

/-- What the turns make of the integers of an array. -/
def settle (eos : Int) : Int → List Int → Int
  | cfg, [] => cfg
  | cfg, val :: later => if val = eos then eos else settle eos (if cfg < 0 then val else cfg) later

theorem ends_consumed {consumed next : Bytes} (inside : ∀ c ∈ consumed, inArray c = true) {ints : List Int}
    (spelt : integers false (row (consumed ++ next)) = ints ++ integers false (row next)) :
    Ends eos (consumed ++ next) ↔ eos ∈ ints ∨ Ends eos next := by
  unfold Ends
  rw [List.dropWhile_append_of_pos inside, spelt, List.mem_append]
  tauto

/-- A character outside the row, other than the bracket, is not passed. -/
theorem turn_stays {byte : UInt8} (bright : isBlank byte = false) (outside : inArray byte = false) (rest : Bytes) :
    (parseJsonInt64 (byte :: rest) 0).ok = false ∧
      afterElement (parseJsonInt64 (byte :: rest) 0).rest = byte :: rest := by
  simp only [inArray, bright, Bool.false_or, Bool.or_eq_false_iff, beq_eq_false_iff_ne] at outside
  obtain ⟨⟨digit, minus⟩, comma⟩ := outside
  have start : skipWhitespace (byte :: rest) = byte :: rest := skipWhitespace_mark bright rest
  have scanned : parseJsonInt64 (byte :: rest) 0 = ⟨false, 0, byte :: rest⟩ := by
    simp [parseJsonInt64, start, minus, digit]
  have still : (byte :: rest).head? ≠ some 44 := by simpa using comma
  refine ⟨by rw [scanned], ?_⟩
  rw [scanned, afterElement, start, if_neg still, start]

/-- Each turn consumes a part of the row, so the length of the text bounds the turns. -/
theorem arrayLoop_ends (fuel : Nat) {text : Bytes} (bright : ∀ c, text.head? = some c → isBlank c = false)
    (ends : Ends eos text) (enough : text.length < fuel) (cfg : Int) :
    arrayLoop eos fuel text cfg = some (settle eos cfg (integers false (row text))) := by
  induction fuel generalizing text cfg with
  | zero => exact absurd enough (Nat.not_lt_zero _)
  | succ fuel ih =>
      cases text with
      | nil => simp [arrayLoop, row, integers, settle]
      | cons byte rest =>
          unfold arrayLoop
          by_cases bracket : byte = 93
          · rw [if_pos bracket, bracket, row, List.takeWhile_cons_of_neg (by decide), integers, settle]
          rw [if_neg bracket]
          cases inside : inArray byte with
          | false =>
              -- the row is over, in front of no bracket
              exfalso
              have stop : (byte :: rest).dropWhile inArray = byte :: rest := by simp [inside]
              have nothing : row (byte :: rest) = [] := by simp [row, inside]
              rw [Ends, stop, nothing, integers] at ends
              simp [bracket] at ends
          | true =>
              obtain ⟨head, consumed, split, nonempty, passes, spelt⟩ := turn_spec (bright byte rfl) inside rest
              dsimp only
              generalize parseJsonInt64 (byte :: rest) 0 = val at *
              rw [split] at spelt ends enough
              rw [ends_consumed passes spelt] at ends
              have shorter : (afterElement val.rest).length < fuel := by
                have long := List.length_pos_iff.mpr nonempty
                rw [List.length_append] at enough
                omega
              rw [split, spelt]
              cases ok : val.ok with
              | false =>
                  simp only [ok, Bool.false_eq_true, false_and, if_false, List.not_mem_nil, false_or,
                    List.nil_append] at ends ⊢
                  exact ih head ends shorter cfg
              | true =>
                  simp only [ok, true_and, if_true, List.mem_singleton, List.singleton_append, settle] at ends ⊢
                  split_ifs with found
                  · rw [found]
                  all_goals exact ih head (ends.resolve_left fun same => found same.symm) shorter _

theorem arrayLoop_stuck (fuel : Nat) {text : Bytes} (bright : ∀ c, text.head? = some c → isBlank c = false)
    (stays : ¬ Ends eos text) (cfg : Int) : arrayLoop eos fuel text cfg = none := by
  induction fuel generalizing text cfg with
  | zero => rfl
  | succ fuel ih =>
      cases text with
      | nil => exact absurd (Or.inl rfl) stays
      | cons byte rest =>
          unfold arrayLoop
          have bracket : byte ≠ 93 := by
            rintro rfl
            exact stays (Or.inr (Or.inl rfl))
          rw [if_neg bracket]
          cases inside : inArray byte with
          | false =>
              -- the next turn starts with the same text
              obtain ⟨fails, same⟩ := turn_stays (bright byte rfl) inside rest
              simp only [fails, Bool.false_eq_true, false_and, if_false, same]
              exact ih bright stays cfg
          | true =>
              obtain ⟨head, consumed, split, _, passes, spelt⟩ := turn_spec (bright byte rfl) inside rest
              dsimp only
              generalize parseJsonInt64 (byte :: rest) 0 = val at *
              rw [split] at spelt stays
              rw [ends_consumed passes spelt, not_or] at stays
              have missed : ¬ (val.ok = true ∧ val.out = eos) := by
                rintro ⟨ok, found⟩
                simp [ok, found] at stays
              rw [if_neg missed]
              exact ih head stays.2 _

theorem blanks_consumed (body : Bytes) : (Ends eos body ↔ Ends eos (skipWhitespace body)) ∧
    integers false (row body) = integers false (row (skipWhitespace body)) := by
  obtain ⟨gap, split, blank⟩ := blanks_split body
  have gaps : ∀ c ∈ gap, passed c = true := fun c held => blank_passed (blank c held)
  have inside : ∀ c ∈ gap, inArray c = true := fun c held => (passed_plain (gaps c held)).1
  have spelt : integers false (row (gap ++ skipWhitespace body)) =
      [] ++ integers false (row (skipWhitespace body)) := integers_passed gaps _
  have ends : Ends eos (gap ++ skipWhitespace body) ↔ eos ∈ [] ∨ Ends eos (skipWhitespace body) :=
    ends_consumed inside spelt
  rw [← split] at ends spelt
  exact ⟨ends.trans (or_iff_right List.not_mem_nil), spelt⟩

end Loop

section Configs

/-- A non-negative `int64_t` as a file writes it. -/
structure EosId where
  number : Numeral
  small : number.value < 2 ^ 63

def EosId.value (id : EosId) : Int := id.number.value

structure ArrayEntry where
  before : Gap
  id : EosId
  after : Gap

def ArrayEntry.text (entry : ArrayEntry) : Bytes := entry.before.text ++ (entry.id.number.digits ++ entry.after.text)

inductive EosValue where
  | single (id : EosId)
  | array (hollow : Gap) (entries : List ArrayEntry)

def EosValue.text : EosValue → Bytes
  | single id => id.number.digits
  | array hollow entries => 91 :: (separated 44 hollow.text (entries.map ArrayEntry.text) ++ [93])

/-- What `true` should mean. -/
def EosValue.Agrees (eos : Int) : EosValue → Prop
  | single id => id.value = eos
  | array _ entries => entries = [] ∨ eos ∈ entries.map fun entry => entry.id.value

def eosKey : Bytes := quoted (ascii "eos_token_id")

/-- A file with the member `eos_token_id`, before which the quoted key does not occur. -/
structure EosConfig where
  front : Bytes
  afterKey : Gap
  afterColon : Gap
  value : EosValue
  back : Bytes
  ended : ∀ c, back.head? = some c → isDigit c = false
  noZero : 0 ∉ front
  first : ∀ k < front.length, ¬ eosKey <+: (front ++ (eosKey ++ (afterKey.text ++
    58 :: (afterColon.text ++ (value.text ++ back))))).drop k

def EosConfig.bytes (config : EosConfig) : Bytes :=
  config.front ++ (eosKey ++ (config.afterKey.text ++
    58 :: (config.afterColon.text ++ (config.value.text ++ config.back))))

theorem EosId.nonneg (id : EosId) : 0 ≤ id.value := Int.natCast_nonneg _

theorem EosId.signed (id : EosId) : ConfigCheck.signed false id.number.digits = id.value := by
  have small : (id.number.value : Int) < 2 ^ 63 := by exact_mod_cast id.small
  have same : int64 (digitValue id.number.digits : Int) = id.value := int64_small id.nonneg small
  rw [ConfigCheck.signed, if_neg (by decide), same]
  exact int64_small id.nonneg small

theorem digit_bright {c : UInt8} (digit : isDigit c = true) : isBlank c = false ∧ c ≠ 91 := by
  refine ⟨(isBlank_digit digit).1, ?_⟩
  rintro rfl
  cases digit

theorem EosValue.text_head (value : EosValue) : ∃ c rest, value.text = c :: rest ∧ isBlank c = false := by
  cases value with
  | single id =>
      obtain ⟨c, rest, shape⟩ := List.exists_cons_of_ne_nil id.number.nonempty
      exact ⟨c, rest, shape, (digit_bright (id.number.decimal c (shape ▸ List.mem_cons_self))).1⟩
  | array hollow entries => exact ⟨91, _, rfl, rfl⟩

theorem eosValue_config (config : EosConfig) : eosValue config.bytes = some (config.value.text ++ config.back) := by
  -- the search reads at least up to the end of the key
  have plain : ∀ c ∈ config.front ++ eosKey, (decide (c ≠ 0)) = true := by
    intro c held
    rw [List.mem_append] at held
    rcases held with front | key
    · exact decide_eq_true fun zero => config.noZero (zero ▸ front)
    · have bright : ∀ c ∈ eosKey, c ≠ 0 := by decide
      exact decide_eq_true (bright c key)
  obtain ⟨tail, searched, part⟩ : ∃ tail, config.bytes.takeWhile (fun c => decide (c ≠ 0)) =
      config.front ++ (eosKey ++ tail) ∧ tail <+: config.afterKey.text ++
        58 :: (config.afterColon.text ++ (config.value.text ++ config.back)) := by
    refine ⟨_, ?_, List.takeWhile_prefix (fun c : UInt8 => decide (c ≠ 0))⟩
    rw [EosConfig.bytes, ← List.append_assoc, List.takeWhile_append_of_pos plain, List.append_assoc]
  have found : find eosKey (config.front ++ (eosKey ++ tail)) = some config.front.length := by
    rw [find_clear, find_front (List.prefix_append eosKey tail), Option.map_some, Nat.zero_add]
    rintro suffix nonempty ⟨before, split⟩ begins
    have sooner : before.length < config.front.length := by
      have long := List.length_pos_iff.mpr nonempty
      rw [← split, List.length_append]
      omega
    apply config.first before.length sooner
    obtain ⟨beyond, rest⟩ := part
    rw [← rest, ← split, List.append_assoc, List.drop_left]
    refine begins.trans ⟨beyond, ?_⟩
    simp only [List.append_assoc]
  have behind : config.bytes.drop (config.front.length + 14) = config.afterKey.text ++
      58 :: (config.afterColon.text ++ (config.value.text ++ config.back)) := by
    have size : (config.front ++ eosKey).length = config.front.length + 14 := by
      rw [List.length_append]
      rfl
    rw [EosConfig.bytes, ← List.append_assoc, ← size, List.drop_left]
  obtain ⟨c, rest, shape, bright⟩ := config.value.text_head
  have colon : isBlank 58 = false := rfl
  have value : skipWhitespace (config.afterColon.text ++ (config.value.text ++ config.back)) =
      config.value.text ++ config.back := by
    rw [skipWhitespace_gap, shape, List.cons_append, skipWhitespace_mark bright]
  unfold eosValue
  rw [searched, show quoted (ascii "eos_token_id") = eosKey from rfl, found, Option.bind_some, behind,
    skipWhitespace_gap, skipWhitespace_mark colon]
  dsimp only
  rw [if_pos rfl, value]

theorem gap_plain (gap : Gap) : ∀ c ∈ gap.text, inArray c = true ∧ isDigit c = false ∧ c ≠ 45 :=
  fun c held => passed_plain (blank_passed (gap.blank c held))

theorem integers_blank (gap : Gap) (text : Bytes) : integers false (gap.text ++ text) = integers false text := by
  rw [integers_gap fun c held => (gap_plain gap c held).2, Bool.false_and]

theorem integers_entry (entry : ArrayEntry) {tail : Bytes} (stop : ∀ c, tail.head? = some c → isDigit c = false) :
    integers false (entry.text ++ tail) = entry.id.value :: integers false tail := by
  have after : ∀ c, (entry.after.text ++ tail).head? = some c → isDigit c = false := by
    intro c head
    cases shape : entry.after.text with
    | nil => exact stop c (by rwa [shape] at head)
    | cons d rest =>
        rw [shape, List.cons_append, List.head?_cons, Option.some.injEq] at head
        exact head ▸ (gap_plain entry.after d (shape ▸ List.mem_cons_self)).2.1
  rw [ArrayEntry.text, List.append_assoc, List.append_assoc, integers_blank,
    integers_digits entry.id.number.nonempty entry.id.number.decimal after, integers_blank, entry.id.signed]

theorem entry_inside (entry : ArrayEntry) : ∀ c ∈ entry.text, inArray c = true := by
  intro c held
  rw [ArrayEntry.text, List.mem_append, List.mem_append] at held
  rcases held with before | digit | after
  · exact (gap_plain entry.before c before).1
  · exact digit_inside (entry.id.number.decimal c digit)
  · exact (gap_plain entry.after c after).1

/-- An array is one row for the loop, and spells its entries. -/
theorem integers_entries (hollow : Gap) (entries : List ArrayEntry) :
    (∀ c ∈ separated 44 hollow.text (entries.map ArrayEntry.text), inArray c = true) ∧
      integers false (separated 44 hollow.text (entries.map ArrayEntry.text)) =
        entries.map fun entry => entry.id.value := by
  induction entries with
  | nil =>
      have spelt := integers_blank hollow []
      rw [List.append_nil, integers] at spelt
      exact ⟨fun c held => (gap_plain hollow c held).1, spelt⟩
  | cons entry later ih =>
      cases later with
      | nil =>
          have spelt : integers false (entry.text ++ []) = _ := integers_entry entry fun c head => by cases head
          rw [List.append_nil, integers] at spelt
          exact ⟨entry_inside entry, spelt⟩
      | cons next rest =>
          obtain ⟨inside, spelt⟩ := ih
          simp only [List.map_cons, separated] at inside spelt ⊢
          constructor
          · intro c held
            rw [List.mem_append, List.mem_cons] at held
            rcases held with first | rfl | others
            · exact entry_inside entry c first
            · rfl
            · exact inside c others
          · have comma : isDigit 44 = false := rfl
            rw [integers_entry entry (by simp [comma]), integers, if_neg (by simp [comma])]
            exact congrArg _ spelt

theorem settle_mem {eos : Int} {vals : List Int} (found : eos ∈ vals) (cfg : Int) : settle eos cfg vals = eos := by
  induction vals generalizing cfg with
  | nil => cases found
  | cons val later ih =>
      rw [settle]
      split_ifs with same
      · rfl
      all_goals exact ih ((List.mem_cons.mp found).resolve_left fun here => same here.symm) _

/-- A non-negative choice stays. -/
theorem settle_kept {eos cfg : Int} {vals : List Int} (missing : eos ∉ vals) (nonneg : 0 ≤ cfg) :
    settle eos cfg vals = cfg := by
  induction vals with
  | nil => rfl
  | cons val later ih =>
      have apart : val ≠ eos := fun same => missing (same ▸ List.mem_cons_self)
      rw [settle, if_neg apart, if_neg (Int.not_lt.mpr nonneg)]
      exact ih fun held => missing (List.mem_cons_of_mem val held)

theorem compareEos_ok {cfg eos : Int} (nonneg : 0 ≤ eos) : compareEos cfg eos = .ok () ↔ cfg < 0 ∨ cfg = eos := by
  unfold compareEos
  split_ifs with apart
  · simp only [false_iff]
    omega
  · simp only [true_iff]
    omega

theorem settle_agrees {eos : Int} (nonneg : 0 ≤ eos) {vals : List Int} (positive : ∀ val ∈ vals, 0 ≤ val) :
    compareEos (settle eos (-1) vals) eos = .ok () ↔ vals = [] ∨ eos ∈ vals := by
  rw [compareEos_ok nonneg]
  by_cases found : eos ∈ vals
  · rw [settle_mem found]
    simp [found]
  · cases vals with
    | nil => simp [settle]
    | cons val later =>
        -- the first id is kept, as it is not negative
        have first := positive val List.mem_cons_self
        have apart : val ≠ eos := fun same => found (same ▸ List.mem_cons_self)
        have kept := settle_kept (fun held => found (List.mem_cons_of_mem val held)) first
        rw [settle, if_neg apart, if_pos (by decide), kept]
        simp only [found, reduceCtorEq, or_self, iff_false, not_or]
        omega

end Configs

section Validation

/-- What the function owes a tokenizer and a buffer. -/
structure Validates (tok : QwenTokenizer) (buffer : Bytes) : Prop where
  terminates : ∃ fuel, validateAgainstConfigBuffer fuel tok buffer ≠ none
  decides : 0 ≤ tok.eosTokenId → ∀ config : EosConfig, config.bytes = buffer →
    ∃ fuel verdict, validateAgainstConfigBuffer fuel tok buffer = some verdict ∧
      (verdict = .ok () ↔ config.value.Agrees tok.eosTokenId)

/-- Each array of ids ends for the loop, or spells the end token before the loop gets stuck. -/
def Settles (tok : QwenTokenizer) (buffer : Bytes) : Prop :=
  ∀ text body, eosValue buffer = some text → arrayBody text = some body → Ends tok.eosTokenId body

variable {tok : QwenTokenizer} {buffer : Bytes}

theorem configEos_array {text body : Bytes} (array : arrayBody text = some body) {eos : Int} (ends : Ends eos body) :
    ∃ fuel, configEos fuel eos text = some (settle eos (-1) (integers false (row body))) := by
  obtain ⟨same, spelt⟩ := @blanks_consumed eos body
  have run := arrayLoop_ends ((skipWhitespace body).length + 1) (fun c head => skipWhitespace_head head)
    (same.mp ends) (Nat.lt_succ_self _) (-1)
  exact ⟨_, by rw [configEos, array, spelt]; exact run⟩

theorem terminates_iff : (∃ fuel, validateAgainstConfigBuffer fuel tok buffer ≠ none) ↔ Settles tok buffer := by
  constructor
  · rintro ⟨fuel, ended⟩ text body value array
    by_contra stays
    rw [(blanks_consumed body).1] at stays
    apply ended
    rw [validateAgainstConfigBuffer, value]
    dsimp only
    rw [configEos, array, Option.map_eq_none_iff]
    exact arrayLoop_stuck fuel (fun c head => skipWhitespace_head head) stays (-1)
  · intro settles
    cases value : eosValue buffer with
    | none => exact ⟨0, by simp [validateAgainstConfigBuffer, value]⟩
    | some text =>
        cases array : arrayBody text with
        | none => exact ⟨0, by simp [validateAgainstConfigBuffer, value, configEos, array]⟩
        | some body =>
            obtain ⟨fuel, run⟩ := configEos_array array (settles text body value array)
            exact ⟨fuel, by simp [validateAgainstConfigBuffer, value, run]⟩

theorem arrayBody_single (id : EosId) (back : Bytes) : arrayBody (id.number.digits ++ back) = none := by
  obtain ⟨c, rest, shape⟩ := List.exists_cons_of_ne_nil id.number.nonempty
  rw [shape, List.cons_append, arrayBody,
    if_neg (digit_bright (id.number.decimal c (shape ▸ List.mem_cons_self))).2]

theorem parse_single (id : EosId) {back : Bytes} (ended : ∀ c, back.head? = some c → isDigit c = false) :
    (parseJsonInt64 (id.number.digits ++ back) (-1)).out = id.value := by
  obtain ⟨c, rest, shape⟩ := List.exists_cons_of_ne_nil id.number.nonempty
  have decimal := id.number.decimal
  have lead := decimal c (shape ▸ List.mem_cons_self)
  have start : skipWhitespace (id.number.digits ++ back) = id.number.digits ++ back := by
    rw [shape]
    exact skipWhitespace_mark (digit_bright lead).1 _
  have positive : ¬ (id.number.digits ++ back).head? = some 45 := by
    rw [shape, List.cons_append, List.head?_cons, Option.some.injEq]
    exact (isBlank_digit lead).2.1
  have taken : (id.number.digits ++ back).takeWhile isDigit = id.number.digits := by
    rw [List.takeWhile_append_of_pos decimal]
    cases back with
    | nil => simp
    | cons d later => simp [ended d rfl]
  have value := id.signed
  rw [signed, if_neg (by decide)] at value
  simp only [parseJsonInt64, start, positive, if_false, taken, id.number.nonempty]
  exact value

theorem config_decides {config : EosConfig} (same : config.bytes = buffer) (nonneg : 0 ≤ tok.eosTokenId) :
    ∃ fuel verdict, validateAgainstConfigBuffer fuel tok buffer = some verdict ∧
      (verdict = .ok () ↔ config.value.Agrees tok.eosTokenId) := by
  have value := eosValue_config config
  rw [same] at value
  cases shape : config.value with
  | single id =>
      rw [shape, EosValue.text] at value
      refine ⟨0, compareEos id.value tok.eosTokenId, ?_, ?_⟩
      · simp [validateAgainstConfigBuffer, value, configEos, arrayBody_single, parse_single id config.ended]
      · rw [compareEos_ok nonneg, EosValue.Agrees, or_iff_right (Int.not_lt.mpr id.nonneg)]
  | array hollow entries =>
      rw [shape, EosValue.text] at value
      obtain ⟨inside, spelt⟩ := integers_entries hollow entries
      have array : arrayBody (91 :: (separated 44 hollow.text (entries.map ArrayEntry.text) ++ [93]) ++ config.back) =
          some (separated 44 hollow.text (entries.map ArrayEntry.text) ++ 93 :: config.back) := by
        rw [List.cons_append, arrayBody, if_pos rfl, List.append_assoc, List.singleton_append]
      have stop : (separated 44 hollow.text (entries.map ArrayEntry.text) ++ 93 :: config.back).dropWhile inArray =
          93 :: config.back := by
        rw [List.dropWhile_append_of_pos inside, List.dropWhile_cons_of_neg (by decide)]
      have whole : row (separated 44 hollow.text (entries.map ArrayEntry.text) ++ 93 :: config.back) =
          separated 44 hollow.text (entries.map ArrayEntry.text) := by
        rw [row_append inside, row, List.takeWhile_cons_of_neg (by decide), List.append_nil]
      have ends : Ends tok.eosTokenId (separated 44 hollow.text (entries.map ArrayEntry.text) ++ 93 :: config.back) :=
        Or.inr (Or.inl (by rw [stop]; rfl))
      obtain ⟨fuel, run⟩ := configEos_array array ends
      rw [whole, spelt] at run
      refine ⟨fuel, compareEos (settle tok.eosTokenId (-1) (entries.map fun entry => entry.id.value)) tok.eosTokenId,
        ?_, ?_⟩
      · rw [validateAgainstConfigBuffer, value]
        dsimp only
        rw [run, Option.map_some]
      · have positive : ∀ val ∈ entries.map fun entry => entry.id.value, 0 ≤ val := by
          intro val held
          obtain ⟨entry, _, rfl⟩ := List.mem_map.mp held
          exact entry.id.nonneg
        rw [settle_agrees nonneg positive, EosValue.Agrees, List.map_eq_nil_iff]

/-- Validation ends, and decides what it should, for exactly the buffers whose array of ids settles. -/
theorem validates_iff (tok : QwenTokenizer) (buffer : Bytes) : Validates tok buffer ↔ Settles tok buffer := by
  constructor
  · exact fun validates => terminates_iff.mp validates.terminates
  · exact fun settles => ⟨terminates_iff.mpr settles, fun nonneg config same => config_decides same nonneg⟩

/-- A config whose array holds no id. -/
def nullConfig : Bytes := ascii "\x7b\"eos_token_id\": [null]\x7d"

/-- A tokenizer of which only the end token matters. -/
def endToken (eos : Int) : QwenTokenizer where
  vocab := []
  idToToken := []
  bpeRanks := []
  specialTokens := []
  eosTokenId := eos
  imEndTokenId := -1
  thinkStartTokenId := -1
  thinkEndTokenId := -1
  chatTemplate := ChatTemplate.initDefaults
  split _ := []

theorem nullConfig_endless : ¬ Validates (endToken 248044) nullConfig := by
  intro validates
  have settles := terminates_iff.mp validates.terminates (ascii "[null]\x7d") (ascii "null]\x7d") (by decide) rfl
  have letter : ((ascii "null]\x7d").dropWhile inArray).head? = some 110 := by decide
  have nothing : row (ascii "null]\x7d") = [] := by decide
  rw [Ends, letter, nothing, integers] at settles
  simp at settles

end Validation

end XInfer.ConfigCheck
