import XInfer.BacktrackingRegex
import XInfer.PreTokenizer
import Mathlib.Data.List.Chain

/-!
The pattern in the comment of `split_qwen35` against the loop below it. The classes of
the pattern are those of the category table. The loop stops a run of symbols at a
control or unassigned codepoint, and starts none there, where the pattern takes it.
-/

namespace XInfer.PreTokenizerRegex

open PreTokenizer BacktrackingRegex

section Pattern
variable (ranges : List UnicodeRange)

def letter (c : Nat) : Bool := getUnicodeCategory ranges c == .letter
def mark (c : Nat) : Bool := getUnicodeCategory ranges c == .mark
def number (c : Nat) : Bool := getUnicodeCategory ranges c == .number
def space (c : Nat) : Bool := getUnicodeCategory ranges c == .whitespace
def letterMark (c : Nat) : Bool := letter ranges c || mark ranges c

/-- `[^\s\p{L}\p{M}\p{N}]` -/
def symbol (c : Nat) : Bool :=
  !(space ranges c || letter ranges c || mark ranges c || number ranges c)

/-- Control and unassigned codepoints. -/
def unclassed (c : Nat) : Bool := getUnicodeCategory ranges c == .other

def folded (c : Nat) : Regex Nat := .cls fun x => foldCase x == c

/-- An apostrophe and folded letters. -/
def quotedLetter (c : Nat) : Regex Nat := .seq (.cls (· == 39)) (folded c)
def quotedLetters (c d : Nat) : Regex Nat := .seq (.cls (· == 39)) (.seq (folded c) (folded d))

/-- `(?i:'s|'t|'re|'ve|'m|'ll|'d)` -/
def contractionPattern : Regex Nat :=
  .alt (quotedLetter 115) (.alt (quotedLetter 116) (.alt (quotedLetters 114 101)
    (.alt (quotedLetters 118 101) (.alt (quotedLetter 109) (.alt (quotedLetters 108 108)
      (quotedLetter 100))))))

/-- `[^\r\n\p{L}\p{N}]?[\p{L}\p{M}]+` -/
def wordPattern : Regex Nat :=
  .seq (.opt (.cls fun c => !(c == 13 || c == 10 || letter ranges c || number ranges c)))
    (plus (letterMark ranges))

/-- ` ?[^\s\p{L}\p{M}\p{N}]+[\r\n]*` -/
def symbolPattern : Regex Nat :=
  .seq (.opt (.cls (· == 32))) (.seq (plus (symbol ranges)) (.many isNewline))

/-- `\s*[\r\n]+` -/
def newlinePattern : Regex Nat := .seq (.many (space ranges)) (plus isNewline)

/-- `\s+(?!\S)` -/
def trailingPattern : Regex Nat := .seq (plus (space ranges)) (.notAhead fun c => !space ranges c)

def qwenPattern : Regex Nat :=
  .alt contractionPattern (.alt (wordPattern ranges) (.alt (.cls (number ranges))
    (.alt (symbolPattern ranges) (.alt (newlinePattern ranges) (.alt (trailingPattern ranges)
      (plus (space ranges)))))))

end Pattern

/-! The flags of the loop are the classes of the pattern. -/

section Flags
variable (ranges : List UnicodeRange) {c : Nat} (inRange : c ≠ OUT_OF_RANGE)

theorem ascii_space (c : Nat) (listed : c ∈ [32, 9, 13, 10, 11, 12]) : space ranges c = true := by
  simp only [List.mem_cons, List.not_mem_nil, or_false] at listed
  rcases listed with rfl | rfl | rfl | rfl | rfl | rfl <;> rfl

include inRange

theorem flags_eq : getCptFlags ranges c =
    ⟨letter ranges c, number ranges c, mark ranges c, space ranges c, !unclassed ranges c⟩ := by
  have blanks : (c == 32 || c == 9 || c == 13 || c == 10 || c == 11 || c == 12) = true →
      getUnicodeCategory ranges c = .whitespace := by
    intro listed
    have known := ascii_space ranges c (by simpa [or_assoc] using listed)
    simpa [space] using known
  rw [getCptFlags, if_neg inRange]
  rcases blank : (c == 32 || c == 9 || c == 13 || c == 10 || c == 11 || c == 12) with _ | _
  · cases cat : getUnicodeCategory ranges c <;>
      simp only [letter, number, mark, space, unclassed, cat] <;> rfl
  · have cat := blanks blank
    simp only [letter, number, mark, space, unclassed, cat]
    rfl

theorem isWordPart_eq : isWordPart ranges c = letterMark ranges c := by
  rw [isWordPart, flags_eq ranges inRange, letterMark]

theorem notWsLmNum_eq : notWsLmNum (getCptFlags ranges c) = symbol ranges c := by
  rw [flags_eq ranges inRange, notWsLmNum, symbol]

theorem isSymbolPart_eq : isSymbolPart ranges c = (symbol ranges c && !unclassed ranges c) := by
  rw [isSymbolPart, notWsLmNum_eq ranges inRange, flags_eq ranges inRange]

end Flags

/-! What each alternative leaves at the front of a text. -/

theorem take_run {α : Type} (accepts : α → Bool) (text : List α) :
    text.take (text.takeWhile accepts).length = text.takeWhile accepts :=
  List.prefix_iff_eq_take.mp (List.takeWhile_prefix accepts) |>.symm

theorem drop_run {α : Type} (accepts : α → Bool) (text : List α) :
    text.drop (text.takeWhile accepts).length = text.dropWhile accepts := by
  have whole := List.takeWhile_append_dropWhile (p := accepts) (l := text)
  calc text.drop (text.takeWhile accepts).length
      = (text.takeWhile accepts ++ text.dropWhile accepts).drop (text.takeWhile accepts).length := by rw [whole]
    _ = text.dropWhile accepts := List.drop_left

theorem contraction_match (text : List Nat) : firstMatch contractionPattern text =
    if 0 < contraction text then some (text.drop (contraction text)) else none := by
  rcases text with _ | ⟨c, _ | ⟨first, rest⟩⟩
  · rfl
  · by_cases quote : c = 39 <;>
      simp [contractionPattern, quotedLetter, quotedLetters, contraction, quote, folded, firstMatch, ends]
  · simp only [contractionPattern, firstMatch_alt, quotedLetter, quotedLetters, firstMatch_cls_seq, folded,
      firstMatch_cls, contraction, beq_iff_eq, ne_eq]
    by_cases quote : c = 39
    · by_cases short : foldCase first = 115 ∨ foldCase first = 116 ∨ foldCase first = 109 ∨ foldCase first = 100
      · rcases short with same | same | same | same <;> simp [quote, same]
      · simp only [not_or] at short
        rcases rest with _ | ⟨second, rest⟩
        · simp [quote, short, firstMatch, ends]
        · simp only [firstMatch_cls, beq_iff_eq]
          by_cases long : (foldCase first = 114 ∧ foldCase second = 101) ∨
              (foldCase first = 118 ∧ foldCase second = 101) ∨ (foldCase first = 108 ∧ foldCase second = 108)
          · rcases long with ⟨same, next⟩ | ⟨same, next⟩ | ⟨same, next⟩ <;> simp [quote, same, next]
          · simp only [not_or, not_and] at long
            obtain ⟨re, ve, ll⟩ := long
            by_cases r : foldCase first = 114
            · simp [quote, r, re r]
            by_cases v : foldCase first = 118
            · simp [quote, v, ve v]
            by_cases l : foldCase first = 108
            · simp [quote, l, ll l]
            · simp [quote, short, r, v, l]
    · simp [quote]

theorem newline_space (ranges : List UnicodeRange) {c : Nat} (newline : isNewline c = true) :
    getUnicodeCategory ranges c = .whitespace := by
  simp only [isNewline, Bool.or_eq_true, beq_iff_eq] at newline
  rcases newline with rfl | rfl <;> rfl

theorem outOfRange_flags (ranges : List UnicodeRange) :
    getCptFlags ranges OUT_OF_RANGE = ⟨false, false, false, false, false⟩ := if_pos rfl

/-- The next codepoint, or the end of the text, opens a run of letters and marks. -/
theorem nextWord (ranges : List UnicodeRange) {rest : List Nat} (inRange : ∀ x ∈ rest, x ≠ OUT_OF_RANGE) :
    firstMatch (plus (letterMark ranges)) rest =
      if (getCptFlags ranges (rest.headD OUT_OF_RANGE)).isAccentMark ||
          (getCptFlags ranges (rest.headD OUT_OF_RANGE)).isLetter then
        some (rest.dropWhile (letterMark ranges)) else none := by
  rcases rest with _ | ⟨d, rest⟩
  · rw [List.headD_nil, outOfRange_flags]
    rfl
  · rw [firstMatch_plus, List.headD_cons, flags_eq ranges (inRange d (by simp))]
    by_cases inside : letterMark ranges d = true
    · have either : (mark ranges d || letter ranges d) = true := by rwa [letterMark, Bool.or_comm] at inside
      simp [inside, either]
    · have neither : (mark ranges d || letter ranges d) = false := by
        rw [Bool.not_eq_true, letterMark, Bool.or_comm] at inside
        exact inside
      simp [inside, neither]

theorem word_match (ranges : List UnicodeRange) {c : Nat} {rest : List Nat}
    (inRange : ∀ x ∈ c :: rest, x ≠ OUT_OF_RANGE) : firstMatch (wordPattern ranges) (c :: rest) =
      if wordAhead ranges c (rest.headD OUT_OF_RANGE) then some (rest.dropWhile (letterMark ranges)) else none := by
  rw [wordPattern, firstMatch_opt_seq, firstMatch_plus, nextWord ranges fun x held => inRange x (by simp [held]),
    wordAhead, flags_eq ranges (inRange c (by simp))]
  generalize getCptFlags ranges (rest.headD OUT_OF_RANGE) = next
  by_cases newline : isNewline c = true
  · have cat := newline_space ranges newline
    have other : letterMark ranges c = false := by simp [letterMark, letter, mark, cat]
    simp only [isNewline, Bool.or_eq_true, beq_iff_eq] at newline
    rcases newline with rfl | rfl <;> simp [other]
  · simp only [isNewline, Bool.or_eq_true, beq_iff_eq, not_or] at newline
    obtain ⟨cr, lf⟩ := newline
    rcases ahead : next.isAccentMark || next.isLetter with _ | _ <;>
      cases cat : getUnicodeCategory ranges c <;>
        simp_all [letterMark, letter, mark, number]

theorem symbol_match (ranges : List UnicodeRange) (c : Nat) (rest : List Nat) :
    firstMatch (symbolPattern ranges) (c :: rest) =
      if c = 32 then
        if symbol ranges (rest.headD 32) then some ((rest.dropWhile (symbol ranges)).dropWhile isNewline)
        else none
      else if symbol ranges c then some ((rest.dropWhile (symbol ranges)).dropWhile isNewline) else none := by
  have run (d : Nat) (later : List Nat) :
      firstMatch (.seq (plus (symbol ranges)) (.many isNewline)) (d :: later) =
        if symbol ranges d then some ((later.dropWhile (symbol ranges)).dropWhile isNewline) else none := by
    rw [plus, firstMatch_seq_assoc, firstMatch_cls_seq, firstMatch_many_total _ _ (by simp [firstMatch_many]),
      firstMatch_many]
  have blank : symbol ranges 32 = false := by
    simp [symbol, ascii_space ranges 32 (by simp)]
  rw [symbolPattern, firstMatch_opt_seq, run]
  by_cases space : c = 32
  · subst space
    rcases rest with _ | ⟨d, later⟩
    · simp [blank, firstMatch, ends, plus]
    · rw [run]
      by_cases inside : symbol ranges d = true <;> simp [blank, inside]
  · simp [space]

/-- Where the last line break of a run ends, from the front. -/
def newlineEnd : List Nat → Nat
  | [] => 0
  | c :: rest => if 0 < newlineEnd rest then newlineEnd rest + 1 else if isNewline c then 1 else 0

theorem lastNewlineEnd_eq (run : List Nat) : lastNewlineEnd run = newlineEnd run := by
  have scan (run : List Nat) (seen : Nat × Nat) : (run.foldl (fun (seen : Nat × Nat) c =>
      (seen.1 + 1, if isNewline c then seen.1 + 1 else seen.2)) seen).2 =
        if 0 < newlineEnd run then seen.1 + newlineEnd run else seen.2 := by
    induction run generalizing seen with
    | nil => rfl
    | cons c rest ih =>
        rw [List.foldl_cons, ih, newlineEnd]
        by_cases later : 0 < newlineEnd rest
        · simp only [later, if_true, Nat.succ_pos]
          omega
        · by_cases newline : isNewline c = true <;> simp [later, newline]
  have whole := scan run (0, 0)
  rw [Nat.zero_add] at whole
  refine whole.trans ?_
  split <;> omega

theorem newline_match (ranges : List UnicodeRange) (text : List Nat) :
    firstMatch (newlinePattern ranges) text =
      if 0 < newlineEnd (text.takeWhile (space ranges)) then
        some (text.drop (newlineEnd (text.takeWhile (space ranges)))) else none := by
  induction text with
  | nil => rfl
  | cons c rest ih =>
      rw [newlinePattern] at ih ⊢
      rw [firstMatch_many_seq, ih, firstMatch_plus]
      by_cases blank : space ranges c = true
      · rw [if_pos blank, List.takeWhile_cons_of_pos blank, newlineEnd]
        by_cases later : 0 < newlineEnd (rest.takeWhile (space ranges))
        · simp [later]
        · by_cases newline : isNewline c = true
          · have stops : rest.dropWhile isNewline = rest := by
              rcases rest with _ | ⟨d, rest⟩
              · rfl
              · have plain : isNewline d = false := by
                  by_contra broken
                  rw [Bool.not_eq_false] at broken
                  have inside : space ranges d = true := by simp [space, newline_space ranges broken]
                  rw [List.takeWhile_cons_of_pos inside, newlineEnd] at later
                  split at later <;> simp_all
                simp [plain]
            simp [later, newline, stops]
          · simp [later, newline]
      · have plain : isNewline c = false := by
          by_contra broken
          rw [Bool.not_eq_false] at broken
          exact blank (by simp [space, newline_space ranges broken])
        simp [blank, plain, newlineEnd]

theorem trailing_match (ranges : List UnicodeRange) (c : Nat) (rest : List Nat) :
    firstMatch (trailingPattern ranges) (c :: rest) =
      if space ranges c then
        if rest.dropWhile (space ranges) = [] then some []
        else if rest.takeWhile (space ranges) = [] then none
        else some (rest.drop ((rest.takeWhile (space ranges)).length - 1))
      else none := by
  have run (text : List Nat) :
      firstMatch (.seq (.many (space ranges)) (.notAhead fun c => !space ranges c)) text =
        if text.dropWhile (space ranges) = [] then some []
        else if text.takeWhile (space ranges) = [] then none
        else some (text.drop ((text.takeWhile (space ranges)).length - 1)) := by
    induction text with
    | nil => rfl
    | cons c rest ih =>
        rw [firstMatch_many_seq, ih]
        by_cases blank : space ranges c = true
        · have here : firstMatch (.notAhead fun c => !space ranges c) (c :: rest) = some (c :: rest) := by
            simp [firstMatch, ends, blank]
          rw [here]
          by_cases last : rest.dropWhile (space ranges) = []
          · simp [blank, last]
          · rcases shape : rest.takeWhile (space ranges) with _ | ⟨d, later⟩
            · simp [blank, last, shape]
            · simp [blank, last, shape]
        · have here : firstMatch (.notAhead fun c => !space ranges c) (c :: rest) = none := by
            simp [firstMatch, ends, blank]
          simp [blank, here]
  rw [trailingPattern, plus, firstMatch_seq_assoc, firstMatch_cls_seq, run]

theorem takeWhile_congr {α : Type} {first second : α → Bool} {text : List α}
    (same : ∀ x ∈ text, first x = second x) : text.takeWhile first = text.takeWhile second := by
  induction text with
  | nil => rfl
  | cons c rest ih =>
      have tail := ih fun x held => same x (List.mem_cons_of_mem _ held)
      rw [List.takeWhile_cons, List.takeWhile_cons, same c (by simp), tail]

section Turn
variable {ranges : List UnicodeRange} {c : Nat} {rest : List Nat}
  (inRange : ∀ x ∈ c :: rest, x ≠ OUT_OF_RANGE)
include inRange

/-- At a blank, the three blank alternatives leave what the loop leaves. -/
theorem whitespace_match (blank : space ranges c = true) :
    ((firstMatch (newlinePattern ranges) (c :: rest)).or ((firstMatch (trailingPattern ranges) (c :: rest)).or
      (firstMatch (plus (space ranges)) (c :: rest)))) =
        some ((c :: rest).drop (whitespaceLength ranges (c :: rest))) := by
  have run : ((c :: rest).takeWhile fun x => (getCptFlags ranges x).isWhitespace) =
      (c :: rest).takeWhile (space ranges) :=
    takeWhile_congr fun x held => by rw [flags_eq ranges (inRange x held)]
  have left := drop_run (space ranges) (c :: rest)
  rw [newline_match, trailing_match, firstMatch_plus, whitespaceLength, run, lastNewlineEnd_eq,
    left, List.takeWhile_cons_of_pos blank, List.dropWhile_cons_of_pos blank]
  split
  · rfl
  rw [Option.none_or, List.length_cons]
  have atEnd : (rest.dropWhile (space ranges)).headD OUT_OF_RANGE ≠ OUT_OF_RANGE ↔
      rest.dropWhile (space ranges) ≠ [] := by
    rcases shape : rest.dropWhile (space ranges) with _ | ⟨d, later⟩
    · simp
    · have held : d ∈ rest := (List.dropWhile_suffix (space ranges)).subset (by simp [shape])
      simpa using inRange d (List.mem_cons_of_mem _ held)
  simp only [atEnd]
  by_cases last : rest.dropWhile (space ranges) = []
  · have all : rest.takeWhile (space ranges) = rest := by
      simpa [last] using List.takeWhile_append_dropWhile (p := space ranges) (l := rest)
    simp [last, all]
  · have tail := drop_run (space ranges) rest
    rcases shape : rest.takeWhile (space ranges) with _ | ⟨d, later⟩
    · rw [shape, List.length_nil, List.drop_zero] at tail
      rw [← tail] at last
      simp [last, ← tail]
    · simp [last]

/-- What the pattern's first match leaves. -/
def patternLeft (ranges : List UnicodeRange) (c : Nat) (rest : List Nat) : List Nat :=
  if 0 < contraction (c :: rest) then (c :: rest).drop (contraction (c :: rest))
  else if wordAhead ranges c (rest.headD OUT_OF_RANGE) then rest.dropWhile (letterMark ranges)
  else if number ranges c then rest
  else if symbol ranges (if c = 32 then rest.headD 32 else c) then
    (rest.dropWhile (symbol ranges)).dropWhile isNewline
  else (c :: rest).drop (whitespaceLength ranges (c :: rest))

omit inRange in
theorem class_cases (ranges : List UnicodeRange) (c : Nat) : letterMark ranges c = true ∨
    number ranges c = true ∨ symbol ranges c = true ∨ space ranges c = true := by
  cases cat : getUnicodeCategory ranges c <;> simp [letterMark, letter, mark, number, symbol, space, cat]

/-- What the first four alternatives leave is a blank. -/
theorem space_of_turn (word : ¬ wordAhead ranges c (rest.headD OUT_OF_RANGE) = true)
    (digit : ¬ number ranges c = true) (ahead : ¬ symbol ranges (if c = 32 then rest.headD 32 else c) = true) :
    space ranges c = true := by
  rcases class_cases ranges c with inside | inside | inside | inside
  · refine absurd ?_ word
    rw [wordAhead, flags_eq ranges (inRange c (by simp))]
    have plain : isNewline c = false := by
      by_contra broken
      rw [Bool.not_eq_false] at broken
      simp [letterMark, letter, mark, newline_space ranges broken] at inside
    rw [letterMark] at inside
    simp only [isNewline, Bool.or_eq_false_iff, beq_eq_false_iff_ne] at plain
    rw [Bool.not_eq_true] at digit
    simp [plain, digit, inside]
  · exact absurd inside digit
  · by_cases blank : c = 32
    · subst blank
      exact ascii_space ranges 32 (by simp)
    · rw [if_neg blank] at ahead
      exact absurd inside ahead
  · exact inside

/-- The pattern matches at every codepoint. -/
theorem pattern_match : firstMatch (qwenPattern ranges) (c :: rest) = some (patternLeft ranges c rest) := by
  rw [qwenPattern, firstMatch_alt, firstMatch_alt, firstMatch_alt, firstMatch_alt, firstMatch_alt,
    firstMatch_alt, contraction_match, word_match ranges inRange, firstMatch_cls, symbol_match, patternLeft]
  by_cases contracted : 0 < contraction (c :: rest)
  · rw [if_pos contracted, if_pos contracted, Option.some_or]
  rw [if_neg contracted, if_neg contracted, Option.none_or]
  by_cases word : wordAhead ranges c (rest.headD OUT_OF_RANGE) = true
  · rw [if_pos word, if_pos word, Option.some_or]
  rw [if_neg word, if_neg word, Option.none_or]
  by_cases digit : number ranges c = true
  · rw [if_pos digit, if_pos digit, Option.some_or]
  rw [if_neg digit, if_neg digit, Option.none_or]
  by_cases ahead : symbol ranges (if c = 32 then rest.headD 32 else c) = true
  · rw [if_pos ahead]
    by_cases blank : c = 32
    · rw [if_pos blank] at ahead ⊢
      rw [if_pos ahead, Option.some_or]
    · rw [if_neg blank] at ahead ⊢
      rw [if_pos ahead, Option.some_or]
  · have missed : (if c = 32 then
          if symbol ranges (rest.headD 32) then some ((rest.dropWhile (symbol ranges)).dropWhile isNewline)
          else none
        else if symbol ranges c then some ((rest.dropWhile (symbol ranges)).dropWhile isNewline) else none) =
        none := by
      by_cases blank : c = 32
      · rw [if_pos blank] at ahead
        rw [if_pos blank, if_neg ahead]
      · rw [if_neg blank] at ahead
        rw [if_neg blank, if_neg ahead]
    rw [if_neg ahead, missed, Option.none_or]
    exact whitespace_match inRange (space_of_turn inRange word digit ahead)

end Turn

/-- Two neighbours that the loop parts and the pattern does not. -/
def Torn (ranges : List UnicodeRange) (c d : Nat) : Prop :=
  (unclassed ranges d = true ∧ (c = 32 ∨ symbol ranges c = true)) ∨
    (unclassed ranges c = true ∧ (symbol ranges d = true ∨ isNewline d = true))

instance (ranges : List UnicodeRange) (c d : Nat) : Decidable (Torn ranges c d) :=
  inferInstanceAs (Decidable (_ ∨ _))

/-- No two neighbours are torn apart. -/
def Whole (ranges : List UnicodeRange) (cpts : List Nat) : Prop :=
  cpts.IsChain fun c d => ¬ Torn ranges c d

section Torn
variable {ranges : List UnicodeRange}

theorem unclassed_symbol {c : Nat} (plain : unclassed ranges c = true) : symbol ranges c = true := by
  simp only [unclassed, beq_iff_eq] at plain
  simp [symbol, space, letter, mark, number, plain]

theorem newline_plain {c : Nat} (newline : isNewline c = true) :
    symbol ranges c = false ∧ unclassed ranges c = false ∧ c ≠ 32 := by
  have cat := newline_space ranges newline
  refine ⟨by simp [symbol, space, cat], by simp [unclassed, cat], ?_⟩
  rintro rfl
  revert newline
  decide

theorem letterMark_plain {c : Nat} (inside : letterMark ranges c = true) :
    symbol ranges c = false ∧ unclassed ranges c = false ∧ c ≠ 32 ∧ isNewline c = false := by
  have apart : ∀ x, getUnicodeCategory ranges x = .whitespace → letterMark ranges x = false := fun x cat => by
    simp [letterMark, letter, mark, cat]
  refine ⟨?_, ?_, ?_, ?_⟩
  · cases cat : getUnicodeCategory ranges c <;>
      simp_all [letterMark, letter, mark, symbol]
  · cases cat : getUnicodeCategory ranges c <;>
      simp_all [letterMark, letter, mark, unclassed]
  · rintro rfl
    rw [apart 32 rfl] at inside
    cases inside
  · by_contra newline
    rw [Bool.not_eq_false] at newline
    rw [apart c (newline_space ranges newline)] at inside
    cases inside

theorem not_torn_left {c d : Nat} (plain : symbol ranges c = false) (blank : c ≠ 32) :
    ¬ Torn ranges c d := by
  rintro (⟨_, same | inside⟩ | ⟨other, _⟩)
  · exact blank same
  · rw [plain] at inside
    cases inside
  · rw [unclassed_symbol other] at plain
    cases plain

theorem not_torn_right {c d : Nat} (inside : letterMark ranges d = true) : ¬ Torn ranges c d := by
  obtain ⟨plain, classed, _, newline⟩ := letterMark_plain inside
  rintro (⟨other, _⟩ | ⟨_, held | held⟩)
  · rw [classed] at other
    cases other
  · rw [plain] at held
    cases held
  · rw [newline] at held
    cases held

theorem not_torn_classed {c d : Nat} (first : unclassed ranges c = false) (second : unclassed ranges d = false) :
    ¬ Torn ranges c d := by
  rintro (⟨other, _⟩ | ⟨other, _⟩)
  · rw [second] at other
    cases other
  · rw [first] at other
    cases other

theorem whole_word (c : Nat) {run : List Nat} (inside : ∀ d ∈ run, letterMark ranges d = true) :
    Whole ranges (c :: run) := by
  induction run generalizing c with
  | nil => exact List.isChain_singleton c
  | cons d run ih =>
      refine List.isChain_cons_cons.mpr ⟨not_torn_right (inside d (by simp)), ?_⟩
      exact ih d fun x held => inside x (List.mem_cons_of_mem _ held)

theorem whole_classed {piece : List Nat} (classed : ∀ c ∈ piece, unclassed ranges c = false) :
    Whole ranges piece := by
  induction piece with
  | nil => exact List.isChain_nil
  | cons c rest ih =>
      refine List.isChain_cons.mpr ⟨fun d next => ?_, ih fun x held => classed x (List.mem_cons_of_mem _ held)⟩
      exact not_torn_classed (classed c (by simp)) (classed d (List.mem_cons_of_mem _ (List.mem_of_mem_head? next)))

end Torn

/-- A contraction is an apostrophe and letters. -/
theorem contraction_letters (ranges : List UnicodeRange) {text : List Nat} (front : 0 < contraction text) :
    ∃ letters : List Nat, letters ≠ [] ∧ (∀ c ∈ letters, letterMark ranges c = true) ∧
      text.take (contraction text) = 39 :: letters := by
  have folded : ∀ c, foldCase c ∈ [115, 116, 109, 100, 114, 101, 118, 108] → letterMark ranges c = true := by
    intro c listed
    have small : c < 128 := by
      unfold foldCase at listed
      split at listed
      · omega
      · simp only [List.mem_cons, List.not_mem_nil, or_false] at listed
        omega
    have all : ∀ n, n < 128 → foldCase n ∈ [115, 116, 109, 100, 114, 101, 118, 108] →
        category (ASCII_CATEGORIES.getD n 0) = .letter := by decide
    have cat : getUnicodeCategory ranges c = .letter := by
      rw [getUnicodeCategory, if_pos small]
      exact all c small listed
    simp [letterMark, letter, cat]
  rcases text with _ | ⟨c, _ | ⟨first, rest⟩⟩
  · simp [contraction] at front
  · simp [contraction] at front
  · simp only [contraction] at front ⊢
    by_cases quote : c = 39
    · by_cases short : foldCase first = 115 ∨ foldCase first = 116 ∨ foldCase first = 109 ∨ foldCase first = 100
      · refine ⟨[first], by simp, ?_, ?_⟩
        · simp only [List.mem_singleton, forall_eq]
          refine folded first ?_
          rcases short with same | same | same | same <;> simp [same]
        · simp [quote, short]
      · rcases rest with _ | ⟨second, rest⟩
        · simp [quote, short] at front
        · by_cases long : (foldCase first = 114 ∧ foldCase second = 101) ∨
              (foldCase first = 118 ∧ foldCase second = 101) ∨ (foldCase first = 108 ∧ foldCase second = 108)
          · refine ⟨[first, second], by simp, ?_, ?_⟩
            · simp only [List.mem_cons, List.not_mem_nil, or_false, forall_eq_or_imp, forall_eq]
              rcases long with ⟨same, next⟩ | ⟨same, next⟩ | ⟨same, next⟩ <;>
                exact ⟨folded first (by simp [same]), folded second (by simp [next])⟩
            · simp [quote, short, long]
          · simp [quote, short, long] at front
    · simp [quote] at front

theorem take_two {α : Type} (first second : α → Bool) (text : List α) :
    text.take ((text.takeWhile first).length +
      ((text.drop (text.takeWhile first).length).takeWhile second).length) =
        text.takeWhile first ++ (text.dropWhile first).takeWhile second := by
  rw [List.take_add, take_run, take_run, drop_run]

theorem drop_two {α : Type} (first second : α → Bool) (text : List α) :
    text.drop ((text.takeWhile first).length +
      ((text.drop (text.takeWhile first).length).takeWhile second).length) =
        (text.dropWhile first).dropWhile second := by
  rw [← List.drop_drop, drop_run, drop_run]

/-- A prefix no longer than a run lies in the run. -/
theorem take_run_short {α : Type} {accepts : α → Bool} {text : List α} {n : Nat}
    (short : n ≤ (text.takeWhile accepts).length) : text.take n = (text.takeWhile accepts).take n := by
  rw [← take_run, List.take_take, Nat.min_eq_left short]

theorem mem_take_run {α : Type} {accepts : α → Bool} {text : List α} {n : Nat}
    (short : n ≤ (text.takeWhile accepts).length) {x : α} (held : x ∈ text.take n) : accepts x = true := by
  rw [take_run_short short] at held
  exact List.mem_takeWhile_imp (List.mem_of_mem_take held)

section Turn
variable {ranges : List UnicodeRange} {c : Nat} {rest : List Nat}
  (inRange : ∀ x ∈ c :: rest, x ≠ OUT_OF_RANGE)
include inRange

omit inRange in
/-- A symbol turn of the loop: its piece and what it leaves. -/
theorem symbolLength_piece (c : Nat) (rest : List Nat) : (c :: rest).take (symbolLength ranges (c :: rest)) =
      (if c = 32 then [c] else []) ++
        ((if c = 32 then rest else c :: rest).takeWhile (isSymbolPart ranges) ++
          ((if c = 32 then rest else c :: rest).dropWhile (isSymbolPart ranges)).takeWhile isNewline) ∧
    (c :: rest).drop (symbolLength ranges (c :: rest)) =
      ((if c = 32 then rest else c :: rest).dropWhile (isSymbolPart ranges)).dropWhile isNewline := by
  unfold symbolLength
  by_cases blank : c = 32
  · simp only [List.headD_cons, blank, if_true, Nat.add_comm 1, List.drop_succ_cons, List.drop_zero]
    simp only [Nat.add_right_comm _ 1, List.take_succ_cons, List.drop_succ_cons, take_two,
      drop_two]
    exact ⟨rfl, trivial⟩
  · simp only [List.headD_cons, blank, if_false, Nat.zero_add, List.drop_zero, take_two, drop_two]
    exact ⟨rfl, trivial⟩

omit inRange in
theorem whitespaceLength_cases (text : List Nat) :
    whitespaceLength ranges text ≤ (text.takeWhile fun x => (getCptFlags ranges x).isWhitespace).length ∨
      whitespaceLength ranges text = 1 := by
  have last := lastNewlineEnd_le (text.takeWhile fun x => (getCptFlags ranges x).isWhitespace)
  unfold whitespaceLength
  dsimp only
  split
  · exact Or.inl last
  split
  · exact Or.inl (Nat.sub_le _ _)
  split
  · exact Or.inl (Nat.le_refl _)
  · exact Or.inr rfl

/-- No neighbours inside a piece of the loop are torn. -/
theorem piece_whole : Whole ranges ((c :: rest).take (pieceLength ranges (c :: rest))) := by
  have classed {x : Nat} (held : x ∈ c :: rest) : unclassed ranges x = !(getCptFlags ranges x).valid := by
    rw [flags_eq ranges (inRange x held)]
    simp
  unfold pieceLength
  dsimp only
  split
  · rename_i front
    obtain ⟨letters, _, inside, piece⟩ := contraction_letters ranges front
    rw [piece]
    exact whole_word 39 inside
  split
  · rw [Nat.add_comm, List.take_succ_cons, take_run]
    refine whole_word c fun d held => ?_
    have part := List.mem_takeWhile_imp held
    have known := (List.takeWhile_prefix (isWordPart ranges)).subset held
    rwa [isWordPart_eq ranges (inRange d (List.mem_cons_of_mem _ known))] at part
  split
  · exact List.isChain_singleton c
  split
  · rename_i ahead
    refine whole_classed fun x held => ?_
    have known := List.mem_of_mem_take held
    rw [(symbolLength_piece c rest).1, List.mem_append, List.mem_append] at held
    rcases held with lead | run | breaks
    · split at lead
      · rename_i blank
        rw [List.mem_singleton] at lead
        rw [lead, blank]
        rfl
      · cases lead
    · have part := List.mem_takeWhile_imp run
      rw [isSymbolPart_eq ranges (inRange x known), Bool.and_eq_true, Bool.not_eq_true'] at part
      exact part.2
    · exact (newline_plain (List.mem_takeWhile_imp breaks)).2.1
  · rcases @whitespaceLength_cases ranges (c :: rest) with short | single
    · refine whole_classed fun x held => ?_
      have blank := mem_take_run short held
      have known := List.mem_of_mem_take held
      rw [flags_eq ranges (inRange x known)] at blank
      simp only [space, beq_iff_eq] at blank
      simp [unclassed, blank]
    · rw [single]
      exact List.isChain_singleton c

omit inRange in
theorem newlineEnd_last {run : List Nat} (filled : 0 < newlineEnd run) :
    ∃ front x, run.take (newlineEnd run) = front ++ [x] ∧ isNewline x = true := by
  induction run with
  | nil => exact absurd filled (Nat.lt_irrefl 0)
  | cons d run ih =>
      rw [newlineEnd] at filled ⊢
      by_cases later : 0 < newlineEnd run
      · obtain ⟨front, x, split, newline⟩ := ih later
        exact ⟨d :: front, x, by simp [later, split], newline⟩
      · by_cases newline : isNewline d = true
        · exact ⟨[], d, by simp [later, newline], newline⟩
        · simp [later, newline] at filled

/-- No torn neighbours where a piece ends and the rest begins. -/
def Sealed (ranges : List UnicodeRange) (piece left : List Nat) : Prop :=
  ∀ last ∈ piece.getLast?, ∀ next ∈ left.head?, ¬ Torn ranges last next

omit inRange in
/-- A piece that ends in a run of neither blanks nor symbols. -/
theorem sealed_of_run {accepts : Nat → Bool} (plain : ∀ x, accepts x = true → symbol ranges x = false ∧ x ≠ 32)
    (front : List Nat) {run : List Nat} (left : List Nat) (filled : run ≠ []) (inside : ∀ x ∈ run, accepts x = true) :
    Sealed ranges (front ++ run) left := by
  intro last ends next _
  rw [Option.mem_def, List.getLast?_append_of_ne_nil front filled] at ends
  obtain ⟨symbols, other⟩ := plain last (inside last (List.mem_of_getLast? ends))
  exact not_torn_left symbols other

omit inRange in
theorem letterMark_ends (x : Nat) (inside : letterMark ranges x = true) : symbol ranges x = false ∧ x ≠ 32 :=
  ⟨(letterMark_plain inside).1, (letterMark_plain inside).2.2.1⟩

omit inRange in
theorem newline_ends (x : Nat) (newline : isNewline x = true) : symbol ranges x = false ∧ x ≠ 32 :=
  ⟨(@newline_plain ranges x newline).1, (@newline_plain ranges x newline).2.2⟩

omit inRange in
theorem space_plain {x : Nat} (inside : space ranges x = true) : symbol ranges x = false ∧ unclassed ranges x = false := by
  simp only [space, beq_iff_eq] at inside
  simp [symbol, space, unclassed, inside]

omit inRange in
/-- A lone blank, with no further one behind it. -/
theorem blank_sealed (blank : space ranges c = true) (ahead : c = 32 → symbol ranges (rest.headD 32) = false) :
    Sealed ranges [c] rest := by
  intro last ends next starts
  have here : c = last := by simpa using ends
  subst here
  rintro (⟨other, bare | inside⟩ | ⟨other, _⟩)
  · have follows : rest.headD 32 = next := by rw [List.headD_eq_head?_getD, starts, Option.getD_some]
    have missed := ahead bare
    rw [follows, unclassed_symbol other] at missed
    cases missed
  · rw [(space_plain blank).1] at inside
    cases inside
  · rw [(space_plain blank).2] at other
    cases other

omit inRange in
/-- The run of blanks but its last one, which the next turn begins with. -/
theorem blanks_sealed (text : List Nat) (more : 0 < (text.takeWhile (space ranges)).length) :
    Sealed ranges (text.take ((text.takeWhile (space ranges)).length - 1))
      (text.drop ((text.takeWhile (space ranges)).length - 1)) := by
  intro last ends next starts
  have first : space ranges last = true := mem_take_run (Nat.sub_le _ 1) (List.mem_of_getLast? ends)
  have second : space ranges next = true := by
    have whole := List.takeWhile_append_dropWhile (p := space ranges) (l := text)
    have bound : (text.takeWhile (space ranges)).length - 1 < (text.takeWhile (space ranges)).length :=
      Nat.sub_lt more Nat.one_pos
    have inside := @List.getElem?_append_left _ _ (text.dropWhile (space ranges)) _ bound
    rw [whole, ← List.head?_drop, starts] at inside
    exact List.mem_takeWhile_imp (List.mem_of_getElem? inside.symm)
  exact not_torn_classed (space_plain first).2 (space_plain second).2

/-- At a blank the pattern leaves no torn neighbours behind. -/
theorem whitespace_sealed (blank : space ranges c = true) (ahead : c = 32 → symbol ranges (rest.headD 32) = false) :
    Sealed ranges ((c :: rest).take (whitespaceLength ranges (c :: rest)))
      ((c :: rest).drop (whitespaceLength ranges (c :: rest))) := by
  have run : ((c :: rest).takeWhile fun x => (getCptFlags ranges x).isWhitespace) =
      (c :: rest).takeWhile (space ranges) :=
    takeWhile_congr fun x held => by rw [flags_eq ranges (inRange x held)]
  rw [whitespaceLength, run, lastNewlineEnd_eq]
  split
  · rename_i newlines
    obtain ⟨front, x, split, newline⟩ := newlineEnd_last newlines
    have short := lastNewlineEnd_le ((c :: rest).takeWhile (space ranges))
    rw [lastNewlineEnd_eq] at short
    rw [take_run_short short, split]
    exact sealed_of_run newline_ends front _ (List.cons_ne_nil x []) fun y held => List.mem_singleton.mp held ▸ newline
  have left := drop_run (space ranges) (c :: rest)
  split
  · exact blanks_sealed _ (by omega)
  · rename_i more
    rw [left] at more
    rw [List.takeWhile_cons_of_pos blank, List.length_cons] at more left ⊢
    rw [if_pos (Nat.succ_pos _), left, List.dropWhile_cons_of_pos blank]
    rw [List.dropWhile_cons_of_pos blank] at more
    rcases shape : rest.dropWhile (space ranges) with _ | ⟨d, later⟩
    · exact fun last _ next starts => by cases starts
    -- A codepoint follows, so the run is this blank alone.
    have held : d ∈ rest := (List.dropWhile_suffix (space ranges)).subset (by simp [shape])
    have following : (rest.dropWhile (space ranges)).headD OUT_OF_RANGE ≠ OUT_OF_RANGE := by
      rw [shape]
      exact inRange d (List.mem_cons_of_mem _ held)
    have single : rest.takeWhile (space ranges) = [] := by
      have short : ¬ 1 < (rest.takeWhile (space ranges)).length + 1 := fun longer => more ⟨longer, following⟩
      exact List.length_eq_zero_iff.mp (by omega)
    have same : rest.dropWhile (space ranges) = rest := by
      simpa [single] using List.takeWhile_append_dropWhile (p := space ranges) (l := rest)
    rw [single, ← shape, same]
    exact blank_sealed blank ahead

/-- A word turn takes a letter or a mark. -/
theorem wordAhead_takes (word : wordAhead ranges c (rest.headD OUT_OF_RANGE) = true) :
    letterMark ranges c = true ∨ rest.takeWhile (letterMark ranges) ≠ [] := by
  rw [wordAhead, flags_eq ranges (inRange c (by simp)), Bool.and_eq_true] at word
  rcases rest with _ | ⟨d, rest⟩
  · rw [List.headD_nil, outOfRange_flags] at word
    left
    simpa [letterMark] using word.2
  · rw [List.headD_cons, flags_eq ranges (inRange d (by simp))] at word
    rcases here : letterMark ranges c with _ | _
    · right
      have next : letterMark ranges d = true := by
        rw [letterMark] at here
        simpa [here, letterMark, or_comm] using word.2
      simp [next]
    · exact Or.inl rfl

/-- Every letter or mark that the first codepoint leads, or the first one where none follows. -/
theorem word_sealed (word : wordAhead ranges c (rest.headD OUT_OF_RANGE) = true) :
    Sealed ranges (c :: rest.takeWhile (letterMark ranges)) (rest.dropWhile (letterMark ranges)) := by
  by_cases none : rest.takeWhile (letterMark ranges) = []
  · have here := (wordAhead_takes inRange word).resolve_right (not_not_intro none)
    rw [none]
    exact sealed_of_run letterMark_ends [] _ (List.cons_ne_nil c []) fun x held => List.mem_singleton.mp held ▸ here
  · exact sealed_of_run letterMark_ends [c] _ none fun x held => List.mem_takeWhile_imp held

omit inRange in
/-- A symbol turn ends in line breaks, or where neither a symbol nor a line break follows. -/
theorem symbols_sealed : Sealed ranges
    (c :: (rest.takeWhile (symbol ranges) ++ (rest.dropWhile (symbol ranges)).takeWhile isNewline))
    ((rest.dropWhile (symbol ranges)).dropWhile isNewline) := by
  by_cases none : (rest.dropWhile (symbol ranges)).takeWhile isNewline = []
  · have stays : (rest.dropWhile (symbol ranges)).dropWhile isNewline = rest.dropWhile (symbol ranges) := by
      simpa [none] using List.takeWhile_append_dropWhile (p := isNewline) (l := rest.dropWhile (symbol ranges))
    have beyond := List.head?_dropWhile_not (symbol ranges) rest
    have further := List.head?_dropWhile_not isNewline (rest.dropWhile (symbol ranges))
    intro last _ next starts
    rw [Option.mem_def, stays] at starts
    rw [stays, starts] at further
    rw [starts] at beyond
    dsimp only at beyond further
    rintro (⟨other, _⟩ | ⟨_, held | held⟩)
    · rw [unclassed_symbol other] at beyond
      cases beyond
    · rw [beyond] at held
      cases held
    · rw [further] at held
      cases held
  · rw [← List.cons_append]
    exact sealed_of_run newline_ends _ _ none fun x held => List.mem_takeWhile_imp held

/-- The pattern's first match and what it leaves, without torn neighbours between. -/
theorem pattern_sealed : ∃ piece, piece ≠ [] ∧ c :: rest = piece ++ patternLeft ranges c rest ∧
    Sealed ranges piece (patternLeft ranges c rest) := by
  unfold patternLeft
  by_cases front : 0 < contraction (c :: rest)
  · rw [if_pos front]
    obtain ⟨letters, filled, inside, piece⟩ := contraction_letters ranges front
    refine ⟨39 :: letters, by simp, ?_, sealed_of_run letterMark_ends [39] _ filled inside⟩
    rw [← piece, List.take_append_drop]
  rw [if_neg front]
  by_cases word : wordAhead ranges c (rest.headD OUT_OF_RANGE) = true
  · rw [if_pos word]
    exact ⟨c :: rest.takeWhile (letterMark ranges), by simp, by simp, word_sealed inRange word⟩
  rw [if_neg word]
  by_cases digit : number ranges c = true
  · rw [if_pos digit]
    have ends (x : Nat) (same : decide (x = c) = true) : symbol ranges x = false ∧ x ≠ 32 := by
      obtain rfl := of_decide_eq_true same
      refine ⟨by simp [symbol, digit], ?_⟩
      rintro rfl
      revert digit
      exact fun impossible => by cases impossible
    exact ⟨[c], by simp, by simp, sealed_of_run ends [] _ (List.cons_ne_nil c []) (by simp)⟩
  rw [if_neg digit]
  by_cases ahead : symbol ranges (if c = 32 then rest.headD 32 else c) = true
  · rw [if_pos ahead]
    exact ⟨c :: (rest.takeWhile (symbol ranges) ++ (rest.dropWhile (symbol ranges)).takeWhile isNewline),
      by simp, by simp, symbols_sealed⟩
  · rw [if_neg ahead]
    have moves := (whitespaceLength_bounds ranges (List.cons_ne_nil c rest)).1
    refine ⟨(c :: rest).take (whitespaceLength ranges (c :: rest)), ?_, (List.take_append_drop _ _).symm, ?_⟩
    · obtain ⟨n, grow⟩ := Nat.exists_eq_succ_of_ne_zero (Nat.pos_iff_ne_zero.mp moves)
      simp [grow]
    · apply whitespace_sealed inRange (space_of_turn inRange word digit ahead)
      intro blank
      rw [if_pos blank] at ahead
      exact Bool.not_eq_true _ ▸ ahead

omit inRange in
/-- Behind a space or a symbol, whole text has no unclassed codepoint to stop a run at. -/
theorem run_classed {c : Nat} {text : List Nat} (inText : ∀ x ∈ text, x ≠ OUT_OF_RANGE)
    (opens : c = 32 ∨ symbol ranges c = true) (whole : Whole ranges (c :: text)) :
    text.dropWhile (isSymbolPart ranges) = text.dropWhile (symbol ranges) := by
  induction text generalizing c with
  | nil => rfl
  | cons d text ih =>
      obtain ⟨here, later⟩ := List.isChain_cons_cons.mp whole
      have classed : unclassed ranges d = false := by
        by_contra broken
        rw [Bool.not_eq_false] at broken
        exact here (Or.inl ⟨broken, opens⟩)
      have part : isSymbolPart ranges d = symbol ranges d := by
        rw [isSymbolPart_eq ranges (inText d (by simp)), classed, Bool.not_false, Bool.and_true]
      by_cases inside : symbol ranges d = true
      · rw [List.dropWhile_cons_of_pos (part ▸ inside), List.dropWhile_cons_of_pos inside]
        exact ih (fun x held => inText x (List.mem_cons_of_mem _ held)) (Or.inr inside) later
      · rw [List.dropWhile_cons_of_neg (part ▸ inside), List.dropWhile_cons_of_neg inside]

/-- Where the symbol turns of the loop and of the pattern agree. -/
theorem symbol_agrees (whole : Whole ranges (c :: rest)) (filled : rest ≠ []) :
    (if symbolAhead ranges c (rest.headD OUT_OF_RANGE) then
        (c :: rest).drop (symbolLength ranges (c :: rest))
      else (c :: rest).drop (whitespaceLength ranges (c :: rest))) =
      if symbol ranges (if c = 32 then rest.headD 32 else c) then
        (rest.dropWhile (symbol ranges)).dropWhile isNewline
      else (c :: rest).drop (whitespaceLength ranges (c :: rest)) := by
  have inText : ∀ x ∈ rest, x ≠ OUT_OF_RANGE := fun x held => inRange x (List.mem_cons_of_mem _ held)
  rw [(symbolLength_piece c rest).2, symbolAhead, flags_eq ranges (inRange c (by simp))]
  by_cases blank : c = 32
  · rcases rest with _ | ⟨d, later⟩
    · exact absurd rfl filled
    · have classed : unclassed ranges 32 = false := rfl
      simp only [blank, if_true, List.headD_cons, notWsLmNum_eq ranges (inText d (by simp)), classed,
        Bool.not_false, Bool.and_true, run_classed inText (Or.inl blank) whole]
  · simp only [blank, if_false, notWsLmNum_eq ranges (inRange c (by simp))]
    by_cases inside : symbol ranges c = true
    · have run := run_classed inText (Or.inr inside) whole
      have part := isSymbolPart_eq ranges (inRange c (by simp))
      rcases classed : unclassed ranges c with _ | _
      · rw [inside, classed, Bool.not_false, Bool.and_true] at part
        simp only [inside, Bool.not_false, Bool.and_true, if_true, List.dropWhile_cons_of_pos part, run]
      · -- The loop takes the codepoint alone, and whole text has no symbol or line break behind it.
        have single : whitespaceLength ranges (c :: rest) = 1 := by
          have outside : (getCptFlags ranges c).isWhitespace = false := by
            simp only [unclassed, beq_iff_eq] at classed
            rw [flags_eq ranges (inRange c (by simp)), space, classed]
            rfl
          simp [whitespaceLength, outside, lastNewlineEnd]
        rcases rest with _ | ⟨d, later⟩
        · exact absurd rfl filled
        · have apart := (List.isChain_cons_cons.mp whole).1
          have stops : symbol ranges d = false ∧ isNewline d = false := by
            constructor <;> by_contra broken <;> rw [Bool.not_eq_false] at broken
            · exact apart (Or.inr ⟨classed, Or.inl broken⟩)
            · exact apart (Or.inr ⟨classed, Or.inr broken⟩)
          simp [inside, single, stops]
    · simp [inside]

/-- A turn of the loop over whole text leaves what the pattern leaves. -/
theorem turn_agrees (whole : Whole ranges (c :: rest)) :
    (c :: rest).drop (pieceLength ranges (c :: rest)) = patternLeft ranges c rest := by
  by_cases filled : rest = []
  · subst filled
    obtain ⟨moves, stays⟩ := pieceLength_bounds ranges (List.cons_ne_nil c [])
    obtain ⟨piece, nonempty, split, _⟩ := @pattern_sealed ranges c [] inRange
    have size := congrArg List.length split
    have front := List.length_pos_of_ne_nil nonempty
    rw [List.length_append, List.length_singleton] at size
    have nothing : patternLeft ranges c [] = [] := List.length_eq_zero_iff.mp (by omega)
    rw [nothing, List.drop_eq_nil_of_le moves]
  · have parts : rest.takeWhile (isWordPart ranges) = rest.takeWhile (letterMark ranges) :=
      takeWhile_congr fun x held => isWordPart_eq ranges (inRange x (List.mem_cons_of_mem _ held))
    have digit : (getCptFlags ranges c).isNumber = number ranges c := by
      rw [flags_eq ranges (inRange c (by simp))]
    rw [patternLeft, ← symbol_agrees inRange whole filled, pieceLength, digit]
    split
    · rfl
    split
    · rw [Nat.add_comm, List.drop_succ_cons, parts, drop_run]
    split
    · rfl
    split <;> rfl

end Turn

/-- Over the text left at any position. -/
theorem splitLoop_iff {ranges : List UnicodeRange} {fuel : Nat} (start : Nat) {text : List Nat}
    (inRange : ∀ x ∈ text, x ≠ OUT_OF_RANGE) (enough : text.length ≤ fuel) :
    splitLoop ranges fuel start text = successive (qwenPattern ranges) fuel start text ↔ Whole ranges text := by
  induction fuel generalizing start text with
  | zero =>
      rw [List.length_eq_zero_iff.mp (Nat.le_zero.mp enough)]
      exact ⟨fun _ => List.isChain_nil, fun _ => rfl⟩
  | succ fuel ih =>
      rcases text with _ | ⟨c, rest⟩
      · exact ⟨fun _ => List.isChain_nil, fun _ => rfl⟩
      obtain ⟨piece, filled, split, sealed⟩ := @pattern_sealed ranges c rest inRange
      obtain ⟨moves, stays⟩ := pieceLength_bounds ranges (List.cons_ne_nil c rest)
      have size := congrArg List.length split
      have front := List.length_pos_of_ne_nil filled
      rw [List.length_append] at size
      have taken : (c :: rest).length - (patternLeft ranges c rest).length = piece.length := by omega
      have inLeft : ∀ x ∈ patternLeft ranges c rest, x ≠ OUT_OF_RANGE := fun x held =>
        inRange x (split ▸ List.mem_append_right piece held)
      have later := ih (start + piece.length) inLeft (by omega)
      simp only [splitLoop, successive, pattern_match inRange, taken, if_neg (Nat.ne_of_gt front)]
      constructor
      · intro same
        obtain ⟨here, tails⟩ := List.cons.inj same
        have length : pieceLength ranges (c :: rest) = piece.length := by
          have last := (Prod.mk.inj here).2
          omega
        have cut : Whole ranges ((c :: rest).take (pieceLength ranges (c :: rest))) := piece_whole inRange
        rw [length, split, List.take_left] at cut
        rw [length, split, List.drop_left] at tails
        exact split ▸ cut.append (later.mp tails) sealed
      · intro whole
        have left := turn_agrees inRange whole
        have length : pieceLength ranges (c :: rest) = piece.length := by
          have dropped := congrArg List.length left
          rw [List.length_drop] at dropped
          omega
        have tail : Whole ranges (patternLeft ranges c rest) := left ▸ List.IsChain.drop whole _
        rw [left, length, later.mpr tail]

/-- The pieces of the split are the pattern's successive matches on whole text alone. -/
theorem splitQwen35_matches_iff (ranges : List UnicodeRange) (cpts : List Nat)
    (inRange : ∀ x ∈ cpts, x ≠ OUT_OF_RANGE) :
    splitQwen35 ranges cpts = successiveMatches (qwenPattern ranges) cpts ↔ Whole ranges cpts :=
  splitLoop_iff 0 inRange (Nat.le_refl _)

/-- A word, a control character behind a letter, a contraction and trailing blanks. -/
theorem splitQwen35_matches_sample : (∀ x ∈ [97, 1, 98, 39, 83, 32, 32, 10], x ≠ OUT_OF_RANGE) ∧
    splitQwen35 [⟨0xaa, 0xaa, .letter⟩] [97, 1, 98, 39, 83, 32, 32, 10] =
      successiveMatches (qwenPattern [⟨0xaa, 0xaa, .letter⟩]) [97, 1, 98, 39, 83, 32, 32, 10] := by
  have inRange : ∀ x ∈ [97, 1, 98, 39, 83, 32, 32, 10], x ≠ OUT_OF_RANGE := by decide
  refine ⟨inRange, (splitQwen35_matches_iff _ _ inRange).mpr ?_⟩
  unfold Whole
  decide

/-- A space before a control character is parted from it by the loop. -/
theorem spacedControl_parted : splitQwen35 [⟨0xaa, 0xaa, .letter⟩] [32, 1] = [(0, 1), (1, 2)] ∧
    successiveMatches (qwenPattern [⟨0xaa, 0xaa, .letter⟩]) [32, 1] = [(0, 2)] := by
  decide

end XInfer.PreTokenizerRegex
