import XInfer.Primitives

/-!
`split_qwen35` of `targets/qwen3_8/tokenizer.cpp` with the category lookup of
`unicode_table.h`. The generated ranges beyond ASCII are a parameter: no result
depends on what they say. A position is the text from there on, as the loop never
looks back.
-/

namespace XInfer.PreTokenizer

inductive Category
  | other
  | letter
  | number
  | mark
  | whitespace
  | punct
  | symbol
  deriving DecidableEq

def category : Nat → Category
  | 1 => .letter
  | 2 => .number
  | 3 => .mark
  | 4 => .whitespace
  | 5 => .punct
  | 6 => .symbol
  | _ => .other

structure UnicodeRange where
  first : Nat
  last : Nat
  cat : Category

def ASCII_CATEGORIES : List Nat := [
  0, 0, 0, 0, 0, 0, 0, 0, 0, 4, 4, 4, 4, 4, 0, 0,
  0, 0, 0, 0, 0, 0, 0, 0, 0, 0, 0, 0, 0, 0, 0, 0,
  4, 5, 5, 5, 6, 5, 5, 5, 5, 5, 5, 6, 5, 5, 5, 5,
  2, 2, 2, 2, 2, 2, 2, 2, 2, 2, 5, 5, 6, 6, 6, 5,
  5, 1, 1, 1, 1, 1, 1, 1, 1, 1, 1, 1, 1, 1, 1, 1,
  1, 1, 1, 1, 1, 1, 1, 1, 1, 1, 1, 5, 5, 5, 6, 5,
  6, 1, 1, 1, 1, 1, 1, 1, 1, 1, 1, 1, 1, 1, 1, 1,
  1, 1, 1, 1, 1, 1, 1, 1, 1, 1, 1, 5, 6, 5, 6, 0]

/-- `upper_bound` over the sorted ranges answers the one after the last that starts
at or below the codepoint. -/
def getUnicodeCategory (ranges : List UnicodeRange) (cp : Nat) : Category :=
  if cp < 128 then category (ASCII_CATEGORIES.getD cp 0)
  else if 0x110000 ≤ cp then .other
  else match (ranges.takeWhile fun range => decide (range.first ≤ cp)).getLast? with
    | none => .other
    | some range => if range.first ≤ cp ∧ cp ≤ range.last then range.cat else .other

def OUT_OF_RANGE : Nat := 0xFFFFFFFF

structure CptFlags where
  isLetter : Bool
  isNumber : Bool
  isAccentMark : Bool
  isWhitespace : Bool
  valid : Bool
  deriving DecidableEq

def getCptFlags (ranges : List UnicodeRange) (cp : Nat) : CptFlags :=
  if cp = OUT_OF_RANGE then ⟨false, false, false, false, false⟩
  else
    let cat := getUnicodeCategory ranges cp
    let ws := cat == .whitespace ||
      (cp == 32 || cp == 9 || cp == 13 || cp == 10 || cp == 11 || cp == 12)
    ⟨cat == .letter, cat == .number, cat == .mark, ws, cat != .other || ws⟩

def foldCase (c : Nat) : Nat := if 65 ≤ c ∧ c ≤ 90 then c + 32 else c

def isNewline (c : Nat) : Bool := c == 13 || c == 10

/-- The length of a contraction at the front, zero for none. -/
def contraction : List Nat → Nat
  | apostrophe :: first :: rest =>
      let c1 := foldCase first
      if apostrophe ≠ 39 then 0
      else if c1 = 115 ∨ c1 = 116 ∨ c1 = 109 ∨ c1 = 100 then 2
      else match rest with
        | [] => 0
        | second :: _ =>
            let c2 := foldCase second
            if (c1 = 114 ∧ c2 = 101) ∨ (c1 = 118 ∧ c2 = 101) ∨ (c1 = 108 ∧ c2 = 108) then 3 else 0
  | _ => 0

/-- Where the last line break of a run ends, zero for none. -/
def lastNewlineEnd (run : List Nat) : Nat :=
  (run.foldl (fun (seen : Nat × Nat) c =>
    (seen.1 + 1, if isNewline c then seen.1 + 1 else seen.2)) (0, 0)).2

section Split
variable (ranges : List UnicodeRange)

def isWordPart (c : Nat) : Bool := (getCptFlags ranges c).isLetter || (getCptFlags ranges c).isAccentMark

/-- `[^\s\p{L}\p{M}\p{N}]` as the flags tell it. -/
def notWsLmNum (flags : CptFlags) : Bool :=
  !(flags.isWhitespace || flags.isLetter || flags.isAccentMark || flags.isNumber)

def isSymbolPart (c : Nat) : Bool := notWsLmNum (getCptFlags ranges c) && (getCptFlags ranges c).valid

/-- The three whitespace branches, and the single codepoint that nothing else takes. -/
def whitespaceLength (text : List Nat) : Nat :=
  let run := text.takeWhile fun c => (getCptFlags ranges c).isWhitespace
  if 0 < lastNewlineEnd run then lastNewlineEnd run
  else if 1 < run.length ∧ (text.drop run.length).headD OUT_OF_RANGE ≠ OUT_OF_RANGE then run.length - 1
  else if 0 < run.length then run.length
  else 1

/-- The test of the symbol branch, made behind a leading space. -/
def symbolAhead (cpt next : Nat) : Bool :=
  notWsLmNum (getCptFlags ranges (if cpt = 32 then next else cpt)) && (getCptFlags ranges cpt).valid

/-- A leading space, the symbols and the line breaks after them. -/
def symbolLength (text : List Nat) : Nat :=
  let lead := if text.headD OUT_OF_RANGE = 32 then 1 else 0
  let symbols := (text.drop lead).takeWhile (isSymbolPart ranges)
  let breaks := (text.drop (lead + symbols.length)).takeWhile isNewline
  lead + symbols.length + breaks.length

/-- A letter or a mark here, or behind one codepoint that may open a word. -/
def wordAhead (cpt next : Nat) : Bool :=
  cpt != 13 && cpt != 10 && !(getCptFlags ranges cpt).isNumber &&
    ((getCptFlags ranges cpt).isLetter || (getCptFlags ranges cpt).isAccentMark ||
      (getCptFlags ranges next).isAccentMark || (getCptFlags ranges next).isLetter)

/-- How far one turn of the loop moves `pos`. -/
def pieceLength : List Nat → Nat
  | [] => 0
  | cpt :: rest =>
      let next := rest.headD OUT_OF_RANGE
      if 0 < contraction (cpt :: rest) then contraction (cpt :: rest)
      else if wordAhead ranges cpt next then 1 + (rest.takeWhile (isWordPart ranges)).length
      else if (getCptFlags ranges cpt).isNumber then 1
      else if symbolAhead ranges cpt next then symbolLength ranges (cpt :: rest)
      else whitespaceLength ranges (cpt :: rest)

/-- The loop with `prev_end`; every turn moves on, so every turn adds a piece. -/
def splitLoop : Nat → Nat → List Nat → List (Nat × Nat)
  | 0, _, _ => []
  | _ + 1, _, [] => []
  | fuel + 1, prevEnd, cpt :: rest =>
      let length := pieceLength ranges (cpt :: rest)
      (prevEnd, prevEnd + length) :: splitLoop fuel (prevEnd + length) ((cpt :: rest).drop length)

def splitQwen35 (cpts : List Nat) : List (Nat × Nat) := splitLoop ranges cpts.length 0 cpts

end Split

theorem contraction_le (text : List Nat) : contraction text ≤ text.length := by
  rcases text with _ | ⟨c, _ | ⟨first, rest⟩⟩
  · exact Nat.le_refl _
  · exact Nat.zero_le _
  · simp only [contraction, List.length_cons]
    split
    · omega
    split
    · omega
    rcases rest with _ | ⟨second, rest⟩
    · exact Nat.zero_le _
    · dsimp only
      split <;> simp

theorem lastNewlineEnd_le (run : List Nat) : lastNewlineEnd run ≤ run.length := by
  have counted (run : List Nat) (seen : Nat × Nat) (low : seen.2 ≤ seen.1) :
      (run.foldl (fun (seen : Nat × Nat) c =>
        (seen.1 + 1, if isNewline c then seen.1 + 1 else seen.2)) seen).2 ≤ seen.1 + run.length := by
    induction run generalizing seen with
    | nil => exact low
    | cons c rest ih =>
        have step : (if isNewline c then seen.1 + 1 else seen.2) ≤ seen.1 + 1 := by split <;> omega
        have tail := ih (seen.1 + 1, if isNewline c then seen.1 + 1 else seen.2) step
        simp only [List.foldl_cons, List.length_cons]
        omega
  have total := counted run (0, 0) (Nat.le_refl _)
  rwa [Nat.zero_add] at total

section Split
variable (ranges : List UnicodeRange)

theorem whitespaceLength_bounds {text : List Nat} (nonempty : text ≠ []) :
    0 < whitespaceLength ranges text ∧ whitespaceLength ranges text ≤ text.length := by
  have run : (text.takeWhile fun c => (getCptFlags ranges c).isWhitespace).length ≤ text.length :=
    (List.takeWhile_prefix _).length_le
  have last := lastNewlineEnd_le (text.takeWhile fun c => (getCptFlags ranges c).isWhitespace)
  have size := List.length_pos_of_ne_nil nonempty
  unfold whitespaceLength
  dsimp only
  split
  · omega
  split
  · omega
  split <;> omega

theorem symbolLength_bounds {cpt : Nat} {rest : List Nat}
    (ahead : symbolAhead ranges cpt (rest.headD OUT_OF_RANGE) = true) :
    0 < symbolLength ranges (cpt :: rest) ∧ symbolLength ranges (cpt :: rest) ≤ (cpt :: rest).length := by
  unfold symbolLength
  by_cases space : cpt = 32
  · have symbols : (rest.takeWhile (isSymbolPart ranges)).length ≤ rest.length :=
      (List.takeWhile_prefix _).length_le
    have breaks : ((rest.drop (rest.takeWhile (isSymbolPart ranges)).length).takeWhile isNewline).length ≤
        rest.length - (rest.takeWhile (isSymbolPart ranges)).length :=
      List.length_drop ▸ (List.takeWhile_prefix _).length_le
    simp only [List.headD_cons, space, if_true, Nat.add_comm 1, List.drop_succ_cons, List.drop_zero,
      List.length_cons]
    omega
  · have part : isSymbolPart ranges cpt = true := by simpa [symbolAhead, space, isSymbolPart] using ahead
    have symbols : ((cpt :: rest).takeWhile (isSymbolPart ranges)).length ≤ (cpt :: rest).length :=
      (List.takeWhile_prefix _).length_le
    have first : 0 < ((cpt :: rest).takeWhile (isSymbolPart ranges)).length := by simp [part]
    have breaks : (((cpt :: rest).drop ((cpt :: rest).takeWhile (isSymbolPart ranges)).length).takeWhile
        isNewline).length ≤ (cpt :: rest).length - ((cpt :: rest).takeWhile (isSymbolPart ranges)).length :=
      List.length_drop ▸ (List.takeWhile_prefix _).length_le
    simp only [List.headD_cons, space, if_false, Nat.zero_add, List.drop_zero]
    omega

/-- Every turn of the loop moves on, and stays in the text. -/
theorem pieceLength_bounds {text : List Nat} (nonempty : text ≠ []) :
    0 < pieceLength ranges text ∧ pieceLength ranges text ≤ text.length := by
  rcases text with _ | ⟨cpt, rest⟩
  · exact absurd rfl nonempty
  unfold pieceLength
  dsimp only
  split
  · rename_i front
    exact ⟨front, contraction_le _⟩
  split
  · have run : (rest.takeWhile (isWordPart ranges)).length ≤ rest.length := (List.takeWhile_prefix _).length_le
    simp only [List.length_cons]
    omega
  split
  · simp
  split
  · rename_i ahead
    exact symbolLength_bounds ranges ahead
  · exact whitespaceLength_bounds ranges nonempty

/-- The pieces of the text from a position on, read back off the whole. -/
theorem splitLoop_partition {fuel : Nat} (front text : List Nat) (enough : text.length ≤ fuel) :
    (splitLoop ranges fuel front.length text).flatMap
      (fun range => ((front ++ text).drop range.1).take (range.2 - range.1)) = text := by
  induction fuel generalizing front text with
  | zero => simp [splitLoop, List.length_eq_zero_iff.mp (Nat.le_zero.mp enough)]
  | succ fuel ih =>
      rcases text with _ | ⟨cpt, rest⟩
      · rfl
      · obtain ⟨moves, stays⟩ := pieceLength_bounds ranges (List.cons_ne_nil cpt rest)
        have piece := List.take_append_drop (pieceLength ranges (cpt :: rest)) (cpt :: rest)
        have later := ih (front ++ (cpt :: rest).take (pieceLength ranges (cpt :: rest)))
          ((cpt :: rest).drop (pieceLength ranges (cpt :: rest)))
          (by simp only [List.length_drop, List.length_cons] at enough ⊢; omega)
        rw [List.append_assoc, piece, List.length_append, List.length_take, Nat.min_eq_left stays] at later
        simp only [splitLoop, List.flatMap_cons, later]
        simp

/-- The split loses no codepoint and repeats none. -/
theorem splitQwen35_partition (cpts : List Nat) :
    (splitQwen35 ranges cpts).flatMap (fun range => (cpts.drop range.1).take (range.2 - range.1)) = cpts :=
  splitLoop_partition ranges [] cpts (Nat.le_refl _)

end Split

end XInfer.PreTokenizer
