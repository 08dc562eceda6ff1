import XInfer.ChatRequests
import XInfer.HashTable
import XInfer.Occurrences

/-!
Multipart forms as RFC 7578 writes them, against `parse_multipart_form_data` of `serve/protocol.cpp`.
The parser searches for the delimiter without the line break in front of it, and for an empty line in
whatever a part holds. On a written form both searches end where the writer put them, because no
boundary holds a line break and no header block an empty line.
-/

namespace XInfer.MultipartForms

open Primitives ByteString ChatRequests
open Occurrences (prefix_append_cases)

def crlf : Bytes := [13, 10]

section Forms

/-- `bchars` of RFC 2046. -/
def isBoundaryChar (c : UInt8) : Bool :=
  (decide (48 ≤ c) && decide (c ≤ 57)) || (decide (65 ≤ c) && decide (c ≤ 90)) ||
    (decide (97 ≤ c) && decide (c ≤ 122)) || (ascii "'()+_,-./:=? ").contains c

structure Boundary (boundary : Bytes) : Prop where
  nonempty : boundary ≠ []
  chars : ∀ c ∈ boundary, isBoundaryChar c = true

structure FormPart where
  headers : Bytes
  data : Bytes
  deriving DecidableEq

/-- One line or more with line breaks between them, and no line is blank. -/
structure HeaderBlock (headers : Bytes) : Prop where
  nonempty : headers ≠ []
  starts : ¬ crlf <+: headers
  unbroken : ¬ Contains (crlf ++ crlf) headers
  ends : ¬ crlf <:+ headers

structure FormPart.Sound (boundary : Bytes) (part : FormPart) : Prop where
  block : HeaderBlock part.headers
  headersBare : ¬ Contains (ascii "--" ++ boundary) part.headers
  dataBare : ¬ Contains (ascii "--" ++ boundary) part.data

def FormPart.serialise (boundary : Bytes) (part : FormPart) : Bytes :=
  ascii "--" ++ boundary ++ crlf ++ part.headers ++ crlf ++ crlf ++ part.data ++ crlf

/-- The parts and the closing delimiter. What stands behind that is an epilogue. -/
def serialise (boundary : Bytes) (parts : List FormPart) (epilogue : Bytes) : Bytes :=
  parts.flatMap (·.serialise boundary) ++ (ascii "--" ++ boundary ++ (ascii "--" ++ epilogue))

/-- What the parser should make of a part. -/
def FormPart.parsed (part : FormPart) : MultipartPart :=
  (part.headers.splitOn 10).foldl readHeader { data := part.data }

end Forms

section Searches

/-- A byte that the pattern does not hold ends the search in front of it. -/
theorem find_past {pattern front : Bytes} {c : UInt8} (nonempty : pattern ≠ []) (outside : c ∉ pattern)
    (bare : ¬ Contains pattern front) (rest : Bytes) :
    find pattern (front ++ c :: rest) = (find pattern rest).map (· + (front.length + 1)) := by
  rw [contains_iff] at bare
  have cut : front ++ c :: rest = (front ++ [c]) ++ rest := by rw [List.append_assoc, List.singleton_append]
  rw [cut, find_clear, List.length_append, List.length_singleton]
  intro part some' suffix begins
  rcases List.suffix_concat_iff.mp suffix with empty | ⟨inner, rfl, within⟩
  · exact some' empty
  · rw [List.append_assoc, List.singleton_append] at begins
    rcases prefix_append_cases begins with inside | ⟨more, some'', rfl, follows⟩
    · exact bare (inside.isInfix.trans within.isInfix)
    · -- the pattern would go on with the byte
      obtain ⟨d, more, rfl⟩ := List.exists_cons_of_ne_nil some''
      obtain ⟨rfl, _⟩ := List.cons_prefix_cons.mp follows
      exact outside (by simp)

/-- The empty line behind a header block is the first one. -/
theorem find_blankLine {headers : Bytes} (block : HeaderBlock headers) (rest : Bytes) :
    find (ascii "\r\n\r\n") (headers ++ (crlf ++ crlf ++ rest)) = some headers.length := by
  have pattern : ascii "\r\n\r\n" = crlf ++ crlf := rfl
  have here : find (crlf ++ crlf) (crlf ++ crlf ++ rest) = some 0 := find_front ⟨rest, rfl⟩
  rw [pattern, find_clear, here, Option.map_some, Nat.zero_add]
  intro part nonempty suffix begins
  rcases prefix_append_cases begins with inside | ⟨more, some', split, follows⟩
  · exact block.unbroken ((contains_iff _ _).mpr (inside.isInfix.trans suffix.isInfix))
  · -- only a line break can stand for both the front and the back of an empty line
    match part with
    | [] => exact nonempty rfl
    | [a] =>
        have back : more = [10, 13, 10] := by simpa [crlf] using (List.cons.inj split).2.symm
        simp [back, crlf] at follows
    | [a, b] =>
        have front : [a, b] = crlf := by
          simp only [crlf, List.cons_append, List.nil_append, List.cons.injEq] at split
          simp [crlf, ← split.1, ← split.2.1]
        exact block.ends (front ▸ suffix)
    | [a, b, c] =>
        have back : more = [10] := by
          simp only [crlf, List.cons_append, List.nil_append, List.cons.injEq] at split
          exact split.2.2.2.symm
        simp [back, crlf] at follows
    | a :: b :: c :: d :: part =>
        have size := congrArg List.length split
        have positive := List.length_pos_iff.mpr some'
        simp only [crlf, List.length_append, List.length_cons, List.length_nil] at size
        omega

end Searches

section Parsing

theorem trimBreak_crlf (data : Bytes) : trimBreak (data ++ crlf) = data := by
  have ends : endsWith (data ++ crlf) (ascii "\r\n") = true :=
    List.isSuffixOf_iff_suffix.mpr ⟨data, rfl⟩
  have size : (data ++ crlf).length - 2 = data.length := by simp [crlf]
  rw [trimBreak, if_pos ends, size, List.take_left]

theorem readPart_written {part : FormPart} (block : HeaderBlock part.headers) :
    readPart (part.headers ++ (crlf ++ crlf ++ (part.data ++ crlf))) = some part.parsed := by
  have cut : part.headers ++ (crlf ++ crlf ++ (part.data ++ crlf)) =
      (part.headers ++ (crlf ++ crlf)) ++ (part.data ++ crlf) := by simp only [List.append_assoc]
  have behind : part.headers.length + 4 = (part.headers ++ (crlf ++ crlf)).length := by simp [crlf]
  simp only [readPart, find_blankLine block, Option.map_some, List.take_left]
  rw [behind, cut, List.drop_left, trimBreak_crlf]
  rfl

variable {boundary : Bytes} (bounded : Boundary boundary)
include bounded

theorem delim_plain : ∀ c ∈ ascii "--" ++ boundary, c ≠ 10 ∧ c ≠ 13 := by
  have marks : ∀ c : UInt8, isBoundaryChar c = true → c ≠ 10 ∧ c ≠ 13 := by
    intro c char
    constructor
    · rintro rfl
      exact absurd char (by decide)
    · rintro rfl
      exact absurd char (by decide)
  intro c member
  rcases List.mem_append.mp member with dash | inside
  · have dashes : c = 45 := by simpa [ascii] using dash
    exact dashes ▸ (by decide)
  · exact marks c (bounded.chars c inside)

/-- Behind a part's line break the next delimiter is the one that the writer put there. -/
theorem find_delimiter {part : FormPart} (sound : part.Sound boundary) (rest : Bytes) :
    find (ascii "--" ++ boundary)
        (part.headers ++ (crlf ++ crlf ++ (part.data ++ (crlf ++ (ascii "--" ++ boundary ++ rest))))) =
      some (part.headers ++ (crlf ++ crlf ++ (part.data ++ crlf))).length := by
  have nonempty : ascii "--" ++ boundary ≠ [] := by simp [ascii]
  have outside : (13 : UInt8) ∉ ascii "--" ++ boundary := fun inside => (delim_plain bounded 13 inside).2 rfl
  have outside' : (10 : UInt8) ∉ ascii "--" ++ boundary := fun inside => (delim_plain bounded 10 inside).1 rfl
  have empty : ¬ Contains (ascii "--" ++ boundary) [] := by
    rw [contains_iff, List.infix_nil]
    exact nonempty
  have here : find (ascii "--" ++ boundary) (ascii "--" ++ boundary ++ rest) = some 0 := find_front ⟨rest, rfl⟩
  -- the bytes of a line break, one after the other
  have past (front more : Bytes) (bare : ¬ Contains (ascii "--" ++ boundary) front) :
      find (ascii "--" ++ boundary) (front ++ (crlf ++ more)) =
        (find (ascii "--" ++ boundary) more).map (· + (front.length + 2)) := by
    have second := find_past nonempty outside' empty more
    rw [List.nil_append, List.length_nil] at second
    have open' : crlf ++ more = 13 :: 10 :: more := rfl
    rw [open', find_past nonempty outside bare, second, Option.map_map]
    congr 1
    funext pos
    rw [Function.comp_apply]
    omega
  have blank := past [] (part.data ++ (crlf ++ (ascii "--" ++ boundary ++ rest))) empty
  rw [List.nil_append] at blank
  rw [List.append_assoc crlf crlf, past _ _ sound.headersBare, blank, past _ _ sound.dataBare, here]
  simp only [Option.map_some, List.length_append, List.length_nil, crlf, List.length_cons, Option.some.injEq]
  omega

/-- What the parser stands in front of, behind a delimiter. -/
def behind (boundary epilogue : Bytes) : List FormPart → Bytes
  | [] => ascii "--" ++ epilogue
  | part :: rest => crlf ++ (part.headers ++ (crlf ++ crlf ++
      (part.data ++ (crlf ++ (ascii "--" ++ boundary ++ behind boundary epilogue rest)))))

omit bounded in
theorem serialise_behind (epilogue : Bytes) (parts : List FormPart) :
    serialise boundary parts epilogue = ascii "--" ++ boundary ++ behind boundary epilogue parts := by
  induction parts with
  | nil => rfl
  | cons part rest ih =>
      rw [serialise] at ih
      simp only [serialise, List.flatMap_cons, FormPart.serialise, behind, List.append_assoc] at ih ⊢
      rw [ih]

theorem partsLoop_written (epilogue : Bytes) {parts : List FormPart}
    (sound : ∀ part ∈ parts, part.Sound boundary) {fuel : Nat} (enough : parts.length < fuel) :
    partsLoop (ascii "--" ++ boundary) fuel (behind boundary epilogue parts) = parts.map (·.parsed) := by
  induction parts generalizing fuel with
  | nil =>
      obtain ⟨fuel, rfl⟩ := Nat.exists_eq_succ_of_ne_zero (Nat.ne_of_gt enough)
      rfl
  | cons part rest ih =>
      obtain ⟨fuel, rfl⟩ := Nat.exists_eq_succ_of_ne_zero (Nat.ne_of_gt (Nat.zero_lt_of_lt enough))
      have here := sound part List.mem_cons_self
      have later := ih (fun other held => sound other (List.mem_cons_of_mem part held))
        (Nat.lt_of_succ_lt_succ enough)
      have inner (text : Bytes) : (crlf ++ text).take 2 = crlf ∧ (crlf ++ text).drop 2 = text := ⟨rfl, rfl⟩
      -- the two bytes behind a delimiter are a line break here
      have notDashes : ¬ crlf = ascii "--" := by decide
      rw [behind, partsLoop, (inner _).1, (inner _).2, if_neg notDashes, if_pos (show crlf = ascii "\r\n" from rfl)]
      simp only [find_delimiter bounded here]
      have cut (back : Bytes) : part.headers ++ (crlf ++ crlf ++ (part.data ++ (crlf ++ back))) =
          (part.headers ++ (crlf ++ crlf ++ (part.data ++ crlf))) ++ back := by simp only [List.append_assoc]
      rw [cut, List.take_left, readPart_written here.block, ← List.drop_drop, List.drop_left,
        List.drop_left, later]
      rfl

theorem parse_written (epilogue : Bytes) {parts : List FormPart}
    (sound : ∀ part ∈ parts, part.Sound boundary) :
    parseMultipartFormData (serialise boundary parts epilogue) boundary = .ok (parts.map (·.parsed)) := by
  have unquoted : ¬ (2 ≤ boundary.length ∧ boundary.head? = some 34 ∧ boundary.getLast? = some 34) := by
    rintro ⟨_, quote, _⟩
    have char := bounded.chars 34 (List.mem_of_mem_head? quote)
    exact absurd char (by decide)
  have here : find (ascii "--" ++ boundary) (ascii "--" ++ boundary ++ behind boundary epilogue parts) = some 0 :=
    find_front ⟨_, rfl⟩
  have room (others : List FormPart) : others.length < (ascii "--" ++ boundary ++
      behind boundary epilogue others).length := by
    induction others with
    | nil => simp [ascii]
    | cons part rest ih =>
        have break' : crlf.length = 2 := rfl
        simp only [behind, List.length_append, List.length_cons] at ih ⊢
        omega
  rw [parseMultipartFormData, if_neg bounded.nonempty, if_neg unquoted, serialise_behind]
  simp only [here, Nat.zero_add, List.drop_left]
  rw [partsLoop_written bounded epilogue sound (room parts)]

omit bounded in
/-- No header line touches the data. -/
theorem readHeader_data (part : MultipartPart) (raw : Bytes) : (readHeader part raw).data = part.data := by
  unfold readHeader
  dsimp only
  generalize (if raw.getLast? = some 13 then raw.dropLast else raw) = line
  cases find (ascii ":") line with
  | none => rfl
  | some colon =>
      dsimp only
      split_ifs
      · rfl
      · rfl
      · rfl

omit bounded in
theorem parsed_data (part : FormPart) : part.parsed.data = part.data :=
  HashTable.foldl_frame (·.data) readHeader readHeader_data _ _

/-- Every written form is read back part by part, with the data as it was. -/
theorem parse_serialise (epilogue : Bytes) (parts : List FormPart)
    (sound : ∀ part ∈ parts, part.Sound boundary) :
    ∃ parsed, parseMultipartFormData (serialise boundary parts epilogue) boundary = .ok parsed ∧
      parsed.map (·.data) = parts.map (·.data) := by
  refine ⟨parts.map (·.parsed), parse_written bounded epilogue sound, ?_⟩
  rw [List.map_map]
  exact List.map_congr_left fun part _ => parsed_data part

omit bounded in
/-- Two parts of which the second holds line breaks and an empty line. -/
theorem parse_serialise_two :
    let parts : List FormPart := [⟨ascii "a: b", []⟩, ⟨ascii "c:", ascii "\r\n\r\n-\r\n"⟩]
    ∃ parsed, parseMultipartFormData (serialise (ascii "X-") parts crlf) (ascii "X-") = .ok parsed ∧
      parsed.map (·.data) = parts.map (·.data) := by
  refine parse_serialise ⟨by decide, by decide⟩ crlf _ ?_
  have block : HeaderBlock (ascii "a: b") ∧ HeaderBlock (ascii "c:") :=
    ⟨⟨by decide, by decide, by decide, by decide⟩, ⟨by decide, by decide, by decide, by decide⟩⟩
  rw [List.forall_mem_cons, List.forall_mem_singleton]
  exact ⟨⟨block.1, by decide, by decide⟩, ⟨block.2, by decide, by decide⟩⟩

end Parsing

end XInfer.MultipartForms
