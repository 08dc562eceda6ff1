import XInfer.MultipartForms

/-!
The parameters of `Content-Disposition` as `parse_multipart_form_data` reads them. A parameter is found
by a search for its key and the quote behind it, so what the search walks over is the text between two
quotes: `name="` is the end of `filename="` too, and a value may end in a key.
-/

namespace XInfer.Dispositions

open Primitives ByteString ChatRequests MultipartForms
open Occurrences (prefix_append_cases)

section Quotes

/-- Texts with a quote between any two of them. -/
def quoteJoin : List Bytes → Bytes
  | [] => []
  | [segment] => segment
  | segment :: rest => segment ++ 34 :: quoteJoin rest

/-- What stands in quotes behind the first text that ends in the key. -/
def attributed (key : Bytes) : List Bytes → Option Bytes
  | segment :: value :: next :: rest =>
      if key <:+ segment then some value else attributed key (value :: next :: rest)
  | _ => none

theorem quoteJoin_cons (segment : Bytes) {rest : List Bytes} (more : rest ≠ []) :
    quoteJoin (segment :: rest) = segment ++ 34 :: quoteJoin rest := by
  cases rest with
  | nil => exact absurd rfl more
  | cons next rest => rfl

/-- Two texts without the byte that ends them both are one. -/
theorem ended_unique {c : UInt8} {left right back : Bytes} (plain : c ∉ left) (plain' : c ∉ right)
    (begins : left ++ [c] <+: right ++ c :: back) : left = right := by
  obtain ⟨rest, same⟩ := begins
  rw [List.append_assoc, List.singleton_append] at same
  rcases List.append_eq_append_iff.mp same with ⟨more, longer, tail⟩ | ⟨more, longer, tail⟩
  · cases more with
    | nil => rw [longer, List.append_nil]
    | cons d more =>
        obtain ⟨rfl, _⟩ := List.cons.inj tail
        exact absurd (by simp [longer]) plain'
  · cases more with
    | nil => rw [longer, List.append_nil]
    | cons d more =>
        obtain ⟨rfl, _⟩ := List.cons.inj tail
        exact absurd (by simp [longer]) plain

variable {key : Bytes} (plainKey : 34 ∉ key)
include plainKey

theorem find_key {segment : Bytes} (plain : 34 ∉ segment) (back : Bytes) :
    find (key ++ [34]) (segment ++ 34 :: back) =
      if key <:+ segment then some (segment.length - key.length)
      else (find (key ++ [34]) back).map (· + (segment.length + 1)) := by
  split_ifs with ends
  · obtain ⟨front, rfl⟩ := ends
    have here : find (key ++ [34]) (key ++ 34 :: back) = some 0 := find_front ⟨back, by simp⟩
    rw [List.append_assoc, find_clear, here, Option.map_some, Nat.zero_add, List.length_append,
      Nat.add_sub_cancel]
    intro part nonempty suffix begins
    -- an earlier match would end at the same quote
    have inside : 34 ∉ part ++ key := by
      rw [List.mem_append] at plain ⊢
      exact fun held => plain (held.imp_left (suffix.subset ·))
    rw [← List.append_assoc] at begins
    have same := ended_unique plainKey inside begins
    exact nonempty (List.self_eq_append_left.mp same)
  · have cut : segment ++ 34 :: back = (segment ++ [34]) ++ back := by
      rw [List.append_assoc, List.singleton_append]
    rw [cut, find_clear, List.length_append, List.length_singleton]
    intro part nonempty suffix begins
    rcases List.suffix_concat_iff.mp suffix with empty | ⟨inner, rfl, within⟩
    · exact nonempty empty
    · rw [List.append_assoc, List.singleton_append] at begins
      exact ends (ended_unique plainKey (fun held => plain (within.subset held)) begins ▸ within)

omit plainKey in
/-- A front that the search passes over changes no value. -/
theorem quotedValue_skip {label front back : Bytes}
    (skipped : find label (front ++ back) = (find label back).map (· + front.length)) :
    quotedValue label (front ++ back) = quotedValue label back := by
  unfold quotedValue
  rw [skipped]
  cases found : find label back with
  | none => rfl
  | some pos =>
      have start : pos + front.length + label.length = front.length + (pos + label.length) := by omega
      simp only [Option.map_some, findFrom, substr, start, ← List.drop_drop, List.drop_left, Option.map_map]
      congr 1
      funext stop
      have width : stop + (front.length + (pos + label.length)) - (front.length + (pos + label.length)) =
          stop + (pos + label.length) - (pos + label.length) := by omega
      rw [Function.comp_apply, Function.comp_apply, width]

theorem quotedValue_here {segment : Bytes} (plain : 34 ∉ segment) (ends : key <:+ segment) (back : Bytes) :
    quotedValue (key ++ [34]) (segment ++ 34 :: back) =
      (find (ascii "\"") back).map fun stop => back.take stop := by
  have bound := ends.length_le
  have start : segment.length - key.length + (key ++ [34]).length = (segment ++ [34]).length := by
    simp only [List.length_append, List.length_singleton]
    omega
  have cut : segment ++ 34 :: back = (segment ++ [34]) ++ back := by simp
  unfold quotedValue
  rw [find_key plainKey plain, if_pos ends]
  simp only [findFrom, substr, start]
  rw [cut, List.drop_left, Option.map_map]
  congr 1
  funext stop
  rw [Function.comp_apply, Nat.add_sub_cancel]

omit plainKey in
theorem find_unquoted {text : Bytes} (plain : 34 ∉ text) : find (key ++ [34]) text = none := by
  apply find_none
  rw [contains_iff]
  exact fun inside => plain (inside.subset (by simp))

/-- Searched texts and values come in turns, as the parser sees them. -/
theorem quotedValue_segments {segments : List Bytes} (plain : ∀ segment ∈ segments, 34 ∉ segment) :
    quotedValue (key ++ [34]) (quoteJoin segments) = attributed key segments := by
  induction segments with
  | nil =>
      unfold quotedValue
      rw [quoteJoin, find_unquoted List.not_mem_nil]
      rfl
  | cons segment rest ih =>
      have here := plain segment List.mem_cons_self
      have later := ih fun other held => plain other (List.mem_cons_of_mem segment held)
      cases rest with
      | nil =>
          unfold quotedValue
          rw [quoteJoin, find_unquoted here]
          rfl
      | cons value rest =>
          have plainValue := plain value (by simp)
          rw [quoteJoin_cons segment (List.cons_ne_nil value rest)]
          by_cases ends : key <:+ segment
          · -- found: the value ends at the next quote, if there is one
            rw [quotedValue_here plainKey here ends]
            cases rest with
            | nil =>
                have open' : find (ascii "\"") value = none := @find_unquoted [] value plainValue
                rw [quoteJoin, open']
                rfl
            | cons next rest =>
                have closing := find_key (List.not_mem_nil (a := 34)) plainValue (quoteJoin (next :: rest))
                rw [if_pos (List.nil_suffix), List.length_nil, Nat.sub_zero] at closing
                have closing' : find (ascii "\"") (value ++ 34 :: quoteJoin (next :: rest)) = some value.length :=
                  closing
                rw [quoteJoin_cons value (List.cons_ne_nil next rest), closing', Option.map_some, List.take_left,
                  attributed, if_pos ends]
          · have passed := find_key plainKey here (quoteJoin (value :: rest))
            rw [if_neg ends] at passed
            have cut : segment ++ 34 :: quoteJoin (value :: rest) =
                (segment ++ [34]) ++ quoteJoin (value :: rest) := by simp
            have width : segment.length + 1 = (segment ++ [34]).length := by simp
            rw [cut, width] at passed
            rw [cut, quotedValue_skip passed, later]
            cases rest with
            | nil => rfl
            | cons next rest => rw [attributed, if_neg ends]

end Quotes

section Headers

/-- The name and the file name, in the order of the header. The gap stands between the first value and
the second key. -/
inductive Parameters where
  | nameOnly (name : Bytes)
  | nameFirst (name gap filename : Bytes)
  | filenameFirst (filename gap name : Bytes)

namespace Parameters

def name : Parameters → Bytes
  | nameOnly name => name
  | nameFirst name _ _ => name
  | filenameFirst _ _ name => name

def filename : Parameters → Bytes
  | nameOnly _ => []
  | nameFirst _ _ filename => filename
  | filenameFirst filename _ _ => filename

/-- The texts between the quotes of a header value that starts with `lead` and ends with `trail`. -/
def segments (lead trail : Bytes) : Parameters → List Bytes
  | nameOnly name => [lead ++ ascii "name=", name, trail]
  | nameFirst name gap filename =>
      [lead ++ ascii "name=", name, gap ++ ascii "filename=", filename, trail]
  | filenameFirst filename gap name =>
      [lead ++ ascii "filename=", filename, gap ++ ascii "name=", name, trail]

def gap : Parameters → Bytes
  | nameOnly _ => []
  | nameFirst _ gap _ => gap
  | filenameFirst _ gap _ => gap

/-- The name stands first and does not end in the other key. Otherwise the two values have to be such
that the wrong one reads the same. -/
def Attributable : Parameters → Prop
  | nameOnly _ => True
  | nameFirst name gap filename => ¬ ascii "filename=" <:+ name ∨ filename = gap ++ ascii "filename="
  | filenameFirst filename _ name => filename = name

end Parameters

/-- A parameter begins behind the text: it ends in a semicolon or a blank, when there is any. -/
def Separates (text : Bytes) : Prop := ∀ c, text.getLast? = some c → c = 59 ∨ c = 32 ∨ c = 9

/-- A `Content-Disposition` line. -/
structure Disposition where
  label : Bytes
  lead : Bytes
  params : Parameters
  trail : Bytes

def Disposition.line (d : Disposition) : Bytes :=
  d.label ++ ascii ":" ++ quoteJoin (d.params.segments d.lead d.trail)

structure Disposition.WellFormed (d : Disposition) : Prop where
  named : d.label.map toLower = ascii "content-disposition"
  leads : Separates d.lead
  separates : Separates d.params.gap
  plain : ∀ segment ∈ d.params.segments d.lead d.trail, ∀ c ∈ segment, c ≠ 34 ∧ c ≠ 10 ∧ c ≠ 13

theorem suffix_filename {front : Bytes} (separates : Separates front) :
    ¬ ascii "filename=" <:+ front ++ ascii "name=" := by
  rintro ⟨before, same⟩
  have file : ascii "filename=" = ascii "file" ++ ascii "name=" := rfl
  rw [file, ← List.append_assoc] at same
  have front' := List.append_cancel_right same
  have last : front.getLast? = some 101 := by
    rw [← front']
    simp [ascii]
  exact absurd (separates 101 last) (by decide)

theorem suffix_append (front key : Bytes) : key <:+ front ++ key := List.suffix_append front key

theorem name_suffix (front : Bytes) : ascii "name=" <:+ front ++ ascii "filename=" :=
  ⟨front ++ ascii "file", by simp only [List.append_assoc]; rfl⟩

/-- The values that the two searches find, against the header's own. -/
theorem attributed_iff {params : Parameters} {lead trail : Bytes} (leads : Separates lead)
    (separates : Separates params.gap) :
    ((attributed (ascii "name=") (params.segments lead trail)).getD [] = params.name ∧
      (attributed (ascii "filename=") (params.segments lead trail)).getD [] = params.filename) ↔
      params.Attributable := by
  have skipped := suffix_filename leads
  cases params with
  | nameOnly name =>
      simp only [Parameters.segments, attributed, if_pos (suffix_append lead _), if_neg skipped]
      simp [Parameters.name, Parameters.filename, Parameters.Attributable]
  | nameFirst name gap filename =>
      simp only [Parameters.segments, attributed, if_pos (suffix_append lead _), if_neg skipped,
        if_pos (suffix_append gap _)]
      -- a name that ends in the other key is taken for it
      by_cases tail : ascii "filename=" <:+ name
      · simp [Parameters.name, Parameters.filename, Parameters.Attributable, tail, eq_comm]
      · simp [Parameters.name, Parameters.filename, Parameters.Attributable, tail]
  | filenameFirst filename gap name =>
      -- the key of the name is found at the end of the other key
      simp only [Parameters.segments, attributed, if_pos (suffix_append lead _), if_pos (name_suffix lead)]
      simp [Parameters.name, Parameters.filename, Parameters.Attributable]

end Headers

section Lines

def IsDisposition (line : Bytes) : Prop :=
  ∃ label value, line = label ++ ascii ":" ++ value ∧ label.map toLower = ascii "content-disposition"

def isPad (c : UInt8) : Bool := c == 32 || c == 9

theorem label_plain {label name : Bytes} (named : label.map toLower = name) (plain : 58 ∉ name) : 58 ∉ label := by
  intro inside
  apply plain
  rw [← named]
  exact List.mem_map.mpr ⟨58, inside, by decide⟩

theorem readHeader_return (part : MultipartPart) {line : Bytes} (plain : 13 ∉ line) :
    readHeader part (line ++ [13]) = readHeader part line := by
  have bare : line.getLast? ≠ some 13 := fun last => plain (List.mem_of_getLast? last)
  have last : (line ++ [13]).getLast? = some 13 := by simp
  simp only [readHeader, if_pos last, if_neg bare, List.dropLast_concat]

/-- A line of another name leaves both parameters as they were. -/
theorem readHeader_other (part : MultipartPart) {line : Bytes} (plain : 13 ∉ line) (other : ¬ IsDisposition line) :
    (readHeader part line).name = part.name ∧ (readHeader part line).filename = part.filename := by
  have bare : line.getLast? ≠ some 13 := fun last => plain (List.mem_of_getLast? last)
  unfold readHeader
  rw [if_neg bare]
  dsimp only
  cases found : find (ascii ":") line with
  | none => exact ⟨rfl, rfl⟩
  | some colon =>
      dsimp only
      split_ifs with named
      · exact absurd ⟨_, _, find_split _ found, named⟩ other
      · exact ⟨rfl, rfl⟩
      · exact ⟨rfl, rfl⟩

/-- A line of the name sets what the two searches find behind its blanks. -/
theorem readHeader_labelled (part : MultipartPart) {label value : Bytes}
    (named : label.map toLower = ascii "content-disposition") (plain : 13 ∉ label ++ ascii ":" ++ value) :
    let read := readHeader part (label ++ ascii ":" ++ value)
    read.name = (quotedValue (ascii "name=\"") (value.dropWhile isPad)).getD part.name ∧
      read.filename = (quotedValue (ascii "filename=\"") (value.dropWhile isPad)).getD part.filename := by
  have bare : (label ++ ascii ":" ++ value).getLast? ≠ some 13 := fun last => plain (List.mem_of_getLast? last)
  have colon : ascii ":" = [58] := rfl
  have found := find_byte (label_plain named (by decide)) value
  have behind : (label ++ 58 :: value).drop (label.length + 1) = value := by
    rw [← List.drop_drop, List.drop_left]
    rfl
  dsimp only
  unfold readHeader
  rw [if_neg bare, colon, List.append_assoc, List.singleton_append]
  simp only [found, List.take_left, if_pos named, behind]
  exact ⟨rfl, rfl⟩

theorem dropWhile_lead {c : UInt8} (dark : isPad c = false) (lead rest : Bytes) :
    (lead ++ c :: rest).dropWhile isPad = lead.dropWhile isPad ++ c :: rest := by
  induction lead with
  | nil => simp [dark]
  | cons d lead ih =>
      by_cases blank : isPad d = true
      · simp only [List.cons_append, List.dropWhile_cons, blank, if_true]
        exact ih
      · simp [blank]

theorem separates_dropWhile {lead : Bytes} (leads : Separates lead) : Separates (lead.dropWhile isPad) := by
  intro c last
  obtain ⟨front, same⟩ := List.dropWhile_suffix (l := lead) isPad
  apply leads
  rw [← same, List.getLast?_append, last]
  rfl

theorem quoteJoin_dropWhile {c : UInt8} (dark : isPad c = false) (lead key : Bytes) (rest : List Bytes) :
    (quoteJoin ((lead ++ c :: key) :: rest)).dropWhile isPad =
      quoteJoin ((lead.dropWhile isPad ++ c :: key) :: rest) := by
  cases rest with
  | nil => exact dropWhile_lead dark lead key
  | cons next rest =>
      have cut (front : Bytes) : quoteJoin ((front ++ c :: key) :: next :: rest) =
          front ++ c :: (key ++ 34 :: quoteJoin (next :: rest)) := by
        rw [quoteJoin_cons _ (List.cons_ne_nil next rest), List.append_assoc, List.cons_append]
      rw [cut, cut, dropWhile_lead dark]

/-- The first text is the lead and a key, and the others do not depend on the lead. -/
theorem segments_cons (params : Parameters) (trail : Bytes) : ∃ c key rest, isPad c = false ∧
    ∀ lead, params.segments lead trail = (lead ++ c :: key) :: rest := by
  cases params with
  | nameOnly name => exact ⟨110, ascii "ame=", _, rfl, fun _ => rfl⟩
  | nameFirst name gap filename => exact ⟨110, ascii "ame=", _, rfl, fun _ => rfl⟩
  | filenameFirst filename gap name => exact ⟨102, ascii "ilename=", _, rfl, fun _ => rfl⟩

/-- Blanks in front of the value are not part of it. -/
theorem segments_dropWhile (params : Parameters) (lead trail : Bytes) :
    (quoteJoin (params.segments lead trail)).dropWhile isPad =
      quoteJoin (params.segments (lead.dropWhile isPad) trail) := by
  obtain ⟨c, key, rest, dark, shape⟩ := segments_cons params trail
  rw [shape, shape, quoteJoin_dropWhile dark]

theorem mem_segments_dropWhile {params : Parameters} {lead trail segment : Bytes} {c : UInt8}
    (member : segment ∈ params.segments (lead.dropWhile isPad) trail) (inside : c ∈ segment) :
    ∃ other ∈ params.segments lead trail, c ∈ other := by
  obtain ⟨first, key, rest, _, shape⟩ := segments_cons params trail
  rw [shape, List.mem_cons] at member
  rw [shape]
  rcases member with rfl | later
  · have shorter : c ∈ lead ++ first :: key :=
      List.mem_append.mpr ((List.mem_append.mp inside).imp_left ((List.dropWhile_sublist isPad).subset ·))
    exact ⟨_, List.mem_cons_self, shorter⟩
  · exact ⟨segment, List.mem_cons_of_mem _ later, inside⟩

theorem quoteJoin_plain {segments : List Bytes} {c : UInt8} (notQuote : c ≠ 34)
    (plain : ∀ segment ∈ segments, c ∉ segment) : c ∉ quoteJoin segments := by
  induction segments with
  | nil => exact List.not_mem_nil
  | cons segment rest ih =>
      have here := plain segment List.mem_cons_self
      have later := ih fun other held => plain other (List.mem_cons_of_mem segment held)
      cases rest with
      | nil => exact here
      | cons next rest =>
          rw [quoteJoin_cons segment (List.cons_ne_nil next rest), List.mem_append, List.mem_cons, not_or, not_or]
          exact ⟨here, notQuote, later⟩

variable {d : Disposition} (wellFormed : d.WellFormed)
include wellFormed

theorem label_mark {c : UInt8} (control : c < 32) : c ∉ d.label := by
  intro inside
  have lowered : toLower c ∈ ascii "content-disposition" := by
    rw [← wellFormed.named]
    exact List.mem_map.mpr ⟨c, inside, rfl⟩
  have same : toLower c = c := by
    unfold toLower
    split_ifs with capital
    · exact absurd (capital.1.trans_lt control) (by decide)
    · rfl
  rw [same] at lowered
  have visible : ∀ b ∈ ascii "content-disposition", ¬ b < 32 := by decide
  exact visible c lowered control

theorem line_plain {c : UInt8} (mark : c = 10 ∨ c = 13) : c ∉ d.line := by
  have control : c < 32 ∧ c ≠ 34 ∧ c ∉ ascii ":" := by
    rcases mark with rfl | rfl
    · decide
    · decide
  have value : c ∉ quoteJoin (d.params.segments d.lead d.trail) := by
    apply quoteJoin_plain control.2.1
    intro segment member inside
    obtain ⟨_, noFeed, noReturn⟩ := wellFormed.plain segment member c inside
    rcases mark with feed | return'
    · exact noFeed feed
    · exact noReturn return'
  rw [Disposition.line, List.mem_append, List.mem_append, not_or, not_or]
  exact ⟨⟨label_mark wellFormed control.1, control.2.2⟩, value⟩

/-- The line's own values are read exactly where the parameters are attributable. -/
theorem readHeader_line {part : MultipartPart} (fresh : part.name = [] ∧ part.filename = []) :
    ((readHeader part d.line).name = d.params.name ∧ (readHeader part d.line).filename = d.params.filename) ↔
      d.params.Attributable := by
  have plain : ∀ segment ∈ d.params.segments (d.lead.dropWhile isPad) d.trail, 34 ∉ segment := by
    intro segment member inside
    obtain ⟨other, held, within⟩ := mem_segments_dropWhile member inside
    exact (wellFormed.plain other held 34 within).1 rfl
  have read := readHeader_labelled part wellFormed.named (line_plain wellFormed (Or.inr rfl))
  have name := @quotedValue_segments (ascii "name=") (by decide) _ plain
  have filename := @quotedValue_segments (ascii "filename=") (by decide) _ plain
  rw [← attributed_iff (separates_dropWhile wellFormed.leads) wellFormed.separates]
  simp only [segments_dropWhile] at read
  rw [Disposition.line, read.1, read.2, fresh.1, fresh.2, ← name, ← filename]
  rfl

end Lines

section Parts

def joinLines : List Bytes → Bytes
  | [] => []
  | [line] => line
  | line :: rest => line ++ crlf ++ joinLines rest

/-- A header line apart from the disposition. -/
structure OtherLine (line : Bytes) : Prop where
  plain : 10 ∉ line ∧ 13 ∉ line
  other : ¬ IsDisposition line

/-- `std::getline` with the carriage returns taken off gives the lines back. -/
theorem foldl_lines {lines : List Bytes} (nonempty : lines ≠ []) (plain : ∀ line ∈ lines, 10 ∉ line ∧ 13 ∉ line)
    (part : MultipartPart) : ((joinLines lines).splitOn 10).foldl readHeader part = lines.foldl readHeader part := by
  induction lines generalizing part with
  | nil => exact absurd rfl nonempty
  | cons line rest ih =>
      obtain ⟨noFeed, noReturn⟩ := plain line List.mem_cons_self
      cases rest with
      | nil =>
          rw [joinLines, List.splitOn_eq_singleton noFeed]
      | cons next rest =>
          have later := ih (List.cons_ne_nil next rest) fun other held => plain other (List.mem_cons_of_mem line held)
          have cut : joinLines (line :: next :: rest) = (line ++ [13]) ++ 10 :: joinLines (next :: rest) := by
            simp [joinLines, crlf]
          have front : 10 ∉ line ++ [13] := by
            rw [List.mem_append, not_or]
            exact ⟨noFeed, by decide⟩
          rw [cut, List.splitOn_append_cons_self_of_not_mem front, List.foldl_cons, readHeader_return part noReturn,
            later]
          rfl

theorem foldl_other {lines : List Bytes} (others : ∀ line ∈ lines, OtherLine line) (part : MultipartPart) :
    (lines.foldl readHeader part).name = part.name ∧ (lines.foldl readHeader part).filename = part.filename := by
  induction lines generalizing part with
  | nil => exact ⟨rfl, rfl⟩
  | cons line rest ih =>
      have here := others line List.mem_cons_self
      obtain ⟨name, filename⟩ := readHeader_other part here.plain.2 here.other
      obtain ⟨name', filename'⟩ :=
        ih (fun other held => others other (List.mem_cons_of_mem line held)) (readHeader part line)
      exact ⟨name'.trans name, filename'.trans filename⟩

/-- A part with one disposition among its header lines. -/
def labelledPart (before : List Bytes) (d : Disposition) (after : List Bytes) (data : Bytes) : FormPart where
  headers := joinLines (before ++ d.line :: after)
  data := data

theorem parsed_iff {before after : List Bytes} {d : Disposition} (wellFormed : d.WellFormed)
    (others : ∀ line ∈ before ++ after, OtherLine line) (data : Bytes) :
    ((labelledPart before d after data).parsed.name = d.params.name ∧
      (labelledPart before d after data).parsed.filename = d.params.filename) ↔ d.params.Attributable := by
  have plain : ∀ line ∈ before ++ d.line :: after, 10 ∉ line ∧ 13 ∉ line := by
    intro line member
    rw [List.mem_append, List.mem_cons] at member
    rcases member with front | rfl | back
    · exact (others line (List.mem_append_left after front)).plain
    · exact ⟨line_plain wellFormed (Or.inl rfl), line_plain wellFormed (Or.inr rfl)⟩
    · exact (others line (List.mem_append_right before back)).plain
  have fresh := foldl_other (fun line held => others line (List.mem_append_left after held))
    ({ data := data } : MultipartPart)
  have kept := foldl_other (fun line held => others line (List.mem_append_right before held))
    (readHeader (before.foldl readHeader { data := data }) d.line)
  have lines := foldl_lines (by simp) plain ({ data := data } : MultipartPart)
  rw [List.foldl_append, List.foldl_cons] at lines
  rw [FormPart.parsed, labelledPart, lines, kept.1, kept.2]
  exact readHeader_line wellFormed fresh

/-- In every written form, a part's name and file name come out as its header has them exactly where the
name stands first and does not end in the other key, or the two values are such that it makes no
difference. -/
theorem attribution_iff {boundary : Bytes} (bounded : Boundary boundary) {before after : List Bytes}
    {d : Disposition} (wellFormed : d.WellFormed) (others : ∀ line ∈ before ++ after, OtherLine line)
    (data epilogue : Bytes) (front back : List FormPart)
    (sound : ∀ part ∈ front ++ labelledPart before d after data :: back, part.Sound boundary) :
    ∃ left part right,
      parseMultipartFormData
        (serialise boundary (front ++ labelledPart before d after data :: back) epilogue) boundary =
          .ok (left ++ part :: right) ∧ left.length = front.length ∧
        ((part.name = d.params.name ∧ part.filename = d.params.filename) ↔ d.params.Attributable) := by
  refine ⟨front.map (·.parsed), (labelledPart before d after data).parsed, back.map (·.parsed), ?_, ?_, ?_⟩
  · rw [parse_written bounded epilogue sound, List.map_append, List.map_cons]
  · exact List.length_map _
  · exact parsed_iff wellFormed others data

/-- An upload whose client writes the file name first. -/
def fileFirst : Disposition where
  label := ascii "Content-Disposition"
  lead := ascii " form-data; "
  params := .filenameFirst (ascii "a.png") (ascii "; ") (ascii "image")
  trail := []

theorem fileFirst_wellFormed : fileFirst.WellFormed := by
  refine ⟨by decide, fun c last => ?_, fun c last => ?_, by decide⟩
  · have blank : some 32 = some c := last
    exact Option.some.inj blank ▸ by decide
  · have blank : some 32 = some c := last
    exact Option.some.inj blank ▸ by decide

theorem attribution_iff_fileFirst :
    ∃ left part right,
      parseMultipartFormData (serialise (ascii "X") [labelledPart [] fileFirst [] (ascii "!")] crlf) (ascii "X") =
          .ok (left ++ part :: right) ∧ left.length = 0 ∧
        ((part.name = ascii "image" ∧ part.filename = ascii "a.png") ↔ fileFirst.params.Attributable) := by
  refine attribution_iff ⟨by decide, by decide⟩ fileFirst_wellFormed (by simp) (ascii "!") crlf [] [] ?_
  rw [List.nil_append, List.forall_mem_singleton]
  exact ⟨⟨by decide, by decide, by decide, by decide⟩, by decide, by decide⟩

theorem fileFirst_misnamed :
    ∃ part, parseMultipartFormData (serialise (ascii "X") [labelledPart [] fileFirst [] (ascii "!")] crlf)
        (ascii "X") = .ok [part] ∧ part.name = ascii "a.png" ∧ part.name ≠ fileFirst.params.name :=
  ⟨{ name := ascii "a.png", filename := ascii "a.png", data := ascii "!" }, by decide +kernel, rfl, by decide⟩

end Parts

end XInfer.Dispositions
