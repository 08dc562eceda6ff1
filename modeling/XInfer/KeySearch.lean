import XInfer.ByteString

/-!
A search for a key in quotes, followed in one pass. The state of the pass is the text
since the last quote. A text in which each quoted string is set off by separators can
then be searched part by part.
-/

namespace XInfer.KeySearch

open Primitives ByteString

def quoted (key : Bytes) : Bytes := 34 :: (key ++ [34])

/-- What follows the first occurrence of the key in quotes; `since` is the text after
the last quote, when there was one. -/
def afterKey (key : Bytes) : Option Bytes → Bytes → Option Bytes
  | _, [] => none
  | since, byte :: rest =>
      if byte = 34 then
        if since = some key then some rest else afterKey key (some []) rest
      else afterKey key (since.map (· ++ [byte])) rest

/-- The text goes on with what the state lacks of the key, and the closing quote. -/
def Completes (key : Bytes) (since : Option Bytes) (text : Bytes) : Prop :=
  ∃ front back, since = some front ∧ front ++ back = key ∧ (back ++ [34]) <+: text

theorem completes_some {key text : Bytes} :
    Completes key (some []) text ↔ (key ++ [34]) <+: text := by
  constructor
  · rintro ⟨front, back, same, whole, goes⟩
    cases same
    simpa [← whole] using goes
  · exact fun goes => ⟨[], key, rfl, rfl, goes⟩

theorem completes_cons {key rest : Bytes} {since : Option Bytes} {byte : UInt8}
    (step : Completes key (since.map (· ++ [byte])) rest) : Completes key since (byte :: rest) := by
  obtain ⟨front, back, same, whole, goes⟩ := step
  rcases since with _ | start
  · cases same
  · cases same
    exact ⟨start, byte :: back, rfl, by simpa using whole, by simpa using goes⟩

theorem afterKey_completes {key front back text : Bytes} (plain : 34 ∉ key)
    (whole : front ++ back = key) (goes : (back ++ [34]) <+: text) :
    afterKey key (some front) text = some (text.drop (back.length + 1)) := by
  induction back generalizing front text with
  | nil =>
      obtain ⟨rest, rfl⟩ := goes
      simp only [List.append_nil] at whole
      simp [afterKey, whole]
  | cons byte back ih =>
      obtain ⟨rest, rfl⟩ := goes
      have apart : byte ≠ 34 := fun same => plain (by simp [← whole, same])
      have later := @ih (front ++ [byte]) (back ++ [34] ++ rest) (by simpa using whole) ⟨rest, rfl⟩
      simpa [afterKey, apart] using later

theorem afterKey_here {key : Bytes} (plain : 34 ∉ key) (rest : Bytes) :
    afterKey key (some []) (key ++ 34 :: rest) = some rest := by
  have goes : (key ++ [34]) <+: key ++ 34 :: rest := ⟨rest, by simp⟩
  rw [@afterKey_completes key [] key _ plain rfl goes]
  have cut : key ++ 34 :: rest = (key ++ [34]) ++ rest := by simp
  rw [cut, List.drop_left' (by simp)]

/-- The pass finds what `find` finds, unless the text completes the state it starts in. -/
theorem afterKey_find {key : Bytes} (plain : 34 ∉ key) (text : Bytes) {since : Option Bytes}
    (fresh : ¬ Completes key since text) :
    afterKey key since text = (find (quoted key) text).map fun pos => text.drop (pos + key.length + 2) := by
  induction text generalizing since with
  | nil => simp [afterKey, find, quoted]
  | cons byte rest ih =>
      have later (skipped : ¬ (quoted key) <+: byte :: rest) : (find (quoted key) (byte :: rest)).map
            (fun pos => (byte :: rest).drop (pos + key.length + 2)) =
          (find (quoted key) rest).map fun pos => rest.drop (pos + key.length + 2) := by
        rw [find, if_neg (by rwa [List.isPrefixOf_iff_prefix]), Option.map_map]
        congr 1
        funext pos
        have shift : pos + 1 + key.length + 2 = pos + key.length + 2 + 1 := by omega
        rw [Function.comp_apply, shift, List.drop_succ_cons]
      by_cases quote : byte = 34
      · subst quote
        have apart : since ≠ some key := fun same =>
          fresh ⟨key, [], same, by simp, by simp⟩
        by_cases here : (key ++ [34]) <+: rest
        · have found := @afterKey_completes key [] key rest plain rfl here
          have front : (quoted key).isPrefixOf (34 :: rest) := by
            rw [List.isPrefixOf_iff_prefix, quoted, List.cons_prefix_cons]
            exact ⟨rfl, here⟩
          simp [afterKey, apart, found, find, front]
        · rw [later (by rwa [quoted, List.cons_prefix_cons, and_iff_right rfl])]
          have next := ih (mt completes_some.mp here)
          simpa [afterKey, apart] using next
      · rw [later (by rw [quoted, List.cons_prefix_cons]; exact fun both => quote both.1.symm)]
        have next := ih (mt completes_cons fresh)
        simpa [afterKey, quote] using next

/-- A state that no text completes: it holds a byte that the key has not. -/
def Broken (key : Bytes) (since : Option Bytes) : Prop :=
  ∀ text, since = some text → ∃ c ∈ text, c ∉ key

theorem Broken.fresh {key : Bytes} {since : Option Bytes} (broken : Broken key since) (text : Bytes) :
    ¬ Completes key since text := by
  rintro ⟨front, back, same, whole, _⟩
  obtain ⟨c, inside, foreign⟩ := broken front same
  exact foreign (by simp [← whole, inside])

theorem Broken.append {key : Bytes} {since : Option Bytes} (broken : Broken key since) (text : Bytes) :
    Broken key (since.map (· ++ text)) := by
  intro whole same
  rcases since with _ | front
  · cases same
  · cases same
    obtain ⟨c, inside, foreign⟩ := broken front rfl
    exact ⟨c, by simp [inside], foreign⟩

theorem broken_mark {key : Bytes} {since : Option Bytes} {c : UInt8} (foreign : c ∉ key) (text : Bytes) :
    Broken key (since.map (· ++ (text ++ [c]))) := by
  intro whole same
  rcases since with _ | front
  · cases same
  · cases same
    exact ⟨c, by simp, foreign⟩

theorem afterKey_plain {key text : Bytes} (plain : 34 ∉ text) (since : Option Bytes) (rest : Bytes) :
    afterKey key since (text ++ rest) = afterKey key (since.map (· ++ text)) rest := by
  induction text generalizing since with
  | nil => rcases since with _ | front <;> simp
  | cons byte text ih =>
      have apart : byte ≠ 34 := fun same => plain (by simp [same])
      have tail := ih (fun inside => plain (List.mem_cons_of_mem byte inside)) (since.map (· ++ [byte]))
      rcases since with _ | front <;> simpa [afterKey, apart] using tail

/-- A text without the key in quotes leads up to its closing quote. -/
theorem afterKey_absent {key text : Bytes} {since : Option Bytes}
    (fresh : ¬ Completes key since (text ++ [34])) (absent : ¬ Contains (quoted key) (text ++ [34]))
    (rest : Bytes) : afterKey key since (text ++ 34 :: rest) = afterKey key (some []) rest := by
  induction text generalizing since with
  | nil =>
      have apart : since ≠ some key := fun same => fresh ⟨key, [], same, by simp, by simp⟩
      simp [afterKey, apart]
  | cons byte text ih =>
      rw [contains_iff, List.cons_append, List.infix_cons_iff] at absent
      have later : ¬ Contains (quoted key) (text ++ [34]) := fun inside =>
        absent (Or.inr ((contains_iff _ _).mp inside))
      by_cases quote : byte = 34
      · subst quote
        have apart : since ≠ some key := fun same => fresh ⟨key, [], same, by simp, by simp⟩
        have opens : ¬ (key ++ [34]) <+: text ++ [34] := fun front =>
          absent (Or.inl (by rwa [quoted, List.cons_prefix_cons, and_iff_right rfl]))
        simpa [afterKey, apart] using ih (mt completes_some.mp opens) later
      · simpa [afterKey, quote] using ih (mt completes_cons fresh) later

/-- A string body in which a backslash stands before each quote. -/
inductive Escaped : Bytes → Prop
  | nil : Escaped []
  | plain {c : UInt8} {rest : Bytes} (quote : c ≠ 34) (backslash : c ≠ 92) (tail : Escaped rest) :
      Escaped (c :: rest)
  | escape (c : UInt8) {rest : Bytes} (tail : Escaped rest) : Escaped (92 :: c :: rest)

/-- The body, with its opening quote, ends in the key after a quote. -/
def EndsIn (key raw : Bytes) : Prop := (34 :: key) <:+ (34 :: raw)

instance (key raw : Bytes) : Decidable (EndsIn key raw) := inferInstanceAs (Decidable (_ <:+ _))

theorem endsIn_append {key : Bytes} (plain : 34 ∉ key) (front raw : Bytes) :
    (34 :: key) <:+ front ++ 34 :: raw ↔ EndsIn key raw := by
  constructor
  · intro back
    rcases List.suffix_or_suffix_of_suffix back (List.suffix_append front (34 :: raw)) with short | long
    · exact short
    · obtain ⟨more, whole⟩ := long
      rcases more with _ | ⟨c, more⟩
      · exact ⟨[], whole.symm⟩
      · injection whole with _ inside
        exact absurd (by simp [← inside]) plain
  · exact fun short => short.trans (List.suffix_append front (34 :: raw))

theorem afterKey_body {key raw : Bytes} (plain : 34 ∉ key) (slash : 92 ∉ key) (escaped : Escaped raw)
    (rest : Bytes) {since : Bytes} (unquoted : 34 ∉ since) :
    afterKey key (some since) (raw ++ 34 :: rest) =
      if EndsIn key (since ++ raw) then some rest else afterKey key (some []) rest := by
  induction escaped generalizing since with
  | nil =>
      have whole : EndsIn key since ↔ since = key := by
        constructor
        · rintro ⟨front, split⟩
          rcases front with _ | ⟨c, front⟩
          · injection split with _ same
            exact same.symm
          · injection split with _ inside
            exact absurd (by simp [← inside]) unquoted
        · rintro rfl
          exact List.suffix_refl _
      simp [afterKey, whole]
  | @plain c raw quote backslash tail ih =>
      have grown : 34 ∉ since ++ [c] := by simp [unquoted, Ne.symm quote]
      simpa [afterKey, quote] using ih grown
  | @escape c raw tail ih =>
      by_cases quote : c = 34
      · subst quote
        have apart : since ++ [92] ≠ key := fun same => slash (by simp [← same])
        have cut : EndsIn key (since ++ 92 :: 34 :: raw) ↔ EndsIn key raw := by
          have moved : 34 :: (since ++ 92 :: 34 :: raw) = (34 :: (since ++ [92])) ++ 34 :: raw := by simp
          rw [EndsIn, moved]
          exact endsIn_append plain _ raw
        have tail := @ih [] (by simp)
        simpa [afterKey, apart, cut] using tail
      · have grown : 34 ∉ since ++ [92, c] := by simp [unquoted, Ne.symm quote]
        simpa [afterKey, quote] using ih grown

/-- A string in quotes gives the key away exactly when its body ends in it. -/
theorem afterKey_literal {key raw : Bytes} (plain : 34 ∉ key) (slash : 92 ∉ key)
    (escaped : Escaped raw) {since : Option Bytes} (apart : since ≠ some key) (rest : Bytes) :
    afterKey key since (34 :: (raw ++ 34 :: rest)) =
      if EndsIn key raw then some rest else afterKey key (some []) rest := by
  have body := @afterKey_body key raw plain slash escaped rest [] (by simp)
  simpa [afterKey, apart] using body

theorem Broken.apart {key : Bytes} {since : Option Bytes} (broken : Broken key since) :
    since ≠ some key := by
  intro same
  obtain ⟨c, inside, foreign⟩ := broken key same
  exact foreign inside

/-- The text can be passed over: set off by a separator, it leaves a state that no
text completes. -/
def Quiets (key text : Bytes) : Prop :=
  ∀ since, Broken key since → ∀ c rest, c ∉ key → c ≠ 34 →
    ∃ left, Broken key left ∧ afterKey key since (text ++ c :: rest) = afterKey key left rest

/-- The search ends in the text, and what follows it there has the property. -/
def Caught (key : Bytes) (closers : List UInt8) (Stop : Bytes → Prop) (text : Bytes) : Prop :=
  ∀ since, Broken key since → ∀ c rest, c ∈ closers →
    ∃ left, Stop left ∧ afterKey key since (text ++ c :: rest) = some left

section Parts
variable {key : Bytes} (plain : 34 ∉ key) (slash : 92 ∉ key)

theorem Quiets.unquoted {text : Bytes} (unquoted : 34 ∉ text) : Quiets key text := by
  intro since broken c rest foreign quote
  have whole : 34 ∉ text ++ [c] := by simp [unquoted, Ne.symm quote]
  refine ⟨since.map (· ++ (text ++ [c])), broken_mark foreign text, ?_⟩
  simpa using @afterKey_plain key _ whole since rest

include plain slash in
theorem Quiets.literal {before raw after : Bytes} (front : 34 ∉ before) (escaped : Escaped raw)
    (back : 34 ∉ after) (apart : ¬ EndsIn key raw) : Quiets key (before ++ 34 :: (raw ++ 34 :: after)) := by
  intro since broken c rest foreign quote
  have whole : 34 ∉ after ++ [c] := by simp [back, Ne.symm quote]
  have lead := @afterKey_plain key _ front since (34 :: (raw ++ 34 :: (after ++ c :: rest)))
  have body := afterKey_literal plain slash escaped (broken.append before).apart (after ++ c :: rest)
  have tail := @afterKey_plain key _ whole (some []) rest
  refine ⟨(some []).map (· ++ (after ++ [c])), broken_mark foreign after, ?_⟩
  simp only [apart, if_false] at body
  rw [← tail]
  simpa using lead.trans body

theorem Quiets.join {left right : Bytes} {c : UInt8} (before : Quiets key left) (foreign : c ∉ key)
    (quote : c ≠ 34) (after : Quiets key right) : Quiets key (left ++ c :: right) := by
  intro since broken d rest apart unquoted
  obtain ⟨middle, held, first⟩ := before since broken c (right ++ d :: rest) foreign quote
  obtain ⟨state, kept, second⟩ := after middle held d rest apart unquoted
  exact ⟨state, kept, by simpa using first.trans second⟩

variable {closers : List UInt8} {Stop : Bytes → Prop}

include plain slash in
theorem Caught.literal {before raw after : Bytes} (front : 34 ∉ before) (escaped : Escaped raw)
    (ends : EndsIn key raw) (stop : ∀ c ∈ closers, ∀ rest, Stop (after ++ c :: rest)) :
    Caught key closers Stop (before ++ 34 :: (raw ++ 34 :: after)) := by
  intro since broken c rest closer
  have lead := @afterKey_plain key _ front since (34 :: (raw ++ 34 :: (after ++ c :: rest)))
  have body := afterKey_literal plain slash escaped (broken.append before).apart (after ++ c :: rest)
  simp only [ends, if_true] at body
  exact ⟨after ++ c :: rest, stop c closer rest, by simpa using lead.trans body⟩

theorem Caught.left {left right : Bytes} {c : UInt8} (caught : Caught key closers Stop left)
    (closer : c ∈ closers) : Caught key closers Stop (left ++ c :: right) := by
  intro since broken d rest _
  obtain ⟨state, stop, found⟩ := caught since broken c (right ++ d :: rest) closer
  exact ⟨state, stop, by simpa using found⟩

theorem Caught.right {left right : Bytes} {c : UInt8} (before : Quiets key left) (foreign : c ∉ key)
    (quote : c ≠ 34) (caught : Caught key closers Stop right) :
    Caught key closers Stop (left ++ c :: right) := by
  intro since broken d rest closer
  obtain ⟨middle, held, first⟩ := before since broken c (right ++ d :: rest) foreign quote
  obtain ⟨state, stop, second⟩ := caught middle held d rest closer
  exact ⟨state, stop, by simpa using first.trans second⟩

end Parts

/-- Parts with a separator between them; `hollow` stands when there is none. -/
def separated (sep : UInt8) (hollow : Bytes) : List Bytes → Bytes
  | [] => hollow
  | [part] => part
  | part :: next :: rest => part ++ sep :: separated sep hollow (next :: rest)

section Separated
variable {key : Bytes} {sep : UInt8} {hollow : Bytes}

/-- What the parts have and joining two keeps, the whole has. -/
theorem separated_rule {P : Bytes → Prop} (empty : P hollow)
    (join : ∀ {front back}, P front → P back → P (front ++ sep :: back)) {parts : List Bytes}
    (each : ∀ part ∈ parts, P part) : P (separated sep hollow parts) := by
  induction parts with
  | nil => exact empty
  | cons part rest ih =>
      have first := each part (by simp)
      have later := ih fun part inside => each part (List.mem_cons_of_mem _ inside)
      rcases rest with _ | ⟨next, rest⟩
      · exact first
      · exact join first later

theorem Quiets.separated (foreign : sep ∉ key) (quote : sep ≠ 34) (empty : 34 ∉ hollow)
    {parts : List Bytes} (each : ∀ part ∈ parts, Quiets key part) :
    Quiets key (separated sep hollow parts) :=
  separated_rule (Quiets.unquoted empty) (fun first later => first.join foreign quote later) each

/-- The first part that ends the search decides it. -/
theorem Caught.separated {closers : List UInt8} {Stop : Bytes → Prop} (foreign : sep ∉ key)
    (quote : sep ≠ 34) (closer : sep ∈ closers) {parts : List Bytes}
    (each : ∀ part ∈ parts, Quiets key part ∨ Caught key closers Stop part)
    (loud : ∃ part ∈ parts, Caught key closers Stop part) :
    Caught key closers Stop (separated sep hollow parts) := by
  induction parts with
  | nil =>
      obtain ⟨part, inside, _⟩ := loud
      cases inside
  | cons part rest ih =>
      obtain ⟨other, inside, caught⟩ := loud
      rcases rest with _ | ⟨next, rest⟩
      · rw [List.mem_singleton] at inside
        exact inside ▸ caught
      · rcases each part (by simp) with quiet | early
        · rcases List.mem_cons.mp inside with same | inside
          · exact Caught.left (same ▸ caught) closer
          · exact Caught.right quiet foreign quote
              (ih (fun part inside => each part (List.mem_cons_of_mem _ inside)) ⟨other, inside, caught⟩)
        · exact early.left closer

end Separated

end XInfer.KeySearch
