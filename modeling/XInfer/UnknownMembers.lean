import XInfer.SkippedValues

/-!
`from_json` on a JSON object that has more members than the metadata, in any order and with blanks wherever
they may stand.
-/

namespace XInfer.UnknownMembers

open Primitives SortedMap JsonGrammar MetadataJson SkippedValues
open TokenizerFile (Spells)

section Members

variable {α : Type} {value : Bytes → α → Prop}

theorem ends_mark {gap : Bytes} (blank : Blank gap) {c : UInt8} (mark : c = 44 ∨ c = 125) (rest : Bytes) :
    Ends (gap ++ c :: rest) := by
  intro d first
  rcases gap with _ | ⟨e, gap⟩
  · cases first
    rcases mark with comma | closing
    · exact Or.inl comma
    · exact Or.inr (Or.inl closing)
  · cases first
    exact Or.inr (Or.inr (blank_space (blank d List.mem_cons_self)))

theorem afterMember_comma {gap : Bytes} (blank : Blank gap) (rest : Bytes) :
    afterMember (gap ++ 44 :: rest) = some (true, rest) := by
  rw [afterMember, skipWhitespace_gap blank, skipWhitespace_dark (by decide)]
  rfl

theorem afterMember_closing {gap : Bytes} (blank : Blank gap) (rest : Bytes) :
    afterMember (gap ++ 125 :: rest) = some (false, rest) := by
  rw [afterMember, skipWhitespace_gap blank, skipWhitespace_dark (by decide)]
  rfl

/-- The loops stand at the value of a member when its key is read. -/
theorem member_read {text name : Bytes} {x : α} (member : Member Spells value text (name, x))
    (dark : ∀ part y, value part y → ∃ c tail, part = c :: tail ∧ MetadataJson.isSpace c = false) (rest : Bytes) :
    ∃ part after, value part x ∧ Blank after ∧ consume 125 (skipWhitespace (text ++ rest)) = none ∧
      parseKey (skipWhitespace (text ++ rest)) = some (name, part ++ (after ++ rest)) := by
  cases member with
  | @mk before key gap inner _ _ blank spelled gapBlank padded =>
      obtain ⟨lead, read, ends⟩ := padded
      rename_i front part after
      have shape : before ++ 34 :: (key ++ 34 :: (gap ++ 58 :: (front ++ part ++ after))) ++ rest =
          before ++ 34 :: (key ++ 34 :: (gap ++ 58 :: (front ++ (part ++ (after ++ rest))))) := by simp
      refine ⟨part, after, read, ends, ?_, ?_⟩
      · rw [shape, skipWhitespace_gap blank, skipWhitespace_dark (by decide)]
        rfl
      · obtain ⟨c, tail, first, space⟩ := dark part x read
        rw [shape, skipWhitespace_gap blank, skipWhitespace_dark (by decide), parseKey, parseString_spells spelled]
        dsimp only [Option.bind_eq_bind, Option.bind_some]
        rw [skipWhitespace_gap gapBlank, skipWhitespace_dark (by decide), consume, if_pos rfl]
        dsimp only [Option.bind_some, Option.pure_def]
        rw [skipWhitespace_gap lead, first, List.cons_append, skipWhitespace_dark space]

end Members

section Properties

/-- A value that is a string. -/
def Worded (text : Bytes) (s : Bytes) : Prop := Value json text (.string s)

theorem worded_literal {text s : Bytes} (worded : Worded text s) : ∃ raw, text = 34 :: (raw ++ [34]) ∧ Spells raw s := by
  cases worded with
  | string spelled => exact ⟨_, rfl, spelled⟩

theorem parseString_worded {text s : Bytes} (worded : Worded text s) (rest : Bytes) :
    parseString (text ++ rest) = some (s, rest) := by
  obtain ⟨raw, rfl, spelled⟩ := worded_literal worded
  have shape : 34 :: (raw ++ [34]) ++ rest = 34 :: (raw ++ 34 :: rest) := by simp
  rw [shape, parseString_spells spelled]

def insertAll (entries : List (Bytes × Bytes)) (props : OrderedMap Bytes Bytes) : OrderedMap Bytes Bytes :=
  entries.foldl (fun props entry => props.insert entry.1 entry.2) props

theorem propertiesLoop_read {text : Bytes} {entries : List (Bytes × Bytes)}
    (items : Separated (Member Spells Worded) text entries) (props : OrderedMap Bytes Bytes) (rest : Bytes) {fuel : Nat}
    (enough : entries.length ≤ fuel) :
    propertiesLoop fuel (text ++ 125 :: rest) props = some (insertAll entries props, rest) := by
  have dark : ∀ part s, Worded part s → ∃ c tail, part = c :: tail ∧ MetadataJson.isSpace c = false :=
    fun _ _ => value_head
  induction items generalizing props fuel with
  | @one text entry member =>
      rcases fuel with _ | fuel
      · cases enough
      obtain ⟨part, after, worded, blank, opened, key⟩ := member_read member dark (125 :: rest)
      rw [propertiesLoop]
      simp only [opened, key, Option.bind_eq_bind, Option.bind_some, parseString_worded worded,
        afterMember_closing blank]
      rfl
  | @more text later entry entries member _ ih =>
      rcases fuel with _ | fuel
      · cases enough
      obtain ⟨part, after, worded, blank, opened, key⟩ := member_read member dark (44 :: (later ++ 125 :: rest))
      have shape : text ++ 44 :: later ++ 125 :: rest = text ++ 44 :: (later ++ 125 :: rest) := by simp
      rw [shape, propertiesLoop]
      simp only [opened, key, Option.bind_eq_bind, Option.bind_some, parseString_worded worded,
        afterMember_comma blank, if_true]
      exact ih (props.insert entry.1 entry.2) (Nat.le_of_succ_le_succ enough)

def textOf : JsonGrammar.Tree Unit → Bytes
  | .string s => s
  | _ => []

def entriesOf : JsonGrammar.Tree Unit → List (Bytes × Bytes)
  | .object members => members.map fun member => (member.1, textOf member.2)
  | _ => []

def IsString (tree : JsonGrammar.Tree Unit) : Prop := ∃ s, tree = .string s

theorem member_worded {text : Bytes} {member : Bytes × JsonGrammar.Tree Unit}
    (read : Member Spells (Value json) text member)
    (isString : IsString member.2) : Member Spells Worded text (member.1, textOf member.2) := by
  obtain ⟨name, tree⟩ := member
  obtain ⟨s, rfl⟩ := isString
  cases read with
  | mk blank spelled gapBlank padded =>
      obtain ⟨lead, value, ends⟩ := padded
      exact .mk blank spelled gapBlank (.mk lead value ends)

theorem separated_worded {text : Bytes} {members : List (Bytes × JsonGrammar.Tree Unit)}
    (items : Separated (Member Spells (Value json)) text members) (strings : ∀ member ∈ members, IsString member.2) :
    Separated (Member Spells Worded) text (members.map fun member => (member.1, textOf member.2)) := by
  induction items with
  | one read => exact .one (member_worded read (strings _ List.mem_cons_self))
  | more read _ ih =>
      exact .more (member_worded read (strings _ List.mem_cons_self))
        (ih fun member later => strings member (List.mem_cons_of_mem _ later))

theorem parseProperties_read {text : Bytes} {members : List (Bytes × JsonGrammar.Tree Unit)}
    (value : Value json text (.object members)) (strings : ∀ member ∈ members, IsString member.2)
    (props : OrderedMap Bytes Bytes) (rest : Bytes) :
    parseProperties (text ++ rest) props = some (insertAll (entriesOf (.object members)) props, rest) := by
  cases value with
  | @noMembers gap blank =>
      have shape : 123 :: (gap ++ [125]) ++ rest = 123 :: (gap ++ 125 :: rest) := by simp
      rw [shape, parseProperties, skipWhitespace_dark (by decide), consume, if_pos rfl]
      dsimp only [Option.bind_eq_bind, Option.bind_some]
      rw [propertiesLoop, skipWhitespace_gap blank, skipWhitespace_dark (by decide), consume, if_pos rfl]
      rfl
  | @object text members items =>
      have shape : 123 :: (text ++ [125]) ++ rest = 123 :: (text ++ 125 :: rest) := by simp
      have worded := separated_worded items strings
      have enough := worded.length_le
      rw [shape, parseProperties, skipWhitespace_dark (by decide), consume, if_pos rfl]
      dsimp only [Option.bind_eq_bind, Option.bind_some]
      apply propertiesLoop_read worded
      simp only [List.length_append, List.length_cons]
      omega

end Properties

section Reading

/-- What the members of the metadata have to be. -/
structure KnownMember (member : Bytes × JsonGrammar.Tree Unit) : Prop where
  string : member.1 ∈ [ascii "model_name", ascii "quant_scheme", ascii "tokenizer_type"] → IsString member.2
  properties : member.1 = ascii "properties" → ∃ entries, member.2 = .object entries ∧
    (entries.map Prod.fst).Nodup ∧ ∀ entry ∈ entries, IsString entry.2

/-- A member as the loop stores it. -/
def store (out : ArtifactMetadata) (member : Bytes × JsonGrammar.Tree Unit) : ArtifactMetadata :=
  if member.1 = ascii "model_name" then { out with modelName := textOf member.2 }
  else if member.1 = ascii "quant_scheme" then { out with quantScheme := textOf member.2 }
  else if member.1 = ascii "tokenizer_type" then { out with tokenizerType := textOf member.2 }
  else if member.1 = ascii "properties" then { out with properties := insertAll (entriesOf member.2) out.properties }
  else out

theorem parseMember_read {text name : Bytes} {tree : JsonGrammar.Tree Unit} (value : Value json text tree)
    (known : KnownMember (name, tree)) {rest : Bytes} (ends : Ends rest) (out : ArtifactMetadata) :
    parseMember name (text ++ rest) out = some (store out (name, tree), rest) := by
  have worded (member : name ∈ [ascii "model_name", ascii "quant_scheme", ascii "tokenizer_type"]) :
      parseString (text ++ rest) = some (textOf tree, rest) := by
    obtain ⟨s, rfl⟩ := known.string member
    exact parseString_worded value rest
  unfold parseMember store
  dsimp only
  split
  · rename_i name
    rw [worded (by simp [name])]
    rfl
  split
  · rename_i name
    rw [worded (by simp [name])]
    rfl
  split
  · rename_i name
    rw [worded (by simp [name])]
    rfl
  split
  · rename_i name
    obtain ⟨entries, rfl, -, strings⟩ := known.properties name
    rw [parseProperties_read value strings]
    rfl
  · rw [skipValue_read value ends]
    rfl

theorem parseLoop_read {text : Bytes} {members : List (Bytes × JsonGrammar.Tree Unit)}
    (items : Separated (Member Spells (Value json)) text members) (known : ∀ member ∈ members, KnownMember member)
    (out : ArtifactMetadata) (rest : Bytes) {fuel : Nat} (enough : members.length ≤ fuel) :
    parseLoop fuel (text ++ 125 :: rest) out = some (members.foldl store out) := by
  have dark : ∀ part tree, Value json part tree → ∃ c tail, part = c :: tail ∧ MetadataJson.isSpace c = false :=
    fun _ _ => value_head
  induction items generalizing out fuel with
  | @one text member read =>
      rcases fuel with _ | fuel
      · cases enough
      obtain ⟨part, after, value, blank, opened, key⟩ := member_read read dark (125 :: rest)
      have stored := parseMember_read value (known member List.mem_cons_self) (ends_mark blank (Or.inr rfl) rest) out
      rw [parseLoop]
      simp only [opened, key, Option.bind_eq_bind, Option.bind_some, stored, afterMember_closing blank]
      rfl
  | @more text later member members read _ ih =>
      rcases fuel with _ | fuel
      · cases enough
      obtain ⟨part, after, value, blank, opened, key⟩ := member_read read dark (44 :: (later ++ 125 :: rest))
      have stored := parseMember_read value (known member List.mem_cons_self) (ends_mark blank (Or.inl rfl)
        (later ++ 125 :: rest)) out
      have shape : text ++ 44 :: later ++ 125 :: rest = text ++ 44 :: (later ++ 125 :: rest) := by simp
      rw [shape, parseLoop]
      simp only [opened, key, Option.bind_eq_bind, Option.bind_some, stored, afterMember_comma blank, if_true]
      exact ih (fun other inside => known other (List.mem_cons_of_mem _ inside)) (store out member)
        (Nat.le_of_succ_le_succ enough)

theorem fromJson_read {input : Bytes} {members : List (Bytes × JsonGrammar.Tree Unit)}
    (text : Text json input (.object members))
    (known : ∀ member ∈ members, KnownMember member) : fromJson input = some (members.foldl store blank) := by
  obtain ⟨lead, value, -⟩ := text
  rename_i before text after
  rw [fromJson, parse, List.append_assoc, skipWhitespace_gap lead]
  cases value with
  | @noMembers gap blank =>
      have shape : 123 :: (gap ++ [125]) ++ after = 123 :: (gap ++ 125 :: after) := by simp
      rw [shape, skipWhitespace_dark (by decide), consume, if_pos rfl]
      dsimp only [Option.bind_eq_bind, Option.bind_some]
      rw [parseLoop, skipWhitespace_gap blank, skipWhitespace_dark (by decide), consume, if_pos rfl]
      rfl
  | @object text members items =>
      have shape : 123 :: (text ++ [125]) ++ after = 123 :: (text ++ 125 :: after) := by simp
      have enough := items.length_le
      rw [shape, skipWhitespace_dark (by decide), consume, if_pos rfl]
      dsimp only [Option.bind_eq_bind, Option.bind_some]
      apply parseLoop_read items known
      simp only [List.length_append, List.length_cons]
      omega

end Reading

section Meaning

variable {members : List (Bytes × JsonGrammar.Tree Unit)}

/-- What the members of a name, if it is there, stand for. -/
def stringOf (name : Bytes) (members : List (Bytes × JsonGrammar.Tree Unit)) : Bytes :=
  ((members.lookup name).map textOf).getD []

/-- The metadata that the known members of an object describe. -/
structure Describes (members : List (Bytes × JsonGrammar.Tree Unit)) (m : ArtifactMetadata) : Prop where
  modelName : m.modelName = stringOf (ascii "model_name") members
  quantScheme : m.quantScheme = stringOf (ascii "quant_scheme") members
  tokenizerType : m.tokenizerType = stringOf (ascii "tokenizer_type") members
  properties : ∀ key, m.properties.entries.lookup key =
    (((members.lookup (ascii "properties")).map entriesOf).getD []).lookup key

theorem lookup_fresh {β : Type} {entries : List (Bytes × β)} {key : Bytes} (fresh : key ∉ entries.map Prod.fst) :
    entries.lookup key = none := by
  rw [List.lookup_eq_none_iff]
  intro entry inside
  rw [bne_iff_ne]
  rintro rfl
  exact fresh (List.mem_map_of_mem inside)

/-- A part of the metadata that one member sets. -/
theorem foldl_store {β : Type} (part : ArtifactMetadata → β) (name : Bytes) (read : JsonGrammar.Tree Unit → β → β)
    (sets : ∀ out tree, part (store out (name, tree)) = read tree (part out))
    (keeps : ∀ out member, member.1 ≠ name → part (store out member) = part out)
    (distinct : (members.map Prod.fst).Nodup) (out : ArtifactMetadata) :
    part (members.foldl store out) = ((members.lookup name).map (read · (part out))).getD (part out) := by
  induction members generalizing out with
  | nil => rfl
  | cons member members ih =>
      obtain ⟨key, tree⟩ := member
      obtain ⟨fresh, distinct⟩ := List.nodup_cons.mp distinct
      rw [List.foldl_cons, ih distinct]
      by_cases here : key = name
      · subst here
        rw [lookup_fresh fresh, List.lookup_cons_self, sets]
        rfl
      · rw [keeps out (key, tree) here, lookup_other (Ne.symm here)]

theorem lookup_insertAll {entries : List (Bytes × Bytes)} (distinct : (entries.map Prod.fst).Nodup)
    (props : OrderedMap Bytes Bytes) (key : Bytes) :
    (insertAll entries props).entries.lookup key = (entries.lookup key).or (props.entries.lookup key) := by
  induction entries generalizing props with
  | nil => rfl
  | cons entry entries ih =>
      obtain ⟨name, value⟩ := entry
      obtain ⟨fresh, distinct⟩ := List.nodup_cons.mp distinct
      have step : insertAll ((name, value) :: entries) props = insertAll entries (props.insert name value) := rfl
      have inserted := lookup_insertEntry name value props.entries key
      rw [step, ih distinct, show (props.insert name value).entries.lookup key = _ from inserted]
      by_cases here : key = name
      · subst here
        rw [lookup_fresh fresh, if_pos rfl, List.lookup_cons_self]
        rfl
      · rw [if_neg here, lookup_other here]

/-- The known members, the unknown ones left out. -/
theorem store_describes (distinct : (members.map Prod.fst).Nodup) (known : ∀ member ∈ members, KnownMember member) :
    Describes members (members.foldl store blank) where
  modelName := by
    rw [foldl_store (·.modelName) (ascii "model_name") (fun tree _ => textOf tree) (fun _ _ => rfl) _ distinct blank]
    · rfl
    · intro out member other
      unfold store
      rw [if_neg other]
      split_ifs <;> rfl
  quantScheme := by
    rw [foldl_store (·.quantScheme) (ascii "quant_scheme") (fun tree _ => textOf tree) (fun _ _ => rfl) _ distinct blank]
    · rfl
    · intro out member other
      unfold store
      split_ifs <;> rfl
  tokenizerType := by
    rw [foldl_store (·.tokenizerType) (ascii "tokenizer_type") (fun tree _ => textOf tree) (fun _ _ => rfl) _ distinct blank]
    · rfl
    · intro out member other
      unfold store
      split_ifs <;> rfl
  properties := by
    intro key
    rw [foldl_store (·.properties) (ascii "properties") (fun tree => insertAll (entriesOf tree)) (fun _ _ => rfl) _
      distinct blank]
    · cases found : members.lookup (ascii "properties") with
      | none => rfl
      | some tree =>
          obtain ⟨front, back, rfl, -⟩ := List.lookup_eq_some_iff.mp found
          obtain ⟨entries, same, distinct, -⟩ := (known (ascii "properties", tree) (by simp)).properties rfl
          have names : ((entriesOf tree).map Prod.fst).Nodup := by
            rw [show tree = .object entries from same, entriesOf, List.map_map]
            exact distinct
          have empty : blank.properties.entries.lookup key = none := rfl
          rw [Option.map_some, Option.getD_some, lookup_insertAll names, empty, Option.or_none]
          rfl
    · intro out member other
      unfold store
      split_ifs <;> rfl

/-- The members of an object from which metadata can be read; there may be any others beside those of the metadata. -/
structure Admissible (members : List (Bytes × JsonGrammar.Tree Unit)) : Prop where
  distinct : (members.map Prod.fst).Nodup
  known : ∀ member ∈ members, KnownMember member

theorem skipValue_gap {gap : Bytes} (blank : Blank gap) (input : Bytes) : skipValue (gap ++ input) = skipValue input := by
  rw [skipValue, skipWhitespace_gap blank]
  rfl

/-- Exactly the known members are read, and `skip_value` goes over exactly one value. -/
theorem unknown_ignored :
    (∀ input members, Text json input (.object members) → Admissible members →
      ∃ m, fromJson input = some m ∧ Describes members m) ∧
    (∀ gap text tree rest, Blank gap → Value json text tree → Ends rest →
      skipValue (gap ++ (text ++ rest)) = some rest) := by
  refine ⟨?_, ?_⟩
  · intro input members text admissible
    exact ⟨_, fromJson_read text admissible.known, store_describes admissible.distinct admissible.known⟩
  · intro gap text tree rest blank value ends
    rw [skipValue_gap blank, skipValue_read value ends]

section Sample

/-- An unknown member with brackets inside of strings, then two known ones. -/
def sample : Bytes :=
  ascii "\x7b\"x\":[\"]\",\x7b\"y\":1\x7d],\"model_name\":\"m\",\"properties\":\x7b\"k\":\"v\"\x7d\x7d"

def sampleMembers : List (Bytes × JsonGrammar.Tree Unit) :=
  [(ascii "x", .array [.string (ascii "]"), .object [(ascii "y", .number ())]]),
   (ascii "model_name", .string (ascii "m")),
   (ascii "properties", .object [(ascii "k", .string (ascii "v"))])]

theorem member_plain (name : Bytes) {text : Bytes} {tree : JsonGrammar.Tree Unit} (plain : TokenizerFile.Plain name)
    (value : Value json text tree) :
    Member json.string (Value json) (34 :: (name ++ 34 :: 58 :: text)) (name, tree) := by
  have member := Member.mk blank_nil (TokenizerFile.spells_plain plain) blank_nil (Padded.refl value)
  rwa [List.nil_append, List.nil_append] at member

theorem string_plain (s : Bytes) (plain : TokenizerFile.Plain s) : Value json (34 :: (s ++ [34])) (.string s) :=
  .string (TokenizerFile.spells_plain plain)

theorem value_one : Value json [49] (.number ()) :=
  .number ⟨[], [49], [], [], rfl, Or.inl rfl, ⟨by decide, by decide⟩, by decide, Or.inl rfl, Or.inl rfl⟩

theorem sample_text : Text json sample (.object sampleMembers) := by
  have inner := Value.object (.one (member_plain (ascii "y") (by decide) value_one))
  have unknown := Value.array (.more (Padded.refl (string_plain (ascii "]") (by decide))) (.one (Padded.refl inner)))
  have name := string_plain (ascii "m") (by decide)
  have props := Value.object (.one (member_plain (ascii "k") (by decide)
    (string_plain (ascii "v") (by decide))))
  have whole := Value.object (.more (member_plain (ascii "x") (by decide) unknown)
    (.more (member_plain (ascii "model_name") (by decide) name)
      (.one (member_plain (ascii "properties") (by decide) props))))
  exact Padded.refl whole

theorem sample_admissible : Admissible sampleMembers where
  distinct := by decide
  known := by
    intro member inside
    simp only [sampleMembers, List.mem_cons, List.not_mem_nil, or_false] at inside
    rcases inside with rfl | rfl | rfl
    · exact ⟨fun known => absurd known (by decide), fun known => absurd known (by decide)⟩
    · exact ⟨fun _ => ⟨_, rfl⟩, fun known => absurd known (by decide)⟩
    · refine ⟨fun known => absurd known (by decide), fun _ => ⟨_, rfl, by decide, ?_⟩⟩
      intro entry inside
      rw [List.mem_singleton.mp inside]
      exact ⟨_, rfl⟩

theorem sample_read : (∃ m, fromJson sample = some m ∧ Describes sampleMembers m) ∧
    skipValue ([32] ++ ([49] ++ [44])) = some [44] :=
  ⟨unknown_ignored.1 sample sampleMembers sample_text sample_admissible,
    unknown_ignored.2 [32] [49] _ [44] (by decide) value_one (ends_mark blank_nil (Or.inl rfl) [])⟩

end Sample

end Meaning

end XInfer.UnknownMembers
