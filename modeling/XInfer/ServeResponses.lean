import XInfer.StreamingHandler
import XInfer.ServeJsonGrammar

/-!
What `serve/protocol.cpp` writes: completions, chunks of an event stream, and errors. The texts are
put together by hand there; here they are shown to be JSON texts of the trees they stand for, and
what the parser makes of them is read off the grammar.
-/

namespace XInfer.ServeResponses

open Primitives JsonGrammar ServeJson ServeJsonGrammar
open ChatTemplate (ChatMessage)
open StreamingHandler (ApiError badRequest)

structure ChatChoice where
  index : Int
  message : ChatMessage
  finishReason : Bytes

structure UsageInfo where
  promptTokens : Nat
  completionTokens : Nat
  totalTokens : Nat

structure ChatCompletionResponse where
  id : Bytes
  object : Bytes := ascii "chat.completion"
  created : Int
  model : Bytes
  choices : List ChatChoice
  usage : UsageInfo

structure ChunkDelta where
  role : Option Bytes
  content : Option Bytes
  reasoningContent : Option Bytes

structure ChunkChoice where
  index : Int
  delta : ChunkDelta
  finishReason : Option Bytes

structure ChatCompletionChunk where
  id : Bytes
  object : Bytes := ascii "chat.completion.chunk"
  created : Int
  model : Bytes
  choices : List ChunkChoice

section Writers

/-- The loops over `choices`: a comma before every element but the first. -/
def commaJoin : List Bytes → Bytes
  | [] => []
  | [part] => part
  | part :: rest => part ++ ascii "," ++ commaJoin rest

def ChatChoice.json (choice : ChatChoice) : Bytes :=
  ascii "\x7b" ++ ascii "\"index\":" ++ signedDecimal choice.index ++
    ascii ",\"message\":\x7b\"role\":" ++ escapeJsonString choice.message.role ++
    ascii ",\"content\":" ++ escapeJsonString choice.message.content ++
    (if choice.message.reasoningContent = [] then [] else
      ascii ",\"reasoning_content\":" ++ escapeJsonString choice.message.reasoningContent) ++
    ascii "\x7d" ++ ascii ",\"finish_reason\":" ++ escapeJsonString choice.finishReason ++ ascii "\x7d"

/-- `ChatCompletionResponse::to_json`. -/
def ChatCompletionResponse.toJson (response : ChatCompletionResponse) : Bytes :=
  ascii "\x7b" ++ ascii "\"id\":" ++ escapeJsonString response.id ++
    ascii ",\"object\":\"chat.completion\"" ++
    ascii ",\"created\":" ++ signedDecimal response.created ++
    ascii ",\"model\":" ++ escapeJsonString response.model ++
    ascii ",\"choices\":[" ++ commaJoin (response.choices.map ChatChoice.json) ++ ascii "]" ++
    ascii ",\"usage\":\x7b" ++ ascii "\"prompt_tokens\":" ++ decimal response.usage.promptTokens ++
    ascii ",\"completion_tokens\":" ++ decimal response.usage.completionTokens ++
    ascii ",\"total_tokens\":" ++ decimal response.usage.totalTokens ++ ascii "\x7d\x7d"

/-- The flag `first` of the source: nothing has been written while every earlier field is unset. -/
def ChunkDelta.json (delta : ChunkDelta) : Bytes :=
  ascii "\x7b" ++
    (match delta.role with
      | some role => ascii "\"role\":" ++ escapeJsonString role
      | none => []) ++
    (match delta.content with
      | some content => (if delta.role.isNone then [] else ascii ",") ++
          ascii "\"content\":" ++ escapeJsonString content
      | none => []) ++
    (match delta.reasoningContent with
      | some reasoning => (if delta.role.isNone && delta.content.isNone then [] else ascii ",") ++
          ascii "\"reasoning_content\":" ++ escapeJsonString reasoning
      | none => []) ++
    ascii "\x7d"

def ChunkChoice.json (choice : ChunkChoice) : Bytes :=
  ascii "\x7b" ++ ascii "\"index\":" ++ signedDecimal choice.index ++
    ascii ",\"delta\":" ++ choice.delta.json ++
    (match choice.finishReason with
      | some reason => ascii ",\"finish_reason\":" ++ escapeJsonString reason
      | none => ascii ",\"finish_reason\":null") ++
    ascii "\x7d"

/-- The payload of an event. -/
def ChatCompletionChunk.json (chunk : ChatCompletionChunk) : Bytes :=
  ascii "\x7b" ++ ascii "\"id\":" ++ escapeJsonString chunk.id ++
    ascii ",\"object\":\"chat.completion.chunk\"" ++
    ascii ",\"created\":" ++ signedDecimal chunk.created ++
    ascii ",\"model\":" ++ escapeJsonString chunk.model ++
    ascii ",\"choices\":[" ++ commaJoin (chunk.choices.map ChunkChoice.json) ++ ascii "]\x7d"

/-- `ChatCompletionChunk::to_sse_event`. -/
def ChatCompletionChunk.toSseEvent (chunk : ChatCompletionChunk) : Bytes :=
  ascii "data: " ++ chunk.json ++ ascii "\n\n"

/-- `ApiError::to_json`. -/
def errorJson (error : ApiError) : Bytes :=
  ascii "\x7b\"error\":\x7b" ++ ascii "\"message\":" ++ escapeJsonString error.message ++
    ascii ",\"type\":" ++ escapeJsonString error.type ++
    ascii ",\"param\":" ++ (if error.param = [] then ascii "null" else escapeJsonString error.param) ++
    ascii ",\"code\":" ++ escapeJsonString error.code ++ ascii "\x7d\x7d"

end Writers

section Trees

/-- A field that is left out when it is unset. -/
def optional (key : Bytes) (field : Option Bytes) : List (Bytes × JsonValue) :=
  field.toList.map fun s => (key, .string s)

def integer (n : Int) : JsonValue := .number n

def ChatChoice.tree (choice : ChatChoice) : JsonValue :=
  .object [
    (ascii "index", integer choice.index),
    (ascii "message", .object ([
      (ascii "role", .string choice.message.role),
      (ascii "content", .string choice.message.content)] ++
      optional (ascii "reasoning_content") (if choice.message.reasoningContent = [] then none else
        some choice.message.reasoningContent))),
    (ascii "finish_reason", .string choice.finishReason)]

def UsageInfo.tree (usage : UsageInfo) : JsonValue :=
  .object [
    (ascii "prompt_tokens", integer usage.promptTokens),
    (ascii "completion_tokens", integer usage.completionTokens),
    (ascii "total_tokens", integer usage.totalTokens)]

/-- What a response is read back as: `object` is the constant. -/
def ChatCompletionResponse.tree (response : ChatCompletionResponse) : JsonValue :=
  .object [
    (ascii "id", .string response.id),
    (ascii "object", .string (ascii "chat.completion")),
    (ascii "created", integer response.created),
    (ascii "model", .string response.model),
    (ascii "choices", .array (response.choices.map ChatChoice.tree)),
    (ascii "usage", response.usage.tree)]

def ChunkDelta.tree (delta : ChunkDelta) : JsonValue :=
  .object (optional (ascii "role") delta.role ++ optional (ascii "content") delta.content ++
    optional (ascii "reasoning_content") delta.reasoningContent)

def ChunkChoice.tree (choice : ChunkChoice) : JsonValue :=
  .object [
    (ascii "index", integer choice.index),
    (ascii "delta", choice.delta.tree),
    (ascii "finish_reason", match choice.finishReason with
      | some reason => .string reason
      | none => .null)]

def ChatCompletionChunk.tree (chunk : ChatCompletionChunk) : JsonValue :=
  .object [
    (ascii "id", .string chunk.id),
    (ascii "object", .string (ascii "chat.completion.chunk")),
    (ascii "created", integer chunk.created),
    (ascii "model", .string chunk.model),
    (ascii "choices", .array (chunk.choices.map ChunkChoice.tree))]

/-- The status code is the answer's, not its body's. -/
def errorTree (error : ApiError) : JsonValue :=
  .object [(ascii "error", .object [
    (ascii "message", .string error.message),
    (ascii "type", .string error.type),
    (ascii "param", if error.param = [] then .null else .string error.param),
    (ascii "code", .string error.code)])]

/-- The integers that a double holds. -/
def Exact (n : Int) : Prop := |n| < 2 ^ 53

instance (n : Int) : Decidable (Exact n) := inferInstanceAs (Decidable (_ < _))

structure ChatCompletionResponse.Exact (response : ChatCompletionResponse) : Prop where
  created : ServeResponses.Exact response.created
  indices : ∀ choice ∈ response.choices, ServeResponses.Exact choice.index
  promptTokens : ServeResponses.Exact response.usage.promptTokens
  completionTokens : ServeResponses.Exact response.usage.completionTokens
  totalTokens : ServeResponses.Exact response.usage.totalTokens

structure ChatCompletionChunk.Exact (chunk : ChatCompletionChunk) : Prop where
  created : ServeResponses.Exact chunk.created
  indices : ∀ choice ∈ chunk.choices, ServeResponses.Exact choice.index

end Trees

section Strings

/-- A control character is spelled with its code, every other escape with its letter. -/
theorem looseEscape_control {c : UInt8} (control : c < 0x20) :
    LooseEscape [117, 48, 48, MetadataJson.hexDigit (c.toNat / 16), MetadataJson.hexDigit (c.toNat % 16)]
      [c] := by
  have small : c.toNat < 0x20 := control
  have high := MetadataJson.hexValue_hexDigit (c.toNat / 16) (by omega)
  have low := MetadataJson.hexValue_hexDigit (c.toNat % 16) (by omega)
  have zero : MetadataJson.hexValue 48 = some 0 := by decide
  have value : c.toNat / 16 * 16 + c.toNat % 16 = c.toNat := by omega
  have short : c.toNat < 0x80 := by omega
  refine @LooseEscape.unicode _ _ _ _ c.toNat _ ?_ (by omega) ?_
  · simp [MetadataJson.hex4, zero, high, low, value]
  · simp [MetadataJson.encodeCodepoint, short]

/-- What the printer writes for a byte spells the byte, whatever is spelled behind it. -/
theorem looseString_escapeByte (c : UInt8) {rest s : Bytes} (later : LooseString rest s) :
    LooseString (MetadataJson.escapeByte c ++ rest) (c :: s) := by
  have letters : ∀ pair ∈ MetadataJson.escapeLetters, pair.1 ≠ 117 ∧ escapedByte pair.1 = pair.2 := by decide
  rcases MetadataJson.escapeByte_shape c with ⟨e, member, printed⟩ | ⟨control, printed⟩ | ⟨quote, backslash, -, printed⟩
  · obtain ⟨plain, stands⟩ := letters _ member
    have escape : LooseEscape [e] [escapedByte e] := .byte plain
    rw [show escapedByte e = c from stands] at escape
    rw [printed]
    exact .escaped escape later
  · rw [printed]
    exact .escaped (looseEscape_control control) later
  · rw [printed]
    exact .byte quote backslash later

theorem looseString_printed (s : Bytes) : LooseString (s.flatMap MetadataJson.escapeByte) s := by
  induction s with
  | nil => exact .nil
  | cons c s ih => exact looseString_escapeByte c ih

/-- No control character, so no line break either. -/
def Printable (text : Bytes) : Prop := ∀ b ∈ text, 32 ≤ b

instance decidablePrintable (text : Bytes) : Decidable (Printable text) := decidableBytes text (32 ≤ ·)

theorem printable_append {left right : Bytes} (first : Printable left) (second : Printable right) :
    Printable (left ++ right) := by
  intro b member
  rcases List.mem_append.mp member with before | after
  · exact first b before
  · exact second b after

theorem printable_escapeByte (c : UInt8) : Printable (MetadataJson.escapeByte c) := by
  have digit : ∀ value, value < 16 → 32 ≤ MetadataJson.hexDigit value := by decide
  have letters : ∀ pair ∈ MetadataJson.escapeLetters, 32 ≤ pair.1 := by decide
  intro b member
  rcases MetadataJson.escapeByte_shape c with ⟨e, listed, printed⟩ | ⟨control, printed⟩ | ⟨-, -, plain, printed⟩
  · rw [printed] at member
    rcases List.mem_pair.mp member with rfl | rfl
    · decide
    · exact letters _ listed
  · have small : c.toNat < 0x20 := control
    have high := digit (c.toNat / 16) (by omega)
    have low := digit (c.toNat % 16) (by omega)
    rw [printed] at member
    simp only [List.mem_cons, List.not_mem_nil, or_false] at member
    rcases member with rfl | rfl | rfl | rfl | rfl | rfl
    · decide
    · decide
    · decide
    · decide
    · exact high
    · exact low
  · rw [printed] at member
    rw [List.mem_singleton.mp member]
    exact plain

theorem printable_string (s : Bytes) : Printable (escapeJsonString s) := by
  intro b member
  simp only [escapeJsonString, MetadataJson.escapeJsonString, List.mem_cons, List.mem_append,
    List.mem_flatMap, List.not_mem_nil, or_false] at member
  rcases member with rfl | ⟨c, _, inside⟩ | rfl
  · decide
  · exact printable_escapeByte c b inside
  · decide

end Strings

section Integers

/-- The digits of a number are the characters of its representation. -/
theorem decimal_eq (n : Nat) : decimal n = (Nat.toDigits 10 n).map fun c => UInt8.ofNat c.toNat := by
  rw [decimal, ascii, Nat.toList_repr]

theorem digit_byte {c : Char} (digit : c.isDigit = true) :
    isDigit (UInt8.ofNat c.toNat) = true ∧ (UInt8.ofNat c.toNat).toNat = c.toNat := by
  have range : 48 ≤ c.toNat ∧ c.toNat ≤ 57 := by
    simpa [Char.isDigit, UInt32.le_iff_toNat_le] using digit
  have value : (UInt8.ofNat c.toNat).toNat = c.toNat := by
    rw [UInt8.toNat_ofNat']
    omega
  refine ⟨?_, value⟩
  simp only [isDigit, Bool.and_eq_true, decide_eq_true_eq, UInt8.le_iff_toNat_le, value]
  exact range

theorem decimal_digits (n : Nat) : Digits (decimal n) := by
  rw [decimal_eq]
  refine ⟨by simp [Nat.toDigits_ne_nil], fun b member => ?_⟩
  obtain ⟨c, inside, rfl⟩ := List.mem_map.mp member
  exact (digit_byte (Nat.isDigit_of_mem_toDigits (by decide) (by decide) inside)).1

theorem digitValue_decimal (n : Nat) : digitValue (decimal n) = n := by
  have read : ∀ (chars : List Char) (value : Nat), (∀ c ∈ chars, c.isDigit = true) →
      (chars.map fun c => UInt8.ofNat c.toNat).foldl (fun value c => value * 10 + (c.toNat - 48)) value =
        Nat.ofDigitChars 10 chars value := by
    intro chars
    induction chars with
    | nil => intro value _; simp
    | cons c chars ih =>
        intro value all
        rw [List.map_cons, List.foldl_cons, ih _ (fun d member => all d (by simp [member])),
          Nat.ofDigitChars_cons, (digit_byte (all c (by simp))).2, Nat.mul_comm]
        rfl
  rw [digitValue, decimal_eq, read _ 0 fun c => Nat.isDigit_of_mem_toDigits (by decide) (by decide),
    Nat.ofDigitChars_ten_toDigits]

theorem decimalValue_signed (n : Int) : decimalValue (signedDecimal n) = n := by
  have plain : ∀ value : Nat, (decimal value).head? ≠ some 45 ∧
      (decimal value).takeWhile isDigit = decimal value ∧ (decimal value).dropWhile isDigit = [] := by
    intro value
    obtain ⟨nonempty, all⟩ := decimal_digits value
    refine ⟨?_, List.takeWhile_eq_self_iff.mpr all, List.dropWhile_eq_nil_iff.mpr all⟩
    intro minus
    exact absurd (all 45 (List.mem_of_mem_head? minus)) (by decide)
  cases n with
  | ofNat value =>
      obtain ⟨noMinus, taken, dropped⟩ := plain value
      simp [signedDecimal, decimalValue, noMinus, taken, dropped, digitValue_decimal]
  | negSucc value =>
      obtain ⟨_, taken, dropped⟩ := plain (value + 1)
      have minus : ascii "-" = [45] := rfl
      simp [signedDecimal, decimalValue, minus, taken, dropped, digitValue_decimal, Int.cast_negSucc]

variable (reportsUnderflow : Rat → Bool)

/-- An integer of at most 53 bits is read as itself. -/
theorem integer_value {n : Int} (exact' : Exact n) :
    Value (loose reportsUnderflow) (signedDecimal n) (integer n) := by
  refine .number ⟨?_, ?_⟩
  · cases n with
    | ofNat value =>
        exact ⟨[], decimal value, [], [], by simp [signedDecimal], Or.inl rfl, decimal_digits value,
          Or.inl rfl, Or.inl rfl⟩
    | negSucc value =>
        exact ⟨[45], decimal (value + 1), [], [], by simp [signedDecimal]; rfl, Or.inr rfl,
          decimal_digits _, Or.inl rfl, Or.inl rfl⟩
  · rw [stod, decimalValue_signed, FloatFormat.strtod_int _ _ exact']

end Integers

section Objects

variable (reportsUnderflow : Rat → Bool)

theorem string_value (s : Bytes) :
    Value (loose reportsUnderflow) (escapeJsonString s) (.string s) :=
  .string (looseString_printed s)

theorem commaJoin_one (part : Bytes) : commaJoin [part] = part := rfl

theorem commaJoin_more (part next : Bytes) (rest : List Bytes) :
    commaJoin (part :: next :: rest) = part ++ 44 :: commaJoin (next :: rest) := by
  have comma : ascii "," = [44] := rfl
  rw [commaJoin, comma, List.append_assoc, List.singleton_append]
  exact List.cons_ne_nil _ _

theorem commaJoin_separated {α : Type} {item : Bytes → α → Prop} {parts : List Bytes} {xs : List α}
    (items : List.Forall₂ item parts xs) (some' : parts ≠ []) : Separated item (commaJoin parts) xs := by
  induction items with
  | nil => exact absurd rfl some'
  | @cons part x parts xs good items ih =>
      cases items with
      | nil => exact .one good
      | cons next later =>
          rw [commaJoin_more]
          exact .more good (ih (List.cons_ne_nil _ _))

/-- A field as it is written: its key, a colon and the text of its value. -/
def memberText (field : Bytes × Bytes) : Bytes := escapeJsonString field.1 ++ 58 :: field.2

def objectText (fields : List (Bytes × Bytes)) : Bytes :=
  123 :: (commaJoin (fields.map memberText) ++ [125])

/-- A written field and what it is read back as. -/
def Written (field : Bytes × Bytes) (member : Bytes × JsonValue) : Prop :=
  field.1 = member.1 ∧ Value (loose reportsUnderflow) field.2 member.2

theorem memberText_member {field : Bytes × Bytes} {member : Bytes × JsonValue}
    (written : Written reportsUnderflow field member) :
    Member LooseString (Value (loose reportsUnderflow)) (memberText field) member := by
  obtain ⟨same, value⟩ := written
  have read := Member.mk blank_nil (looseString_printed field.1) blank_nil (Padded.refl value)
  rw [same] at read
  simpa [memberText, escapeJsonString, MetadataJson.escapeJsonString, same] using read

theorem object_value {fields : List (Bytes × Bytes)} {members : List (Bytes × JsonValue)}
    (written : List.Forall₂ (Written reportsUnderflow) fields members) :
    Value (loose reportsUnderflow) (objectText fields) (.object members) := by
  cases written with
  | nil => exact .noMembers blank_nil
  | @cons field member fields members first later =>
      refine .object (commaJoin_separated ?_ (by simp))
      rw [List.forall₂_map_left_iff]
      exact (List.Forall₂.cons first later).imp fun _ _ written => memberText_member reportsUnderflow written

theorem array_value {α : Type} (items : List α) (json : α → Bytes) (tree : α → JsonValue)
    (each : ∀ x ∈ items, Value (loose reportsUnderflow) (json x) (tree x)) :
    Value (loose reportsUnderflow) (91 :: (commaJoin (items.map json) ++ [93]))
      (.array (items.map tree)) := by
  rcases items with _ | ⟨x, items⟩
  · exact .noElements blank_nil
  · refine .array (commaJoin_separated ?_ (by simp))
    rw [List.forall₂_map_left_iff, List.forall₂_map_right_iff, List.forall₂_same]
    exact fun y member => Padded.refl (each y member)

/-- An optional field among the others. -/
def optionalText (key : Bytes) (field : Option Bytes) : List (Bytes × Bytes) :=
  field.toList.map fun s => (key, escapeJsonString s)

theorem optional_written (key : Bytes) (field : Option Bytes) :
    List.Forall₂ (Written reportsUnderflow) (optionalText key field) (optional key field) := by
  cases field with
  | none => exact .nil
  | some s => exact .cons ⟨rfl, string_value reportsUnderflow s⟩ .nil

end Objects

section Read

variable (reportsUnderflow : Rat → Bool)

theorem ChatChoice.json_fields (choice : ChatChoice) : choice.json = objectText [
    (ascii "index", signedDecimal choice.index),
    (ascii "message", objectText ([
      (ascii "role", escapeJsonString choice.message.role),
      (ascii "content", escapeJsonString choice.message.content)] ++
      optionalText (ascii "reasoning_content") (if choice.message.reasoningContent = [] then none else
        some choice.message.reasoningContent))),
    (ascii "finish_reason", escapeJsonString choice.finishReason)] := by
  unfold ChatChoice.json
  split_ifs with silent
  · simp only [objectText, memberText, commaJoin_more, commaJoin_one, optionalText,
      Option.toList_none, List.map_cons, List.map_nil, List.append_assoc, List.cons_append,
      List.nil_append, List.append_nil]
    rfl
  · simp only [objectText, memberText, commaJoin_more, commaJoin_one, optionalText,
      Option.toList_some, List.map_cons, List.map_nil, List.append_assoc, List.cons_append,
      List.nil_append]
    rfl

theorem ChatChoice.json_value (choice : ChatChoice) (exact' : Exact choice.index) :
    Value (loose reportsUnderflow) choice.json choice.tree := by
  rw [choice.json_fields]
  refine object_value _ (.cons ⟨rfl, integer_value _ exact'⟩ (.cons ⟨rfl, ?_⟩
    (.cons ⟨rfl, string_value _ _⟩ .nil)))
  exact object_value _ (.cons ⟨rfl, string_value _ _⟩ (.cons ⟨rfl, string_value _ _⟩
    (optional_written _ _ _)))

theorem ChatCompletionResponse.json_fields (response : ChatCompletionResponse) :
    response.toJson = objectText [
      (ascii "id", escapeJsonString response.id),
      (ascii "object", escapeJsonString (ascii "chat.completion")),
      (ascii "created", signedDecimal response.created),
      (ascii "model", escapeJsonString response.model),
      (ascii "choices", 91 :: (commaJoin (response.choices.map ChatChoice.json) ++ [93])),
      (ascii "usage", objectText [
        (ascii "prompt_tokens", signedDecimal response.usage.promptTokens),
        (ascii "completion_tokens", signedDecimal response.usage.completionTokens),
        (ascii "total_tokens", signedDecimal response.usage.totalTokens)])] := by
  delta ChatCompletionResponse.toJson
  simp only [objectText, memberText, commaJoin_more, commaJoin_one, List.map_cons, List.map_nil,
    List.append_assoc, List.cons_append, List.nil_append]
  rfl

theorem ChatCompletionResponse.json_value (response : ChatCompletionResponse) (exact' : response.Exact) :
    Value (loose reportsUnderflow) response.toJson response.tree := by
  rw [response.json_fields]
  refine object_value _ (.cons ⟨rfl, string_value _ _⟩ (.cons ⟨rfl, string_value _ _⟩
    (.cons ⟨rfl, integer_value _ exact'.created⟩ (.cons ⟨rfl, string_value _ _⟩ (.cons ⟨rfl, ?_⟩
      (.cons ⟨rfl, ?_⟩ .nil))))))
  · exact array_value _ _ _ _ fun choice member => choice.json_value _ (exact'.indices choice member)
  · exact object_value _ (.cons ⟨rfl, integer_value _ exact'.promptTokens⟩
      (.cons ⟨rfl, integer_value _ exact'.completionTokens⟩
        (.cons ⟨rfl, integer_value _ exact'.totalTokens⟩ .nil)))

theorem ChunkDelta.json_fields (delta : ChunkDelta) : delta.json = objectText (
    optionalText (ascii "role") delta.role ++ optionalText (ascii "content") delta.content ++
      optionalText (ascii "reasoning_content") delta.reasoningContent) := by
  obtain ⟨role, content, reasoningContent⟩ := delta
  cases role <;> cases content <;> cases reasoningContent <;>
    · simp only [ChunkDelta.json, objectText, memberText, commaJoin_more, commaJoin_one,
        optionalText, Option.toList_none, Option.toList_some, Option.isNone_none, Option.isNone_some, Bool.and_true, Bool.and_false,
        if_true, Bool.false_eq_true, if_false, List.map_cons, List.map_nil, List.append_assoc,
        List.cons_append, List.nil_append, List.append_nil]
      rfl

theorem ChunkDelta.json_value (delta : ChunkDelta) :
    Value (loose reportsUnderflow) delta.json delta.tree := by
  rw [delta.json_fields]
  exact object_value _ (List.rel_append (List.rel_append (optional_written _ _ _)
    (optional_written _ _ _)) (optional_written _ _ _))

theorem ChunkChoice.json_fields (choice : ChunkChoice) : choice.json = objectText [
    (ascii "index", signedDecimal choice.index),
    (ascii "delta", choice.delta.json),
    (ascii "finish_reason", match choice.finishReason with
      | some reason => escapeJsonString reason
      | none => ascii "null")] := by
  unfold ChunkChoice.json
  cases choice.finishReason with
  | none =>
      simp only [objectText, memberText, commaJoin_more, commaJoin_one, List.map_cons,
        List.map_nil, List.append_assoc,
        List.cons_append]
      rfl
  | some reason =>
      simp only [objectText, memberText, commaJoin_more, commaJoin_one, List.map_cons,
        List.map_nil, List.append_assoc,
        List.cons_append]
      rfl

theorem ChunkChoice.json_value (choice : ChunkChoice) (exact' : Exact choice.index) :
    Value (loose reportsUnderflow) choice.json choice.tree := by
  rw [choice.json_fields]
  refine object_value _ (.cons ⟨rfl, integer_value _ exact'⟩ (.cons ⟨rfl, choice.delta.json_value _⟩
    (.cons ⟨rfl, ?_⟩ .nil)))
  cases choice.finishReason with
  | none => exact .null
  | some reason => exact string_value _ _

theorem ChatCompletionChunk.json_fields (chunk : ChatCompletionChunk) : chunk.json = objectText [
    (ascii "id", escapeJsonString chunk.id),
    (ascii "object", escapeJsonString (ascii "chat.completion.chunk")),
    (ascii "created", signedDecimal chunk.created),
    (ascii "model", escapeJsonString chunk.model),
    (ascii "choices", 91 :: (commaJoin (chunk.choices.map ChunkChoice.json) ++ [93]))] := by
  simp only [ChatCompletionChunk.json, objectText, memberText, commaJoin_more, commaJoin_one, List.map_cons,
    List.map_nil, List.append_assoc, List.cons_append, List.nil_append]
  rfl

theorem ChatCompletionChunk.json_value (chunk : ChatCompletionChunk) (exact' : chunk.Exact) :
    Value (loose reportsUnderflow) chunk.json chunk.tree := by
  rw [chunk.json_fields]
  refine object_value _ (.cons ⟨rfl, string_value _ _⟩ (.cons ⟨rfl, string_value _ _⟩
    (.cons ⟨rfl, integer_value _ exact'.created⟩ (.cons ⟨rfl, string_value _ _⟩
      (.cons ⟨rfl, ?_⟩ .nil)))))
  exact array_value _ _ _ _ fun choice member => choice.json_value _ (exact'.indices choice member)

theorem errorJson_fields (error : ApiError) : errorJson error = objectText [
    (ascii "error", objectText [
      (ascii "message", escapeJsonString error.message),
      (ascii "type", escapeJsonString error.type),
      (ascii "param", if error.param = [] then ascii "null" else escapeJsonString error.param),
      (ascii "code", escapeJsonString error.code)])] := by
  simp only [errorJson, objectText, memberText, commaJoin_more, commaJoin_one, List.map_cons, List.map_nil,
    List.append_assoc, List.cons_append]
  rfl

theorem errorJson_value (error : ApiError) :
    Value (loose reportsUnderflow) (errorJson error) (errorTree error) := by
  rw [errorJson_fields]
  refine object_value _ (.cons ⟨rfl, object_value _ (.cons ⟨rfl, string_value _ _⟩
    (.cons ⟨rfl, string_value _ _⟩ (.cons ⟨rfl, ?_⟩ (.cons ⟨rfl, string_value _ _⟩ .nil))))⟩ .nil)
  dsimp only
  split_ifs with unset
  · exact .null
  · exact string_value _ _

end Read

section Stream

theorem printable_integer (n : Int) : Printable (signedDecimal n) := by
  have digits : ∀ value, Printable (decimal value) := by
    intro value b member
    have digit := (decimal_digits value).2 b member
    simp only [isDigit, Bool.and_eq_true, decide_eq_true_eq] at digit
    exact Nat.le_trans (by decide : 32 ≤ 48) digit.1
  cases n with
  | ofNat value => exact digits value
  | negSucc value => exact printable_append (by decide) (digits (value + 1))

theorem printable_commaJoin {parts : List Bytes} (each : ∀ part ∈ parts, Printable part) :
    Printable (commaJoin parts) := by
  fun_induction commaJoin parts with
  | case1 => exact fun b member => absurd member List.not_mem_nil
  | case2 part => exact each part (by simp)
  | case3 part rest _ ih =>
      exact printable_append (printable_append (each part (by simp)) (by decide))
        (ih fun part member => each part (by simp [member]))

theorem printable_object {fields : List (Bytes × Bytes)} (each : ∀ field ∈ fields, Printable field.2) :
    Printable (objectText fields) := by
  have parts : ∀ part ∈ fields.map memberText, Printable part := by
    intro part member
    obtain ⟨field, inside, rfl⟩ := List.mem_map.mp member
    refine printable_append (printable_string field.1) ?_
    exact @printable_append [58] field.2 (by decide) (each field inside)
  exact @printable_append [123] _ (by decide)
    (printable_append (printable_commaJoin parts) (by decide))

theorem printable_optional (key : Bytes) (field : Option Bytes) :
    ∀ written ∈ optionalText key field, Printable written.2 := by
  intro written member
  obtain ⟨s, _, rfl⟩ := List.mem_map.mp member
  exact printable_string s

theorem printable_choice (choice : ChunkChoice) : Printable choice.json := by
  have delta : Printable choice.delta.json := by
    rw [choice.delta.json_fields]
    refine printable_object fun field member => ?_
    simp only [List.mem_append] at member
    rcases member with (role | content) | reasoning
    · exact printable_optional _ _ field role
    · exact printable_optional _ _ field content
    · exact printable_optional _ _ field reasoning
  rw [choice.json_fields]
  refine printable_object ?_
  simp only [List.forall_mem_cons, List.not_mem_nil, false_implies, implies_true, and_true]
  refine ⟨printable_integer _, delta, ?_⟩
  cases choice.finishReason with
  | none => exact (by decide : Printable (ascii "null"))
  | some reason => exact printable_string reason

/-- A payload has no raw line break, whatever text its chunk carries. -/
theorem printable_chunk (chunk : ChatCompletionChunk) : Printable chunk.json := by
  have choices : Printable (commaJoin (chunk.choices.map ChunkChoice.json)) := by
    refine printable_commaJoin fun part member => ?_
    obtain ⟨choice, _, rfl⟩ := List.mem_map.mp member
    exact printable_choice choice
  rw [chunk.json_fields]
  refine printable_object ?_
  simp only [List.forall_mem_cons, List.not_mem_nil, false_implies, implies_true, and_true]
  refine ⟨printable_string _, printable_string _, printable_integer _, printable_string _, ?_⟩
  exact @printable_append [91] _ (by decide) (printable_append choices (by decide))

/-- A client's reading of an event stream: blocks that end at a blank line. -/
def splitBlankLines : Bytes → Bytes → List Bytes
  | current, [] => if current = [] then [] else [current]
  | current, [c] => [current ++ [c]]
  | current, c :: d :: rest =>
      if c = 10 ∧ d = 10 then current :: splitBlankLines [] rest
      else splitBlankLines (current ++ [c]) (d :: rest)

theorem splitBlankLines_block {block : Bytes} (unbroken : ∀ b ∈ block, b ≠ 10) (current rest : Bytes) :
    splitBlankLines current (block ++ 10 :: 10 :: rest) =
      (current ++ block) :: splitBlankLines [] rest := by
  induction block generalizing current with
  | nil => simp [splitBlankLines]
  | cons c block ih =>
      have plain : c ≠ 10 := unbroken c (by simp)
      have later := ih (fun b member => unbroken b (by simp [member])) (current ++ [c])
      rw [List.append_assoc, List.singleton_append] at later
      rw [← later]
      -- the block goes on, or the blank line begins
      cases block with
      | nil => simp [splitBlankLines, plain]
      | cons d block => simp [splitBlankLines, plain]

def ChatCompletionChunk.event (chunk : ChatCompletionChunk) : Bytes := ascii "data: " ++ chunk.json

theorem event_unbroken (chunk : ChatCompletionChunk) : ∀ b ∈ chunk.event, b ≠ 10 ∧ b ≠ 13 := by
  have printable : Printable chunk.event := printable_append (by decide) (printable_chunk chunk)
  intro b member
  have large := printable b member
  constructor
  · rintro rfl
    exact absurd large (by decide)
  · rintro rfl
    exact absurd large (by decide)

theorem splitBlankLines_events (chunks : List ChatCompletionChunk) :
    splitBlankLines [] (chunks.flatMap ChatCompletionChunk.toSseEvent) =
      chunks.map ChatCompletionChunk.event := by
  induction chunks with
  | nil => rfl
  | cons chunk chunks ih =>
      have shape : chunk.toSseEvent ++ chunks.flatMap ChatCompletionChunk.toSseEvent =
          chunk.event ++ 10 :: 10 :: chunks.flatMap ChatCompletionChunk.toSseEvent := by
        rw [ChatCompletionChunk.toSseEvent, List.append_assoc]
        rfl
      rw [List.flatMap_cons, shape,
        splitBlankLines_block (fun b member => (event_unbroken chunk b member).1), ih]
      rfl

end Stream

section Survival

variable (reportsUnderflow : Rat → Bool)

/-- Responses, chunks and errors come back from their own encoding, and a stream of chunks comes
apart into its events. -/
theorem encoding_survives (response : ChatCompletionResponse) (chunk : ChatCompletionChunk)
    (error : ApiError) (chunks : List ChatCompletionChunk) (small : response.Exact)
    (smallChunk : chunk.Exact) :
    parseJson reportsUnderflow response.toJson = .ok response.tree ∧
      chunk.toSseEvent = ascii "data: " ++ chunk.json ++ ascii "\n\n" ∧
      parseJson reportsUnderflow chunk.json = .ok chunk.tree ∧
      parseJson reportsUnderflow (errorJson error) = .ok (errorTree error) ∧
      splitBlankLines [] (chunks.flatMap ChatCompletionChunk.toSseEvent) =
        chunks.map (fun chunk => ascii "data: " ++ chunk.json) ∧
      ∀ chunk ∈ chunks, ∀ b ∈ ascii "data: " ++ chunk.json, b ≠ 10 ∧ b ≠ 13 := by
  refine ⟨?_, rfl, ?_, ?_, splitBlankLines_events chunks, fun chunk _ => event_unbroken chunk⟩
  · exact (parseJson_iff _ _ _).mpr (Padded.refl (response.json_value _ small))
  · exact (parseJson_iff _ _ _).mpr (Padded.refl (chunk.json_value _ smallChunk))
  · exact (parseJson_iff _ _ _).mpr (Padded.refl (errorJson_value _ error))

def labelled : ChatCompletionResponse where
  id := ascii "chatcmpl-1"
  object := ascii "completion"
  created := 0
  model := []
  choices := []
  usage := ⟨0, 0, 0⟩

theorem labelled_exact : labelled.Exact where
  created := by decide
  indices := by simp [labelled]
  promptTokens := by decide
  completionTokens := by decide
  totalTokens := by decide

/-- A chunk with a line break in its text. -/
def broken : ChatCompletionChunk where
  id := ascii "chatcmpl-1"
  created := 0
  model := []
  choices := [⟨0, ⟨none, some (ascii "a\n\nb"), none⟩, none⟩]

theorem broken_exact : broken.Exact where
  created := by decide
  indices := by simp [broken, Exact]

theorem encoding_survives_broken :
    parseJson (fun _ => false) labelled.toJson = .ok labelled.tree ∧
      parseJson (fun _ => false) broken.json = .ok broken.tree ∧
      splitBlankLines [] (broken.toSseEvent ++ broken.toSseEvent) =
        [ascii "data: " ++ broken.json, ascii "data: " ++ broken.json] := by
  obtain ⟨response, _, chunk, _, stream, _⟩ := encoding_survives (fun _ => false) labelled broken
    (badRequest [] [] []) [broken, broken] labelled_exact broken_exact
  refine ⟨response, chunk, ?_⟩
  simpa using stream

/-- A label of the response's own does not come back. -/
theorem label_lost : labelled.Exact ∧ ∃ x, parseJson (fun _ => false) labelled.toJson = .ok x ∧
    getString x (ascii "object") ≠ labelled.object := by
  refine ⟨labelled_exact, labelled.tree, ?_, by decide⟩
  exact (parseJson_iff _ _ _).mpr (Padded.refl (labelled.json_value _ labelled_exact))

end Survival

end XInfer.ServeResponses
