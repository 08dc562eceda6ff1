import XInfer.Occurrences
import XInfer.ChatRequests

/-!
The `<image>` tags of an accepted request against its images. The parsers place a tag for each image
of a content array, and at most one for all the images of a form; what the client's own text spells
comes on top.
-/

namespace XInfer.ImagePlaceholders

open Primitives ByteString Occurrences ChatRequests
open ServeJson hiding find
open ChatTemplate (ChatMessage)
open StreamingHandler (ApiError)

section Counting

def tags (text : Bytes) : Nat := occurrences (ascii "<image>") text

def totalTags (messages : List ChatMessage) : Nat := (messages.map fun message => tags message.content).sum

/-- The tag as a first byte that it does not repeat. -/
theorem imageTag_eq : ascii "<image>" = 60 :: ascii "image>" := rfl

theorem once : (60 : UInt8) ∉ ascii "image>" := by decide

theorem tags_nil : tags [] = 0 := rfl

theorem tags_placed (front back : Bytes) :
    tags (front ++ (ascii "<image>" ++ back)) = tags front + (1 + tags back) := by
  rw [tags, imageTag_eq]
  exact occurrences_tag once front back

theorem tags_break (text : Bytes) : tags (text ++ ascii "\n") = tags text :=
  occurrences_apart (by decide) (by decide : (10 : UInt8) ∉ ascii "<image>") text []

theorem tags_eq_zero (text : Bytes) : tags text = 0 ↔ ¬ Contains (ascii "<image>") text := by
  rw [contains_iff, tags, occurrences_eq_zero (by decide)]

/-- A text that no tag can begin in and go beyond. -/
def Closed (front : Bytes) : Prop := ∀ back, tags (front ++ back) = tags front + tags back

theorem closed_nil : Closed [] := by
  intro back
  rw [List.nil_append, tags_nil, Nat.zero_add]

theorem tags_placeTag (text : Bytes) : tags (placeTag text) = tags text + 1 := by
  have shape := fun front => tags_placed front []
  simp only [List.append_nil, tags_nil] at shape
  unfold placeTag
  split_ifs with broken
  · rw [shape, tags_break]
  · rw [shape]

theorem closed_placeTag (text : Bytes) : Closed (placeTag text) := by
  intro back
  rw [tags_placeTag]
  unfold placeTag
  split_ifs with broken
  · rw [List.append_assoc, tags_placed, tags_break, Nat.add_assoc]
  · rw [List.append_assoc, tags_placed, Nat.add_assoc]

end Counting

section Json

variable (reportsUnderflow : Rat → Bool)

/-- The client's text between the images of a message. -/
def textRuns (run : Bytes) : List Piece → List Bytes
  | [] => [run]
  | .nothing :: rest => textRuns run rest
  | .text more :: rest => textRuns (run ++ more) rest
  | .image _ :: rest => run :: textRuns [] rest

def isImage : Piece → Bool
  | .image _ => true
  | _ => false

/-- What the texts of a message spell by themselves. -/
def spelledTags (item : JsonValue) : Nat := ((textRuns [] (piecesOf item)).map tags).sum

def inlineImages (item : JsonValue) : Nat := (piecesOf item).countP isImage

/-- Every image of a content array brings its own tag. -/
theorem readPieces_tags {pieces : List Piece} {front run content : Bytes}
    {images after : List ImagePayload} (closed : Closed front)
    (read : readPieces (front ++ run) images pieces = .ok (content, after)) :
    tags content = tags front + (pieces.countP isImage + ((textRuns run pieces).map tags).sum) ∧
      after.length = images.length + pieces.countP isImage := by
  induction pieces generalizing front run images with
  | nil =>
      cases read
      simp [textRuns, closed run]
  | cons piece rest ih =>
      cases piece with
      | nothing => simpa [textRuns, isImage] using ih closed read
      | text more =>
          rw [readPieces, List.append_assoc] at read
          simpa [textRuns, isImage] using ih closed read
      | image url =>
          unfold readPieces at read
          split at read
          · cases read
          · rename_i raw _
            rw [← List.append_nil (placeTag (front ++ run))] at read
            obtain ⟨counted, length⟩ := ih (closed_placeTag (front ++ run)) read
            rw [tags_placeTag, closed run] at counted
            simp only [List.length_append, List.length_singleton] at length
            have more : (Piece.image url :: rest).countP isImage = rest.countP isImage + 1 :=
              List.countP_cons_of_pos rfl
            rw [textRuns, List.map_cons, List.sum_cons]
            omega

theorem readMessage_tags {index : Nat} {item : JsonValue} {message : ChatMessage}
    {images : List ImagePayload} (read : readMessage index item = .ok (message, images)) :
    tags message.content = inlineImages item + spelledTags item ∧ images.length = inlineImages item ∧
      message.role = getString item (ascii "role") := by
  unfold readMessage at read
  split at read
  · obtain ⟨⟨content, attached⟩, pieces, last⟩ := except_bind_ok read
    have begun : readPieces ([] ++ []) [] _ = .ok (content, attached) := pieces
    dsimp only at last
    split at last
    · cases last
    · cases last
      obtain ⟨counted, length⟩ := readPieces_tags closed_nil begun
      simp only [tags_nil, Nat.zero_add, List.length_nil] at counted length
      exact ⟨counted, length, rfl⟩
  · cases read

theorem readMessages_tags {index : Nat} {items : List JsonValue} {messages : List ChatMessage}
    {images : List ImagePayload} (read : readMessages index items = .ok (messages, images)) :
    totalTags messages = images.length + (items.map spelledTags).sum ∧
      images.length = (items.map inlineImages).sum ∧
      messages.map (·.role) = items.map fun item => getString item (ascii "role") := by
  induction items generalizing index messages images with
  | nil =>
      cases read
      exact ⟨rfl, rfl, rfl⟩
  | cons item items ih =>
      obtain ⟨⟨message, attached⟩, first, next⟩ := except_bind_ok read
      obtain ⟨⟨later, more⟩, others, last⟩ := except_bind_ok next
      cases last
      obtain ⟨counted, length, role⟩ := readMessage_tags first
      obtain ⟨counts, lengths, roles⟩ := ih others
      refine ⟨?_, ?_, ?_⟩
      · simp only [totalTags, List.map_cons, List.sum_cons, List.length_append] at counts ⊢
        omega
      · simp only [List.length_append, List.map_cons, List.sum_cons]
        omega
      · rw [List.map_cons, List.map_cons, role, roles]

/-- The items of `messages` in a request body; none where the body is refused for their lack. -/
def requestItems (jsonStr : Bytes) : List JsonValue :=
  match parseJson reportsUnderflow jsonStr with
  | .ok root => match ServeJson.find (ascii "messages") root with
    | some (.array items) => items
    | _ => []
  | .error _ => []

def spelledInJson (jsonStr : Bytes) : Nat :=
  ((requestItems reportsUnderflow jsonStr).map spelledTags).sum

def inlineInJson (jsonStr : Bytes) : Nat :=
  ((requestItems reportsUnderflow jsonStr).map inlineImages).sum

/-- An accepted body is read item by item. -/
theorem parseChatCompletionRequest_ok {jsonStr : Bytes} {request : ChatCompletionRequest}
    (accepted : parseChatCompletionRequest reportsUnderflow jsonStr = .ok request) :
    readMessages 0 (requestItems reportsUnderflow jsonStr) = .ok (request.messages, request.images) := by
  unfold parseChatCompletionRequest at accepted
  unfold requestItems
  split at accepted
  · cases accepted
  · rename_i members parsed
    obtain ⟨maxTokens, _, next⟩ := except_bind_ok accepted
    dsimp only at next
    split at next
    · rename_i item items found
      obtain ⟨⟨messages, images⟩, read, last⟩ := except_bind_ok next
      cases last
      simpa only [parsed, found] using read
    · cases next
  · cases accepted

theorem json_tags {jsonStr : Bytes} {request : ChatCompletionRequest}
    (accepted : parseChatCompletionRequest reportsUnderflow jsonStr = .ok request) :
    totalTags request.messages = request.images.length + spelledInJson reportsUnderflow jsonStr ∧
      request.images.length = inlineInJson reportsUnderflow jsonStr ∧
      request.messages.map (·.role) =
        (requestItems reportsUnderflow jsonStr).map fun item => getString item (ascii "role") :=
  readMessages_tags (parseChatCompletionRequest_ok reportsUnderflow accepted)

end Json

section Form

variable (reportsUnderflow : Rat → Bool)

def formParts (body boundary : Bytes) : List MultipartPart :=
  match parseMultipartFormData body boundary with
  | .ok parts => parts
  | .error _ => []

/-- The part that carries the request as JSON. -/
def jsonPart (parts : List MultipartPart) : Option MultipartPart :=
  findPart (ascii "messages") parts <|> findPart (ascii "json") parts <|> findPart (ascii "request") parts

def spelledInForm (parts : List MultipartPart) : Nat :=
  match jsonPart parts with
  | some part => spelledInJson reportsUnderflow part.data
  | none => match findPart (ascii "prompt") parts with
    | some part => tags part.data
    | none => 0

def inlineInForm (parts : List MultipartPart) : Nat :=
  match jsonPart parts with
  | some part => inlineInJson reportsUnderflow part.data
  | none => 0

/-- A prompt is a user's message. -/
def hasUser (parts : List MultipartPart) : Bool :=
  match jsonPart parts with
  | some part => (requestItems reportsUnderflow part.data).any fun item =>
      getString item (ascii "role") == ascii "user"
  | none => (findPart (ascii "prompt") parts).isSome

theorem readFields_tags {parts : List MultipartPart} {fields : ChatCompletionRequest}
    (read : readFields reportsUnderflow parts = .ok fields) :
    totalTags fields.messages = fields.images.length + spelledInForm reportsUnderflow parts ∧
      fields.images.length = inlineInForm reportsUnderflow parts ∧
      (fields.messages.any fun message => message.role == ascii "user") =
        hasUser reportsUnderflow parts := by
  unfold readFields at read
  change (match jsonPart parts with
    | some part => parseChatCompletionRequest reportsUnderflow part.data
    | none => _) = _ at read
  unfold spelledInForm inlineInForm hasUser
  cases json : jsonPart parts with
  | some part =>
      rw [json] at read
      obtain ⟨counted, length, roles⟩ := json_tags reportsUnderflow read
      refine ⟨counted, length, ?_⟩
      have users := congrArg (List.any · (· == ascii "user")) roles
      simpa only [List.any_map, Function.comp_def] using users
  | none =>
      rw [json] at read
      dsimp only at read ⊢
      cases prompt : findPart (ascii "prompt") parts with
      | some part =>
          rw [prompt] at read
          cases read
          exact ⟨by simp [totalTags], rfl, rfl⟩
      | none =>
          rw [prompt] at read
          cases read
          exact ⟨rfl, rfl, rfl⟩

/-- Where no message has a tag yet, the first user message gets the only one. -/
theorem totalTags_tagFirstUser (messages : List ChatMessage) : totalTags (tagFirstUser messages) =
    totalTags messages + if (messages.any fun message => message.role == ascii "user") then 1 else 0 := by
  induction messages with
  | nil => rfl
  | cons message rest ih =>
      by_cases user : message.role = ascii "user"
      · have placed : tags (ascii "<image>\n" ++ message.content) = 1 + tags message.content := by
          have shape := tags_placed [] (ascii "\n" ++ message.content)
          have broken : tags (ascii "\n" ++ message.content) = tags message.content :=
            occurrences_skip (by decide) message.content
          rwa [List.nil_append, tags_nil, Nat.zero_add, broken] at shape
        simp only [tagFirstUser, user, if_true, totalTags, List.map_cons, List.sum_cons, placed,
          List.any_cons, beq_self_eq_true, Bool.true_or]
        omega
      · have other : (message.role == ascii "user") = false := by simpa using user
        simp only [tagFirstUser, user, if_false, totalTags, List.map_cons, List.sum_cons, List.any_cons,
          other, Bool.false_or] at ih ⊢
        omega

theorem totalTags_eq_zero (messages : List ChatMessage) : totalTags messages = 0 ↔
    (messages.any fun message => decide (Contains (ascii "<image>") message.content)) = false := by
  induction messages with
  | nil => simp [totalTags]
  | cons message rest ih =>
      simp only [totalTags, List.map_cons, List.sum_cons, List.any_cons, Bool.or_eq_false_iff,
        Nat.add_eq_zero_iff, decide_eq_false_iff_not, tags_eq_zero] at ih ⊢
      rw [ih]

/-- The tags of an accepted form: its texts' own, and one more where they have none. -/
theorem form_tags {body boundary : Bytes} {request : ChatCompletionRequest}
    (accepted : parseMultipartChatCompletionRequest reportsUnderflow body boundary = .ok request)
    (images : request.images ≠ []) :
    let parts := formParts body boundary
    let written := inlineInForm reportsUnderflow parts + spelledInForm reportsUnderflow parts
    request.images.length = inlineInForm reportsUnderflow parts + parts.countP isImagePart ∧
      totalTags request.messages =
        if 0 < written then written else if hasUser reportsUnderflow parts then 1 else 0 := by
  unfold parseMultipartChatCompletionRequest at accepted
  unfold formParts
  split at accepted
  · cases accepted
  · rename_i parts parsed
    rw [parsed]
    obtain ⟨fields, read, next⟩ := except_bind_ok accepted
    obtain ⟨counted, inline', users⟩ := readFields_tags reportsUnderflow read
    rw [inline'] at counted
    dsimp only at next ⊢
    split_ifs at next with blank tagged
    · -- a tag is there already
      cases next
      refine ⟨by simp [inline', List.countP_eq_length_filter], ?_⟩
      rcases tagged with none | some'
      · exact absurd none images
      · have positive : totalTags fields.messages ≠ 0 := by
          rw [Ne, totalTags_eq_zero, some']
          exact Bool.true_eq_false_eq_False
        rw [if_pos (by omega)]
        exact counted
    · cases next
      refine ⟨by simp [inline', List.countP_eq_length_filter], ?_⟩
      have bare : totalTags fields.messages = 0 := by
        rw [totalTags_eq_zero]
        exact Bool.eq_false_iff.mpr fun some' => tagged (Or.inr some')
      rw [if_neg (by omega), totalTags_tagFirstUser, bare, users, Nat.zero_add]

end Form

section Placeholders

variable (reportsUnderflow : Rat → Bool)

/-- A request as the server receives it. -/
inductive Submission where
  | json (body : Bytes)
  | form (body boundary : Bytes)

def accept : Submission → Except ApiError ChatCompletionRequest
  | .json body => parseChatCompletionRequest reportsUnderflow body
  | .form body boundary => parseMultipartChatCompletionRequest reportsUnderflow body boundary

/-- The texts of a JSON request spell no tag. Those of a form spell as many as it has image parts, or
the form has one image part, no tag anywhere, and a user's message to place it in. -/
def Balanced : Submission → Prop
  | .json body => ∀ item ∈ requestItems reportsUnderflow body,
      ∀ run ∈ textRuns [] (piecesOf item), ¬ Contains (ascii "<image>") run
  | .form body boundary =>
      let parts := formParts body boundary
      spelledInForm reportsUnderflow parts = parts.countP isImagePart ∨
        (inlineInForm reportsUnderflow parts = 0 ∧ spelledInForm reportsUnderflow parts = 0 ∧
          parts.countP isImagePart = 1 ∧ hasUser reportsUnderflow parts = true)

theorem spelledInJson_eq_zero (body : Bytes) : spelledInJson reportsUnderflow body = 0 ↔
    Balanced reportsUnderflow (.json body) := by
  simp only [spelledInJson, Balanced, List.sum_eq_zero_iff_forall_eq_nat, List.mem_map, forall_exists_index,
    and_imp, forall_apply_eq_imp_iff₂, spelledTags, tags_eq_zero]

/-- An accepted request with images has as many tags as images exactly when it is balanced. -/
theorem placeholders_iff {submission : Submission} {request : ChatCompletionRequest}
    (accepted : accept reportsUnderflow submission = .ok request) (images : request.images ≠ []) :
    totalTags request.messages = request.images.length ↔ Balanced reportsUnderflow submission := by
  cases submission with
  | json body =>
      obtain ⟨counted, _, _⟩ := json_tags reportsUnderflow accepted
      rw [← spelledInJson_eq_zero, counted]
      omega
  | form body boundary =>
      obtain ⟨length, counted⟩ := form_tags reportsUnderflow accepted images
      have positive : 0 < request.images.length := List.length_pos_iff.mpr images
      unfold Balanced
      dsimp only at length counted ⊢
      rw [counted, length]
      rw [length] at positive
      by_cases written : 0 < inlineInForm reportsUnderflow (formParts body boundary) +
          spelledInForm reportsUnderflow (formParts body boundary)
      · rw [if_pos written]
        omega
      · rw [if_neg written]
        cases user : hasUser reportsUnderflow (formParts body boundary)
        · rw [if_neg Bool.false_ne_true]
          simp only [Bool.false_eq_true, and_false, or_false]
          omega
        · rw [if_pos rfl]
          simp only [and_true]
          omega

theorem accept_ok {submission : Submission} {request : ChatCompletionRequest}
    (accepted : (accept (fun _ => false) submission).toOption = some request) :
    accept (fun _ => false) submission = .ok request := by
  cases outcome : accept (fun _ => false) submission with
  | ok found =>
      rw [outcome] at accepted
      exact congrArg Except.ok (Option.some.inj accepted)
  | error _ =>
      rw [outcome] at accepted
      cases accepted

/-- A form with a prompt and one image. -/
def oneImage : Bytes := ascii ("--B\r\nContent-Disposition: form-data; name=\"prompt\"\r\n\r\nhi\r\n" ++
  "--B\r\nContent-Disposition: form-data; name=\"image\"\r\n\r\nXX\r\n--B--\r\n")

def oneImageRequest : ChatCompletionRequest where
  messages := [{ role := ascii "user", content := ascii "<image>\nhi" }]
  images := [{ rawBytes := ascii "XX" }]

theorem placeholders_iff_oneImage : totalTags oneImageRequest.messages = 1 ↔
    Balanced (fun _ => false) (.form oneImage (ascii "B")) := by
  have accepted : accept (fun _ => false) (.form oneImage (ascii "B")) = .ok oneImageRequest := by
    apply accept_ok
    rw [oneImage, ascii_append]
    repeat rw [ascii_ofList]
    decide +kernel
  exact placeholders_iff (fun _ => false) accepted (by decide)

/-- A form with a prompt and two images. -/
def twoImages : Bytes := ascii ("--B\r\nContent-Disposition: form-data; name=\"prompt\"\r\n\r\nhi\r\n" ++
  "--B\r\nContent-Disposition: form-data; name=\"image\"\r\n\r\nXX\r\n" ++
  "--B\r\nContent-Disposition: form-data; name=\"image\"\r\n\r\nYY\r\n--B--\r\n")

theorem twoImages_oneTag : ∃ request,
    accept (fun _ => false) (.form twoImages (ascii "B")) = .ok request ∧
      request.images.length = 2 ∧ totalTags request.messages = 1 := by
  refine ⟨{ messages := [{ role := ascii "user", content := ascii "<image>\nhi" }],
            images := [{ rawBytes := ascii "XX" }, { rawBytes := ascii "YY" }] }, accept_ok ?_, by decide, by decide⟩
  simp only [twoImages, ascii_append]
  repeat rw [ascii_ofList]
  decide +kernel

end Placeholders

end XInfer.ImagePlaceholders
