import XInfer.StreamingHandler
import XInfer.ServeJson

/-!
The request parsers of `serve/protocol.cpp`: base64, multipart forms, and the two readings of a chat
completion request. The parsers start from the default request, as the server hands it to them; what
they have written when they refuse is dropped there.
-/

namespace XInfer.ChatRequests

open Primitives ByteString
open ServeJson hiding find
open ChatTemplate (ChatMessage)
open StreamingHandler (ApiError badRequest)

structure ImagePayload where
  rawBytes : Bytes
  width : Int := 0
  height : Int := 0
  channels : Int := 3
  format : Bytes := []
  deriving DecidableEq

structure ChatCompletionRequest where
  model : Bytes := ascii "qwen3.8-27b"
  messages : List ChatMessage := []
  images : List ImagePayload := []
  maxTokens : Int := 256
  temperature : Rat := 0
  topP : Rat := 1
  stream : Bool := false
  deriving DecidableEq

section Base64

/-- `kBase64Table`. -/
def base64Value (c : UInt8) : Option Nat :=
  if c = 43 then some 62
  else if c = 47 then some 63
  else if 48 ≤ c ∧ c ≤ 57 then some (c.toNat - 48 + 52)
  else if 65 ≤ c ∧ c ≤ 90 then some (c.toNat - 65)
  else if 97 ≤ c ∧ c ≤ 122 then some (c.toNat - 97 + 26)
  else none

/-- The loop of `decode_base64_chunked`, with the 32-bit buffer, the bits that wait in it, and the
position. -/
def base64Loop (buf bits pos : Nat) : Bytes → Except Bytes Bytes
  | [] => .ok []
  | c :: rest =>
      if MetadataJson.isSpace c then base64Loop buf bits (pos + 1) rest
      else if c = 61 then .ok []
      else match base64Value c with
        | none => .error (ascii "Invalid base64 character '" ++ [c] ++ ascii "' at position " ++ decimal pos)
        | some value =>
            let buf := (buf * 2 ^ 6 + value) % 2 ^ 32
            if 8 ≤ bits + 6 then
              (base64Loop buf (bits - 2) (pos + 1) rest).map (UInt8.ofNat (buf / 2 ^ (bits - 2) % 256) :: ·)
            else base64Loop buf (bits + 6) (pos + 1) rest

/-- `decode_base64_chunked`; a data URI is read behind its comma. -/
def decodeBase64Chunked (input : Bytes) : Except Bytes Bytes :=
  let payload := match find (ascii ",") input with
    | some comma => if Contains (ascii "base64") (input.take comma) then input.drop (comma + 1) else input
    | none => input
  base64Loop 0 0 0 payload

example : decodeBase64Chunked (ascii "data:image/png;base64,SGVsbG8=") = .ok (ascii "Hello") := by decide

end Base64

section Multipart

structure MultipartPart where
  name : Bytes := []
  filename : Bytes := []
  contentType : Bytes := []
  data : Bytes
  deriving DecidableEq

/-- `::tolower` of the C locale. -/
def toLower (c : UInt8) : UInt8 := if 65 ≤ c ∧ c ≤ 90 then c + 32 else c

/-- The quoted value behind `label`, when there is a whole one. -/
def quotedValue (label header : Bytes) : Option Bytes :=
  match find label header with
  | none => none
  | some pos =>
      let start := pos + label.length
      (findFrom (ascii "\"") header start).map fun stop => substr header start (stop - start)

/-- One line of a part's headers. -/
def readHeader (part : MultipartPart) (raw : Bytes) : MultipartPart :=
  let line := if raw.getLast? = some 13 then raw.dropLast else raw
  match find (ascii ":") line with
  | none => part
  | some colon =>
      let name := (line.take colon).map toLower
      let value := (line.drop (colon + 1)).dropWhile fun c => c == 32 || c == 9
      if name = ascii "content-disposition" then
        { part with
          name := (quotedValue (ascii "name=\"") value).getD part.name
          filename := (quotedValue (ascii "filename=\"") value).getD part.filename }
      else if name = ascii "content-type" then { part with contentType := value }
      else part

/-- The line break that stands before the next delimiter is not data. -/
def trimBreak (data : Bytes) : Bytes :=
  if endsWith data (ascii "\r\n") then data.take (data.length - 2)
  else if data.getLast? = some 10 then data.dropLast
  else data

/-- A part between two delimiters; without an empty line it is none. -/
def readPart (raw : Bytes) : Option MultipartPart :=
  let ending := match find (ascii "\r\n\r\n") raw with
    | some pos => some (pos, 4)
    | none => (find (ascii "\n\n") raw).map fun pos => (pos, 2)
  ending.map fun (pos, width) =>
    ((raw.take pos).splitOn 10).foldl readHeader { data := trimBreak (raw.drop (pos + width)) }

/-- Behind a delimiter. Each round finds another one, so the length bounds the rounds. -/
def partsLoop (delim : Bytes) : Nat → Bytes → List MultipartPart
  | 0, _ => []
  | fuel + 1, text =>
      if text.take 2 = ascii "--" then []
      else
        let text := if text.take 2 = ascii "\r\n" then text.drop 2
          else if text.head? = some 10 then text.drop 1 else text
        match find delim text with
        | none => []
        | some next =>
            (readPart (text.take next)).toList ++ partsLoop delim fuel (text.drop (next + delim.length))

def parseMultipartFormData (body boundary : Bytes) : Except Bytes (List MultipartPart) :=
  if boundary = [] then .error (ascii "Empty multipart boundary")
  else
    let bare := if 2 ≤ boundary.length ∧ boundary.head? = some 34 ∧ boundary.getLast? = some 34
      then (boundary.drop 1).dropLast else boundary
    let delim := ascii "--" ++ bare
    match find delim body with
    | none => .error (ascii "Boundary delimiter not found in multipart body")
    | some pos => .ok (partsLoop delim body.length (body.drop (pos + delim.length)))

def findPart (name : Bytes) (parts : List MultipartPart) : Option MultipartPart :=
  parts.find? (·.name = name)

end Multipart

section Requests

variable (reportsUnderflow : Rat → Bool)

/-- A conversion to a signed integer. Out of range it is undefined; the target answers the smallest
one. -/
def toSigned (bits : Nat) (x : Rat) : Int :=
  let whole := x.num.tdiv x.den
  if -2 ^ (bits - 1) ≤ whole ∧ whole < 2 ^ (bits - 1) then whole else -2 ^ (bits - 1)

def invalidMaxTokens : ApiError :=
  badRequest (ascii "max_tokens") (ascii "invalid_parameter")
    (ascii "Invalid 'max_tokens': must be greater than 0")

def readMaxTokens (root : JsonValue) : Except ApiError Int :=
  match ServeJson.find (ascii "max_tokens") root with
  | none => .ok 256
  | some (.number x) =>
      if toSigned 64 x ≤ 0 then .error invalidMaxTokens
      else if toSigned 32 x ≤ 0 then .error invalidMaxTokens
      else .ok (toSigned 32 x)
  | some _ => .error invalidMaxTokens

/-- What one part of a content array gives: its text, or the url of its image. -/
inductive Piece where
  | text (text : Bytes)
  | image (url : Bytes)
  | nothing
  deriving DecidableEq

def pieceOf (part : JsonValue) : Piece :=
  let type := getString part (ascii "type")
  if type = ascii "text" then .text (getString part (ascii "text"))
  else if type = ascii "image_url" then
    let url := match ServeJson.find (ascii "image_url") part with
      | some object => getString object (ascii "url")
      | none => getString part (ascii "url")
    if url = [] then .nothing else .image url
  else .nothing

/-- The placeholder goes on a line of its own. -/
def placeTag (text : Bytes) : Bytes :=
  (if text ≠ [] ∧ text.getLast? ≠ some 10 then text ++ ascii "\n" else text) ++ ascii "<image>"

/-- The loop over a content array. -/
def readPieces (text : Bytes) (images : List ImagePayload) :
    List Piece → Except ApiError (Bytes × List ImagePayload)
  | [] => .ok (text, images)
  | .nothing :: rest => readPieces text images rest
  | .text more :: rest => readPieces (text ++ more) images rest
  | .image url :: rest =>
      match decodeBase64Chunked url with
      | .error why => .error (badRequest [] (ascii "invalid_image_base64")
          (ascii "Failed to decode base64 image: " ++ why))
      | .ok raw => readPieces (placeTag text) (images ++ [{ rawBytes := raw }]) rest

/-- The pieces of a message's content: a string is one text. -/
def piecesOf (item : JsonValue) : List Piece :=
  match ServeJson.find (ascii "content") item with
  | some (.array parts) => parts.map pieceOf
  | _ => [.text (getString item (ascii "content"))]

/-- One item of `messages`. A part that is no object gives nothing, as `getString` finds no type. -/
def readMessage (index : Nat) (item : JsonValue) : Except ApiError (ChatMessage × List ImagePayload) :=
  match item with
  | .object _ => do
      let role := getString item (ascii "role")
      let (content, images) ← readPieces [] [] (piecesOf item)
      if role = [] then .error (badRequest [] (ascii "missing_role")
        (ascii "Message at index " ++ decimal index ++ ascii " is missing required field 'role'"))
      else return ({ role := role, content := content }, images)
  | _ => .error (badRequest [] (ascii "invalid_message")
      (ascii "Each item in 'messages' must be a JSON object"))

def readMessages (index : Nat) : List JsonValue →
    Except ApiError (List ChatMessage × List ImagePayload)
  | [] => .ok ([], [])
  | item :: rest => do
      let (message, images) ← readMessage index item
      let (messages, more) ← readMessages (index + 1) rest
      return (message :: messages, images ++ more)

def parseChatCompletionRequest (jsonStr : Bytes) : Except ApiError ChatCompletionRequest :=
  match parseJson reportsUnderflow jsonStr with
  | .error why => .error (badRequest [] (ascii "parse_error")
      (ascii "Failed to parse JSON request body: " ++ why))
  | .ok (.object members) => do
      let root : JsonValue := .object members
      let maxTokens ← readMaxTokens root
      match ServeJson.find (ascii "messages") root with
      | some (.array (item :: items)) => do
          let (messages, images) ← readMessages 0 (item :: items)
          return {
            model := getString root (ascii "model") (ascii "qwen3.8-27b")
            messages := messages
            images := images
            maxTokens := maxTokens
            temperature := FloatFormat.saturated FloatFormat.binary32 (getDouble root (ascii "temperature") 0)
            topP := FloatFormat.saturated FloatFormat.binary32 (getDouble root (ascii "top_p") 1)
            stream := getBool root (ascii "stream") false }
      | _ => .error (badRequest [] (ascii "missing_required_field")
          (ascii "Field 'messages' is required and must be a non-empty array"))
  | .ok _ => .error (badRequest [] (ascii "bad_request") (ascii "Request body must be a JSON object"))

def isImagePart (part : MultipartPart) : Bool :=
  part.name == ascii "image" || part.name == ascii "file" || startsWith part.contentType (ascii "image/")

/-- The first user message gets one tag in front. -/
def tagFirstUser : List ChatMessage → List ChatMessage
  | [] => []
  | message :: rest =>
      if message.role = ascii "user" then
        { message with content := ascii "<image>\n" ++ message.content } :: rest
      else message :: tagFirstUser rest

/-- What the form's own fields give before its images are looked at. -/
def readFields (parts : List MultipartPart) : Except ApiError ChatCompletionRequest :=
  match findPart (ascii "messages") parts <|> findPart (ascii "json") parts <|>
      findPart (ascii "request") parts with
  | some part => parseChatCompletionRequest reportsUnderflow part.data
  | none => match findPart (ascii "prompt") parts with
    | some part => .ok { messages := [{ role := ascii "user", content := part.data }] }
    | none => .ok {}

def parseMultipartChatCompletionRequest (body boundary : Bytes) :
    Except ApiError ChatCompletionRequest :=
  match parseMultipartFormData body boundary with
  | .error why => .error (badRequest [] (ascii "multipart_parse_error")
      (ascii "Failed to parse multipart form-data: " ++ why))
  | .ok parts => do
      let fields ← readFields reportsUnderflow parts
      let attached := (parts.filter isImagePart).map fun part =>
        ({ rawBytes := part.data, format := part.contentType } : ImagePayload)
      let request := { fields with images := fields.images ++ attached }
      if request.messages = [] then .error (badRequest [] (ascii "missing_required_field")
        (ascii "Multipart request must contain a 'messages' or 'prompt' field"))
      else if request.images = [] ∨ (request.messages.any fun message =>
          decide (Contains (ascii "<image>") message.content)) = true then return request
      else return { request with messages := tagFirstUser request.messages }

end Requests

end XInfer.ChatRequests
