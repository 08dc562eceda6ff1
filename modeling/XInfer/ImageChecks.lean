import XInfer.FloatFormat
import XInfer.ChatRequests

/-!
The check of `handle_client` on the images of a request: `parse_image_dimensions` and
`validate_image_dimensions` of `core/device.cpp`. The number of channels, which nothing reads
afterwards, is left out.
-/

namespace XInfer.ImageChecks

open Primitives FloatFormat ChatRequests
open StreamingHandler (ApiError badRequest)

structure ImageDimensions where
  width : Int
  height : Int
  deriving DecidableEq

section Headers

variable (data : Bytes)

def byteAt (pos : Nat) : Nat := (data.getD pos 0).toNat

def bigEndian32 (pos : Nat) : Nat :=
  byteAt data pos * 2 ^ 24 + byteAt data (pos + 1) * 2 ^ 16 + byteAt data (pos + 2) * 2 ^ 8 + byteAt data (pos + 3)

def bigEndian16 (pos : Nat) : Nat := byteAt data pos * 2 ^ 8 + byteAt data (pos + 1)

def isPng : Bool :=
  decide (24 ≤ data.length) && [0x89, 0x50, 0x4E, 0x47, 0x0D, 0x0A, 0x1A, 0x0A].isPrefixOf data &&
    (ascii "IHDR").isPrefixOf (data.drop 12)

/-- `std::abs` of the 32-bit number; the smallest one has no absolute value and stays as it is. -/
def absolute32 (bits : Nat) : Int :=
  if bits ≤ 2 ^ 31 then (if bits = 2 ^ 31 then -2 ^ 31 else bits) else 2 ^ 32 - bits

def littleEndian32 (pos : Nat) : Nat :=
  byteAt data pos + byteAt data (pos + 1) * 2 ^ 8 + byteAt data (pos + 2) * 2 ^ 16 + byteAt data (pos + 3) * 2 ^ 24

/-- `SOF0` to `SOF15`, without the tables among them. -/
def isFrame (marker : Nat) : Bool :=
  decide (0xC0 ≤ marker) && decide (marker ≤ 0xCF) && marker != 0xC4 && marker != 0xC8 && marker != 0xCC

/-- The scan for a frame header. Every step moves on. -/
def jpegLoop : Nat → Nat → Option ImageDimensions
  | 0, _ => none
  | fuel + 1, pos =>
      if data.length < pos + 4 then none
      else if byteAt data pos ≠ 0xFF then jpegLoop fuel (pos + 1)
      else
        let marker := byteAt data (pos + 1)
        if marker = 0xD9 ∨ marker = 0xDA then none
        else if marker = 0xD8 ∨ marker = 0x01 ∨ (0xD0 ≤ marker ∧ marker ≤ 0xD7) then jpegLoop fuel (pos + 2)
        else if isFrame marker = true ∧ pos + 9 ≤ data.length then
          some ⟨bigEndian16 data (pos + 7), bigEndian16 data (pos + 5)⟩
        else jpegLoop fuel (pos + 2 + bigEndian16 data (pos + 2))

def parseImageDimensions : Except Bytes ImageDimensions :=
  if data = [] then .error (ascii "Image data buffer is empty")
  else if isPng data then .ok ⟨bigEndian32 data 16, bigEndian32 data 20⟩
  else if 26 ≤ data.length ∧ (ascii "BM").isPrefixOf data = true then
    .ok ⟨absolute32 (littleEndian32 data 18), absolute32 (littleEndian32 data 22)⟩
  else
    let frame := if 4 ≤ data.length ∧ [0xFF, 0xD8].isPrefixOf data = true
      then jpegLoop data data.length 2 else none
    match frame with
    | some dims => .ok dims
    | none => .error (ascii ("Unrecognized image format or missing valid image header " ++
        "(supported: PNG, BMP, JPEG)"))

end Headers

section Limits

/-- The ratio as a `float`. -/
def aspectRatio (width height : Int) : Rat :=
  nearest binary32 (if height ≤ width then (width : Rat) / height else (height : Rat) / width)

/-- Two digits behind the point. -/
def twoDecimals (value : Rat) : Bytes :=
  let hundredths := (roundHalfEven (value * 100)).toNat
  decimal (hundredths / 100) ++ ascii "." ++ decimal (hundredths % 100 / 10) ++ decimal (hundredths % 10)

/-- The message of a refusal. -/
def validateImageDimensions (width height maxResolution : Int) (maxAspectRatio : Rat) : Option Bytes :=
  if width ≤ 0 ∨ height ≤ 0 then some (ascii "Invalid image dimensions: width and height must be positive")
  else if maxResolution < width ∨ maxResolution < height then
    some (ascii "Image resolution (" ++ signedDecimal width ++ ascii "x" ++ signedDecimal height ++
      ascii ") exceeds maximum allowed resolution (" ++ signedDecimal maxResolution ++ ascii "x" ++
      signedDecimal maxResolution ++ ascii ")")
  else if maxAspectRatio < aspectRatio width height then
    some (ascii "Image aspect ratio (" ++ twoDecimals (aspectRatio width height) ++
      ascii ":1) exceeds maximum allowed aspect ratio (" ++ signedDecimal maxAspectRatio.floor ++ ascii ":1)")
  else none

end Limits

section Requests

def refuseDimensions (dims : ImageDimensions) : Option ApiError :=
  (validateImageDimensions dims.width dims.height 1024 4).map
    (badRequest [] (if 1024 < dims.width ∨ 1024 < dims.height then ascii "image_resolution_exceeded"
      else ascii "image_aspect_ratio_exceeded"))

def refuseImage (image : ImagePayload) : Option ApiError :=
  if image.width ≤ 0 ∨ image.height ≤ 0 then
    match parseImageDimensions image.rawBytes with
    | .error why => some (badRequest [] (ascii "invalid_image_format")
        (ascii "Failed to parse image headers: " ++ why))
    | .ok dims => refuseDimensions dims
  else refuseDimensions ⟨image.width, image.height⟩

/-- The answer to the first image that is refused. -/
def refuseImages (images : List ImagePayload) : Option ApiError := images.findSome? refuseImage

/-- What a passed image measures. -/
def measured (image : ImagePayload) : Option ImageDimensions :=
  if image.width ≤ 0 ∨ image.height ≤ 0 then (parseImageDimensions image.rawBytes).toOption
  else some ⟨image.width, image.height⟩

theorem refuseDimensions_none {dims : ImageDimensions} (passed : refuseDimensions dims = none) :
    0 < dims.width ∧ dims.width ≤ 1024 ∧ 0 < dims.height ∧ dims.height ≤ 1024 := by
  have valid := Option.map_eq_none_iff.mp passed
  unfold validateImageDimensions at valid
  split_ifs at valid with nonpositive large
  omega

/-- Behind the check every image has a size within the limit. -/
theorem refuseImages_none {images : List ImagePayload} (passed : refuseImages images = none) :
    ∀ image ∈ images, ∃ dims, measured image = some dims ∧
      0 < dims.width ∧ dims.width ≤ 1024 ∧ 0 < dims.height ∧ dims.height ≤ 1024 := by
  intro image member
  have single := List.findSome?_eq_none_iff.mp passed image member
  unfold refuseImage at single
  unfold measured
  split_ifs at single ⊢ with unknown
  · cases parsed : parseImageDimensions image.rawBytes with
    | error why =>
        rw [parsed] at single
        cases single
    | ok dims =>
        rw [parsed] at single
        exact ⟨dims, rfl, refuseDimensions_none single⟩
  · exact ⟨_, rfl, refuseDimensions_none single⟩

end Requests

end XInfer.ImageChecks
