import Mathlib.Data.List.Infix
import Sentinel.Multimodal.Schemas

/-!
# The image boundary

`decode_image`: the payload of a Base64 text, its format and dimensions as three inspectors read
them from its first bytes, and the limits. Nothing is decompressed. The scan of a JPEG file goes
from one marker to the next and is the only loop; it moves forward in every round.

Python's own errors are part of the model. An index is looked up and may be out of range, and a
slice is unpacked and may be too short, although neither ever happens.
-/

namespace Sentinel

/-- What `decode_image` can raise. -/
inductive ImageError
  /-- `InvalidImageError`. -/
  | invalidImage (message : String)
  /-- `UnsupportedImageError`. -/
  | unsupportedImage (message : String)
  /-- `ImageTooLargeError`. -/
  | imageTooLarge (message : String)
  /-- `IndexError`. -/
  | indexError
  /-- `struct.error`. -/
  | structError
deriving DecidableEq

/-- `MAX_IMAGE_BYTES`. -/
def maxImageBytes : ℕ := 5 * 1024 * 1024

/-- `MAX_IMAGE_PIXELS`. -/
def maxImagePixels : ℕ := 20000000

/-- `MAX_IMAGE_DIMENSION`. -/
def maxImageDimension : ℕ := 8192

/-- `ValidatedImage`. -/
structure ValidatedImage where
  data : List UInt8
  format : String
  width : ℕ
  height : ℕ
  bytesReceived : ℕ
deriving DecidableEq

namespace Image

/-! ## Bytes -/

/-- An ASCII bytes literal. -/
def bytes (text : String) : List UInt8 := text.toList.map fun c ↦ c.toNat.toUInt8

/-- `payload[position]`. -/
def byteAt (payload : List UInt8) (position : ℕ) : Except ImageError UInt8 :=
  match payload[position]? with
  | none => .error .indexError
  | some byte => .ok byte

/-- `payload[start:stop]`. -/
def slice (payload : List UInt8) (start stop : ℕ) : List UInt8 := (payload.take stop).drop start

/-- `int.from_bytes(payload, "big")`. -/
def fromBytesBig (payload : List UInt8) : ℕ :=
  payload.foldl (fun value byte ↦ 256 * value + byte.toNat) 0

/-- `int.from_bytes(payload, "little")`. -/
def fromBytesLittle (payload : List UInt8) : ℕ :=
  payload.foldr (fun byte value ↦ byte.toNat + 256 * value) 0

/-- `struct.unpack(">II", payload)`. -/
def unpackPair (payload : List UInt8) : Except ImageError (ℕ × ℕ) :=
  if payload.length = 8 then
    .ok (fromBytesBig (payload.take 4), fromBytesBig (payload.drop 4))
  else .error .structError

/-! ## The inspectors

Each of them answers the width, the height and whether the image is animated, or nothing where the
signature is not its own. -/

/-- `_PNG_SIGNATURE`. -/
def pngSignature : List UInt8 := [0x89, 0x50, 0x4e, 0x47, 0x0d, 0x0a, 0x1a, 0x0a]

/-- `_png_metadata`. -/
def pngMetadata (payload : List UInt8) : Except ImageError (Option (ℕ × ℕ × Bool)) :=
  if ¬pngSignature <+: payload then .ok none
  else if payload.length < 33 ∨ slice payload 12 16 ≠ bytes "IHDR" then
    .error (.invalidImage "PNG is missing a valid IHDR chunk")
  else
    match unpackPair (slice payload 16 24) with
    | .error error => .error error
    | .ok (width, height) => .ok (some (width, height, decide (bytes "acTL" <:+: payload)))

/-- `_JPEG_START_OF_FRAME`. -/
def jpegStartOfFrame : List UInt8 :=
  [0xc0, 0xc1, 0xc2, 0xc3, 0xc5, 0xc6, 0xc7, 0xc9, 0xca, 0xcb, 0xcd, 0xce, 0xcf]

/-- The markers that no segment follows. -/
def jpegStandalone (marker : UInt8) : Bool :=
  marker == 0x01 || marker == 0xd8 || marker == 0xd9 || (0xd0 ≤ marker && marker ≤ 0xd7)

/-- The inner loop: the position after a run of fill bytes. -/
def skipFill (payload : List UInt8) (position : ℕ) : ℕ :=
  if h : position < payload.length then
    if payload[position] = 0xff then skipFill payload (position + 1) else position
  else position
termination_by payload.length - position

theorem le_skipFill (payload : List UInt8) (position : ℕ) :
    position ≤ skipFill payload position := by
  induction position using skipFill.induct payload with
  | case1 position h hfill ih =>
    rw [skipFill, dif_pos h, if_pos hfill]
    omega
  | case2 position h hfill => rw [skipFill, dif_pos h, if_neg hfill]
  | case3 position h => rw [skipFill, dif_neg h]

/-- Where the outer loop ends without a frame. -/
def noDimensions : ImageError := .invalidImage "JPEG dimensions could not be determined"

/-- The outer loop of `_jpeg_metadata`, from a position on. -/
def jpegScan (payload : List UInt8) (position : ℕ) : Except ImageError (ℕ × ℕ × Bool) :=
  if payload.length < position + 4 then .error noDimensions
  else
    match byteAt payload position with
    | .error error => .error error
    | .ok byte =>
      if byte ≠ 0xff then jpegScan payload (position + 1)
      else if payload.length ≤ skipFill payload position then .error noDimensions
      else
        match byteAt payload (skipFill payload position) with
        | .error error => .error error
        | .ok marker =>
          if jpegStandalone marker then jpegScan payload (skipFill payload position + 1)
          else if payload.length < skipFill payload position + 3 then .error noDimensions
          else
            -- The position of the source is now the one after the marker.
            let start := skipFill payload position + 1
            let segmentLength := fromBytesBig (slice payload start (start + 2))
            if segmentLength < 2 ∨ payload.length < start + segmentLength then
              .error (.invalidImage "JPEG contains an invalid segment")
            else if marker ∈ jpegStartOfFrame then
              if segmentLength < 7 then
                .error (.invalidImage "JPEG frame header is incomplete")
              else
                let height := fromBytesBig (slice payload (start + 3) (start + 5))
                let width := fromBytesBig (slice payload (start + 5) (start + 7))
                .ok (width, height, false)
            else jpegScan payload (start + segmentLength)
termination_by payload.length - position
decreasing_by
  all_goals
    have hle := le_skipFill payload position
    omega

/-- `_jpeg_metadata`. -/
def jpegMetadata (payload : List UInt8) : Except ImageError (Option (ℕ × ℕ × Bool)) :=
  if ¬[0xff, 0xd8] <+: payload then .ok none
  else
    match jpegScan payload 2 with
    | .error error => .error error
    | .ok metadata => .ok (some metadata)

/-- `_webp_metadata`. -/
def webpMetadata (payload : List UInt8) : Except ImageError (Option (ℕ × ℕ × Bool)) :=
  if payload.length < 30 ∨ slice payload 0 4 ≠ bytes "RIFF" ∨ slice payload 8 12 ≠ bytes "WEBP" then
    .ok none
  else
    let chunk := slice payload 12 16
    if chunk = bytes "VP8X" then
      match byteAt payload 20 with
      | .error error => .error error
      | .ok flags =>
        let width := 1 + fromBytesLittle (slice payload 24 27)
        let height := 1 + fromBytesLittle (slice payload 27 30)
        .ok (some (width, height, flags &&& 0x02 ≠ 0))
    else if chunk = bytes "VP8L" then
      match byteAt payload 20 with
      | .error error => .error error
      | .ok signature =>
        if signature ≠ 0x2f then .error (.invalidImage "WebP lossless header is invalid")
        else
          let bits := fromBytesLittle (slice payload 21 25)
          .ok (some (1 + (bits &&& 0x3fff), 1 + ((bits >>> 14) &&& 0x3fff), false))
    else if chunk = bytes "VP8 " then
      if slice payload 23 26 ≠ [0x9d, 0x01, 0x2a] then
        .error (.invalidImage "WebP frame header is invalid")
      else
        let width := fromBytesLittle (slice payload 26 28) &&& 0x3fff
        let height := fromBytesLittle (slice payload 28 30) &&& 0x3fff
        .ok (some (width, height, false))
    else .error (.invalidImage "WebP uses an unsupported encoding")

/-! ## The boundary -/

/-- `inspectors`, in order. -/
def inspectors : List (String × (List UInt8 → Except ImageError (Option (ℕ × ℕ × Bool)))) :=
  [("PNG", pngMetadata), ("JPEG", jpegMetadata), ("WEBP", webpMetadata)]

/-- The loop of `_inspect`. -/
def inspectWith (payload : List UInt8) :
    List (String × (List UInt8 → Except ImageError (Option (ℕ × ℕ × Bool)))) →
      Except ImageError (String × ℕ × ℕ × Bool)
  | [] => .error (.unsupportedImage "payload is not a supported JPEG, PNG, or WebP image")
  | (formatName, inspector) :: rest =>
    match inspector payload with
    | .error error => .error error
    | .ok none => inspectWith payload rest
    | .ok (some metadata) => .ok (formatName, metadata)

/-- `_inspect`. -/
def inspect (payload : List UInt8) : Except ImageError (String × ℕ × ℕ × Bool) :=
  inspectWith payload inspectors

end Image

/-- `expected_format`. -/
def ImageMediaType.format : ImageMediaType → String
  | .jpeg => "JPEG"
  | .png => "PNG"
  | .webp => "WEBP"

open Image in
/-- `decode_image`. Base64 is a parameter that fails where the library raises. -/
def decodeImage (b64decode : String → Option (List UInt8)) (imageBase64 : String)
    (declaredMediaType : ImageMediaType) : Except ImageError ValidatedImage :=
  match b64decode imageBase64 with
  | none => .error (.invalidImage "image_base64 is not valid Base64")
  | some payload =>
    if payload = [] then .error (.invalidImage "decoded image is empty")
    else if maxImageBytes < payload.length then
      .error (.imageTooLarge "image exceeds 5242880 bytes")
    else
      match inspect payload with
      | .error error => .error error
      | .ok (actualFormat, width, height, animated) =>
        if actualFormat ≠ declaredMediaType.format then
          .error (.unsupportedImage "declared media type does not match the image signature")
        else if animated then
          .error (.unsupportedImage "animated images are not supported")
        else if width = 0 ∨ height = 0 then
          .error (.invalidImage "image dimensions must be positive")
        else if maxImageDimension < width ∨ maxImageDimension < height then
          .error (.imageTooLarge "image dimensions exceed the safe limit")
        else if maxImagePixels < width * height then
          .error (.imageTooLarge "image exceeds the safe decoded-pixel limit")
        else .ok ⟨payload, actualFormat, width, height, payload.length⟩

theorem pos_of_decodeImage {b64decode : String → Option (List UInt8)} {imageBase64 : String}
    {declaredMediaType : ImageMediaType} {image : ValidatedImage}
    (h : decodeImage b64decode imageBase64 declaredMediaType = .ok image) :
    0 < image.width ∧ 0 < image.height ∧ 0 < image.bytesReceived := by
  rw [decodeImage] at h
  cases hdecode : b64decode imageBase64 with
  | none =>
    rw [hdecode] at h
    cases h
  | some payload =>
    simp only [hdecode] at h
    cases hinspect : Image.inspect payload with
    | error error =>
      simp only [hinspect] at h
      split_ifs at h
    | ok metadata =>
      obtain ⟨actualFormat, width, height, animated⟩ := metadata
      simp only [hinspect] at h
      split_ifs at h with hempty _ _ _ hpos
      rw [← Except.ok.inj h]
      rw [not_or] at hpos
      exact ⟨Nat.pos_of_ne_zero hpos.1, Nat.pos_of_ne_zero hpos.2, List.length_pos_iff.mpr hempty⟩

end Sentinel
