import Sentinel.Core.Engine

/-!
# The multimodal schemas

The request, the response and the image metadata of the multimodal endpoint. A request that exists
has passed its checks, so the checks are fields of the record; the text request that the fusion
builds from it is checked once more, and passes.
-/

namespace Sentinel

open Text

/-- `ImageMediaType`. -/
inductive ImageMediaType
  | jpeg
  | png
  | webp
deriving DecidableEq

/-! ## Texts and ids -/

/-- `str_strip_whitespace`. The separators `\x1c` to `\x1f` are blanks to `str.strip` only. -/
def trim (text : String) : String :=
  let isWhitespace (c : Char) : Bool := isSpace c && !(0x1c ≤ c.toNat && c.toNat ≤ 0x1f)
  String.ofList ((text.toList.dropWhile isWhitespace).rdropWhile isWhitespace)

/-- What the schemas have checked of a text. -/
structure ValidText (text : String) : Prop where
  trim_eq : trim text = text
  /-- `max_length=5_000`. -/
  length_le : text.length ≤ 5000
  /-- `reject_blank_text` and `reject_blank_optional_text`. -/
  isBlank_eq : isBlank text.toList = false

/-- What the schemas have checked of an id. -/
structure ValidId (requestId : String) : Prop where
  trim_eq : trim requestId = requestId
  /-- `min_length=1, max_length=128`. -/
  length_mem : 1 ≤ requestId.length ∧ requestId.length ≤ 128

/-- `ModerationRequest(text=text, request_id=request_id)`. The error names the first field. -/
def ModerationRequest.create (text requestId : String) :
    Except ValidationError ModerationRequest :=
  let text := trim text
  let requestId := trim requestId
  if text.length < 1 ∨ 5000 < text.length ∨ isBlank text.toList = true then
    .error ⟨"ModerationRequest", "text"⟩
  else if requestId.length < 1 ∨ 128 < requestId.length then
    .error ⟨"ModerationRequest", "request_id"⟩
  else .ok ⟨text, some requestId⟩

theorem ModerationRequest.create_eq_ok {text requestId : String} (htext : ValidText text)
    (hid : ValidId requestId) : create text requestId = .ok ⟨text, some requestId⟩ := by
  have hpos : ¬text.length < 1 := by
    intro hlt
    have hnil : text.toList = [] := by
      rw [← List.length_eq_zero_iff, String.length_toList]
      omega
    have hblank := htext.isBlank_eq
    rw [hnil] at hblank
    cases hblank
  have hle := htext.length_le
  have hmem := hid.length_mem
  rw [create, htext.trim_eq, hid.trim_eq, if_neg, if_neg]
  · omega
  · rw [htext.isBlank_eq]
    simp only [Bool.false_eq_true, or_false]
    omega

/-! ## Requests and responses -/

/-- `MultimodalModerationRequest`. -/
structure MultimodalModerationRequest where
  imageBase64 : String
  mediaType : ImageMediaType
  text : Option String := none
  requestId : Option String := none
  /-- `min_length=1, max_length=7_000_000`. -/
  imageBase64_valid : trim imageBase64 = imageBase64 ∧ 1 ≤ imageBase64.length ∧
    imageBase64.length ≤ 7000000
  text_valid : ∀ given ∈ text, ValidText given
  requestId_valid : ∀ given ∈ requestId, ValidId given

/-- The request without its text. -/
def MultimodalModerationRequest.imageOnly (request : MultimodalModerationRequest) :
    MultimodalModerationRequest :=
  { request with
    text := none
    text_valid := by
      intro given h
      cases h }

/-- `ImageMetadata`, with its bounds. -/
structure ImageMetadata where
  format : String
  width : ℕ
  height : ℕ
  bytesReceived : ℕ
  /-- `Field(gt=0)`. -/
  pos : 0 < width ∧ 0 < height ∧ 0 < bytesReceived
deriving DecidableEq

/-- `MultimodalModerationResponse`. -/
structure MultimodalModerationResponse extends ModerationResponse where
  modalities : List String
  image : ImageMetadata
deriving DecidableEq

end Sentinel
