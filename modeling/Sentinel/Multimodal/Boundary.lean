import Sentinel.Multimodal.Image

/-!
# What the image boundary accepts

Whatever the bytes are, the boundary answers with an image within the limits or raises one of its
three errors. The inspectors look at positions that they have checked before, so neither an index
nor an unpacking fails. The scan of a JPEG file ends in one round, goes on further behind, or has
found a frame; a frame is read only where the segment lies in the payload as a whole.
-/

namespace Sentinel

namespace Image

variable {payload : List UInt8} {position : ℕ}

theorem byteAt_of_lt (h : position < payload.length) :
    byteAt payload position = .ok payload[position] := by
  rw [byteAt, List.getElem?_eq_getElem h]

/-! ## The scan of a JPEG file -/

theorem skipFill_of_ne {h : position < payload.length} (hne : payload[position] ≠ 0xff) :
    skipFill payload position = position := by
  rw [skipFill, dif_pos h, if_neg hne]

theorem skipFill_of_eq {h : position < payload.length} (heq : payload[position] = 0xff) :
    skipFill payload position = skipFill payload (position + 1) := by
  rw [skipFill, dif_pos h, if_pos heq]

theorem getElem?_of_lt_skipFill {i : ℕ} (hi : position ≤ i) (hlt : i < skipFill payload position) :
    payload[i]? = some 0xff := by
  induction position using skipFill.induct payload with
  | case1 position h hfill ih =>
    rcases Nat.eq_or_lt_of_le hi with rfl | hi
    · rw [List.getElem?_eq_getElem h, hfill]
    · rw [skipFill_of_eq hfill] at hlt
      exact ih hi hlt
  | case2 position h hne =>
    rw [skipFill_of_ne hne] at hlt
    omega
  | case3 position h =>
    rw [skipFill, dif_neg h] at hlt
    omega

/-- A start-of-frame segment that lies in the payload, with the dimensions in it. -/
structure FrameSegment (payload : List UInt8) where
  /-- The position of the last fill byte. -/
  position : ℕ
  fill_eq : payload[position]? = some 0xff
  marker : UInt8
  marker_eq : payload[position + 1]? = some marker
  marker_mem : marker ∈ jpegStartOfFrame
  segmentLength : ℕ
  segmentLength_eq : segmentLength = fromBytesBig (slice payload (position + 2) (position + 4))
  /-- The header with the dimensions is complete. -/
  seven_le : 7 ≤ segmentLength
  inside : position + 2 + segmentLength ≤ payload.length
  height : ℕ
  height_eq : height = fromBytesBig (slice payload (position + 5) (position + 7))
  width : ℕ
  width_eq : width = fromBytesBig (slice payload (position + 7) (position + 9))

/-- One round of the scan at a run of fill bytes with a marker behind it. -/
theorem jpegScan_fill {stop : ℕ} {marker : UInt8} (hend : position + 4 ≤ payload.length)
    (hfill : payload[position]? = some 0xff) (hskip : skipFill payload position = stop)
    (hmarker : payload[stop]? = some marker) :
    jpegScan payload position =
      if jpegStandalone marker then jpegScan payload (stop + 1)
      else if payload.length < stop + 3 then .error noDimensions
      else
        let segmentLength := fromBytesBig (slice payload (stop + 1) (stop + 3))
        if segmentLength < 2 ∨ payload.length < stop + 1 + segmentLength then
          .error (.invalidImage "JPEG contains an invalid segment")
        else if marker ∈ jpegStartOfFrame then
          if segmentLength < 7 then .error (.invalidImage "JPEG frame header is incomplete")
          else .ok (fromBytesBig (slice payload (stop + 6) (stop + 8)),
            fromBytesBig (slice payload (stop + 4) (stop + 6)), false)
        else jpegScan payload (stop + 1 + segmentLength) := by
  obtain ⟨hposition, hff⟩ := List.getElem?_eq_some_iff.mp hfill
  obtain ⟨hstop, hbyte⟩ := List.getElem?_eq_some_iff.mp hmarker
  rw [jpegScan, if_neg (Nat.not_lt_of_le hend), byteAt_of_lt hposition, hff]
  dsimp only
  rw [if_neg (not_not.mpr rfl), hskip, if_neg (Nat.not_le_of_lt hstop), byteAt_of_lt hstop, hbyte]

theorem jpegScan_cases (payload : List UInt8) (position : ℕ) :
    (∃ message, jpegScan payload position = .error (.invalidImage message)) ∨
    (∃ next, position < next ∧ position < payload.length ∧
      jpegScan payload position = jpegScan payload next) ∨
    ∃ frame : FrameSegment payload,
      jpegScan payload position = .ok (frame.width, frame.height, false) := by
  by_cases hend : payload.length < position + 4
  · rw [jpegScan, if_pos hend]
    exact .inl ⟨_, rfl⟩
  have hlt : position < payload.length := by omega
  by_cases hfill : payload[position] = 0xff
  swap
  · rw [jpegScan, if_neg hend, byteAt_of_lt hlt]
    dsimp only
    rw [if_pos hfill]
    exact .inr (.inl ⟨position + 1, Nat.lt_succ_self position, hlt, rfl⟩)
  have hfill' : payload[position]? = some 0xff := by rw [List.getElem?_eq_getElem hlt, hfill]
  -- the byte before the marker ends the run of fill bytes
  obtain ⟨last, hle, hskip⟩ : ∃ last, position ≤ last ∧ skipFill payload position = last + 1 := by
    have hle : position + 1 ≤ skipFill payload position := by
      rw [skipFill_of_eq hfill]
      exact le_skipFill payload (position + 1)
    exact ⟨skipFill payload position - 1, by omega, by omega⟩
  by_cases hover : payload.length ≤ last + 1
  · rw [jpegScan, if_neg hend, byteAt_of_lt hlt]
    dsimp only
    rw [if_neg (not_not.mpr hfill), hskip, if_pos hover]
    exact .inl ⟨_, rfl⟩
  have hmarker : payload[last + 1]? = some payload[last + 1] :=
    List.getElem?_eq_getElem (Nat.lt_of_not_le hover)
  rw [jpegScan_fill (Nat.le_of_not_lt hend) hfill' hskip hmarker]
  dsimp only
  split_ifs with hstandalone hlength hinvalid hframe hheader
  · exact .inr (.inl ⟨last + 2, by omega, hlt, rfl⟩)
  · exact .inl ⟨_, rfl⟩
  · exact .inl ⟨_, rfl⟩
  · exact .inl ⟨_, rfl⟩
  · rw [not_or] at hinvalid
    exact .inr (.inr ⟨⟨last, getElem?_of_lt_skipFill hle (by omega), payload[last + 1], hmarker,
      hframe, _, rfl, Nat.le_of_not_lt hheader, Nat.le_of_not_lt hinvalid.2, _, rfl, _, rfl⟩, rfl⟩)
  · exact .inr (.inl ⟨last + 2 + fromBytesBig (slice payload (last + 2) (last + 4)), by omega, hlt,
      rfl⟩)

theorem jpegScan_eq (payload : List UInt8) (position : ℕ) :
    (∃ message, jpegScan payload position = .error (.invalidImage message)) ∨
    ∃ frame : FrameSegment payload,
      jpegScan payload position = .ok (frame.width, frame.height, false) := by
  rcases jpegScan_cases payload position with herror | ⟨next, hnext, hlt, hscan⟩ | hframe
  · exact .inl herror
  · rw [hscan]
    exact jpegScan_eq payload next
  · exact .inr hframe
termination_by payload.length - position

/-! ## The inspectors -/

def HasSignature (payload : List UInt8) : ImageMediaType → Prop
  | .png => pngSignature <+: payload
  | .jpeg => [0xff, 0xd8] <+: payload
  | .webp => slice payload 0 4 = bytes "RIFF" ∧ slice payload 8 12 = bytes "WEBP"

/-- The dimensions are those in a frame. -/
def ReadsFrame (payload : List UInt8) (width height : ℕ) : Prop :=
  ∃ frame : FrameSegment payload, frame.width = width ∧ frame.height = height

/-- An inspector passes a payload on, raises `InvalidImageError`, or answers for its format. -/
inductive Inspected (payload : List UInt8) (mediaType : ImageMediaType) :
    Except ImageError (Option (ℕ × ℕ × Bool)) → Prop
  | passed : Inspected payload mediaType (.ok none)
  | invalid (message : String) : Inspected payload mediaType (.error (.invalidImage message))
  | answered (width height : ℕ) (animated : Bool) (hsignature : HasSignature payload mediaType)
      (hframe : mediaType = .jpeg → ReadsFrame payload width height) :
      Inspected payload mediaType (.ok (some (width, height, animated)))

theorem inspected_pngMetadata (payload : List UInt8) :
    Inspected payload .png (pngMetadata payload) := by
  rw [pngMetadata]
  by_cases hsignature : pngSignature <+: payload
  swap
  · rw [if_pos hsignature]
    exact .passed
  rw [if_neg (not_not.mpr hsignature)]
  by_cases hheader : payload.length < 33 ∨ slice payload 12 16 ≠ bytes "IHDR"
  · rw [if_pos hheader]
    exact .invalid _
  rw [if_neg hheader]
  have hlength : (slice payload 16 24).length = 8 := by
    rw [slice, List.length_drop, List.length_take]
    omega
  rw [unpackPair, if_pos hlength]
  exact .answered _ _ _ hsignature nofun

theorem inspected_jpegMetadata (payload : List UInt8) :
    Inspected payload .jpeg (jpegMetadata payload) := by
  rw [jpegMetadata]
  by_cases hsignature : [0xff, 0xd8] <+: payload
  swap
  · rw [if_pos hsignature]
    exact .passed
  rw [if_neg (not_not.mpr hsignature)]
  rcases jpegScan_eq payload 2 with ⟨message, hscan⟩ | ⟨frame, hscan⟩
  · rw [hscan]
    exact .invalid message
  · rw [hscan]
    exact .answered _ _ _ hsignature fun _ ↦ ⟨frame, rfl, rfl⟩

theorem inspected_webpMetadata (payload : List UInt8) :
    Inspected payload .webp (webpMetadata payload) := by
  rw [webpMetadata]
  by_cases hother : payload.length < 30 ∨ slice payload 0 4 ≠ bytes "RIFF" ∨
      slice payload 8 12 ≠ bytes "WEBP"
  · rw [if_pos hother]
    exact .passed
  rw [if_neg hother]
  simp only [not_or, not_not] at hother
  obtain ⟨hlength, hsignature⟩ := hother
  have hflags : 20 < payload.length := by omega
  rw [byteAt_of_lt hflags]
  dsimp only
  split_ifs
  · exact .answered _ _ _ hsignature nofun
  · exact .invalid _
  · exact .answered _ _ _ hsignature nofun
  · exact .invalid _
  · exact .answered _ _ _ hsignature nofun
  · exact .invalid _

/-- The format of the answer is that of an inspector, and its signature is there. -/
theorem inspect_eq (payload : List UInt8) :
    (∃ message, inspect payload = .error (.invalidImage message)) ∨
    (∃ message, inspect payload = .error (.unsupportedImage message)) ∨
    ∃ mediaType width height animated,
      inspect payload = .ok (mediaType.format, width, height, animated) ∧
        HasSignature payload mediaType ∧ (mediaType = .jpeg → ReadsFrame payload width height) := by
  have hpng := inspected_pngMetadata payload
  have hjpeg := inspected_jpegMetadata payload
  have hwebp := inspected_webpMetadata payload
  rw [inspect, inspectors, inspectWith]
  generalize pngMetadata payload = png at hpng
  cases hpng with
  | invalid message => exact .inl ⟨message, rfl⟩
  | answered width height animated hsignature hframe =>
    exact .inr (.inr ⟨.png, width, height, animated, rfl, hsignature, hframe⟩)
  | passed =>
    dsimp only
    rw [inspectWith]
    generalize jpegMetadata payload = jpeg at hjpeg
    cases hjpeg with
    | invalid message => exact .inl ⟨message, rfl⟩
    | answered width height animated hsignature hframe =>
      exact .inr (.inr ⟨.jpeg, width, height, animated, rfl, hsignature, hframe⟩)
    | passed =>
      dsimp only
      rw [inspectWith]
      generalize webpMetadata payload = webp at hwebp
      cases hwebp with
      | invalid message => exact .inl ⟨message, rfl⟩
      | answered width height animated hsignature hframe =>
        exact .inr (.inr ⟨.webp, width, height, animated, rfl, hsignature, hframe⟩)
      | passed => exact .inr (.inl ⟨_, rfl⟩)

end Image

/-! ## The boundary -/

open Image

theorem ImageMediaType.format_injective : Function.Injective ImageMediaType.format := by
  intro first second h
  cases first <;> cases second <;> first | rfl | exact absurd h (by decide)

structure ValidatedImage.WithinLimits (image : ValidatedImage)
    (declaredMediaType : ImageMediaType) : Prop where
  bytesReceived_eq : image.bytesReceived = image.data.length
  length_mem : 1 ≤ image.data.length ∧ image.data.length ≤ maxImageBytes
  format_eq : image.format = declaredMediaType.format
  signature : HasSignature image.data declaredMediaType
  width_mem : 1 ≤ image.width ∧ image.width ≤ maxImageDimension
  height_mem : 1 ≤ image.height ∧ image.height ≤ maxImageDimension
  pixels_le : image.width * image.height ≤ maxImagePixels
  readsFrame : declaredMediaType = .jpeg → ReadsFrame image.data image.width image.height

/-- **The image boundary is total and its acceptances are within limits**: for every Base64 text and
every declared type it answers with an image within the limits or raises one of three errors. -/
theorem decodeImage_total (b64decode : String → Option (List UInt8)) (imageBase64 : String)
    (declaredMediaType : ImageMediaType) :
    (∃ message, decodeImage b64decode imageBase64 declaredMediaType
      = .error (.invalidImage message)) ∨
    (∃ message, decodeImage b64decode imageBase64 declaredMediaType
      = .error (.unsupportedImage message)) ∨
    (∃ message, decodeImage b64decode imageBase64 declaredMediaType
      = .error (.imageTooLarge message)) ∨
    ∃ image, decodeImage b64decode imageBase64 declaredMediaType = .ok image ∧
      b64decode imageBase64 = some image.data ∧ image.WithinLimits declaredMediaType := by
  rw [decodeImage]
  cases hdecode : b64decode imageBase64 with
  | none => exact .inl ⟨_, rfl⟩
  | some payload =>
    dsimp only
    by_cases hempty : payload = []
    · rw [if_pos hempty]
      exact .inl ⟨_, rfl⟩
    rw [if_neg hempty]
    by_cases hbytes : maxImageBytes < payload.length
    · rw [if_pos hbytes]
      exact .inr (.inr (.inl ⟨_, rfl⟩))
    rw [if_neg hbytes]
    rcases inspect_eq payload with ⟨message, hinspect⟩ | ⟨message, hinspect⟩ |
      ⟨mediaType, width, height, animated, hinspect, hsignature, hframe⟩
    · rw [hinspect]
      exact .inl ⟨message, rfl⟩
    · rw [hinspect]
      exact .inr (.inl ⟨message, rfl⟩)
    rw [hinspect]
    dsimp only
    split_ifs with hformat hanimated hpos hdimension hpixels
    · exact .inr (.inl ⟨_, rfl⟩)
    · exact .inr (.inl ⟨_, rfl⟩)
    · exact .inl ⟨_, rfl⟩
    · exact .inr (.inr (.inl ⟨_, rfl⟩))
    · exact .inr (.inr (.inl ⟨_, rfl⟩))
    · obtain rfl := ImageMediaType.format_injective (not_not.mp hformat)
      rw [not_or] at hpos hdimension
      exact .inr (.inr (.inr ⟨_, rfl, rfl, rfl,
        ⟨List.length_pos_iff.mpr hempty, Nat.le_of_not_lt hbytes⟩, rfl, hsignature,
        ⟨Nat.pos_of_ne_zero hpos.1, Nat.le_of_not_lt hdimension.1⟩,
        ⟨Nat.pos_of_ne_zero hpos.2, Nat.le_of_not_lt hdimension.2⟩, Nat.le_of_not_lt hpixels,
        hframe⟩))

end Sentinel
