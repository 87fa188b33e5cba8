import Sentinel.Bytes.Layout
import Sentinel.Multimodal.Boundary

/-!
# WebP files

A WebP file begins with a container of one chunk, and the type of that chunk says how the
dimensions are written: in 24 bits each, less one, next to the flag for animations; in 14 bits each,
less one, packed into one number; or in the low 14 bits of two numbers whose high bits are scales.
The inspector reads all three kinds back, and what it answers for is always such a file. It asks for
30 bytes, which a lossless file need not have.
-/

namespace Sentinel

open Bytes

namespace Image

/-! ## Files -/

inductive WebpHeader
  /-- `VP8X`: flags and a canvas. -/
  | extended (flags : UInt8) (reserved : List UInt8) (hreserved : reserved.length = 3)
      (width height : ℕ) (hwidth : 1 ≤ width ∧ width ≤ 16777216)
      (hheight : 1 ≤ height ∧ height ≤ 16777216)
  /-- `VP8L`: dimensions, and four bits for transparency and the version. -/
  | lossless (width height others : ℕ) (hwidth : 1 ≤ width ∧ width ≤ 16384)
      (hheight : 1 ≤ height ∧ height ≤ 16384) (hothers : others < 16)
  /-- `VP8 `: the tag of a key frame, and dimensions with their scales. -/
  | lossy (frameTag : List UInt8) (hframeTag : frameTag.length = 3)
      (width height widthScale heightScale : ℕ) (hwidth : width < 16384) (hheight : height < 16384)
      (hwidthScale : widthScale < 4) (hheightScale : heightScale < 4)

namespace WebpHeader

def width : WebpHeader → ℕ
  | .extended _ _ _ width _ _ _ | .lossless width _ _ _ _ _ | .lossy _ _ width _ _ _ _ _ _ _ =>
    width

def height : WebpHeader → ℕ
  | .extended _ _ _ _ height _ _ | .lossless _ height _ _ _ _ | .lossy _ _ _ height _ _ _ _ _ _ =>
    height

def animated : WebpHeader → Bool
  | .extended flags _ _ _ _ _ _ => flags.toNat.testBit 1
  | .lossless .. | .lossy .. => false

def chunkType : WebpHeader → List UInt8
  | .extended .. => bytes "VP8X"
  | .lossless .. => bytes "VP8L"
  | .lossy .. => bytes "VP8 "

def data : WebpHeader → List UInt8
  | .extended flags reserved _ width height _ _ =>
    [flags] ++ (reserved ++ (toLittleEndian 3 (width - 1) ++ toLittleEndian 3 (height - 1)))
  | .lossless width height others _ _ _ =>
    [0x2f] ++ toLittleEndian 4 (width - 1 + 16384 * (height - 1 + 16384 * others))
  | .lossy frameTag _ width height widthScale heightScale _ _ _ _ =>
    frameTag ++ ([0x9d, 0x01, 0x2a] ++ (toLittleEndian 2 (width + 16384 * widthScale)
      ++ toLittleEndian 2 (height + 16384 * heightScale)))

theorem length_chunkType (header : WebpHeader) : header.chunkType.length = 4 := by
  cases header with
  | extended => exact (by decide : (bytes "VP8X").length = 4)
  | lossless => exact (by decide : (bytes "VP8L").length = 4)
  | lossy => exact (by decide : (bytes "VP8 ").length = 4)

end WebpHeader

/-- A file: the sizes in its container, what the chunk declares, and whatever follows. -/
structure WebpFile where
  riffSize : List UInt8
  riffSize_length : riffSize.length = 4
  chunkSize : List UInt8
  chunkSize_length : chunkSize.length = 4
  header : WebpHeader
  after : List UInt8

/-- What stands before the chunk's data. -/
def WebpFile.front (file : WebpFile) : List UInt8 :=
  bytes "RIFF" ++ (file.riffSize ++ (bytes "WEBP" ++ (file.header.chunkType ++ file.chunkSize)))

def WebpFile.encode (file : WebpFile) : List UInt8 :=
  file.front ++ (file.header.data ++ file.after)

/-! ## Reading a file -/

theorem WebpFile.length_front (file : WebpFile) : file.front.length = 20 := by
  have hriff : (bytes "RIFF").length = 4 := by decide
  have hwebp : (bytes "WEBP").length = 4 := by decide
  simp only [front, List.length_append, hriff, hwebp, file.riffSize_length, file.chunkSize_length,
    file.header.length_chunkType]

theorem WebpFile.marks (file : WebpFile) : slice file.encode 0 4 = bytes "RIFF" ∧
    slice file.encode 8 12 = bytes "WEBP" ∧
      slice file.encode 12 16 = file.header.chunkType := by
  have hriff : (bytes "RIFF").length = 4 := by decide
  have hwebp : (bytes "WEBP").length = 4 := by decide
  set data := file.header.data ++ file.after
  have hfirst : file.encode = [] ++ (bytes "RIFF" ++ (file.riffSize ++ (bytes "WEBP"
      ++ (file.header.chunkType ++ (file.chunkSize ++ data))))) := by
    simp [encode, front, data]
  have hsecond : file.encode = (bytes "RIFF" ++ file.riffSize) ++ (bytes "WEBP"
      ++ (file.header.chunkType ++ (file.chunkSize ++ data))) := by
    simp [encode, front, data]
  have hthird : file.encode = (bytes "RIFF" ++ (file.riffSize ++ bytes "WEBP"))
      ++ (file.header.chunkType ++ (file.chunkSize ++ data)) := by
    simp [encode, front, data]
  refine ⟨?_, ?_, ?_⟩
  · rw [hfirst]
    exact drop_take_append _ _ _ rfl (by rw [hriff])
  · rw [hsecond]
    exact drop_take_append _ _ _ (by rw [List.length_append, hriff, file.riffSize_length])
      (by rw [hwebp])
  · rw [hthird]
    exact drop_take_append _ _ _
      (by rw [List.length_append, List.length_append, hriff, hwebp, file.riffSize_length])
      (by rw [file.header.length_chunkType])

theorem WebpFile.slice_encode (file : WebpFile) {before field rest : List UInt8} {start stop : ℕ}
    (hdata : file.header.data = before ++ (field ++ rest)) (hstart : 20 + before.length = start)
    (hstop : start + field.length = stop) : slice file.encode start stop = field := by
  have hsplit : file.encode = (file.front ++ before) ++ (field ++ (rest ++ file.after)) := by
    simp [encode, hdata]
  rw [hsplit]
  exact drop_take_append _ _ _ (by rw [List.length_append, file.length_front, hstart]) hstop

theorem WebpFile.byteAt_encode (file : WebpFile) {byte : UInt8} {rest : List UInt8}
    (hdata : file.header.data = [byte] ++ rest) : byteAt file.encode 20 = .ok byte := by
  have hbyte : file.encode[20]? = some byte := by
    rw [encode, List.getElem?_append_right file.length_front.le, file.length_front, hdata]
    rfl
  rw [byteAt, hbyte]

theorem WebpFile.read_encode (file : WebpFile) {before rest : List UInt8} {width n start stop : ℕ}
    (hn : n < 256 ^ width) (hdata : file.header.data = before ++ (toLittleEndian width n ++ rest))
    (hstart : 20 + before.length = start) (hstop : start + width = stop) :
    fromBytesLittle (slice file.encode start stop) = n := by
  rw [file.slice_encode hdata hstart (by rw [length_toLittleEndian, hstop])]
  exact ofLittleEndian_toLittleEndian hn

theorem flag_eq_testBit (flags : UInt8) : decide (flags &&& 0x02 ≠ 0) = flags.toNat.testBit 1 := by
  have hall : ∀ n : Fin 256,
      decide (UInt8.ofNat n &&& 0x02 ≠ 0) = (UInt8.ofNat n).toNat.testBit 1 := by
    decide +kernel
  have hflags := hall ⟨flags.toNat, flags.toNat_lt⟩
  rwa [UInt8.ofNat_toNat] at hflags

theorem low_bits (n : ℕ) : n &&& 0x3fff = n % 16384 := Nat.and_two_pow_sub_one_eq_mod n 14

theorem next_bits (n : ℕ) : (n >>> 14) &&& 0x3fff = n / 16384 % 16384 := by
  rw [low_bits, Nat.shiftRight_eq_div_pow]

theorem webpMetadata_encode (file : WebpFile) (hlong : 30 ≤ file.encode.length) :
    webpMetadata file.encode
      = .ok (some (file.header.width, file.header.height, file.header.animated)) := by
  obtain ⟨hriff, hwebp, htype⟩ := file.marks
  have hcontainer : ¬(file.encode.length < 30 ∨ slice file.encode 0 4 ≠ bytes "RIFF" ∨
      slice file.encode 8 12 ≠ bytes "WEBP") := by
    rintro (hshort | hriff' | hwebp')
    · omega
    · exact hriff' hriff
    · exact hwebp' hwebp
  rw [webpMetadata, if_neg hcontainer]
  dsimp only
  rw [htype]
  cases hheader : file.header with
  | extended flags reserved hreserved width height hwidth hheight =>
    have hdata : file.header.data = [flags]
        ++ (reserved ++ (toLittleEndian 3 (width - 1) ++ toLittleEndian 3 (height - 1))) := by
      rw [hheader]
      rfl
    have hsplit : file.header.data = ([flags] ++ (reserved ++ toLittleEndian 3 (width - 1)))
        ++ (toLittleEndian 3 (height - 1) ++ []) := by
      rw [hdata]
      simp
    have hreadWidth : fromBytesLittle (slice file.encode 24 27) = width - 1 :=
      file.read_encode (by omega) (hdata.trans (List.append_assoc [flags] reserved _).symm)
        (by simp [hreserved]) rfl
    have hreadHeight : fromBytesLittle (slice file.encode 27 30) = height - 1 :=
      file.read_encode (by omega) hsplit (by simp [hreserved]) rfl
    rw [WebpHeader.chunkType, if_pos rfl, file.byteAt_encode hdata]
    dsimp only
    rw [hreadWidth, hreadHeight, flag_eq_testBit, Nat.add_sub_cancel' hwidth.1,
      Nat.add_sub_cancel' hheight.1]
    rfl
  | lossless width height others hwidth hheight hothers =>
    set packed := width - 1 + 16384 * (height - 1 + 16384 * others) with hpacked
    have hdata : file.header.data = [0x2f] ++ toLittleEndian 4 packed := by
      rw [hheader]
      rfl
    have hsplit : file.header.data = [0x2f] ++ (toLittleEndian 4 packed ++ []) := by
      rw [hdata, List.append_nil]
    have hread : fromBytesLittle (slice file.encode 21 25) = packed :=
      file.read_encode (by omega) hsplit rfl rfl
    have hwidthBits : packed % 16384 = width - 1 := by omega
    have hheightBits : packed / 16384 % 16384 = height - 1 := by omega
    rw [WebpHeader.chunkType, if_neg (by decide), if_pos rfl, file.byteAt_encode hdata]
    dsimp only
    rw [if_neg (not_not.mpr rfl), hread, low_bits, next_bits, hwidthBits, hheightBits,
      Nat.add_sub_cancel' hwidth.1, Nat.add_sub_cancel' hheight.1]
    rfl
  | lossy frameTag hframeTag width height widthScale heightScale hwidth hheight hwidthScale
      hheightScale =>
    set first := toLittleEndian 2 (width + 16384 * widthScale) with hfirst
    set second := toLittleEndian 2 (height + 16384 * heightScale) with hsecond
    have hdata : file.header.data = frameTag ++ ([0x9d, 0x01, 0x2a] ++ (first ++ second)) := by
      rw [hheader]
      rfl
    have hsplitWidth : file.header.data = (frameTag ++ [0x9d, 0x01, 0x2a]) ++ (first ++ second) :=
      hdata.trans (List.append_assoc _ _ _).symm
    have hsplitHeight : file.header.data
        = (frameTag ++ ([0x9d, 0x01, 0x2a] ++ first)) ++ (second ++ []) := by
      rw [hdata]
      simp
    have hstart : slice file.encode 23 26 = [0x9d, 0x01, 0x2a] :=
      file.slice_encode hdata (by rw [hframeTag]) rfl
    have hreadWidth : fromBytesLittle (slice file.encode 26 28) = width + 16384 * widthScale :=
      file.read_encode (by omega) hsplitWidth (by simp [hframeTag]) rfl
    have hreadHeight : fromBytesLittle (slice file.encode 28 30) = height + 16384 * heightScale :=
      file.read_encode (by omega) hsplitHeight (by simp [hframeTag, hfirst]) rfl
    rw [WebpHeader.chunkType, if_neg (by decide), if_neg (by decide), if_pos rfl,
      if_neg (not_not.mpr hstart), hreadWidth, hreadHeight, low_bits, low_bits,
      Nat.add_mul_mod_self_left, Nat.add_mul_mod_self_left, Nat.mod_eq_of_lt hwidth,
      Nat.mod_eq_of_lt hheight]
    rfl

/-- A lossless file of 28 bytes. -/
example : webpMetadata (bytes "RIFF" ++ [20, 0, 0, 0] ++ bytes "WEBPVP8L" ++
    [8, 0, 0, 0, 0x2f, 0, 0, 0, 0x10, 0x88, 0x88, 0x08]) = .ok none := by decide

/-! ## Every answer is about a file -/

variable {payload : List UInt8}

theorem length_slice {start stop : ℕ} (h : stop ≤ payload.length) :
    (slice payload start stop).length = stop - start := by
  rw [slice, List.length_drop, List.length_take, min_eq_left h]

theorem slice_singleton {position : ℕ} (h : position < payload.length) :
    slice payload position (position + 1) = [payload[position]] := by
  rw [slice, List.drop_take, Nat.add_sub_cancel_left, List.drop_eq_getElem_cons h]
  rfl

theorem slice_eq_toLittleEndian (payload : List UInt8) (start stop : ℕ) {width : ℕ}
    (h : stop ≤ payload.length) (hwidth : stop - start = width) :
    slice payload start stop = toLittleEndian width (fromBytesLittle (slice payload start stop)) ∧
      fromBytesLittle (slice payload start stop) < 256 ^ width := by
  have hlength : (slice payload start stop).length = width := (length_slice h).trans hwidth
  constructor
  · have hread := toLittleEndian_ofLittleEndian (slice payload start stop)
    rw [hlength] at hread
    exact hread.symm
  · have hlt := ofLittleEndian_lt (slice payload start stop)
    rwa [hlength] at hlt

theorem exists_file (hlength : 20 ≤ payload.length) (hriff : slice payload 0 4 = bytes "RIFF")
    (hwebp : slice payload 8 12 = bytes "WEBP") (header : WebpHeader)
    (htype : slice payload 12 16 = header.chunkType) (after : List UInt8)
    (hdata : payload.drop 20 = header.data ++ after) :
    ∃ file : WebpFile, file.encode = payload := by
  refine ⟨⟨slice payload 4 8, length_slice (by omega), slice payload 16 20,
    length_slice (by omega), header, after⟩, ?_⟩
  have hpayload : payload = slice payload 0 4 ++ (slice payload 4 8 ++ (slice payload 8 12
      ++ (slice payload 12 16 ++ (slice payload 16 20 ++ payload.drop 20)))) :=
    calc payload = payload.drop 0 := rfl
      _ = _ := by
        rw [drop_eq_append payload (by decide : 0 ≤ 4), drop_eq_append payload (by decide : 4 ≤ 8),
          drop_eq_append payload (by decide : 8 ≤ 12), drop_eq_append payload (by decide : 12 ≤ 16),
          drop_eq_append payload (by decide : 16 ≤ 20)]
        rfl
  conv_rhs => rw [hpayload, hriff, hwebp, htype, hdata]
  simp only [WebpFile.encode, WebpFile.front, List.append_assoc]

/-- **What the inspector accepts is well formed.** -/
theorem exists_file_of_webpMetadata {metadata : ℕ × ℕ × Bool}
    (h : webpMetadata payload = .ok (some metadata)) :
    30 ≤ payload.length ∧ ∃ file : WebpFile, file.encode = payload := by
  rw [webpMetadata] at h
  by_cases hother : payload.length < 30 ∨ slice payload 0 4 ≠ bytes "RIFF" ∨
      slice payload 8 12 ≠ bytes "WEBP"
  · rw [if_pos hother] at h
    cases h
  rw [if_neg hother] at h
  simp only [not_or, not_not] at hother
  obtain ⟨hlength, hriff, hwebp⟩ := hother
  have hlength : 30 ≤ payload.length := Nat.le_of_not_lt hlength
  refine ⟨hlength, ?_⟩
  have hflags : 20 < payload.length := by omega
  have hfirst : slice payload 20 21 = [payload[20]] := slice_singleton hflags
  rw [byteAt_of_lt hflags] at h
  dsimp only at h
  split_ifs at h with hextended hlossless hsignature hlossy hstart
  · obtain ⟨hwidth, hwidthLt⟩ :=
      slice_eq_toLittleEndian payload 24 27 (by omega) rfl
    obtain ⟨hheight, hheightLt⟩ :=
      slice_eq_toLittleEndian payload 27 30 (by omega) rfl
    set width := fromBytesLittle (slice payload 24 27)
    set height := fromBytesLittle (slice payload 27 30)
    refine exists_file (by omega) hriff hwebp
      (.extended payload[20] (slice payload 21 24) (length_slice (by omega)) (1 + width)
        (1 + height) (by omega) (by omega)) hextended (payload.drop 30) ?_
    rw [drop_eq_append payload (by decide : 20 ≤ 21), drop_eq_append payload (by decide : 21 ≤ 24),
      drop_eq_append payload (by decide : 24 ≤ 27), drop_eq_append payload (by decide : 27 ≤ 30)]
    change slice payload 20 21 ++ (slice payload 21 24 ++ (slice payload 24 27
      ++ (slice payload 27 30 ++ payload.drop 30))) = _
    rw [hfirst, hwidth, hheight]
    simp [WebpHeader.data]
  · obtain ⟨hpacked, hpackedLt⟩ :=
      slice_eq_toLittleEndian payload 21 25 (by omega) rfl
    set packed := fromBytesLittle (slice payload 21 25)
    refine exists_file (by omega) hriff hwebp
      (.lossless (1 + packed % 16384) (1 + packed / 16384 % 16384) (packed / 268435456) (by omega)
        (by omega) (by omega)) hlossless (payload.drop 25) ?_
    have hbits : 1 + packed % 16384 - 1
        + 16384 * (1 + packed / 16384 % 16384 - 1 + 16384 * (packed / 268435456)) = packed := by
      omega
    rw [drop_eq_append payload (by decide : 20 ≤ 21), drop_eq_append payload (by decide : 21 ≤ 25)]
    change slice payload 20 21 ++ (slice payload 21 25 ++ payload.drop 25) = _
    rw [hfirst, hpacked, not_not.mp hsignature, WebpHeader.data, hbits, List.append_assoc]
  · obtain ⟨hwidth, hwidthLt⟩ :=
      slice_eq_toLittleEndian payload 26 28 (by omega) rfl
    obtain ⟨hheight, hheightLt⟩ :=
      slice_eq_toLittleEndian payload 28 30 (by omega) rfl
    set width := fromBytesLittle (slice payload 26 28)
    set height := fromBytesLittle (slice payload 28 30)
    refine exists_file (by omega) hriff hwebp
      (.lossy (slice payload 20 23) (length_slice (by omega)) (width % 16384) (height % 16384)
        (width / 16384) (height / 16384) (by omega) (by omega) (by omega) (by omega)) hlossy
      (payload.drop 30) ?_
    rw [drop_eq_append payload (by decide : 20 ≤ 23), drop_eq_append payload (by decide : 23 ≤ 26),
      drop_eq_append payload (by decide : 26 ≤ 28), drop_eq_append payload (by decide : 28 ≤ 30)]
    change slice payload 20 23 ++ (slice payload 23 26 ++ (slice payload 26 28
      ++ (slice payload 28 30 ++ payload.drop 30))) = _
    rw [not_not.mp hstart, hwidth, hheight, WebpHeader.data, Nat.mod_add_div, Nat.mod_add_div]
    simp

/-! ## What the boundary makes of it -/

theorem inspect_of_webp {metadata : ℕ × ℕ × Bool} (hriff : slice payload 0 4 = bytes "RIFF")
    (hwebp : webpMetadata payload = .ok (some metadata)) :
    inspect payload = .ok ("WEBP", metadata) := by
  have hpng : ¬pngSignature <+: payload := by
    rintro ⟨rest, rfl⟩
    have hfirst : (slice (pngSignature ++ rest) 0 4).head? = some 0x89 := rfl
    rw [hriff] at hfirst
    exact absurd hfirst (by decide)
  have hjpeg : ¬[0xff, 0xd8] <+: payload := by
    rintro ⟨rest, rfl⟩
    have hfirst : (slice ([0xff, 0xd8] ++ rest) 0 4).head? = some 0xff := rfl
    rw [hriff] at hfirst
    exact absurd hfirst (by decide)
  have hpngPassed : pngMetadata payload = .ok none := by rw [pngMetadata, if_pos hpng]
  have hjpegPassed : jpegMetadata payload = .ok none := by rw [jpegMetadata, if_pos hjpeg]
  simp only [inspect, inspectors, inspectWith, hpngPassed, hjpegPassed, hwebp]

theorem webp_of_inspect {metadata : ℕ × ℕ × Bool}
    (h : inspect payload = .ok ("WEBP", metadata)) :
    webpMetadata payload = .ok (some metadata) := by
  simp only [inspect, inspectors, inspectWith] at h
  split at h
  · cases h
  · split at h
    · cases h
    · split at h
      · cases h
      · cases h
      · rename_i hwebp
        rw [hwebp, (Prod.mk.inj (Except.ok.inj h)).2]
    · exact absurd (Prod.mk.inj (Except.ok.inj h)).1 (by decide)
  · exact absurd (Prod.mk.inj (Except.ok.inj h)).1 (by decide)

/-- What the boundary lets pass, in terms of what the inspectors answer. -/
theorem decodeImage_eq_ok_iff (b64decode : String → Option (List UInt8)) (imageBase64 : String)
    (declaredMediaType : ImageMediaType) (image : ValidatedImage) :
    decodeImage b64decode imageBase64 declaredMediaType = .ok image ↔
      ∃ payload width height, b64decode imageBase64 = some payload ∧ payload ≠ [] ∧
        payload.length ≤ maxImageBytes ∧
        inspect payload = .ok (declaredMediaType.format, width, height, false) ∧
        (1 ≤ width ∧ width ≤ maxImageDimension) ∧ (1 ≤ height ∧ height ≤ maxImageDimension) ∧
        width * height ≤ maxImagePixels ∧
        image = ⟨payload, declaredMediaType.format, width, height, payload.length⟩ := by
  constructor
  · intro h
    rw [decodeImage] at h
    cases hdecode : b64decode imageBase64 with
    | none =>
      rw [hdecode] at h
      cases h
    | some payload =>
      simp only [hdecode] at h
      cases hinspect : inspect payload with
      | error error =>
        simp only [hinspect] at h
        split_ifs at h
      | ok metadata =>
        obtain ⟨actualFormat, width, height, animated⟩ := metadata
        simp only [hinspect] at h
        split_ifs at h with hempty hbytes hformat hanimated hpos hdimension hpixels
        rw [not_not] at hformat
        rw [Bool.not_eq_true] at hanimated
        rw [not_or] at hpos hdimension
        subst hformat hanimated
        exact ⟨payload, width, height, rfl, hempty, Nat.le_of_not_lt hbytes, hinspect,
          ⟨Nat.pos_of_ne_zero hpos.1, Nat.le_of_not_lt hdimension.1⟩,
          ⟨Nat.pos_of_ne_zero hpos.2, Nat.le_of_not_lt hdimension.2⟩, Nat.le_of_not_lt hpixels,
          (Except.ok.inj h).symm⟩
  · rintro ⟨payload, width, height, hdecode, hempty, hbytes, hinspect, hwidth, hheight, hpixels,
      rfl⟩
    have hpos : ¬(width = 0 ∨ height = 0) := by omega
    have hdimension : ¬(maxImageDimension < width ∨ maxImageDimension < height) := by omega
    rw [decodeImage, hdecode]
    dsimp only
    rw [if_neg hempty, if_neg hbytes.not_gt, hinspect]
    dsimp only
    rw [if_neg (not_not.mpr rfl), if_neg Bool.false_ne_true, if_neg hpos, if_neg hdimension,
      if_neg hpixels.not_gt]

/-- What the boundary requires of a file. -/
structure WebpFile.Acceptable (file : WebpFile) : Prop where
  /-- A shorter file, as there are lossless ones, is not recognised. -/
  le_length : 30 ≤ file.encode.length
  still : file.header.animated = false
  length_le : file.encode.length ≤ maxImageBytes
  width_mem : 1 ≤ file.header.width ∧ file.header.width ≤ maxImageDimension
  height_mem : 1 ≤ file.header.height ∧ file.header.height ≤ maxImageDimension
  pixels_le : file.header.width * file.header.height ≤ maxImagePixels

/-- What the boundary knows of a file. -/
def WebpFile.validated (file : WebpFile) : ValidatedImage where
  data := file.encode
  format := "WEBP"
  width := file.header.width
  height := file.header.height
  bytesReceived := file.encode.length

end Image

open Image

/-- **Exactly the still WebP files of 30 bytes or more within the limits are accepted as WebP**,
with the dimensions that they declare. -/
theorem decodeImage_webp_iff (b64decode : String → Option (List UInt8)) (imageBase64 : String)
    (image : ValidatedImage) :
    decodeImage b64decode imageBase64 .webp = .ok image ↔
      ∃ file : WebpFile, b64decode imageBase64 = some file.encode ∧ file.Acceptable ∧
        image = file.validated := by
  rw [decodeImage_eq_ok_iff]
  constructor
  · rintro ⟨payload, width, height, hdecode, -, hbytes, hinspect, hwidth, hheight, hpixels, rfl⟩
    have hwebp := webp_of_inspect hinspect
    obtain ⟨hlong, file, rfl⟩ := exists_file_of_webpMetadata hwebp
    have hmetadata := (webpMetadata_encode file hlong).symm.trans hwebp
    simp only [Except.ok.injEq, Option.some.injEq, Prod.mk.injEq] at hmetadata
    obtain ⟨rfl, rfl, hstill⟩ := hmetadata
    exact ⟨file, hdecode, ⟨hlong, hstill, hbytes, hwidth, hheight, hpixels⟩, rfl⟩
  · rintro ⟨file, hdecode, hacceptable, rfl⟩
    have hlong := hacceptable.le_length
    have hwebp := webpMetadata_encode file hlong
    rw [hacceptable.still] at hwebp
    refine ⟨file.encode, _, _, hdecode, List.ne_nil_of_length_pos (by omega),
      hacceptable.length_le, inspect_of_webp file.marks.1 hwebp, hacceptable.width_mem,
      hacceptable.height_mem, hacceptable.pixels_le, rfl⟩

end Sentinel
