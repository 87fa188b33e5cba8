import Sentinel.Bytes.Layout
import Sentinel.Multimodal.Boundary

/-!
# PNG files

A PNG file is a list of chunks, and an animated one has a chunk of type `acTL`. The inspector looks
for these four bytes anywhere in the payload, so it also finds them where they are data, a checksum
or a length, or come together from two chunks. It is right where they do not, and never passes an
animated file.
-/

namespace Sentinel

open Bytes

namespace Image

/-! ## Files -/

structure PngChunk where
  chunkType : List UInt8
  chunkType_length : chunkType.length = 4
  data : List UInt8
  data_lt : data.length < 4294967296
  crc : List UInt8
  crc_length : crc.length = 4

def PngChunk.body (chunk : PngChunk) : List UInt8 := chunk.chunkType ++ (chunk.data ++ chunk.crc)

def PngChunk.encode (chunk : PngChunk) : List UInt8 :=
  toBigEndian 4 chunk.data.length ++ chunk.body

/-- A file: the fields of its `IHDR` chunk, and the chunks behind that. -/
structure PngFile where
  width : ℕ
  width_lt : width < 4294967296
  height : ℕ
  height_lt : height < 4294967296
  /-- Bit depth, colour type and the methods. -/
  parameters : List UInt8
  parameters_length : parameters.length = 5
  crc : List UInt8
  crc_length : crc.length = 4
  chunks : List PngChunk

/-- The `IHDR` chunk. -/
def PngFile.header (file : PngFile) : PngChunk where
  chunkType := bytes "IHDR"
  chunkType_length := by decide
  data := toBigEndian 4 file.width ++ (toBigEndian 4 file.height ++ file.parameters)
  data_lt := by simp [file.parameters_length]
  crc := file.crc
  crc_length := file.crc_length

def PngFile.encode (file : PngFile) : List UInt8 :=
  pngSignature ++ (file.header :: file.chunks).flatMap PngChunk.encode

/-- Some chunk announces an animation. -/
def PngFile.Animated (file : PngFile) : Prop :=
  ∃ chunk ∈ file.chunks, chunk.chunkType = bytes "acTL"

instance (file : PngFile) : Decidable file.Animated :=
  inferInstanceAs (Decidable (∃ chunk ∈ file.chunks, chunk.chunkType = bytes "acTL"))

/-- What stands between the first byte of a chunk's type and the last byte of the next one's. -/
def PngChunk.gap (chunk : PngChunk) (next : Option PngChunk) : List UInt8 :=
  chunk.body.drop 1 ++ match next with
    | none => []
    | some next => toBigEndian 4 next.data.length ++ next.chunkType.take 3

/-- The gaps of a list of chunks. -/
def gaps : List PngChunk → List (List UInt8)
  | [] => []
  | chunk :: rest => chunk.gap rest.head? :: gaps rest

/-- The four bytes stand where they are no type. -/
def PngFile.Stray (file : PngFile) : Prop :=
  ∃ gap ∈ gaps (file.header :: file.chunks), bytes "acTL" <:+: gap

/-! ## The search -/

theorem prefix_body_iff {pattern : List UInt8} (hpattern : pattern.length = 4) (chunk : PngChunk)
    (rest : List UInt8) : pattern <+: chunk.body ++ rest ↔ chunk.chunkType = pattern := by
  have hlength : pattern.length = chunk.chunkType.length := by
    rw [hpattern, chunk.chunkType_length]
  rw [PngChunk.body, List.append_assoc]
  constructor
  · intro h
    exact ((List.prefix_of_prefix_length_le h (List.prefix_append _ _) hlength.le).eq_of_length
      hlength).symm
  · rintro rfl
    exact List.prefix_append _ _

theorem drop_one_body (chunk : PngChunk) (rest : List UInt8) :
    (chunk.body ++ rest).drop 1 = chunk.body.drop 1 ++ rest := by
  refine List.drop_append_of_le_length ?_
  rw [PngChunk.body, List.length_append, chunk.chunkType_length]
  omega

theorem take_three_body (chunk : PngChunk) (rest : List UInt8) :
    (chunk.body ++ rest).take 3 = chunk.chunkType.take 3 := by
  rw [PngChunk.body, List.append_assoc]
  refine List.take_append_of_le_length ?_
  rw [chunk.chunkType_length]
  omega

/-- From the type of a chunk on, four bytes are found as a type or in a gap. -/
theorem infix_body_iff {pattern : List UInt8} (hpattern : pattern.length = 4) (chunk : PngChunk)
    (rest : List PngChunk) :
    pattern <:+: chunk.body ++ rest.flatMap PngChunk.encode ↔
      (∃ found ∈ chunk :: rest, found.chunkType = pattern) ∨
        ∃ gap ∈ gaps (chunk :: rest), pattern <:+: gap := by
  have hne : pattern ≠ [] := by
    rintro rfl
    cases hpattern
  induction rest generalizing chunk with
  | nil =>
    rw [infix_iff_drop_one, prefix_body_iff hpattern, drop_one_body]
    simp only [gaps, PngChunk.gap, List.head?_nil, List.mem_singleton, exists_eq_left,
      List.flatMap_nil]
  | cons next rest ih =>
    have hsplit : chunk.body.drop 1 ++ (next :: rest).flatMap PngChunk.encode
        = (chunk.body.drop 1 ++ toBigEndian 4 next.data.length)
          ++ (next.body ++ rest.flatMap PngChunk.encode) := by
      rw [List.flatMap_cons, PngChunk.encode, List.append_assoc, List.append_assoc]
    have hgap : (chunk.body.drop 1 ++ toBigEndian 4 next.data.length)
          ++ (next.body ++ rest.flatMap PngChunk.encode).take (pattern.length - 1)
        = chunk.gap (some next) := by
      rw [hpattern, take_three_body, List.append_assoc, PngChunk.gap]
    have hgaps : gaps (chunk :: next :: rest) = chunk.gap (some next) :: gaps (next :: rest) := rfl
    have hnext : _ ↔ _ := ih next
    rw [infix_iff_drop_one, prefix_body_iff hpattern, drop_one_body, hsplit, infix_append_iff hne,
      hgap, hnext, hgaps, List.exists_mem_cons_iff _ chunk,
      List.exists_mem_cons_iff _ (chunk.gap _), or_assoc]
    exact or_congr_right or_left_comm

theorem PngFile.length_header_data (file : PngFile) : file.header.data.length = 13 := by
  simp [PngFile.header, file.parameters_length]

theorem infix_encode_iff (file : PngFile) :
    bytes "acTL" <:+: file.encode ↔ file.Animated ∨ file.Stray := by
  have hsplit : file.encode = (pngSignature ++ toBigEndian 4 13)
      ++ (file.header.body ++ file.chunks.flatMap PngChunk.encode) := by
    rw [PngFile.encode, List.flatMap_cons, PngChunk.encode, file.length_header_data,
      List.append_assoc, List.append_assoc]
  -- the signature and the first length have no `a`
  have hfront : (0x61 : UInt8) ∉ pngSignature ++ toBigEndian 4 13 := by decide
  have hactl : bytes "acTL" = [0x61, 0x63, 0x54, 0x4c] := by decide
  have hheader : file.header.chunkType ≠ bytes "acTL" := by
    change bytes "IHDR" ≠ bytes "acTL"
    decide
  rw [hsplit, hactl, infix_append_of_not_mem hfront, ← hactl, infix_body_iff (by decide),
    List.exists_mem_cons_iff, or_iff_right hheader]
  rfl

theorem PngFile.encode_eq (file : PngFile) : ∃ after, 9 ≤ after.length ∧
    file.encode = pngSignature ++ toBigEndian 4 13 ++ (bytes "IHDR"
      ++ ((toBigEndian 4 file.width ++ toBigEndian 4 file.height) ++ after)) := by
  refine ⟨file.parameters ++ (file.crc ++ file.chunks.flatMap PngChunk.encode), ?_, ?_⟩
  · rw [List.length_append, List.length_append, file.parameters_length, file.crc_length]
    omega
  · rw [PngFile.encode, List.flatMap_cons, PngChunk.encode, file.length_header_data]
    simp [PngChunk.body, PngFile.header]

theorem unpackPair_toBigEndian {first second : ℕ} (hfirst : first < 4294967296)
    (hsecond : second < 4294967296) :
    unpackPair (toBigEndian 4 first ++ toBigEndian 4 second) = .ok (first, second) := by
  have hlength : (toBigEndian 4 first ++ toBigEndian 4 second).length = 8 := by
    rw [List.length_append, length_toBigEndian, length_toBigEndian]
  have hreadFirst : fromBytesBig (toBigEndian 4 first) = first := ofBigEndian_toBigEndian hfirst
  have hreadSecond : fromBytesBig (toBigEndian 4 second) = second :=
    ofBigEndian_toBigEndian hsecond
  rw [unpackPair, if_pos hlength, List.take_left' (length_toBigEndian 4 first),
    List.drop_left' (length_toBigEndian 4 first), hreadFirst, hreadSecond]

theorem pngMetadata_encode (file : PngFile) :
    pngMetadata file.encode
      = .ok (some (file.width, file.height, decide (bytes "acTL" <:+: file.encode))) := by
  obtain ⟨after, hafter, hsplit⟩ := file.encode_eq
  set width := toBigEndian 4 file.width with hwidth
  set height := toBigEndian 4 file.height with hheight
  have hwidthLength : width.length = 4 := length_toBigEndian 4 _
  have hheightLength : height.length = 4 := length_toBigEndian 4 _
  have hsignature : pngSignature <+: file.encode := List.prefix_append _ _
  have hlength : 33 ≤ file.encode.length := by
    have hsignatureLength : pngSignature.length = 8 := by decide
    have htypeLength : (bytes "IHDR").length = 4 := by decide
    rw [hsplit]
    simp only [List.length_append, hsignatureLength, length_toBigEndian, htypeLength, hwidthLength,
      hheightLength]
    omega
  have htype : slice file.encode 12 16 = bytes "IHDR" := by
    rw [hsplit]
    exact drop_take_append _ _ _ (by decide) (by decide)
  have hsize : slice file.encode 16 24 = width ++ height := by
    rw [hsplit, ← List.append_assoc]
    exact drop_take_append _ _ _ (by decide)
      (by rw [List.length_append, hwidthLength, hheightLength])
  have hunpack : unpackPair (width ++ height) = .ok (file.width, file.height) :=
    unpackPair_toBigEndian file.width_lt file.height_lt
  have hheader : ¬(file.encode.length < 33 ∨ slice file.encode 12 16 ≠ bytes "IHDR") := by
    rintro (hshort | htype')
    · omega
    · exact htype' htype
  rw [pngMetadata, if_neg (not_not.mpr hsignature), if_neg hheader, hsize, hunpack]

/-! ## What the boundary makes of it -/

/-- A PNG file is classed as animated exactly where it is, by the inspector and by the boundary. -/
structure PngFile.Classed (file : PngFile) : Prop where
  metadata_eq : pngMetadata file.encode
    = .ok (some (file.width, file.height, decide file.Animated))
  animated_of_rejected : ∀ (b64decode : String → Option (List UInt8)) (imageBase64 : String)
    (declaredMediaType : ImageMediaType), b64decode imageBase64 = some file.encode →
      decodeImage b64decode imageBase64 declaredMediaType
        = .error (.unsupportedImage "animated images are not supported") → file.Animated
  not_animated_of_accepted : ∀ (b64decode : String → Option (List UInt8)) (imageBase64 : String)
    (declaredMediaType : ImageMediaType) (image : ValidatedImage),
      b64decode imageBase64 = some file.encode →
        decodeImage b64decode imageBase64 declaredMediaType = .ok image → ¬file.Animated

theorem decodeImage_encode {file : PngFile} {animated : Bool}
    (hmetadata : pngMetadata file.encode = .ok (some (file.width, file.height, animated)))
    {b64decode : String → Option (List UInt8)} {imageBase64 : String}
    {declaredMediaType : ImageMediaType} (hdecode : b64decode imageBase64 = some file.encode) :
    (decodeImage b64decode imageBase64 declaredMediaType
      = .error (.unsupportedImage "animated images are not supported") → animated = true) ∧
    ∀ image, decodeImage b64decode imageBase64 declaredMediaType = .ok image →
      animated = false := by
  have hinspect : inspect file.encode = .ok ("PNG", file.width, file.height, animated) := by
    rw [inspect, inspectors, inspectWith, hmetadata]
  rw [decodeImage, hdecode]
  dsimp only
  rw [hinspect]
  cases animated with
  | true =>
    refine ⟨fun _ ↦ rfl, fun image h ↦ ?_⟩
    dsimp only at h
    split_ifs at h with _ _ _ hanimated
    exact absurd rfl hanimated
  | false =>
    refine ⟨fun h ↦ ?_, fun _ _ ↦ rfl⟩
    simp only [Bool.false_eq_true, if_false] at h
    -- no other message says so
    split_ifs at h
    all_goals simp at h

/-- An animated file is never accepted, whatever else is in it. -/
theorem not_animated_of_accepted {file : PngFile} {b64decode : String → Option (List UInt8)}
    {imageBase64 : String} {declaredMediaType : ImageMediaType} {image : ValidatedImage}
    (hdecode : b64decode imageBase64 = some file.encode)
    (h : decodeImage b64decode imageBase64 declaredMediaType = .ok image) : ¬file.Animated := by
  intro hanimated
  have hfound := (decodeImage_encode (pngMetadata_encode file) hdecode).2 image h
  exact of_decide_eq_false hfound ((infix_encode_iff file).mpr (.inl hanimated))

/-- **When a PNG is classed as animated exactly when it is**: where it is animated, or the four
bytes stand in no gap between two types. -/
theorem classed_iff (file : PngFile) : file.Classed ↔ file.Animated ∨ ¬file.Stray := by
  constructor
  · intro h
    have hflag := (pngMetadata_encode file).symm.trans h.metadata_eq
    simp only [Except.ok.injEq, Option.some.injEq, Prod.mk.injEq, true_and, decide_eq_decide,
      infix_encode_iff] at hflag
    rw [or_iff_not_imp_right, not_not]
    exact fun hstray ↦ hflag.mp (.inr hstray)
  · intro h
    have hflag : bytes "acTL" <:+: file.encode ↔ file.Animated := by
      rw [infix_encode_iff]
      exact ⟨fun hfound ↦ hfound.elim id fun hstray ↦ h.resolve_right (not_not.mpr hstray), .inl⟩
    have hmetadata : pngMetadata file.encode
        = .ok (some (file.width, file.height, decide file.Animated)) := by
      rw [pngMetadata_encode, decide_eq_decide.mpr hflag]
    exact ⟨hmetadata,
      fun _ _ _ hdecode hrejected ↦
        of_decide_eq_true ((decodeImage_encode hmetadata hdecode).1 hrejected),
      fun _ _ _ _ hdecode haccepted ↦ not_animated_of_accepted hdecode haccepted⟩

/-! ### A comment on animations -/

/-- A still image of one pixel that has a comment with the four bytes. -/
def PngFile.sample : PngFile where
  width := 1
  width_lt := by decide
  height := 1
  height_lt := by decide
  parameters := [0x08, 0x04, 0x00, 0x00, 0x00]
  parameters_length := by decide
  crc := [0xb5, 0x1c, 0x0c, 0x02]
  crc_length := by decide
  chunks := [
    { chunkType := bytes "tEXt"
      chunkType_length := by decide
      data := bytes "Comment" ++ [0x00] ++ bytes "acTL"
      data_lt := by decide
      crc := [0xc6, 0xec, 0xfa, 0x0d]
      crc_length := by decide },
    { chunkType := bytes "IDAT"
      chunkType_length := by decide
      data := [0x78, 0xda, 0x63, 0x64, 0xf8, 0x0f, 0x00, 0x01, 0x05, 0x01, 0x01]
      data_lt := by decide
      crc := [0x27, 0x18, 0xe3, 0x66]
      crc_length := by decide },
    { chunkType := bytes "IEND"
      chunkType_length := by decide
      data := []
      data_lt := by decide
      crc := [0xae, 0x42, 0x60, 0x82]
      crc_length := by decide }]

def sampleBase64 : String :=
  "iVBORw0KGgoAAAANSUhEUgAAAAEAAAABCAQAAAC1HAwCAAAADHRFWHRDb21tZW50AGFjVEzG7PoN"
    ++ "AAAAC0lEQVR42mNk+A8AAQUBAScY42YAAAAASUVORK5CYII="

/-- The sample is rejected as animated. -/
theorem still_image_rejected :
    let b64decode := fun imageBase64 ↦
      if imageBase64 = sampleBase64 then some PngFile.sample.encode else none
    ¬PngFile.sample.Animated ∧
      pngMetadata PngFile.sample.encode = .ok (some (1, 1, true)) ∧
      decodeImage b64decode sampleBase64 .png
        = .error (.unsupportedImage "animated images are not supported") ∧
      ¬PngFile.sample.Classed := by
  intro b64decode
  have hstill : ¬PngFile.sample.Animated := by decide
  have hrejected : decodeImage b64decode sampleBase64 .png
      = .error (.unsupportedImage "animated images are not supported") := by decide +kernel
  refine ⟨hstill, by decide +kernel, hrejected, fun h ↦ hstill ?_⟩
  exact h.animated_of_rejected b64decode sampleBase64 .png (if_pos rfl) hrejected

end Image

end Sentinel
