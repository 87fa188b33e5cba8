import Sentinel.Bytes.Layout
import Sentinel.Multimodal.Boundary

/-!
# JPEG files

The files that a camera or an editor writes, as far as the frame header: a start marker, segments
and standalone markers with fill bytes in front of them, and a frame. The scan goes through such a
file in step with its segments. A thumbnail that is embedded in a segment has markers and a frame of
its own, but the scan jumps over the segment as a whole, so the dimensions are those of the image.
-/

namespace Sentinel

open Bytes

namespace Image

/-! ## Files -/

def IsStandalone (marker : UInt8) : Prop := marker = 0x01 ∨ 0xd0 ≤ marker ∧ marker ≤ 0xd9

instance : DecidablePred IsStandalone := fun marker ↦
  inferInstanceAs (Decidable (marker = 0x01 ∨ 0xd0 ≤ marker ∧ marker ≤ 0xd9))

inductive JpegItem
  /-- A marker of its own, behind at least one fill byte. -/
  | standalone (fill : ℕ) (marker : UInt8) (hmarker : IsStandalone marker)
  /-- A marker with a length and a payload. -/
  | segment (fill : ℕ) (marker : UInt8) (payload : List UInt8)
      (hmarker : marker ≠ 0x00 ∧ marker ≠ 0xff ∧ ¬IsStandalone marker ∧ marker ∉ jpegStartOfFrame)
      (hpayload : payload.length ≤ 65533)

/-- A start-of-frame segment, behind at least one fill byte. -/
structure JpegFrame where
  fill : ℕ
  marker : UInt8
  marker_mem : marker ∈ jpegStartOfFrame
  precision : UInt8
  height : ℕ
  height_lt : height < 65536
  width : ℕ
  width_lt : width < 65536
  rest : List UInt8
  rest_le : rest.length ≤ 65528

structure JpegFile where
  items : List JpegItem
  frame : JpegFrame
  after : List UInt8

/-- The fill bytes, the marker and what follows it. -/
def marked (fill : ℕ) (marker : UInt8) (rest : List UInt8) : List UInt8 :=
  List.replicate (fill + 1) 0xff ++ marker :: rest

def JpegItem.encode : JpegItem → List UInt8
  | .standalone fill marker _ => marked fill marker []
  | .segment fill marker payload _ _ =>
    marked fill marker (toBigEndian 2 (payload.length + 2) ++ payload)

/-- What the length of the frame counts. -/
def JpegFrame.header (frame : JpegFrame) : List UInt8 :=
  toBigEndian 2 (frame.rest.length + 7) ++ (frame.precision ::
    (toBigEndian 2 frame.height ++ (toBigEndian 2 frame.width ++ frame.rest)))

def JpegFrame.encode (frame : JpegFrame) : List UInt8 :=
  marked frame.fill frame.marker frame.header

def JpegFile.encode (file : JpegFile) : List UInt8 :=
  [0xff, 0xd8] ++ (file.items.flatMap JpegItem.encode ++ (file.frame.encode ++ file.after))

/-! ## One marker -/

variable {marker : UInt8}

theorem jpegStandalone_iff : jpegStandalone marker = true ↔ IsStandalone marker := by
  simp only [jpegStandalone, IsStandalone, Bool.or_eq_true, Bool.and_eq_true, beq_iff_eq,
    decide_eq_true_eq, ← UInt8.toNat_inj, UInt8.le_iff_toNat_le, UInt8.reduceToNat]
  omega

theorem of_mem_jpegStartOfFrame (h : marker ∈ jpegStartOfFrame) :
    marker ≠ 0xff ∧ jpegStandalone marker = false := by
  have hall : (jpegStartOfFrame.all fun marker ↦ marker != 0xff && !jpegStandalone marker)
      = true := by decide
  simpa using List.all_eq_true.mp hall marker h

theorem skipFill_replicate (hne : marker ≠ 0xff) (before rest : List UInt8) (n : ℕ) :
    skipFill (before ++ (List.replicate n 0xff ++ marker :: rest)) before.length
      = before.length + n := by
  induction n generalizing before with
  | zero =>
    rw [List.replicate_zero, List.nil_append, Nat.add_zero]
    have hlt : before.length < (before ++ marker :: rest).length := by simp
    have hbyte : (before ++ marker :: rest)[before.length] ≠ 0xff := by
      rw [List.getElem_append_right (Nat.le_refl _)]
      simpa using hne
    exact skipFill_of_ne hbyte
  | succ n ih =>
    have hnext := ih (before ++ [0xff])
    rw [List.length_append, List.length_singleton, List.append_assoc,
      List.singleton_append] at hnext
    rw [List.replicate_succ, List.cons_append]
    have hlt : before.length
        < (before ++ 0xff :: (List.replicate n 0xff ++ marker :: rest)).length := by simp
    have hbyte : (before ++ 0xff :: (List.replicate n 0xff ++ marker :: rest))[before.length]
        = 0xff := by simp
    rw [skipFill_of_eq hbyte, hnext]
    omega

theorem marked_append (fill : ℕ) (marker : UInt8) (rest after : List UInt8) :
    marked fill marker rest ++ after = marked fill marker (rest ++ after) := by
  rw [marked, List.append_assoc, List.cons_append, marked]

theorem length_marked (fill : ℕ) (marker : UInt8) (rest : List UInt8) :
    (marked fill marker rest).length = fill + 2 + rest.length := by
  rw [marked, List.length_append, List.length_replicate, List.length_cons]
  omega

theorem jpegScan_marked (hne : marker ≠ 0xff) (before rest : List UInt8) (fill : ℕ)
    (hrest : 2 ≤ rest.length) {payload : List UInt8}
    (hpayload : payload = before ++ marked fill marker rest) {start : ℕ}
    (hstart : start = before.length + (fill + 2)) :
    jpegScan payload before.length =
      if jpegStandalone marker then jpegScan payload start
      else
        let segmentLength := fromBytesBig (slice payload start (start + 2))
        if segmentLength < 2 ∨ payload.length < start + segmentLength then
          .error (.invalidImage "JPEG contains an invalid segment")
        else if marker ∈ jpegStartOfFrame then
          if segmentLength < 7 then .error (.invalidImage "JPEG frame header is incomplete")
          else .ok (fromBytesBig (slice payload (start + 5) (start + 7)),
            fromBytesBig (slice payload (start + 3) (start + 5)), false)
        else jpegScan payload (start + segmentLength) := by
  subst hpayload hstart
  have hskip : skipFill (before ++ marked fill marker rest) before.length
      = before.length + (fill + 1) := skipFill_replicate hne before rest (fill + 1)
  have hfill : (before ++ marked fill marker rest)[before.length]? = some 0xff := by simp [marked]
  have hmarker : (before ++ marked fill marker rest)[before.length + (fill + 1)]?
      = some marker := by simp [marked]
  have hlength : (before ++ marked fill marker rest).length
      = before.length + (fill + 2 + rest.length) := by rw [List.length_append, length_marked]
  have hround := jpegScan_fill (by omega) hfill hskip hmarker
  rw [if_neg (show ¬_ < before.length + (fill + 1) + 3 by omega)] at hround
  exact hround

theorem fromBytesBig_marked (before : List UInt8) (fill : ℕ) (marker : UInt8)
    {rest front after : List UInt8} {n start : ℕ} (hn : n < 65536)
    (hrest : rest = front ++ (toBigEndian 2 n ++ after))
    (hstart : start = before.length + (fill + 2) + front.length) :
    fromBytesBig (slice (before ++ marked fill marker rest) start (start + 2)) = n := by
  have hfront : (before ++ marked fill marker front).length = start := by
    rw [List.length_append, length_marked, hstart, Nat.add_assoc, Nat.add_assoc, Nat.add_assoc]
  have hstop : start + (toBigEndian 2 n).length = start + 2 := by rw [length_toBigEndian]
  have hslice : slice (before ++ marked fill marker rest) start (start + 2) = toBigEndian 2 n := by
    rw [hrest, ← marked_append, ← List.append_assoc]
    exact drop_take_append _ (toBigEndian 2 n) after hfront hstop
  rw [hslice]
  exact ofBigEndian_toBigEndian hn

/-! ## The walk -/

theorem jpegScan_item (item : JpegItem) (before rest : List UInt8) (hrest : 2 ≤ rest.length) :
    jpegScan (before ++ (item.encode ++ rest)) before.length
      = jpegScan (before ++ (item.encode ++ rest)) (before.length + item.encode.length) := by
  cases item with
  | standalone fill marker hmarker =>
    have hne : marker ≠ 0xff := by
      rintro rfl
      rcases hmarker with h | ⟨-, h⟩
      · exact absurd h (by decide)
      · exact absurd h (by decide)
    rw [JpegItem.encode, marked_append, List.nil_append, length_marked,
      jpegScan_marked hne before rest fill hrest rfl rfl,
      if_pos (jpegStandalone_iff.mpr hmarker)]
    rfl
  | segment fill marker payload hmarker hpayload =>
    obtain ⟨-, hne, hstandalone, hframe⟩ := hmarker
    have hlength : (toBigEndian 2 (payload.length + 2)).length = 2 := length_toBigEndian 2 _
    rw [JpegItem.encode, marked_append, List.append_assoc, length_marked, List.length_append,
      hlength]
    set whole := before ++ marked fill marker
      (toBigEndian 2 (payload.length + 2) ++ (payload ++ rest)) with hwhole
    have hsegment : fromBytesBig (slice whole (before.length + (fill + 2))
        (before.length + (fill + 2) + 2)) = payload.length + 2 := by
      rw [hwhole]
      exact fromBytesBig_marked before fill marker (by omega) (List.nil_append _).symm rfl
    rw [jpegScan_marked hne before _ fill (by simp) hwhole rfl,
      if_neg (fun h ↦ hstandalone (jpegStandalone_iff.mp h))]
    dsimp only
    rw [hsegment, if_neg, if_neg hframe]
    · congr 1
      omega
    · rw [hwhole, List.length_append, length_marked]
      simp only [List.length_append, hlength]
      omega

theorem jpegScan_items (items : List JpegItem) (before rest : List UInt8)
    (hrest : 2 ≤ rest.length) :
    jpegScan (before ++ (items.flatMap JpegItem.encode ++ rest)) before.length
      = jpegScan (before ++ (items.flatMap JpegItem.encode ++ rest))
        (before.length + (items.flatMap JpegItem.encode).length) := by
  induction items generalizing before with
  | nil => rfl
  | cons item items ih =>
    have htail := ih (before ++ item.encode)
    rw [List.append_assoc, List.length_append] at htail
    have hrest' : 2 ≤ (items.flatMap JpegItem.encode ++ rest).length := by
      rw [List.length_append]
      omega
    rw [List.flatMap_cons, List.append_assoc, jpegScan_item item before _ hrest', htail,
      List.length_append, Nat.add_assoc]

theorem jpegScan_frame (frame : JpegFrame) (before after : List UInt8) :
    jpegScan (before ++ (frame.encode ++ after)) before.length
      = .ok (frame.width, frame.height, false) := by
  obtain ⟨hne, hstandalone⟩ := of_mem_jpegStartOfFrame frame.marker_mem
  have hrest := frame.rest_le
  rw [JpegFrame.encode, marked_append]
  set start := before.length + (frame.fill + 2) with hstart
  set whole := before ++ marked frame.fill frame.marker (frame.header ++ after) with hwhole
  have hheader : frame.header.length = frame.rest.length + 7 := by
    simp only [JpegFrame.header, List.length_append, List.length_cons, length_toBigEndian]
    omega
  -- the header once for each of its three numbers
  set length := toBigEndian 2 (frame.rest.length + 7) with hlength
  set height := toBigEndian 2 frame.height with hheight
  set width := toBigEndian 2 frame.width with hwidth
  have hsplitLength : frame.header ++ after
      = [] ++ (length ++ (frame.precision :: (height ++ (width ++ frame.rest)) ++ after)) := by
    simp [JpegFrame.header, hlength, hheight, hwidth]
  have hsplitHeight : frame.header ++ after
      = (length ++ [frame.precision]) ++ (height ++ (width ++ frame.rest ++ after)) := by
    simp [JpegFrame.header, hlength, hheight, hwidth]
  have hsplitWidth : frame.header ++ after
      = (length ++ frame.precision :: height) ++ (width ++ (frame.rest ++ after)) := by
    simp [JpegFrame.header, hlength, hheight, hwidth]
  have hreadLength : fromBytesBig (slice whole start (start + 2)) = frame.rest.length + 7 :=
    fromBytesBig_marked before frame.fill frame.marker (by omega) hsplitLength rfl
  have hreadHeight : fromBytesBig (slice whole (start + 3) (start + 5)) = frame.height :=
    fromBytesBig_marked before frame.fill frame.marker frame.height_lt hsplitHeight
      (by simp [hstart, hlength])
  have hreadWidth : fromBytesBig (slice whole (start + 5) (start + 7)) = frame.width :=
    fromBytesBig_marked before frame.fill frame.marker frame.width_lt hsplitWidth
      (by simp [hstart, hlength, hheight])
  rw [jpegScan_marked hne before _ frame.fill (by rw [List.length_append]; omega) hwhole hstart,
    hstandalone, if_neg Bool.false_ne_true]
  dsimp only
  rw [hreadLength, hreadHeight, hreadWidth, if_neg, if_pos frame.marker_mem, if_neg]
  · omega
  · rw [hwhole, List.length_append, length_marked, List.length_append, hheader]
    omega

/-- **JPEG dimensions come from the real frame header.** -/
theorem jpegMetadata_encode (file : JpegFile) :
    jpegMetadata file.encode = .ok (some (file.frame.width, file.frame.height, false)) := by
  have hframe : 2 ≤ (file.frame.encode ++ file.after).length := by
    rw [List.length_append, JpegFrame.encode, length_marked]
    omega
  have hitems := jpegScan_items file.items [0xff, 0xd8] _ hframe
  have hscan := jpegScan_frame file.frame
    ([0xff, 0xd8] ++ file.items.flatMap JpegItem.encode) file.after
  rw [List.length_append, List.append_assoc] at hscan
  have hwhole : jpegScan file.encode 2 = .ok (file.frame.width, file.frame.height, false) :=
    hitems.trans hscan
  have hsignature : [0xff, 0xd8] <+: file.encode := List.prefix_append [0xff, 0xd8] _
  rw [jpegMetadata, if_neg (not_not.mpr hsignature), hwhole]

/-- A file of one item, a segment with a thumbnail of one pixel in it. -/
def thumbnailFile : JpegFile where
  items := [.segment 0 0xe1
    (JpegFile.encode ⟨[], ⟨0, 0xc0, by decide, 8, 1, by decide, 1, by decide, [], by decide⟩, []⟩)
    (by decide) (by decide)]
  frame := ⟨1, 0xc2, by decide, 8, 8, by decide, 16, by decide, [], by decide⟩
  after := [0xff, 0xd9]

/-- The frame of the thumbnail comes first, and is not the one that is found. -/
example : thumbnailFile.encode = [0xff, 0xd8, 0xff, 0xe1, 0, 13,
      0xff, 0xd8, 0xff, 0xc0, 0, 7, 8, 0, 1, 0, 1,
      0xff, 0xff, 0xc2, 0, 7, 8, 0, 8, 0, 16, 0xff, 0xd9] ∧
    jpegMetadata thumbnailFile.encode = .ok (some (16, 8, false)) := by
  decide +kernel

end Image

end Sentinel
