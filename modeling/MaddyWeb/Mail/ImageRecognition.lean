import MaddyWeb.Mail.ImageGrammar

/-!
# Image recognition is total and exact

The remaining grammar, of JPEG segments up to the first frame, and what
`safe_inline_image_metadata` says about any bytes at all.
-/

namespace MaddyWeb.Mail.Image

open MaddyWeb.Library MaddyWeb.Library.Offsets

/-! ## JPEG -/

/-- A marker and the fill bytes in front of it. -/
def markerBytes (fill : Nat) (marker : UInt8) : Bytes := List.replicate (fill + 1) 0xFF ++ [marker]

inductive JpegSegment
  | standalone (fill : Nat) (marker : UInt8)
      (known : standalone.contains marker = true ∧ marker ≠ 0xD9)
  | framed (fill : Nat) (marker : UInt8) (lengthField body : Bytes)
      (other : standalone.contains marker = false ∧ marker ≠ 0xDA ∧
        startOfFrame.contains marker = false)
      (lengthField_width : lengthField.length = 2) (framed : fromBig lengthField = 2 + body.length)

def JpegSegment.bytes : JpegSegment → Bytes
  | standalone fill marker _ => markerBytes fill marker
  | framed fill marker lengthField body _ _ _ => markerBytes fill marker ++ (lengthField ++ body)

structure JpegFrame where
  fill : Nat
  marker : UInt8
  lengthField : Bytes
  precision : UInt8
  height : Bytes
  width : Bytes
  components : Bytes
  known : startOfFrame.contains marker = true
  lengthField_width : lengthField.length = 2
  height_width : height.length = 2
  width_width : width.length = 2
  framed : fromBig lengthField = 7 + components.length

def JpegFrame.bytes (frame : JpegFrame) : Bytes :=
  markerBytes frame.fill frame.marker ++ (frame.lengthField ++ frame.precision ::
    (frame.height ++ (frame.width ++ frame.components)))

/-- A JPEG file up to the end of its first frame header. -/
structure Jpeg where
  segments : List JpegSegment
  frame : JpegFrame

def Jpeg.bytes (image : Jpeg) : Bytes :=
  [0xFF, 0xD8] ++ (image.segments.flatMap JpegSegment.bytes ++ image.frame.bytes)

def Jpeg.dimensions (image : Jpeg) : Nat × Nat :=
  (fromBig image.frame.width, fromBig image.frame.height)

theorem skipFill_ok (data : Bytes) (offset : Nat) :
    ∃ result, skipFill data offset = .ok result := by
  fun_induction skipFill data offset with
  | case1 offset hoffset e hread =>
      rw [byteAt_of_lt hoffset] at hread
      cases hread
  | case2 offset hoffset hread ih => exact ih
  | _ => exact ⟨_, rfl⟩

theorem skipFill_sound {data : Bytes} {offset next : Nat} (h : skipFill data offset = .ok next) :
    ∃ n, data.drop offset = List.replicate n 0xFF ++ data.drop next := by
  fun_induction skipFill data offset with
  | case1 => cases h
  | case2 offset hoffset hread ih =>
      obtain ⟨n, hn⟩ := ih h
      obtain ⟨byte, hbyte, hdrop⟩ := exists_byteAt hoffset
      cases hread.symm.trans hbyte
      refine ⟨n + 1, ?_⟩
      rw [hdrop, hn]
      rfl
  | case3 =>
      cases h
      exact ⟨0, rfl⟩
  | case4 =>
      cases h
      exact ⟨0, rfl⟩

/-- The marker that the loop has come to, with the fill in front of it. -/
theorem marker_sound {data : Bytes} {offset position : Nat} {marker : UInt8}
    (hfirst : byteAt data offset = .ok 0xFF) (hoffset : offset < data.length)
    (hfill : skipFill data offset = .ok position) (hposition : ¬ data.length ≤ position)
    (hmarker : byteAt data position = .ok marker) :
    ∃ fill, data.drop offset = markerBytes fill marker ++ data.drop (position + 1) := by
  unfold skipFill at hfill
  rw [dif_pos hoffset, hfirst] at hfill
  dsimp only at hfill
  rw [if_pos rfl] at hfill
  obtain ⟨fill, hrun⟩ := skipFill_sound hfill
  obtain ⟨first, hbyte, hdrop⟩ := exists_byteAt hoffset
  cases hfirst.symm.trans hbyte
  obtain ⟨byte, hbyte, hnext⟩ := exists_byteAt (Nat.lt_of_not_le hposition)
  cases hmarker.symm.trans hbyte
  refine ⟨fill, ?_⟩
  rw [hdrop, hrun, hnext, markerBytes, List.replicate_succ, List.append_assoc, List.cons_append,
    List.singleton_append]

theorem jpegMarkers_ok (data : Bytes) (offset : Nat) :
    ∃ result, jpegMarkers data offset = .ok result := by
  fun_induction jpegMarkers data offset with
  | case1 offset hoffset e hread =>
      rw [byteAt_of_lt hoffset] at hread
      cases hread
  | case3 offset hoffset first hread hfirst e hfill =>
      obtain ⟨result, hresult⟩ := skipFill_ok data offset
      cases hfill.symm.trans hresult
  | case5 offset hoffset first hread hfirst position hfill hposition e hmarker =>
      rw [byteAt_of_lt (Nat.lt_of_not_le hposition)] at hmarker
      cases hmarker
  | case7 _ _ _ _ _ _ _ _ _ _ _ _ ih => exact ih
  | case12 _ _ _ _ _ _ _ _ _ _ _ _ _ _ _ ih => exact ih
  | _ => exact ⟨_, rfl⟩

theorem jpegMarkers_sound {data : Bytes} {offset : Nat} {found : Nat × Nat}
    (h : jpegMarkers data offset = .ok (some found)) :
    ∃ (segments : List JpegSegment) (frame : JpegFrame) (rest : Bytes),
      data.drop offset = segments.flatMap JpegSegment.bytes ++ (frame.bytes ++ rest) ∧
      found = (fromBig frame.width, fromBig frame.height) := by
  fun_induction jpegMarkers data offset with
  | case7 offset hoffset first hread hfirst position hfill hposition marker hmarker hknown hend
    ih =>
      obtain ⟨segments, frame, rest, hrest, hfound⟩ := ih h
      rw [ne_eq, not_not] at hfirst
      rw [hfirst] at hread
      obtain ⟨fill, hdrop⟩ := marker_sound hread hoffset hfill hposition hmarker
      refine ⟨.standalone fill marker ⟨hknown, hend⟩ :: segments, frame, rest, ?_, hfound⟩
      rw [hdrop, hrest, List.flatMap_cons, List.append_assoc]
      rfl
  | case11 offset hoffset first hread hfirst position hfill hposition marker hmarker hknown hplain
      segmentLength hlength hframe hseven =>
      cases h
      rw [ne_eq, not_not] at hfirst
      rw [hfirst] at hread
      rw [Bool.or_eq_true, decide_eq_true_eq, decide_eq_true_eq, not_or] at hlength
      obtain ⟨fill, hdrop⟩ := marker_sound hread hoffset hfill hposition hmarker
      obtain ⟨hfield, hfieldWidth⟩ := @drop_eq_slice_append data (position + 1) 2 (by omega)
      obtain ⟨precision, -, hprecision⟩ := @exists_byteAt data (position + 1 + 2) (by omega)
      obtain ⟨hheight, hheightWidth⟩ := @drop_eq_slice_append data (position + 1 + 3) 2 (by omega)
      obtain ⟨hwidth, hwidthWidth⟩ := @drop_eq_slice_append data (position + 1 + 5) 2 (by omega)
      obtain ⟨hcomponents, hcomponentsWidth⟩ :=
        @drop_eq_slice_append data (position + 1 + 7) (segmentLength - 7) (by omega)
      refine ⟨[], ⟨fill, marker, _, precision, _, _, _, hframe, hfieldWidth, hheightWidth,
        hwidthWidth,
        by rw [hcomponentsWidth]; exact (Nat.add_sub_cancel' (Nat.le_of_not_lt hseven)).symm⟩,
        data.drop (position + 1 + 7 + (segmentLength - 7)), ?_, rfl⟩
      simp only [JpegFrame.bytes, List.flatMap_nil, List.nil_append, List.append_assoc,
        List.cons_append]
      rw [← hcomponents, hdrop]
      exact congrArg _ (hfield.trans (congrArg _ (hprecision.trans (congrArg _
        (hheight.trans (congrArg _ hwidth))))))
  | case12 offset hoffset first hread hfirst position hfill hposition marker hmarker hknown hplain
      segmentLength hlength hframe ih =>
      obtain ⟨segments, frame, rest, hrest, hfound⟩ := ih h
      rw [ne_eq, not_not] at hfirst
      rw [hfirst] at hread
      rw [Bool.or_eq_true, decide_eq_true_eq, decide_eq_true_eq, not_or] at hlength hplain
      obtain ⟨fill, hdrop⟩ := marker_sound hread hoffset hfill hposition hmarker
      obtain ⟨hfield, hfieldWidth⟩ := @drop_eq_slice_append data (position + 1) 2 (by omega)
      obtain ⟨hbody, hbodyWidth⟩ :=
        @drop_eq_slice_append data (position + 1 + 2) (segmentLength - 2) (by omega)
      refine ⟨.framed fill marker _
        (slice data (position + 1 + 2) (position + 1 + 2 + (segmentLength - 2)))
        ⟨Bool.eq_false_iff.mpr hknown, hplain.1,
        Bool.eq_false_iff.mpr hframe⟩ hfieldWidth ?_ :: segments, frame, rest, ?_, hfound⟩
      · rw [hbodyWidth]
        exact (Nat.add_sub_cancel' (Nat.le_of_not_lt hlength.1)).symm
      · have hend : position + 1 + 2 + (segmentLength - 2) = position + 1 + segmentLength := by
          omega
        rw [hend] at hbody
        simp only [List.flatMap_cons, JpegSegment.bytes, List.append_assoc]
        rw [← hrest, hdrop, hend]
        exact congrArg _ (hfield.trans (congrArg _ hbody))
  | _ => cases h

theorem jpegDimensions_ok (data : Bytes) : ∃ result, jpegDimensions data = .ok result := by
  unfold jpegDimensions
  split
  · exact ⟨_, rfl⟩
  · exact jpegMarkers_ok _ _

theorem jpegDimensions_sound {data : Bytes} {found : Nat × Nat}
    (h : jpegDimensions data = .ok (some found)) :
    ∃ (image : Jpeg) (rest : Bytes), data = image.bytes ++ rest ∧ image.dimensions = found := by
  unfold jpegDimensions at h
  split at h
  · cases h
  · next hstart =>
      rw [Bool.not_eq_true', Bool.not_eq_false] at hstart
      obtain ⟨suffix, rfl⟩ := List.isPrefixOf_iff_prefix.mp hstart
      obtain ⟨segments, frame, rest, hrest, hfound⟩ := jpegMarkers_sound h
      refine ⟨⟨segments, frame⟩, rest, ?_, hfound.symm⟩
      have hsuffix : suffix = ([0xFF, 0xD8] ++ suffix).drop 2 := rfl
      rw [hsuffix, hrest]
      simp only [Jpeg.bytes, List.append_assoc]

/-! ## WebP -/

theorem bind_byteAt_ok {data : Bytes} {offset : Nat} (h : offset < data.length)
    {read : UInt8 → Scan}
    (hread : ∀ byte, ∃ result, read byte = .ok result) :
    ∃ result, (byteAt data offset >>= read) = .ok result := by
  rw [byteAt_of_lt h]
  exact hread _

theorem webpDimensions_ok (data : Bytes) : ∃ result, webpDimensions data = .ok result := by
  unfold webpDimensions
  split
  · exact ⟨_, rfl⟩
  · next hstart =>
      simp only [Bool.or_eq_true, decide_eq_true_eq, not_or] at hstart
      have hread : 20 < data.length := by omega
      dsimp only
      split
      · apply bind_byteAt_ok hread
        intro flags
        split
        · exact ⟨_, rfl⟩
        · exact ⟨_, rfl⟩
      · split
        · exact ⟨_, rfl⟩
        · split
          · apply bind_byteAt_ok hread
            intro signature
            split
            · exact ⟨_, rfl⟩
            · exact ⟨_, rfl⟩
          · exact ⟨_, rfl⟩

/-! ## Any bytes at all -/

/-- The format whose grammar a text begins with. -/
inductive Recognised (data : Bytes) : String → Nat × Nat → Prop
  | png (image : Png) (rest : Bytes) (split : data = image.bytes ++ rest)
      (stable : ∀ tail, safeInlineImageMetadata (image.bytes ++ tail) =
        .ok (some ("image/png", image.dimensions))) : Recognised data "image/png" image.dimensions
  | gif (image : Gif) (rest : Bytes) (split : data = image.bytes ++ rest)
      (stable : ∀ tail, safeInlineImageMetadata (image.bytes ++ tail) =
        .ok (some ("image/gif", image.dimensions))) : Recognised data "image/gif" image.dimensions
  | jpeg (image : Jpeg) (rest : Bytes) (split : data = image.bytes ++ rest) :
      Recognised data "image/jpeg" image.dimensions
  | webp (dimensions : Nat × Nat) (found : webpDimensions data = .ok (some dimensions)) :
      Recognised data "image/webp" dimensions

theorem recognise_ok (data : Bytes) {contentType : String} {scan : Scan}
    (h : recognise data = some (contentType, scan)) : ∃ result, scan = .ok result := by
  unfold recognise at h
  split at h
  · cases h
    exact pngDimensions_ok data
  · split at h
    · cases h
      exact gifDimensions_ok data
    · split at h
      · cases h
        exact jpegDimensions_ok data
      · split at h
        · cases h
          exact webpDimensions_ok data
        · cases h

theorem Png.recognise (image : Png) (tail : Bytes) :
    Image.recognise (image.bytes ++ tail) = some ("image/png", .ok (some image.dimensions)) := by
  have hstarts : pngSignature.isPrefixOf (image.bytes ++ tail) = true := by
    rw [List.isPrefixOf_iff_prefix, Png.bytes, List.append_assoc]
    exact List.prefix_append _ _
  unfold Image.recognise
  rw [if_pos hstarts, image.complete]

theorem Gif.recognise (image : Gif) (tail : Bytes)
    (hsafe : safeImageDimensions image.dimensions.1 image.dimensions.2 = true) :
    Image.recognise (image.bytes ++ tail) = some ("image/gif", .ok (some image.dimensions)) := by
  have hpng : pngSignature.isPrefixOf (image.bytes ++ tail) = false := by
    rw [Gif.bytes, List.append_assoc]
    rcases image.known with h | h
    · rw [h]
      rfl
    · rw [h]
      rfl
  unfold Image.recognise
  rw [hpng, if_neg Bool.false_ne_true, if_pos (image.isPrefixOf_signature tail),
    image.complete tail hsafe]

theorem safeInlineImageMetadata_eq {data : Bytes} {contentType : String} {dimensions : Nat × Nat}
    (h : recognise data = some (contentType, .ok (some dimensions)))
    (hsafe : safeImageDimensions dimensions.1 dimensions.2 = true) :
    safeInlineImageMetadata data = .ok (some (contentType, dimensions)) := by
  unfold safeInlineImageMetadata
  rw [h]
  dsimp only
  rw [if_pos hsafe]

theorem recognised_of {data : Bytes} {contentType : String} {dimensions : Nat × Nat}
    (h : recognise data = some (contentType, .ok (some dimensions)))
    (hsafe : safeImageDimensions dimensions.1 dimensions.2 = true) :
    Recognised data contentType dimensions := by
  unfold recognise at h
  split at h
  · rw [Option.some_inj, Prod.mk.injEq] at h
    obtain ⟨rfl, hscan⟩ := h
    obtain ⟨image, rest, hdata, rfl⟩ := pngDimensions_sound hscan
    exact .png image rest hdata fun tail => safeInlineImageMetadata_eq (image.recognise tail) hsafe
  · split at h
    · rw [Option.some_inj, Prod.mk.injEq] at h
      obtain ⟨rfl, hscan⟩ := h
      obtain ⟨image, rest, hdata, rfl⟩ := gifDimensions_sound hscan
      exact .gif image rest hdata fun tail =>
        safeInlineImageMetadata_eq (image.recognise tail hsafe) hsafe
    · split at h
      · rw [Option.some_inj, Prod.mk.injEq] at h
        obtain ⟨rfl, hscan⟩ := h
        obtain ⟨image, rest, hdata, rfl⟩ := jpegDimensions_sound hscan
        exact .jpeg image rest hdata
      · split at h
        · rw [Option.some_inj, Prod.mk.injEq] at h
          obtain ⟨rfl, hscan⟩ := h
          exact .webp dimensions hscan
        · cases h

/-- On every byte string the scanners end without an index out of range, and what they return is
within the limits and was read from a text of the format's grammar. -/
theorem image_recognition_exact (data : Bytes) :
    ∃ result, safeInlineImageMetadata data = .ok result ∧
      ∀ contentType width height, result = some (contentType, width, height) →
        0 < width ∧ width ≤ maxInlineImageDimension ∧ 0 < height ∧
          height ≤ maxInlineImageDimension ∧
          width * height ≤ maxInlineImagePixels ∧ Recognised data contentType (width, height) := by
  unfold safeInlineImageMetadata
  cases hrecognise : recognise data with
  | none => exact ⟨none, rfl, nofun⟩
  | some found =>
      obtain ⟨contentType, scan⟩ := found
      obtain ⟨result, rfl⟩ := recognise_ok data hrecognise
      cases result with
      | none => exact ⟨none, rfl, nofun⟩
      | some dimensions =>
          obtain ⟨width, height⟩ := dimensions
          dsimp only
          by_cases hsafe : safeImageDimensions width height = true
          · rw [if_pos hsafe]
            refine ⟨_, rfl, ?_⟩
            rintro _ _ _ ⟨⟩
            have hrecognised := recognised_of hrecognise hsafe
            unfold safeImageDimensions at hsafe
            simp only [Bool.and_eq_true, decide_eq_true_eq] at hsafe
            obtain ⟨⟨⟨⟨hwidth, hwide⟩, hheight⟩, hhigh⟩, hpixels⟩ := hsafe
            exact ⟨hwidth, hwide, hheight, hhigh, hpixels, hrecognised⟩
          · rw [if_neg hsafe]
            exact ⟨none, rfl, nofun⟩

/-- A frame of five by five at (1, 1) on a screen of five by seven. -/
example : safeInlineImageMetadata (gif89a ++ [5, 0, 7, 0, 0, 0, 0] ++
    [0x2C, 1, 0, 1, 0, 5, 0, 5, 0, 0, 2, 1, 7, 0, 0x3B]) = .ok (some ("image/gif", 6, 7)) := by
  decide +kernel

end MaddyWeb.Mail.Image
