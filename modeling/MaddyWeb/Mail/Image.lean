import MaddyWeb.Library.Offsets
import MaddyWeb.Library.Text

/-!
# Recognition of inline images

The four scanners behind `safe_inline_image_metadata`.  They hold the data and an offset; an index
outside the data would raise.
-/

namespace MaddyWeb.Mail.Image

open MaddyWeb.Library MaddyWeb.Library.Offsets

def maxInlineImageDimension : Nat := 4096

def maxInlineImagePixels : Nat := 4000000

/-- `_safe_image_dimensions` -/
def safeImageDimensions (width height : Nat) : Bool :=
  0 < width && width ≤ maxInlineImageDimension && 0 < height && height ≤ maxInlineImageDimension &&
    width * height ≤ maxInlineImagePixels

/-- What a scanner returns: `None`, or a width and a height. -/
abbrev Scan := Except IndexError (Option (Nat × Nat))

/-! ## PNG -/

def pngSignature : Bytes := [0x89, 0x50, 0x4E, 0x47, 0x0D, 0x0A, 0x1A, 0x0A]

def typeIHDR : Bytes := [0x49, 0x48, 0x44, 0x52]

def typeACTL : Bytes := [0x61, 0x63, 0x54, 0x4C]

def typeIEND : Bytes := [0x49, 0x45, 0x4E, 0x44]

/-- The loop over the chunks. -/
def pngChunks (data : Bytes) (dimensions : Nat × Nat) (offset : Nat) : Scan :=
  if _ : offset + 12 ≤ data.length then
    let chunkLength := fromBig (slice data offset (offset + 4))
    let chunkEnd := offset + 12 + chunkLength
    if data.length < chunkEnd then .ok none
    else
      let chunkType := slice data (offset + 4) (offset + 8)
      if chunkType = typeACTL then .ok none
      else if chunkType = typeIEND then .ok (if chunkLength = 0 then some dimensions else none)
      else pngChunks data dimensions chunkEnd
  else .ok none
termination_by data.length - offset
decreasing_by omega

/-- `_png_dimensions` -/
def pngDimensions (data : Bytes) : Scan :=
  if data.length < 45 || !pngSignature.isPrefixOf data || slice data 8 12 != [0, 0, 0, 0x0D] ||
      slice data 12 16 != typeIHDR then
    .ok none
  else
    pngChunks data (fromBig (slice data 16 20), fromBig (slice data 20 24)) 8

/-! ## GIF -/

def gif87a : Bytes := [0x47, 0x49, 0x46, 0x38, 0x37, 0x61]

def gif89a : Bytes := [0x47, 0x49, 0x46, 0x38, 0x39, 0x61]

/-- The bytes of the colour table that a packed field announces. -/
def colourTableBytes (packed : UInt8) : Nat :=
  if packed &&& 0x80 ≠ 0 then 3 * 2 ^ ((packed &&& 0x07).toNat + 1) else 0

/-- The inner loop: skip sub-blocks up to their terminator; `none` when it is missing. -/
def subBlocks (data : Bytes) (offset : Nat) : Except IndexError (Option Nat) :=
  if _ : offset < data.length then
    match byteAt data offset with
    | .error e => .error e
    | .ok blockSize =>
      if blockSize = 0 then .ok (some (offset + 1))
      else if data.length < offset + 1 + blockSize.toNat then .ok none
      else subBlocks data (offset + 1 + blockSize.toNat)
  else .ok none
termination_by data.length - offset
decreasing_by omega

theorem subBlocks_gt {data : Bytes} {offset next : Nat}
    (h : subBlocks data offset = .ok (some next)) :
    offset < next := by
  fun_induction subBlocks data offset with
  | case1 => cases h
  | case2 =>
      cases h
      omega
  | case3 => cases h
  | case4 offset hoffset blockSize hread hzero hfits ih =>
      have hlt := ih h
      omega
  | case5 => cases h

/-- The branch of an image descriptor: the dimensions so far, and where its sub-blocks start. -/
def imageDescriptor (data : Bytes) (dimensions : Nat × Nat) (imageCount offset : Nat) :
    Except IndexError (Option ((Nat × Nat) × Nat)) :=
  if data.length < offset + 10 then .ok none
  else if 1 < imageCount + 1 then .ok none
  else
    let left := fromLittle (slice data (offset + 1) (offset + 3))
    let top := fromLittle (slice data (offset + 3) (offset + 5))
    let frameWidth := fromLittle (slice data (offset + 5) (offset + 7))
    let frameHeight := fromLittle (slice data (offset + 7) (offset + 9))
    let dimensions := (max dimensions.1 (left + frameWidth), max dimensions.2 (top + frameHeight))
    if !safeImageDimensions dimensions.1 dimensions.2 then .ok none
    else
      match byteAt data (offset + 9) with
      | .error e => .error e
      | .ok descriptorPacked =>
        let offset := offset + 10 + colourTableBytes descriptorPacked
        if data.length ≤ offset then .ok none else .ok (some (dimensions, offset + 1))

theorem imageDescriptor_gt {data : Bytes} {dimensions dimensions' : Nat × Nat}
    {imageCount offset next : Nat}
    (h : imageDescriptor data dimensions imageCount offset = .ok (some (dimensions', next))) :
    offset < next := by
  unfold imageDescriptor at h
  split at h
  · cases h
  · split at h
    · cases h
    · dsimp only at h
      split at h
      · cases h
      · split at h
        · cases h
        · split at h
          · cases h
          · cases h
            omega

/-- What stands in front of the sub-blocks of a block, if its marker is known: the dimensions and
the image count after it, and where its sub-blocks start. -/
def blockHeader (data : Bytes) (dimensions : Nat × Nat) (imageCount offset : Nat) (marker : UInt8) :
    Except IndexError (Option ((Nat × Nat) × Nat × Nat)) :=
  if marker = 0x21 then
    if data.length < offset + 2 then .ok none
    else .ok (some (dimensions, imageCount, offset + 2))
  else if marker = 0x2C then
    match imageDescriptor data dimensions imageCount offset with
    | .error e => .error e
    | .ok none => .ok none
    | .ok (some (dimensions, next)) => .ok (some (dimensions, imageCount + 1, next))
  else .ok none

theorem blockHeader_gt {data : Bytes} {dimensions dimensions' : Nat × Nat}
    {imageCount imageCount' offset next : Nat} {marker : UInt8}
    (h : blockHeader data dimensions imageCount offset marker =
      .ok (some (dimensions', imageCount', next))) : offset < next := by
  unfold blockHeader at h
  split at h
  · split at h
    · cases h
    · cases h
      omega
  · split at h
    · split at h
      · cases h
      · cases h
      · next hdescriptor =>
          cases h
          exact imageDescriptor_gt hdescriptor
    · cases h

/-- The loop over the blocks. -/
def gifBlocks (data : Bytes) (dimensions : Nat × Nat) (imageCount offset : Nat) : Scan :=
  if _ : offset < data.length then
    match byteAt data offset with
    | .error e => .error e
    | .ok marker =>
      if marker = 0x3B then .ok (if imageCount = 1 then some dimensions else none)
      else
        match _ : blockHeader data dimensions imageCount offset marker with
        | .error e => .error e
        | .ok none => .ok none
        | .ok (some (dimensions, imageCount, start)) =>
          match _ : subBlocks data start with
          | .error e => .error e
          | .ok none => .ok none
          | .ok (some next) => gifBlocks data dimensions imageCount next
  else .ok none
termination_by data.length - offset
decreasing_by
  have hstart := blockHeader_gt ‹blockHeader _ _ _ _ _ = _›
  have hnext := subBlocks_gt ‹subBlocks _ _ = _›
  omega

/-- `_gif_dimensions` -/
def gifDimensions (data : Bytes) : Scan :=
  if data.length < 14 || !(gif87a.isPrefixOf data || gif89a.isPrefixOf data) then .ok none
  else
    match byteAt data 10 with
    | .error e => .error e
    | .ok packed =>
      gifBlocks data (fromLittle (slice data 6 8), fromLittle (slice data 8 10)) 0
        (13 + colourTableBytes packed)

/-! ## JPEG -/

def startOfFrame : List UInt8 :=
  [0xC0, 0xC1, 0xC2, 0xC3, 0xC5, 0xC6, 0xC7, 0xC9, 0xCA, 0xCB, 0xCD, 0xCE, 0xCF]

def standalone : List UInt8 :=
  [0x01, 0xD8, 0xD9, 0xD0, 0xD1, 0xD2, 0xD3, 0xD4, 0xD5, 0xD6, 0xD7]

/-- The inner loop over the bytes `0xFF` in front of a marker. -/
def skipFill (data : Bytes) (offset : Nat) : Except IndexError Nat :=
  if _ : offset < data.length then
    match byteAt data offset with
    | .error e => .error e
    | .ok byte => if byte = 0xFF then skipFill data (offset + 1) else .ok offset
  else .ok offset
termination_by data.length - offset
decreasing_by omega

theorem skipFill_ge {data : Bytes} {offset next : Nat} (h : skipFill data offset = .ok next) :
    offset ≤ next := by
  fun_induction skipFill data offset with
  | case1 => cases h
  | case2 offset hoffset hread ih =>
      have hle := ih h
      omega
  | case3 =>
      cases h
      exact Nat.le_refl _
  | case4 =>
      cases h
      exact Nat.le_refl _

/-- The loop over the markers. -/
def jpegMarkers (data : Bytes) (offset : Nat) : Scan :=
  if _ : offset < data.length then
    match byteAt data offset with
    | .error e => .error e
    | .ok first =>
      if first ≠ 0xFF then .ok none
      else
        match _ : skipFill data offset with
        | .error e => .error e
        | .ok position =>
          if data.length ≤ position then .ok none
          else
            match byteAt data position with
            | .error e => .error e
            | .ok marker =>
              if standalone.contains marker then
                if marker = 0xD9 then .ok none else jpegMarkers data (position + 1)
              else if marker = 0xDA || data.length < position + 1 + 2 then .ok none
              else
                let segmentLength := fromBig (slice data (position + 1) (position + 1 + 2))
                if _ : segmentLength < 2 || data.length < position + 1 + segmentLength then
                  .ok none
                else if startOfFrame.contains marker then
                  if segmentLength < 7 then .ok none
                  else
                    .ok (some (fromBig (slice data (position + 1 + 5) (position + 1 + 7)),
                      fromBig (slice data (position + 1 + 3) (position + 1 + 5))))
                else jpegMarkers data (position + 1 + segmentLength)
  else .ok none
termination_by data.length - offset
decreasing_by
  · have hposition := skipFill_ge ‹skipFill _ _ = _›
    omega
  · have hposition := skipFill_ge ‹skipFill _ _ = _›
    omega

/-- `_jpeg_dimensions` -/
def jpegDimensions (data : Bytes) : Scan :=
  if !([0xFF, 0xD8] : Bytes).isPrefixOf data then .ok none else jpegMarkers data 2

/-! ## WebP -/

def tagRIFF : Bytes := [0x52, 0x49, 0x46, 0x46]

def tagWEBP : Bytes := [0x57, 0x45, 0x42, 0x50]

def tagVP8X : Bytes := [0x56, 0x50, 0x38, 0x58]

def tagVP8 : Bytes := [0x56, 0x50, 0x38, 0x20]

def tagVP8L : Bytes := [0x56, 0x50, 0x38, 0x4C]

/-- `_webp_dimensions` -/
def webpDimensions (data : Bytes) : Scan :=
  if data.length < 30 || !tagRIFF.isPrefixOf data || slice data 8 12 != tagWEBP ||
      data.length < fromLittle (slice data 4 8) + 8 then
    .ok none
  else do
    let chunk := slice data 12 16
    if chunk = tagVP8X then
      let flags ← byteAt data 20
      if flags &&& 0x02 ≠ 0 then return none
      return some (fromLittle (slice data 24 27) + 1, fromLittle (slice data 27 30) + 1)
    else if chunk = tagVP8 && slice data 23 26 == [0x9D, 0x01, 0x2A] then
      return some (fromLittle (slice data 26 28) % 2 ^ 14, fromLittle (slice data 28 30) % 2 ^ 14)
    else if chunk = tagVP8L then
      let signature ← byteAt data 20
      if signature = 0x2F then
        let dimensions := fromLittle (slice data 21 25)
        return some (dimensions % 2 ^ 14 + 1, dimensions / 2 ^ 14 % 2 ^ 14 + 1)
      else return none
    else return none

/-! ## All formats -/

/-- The content type of a recognised start, and its scanner. -/
def recognise (data : Bytes) : Option (String × Scan) :=
  if pngSignature.isPrefixOf data then some ("image/png", pngDimensions data)
  else if gif87a.isPrefixOf data || gif89a.isPrefixOf data
    then some ("image/gif", gifDimensions data)
  else if ([0xFF, 0xD8] : Bytes).isPrefixOf data then some ("image/jpeg", jpegDimensions data)
  else if tagRIFF.isPrefixOf data && slice data 8 12 == tagWEBP then
    some ("image/webp", webpDimensions data)
  else none

/-- `safe_inline_image_metadata` -/
def safeInlineImageMetadata (data : Bytes) : Except IndexError (Option (String × Nat × Nat)) :=
  match recognise data with
  | none => .ok none
  | some (_, .error e) => .error e
  | some (_, .ok none) => .ok none
  | some (contentType, .ok (some (width, height))) =>
    .ok (if safeImageDimensions width height then some (contentType, width, height) else none)

end MaddyWeb.Mail.Image
