import MaddyWeb.Mail.Image

/-!
# What a recognised image looks like

The grammars of the three scanned formats, as far as the scanners read them.  A scanner that
returns dimensions has read a text of its grammar, and reads it again whatever follows.
-/

namespace MaddyWeb.Mail.Image

open MaddyWeb.Library MaddyWeb.Library.Offsets

/-! ## PNG -/

structure PngChunk where
  lengthField : Bytes
  type : Bytes
  body : Bytes
  crc : Bytes
  lengthField_width : lengthField.length = 4
  type_width : type.length = 4
  crc_width : crc.length = 4
  framed : fromBig lengthField = body.length

def PngChunk.bytes (chunk : PngChunk) : Bytes :=
  chunk.lengthField ++ (chunk.type ++ (chunk.body ++ chunk.crc))

structure Png where
  header : PngChunk
  chunks : List PngChunk
  last : PngChunk
  header_type : header.type = typeIHDR
  header_length : header.lengthField = [0, 0, 0, 0x0D]
  inner : ∀ chunk ∈ chunks, chunk.type ≠ typeACTL ∧ chunk.type ≠ typeIEND
  last_type : last.type = typeIEND
  last_empty : last.body = []

namespace Png

def bytes (image : Png) : Bytes :=
  pngSignature ++ (image.header.bytes ++ (image.chunks.flatMap PngChunk.bytes ++ image.last.bytes))

def dimensions (image : Png) : Nat × Nat :=
  (fromBig (slice image.header.body 0 4), fromBig (slice image.header.body 4 8))

end Png

theorem PngChunk.length_bytes (chunk : PngChunk) : chunk.bytes.length = 12 + chunk.body.length := by
  have hlength := chunk.lengthField_width
  have htype := chunk.type_width
  have hcrc := chunk.crc_width
  unfold PngChunk.bytes
  simp only [List.length_append]
  omega

/-- What the loop reads of a chunk. -/
theorem PngChunk.read {data rest : Bytes} {offset : Nat} {chunk : PngChunk}
    (h : data.drop offset = chunk.bytes ++ rest) :
    offset + 12 + chunk.body.length ≤ data.length ∧
      slice data offset (offset + 4) = chunk.lengthField ∧
      slice data (offset + 4) (offset + 8) = chunk.type ∧
      data.drop (offset + 12 + chunk.body.length) = rest := by
  have hbytes := chunk.length_bytes
  have hne : chunk.bytes ++ rest ≠ [] := by
    rw [← List.length_pos_iff, List.length_append]
    omega
  have hlength := length_eq_of_drop h hne
  have hrest : data.drop (offset + 12 + chunk.body.length) = rest := by
    rw [Nat.add_assoc]
    exact drop_of_drop h hbytes
  unfold PngChunk.bytes at h
  rw [List.append_assoc] at h
  have htype := drop_of_drop h chunk.lengthField_width
  rw [List.append_assoc] at htype
  refine ⟨?_, slice_of_drop h chunk.lengthField_width, ?_, hrest⟩
  · rw [List.length_append] at hlength
    omega
  · exact slice_of_drop htype chunk.type_width

/-- A chunk stands wherever one fits. -/
theorem exists_chunk {data : Bytes} {offset : Nat}
    (h : offset + 12 + fromBig (slice data offset (offset + 4)) ≤ data.length) :
    ∃ chunk : PngChunk, chunk.lengthField = slice data offset (offset + 4) ∧
      chunk.type = slice data (offset + 4) (offset + 8) ∧
      data.drop offset =
        chunk.bytes ++ data.drop (offset + 12 + fromBig (slice data offset (offset + 4))) := by
  generalize hbody : fromBig (slice data offset (offset + 4)) = n at h ⊢
  obtain ⟨hlength, hlengthWidth⟩ := @drop_eq_slice_append data offset 4 (by omega)
  obtain ⟨htype, htypeWidth⟩ := @drop_eq_slice_append data (offset + 4) 4 (by omega)
  obtain ⟨hbytes, hbodyWidth⟩ := @drop_eq_slice_append data (offset + 4 + 4) n (by omega)
  obtain ⟨hcrc, hcrcWidth⟩ := @drop_eq_slice_append data (offset + 4 + 4 + n) 4 (by omega)
  refine ⟨⟨_, _, _, _, hlengthWidth, htypeWidth, hcrcWidth, hbody.trans hbodyWidth.symm⟩, rfl, rfl,
    ?_⟩
  have hend : offset + 12 + n = offset + 4 + 4 + n + 4 := by omega
  rw [hend, PngChunk.bytes, List.append_assoc, List.append_assoc, List.append_assoc, ← hcrc,
    ← hbytes, ← htype, ← hlength]

theorem pngChunks_ok (data : Bytes) (dimensions : Nat × Nat) (offset : Nat) :
    ∃ result, pngChunks data dimensions offset = .ok result := by
  fun_induction pngChunks data dimensions offset with
  | case4 offset hoffset chunkLength chunkEnd hend chunkType hactl hiend ih => exact ih
  | _ => exact ⟨_, rfl⟩

theorem pngChunks_sound {data : Bytes} {dimensions found : Nat × Nat} {offset : Nat}
    (h : pngChunks data dimensions offset = .ok (some found)) :
    found = dimensions ∧ ∃ (chunks : List PngChunk) (last : PngChunk) (rest : Bytes),
      data.drop offset = chunks.flatMap PngChunk.bytes ++ (last.bytes ++ rest) ∧
      (∀ chunk ∈ chunks, chunk.type ≠ typeACTL ∧ chunk.type ≠ typeIEND) ∧
      last.type = typeIEND ∧ last.body = [] := by
  fun_induction pngChunks data dimensions offset with
  | case1 => cases h
  | case2 => cases h
  | case3 offset hoffset chunkLength chunkEnd hend chunkType hactl hiend =>
      by_cases hzero : chunkLength = 0
      · rw [if_pos hzero] at h
        cases h
        obtain ⟨last, hlength, htype, hlast⟩ := @exists_chunk data offset (by omega)
        refine ⟨rfl, [], last, _, hlast, nofun, htype.trans hiend, ?_⟩
        rw [← List.length_eq_zero_iff, ← last.framed, hlength]
        exact hzero
      · rw [if_neg hzero] at h
        cases h
  | case4 offset hoffset chunkLength chunkEnd hend chunkType hactl hiend ih =>
      obtain ⟨hfound, chunks, last, rest, hrest, hinner, hlast⟩ := ih h
      obtain ⟨chunk, hlength, htype, hchunk⟩ := @exists_chunk data offset (by omega)
      refine ⟨hfound, chunk :: chunks, last, rest, ?_, ?_, hlast⟩
      · rw [hchunk, List.flatMap_cons, List.append_assoc, ← hrest]
      · rw [List.forall_mem_cons]
        exact ⟨htype ▸ ⟨hactl, hiend⟩, hinner⟩
  | case5 => cases h

theorem pngChunks_complete {data rest : Bytes} (dimensions : Nat × Nat) {chunks : List PngChunk}
    {last : PngChunk} (hinner : ∀ chunk ∈ chunks, chunk.type ≠ typeACTL ∧ chunk.type ≠ typeIEND)
    (htype : last.type = typeIEND) (hempty : last.body = []) {offset : Nat}
    (h : data.drop offset = chunks.flatMap PngChunk.bytes ++ (last.bytes ++ rest)) :
    pngChunks data dimensions offset = .ok (some dimensions) := by
  induction chunks generalizing offset with
  | nil =>
      obtain ⟨hbound, hlength, hread, -⟩ := PngChunk.read h
      have hzero : fromBig (slice data offset (offset + 4)) = 0 := by
        rw [hlength, last.framed, hempty]
        rfl
      unfold pngChunks
      rw [dif_pos (by omega), hzero, if_neg (by omega), hread, htype, if_neg (by decide),
        if_pos rfl, if_pos rfl]
  | cons chunk chunks ih =>
      obtain ⟨⟨hactl, hiend⟩, hinner⟩ := List.forall_mem_cons.mp hinner
      rw [List.flatMap_cons, List.append_assoc] at h
      obtain ⟨hbound, hlength, hread, hrest⟩ := PngChunk.read h
      have hframed : fromBig (slice data offset (offset + 4)) = chunk.body.length := by
        rw [hlength, chunk.framed]
      unfold pngChunks
      rw [dif_pos (by omega), hframed, if_neg (by omega), hread, if_neg hactl, if_neg hiend]
      exact ih hinner hrest

theorem Png.header_body (image : Png) : image.header.body.length = 13 := by
  rw [← image.header.framed, image.header_length]
  decide

theorem Png.drop_header (image : Png) (rest : Bytes) :
    (image.bytes ++ rest).drop 8 =
      image.header.bytes ++ (image.chunks.flatMap PngChunk.bytes ++
        (image.last.bytes ++ rest)) := by
  simp only [Png.bytes, List.append_assoc]
  rfl

theorem Png.length_bytes (image : Png) : 45 ≤ image.bytes.length := by
  have hheader := image.header.length_bytes
  have hbody := image.header_body
  have hlast := image.last.length_bytes
  unfold Png.bytes pngSignature
  simp only [List.length_append, List.length_cons, List.length_nil]
  omega

/-- Where the dimensions stand in the data. -/
theorem PngChunk.read_dimensions {data rest : Bytes} {chunk : PngChunk}
    (h : data.drop 8 = chunk.bytes ++ rest) (hbody : chunk.body.length = 13) :
    slice data 16 20 = slice chunk.body 0 4 ∧ slice data 20 24 = slice chunk.body 4 8 := by
  unfold PngChunk.bytes at h
  rw [List.append_assoc] at h
  have htype := drop_of_drop h chunk.lengthField_width
  rw [List.append_assoc] at htype
  have hread := drop_of_drop htype chunk.type_width
  rw [List.append_assoc] at hread
  constructor
  · exact (slice_at hread 0 4).trans (slice_append (by omega) (by omega))
  · exact (slice_at hread 4 8).trans (slice_append (by omega) (by omega))

theorem Png.complete (image : Png) (rest : Bytes) :
    pngDimensions (image.bytes ++ rest) = .ok (some image.dimensions) := by
  have hheader := image.drop_header rest
  have hlength := image.length_bytes
  obtain ⟨-, hfield, htype, -⟩ := PngChunk.read hheader
  obtain ⟨hwidth, hheight⟩ := PngChunk.read_dimensions hheader image.header_body
  have hstarts : pngSignature.isPrefixOf (image.bytes ++ rest) = true := by
    rw [List.isPrefixOf_iff_prefix, Png.bytes, List.append_assoc]
    exact List.prefix_append _ _
  unfold pngDimensions
  rw [if_neg, hwidth, hheight]
  · have hinner : ∀ chunk ∈ image.header :: image.chunks,
        chunk.type ≠ typeACTL ∧ chunk.type ≠ typeIEND := by
      rw [List.forall_mem_cons, image.header_type]
      exact ⟨by decide, image.inner⟩
    apply pngChunks_complete _ hinner image.last_type image.last_empty
    rw [hheader, List.flatMap_cons, List.append_assoc]
  · rw [image.header_length] at hfield
    rw [image.header_type] at htype
    rw [hstarts, show slice (image.bytes ++ rest) 8 12 = _ from hfield,
      show slice (image.bytes ++ rest) 12 16 = _ from htype, List.length_append,
      decide_eq_false (by omega)]
    decide

theorem pngDimensions_sound {data : Bytes} {found : Nat × Nat}
    (h : pngDimensions data = .ok (some found)) :
    ∃ (image : Png) (rest : Bytes), data = image.bytes ++ rest ∧ image.dimensions = found := by
  unfold pngDimensions at h
  split at h
  · cases h
  · next hstart =>
      simp only [Bool.or_eq_true, not_or, Bool.not_eq_true', Bool.not_eq_false, bne_iff_ne, ne_eq,
        not_not] at hstart
      obtain ⟨⟨⟨-, hstarts⟩, hfield⟩, htype⟩ := hstart
      obtain ⟨suffix, rfl⟩ := List.isPrefixOf_iff_prefix.mp hstarts
      obtain ⟨rfl, chunks, last, rest, hrest, hinner, hlast, hempty⟩ := pngChunks_sound h
      cases chunks with
      | nil =>
          obtain ⟨-, -, hread, -⟩ := PngChunk.read hrest
          have hsame := (htype.symm.trans hread).trans hlast
          exact absurd hsame (by decide)
      | cons header chunks =>
          obtain ⟨-, hinner⟩ := List.forall_mem_cons.mp hinner
          rw [List.flatMap_cons, List.append_assoc] at hrest
          obtain ⟨-, hlength, hread, -⟩ := PngChunk.read hrest
          have hheader : header.lengthField = [0, 0, 0, 0x0D] := hlength.symm.trans hfield
          let image : Png :=
            ⟨header, chunks, last, hread.symm.trans htype, hheader, hinner, hlast, hempty⟩
          obtain ⟨hwidth, hheight⟩ := PngChunk.read_dimensions hrest image.header_body
          refine ⟨image, rest, ?_, ?_⟩
          · have hsuffix : suffix = (pngSignature ++ suffix).drop 8 := rfl
            rw [hsuffix, hrest]
            simp only [image, Png.bytes, List.append_assoc]
          · rw [hwidth, hheight]
            rfl

theorem pngDimensions_ok (data : Bytes) : ∃ result, pngDimensions data = .ok result := by
  unfold pngDimensions
  split
  · exact ⟨_, rfl⟩
  · exact pngChunks_ok _ _ _

/-! ## GIF -/

/-- The data of a sub-block. -/
abbrev SubBlock := { data : Bytes // 0 < data.length ∧ data.length < 256 }

def SubBlock.bytes (block : SubBlock) : Bytes := UInt8.ofNat block.val.length :: block.val

/-- Sub-blocks and their terminator. -/
def subBlocksBytes (blocks : List SubBlock) : Bytes := blocks.flatMap SubBlock.bytes ++ [0]

theorem SubBlock.toNat_length (block : SubBlock) :
    (UInt8.ofNat block.val.length).toNat = block.val.length := by
  rw [UInt8.toNat_ofNat']
  exact Nat.mod_eq_of_lt block.property.2

theorem SubBlock.length_ne_zero (block : SubBlock) : UInt8.ofNat block.val.length ≠ 0 := by
  intro hzero
  have hlength := block.toNat_length
  rw [hzero] at hlength
  exact absurd block.property.1 (by rw [← hlength]; decide)

theorem subBlocks_ok (data : Bytes) (offset : Nat) :
    ∃ result, subBlocks data offset = .ok result := by
  fun_induction subBlocks data offset with
  | case1 offset hoffset e hread =>
      rw [byteAt_of_lt hoffset] at hread
      cases hread
  | case4 offset hoffset blockSize hread hzero hfits ih => exact ih
  | _ => exact ⟨_, rfl⟩

theorem subBlocks_sound {data : Bytes} {offset next : Nat}
    (h : subBlocks data offset = .ok (some next)) :
    ∃ blocks, data.drop offset = subBlocksBytes blocks ++ data.drop next := by
  fun_induction subBlocks data offset with
  | case1 => cases h
  | case2 offset hoffset hread =>
      cases h
      obtain ⟨byte, hbyte, hdrop⟩ := exists_byteAt hoffset
      cases hread.symm.trans hbyte
      exact ⟨[], hdrop⟩
  | case3 => cases h
  | case4 offset hoffset blockSize hread hzero hfits ih =>
      obtain ⟨blocks, hblocks⟩ := ih h
      obtain ⟨byte, hbyte, hdrop⟩ := exists_byteAt hoffset
      cases hread.symm.trans hbyte
      obtain ⟨hbody, hlength⟩ := @drop_eq_slice_append data (offset + 1) blockSize.toNat (by omega)
      have hpos : blockSize.toNat ≠ 0 := fun hnone => hzero (UInt8.toNat_inj.mp hnone)
      have hbound := blockSize.toNat_lt
      refine ⟨⟨slice data (offset + 1) (offset + 1 + blockSize.toNat), by omega, by omega⟩ ::
        blocks, ?_⟩
      have hsize : UInt8.ofNat (slice data (offset + 1) (offset + 1 + blockSize.toNat)).length =
          blockSize := by
        rw [hlength]
        exact UInt8.ofNat_toNat
      rw [hdrop, hbody, hblocks]
      simp only [subBlocksBytes, List.flatMap_cons, SubBlock.bytes, hsize, List.cons_append,
        List.append_assoc]
  | case5 => cases h

theorem subBlocks_complete {data rest : Bytes} {blocks : List SubBlock} {offset : Nat}
    (h : data.drop offset = subBlocksBytes blocks ++ rest) :
    ∃ next, subBlocks data offset = .ok (some next) ∧ data.drop next = rest := by
  induction blocks generalizing offset with
  | nil =>
      have hzero : data.drop offset = 0 :: rest := h
      have hlength := length_eq_of_drop hzero (List.cons_ne_nil 0 rest)
      have hdrop : data.drop (offset + 1) = rest := @drop_of_drop data [0] rest offset h 1 rfl
      rw [List.length_cons] at hlength
      unfold subBlocks
      rw [dif_pos (by omega), byteAt_of_drop hzero]
      exact ⟨_, rfl, hdrop⟩
  | cons block blocks ih =>
      have hcons : data.drop offset = UInt8.ofNat block.val.length ::
          (block.val ++ (subBlocksBytes blocks ++ rest)) := by
        rw [h]
        simp only [subBlocksBytes, List.flatMap_cons, SubBlock.bytes, List.cons_append,
          List.append_assoc]
      have hlength := length_eq_of_drop hcons (List.cons_ne_nil _ _)
      have hbody : data.drop (offset + 1) = block.val ++ (subBlocksBytes blocks ++ rest) :=
        @drop_of_drop data [_] _ offset hcons 1 rfl
      rw [List.length_cons, List.length_append] at hlength
      unfold subBlocks
      rw [dif_pos (by omega), byteAt_of_drop hcons]
      dsimp only
      rw [if_neg block.length_ne_zero, block.toNat_length, if_neg (by omega)]
      exact ih (drop_of_drop hbody rfl)

/-- An image descriptor with its colour table and its data. -/
structure GifFrame where
  left : Bytes
  top : Bytes
  width : Bytes
  height : Bytes
  packed : UInt8
  table : Bytes
  minimumCodeSize : UInt8
  blocks : List SubBlock
  left_width : left.length = 2
  top_width : top.length = 2
  width_width : width.length = 2
  height_width : height.length = 2
  table_length : table.length = colourTableBytes packed

/-- What follows the marker of a frame up to its sub-blocks. -/
def GifFrame.descriptor (frame : GifFrame) : Bytes :=
  frame.left ++ (frame.top ++ (frame.width ++ (frame.height ++ frame.packed ::
    (frame.table ++ [frame.minimumCodeSize]))))

/-- The smallest screen that covers a screen and a frame at its offset. -/
def GifFrame.cover (dimensions : Nat × Nat) (frame : GifFrame) : Nat × Nat :=
  (max dimensions.1 (fromLittle frame.left + fromLittle frame.width),
    max dimensions.2 (fromLittle frame.top + fromLittle frame.height))

inductive GifBlock
  | extension (label : UInt8) (blocks : List SubBlock)
  | image (frame : GifFrame)

namespace GifBlock

def bytes : GifBlock → Bytes
  | extension label blocks => 0x21 :: label :: subBlocksBytes blocks
  | image frame => 0x2C :: (frame.descriptor ++ subBlocksBytes frame.blocks)

def frame : GifBlock → Option GifFrame
  | extension _ _ => none
  | image frame => some frame

end GifBlock

/-- The frames of a sequence of blocks. -/
def frames (blocks : List GifBlock) : List GifFrame := blocks.filterMap GifBlock.frame

theorem imageDescriptor_ok (data : Bytes) (dimensions : Nat × Nat) (imageCount offset : Nat) :
    ∃ result, imageDescriptor data dimensions imageCount offset = .ok result := by
  unfold imageDescriptor
  split
  · exact ⟨_, rfl⟩
  · split
    · exact ⟨_, rfl⟩
    · dsimp only
      split
      · exact ⟨_, rfl⟩
      · rw [byteAt_of_lt (show offset + 9 < data.length by omega)]
        dsimp only
        split
        · exact ⟨_, rfl⟩
        · exact ⟨_, rfl⟩

theorem imageDescriptor_sound {data : Bytes} {dimensions found : Nat × Nat}
    {imageCount offset next : Nat} (blocks : List SubBlock)
    (h : imageDescriptor data dimensions imageCount offset = .ok (some (found, next))) :
    imageCount = 0 ∧ ∃ frame : GifFrame, frame.blocks = blocks ∧ found = frame.cover dimensions ∧
      data.drop (offset + 1) = frame.descriptor ++ data.drop next := by
  unfold imageDescriptor at h
  split at h
  · cases h
  · split at h
    · cases h
    · dsimp only at h
      split at h
      · cases h
      · next hbound hcount hsafe =>
          rw [byteAt_of_lt (show offset + 9 < data.length by omega)] at h
          dsimp only at h
          split at h
          · cases h
          · next htable =>
              cases h
              generalize hpacked : data[offset + 9] = packed at htable ⊢
              obtain ⟨hleft, hleftWidth⟩ := @drop_eq_slice_append data (offset + 1) 2 (by omega)
              obtain ⟨htop, htopWidth⟩ := @drop_eq_slice_append data (offset + 3) 2 (by omega)
              obtain ⟨hwidth, hwidthWidth⟩ := @drop_eq_slice_append data (offset + 5) 2 (by omega)
              obtain ⟨hheight, hheightWidth⟩ := @drop_eq_slice_append data (offset + 7) 2 (by omega)
              obtain ⟨hcolours, hcoloursWidth⟩ :=
                @drop_eq_slice_append data (offset + 10) (colourTableBytes packed) (by omega)
              obtain ⟨code, -, hcode⟩ :=
                @exists_byteAt data (offset + 10 + colourTableBytes packed) (by omega)
              have hbyte : data.drop (offset + 9) = packed :: data.drop (offset + 10) := by
                rw [← hpacked]
                exact List.drop_eq_getElem_cons _
              refine ⟨by omega, ⟨_, _, _, _, packed, _, code, blocks, hleftWidth, htopWidth,
                hwidthWidth, hheightWidth, hcoloursWidth⟩, rfl, rfl, ?_⟩
              simp only [GifFrame.descriptor, List.append_assoc, List.cons_append, List.nil_append]
              rw [← hcode, ← hcolours, ← hbyte]
              exact hleft.trans (congrArg _ (htop.trans (congrArg _
                (hwidth.trans (congrArg _ hheight)))))

theorem imageDescriptor_complete {data rest : Bytes} {dimensions : Nat × Nat} {offset : Nat}
    {marker : UInt8} {frame : GifFrame}
    (h : data.drop offset = marker :: (frame.descriptor ++ rest)) (hrest : rest ≠ [])
    (hsafe : safeImageDimensions (frame.cover dimensions).1 (frame.cover dimensions).2 = true) :
    ∃ next, imageDescriptor data dimensions 0 offset = .ok (some (frame.cover dimensions, next)) ∧
      data.drop next = rest := by
  have hlength := length_eq_of_drop h (List.cons_ne_nil _ _)
  have hpos := List.length_pos_iff.mpr hrest
  have hleft : data.drop (offset + 1) = frame.descriptor ++ rest :=
    @drop_of_drop data [marker] _ offset h 1 rfl
  simp only [GifFrame.descriptor, List.append_assoc, List.cons_append, List.nil_append] at hleft
  have htop := drop_of_drop hleft frame.left_width
  have hwidth := drop_of_drop htop frame.top_width
  have hheight := drop_of_drop hwidth frame.width_width
  have hpacked := drop_of_drop hheight frame.height_width
  have htable : data.drop (offset + 10) = frame.table ++ frame.minimumCodeSize :: rest :=
    @drop_of_drop data [frame.packed] _ (offset + 9) hpacked 1 rfl
  have hcode := drop_of_drop htable frame.table_length
  have hnext : data.drop (offset + 10 + colourTableBytes frame.packed + 1) = rest :=
    @drop_of_drop data [frame.minimumCodeSize] rest _ hcode 1 rfl
  have hend := length_eq_of_drop hcode (List.cons_ne_nil _ _)
  rw [List.length_cons] at hend
  have hleftField : slice data (offset + 1) (offset + 3) = frame.left :=
    slice_of_drop hleft frame.left_width
  have htopField : slice data (offset + 3) (offset + 5) = frame.top :=
    slice_of_drop htop frame.top_width
  have hwidthField : slice data (offset + 5) (offset + 7) = frame.width :=
    slice_of_drop hwidth frame.width_width
  have hheightField : slice data (offset + 7) (offset + 9) = frame.height :=
    slice_of_drop hheight frame.height_width
  refine ⟨_, ?_, hnext⟩
  unfold imageDescriptor
  rw [if_neg (by omega), if_neg (by decide), hleftField, htopField, hwidthField, hheightField]
  unfold GifFrame.cover at hsafe ⊢
  dsimp only at hsafe ⊢
  rw [hsafe, byteAt_of_drop hpacked]
  dsimp only
  rw [if_neg (by decide), if_neg (by omega)]

theorem blockHeader_ok (data : Bytes) (dimensions : Nat × Nat) (imageCount offset : Nat)
    (marker : UInt8) :
    ∃ result, blockHeader data dimensions imageCount offset marker = .ok result := by
  obtain ⟨result, hresult⟩ := imageDescriptor_ok data dimensions imageCount offset
  unfold blockHeader
  rw [hresult]
  split
  · split
    · exact ⟨_, rfl⟩
    · exact ⟨_, rfl⟩
  · split
    · split
      · next h => cases h
      · exact ⟨_, rfl⟩
      · exact ⟨_, rfl⟩
    · exact ⟨_, rfl⟩

theorem gifBlocks_ok (data : Bytes) (dimensions : Nat × Nat) (imageCount offset : Nat) :
    ∃ result, gifBlocks data dimensions imageCount offset = .ok result := by
  fun_induction gifBlocks data dimensions imageCount offset with
  | case1 dimensions imageCount offset hoffset e hread =>
      rw [byteAt_of_lt hoffset] at hread
      cases hread
  | case3 dimensions imageCount offset hoffset marker hread hmarker e hheader =>
      obtain ⟨result, hresult⟩ := blockHeader_ok data dimensions imageCount offset marker
      cases hheader.symm.trans hresult
  | case5 _ _ _ _ _ _ _ _ _ start _ e hblocks =>
      obtain ⟨result, hresult⟩ := subBlocks_ok data start
      cases hblocks.symm.trans hresult
  | case7 _ _ _ _ _ _ _ _ _ _ _ _ _ ih => exact ih
  | _ => exact ⟨_, rfl⟩

/-- One block that the loop has read. -/
theorem block_sound {data : Bytes} {dimensions dimensions' : Nat × Nat}
    {imageCount imageCount' offset start next : Nat} {marker : UInt8}
    (hdrop : data.drop offset = marker :: data.drop (offset + 1))
    (hheader : blockHeader data dimensions imageCount offset marker =
      .ok (some (dimensions', imageCount', start)))
    (hblocks : subBlocks data start = .ok (some next)) :
    ∃ block : GifBlock, data.drop offset = block.bytes ++ data.drop next ∧
      imageCount' = imageCount + (frames [block]).length ∧
      dimensions' = (frames [block]).foldl GifFrame.cover dimensions := by
  obtain ⟨blocks, hblocks⟩ := subBlocks_sound hblocks
  unfold blockHeader at hheader
  split at hheader
  · next hmarker =>
      split at hheader
      · cases hheader
      · next hbound =>
          cases hheader
          obtain ⟨label, -, hlabel⟩ := @exists_byteAt data (offset + 1) (by omega)
          refine ⟨.extension label blocks, ?_, rfl, rfl⟩
          rw [hdrop, hmarker, hlabel, hblocks]
          rfl
  · split at hheader
    · next hmarker =>
        split at hheader
        · cases hheader
        · cases hheader
        · next hdescriptor =>
            cases hheader
            obtain ⟨-, frame, hframe, hcover, hread⟩ := imageDescriptor_sound blocks hdescriptor
            refine ⟨.image frame, ?_, rfl, hcover⟩
            rw [hdrop, hmarker, hread, hblocks, ← hframe]
            simp only [GifBlock.bytes, List.cons_append, List.append_assoc]
    · cases hheader

theorem frames_cons (block : GifBlock) (blocks : List GifBlock) :
    frames (block :: blocks) = frames [block] ++ frames blocks := by
  unfold frames
  rw [← List.filterMap_append, List.singleton_append]

theorem gifBlocks_sound {data : Bytes} {dimensions found : Nat × Nat} {imageCount offset : Nat}
    (h : gifBlocks data dimensions imageCount offset = .ok (some found)) :
    ∃ (blocks : List GifBlock) (rest : Bytes),
      data.drop offset = blocks.flatMap GifBlock.bytes ++ 0x3B :: rest ∧
      imageCount + (frames blocks).length = 1 ∧
      found = (frames blocks).foldl GifFrame.cover dimensions := by
  fun_induction gifBlocks data dimensions imageCount offset with
  | case2 dimensions imageCount offset hoffset hread =>
      obtain ⟨byte, hbyte, hdrop⟩ := exists_byteAt hoffset
      cases hread.symm.trans hbyte
      by_cases hone : imageCount = 1
      · rw [if_pos hone] at h
        cases h
        exact ⟨[], _, hdrop, hone, rfl⟩
      · rw [if_neg hone] at h
        cases h
  | case7 dimensions imageCount offset hoffset marker hread hmarker dimensions' imageCount' start
      hheader next hblocks ih =>
      obtain ⟨byte, hbyte, hdrop⟩ := exists_byteAt hoffset
      cases hread.symm.trans hbyte
      obtain ⟨block, hblock, hcount, hcover⟩ := block_sound hdrop hheader hblocks
      obtain ⟨blocks, rest, hrest, hone, hfound⟩ := ih h
      refine ⟨block :: blocks, rest, ?_, ?_, ?_⟩
      · rw [hblock, hrest, List.flatMap_cons, List.append_assoc]
      · rw [frames_cons, List.length_append]
        omega
      · rw [frames_cons, List.foldl_append, ← hcover]
        exact hfound
  | _ => cases h

/-- One block that the loop can read. -/
theorem block_complete {data rest : Bytes} {dimensions : Nat × Nat} {imageCount offset : Nat}
    {block : GifBlock} (h : data.drop offset = block.bytes ++ rest)
    (hcount : imageCount + (frames [block]).length ≤ 1)
    (hsafe : ∀ frame ∈ frames [block],
      safeImageDimensions (frame.cover dimensions).1 (frame.cover dimensions).2 = true) :
    ∃ marker start next, byteAt data offset = .ok marker ∧ marker ≠ 0x3B ∧
      blockHeader data dimensions imageCount offset marker =
        .ok (some ((frames [block]).foldl GifFrame.cover dimensions,
          imageCount + (frames [block]).length, start)) ∧
      subBlocks data start = .ok (some next) ∧ data.drop next = rest := by
  cases block with
  | extension label blocks =>
      have hmarker : data.drop offset = 0x21 :: label :: (subBlocksBytes blocks ++ rest) := h
      have hlength := length_eq_of_drop hmarker (List.cons_ne_nil _ _)
      have hstart : data.drop (offset + 2) = subBlocksBytes blocks ++ rest :=
        @drop_of_drop data [0x21, label] _ offset hmarker 2 rfl
      obtain ⟨next, hnext, hrest⟩ := subBlocks_complete hstart
      refine ⟨0x21, offset + 2, next, byteAt_of_drop hmarker, by decide, ?_, hnext, hrest⟩
      rw [List.length_cons, List.length_cons] at hlength
      unfold blockHeader
      rw [if_pos rfl, if_neg (by omega)]
      rfl
  | image frame =>
      have hmarker : data.drop offset =
          0x2C :: (frame.descriptor ++ (subBlocksBytes frame.blocks ++ rest)) := by
        rw [h, GifBlock.bytes, List.cons_append, List.append_assoc]
      have hne : subBlocksBytes frame.blocks ++ rest ≠ [] := by
        unfold subBlocksBytes
        simp
      have hzero : imageCount = 0 := by
        have hone : (frames [GifBlock.image frame]).length = 1 := rfl
        omega
      subst hzero
      obtain ⟨start, hdescriptor, hstart⟩ :=
        imageDescriptor_complete hmarker hne (hsafe frame (List.mem_singleton.mpr rfl))
      obtain ⟨next, hnext, hrest⟩ := subBlocks_complete hstart
      refine ⟨0x2C, start, next, byteAt_of_drop hmarker, by decide, ?_, hnext, hrest⟩
      unfold blockHeader
      rw [if_neg (by decide), if_pos rfl, hdescriptor]
      rfl

/-- The loop goes on behind a block that it can read. -/
theorem gifBlocks_step {data : Bytes} {dimensions dimensions' : Nat × Nat}
    {imageCount imageCount' offset start next : Nat} {marker : UInt8}
    (hread : byteAt data offset = .ok marker) (hmarker : marker ≠ 0x3B)
    (hheader : blockHeader data dimensions imageCount offset marker =
      .ok (some (dimensions', imageCount', start)))
    (hblocks : subBlocks data start = .ok (some next)) (hoffset : offset < data.length) :
    gifBlocks data dimensions imageCount offset = gifBlocks data dimensions' imageCount' next := by
  conv_lhs => unfold gifBlocks
  rw [dif_pos hoffset, hread]
  dsimp only
  rw [if_neg hmarker]
  split
  · next heq => cases heq.symm.trans hheader
  · next heq => cases heq.symm.trans hheader
  · next heq =>
      cases heq.symm.trans hheader
      split
      · next heq => cases heq.symm.trans hblocks
      · next heq => cases heq.symm.trans hblocks
      · next heq =>
          cases heq.symm.trans hblocks
          rfl

theorem gifBlocks_complete {data rest : Bytes} {dimensions : Nat × Nat} {imageCount offset : Nat}
    {blocks : List GifBlock} (h : data.drop offset = blocks.flatMap GifBlock.bytes ++ 0x3B :: rest)
    (hcount : imageCount + (frames blocks).length = 1)
    (hsafe : ∀ frame ∈ frames blocks,
      safeImageDimensions (frame.cover dimensions).1 (frame.cover dimensions).2 = true) :
    gifBlocks data dimensions imageCount offset =
      .ok (some ((frames blocks).foldl GifFrame.cover dimensions)) := by
  induction blocks generalizing dimensions imageCount offset with
  | nil =>
      have htrailer : data.drop offset = 0x3B :: rest := h
      have hlength := length_eq_of_drop htrailer (List.cons_ne_nil _ _)
      rw [List.length_cons] at hlength
      unfold gifBlocks
      rw [dif_pos (by omega), byteAt_of_drop htrailer]
      dsimp only
      rw [if_pos rfl, if_pos (show imageCount = 1 from hcount)]
      rfl
  | cons block blocks ih =>
      rw [frames_cons] at hcount hsafe ⊢
      rw [List.flatMap_cons, List.append_assoc] at h
      rw [List.length_append] at hcount
      have hfits : imageCount + (frames [block]).length ≤ 1 := by omega
      obtain ⟨marker, start, next, hread, hmarker, hheader, hblocks, hnext⟩ :=
        block_complete h hfits fun frame hframe => hsafe frame (List.mem_append_left _ hframe)
      have hoffset : offset < data.length := by
        apply Nat.lt_of_not_le
        intro hle
        have hnil := List.drop_eq_nil_of_le hle
        rw [h] at hnil
        exact absurd hnil (by simp)
      rw [gifBlocks_step hread hmarker hheader hblocks hoffset, List.foldl_append]
      apply ih hnext (by omega)
      intro frame hframe
      -- the only frame is this one, so that the dimensions are still the first ones
      have hone : frames [block] = [] := by
        have hpos := List.length_pos_of_mem hframe
        rw [← List.length_eq_zero_iff]
        omega
      rw [hone]
      exact hsafe frame (List.mem_append_right _ hframe)

structure Gif where
  signature : Bytes
  width : Bytes
  height : Bytes
  packed : UInt8
  background : UInt8
  aspect : UInt8
  table : Bytes
  blocks : List GifBlock
  frame : GifFrame
  known : signature = gif87a ∨ signature = gif89a
  width_width : width.length = 2
  height_width : height.length = 2
  table_length : table.length = colourTableBytes packed
  one_frame : frames blocks = [frame]

namespace Gif

def bytes (image : Gif) : Bytes :=
  image.signature ++ (image.width ++ (image.height ++ (image.packed :: image.background ::
    image.aspect :: (image.table ++ (image.blocks.flatMap GifBlock.bytes ++ [0x3B])))))

/-- What covers the logical screen and the frame. -/
def dimensions (image : Gif) : Nat × Nat :=
  image.frame.cover (fromLittle image.width, fromLittle image.height)

theorem length_signature (image : Gif) : image.signature.length = 6 := by
  rcases image.known with h | h
  · rw [h]
    rfl
  · rw [h]
    rfl

theorem isPrefixOf_signature (image : Gif) (rest : Bytes) :
    (gif87a.isPrefixOf (image.bytes ++ rest) || gif89a.isPrefixOf (image.bytes ++ rest)) =
    true := by
  have hstarts : image.signature <+: image.bytes ++ rest := by
    rw [bytes, List.append_assoc]
    exact List.prefix_append _ _
  rw [Bool.or_eq_true, List.isPrefixOf_iff_prefix, List.isPrefixOf_iff_prefix]
  rcases image.known with h | h
  · exact Or.inl (h ▸ hstarts)
  · exact Or.inr (h ▸ hstarts)

/-- Where the fields of the logical screen stand in the data. -/
theorem read_screen (image : Gif) (rest : Bytes) :
    slice (image.bytes ++ rest) 6 8 = image.width ∧
      slice (image.bytes ++ rest) 8 10 = image.height ∧
      byteAt (image.bytes ++ rest) 10 = .ok image.packed ∧
      (image.bytes ++ rest).drop (13 + colourTableBytes image.packed) =
        image.blocks.flatMap GifBlock.bytes ++ 0x3B :: rest := by
  have hstart : (image.bytes ++ rest).drop 0 = image.signature ++ (image.width ++ (image.height ++
      image.packed :: image.background :: image.aspect :: (image.table ++
        (image.blocks.flatMap GifBlock.bytes ++ 0x3B :: rest)))) := by
    simp only [bytes, List.drop_zero, List.append_assoc, List.cons_append, List.nil_append]
  have hwidth := drop_of_drop hstart image.length_signature
  have hheight := drop_of_drop hwidth image.width_width
  have hpacked := drop_of_drop hheight image.height_width
  have htable : (image.bytes ++ rest).drop 13 = image.table ++
      (image.blocks.flatMap GifBlock.bytes ++ 0x3B :: rest) :=
    @drop_of_drop _ [image.packed, image.background, image.aspect] _ _ hpacked 3 rfl
  exact ⟨slice_of_drop hwidth image.width_width, slice_of_drop hheight image.height_width,
    byteAt_of_drop hpacked, drop_of_drop htable image.table_length⟩

theorem complete (image : Gif) (rest : Bytes)
    (hsafe : safeImageDimensions image.dimensions.1 image.dimensions.2 = true) :
    gifDimensions (image.bytes ++ rest) = .ok (some image.dimensions) := by
  obtain ⟨hwidth, hheight, hpacked, hblocks⟩ := image.read_screen rest
  have hne : image.blocks.flatMap GifBlock.bytes ++ 0x3B :: rest ≠ [] := by simp
  have hlength := length_eq_of_drop hblocks hne
  have hpos := List.length_pos_iff.mpr hne
  unfold gifDimensions
  rw [image.isPrefixOf_signature, hwidth, hheight, hpacked, if_neg]
  · have hrun := @gifBlocks_complete _ _ (fromLittle image.width, fromLittle image.height) 0 _ _
      hblocks (by rw [image.one_frame]; rfl) (by
        rw [image.one_frame]
        intro frame hframe
        rw [List.mem_singleton.mp hframe]
        exact hsafe)
    rw [image.one_frame] at hrun
    exact hrun
  · rw [decide_eq_false (by omega)]
    decide

end Gif

theorem gifDimensions_sound {data : Bytes} {found : Nat × Nat}
    (h : gifDimensions data = .ok (some found)) :
    ∃ (image : Gif) (rest : Bytes), data = image.bytes ++ rest ∧ image.dimensions = found := by
  unfold gifDimensions at h
  split at h
  · cases h
  · next hstart =>
      simp only [Bool.or_eq_true, decide_eq_true_eq, not_or, Bool.not_eq_true', Bool.not_eq_false]
        at hstart
      obtain ⟨hbound, hknown⟩ := hstart
      obtain ⟨packed, hpacked, hpackedDrop⟩ := @exists_byteAt data 10 (by omega)
      obtain ⟨background, -, hbackground⟩ := @exists_byteAt data 11 (by omega)
      obtain ⟨aspect, -, haspect⟩ := @exists_byteAt data 12 (by omega)
      rw [hpacked] at h
      dsimp only at h
      obtain ⟨blocks, rest, hblocks, hone, hfound⟩ := gifBlocks_sound h
      rw [Nat.zero_add] at hone
      obtain ⟨frame, hframe⟩ := List.length_eq_one_iff.mp hone
      obtain ⟨hsignature, hsignatureWidth⟩ := @drop_eq_slice_append data 0 6 (by omega)
      obtain ⟨hwidth, hwidthWidth⟩ := @drop_eq_slice_append data 6 2 (by omega)
      obtain ⟨hheight, hheightWidth⟩ := @drop_eq_slice_append data 8 2 (by omega)
      have htableFits : 13 + colourTableBytes packed ≤ data.length := by
        have hlength := length_eq_of_drop hblocks (by simp)
        omega
      obtain ⟨htable, htableWidth⟩ := drop_eq_slice_append htableFits
      have hknown' : slice data 0 6 = gif87a ∨ slice data 0 6 = gif89a := by
        rcases hknown with h | h
        · obtain ⟨suffix, rfl⟩ := List.isPrefixOf_iff_prefix.mp h
          exact Or.inl rfl
        · obtain ⟨suffix, rfl⟩ := List.isPrefixOf_iff_prefix.mp h
          exact Or.inr rfl
      refine ⟨⟨_, _, _, packed, background, aspect, _, blocks, frame, hknown', hwidthWidth,
        hheightWidth, htableWidth, hframe⟩, rest, ?_, ?_⟩
      · simp only [Gif.bytes, List.append_assoc, List.cons_append, List.nil_append]
        rw [← hblocks, ← htable, ← haspect, ← hbackground, ← hpackedDrop]
        exact hsignature.trans (congrArg _ (hwidth.trans (congrArg _ hheight)))
      · rw [hfound, hframe]
        rfl

theorem gifDimensions_ok (data : Bytes) : ∃ result, gifDimensions data = .ok result := by
  unfold gifDimensions
  split
  · exact ⟨_, rfl⟩
  · next hstart =>
      rw [Bool.or_eq_true, decide_eq_true_eq, not_or] at hstart
      rw [byteAt_of_lt (show 10 < data.length by omega)]
      exact gifBlocks_ok _ _ _ _

end MaddyWeb.Mail.Image
