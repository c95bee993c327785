import MaddyWeb.Library.Base64
import MaddyWeb.Library.Blocks
import MaddyWeb.Library.Exec
import MaddyWeb.Mail.Mime
import MaddyWeb.Mail.Reply

/-!
# Attachments as base64 lines

`_write_base64_source` encodes an attachment while it is read.  What it writes depends on the
bytes alone, as long as there are not too many of them.
-/

namespace MaddyWeb.Mail

open MaddyWeb.Library
open MaddyWeb.Mail.Mime (maxAttachmentBytes)

/-- What `_write_base64_source` sees of an attachment: the size that it declares, and what one
`source.read(64 * 1024)` after the other returns. -/
structure AttachmentSource where
  size : Nat
  reads : List Bytes

/-- `destination.write` -/
def write (data : Bytes) : Exec Bytes MailError Unit := Exec.update (· ++ data)

/-- Write the lines of the complete groups of 57 bytes. -/
def writeComplete (buffered : Bytes) : Exec Bytes MailError Unit :=
  if buffered.length - buffered.length % 57 = 0 then return ()
  else write (List.intercalate crlf ((fullBlocks 57 buffered).map Base64.encode) ++ crlf)

/-- The loop over the source, from a total and a carry on. -/
def copyReads : List Bytes → Nat → Bytes → Exec Bytes MailError (Nat × Bytes)
  | [], total, carry => return (total, carry)
  | chunk :: reads, total, carry =>
    if chunk.isEmpty then return (total, carry)
    else do
      Exec.ensure (total + chunk.length ≤ maxAttachmentBytes)
        (.limit "attachment grew beyond its limit")
      let buffered := carry ++ chunk
      writeComplete buffered
      copyReads reads (total + chunk.length)
        (buffered.drop (buffered.length - buffered.length % 57))

/-- Write the line of the bytes that are left. -/
def writeCarry (carry : Bytes) : Exec Bytes MailError Unit :=
  if carry.isEmpty then return () else write (Base64.encode carry ++ crlf)

/-- `_write_base64_source` -/
def writeBase64Source (attachment : AttachmentSource) : Exec Bytes MailError Unit := do
  let (total, carry) ← copyReads attachment.reads 0 []
  writeCarry carry
  Exec.ensure (total = attachment.size) (.mail "attachment size changed while building message")

/-! ## The lines of an attachment -/

/-- The base64 lines of whole blocks. -/
def wrapped (blocks : List Bytes) : Bytes := blocks.flatMap fun block => Base64.encode block ++ crlf

theorem wrapped_append (blocks blocks' : List Bytes) :
    wrapped (blocks ++ blocks') = wrapped blocks ++ wrapped blocks' :=
  List.flatMap_append

theorem intercalate_crlf {blocks : List Bytes} (h : blocks ≠ []) :
    List.intercalate crlf (blocks.map Base64.encode) ++ crlf = wrapped blocks := by
  induction blocks with
  | nil => exact absurd rfl h
  | cons block blocks ih =>
      cases blocks with
      | nil => simp [wrapped]
      | cons next blocks =>
          have hrest := ih (List.cons_ne_nil next blocks)
          rw [List.map_cons, List.map_cons, List.intercalate_cons_cons, List.append_assoc,
            List.append_assoc, ← List.map_cons, hrest, ← List.append_assoc]
          rfl

theorem fullBlocks_eq_nil_iff (l : Bytes) :
    fullBlocks 57 l = [] ↔ l.length - l.length % 57 = 0 := by
  unfold fullBlocks
  rw [List.map_eq_nil_iff, List.range_eq_nil]
  omega

/-- The lines that stand for a text: its full blocks, and what is left. -/
def base64Lines (d : Bytes) : List Bytes :=
  (fullBlocks 57 d).map Base64.encode ++
    if remainder 57 d = [] then [] else [Base64.encode (remainder 57 d)]

theorem writeComplete_eq (buffered destination : Bytes) :
    writeComplete buffered destination =
      (.ok (), destination ++ wrapped (fullBlocks 57 buffered)) := by
  unfold writeComplete
  split
  · next hcomplete =>
      rw [(fullBlocks_eq_nil_iff buffered).mpr hcomplete]
      simp [wrapped]
      rfl
  · next hcomplete =>
      rw [intercalate_crlf (mt (fullBlocks_eq_nil_iff buffered).mp hcomplete)]
      rfl

theorem writeCarry_eq (carry destination : Bytes) :
    writeCarry carry destination =
      (.ok (), destination ++ if carry = [] then [] else Base64.encode carry ++ crlf) := by
  unfold writeCarry
  cases carry with
  | nil => simp; rfl
  | cons b carry => rfl

/-- One read that stays within the limit. -/
theorem copyReads_step {seen chunk : Bytes} (hchunk : chunk ≠ []) (reads : List Bytes)
    (start : Bytes) (hfits : (seen ++ chunk).length ≤ maxAttachmentBytes) :
    copyReads (chunk :: reads) seen.length (remainder 57 seen)
      (start ++ wrapped (fullBlocks 57 seen)) =
      copyReads reads (seen ++ chunk).length (remainder 57 (seen ++ chunk))
        (start ++ wrapped (fullBlocks 57 (seen ++ chunk))) := by
  have hn : 0 < 57 := by decide
  have hlength : (seen ++ chunk).length = seen.length + chunk.length := List.length_append
  have hblocks := fullBlocks_step hn seen chunk
  have hcarry := remainder_step hn seen chunk
  conv_lhs => unfold copyReads
  rw [if_neg (mt List.isEmpty_iff.mp hchunk), ← hlength]
  apply Exec.ensure_bind_of (decide_eq_true hfits)
  rw [Exec.bind_of_ok (writeComplete_eq _ _), List.append_assoc, ← wrapped_append, ← hblocks,
    hcarry]
  rfl

/-- Reads that stay within the limit, from any point on. -/
theorem copyReads_run {front : List Bytes} (hfront : ∀ chunk ∈ front, chunk ≠ [])
    (reads : List Bytes)
    {seen : Bytes} (start : Bytes) (hfits : (seen ++ front.flatten).length ≤ maxAttachmentBytes) :
    copyReads (front ++ reads) seen.length (remainder 57 seen)
      (start ++ wrapped (fullBlocks 57 seen)) =
      copyReads reads (seen ++ front.flatten).length (remainder 57 (seen ++ front.flatten))
        (start ++ wrapped (fullBlocks 57 (seen ++ front.flatten))) := by
  induction front generalizing seen with
  | nil => simp
  | cons chunk front ih =>
      rw [List.flatten_cons, ← List.append_assoc] at hfits ⊢
      have hchunk : (seen ++ chunk).length ≤ maxAttachmentBytes := by
        rw [List.length_append] at hfits
        omega
      rw [List.cons_append, copyReads_step (hfront chunk List.mem_cons_self) _ _ hchunk,
        ih (fun other hother => hfront other (List.mem_cons_of_mem _ hother)) hfits]

theorem copyReads_of_start {front : List Bytes} (hfront : ∀ chunk ∈ front, chunk ≠ [])
    (reads : List Bytes) (start : Bytes) (hfits : front.flatten.length ≤ maxAttachmentBytes) :
    copyReads (front ++ reads) 0 [] start =
      copyReads reads front.flatten.length (remainder 57 front.flatten)
        (start ++ wrapped (fullBlocks 57 front.flatten)) := by
  have hrun := @copyReads_run front hfront reads [] start hfits
  simpa [wrapped] using hrun

/-- The read that passes the limit. -/
theorem copyReads_over {chunk : Bytes} {total : Nat} (hchunk : chunk ≠ [])
    (hover : maxAttachmentBytes < total + chunk.length) (reads : List Bytes) (carry start : Bytes) :
    copyReads (chunk :: reads) total carry start =
      (.error (.limit "attachment grew beyond its limit"), start) := by
  have hfalse : decide (total + chunk.length ≤ maxAttachmentBytes) = false :=
    decide_eq_false (by omega)
  unfold copyReads
  rw [if_neg (mt List.isEmpty_iff.mp hchunk), hfalse]
  rfl

/-- A source that is too long has a read that passes the limit. -/
theorem exists_over {reads : List Bytes} {total : Nat} (htotal : total ≤ maxAttachmentBytes)
    (hover : maxAttachmentBytes < total + reads.flatten.length) :
    ∃ front chunk rest, reads = front ++ chunk :: rest ∧
      total + front.flatten.length ≤ maxAttachmentBytes ∧
      maxAttachmentBytes < total + front.flatten.length + chunk.length := by
  induction reads generalizing total with
  | nil =>
      simp at hover
      omega
  | cons chunk reads ih =>
      by_cases hchunk : total + chunk.length ≤ maxAttachmentBytes
      · rw [List.flatten_cons, List.length_append, ← Nat.add_assoc] at hover
        obtain ⟨front, last, rest, rfl, hfits, hlast⟩ := ih hchunk hover
        refine ⟨chunk :: front, last, rest, rfl, ?_, ?_⟩
        · rw [List.flatten_cons, List.length_append, ← Nat.add_assoc]
          exact hfits
        · rw [List.flatten_cons, List.length_append, ← Nat.add_assoc]
          exact hlast
      · exact ⟨[], chunk, reads, rfl, by simpa using htotal, by simpa using hchunk⟩

theorem writeBase64Source_fits {attachment : AttachmentSource}
    (hreads : ∀ chunk ∈ attachment.reads, chunk ≠ [])
    (hfits : attachment.reads.flatten.length ≤ maxAttachmentBytes) (destination : Bytes) :
    writeBase64Source attachment destination =
      (if attachment.reads.flatten.length = attachment.size then .ok ()
        else .error (.mail "attachment size changed while building message"),
        destination ++ (base64Lines attachment.reads.flatten).flatMap (· ++ crlf)) := by
  have hcopy := copyReads_of_start hreads [] destination hfits
  rw [List.append_nil] at hcopy
  have hlines : (base64Lines attachment.reads.flatten).flatMap (· ++ crlf) =
      wrapped (fullBlocks 57 attachment.reads.flatten) ++
        if remainder 57 attachment.reads.flatten = [] then []
        else Base64.encode (remainder 57 attachment.reads.flatten) ++ crlf := by
    unfold base64Lines wrapped
    rw [List.flatMap_append, List.flatMap_map]
    split <;> simp
  unfold writeBase64Source
  rw [Exec.bind_of_ok hcopy, hlines]
  dsimp only
  rw [Exec.bind_of_ok (writeCarry_eq _ _), List.append_assoc]
  unfold Exec.ensure
  by_cases hsize : attachment.reads.flatten.length = attachment.size
  · rw [if_pos hsize, if_pos (decide_eq_true hsize)]
    rfl
  · rw [if_neg hsize, if_neg (by rw [decide_eq_true_iff]; exact hsize)]
    rfl

/-- A source that is too long leaves the lines of what was read within the limit. -/
theorem writeBase64Source_over {front : List Bytes} {chunk : Bytes} {rest : List Bytes} (size : Nat)
    (hreads : ∀ other ∈ front ++ chunk :: rest, other ≠ [])
    (hfits : front.flatten.length ≤ maxAttachmentBytes)
    (hover : maxAttachmentBytes < front.flatten.length + chunk.length) (destination : Bytes) :
    writeBase64Source ⟨size, front ++ chunk :: rest⟩ destination =
      (.error (.limit "attachment grew beyond its limit"),
        destination ++ wrapped (fullBlocks 57 front.flatten)) := by
  have hfront : ∀ other ∈ front, other ≠ [] := fun other hother =>
    hreads other (List.mem_append_left _ hother)
  have hchunk : chunk ≠ [] := hreads chunk (List.mem_append_right _ List.mem_cons_self)
  have hcopy := copyReads_of_start hfront (chunk :: rest) destination hfits
  rw [copyReads_over hchunk hover] at hcopy
  exact Exec.bind_of_error hcopy

/-! ## The lines are well formed -/

/-- Lines of 76 characters, the last of which may be shorter and alone is padded. -/
structure IsWrapped (lines : List Bytes) : Prop where
  full : ∀ line ∈ lines.dropLast, line.length = 76
  last : ∀ line ∈ lines.getLast?, 0 < line.length ∧ line.length ≤ 76
  padding : ∀ line ∈ lines.dropLast, 0x3D ∉ line

theorem length_encode_block {block : Bytes} (h : block.length = 57) :
    (Base64.encode block).length = 76 := by
  rw [Base64.length_encode, h]

theorem isWrapped_base64Lines (d : Bytes) : IsWrapped (base64Lines d) := by
  have hblock : ∀ line ∈ (fullBlocks 57 d).map Base64.encode, line.length = 76 ∧ 0x3D ∉ line := by
    intro line hline
    obtain ⟨block, hmem, rfl⟩ := List.mem_map.mp hline
    have hlength := length_of_mem_fullBlocks hmem
    exact ⟨length_encode_block hlength, Base64.padding_not_mem_encode (by rw [hlength])⟩
  unfold base64Lines
  by_cases hcarry : remainder 57 d = []
  · rw [if_pos hcarry, List.append_nil]
    refine ⟨?_, ?_, ?_⟩
    · exact fun line hline => (hblock line (List.dropLast_subset _ hline)).1
    · intro line hline
      have hlength := (hblock line (List.mem_of_getLast? hline)).1
      omega
    · exact fun line hline => (hblock line (List.dropLast_subset _ hline)).2
  · rw [if_neg hcarry]
    refine ⟨?_, ?_, ?_⟩
    · rw [List.dropLast_concat]
      exact fun line hline => (hblock line hline).1
    · intro line hline
      rw [List.getLast?_concat] at hline
      cases hline
      have hpos := List.length_pos_iff.mpr hcarry
      have hshort := Nat.mod_lt d.length (show 0 < 57 by decide)
      rw [← length_remainder] at hshort
      rw [Base64.length_encode]
      omega
    · rw [List.dropLast_concat]
      exact fun line hline => (hblock line hline).2

theorem flatten_map_encode {blocks : List Bytes} (h : ∀ block ∈ blocks, block.length = 57) :
    (blocks.map Base64.encode).flatten = Base64.encode blocks.flatten := by
  induction blocks with
  | nil => rfl
  | cons block blocks ih =>
      have hlength := h block List.mem_cons_self
      rw [List.map_cons, List.flatten_cons, List.flatten_cons,
        Base64.encode_append (by rw [hlength]),
        ih fun other hother => h other (List.mem_cons_of_mem _ hother)]

/-- Line by line or at once, the bytes have the same encoding. -/
theorem flatten_base64Lines (d : Bytes) : (base64Lines d).flatten = Base64.encode d := by
  have hn : 0 < 57 := by decide
  have hblocks := flatten_map_encode fun block => length_of_mem_fullBlocks (n := 57) (l := d)
  have hwhole : (fullBlocks 57 d).flatten.length % 3 = 0 := by
    rw [length_flatten_fullBlocks hn]
    omega
  have hlast : (if remainder 57 d = [] then [] else [Base64.encode (remainder 57 d)]).flatten =
      Base64.encode (remainder 57 d) := by
    split
    · next hnil => rw [hnil]; rfl
    · simp
  calc (base64Lines d).flatten
      = Base64.encode (fullBlocks 57 d).flatten ++ Base64.encode (remainder 57 d) := by
        rw [base64Lines, List.flatten_append, hblocks, hlast]
    _ = Base64.encode ((fullBlocks 57 d).flatten ++ remainder 57 d) :=
        (Base64.encode_append hwhole _).symm
    _ = Base64.encode d := by rw [flatten_fullBlocks hn]

theorem flatMap_base64Lines (d : Bytes) :
    (base64Lines d).flatMap (· ++ crlf) = wrapped (fullBlocks 57 d) ++
      if remainder 57 d = [] then [] else Base64.encode (remainder 57 d) ++ crlf := by
  unfold base64Lines wrapped
  rw [List.flatMap_append, List.flatMap_map]
  split <;> simp

/-- A source of the same bytes is written as the same lines in whatever pieces it comes. -/
theorem base64_source_exact (d : Bytes) :
    ∃ lines : List Bytes, IsWrapped lines ∧ Base64.decode lines.flatten = some d ∧
      ∀ (attachment : AttachmentSource) (destination : Bytes), attachment.reads.flatten = d →
        (∀ chunk ∈ attachment.reads, chunk ≠ []) →
        ((writeBase64Source attachment destination).1 = .ok () ↔
          d.length = attachment.size ∧ d.length ≤ maxAttachmentBytes) ∧
        (d.length ≤ maxAttachmentBytes →
          (writeBase64Source attachment destination).2 =
            destination ++ lines.flatMap (· ++ crlf)) ∧
        (maxAttachmentBytes < d.length →
          (writeBase64Source attachment destination).1 =
              .error (.limit "attachment grew beyond its limit") ∧
            ∃ front, front <+: lines.flatMap (· ++ crlf) ∧
              (writeBase64Source attachment destination).2 = destination ++ front) := by
  refine ⟨base64Lines d, isWrapped_base64Lines d, ?_, ?_⟩
  · rw [flatten_base64Lines, Base64.decode_encode]
  rintro attachment destination rfl hreads
  by_cases hfits : attachment.reads.flatten.length ≤ maxAttachmentBytes
  · rw [writeBase64Source_fits hreads hfits]
    refine ⟨?_, fun _ => rfl, fun hover => absurd hfits (by omega)⟩
    by_cases hsize : attachment.reads.flatten.length = attachment.size
    · rw [if_pos hsize]
      exact iff_of_true rfl ⟨hsize, hfits⟩
    · rw [if_neg hsize]
      exact iff_of_false nofun fun h => hsize h.1
  · obtain ⟨size, reads⟩ := attachment
    obtain ⟨front, chunk, rest, rfl, hfront, hover⟩ :=
      exists_over (Nat.zero_le maxAttachmentBytes)
        (by rw [Nat.zero_add]; exact Nat.lt_of_not_le hfits)
    rw [Nat.zero_add] at hfront hover
    rw [writeBase64Source_over size hreads hfront hover]
    refine ⟨iff_of_false nofun fun h => hfits h.2, fun h => absurd h hfits,
      fun _ => ⟨rfl, _, ?_, rfl⟩⟩
    rw [flatMap_base64Lines, List.flatten_append, fullBlocks_step (by decide), wrapped_append,
      List.append_assoc]
    exact List.prefix_append _ _

/-! ## A source that is too long -/

theorem length_wrapped_fullBlocks (l : Bytes) :
    (wrapped (fullBlocks 57 l)).length = 78 * (l.length / 57) := by
  have hlength : ∀ block ∈ fullBlocks 57 l, (Base64.encode block ++ crlf).length = 78 := by
    intro block hblock
    rw [List.length_append, length_encode_block (length_of_mem_fullBlocks hblock)]
    rfl
  rw [wrapped, List.length_flatMap, List.map_congr_left hlength, List.map_const',
    List.sum_replicate_nat, fullBlocks, List.length_map, List.length_range, Nat.mul_comm]

/-- One full `read(64 * 1024)`. -/
def fullRead : Bytes := List.replicate (64 * 1024) 0

theorem flatten_replicate_fullRead (n : Nat) :
    (List.replicate n fullRead).flatten = List.replicate (n * (64 * 1024)) 0 :=
  List.flatten_replicate_replicate

theorem fullRead_ne_nil : fullRead ≠ [] := by
  rw [← List.length_pos_iff, fullRead, List.length_replicate]
  decide

theorem ne_nil_of_mem_replicate {n : Nat} {chunk : Bytes} (h : chunk ∈ List.replicate n fullRead) :
    chunk ≠ [] := by
  rw [List.eq_of_mem_replicate h]
  exact fullRead_ne_nil

theorem length_replicate_fullRead (n : Nat) :
    (List.replicate n fullRead).flatten.length = n * (64 * 1024) := by
  rw [flatten_replicate_fullRead, List.length_replicate]

theorem length_written_late {n : Nat} (size : Nat) (hfits : n * (64 * 1024) ≤ maxAttachmentBytes)
    (hover : maxAttachmentBytes < n * (64 * 1024) + 1) :
    (writeBase64Source ⟨size, List.replicate n fullRead ++ [[0]]⟩ []).2.length =
      78 * (n * (64 * 1024) / 57) := by
  have hreads : ∀ chunk ∈ List.replicate n fullRead ++ [[0]], chunk ≠ [] := by
    intro chunk hchunk
    rcases List.mem_append.mp hchunk with hchunk | hchunk
    · exact ne_nil_of_mem_replicate hchunk
    · rw [List.mem_singleton.mp hchunk]
      exact List.cons_ne_nil 0 []
  rw [writeBase64Source_over size hreads (by rwa [length_replicate_fullRead])
    (by rwa [length_replicate_fullRead]), List.nil_append, length_wrapped_fullBlocks,
    length_replicate_fullRead]

theorem length_written_early {n : Nat} (size : Nat)
    (hfits : 1 + n * (64 * 1024) ≤ maxAttachmentBytes)
    (hover : maxAttachmentBytes < 1 + n * (64 * 1024) + 64 * 1024) :
    (writeBase64Source ⟨size, [0] :: List.replicate (n + 1) fullRead⟩ []).2.length =
      78 * ((1 + n * (64 * 1024)) / 57) := by
  have hsplit : [0] :: List.replicate (n + 1) fullRead =
      ([0] :: List.replicate n fullRead) ++ fullRead :: [] := by
    rw [List.replicate_succ', List.cons_append]
  have hlength : ([0] :: List.replicate n fullRead).flatten.length = 1 + n * (64 * 1024) := by
    rw [List.flatten_cons, List.length_append, length_replicate_fullRead, List.length_singleton]
  have hread : fullRead.length = 64 * 1024 := List.length_replicate
  have hreads : ∀ chunk ∈ ([0] :: List.replicate n fullRead) ++ fullRead :: [], chunk ≠ [] := by
    rw [← hsplit]
    intro chunk hchunk
    rcases List.mem_cons.mp hchunk with rfl | hchunk
    · exact List.cons_ne_nil 0 []
    · exact ne_nil_of_mem_replicate hchunk
  rw [hsplit, writeBase64Source_over size hreads (by rwa [hlength]) (by rwa [hlength, hread]),
    List.nil_append, length_wrapped_fullBlocks, hlength]

/-- The same bytes, one more than the limit, with the short read at the end or at the start. -/
theorem oversized_writes_differ :
    (List.replicate 320 fullRead ++ [[0]]).flatten = ([0] :: List.replicate 320 fullRead).flatten ∧
      (writeBase64Source ⟨maxAttachmentBytes, List.replicate 320 fullRead ++ [[0]]⟩ []).2 ≠
        (writeBase64Source ⟨maxAttachmentBytes, [0] :: List.replicate 320 fullRead⟩ []).2 := by
  constructor
  · have hone : ([[0]] : List Bytes).flatten = List.replicate 1 0 := rfl
    have hcons : ([0] :: List.replicate 320 fullRead).flatten =
        List.replicate 1 0 ++ (List.replicate 320 fullRead).flatten := rfl
    rw [List.flatten_append, hone, hcons, flatten_replicate_fullRead,
      List.replicate_append_replicate, List.replicate_append_replicate, Nat.add_comm]
  · intro hsame
    have hlengths := congrArg List.length hsame
    rw [length_written_late _ (by decide) (by decide),
      length_written_early (n := 319) _ (by decide) (by decide)] at hlengths
    exact absurd hlengths (by decide)

end MaddyWeb.Mail
