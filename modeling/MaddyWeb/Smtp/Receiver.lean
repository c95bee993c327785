import MaddyWeb.Smtp.Client

/-!
# What the receiver of a message reads

The receiver reads lines up to a line with a single dot and takes one leading dot from every
other line.  It gets back the message with CRLF line ends, and it stops at the terminator of
the client and at no earlier line, however the message was cut into chunks and buffers.
-/

namespace MaddyWeb.Smtp.Data

open MaddyWeb.Library MaddyWeb.Library.Text MaddyWeb.Helper.Errors MaddyWeb.Smtp.Channel
open MaddyWeb.Smtp.Client (acceptingScript)

/-! ## The receiver -/

/-- The bytes before the first CRLF, and the bytes after it. -/
def nextLine : Bytes → Option (Bytes × Bytes)
  | [] => none
  | b :: rest =>
      if b = 0x0D ∧ rest.head? = some 0x0A then some ([], rest.tail)
      else (nextLine rest).map fun (line, after) => (b :: line, after)

/-- A line without the dot that the sender has put before it. -/
def unstuffed (line : Bytes) : Bytes :=
  if line.head? = some 0x2E then line.tail else line

/-- The text of the first lines up to a line with a single dot, and the bytes after that line. -/
def receiveLines : Nat → Bytes → Option (Bytes × Bytes)
  | 0, _ => none
  | fuel + 1, data =>
      match nextLine data with
      | none => none
      | some (line, rest) =>
          if line = [0x2E] then some ([], rest)
          else (receiveLines fuel rest).map
            fun (text, after) => (unstuffed line ++ crlf ++ text, after)

/-- The receiver of a DATA command; every line has a byte of its own. -/
def smtpReceive (data : Bytes) : Option (Bytes × Bytes) := receiveLines (data.length + 1) data

/-! ## Line ends -/

/-- Every CRLF, lone CR and lone LF as one CRLF; the flag says that the byte before was a CR. -/
def toCrlf : Bool → Bytes → Bytes
  | _, [] => []
  | afterCr, b :: rest =>
      if afterCr ∧ b = 0x0A then toCrlf false rest
      else if b = 0x0D ∨ b = 0x0A then crlf ++ toCrlf (b = 0x0D) rest
      else b :: toCrlf false rest

/-- A final CRLF, if it is missing. -/
def withFinalCrlf (text : Bytes) : Bytes := if crlf <:+ text then text else text ++ crlf

/-- The same, but an empty text stays empty. -/
def terminated (text : Bytes) : Bytes := if text = [] then [] else withFinalCrlf text

theorem crlf_suffix_iff (before after : Bytes) (hafter : after ≠ []) :
    crlf <:+ before ++ crlf ++ after ↔ crlf <:+ after := by
  rw [← List.reverse_prefix, ← List.reverse_prefix, List.reverse_append, List.reverse_append]
  have hne : after.reverse ≠ [] := by simpa using hafter
  rcases hreverse : after.reverse with - | ⟨x, - | ⟨y, rest⟩⟩
  · exact absurd hreverse hne
  · simp [crlf, List.cons_prefix_cons]
  · simp [crlf, List.cons_prefix_cons]

theorem terminated_append_crlf (before after : Bytes) :
    terminated (before ++ crlf ++ after) = before ++ crlf ++ terminated after := by
  have hne : before ++ crlf ++ after ≠ [] := by simp [crlf]
  by_cases hafter : after = []
  · subst hafter
    unfold terminated withFinalCrlf
    rw [if_neg hne, if_pos rfl, List.append_nil, if_pos (List.suffix_append _ _)]
  · unfold terminated withFinalCrlf
    rw [if_neg hne, if_neg hafter]
    by_cases hsuffix : crlf <:+ after
    · rw [if_pos hsuffix, if_pos ((crlf_suffix_iff before after hafter).mpr hsuffix)]
    · rw [if_neg hsuffix, if_neg (mt (crlf_suffix_iff before after hafter).mp hsuffix)]
      simp only [List.append_assoc]

/-- A line of its own. -/
theorem terminated_line {line : Bytes} (hline : ∀ b ∈ line, isByteBreak b = false) :
    terminated line = if line = [] then [] else line ++ crlf := by
  unfold terminated withFinalCrlf
  by_cases hempty : line = []
  · rw [if_pos hempty, if_pos hempty]
  · have hsuffix : ¬ crlf <:+ line := by
      intro h
      have hcr := hline 0x0D (h.subset (by simp [crlf]))
      exact absurd hcr (by decide)
    rw [if_neg hempty, if_neg hempty, if_neg hsuffix]

/-- The lines of a message with their ends; `line` is the unfinished line. -/
theorem flatMap_splitlinesFrom (message : Bytes) (afterCr : Bool) (line : Bytes)
    (hline : ∀ b ∈ line, isByteBreak b = false) (hcr : afterCr = true → line = []) :
    (splitlinesFrom isByteBreak 0x0D 0x0A afterCr line message).flatMap (· ++ crlf) =
      terminated (line ++ toCrlf afterCr message) := by
  induction message generalizing afterCr line with
  | nil =>
      rw [toCrlf, List.append_nil, terminated_line hline, splitlinesFrom]
      cases line with
      | nil => rfl
      | cons first rest => simp
  | cons b rest ih =>
      have hnil : ∀ b ∈ ([] : Bytes), isByteBreak b = false := by simp
      by_cases hpair : afterCr = true ∧ b = 0x0A
      · obtain ⟨rfl, rfl⟩ := hpair
        rw [hcr rfl]
        have hnext := ih false [] hnil (by simp)
        simpa [splitlinesFrom, toCrlf] using hnext
      have hlf : (afterCr && b == 0x0A) = false := by
        simpa using hpair
      by_cases hbreak : b = 0x0D ∨ b = 0x0A
      · have hisBreak : isByteBreak b = true := by
          rcases hbreak with rfl | rfl
          · decide
          · decide
        rw [splitlinesFrom_break hisBreak hlf, toCrlf, if_neg hpair, if_pos hbreak,
          List.flatMap_cons,
          ih _ [] hnil (fun _ => rfl), ← List.append_assoc, terminated_append_crlf]
        rfl
      · have hplain : isByteBreak b = false := by
          simpa [isByteBreak, and_comm] using hbreak
        have hsnoc : ∀ c ∈ line ++ [b], isByteBreak c = false := by
          intro c hc
          rcases List.mem_append.mp hc with hc | hc
          · exact hline c hc
          · rw [List.mem_singleton.mp hc]
            exact hplain
        rw [splitlinesFrom_plain hplain hlf, toCrlf, if_neg hpair, if_neg hbreak,
          ih false (line ++ [b]) hsnoc (by simp), List.append_assoc]
        rfl

theorem flatMap_bytesSplitlines (message : Bytes) :
    (bytesSplitlines message).flatMap (· ++ crlf) = terminated (toCrlf false message) :=
  flatMap_splitlinesFrom message false [] (by simp) (by simp)

/-- No line has a line break. -/
theorem mem_splitlinesFrom (message : Bytes) (afterCr : Bool) (start : Bytes)
    (hstart : ∀ b ∈ start, isByteBreak b = false) :
    ∀ line ∈ splitlinesFrom isByteBreak 0x0D 0x0A afterCr start message,
      ∀ b ∈ line, isByteBreak b = false := by
  induction message generalizing afterCr start with
  | nil =>
      intro line hline
      rw [splitlinesFrom] at hline
      split at hline
      · cases hline
      · rw [List.mem_singleton.mp hline]
        exact hstart
  | cons c rest ih =>
      intro line hline
      rw [splitlinesFrom] at hline
      split at hline
      · exact ih _ _ hstart line hline
      split at hline
      · rcases List.mem_cons.mp hline with rfl | hline
        · exact hstart
        · exact ih _ [] (by simp) line hline
      · next hplain =>
          apply ih _ (start ++ [c]) _ line hline
          intro b hb
          rcases List.mem_append.mp hb with hb | hb
          · exact hstart b hb
          · rw [List.mem_singleton.mp hb]
            simpa using hplain

/-! ## Decoding -/

theorem nextLine_append {line : Bytes} (hline : 0x0D ∉ line) (rest : Bytes) :
    nextLine (line ++ crlf ++ rest) = some (line, rest) := by
  induction line with
  | nil => simp [nextLine, crlf]
  | cons b line ih =>
      have hb : b ≠ 0x0D := fun h => hline (by simp [h])
      have htail : 0x0D ∉ line := fun h => hline (List.mem_cons_of_mem _ h)
      rw [List.cons_append, List.cons_append, nextLine, if_neg (fun h => hb h.1), ih htail]
      rfl

theorem dotStuffed_ne_dot (line : Bytes) : dotStuffed line ≠ [0x2E] := by
  unfold dotStuffed
  split
  · next hdot =>
      cases line with
      | nil => cases hdot
      | cons b rest => simp
  · next hdot =>
      rintro rfl
      exact hdot rfl

theorem unstuffed_dotStuffed (line : Bytes) : unstuffed (dotStuffed line) = line := by
  unfold dotStuffed
  split
  · rfl
  · next hdot =>
      unfold unstuffed
      rw [if_neg hdot]

/-- The receiver takes the lines back and stops at the terminator. -/
theorem receiveLines_flatMap (lines : List Bytes)
    (hlines : ∀ line ∈ lines, ∀ b ∈ line, isByteBreak b = false) (after : Bytes) (fuel : Nat)
    (hfuel : lines.length < fuel) :
    receiveLines fuel (lines.flatMap wireLine ++ ([0x2E] ++ crlf) ++ after) =
      some (lines.flatMap (· ++ crlf), after) := by
  induction lines generalizing fuel with
  | nil =>
      obtain ⟨fuel, rfl⟩ : ∃ n, fuel = n + 1 := ⟨fuel - 1, by simp at hfuel; omega⟩
      have hnext : nextLine ([0x2E] ++ crlf ++ after) = some ([0x2E], after) :=
        nextLine_append (by decide) after
      rw [List.flatMap_nil, List.nil_append, receiveLines, hnext]
      rfl
  | cons line lines ih =>
      obtain ⟨fuel, rfl⟩ : ∃ n, fuel = n + 1 := ⟨fuel - 1, by simp at hfuel; omega⟩
      have hbreaks := hlines line List.mem_cons_self
      have hcr : 0x0D ∉ dotStuffed line := by
        intro h
        unfold dotStuffed at h
        have hmem : (0x0D : UInt8) ∈ line := by
          split at h
          · simpa using h
          · exact h
        exact absurd (hbreaks 0x0D hmem) (by decide)
      have hdata : (line :: lines).flatMap wireLine ++ ([0x2E] ++ crlf) ++ after =
          dotStuffed line ++ crlf ++ (lines.flatMap wireLine ++ ([0x2E] ++ crlf) ++ after) := by
        rw [List.flatMap_cons, wireLine]
        simp only [List.append_assoc]
      have hrest := ih (fun other hother => hlines other (List.mem_cons_of_mem _ hother)) fuel
        (by simp at hfuel; omega)
      rw [hdata, receiveLines, nextLine_append hcr]
      dsimp only
      rw [if_neg (dotStuffed_ne_dot line), hrest, unstuffed_dotStuffed]
      rfl

theorem length_le_flatMap_wireLine (lines : List Bytes) :
    lines.length ≤ (lines.flatMap wireLine).length := by
  induction lines with
  | nil => exact Nat.le_refl 0
  | cons line lines ih =>
      rw [List.flatMap_cons, List.length_append, List.length_cons, wireLine, List.length_append]
      have hcrlf : crlf.length = 2 := rfl
      omega

/-- What the receiver makes of an encoded message, with anything after its terminator. -/
theorem smtpReceive_smtpData (message after : Bytes) :
    smtpReceive (smtpData message ++ ([0x2E] ++ crlf) ++ after) =
      some (terminated (toCrlf false message), after) := by
  have hlines : ∀ line ∈ bytesSplitlines message, ∀ b ∈ line, isByteBreak b = false :=
    mem_splitlinesFrom message false [] (by simp)
  have hlength := length_le_flatMap_wireLine (bytesSplitlines message)
  unfold smtpReceive smtpData
  rw [receiveLines_flatMap _ hlines, flatMap_bytesSplitlines]
  simp only [List.length_append]
  omega

/-! ## Runs of the writer -/

section Runs

variable {script : Script}

/-- Some write of the body fails. -/
def Script.Fails (script : Script) : Prop := ∃ index error, script.body index = .fails error

/-- What successive reads can still find. -/
def Binary (source : Source) : Prop := ∀ chunk ∈ source, chunk ≠ []

theorem Binary.read {source : Source} (h : Binary source) (n : Nat) : Binary (read n source).2 := by
  cases source with
  | nil => exact h
  | cons chunk rest =>
      have hrest : Binary rest := fun other hother => h other (List.mem_cons_of_mem _ hother)
      unfold Data.read
      dsimp only
      split
      · exact hrest
      · next hlong =>
          intro other hother
          rcases List.mem_cons.mp hother with rfl | hother
          · exact List.ne_nil_of_length_pos (by rw [List.length_drop]; omega)
          · exact hrest other hother

theorem Binary.read_eq_nil {source : Source} (h : Binary source) {n : Nat} (hn : 0 < n)
    (hread : (Data.read n source).1 = []) : source.flatten = [] := by
  cases source with
  | nil => rfl
  | cons chunk rest =>
      have hpos := List.length_pos_of_ne_nil (h chunk List.mem_cons_self)
      have hlength : (chunk.take n).length = 0 := congrArg List.length hread
      rw [List.length_take] at hlength
      omega

/-- The loop takes the declared bytes from the spool. -/
theorem writeChunks_rest (remaining : Nat) (source : Source) (hsource : Binary source)
    (state : LineState × Bytes) :
    Exec.Triple (fun _ => True) (writeChunks script source remaining state)
      (fun r _ => Binary r.1 ∧ r.1.flatten.length + remaining = source.flatten.length)
      (fun _ _ => True) := by
  induction remaining using Nat.strongRecOn generalizing source state with
  | ind remaining ih =>
    unfold writeChunks
    apply Exec.Triple.ite
    · intro hzero
      apply Exec.Triple.ret
      intro s _
      rw [hzero]
      exact ⟨hsource, rfl⟩
    intro hmore
    apply Exec.Triple.ite
    · intro _
      exact Exec.Triple.raise fun _ _ => trivial
    intro hchunk
    have hpos := List.length_pos_of_ne_nil hchunk
    have hlength := congrArg List.length (read_flatten (min (64 * 1024) remaining) source)
    have hshort := read_length_le (min (64 * 1024) remaining) source
    rw [List.length_append] at hlength
    apply @Exec.Triple.bind _ _ _ _ _ fun _ _ => True
    · exact Exec.Triple.of_state fun _ _ => trivial
    intro state'
    apply (ih _ (by omega) _ (hsource.read _) state').conseq (fun _ hs => hs) _ (fun _ _ hs => hs)
    rintro r s ⟨hbinary, hrest⟩
    exact ⟨hbinary, by omega⟩

theorem bodyWrite_fails (data : Bytes) :
    Exec.Triple (fun _ => True) (bodyWrite script data) (fun _ _ => True)
      (fun _ _ => Script.Fails script) := by
  apply @Exec.Triple.bind _ _ _ _ _ fun _ _ => True
  · exact Exec.Triple.inspect fun _ _ => trivial
  intro index
  apply @Exec.Triple.bind _ _ _ _ _ fun _ _ => True
  · apply write_spec
    · exact fun _ _ _ _ => trivial
    · exact fun error _ houtcome _ => ⟨index, error, houtcome⟩
  · intro _
    exact Exec.Triple.update fun _ _ => trivial

theorem emit_fails (output value : Bytes) :
    Exec.Triple (fun _ => True) (emit script output value) (fun _ _ => True)
      (fun _ _ => Script.Fails script) := by
  unfold emit
  apply Exec.Triple.ite
  · intro _
    apply Exec.Triple.bind (bodyWrite_fails _)
    intro _
    exact Exec.Triple.ret fun _ _ => trivial
  · intro _
    exact Exec.Triple.ret fun _ _ => trivial

theorem foldlM_fails {α β : Type} {f : β → α → Run β}
    (hstep : ∀ b a, Exec.Triple (fun _ => True) (f b a) (fun _ _ => True)
      (fun _ _ => Script.Fails script)) (values : List α) (b : β) :
    Exec.Triple (fun _ => True) (values.foldlM f b) (fun _ _ => True)
      (fun _ _ => Script.Fails script) := by
  induction values generalizing b with
  | nil => exact Exec.Triple.ret fun _ _ => trivial
  | cons a values ih => exact Exec.Triple.bind (hstep b a) ih

/-- The loop raises only when a write fails or the spool is too short. -/
theorem writeChunks_fails (remaining : Nat) (source : Source) (hsource : Binary source)
    (hlength : remaining ≤ source.flatten.length) (state : LineState × Bytes) :
    Exec.Triple (fun _ => True) (writeChunks script source remaining state) (fun _ _ => True)
      (fun _ _ => Script.Fails script) := by
  induction remaining using Nat.strongRecOn generalizing source state with
  | ind remaining ih =>
    unfold writeChunks
    apply Exec.Triple.ite
    · intro _
      exact Exec.Triple.ret fun _ _ => trivial
    intro hmore
    apply Exec.Triple.ite
    · intro hempty
      have hnil := hsource.read_eq_nil (by omega) hempty
      rw [hnil, List.length_nil] at hlength
      omega
    intro hchunk
    have hpos := List.length_pos_of_ne_nil hchunk
    have hsplit := congrArg List.length (read_flatten (min (64 * 1024) remaining) source)
    rw [List.length_append] at hsplit
    apply Exec.Triple.bind
    · apply foldlM_fails
      intro state value
      apply Exec.Triple.bind (foldlM_fails emit_fails _ _)
      intro output
      exact Exec.Triple.ret fun _ _ => trivial
    intro state'
    exact ih _ (by omega) _ (hsource.read _) (by omega) state'

theorem writeData_fails (source : Source) (hsource : Binary source) :
    Exec.Triple (fun _ => True) (writeData script source source.flatten.length) (fun _ _ => True)
      (fun _ _ => Script.Fails script) := by
  unfold writeData
  apply @Exec.Triple.bind _ _ _ _ _ fun r _ => Binary r.1 ∧
    r.1.flatten.length + source.flatten.length = source.flatten.length
  · apply ((writeChunks_rest _ source hsource _).both
      (writeChunks_fails _ source hsource (Nat.le_refl _) _)).conseq (fun _ hs => hs)
    · exact fun r s hs => hs.1
    · exact fun e s hs => hs.2
  rintro ⟨rest, st, output⟩
  apply @Exec.Triple.bind _ _ _ _ _ fun _ _ => True
  · apply Exec.Triple.ensure
    · exact fun _ _ _ => trivial
    · rintro s ⟨hbinary, hlength⟩ hextra
      -- the spool is at its end, so the last read finds nothing
      have hempty : (read 1 rest).1 = [] := by
        have hsplit := congrArg List.length (read_flatten 1 rest)
        rw [List.length_append] at hsplit
        dsimp only at hlength
        exact List.length_eq_zero_iff.mp (by omega)
      rw [hempty] at hextra
      cases hextra
  intro _
  apply Exec.Triple.bind (foldlM_fails emit_fails _ _)
  intro output'
  apply Exec.Triple.ite
  · intro _
    exact Exec.Triple.ret fun _ _ => trivial
  · intro _
    exact bodyWrite_fails _

/-- A run that returns has taken exactly the declared bytes. -/
theorem writeData_length (source : Source) (hsource : Binary source) (declaredLength : Nat) :
    Exec.Triple (fun _ => True) (writeData script source declaredLength)
      (fun _ _ => declaredLength = source.flatten.length) (fun _ _ => True) := by
  unfold writeData
  apply Exec.Triple.bind (writeChunks_rest _ source hsource _)
  rintro ⟨rest, st, output⟩
  apply @Exec.Triple.bind _ _ _ _ _ fun _ _ => declaredLength = source.flatten.length
  · apply Exec.Triple.ensure
    · rintro s ⟨hbinary, hlength⟩ hextra
      have hnil := hbinary.read_eq_nil (Nat.succ_pos 0) (List.isEmpty_iff.mp hextra)
      dsimp only at hlength
      rw [hnil, List.length_nil] at hlength
      omega
    · exact fun _ _ _ => trivial
  intro _
  exact (Exec.Triple.of_state fun _ hs => hs).conseq (fun _ hs => hs) (fun _ _ hs => hs)
    (fun _ _ _ => trivial)

theorem toCrlf_ne_nil {message : Bytes} (h : message ≠ []) : toCrlf false message ≠ [] := by
  cases message with
  | nil => exact absurd rfl h
  | cons b rest =>
      rw [toCrlf, if_neg (by simp)]
      split
      · simp [crlf]
      · simp

/-- What `_write_data` writes, and when it raises. -/
theorem smtp_data_faithful (script : Script) (source : Source) (hsource : Binary source)
    (declaredLength : Nat) (s : Session) (hserver : s.server = .data [])
    (hwrites : s.bodyWrites = [])
    (after : Bytes) :
    (declaredLength ≠ source.flatten.length →
      ∃ e s', writeData script source declaredLength s = (.error e, s')) ∧
    (declaredLength = source.flatten.length →
      (Script.Fails script ∨ ∃ s', writeData script source declaredLength s = (.ok (), s')) ∧
      ∀ s', writeData script source declaredLength s = (.ok (), s') →
        s'.bodyWrites = dataBuffers source.flatten ∧
        smtpReceive (s'.bodyWrites.flatten ++ ([0x2E] ++ crlf) ++ after) =
          some (if source.flatten = [] then [] else withFinalCrlf (toCrlf false source.flatten),
            after)) := by
  constructor
  · intro hlength
    rcases hrun : writeData script source declaredLength s with ⟨e | u, s'⟩
    · exact ⟨e, s', rfl⟩
    · have hequal := @writeData_length script source hsource declaredLength s trivial
      rw [hrun] at hequal
      exact absurd hequal hlength
  · rintro rfl
    constructor
    · rcases hrun : writeData script source source.flatten.length s with ⟨e | u, s'⟩
      · have hfails := @writeData_fails script source hsource s trivial
        rw [hrun] at hfails
        exact .inl hfails
      · exact .inr ⟨s', rfl⟩
    · intro s' hrun
      have hbuffers := @writeData_writes script source s ⟨hserver, hwrites⟩
      rw [hrun] at hbuffers
      refine ⟨hbuffers.1, ?_⟩
      rw [hbuffers.1, dataBuffers_flatten, smtpReceive_smtpData]
      by_cases hempty : source.flatten = []
      · rw [if_pos hempty, hempty]
        rfl
      · rw [if_neg hempty, terminated, if_neg (toCrlf_ne_nil hempty)]

end Runs

/-- Two chunks that end between a CR and its LF, and before a dot at the start of a line. -/
def splitSource : Source := [[0x61, 0x0D], [0x0A, 0x2E, 0x0D, 0x62]]

theorem smtp_data_faithful_sample :
    Binary splitSource ∧ ∃ s', writeData acceptingScript splitSource 6
        { server := .data [] } = (.ok (), s') ∧
      smtpReceive (s'.bodyWrites.flatten ++ ([0x2E] ++ crlf) ++ []) =
        some ([0x61, 0x0D, 0x0A, 0x2E, 0x0D, 0x0A, 0x62, 0x0D, 0x0A], []) := by
  have hbinary : Binary splitSource := by
    unfold Binary
    decide
  obtain ⟨hreturns, hwrites⟩ := (smtp_data_faithful acceptingScript splitSource hbinary 6
    { server := .data [] } rfl rfl []).2 rfl
  obtain ⟨s', hrun⟩ := hreturns.resolve_left (by rintro ⟨index, error, hfails⟩; cases hfails)
  exact ⟨hbinary, s', hrun, (hwrites s' hrun).2.trans (by decide +kernel)⟩

/-- An empty message has no line, and gets no CRLF. -/
theorem empty_message_without_crlf :
    ∃ s', writeData acceptingScript [] 0 { server := .data [] } = (.ok (), s') ∧
      smtpReceive (s'.bodyWrites.flatten ++ ([0x2E] ++ crlf)) ≠
        some (withFinalCrlf (toCrlf false []), []) := by
  refine ⟨{ server := .data [] }, ?_, by decide +kernel⟩
  unfold writeData writeChunks
  rfl

end MaddyWeb.Smtp.Data
