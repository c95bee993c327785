import MaddyWeb.Library.Text
import MaddyWeb.Smtp.Channel

/-!
# The DATA phase

`SMTPSubmissionClient._write_data` streams a spool through a line encoder into
64 KiB buffers.  The decisions of its byte loop are pure (`LineState.onByte`);
the channel only sees the buffers.  `dataBuffers` is the list of buffers that a
message is cut into, whatever chunks the spool returns, and `smtpData` states
what they are for: each line, dot-dotStuffed, with a CRLF.
-/

namespace MaddyWeb.Smtp.Data

open MaddyWeb.Library MaddyWeb.Library.Text MaddyWeb.Helper.Errors MaddyWeb.Smtp.Channel

/-! ## The spool -/

/-- A binary spool, as the chunks that successive reads find. -/
abbrev Source := List Bytes

/-- `source.read(n)` -/
def read (n : Nat) : Source → Bytes × Source
  | [] => ([], [])
  | chunk :: rest =>
    (chunk.take n, if chunk.length ≤ n then rest else chunk.drop n :: rest)

theorem read_flatten (n : Nat) (source : Source) :
    (read n source).1 ++ (read n source).2.flatten = source.flatten := by
  cases source with
  | nil => rfl
  | cons chunk rest =>
      by_cases hfits : chunk.length ≤ n
      · simp [read, hfits, List.take_of_length_le hfits]
      · simp [read, hfits, ← List.append_assoc]

theorem read_length_le (n : Nat) (source : Source) : (read n source).1.length ≤ n := by
  cases source with
  | nil => simp [read]
  | cons chunk rest => exact List.length_take_le n chunk

/-! ## The line encoder -/

/-- The two flags of the byte loop. -/
structure LineState where
  atLineStart : Bool := true
  pendingCr : Bool := false
  deriving DecidableEq, Repr

namespace LineState

/-- The byte loop past its `pending_cr` branch: the values it emits and its flags after. -/
def onPlainByte (st : LineState) (value : UInt8) : List Bytes × LineState :=
  if value = 0x0D then ([], { st with pendingCr := true })
  else if value = 0x0A then ([crlf], { st with atLineStart := true })
  else ((if st.atLineStart && value = 0x2E then [[0x2E]] else []) ++ [[value]],
    { st with atLineStart := false })

/-- The body of the byte loop. -/
def onByte (st : LineState) (value : UInt8) : List Bytes × LineState :=
  if st.pendingCr then
    let st' : LineState := { atLineStart := true, pendingCr := false }
    if value = 0x0A then ([crlf], st')
    else (crlf :: (st'.onPlainByte value).1, (st'.onPlainByte value).2)
  else st.onPlainByte value

/-- What is emitted after the last byte. -/
def final (st : LineState) : List Bytes :=
  if st.pendingCr || !st.atLineStart then [crlf] else []

end LineState

/-- Every value passed to `emit` for the rest of a message. -/
def emissions : LineState → Bytes → List Bytes
  | st, [] => st.final
  | st, value :: rest => (st.onByte value).1 ++ emissions (st.onByte value).2 rest

/-! ## Buffering -/

/-- Hand one buffer to the channel. -/
def bodyWrite (script : Script) (data : Bytes) : Run Unit := do
  let index ← Exec.inspect fun s => s.bodyWrites.length
  write (script.body index) data
  Exec.update fun s => { s with bodyWrites := s.bodyWrites ++ [data] }

/-- `emit`, as a change of the buffer `output`. -/
def emit (script : Script) (output value : Bytes) : Run Bytes :=
  if 64 * 1024 ≤ (output ++ value).length then do
    bodyWrite script (output ++ value)
    return []
  else return output ++ value

/-- One byte of a chunk. -/
def consume (script : Script) (state : LineState × Bytes) (value : UInt8) :
    Run (LineState × Bytes) := do
  let output ← (state.1.onByte value).1.foldlM (emit script) state.2
  return ((state.1.onByte value).2, output)

/-- The loop over the spool. -/
def writeChunks (script : Script) (source : Source) (remaining : Nat)
    (state : LineState × Bytes) : Run (Source × LineState × Bytes) :=
  if remaining = 0 then return (source, state)
  else if (read (min (64 * 1024) remaining) source).1 = [] then Exec.raise .smtpTransport
  else do
    let state' ← (read (min (64 * 1024) remaining) source).1.foldlM (consume script) state
    writeChunks script (read (min (64 * 1024) remaining) source).2
      (remaining - (read (min (64 * 1024) remaining) source).1.length) state'
termination_by remaining
decreasing_by
  have hpos : 0 < (read (min (64 * 1024) remaining) source).1.length :=
    List.length_pos_of_ne_nil (by assumption)
  omega

/-- `SMTPSubmissionClient._write_data` -/
def writeData (script : Script) (source : Source) (declaredLength : Nat) : Run Unit := do
  let (rest, st, output) ← writeChunks script source declaredLength ({}, [])
  Exec.ensure (read 1 rest).1.isEmpty .smtpTransport
  let output ← st.final.foldlM (emit script) output
  if output = [] then return () else bodyWrite script output

/-! ## What the channel is handed -/

/-- The buffers written for a list of emitted values, from a buffer in progress. -/
def buffersOf : Bytes → List Bytes → List Bytes
  | output, [] => if output = [] then [] else [output]
  | output, value :: rest =>
    if 64 * 1024 ≤ (output ++ value).length then (output ++ value) :: buffersOf [] rest
    else buffersOf (output ++ value) rest

/-- The buffers that a message is written in. -/
def dataBuffers (message : Bytes) : List Bytes := buffersOf [] (emissions {} message)

/-- A line with its leading dot doubled. -/
def dotStuffed (line : Bytes) : Bytes :=
  if line.head? = some 0x2E then 0x2E :: line else line

/-- A line on the wire. -/
def wireLine (line : Bytes) : Bytes := dotStuffed line ++ crlf

/-- The dot-dotStuffed message with CRLF line ends. -/
def smtpData (message : Bytes) : Bytes := (bytesSplitlines message).flatMap wireLine

theorem buffersOf_flatten (values : List Bytes) (output : Bytes) :
    (buffersOf output values).flatten = output ++ values.flatten := by
  induction values generalizing output with
  | nil =>
      by_cases houtput : output = [] <;> simp [buffersOf, houtput]
  | cons value rest ih =>
      by_cases hfull : 64 * 1024 ≤ (output ++ value).length
      · rw [buffersOf, if_pos hfull, List.flatten_cons, ih]
        simp
      · rw [buffersOf, if_neg hfull, ih]
        simp

theorem ne_nil_of_mem_buffersOf (values : List Bytes) (output : Bytes) :
    ∀ buffer ∈ buffersOf output values, buffer ≠ [] := by
  induction values generalizing output with
  | nil =>
      by_cases houtput : output = [] <;> simp [buffersOf, houtput]
  | cons value rest ih =>
      by_cases hfull : 64 * 1024 ≤ (output ++ value).length
      · rw [buffersOf, if_pos hfull]
        intro buffer hmem
        rcases List.mem_cons.mp hmem with rfl | hmem
        · exact List.ne_nil_of_length_pos (by omega)
        · exact ih [] buffer hmem
      · rw [buffersOf, if_neg hfull]
        exact ih (output ++ value)

/-! ## The encoder writes the message line by line -/

/-- A further byte of a line that is no line break. -/
theorem dotStuffed_snoc (line : Bytes) (value : UInt8) :
    dotStuffed (line ++ [value]) =
      dotStuffed line ++ ((if line.isEmpty && value = 0x2E then [0x2E] else []) ++ [value]) := by
  cases line with
  | nil => by_cases hdot : value = 0x2E <;> simp [dotStuffed, hdot]
  | cons first rest => by_cases hdot : first = 0x2E <;> simp [dotStuffed, hdot]

/-- The encoder and `splitlines` in step: `line` is the unfinished line.  A pending
carriage return is a break that `splitlines` has already taken. -/
private theorem emissions_flatten_aux (message line : Bytes) :
    dotStuffed line ++ (emissions { atLineStart := line.isEmpty } message).flatten =
        (splitlinesFrom isByteBreak 0x0D 0x0A false line message).flatMap wireLine ∧
    ∀ start, (emissions { atLineStart := start, pendingCr := true } message).flatten =
        crlf ++ (splitlinesFrom isByteBreak 0x0D 0x0A true [] message).flatMap wireLine := by
  induction message generalizing line with
  | nil =>
      constructor
      · cases line with
        | nil => simp [emissions, LineState.final, splitlinesFrom, dotStuffed]
        | cons first rest =>
            simp [emissions, LineState.final, splitlinesFrom, wireLine]
      · intro start
        simp [emissions, LineState.final, splitlinesFrom]
  | cons value rest ih =>
      have hplain : ∀ line : Bytes,
          dotStuffed line ++ (((LineState.onPlainByte { atLineStart := line.isEmpty } value).1 ++
            emissions (LineState.onPlainByte { atLineStart := line.isEmpty } value).2
              rest)).flatten =
          (splitlinesFrom isByteBreak 0x0D 0x0A false line (value :: rest)).flatMap wireLine := by
        intro line
        by_cases hcr : value = 0x0D
        · subst hcr
          have hpending := (ih []).2 line.isEmpty
          simp [LineState.onPlainByte, splitlinesFrom, isByteBreak, wireLine, hpending]
        · by_cases hlf : value = 0x0A
          · subst hlf
            have hfresh := (ih []).1
            have hempty : dotStuffed [] = [] := rfl
            rw [hempty, List.nil_append] at hfresh
            simp only [List.isEmpty_nil] at hfresh
            simp [LineState.onPlainByte, splitlinesFrom, isByteBreak, wireLine, hfresh]
          · have hnext := (ih (line ++ [value])).1
            rw [dotStuffed_snoc] at hnext
            have hnonempty : (line ++ [value]).isEmpty = false := by simp
            rw [hnonempty] at hnext
            have hsplit : splitlinesFrom isByteBreak 0x0D 0x0A false line (value :: rest) =
                splitlinesFrom isByteBreak 0x0D 0x0A false (line ++ [value]) rest :=
              splitlinesFrom_plain (by simp [isByteBreak, hcr, hlf]) rfl
            rw [hsplit, ← hnext]
            by_cases hstart : line.isEmpty && decide (value = 0x2E) <;>
              simp [LineState.onPlainByte, hcr, hlf, hstart]
      constructor
      · have h := hplain line
        simpa [emissions, LineState.onByte] using h
      · intro start
        by_cases hlf : value = 0x0A
        · subst hlf
          have hfresh := (ih []).1
          have hempty : dotStuffed [] = [] := rfl
          rw [hempty, List.nil_append] at hfresh
          simp only [List.isEmpty_nil] at hfresh
          simp [emissions, LineState.onByte, splitlinesFrom, hfresh]
        · have h := hplain []
          have hempty : dotStuffed [] = [] := rfl
          rw [hempty, List.nil_append] at h
          simp only [List.isEmpty_nil] at h
          have hsplit : splitlinesFrom isByteBreak 0x0D 0x0A true [] (value :: rest) =
              splitlinesFrom isByteBreak 0x0D 0x0A false [] (value :: rest) := by
            simp [splitlinesFrom, hlf]
          rw [hsplit, ← h]
          simp [emissions, LineState.onByte, hlf]

theorem emissions_flatten (message : Bytes) :
    (emissions {} message).flatten = smtpData message := by
  have h := (emissions_flatten_aux message []).1
  have hempty : dotStuffed [] = [] := rfl
  rw [hempty, List.nil_append] at h
  exact h

/-- The buffers of a message, joined, are its lines on the wire. -/
theorem dataBuffers_flatten (message : Bytes) :
    (dataBuffers message).flatten = smtpData message := by
  rw [dataBuffers, buffersOf_flatten, List.nil_append, emissions_flatten]

/-! ## What the server receives -/

/-- The prefix of a buffer that one write delivers. -/
def accepted (outcome : WriteOutcome) (data : Bytes) : Bytes :=
  match outcome with
  | .accepts count => data.take count
  | .fails _ => []

/-- The operating system takes the whole buffer. -/
def AcceptsAll (outcome : WriteOutcome) (data : Bytes) : Prop :=
  match outcome with
  | .accepts count => data.length ≤ count
  | .fails _ => False

theorem accepted_length_le (outcome : WriteOutcome) (data : Bytes) :
    (accepted outcome data).length ≤ data.length := by
  cases outcome with
  | accepts count => exact List.length_take_le' count data
  | fails error => exact Nat.zero_le _

theorem accepted_length_eq_iff {outcome : WriteOutcome} {data : Bytes} (hdata : data ≠ []) :
    (accepted outcome data).length = data.length ↔ AcceptsAll outcome data := by
  have hpos := List.length_pos_of_ne_nil hdata
  cases outcome with
  | accepts count =>
      simp only [accepted, AcceptsAll, List.length_take]
      omega
  | fails error =>
      simp only [accepted, AcceptsAll, List.length_nil, iff_false]
      omega

theorem accepted_eq_self {outcome : WriteOutcome} {data : Bytes} (h : AcceptsAll outcome data) :
    accepted outcome data = data := by
  cases outcome with
  | accepts count => exact List.take_of_length_le h
  | fails error => exact h.elim

/-- What the writes number `first`, `first + 1`, … deliver of a list of buffers. -/
def delivered (script : Script) : Nat → List Bytes → Bytes
  | _, [] => []
  | first, buffer :: rest =>
    accepted (script.body first) buffer ++ delivered script (first + 1) rest

theorem delivered_snoc (script : Script) (buffers : List Bytes) (buffer : Bytes) (first : Nat) :
    delivered script first (buffers ++ [buffer]) =
      delivered script first buffers ++
        accepted (script.body (first + buffers.length)) buffer := by
  induction buffers generalizing first with
  | nil => simp [delivered]
  | cons head rest ih =>
      simp only [List.cons_append, delivered, ih, List.append_assoc, List.length_cons]
      rw [Nat.add_right_comm first 1, Nat.add_assoc first]

theorem delivered_length_le (script : Script) (buffers : List Bytes) (first : Nat) :
    (delivered script first buffers).length ≤ buffers.flatten.length := by
  induction buffers generalizing first with
  | nil => simp [delivered]
  | cons head rest ih =>
      have hhead := accepted_length_le (script.body first) head
      have hrest := ih (first + 1)
      simp only [delivered, List.length_append, List.flatten_cons]
      omega

/-- No byte is lost exactly when no write is short. -/
theorem delivered_length_eq_iff (script : Script) (buffers : List Bytes)
    (hne : ∀ buffer ∈ buffers, buffer ≠ []) (first : Nat) :
    (delivered script first buffers).length = buffers.flatten.length ↔
      ∀ j buffer, buffers[j]? = some buffer → AcceptsAll (script.body (first + j)) buffer := by
  induction buffers generalizing first with
  | nil => simp [delivered]
  | cons head rest ih =>
      have hhead := accepted_length_le (script.body first) head
      have hrest := delivered_length_le script rest (first + 1)
      have hheadIff : (accepted (script.body first) head).length = head.length ↔
          AcceptsAll (script.body first) head := accepted_length_eq_iff (hne head (by simp))
      have hrestIff := ih (fun buffer hmem => hne buffer (List.mem_cons_of_mem _ hmem)) (first + 1)
      constructor
      · intro hlength j buffer hj
        simp only [delivered, List.length_append, List.flatten_cons] at hlength
        cases j with
        | zero =>
            rw [List.getElem?_cons_zero, Option.some_inj] at hj
            subst hj
            exact hheadIff.mp (by omega)
        | succ j =>
            rw [List.getElem?_cons_succ] at hj
            have h := hrestIff.mp (by omega) j buffer hj
            rwa [Nat.add_assoc, Nat.add_comm 1 j] at h
      · intro hall
        have h0 := hheadIff.mpr (by simpa using hall 0 head rfl)
        have hs := hrestIff.mpr (fun j buffer hj => by
          have h := hall (j + 1) buffer (by rwa [List.getElem?_cons_succ])
          rwa [Nat.add_assoc, Nat.add_comm 1 j])
        simp only [delivered, List.length_append, List.flatten_cons]
        omega

theorem delivered_eq_flatten (script : Script) (buffers : List Bytes) (first : Nat)
    (hall : ∀ j buffer, buffers[j]? = some buffer → AcceptsAll (script.body (first + j)) buffer) :
    delivered script first buffers = buffers.flatten := by
  induction buffers generalizing first with
  | nil => rfl
  | cons head rest ih =>
      have h0 : accepted (script.body first) head = head :=
        accepted_eq_self (by simpa using hall 0 head rfl)
      have hrest : delivered script (first + 1) rest = rest.flatten := by
        refine ih (first + 1) fun j buffer hj => ?_
        have h := hall (j + 1) buffer (by rwa [List.getElem?_cons_succ])
        rwa [Nat.add_assoc, Nat.add_comm 1 j]
      rw [delivered, h0, hrest, List.flatten_cons]

/-! ## Running the writer -/

/-- The writer's invariant: what the server has received is what the buffers written so far
delivered, and with the buffers still to come they are the buffers of the message. -/
structure Writing (script : Script) (buffers : List Bytes) (output : Bytes)
    (values : List Bytes) (s : Session) : Prop where
  received : s.server = .data (delivered script 0 s.bodyWrites)
  buffers_eq : s.bodyWrites ++ buffersOf output values = buffers

section Writer

variable {script : Script} {buffers : List Bytes}

theorem bodyWrite_spec {data : Bytes} {P : Session → Prop}
    (hP : ∀ s, P s → s.server = .data (delivered script 0 s.bodyWrites)) :
    Exec.Triple P (bodyWrite script data)
      (fun _ s' => s'.server = .data (delivered script 0 s'.bodyWrites) ∧
        ∃ s, P s ∧ s'.bodyWrites = s.bodyWrites ++ [data])
      (fun _ _ => True) := by
  refine Exec.Triple.bind (Q := fun index s => P s ∧ index = s.bodyWrites.length)
    (Exec.Triple.inspect fun s hs => ⟨hs, rfl⟩) fun index => ?_
  refine Exec.Triple.bind
    (Q := fun _ s' => s'.server = .data (delivered script 0 (s'.bodyWrites ++ [data])) ∧
      ∃ s, P s ∧ s'.bodyWrites = s.bodyWrites)
    (write_spec ?_ fun _ _ _ _ => trivial) fun _ => ?_
  · rintro count s houtcome ⟨hs, rfl⟩
    have hsnoc := delivered_snoc script s.bodyWrites data 0
    rw [Nat.zero_add, houtcome] at hsnoc
    refine ⟨?_, s, hs, rfl⟩
    rw [hsnoc, hP s hs]
    rfl
  · refine Exec.Triple.update ?_
    rintro s' ⟨hreceived, s, hs, hwrites⟩
    exact ⟨hreceived, s, hs, by rw [hwrites]⟩

theorem emit_spec (output value : Bytes) (values : List Bytes) :
    Exec.Triple (Writing script buffers output (value :: values)) (emit script output value)
      (fun output' => Writing script buffers output' values) (fun _ _ => True) := by
  unfold emit
  refine Exec.Triple.ite (fun hfull => ?_) (fun hshort => ?_)
  · refine Exec.Triple.bind (bodyWrite_spec fun s hs => hs.received) fun _ => ?_
    refine Exec.Triple.ret fun s' hs' => ?_
    obtain ⟨hreceived, s, hs, hwrites⟩ := hs'
    have hbuffers := hs.buffers_eq
    rw [buffersOf, if_pos hfull] at hbuffers
    exact ⟨hreceived, by rw [hwrites, List.append_assoc]; exact hbuffers⟩
  · refine Exec.Triple.ret fun s hs => ?_
    have hbuffers := hs.buffers_eq
    rw [buffersOf, if_neg hshort] at hbuffers
    exact ⟨hs.received, hbuffers⟩

theorem emitAll_spec (emitted values : List Bytes) (output : Bytes) :
    Exec.Triple (Writing script buffers output (emitted ++ values))
      (emitted.foldlM (emit script) output)
      (fun output' => Writing script buffers output' values) (fun _ _ => True) := by
  induction emitted generalizing output with
  | nil => exact Exec.Triple.ret fun s hs => hs
  | cons value rest ih => exact Exec.Triple.bind (emit_spec output value (rest ++ values)) ih

theorem consume_spec (state : LineState × Bytes) (value : UInt8) (rest : Bytes) :
    Exec.Triple (Writing script buffers state.2 (emissions state.1 (value :: rest)))
      (consume script state value)
      (fun state' => Writing script buffers state'.2 (emissions state'.1 rest))
      (fun _ _ => True) := by
  refine Exec.Triple.bind (emitAll_spec _ (emissions (state.1.onByte value).2 rest) state.2) ?_
  exact fun output' => Exec.Triple.ret fun s hs => hs

theorem consumeAll_spec (chunk rest : Bytes) (state : LineState × Bytes) :
    Exec.Triple (Writing script buffers state.2 (emissions state.1 (chunk ++ rest)))
      (chunk.foldlM (consume script) state)
      (fun state' => Writing script buffers state'.2 (emissions state'.1 rest))
      (fun _ _ => True) := by
  induction chunk generalizing state with
  | nil => exact Exec.Triple.ret fun s hs => hs
  | cons value chunk ih => exact Exec.Triple.bind (consume_spec state value (chunk ++ rest)) ih

theorem writeChunks_spec (remaining : Nat) (source : Source) (state : LineState × Bytes)
    (hlength : source.flatten.length = remaining) :
    Exec.Triple (Writing script buffers state.2 (emissions state.1 source.flatten))
      (writeChunks script source remaining state)
      (fun r => Writing script buffers r.2.2 r.2.1.final) (fun _ _ => True) := by
  induction remaining using Nat.strongRecOn generalizing source state with
  | ind remaining ih =>
    unfold writeChunks
    refine Exec.Triple.ite (fun hzero => ?_) (fun hmore => ?_)
    · refine Exec.Triple.ret fun s hs => ?_
      rw [List.eq_nil_of_length_eq_zero (hlength.trans hzero)] at hs
      exact hs
    · have hread := read_flatten (min (64 * 1024) remaining) source
      refine Exec.Triple.ite (fun _ => Exec.Triple.raise fun _ _ => trivial) (fun hchunk => ?_)
      have hpos := List.length_pos_of_ne_nil hchunk
      have hsplit := congrArg List.length hread
      rw [List.length_append] at hsplit
      rw [← hread]
      refine Exec.Triple.bind (consumeAll_spec _ _ state) fun state' => ?_
      exact ih _ (by omega) _ state' (by omega)

/-- A run of `_write_data` over the whole spool hands over the buffers of the message. -/
theorem writeData_writes (source : Source) :
    Exec.Triple (fun s => s.server = .data [] ∧ s.bodyWrites = [])
      (writeData script source source.flatten.length)
      (fun _ s => s.bodyWrites = dataBuffers source.flatten ∧
        s.server = .data (delivered script 0 (dataBuffers source.flatten)))
      (fun _ _ => True) := by
  have hchunks : Exec.Triple
      (Writing script (dataBuffers source.flatten) [] (emissions {} source.flatten))
      (writeChunks script source source.flatten.length ({}, []))
      (fun r => Writing script (dataBuffers source.flatten) r.2.2 r.2.1.final)
      (fun _ _ => True) := writeChunks_spec _ source ({}, []) rfl
  refine Exec.Triple.bind (Exec.Triple.conseq hchunks
    (fun s hs => ⟨by rw [hs.1, hs.2]; rfl, by rw [hs.2]; rfl⟩)
    (fun _ _ h => h) (fun _ _ h => h)) ?_
  rintro ⟨rest, st, output⟩
  refine Exec.Triple.bind (Q :=
    fun _ => Writing script (dataBuffers source.flatten) output st.final)
    (Exec.Triple.ensure (fun s hs _ => hs) fun _ _ _ => trivial) fun _ => ?_
  refine Exec.Triple.bind (Exec.Triple.conseq (emitAll_spec st.final [] output)
    (fun s hs => by rwa [List.append_nil]) (fun _ _ h => h) (fun _ _ h => h)) fun output' => ?_
  refine Exec.Triple.ite (fun hempty => ?_) (fun hmore => ?_)
  · refine Exec.Triple.ret fun s hs => ?_
    have hbuffers := hs.buffers_eq
    rw [hempty, buffersOf, if_pos rfl, List.append_nil] at hbuffers
    exact ⟨hbuffers, by rw [hs.received, hbuffers]⟩
  · refine Exec.Triple.conseq (bodyWrite_spec fun s hs => hs.received)
      (fun s hs => hs) ?_ (fun _ _ h => h)
    rintro _ s' ⟨hreceived, s, hs, hwrites⟩
    have hbuffers := hs.buffers_eq
    rw [buffersOf, if_neg hmore] at hbuffers
    rw [← hwrites] at hbuffers
    exact ⟨hbuffers, by rw [hreceived, hbuffers]⟩

theorem writeData_spec (source : Source) :
    Exec.Triple (fun s => s.server = .data [] ∧ s.bodyWrites = [])
      (writeData script source source.flatten.length)
      (fun _ s => s.server = .data (delivered script 0 (dataBuffers source.flatten)))
      (fun _ _ => True) :=
  (writeData_writes source).conseq (fun _ hs => hs) (fun _ _ hs => hs.2) (fun _ _ hs => hs)

end Writer

section Keeps

variable {I : Session → Prop} (hI : IgnoresWire I) (script : Script)
include hI

theorem bodyWrite_keeps (data : Bytes) : Exec.Keeps I (bodyWrite script data) := by
  refine Exec.Keeps.bind (Exec.Keeps.inspect _) fun index => ?_
  refine Exec.Keeps.bind (write_keeps hI _ _) fun _ => ?_
  exact Exec.Keeps.update fun s hs => hI s s.server _ hs

theorem emit_keeps (output value : Bytes) : Exec.Keeps I (emit script output value) :=
  Exec.Keeps.ite (Exec.Keeps.bind (bodyWrite_keeps hI script _) fun _ => Exec.Keeps.ret _)
    (Exec.Keeps.ret _)

theorem consume_keeps (state : LineState × Bytes) (value : UInt8) :
    Exec.Keeps I (consume script state value) :=
  Exec.Keeps.bind (Exec.Keeps.foldlM (emit_keeps hI script) _ _) fun _ => Exec.Keeps.ret _

theorem writeChunks_keeps (source : Source) (remaining : Nat) (state : LineState × Bytes) :
    Exec.Keeps I (writeChunks script source remaining state) := by
  induction remaining using Nat.strongRecOn generalizing source state with
  | ind remaining ih =>
    unfold writeChunks
    refine Exec.Triple.ite (fun _ => Exec.Keeps.ret _) (fun hmore => ?_)
    refine Exec.Triple.ite (fun _ => Exec.Keeps.raise _) (fun hchunk => ?_)
    have hpos := List.length_pos_of_ne_nil hchunk
    refine Exec.Keeps.bind (Exec.Keeps.foldlM (consume_keeps hI script) _ _) fun state' => ?_
    exact ih _ (by omega) _ state'

theorem writeData_keeps (source : Source) (declaredLength : Nat) :
    Exec.Keeps I (writeData script source declaredLength) := by
  refine Exec.Keeps.bind (writeChunks_keeps hI script _ _ _) ?_
  rintro ⟨rest, st, output⟩
  refine Exec.Keeps.bind (Exec.Keeps.ensure _ _) fun _ => ?_
  refine Exec.Keeps.bind (Exec.Keeps.foldlM (emit_keeps hI script) _ _) fun output' => ?_
  exact Exec.Keeps.ite (Exec.Keeps.ret _) (bodyWrite_keeps hI script _)

end Keeps

end MaddyWeb.Smtp.Data
