import MaddyWeb.Protocol.RoundTrip

/-!
# Binary streams behind a control frame

The sender copies a source to the socket and the receiver copies the socket to a spool, each
in its own chunks.  A transfer that returns has moved exactly the declared bytes.
-/

namespace MaddyWeb.Protocol

open MaddyWeb.Library

def streamChunkBytes : Nat := 64 * 1024

/-! ## Sending -/

/-- The file that is sent, what has been given to the socket, and the calls of `sendall` that
fail after a part of their data. -/
structure Sender where
  source : Peer
  sent : Bytes
  sends : Nat
  faults : Nat → Option Nat

abbrev Sending (α : Type) := Exec Sender WireError α

/-- `sock.sendall` -/
def sendAll (data : Bytes) : Sending Unit := fun s =>
  match s.faults s.sends with
  | none => (.ok (), { s with sent := s.sent ++ data, sends := s.sends + 1 })
  | some k => (.error .os, { s with sent := s.sent ++ data.take k, sends := s.sends + 1 })

/-- `source.read` -/
def readSource (n : Nat) : Sending Bytes :=
  Exec.focus Sender.source (fun s source => { s with source }) id (Source.recv n)

/-- `send_frame` -/
def sendFrame (maxFrameBytes : Nat) (message : Fields) : Sending Unit := do
  let frame ← Exec.ofExcept (encodeFrame maxFrameBytes message)
  sendAll frame

/-- `_stream_length` -/
def streamLength (message : Fields) (maximum : Nat) : Except WireError Nat :=
  match Json.get? message "stream_length" with
  | some (.int value) =>
      if value ≤ 0 then .error (.stream "control frame has an invalid stream_length")
      else if (maximum : Int) < value then
        .error (.streamTooLarge ("stream advertises " ++ toString value ++ " bytes; limit is " ++
          toString maximum))
      else .ok value.toNat
  | _ => .error (.stream "control frame has an invalid stream_length")

/-- The loop of `send_stream_frame`. -/
def sendBody (length : Nat) : Sending Unit :=
  copyLoop readSource sendAll streamChunkBytes
    (.streamTruncated "stream source ended before its declared length") length length

/-- The end of the source, when it is required. -/
def requireSourceEnd (requireEof : Bool) : Sending Unit :=
  if requireEof then do
    let extra ← readSource 1
    Exec.ensure extra.isEmpty (.stream "stream source contains bytes beyond its declared length")
  else return ()

/-- `send_stream_frame` -/
def sendStreamFrame (maxFrameBytes maxStreamBytes : Nat) (message : Fields) (requireEof : Bool) :
    Sending Unit := do
  let length ← Exec.ofExcept (streamLength message maxStreamBytes)
  sendFrame maxFrameBytes message
  sendBody length
  requireSourceEnd requireEof

/-! ## Receiving -/

/-- The steps of `TrustedSpool.create`. -/
inductive CreateStep
  | directory
  | mkstemp
  | chmod
  | fdopen
  deriving DecidableEq, Repr

/-- What fails on a spool; a call of `write` that does not fail stores everything. -/
structure SpoolFaults where
  create : Option CreateStep
  write : Nat → Bool
  flush : Bool
  rewind : Bool
  close : Bool
  unlink : Bool

/-- `TrustedSpool`: the file, its descriptor and its place in the spool directory. -/
structure Spool where
  content : Bytes
  isOpen : Bool
  onDisk : Bool
  writes : Nat
  faults : SpoolFaults

structure Receiver where
  connection : Peer
  spool : Spool

abbrev Receiving (α : Type) := Exec Receiver WireError α

/-- `destination.write` -/
def writeSpool (chunk : Bytes) : Receiving Unit := fun s =>
  if s.spool.faults.write s.spool.writes then
    (.error .os, { s with spool := { s.spool with writes := s.spool.writes + 1 } })
  else (.ok (), { s with spool := { s.spool with
    content := s.spool.content ++ chunk, writes := s.spool.writes + 1 } })

/-- `destination.flush` -/
def flushSpool : Receiving Unit := fun s =>
  if s.spool.faults.flush then (.error .os, s) else (.ok (), s)

/-- `sock.recv`, with the exception that replaces an `OSError`. -/
def receive (n : Nat) (e : WireError) : Receiving Bytes :=
  Exec.focus Receiver.connection (fun s connection => { s with connection }) (fun _ => e)
    (Source.recv n)

/-- The loop of `receive_stream_payload`. -/
def receiveBody (length : Nat) : Receiving Unit :=
  copyLoop (receive · (.streamTruncated "stream ended before its declared length")) writeSpool
    streamChunkBytes (.streamTruncated "stream ended before its declared length") length length

/-- The end of the stream, when it is required. -/
def requireEnd (requireEof : Bool) : Receiving Unit :=
  if requireEof then do
    let extra ← receive 1 (.stream "cannot verify end of request stream")
    Exec.ensure extra.isEmpty (.stream "peer sent bytes beyond its declared stream length")
  else return ()

/-- `receive_stream_payload` -/
def receiveStreamPayload (maxStreamBytes : Nat) (length : Int) (requireEof : Bool) :
    Receiving Unit :=
  if length ≤ 0 then Exec.raise (.stream "invalid declared stream length")
  else if (maxStreamBytes : Int) < length then
    Exec.raise (.streamTooLarge ("stream advertises " ++ toString length ++ " bytes; limit is " ++
      toString maxStreamBytes))
  else do
    receiveBody length.toNat
    flushSpool
    requireEnd requireEof

/-! ## What a sender has sent -/

section Sending

variable {s s' : Sender} {chunk : Bytes}

theorem readSource_ok {n : Nat} (h : readSource n s = (.ok chunk, s')) :
    s.source.Follows s'.source chunk ∧ chunk.length ≤ n ∧
      (0 < n → chunk = [] → s'.source.pending = []) ∧ s'.sent = s.sent ∧ s'.faults = s.faults := by
  unfold readSource Exec.focus at h
  rcases hrecv : Source.recv n s.source with ⟨e | found, source⟩
  · rw [hrecv] at h
    cases h
  · rw [hrecv] at h
    cases h
    obtain ⟨hfollows, hlength, hend⟩ := Source.recv_ok hrecv
    exact ⟨hfollows, hlength, hend, rfl, rfl⟩

theorem sendAll_ok {data : Bytes} (h : sendAll data s = (.ok (), s')) :
    s'.sent = s.sent ++ data ∧ s'.source = s.source ∧ s'.faults = s.faults := by
  unfold sendAll at h
  split at h
  · cases h
    exact ⟨rfl, rfl, rfl⟩
  · cases h

theorem sendBody_ok {length : Nat} (h : sendBody length s = (.ok (), s')) :
    ∃ data, data.length = length ∧ s.source.Follows s'.source data ∧ s'.sent = s.sent ++ data := by
  apply copyLoop_ok _ _ (Nat.le_refl _) h
  · exact fun s => ⟨⟨rfl, rfl⟩, (List.append_nil _).symm⟩
  · intro n s chunk s₁ s₂ hread hwrite
    obtain ⟨hfollows, hlength, -, hsent, -⟩ := readSource_ok hread
    obtain ⟨hsent₂, hsource₂, -⟩ := sendAll_ok hwrite
    refine ⟨hlength, ?_⟩
    rintro data s' ⟨hrest, hsent₃⟩
    rw [hsource₂] at hrest
    refine ⟨hfollows.trans hrest, ?_⟩
    rw [hsent₃, hsent₂, hsent, List.append_assoc]

/-- A sender that returns has sent the frame and all of its source. -/
theorem sendStreamFrame_ok {maxFrameBytes maxStreamBytes : Nat} {message : Fields}
    (h : sendStreamFrame maxFrameBytes maxStreamBytes message true s = (.ok (), s')) :
    ∃ frame, encodeFrame maxFrameBytes message = .ok frame ∧
      streamLength message maxStreamBytes = .ok s.source.pending.length ∧
      s'.sent = s.sent ++ (frame ++ s.source.pending) := by
  unfold sendStreamFrame at h
  obtain ⟨length, hlength, h⟩ := Exec.ofExcept_bind_eq_ok h
  obtain ⟨_, s₁, hframe, h⟩ := Exec.bind_eq_ok h
  unfold sendFrame at hframe
  obtain ⟨frame, hencode, hframe⟩ := Exec.ofExcept_bind_eq_ok hframe
  obtain ⟨hsent₁, hsource₁, -⟩ := sendAll_ok hframe
  obtain ⟨_, s₂, hbody, h⟩ := Exec.bind_eq_ok h
  obtain ⟨data, hdata, hfollows, hsent₂⟩ := sendBody_ok hbody
  unfold requireSourceEnd at h
  rw [if_pos rfl] at h
  obtain ⟨extra, s₃, hread, h⟩ := Exec.bind_eq_ok h
  obtain ⟨hfollows₃, -, hend, hsent₃, -⟩ := readSource_ok hread
  obtain ⟨hextra, rfl⟩ := Exec.ensure_eq_ok h
  have hnil : extra = [] := List.isEmpty_iff.mp hextra
  have hrest : s₂.source.pending = [] := by
    rw [hfollows₃.pending, hnil, hend (by decide) hnil]
    rfl
  have hpending : s.source.pending = data := by
    rw [← hsource₁, hfollows.pending, hrest, List.append_nil]
  refine ⟨frame, hencode, ?_, ?_⟩
  · rw [hlength, hpending, hdata]
  · rw [hsent₃, hsent₂, hsent₁, hpending, List.append_assoc]

/-- Nothing fails on this side. -/
structure Sender.Reliable (s : Sender) : Prop where
  steady : s.source.Steady
  faultless : ∀ n, s.faults n = none

theorem Sender.Reliable.readSource (h : s.Reliable) (n : Nat) :
    ∃ chunk s', Protocol.readSource n s = (.ok chunk, s') ∧ s'.Reliable := by
  obtain ⟨cut, hcut⟩ := h.steady s.source.reads
  unfold Protocol.readSource Exec.focus Source.recv
  rw [hcut]
  exact ⟨_, _, rfl, h.steady, h.faultless⟩

theorem Sender.Reliable.sendAll (h : s.Reliable) (data : Bytes) :
    ∃ s', Protocol.sendAll data s = (.ok (), s') ∧ s'.Reliable := by
  unfold Protocol.sendAll
  rw [h.faultless]
  exact ⟨_, rfl, h.steady, h.faultless⟩

theorem Sender.Reliable.sendBody {length : Nat} (h : s.Reliable)
    (hsource : length ≤ s.source.pending.length) :
    ∃ s', Protocol.sendBody length s = (.ok (), s') ∧ s'.Reliable := by
  have hloop := @copyLoop_returns WireError UInt8 Sender Protocol.readSource Protocol.sendAll
    streamChunkBytes (.streamTruncated "stream source ended before its declared length")
    (fun remaining s => s.Reliable ∧ remaining ≤ s.source.pending.length) ?_ length length
    (Nat.le_refl _) s ⟨h, hsource⟩
  · obtain ⟨s', hrun, hready⟩ := hloop
    exact ⟨s', hrun, hready.1⟩
  rintro remaining s ⟨h, hsource⟩ hremaining
  obtain ⟨chunk, s₁, hread, h₁⟩ := h.readSource (min streamChunkBytes remaining)
  obtain ⟨hfollows, -, hend, -, -⟩ := readSource_ok hread
  obtain ⟨s₂, hsend, h₂⟩ := h₁.sendAll chunk
  obtain ⟨-, hsource₂, -⟩ := sendAll_ok hsend
  have hsize := congrArg List.length hfollows.pending
  rw [List.length_append] at hsize
  refine ⟨chunk, s₁, s₂, hread, ?_, hsend, h₂, by rw [hsource₂]; omega⟩
  intro hnil
  have hrest := hend (by unfold streamChunkBytes; omega) hnil
  rw [hnil, hrest, List.length_nil] at hsize
  omega

/-- A source with exactly the declared length is sent. -/
theorem Sender.Reliable.sendStreamFrame {maxFrameBytes maxStreamBytes : Nat} {message : Fields}
    {frame : Bytes} (h : s.Reliable) (hframe : encodeFrame maxFrameBytes message = .ok frame)
    (hlength : streamLength message maxStreamBytes = .ok s.source.pending.length) :
    ∃ s', Protocol.sendStreamFrame maxFrameBytes maxStreamBytes message true s = (.ok (), s') := by
  unfold Protocol.sendStreamFrame
  rw [hlength]
  show ∃ s', (sendFrame maxFrameBytes message >>= fun _ => _) s = (.ok (), s')
  obtain ⟨s₁, hsend, h₁⟩ := h.sendAll frame
  have hsendFrame : sendFrame maxFrameBytes message s = (.ok (), s₁) := by
    unfold sendFrame
    rw [hframe]
    exact hsend
  obtain ⟨-, hsource₁, -⟩ := sendAll_ok hsend
  rw [Exec.bind_of_ok hsendFrame]
  obtain ⟨s₂, hbody, h₂⟩ := h₁.sendBody (Nat.le_of_eq (by rw [hsource₁]))
  rw [Exec.bind_of_ok hbody]
  obtain ⟨data, hdata, hfollows, -⟩ := sendBody_ok hbody
  have hrest : s₂.source.pending = [] := by
    have hsize := congrArg List.length hfollows.pending
    rw [List.length_append, hdata, hsource₁] at hsize
    exact List.length_eq_zero_iff.mp (by omega)
  unfold requireSourceEnd
  rw [if_pos rfl]
  obtain ⟨extra, s₃, hread, -⟩ := h₂.readSource 1
  rw [Exec.bind_of_ok hread]
  have hextra : extra = [] := by
    have hpending := (readSource_ok hread).1.pending
    rw [hrest] at hpending
    exact (List.append_eq_nil_iff.mp hpending.symm).1
  rw [hextra]
  exact ⟨s₃, rfl⟩

end Sending

/-! ## What a receiver has received -/

section Receiving

variable {s s' : Receiver} {chunk : Bytes}

theorem receive_ok {n : Nat} {e : WireError} (h : receive n e s = (.ok chunk, s')) :
    s.connection.Follows s'.connection chunk ∧ chunk.length ≤ n ∧
      (0 < n → chunk = [] → s'.connection.pending = []) ∧ s'.spool = s.spool := by
  unfold receive Exec.focus at h
  rcases hrecv : Source.recv n s.connection with ⟨e' | found, connection⟩
  · rw [hrecv] at h
    cases h
  · rw [hrecv] at h
    cases h
    obtain ⟨hfollows, hlength, hend⟩ := Source.recv_ok hrecv
    exact ⟨hfollows, hlength, hend, rfl⟩

theorem writeSpool_ok {data : Bytes} (h : writeSpool data s = (.ok (), s')) :
    s'.connection = s.connection ∧ s'.spool.content = s.spool.content ++ data := by
  unfold writeSpool at h
  split at h
  · cases h
  · cases h
    exact ⟨rfl, rfl⟩

theorem receiveBody_ok {length : Nat} (h : receiveBody length s = (.ok (), s')) :
    ∃ data, data.length = length ∧ s.connection.Follows s'.connection data ∧
      s'.spool.content = s.spool.content ++ data := by
  apply copyLoop_ok _ _ (Nat.le_refl _) h
  · exact fun s => ⟨⟨rfl, rfl⟩, (List.append_nil _).symm⟩
  · intro n s chunk s₁ s₂ hread hwrite
    obtain ⟨hfollows, hlength, -, hspool⟩ := receive_ok hread
    obtain ⟨hconnection₂, hcontent₂⟩ := writeSpool_ok hwrite
    refine ⟨hlength, ?_⟩
    rintro data s' ⟨hrest, hcontent₃⟩
    rw [hconnection₂] at hrest
    refine ⟨hfollows.trans hrest, ?_⟩
    rw [hcontent₃, hcontent₂, hspool, List.append_assoc]

/-- A receiver that returns has stored exactly what the peer sent before it ended the stream. -/
theorem receiveStreamPayload_ok {maxStreamBytes : Nat} {length : Int}
    (h : receiveStreamPayload maxStreamBytes length true s = (.ok (), s')) :
    length = s.connection.pending.length ∧
      s'.spool.content = s.spool.content ++ s.connection.pending := by
  unfold receiveStreamPayload at h
  split at h
  · cases h
  next hpositive =>
  split at h
  · cases h
  obtain ⟨_, s₁, hbody, h⟩ := Exec.bind_eq_ok h
  obtain ⟨data, hdata, hfollows, hcontent⟩ := receiveBody_ok hbody
  obtain ⟨_, s₂, hflush, hlast⟩ := Exec.bind_eq_ok h
  have hflushed : s₂ = s₁ := by
    unfold flushSpool at hflush
    split at hflush
    · cases hflush
    · cases hflush
      rfl
  subst hflushed
  unfold requireEnd at hlast
  rw [if_pos rfl] at hlast
  obtain ⟨extra, s₃, hread, hempty⟩ := Exec.bind_eq_ok hlast
  obtain ⟨hfollows₃, -, hend, hspool⟩ := receive_ok hread
  obtain ⟨hextra, rfl⟩ := Exec.ensure_eq_ok hempty
  have hnil : extra = [] := List.isEmpty_iff.mp hextra
  have hpending : s.connection.pending = data := by
    rw [hfollows.pending, hfollows₃.pending, hnil, hend (by decide) hnil]
    simp
  rw [hpending]
  refine ⟨by omega, ?_⟩
  rw [hspool, hcontent]

/-- Nothing fails on this side. -/
structure Receiver.Reliable (s : Receiver) : Prop where
  steady : s.connection.Steady
  writes : ∀ n, s.spool.faults.write n = false
  flush : s.spool.faults.flush = false

theorem Receiver.Reliable.receive (h : s.Reliable) (n : Nat) (e : WireError) :
    ∃ chunk s', Protocol.receive n e s = (.ok chunk, s') ∧ s'.Reliable := by
  obtain ⟨cut, hcut⟩ := h.steady s.connection.reads
  unfold Protocol.receive Exec.focus Source.recv
  rw [hcut]
  exact ⟨_, _, rfl, h.steady, h.writes, h.flush⟩

theorem Receiver.Reliable.writeSpool (h : s.Reliable) (data : Bytes) :
    ∃ s', Protocol.writeSpool data s = (.ok (), s') ∧ s'.Reliable := by
  unfold Protocol.writeSpool
  rw [h.writes]
  exact ⟨_, rfl, h.steady, h.writes, h.flush⟩

theorem Receiver.Reliable.receiveBody {length : Nat} (h : s.Reliable)
    (hpending : length ≤ s.connection.pending.length) :
    ∃ s', Protocol.receiveBody length s = (.ok (), s') ∧ s'.Reliable := by
  have hloop := @copyLoop_returns WireError UInt8 Receiver
    (Protocol.receive · (.streamTruncated "stream ended before its declared length"))
    Protocol.writeSpool streamChunkBytes
      (.streamTruncated "stream ended before its declared length")
    (fun remaining s => s.Reliable ∧ remaining ≤ s.connection.pending.length) ?_ length length
    (Nat.le_refl _) s ⟨h, hpending⟩
  · obtain ⟨s', hrun, hready⟩ := hloop
    exact ⟨s', hrun, hready.1⟩
  rintro remaining s ⟨h, hpending⟩ hremaining
  obtain ⟨chunk, s₁, hread, h₁⟩ := h.receive (min streamChunkBytes remaining) _
  obtain ⟨hfollows, -, hend, -⟩ := receive_ok hread
  obtain ⟨s₂, hwrite, h₂⟩ := h₁.writeSpool chunk
  obtain ⟨hconnection₂, -⟩ := writeSpool_ok hwrite
  have hsize := congrArg List.length hfollows.pending
  rw [List.length_append] at hsize
  refine ⟨chunk, s₁, s₂, hread, ?_, hwrite, h₂, by rw [hconnection₂]; omega⟩
  intro hnil
  have hrest := hend (by unfold streamChunkBytes; omega) hnil
  rw [hnil, hrest, List.length_nil] at hsize
  omega

/-- A stream of exactly the declared length is stored. -/
theorem Receiver.Reliable.receiveStreamPayload {maxStreamBytes : Nat} (h : s.Reliable)
    (hpositive : 0 < s.connection.pending.length)
    (hbounded : s.connection.pending.length ≤ maxStreamBytes) (requireEof : Bool) :
    ∃ s', Protocol.receiveStreamPayload maxStreamBytes s.connection.pending.length requireEof s =
      (.ok (), s') ∧ s'.spool.content = s.spool.content ++ s.connection.pending := by
  unfold Protocol.receiveStreamPayload
  rw [if_neg (by omega), if_neg (by omega), Int.toNat_natCast]
  obtain ⟨s₁, hbody, h₁⟩ := h.receiveBody (Nat.le_refl _)
  rw [Exec.bind_of_ok hbody]
  obtain ⟨data, hdata, hfollows, hcontent⟩ := receiveBody_ok hbody
  have hrest : s₁.connection.pending = [] := by
    have hsize := congrArg List.length hfollows.pending
    rw [List.length_append, hdata] at hsize
    exact List.length_eq_zero_iff.mp (by omega)
  have hpending : s.connection.pending = data := by
    rw [hfollows.pending, hrest, List.append_nil]
  have hflush : flushSpool s₁ = (.ok (), s₁) := by
    unfold flushSpool
    rw [h₁.flush]
    rfl
  rw [Exec.bind_of_ok hflush, hpending]
  unfold requireEnd
  cases requireEof with
  | false => exact ⟨s₁, rfl, hcontent⟩
  | true =>
      obtain ⟨extra, s₂, hread, -⟩ := h₁.receive 1 (.stream "cannot verify end of request stream")
      obtain ⟨hfollows₂, -, -, hspool⟩ := receive_ok hread
      have hextra : extra = [] := by
        have hnone := hfollows₂.pending
        rw [hrest] at hnone
        exact (List.append_eq_nil_iff.mp hnone.symm).1
      rw [if_pos rfl, Exec.bind_of_ok hread, hextra]
      refine ⟨s₂, rfl, ?_⟩
      rw [hspool]
      exact hcontent

end Receiving

/-! ## A whole transfer -/

theorem streamLength_ok {message : Fields} {maximum length : Nat}
    (h : streamLength message maximum = .ok length) : 0 < length ∧ length ≤ maximum := by
  unfold streamLength at h
  split at h
  · split at h
    · cases h
    split at h
    · cases h
    · cases h
      omega
  · cases h

/-- What a peer with a source of the declared length sends arrives as it is, in every chunking. -/
theorem transfer_exact {env : FrameEnv} {maxFrameBytes maxStreamBytes length : Nat}
    {message : Fields}
    (hreads : ReadsBack env message) {frame : Bytes}
    (hframe : encodeFrame maxFrameBytes message = .ok frame)
    (hlength : streamLength message maxStreamBytes = .ok length) {s : Sender} (hs : s.Reliable)
    (hsent : s.sent = []) {cuts : Nat → Except WireError Nat} (hcuts : ∀ n, ∃ cut, cuts n = .ok cut)
    {spool : Spool} (hwrite : ∀ n, spool.faults.write n = false)
    (hflush : spool.faults.flush = false)
    (hempty : spool.content = []) (hsource : s.source.pending.length = length) (requireEof : Bool) :
    ∃ s' c' r', sendStreamFrame maxFrameBytes maxStreamBytes message true s = (.ok (), s') ∧
      receiveFrame env maxFrameBytes ⟨s'.sent, cuts, 0⟩ = (.ok (Json.sortFields message), c') ∧
      receiveStreamPayload maxStreamBytes length requireEof ⟨c', spool⟩ = (.ok (), r') ∧
      r'.spool.content = s.source.pending := by
  rw [← hsource] at hlength
  obtain ⟨s', hsend⟩ := hs.sendStreamFrame hframe hlength
  obtain ⟨frame', hframe', -, hdata⟩ := sendStreamFrame_ok hsend
  rw [hframe] at hframe'
  cases hframe'
  rw [hsent, List.nil_append] at hdata
  obtain ⟨c', hreceive, hrest, hc'⟩ := @frameFrom_eq env maxFrameBytes message frame
    ⟨s'.sent, cuts, 0⟩ s.source.pending hcuts (encodeFrame_ok hframe) hreads hdata
  have hbounds := streamLength_ok hlength
  have hreliable : Receiver.Reliable ⟨c', spool⟩ := ⟨hc', hwrite, hflush⟩
  rw [← hrest] at hbounds
  obtain ⟨r', hpayload, hcontent⟩ :=
    @Receiver.Reliable.receiveStreamPayload _ maxStreamBytes hreliable
    hbounds.1 hbounds.2 requireEof
  dsimp only at hpayload hcontent
  rw [hrest] at hpayload hcontent
  rw [hempty, List.nil_append] at hcontent
  rw [← hsource]
  exact ⟨s', c', r', hsend, hreceive, hpayload, hcontent⟩

/-- Any other source makes the sender raise, whatever else fails. -/
theorem sendStreamFrame_raises {maxFrameBytes maxStreamBytes length : Nat} {message : Fields}
    (hlength : streamLength message maxStreamBytes = .ok length) {s : Sender}
    (hsource : s.source.pending.length ≠ length) :
    ∃ e s', sendStreamFrame maxFrameBytes maxStreamBytes message true s = (.error e, s') := by
  rcases hrun : sendStreamFrame maxFrameBytes maxStreamBytes message true s with ⟨e | u, s'⟩
  · exact ⟨e, s', rfl⟩
  · obtain ⟨frame, -, hlength', -⟩ := sendStreamFrame_ok hrun
    rw [hlength] at hlength'
    exact absurd (Except.ok.inj hlength').symm hsource

end MaddyWeb.Protocol
