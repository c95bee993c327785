import MaddyWeb.Helper.Cleanup

/-!
# Streams are exact or rejected

Uploads and downloads move exactly the declared bytes.  The spools are gone after every
connection unless a step fails between their creation and the moment a variable holds them.
-/

namespace MaddyWeb.Helper.Connection

open MaddyWeb.Library MaddyWeb.Protocol

/-! ## Runs that lose a spool -/

section Lost

/-- A request that announces one byte. -/
def uploadRequest : Request :=
  ⟨"a", "messages.append", [], none, some 1, by decide, by decide, rfl, isAuthToken_none, by decide⟩

def downloadRequest : Request :=
  ⟨"a", "messages.get", [], none, none, by decide, by decide, rfl, isAuthToken_none,
    isPositive_none⟩

def failedResponse : Response :=
  ⟨"a", false, .null, some ⟨"failed", "Operation failed", by decide, by decide⟩, none, by decide,
    rfl, Response.isStream_none, isPositive_none, Response.isMarked_null, Response.validated_null⟩

/-- A message of one byte is there, and everything else fails. -/
def oneByteDispatcher : Dispatcher where
  preflight _ := none
  outcome
    | _, none => .download (some [0]) failedResponse
    | _, some _ => .respond failedResponse
  oneWay _ _ := ⟨failedResponse, rfl⟩

def configOf (request : Request) : Config :=
  ⟨⟨fun _ => some (.obj request.toPayload)⟩, 128, 8, true⟩

def serverOf (connection : Peer) (inputFaults outputFaults : SpoolFaults) : Server :=
  ⟨connection, ⟨⟨[], fun _ => .ok 0, 0⟩, [], 0, fun _ => none⟩, none, none, false, false, [],
    inputFaults, outputFaults, fun _ => .ok 63⟩

/-- The peer sends the control frame and nothing else. -/
def framePeer : Peer := ⟨packLength 2 ++ [123, 125], fun _ => .ok 63, 0⟩

def endedPeer : Peer := ⟨[], fun _ => .ok 63, 2⟩

/-- The server after the connection. -/
def afterRequest (request : Request) (inputFaults outputFaults : SpoolFaults) : Server :=
  (serveConnection (configOf request) oneByteDispatcher
    (serverOf framePeer inputFaults outputFaults)).2

variable {inputFaults outputFaults : SpoolFaults}

theorem afterRequest_eq {request : Request}
    (hframe : receiveFrame (configOf request).env 128 framePeer =
      (.ok request.toPayload, endedPeer))
    (hrequest : Request.fromPayload request.toPayload = .ok request) :
    afterRequest request inputFaults outputFaults =
      (cleanup (serveRequest (configOf request) oneByteDispatcher request
        (serverOf endedPeer inputFaults outputFaults)).2).2 := by
  have hbody : serveBody (configOf request) oneByteDispatcher
      (serverOf framePeer inputFaults outputFaults) =
        serveRequest (configOf request) oneByteDispatcher
        request (serverOf endedPeer inputFaults outputFaults) := by
    have hread : onConnection (receiveFrame (configOf request).env 128)
        (serverOf framePeer inputFaults outputFaults) =
          (.ok request.toPayload, serverOf endedPeer inputFaults outputFaults) := by
      unfold onConnection
      apply Exec.focus_of_ok
      exact hframe
    unfold serveBody
    apply Exec.ensure_bind_of rfl
    apply (Exec.bind_of_ok hread).trans
    rw [hrequest]
    rfl
  unfold afterRequest
  rw [serveConnection_state, hbody]

theorem cleanup_output {s : Server} (hinput : s.holdsInput = false) :
    (cleanup s).2.output =
      if s.holdsOutput then s.output.map (closedSpool s.outputFaults) else s.output := by
  unfold cleanup
  rw [Exec.inspect_bind, hinput]
  show (closeHeld s.holdsOutput closeOutput s).2.output = _
  rcases s.holdsOutput with - | -
  · rfl
  · show (closeOutput s).2.output = _
    unfold closeOutput
    rw [closeSpool_state]
    rfl

theorem respond_spools (config : Config) {dispatcher : Dispatcher} {request : Request}
    {s s' : Server} {response : Response} (h : dispatch dispatcher request s = (.ok response, s')) :
    spools (respond config dispatcher request s).2 = spools s' := by
  have hsent (m : Sending Unit) (s : Server) : spools (onOutgoing m s).2 = spools s := by
    unfold onOutgoing Exec.focus
    rcases m s.outgoing with ⟨e | a, outgoing⟩
    · rfl
    · rfl
  unfold respond
  rw [Exec.bind_of_ok h, Exec.inspect_bind]
  rcases s'.holdsOutput with - | -
  · exact hsent _ s'
  · exact hsent _ (openOutput s')

theorem upload_stays (h : ¬ Removable inputFaults) :
    ∃ spool ∈ (afterRequest uploadRequest inputFaults outputFaults).input, spool.onDisk = true := by
  rw [afterRequest_eq rfl rfl]
  obtain ⟨create, write, flush, rewind, close, unlink⟩ := inputFaults
  match create, unlink with
  | some .directory, _ => exact absurd ⟨nofun, nofun, nofun⟩ h
  | some .mkstemp, _ => exact absurd ⟨nofun, nofun, nofun⟩ h
  | some .chmod, _ => exact ⟨_, rfl, rfl⟩
  | some .fdopen, _ => exact ⟨_, rfl, rfl⟩
  | none, false => exact absurd ⟨nofun, nofun, fun _ => rfl⟩ h
  | none, true =>
      cases close with
      | false => exact ⟨_, rfl, rfl⟩
      | true => exact ⟨_, rfl, rfl⟩

theorem afterRequest_output {s' : Server} {response : Response}
    (hrun : dispatch oneByteDispatcher downloadRequest
      (serverOf endedPeer inputFaults outputFaults) =
      (.ok response, s')) (hholds : s'.holdsInput = false) :
    (afterRequest downloadRequest inputFaults outputFaults).output =
      if s'.holdsOutput then s'.output.map (closedSpool s'.outputFaults) else s'.output := by
  have hspools := respond_spools (configOf downloadRequest) hrun
  simp only [spools, Prod.mk.injEq] at hspools
  obtain ⟨-, houtput, hholdsInput, hholdsOutput, -, -, hfaults⟩ := hspools
  rw [afterRequest_eq rfl rfl]
  show (cleanup (respond (configOf downloadRequest) oneByteDispatcher downloadRequest
    (serverOf endedPeer inputFaults outputFaults)).2).2.output = _
  rw [cleanup_output (hholdsInput.trans hholds), hholdsOutput, houtput, hfaults]

theorem download_stays
    (h : ¬ Removable outputFaults ∨ outputFaults.create = none ∧ outputFaults.rewind = true) :
    ∃ spool ∈ (afterRequest downloadRequest inputFaults outputFaults).output,
      spool.onDisk = true := by
  obtain ⟨create, write, flush, rewind, close, unlink⟩ := outputFaults
  match create, rewind, unlink with
  | some .directory, _, _ =>
      obtain h | ⟨hcreate, -⟩ := h
      · exact absurd ⟨nofun, nofun, nofun⟩ h
      · cases hcreate
  | some .mkstemp, _, _ =>
      obtain h | ⟨hcreate, -⟩ := h
      · exact absurd ⟨nofun, nofun, nofun⟩ h
      · cases hcreate
  | some .chmod, _, _ =>
      rw [afterRequest_output rfl rfl]
      exact ⟨_, rfl, rfl⟩
  | some .fdopen, _, _ =>
      rw [afterRequest_output rfl rfl]
      exact ⟨_, rfl, rfl⟩
  | none, true, _ =>
      rw [afterRequest_output rfl rfl]
      exact ⟨_, rfl, rfl⟩
  | none, false, false =>
      obtain h | ⟨-, hrewind⟩ := h
      · exact absurd ⟨nofun, nofun, fun _ => rfl⟩ h
      · cases hrewind
  | none, false, true =>
      rw [afterRequest_output rfl rfl]
      exact ⟨_, rfl, rfl⟩

end Lost

/-- Uploads and downloads are exact or fail, and the spools are gone after every connection if
and only if no step between `mkstemp` and the end of the spool's life loses one. -/
theorem streams_exact_and_removed (inputFaults outputFaults : SpoolFaults) :
    (∀ (config : Config) (dispatcher : Dispatcher) (s : Server), Fresh s.connection s →
      ∀ entry ∈ (serveConnection config dispatcher s).2.dispatched, ∀ content ∈ entry.2,
        Uploaded config dispatcher s.connection entry.1 content) ∧
    (∀ (env : FrameEnv) (maxFrameBytes maxStreamBytes length : Nat) (message : Fields)
      (frame : Bytes)
      (s : Sender) (cuts : Nat → Except WireError Nat) (spool : Spool) (requireEof : Bool),
      ReadsBack env message → encodeFrame maxFrameBytes message = .ok frame →
      streamLength message maxStreamBytes = .ok length → s.Reliable → s.sent = [] →
      (∀ n, ∃ cut, cuts n = .ok cut) → (∀ n, spool.faults.write n = false) →
      spool.faults.flush = false → spool.content = [] → s.source.pending.length = length →
      ∃ s' c' r', sendStreamFrame maxFrameBytes maxStreamBytes message true s = (.ok (), s') ∧
        receiveFrame env maxFrameBytes ⟨s'.sent, cuts, 0⟩ = (.ok (Json.sortFields message), c') ∧
        receiveStreamPayload maxStreamBytes length requireEof ⟨c', spool⟩ = (.ok (), r') ∧
        r'.spool.content = s.source.pending) ∧
    (∀ (maxFrameBytes maxStreamBytes length : Nat) (message : Fields) (s : Sender),
      streamLength message maxStreamBytes = .ok length → s.source.pending.length ≠ length →
      ∃ e s', sendStreamFrame maxFrameBytes maxStreamBytes message true s = (.error e, s')) ∧
    (∀ (maxStreamBytes : Nat) (length : Int) (r r' : Receiver),
      receiveStreamPayload maxStreamBytes length true r = (.ok (), r') →
      length = r.connection.pending.length ∧
        r'.spool.content = r.spool.content ++ r.connection.pending) ∧
    ((∀ (config : Config) (dispatcher : Dispatcher) (s : Server), Fresh s.connection s →
        s.inputFaults = inputFaults → s.outputFaults = outputFaults →
        AllClosed (serveConnection config dispatcher s).2) ↔
      NoLeak inputFaults outputFaults) := by
  refine ⟨?_, ?_, ?_, ?_, ?_⟩
  · intro config dispatcher s hs
    exact (serveConnection_done hs).2
  · intro env maxFrameBytes maxStreamBytes length message frame s cuts spool requireEof hreads
      hframe
      hlength hs hsent hcuts hwrite hflush hempty hsource
    exact transfer_exact hreads hframe hlength hs hsent hcuts hwrite hflush hempty hsource
      requireEof
  · intro maxFrameBytes maxStreamBytes length message s hlength hsource
    exact sendStreamFrame_raises hlength hsource
  · intro maxStreamBytes length r r' hrun
    exact receiveStreamPayload_ok hrun
  · constructor
    · intro hclosed
      have hafter (request : Request) : AllClosed (afterRequest request inputFaults outputFaults) :=
        hclosed _ _ _ ⟨rfl, rfl, rfl, rfl, rfl, rfl⟩ rfl rfl
      have houtput (h : ¬ Removable outputFaults ∨
          outputFaults.create = none ∧ outputFaults.rewind = true) : False := by
        obtain ⟨spool, hspool, hdisk⟩ := download_stays h
        exact absurd (hdisk.symm.trans ((hafter _).2 spool hspool).2) (by decide)
      constructor
      · by_contra hleak
        obtain ⟨spool, hspool, hdisk⟩ := upload_stays hleak
        exact absurd (hdisk.symm.trans ((hafter _).1 spool hspool).2) (by decide)
      · by_contra hleak
        exact houtput (.inl hleak)
      · intro hcreated
        by_contra hrewind
        exact houtput (.inr ⟨hcreated, by simpa using hrewind⟩)
    · rintro hnoLeak config dispatcher s hs rfl rfl
      have hdone := @serveConnection_done config dispatcher _ s hs
      obtain ⟨hinput, houtput⟩ := serveConnection_faults config dispatcher s
      rw [← hinput, ← houtput] at hnoLeak
      exact hdone.1 hnoLeak

def faultless : SpoolFaults := ⟨none, fun _ => false, false, false, false, false⟩

/-- An upload whose `chmod` fails, and a download that cannot be rewound, stay in the spool
directory. -/
theorem failed_steps_leave_spools :
    (∃ spool ∈ (serveConnection (configOf uploadRequest) oneByteDispatcher
      (serverOf framePeer { faultless with create := some .chmod } faultless)).2.input,
      ¬ Closed spool) ∧
    ∃ spool ∈ (serveConnection (configOf downloadRequest) oneByteDispatcher
      (serverOf framePeer faultless { faultless with rewind := true })).2.output,
        ¬ Closed spool := by
  constructor
  · obtain ⟨spool, hspool, hdisk⟩ :=
      @upload_stays { faultless with create := some .chmod } faultless
      fun h => h.chmod rfl
    exact ⟨spool, hspool, fun hclosed => absurd (hdisk.symm.trans hclosed.2) (by decide)⟩
  · obtain ⟨spool, hspool, hdisk⟩ := @download_stays faultless { faultless with rewind := true }
      (.inr ⟨rfl, rfl⟩)
    exact ⟨spool, hspool, fun hclosed => absurd (hdisk.symm.trans hclosed.2) (by decide)⟩

end MaddyWeb.Helper.Connection
