import MaddyWeb.Helper.Connection

/-!
# What one connection leaves behind

Whatever fails, the body of `serve_connection` is left with every open spool in its variable,
and with a record of exact uploads only; the cleanup then closes what the variables hold.
-/

namespace MaddyWeb.Helper.Connection

open MaddyWeb.Library MaddyWeb.Protocol

/-! ## What holds at every exit -/

def Closed (spool : Spool) : Prop := spool.isOpen = false ∧ spool.onDisk = false

def AllClosed (s : Server) : Prop :=
  (∀ spool ∈ s.input, Closed spool) ∧ ∀ spool ∈ s.output, Closed spool

/-- No step after `mkstemp` fails, and the file can be removed. -/
structure Removable (faults : SpoolFaults) : Prop where
  chmod : faults.create ≠ some .chmod
  fdopen : faults.create ≠ some .fdopen
  unlink : faults.create = none → faults.unlink = false

/-- No spool is lost; the one of a download must also be rewound. -/
structure NoLeak (inputFaults outputFaults : SpoolFaults) : Prop where
  input : Removable inputFaults
  output : Removable outputFaults
  rewind : outputFaults.create = none → outputFaults.rewind = false

theorem closed_of_mem_map {faults : SpoolFaults} (h : faults.unlink = false) {held : Option Spool}
    {spool : Spool} (hspool : spool ∈ held.map (closedSpool faults)) : Closed spool := by
  rw [Option.mem_def, Option.map_eq_some_iff] at hspool
  obtain ⟨other, -, rfl⟩ := hspool
  exact ⟨rfl, h⟩

/-- What `TrustedSpool.create` leaves. -/
theorem createSpool_cases (faults : Server → SpoolFaults) (place : Server → Spool → Server)
    (s : Server) :
    ((faults s).create = none ∧
      createSpool faults place s = (.ok (), place s (newSpool (faults s)))) ∨
    (∃ e, createSpool faults place s = (.error e, s)) ∨
    (¬ Removable (faults s) ∧
      createSpool faults place s = (.error .os, place s (newSpool (faults s)))) := by
  unfold createSpool
  rcases hcreate : (faults s).create with - | step
  · exact .inl ⟨rfl, rfl⟩
  cases step with
  | directory => exact .inr (.inl ⟨_, rfl⟩)
  | mkstemp => exact .inr (.inl ⟨_, rfl⟩)
  | chmod => exact .inr (.inr ⟨fun h => h.chmod hcreate, rfl⟩)
  | fdopen => exact .inr (.inr ⟨fun h => h.fdopen hcreate, rfl⟩)

theorem closeSpool_state (faults : Server → SpoolFaults)
    (change : Server → (Spool → Spool) → Server)
    (s : Server) : (closeSpool faults change s).2 = change s (closedSpool (faults s)) := by
  unfold closeSpool
  dsimp only
  split
  · rfl
  · rfl

/-- A spool that is not closed is held by its variable, and only one is held. -/
structure Tidy (s : Server) : Prop where
  input : s.holdsInput = false → ∀ spool ∈ s.input, Closed spool
  output : s.holdsOutput = false → ∀ spool ∈ s.output, Closed spool
  one : s.holdsInput = true → s.holdsOutput = false
  inputCreated : s.holdsInput = true → s.inputFaults.create = none
  outputCreated : s.holdsOutput = true → s.outputFaults.create = none

section Exits

variable {config : Config} {dispatcher : Dispatcher} {c₀ : Peer}

/-- The peer has sent an authorized control frame for this many bytes, then exactly these bytes,
and then ended the stream. -/
structure Uploaded (config : Config) (dispatcher : Dispatcher) (c₀ : Peer) (request : Request)
    (content : Bytes) : Prop where
  frame : ∃ fields c₁, receiveFrame config.env config.maxFrameBytes c₀ = (.ok fields, c₁) ∧
    Request.fromPayload fields = .ok request ∧ c₁.pending = content
  authorized : dispatcher.preflight request = none
  length : request.streamLength = some (content.length : Int)

/-- Every dispatch with an input spool had an exact upload. -/
def Logged (config : Config) (dispatcher : Dispatcher) (c₀ : Peer) (s : Server) : Prop :=
  ∀ entry ∈ s.dispatched, ∀ content ∈ entry.2, Uploaded config dispatcher c₀ entry.1 content

/-- What holds whenever the body of `serve_connection` is left. -/
def Left (config : Config) (dispatcher : Dispatcher) (c₀ : Peer) (s : Server) : Prop :=
  (NoLeak s.inputFaults s.outputFaults → Tidy s) ∧ Logged config dispatcher c₀ s

/-- The part of the server that is not a connection. -/
def spools (s : Server) :=
  (s.input, s.output, s.holdsInput, s.holdsOutput, s.dispatched, s.inputFaults, s.outputFaults)

theorem Left.congr {s s' : Server} (hs : Left config dispatcher c₀ s) (h : spools s' = spools s) :
    Left config dispatcher c₀ s' := by
  unfold spools at h
  simp only [Prod.mk.injEq] at h
  obtain ⟨hinput, houtput, hholdsInput, hholdsOutput, hdispatched, hinputFaults, houtputFaults⟩ := h
  constructor
  · intro hnoLeak
    rw [hinputFaults, houtputFaults] at hnoLeak
    have htidy := hs.1 hnoLeak
    constructor
    · rw [hholdsInput, hinput]
      exact htidy.input
    · rw [hholdsOutput, houtput]
      exact htidy.output
    · rw [hholdsInput, hholdsOutput]
      exact htidy.one
    · rw [hholdsInput, hinputFaults]
      exact htidy.inputCreated
    · rw [hholdsOutput, houtputFaults]
      exact htidy.outputCreated
  · unfold Logged
    rw [hdispatched]
    exact hs.2

theorem onOutgoing_left {α : Type} (m : Sending α) :
    Exec.Keeps (Left config dispatcher c₀) (onOutgoing m) := by
  intro s hs
  unfold onOutgoing Exec.focus
  rcases m s.outgoing with ⟨e | a, outgoing⟩
  · exact hs.congr rfl
  · exact hs.congr rfl

/-! ### The download -/

/-- No input spool, and no output spool that is held. -/
structure Downloading (config : Config) (dispatcher : Dispatcher) (c₀ : Peer) (s : Server) :
    Prop where
  input : s.input = none
  holdsInput : s.holdsInput = false
  holdsOutput : s.holdsOutput = false
  logged : Logged config dispatcher c₀ s

theorem Downloading.left {s : Server} (h : Downloading config dispatcher c₀ s)
    (houtput : NoLeak s.inputFaults s.outputFaults → ∀ spool ∈ s.output, Closed spool) :
    Left config dispatcher c₀ s := by
  refine ⟨fun hnoLeak => ⟨?_, fun _ => houtput hnoLeak, fun _ => h.holdsOutput, ?_, ?_⟩, h.logged⟩
  · intro _ spool hspool
    rw [h.input] at hspool
    cases hspool
  · intro hholds
    rw [h.holdsInput] at hholds
    cases hholds
  · intro hholds
    rw [h.holdsOutput] at hholds
    cases hholds

/-- The same, once the output spool is there. -/
def Created (config : Config) (dispatcher : Dispatcher) (c₀ : Peer) (s : Server) : Prop :=
  Downloading config dispatcher c₀ s ∧ s.outputFaults.create = none

theorem createOutput_triple :
    Exec.Triple (fun s => Downloading config dispatcher c₀ s ∧ s.output = none) createOutput
      (fun _ => Created config dispatcher c₀) (fun _ => Left config dispatcher c₀) := by
  rintro s ⟨hs, hnone⟩
  have hplaced :
      Downloading config dispatcher c₀ { s with output := some (newSpool s.outputFaults) } :=
    ⟨hs.input, hs.holdsInput, hs.holdsOutput, hs.logged⟩
  unfold createOutput
  obtain ⟨hcreated, hrun⟩ | ⟨e, hrun⟩ | ⟨hleak, hrun⟩ := createSpool_cases Server.outputFaults
    (fun s spool => { s with output := some spool }) s
  · rw [hrun]
    exact ⟨hplaced, hcreated⟩
  · rw [hrun]
    apply hs.left
    intro _ spool hspool
    rw [hnone] at hspool
    cases hspool
  · rw [hrun]
    apply hplaced.left
    intro hnoLeak
    exact absurd hnoLeak.output hleak

theorem closeOutput_triple :
    Exec.Triple (Created config dispatcher c₀) closeOutput
      (fun _ => Left config dispatcher c₀) (fun _ => Left config dispatcher c₀) := by
  apply Exec.Triple.of_state
  rintro s ⟨hs, hcreated⟩
  unfold closeOutput
  rw [closeSpool_state]
  apply Downloading.left
  · exact ⟨hs.input, hs.holdsInput, hs.holdsOutput, hs.logged⟩
  intro hnoLeak spool hspool
  exact closed_of_mem_map (hnoLeak.output.unlink hcreated) hspool

theorem closingOutput_triple {α : Type} {m : Serving α}
    (hm : Exec.Keeps (Created config dispatcher c₀) m) :
    Exec.Triple (Created config dispatcher c₀) (closingOutput m)
      (fun _ => Created config dispatcher c₀) (fun _ => Left config dispatcher c₀) := by
  apply Exec.Triple.handle hm
  intro e
  apply Exec.Triple.bind closeOutput_triple
  intro _
  exact Exec.Triple.raise fun s hs => hs

theorem dump_keeps (dumped : Option Bytes) :
    Exec.Keeps (Created config dispatcher c₀) (dump dumped) := by
  unfold dump
  split
  · exact Exec.Keeps.raise _
  · apply Exec.Keeps.ite
    · apply Exec.Keeps.update
      rintro s ⟨hs, hcreated⟩
      exact ⟨⟨hs.input, hs.holdsInput, hs.holdsOutput, hs.logged⟩, hcreated⟩
    · exact Exec.Keeps.raise _

/-- The output spool that is not rewound is not closed either, unless `NoLeak` excludes it. -/
theorem rewindOutput_triple :
    Exec.Triple (Created config dispatcher c₀) (rewindSpool Server.outputFaults)
      (fun _ => Created config dispatcher c₀) (fun _ => Left config dispatcher c₀) := by
  rintro s ⟨hs, hcreated⟩
  unfold rewindSpool
  rcases hrewind : s.outputFaults.rewind with - | -
  · exact ⟨hs, hcreated⟩
  · apply hs.left
    intro hnoLeak
    rw [hnoLeak.rewind hcreated] at hrewind
    cases hrewind

theorem download_triple (request : Request) (dumped : Option Bytes) :
    Exec.Triple (fun s => Downloading config dispatcher c₀ s ∧ s.output = none)
      (download request dumped) (fun _ => Left config dispatcher c₀)
      (fun _ => Left config dispatcher c₀) := by
  unfold download
  apply Exec.Triple.bind createOutput_triple
  intro _
  apply Exec.Triple.bind (closingOutput_triple (dump_keeps dumped))
  intro _
  apply Exec.Triple.bind rewindOutput_triple
  intro _
  apply Exec.Triple.bind (closingOutput_triple (Exec.Keeps.ofExcept _))
  intro response
  apply @Exec.Triple.bind _ _ _ _ _ (fun _ => Left config dispatcher c₀)
  · apply Exec.Triple.update
    rintro s ⟨hs, hcreated⟩
    refine ⟨fun _ => ⟨?_, nofun, ?_, ?_, fun _ => hcreated⟩, hs.logged⟩
    · intro _ spool hspool
      rw [hs.input] at hspool
      cases hspool
    · intro hholds
      rw [hs.holdsInput] at hholds
      cases hholds
    · intro hholds
      rw [hs.holdsInput] at hholds
      cases hholds
  · intro _
    exact Exec.Triple.ret fun _ hs => hs

/-! ### The dispatch -/

/-- No output spool, and an input spool only in its variable. -/
structure Holding (config : Config) (dispatcher : Dispatcher) (c₀ : Peer) (s : Server) : Prop where
  output : s.output = none
  holdsOutput : s.holdsOutput = false
  input : (s.holdsInput = false ∧ s.input = none) ∨
    (s.holdsInput = true ∧ s.inputFaults.create = none)
  logged : Logged config dispatcher c₀ s

theorem Holding.left {s : Server} (h : Holding config dispatcher c₀ s) :
    Left config dispatcher c₀ s := by
  refine ⟨fun _ => ⟨?_, ?_, fun _ => h.holdsOutput, ?_, ?_⟩, h.logged⟩
  · intro hholds spool hspool
    obtain ⟨-, hnone⟩ | ⟨hholds', -⟩ := h.input
    · rw [hnone] at hspool
      cases hspool
    · exact absurd (hholds'.symm.trans hholds) (by decide)
  · intro _ spool hspool
    rw [h.output] at hspool
    cases hspool
  · intro hholds
    obtain ⟨hholds', -⟩ | ⟨-, hcreated⟩ := h.input
    · exact absurd (hholds'.symm.trans hholds) (by decide)
    · exact hcreated
  · intro hholds
    exact absurd (h.holdsOutput.symm.trans hholds) (by decide)

/-- Before the dispatch: no output spool, and an input spool only for an exact upload. -/
structure Ready (config : Config) (dispatcher : Dispatcher) (c₀ : Peer) (request : Request)
    (s : Server) : Prop where
  output : s.output = none
  holdsOutput : s.holdsOutput = false
  dispatched : s.dispatched = []
  input : (s.holdsInput = false ∧ s.input = none) ∨
    (s.holdsInput = true ∧ s.inputFaults.create = none ∧ ∃ spool, s.input = some spool ∧
      Uploaded config dispatcher c₀ request spool.content)

/-- The call that is recorded is exact. -/
theorem Ready.uploaded {request : Request} {s : Server} (h : Ready config dispatcher c₀ request s)
    {content : Bytes} (hcontent : inputContent s = some content) :
    Uploaded config dispatcher c₀ request content := by
  unfold inputContent at hcontent
  obtain ⟨hholds, -⟩ | ⟨hholds, -, spool, hspool, huploaded⟩ := h.input
  · rw [hholds] at hcontent
    cases hcontent
  · rw [hholds, hspool] at hcontent
    cases hcontent
    exact huploaded

/-- The server once the call is recorded. -/
def recorded (request : Request) (s : Server) : Server :=
  { s with dispatched := s.dispatched ++ [(request, inputContent s)] }

theorem Ready.logged_recorded {request : Request} {s : Server}
    (h : Ready config dispatcher c₀ request s) :
    Logged config dispatcher c₀ (recorded request s) := by
  intro entry hentry content hcontent
  unfold recorded at hentry
  rw [h.dispatched, List.nil_append, List.mem_singleton] at hentry
  subst hentry
  exact h.uploaded hcontent

theorem Ready.left_recorded {request : Request} {s : Server}
    (h : Ready config dispatcher c₀ request s) :
    Left config dispatcher c₀ (recorded request s) := by
  apply Holding.left
  refine ⟨h.output, h.holdsOutput, ?_, h.logged_recorded⟩
  obtain hnone | ⟨hholds, hcreated, -⟩ := h.input
  · exact .inl hnone
  · exact .inr ⟨hholds, hcreated⟩

/-- A call without an input spool finds no spool at all. -/
theorem Ready.downloading {request : Request} {s : Server}
    (h : Ready config dispatcher c₀ request s)
    (hcontent : inputContent s = none) :
    Downloading config dispatcher c₀ (recorded request s) ∧ (recorded request s).output = none := by
  refine ⟨?_, h.output⟩
  obtain ⟨hholds, hnone⟩ | ⟨hholds, -, spool, hspool, -⟩ := h.input
  · exact ⟨hnone, hholds, h.holdsOutput, h.logged_recorded⟩
  · unfold inputContent at hcontent
    rw [hholds, hspool] at hcontent
    cases hcontent

theorem dispatch_triple (request : Request) :
    Exec.Triple (Ready config dispatcher c₀ request) (dispatch dispatcher request)
      (fun _ => Left config dispatcher c₀) (fun _ => Left config dispatcher c₀) := by
  apply Exec.Triple.of_state
  intro s hs
  unfold dispatch
  rw [Exec.inspect_bind, Exec.update_bind]
  rcases houtcome : dispatcher.outcome request (inputContent s) with response | ⟨dumped, failure⟩
  · exact hs.left_recorded
  have hnone : inputContent s = none := by
    rcases hcontent : inputContent s with - | content
    · rfl
    · obtain ⟨response, hrespond⟩ := dispatcher.oneWay request content
      rw [hcontent, hrespond] at houtcome
      cases houtcome
  have hdownload := @download_triple config dispatcher c₀ request dumped _ (hs.downloading hnone)
  show Left config dispatcher c₀
    (Exec.handle (download request dumped) (fun _ => return failure) (recorded request s)).2
  unfold Exec.handle
  rcases hrun : download request dumped (recorded request s) with ⟨e | response, s'⟩
  · rw [hrun] at hdownload
    exact hdownload
  · rw [hrun] at hdownload
    exact hdownload

theorem respond_triple (request : Request) :
    Exec.Triple (Ready config dispatcher c₀ request) (respond config dispatcher request)
      (fun _ => Left config dispatcher c₀) (fun _ => Left config dispatcher c₀) := by
  unfold respond
  apply Exec.Triple.bind (dispatch_triple request)
  intro response
  apply Exec.Keeps.bind (Exec.Keeps.inspect _)
  intro streams
  apply Exec.Keeps.ite
  · apply Exec.Keeps.bind
    · exact Exec.Keeps.update fun s hs => hs.congr rfl
    · intro _
      exact onOutgoing_left _
  · exact onOutgoing_left _

/-! ### The upload -/

/-- The control frame has been read; no spool yet. -/
structure Asked (config : Config) (c₀ : Peer) (request : Request) (s : Server) : Prop where
  frame : ∃ fields, receiveFrame config.env config.maxFrameBytes c₀ = (.ok fields, s.connection) ∧
    Request.fromPayload fields = .ok request
  output : s.output = none
  holdsOutput : s.holdsOutput = false
  dispatched : s.dispatched = []

theorem logged_of_nil {s : Server} (h : s.dispatched = []) : Logged config dispatcher c₀ s := by
  intro entry hentry
  rw [h] at hentry
  cases hentry

theorem Asked.left {request : Request} {s : Server} (h : Asked config c₀ request s)
    (hinput : (s.holdsInput = false ∧ s.input = none) ∨
      (s.holdsInput = true ∧ s.inputFaults.create = none)) : Left config dispatcher c₀ s :=
  Holding.left ⟨h.output, h.holdsOutput, hinput, logged_of_nil h.dispatched⟩

/-- The input spool is there and empty. -/
def Placed (config : Config) (c₀ : Peer) (request : Request) (s : Server) : Prop :=
  Asked config c₀ request s ∧ s.inputFaults.create = none ∧ s.input = some (newSpool s.inputFaults)

theorem createInput_triple (request : Request) :
    Exec.Triple (fun s => Asked config c₀ request s ∧ s.holdsInput = false ∧ s.input = none)
      createInput (fun _ => Placed config c₀ request) (fun _ => Left config dispatcher c₀) := by
  rintro s ⟨hs, hinput⟩
  unfold createInput
  obtain ⟨hcreated, hrun⟩ | ⟨e, hrun⟩ | ⟨hleak, hrun⟩ := createSpool_cases Server.inputFaults
    (fun s spool => { s with input := some spool }) s
  · rw [hrun]
    exact ⟨⟨hs.frame, hs.output, hs.holdsOutput, hs.dispatched⟩, hcreated, rfl⟩
  · rw [hrun]
    exact hs.left (.inl hinput)
  · rw [hrun]
    exact ⟨fun hnoLeak => absurd hnoLeak.input hleak, logged_of_nil hs.dispatched⟩

theorem receiveUpload_triple {request : Request} {length : Int}
    (hpreflight : dispatcher.preflight request = none)
    (hlength : request.streamLength = some length) :
    Exec.Triple (fun s => Asked config c₀ request s ∧ s.holdsInput = false ∧ s.input = none)
      (receiveUpload config length)
      (fun _ => Ready config dispatcher c₀ request) (fun _ => Left config dispatcher c₀) := by
  unfold receiveUpload
  apply Exec.Triple.ensure_bind
  · exact fun s hs => hs.1.left (.inl hs.2)
  intro _
  apply Exec.Triple.bind (createInput_triple request)
  intro _
  apply @Exec.Triple.bind _ _ _ _ _ fun _ s => Placed config c₀ request s ∧ s.holdsInput = true
  · apply Exec.Triple.update
    rintro s ⟨hs, hcreated, hspool⟩
    exact ⟨⟨⟨hs.frame, hs.output, hs.holdsOutput, hs.dispatched⟩, hcreated, hspool⟩, rfl⟩
  intro _
  apply @Exec.Triple.bind _ _ _ _ _ fun _ => Ready config dispatcher c₀ request
  · rintro s ⟨⟨hs, hcreated, hspool⟩, hholds⟩
    unfold Exec.focus
    rcases hrun : receiveStreamPayload config.maxStreamBytes length true
      ⟨s.connection, s.input.getD (newSpool s.inputFaults)⟩ with ⟨e | u, receiver⟩
    · exact Holding.left ⟨hs.output, hs.holdsOutput, .inr ⟨hholds, hcreated⟩,
        logged_of_nil hs.dispatched⟩
    · obtain ⟨hdeclared, hcontent⟩ := receiveStreamPayload_ok hrun
      rw [hspool] at hcontent
      obtain ⟨fields, hframe, hrequest⟩ := hs.frame
      refine ⟨hs.output, hs.holdsOutput, hs.dispatched,
        .inr ⟨hholds, hcreated, receiver.spool, rfl, ?_⟩⟩
      rw [hcontent]
      exact ⟨⟨fields, s.connection, hframe, hrequest, rfl⟩, hpreflight,
        by rw [hlength, hdeclared]; rfl⟩
  · intro _ s hs
    unfold rewindSpool
    rcases s.inputFaults.rewind with - | -
    · exact hs
    · apply Holding.left
      refine ⟨hs.output, hs.holdsOutput, ?_, logged_of_nil hs.dispatched⟩
      obtain hnone | ⟨hholds, hcreated, -⟩ := hs.input
      · exact .inl hnone
      · exact .inr ⟨hholds, hcreated⟩

/-! ### The connection -/

theorem serveRequest_triple (request : Request) :
    Exec.Triple (fun s => Asked config c₀ request s ∧ s.holdsInput = false ∧ s.input = none)
      (serveRequest config dispatcher request)
      (fun _ => Left config dispatcher c₀) (fun _ => Left config dispatcher c₀) := by
  unfold serveRequest
  rcases hlength : request.streamLength with - | length
  · apply (respond_triple request).conseq _ (fun _ _ hs => hs) (fun _ _ hs => hs)
    rintro s ⟨hs, hinput⟩
    exact ⟨hs.output, hs.holdsOutput, hs.dispatched, .inl hinput⟩
  rcases hpreflight : dispatcher.preflight request with - | failure
  · apply Exec.Triple.bind (receiveUpload_triple hpreflight hlength)
    intro _
    exact respond_triple request
  · apply (onOutgoing_left _).conseq _ (fun _ _ hs => hs) (fun _ _ hs => hs)
    exact fun s hs => hs.1.left (.inl hs.2)

/-- A connection that was accepted. -/
structure Fresh (c₀ : Peer) (s : Server) : Prop where
  connection : s.connection = c₀
  input : s.input = none
  output : s.output = none
  holdsInput : s.holdsInput = false
  holdsOutput : s.holdsOutput = false
  dispatched : s.dispatched = []

theorem serveBody_triple :
    Exec.Triple (Fresh c₀) (serveBody config dispatcher)
      (fun _ => Left config dispatcher c₀) (fun _ => Left config dispatcher c₀) := by
  have hleft (s : Server) (hs : Fresh c₀ s) : Left config dispatcher c₀ s :=
    Holding.left ⟨hs.output, hs.holdsOutput, .inl ⟨hs.holdsInput, hs.input⟩,
      logged_of_nil hs.dispatched⟩
  unfold serveBody
  apply Exec.Triple.ensure_bind
  · exact hleft
  intro _ s hs
  unfold onConnection
  rcases hrun : receiveFrame config.env config.maxFrameBytes c₀ with ⟨e | fields, c₁⟩
  all_goals rw [← hs.connection] at hrun
  · rw [Exec.bind_of_error (Exec.focus_of_error hrun)]
    exact (hleft s hs).congr rfl
  · rw [Exec.bind_of_ok (Exec.focus_of_ok hrun)]
    have hnext : Exec.Triple (fun s' => s' = { s with connection := c₁ })
      (Exec.ofExcept (Request.fromPayload fields) >>= serveRequest config dispatcher)
      (fun _ => Left config dispatcher c₀) (fun _ => Left config dispatcher c₀) := by
      apply Exec.Triple.ofExcept_bind
      · rintro e _ rfl
        exact (hleft s hs).congr rfl
      · intro request hrequest
        apply (serveRequest_triple request).conseq _ (fun _ _ hs => hs) (fun _ _ hs => hs)
        rintro _ rfl
        rw [hs.connection] at hrun
        exact ⟨⟨⟨fields, hrun, hrequest⟩, hs.output, hs.holdsOutput, hs.dispatched⟩, hs.holdsInput,
          hs.input⟩
    exact hnext _ rfl

/-- What holds after the connection. -/
def Done (config : Config) (dispatcher : Dispatcher) (c₀ : Peer) (s : Server) : Prop :=
  (NoLeak s.inputFaults s.outputFaults → AllClosed s) ∧ Logged config dispatcher c₀ s

/-- The same but for an output spool in its variable. -/
def InputDone (config : Config) (dispatcher : Dispatcher) (c₀ : Peer) (s : Server) : Prop :=
  (NoLeak s.inputFaults s.outputFaults → (∀ spool ∈ s.input, Closed spool) ∧
    (s.holdsOutput = false → ∀ spool ∈ s.output, Closed spool) ∧
    (s.holdsOutput = true → s.outputFaults.create = none)) ∧ Logged config dispatcher c₀ s

/-- An input spool that cannot be closed keeps no output spool from being closed. -/
theorem closeHeldInput_triple (holds : Bool) :
    Exec.Triple (fun s => Left config dispatcher c₀ s ∧ s.holdsInput = holds)
      (closeHeld holds closeInput)
      (fun _ => InputDone config dispatcher c₀) (fun _ => Done config dispatcher c₀) := by
  cases holds with
  | false =>
      apply Exec.Triple.ret
      rintro s ⟨hs, hholds⟩
      refine ⟨fun hnoLeak => ?_, hs.2⟩
      have htidy := hs.1 hnoLeak
      exact ⟨htidy.input hholds, htidy.output, htidy.outputCreated⟩
  | true =>
      have hboth :
          Exec.Triple (fun s => Left config dispatcher c₀ s ∧ s.holdsInput = true) closeInput
          (fun _ s => InputDone config dispatcher c₀ s ∧ Done config dispatcher c₀ s)
          (fun _ s => InputDone config dispatcher c₀ s ∧ Done config dispatcher c₀ s) := by
        apply Exec.Triple.of_state
        rintro s ⟨hs, hholds⟩
        unfold closeInput
        rw [closeSpool_state]
        have hclosed (hnoLeak : NoLeak s.inputFaults s.outputFaults) (spool : Spool)
            (hspool : spool ∈ s.input.map (closedSpool s.inputFaults)) : Closed spool :=
          closed_of_mem_map (hnoLeak.input.unlink ((hs.1 hnoLeak).inputCreated hholds)) hspool
        refine ⟨⟨fun hnoLeak => ?_, hs.2⟩, fun hnoLeak => ?_, hs.2⟩
        · exact ⟨hclosed hnoLeak, (hs.1 hnoLeak).output, (hs.1 hnoLeak).outputCreated⟩
        · have htidy := hs.1 hnoLeak
          exact ⟨hclosed hnoLeak, htidy.output (htidy.one hholds)⟩
      exact hboth.conseq (fun _ hs => hs) (fun _ _ hs => hs.1) (fun _ _ hs => hs.2)

theorem closeHeldOutput_triple (holds : Bool) :
    Exec.Triple (fun s => InputDone config dispatcher c₀ s ∧ s.holdsOutput = holds)
      (closeHeld holds closeOutput)
      (fun _ => Done config dispatcher c₀) (fun _ => Done config dispatcher c₀) := by
  cases holds with
  | false =>
      apply Exec.Triple.ret
      rintro s ⟨hs, hholds⟩
      refine ⟨fun hnoLeak => ?_, hs.2⟩
      exact ⟨(hs.1 hnoLeak).1, (hs.1 hnoLeak).2.1 hholds⟩
  | true =>
      apply Exec.Triple.of_state
      rintro s ⟨hs, hholds⟩
      show Done config dispatcher c₀ (closeOutput s).2
      unfold closeOutput
      rw [closeSpool_state]
      refine ⟨fun hnoLeak => ?_, hs.2⟩
      obtain ⟨hinput, -, hcreated⟩ := hs.1 hnoLeak
      refine ⟨hinput, fun spool hspool => ?_⟩
      exact closed_of_mem_map (hnoLeak.output.unlink (hcreated hholds)) hspool

theorem cleanup_triple :
    Exec.Triple (Left config dispatcher c₀) cleanup
      (fun _ => Done config dispatcher c₀) (fun _ => Done config dispatcher c₀) := by
  unfold cleanup
  apply @Exec.Triple.bind _ _ _ _ _ fun holds s =>
    Left config dispatcher c₀ s ∧ s.holdsInput = holds
  · exact Exec.Triple.inspect fun s hs => ⟨hs, rfl⟩
  intro holdsInput
  apply Exec.Triple.bind (closeHeldInput_triple holdsInput)
  intro _
  apply @Exec.Triple.bind _ _ _ _ _ fun holds s =>
    InputDone config dispatcher c₀ s ∧ s.holdsOutput = holds
  · exact Exec.Triple.inspect fun s hs => ⟨hs, rfl⟩
  intro holdsOutput
  exact closeHeldOutput_triple holdsOutput

theorem serveConnection_state (config : Config) (dispatcher : Dispatcher) (s : Server) :
    (serveConnection config dispatcher s).2 = (cleanup (serveBody config dispatcher s).2).2 := by
  unfold serveConnection
  rw [Exec.finallyDo_state]
  congr 2
  unfold Exec.handle
  rcases serveBody config dispatcher s with ⟨e | u, s'⟩
  · dsimp only
    rcases isCaught e with - | -
    · rfl
    · rfl
  · rfl

theorem serveConnection_done {s : Server} (hs : Fresh c₀ s) :
    Done config dispatcher c₀ (serveConnection config dispatcher s).2 := by
  rw [serveConnection_state]
  exact cleanup_triple.state (serveBody_triple.state hs)

end Exits

/-! ## The faults stay -/

section Faults

variable {inputFaults outputFaults : SpoolFaults}

def HasFaults (inputFaults outputFaults : SpoolFaults) (s : Server) : Prop :=
  s.inputFaults = inputFaults ∧ s.outputFaults = outputFaults

theorem createInput_faults : Exec.Keeps (HasFaults inputFaults outputFaults) createInput := by
  apply Exec.Triple.of_state
  intro s hs
  unfold createInput createSpool
  rcases s.inputFaults.create with - | step
  · exact hs
  · cases step <;> exact hs

theorem createOutput_faults : Exec.Keeps (HasFaults inputFaults outputFaults) createOutput := by
  apply Exec.Triple.of_state
  intro s hs
  unfold createOutput createSpool
  rcases s.outputFaults.create with - | step
  · exact hs
  · cases step <;> exact hs

theorem closeInput_faults : Exec.Keeps (HasFaults inputFaults outputFaults) closeInput := by
  apply Exec.Triple.of_state
  intro s hs
  unfold closeInput
  rw [closeSpool_state]
  exact hs

theorem closeOutput_faults : Exec.Keeps (HasFaults inputFaults outputFaults) closeOutput := by
  apply Exec.Triple.of_state
  intro s hs
  unfold closeOutput
  rw [closeSpool_state]
  exact hs

theorem rewindSpool_faults (faults : Server → SpoolFaults) :
    Exec.Keeps (HasFaults inputFaults outputFaults) (rewindSpool faults) := by
  apply Exec.Triple.of_state
  intro s hs
  unfold rewindSpool
  rcases (faults s).rewind with - | -
  · exact hs
  · exact hs

theorem focus_faults {τ α : Type} {get : Server → τ} {set : Server → τ → Server}
    (hset : ∀ s t, HasFaults inputFaults outputFaults s →
      HasFaults inputFaults outputFaults (set s t))
    (m : Exec τ WireError α) :
    Exec.Keeps (HasFaults inputFaults outputFaults) (Exec.focus get set id m) := by
  apply Exec.Triple.of_state
  intro s hs
  unfold Exec.focus
  rcases m (get s) with ⟨e | a, t⟩
  · exact hset s t hs
  · exact hset s t hs

theorem onConnection_faults {α : Type} (m : Exec Peer WireError α) :
    Exec.Keeps (HasFaults inputFaults outputFaults) (onConnection m) := by
  apply focus_faults
  intro s t hs
  exact hs

theorem onOutgoing_faults {α : Type} (m : Sending α) :
    Exec.Keeps (HasFaults inputFaults outputFaults) (onOutgoing m) := by
  apply focus_faults
  intro s t hs
  exact hs

theorem closingOutput_faults {α : Type} {m : Serving α}
    (hm : Exec.Keeps (HasFaults inputFaults outputFaults) m) :
    Exec.Keeps (HasFaults inputFaults outputFaults) (closingOutput m) := by
  apply Exec.Triple.handle hm
  intro e
  apply Exec.Keeps.bind closeOutput_faults
  intro _
  exact Exec.Keeps.raise e

theorem dump_faults (dumped : Option Bytes) :
    Exec.Keeps (HasFaults inputFaults outputFaults) (dump dumped) := by
  unfold dump
  split
  · exact Exec.Keeps.raise _
  · apply Exec.Keeps.ite
    · exact Exec.Keeps.update fun s hs => hs
    · exact Exec.Keeps.raise _

theorem download_faults (request : Request) (dumped : Option Bytes) :
    Exec.Keeps (HasFaults inputFaults outputFaults) (download request dumped) := by
  unfold download
  apply Exec.Keeps.bind createOutput_faults
  intro _
  apply Exec.Keeps.bind (closingOutput_faults (dump_faults dumped))
  intro _
  apply Exec.Keeps.bind (rewindSpool_faults _)
  intro _
  apply Exec.Keeps.bind (closingOutput_faults (Exec.Keeps.ofExcept _))
  intro response
  apply Exec.Keeps.bind
  · exact Exec.Keeps.update fun s hs => hs
  · intro _
    exact Exec.Keeps.ret response

theorem dispatch_faults (dispatcher : Dispatcher) (request : Request) :
    Exec.Keeps (HasFaults inputFaults outputFaults) (dispatch dispatcher request) := by
  unfold dispatch
  apply Exec.Keeps.bind (Exec.Keeps.inspect _)
  intro content
  apply Exec.Keeps.bind
  · exact Exec.Keeps.update fun s hs => hs
  intro _
  split
  · exact Exec.Keeps.ret _
  · apply Exec.Triple.handle (download_faults request _)
    intro _
    exact Exec.Keeps.ret _

theorem respond_faults (config : Config) (dispatcher : Dispatcher) (request : Request) :
    Exec.Keeps (HasFaults inputFaults outputFaults) (respond config dispatcher request) := by
  unfold respond
  apply Exec.Keeps.bind (dispatch_faults dispatcher request)
  intro response
  apply Exec.Keeps.bind (Exec.Keeps.inspect _)
  intro streams
  apply Exec.Keeps.ite
  · apply Exec.Keeps.bind
    · exact Exec.Keeps.update fun s hs => hs
    · intro _
      exact onOutgoing_faults _
  · exact onOutgoing_faults _

theorem receiveUpload_faults (config : Config) (length : Int) :
    Exec.Keeps (HasFaults inputFaults outputFaults) (receiveUpload config length) := by
  unfold receiveUpload
  apply Exec.Keeps.bind (Exec.Keeps.ensure _ _)
  intro _
  apply Exec.Keeps.bind createInput_faults
  intro _
  apply Exec.Keeps.bind
  · exact Exec.Keeps.update fun s hs => hs
  intro _
  apply Exec.Keeps.bind
  · apply focus_faults
    intro s t hs
    exact hs
  intro _
  exact rewindSpool_faults _

theorem serveBody_faults (config : Config) (dispatcher : Dispatcher) :
    Exec.Keeps (HasFaults inputFaults outputFaults) (serveBody config dispatcher) := by
  unfold serveBody
  apply Exec.Keeps.bind (Exec.Keeps.ensure _ _)
  intro _
  apply Exec.Keeps.bind (onConnection_faults _)
  intro fields
  apply Exec.Keeps.bind (Exec.Keeps.ofExcept _)
  intro request
  unfold serveRequest
  split
  · exact respond_faults config dispatcher request
  · split
    · exact onOutgoing_faults _
    · apply Exec.Keeps.bind (receiveUpload_faults config _)
      intro _
      exact respond_faults config dispatcher request

theorem cleanup_faults : Exec.Keeps (HasFaults inputFaults outputFaults) cleanup := by
  unfold cleanup closeHeld
  apply Exec.Keeps.bind (Exec.Keeps.inspect _)
  intro holdsInput
  apply Exec.Keeps.bind (Exec.Keeps.ite closeInput_faults (Exec.Keeps.ret ()))
  intro _
  apply Exec.Keeps.bind (Exec.Keeps.inspect _)
  intro holdsOutput
  exact Exec.Keeps.ite closeOutput_faults (Exec.Keeps.ret ())

theorem serveConnection_faults (config : Config) (dispatcher : Dispatcher) (s : Server) :
    HasFaults s.inputFaults s.outputFaults (serveConnection config dispatcher s).2 := by
  rw [serveConnection_state]
  exact cleanup_faults.state ((serveBody_faults config dispatcher).state ⟨rfl, rfl⟩)

end Faults

end MaddyWeb.Helper.Connection
