import MaddyWeb.Protocol.Transfer

/-!
# One connection of the helper

An upload is received into a spool before the request is dispatched, a download is sent from
a spool, and both spools are closed and removed when the connection ends.
-/

namespace MaddyWeb.Helper.Connection

open MaddyWeb.Library MaddyWeb.Protocol

/-! ## Dispatch -/

/-- What the handler of a request does: it responds or raises (`failure` is the response that
`_safe_error` leads to), or it is `messages.get` with what `dump_message_to` has written. -/
inductive Outcome
  | respond (response : Response)
  | download (dumped : Option Bytes) (failure : Response)

/-- The dispatcher; no operation has both an upload and a download. -/
structure Dispatcher where
  preflight : Request → Option Response
  outcome : Request → Option Bytes → Outcome
  oneWay : ∀ request content, ∃ response, outcome request (some content) = .respond response

/-- The connection in both directions, the files of the spools, whether the variables
`input_spool` and `output_spool` are set, and the calls of `dispatch` with the content of their
input spool. -/
structure Server where
  connection : Peer
  outgoing : Sender
  input : Option Spool
  output : Option Spool
  holdsInput : Bool
  holdsOutput : Bool
  dispatched : List (Request × Option Bytes)
  inputFaults : SpoolFaults
  outputFaults : SpoolFaults
  readCuts : Nat → Except WireError Nat

abbrev Serving (α : Type) := Exec Server WireError α

def onConnection {α : Type} (m : Exec Peer WireError α) : Serving α :=
  Exec.focus Server.connection (fun s connection => { s with connection }) id m

def onOutgoing {α : Type} (m : Sending α) : Serving α :=
  Exec.focus Server.outgoing (fun s outgoing => { s with outgoing }) id m

/-- The new file of `TrustedSpool.create`. -/
def newSpool (faults : SpoolFaults) : Spool := ⟨[], true, true, 0, faults⟩

/-- `TrustedSpool.create`; the file of `mkstemp` is there when a later step fails. -/
def createSpool (faults : Server → SpoolFaults) (place : Server → Spool → Server) : Serving Unit :=
  fun s =>
    match (faults s).create with
    | some .directory => (.error (.runtime "configured spool directory is unavailable"), s)
    | some .mkstemp => (.error .os, s)
    | some .chmod | some .fdopen => (.error .os, place s (newSpool (faults s)))
    | none => (.ok (), place s (newSpool (faults s)))

def createInput : Serving Unit :=
  createSpool Server.inputFaults fun s spool => { s with input := some spool }

def createOutput : Serving Unit :=
  createSpool Server.outputFaults fun s spool => { s with output := some spool }

/-- A closed file; it is removed also when `handle.close` fails. -/
def closedSpool (faults : SpoolFaults) (spool : Spool) : Spool :=
  { spool with isOpen := false, onDisk := faults.unlink }

/-- `TrustedSpool.close` -/
def closeSpool (faults : Server → SpoolFaults) (change : Server → (Spool → Spool) → Server) :
    Serving Unit := fun s =>
  let s' := change s (closedSpool (faults s))
  if (faults s).close || (faults s).unlink then (.error .os, s') else (.ok (), s')

def closeInput : Serving Unit :=
  closeSpool Server.inputFaults fun s f => { s with input := s.input.map f }

def closeOutput : Serving Unit :=
  closeSpool Server.outputFaults fun s f => { s with output := s.output.map f }

/-- `TrustedSpool.rewind` -/
def rewindSpool (faults : Server → SpoolFaults) : Serving Unit := fun s =>
  if (faults s).rewind then (.error .os, s) else (.ok (), s)

def maxMessageBytes : Nat := 32 * 1024 * 1024

/-- What `_messages_get` does with its spool. -/
def dump (dumped : Option Bytes) : Serving Unit :=
  match dumped with
  | none => Exec.raise (.runtime "Maddy command failed")
  | some content =>
      if 1 ≤ content.length ∧ content.length ≤ maxMessageBytes then
        Exec.update fun s => { s with output := s.output.map fun spool => { spool with content } }
      else Exec.raise (.runtime "Maddy returned an invalid message stream length")

/-- `try: m except Exception: output.close(); raise` -/
def closingOutput {α : Type} (m : Serving α) : Serving α :=
  Exec.handle m fun e => do
    closeOutput
    Exec.raise e

/-- `_messages_get`, and what `dispatch` does with the spool that it returns. -/
def download (request : Request) (dumped : Option Bytes) : Serving Response := do
  createOutput
  closingOutput (dump dumped)
  rewindSpool Server.outputFaults
  let response ← closingOutput (Exec.ofExcept (Response.success (some (.str request.requestId))
    (.obj [("stream", .bool true)]) (some (.int (dumped.getD []).length))))
  Exec.update fun s => { s with holdsOutput := true }
  return response

/-- The content of the spool that `dispatch` is called with. -/
def inputContent (s : Server) : Option Bytes :=
  if s.holdsInput then s.input.map (·.content) else none

/-- `PrivilegedDispatcher.dispatch` -/
def dispatch (dispatcher : Dispatcher) (request : Request) : Serving Response := do
  let content ← Exec.inspect inputContent
  Exec.update fun s => { s with dispatched := s.dispatched ++ [(request, content)] }
  match dispatcher.outcome request content with
  | .respond response => return response
  | .download dumped failure => Exec.handle (download request dumped) fun _ => return failure

/-! ## The connection -/

structure Config where
  env : FrameEnv
  maxFrameBytes : Nat
  maxStreamBytes : Nat
  /-- `_verify_peer` -/
  verified : Bool

/-- `receive_stream_payload` into the input spool. -/
def receiveUpload (config : Config) (length : Int) : Serving Unit := do
  Exec.ensure (decide (length ≤ config.maxStreamBytes))
    (.stream "request stream exceeds configured limit")
  createInput
  Exec.update fun s => { s with holdsInput := true }
  Exec.focus (fun s : Server => (⟨s.connection, s.input.getD (newSpool s.inputFaults)⟩ : Receiver))
    (fun s receiver => { s with connection := receiver.connection, input := some receiver.spool })
    id
    (receiveStreamPayload config.maxStreamBytes length true)
  rewindSpool Server.inputFaults

/-- The file of the output spool, from its beginning. -/
def openOutput (s : Server) : Server :=
  { s with outgoing := { s.outgoing with
    source := ⟨((s.output.map (·.content)).getD []), s.readCuts, 0⟩ } }

/-- The dispatch, and the sending of its result. -/
def respond (config : Config) (dispatcher : Dispatcher) (request : Request) : Serving Unit := do
  let response ← dispatch dispatcher request
  let streams ← Exec.inspect Server.holdsOutput
  if streams then do
    Exec.update openOutput
    onOutgoing (sendStreamFrame config.maxFrameBytes config.maxStreamBytes response.toPayload true)
  else onOutgoing (sendFrame config.maxFrameBytes response.toPayload)

/-- A request with an upload is authorized before its body is received. -/
def serveRequest (config : Config) (dispatcher : Dispatcher) (request : Request) : Serving Unit :=
  match request.streamLength with
  | none => respond config dispatcher request
  | some length =>
      match dispatcher.preflight request with
      | some failure => onOutgoing (sendFrame config.maxFrameBytes failure.toPayload)
      | none => do
          receiveUpload config length
          respond config dispatcher request

def serveBody (config : Config) (dispatcher : Dispatcher) : Serving Unit := do
  Exec.ensure config.verified (.protocol "UNIX peer uid is not authorized")
  let fields ← onConnection (receiveFrame config.env config.maxFrameBytes)
  let request ← Exec.ofExcept (Request.fromPayload fields)
  serveRequest config dispatcher request

/-- `except (ConnectionClosed, ProtocolError, StreamError, OSError)` -/
def isCaught : WireError → Bool
  | .value _ | .struct | .runtime _ => false
  | _ => true

/-- `if spool is not None: spool.close()` -/
def closeHeld (holds : Bool) (close : Serving Unit) : Serving Unit :=
  if holds then close else return ()

/-- The `finally` of `serve_connection`. -/
def cleanup : Serving Unit := do
  let holdsInput ← Exec.inspect Server.holdsInput
  closeHeld holdsInput closeInput
  let holdsOutput ← Exec.inspect Server.holdsOutput
  closeHeld holdsOutput closeOutput

/-- `UnixHelperServer.serve_connection` -/
def serveConnection (config : Config) (dispatcher : Dispatcher) : Serving Unit :=
  Exec.finallyDo
    (Exec.handle (serveBody config dispatcher) fun e =>
      if isCaught e then return () else Exec.raise e) cleanup

end MaddyWeb.Helper.Connection
