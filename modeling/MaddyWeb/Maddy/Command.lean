import MaddyWeb.Helper.Errors
import MaddyWeb.Library.Text
import MaddyWeb.Maddy.MessageList

/-!
# Running a Maddy command

`SubprocessRunner.run` collects the two output streams of a command in bounded
buffers; with a sink, standard output goes there and only its first 64 KiB are
kept as a probe.  `MaddyService._invoke` then refuses a command that exited zero
but reported a failure, in either buffer.  `json.loads` and `str` are parameters:
the scan depends on them only through `JsonDecoder`.
-/

namespace MaddyWeb.Maddy.Command

open MaddyWeb.Library MaddyWeb.Library.Text MaddyWeb.Helper.Errors
open MaddyWeb.Maddy.MessageList (maxMessageListOutputBytes)

/-! ## The bounded readers -/

inductive Stream
  | stdout
  | stderr
  deriving DecidableEq, Repr

/-- What one read of a pipe returns before its end: never nothing. -/
abbrev Chunk := { bytes : Bytes // bytes ≠ [] }

/-- The variables that the two reader threads share under their lock. -/
structure Buffers where
  stdout : Bytes := []
  stderr : Bytes := []
  sink : Bytes := []
  stdoutCount : Nat := 0
  stderrCount : Nat := 0
  exceeded : Bool := false
  deriving DecidableEq, Repr

def probeLimit : Nat := 64 * 1024

/-- Keep the accepted part of a chunk. -/
def store (hasSink : Bool) (name : Stream) (data : Bytes) (b : Buffers) : Buffers :=
  match name with
  | .stdout =>
    if hasSink then
      { b with
        sink := b.sink ++ data
        stdout := b.stdout ++ data.take (probeLimit - b.stdout.length)
        stdoutCount := b.stdoutCount + data.length }
    else
      { b with stdout := b.stdout ++ data, stdoutCount := b.stdoutCount + data.length }
  | .stderr => { b with stderr := b.stderr ++ data, stderrCount := b.stderrCount + data.length }

/-- One pass of `reader`. -/
def readChunk (hasSink : Bool) (maxOutputBytes : Nat) (b : Buffers) (event : Stream × Chunk) :
    Buffers :=
  let remaining := maxOutputBytes - (b.stdoutCount + b.stderrCount)
  if remaining < event.2.val.length then
    let kept := if 0 < remaining then store hasSink event.1 (event.2.val.take remaining) b else b
    { kept with exceeded := true }
  else store hasSink event.1 event.2.val b

/-- How a started command ends: the chunks its readers see, in the order of the lock. -/
inductive Process
  | launchError
  | timedOut
  | exited (returncode : Int) (output : List (Stream × Chunk))

structure CommandResult where
  returncode : Int
  stdout : Bytes
  stderr : Bytes
  sink : Bytes
  streamedStdoutBytes : Nat
  deriving DecidableEq, Repr

/-- `SubprocessRunner.run`, for a command without input. -/
def run (process : Process) (hasSink : Bool) (maxOutputBytes : Nat) :
    Except HelperException CommandResult :=
  match process with
  | .launchError => .error .commandLaunch
  | .timedOut => .error .commandTimeout
  | .exited returncode output =>
    let b := output.foldl (readChunk hasSink maxOutputBytes) {}
    if b.exceeded then .error .commandOutputLimit
    else .ok
      { returncode
        stdout := b.stdout
        stderr := b.stderr
        sink := b.sink
        streamedStdoutBytes := if hasSink then b.stdoutCount else 0 }

/-! ## The failure scan -/

/-- What `json.loads` makes of a line; `malformed` is `JSONDecodeError` or `UnicodeDecodeError`,
the two that the scan catches. -/
inductive Loaded (J : Type)
  | value (event : J)
  | malformed
  | raises (e : HelperException)

/-- `json.loads`, `isinstance(event, dict)` with its items, and `str(value).lower()`. -/
structure JsonDecoder (J : Type) where
  loads : Bytes → Loaded J
  items : J → Option (List (String × J))
  lowerStr : J → String

section Scan

variable {J : Type} (decoder : JsonDecoder J)

/-- `b"app.Run failed"` -/
def appRunFailed : Bytes :=
  [0x61, 0x70, 0x70, 0x2E, 0x52, 0x75, 0x6E, 0x20, 0x66, 0x61, 0x69, 0x6C, 0x65, 0x64]

/-- `str(event.get(key, ...)).lower()`, where the default is the empty text. -/
def lowerField (fields : List (String × J)) (key : String) : Option String :=
  (fields.lookup key).map decoder.lowerStr

/-- The tests on one decoded event. -/
def eventReportsFailure (event : J) : Bool :=
  match decoder.items event with
  | none => false
  | some fields =>
    if (fields.lookup "reason").isNone then false
    else
      let level := (lowerField decoder fields "level").getD ""
      let message := ((lowerField decoder fields "msg").or
        (lowerField decoder fields "message")).getD ""
      level == "error" || level == "fatal" || hasSubstring "failed".toList message.toList

/-- The loop over the lines of one stream. -/
def linesReportFailure : List Bytes → Except HelperException Bool
  | [] => .ok false
  | rawLine :: rest =>
    let line := bytesStrip rawLine
    if line.head? = some 0x7B ∧ line.getLast? = some 0x7D then
      match decoder.loads line with
      | .malformed => linesReportFailure rest
      | .raises e => .error e
      | .value event =>
        if eventReportsFailure decoder event then .ok true else linesReportFailure rest
    else linesReportFailure rest

/-- The scan of one stream. -/
def streamReportsFailure (stream : Bytes) : Except HelperException Bool :=
  if hasSubstring appRunFailed stream then .ok true
  else linesReportFailure decoder (bytesSplitlines stream)

/-- `MaddyService._reported_application_failure` -/
def reportedApplicationFailure (result : CommandResult) : Except HelperException Bool := do
  if ← streamReportsFailure decoder result.stdout then return true
  streamReportsFailure decoder result.stderr

/-- `MaddyService._invoke` -/
def invoke (process : Process) (hasSink : Bool) (maxOutputBytes : Nat) :
    Except HelperException CommandResult := do
  let result ← run process hasSink maxOutputBytes
  if result.returncode ≠ 0 then throw .commandFailed
  if ← reportedApplicationFailure decoder result then throw .commandFailed
  return result

/-! ## Dumping a message and listing a mailbox -/

/-- `_safe_positional` -/
def safePositional (value : String) (maxLength : Nat) : Except HelperException Unit :=
  if value.isEmpty || value.length > maxLength || value.startsWith "-" ||
      value.toList.any (fun c => c.toNat < 0x20 || c.toNat == 0x7F)
        then .error .invalidMaddyArgument
  else .ok ()

def maxInputBytes : Nat := 32 * 1024 * 1024

/-- The checks of `dump_message_to`; `require` is the outcome of the version gate. -/
def checkDump (require : Except HelperException Unit) (username mailbox : String) (uid : Int) :
    Except HelperException Unit := do
  require
  safePositional username 254
  safePositional mailbox 255
  if uid ≤ 0 then throw .invalidMaddyArgument

/-- `MaddyService.dump_message`: the content of the buffer that `dump_message_to` fills. -/
def dumpMessage (require : Except HelperException Unit) (username mailbox : String) (uid : Int)
    (process : Process) : Except HelperException Bytes := do
  checkDump require username mailbox uid
  let result ← invoke decoder process true maxInputBytes
  return result.sink

end Scan

/-! ## What the readers keep -/

/-- The buffers after standard output has carried `all` within the limit, and nothing else. -/
structure Received (hasSink : Bool) (all : Bytes) (b : Buffers) : Prop where
  stdout : b.stdout = if hasSink then all.take probeLimit else all
  stderr : b.stderr = []
  sink : b.sink = if hasSink then all else []
  stdoutCount : b.stdoutCount = all.length
  stderrCount : b.stderrCount = 0
  exceeded : b.exceeded = false

theorem readChunk_received {hasSink : Bool} {maxOutputBytes : Nat} {all : Bytes} {b : Buffers}
    (hb : Received hasSink all b) (chunk : Chunk)
    (hlimit : (all ++ chunk.val).length ≤ maxOutputBytes) :
    Received hasSink (all ++ chunk.val) (readChunk hasSink maxOutputBytes b (.stdout, chunk)) := by
  have hfits : ¬ maxOutputBytes - (b.stdoutCount + b.stderrCount) < chunk.val.length := by
    rw [List.length_append] at hlimit
    rw [hb.stdoutCount, hb.stderrCount]
    omega
  cases hasSink with
  | false =>
      simp only [readChunk, if_neg hfits, store]
      exact ⟨by simp [hb.stdout], hb.stderr, hb.sink, by simp [hb.stdoutCount], hb.stderrCount,
        hb.exceeded⟩
  | true =>
      simp only [readChunk, if_neg hfits, store]
      refine ⟨?_, hb.stderr, by simp [hb.sink], by simp [hb.stdoutCount], hb.stderrCount,
        hb.exceeded⟩
      simp only [hb.stdout, if_true, List.take_append, List.length_take]
      congr 2
      omega

theorem foldl_readChunk_received {hasSink : Bool} {maxOutputBytes : Nat} (chunks : List Chunk)
    (all : Bytes) (b : Buffers) (hb : Received hasSink all b)
    (hlimit : (all ++ (chunks.map Subtype.val).flatten).length ≤ maxOutputBytes) :
    Received hasSink (all ++ (chunks.map Subtype.val).flatten)
      ((chunks.map fun c => (Stream.stdout, c)).foldl (readChunk hasSink maxOutputBytes) b) := by
  induction chunks generalizing all b with
  | nil => simpa using hb
  | cons chunk rest ih =>
      simp only [List.map_cons, List.flatten_cons, List.foldl_cons, ← List.append_assoc] at hlimit ⊢
      refine ih (all ++ chunk.val) _ (readChunk_received hb chunk ?_) hlimit
      rw [List.length_append] at hlimit
      omega

/-! ## Retrieval under the failure scan -/

/-- The bytes of a chunked output. -/
def content (chunks : List Chunk) : Bytes := (chunks.map Subtype.val).flatten

/-- A command that exits zero having written only to standard output. -/
def wrote (chunks : List Chunk) : Process := .exited 0 (chunks.map fun c => (Stream.stdout, c))

section Retrieval

variable {J : Type} (decoder : JsonDecoder J)

/-- The result of a command that stays within its output limit, for any chunking. -/
theorem run_wrote (chunks : List Chunk) (hasSink : Bool) (maxOutputBytes : Nat)
    (hlimit : (content chunks).length ≤ maxOutputBytes) :
    run (wrote chunks) hasSink maxOutputBytes = .ok
      { returncode := 0
        stdout := if hasSink then (content chunks).take probeLimit else content chunks
        stderr := []
        sink := if hasSink then content chunks else []
        streamedStdoutBytes := if hasSink then (content chunks).length else 0 } := by
  have hstart : Received hasSink [] {} := by cases hasSink <;> exact ⟨rfl, rfl, rfl, rfl, rfl, rfl⟩
  have hend := foldl_readChunk_received chunks [] {} hstart hlimit
  simp only [List.nil_append] at hend
  simp only [run, wrote, hend.exceeded, hend.stdout, hend.stderr, hend.sink, hend.stdoutCount,
    content]
  rfl

private theorem streamReportsFailure_nil : streamReportsFailure decoder [] = .ok false := rfl

/-- `_invoke` passes a clean exit exactly when the kept part of the output reports no failure. -/
theorem invoke_wrote (chunks : List Chunk) (hasSink : Bool) (maxOutputBytes : Nat)
    (hlimit : (content chunks).length ≤ maxOutputBytes) :
    invoke decoder (wrote chunks) hasSink maxOutputBytes =
      match streamReportsFailure decoder
        (if hasSink then (content chunks).take probeLimit else content chunks) with
      | .error e => .error e
      | .ok true => .error .commandFailed
      | .ok false => run (wrote chunks) hasSink maxOutputBytes := by
  rw [invoke, run_wrote chunks hasSink maxOutputBytes hlimit]
  generalize (if hasSink then (content chunks).take probeLimit else content chunks) = kept
  cases hscan : streamReportsFailure decoder kept with
  | error e => simp [reportedApplicationFailure, hscan, bind, Except.bind]
  | ok reported =>
      cases reported <;>
        simp [reportedApplicationFailure, hscan, streamReportsFailure_nil, bind, Except.bind,
          pure, Except.pure, throw, throwThe, MonadExceptOf.throw]

/-- A stored message is returned byte for byte, under any chunking, exactly when its first
64 KiB report no failure, and it is refused otherwise; a listing passes `_invoke` exactly when
the whole of its text reports none. -/
theorem retrieval_iff_no_reported_failure :
    (∀ (require : Except HelperException Unit) (username mailbox : String) (uid : Int)
        (chunks : List Chunk), checkDump require username mailbox uid = .ok () →
      (content chunks).length ≤ maxInputBytes →
      (dumpMessage decoder require username mailbox uid (wrote chunks) = .ok (content chunks) ↔
        streamReportsFailure decoder ((content chunks).take probeLimit) = .ok false) ∧
      (dumpMessage decoder require username mailbox uid (wrote chunks) = .ok (content chunks) ∨
        ∃ e, dumpMessage decoder require username mailbox uid (wrote chunks) = .error e)) ∧
    (∀ chunks : List Chunk, (content chunks).length ≤ maxMessageListOutputBytes →
      ((∃ result, invoke decoder (wrote chunks) false maxMessageListOutputBytes = .ok result ∧
          result.stdout = content chunks) ↔
        streamReportsFailure decoder (content chunks) = .ok false)) := by
  constructor
  · intro require username mailbox uid chunks hcheck hlimit
    have hinvoke := invoke_wrote decoder chunks true maxInputBytes hlimit
    rw [run_wrote chunks true maxInputBytes hlimit] at hinvoke
    simp only [if_true] at hinvoke
    unfold dumpMessage
    rw [hcheck, hinvoke]
    cases streamReportsFailure decoder ((content chunks).take probeLimit) with
    | error e => simp [bind, Except.bind]
    | ok reported => cases reported <;> simp [bind, Except.bind, pure, Except.pure]
  · intro chunks hlimit
    have hinvoke := invoke_wrote decoder chunks false maxMessageListOutputBytes hlimit
    rw [run_wrote chunks false maxMessageListOutputBytes hlimit] at hinvoke
    simp only [Bool.false_eq_true, if_false] at hinvoke
    rw [hinvoke]
    cases streamReportsFailure decoder (content chunks) with
    | error e => simp
    | ok reported => cases reported <;> simp

end Retrieval

/-! ### Two messages of one length -/

/-- A decoder for outputs without a line in braces, on which it is never asked. -/
def noJson : JsonDecoder Unit where
  loads _ := .malformed
  items _ := none
  lowerStr _ := ""

/-- A body that quotes the log line of a failed start. -/
def quotedFailure : List Chunk := [⟨appRunFailed, by decide⟩]

/-- A body of the same length that does not. -/
def plainBody : List Chunk := [⟨List.replicate 14 0x61, by decide⟩]

theorem retrieval_iff_no_reported_failure_plainBody :
    checkDump (.ok ()) "user@example.org" "INBOX" 1 = .ok () ∧
      (content plainBody).length ≤ maxInputBytes ∧
      dumpMessage noJson (.ok ()) "user@example.org" "INBOX" 1 (wrote plainBody) =
        .ok (content plainBody) := by
  have hcheck : checkDump (.ok ()) "user@example.org" "INBOX" 1 = .ok () := by decide +kernel
  have hlimit : (content plainBody).length ≤ maxInputBytes := by decide
  have hiff := ((retrieval_iff_no_reported_failure noJson).1 (.ok ()) "user@example.org" "INBOX" 1
    plainBody hcheck hlimit).1
  exact ⟨hcheck, hlimit, hiff.mpr (by decide +kernel)⟩

/-- Of two messages of fourteen bytes one is refused for what it says, and a listing that
shows the same text is refused with it. -/
theorem dumpMessage_depends_on_content :
    (content quotedFailure).length = (content plainBody).length ∧
      dumpMessage noJson (.ok ()) "user@example.org" "INBOX" 1 (wrote plainBody) =
        .ok (content plainBody) ∧
      dumpMessage noJson (.ok ()) "user@example.org" "INBOX" 1 (wrote quotedFailure) =
        .error .commandFailed ∧
      invoke noJson (wrote quotedFailure) false maxMessageListOutputBytes =
        .error .commandFailed := by
  decide +kernel

end MaddyWeb.Maddy.Command
