import MaddyWeb.Library.Base64
import MaddyWeb.Smtp.Data

/-!
# The submission client

`SMTPSubmissionClient.send`, from the checks of its arguments to the `finally`
that closes the channel.  The transaction has two halves: up to the last buffer
of the message nothing can have been accepted (`beforeTerminator`), and from the
terminating dot on a failure is ambiguous (`afterTerminator`).
-/

namespace MaddyWeb.Smtp.Client

open MaddyWeb.Library MaddyWeb.Library.Text MaddyWeb.Helper.Errors
open MaddyWeb.Smtp.Channel MaddyWeb.Smtp.Data

/-- The arguments of `send`; the text ones are checked by it. -/
structure Submission where
  username : String
  password : String
  mailFrom : String
  recipients : List String
  message : Source
  messageLength : Nat

/-- `max_message_bytes` as `from_config` leaves it. -/
def maxMessageBytes : Nat := 32 * 1024 * 1024

/-! ## Argument checks -/

/-- `_EMAIL_RE`: two runs without white space, angle brackets or `@`, around one `@`. -/
def matchesEmail (value : String) : Bool :=
  let part (text : List Char) : Bool :=
    !text.isEmpty && text.all fun c => !isSpace c && c != '<' && c != '>' && c != '@'
  part (value.toList.takeWhile (· != '@')) &&
    (match value.toList.dropWhile (· != '@') with
      | [] => false
      | _ :: domain => part domain)

/-- `_email_address` -/
def emailAddress (value : String) : Except HelperException String :=
  if value.length > 254 || !matchesEmail value ||
      value.toList.any (fun c => c.toNat < 0x20 || c.toNat == 0x7F) then .error .value
  else .ok value

/-- `SMTPSubmissionClient._validated_password` -/
def validatedPassword (password : String) : Except HelperException String :=
  if password.isEmpty || password.length > 1024 ||
      password.toList.any (fun c => c == '\r' || c == '\n' || c == '\x00') then .error .value
  else .ok password

/-- The checks of `send` before it opens a channel. -/
def checkArguments (args : Submission) : Except HelperException Unit := do
  let _ ← emailAddress args.username
  let _ ← emailAddress args.mailFrom
  let recipients ← args.recipients.mapM emailAddress
  if recipients.isEmpty || recipients.length > 100 then throw .value
  let _ ← validatedPassword args.password
  if ¬ (1 ≤ args.messageLength ∧ args.messageLength ≤ maxMessageBytes) then throw .value

/-! ## The transaction -/

/-- `str.encode` -/
def encode (text : String) : Bytes := text.toUTF8.data.toList

/-- `SMTPSubmissionClient._authenticate_channel` -/
def authenticateChannel (script : Script) (username password : String) : Run Unit := do
  let code ← readResponse script.greeting
  Exec.ensure (code == 220) (.smtpRejected code "greeting")
  let _ ← command script.ehlo (encode "EHLO maddyweb.local") [250] "EHLO"
  let auth := Base64.encode ([0] ++ encode username ++ [0] ++ encode password)
  let code ← command script.auth (encode "AUTH PLAIN " ++ auth) [235, 334] "AUTH"
  if code = 334 then do
    let _ ← command script.authContinue auth [235] "AUTH"
    return ()
  else return ()

/-- One pass of the loop over the recipients. -/
def rcptTo (script : Script) (index : Nat) (recipient : String) : Run Nat := do
  let _ ← command (script.rcptTo index) (encode ("RCPT TO:<" ++ recipient ++ ">")) [250, 251]
    "RCPT TO"
  return index + 1

/-- `send` up to the last buffer of the message. -/
def beforeTerminator (script : Script) (args : Submission) : Run Unit := do
  authenticateChannel script args.username args.password
  let _ ← command script.mailFrom (encode ("MAIL FROM:<" ++ args.mailFrom ++ ">")) [250] "MAIL FROM"
  let _ ← args.recipients.foldlM (rcptTo script) 0
  let _ ← command script.data (encode "DATA") [354] "DATA"
  writeData script args.message args.messageLength

/-- `with suppress(SMTPError)` -/
def suppressSmtpError (m : Run Nat) : Run Unit :=
  Exec.handle (do let _ ← m; return ()) fun e =>
    match e with
    | .smtpTransport | .smtpOutcomeUnknown | .smtpRejected _ _ => pure ()
    | e => Exec.raise e

/-- `except SMTPTransportError: raise SMTPOutcomeUnknown` -/
def transportIsUnknown {α : Type} (m : Run α) : Run α :=
  Exec.handle m fun e =>
    match e with
    | .smtpTransport => Exec.raise .smtpOutcomeUnknown
    | e => Exec.raise e

/-- `send` from the terminator on. -/
def afterTerminator (script : Script) (recipients : Nat) : Run Nat := do
  Exec.update fun s => { s with dataTerminatorSent := true }
  write script.terminator.write [0x2E, 0x0D, 0x0A]
  let code ← transportIsUnknown (readResponse script.terminator.reply)
  Exec.update fun s => { s with bodyReply := some code }
  Exec.ensure (code == 250) (.smtpRejected code "message body")
  suppressSmtpError (command script.quit (encode "QUIT") [221] "QUIT")
  return recipients

/-- The `except SMTPTransportError` clause of `send`. -/
def classifyTransport (m : Run Nat) : Run Nat :=
  Exec.handle m fun e =>
    match e with
    | .smtpTransport => do
      let sent ← Exec.inspect fun s => s.dataTerminatorSent
      if sent then Exec.raise .smtpOutcomeUnknown else Exec.raise .smtpTransport
    | e => Exec.raise e

/-- The `try` of `send` with its handler and its `finally`. -/
def transaction (script : Script) (args : Submission) : Run Nat :=
  Exec.finallyDo
    (classifyTransport do
      beforeTerminator script args
      afterTerminator script args.recipients.length)
    (close script.close)

/-- `SMTPSubmissionClient.send`: the number of recipients of an accepted message. -/
def send (script : Script) (args : Submission) : Run Nat :=
  match checkArguments args with
  | .error e => Exec.raise e
  | .ok () =>
    match script.opening with
    | some error => Exec.raise error.exception
    | none => transaction script args

/-! ## Up to the terminator -/

section Keeps

variable {I : Session → Prop} (hI : IgnoresWire I) (script : Script)
include hI

theorem authenticateChannel_keeps (username password : String) :
    Exec.Keeps I (authenticateChannel script username password) := by
  refine Exec.Keeps.bind (readResponse_keeps hI _) fun code => ?_
  refine Exec.Keeps.bind (Exec.Keeps.ensure _ _) fun _ => ?_
  refine Exec.Keeps.bind (command_keeps hI _ _ _ _) fun _ => ?_
  refine Exec.Keeps.bind (command_keeps hI _ _ _ _) fun code => ?_
  exact Exec.Keeps.ite
    (Exec.Keeps.bind (command_keeps hI _ _ _ _) fun _ => Exec.Keeps.ret _) (Exec.Keeps.ret _)

/-- Nothing before the terminator touches the variables that classify a failure. -/
theorem beforeTerminator_keeps (args : Submission) :
    Exec.Keeps I (beforeTerminator script args) := by
  refine Exec.Keeps.bind (authenticateChannel_keeps hI script _ _) fun _ => ?_
  refine Exec.Keeps.bind (command_keeps hI _ _ _ _) fun _ => ?_
  refine Exec.Keeps.bind (Exec.Keeps.foldlM (fun index recipient => ?_) _ _) fun _ => ?_
  · exact Exec.Keeps.bind (command_keeps hI _ _ _ _) fun _ => Exec.Keeps.ret _
  · refine Exec.Keeps.bind (command_keeps hI _ _ _ _) fun _ => ?_
    exact writeData_keeps hI script _ _

end Keeps

/-- The server has not yet answered `354`. -/
private def Idle (s : Session) : Prop := s.server = .command ∧ s.bodyWrites = []

private theorem idle_replied {s : Session} {code : Nat} {bytes : Bytes} (hs : Idle s)
    (hcode : code ≠ 354) : Idle { s with server := (s.server.receive bytes).replied code } := by
  obtain ⟨hserver, hwrites⟩ := hs
  refine ⟨?_, hwrites⟩
  simp [hserver, Server.replied, hcode]

private theorem command_idle {exchange : Exchange} {text : Bytes} {expected : List Nat}
    {stage : String} (hexpected : 354 ∉ expected) :
    Exec.Triple Idle (command exchange text expected stage) (fun _ => Idle) (fun _ _ => True) := by
  refine command_spec (fun _ _ => trivial) fun code s bytes hcode hs => ?_
  exact idle_replied hs fun h => hexpected (h ▸ hcode)

private theorem authenticateChannel_idle (script : Script) (username password : String) :
    Exec.Triple Idle (authenticateChannel script username password) (fun _ => Idle)
      (fun _ _ => True) := by
  refine Exec.Triple.bind (Q := fun code s' => ∃ s, Idle s ∧
      s' = { s with server := s.server.replied code })
    (readResponse_spec (fun code s _ hs => ⟨s, hs, rfl⟩) fun _ _ _ _ => trivial) fun code => ?_
  refine Exec.Triple.bind (Q := fun _ => Idle)
    (Exec.Triple.ensure ?_ fun _ _ _ => trivial) fun _ => ?_
  · rintro s' ⟨s, ⟨hserver, hwrites⟩, rfl⟩ hcode
    have h220 : code = 220 := by simpa using hcode
    refine ⟨?_, hwrites⟩
    simp [hserver, Server.replied, h220]
  refine Exec.Triple.bind (command_idle (by decide)) fun _ => ?_
  refine Exec.Triple.bind (command_idle (by decide)) fun code => ?_
  refine Exec.Triple.ite (fun _ => ?_) (fun _ => Exec.Triple.ret fun s hs => hs)
  exact Exec.Triple.bind (command_idle (by decide)) fun _ => Exec.Triple.ret fun s hs => hs

private theorem rcptTo_idle (script : Script) (recipients : List String) (index : Nat) :
    Exec.Triple Idle (recipients.foldlM (rcptTo script) index) (fun _ => Idle)
      (fun _ _ => True) := by
  induction recipients generalizing index with
  | nil => exact Exec.Triple.ret fun s hs => hs
  | cons recipient rest ih =>
      refine Exec.Triple.bind (Q := fun _ => Idle) ?_ ih
      exact Exec.Triple.bind (command_idle (by decide)) fun _ => Exec.Triple.ret fun s hs => hs

/-- Up to the terminator the server receives what the buffers of the message deliver. -/
theorem beforeTerminator_spec (script : Script) (args : Submission)
    (hlength : args.messageLength = args.message.flatten.length) :
    Exec.Triple (fun s => s.server = .command ∧ s.bodyWrites = []) (beforeTerminator script args)
      (fun _ s => s.server = .data (delivered script 0 (dataBuffers args.message.flatten)))
      (fun _ _ => True) := by
  refine Exec.Triple.bind (authenticateChannel_idle script _ _) fun _ => ?_
  refine Exec.Triple.bind (command_idle (by decide)) fun _ => ?_
  refine Exec.Triple.bind (rcptTo_idle script _ _) fun _ => ?_
  refine Exec.Triple.bind (Q := fun _ s => s.server = .data [] ∧ s.bodyWrites = [])
    (command_spec (fun _ _ => trivial) ?_) fun _ => ?_
  · rintro code s bytes hcode ⟨hserver, hwrites⟩
    have h354 : code = 354 := by simpa using hcode
    refine ⟨?_, hwrites⟩
    simp [hserver, Server.replied, h354]
  · rw [hlength]
    exact writeData_spec args.message

/-! ## From the terminator on -/

def terminator : Bytes := [0x2E, 0x0D, 0x0A]

private theorem suppressSmtpError_done {m : Run Nat} {received : Bytes}
    (hm : Exec.Keeps (fun s => s.server = .done received) m) :
    Exec.Triple (fun s => s.server = .done received) (suppressSmtpError m)
      (fun _ s => s.server = .done received) (fun _ _ => True) := by
  have hbody : Exec.Keeps (fun s => s.server = .done received) (do let _ ← m; return ()) :=
    Exec.Keeps.bind hm fun _ => Exec.Keeps.ret ()
  refine Exec.Triple.handle hbody fun e => ?_
  cases e with
  | smtpTransport => exact Exec.Triple.ret fun s hs => hs
  | smtpOutcomeUnknown => exact Exec.Triple.ret fun s hs => hs
  | smtpRejected code stage => exact Exec.Triple.ret fun s hs => hs
  | _ => exact Exec.Triple.raise fun _ _ => trivial

private theorem quit_done (exchange : Exchange) (text : Bytes) (expected : List Nat)
    (stage : String) (received : Bytes) :
    Exec.Keeps (fun s => s.server = .done received) (command exchange text expected stage) := by
  refine Exec.Keeps.bind ?_ fun _ => Exec.Keeps.bind ?_ fun _ =>
    Exec.Keeps.bind (Exec.Keeps.ensure _ _) fun _ => Exec.Keeps.ret _
  · refine write_spec (fun count s _ hs => ?_) fun _ _ _ hs => hs
    simp [hs]
  · refine readResponse_spec (fun code s _ hs => ?_) fun _ _ _ hs => hs
    simp [hs, Server.replied]

/-- An accepted message has the server in `done` with the terminator's bytes appended. -/
theorem afterTerminator_spec (script : Script) (recipients : Nat) (received : Bytes) :
    Exec.Triple (fun s => s.server = .data received) (afterTerminator script recipients)
      (fun _ s => s.server = .done (received ++ accepted script.terminator.write terminator))
      (fun _ _ => True) := by
  refine Exec.Triple.bind (Q := fun _ s => s.server = .data received)
    (Exec.Triple.update fun s hs => hs) fun _ => ?_
  refine Exec.Triple.bind
    (Q := fun _ s => s.server = .data (received ++ accepted script.terminator.write terminator))
    (write_spec ?_ fun _ _ _ _ => trivial) fun _ => ?_
  · intro count s houtcome hs
    rw [houtcome, hs]
    rfl
  generalize received ++ accepted script.terminator.write terminator = all
  refine Exec.Triple.bind (Q := fun _ s => s.server = .done all)
    (Exec.Triple.handle (E := fun _ _ => True)
      (readResponse_spec (fun code s _ hs => by rw [hs]; rfl) fun _ _ _ _ => trivial)
      fun e => ?_) fun code => ?_
  · cases e <;> exact Exec.Triple.raise fun _ _ => trivial
  refine Exec.Triple.bind (Q := fun _ s => s.server = .done all)
    (Exec.Triple.update fun s hs => hs) fun _ => ?_
  refine Exec.Triple.bind (Q := fun _ s => s.server = .done all)
    (Exec.Triple.ensure (fun s hs _ => hs) fun _ _ _ => trivial) fun _ => ?_
  refine Exec.Triple.bind (suppressSmtpError_done (quit_done _ _ _ _ _)) fun _ => ?_
  exact Exec.Triple.ret fun s hs => hs

private theorem classifyTransport_spec {m : Run Nat} {P : Session → Prop}
    {Q : Nat → Session → Prop} (hm : Exec.Triple P m Q fun _ _ => True) :
    Exec.Triple P (classifyTransport m) Q fun _ _ => True := by
  refine Exec.Triple.handle hm fun e => ?_
  cases e with
  | smtpTransport =>
      refine Exec.Triple.bind (Exec.Keeps.inspect _) fun sent => ?_
      exact Exec.Triple.ite (fun _ => Exec.Triple.raise fun _ _ => trivial)
        (fun _ => Exec.Triple.raise fun _ _ => trivial)
  | _ => exact Exec.Triple.raise fun _ _ => trivial

private theorem close_spec {P Q : Session → Prop} (outcome : Option ChannelError)
    (h : ∀ s, P s → Q s) :
    Exec.Triple P (close outcome) (fun _ => Q) (fun _ _ => True) := by
  cases outcome with
  | none => exact Exec.Triple.ret h
  | some error => exact Exec.Triple.raise fun _ _ => trivial

/-! ## Every byte of an accepted message -/

/-- The operating system takes every buffer of the DATA phase whole. -/
def NoShortWrite (script : Script) (message : Bytes) : Prop :=
  (∀ j buffer, (dataBuffers message)[j]? = some buffer → AcceptsAll (script.body j) buffer) ∧
    AcceptsAll script.terminator.write terminator

theorem send_server_of_ok {script : Script} {args : Submission} {n : Nat}
    (hlength : args.messageLength = args.message.flatten.length)
    (hok : (send script args {}).1 = .ok n) :
    (send script args {}).2.server =
      .done (delivered script 0 (dataBuffers args.message.flatten) ++
        accepted script.terminator.write terminator) := by
  have hbody : Exec.Triple (fun s => s.server = .command ∧ s.bodyWrites = [])
      (do beforeTerminator script args; afterTerminator script args.recipients.length)
      (fun _ s => s.server = .done (delivered script 0 (dataBuffers args.message.flatten) ++
        accepted script.terminator.write terminator)) (fun _ _ => True) :=
    Exec.Triple.bind (beforeTerminator_spec script args hlength)
      fun _ => afterTerminator_spec script _ _
  have hclassified := classifyTransport_spec hbody
  have htransaction := Exec.Triple.finallyDo hclassified
    (fun _ => close_spec script.close fun _ hs => hs)
    (fun _ => close_spec script.close fun _ hs => hs)
  unfold send at hok ⊢
  cases hargs : checkArguments args with
  | error e => simp [hargs, Exec.raise] at hok
  | ok u =>
      cases hopening : script.opening with
      | some error => simp [hargs, hopening, Exec.raise] at hok
      | none =>
          simp only [hargs, hopening] at hok ⊢
          exact Exec.Triple.of_ok htransaction ⟨rfl, rfl⟩ hok

/-- An accepted message has arrived as its dot-stuffed CRLF form and the terminator exactly
when no write of the DATA phase was short: the channel drops the count of every write. -/
theorem send_received_iff (script : Script) (args : Submission) (n : Nat)
    (hlength : args.messageLength = args.message.flatten.length)
    (hok : (send script args {}).1 = .ok n) :
    (send script args {}).2.server =
        .done (smtpData args.message.flatten ++ [0x2E, 0x0D, 0x0A]) ↔
      NoShortWrite script args.message.flatten := by
  rw [send_server_of_ok hlength hok, ← dataBuffers_flatten]
  generalize hbuffers : dataBuffers args.message.flatten = buffers
  have hne : ∀ buffer ∈ buffers, buffer ≠ [] := by
    rw [← hbuffers]
    exact ne_nil_of_mem_buffersOf _ _
  have hbodyIff := delivered_length_eq_iff script buffers hne 0
  have htermIff : (accepted script.terminator.write terminator).length = terminator.length ↔
      AcceptsAll script.terminator.write terminator := accepted_length_eq_iff (by decide)
  simp only [Nat.zero_add] at hbodyIff
  unfold NoShortWrite
  rw [hbuffers]
  constructor
  · intro h
    have hlengths := congrArg List.length (Server.done.inj h)
    have hbodyLe := delivered_length_le script buffers 0
    have htermLe := accepted_length_le script.terminator.write terminator
    have hterminator : terminator.length = 3 := rfl
    simp only [List.length_append, List.length_cons, List.length_nil] at hlengths
    exact ⟨hbodyIff.mp (by omega), htermIff.mp (by omega)⟩
  · rintro ⟨hbody, hterm⟩
    rw [accepted_eq_self hterm, delivered_eq_flatten script buffers 0 (by simpa using hbody)]
    rfl

/-! ### A transaction that succeeds -/

/-- A reply of one line with the three digits of a code. -/
def replyLine (a b c : UInt8) : Nat → ReadOutcome := fun _ => .line [a, b, c, 0x20, 0x0D, 0x0A]

/-- A server and an operating system that accept everything. -/
def acceptingScript : Script where
  opening := none
  greeting := replyLine 0x32 0x32 0x30
  ehlo := ⟨.accepts 4096, replyLine 0x32 0x35 0x30⟩
  auth := ⟨.accepts 4096, replyLine 0x32 0x33 0x35⟩
  authContinue := ⟨.accepts 4096, replyLine 0x32 0x33 0x35⟩
  mailFrom := ⟨.accepts 4096, replyLine 0x32 0x35 0x30⟩
  rcptTo := fun _ => ⟨.accepts 4096, replyLine 0x32 0x35 0x30⟩
  data := ⟨.accepts 4096, replyLine 0x33 0x35 0x34⟩
  body := fun _ => .accepts 4096
  terminator := ⟨.accepts 4096, replyLine 0x32 0x35 0x30⟩
  quit := ⟨.accepts 4096, replyLine 0x32 0x32 0x31⟩
  close := none

/-- The lines `a` and `b` to one recipient. -/
def twoLines : Submission where
  username := "a@example.org"
  password := "secret"
  mailFrom := "a@example.org"
  recipients := ["b@example.org"]
  message := [[0x61, 0x0A, 0x62, 0x0A]]
  messageLength := 4

theorem send_received_iff_acceptingScript :
    twoLines.messageLength = twoLines.message.flatten.length ∧
      (send acceptingScript twoLines {}).1 = .ok 1 ∧
      ((send acceptingScript twoLines {}).2.server =
          .done (smtpData twoLines.message.flatten ++ [0x2E, 0x0D, 0x0A]) ↔
        NoShortWrite acceptingScript twoLines.message.flatten) :=
  ⟨rfl, by decide +kernel, send_received_iff acceptingScript twoLines 1 rfl (by decide +kernel)⟩

/-- The kernel takes three of the six bytes of the only buffer: the server sees a complete
one-line message, answers `250`, and the second line is gone. -/
theorem send_short_write_truncates :
    twoLines.messageLength = twoLines.message.flatten.length ∧
      (send { acceptingScript with body := fun _ => .accepts 3 } twoLines {}).1 = .ok 1 ∧
      (send { acceptingScript with body := fun _ => .accepts 3 } twoLines {}).2.server ≠
        .done (smtpData twoLines.message.flatten ++ [0x2E, 0x0D, 0x0A]) := by
  refine ⟨rfl, by decide +kernel, ?_⟩
  have hserver : (send { acceptingScript with body := fun _ => .accepts 3 } twoLines {}).2.server =
      .done [0x61, 0x0D, 0x0A, 0x2E, 0x0D, 0x0A] := by decide +kernel
  rw [hserver]
  decide +kernel

end MaddyWeb.Smtp.Client
