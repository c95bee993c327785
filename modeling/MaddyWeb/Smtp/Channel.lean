import MaddyWeb.Helper.Errors
import MaddyWeb.Library.Exec
import MaddyWeb.Library.Text

/-!
# The SMTP channel, its script and one SMTP exchange

A channel (`_SocketChannel` or `_ProcessChannel`) is seen through what its calls
do.  Every call site of `SMTPSubmissionClient.send` runs at most once, so an
arbitrary behaviour of the server and the operating system is a `Script`: one
outcome for each call.  The session keeps what the server has seen, which is
what a lost write changes without raising anything.
-/

namespace MaddyWeb.Smtp.Channel

open MaddyWeb.Library MaddyWeb.Helper.Errors

/-- What a channel call may raise: the client's own `SMTPTransportError`, or an
operating-system error that the native channel does not wrap. -/
inductive ChannelError
  | transport
  | timeout
  | os
  deriving DecidableEq, Repr

def ChannelError.exception : ChannelError → HelperException
  | .transport => .smtpTransport
  | .timeout => .timeout
  | .os => .other

/-- One turn of the loop that reads a reply. -/
inductive ReadOutcome
  /-- The transaction deadline has passed before the call. -/
  | expired
  | line (bytes : Bytes)
  | fails (error : ChannelError)
  deriving DecidableEq, Repr

/-- One `write`: the length of the prefix that the operating system accepted. -/
inductive WriteOutcome
  | accepts (count : Nat)
  | fails (error : ChannelError)
  deriving DecidableEq, Repr

/-- A written command and the reply that is read after it. -/
structure Exchange where
  write : WriteOutcome
  reply : Nat → ReadOutcome

/-- The behaviour of the environment at every channel call of one transaction. -/
structure Script where
  opening : Option ChannelError
  greeting : Nat → ReadOutcome
  ehlo : Exchange
  auth : Exchange
  authContinue : Exchange
  mailFrom : Exchange
  rcptTo : Nat → Exchange
  data : Exchange
  body : Nat → WriteOutcome
  terminator : Exchange
  quit : Exchange
  close : Option ChannelError

/-! ## The server's view -/

/-- The server before its `354` reply, while it receives a message, and after it. -/
inductive Server
  | command
  | data (received : Bytes)
  | done (received : Bytes)
  deriving DecidableEq, Repr

namespace Server

def receive (bytes : Bytes) : Server → Server
  | .data received => .data (received ++ bytes)
  | other => other

def replied (code : Nat) : Server → Server
  | .command => if code = 354 then .data [] else .command
  | .data received => .done received
  | .done received => .done received

end Server

/-- The variables of `send` that its exits depend on, and the server's view. -/
structure Session where
  server : Server := .command
  bodyWrites : List Bytes := []
  dataTerminatorSent : Bool := false
  bodyReply : Option Nat := none
  deriving DecidableEq, Repr

abbrev Run (α : Type) := Exec Session HelperException α

/-! ## Channel calls -/

/-- `_SocketChannel.write`: the count that the unbuffered file returns is dropped. -/
def write (outcome : WriteOutcome) (data : Bytes) : Run Unit :=
  match outcome with
  | .accepts count => Exec.update fun s => { s with server := s.server.receive (data.take count) }
  | .fails error => Exec.raise error.exception

/-- `close` -/
def close (outcome : Option ChannelError) : Run Unit :=
  match outcome with
  | none => pure ()
  | some error => Exec.raise error.exception

def isDigit (b : UInt8) : Bool := 0x30 ≤ b && b ≤ 0x39

/-- `int` of a run of ASCII digits. -/
def digitsValue (digits : Bytes) : Nat :=
  digits.foldl (fun value b => 10 * value + (b.toNat - 0x30)) 0

/-- The loop of `_response` from its `turn`-th pass on. -/
def responseFrom (reply : Nat → ReadOutcome) (turn total : Nat) (expectedCode : Option Nat) :
    Except HelperException Nat :=
  match reply turn with
  | .expired => .error .smtpTransport
  | .fails error => .error error.exception
  | .line raw =>
    if 64 * 1024 < total + raw.length ∨ raw.length < 4 ∨ ¬ (raw.take 3).all isDigit then
      .error .smtpTransport
    else
      let code := digitsValue (raw.take 3)
      if expectedCode.any (· != code) then .error .smtpTransport
      else match (raw[3]? : Option UInt8) with
        | some 0x2D => responseFrom reply (turn + 1) (total + raw.length) (some code)
        | some 0x20 => .ok code
        | _ => .error .smtpTransport
termination_by 64 * 1024 + 1 - total
decreasing_by omega

/-- `SMTPSubmissionClient._response`; no caller reads the text it returns beside the code. -/
def response (reply : Nat → ReadOutcome) : Except HelperException Nat :=
  responseFrom reply 0 0 none

/-- Read one reply of the server. -/
def readResponse (reply : Nat → ReadOutcome) : Run Nat :=
  match response reply with
  | .error e => Exec.raise e
  | .ok code => do
    Exec.update fun s => { s with server := s.server.replied code }
    return code

/-- `SMTPSubmissionClient._command` -/
def command (exchange : Exchange) (text : Bytes) (expected : List Nat) (stage : String) :
    Run Nat := do
  write exchange.write (text ++ [0x0D, 0x0A])
  let code ← readResponse exchange.reply
  Exec.ensure (expected.contains code) (.smtpRejected code stage)
  return code

/-! ## What one call can do -/

@[simp] theorem receive_command (bytes : Bytes) : Server.command.receive bytes = .command := rfl

@[simp] theorem receive_done (received bytes : Bytes) :
    (Server.done received).receive bytes = .done received := rfl

section Rules

variable {P : Session → Prop} {E : HelperException → Session → Prop}

theorem write_spec {outcome : WriteOutcome} {data : Bytes} {Q : Unit → Session → Prop}
    (hok : ∀ count s, outcome = .accepts count → P s →
      Q () { s with server := s.server.receive (data.take count) })
    (herror : ∀ error s, outcome = .fails error → P s → E error.exception s) :
    Exec.Triple P (write outcome data) Q E := by
  cases outcome with
  | accepts count => exact Exec.Triple.update fun s hs => hok count s rfl hs
  | fails error => exact Exec.Triple.raise fun s hs => herror error s rfl hs

theorem readResponse_spec {reply : Nat → ReadOutcome} {Q : Nat → Session → Prop}
    (hok : ∀ code s, response reply = .ok code → P s →
      Q code { s with server := s.server.replied code })
    (herror : ∀ e s, response reply = .error e → P s → E e s) :
    Exec.Triple P (readResponse reply) Q E := by
  unfold readResponse
  cases hreply : response reply with
  | error e => exact Exec.Triple.raise fun s hs => herror e s hreply hs
  | ok code => exact fun s hs => hok code s hreply hs

/-- A property of the server's view that one exchange establishes when the reply is expected. -/
theorem command_spec {exchange : Exchange} {text : Bytes} {expected : List Nat} {stage : String}
    {Q : Nat → Session → Prop} (hE : ∀ e s, E e s)
    (hok : ∀ code s bytes, code ∈ expected → P s →
      Q code { s with server := (s.server.receive bytes).replied code }) :
    Exec.Triple P (command exchange text expected stage) Q E := by
  refine Exec.Triple.bind
    (Q := fun _ s' => ∃ s bytes, P s ∧ s' = { s with server := s.server.receive bytes })
    (write_spec (fun count s _ hs => ⟨s, _, hs, rfl⟩) fun _ _ _ _ => hE _ _) fun _ => ?_
  refine Exec.Triple.bind
    (Q := fun code s' => ∃ s bytes, P s ∧
      s' = { s with server := (s.server.receive bytes).replied code })
    (readResponse_spec ?_ fun _ _ _ _ => hE _ _) fun code => ?_
  · rintro code s' _ ⟨s, bytes, hs, rfl⟩
    exact ⟨s, bytes, hs, rfl⟩
  · refine Exec.Triple.bind
      (Q := fun _ s' => code ∈ expected ∧ ∃ s bytes, P s ∧
        s' = { s with server := (s.server.receive bytes).replied code })
      (Exec.Triple.ensure (fun s' hs' hcode => ⟨by simpa using hcode, hs'⟩)
        fun _ _ _ => hE _ _) fun _ => ?_
    refine Exec.Triple.ret ?_
    rintro s' ⟨hcode, s, bytes, hs, rfl⟩
    exact hok code s bytes hcode hs

end Rules

/-! ## Calls that leave the variables of `send` alone -/

section Keeps

/-- A property of the session that neither the server's view nor the write log enters. -/
def IgnoresWire (I : Session → Prop) : Prop :=
  ∀ s server bodyWrites, I s → I { s with server, bodyWrites }

variable {I : Session → Prop}

theorem write_keeps (hI : IgnoresWire I) (outcome : WriteOutcome) (data : Bytes) :
    Exec.Keeps I (write outcome data) :=
  write_spec (fun _ s _ hs => hI s _ s.bodyWrites hs) (fun _ _ _ hs => hs)

theorem readResponse_keeps (hI : IgnoresWire I) (reply : Nat → ReadOutcome) :
    Exec.Keeps I (readResponse reply) :=
  readResponse_spec (fun _ s _ hs => hI s _ s.bodyWrites hs) (fun _ _ _ hs => hs)

theorem command_keeps (hI : IgnoresWire I) (exchange : Exchange) (text : Bytes)
    (expected : List Nat) (stage : String) :
    Exec.Keeps I (command exchange text expected stage) := by
  refine Exec.Keeps.bind (write_keeps hI _ _) fun _ => ?_
  refine Exec.Keeps.bind (readResponse_keeps hI _) fun code => ?_
  exact Exec.Keeps.bind (Exec.Keeps.ensure _ _) fun _ => Exec.Keeps.ret _

end Keeps

/-- A reply fails with the client's own error or with an unwrapped one. -/
theorem responseFrom_error {reply : Nat → ReadOutcome} {turn total : Nat}
    {expectedCode : Option Nat} {e : HelperException}
    (h : responseFrom reply turn total expectedCode = .error e) :
    e = .smtpTransport ∨ e = .timeout ∨ e = .other := by
  fun_induction responseFrom reply turn total expectedCode with
  | case2 turn total expectedCode error hread =>
      cases error <;> simp_all [ChannelError.exception]
  | case5 turn total expectedCode line hread hlimits code hcode hseparator ih => exact ih h
  | case6 => cases h
  | _ => simp_all

/-- What a written line and the read of its reply end with. -/
def exchangeResult (exchange : Exchange) : Except HelperException Nat :=
  match exchange.write with
  | .fails error => .error error.exception
  | .accepts _ => response exchange.reply

theorem exchangeResult_error {exchange : Exchange} {e : HelperException}
    (h : exchangeResult exchange = .error e) :
    e = .smtpTransport ∨ e = .timeout ∨ e = .other := by
  unfold exchangeResult at h
  cases hwrite : exchange.write with
  | fails error =>
      rw [hwrite] at h
      cases error <;> cases h <;> simp [ChannelError.exception]
  | accepts count =>
      rw [hwrite] at h
      exact responseFrom_error h

end MaddyWeb.Smtp.Channel
