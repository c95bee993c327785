import MaddyWeb.Smtp.Client

/-!
# The outcome that the user is told

A submission passes four layers: `send` raises, `_safe_error` names the failure,
`HelperGateway.deliver_message` reads the name, and `deliver_and_save` decides
whether a resend is safe.  Once a byte of the terminating dot may be on the wire
the answer must never be "safe to resend", unless the server itself rejected the
message.
-/

namespace MaddyWeb.Smtp.Delivery

open MaddyWeb.Library MaddyWeb.Helper.Errors
open MaddyWeb.Smtp.Channel MaddyWeb.Smtp.Client

/-! ## The layers above the client -/

/-- The result of `messages.send`. -/
structure SendResult where
  accepted : Bool
  recipients : Nat
  deriving DecidableEq, Repr

/-- `HelperCallError` -/
structure HelperCallError where
  code : String
  message : String
  deriving DecidableEq, Repr

/-- `PrivilegedDispatcher.dispatch` and `_checked_result`, for a handler that ends with `send`. -/
def dispatch (result : Except HelperException Nat) : Except HelperCallError SendResult :=
  match result with
  | .ok recipients => .ok { accepted := true, recipients }
  | .error e => .error { code := (safeError e).1, message := (safeError e).2 }

inductive DeliveryFailure
  | rejected (publicMessage : Option String)
  | uncertain
  | unexpected
  deriving DecidableEq, Repr

def smtpAuthPublicMessage : String :=
  "Authentication for the selected sending account was rejected. Check its mailbox " ++
  "password and confirm that credentials are enabled, then try again. The message was " ++
  "not submitted."

/-- `HelperGateway.deliver_message` -/
def deliverMessage (messageId : Option String) (reply : Except HelperCallError SendResult) :
    Except DeliveryFailure (Option String) :=
  match reply with
  | .error exc =>
    if exc.code = "smtp_outcome_unknown" then .error .uncertain
    else .error (.rejected
      (if exc.code = "smtp_authentication_rejection" then some smtpAuthPublicMessage else none))
  | .ok result => if result.accepted then .ok messageId else .error .uncertain

structure DeliveryResult where
  delivered : Bool
  savedToSent : Bool
  deliveryId : Option String := none
  error : Option String := none
  retryDelivery : Bool := false
  deriving DecidableEq, Repr

/-- `deliver_and_save`, after the message is prepared; `saved` is whether `save_sent` succeeds. -/
def deliverAndSave (delivery : Except DeliveryFailure (Option String)) (saved : Bool) :
    DeliveryResult :=
  match delivery with
  | .error (.rejected publicMessage) =>
    { delivered := false
      savedToSent := false
      error := publicMessage.or (some "Maddy did not accept the message; it was not submitted.")
      retryDelivery := true }
  | .error .uncertain =>
    { delivered := false
      savedToSent := false
      error := some "Delivery is uncertain; check Sent or server logs before trying again." }
  | .error .unexpected =>
    { delivered := false
      savedToSent := false
      error := some
        "The connection failed and delivery is uncertain; do not resend immediately." }
  | .ok deliveryId =>
    if saved then { delivered := true, savedToSent := true, deliveryId }
    else
      { delivered := true
        savedToSent := false
        deliveryId
        error := some "Delivered but not saved to Sent; do not resend." }

/-- One submission as `deliver_message` reports it. -/
def submit (script : Script) (args : Submission) (messageId : Option String) :
    Except DeliveryFailure (Option String) :=
  deliverMessage messageId (dispatch (send script args {}).1)

/-- The user is told that the message was accepted or that its fate is unknown, and no layer
offers a resend. -/
def NotRetryable (script : Script) (args : Submission) (messageId : Option String) (saved : Bool) :
    Prop :=
  (submit script args messageId = .ok messageId ∨
      submit script args messageId = .error .uncertain) ∧
    (deliverAndSave (submit script args messageId) saved).retryDelivery = false

/-- Only acceptance and `SMTPOutcomeUnknown` are never reported as retryable. -/
theorem notRetryable_iff (script : Script) (args : Submission) (messageId : Option String)
    (saved : Bool) :
    NotRetryable script args messageId saved ↔
      (send script args {}).1 = .error .smtpOutcomeUnknown ∨
        ∃ n, (send script args {}).1 = .ok n := by
  unfold NotRetryable submit
  cases (send script args {}).1 with
  | ok n => cases saved <;> simp [dispatch, deliverMessage, deliverAndSave]
  | error e =>
      have hcode := safeError_eq_outcomeUnknown_iff e
      by_cases hunknown : e = .smtpOutcomeUnknown
      · simp [hunknown, dispatch, deliverMessage, deliverAndSave, safeError]
      · have hother : (safeError e).1 ≠ "smtp_outcome_unknown" := fun h => hunknown (hcode.mp h)
        simp [dispatch, deliverMessage, hother, hunknown]

/-! ## The window after the terminator -/

/-- No call from the terminator on raises an unwrapped error, and `close` raises nothing. -/
structure WindowClean (script : Script) : Prop where
  terminator : ∀ e, exchangeResult script.terminator = .error e → e = .smtpTransport
  quit : exchangeResult script.terminator = .ok 250 →
    ∀ e, exchangeResult script.quit = .error e → e = .smtpTransport
  close : script.close = none

section Window

variable {I : Session → Prop}

/-- The exits of one exchange, as its script decides them. -/
theorem command_result (hI : IgnoresWire I) (exchange : Exchange) (text : Bytes)
    (expected : List Nat) (stage : String) :
    Exec.Triple I (command exchange text expected stage)
      (fun _ s => I s ∧ ∃ code, exchangeResult exchange = .ok code)
      (fun e s => I s ∧ (exchangeResult exchange = .error e ∨
        ∃ code, e = .smtpRejected code stage ∧ exchangeResult exchange = .ok code)) := by
  refine Exec.Triple.bind (Q := fun _ s => I s ∧ exchangeResult exchange = response exchange.reply)
    (write_spec (fun count s hwrite hs =>
      ⟨hI s _ s.bodyWrites hs, by simp [exchangeResult, hwrite]⟩)
      fun error s hwrite hs => ⟨hs, .inl (by simp [exchangeResult, hwrite])⟩) fun _ => ?_
  refine Exec.Triple.bind (Q := fun code s => I s ∧ exchangeResult exchange = .ok code)
    (readResponse_spec (fun code s hreply hs => ⟨hI s _ s.bodyWrites hs.1, hs.2.trans hreply⟩)
      fun e s hreply hs => ⟨hs.1, .inl (hs.2.trans hreply)⟩) fun code => ?_
  refine Exec.Triple.bind (Q := fun _ s => I s ∧ exchangeResult exchange = .ok code)
    (Exec.Triple.ensure (fun s hs _ => hs) fun s hs _ => ⟨hs.1, .inr ⟨code, rfl, hs.2⟩⟩) fun _ => ?_
  exact Exec.Triple.ret fun s hs => ⟨hs.1, code, hs.2⟩

/-- `QUIT` fails only with an unwrapped error. -/
theorem suppressSmtpError_result (hI : IgnoresWire I) (exchange : Exchange) (text : Bytes)
    (expected : List Nat) (stage : String) :
    Exec.Triple I (suppressSmtpError (command exchange text expected stage))
      (fun _ s => I s ∧ ∀ e, exchangeResult exchange = .error e → e = .smtpTransport)
      (fun e s => I s ∧ exchangeResult exchange = .error e ∧ e ≠ .smtpTransport) := by
  refine Exec.Triple.handle (Exec.Triple.bind (command_result hI exchange text expected stage)
    fun _ => Exec.Triple.ret fun s hs => ⟨hs.1, fun e he => ?_⟩) fun e => ?_
  · obtain ⟨code, hcode⟩ := hs.2
    rw [hcode] at he
    cases he
  · cases e with
    | smtpTransport =>
        refine Exec.Triple.ret ?_
        rintro s ⟨hs, herror | ⟨code, hcode, _⟩⟩
        · exact ⟨hs, fun e he => by rw [herror] at he; cases he; rfl⟩
        · cases hcode
    | smtpOutcomeUnknown =>
        refine Exec.Triple.ret ?_
        rintro s ⟨hs, herror | ⟨code, hcode, _⟩⟩
        · have h := exchangeResult_error herror
          simp at h
        · cases hcode
    | smtpRejected code stage' =>
        refine Exec.Triple.ret ?_
        rintro s ⟨hs, herror | ⟨code', _, hok⟩⟩
        · have h := exchangeResult_error herror
          simp at h
        · exact ⟨hs, fun e he => by rw [hok] at he; cases he⟩
    | _ =>
        refine Exec.Triple.raise ?_
        rintro s ⟨hs, herror | ⟨code, hcode, _⟩⟩
        · exact ⟨hs, herror, by simp⟩
        · cases hcode

/-- The window was entered and every call in it succeeded or failed with a wrapped error. -/
def Returned (script : Script) (s : Session) : Prop :=
  s.dataTerminatorSent = true ∧ exchangeResult script.terminator = .ok 250 ∧
    ∀ e, exchangeResult script.quit = .error e → e = .smtpTransport

/-- The window was entered and `e` leaves it. -/
def Raised (script : Script) (e : HelperException) (s : Session) : Prop :=
  s.dataTerminatorSent = true ∧
    ((∃ e', exchangeResult script.terminator = .error e' ∧
        (e = e' ∨ e' = .smtpTransport ∧ e = .smtpOutcomeUnknown)) ∨
      (∃ code, s.bodyReply = some code ∧ code ≠ 250) ∨
      (exchangeResult script.terminator = .ok 250 ∧ exchangeResult script.quit = .error e ∧
        e ≠ .smtpTransport))

theorem afterTerminator_result (script : Script) (recipients : Nat) :
    Exec.Triple (fun _ => True) (afterTerminator script recipients)
      (fun _ => Returned script) (Raised script) := by
  refine Exec.Triple.bind (Q := fun _ s => s.dataTerminatorSent = true)
    (Exec.Triple.update fun _ _ => rfl) fun _ => ?_
  refine Exec.Triple.bind (Q := fun _ s => s.dataTerminatorSent = true ∧
      exchangeResult script.terminator = response script.terminator.reply)
    (write_spec (fun count s hwrite hs => ⟨hs, by simp [exchangeResult, hwrite]⟩)
      fun error s hwrite hs => ⟨hs, .inl ⟨_, by simp [exchangeResult, hwrite], .inl rfl⟩⟩)
    fun _ => ?_
  refine Exec.Triple.bind (Q := fun code s => s.dataTerminatorSent = true ∧
      exchangeResult script.terminator = .ok code)
    (Exec.Triple.handle (E := fun e s => s.dataTerminatorSent = true ∧
        exchangeResult script.terminator = .error e)
      (readResponse_spec (fun code s hreply hs => ⟨hs.1, hs.2.trans hreply⟩)
        fun e s hreply hs => ⟨hs.1, hs.2.trans hreply⟩) fun e => ?_) fun code => ?_
  · cases e with
    | smtpTransport =>
        exact Exec.Triple.raise fun s hs => ⟨hs.1, .inl ⟨_, hs.2, .inr ⟨rfl, rfl⟩⟩⟩
    | _ => exact Exec.Triple.raise fun s hs => ⟨hs.1, .inl ⟨_, hs.2, .inl rfl⟩⟩
  refine Exec.Triple.bind (Q := fun _ s => s.dataTerminatorSent = true ∧
      exchangeResult script.terminator = .ok code ∧ s.bodyReply = some code)
    (Exec.Triple.update fun s hs => ⟨hs.1, hs.2, rfl⟩) fun _ => ?_
  refine Exec.Triple.bind (Q := fun _ s => s.dataTerminatorSent = true ∧
      exchangeResult script.terminator = .ok 250)
    (Exec.Triple.ensure ?_ ?_) fun _ => ?_
  · intro s hs hcode
    have h250 : code = 250 := by simpa using hcode
    exact ⟨hs.1, h250 ▸ hs.2.1⟩
  · intro s hs hcode
    exact ⟨hs.1, .inr (.inl ⟨code, hs.2.2, by simpa using hcode⟩)⟩
  refine Exec.Triple.bind (Exec.Triple.conseq
    (suppressSmtpError_result (fun _ _ _ hs => hs) script.quit _ _ _)
    (fun s hs => hs) (fun _ s hs => hs)
    fun e s hs => ⟨hs.1.1, .inr (.inr ⟨hs.1.2, hs.2.1, hs.2.2⟩)⟩) fun _ => ?_
  exact Exec.Triple.ret fun s hs => ⟨hs.1.1, hs.1.2, hs.2⟩

/-- The body of `send` with its handler: a run that has not entered the window, or one whose
wrapped errors have become an unknown outcome. -/
theorem classifyTransport_result (script : Script) (args : Submission) :
    Exec.Triple (fun s => s.dataTerminatorSent = false)
      (classifyTransport do
        beforeTerminator script args
        afterTerminator script args.recipients.length)
      (fun _ => Returned script)
      (fun e s => s.dataTerminatorSent = false ∨ Raised script e s ∧ e ≠ .smtpTransport) := by
  have hbefore : Exec.Keeps (fun s : Session => s.dataTerminatorSent = false)
      (beforeTerminator script args) := beforeTerminator_keeps (fun _ _ _ hs => hs) script args
  refine Exec.Triple.handle (E := fun e s => s.dataTerminatorSent = false ∨ Raised script e s)
    (Exec.Triple.bind (Exec.Triple.conseq hbefore (fun _ hs => hs) (fun _ _ hs => hs)
      fun _ _ hs => .inl hs) fun _ => Exec.Triple.conseq (afterTerminator_result script _)
      (fun _ _ => trivial) (fun _ _ hs => hs) fun _ _ hs => .inr hs) fun e => ?_
  cases e with
  | smtpTransport =>
      refine Exec.Triple.bind (Q := fun sent s => sent = s.dataTerminatorSent ∧
          (s.dataTerminatorSent = false ∨ Raised script .smtpTransport s))
        (Exec.Triple.inspect fun s hs => ⟨rfl, hs⟩) fun sent => ?_
      refine Exec.Triple.ite (fun hsent => Exec.Triple.raise ?_) fun hsent => Exec.Triple.raise ?_
      · rintro s ⟨hflag, hfalse | hraised⟩
        · rw [hfalse] at hflag
          simp [hflag] at hsent
        · obtain ⟨hs, ⟨e', herror, hcase⟩ | hreply | ⟨_, _, hne⟩⟩ := hraised
          · refine .inr ⟨⟨hs, .inl ⟨e', herror, .inr ⟨?_, rfl⟩⟩⟩, by simp⟩
            rcases hcase with rfl | ⟨_, hunknown⟩
            · rfl
            · cases hunknown
          · exact .inr ⟨⟨hs, .inr (.inl hreply)⟩, by simp⟩
          · exact absurd rfl hne
      · rintro s ⟨hflag, _⟩
        left
        rw [← hflag]
        simpa using hsent
  | _ =>
      refine Exec.Triple.raise ?_
      rintro s (hs | hs)
      · exact .inl hs
      · exact .inr ⟨hs, by simp⟩

end Window

/-! ## The classification of a submission -/

/-- The run of `send` proper: past the argument checks and with an open channel. -/
theorem send_eq_transaction {script : Script} {args : Submission}
    (hsent : (send script args {}).2.dataTerminatorSent = true) :
    send script args {} = transaction script args {} := by
  unfold send at hsent ⊢
  cases hargs : checkArguments args with
  | error e => simp [hargs, Exec.raise] at hsent
  | ok u =>
      cases hopening : script.opening with
      | some error => simp [hargs, hopening, Exec.raise] at hsent
      | none => rfl

theorem transaction_of_close {script : Script} (args : Submission) {error : ChannelError}
    (hclose : script.close = some error) (s : Session) :
    (transaction script args s).1 = .error error.exception := by
  simp [transaction, Exec.finallyDo, close, hclose, Exec.raise]

theorem transaction_of_close_none {script : Script} (args : Submission)
    (hclose : script.close = none) (s : Session) :
    transaction script args s = classifyTransport (do
      beforeTerminator script args
      afterTerminator script args.recipients.length) s := by
  simp [transaction, Exec.finallyDo, close, hclose, pure, Exec.pure]

/-- Of the errors that leave the window only a wrapped one is reported as unknown. -/
theorem raised_outcomeUnknown_iff {script : Script} {e : HelperException} {s : Session}
    (hraised : Raised script e s) (htransport : e ≠ .smtpTransport)
    (hreply : ∀ code, s.bodyReply = some code → code = 250) (hclose : script.close = none) :
    e = .smtpOutcomeUnknown ↔ WindowClean script := by
  obtain ⟨_, ⟨e', herror, rfl | ⟨rfl, rfl⟩⟩ | ⟨code, hcode, hne⟩ | ⟨h250, hquit, _⟩⟩ := hraised
  · refine iff_of_false ?_ fun hclean => htransport (hclean.terminator e herror)
    rintro rfl
    simpa using exchangeResult_error herror
  · refine iff_of_true rfl ⟨fun e he => ?_, fun h250 => ?_, hclose⟩
    · rw [herror] at he
      cases he
      rfl
    · rw [herror] at h250
      cases h250
  · exact absurd (hreply code hcode) hne
  · refine iff_of_false ?_ fun hclean => htransport (hclean.quit h250 e hquit)
    rintro rfl
    simpa using exchangeResult_error hquit

/-- Once the terminator may be on the wire, and unless the server rejects the message itself,
a submission is reported as accepted or unknown exactly when no call of the window raises an
unwrapped operating-system error and `close` raises nothing. -/
theorem notRetryable_iff_windowClean (script : Script) (args : Submission)
    (messageId : Option String) (saved : Bool)
    (hsent : (send script args {}).2.dataTerminatorSent = true)
    (hreply : ∀ code, (send script args {}).2.bodyReply = some code → code = 250) :
    NotRetryable script args messageId saved ↔ WindowClean script := by
  rw [notRetryable_iff]
  have hrun := send_eq_transaction hsent
  cases hclose : script.close with
  | some error =>
      have hresult := transaction_of_close args hclose {}
      rw [← hrun] at hresult
      constructor
      · rintro (hunknown | ⟨n, hok⟩)
        · rw [hresult] at hunknown
          cases error <;> cases hunknown
        · rw [hresult] at hok
          cases hok
      · intro hclean
        have h := hclean.close
        rw [hclose] at h
        cases h
  | none =>
      rw [transaction_of_close_none args hclose] at hrun
      have htriple := classifyTransport_result script args
      cases hresult : (send script args {}).1 with
      | ok n =>
          have hreturned : Returned script (send script args {}).2 := by
            rw [hrun] at hresult ⊢
            exact htriple.of_ok rfl hresult
          obtain ⟨_, hterminator, hquit⟩ := hreturned
          refine iff_of_true (.inr ⟨n, rfl⟩) ⟨fun e he => ?_, fun _ => hquit, hclose⟩
          rw [hterminator] at he
          cases he
      | error e =>
          have hraised : Raised script e (send script args {}).2 ∧ e ≠ .smtpTransport := by
            rw [hrun] at hresult hsent ⊢
            rcases htriple.of_error rfl hresult with hfalse | hraised
            · rw [hfalse] at hsent
              cases hsent
            · exact hraised
          have hunknown := raised_outcomeUnknown_iff hraised.1 hraised.2 hreply hclose
          rw [← hunknown]
          simp

/-! ### The two sides of the window -/

/-- The terminator's own write times out on the native channel. -/
def terminatorTimeout : Script :=
  { acceptingScript with terminator := ⟨.fails .timeout, replyLine 0x32 0x35 0x30⟩ }

/-- The connection is lost, as the client's own error, before the final reply. -/
def replyLost : Script :=
  { acceptingScript with terminator := ⟨.accepts 4096, fun _ => .fails .transport⟩ }

theorem notRetryable_iff_windowClean_replyLost :
    (send replyLost twoLines {}).2.dataTerminatorSent = true ∧
      (send replyLost twoLines {}).2.bodyReply = none ∧
      (NotRetryable replyLost twoLines none true ↔ WindowClean replyLost) := by
  have hsent : (send replyLost twoLines {}).2.dataTerminatorSent = true := by decide +kernel
  have hreply : (send replyLost twoLines {}).2.bodyReply = none := by decide +kernel
  refine ⟨hsent, hreply, notRetryable_iff_windowClean replyLost twoLines none true hsent ?_⟩
  intro code hcode
  rw [hreply] at hcode
  cases hcode

/-- A timeout while the terminator is written is reported as a rejection that may be resent. -/
theorem terminatorTimeout_is_retryable :
    (send terminatorTimeout twoLines {}).2.dataTerminatorSent = true ∧
      (send terminatorTimeout twoLines {}).2.bodyReply = none ∧
      submit terminatorTimeout twoLines none = .error (.rejected none) ∧
      (deliverAndSave (submit terminatorTimeout twoLines none) true).retryDelivery = true := by
  decide +kernel

end MaddyWeb.Smtp.Delivery
