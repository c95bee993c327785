import Mathlib.Logic.Basic

/-!
# The exceptions of the privileged helper and their public codes

Every exception that a handler can raise, by class, and the table
`PrivilegedDispatcher._safe_error` that turns it into the code and the text
sent to the unprivileged gateway.
-/

namespace MaddyWeb.Helper.Errors

/-- The exception classes the helper tells apart; `other` stands for the rest. -/
inductive HelperException
  | loginRateLimited
  | invalidSession
  | invalidChallenge
  | invalidSecondFactor
  | invalidPasskey
  | passkeyLimit
  | accountNotFound
  | enrollmentState
  | invalidCredentials
  | passwordChangeRequired
  | stepUpRequired
  | authorizationDenied
  | smtpOutcomeUnknown
  | smtpRejected (code : Nat) (stage : String)
  | smtpTransport
  | mailRuleNotFound
  | mailRuleConflict
  | ruleMailboxConflict
  | mailRuleLimit
  | value
  | invalidMaddyArgument
  | protocol
  | stream
  | unsupportedVersion
  | unsupportedCapability
  | capabilityFingerprint
  | legacyLdapUnsafe
  | runtimeConfigUnsafe
  | commandTimeout
  | timeout
  | commandOutputLimit
  | commandInput
  | staleMessageCursor
  | commandFailed
  | commandLaunch
  | partialOperation
  | maddy
  | certificateCommand
  | certificate
  | other
  deriving DecidableEq, Repr

/-- `SMTPRejected.temporary` -/
def temporary (code : Nat) : Bool := 400 ≤ code && code < 500

/-- `PrivilegedDispatcher._safe_error`: the public code and text of an exception. -/
def safeError : HelperException → String × String
  | .loginRateLimited => ("rate_limited", "Authentication rate limit exceeded")
  | .invalidSession => ("unauthorized", "Authentication is required")
  | .invalidChallenge => ("invalid_challenge", "Authentication challenge is invalid or expired")
  | .invalidSecondFactor => ("invalid_second_factor", "The authentication code is invalid")
  | .invalidPasskey => ("invalid_credentials", "The authentication request was rejected")
  | .passkeyLimit => ("limit_exceeded", "The passkey limit has been reached")
  | .accountNotFound | .enrollmentState | .invalidCredentials =>
    ("invalid_credentials", "Email address or password is invalid")
  | .passwordChangeRequired =>
    ("password_change_required", "Mailbox password change is required")
  | .stepUpRequired => ("step_up_required", "Recent authentication is required")
  | .authorizationDenied =>
    ("forbidden", "The authenticated identity is not allowed to perform this operation")
  | .smtpOutcomeUnknown =>
    ("smtp_outcome_unknown", "Delivery outcome is unknown; do not retry automatically")
  | .smtpRejected code stage =>
    if stage = "AUTH" then
      ("smtp_authentication_rejection", "SMTP authentication was rejected")
    else
      (if temporary code then "smtp_temporary_rejection" else "smtp_permanent_rejection",
        "SMTP rejected " ++ stage ++ " (" ++ toString code ++ ")")
  | .smtpTransport => ("smtp_transport", "Local SMTP transport failed before acceptance")
  | .mailRuleNotFound => ("not_found", "Mail rule or existing-mail run does not exist")
  | .mailRuleConflict | .ruleMailboxConflict =>
    ("conflict", "Mail rule state conflicts with this operation")
  | .mailRuleLimit => ("limit_exceeded", "The mail rule limit has been reached")
  | .value | .invalidMaddyArgument | .protocol | .stream =>
    ("invalid_request", "Request parameters are invalid")
  | .unsupportedVersion | .unsupportedCapability =>
    ("unsupported_maddy", "Installed Maddy version does not support this operation")
  | .capabilityFingerprint | .legacyLdapUnsafe | .runtimeConfigUnsafe =>
    ("writes_disabled", "Maddy write safety checks did not pass")
  | .commandTimeout | .timeout => ("timeout", "Privileged operation timed out")
  | .commandOutputLimit | .commandInput =>
    ("limit_exceeded", "Privileged operation exceeded a configured limit")
  | .staleMessageCursor => ("stale_cursor", "Mailbox changed; refresh before continuing")
  | .commandFailed | .commandLaunch | .partialOperation | .maddy =>
    ("maddy_failed", "Maddy administration operation failed")
  | .certificateCommand | .certificate =>
    ("certificate_failed", "Certificate operation failed")
  | .other => ("internal_error", "Privileged helper failed safely")

/-- Only an unknown SMTP outcome carries the code that forbids a retry. -/
theorem safeError_eq_outcomeUnknown_iff (e : HelperException) :
    (safeError e).1 = "smtp_outcome_unknown" ↔ e = .smtpOutcomeUnknown := by
  cases e with
  | smtpRejected code stage =>
      by_cases hstage : stage = "AUTH"
      · simp [safeError, hstage]
      · cases htemporary : temporary code <;> simp [safeError, hstage, htemporary]
  | _ => simp [safeError]

end MaddyWeb.Helper.Errors
