import MaddyWeb.Auth.Store
import MaddyWeb.Helper.Audit
import MaddyWeb.Library.Dict
import MaddyWeb.Maddy.Accounts
import MaddyWeb.Protocol.Message
import Mathlib.Data.List.Sort

/-!
# Authorization of the helper's operations

A request names an operation of a fixed table.  `_authorize_request` decides whether
its handler is called and which account it is called for; a handler is any program
over the services of the dispatcher.  The auth store is kept as the calls that it has
had, so that whatever reaches it is one of its operations.
-/

namespace MaddyWeb.Helper.Authorization

open MaddyWeb.Library MaddyWeb.Helper.Errors MaddyWeb.Helper.Audit MaddyWeb.Maddy.Service
open MaddyWeb.Maddy.Accounts (World listNames)
open MaddyWeb.Protocol (Request Response WireError ErrorPayload)
open MaddyWeb.Auth (AuthError Reply SessionPrincipal)

/-! ## Operations -/

inductive Permission
  | publicAccess
  | session
  | admin
  | adminAccount
  | account
  deriving DecidableEq, Repr

/-- `_Operation` -/
structure Operation where
  method : String
  mutating : Bool := false
  streamIn : Bool := false
  streamOut : Bool := false
  permission : Permission := .admin
  stepUp : Bool := false
  touchSession : Bool := true
  auditSuccess : Bool := true
  deriving DecidableEq, Repr

/-- `ALLOWED_OPERATIONS` -/
def allowedOperations : List (String × Operation) :=
  [("maddy.health", { method := "_maddy_health", permission := .publicAccess }),
    ("maddy.version", { method := "_version", permission := .publicAccess }),
    ("maddy.verify_config", { method := "_verify_config" }),
    ("auth.password_begin",
      { method := "_auth_password_begin", mutating := true, permission := .publicAccess }),
    ("auth.enrollment_begin",
      { method := "_auth_enrollment_begin", mutating := true, permission := .publicAccess }),
    ("auth.enrollment_complete",
      { method := "_auth_enrollment_complete", mutating := true, permission := .publicAccess }),
    ("auth.totp_complete",
      { method := "_auth_totp_complete", mutating := true, permission := .publicAccess }),
    ("auth.recovery_complete",
      { method := "_auth_recovery_complete", mutating := true, permission := .publicAccess }),
    ("auth.passkey_login_begin",
      { method := "_auth_passkey_login_begin", mutating := true, permission := .publicAccess }),
    ("auth.passkey_login_complete",
      { method := "_auth_passkey_login_complete", mutating := true, permission := .publicAccess }),
    ("auth.session", { method := "_auth_session", permission := .session }),
    ("auth.session_peek",
      { method := "_auth_session", permission := .session, touchSession := false,
        auditSuccess := false }),
    ("auth.logout", { method := "_auth_logout", mutating := true, permission := .session }),
    ("auth.change_password",
      { method := "_auth_change_password", mutating := true, permission := .session,
        stepUp := true }),
    ("auth.recovery_regenerate",
      { method := "_auth_recovery_regenerate", mutating := true, permission := .session }),
    ("auth.step_up", { method := "_auth_step_up", mutating := true, permission := .session }),
    ("auth.passkeys_list", { method := "_auth_passkeys_list", permission := .session }),
    ("auth.passkey_register_begin",
      { method := "_auth_passkey_register_begin", mutating := true, permission := .session,
        stepUp := true }),
    ("auth.passkey_register_complete",
      { method := "_auth_passkey_register_complete", mutating := true, permission := .session,
        stepUp := true }),
    ("auth.passkey_delete",
      { method := "_auth_passkey_delete", mutating := true, permission := .session,
        stepUp := true }),
    ("auth.passkey_step_up_begin",
      { method := "_auth_passkey_step_up_begin", mutating := true, permission := .session }),
    ("auth.passkey_step_up_complete",
      { method := "_auth_passkey_step_up_complete", mutating := true, permission := .session }),
    ("auth.sessions_list", { method := "_auth_sessions_list", permission := .session }),
    ("auth.session_revoke_other",
      { method := "_auth_session_revoke_other", mutating := true, permission := .session,
        stepUp := true }),
    ("auth.admin_rotate_totp",
      { method := "_auth_admin_rotate_totp", mutating := true, permission := .admin,
        stepUp := true }),
    ("accounts.list", { method := "_accounts_list" }),
    ("accounts.create", { method := "_accounts_create", mutating := true, stepUp := true }),
    ("accounts.change_password",
      { method := "_accounts_password", mutating := true, permission := .adminAccount,
        stepUp := true }),
    ("accounts.disable_credentials",
      { method := "_accounts_disable", mutating := true, permission := .adminAccount,
        stepUp := true }),
    ("accounts.delete_imap_account",
      { method := "_accounts_delete_imap", mutating := true, permission := .adminAccount,
        stepUp := true }),
    ("accounts.get_append_limit", { method := "_append_limit_get", permission := .adminAccount }),
    ("accounts.set_append_limit",
      { method := "_append_limit_set", mutating := true, permission := .adminAccount,
        stepUp := true }),
    ("mailboxes.list", { method := "_mailboxes_list", permission := .account }),
    ("mailboxes.create",
      { method := "_mailboxes_create", mutating := true, permission := .account }),
    ("mailboxes.delete",
      { method := "_mailboxes_delete", mutating := true, permission := .account, stepUp := true }),
    ("mailboxes.rename",
      { method := "_mailboxes_rename", mutating := true, permission := .account }),
    ("rules.list", { method := "_rules_list", permission := .account }),
    ("rules.create",
      { method := "_rules_create", mutating := true, permission := .account, stepUp := true }),
    ("rules.update",
      { method := "_rules_update", mutating := true, permission := .account, stepUp := true }),
    ("rules.delete",
      { method := "_rules_delete", mutating := true, permission := .account, stepUp := true }),
    ("rules.reorder",
      { method := "_rules_reorder", mutating := true, permission := .account, stepUp := true }),
    ("rules.run_create",
      { method := "_rules_run_create", mutating := true, permission := .account, stepUp := true }),
    ("rules.run_status", { method := "_rules_run_status", permission := .account }),
    ("rules.run_step",
      { method := "_rules_run_step", mutating := true, permission := .account, stepUp := true }),
    ("rules.run_cancel",
      { method := "_rules_run_cancel", mutating := true, permission := .account }),
    ("messages.list", { method := "_messages_list", permission := .account }),
    ("messages.latest",
      { method := "_messages_latest", permission := .account, touchSession := false,
        auditSuccess := false }),
    ("messages.get", { method := "_messages_get", streamOut := true, permission := .account }),
    ("messages.append",
      { method := "_messages_append", mutating := true, streamIn := true, permission := .account }),
    ("messages.delete",
      { method := "_messages_delete", mutating := true, permission := .account, stepUp := true }),
    ("messages.delete_many",
      { method := "_messages_delete_many", mutating := true, permission := .account,
        stepUp := true }),
    ("messages.copy", { method := "_messages_copy", mutating := true, permission := .account }),
    ("messages.move", { method := "_messages_move", mutating := true, permission := .account }),
    ("messages.set_flags",
      { method := "_messages_set_flags", mutating := true, permission := .account }),
    ("messages.add_flags",
      { method := "_messages_add_flags", mutating := true, permission := .account }),
    ("messages.remove_flags",
      { method := "_messages_remove_flags", mutating := true, permission := .account }),
    ("messages.send",
      { method := "_messages_send", mutating := true, streamIn := true, permission := .account }),
    ("certificates.list", { method := "_certificates_list" }),
    ("certificates.health", { method := "_certificates_health" }),
    ("certificates.status", { method := "_certificates_status" }),
    ("certificates.timer_enable",
      { method := "_certificates_timer_enable", mutating := true, stepUp := true }),
    ("certificates.timer_disable",
      { method := "_certificates_timer_disable", mutating := true, stepUp := true }),
    ("certificates.renew_dry_run",
      { method := "_certificates_dry_run", mutating := true, stepUp := true }),
    ("certificates.renew", { method := "_certificates_renew", mutating := true, stepUp := true })]

/-- The operations that an account may use whose password has to be changed. -/
def passwordChangeOperations : List String :=
  ["auth.session", "auth.session_peek", "auth.logout", "auth.change_password", "auth.step_up",
    "auth.passkeys_list", "auth.passkey_step_up_begin", "auth.passkey_step_up_complete",
    "auth.sessions_list"]

/-! ## The dispatcher -/

/-- A call of a handler: the request as it was received and as the handler gets it, the
principal of the request context, the calls that the auth store had had when `dispatch` was
entered and when the handler was called. -/
structure HandlerCall where
  operation : Operation
  received : Request
  request : Request
  input : Option Nat
  principal : Option SessionPrincipal
  entered : List Auth.Call
  calls : List Auth.Call

/-- `auth` has the calls of the auth store, if there is one; `fields` are the audit fields of
the request, `principal` and `authAudit` its `_request_context`. -/
structure Desk where
  maddy : World
  auth : Option (List Auth.Call)
  fields : Params
  principal : Option SessionPrincipal
  authAudit : Option Params
  handled : List HandlerCall
  audited : List (String × Params)

abbrev Dispatching (α : Type) := Exec Desk HelperException α

/-- What a handler returns: a value, or a spool, which may fail to rewind. -/
inductive HandlerValue
  | value (result : Json)
  | spool (length : Int) (rewinds : Bool)

/-- A handler reaches the auth store through its operations only. -/
structure Handler where
  run : Request → Option Nat → Dispatching HandlerValue
  handled : ∀ request input d, (run request input d).2.handled = d.handled
  extends_calls : ∀ request input d calls, d.auth = some calls →
    ∃ more, (run request input d).2.auth = some (calls ++ more)

/-- The functions behind the dispatcher, and what a call of the auth store finds. -/
structure Site where
  env : Auth.Env
  text : TextRules
  casefold : String → String
  /-- the order in which a set of names is read -/
  members : List String → List String
  mem_members : ∀ names name, name ∈ members names ↔ name ∈ names
  random : Nat → Auth.Random
  clock : Nat → Option Nat
  later : Nat → Option Nat
  handlers : String → Handler

variable (site : Site)

def Site.call (op : Auth.Op) (calls : List Auth.Call) : Auth.Call :=
  ⟨op, site.random calls.length, site.clock calls.length, site.later calls.length⟩

/-- The database that the calls have led to. -/
def Site.db (calls : List Auth.Call) : Auth.Db := Auth.Db.afterAll site.env {} calls

/-- What `_safe_error` tells of the exceptions of the auth store. -/
def ofAuthError : AuthError → HelperException
  | .value _ => .value
  | .accountNotFound => .accountNotFound
  | .enrollmentState _ => .enrollmentState
  | .invalidChallenge _ => .invalidChallenge
  | .invalidSecondFactor => .invalidSecondFactor
  | .invalidPasskey _ => .invalidPasskey
  | .invalidSession => .invalidSession
  | .loginRateLimited _ => .loginRateLimited
  | .passkeyLimit => .passkeyLimit
  | .mailRuleLimit => .mailRuleLimit
  | .mailRuleNotFound _ => .mailRuleNotFound
  | .mailRuleConflict _ => .mailRuleConflict
  | .authentication _ | .accountExists | .stepUpRequired | .data _ | .integrity => .other

/-- The `except` clause around `require_step_up`. -/
def ofStepUpError : AuthError → HelperException
  | .invalidSession | .stepUpRequired => .stepUpRequired
  | e => ofAuthError e

def ofServiceError : ServiceError → HelperException
  | .invalidArgument _ => .invalidMaddyArgument
  | .command e => e
  | .verification _ => .maddy
  | .partialOperation .. => .partialOperation

def ofWireError : WireError → HelperException
  | .protocol _ | .frameTooLarge _ | .closed => .protocol
  | .stream _ | .streamTooLarge _ | .streamTruncated _ => .stream
  | .value _ => .value
  | .struct | .os | .runtime _ => .other

/-- One call of the auth store, and the part of its reply that is used. -/
def callStore {α : Type} (raised : AuthError → HelperException) (op : Auth.Op)
    (used : Reply → Option α) : Dispatching α := fun d =>
  match d.auth with
  | none => (.error .other, d)
  | some calls =>
      let d' := { d with auth := some (calls ++ [site.call op calls]) }
      match (Auth.perform site.env (site.call op calls) (site.db calls)).1 with
      | .error e => (.error (raised e), d')
      | .ok reply =>
          match used reply with
          | none => (.error .other, d')
          | some value => (.ok value, d')

def principalOf : Reply → Option SessionPrincipal
  | .principal principal => some principal
  | _ => none

def accountOf : Reply → Option Auth.Account
  | .account account => some account
  | _ => none

def countOf : Reply → Option Nat
  | .count count => some count
  | _ => none

def onMaddy {α : Type} (m : Maddy.Accounts.Service α) : Dispatching α :=
  Exec.focus Desk.maddy (fun d w => { d with maddy := w }) ofServiceError m

def ofWire {α : Type} (outcome : Except WireError α) : Dispatching α :=
  Exec.ofExcept (outcome.mapError ofWireError)

def setField (name : String) (value : Json) : Dispatching Unit :=
  Exec.update fun d => { d with fields := Dict.set d.fields name value }

/-! ## The principal of a request -/

structure MaddyAccount where
  username : String
  hasCredentials : Bool
  hasMailbox : Bool
  deriving DecidableEq, Repr

/-- `list_accounts(include_append_limits=False)` -/
def listAccounts : Maddy.Accounts.Service (List MaddyAccount) := do
  let credentials ← listNames .credentials
  let mailboxes ← listNames .mailbox
  let names := (site.members (credentials ++ mailboxes)).insertionSort fun a b =>
    site.casefold a ≤ site.casefold b
  return names.map fun username =>
    ⟨username, credentials.contains username, mailboxes.contains username⟩

/-- `_maddy_account` -/
def maddyAccount (email : String) : Dispatching (Option MaddyAccount) := do
  let accounts ← onMaddy (listAccounts site)
  return accounts.find? fun account => site.casefold account.username == site.casefold email

/-- `_require_active_principal` -/
def requireActivePrincipal (principal : SessionPrincipal) : Dispatching Unit := do
  let record ← maddyAccount site principal.email
  if record.any fun account => account.hasCredentials && account.hasMailbox then return ()
  else
    let _ ← callStore site ofAuthError (.revokeSessions principal.accountId) countOf
    Exec.raise .authorizationDenied

def roleValue : Auth.Role → String
  | .admin => "admin"
  | .user => "user"

/-! ## Authorization -/

/-- `params.pop("target_account_id", None)` -/
def targetAccountId (params : Params) : Dispatching (Option String) :=
  match Json.get? params "target_account_id" with
  | none | some .null => return none
  | some (.str targetId) => return some targetId
  | some _ => Exec.raise .value

/-- The account that an operation on an account is for. -/
def resolveTarget (operation : Operation) (principal : SessionPrincipal) (params : Params) :
    Dispatching Auth.Account := do
  match ← targetAccountId params with
  | none =>
      Exec.ensure (operation.permission ≠ .adminAccount) .value
      callStore site ofAuthError (.resolveAccountId principal.accountId) accountOf
  | some targetId =>
      let target ← callStore site ofAuthError (.resolveAccountId targetId) accountOf
      Exec.ensure (principal.role = .admin ∨ target.accountId = principal.accountId)
        .authorizationDenied
      return target

/-- The parameters that the handler gets. -/
def targetParams (request : Request) (operation : Operation) (principal : SessionPrincipal) :
    Dispatching Params := do
  if operation.permission = .account ∨ operation.permission = .adminAccount then
    let target ← resolveTarget site operation principal request.params
    setField "target" (.str target.email)
    return Dict.set (Dict.erase request.params "target_account_id") "username" (.str target.email)
  else if request.operation = "auth.admin_rotate_totp" then
    match Json.get? request.params "target_account_id" with
    | some (.str targetId) =>
        let target ← callStore site ofAuthError (.resolveAccountId targetId) accountOf
        setField "target" (.str target.email)
        return request.params
    | _ => Exec.raise .value
  else return request.params

/-- The checks of the principal that a session token has. -/
def authenticate (request : Request) (operation : Operation) (touch : Bool) :
    Dispatching SessionPrincipal := do
  let token ← Exec.require (fun _ => request.authToken) .authorizationDenied
  let principal ← callStore site ofAuthError (.authenticateSession token touch) principalOf
  setField "actor" (.str principal.email)
  setField "role" (.str (roleValue principal.role))
  requireActivePrincipal site principal
  Exec.ensure (!principal.passwordChangeRequired ||
    passwordChangeOperations.contains request.operation) .passwordChangeRequired
  Exec.ensure (!(operation.permission == .admin || operation.permission == .adminAccount) ||
    principal.role == .admin) .authorizationDenied
  if operation.stepUp then
    let _ ← callStore site ofStepUpError (.requireStepUp token) principalOf
    return principal
  else return principal

/-- `Request(…, params=params, …)` -/
def withParams (request : Request) (params : Params) : Except WireError Request :=
  Request.make (some (.str request.requestId)) (some (.str request.operation)) params
    (request.authToken.map .str) (request.streamLength.map .int)

/-- `_authorize_request` -/
def authorizeRequest (request : Request) (operation : Operation) (touch : Bool) :
    Dispatching (Request × Option SessionPrincipal) := do
  if operation.permission = .publicAccess then return (request, none)
  else
    Exec.require (fun d => if d.auth.isSome then some () else none) .authorizationDenied
    let principal ← authenticate site request operation touch
    let params ← targetParams site request operation principal
    let request ← ofWire (withParams request params)
    return (request, some principal)

/-! ## Dispatch -/

abbrev Serving (α : Type) := Exec Desk WireError α

def auditFields (request : Request) (streamLength : Int) : Params :=
  [("request_id", .str request.requestId), ("operation", .str request.operation), ("actor", .null),
    ("params", redactForAudit site.text "" (.obj request.params)),
    ("stream_length", .int streamLength)]

def audit (outcome : String) : Serving Unit :=
  Exec.update fun d => { d with audited := d.audited ++ [(outcome, d.fields)] }

def failure (request : Request) (code message : String) : Except WireError Response := do
  let error ← ErrorPayload.make (some (.str code)) (some (.str message))
  Response.failure (some (.str request.requestId)) error

def refuse (request : Request) (code message : String) : Serving Response := do
  audit code
  Exec.ofExcept (failure request code message)

/-- `except Exception as exc` -/
def refuseError (request : Request) (e : HelperException) : Serving Response :=
  refuse request (safeError e).1 (safeError e).2

/-- A `try` statement whose `except` clause does not raise the exception again. -/
def answering {α β : Type} (m : Dispatching α) (answer : α → Serving β)
    (refused : HelperException → Serving β) : Serving β := fun d =>
  match m d with
  | (.ok value, d') => answer value d'
  | (.error e, d') => refused e d'

/-- The response to what a handler returned. -/
def responseTo (request : Request) : HandlerValue → Dispatching Response
  | .value result => ofWire (Response.success (some (.str request.requestId)) result none)
  | .spool length rewinds => do
      Exec.ensure rewinds .other
      ofWire (Response.success (some (.str request.requestId)) (.obj [("stream", .bool true)])
        (some (.int length)))

/-- The call of the handler, which the context of the request is set for. -/
def handle (received request : Request) (operation : Operation)
    (principal : Option SessionPrincipal)
    (input : Option Nat) (entered : List Auth.Call) : Dispatching HandlerValue := do
  Exec.update fun d => { d with
    principal := principal
    handled := d.handled ++
      [⟨operation, received, request, input, principal, entered, d.auth.getD []⟩] }
  (site.handlers operation.method).run request input

/-- The `try` block of `dispatch`. -/
def attempt (request : Request) (operation : Operation) (input : Option Nat) :
    Dispatching Response := do
  let entered ← Exec.inspect fun d : Desk => d.auth.getD []
  let (authorized, principal) ← authorizeRequest site request operation operation.touchSession
  let value ← handle site request authorized operation principal input entered
  responseTo authorized value

/-- `fields.update(authentication_fields)` and the record of a success -/
def recordSuccess (operation : Operation) (response : Response) : Serving Response := do
  Exec.update fun d => { d with
    fields := (d.authAudit.getD []).foldl (fun fields entry => Dict.set fields entry.1 entry.2)
      d.fields }
  if operation.auditSuccess then audit "ok"
  return response

def clearContext : Serving Unit :=
  Exec.update fun d => { d with principal := none, authAudit := none }

/-- `dispatch`; `input` is the length of the uploaded spool. -/
def dispatch (request : Request) (input : Option Nat) : Serving Response := do
  Exec.update fun d => { d with fields := auditFields site request (input.getD 0) }
  match Dict.get allowedOperations request.operation with
  | none => refuse request "operation_denied" "Operation is not allow-listed"
  | some operation =>
      if operation.streamIn ≠ input.isSome then
        refuse request "invalid_stream" "Operation stream shape does not match"
      else
        Exec.finallyDo
          (answering (attempt site request operation input) (recordSuccess operation)
            (refuseError request))
          clearContext

/-- `preflight` -/
def preflight (request : Request) : Serving (Option Response) := do
  Exec.update fun d => { d with fields := auditFields site request (request.streamLength.getD 0) }
  match Dict.get allowedOperations request.operation with
  | none => some <$> refuse request "operation_denied" "Operation is not allow-listed"
  | some operation =>
      if operation.streamIn ≠ request.streamLength.isSome then
        some <$> refuse request "invalid_stream" "Operation stream shape does not match"
      else
        answering (authorizeRequest site request operation false) (fun _ => return none)
          fun e => some <$> refuseError request e

/-! ## The helper at work -/

/-- A call of the auth store by another program; a change of the accounts of Maddy. -/
inductive Interference
  | call (call : Auth.Call)
  | maddy (world : World)

def Desk.disturb (d : Desk) : Interference → Desk
  | .call call => { d with auth := d.auth.map (· ++ [call]) }
  | .maddy world => { d with maddy := world }

/-- A connection, with the length of the upload that was received, if one was, and what other
programs have done between its two authorizations; or something that they do at another time. -/
inductive Event
  | connection (request : Request) (meanwhile : List Interference) (received : Option Nat)
  | other (interference : Interference)

/-- The requests of `serve_connection`: an upload is authorized before it is received, and again
after it. -/
def serve (request : Request) (meanwhile : List Interference) (received : Option Nat) :
    Serving Unit := do
  if request.streamLength.isSome then
    match ← preflight site request with
    | some _ => return ()
    | none =>
        Exec.update fun d => meanwhile.foldl Desk.disturb d
        match received with
        | none => return ()
        | some length =>
            let _ ← dispatch site request (some length)
            return ()
  else
    let _ ← dispatch site request none
    return ()

def Desk.next (d : Desk) : Event → Desk
  | .connection request meanwhile received => (serve site request meanwhile received d).2
  | .other interference => d.disturb interference

def Desk.after (d : Desk) (events : List Event) : Desk := events.foldl (Desk.next site) d

/-- The dispatcher before its first request. -/
def Desk.new (maddy : World) : Desk := ⟨maddy, some [], [], none, none, [], []⟩

end MaddyWeb.Helper.Authorization
