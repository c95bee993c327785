import MaddyWeb.Auth.Store
import MaddyWeb.Maddy.Accounts

/-!
# `maddyweb auth-bootstrap`

The command makes the Maddy accounts that its input asks for and then imports all records
into the auth store.  When a step raises, the accounts made so far are deleted again, the
last one first.
-/

namespace MaddyWeb.Cli.Bootstrap

open MaddyWeb.Library MaddyWeb.Library.Text MaddyWeb.Maddy.Accounts MaddyWeb.Maddy.Service

/-- `configuration` is the exception of a client or of the store that cannot be made. -/
inductive BootstrapError
  | runtime (message : String)
  | configuration
  | service (e : ServiceError)
  | auth (e : Auth.AuthError)
  deriving DecidableEq, Repr

structure BootstrapRecord where
  email : String
  role : Auth.Role
  totpSecret : String
  recoveryCodes : List String
  passwordChangeRequired : Bool
  createAccount : Bool
  initialPassword : String
  deriving DecidableEq, Repr

/-! ## Validation -/

abbrev Fields := List (String × Json)

def requiredFields : List String :=
  ["email", "role", "totp_secret", "recovery_codes", "password_change_required", "create_account"]

def allowedFields : List String := requiredFields ++ ["initial_password"]

def textOf : Option Json → Option String
  | some (.str value) => some value
  | _ => none

def boolOf : Option Json → Option Bool
  | some (.bool value) => some value
  | _ => none

/-- `Role(value)` -/
def roleOf : Option Json → Option Auth.Role
  | some (.str "admin") => some .admin
  | some (.str "user") => some .user
  | _ => none

def isBootstrapCode (code : String) : Bool :=
  Auth.isHex32 (String.ofList (asciiLower (code.toList.filter (· != '-'))))

/-- The recovery codes of a record: ten different texts of 32 digits each. -/
def codesOf : Option Json → Option (List String)
  | some (.arr items) =>
      match items.mapM fun item => textOf (some item) with
      | some codes =>
          if codes.length = 10 ∧ codes.all isBootstrapCode ∧ codes.eraseDups.length = 10 then
            some codes
          else none
      | none => none
  | _ => none

/-- The canonical address, when the identity of a record is valid. -/
def identityOf (fields : Fields) : Option (String × Auth.Role × String) := do
  let email ← textOf (Json.get? fields "email")
  let canonical ← Identity.canonicalizeEmail email
  let role ← roleOf (Json.get? fields "role")
  let secret ← textOf (Json.get? fields "totp_secret")
  let _ ← Auth.decodeTotpSecret secret
  return (canonical, role, secret)

def refuse {α : Type} (message : String) : Except BootstrapError α := .error (.runtime message)

/-- The pass of `_validated_bootstrap_records` over one value. -/
def validatedRecord (seen : List String) (fields : Fields) :
    Except BootstrapError BootstrapRecord := do
  if fields.any (fun field => !allowedFields.contains field.1) ||
      requiredFields.any (fun name => (Json.get? fields name).isNone) then
    refuse "authentication bootstrap account fields are invalid"
  let some (email, role, secret) := identityOf fields
    | refuse "authentication bootstrap identity is invalid"
  let some codes := codesOf (Json.get? fields "recovery_codes")
    | refuse "authentication bootstrap recovery codes are invalid"
  let some required := boolOf (Json.get? fields "password_change_required")
    | refuse "authentication bootstrap flags must be booleans"
  let some create := boolOf (Json.get? fields "create_account")
    | refuse "authentication bootstrap flags must be booleans"
  let some password := textOf (some ((Json.get? fields "initial_password").getD (.str "")))
    | refuse "authentication bootstrap initial password is invalid"
  if password.toList.any fun c => c == '\r' || c == '\n' || c.toNat == 0 then
    refuse "authentication bootstrap initial password is invalid"
  if create && !(16 ≤ password.length && password.length ≤ 256) then
    refuse "new bootstrap account password must contain 16 to 256 characters"
  if !create && password ≠ "" then
    refuse "existing bootstrap accounts must not carry a password"
  if seen.contains email then
    refuse "authentication bootstrap contains a duplicate account"
  return ⟨email, role, secret, codes, required, create, password⟩

/-- `_validated_bootstrap_records`, with the addresses already seen. -/
def validatedBootstrapRecords :
    List String → List Fields → Except BootstrapError (List BootstrapRecord)
  | _, [] => .ok []
  | seen, fields :: rest => do
      let record ← validatedRecord seen fields
      let records ← validatedBootstrapRecords (record.email :: seen) rest
      return record :: records

/-! ## The command -/

/-- The two stores, and the local variable `created_accounts`. -/
structure Site where
  maddy : World
  auth : Auth.Db
  created : List String

abbrev Command (α : Type) := Exec Site BootstrapError α

def onMaddy {α : Type} (m : Service α) : Command α :=
  Exec.focus Site.maddy (fun s w => { s with maddy := w }) BootstrapError.service m

def onAuth {α : Type} (m : Auth.Store α) : Command α :=
  Exec.focus Site.auth (fun s db => { s with auth := db }) BootstrapError.auth m

structure ListedAccount where
  username : String
  hasCredentials : Bool
  hasMailbox : Bool
  deriving DecidableEq, Repr

/-- `list_accounts(include_append_limits=False)`; names that fold alike keep the order of the
listings. -/
def listAccounts (casefold : String → String) : Service (List ListedAccount) := do
  let credentials ← listNames .credentials
  let mailboxes ← listNames .mailbox
  let names := (credentials ++ mailboxes).eraseDups.mergeSort fun a b => casefold a ≤ casefold b
  return names.map fun username =>
    ⟨username, credentials.contains username, mailboxes.contains username⟩

/-- `current.get(email.casefold())`: of names that fold alike the last one is in the dictionary. -/
def findCurrent (casefold : String → String) (accounts : List ListedAccount) (email : String) :
    Option ListedAccount :=
  accounts.reverse.find? fun account => casefold account.username == casefold email

/-- The first loop over the records. -/
def checkTarget (casefold : String → String) (accounts : List ListedAccount)
    (record : BootstrapRecord) : Except BootstrapError Unit :=
  let existing := findCurrent casefold accounts record.email
  if record.createAccount then
    if existing.isSome then refuse "new bootstrap target already exists in Maddy" else .ok ()
  else if existing.any fun account => account.hasCredentials && account.hasMailbox then .ok ()
  else refuse "bootstrap target is not a complete enabled Maddy account"

/-- One pass of the second loop over the records. -/
def createTarget (record : BootstrapRecord) : Command Unit :=
  if record.createAccount then do
    onMaddy (createAccount record.email record.initialPassword)
    Exec.update fun s => { s with created := s.created ++ [record.email] }
  else return ()

def BootstrapRecord.toAuth (record : BootstrapRecord) : Auth.AccountBootstrap :=
  ⟨record.email, record.role, record.totpSecret, record.recoveryCodes,
    record.passwordChangeRequired⟩

/-- One pass of the loop over `reversed(created_accounts)`: whether a deletion has failed. -/
def rollbackAccount (failed : Bool) (email : String) : Command Bool :=
  Exec.handle
    (do
      onMaddy (deleteAccount email)
      return failed)
    fun _ => return true

/-- The `except` branch. -/
def undoCreated (error : BootstrapError) : Command Unit := do
  let created ← Exec.inspect Site.created
  let failed ← created.reverse.foldlM rollbackAccount false
  if failed then
    Exec.raise
      (.runtime "authentication bootstrap failed and new-account rollback was not verified")
  else Exec.raise error

/-- What the process finds: its user, the two clients, and the store. -/
structure Setup where
  root : Bool
  clients : Bool
  store : Bool
  deriving DecidableEq, Repr

/-- The `try` block. -/
def importRecords (setup : Setup) (casefold : String → String) (env : Auth.Env)
    (random : Auth.Random) (clock : Option Nat) (records : List BootstrapRecord) :
    Command Unit := do
  Exec.ensure setup.store .configuration
  let current ← onMaddy (listAccounts casefold)
  Exec.ofExcept (records.forM (checkTarget casefold current))
  records.forM createTarget
  let _ ← onAuth (Auth.bootstrapActiveAccounts env random clock (records.map (·.toAuth)))
  return ()

/-- `_run_auth_bootstrap` on the accounts of its input; the result is the number of accounts that
it reports to have created. -/
def runAuthBootstrap (setup : Setup) (casefold : String → String) (env : Auth.Env)
    (random : Auth.Random) (clock : Option Nat) (values : List Fields) : Command Nat := do
  Exec.ensure setup.root (.runtime "authentication bootstrap must run as root")
  let records ← Exec.ofExcept (validatedBootstrapRecords [] values)
  Exec.ensure setup.clients .configuration
  Exec.update fun s => { s with created := [] }
  Exec.handle (importRecords setup casefold env random clock records) undoCreated
  let created ← Exec.inspect Site.created
  return created.length

end MaddyWeb.Cli.Bootstrap
