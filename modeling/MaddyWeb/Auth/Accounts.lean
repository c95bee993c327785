import MaddyWeb.Auth.Locked

/-!
# Account operations
-/

namespace MaddyWeb.Auth

open MaddyWeb.Library

structure Account where
  accountId : String
  email : String
  role : Role
  passwordChangeRequired : Bool
  enrollmentState : EnrollmentState
  createdAt : Nat
  updatedAt : Nat
  deriving DecidableEq, Repr

/-- `_account_from_row` -/
def accountFromRow (row : AccountRow) : Account :=
  ⟨row.accountId, row.canonicalEmail, row.role, row.passwordChangeRequired, row.enrollmentState,
    row.createdAt, row.updatedAt⟩

/-- `_account_from_row(_required_row(self._account_row_by_id_locked(account_id)))` -/
def requiredAccount (accountId : String) : Store Account := do
  let row ← Exec.require (·.accountById accountId) (.data "authentication row disappeared")
  return accountFromRow row

/-- The row that `create_account` and `sync_accounts` insert. -/
def newAccountRow (accountId canonical : String) (role : Role) (required : Bool) (now : Nat) :
    AccountRow where
  accountId := accountId
  canonicalEmail := canonical
  role := role
  passwordChangeRequired := required
  enrollmentState := .required
  totpNonce := none
  totpCiphertext := none
  enrollmentChallengeDigest := none
  totpLastCounter := -1
  createdAt := now
  updatedAt := now

/-- The row with a factor that can be used at once. -/
def AccountRow.activated (row : AccountRow) (nonce ciphertext : Bytes) : AccountRow :=
  { row with
    enrollmentState := .active
    totpNonce := some nonce
    totpCiphertext := some ciphertext
    enrollmentChallengeDigest := none
    totpLastCounter := -1 }

/-- The deletions from the three token tables that end a change of the factor. -/
def Db.deleteAuthentication (accountId : String) (db : Db) : Db :=
  ((db.deletePending (·.accountId == accountId)).deletePasskeyChallenges
    (·.accountId == some accountId)).deleteSessions (·.accountId == accountId)

/-- `create_account` -/
def createAccount (random : Random) (clock : Option Nat) (email : String) (role : Role)
    (passwordChangeRequired : Bool) : Store Account := do
  let canonical ← requireEmail email
  let now ← readClock clock
  Exec.atomically do
    let existing ← Exec.inspect (·.accountByEmail canonical)
    Exec.ensure existing.isNone .accountExists
    let accountId ← newAccountId random 0
    Exec.update (·.insertAccount
      (newAccountRow accountId canonical role passwordChangeRequired now))
    requiredAccount accountId

/-- `get_account` -/
def getAccount (email : String) : Store (Option Account) := do
  let canonical ← requireEmail email
  let row ← Exec.inspect (·.accountByEmail canonical)
  return row.map accountFromRow

/-- `resolve_account_id` -/
def resolveAccountId (accountId : String) : Store Account := do
  let normalized ← validateAccountId accountId
  let row ← requireAccountById normalized
  return accountFromRow row

/-- `list_accounts` -/
def listAccounts : Store (List Account) :=
  Exec.inspect fun db =>
    (db.accounts.mergeSort fun a b => a.canonicalEmail ≤ b.canonicalEmail).map accountFromRow

/-- One pass of the loop of `sync_accounts`. -/
def syncAccount (random : Random) (role : Role) (required : Bool) (now index : Nat)
    (canonical : String) : Store Account := do
  match ← Exec.inspect (·.accountByEmail canonical) with
  | some row => return accountFromRow row
  | none =>
      let accountId ← newAccountId random index
      Exec.update (·.insertAccount (newAccountRow accountId canonical role required now))
      requiredAccount accountId

/-- `sync_accounts` -/
def syncAccounts (random : Random) (clock : Option Nat) (emails : List String) (role : Role)
    (passwordChangeRequired : Bool) : Store (List Account) := do
  let canonical ← Exec.require (fun _ => emails.mapM Identity.canonicalizeEmail)
    (.value "email identity is invalid")
  let now ← readClock clock
  Exec.atomically
    (Exec.forEach (syncAccount random role passwordChangeRequired now) 0
      (canonical.eraseDups.mergeSort (· ≤ ·)))

/-- The end of `set_role` and `set_password_change_required`. -/
def revokeAfterChange (accountId : String) (revokeSessions : Bool) (later : Option Nat) :
    Store Account := do
  if revokeSessions then
    let _ ← revokeAccountAuthentication accountId later
    requiredAccount accountId
  else
    revokePendingChallenges accountId later
    requiredAccount accountId

/-- `set_role` -/
def setRole (clock later : Option Nat) (accountId : String) (role : Role)
    (revokeSessions : Bool) : Store Account := do
  let normalizedId ← validateAccountId accountId
  let now ← readClock clock
  Exec.atomically do
    let _ ← requireAccountById normalizedId
    Exec.update (·.updateAccounts (·.accountId == normalizedId)
      ({ · with role := role, updatedAt := now }))
    revokeAfterChange normalizedId revokeSessions later

/-- `set_password_change_required` -/
def setPasswordChangeRequired (clock later : Option Nat) (accountId : String) (required : Bool)
    (revokeSessions : Bool) : Store Account := do
  let normalizedId ← validateAccountId accountId
  let now ← readClock clock
  Exec.atomically do
    let _ ← requireAccountById normalizedId
    Exec.update (·.updateAccounts (·.accountId == normalizedId)
      ({ · with passwordChangeRequired := required, updatedAt := now }))
    revokeAfterChange normalizedId revokeSessions later

/-- `reset_totp` -/
def resetTotp (clock : Option Nat) (accountId : String) : Store Account := do
  let normalizedId ← validateAccountId accountId
  let now ← readClock clock
  Exec.atomically do
    let _ ← requireAccountById normalizedId
    Exec.update (·.updateAccounts (·.accountId == normalizedId) (·.released now))
    Exec.update (·.deleteCodes normalizedId)
    Exec.update (·.deleteAuthentication normalizedId)
    requiredAccount normalizedId

/-- `rotate_totp`: the secret and the recovery codes are returned. -/
def rotateTotp (env : Env) (random : Random) (clock : Option Nat) (accountId : String) :
    Store (Bytes × List String) := do
  let normalizedId ← validateAccountId accountId
  let now ← readClock clock
  Exec.atomically do
    let row ← requireAccountById normalizedId
    let ciphertext := env.encrypt (random.nonce 0) random.secret normalizedId row.canonicalEmail
    let codes := generateRecoveryCodes random
    Exec.update (·.updateAccounts (·.accountId == normalizedId)
      fun row => { row.activated (random.nonce 0) ciphertext with updatedAt := now })
    Exec.update (·.deleteCodes normalizedId)
    storeRecoveryCodes env normalizedId codes now
    Exec.update (·.deleteAuthentication normalizedId)
    return (random.secret, codes)

/-- `regenerate_recovery_codes` -/
def regenerateRecoveryCodes (env : Env) (random : Random) (clock : Option Nat)
    (accountId code : String) : Store (List String) := do
  let normalizedId ← validateAccountId accountId
  let now ← readClock clock
  Exec.atomically do
    let row ← requireAccountById normalizedId
    let consumed ← consumeTotp env row code now
    Exec.ensure consumed .invalidSecondFactor
    let codes := generateRecoveryCodes random
    Exec.update (·.deleteCodes normalizedId)
    storeRecoveryCodes env normalizedId codes now
    Exec.update (·.deleteAuthentication normalizedId)
    return codes

/-- `recovery_code_count` -/
def recoveryCodeCount (accountId : String) : Store Nat := do
  let normalizedId ← validateAccountId accountId
  let _ ← requireAccountById normalizedId
  Exec.inspect fun db => (db.codesOf normalizedId).length

/-- `verify_totp` -/
def verifyTotp (env : Env) (clock : Option Nat) (accountId code : String) : Store Unit := do
  let normalizedId ← validateAccountId accountId
  let now ← readClock clock
  Exec.atomically do
    let row ← requireAccountById normalizedId
    let consumed ← consumeTotp env row code now
    Exec.ensure consumed .invalidSecondFactor

/-- `delete_account` -/
def deleteAccount (env : Env) (accountId : String) : Store Unit := do
  let normalizedId ← validateAccountId accountId
  Exec.atomically do
    let row ← requireAccountById normalizedId
    let digest := env.rateDigest "account" row.canonicalEmail
    Exec.update fun db => { db with
      rateLimits := db.rateLimits.filter fun rate =>
        !(rate.accountId == some normalizedId || rate.accountIdentityDigest == some digest) }
    let deleted ← Exec.inspect (·.countAccounts (·.accountId == normalizedId))
    Exec.update (·.deleteAccountRow normalizedId)
    Exec.ensure (deleted == 1) .accountNotFound

/-- `provision_active_account` -/
def provisionActiveAccount (env : Env) (random : Random) (clock : Option Nat) (email : String)
    (role : Role) (passwordChangeRequired : Bool) : Store (Account × Bytes × List String) := do
  let canonical ← requireEmail email
  let now ← readClock clock
  Exec.atomically do
    let existing ← Exec.inspect (·.accountByEmail canonical)
    Exec.ensure existing.isNone .accountExists
    let accountId ← newAccountId random 0
    let ciphertext := env.encrypt (random.nonce 0) random.secret accountId canonical
    let codes := generateRecoveryCodes random
    Exec.update (·.insertAccount
      ((newAccountRow accountId canonical role passwordChangeRequired now).activated
        (random.nonce 0) ciphertext))
    storeRecoveryCodes env accountId codes now
    let account ← requiredAccount accountId
    return (account, random.secret, codes)

/-! ## Bootstrap -/

structure AccountBootstrap where
  email : String
  role : Role
  totpSecret : String
  recoveryCodes : List String
  passwordChangeRequired : Bool
  deriving DecidableEq, Repr

structure PreparedAccount where
  canonical : String
  role : Role
  secret : Bytes
  recoveryCodes : List String
  required : Bool
  deriving DecidableEq, Repr

/-- `_validate_recovery_code_set` -/
def validateRecoveryCodeSet (values : List String) : Except AuthError (List String) := do
  if values.length ≠ 10 then throw (.value "exactly 10 recovery codes are required")
  match values.mapM normalizeRecoveryCode with
  | none => throw (.value "recovery code must contain 32 hexadecimal characters")
  | some normalized =>
      if normalized.eraseDups.length ≠ 10 then throw (.value "recovery codes must be unique")
      return normalized

/-- The first loop of `bootstrap_active_accounts`, with the addresses already seen. -/
def prepareRecords : List String → List AccountBootstrap → Except AuthError (List PreparedAccount)
  | _, [] => .ok []
  | seen, record :: rest => do
      let some canonical := Identity.canonicalizeEmail record.email
        | throw (.value "email identity is invalid")
      if seen.contains canonical then
        throw (.value "bootstrap records contain a duplicate account")
      let some secret := decodeTotpSecret record.totpSecret
        | throw (.value "TOTP secret must be valid Base32")
      let codes ← validateRecoveryCodeSet record.recoveryCodes
      let prepared ← prepareRecords (canonical :: seen) rest
      return ⟨canonical, record.role, secret, codes, record.passwordChangeRequired⟩ :: prepared

/-- `ON CONFLICT(canonical_email) DO UPDATE SET …` -/
def AccountRow.imported (record : PreparedAccount) (nonce ciphertext : Bytes) (now : Nat)
    (row : AccountRow) : AccountRow :=
  { row.activated nonce ciphertext with
    role := record.role
    passwordChangeRequired := record.required
    updatedAt := now }

/-- The `INSERT … ON CONFLICT` of `bootstrap_active_accounts`: the identifier of the row. -/
def upsertAccount (env : Env) (random : Random) (now index : Nat) (record : PreparedAccount) :
    Store String := do
  let nonce := random.nonce index
  match ← Exec.inspect (·.accountByEmail record.canonical) with
  | none =>
      let accountId ← newAccountId random index
      let ciphertext := env.encrypt nonce record.secret accountId record.canonical
      Exec.update (·.insertAccount
        ((newAccountRow accountId record.canonical record.role record.required now).activated
          nonce ciphertext))
      return accountId
  | some existing =>
      let ciphertext := env.encrypt nonce record.secret existing.accountId record.canonical
      Exec.update (·.updateAccounts (·.canonicalEmail == record.canonical)
        (·.imported record nonce ciphertext now))
      return existing.accountId

/-- One pass of the second loop of `bootstrap_active_accounts`. -/
def importAccount (env : Env) (random : Random) (now index : Nat) (record : PreparedAccount) :
    Store Account := do
  let accountId ← upsertAccount env random now index record
  Exec.update (·.deleteCodes accountId)
  storeRecoveryCodes env accountId record.recoveryCodes now
  Exec.update (·.deleteAuthentication accountId)
  requiredAccount accountId

/-- `bootstrap_active_accounts` -/
def bootstrapActiveAccounts (env : Env) (random : Random) (clock : Option Nat)
    (records : List AccountBootstrap) : Store (List Account) := do
  let prepared ← Exec.ofExcept (prepareRecords [] records)
  Exec.ensure (!prepared.isEmpty) (.value "bootstrap records must not be empty")
  let now ← readClock clock
  Exec.atomically (Exec.forEach (importAccount env random now) 0 prepared)

end MaddyWeb.Auth
