import MaddyWeb.Auth.Totp
import MaddyWeb.Identity
import MaddyWeb.Library.Exec
import MaddyWeb.Library.Json

/-!
# The store's environment and its `_locked` helpers

An operation of `AuthStore` is a program over the database that may raise.  The
clock and the random source are inputs: a clock reading is `none` when the clock
returns a value that `_now` refuses.
-/

namespace MaddyWeb.Auth

open MaddyWeb.Library MaddyWeb.Library.Text

/-- The exceptions of the store; the classes with more than one message keep it. -/
inductive AuthError
  | value (message : String)
  | authentication (message : String)
  | accountExists
  | accountNotFound
  | enrollmentState (message : String)
  | invalidChallenge (message : String)
  | invalidSecondFactor
  | invalidPasskey (message : String)
  | stepUpRequired
  | invalidSession
  | data (message : String)
  | loginRateLimited (retryAfter : Nat)
  | passkeyLimit
  | mailRuleLimit
  | mailRuleNotFound (message : String)
  | mailRuleConflict (message : String)
  /-- `sqlite3.IntegrityError` -/
  | integrity
  deriving DecidableEq, Repr

abbrev Store (α : Type) := Exec Db AuthError α

/-! ## Random values -/

def isHexDigit (c : Char) : Bool := ('0' ≤ c && c ≤ '9') || ('a' ≤ c && c ≤ 'f')

/-- The pattern `[0-9a-f]{32}`. -/
def isHex32 (text : String) : Bool := text.toList.length == 32 && text.toList.all isHexDigit

/-- The value of a character of the alphabet `[A-Za-z0-9_-]`. -/
def base64UrlValue (c : Char) : Option Nat :=
  if 'A' ≤ c ∧ c ≤ 'Z' then some (c.toNat - 0x41)
  else if 'a' ≤ c ∧ c ≤ 'z' then some (c.toNat - 0x61 + 26)
  else if '0' ≤ c ∧ c ≤ '9' then some (c.toNat - 0x30 + 52)
  else if c = '-' then some 62
  else if c = '_' then some 63
  else none

/-- `_OPAQUE_TOKEN_PATTERN` -/
def isOpaqueToken (text : String) : Bool :=
  text.toList.length == 43 && text.toList.all fun c => (base64UrlValue c).isSome

/-- The last of 43 characters carries four bits: the ones that `b64encode` writes there. -/
def paddedDigits : List Char := "AEIMQUYcgkosw048".toList

/-- Sixteen random bytes in hexadecimal. -/
structure Hex32 where
  text : String
  isHex : isHex32 text = true
  deriving DecidableEq

/-- Thirty-two random bytes, as the text that `_encode_opaque_token` gives them. -/
structure OpaqueToken where
  text : String
  matchesPattern : isOpaqueToken text = true
  canonical : ∀ c ∈ text.toList.getLast?, c ∈ paddedDigits
  deriving DecidableEq

/-- `_decode_opaque_token`: decoding drops the two low bits of the last character. -/
def decodeOpaqueToken (text : String) : Option String :=
  if isOpaqueToken text then
    some (String.ofList (text.toList.dropLast ++
      (text.toList.getLast?.bind base64UrlValue).toList.map fun value =>
        paddedDigits.getD (value / 4) 'A'))
  else none

/-- The ten distinct values that `_generate_recovery_codes` ends with. -/
structure RecoveryDraw where
  codes : List Hex32
  count : codes.length = 10
  nodup : codes.Nodup

/-- What one operation draws.  A unique identifier is drawn up to eight times; an
operation on a batch of accounts draws for each of them. -/
structure Random where
  accountId : Nat → Nat → Hex32
  sessionId : Nat → Hex32
  publicId : Nat → Hex32
  ruleId : Nat → Hex32
  runId : Nat → Hex32
  token : Nat → OpaqueToken
  passkeyChallenge : Nat → OpaqueToken
  secret : Bytes
  secret_length : secret.length = totpSecretBytes
  nonce : Nat → Bytes
  recoveryCodes : RecoveryDraw

def allocationAttempts : Nat := 8

/-- The loops that draw until a value is unused. -/
def firstUnused {α : Type} (draw : Nat → α) (used : α → Bool) : Option α :=
  ((List.range allocationAttempts).map draw).find? fun value => !used value

theorem firstUnused_eq_some {α : Type} {draw : Nat → α} {used : α → Bool} {value : α}
    (h : firstUnused draw used = some value) : used value = false := by
  simpa using List.find?_some h

/-! ## Keyed functions and third-party code -/

structure VerifiedRegistration where
  credentialId : Bytes
  publicKey : Bytes
  signCount : Int
  userVerified : Bool
  rawId : Bytes
  deviceType : String
  backedUp : Bool
  transports : List String
  deriving DecidableEq, Repr

structure VerifiedAuthentication where
  credentialId : Bytes
  newSignCount : Int
  userVerified : Bool
  deviceType : String
  backedUp : Bool
  deriving DecidableEq, Repr

/-- The parts of a parsed assertion that the store reads itself. -/
structure Assertion where
  rawId : Bytes
  userHandle : Option Bytes
  deriving DecidableEq, Repr

/-- The digests under the derived keys, AES-GCM, HMAC-SHA1, `ipaddress`, `json.loads` with
unique keys, and WebAuthn. -/
structure Env where
  challengeDigest : String → Digest
  sessionDigest : String → Digest
  passkeyDigest : String → Digest
  recoveryDigest : String → String → Digest
  rateDigest : String → String → Digest
  encrypt : Bytes → Bytes → String → String → Bytes
  decrypt : Bytes → Bytes → String → String → Option Bytes
  hmacSha1 : Bytes → Nat → Bytes
  canonicalIp : String → Option String
  loads : List Char → Option Json
  passkeysConfigured : Bool
  /-- `verify_registration_response` for a credential and the expected challenge. -/
  verifyRegistration : String → String → Option VerifiedRegistration
  /-- `_parse_authentication_credential` -/
  parseAssertion : String → Option Assertion
  /-- `verify_authentication_response` for a credential, the expected challenge, the
  public key and the current signature counter. -/
  verifyAssertion : String → String → Bytes → Nat → Option VerifiedAuthentication

/-! ## Validation -/

/-- `_validate_account_id` -/
def validateAccountId (value : String) : Store String :=
  Exec.require (fun _ => if isHex32 value then some value else none)
    (.value "account identifier must be 32 lowercase hexadecimal characters")

/-- `_now` -/
def readClock (reading : Option Nat) : Store Nat :=
  Exec.require (fun _ => reading)
    (.value "authentication clock must return a finite non-negative value")

/-- `canonicalize_email`, whose errors the store passes on. -/
def requireEmail (value : String) : Store String :=
  Exec.require (fun _ => Identity.canonicalizeEmail value) (.value "email identity is invalid")

/-- `_opaque_digest` -/
def opaqueDigest (digest : String → Digest) (token : String) : Digest :=
  digest (if isOpaqueToken token then token else "")

/-- `_normalize_recovery_code` -/
def normalizeRecoveryCode (value : String) : Option String :=
  let normalized := String.ofList ((asciiLower (strStrip value.toList)).filter (· != '-'))
  if isHex32 normalized then some normalized else none

def requireRecoveryCode (value : String) : Store String :=
  Exec.require (fun _ => normalizeRecoveryCode value)
    (.value "recovery code must contain 32 hexadecimal characters")

/-- `_require_account_by_id_locked` -/
def requireAccountById (accountId : String) : Store AccountRow :=
  Exec.require (·.accountById accountId) .accountNotFound

/-- `_new_account_id_locked` -/
def newAccountId (random : Random) (index : Nat) : Store String :=
  Exec.require
    (fun db => (firstUnused (random.accountId index) fun id => (db.accountById id.text).isSome).map
      (·.text))
    (.authentication "unable to allocate a unique account identifier")

/-! ## Pending challenges -/

def challengeLifetimeSeconds : Nat := 5 * 60
def challengeFailureLimit : Nat := 5

/-- `SET enrollment_state = 'required', …` -/
def AccountRow.released (now : Nat) (row : AccountRow) : AccountRow :=
  { row with
    enrollmentState := .required
    totpNonce := none
    totpCiphertext := none
    enrollmentChallengeDigest := none
    totpLastCounter := -1
    updatedAt := now }

/-- The joined row that `_challenge_row_locked` reads, unless the challenge has expired. -/
def Db.openChallenge (db : Db) (digest : Digest) (now : Nat) :
    Option (PendingChallengeRow × AccountRow) := do
  let challenge ← db.pendingChallenges.find? (·.challengeDigest == digest)
  let account ← db.accountById challenge.accountId
  if challenge.expiresAt ≤ now then none else some (challenge, account)

/-- `_challenge_row_locked` -/
def challengeRow (digest : Digest) (now : Nat) : Store (PendingChallengeRow × AccountRow) :=
  Exec.require (·.openChallenge digest now) (.invalidChallenge "pending challenge is invalid")

def Db.releasePendingEnrollment (digest : Digest) (now : Nat) (db : Db) : Db :=
  db.updateAccounts
    (fun row => row.enrollmentState == .pending && row.enrollmentChallengeDigest == some digest)
    (·.released now)

/-- `_record_challenge_failure_locked`, which reads the clock again. -/
def recordChallengeFailure (digest : Digest) (failureCount : Nat) (later : Option Nat) :
    Store Unit :=
  if challengeFailureLimit ≤ failureCount + 1 then do
    let now ← readClock later
    Exec.update (·.releasePendingEnrollment digest now)
    Exec.update (·.deletePending (·.challengeDigest == digest))
  else Exec.update (·.updatePending digest ({ · with failureCount := failureCount + 1 }))

/-- `_delete_expired_challenges_locked` -/
def Db.deleteExpiredChallenges (now : Nat) (db : Db) : Db :=
  let expired := (db.pendingChallenges.filter (·.expiresAt ≤ now)).map (·.challengeDigest)
  (db.updateAccounts
    (fun row => row.enrollmentState == .pending &&
      row.enrollmentChallengeDigest.any fun digest => expired.contains digest)
    (·.released now)).deletePending (·.expiresAt ≤ now)

/-- The statements of `_revoke_pending_challenges_locked`. -/
def Db.revokePendingChallenges (accountId : String) (now : Nat) (db : Db) : Db :=
  ((db.updateAccounts
    (fun row => row.accountId == accountId && row.enrollmentState == .pending)
    (·.released now)).deletePending (·.accountId == accountId)).deletePasskeyChallenges
    (·.accountId == some accountId)

/-- `_revoke_pending_challenges_locked` -/
def revokePendingChallenges (accountId : String) (later : Option Nat) : Store Unit := do
  let now ← readClock later
  Exec.update (·.revokePendingChallenges accountId now)

/-- `_revoke_account_authentication_locked` -/
def revokeAccountAuthentication (accountId : String) (later : Option Nat) : Store Nat := do
  revokePendingChallenges accountId later
  let count ← Exec.inspect fun db => (db.sessionsOf accountId).length
  Exec.update (·.deleteSessions (·.accountId == accountId))
  return count

/-! ## TOTP and recovery codes -/

/-- `_decrypt_totp` -/
def decryptTotp (env : Env) (row : AccountRow) : Except AuthError Bytes :=
  match row.totpNonce, row.totpCiphertext with
  | some nonce, some ciphertext =>
      match env.decrypt nonce ciphertext row.accountId row.canonicalEmail with
      | none => .error (.data "TOTP enrollment data failed authentication")
      | some secret =>
          if secret.length = totpSecretBytes then .ok secret
          else .error (.data "TOTP enrollment data has an invalid length")
  | _, _ => .error (.data "TOTP enrollment data is incomplete")

/-- The counter that the stored secret of an account gives a code. -/
def matchingCounter (env : Env) (row : AccountRow) (code : String) (now : Nat) :
    Except AuthError (Option Nat) :=
  (decryptTotp env row).map fun secret => matchingTotpCounter env.hmacSha1 secret code now

def Db.countAccounts (condition : AccountRow → Bool) (db : Db) : Nat :=
  (db.accounts.filter condition).length

/-- The rows that a conditional update of the counter of an active account changes. -/
def counterBelow (accountId : String) (counter : Nat) (row : AccountRow) : Bool :=
  row.accountId == accountId && row.enrollmentState == .active && row.totpLastCounter < counter

/-- `SET totp_last_counter = ?, updated_at = ?` -/
def AccountRow.counted (counter now : Nat) (row : AccountRow) : AccountRow :=
  { row with totpLastCounter := counter, updatedAt := now }

/-- `_consume_totp_locked` -/
def consumeTotp (env : Env) (row : AccountRow) (code : String) (now : Nat) : Store Bool := do
  Exec.ensure (row.enrollmentState == .active) (.enrollmentState "TOTP enrollment is not active")
  match ← Exec.ofExcept (matchingCounter env row code now) with
  | none => return false
  | some counter =>
      if counter ≤ row.totpLastCounter then return false
      else
        let changed ← Exec.inspect (·.countAccounts (counterBelow row.accountId counter))
        Exec.update (·.updateAccounts (counterBelow row.accountId counter)
          (·.counted counter now))
        return changed == 1

/-- `_generate_recovery_codes`: groups of four digits. -/
def generateRecoveryCodes (random : Random) : List String :=
  random.recoveryCodes.codes.map fun code =>
    String.ofList (List.intercalate ['-'] ((List.range 8).map fun i =>
      (code.text.toList.drop (4 * i)).take 4))

/-- One pass of `_store_recovery_codes_locked`; the primary key forbids a second equal row. -/
def storeRecoveryCode (env : Env) (accountId : String) (now : Nat) (code : String) :
    Store Unit := do
  let normalized ← requireRecoveryCode code
  let row : RecoveryCodeRow := ⟨accountId, env.recoveryDigest accountId normalized, now⟩
  let exists_ ← Exec.inspect fun db => db.recoveryCodes.any fun other =>
    other.accountId == row.accountId && other.codeDigest == row.codeDigest
  Exec.ensure (!exists_) .integrity
  Exec.update fun db => { db with recoveryCodes := db.recoveryCodes ++ [row] }

/-- `_store_recovery_codes_locked` -/
def storeRecoveryCodes (env : Env) (accountId : String) (codes : List String) (now : Nat) :
    Store Unit :=
  codes.forM (storeRecoveryCode env accountId now)

/-! ## Sessions -/

def sessionIdleSeconds : Nat := 72 * 60 * 60
def sessionAbsoluteSeconds : Nat := 30 * 24 * 60 * 60
def stepUpSeconds : Nat := 5 * 60
def maxSessionsPerAccount : Nat := 5

structure SessionPrincipal where
  accountId : String
  email : String
  role : Role
  passwordChangeRequired : Bool
  enrollmentState : EnrollmentState
  createdAt : Nat
  idleExpiresAt : Nat
  absoluteExpiresAt : Nat
  stepUpUntil : Nat
  sessionId : String
  clientIp : Option String
  userAgent : Option String
  deriving DecidableEq, Repr

structure IssuedSession where
  token : String
  principal : SessionPrincipal
  deriving DecidableEq, Repr

/-- `_principal_from_session_row` -/
def principalFromSessionRow (session : SessionRow) (account : AccountRow) (lastSeen : Nat)
    (stepUpUntil : Nat) : SessionPrincipal where
  accountId := account.accountId
  email := account.canonicalEmail
  role := account.role
  passwordChangeRequired := account.passwordChangeRequired
  enrollmentState := account.enrollmentState
  createdAt := session.createdAt
  idleExpiresAt := min (lastSeen + sessionIdleSeconds) session.absoluteExpiresAt
  absoluteExpiresAt := session.absoluteExpiresAt
  stepUpUntil := stepUpUntil
  sessionId := session.sessionId
  clientIp := session.clientIp
  userAgent := session.userAgent

/-- The joined row that `_valid_session_row_locked` reads. -/
def Db.sessionRow (db : Db) (digest : Digest) : Option (SessionRow × AccountRow) := do
  let session ← db.sessions.find? (·.sessionDigest == digest)
  let account ← db.accountById session.accountId
  some (session, account)

/-- The last use of a session after a call that may touch it. -/
def effectiveLastSeen (touch : Bool) (now lastSeen : Nat) : Nat :=
  if touch then max lastSeen now else lastSeen

/-- `_valid_session_row_locked`: the row and the time of its last use. -/
def validSessionRow (digest : Digest) (now : Nat) (touch : Bool) :
    Store (Option (SessionRow × AccountRow × Nat)) := do
  match ← Exec.inspect (·.sessionRow digest) with
  | none => return none
  | some (session, account) =>
      if session.absoluteExpiresAt ≤ now || session.lastSeenAt + sessionIdleSeconds ≤ now then
        Exec.update (·.deleteSessions (·.sessionDigest == digest))
        return none
      else
        let lastSeen := effectiveLastSeen touch now session.lastSeenAt
        if lastSeen ≠ session.lastSeenAt then
          Exec.update (·.updateSession digest ({ · with lastSeenAt := lastSeen }))
        return some (session, account, lastSeen)

/-- `_delete_expired_sessions_locked` -/
def Db.deleteExpiredSessions (now : Nat) (db : Db) : Db :=
  db.deleteSessions fun row =>
    row.absoluteExpiresAt ≤ now || row.lastSeenAt + sessionIdleSeconds ≤ now

/-- `ORDER BY … LIMIT count` -/
def oldest {α : Type} (before : α → α → Bool) (count : Nat) (rows : List α) : List α :=
  (rows.mergeSort before).take count

def SessionRow.before (a b : SessionRow) : Bool :=
  a.lastSeenAt < b.lastSeenAt || (a.lastSeenAt == b.lastSeenAt &&
    (a.createdAt < b.createdAt || (a.createdAt == b.createdAt &&
      a.sessionDigest ≤ b.sessionDigest)))

/-- The eviction of `_issue_session_locked`. -/
def Db.evictSessions (accountId : String) (db : Db) : Db :=
  let own := db.sessionsOf accountId
  if maxSessionsPerAccount ≤ own.length then
    let evicted := (oldest SessionRow.before (own.length - maxSessionsPerAccount + 1) own).map
      (·.sessionDigest)
    db.deleteSessions fun row => evicted.contains row.sessionDigest
  else db

def unsafeText (text : List Char) : Bool := text.any fun c => c == '\r' || c == '\n' || c.toNat == 0

/-- `_normalize_session_metadata` -/
def normalizeSessionMetadata (env : Env) (clientIp userAgent : Option String) :
    Except AuthError (Option String × Option String) := do
  let ip ← match clientIp with
    | none => pure none
    | some text => match env.canonicalIp text with
      | some ip => pure (some ip)
      | none => throw (.value "client IP must be an explicit IP address")
  match userAgent with
  | none => return (ip, none)
  | some text =>
      let normalized := strStrip text.toList
      if normalized.isEmpty then return (ip, none)
      else if 512 < normalized.length || unsafeText normalized then
        throw (.value "user agent must contain at most 512 safe characters")
      else return (ip, some (String.ofList normalized))

/-- `_issue_session_locked` -/
def issueSession (env : Env) (random : Random) (account : AccountRow) (now : Nat)
    (clientIp userAgent : Option String) : Store IssuedSession := do
  let (ip, agent) ← Exec.ofExcept (normalizeSessionMetadata env clientIp userAgent)
  Exec.update (·.deleteExpiredSessions now)
  Exec.update (·.evictSessions account.accountId)
  let token ← Exec.require
    (fun db => firstUnused random.token fun token =>
      db.sessions.any (·.sessionDigest == opaqueDigest env.sessionDigest token.text))
    (.authentication "unable to allocate a unique opaque token")
  let sessionId ← Exec.require
    (fun db => firstUnused random.sessionId fun id => db.sessions.any (·.sessionId == id.text))
    (.authentication "unable to allocate a unique session identifier")
  let session : SessionRow :=
    ⟨opaqueDigest env.sessionDigest token.text, account.accountId, now, now,
      now + sessionAbsoluteSeconds, 0, sessionId.text, ip, agent⟩
  Exec.update (·.insertSession session)
  return ⟨token.text, principalFromSessionRow session account now 0⟩

end MaddyWeb.Auth
