import MaddyWeb.Auth.Sessions

/-!
# Passkey operations

WebAuthn verification is a partial function of the credential, the challenge and
the stored key; the checks that the store makes around it are modelled.
-/

namespace MaddyWeb.Auth

open MaddyWeb.Library MaddyWeb.Library.Text

def maxPasskeysPerAccount : Nat := 10
def maxPasskeyChallengesPerAccount : Nat := 5
def maxAnonymousPasskeyLoginChallenges : Nat := 256
def maxCredentialIdBytes : Nat := 1024

/-- `_require_passkey_configuration` -/
def requirePasskeyConfiguration (env : Env) : Store Unit :=
  Exec.ensure env.passkeysConfigured (.authentication "passkey authentication is not configured")

/-- `_decode_opaque_token` with the exception of its callers. -/
def requirePasskeyChallenge (challengeToken : String) : Store String :=
  Exec.require (fun _ => decodeOpaqueToken challengeToken)
    (.invalidChallenge "passkey challenge is invalid")

def PasskeyChallengeRow.before (a b : PasskeyChallengeRow) : Bool :=
  a.createdAt < b.createdAt ||
    (a.createdAt == b.createdAt && a.challengeDigest ≤ b.challengeDigest)

/-- The challenges that share the bound of a new one: all login challenges, or those of
the account. -/
def PasskeyChallengeRow.competes (purpose : PasskeyPurpose) (accountId : Option String)
    (row : PasskeyChallengeRow) : Bool :=
  if purpose == .login then row.purpose == .login
  else row.purpose != .login && row.accountId == accountId

def passkeyChallengeBound (purpose : PasskeyPurpose) : Nat :=
  if purpose == .login then maxAnonymousPasskeyLoginChallenges else maxPasskeyChallengesPerAccount

/-- The expiry sweep and the eviction of `_create_passkey_challenge_locked`. -/
def Db.boundPasskeyChallenges (purpose : PasskeyPurpose) (accountId : Option String) (now : Nat)
    (db : Db) : Db :=
  let db := db.deletePasskeyChallenges (·.expiresAt ≤ now)
  let competing := db.passkeyChallenges.filter (·.competes purpose accountId)
  if passkeyChallengeBound purpose ≤ competing.length then
    let evicted := (oldest PasskeyChallengeRow.before
      (competing.length - passkeyChallengeBound purpose + 1) competing).map (·.challengeDigest)
    db.deletePasskeyChallenges fun row => evicted.contains row.challengeDigest
  else db

/-- `_create_passkey_challenge_locked` -/
def createPasskeyChallenge (env : Env) (random : Random) (purpose : PasskeyPurpose)
    (accountId : Option String) (sessionDigest : Option Digest) (now : Nat) : Store String := do
  Exec.update (·.boundPasskeyChallenges purpose accountId now)
  let challenge ← Exec.require
    (fun db => firstUnused random.passkeyChallenge fun challenge =>
      db.passkeyChallenges.any (·.challengeDigest == env.passkeyDigest challenge.text))
    (.authentication "unable to allocate a unique passkey challenge")
  Exec.update (·.insertPasskeyChallenge
    ⟨env.passkeyDigest challenge.text, purpose, accountId, sessionDigest, now,
      now + challengeLifetimeSeconds, 0⟩)
  return challenge.text

/-- `_passkey_challenge_row_locked` -/
def passkeyChallengeRow (digest : Digest) (now : Nat) (purpose : PasskeyPurpose)
    (accountId : Option String) (sessionDigest : Option Digest) : Store PasskeyChallengeRow :=
  Exec.require
    (fun db => (db.passkeyChallenges.find? (·.challengeDigest == digest)).filter fun row =>
      now < row.expiresAt && row.purpose == purpose && row.accountId == accountId &&
        row.sessionDigest == sessionDigest)
    (.invalidChallenge "passkey challenge is invalid")

/-- `_record_passkey_challenge_failure_locked` -/
def recordPasskeyChallengeFailure (challenge : PasskeyChallengeRow) : Store Unit :=
  if challengeFailureLimit ≤ challenge.failureCount + 1 then
    Exec.update (·.deletePasskeyChallenges (·.challengeDigest == challenge.challengeDigest))
  else Exec.update (·.updatePasskeyChallenge challenge.challengeDigest
    ({ · with failureCount := challenge.failureCount + 1 }))

/-- `_validate_registration_result` -/
def validRegistrationResult (verified : VerifiedRegistration) : Bool :=
  verified.userVerified && verified.rawId == verified.credentialId &&
    1 ≤ verified.credentialId.length && verified.credentialId.length ≤ maxCredentialIdBytes &&
    verified.publicKey != [] && 0 ≤ verified.signCount &&
    ["single_device", "multi_device"].contains verified.deviceType

/-- `_normalize_passkey_name` -/
def normalizePasskeyName (value : String) : Option String :=
  let normalized := strStrip value.toList
  if normalized.isEmpty || 100 < normalized.length || unsafeText normalized then none
  else some (String.ofList normalized)

def hexValue (c : Char) : Nat :=
  if '0' ≤ c ∧ c ≤ '9' then c.toNat - 0x30 else c.toNat - 0x61 + 10

/-- `bytes.fromhex` -/
def bytesFromHex : List Char → Bytes
  | high :: low :: rest => UInt8.ofNat (16 * hexValue high + hexValue low) :: bytesFromHex rest
  | _ => []

/-! ## Registration -/

/-- `begin_passkey_registration`: the challenge token is returned. -/
def beginPasskeyRegistration (env : Env) (random : Random) (clock : Option Nat)
    (sessionToken : String) : Store String := do
  requirePasskeyConfiguration env
  let sessionDigest := opaqueDigest env.sessionDigest sessionToken
  let now ← readClock clock
  let outcome ← Exec.atomically do
    match ← validSessionRow sessionDigest now true with
    | none => return .error .invalidSession
    | some (session, account, _) =>
        if session.stepUpUntil ≤ now then return .error .stepUpRequired
        else
          let credentials ← Exec.inspect fun db =>
            db.passkeyCredentials.filter (·.accountId == account.accountId)
          Exec.ensure (credentials.length < maxPasskeysPerAccount) .passkeyLimit
          let token ← createPasskeyChallenge env random .registration (some account.accountId)
            (some sessionDigest) now
          return .ok token
  Exec.ofExcept outcome

/-- The insertion at the end of `complete_passkey_registration`. -/
def storeCredential (random : Random) (challenge : PasskeyChallengeRow) (accountId name : String)
    (now : Nat) (verified : VerifiedRegistration) :
    Store (Except AuthError PasskeyCredentialRow) := do
  let publicId ← Exec.require
    (fun db => firstUnused random.publicId fun id =>
      db.passkeyCredentials.any (·.publicId == id.text))
    (.authentication "unable to allocate a unique passkey identifier")
  let row : PasskeyCredentialRow :=
    ⟨verified.credentialId, publicId.text, accountId, verified.publicKey, verified.signCount.toNat,
      name, verified.deviceType, verified.backedUp, verified.transports, now, none⟩
  let taken ← Exec.inspect fun db =>
    db.passkeyCredentials.any (·.credentialId == verified.credentialId)
  if taken then
    recordPasskeyChallengeFailure challenge
    return .error (.invalidPasskey "passkey registration failed")
  else
    Exec.update fun db => { db with passkeyCredentials := db.passkeyCredentials ++ [row] }
    Exec.update (·.deletePasskeyChallenges (·.challengeDigest == challenge.challengeDigest))
    return .ok row

/-- `complete_passkey_registration` -/
def completePasskeyRegistration (env : Env) (random : Random) (clock : Option Nat)
    (sessionToken challengeToken credential name : String) : Store PasskeyCredentialRow := do
  requirePasskeyConfiguration env
  let normalizedName ← Exec.require (fun _ => normalizePasskeyName name)
    (.value "passkey name must contain 1 to 100 safe characters")
  let challenge ← requirePasskeyChallenge challengeToken
  let sessionDigest := opaqueDigest env.sessionDigest sessionToken
  let now ← readClock clock
  let outcome ← Exec.atomically do
    match ← validSessionRow sessionDigest now true with
    | none => return .error .invalidSession
    | some (session, account, _) =>
        if session.stepUpUntil ≤ now then return .error .stepUpRequired
        else
          let row ← passkeyChallengeRow (env.passkeyDigest challenge) now .registration
            (some account.accountId) (some sessionDigest)
          let credentials ← Exec.inspect fun db =>
            db.passkeyCredentials.filter (·.accountId == account.accountId)
          Exec.ensure (credentials.length < maxPasskeysPerAccount) .passkeyLimit
          match (env.verifyRegistration credential challenge).filter validRegistrationResult with
          | none =>
              recordPasskeyChallengeFailure row
              return .error (.invalidPasskey "passkey registration failed")
          | some verified =>
              storeCredential random row account.accountId normalizedName now verified
  Exec.ofExcept outcome

/-- `list_passkeys` -/
def listPasskeys (accountId : String) : Store (List PasskeyCredentialRow) := do
  let normalizedId ← validateAccountId accountId
  Exec.atomically do
    let _ ← requireAccountById normalizedId
    Exec.inspect fun db => (db.passkeyCredentials.filter (·.accountId == normalizedId)).mergeSort
      fun a b => a.createdAt < b.createdAt ||
        (a.createdAt == b.createdAt && a.credentialId ≤ b.credentialId)

/-- `delete_passkey` -/
def deletePasskey (accountId publicId : String) : Store Bool := do
  let normalizedId ← validateAccountId accountId
  Exec.ensure (isHex32 publicId)
    (.value "passkey identifier must be 32 lowercase hexadecimal characters")
  Exec.atomically do
    let _ ← requireAccountById normalizedId
    let chosen := fun row : PasskeyCredentialRow =>
      row.accountId == normalizedId && row.publicId == publicId
    let deleted ← Exec.inspect fun db => (db.passkeyCredentials.filter chosen).length
    Exec.update fun db =>
      { db with passkeyCredentials := db.passkeyCredentials.filter fun row => !chosen row }
    return deleted == 1

/-! ## Assertions -/

/-- The conditions of `_verify_passkey_assertion_locked` on a verified assertion. -/
def validAssertion (credential : PasskeyCredentialRow) (verified : VerifiedAuthentication) : Bool :=
  verified.userVerified && verified.credentialId == credential.credentialId &&
    0 ≤ verified.newSignCount &&
    !((0 < verified.newSignCount || 0 < credential.signCount) &&
      verified.newSignCount ≤ credential.signCount) &&
    ["single_device", "multi_device"].contains verified.deviceType

/-- The rows that an accepted assertion updates. -/
def usesCredential (accountId : String) (credential : PasskeyCredentialRow)
    (row : PasskeyCredentialRow) : Bool :=
  row.credentialId == credential.credentialId && row.accountId == accountId &&
    row.signCount == credential.signCount

/-- The credential that an assertion names, and the assertion when it verifies. -/
def Db.verifiedCredential (env : Env) (credential challenge accountId : String) (db : Db) :
    Option (PasskeyCredentialRow × VerifiedAuthentication) := do
  let parsed ← env.parseAssertion credential
  if parsed.rawId.isEmpty || maxCredentialIdBytes < parsed.rawId.length then none
  else
    let row ← db.passkeyCredentials.find? fun row =>
      row.credentialId == parsed.rawId && row.accountId == accountId
    if parsed.userHandle.any (· != bytesFromHex accountId.toList) then none
    else
      let verified ← (env.verifyAssertion credential challenge row.publicKey row.signCount).filter
        (validAssertion row)
      some (row, verified)

/-- `SET sign_count = ?, device_type = ?, backed_up = ?, last_used_at = ?` -/
def PasskeyCredentialRow.used (verified : VerifiedAuthentication) (now : Nat)
    (row : PasskeyCredentialRow) : PasskeyCredentialRow :=
  { row with
    signCount := verified.newSignCount.toNat
    deviceType := verified.deviceType
    backedUp := verified.backedUp
    lastUsedAt := some now }

/-- `_verify_passkey_assertion_locked`: whether the assertion is accepted. -/
def verifyPasskeyAssertion (env : Env) (credential challenge accountId : String) (now : Nat) :
    Store Bool := do
  match ← Exec.inspect (·.verifiedCredential env credential challenge accountId) with
  | none => return false
  | some (row, verified) =>
      let changed ← Exec.inspect fun db =>
        (db.passkeyCredentials.filter (usesCredential accountId row)).length
      Exec.update fun db => { db with
        passkeyCredentials := db.passkeyCredentials.map fun other =>
          if usesCredential accountId row other then other.used verified now else other }
      return changed == 1

/-- `begin_passkey_login` -/
def beginPasskeyLogin (env : Env) (random : Random) (clock : Option Nat) : Store String := do
  requirePasskeyConfiguration env
  let now ← readClock clock
  Exec.atomically (createPasskeyChallenge env random .login none none now)

structure VerifiedPasskeyIdentity where
  accountId : String
  email : String
  deriving DecidableEq, Repr

/-- The account that the credential of a login assertion and its user handle name. -/
def Db.assertedAccount (env : Env) (credential : String) (db : Db) : Option String := do
  let parsed ← env.parseAssertion credential
  if parsed.rawId.isEmpty || maxCredentialIdBytes < parsed.rawId.length then none
  else
    let row ← db.passkeyCredentials.find? (·.credentialId == parsed.rawId)
    if parsed.userHandle == some (bytesFromHex row.accountId.toList) then some row.accountId
    else none

/-- `verify_passkey_login` -/
def verifyPasskeyLogin (env : Env) (clock : Option Nat) (challengeToken credential : String) :
    Store VerifiedPasskeyIdentity := do
  requirePasskeyConfiguration env
  let challenge ← requirePasskeyChallenge challengeToken
  let now ← readClock clock
  let outcome ← Exec.atomically do
    let row ← passkeyChallengeRow (env.passkeyDigest challenge) now .login none none
    match ← Exec.inspect (·.assertedAccount env credential) with
    | none =>
        recordPasskeyChallengeFailure row
        return .error (.invalidPasskey "passkey authentication failed")
    | some accountId =>
        let accepted ← verifyPasskeyAssertion env credential challenge accountId now
        if accepted then
          Exec.update (·.deletePasskeyChallenges (·.challengeDigest == row.challengeDigest))
          let account ← Exec.require (·.accountById accountId)
            (.data "authentication row disappeared")
          return .ok ⟨accountId, account.canonicalEmail⟩
        else
          recordPasskeyChallengeFailure row
          return .error (.invalidPasskey "passkey authentication failed")
  Exec.ofExcept outcome

/-- `issue_verified_passkey_session` -/
def issueVerifiedPasskeySession (env : Env) (random : Random) (clock : Option Nat)
    (identity : VerifiedPasskeyIdentity) (clientIp userAgent : Option String) :
    Store IssuedSession := do
  let accountId ← validateAccountId identity.accountId
  let email ← requireEmail identity.email
  let now ← readClock clock
  Exec.atomically do
    let account ← Exec.require
      (fun db => (db.accountById accountId).filter (·.canonicalEmail == email)) .accountNotFound
    issueSession env random account now clientIp userAgent

/-- `complete_passkey_login` -/
def completePasskeyLogin (env : Env) (random : Random) (clock later : Option Nat)
    (challengeToken credential : String) (clientIp userAgent : Option String) :
    Store IssuedSession := do
  let identity ← verifyPasskeyLogin env clock challengeToken credential
  issueVerifiedPasskeySession env random later identity clientIp userAgent

/-! ## Step-up -/

/-- `begin_passkey_step_up` -/
def beginPasskeyStepUp (env : Env) (random : Random) (clock : Option Nat) (sessionToken : String) :
    Store String := do
  requirePasskeyConfiguration env
  let sessionDigest := opaqueDigest env.sessionDigest sessionToken
  let now ← readClock clock
  let outcome ← Exec.atomically do
    match ← validSessionRow sessionDigest now true with
    | none => return .error .invalidSession
    | some (_, account, _) =>
        let credentials ← Exec.inspect fun db =>
          db.passkeyCredentials.filter (·.accountId == account.accountId)
        Exec.ensure (!credentials.isEmpty) (.invalidPasskey "account has no registered passkey")
        let token ← createPasskeyChallenge env random .stepUp (some account.accountId)
          (some sessionDigest) now
        return .ok token
  Exec.ofExcept outcome

/-- `complete_passkey_step_up` -/
def completePasskeyStepUp (env : Env) (clock : Option Nat)
    (sessionToken challengeToken credential : String) : Store SessionPrincipal := do
  requirePasskeyConfiguration env
  let challenge ← requirePasskeyChallenge challengeToken
  let sessionDigest := opaqueDigest env.sessionDigest sessionToken
  let now ← readClock clock
  let outcome ← Exec.atomically do
    match ← validSessionRow sessionDigest now true with
    | none => return .error .invalidSession
    | some (session, account, lastSeen) =>
        let row ← passkeyChallengeRow (env.passkeyDigest challenge) now .stepUp
          (some account.accountId) (some sessionDigest)
        let accepted ← verifyPasskeyAssertion env credential challenge account.accountId now
        if accepted then
          Exec.update (·.updateSession sessionDigest
            ({ · with stepUpUntil := stepUpEnd session now }))
          Exec.update (·.deletePasskeyChallenges (·.challengeDigest == row.challengeDigest))
          return .ok (principalFromSessionRow session account lastSeen (stepUpEnd session now))
        else
          recordPasskeyChallengeFailure row
          return .error (.invalidPasskey "passkey authentication failed")
  Exec.ofExcept outcome

end MaddyWeb.Auth
