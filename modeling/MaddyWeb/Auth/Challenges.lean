import MaddyWeb.Auth.Accounts

/-!
# Login challenges: enrollment, TOTP and recovery codes

A second factor that fails is recorded and the transaction commits; the exception
is raised after it.  The body of such an operation therefore returns the outcome.
-/

namespace MaddyWeb.Auth

open MaddyWeb.Library

def maxChallengesPerAccount : Nat := 5

def PendingChallengeRow.before (a b : PendingChallengeRow) : Bool :=
  a.createdAt < b.createdAt ||
    (a.createdAt == b.createdAt && a.challengeDigest ≤ b.challengeDigest)

/-- The challenges that own the pending enrollment of an account. -/
def Db.enrollmentOwners (db : Db) (accountId : String) : List Digest :=
  (db.accounts.filter fun row =>
    row.accountId == accountId && row.enrollmentState == .pending).filterMap
      (·.enrollmentChallengeDigest)

/-- The eviction of `create_pending_challenge`, which spares the owner of an enrollment. -/
def Db.evictChallenges (accountId : String) (db : Db) : Db :=
  let own := db.pendingOf accountId
  if maxChallengesPerAccount ≤ own.length then
    let candidates := own.filter fun row =>
      !(db.enrollmentOwners accountId).contains row.challengeDigest
    let evicted := (oldest PendingChallengeRow.before
      (own.length - maxChallengesPerAccount + 1) candidates).map (·.challengeDigest)
    db.deletePending fun row => evicted.contains row.challengeDigest
  else db

/-- `create_pending_challenge` -/
def createPendingChallenge (env : Env) (random : Random) (clock : Option Nat) (email : String) :
    Store String := do
  let canonical ← requireEmail email
  let now ← readClock clock
  Exec.atomically do
    let row ← Exec.require (·.accountByEmail canonical) .accountNotFound
    Exec.update (·.deleteExpiredChallenges now)
    Exec.update (·.evictChallenges row.accountId)
    let token ← Exec.require
      (fun db => firstUnused random.token fun token =>
        db.pendingChallenges.any
          (·.challengeDigest == opaqueDigest env.challengeDigest token.text))
      (.authentication "unable to allocate a unique opaque token")
    Exec.update (·.insertPending
      ⟨opaqueDigest env.challengeDigest token.text, row.accountId, now,
        now + challengeLifetimeSeconds, 0⟩)
    return token.text

/-- The rows that `begin_totp_enrollment` starts an enrollment of. -/
def enrollmentRequired (accountId : String) (row : AccountRow) : Bool :=
  row.accountId == accountId && row.enrollmentState == .required

/-- `SET enrollment_state = 'pending', …` -/
def AccountRow.begun (digest : Digest) (nonce ciphertext : Bytes) (now : Nat) (row : AccountRow) :
    AccountRow :=
  { row with
    enrollmentState := .pending
    totpNonce := some nonce
    totpCiphertext := some ciphertext
    enrollmentChallengeDigest := some digest
    totpLastCounter := -1
    updatedAt := now }

/-- `begin_totp_enrollment`: the secret is returned. -/
def beginTotpEnrollment (env : Env) (random : Random) (clock : Option Nat)
    (challengeToken : String) : Store Bytes := do
  let digest := opaqueDigest env.challengeDigest challengeToken
  let now ← readClock clock
  Exec.atomically do
    let (_, account) ← challengeRow digest now
    match account.enrollmentState with
    | .active => Exec.raise (.enrollmentState "TOTP is already active")
    | .pending =>
        match account.enrollmentChallengeDigest with
        | none => Exec.raise (.data "TOTP enrollment owner is invalid")
        | some owner =>
            Exec.ensure (owner == digest)
              (.enrollmentState "TOTP enrollment belongs to another challenge")
            Exec.ofExcept (decryptTotp env account)
    | .required =>
        let nonce := random.nonce 0
        let ciphertext := env.encrypt nonce random.secret account.accountId account.canonicalEmail
        let changed ← Exec.inspect (·.countAccounts (enrollmentRequired account.accountId))
        Exec.update (·.updateAccounts (enrollmentRequired account.accountId)
          (·.begun digest nonce ciphertext now))
        Exec.ensure (changed == 1) (.enrollmentState "TOTP enrollment state changed")
        Exec.update (·.deleteCodes account.accountId)
        Exec.update (·.deletePasskeyChallenges (·.accountId == some account.accountId))
        Exec.update (·.deleteSessions (·.accountId == account.accountId))
        return random.secret

/-- The failure exit of the three completing operations. -/
def recordFailure {α : Type} (challenge : PendingChallengeRow) (later : Option Nat) :
    Store (Except AuthError α) := do
  recordChallengeFailure challenge.challengeDigest challenge.failureCount later
  return .error .invalidSecondFactor

/-- The rows that a confirmed enrollment activates. -/
def enrollmentConfirmed (accountId : String) (digest : Digest) (counter : Nat)
    (row : AccountRow) : Bool :=
  row.accountId == accountId && row.enrollmentState == .pending &&
    row.enrollmentChallengeDigest == some digest && row.totpLastCounter < counter

/-- `SET enrollment_state = 'active', …` -/
def AccountRow.confirmed (counter now : Nat) (row : AccountRow) : AccountRow :=
  { row with
    enrollmentState := .active
    enrollmentChallengeDigest := none
    totpLastCounter := counter
    updatedAt := now }

structure EnrollmentResult where
  session : IssuedSession
  recoveryCodes : List String
  deriving DecidableEq, Repr

/-- The success branch of `confirm_totp_enrollment`. -/
def activateEnrollment (env : Env) (random : Random) (later : Option Nat) (now : Nat)
    (challenge : PendingChallengeRow) (accountId : String) (counter : Nat)
    (clientIp userAgent : Option String) : Store (Except AuthError EnrollmentResult) := do
  let condition := enrollmentConfirmed accountId challenge.challengeDigest counter
  let changed ← Exec.inspect (·.countAccounts condition)
  Exec.update (·.updateAccounts condition (·.confirmed counter now))
  if changed ≠ 1 then recordFailure challenge later
  else
    let codes := generateRecoveryCodes random
    storeRecoveryCodes env accountId codes now
    Exec.update (·.deletePending (·.accountId == accountId))
    let account ← Exec.require (·.accountById accountId) (.data "authentication row disappeared")
    let session ← issueSession env random account now clientIp userAgent
    return .ok ⟨session, codes⟩

/-- `confirm_totp_enrollment` -/
def confirmTotpEnrollment (env : Env) (random : Random) (clock later : Option Nat)
    (challengeToken code : String) (clientIp userAgent : Option String) :
    Store EnrollmentResult := do
  let digest := opaqueDigest env.challengeDigest challengeToken
  let now ← readClock clock
  let outcome ← Exec.atomically do
    let (challenge, account) ← challengeRow digest now
    Exec.ensure (account.enrollmentState == .pending)
      (.enrollmentState "TOTP enrollment is not pending")
    Exec.ensure (account.enrollmentChallengeDigest == some digest)
      (.enrollmentState "TOTP enrollment belongs to another challenge")
    match ← Exec.ofExcept (matchingCounter env account code now) with
    | none => recordFailure challenge later
    | some counter =>
        if counter ≤ account.totpLastCounter then recordFailure challenge later
        else
          activateEnrollment env random later now challenge account.accountId counter clientIp
            userAgent
  Exec.ofExcept outcome

/-- The success branch of `complete_totp_challenge`. -/
def acceptCounter (env : Env) (random : Random) (later : Option Nat) (now : Nat)
    (challenge : PendingChallengeRow) (accountId : String) (counter : Nat)
    (clientIp userAgent : Option String) : Store (Except AuthError IssuedSession) := do
  let changed ← Exec.inspect (·.countAccounts (counterBelow accountId counter))
  Exec.update (·.updateAccounts (counterBelow accountId counter) (·.counted counter now))
  if changed ≠ 1 then recordFailure challenge later
  else
    Exec.update (·.deletePending (·.challengeDigest == challenge.challengeDigest))
    let account ← Exec.require (·.accountById accountId) (.data "authentication row disappeared")
    let session ← issueSession env random account now clientIp userAgent
    return .ok session

/-- `complete_totp_challenge` -/
def completeTotpChallenge (env : Env) (random : Random) (clock later : Option Nat)
    (challengeToken code : String) (clientIp userAgent : Option String) :
    Store IssuedSession := do
  let digest := opaqueDigest env.challengeDigest challengeToken
  let now ← readClock clock
  let outcome ← Exec.atomically do
    let (challenge, account) ← challengeRow digest now
    Exec.ensure (account.enrollmentState == .active)
      (.enrollmentState "TOTP enrollment is not active")
    match ← Exec.ofExcept (matchingCounter env account code now) with
    | none => recordFailure challenge later
    | some counter =>
        if counter ≤ account.totpLastCounter then recordFailure challenge later
        else
          acceptCounter env random later now challenge account.accountId counter clientIp userAgent
  Exec.ofExcept outcome

/-- The success branch of `complete_recovery_challenge`. -/
def acceptRecoveryCode (env : Env) (random : Random) (now : Nat) (accountId : String)
    (clientIp userAgent : Option String) : Store (Except AuthError IssuedSession) := do
  Exec.update (·.deleteAuthentication accountId)
  let account ← Exec.require (·.accountById accountId) (.data "authentication row disappeared")
  let session ← issueSession env random account now clientIp userAgent
  return .ok session

/-- `complete_recovery_challenge` -/
def completeRecoveryChallenge (env : Env) (random : Random) (clock later : Option Nat)
    (challengeToken recoveryCode : String) (clientIp userAgent : Option String) :
    Store IssuedSession := do
  let digest := opaqueDigest env.challengeDigest challengeToken
  let normalizedCode ← requireRecoveryCode recoveryCode
  let now ← readClock clock
  let outcome ← Exec.atomically do
    let (challenge, account) ← challengeRow digest now
    Exec.ensure (account.enrollmentState == .active)
      (.enrollmentState "TOTP enrollment is not active")
    let codeDigest := env.recoveryDigest account.accountId normalizedCode
    let spent := fun row : RecoveryCodeRow =>
      row.accountId == account.accountId && row.codeDigest == codeDigest
    let consumed ← Exec.inspect fun db => (db.recoveryCodes.filter spent).length
    Exec.update fun db => { db with recoveryCodes := db.recoveryCodes.filter fun row => !spent row }
    if consumed ≠ 1 then recordFailure challenge later
    else acceptRecoveryCode env random now account.accountId clientIp userAgent
  Exec.ofExcept outcome

end MaddyWeb.Auth
