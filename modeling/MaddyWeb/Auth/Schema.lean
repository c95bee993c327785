import MaddyWeb.Library.Text
import Mathlib.Data.List.Basic

/-!
# The tables of the authentication database

A table is the list of its rows in insertion order.  A digest is kept as its
hexadecimal text, which has the order of the bytes.  The statements that several
operations share are functions on the database here; a `DELETE` follows the
foreign keys of the schema.
-/

namespace MaddyWeb.Auth

export MaddyWeb.Library (Bytes)

abbrev Digest := String

inductive Role
  | admin
  | user
  deriving DecidableEq, Repr

inductive EnrollmentState
  | required
  | pending
  | active
  deriving DecidableEq, Repr

/-- `auth_accounts` -/
structure AccountRow where
  accountId : String
  canonicalEmail : String
  role : Role
  passwordChangeRequired : Bool
  enrollmentState : EnrollmentState
  totpNonce : Option Bytes
  totpCiphertext : Option Bytes
  enrollmentChallengeDigest : Option Digest
  totpLastCounter : Int
  createdAt : Nat
  updatedAt : Nat
  deriving DecidableEq, Repr

/-- `auth_recovery_codes` -/
structure RecoveryCodeRow where
  accountId : String
  codeDigest : Digest
  createdAt : Nat
  deriving DecidableEq, Repr

/-- `auth_pending_challenges` -/
structure PendingChallengeRow where
  challengeDigest : Digest
  accountId : String
  createdAt : Nat
  expiresAt : Nat
  failureCount : Nat
  deriving DecidableEq, Repr

/-- `auth_sessions` -/
structure SessionRow where
  sessionDigest : Digest
  accountId : String
  createdAt : Nat
  lastSeenAt : Nat
  absoluteExpiresAt : Nat
  stepUpUntil : Nat
  sessionId : String
  clientIp : Option String
  userAgent : Option String
  deriving DecidableEq, Repr

/-- `auth_passkey_credentials` -/
structure PasskeyCredentialRow where
  credentialId : Bytes
  publicId : String
  accountId : String
  publicKey : Bytes
  signCount : Nat
  name : String
  deviceType : String
  backedUp : Bool
  transports : List String
  createdAt : Nat
  lastUsedAt : Option Nat
  deriving DecidableEq, Repr

inductive PasskeyPurpose
  | registration
  | login
  | stepUp
  deriving DecidableEq, Repr

/-- `auth_passkey_challenges` -/
structure PasskeyChallengeRow where
  challengeDigest : Digest
  purpose : PasskeyPurpose
  accountId : Option String
  sessionDigest : Option Digest
  createdAt : Nat
  expiresAt : Nat
  failureCount : Nat
  deriving DecidableEq, Repr

inductive RateScope
  | global
  | ip
  | account
  | pair
  deriving DecidableEq, Repr

/-- `auth_login_rate_limits` -/
structure RateRow where
  scope : RateScope
  identityDigest : Digest
  accountId : Option String
  accountIdentityDigest : Option Digest
  windowStartedAt : Nat
  attemptCount : Nat
  deriving DecidableEq, Repr

/-- `mail_rules` -/
structure MailRuleRow where
  ruleId : String
  accountId : String
  name : String
  enabled : Bool
  position : Nat
  expressionJson : String
  targetMailbox : String
  stopProcessing : Bool
  revision : Nat
  createdAt : Nat
  updatedAt : Nat
  deriving DecidableEq, Repr

inductive RunStatus
  | queued
  | running
  | completed
  | failed
  | cancelled
  deriving DecidableEq, Repr

/-- `mail_rule_runs` -/
structure MailRuleRunRow where
  runId : String
  accountId : String
  ruleId : Option String
  ruleRevision : Nat
  ruleSnapshotJson : String
  stateJson : String
  status : RunStatus
  scanned : Nat
  matched : Nat
  moved : Nat
  failed : Nat
  createdAt : Nat
  startedAt : Option Nat
  updatedAt : Nat
  finishedAt : Option Nat
  errorCode : Option String
  deriving DecidableEq, Repr

structure Db where
  accounts : List AccountRow := []
  recoveryCodes : List RecoveryCodeRow := []
  pendingChallenges : List PendingChallengeRow := []
  sessions : List SessionRow := []
  passkeyCredentials : List PasskeyCredentialRow := []
  passkeyChallenges : List PasskeyChallengeRow := []
  rateLimits : List RateRow := []
  mailRules : List MailRuleRow := []
  mailRuleRuns : List MailRuleRunRow := []
  deriving DecidableEq, Repr

namespace Db

/-! ## Queries -/

/-- `_account_row_by_email_locked` -/
def accountByEmail (db : Db) (canonical : String) : Option AccountRow :=
  db.accounts.find? (·.canonicalEmail == canonical)

/-- `_account_row_by_id_locked` -/
def accountById (db : Db) (accountId : String) : Option AccountRow :=
  db.accounts.find? (·.accountId == accountId)

def pendingOf (db : Db) (accountId : String) : List PendingChallengeRow :=
  db.pendingChallenges.filter (·.accountId == accountId)

def codesOf (db : Db) (accountId : String) : List RecoveryCodeRow :=
  db.recoveryCodes.filter (·.accountId == accountId)

def sessionsOf (db : Db) (accountId : String) : List SessionRow :=
  db.sessions.filter (·.accountId == accountId)

/-! ## Statements -/

def updateAccounts (condition : AccountRow → Bool) (set : AccountRow → AccountRow) (db : Db) :
    Db :=
  { db with accounts := db.accounts.map fun row => if condition row then set row else row }

def insertAccount (row : AccountRow) (db : Db) : Db :=
  { db with accounts := db.accounts ++ [row] }

def deleteCodes (accountId : String) (db : Db) : Db :=
  { db with recoveryCodes := db.recoveryCodes.filter (·.accountId != accountId) }

def insertPending (row : PendingChallengeRow) (db : Db) : Db :=
  { db with pendingChallenges := db.pendingChallenges ++ [row] }

def deletePending (condition : PendingChallengeRow → Bool) (db : Db) : Db :=
  { db with pendingChallenges := db.pendingChallenges.filter fun row => !condition row }

def updatePending (digest : Digest) (set : PendingChallengeRow → PendingChallengeRow) (db : Db) :
    Db :=
  { db with
    pendingChallenges := db.pendingChallenges.map fun row =>
      if row.challengeDigest == digest then set row else row }

def insertPasskeyChallenge (row : PasskeyChallengeRow) (db : Db) : Db :=
  { db with passkeyChallenges := db.passkeyChallenges ++ [row] }

def deletePasskeyChallenges (condition : PasskeyChallengeRow → Bool) (db : Db) : Db :=
  { db with passkeyChallenges := db.passkeyChallenges.filter fun row => !condition row }

def updatePasskeyChallenge (digest : Digest) (set : PasskeyChallengeRow → PasskeyChallengeRow)
    (db : Db) : Db :=
  { db with
    passkeyChallenges := db.passkeyChallenges.map fun row =>
      if row.challengeDigest == digest then set row else row }

def insertSession (row : SessionRow) (db : Db) : Db :=
  { db with sessions := db.sessions ++ [row] }

def updateSession (digest : Digest) (set : SessionRow → SessionRow) (db : Db) : Db :=
  { db with
    sessions := db.sessions.map fun row => if row.sessionDigest == digest then set row else row }

/-- Deleting a session deletes the passkey challenges that are bound to it. -/
def deleteSessions (condition : SessionRow → Bool) (db : Db) : Db :=
  let deleted := (db.sessions.filter condition).map (·.sessionDigest)
  { db with
    sessions := db.sessions.filter fun row => !condition row
    passkeyChallenges := db.passkeyChallenges.filter fun row =>
      !row.sessionDigest.any fun digest => deleted.contains digest }

/-- Deleting a rule clears the reference that a run keeps to it. -/
def deleteMailRules (condition : MailRuleRow → Bool) (db : Db) : Db :=
  let deleted := (db.mailRules.filter condition).map (·.ruleId)
  { db with
    mailRules := db.mailRules.filter fun row => !condition row
    mailRuleRuns := db.mailRuleRuns.map fun run =>
      if run.ruleId.any fun ruleId => deleted.contains ruleId then { run with ruleId := none }
      else run }

/-- The row of an account and every row that references it. -/
def deleteAccountRow (accountId : String) (db : Db) : Db :=
  let db := deleteMailRules (·.accountId == accountId)
    (deleteSessions (·.accountId == accountId) db)
  { db with
    accounts := db.accounts.filter (·.accountId != accountId)
    recoveryCodes := db.recoveryCodes.filter (·.accountId != accountId)
    pendingChallenges := db.pendingChallenges.filter (·.accountId != accountId)
    passkeyCredentials := db.passkeyCredentials.filter (·.accountId != accountId)
    passkeyChallenges := db.passkeyChallenges.filter (·.accountId != some accountId)
    rateLimits := db.rateLimits.filter (·.accountId != some accountId)
    mailRuleRuns := db.mailRuleRuns.filter (·.accountId != accountId) }

end Db

end MaddyWeb.Auth
