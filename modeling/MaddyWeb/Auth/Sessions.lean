import MaddyWeb.Auth.Locked

/-!
# Session operations
-/

namespace MaddyWeb.Auth

open MaddyWeb.Library

/-- `authenticate_session` -/
def authenticateSession (env : Env) (clock : Option Nat) (token : String) (touch : Bool) :
    Store SessionPrincipal := do
  let digest := opaqueDigest env.sessionDigest token
  let now ← readClock clock
  let outcome ← Exec.atomically do
    match ← validSessionRow digest now touch with
    | none => return .error .invalidSession
    | some (session, account, lastSeen) =>
        return .ok (principalFromSessionRow session account lastSeen session.stepUpUntil)
  Exec.ofExcept outcome

/-- The end of a step-up that lasts five minutes, but not longer than the session. -/
def stepUpEnd (session : SessionRow) (now : Nat) : Nat :=
  min (now + stepUpSeconds) session.absoluteExpiresAt

/-- `mark_step_up` -/
def markStepUp (env : Env) (clock : Option Nat) (sessionToken : String) :
    Store SessionPrincipal := do
  let digest := opaqueDigest env.sessionDigest sessionToken
  let now ← readClock clock
  let outcome ← Exec.atomically do
    match ← validSessionRow digest now true with
    | none => return .error .invalidSession
    | some (session, account, lastSeen) =>
        Exec.update (·.updateSession digest ({ · with stepUpUntil := stepUpEnd session now }))
        return .ok (principalFromSessionRow session account lastSeen (stepUpEnd session now))
  Exec.ofExcept outcome

/-- `require_step_up` -/
def requireStepUp (env : Env) (clock : Option Nat) (sessionToken : String) :
    Store SessionPrincipal := do
  let digest := opaqueDigest env.sessionDigest sessionToken
  let now ← readClock clock
  let outcome ← Exec.atomically do
    match ← validSessionRow digest now true with
    | none => return .error .invalidSession
    | some (session, account, lastSeen) =>
        if session.stepUpUntil ≤ now then return .error .stepUpRequired
        else return .ok (principalFromSessionRow session account lastSeen session.stepUpUntil)
  Exec.ofExcept outcome

/-- `revoke_session` -/
def revokeSession (env : Env) (token : String) : Store Bool := do
  let digest := opaqueDigest env.sessionDigest token
  Exec.atomically do
    let deleted ← Exec.inspect fun db =>
      (db.sessions.filter (·.sessionDigest == digest)).length
    Exec.update (·.deleteSessions (·.sessionDigest == digest))
    return deleted == 1

structure SessionInfo where
  sessionId : String
  accountId : String
  createdAt : Nat
  lastSeenAt : Nat
  idleExpiresAt : Nat
  absoluteExpiresAt : Nat
  stepUpUntil : Nat
  clientIp : Option String
  userAgent : Option String
  current : Bool
  deriving DecidableEq, Repr

/-- `_session_info_from_row` -/
def sessionInfoFromRow (current : Bool) (row : SessionRow) : SessionInfo :=
  ⟨row.sessionId, row.accountId, row.createdAt, row.lastSeenAt,
    min (row.lastSeenAt + sessionIdleSeconds) row.absoluteExpiresAt, row.absoluteExpiresAt,
    row.stepUpUntil, row.clientIp, row.userAgent, current⟩

/-- `ORDER BY last_seen_at DESC, created_at DESC, session_id` -/
def SessionRow.listedBefore (a b : SessionRow) : Bool :=
  b.lastSeenAt < a.lastSeenAt || (a.lastSeenAt == b.lastSeenAt &&
    (b.createdAt < a.createdAt || (a.createdAt == b.createdAt && a.sessionId ≤ b.sessionId)))

/-- `list_sessions` -/
def listSessions (env : Env) (clock : Option Nat) (accountId : String)
    (currentToken : Option String) : Store (List SessionInfo) := do
  let normalizedId ← validateAccountId accountId
  let currentDigest := currentToken.map (opaqueDigest env.sessionDigest)
  let now ← readClock clock
  Exec.atomically do
    let _ ← requireAccountById normalizedId
    Exec.update (·.deleteExpiredSessions now)
    Exec.inspect fun db =>
      ((db.sessionsOf normalizedId).mergeSort SessionRow.listedBefore).map fun row =>
        sessionInfoFromRow (currentDigest == some row.sessionDigest) row

/-- `revoke_session_by_id` -/
def revokeSessionById (accountId sessionId : String) : Store Bool := do
  let normalizedId ← validateAccountId accountId
  Exec.ensure (isHex32 sessionId)
    (.value "session identifier must be 32 lowercase hexadecimal characters")
  Exec.atomically do
    let _ ← requireAccountById normalizedId
    let chosen :=
      fun row : SessionRow => row.accountId == normalizedId && row.sessionId == sessionId
    let deleted ← Exec.inspect fun db => (db.sessions.filter chosen).length
    Exec.update (·.deleteSessions chosen)
    return deleted == 1

/-- `revoke_sessions` -/
def revokeSessions (later : Option Nat) (accountId : String) : Store Nat := do
  let normalizedId ← validateAccountId accountId
  Exec.atomically do
    let _ ← requireAccountById normalizedId
    revokeAccountAuthentication normalizedId later

end MaddyWeb.Auth
