import MaddyWeb.Auth.Locked

/-!
# Login rate limits

The password and the passkey checks run one algorithm over their own policies and
bucket identities.
-/

namespace MaddyWeb.Auth

open MaddyWeb.Library

def maxRateLimitRows : Nat := 1024

structure RatePolicy where
  scope : RateScope
  limit : Nat
  windowSeconds : Nat
  deriving DecidableEq, Repr

/-- `_RATE_POLICIES` -/
def ratePolicies : List RatePolicy :=
  [⟨.global, 120, 5 * 60⟩, ⟨.ip, 30, 5 * 60⟩, ⟨.account, 15, 15 * 60⟩, ⟨.pair, 10, 15 * 60⟩]

/-- `_PASSKEY_LOGIN_RATE_POLICIES` -/
def passkeyLoginRatePolicies : List RatePolicy := [⟨.global, 120, 5 * 60⟩, ⟨.ip, 30, 5 * 60⟩]

/-- The bucket of a policy: its identity, and the account that it is linked to. -/
structure RateBucket where
  identityDigest : Digest
  accountId : Option String
  accountIdentityDigest : Option Digest

/-- `_rate_identities`, with the links that `check_login_rate` stores. -/
def loginBucket (env : Env) (canonical ip : String) (accountId : Option String) :
    RateScope → RateBucket
  | .global => ⟨env.rateDigest "global" "all", none, none⟩
  | .ip => ⟨env.rateDigest "ip" ip, none, none⟩
  | .account => ⟨env.rateDigest "account" canonical, accountId,
      some (env.rateDigest "account" canonical)⟩
  | .pair => ⟨env.rateDigest "pair" (canonical ++ "\x00" ++ ip), accountId,
      some (env.rateDigest "account" canonical)⟩

/-- `_passkey_login_rate_identities` -/
def passkeyLoginBucket (env : Env) (ip : String) : RateScope → RateBucket
  | .ip => ⟨env.rateDigest "passkey-ip" ip, none, none⟩
  | _ => ⟨env.rateDigest "passkey-global" "all", none, none⟩

def largestWindow (policies : List RatePolicy) : Nat :=
  (policies.map (·.windowSeconds)).foldl max 0

/-- The deletion of the windows that have ended. -/
def purgeRates (policies : List RatePolicy) (now : Nat) (rows : List RateRow) : List RateRow :=
  rows.filter fun row => !policies.any fun policy =>
    row.scope == policy.scope && row.windowStartedAt + policy.windowSeconds ≤ now

/-- `ORDER BY (scope = 'global'), window_started_at, rowid` -/
def RateRow.before (a b : RateRow) : Bool :=
  (a.scope != .global && b.scope == .global) ||
    ((a.scope == .global) == (b.scope == .global) && a.windowStartedAt ≤ b.windowStartedAt)

def trimRates (rows : List RateRow) : List RateRow :=
  let excess := oldest RateRow.before (rows.length - maxRateLimitRows) rows
  rows.filter fun row => !excess.contains row

def findRate (rows : List RateRow) (scope : RateScope) (digest : Digest) : Option RateRow :=
  rows.find? fun row => row.scope == scope && row.identityDigest == digest

/-- How long a full bucket keeps refusing. -/
def bucketDelay (policy : RatePolicy) (now : Nat) (row : RateRow) : Nat :=
  if policy.limit ≤ row.attemptCount then policy.windowSeconds - (now - row.windowStartedAt) else 0

/-- `INSERT … ON CONFLICT(scope, identity_digest) DO UPDATE …` -/
def countAttempt (bucket : RateScope → RateBucket) (now : Nat) (rows : List RateRow)
    (policy : RatePolicy) : List RateRow :=
  let target := bucket policy.scope
  match findRate rows policy.scope target.identityDigest with
  | none => rows ++ [⟨policy.scope, target.identityDigest, target.accountId,
      target.accountIdentityDigest, now, 1⟩]
  | some _ => rows.map fun row =>
      if row.scope == policy.scope && row.identityDigest == target.identityDigest then
        { row with
          accountId := target.accountId <|> row.accountId
          accountIdentityDigest := target.accountIdentityDigest <|> row.accountIdentityDigest
          attemptCount := row.attemptCount + 1 }
      else row

/-- The transaction of a rate check: the delay, which is zero for an accepted attempt, and
the rows. -/
def reserveAttempt (policies : List RatePolicy) (bucket : RateScope → RateBucket) (now : Nat)
    (rows : List RateRow) : Nat × List RateRow :=
  let purged := purgeRates policies now rows
  let trimmed := trimRates purged
  let pressure := if maxRateLimitRows < purged.length then largestWindow policies else 0
  let found := policies.map fun policy =>
    (policy, findRate trimmed policy.scope (bucket policy.scope).identityDigest)
  let delay := found.foldl (fun delay pair =>
    max delay ((pair.2.map (bucketDelay pair.1 now)).getD 0)) pressure
  let newRows := (found.filter (·.2.isNone)).length
  let retryAfter := if delay = 0 ∧ maxRateLimitRows < trimmed.length + newRows then
    largestWindow policies else delay
  if retryAfter = 0 then (0, policies.foldl (countAttempt bucket now) trimmed)
  else (retryAfter, trimmed)

/-- The refusal is raised after the transaction. -/
def raiseRateLimited (retryAfter : Nat) : Store Unit :=
  Exec.ensure (retryAfter == 0) (.loginRateLimited retryAfter)

def requireIp (env : Env) (clientIp : String) : Store String :=
  Exec.require (fun _ => env.canonicalIp clientIp)
    (.value "client IP must be an explicit IP address")

def reserve (policies : List RatePolicy) (bucket : Db → RateScope → RateBucket) (now : Nat) :
    Store Nat := do
  let retryAfter ← Exec.inspect fun db => (reserveAttempt policies (bucket db) now db.rateLimits).1
  Exec.update fun db =>
    { db with rateLimits := (reserveAttempt policies (bucket db) now db.rateLimits).2 }
  return retryAfter

/-- `check_login_rate` -/
def checkLoginRate (env : Env) (clock : Option Nat) (email clientIp : String) : Store Unit := do
  let canonical ← requireEmail email
  let ip ← requireIp env clientIp
  let now ← readClock clock
  let retryAfter ← Exec.atomically
    (reserve ratePolicies
      (fun db => loginBucket env canonical ip ((db.accountByEmail canonical).map (·.accountId)))
      now)
  raiseRateLimited retryAfter

/-- `check_passkey_login_rate` -/
def checkPasskeyLoginRate (env : Env) (clock : Option Nat) (clientIp : String) : Store Unit := do
  let ip ← requireIp env clientIp
  let now ← readClock clock
  let retryAfter ← Exec.atomically
    (reserve passkeyLoginRatePolicies (fun _ => passkeyLoginBucket env ip) now)
  raiseRateLimited retryAfter

def clearBucket (scope : RateScope) (digest : Digest) : Store Unit :=
  Exec.update fun db => { db with
    rateLimits := db.rateLimits.filter fun row =>
      !(row.scope == scope && row.identityDigest == digest) }

/-- `record_login_result` -/
def recordLoginResult (env : Env) (email clientIp : String) (success : Bool) : Store Unit := do
  let canonical ← requireEmail email
  let ip ← requireIp env clientIp
  if success then
    Exec.atomically (clearBucket .pair (loginBucket env canonical ip none .pair).identityDigest)
  else return ()

/-- `record_passkey_login_result` -/
def recordPasskeyLoginResult (env : Env) (clientIp : String) (success : Bool) : Store Unit := do
  let ip ← requireIp env clientIp
  if success then
    Exec.atomically (clearBucket .ip (passkeyLoginBucket env ip .ip).identityDigest)
  else return ()

end MaddyWeb.Auth
