import MaddyWeb.Auth.Challenges
import MaddyWeb.Auth.MailRules
import MaddyWeb.Auth.Passkeys
import MaddyWeb.Auth.RateLimits

/-!
# The store as a state machine

A call is one public operation with the clock readings and the random values that
it finds.  Every call runs to its end, so a run of the store is a list of calls.
-/

namespace MaddyWeb.Auth

open MaddyWeb.Library

/-- The mail-rule operations, which touch the two rule tables only. -/
inductive RuleOp
  | listMailRules (accountId : String)
  | getMailRule (accountId ruleId : String)
  | createMailRule (accountId : String) (name enabled expression target stop : Json)
  | createMailRuleWithRun (accountId : String) (name enabled expression target stop : Json)
      (runState : Json) (runCompleted : Bool)
  | updateMailRule (accountId ruleId : String) (expectedRevision : Int)
      (name enabled expression target stop : Json)
  | deleteMailRule (accountId ruleId : String)
  | reorderMailRules (accountId : String) (ruleIds : List String)
  | mailboxRuleReferenceCount (accountId : String) (mailbox : Json)
  | createMailRuleRun (accountId ruleId : String) (snapshot state : Json)
  | getActiveMailRuleRun (accountId : String)
  | getMailRuleRun (accountId runId : String)
  | updateMailRuleRun (accountId runId : String) (state : Json) (progress : RunProgress)
  | cancelMailRuleRun (accountId runId : String)

inductive Op
  | createAccount (email : String) (role : Role) (passwordChangeRequired : Bool)
  | getAccount (email : String)
  | resolveAccountId (accountId : String)
  | listAccounts
  | syncAccounts (emails : List String) (role : Role) (passwordChangeRequired : Bool)
  | setRole (accountId : String) (role : Role) (revokeSessions : Bool)
  | setPasswordChangeRequired (accountId : String) (required revokeSessions : Bool)
  | resetTotp (accountId : String)
  | rotateTotp (accountId : String)
  | regenerateRecoveryCodes (accountId code : String)
  | recoveryCodeCount (accountId : String)
  | verifyTotp (accountId code : String)
  | deleteAccount (accountId : String)
  | provisionActiveAccount (email : String) (role : Role) (passwordChangeRequired : Bool)
  | bootstrapActiveAccounts (records : List AccountBootstrap)
  | createPendingChallenge (email : String)
  | beginTotpEnrollment (challengeToken : String)
  | confirmTotpEnrollment (challengeToken code : String) (clientIp userAgent : Option String)
  | completeTotpChallenge (challengeToken code : String) (clientIp userAgent : Option String)
  | completeRecoveryChallenge (challengeToken code : String) (clientIp userAgent : Option String)
  | authenticateSession (token : String) (touch : Bool)
  | markStepUp (sessionToken : String)
  | requireStepUp (sessionToken : String)
  | revokeSession (token : String)
  | listSessions (accountId : String) (currentToken : Option String)
  | revokeSessionById (accountId sessionId : String)
  | revokeSessions (accountId : String)
  | beginPasskeyRegistration (sessionToken : String)
  | completePasskeyRegistration (sessionToken challengeToken credential name : String)
  | listPasskeys (accountId : String)
  | deletePasskey (accountId publicId : String)
  | beginPasskeyLogin
  | verifyPasskeyLogin (challengeToken credential : String)
  | issueVerifiedPasskeySession (identity : VerifiedPasskeyIdentity)
      (clientIp userAgent : Option String)
  | completePasskeyLogin (challengeToken credential : String) (clientIp userAgent : Option String)
  | beginPasskeyStepUp (sessionToken : String)
  | completePasskeyStepUp (sessionToken challengeToken credential : String)
  | checkLoginRate (email clientIp : String)
  | recordLoginResult (email clientIp : String) (success : Bool)
  | checkPasskeyLoginRate (clientIp : String)
  | recordPasskeyLoginResult (clientIp : String) (success : Bool)
  | mailRules (op : RuleOp)

/-- What an operation returns. -/
inductive Reply
  | done
  | flag (value : Bool)
  | count (value : Nat)
  | account (account : Account)
  | lookup (account : Option Account)
  | accounts (accounts : List Account)
  | factor (secret : Bytes) (codes : List String)
  | provisioned (account : Account) (secret : Bytes) (codes : List String)
  | codes (codes : List String)
  | secret (secret : Bytes)
  | pendingChallenge (token : String)
  | enrolled (result : EnrollmentResult)
  | session (session : IssuedSession)
  | principal (principal : SessionPrincipal)
  | sessions (sessions : List SessionInfo)
  | passkeyChallenge (token : String)
  | passkey (row : PasskeyCredentialRow)
  | passkeys (rows : List PasskeyCredentialRow)
  | identity (identity : VerifiedPasskeyIdentity)
  | rule (rule : MailRuleRecord)
  | rules (rules : List MailRuleRecord)
  | ruleWithRun (rule : MailRuleRecord) (run : MailRuleRun)
  | run (run : MailRuleRun)
  | activeRun (run : Option MailRuleRun)

structure Call where
  op : Op
  random : Random
  clock : Option Nat
  later : Option Nat

def replyWith {α : Type} (reply : α → Reply) (m : Store α) : Store Reply := do
  let value ← m
  return reply value

theorem replyWith_state {α : Type} (reply : α → Reply) (m : Store α) (db : Db) :
    (replyWith reply m db).2 = (m db).2 := by
  unfold replyWith
  rcases h : m db with ⟨e | value, db'⟩
  · rw [Exec.bind_of_error h]
  · rw [Exec.bind_of_ok h]
    rfl

def ruleStep (env : Env) (random : Random) (clock : Option Nat) : RuleOp → Store Reply
  | .listMailRules id => replyWith .rules (listMailRules env id)
  | .getMailRule id ruleId => replyWith .rule (getMailRule env id ruleId)
  | .createMailRule id name enabled expression target stop =>
      replyWith .rule (createMailRule env random clock id name enabled expression target stop)
  | .createMailRuleWithRun id name enabled expression target stop state completed =>
      replyWith (fun pair => .ruleWithRun pair.1 pair.2)
        (createMailRuleWithRun env random clock id name enabled expression target stop state
          completed)
  | .updateMailRule id ruleId revision name enabled expression target stop =>
      replyWith .rule
        (updateMailRule env clock id ruleId revision name enabled expression target stop)
  | .deleteMailRule id ruleId => replyWith (fun _ => .done) (deleteMailRule id ruleId)
  | .reorderMailRules id ruleIds => replyWith (fun _ => .done) (reorderMailRules clock id ruleIds)
  | .mailboxRuleReferenceCount id mailbox =>
      replyWith .count (mailboxRuleReferenceCount id mailbox)
  | .createMailRuleRun id ruleId snapshot state =>
      replyWith .run (createMailRuleRun env random clock id ruleId snapshot state)
  | .getActiveMailRuleRun id => replyWith .activeRun (getActiveMailRuleRun env id)
  | .getMailRuleRun id runId => replyWith .run (getMailRuleRun env id runId)
  | .updateMailRuleRun id runId state progress =>
      replyWith .run (updateMailRuleRun env clock id runId state progress)
  | .cancelMailRuleRun id runId => replyWith .run (cancelMailRuleRun env clock id runId)

/-- One call. -/
def perform (env : Env) (call : Call) : Store Reply :=
  let random := call.random
  let clock := call.clock
  let later := call.later
  match call.op with
  | .createAccount email role required =>
      replyWith .account (createAccount random clock email role required)
  | .getAccount email => replyWith .lookup (getAccount email)
  | .resolveAccountId id => replyWith .account (resolveAccountId id)
  | .listAccounts => replyWith .accounts listAccounts
  | .syncAccounts emails role required =>
      replyWith .accounts (syncAccounts random clock emails role required)
  | .setRole id role revoke => replyWith .account (setRole clock later id role revoke)
  | .setPasswordChangeRequired id required revoke =>
      replyWith .account (setPasswordChangeRequired clock later id required revoke)
  | .resetTotp id => replyWith .account (resetTotp clock id)
  | .rotateTotp id => replyWith (fun pair => .factor pair.1 pair.2) (rotateTotp env random clock id)
  | .regenerateRecoveryCodes id code =>
      replyWith .codes (regenerateRecoveryCodes env random clock id code)
  | .recoveryCodeCount id => replyWith .count (recoveryCodeCount id)
  | .verifyTotp id code => replyWith (fun _ => .done) (verifyTotp env clock id code)
  | .deleteAccount id => replyWith (fun _ => .done) (deleteAccount env id)
  | .provisionActiveAccount email role required =>
      replyWith (fun result => .provisioned result.1 result.2.1 result.2.2)
        (provisionActiveAccount env random clock email role required)
  | .bootstrapActiveAccounts records =>
      replyWith .accounts (bootstrapActiveAccounts env random clock records)
  | .createPendingChallenge email =>
      replyWith .pendingChallenge (createPendingChallenge env random clock email)
  | .beginTotpEnrollment token => replyWith .secret (beginTotpEnrollment env random clock token)
  | .confirmTotpEnrollment token code ip agent =>
      replyWith .enrolled (confirmTotpEnrollment env random clock later token code ip agent)
  | .completeTotpChallenge token code ip agent =>
      replyWith .session (completeTotpChallenge env random clock later token code ip agent)
  | .completeRecoveryChallenge token code ip agent =>
      replyWith .session (completeRecoveryChallenge env random clock later token code ip agent)
  | .authenticateSession token touch =>
      replyWith .principal (authenticateSession env clock token touch)
  | .markStepUp token => replyWith .principal (markStepUp env clock token)
  | .requireStepUp token => replyWith .principal (requireStepUp env clock token)
  | .revokeSession token => replyWith .flag (revokeSession env token)
  | .listSessions id current => replyWith .sessions (listSessions env clock id current)
  | .revokeSessionById id sessionId => replyWith .flag (revokeSessionById id sessionId)
  | .revokeSessions id => replyWith .count (revokeSessions later id)
  | .beginPasskeyRegistration token =>
      replyWith .passkeyChallenge (beginPasskeyRegistration env random clock token)
  | .completePasskeyRegistration token challenge credential name =>
      replyWith .passkey
        (completePasskeyRegistration env random clock token challenge credential name)
  | .listPasskeys id => replyWith .passkeys (listPasskeys id)
  | .deletePasskey id publicId => replyWith .flag (deletePasskey id publicId)
  | .beginPasskeyLogin => replyWith .passkeyChallenge (beginPasskeyLogin env random clock)
  | .verifyPasskeyLogin challenge credential =>
      replyWith .identity (verifyPasskeyLogin env clock challenge credential)
  | .issueVerifiedPasskeySession identity ip agent =>
      replyWith .session (issueVerifiedPasskeySession env random clock identity ip agent)
  | .completePasskeyLogin challenge credential ip agent =>
      replyWith .session
        (completePasskeyLogin env random clock later challenge credential ip agent)
  | .beginPasskeyStepUp token =>
      replyWith .passkeyChallenge (beginPasskeyStepUp env random clock token)
  | .completePasskeyStepUp token challenge credential =>
      replyWith .principal (completePasskeyStepUp env clock token challenge credential)
  | .checkLoginRate email ip => replyWith (fun _ => .done) (checkLoginRate env clock email ip)
  | .recordLoginResult email ip success =>
      replyWith (fun _ => .done) (recordLoginResult env email ip success)
  | .checkPasskeyLoginRate ip => replyWith (fun _ => .done) (checkPasskeyLoginRate env clock ip)
  | .recordPasskeyLoginResult ip success =>
      replyWith (fun _ => .done) (recordPasskeyLoginResult env ip success)
  | .mailRules op => ruleStep env random clock op

/-- The database after a call, whether it returned or raised. -/
def Db.after (env : Env) (db : Db) (call : Call) : Db := (perform env call db).2

def Db.afterAll (env : Env) (db : Db) (calls : List Call) : Db := calls.foldl (Db.after env) db

/-- Every call of the run is as stated, in the state that it meets. -/
def Throughout (env : Env) (P : Db → Call → Prop) : Db → List Call → Prop
  | _, [] => True
  | db, call :: calls => P db call ∧ Throughout env P (db.after env call) calls

/-- The databases that some run of the store reaches. -/
def Reachable (env : Env) (db : Db) : Prop := ∃ calls, Db.afterAll env {} calls = db

/-- What holds of the empty database and survives every call holds of every reachable one. -/
theorem Reachable.induct {env : Env} {I : Db → Prop} (hinit : I {})
    (hstep : ∀ db call, I db → I (db.after env call)) {db : Db} (h : Reachable env db) : I db := by
  obtain ⟨calls, rfl⟩ := h
  suffices hall : ∀ start, I start → I (Db.afterAll env start calls) from hall {} hinit
  induction calls with
  | nil => exact fun start hstart => hstart
  | cons call rest ih => exact fun start hstart => ih _ (hstep start call hstart)

theorem afterAll_append (env : Env) (db : Db) (first second : List Call) :
    db.afterAll env (first ++ second) = (db.afterAll env first).afterAll env second :=
  List.foldl_append

theorem afterAll_concat (env : Env) (db : Db) (calls : List Call) (call : Call) :
    db.afterAll env (calls ++ [call]) = (db.afterAll env calls).after env call := by
  rw [afterAll_append]
  rfl

theorem reachable_afterAll (env : Env) (calls : List Call) :
    Reachable env (Db.afterAll env {} calls) :=
  ⟨calls, rfl⟩

theorem Reachable.after {env : Env} {db : Db} (h : Reachable env db) (call : Call) :
    Reachable env (db.after env call) := by
  obtain ⟨calls, rfl⟩ := h
  exact ⟨calls ++ [call], afterAll_concat env {} calls call⟩

/-! ## A small environment -/

instance neZeroSixteen : NeZero 16 := ⟨by decide⟩

def sampleHex (n : Fin 16) : Hex32 where
  text := String.ofList (List.replicate 32 (Nat.digitChar n))
  isHex := by
    rw [isHex32, String.toList_ofList]
    revert n
    decide +kernel

def sampleToken (n : Fin 16) : OpaqueToken where
  text := String.ofList (List.replicate 42 'A' ++ [paddedDigits.getD n 'A'])
  matchesPattern := by
    rw [isOpaqueToken, String.toList_ofList]
    revert n
    decide +kernel
  canonical := by
    rw [String.toList_ofList, List.getLast?_concat]
    intro c hc
    rw [← Option.mem_some.mp hc]
    clear hc
    revert n
    decide

/-- A random source that always draws its number. -/
def sampleRandom (n : Fin 16) : Random where
  accountId _ _ := sampleHex n
  sessionId _ := sampleHex n
  publicId _ := sampleHex n
  ruleId _ := sampleHex n
  runId _ := sampleHex n
  token _ := sampleToken n
  passkeyChallenge _ := sampleToken n
  secret := List.replicate 20 0
  secret_length := rfl
  nonce _ := []
  recoveryCodes :=
    ⟨[sampleHex 0, sampleHex 1, sampleHex 2, sampleHex 3, sampleHex 4, sampleHex 5, sampleHex 6,
      sampleHex 7, sampleHex 8, sampleHex 9], rfl, by decide +kernel⟩

/-- Digests that keep the token, and codes that show the counter. -/
def sampleEnv : Env where
  challengeDigest token := token
  sessionDigest token := token
  passkeyDigest token := token
  recoveryDigest accountId code := accountId ++ code
  rateDigest kind identity := kind ++ ":" ++ identity
  encrypt _ secret _ _ := secret
  decrypt _ ciphertext _ _ := some ciphertext
  hmacSha1 _ counter := [0, 0, 0, UInt8.ofNat counter] ++ List.replicate 16 0
  canonicalIp ip := some ip
  loads _ := none
  passkeysConfigured := true
  verifyRegistration _ _ := none
  parseAssertion _ := none
  verifyAssertion _ _ _ _ := none

end MaddyWeb.Auth
