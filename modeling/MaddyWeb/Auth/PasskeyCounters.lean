import MaddyWeb.Auth.Enrollment
import MaddyWeb.Auth.Provision

/-!
# Passkey counters

An accepted assertion moves the counter of its credential forward, or leaves it at zero; a rejected
one leaves every credential as it was.  Only registrations add credentials and only deletions take
them.
-/

namespace MaddyWeb.Auth

open MaddyWeb.Library

variable {env : Env} {db db' : Db} {call : Call}

/-! ## Calls that answer no passkey challenge -/

/-- At most some credentials are gone. -/
def KeepsCredentials (db db' : Db) : Prop :=
  ∃ keep, db'.passkeyCredentials = db.passkeyCredentials.filter keep

theorem keepsCredentials_of_eq (h : db'.passkeyCredentials = db.passkeyCredentials) :
    KeepsCredentials db db' :=
  ⟨fun _ => true, by rw [h, List.filter_true]⟩

theorem keepsCredentials_composes : Exec.Composes KeepsCredentials where
  refl _ := keepsCredentials_of_eq rfl
  trans := by
    rintro a b c ⟨keep, h⟩ ⟨keep', h'⟩
    exact ⟨_, by rw [h', h, List.filter_filter]⟩

theorem keepsCredentials_statements (h : call.op.writesCredentials = false) :
    OpStatements env call KeepsCredentials where
  composes := keepsCredentials_composes
  rules _ := RuleStatements.of_any keepsCredentials_composes fun _ _ _ => keepsCredentials_of_eq rfl
  credentials hop := absurd (h.symm.trans hop) Bool.false_ne_true
  rates _ := ⟨fun _ _ => keepsCredentials_of_eq rfl,
    fun _ _ _ _ _ _ _ => keepsCredentials_of_eq rfl, fun _ _ _ _ => keepsCredentials_of_eq rfl⟩
  sessions _ := ⟨fun _ _ => keepsCredentials_of_eq rfl, fun _ _ _ _ => keepsCredentials_of_eq rfl⟩
  dropSessions _ _ _ := keepsCredentials_of_eq rfl
  issue _ _ _ _ _ := keepsCredentials_of_eq rfl
  updatePasskey _ _ _ _ _ := keepsCredentials_of_eq rfl
  insertPasskey _ _ _ _ _ _ := keepsCredentials_of_eq rfl
  dropPasskeys _ _ := keepsCredentials_of_eq rfl
  updateAccounts _ _ _ _ _ := keepsCredentials_of_eq rfl
  insertAccount _ _ _ := keepsCredentials_of_eq rfl
  deleteAccount _ _ _ := ⟨_, rfl⟩
  dropCodes _ _ _ := keepsCredentials_of_eq rfl
  storeCode _ _ _ := keepsCredentials_of_eq rfl
  dropPending _ _ _ := keepsCredentials_of_eq rfl
  updatePending _ _ _ _ _ := keepsCredentials_of_eq rfl
  insertPending _ _ _ _ _ := keepsCredentials_of_eq rfl

theorem deletePasskey_keeps (accountId publicId : String) :
    Exec.Moves KeepsCredentials (deletePasskey accountId publicId) := by
  have hR := keepsCredentials_composes
  unfold deletePasskey validateAccountId requireAccountById
  apply hR.bind (hR.require _ _)
  intro normalized
  apply hR.bind (hR.ensure _ _)
  intro _
  apply hR.atomically
  apply hR.bind (hR.require _ _)
  intro _
  apply hR.bind (hR.inspect _)
  intro deleted
  apply hR.bind
  · exact Exec.Moves.update fun db => ⟨_, rfl⟩
  · exact fun _ => hR.ret _

theorem keepsCredentials_after (h : call.op.answersPasskey = false) :
    KeepsCredentials db (db.after env call) := by
  by_cases hwrites : call.op.writesCredentials = false
  · exact perform_allows (keepsCredentials_statements hwrites) db
  · obtain ⟨op, random, clock, later⟩ := call
    cases op with
    | deletePasskey accountId publicId =>
        exact replyWith_moves keepsCredentials_composes (deletePasskey_keeps accountId publicId) db
    | _ => exact absurd h hwrites

/-! ## Parts of the answers -/

def SameCredentials (db db' : Db) : Prop := db'.passkeyCredentials = db.passkeyCredentials

theorem sameCredentials_composes : Exec.Composes SameCredentials where
  refl _ := rfl
  trans h₁ h₂ := h₂.trans h₁

theorem validSessionRow_same (digest : Digest) (now : Nat) (touch : Bool) :
    Exec.Moves SameCredentials (validSessionRow digest now touch) :=
  validSessionRow_moves sameCredentials_composes ⟨fun _ _ => rfl, fun _ _ _ _ => rfl⟩ digest now
    touch

theorem recordFailure_same (challenge : PasskeyChallengeRow) :
    Exec.Moves SameCredentials (recordPasskeyChallengeFailure challenge) :=
  recordPasskeyChallengeFailure_moves (fun _ _ => rfl) (fun _ _ _ _ => rfl) challenge

/-- The session is in the table and has not expired. -/
def LiveSession (db : Db) (now : Nat) (digest : Digest) (accountId : String) : Prop :=
  ∃ row ∈ db.sessions, row.sessionDigest = digest ∧ row.accountId = accountId ∧
    now < row.absoluteExpiresAt ∧ now < row.lastSeenAt + sessionIdleSeconds

theorem validSessionRow_spec {digest : Digest} {now : Nat} {touch : Bool} {session : SessionRow}
    {account : AccountRow} {lastSeen : Nat}
    (h : validSessionRow digest now touch db = (.ok (some (session, account, lastSeen)), db')) :
    LiveSession db now digest account.accountId ∧
      db'.passkeyCredentials = db.passkeyCredentials ∧
      db'.passkeyChallenges = db.passkeyChallenges := by
  unfold validSessionRow at h
  rw [Exec.inspect_bind] at h
  cases hfound : db.sessionRow digest with
  | none =>
      rw [hfound] at h
      cases h
  | some found =>
      rw [hfound] at h
      unfold Db.sessionRow at hfound
      obtain ⟨row, hrow, hfound⟩ := Option.bind_eq_some_iff.mp hfound
      obtain ⟨owner, howner, hfound⟩ := Option.bind_eq_some_iff.mp hfound
      cases hfound
      have hmem := List.mem_of_find?_eq_some hrow
      have hdigest : row.sessionDigest = digest := by simpa using List.find?_some hrow
      have hid : owner.accountId = row.accountId := by simpa using List.find?_some howner
      dsimp only at h
      split at h
      · rw [Exec.update_bind] at h
        cases h
      · next hlive =>
          simp only [Bool.or_eq_true, decide_eq_true_eq, not_or, Nat.not_le] at hlive
          split at h
          · rw [Exec.update_bind] at h
            cases h
            exact ⟨⟨_, hmem, hdigest, hid.symm, hlive⟩, rfl, rfl⟩
          · cases h
            exact ⟨⟨_, hmem, hdigest, hid.symm, hlive⟩, rfl, rfl⟩

/-- A challenge of this kind is in the table and has not expired. -/
def LiveChallenge (db : Db) (now : Nat) (digest : Digest) (purpose : PasskeyPurpose)
    (accountId : Option String) (session : Option Digest) : Prop :=
  ∃ row ∈ db.passkeyChallenges, row.challengeDigest = digest ∧ now < row.expiresAt ∧
    row.purpose = purpose ∧ row.accountId = accountId ∧ row.sessionDigest = session

theorem passkeyChallengeRow_cases {α : Type} {digest : Digest} {now : Nat}
    {purpose : PasskeyPurpose} {accountId : Option String} {session : Option Digest}
    {f : PasskeyChallengeRow → Store α} {r : Except AuthError α}
    (h : (passkeyChallengeRow digest now purpose accountId session >>= f) db = (r, db')) :
    ((∃ e, r = .error e) ∧ db' = db) ∨ ∃ row, f row db = (r, db') ∧
      LiveChallenge db now digest purpose accountId session := by
  unfold passkeyChallengeRow at h
  rcases Exec.require_bind_cases h with ⟨hr, hdb⟩ | ⟨row, hrow, h⟩
  · exact Or.inl ⟨⟨_, hr⟩, hdb⟩
  · obtain ⟨hfound, hvalid⟩ := Option.filter_eq_some_iff.mp hrow
    have hdigest : row.challengeDigest = digest := by simpa using List.find?_some hfound
    simp only [Bool.and_eq_true, decide_eq_true_eq, beq_iff_eq, and_assoc] at hvalid
    exact Or.inr ⟨row, h, row, List.mem_of_find?_eq_some hfound, hdigest, hvalid⟩

/-! ## Assertions -/

/-- Credential identifiers are a primary key. -/
def CredentialKeys (db : Db) : Prop := (db.passkeyCredentials.map (·.credentialId)).Nodup

theorem CredentialKeys.unique (h : CredentialKeys db) {row other : PasskeyCredentialRow}
    (hrow : row ∈ db.passkeyCredentials) (hother : other ∈ db.passkeyCredentials)
    (hid : row.credentialId = other.credentialId) : row = other :=
  List.inj_on_of_nodup_map h hrow hother hid

/-- The credentials after this one has been used. -/
def Db.afterUse (db : Db) (row : PasskeyCredentialRow) (verified : VerifiedAuthentication)
    (now : Nat) : List PasskeyCredentialRow :=
  db.passkeyCredentials.map fun other =>
    if other.credentialId = row.credentialId then other.used verified now else other

/-- The assertion verifies for this credential of the account, and its user handle is not that of
another account. -/
structure Verifies (env : Env) (db : Db) (credential challenge accountId : String)
    (row : PasskeyCredentialRow) (verified : VerifiedAuthentication) : Prop where
  stored : row ∈ db.passkeyCredentials
  owner : row.accountId = accountId
  named : ∃ parsed, env.parseAssertion credential = some parsed ∧ row.credentialId = parsed.rawId ∧
    ∀ handle ∈ parsed.userHandle, handle = bytesFromHex accountId.toList
  signature : env.verifyAssertion credential challenge row.publicKey row.signCount = some verified
  user : verified.userVerified = true
  credentialId : verified.credentialId = row.credentialId
  forward : row.signCount < verified.newSignCount ∨
    row.signCount = 0 ∧ verified.newSignCount = 0

theorem verifies_of_verifiedCredential {credential challenge accountId : String}
    {row : PasskeyCredentialRow} {verified : VerifiedAuthentication}
    (h : db.verifiedCredential env credential challenge accountId = some (row, verified)) :
    Verifies env db credential challenge accountId row verified := by
  unfold Db.verifiedCredential at h
  obtain ⟨parsed, hparsed, h⟩ := Option.bind_eq_some_iff.mp h
  split at h
  · cases h
  · obtain ⟨found, hfound, h⟩ := Option.bind_eq_some_iff.mp h
    split at h
    · cases h
    · next hhandle =>
        obtain ⟨verified', hverified, h⟩ := Option.bind_eq_some_iff.mp h
        cases h
        obtain ⟨hsignature, hvalid⟩ := Option.filter_eq_some_iff.mp hverified
        have hkey := List.find?_some hfound
        simp only [Bool.and_eq_true, beq_iff_eq] at hkey
        unfold validAssertion at hvalid
        simp only [Bool.and_eq_true, beq_iff_eq, Bool.not_eq_true', Bool.and_eq_false_iff,
          Bool.or_eq_false_iff, decide_eq_false_iff_not, decide_eq_true_eq] at hvalid
        refine ⟨List.mem_of_find?_eq_some hfound, hkey.2, ⟨parsed, hparsed, hkey.1, ?_⟩, hsignature,
          hvalid.1.1.1.1, hvalid.1.1.1.2, by omega⟩
        intro handle hmem
        rw [hmem] at hhandle
        simpa using hhandle

/-- Only the named credential is updated, and it is. -/
theorem verifyPasskeyAssertion_cases (hkeys : CredentialKeys db)
    {credential challenge accountId : String} {now : Nat} {r : Except AuthError Bool}
    (h : verifyPasskeyAssertion env credential challenge accountId now db = (r, db')) :
    (r = .ok false ∧ db' = db) ∨ ∃ row verified, r = .ok true ∧
      Verifies env db credential challenge accountId row verified ∧
      db' = { db with passkeyCredentials := db.afterUse row verified now } := by
  unfold verifyPasskeyAssertion at h
  rw [Exec.inspect_bind] at h
  cases hverified : db.verifiedCredential env credential challenge accountId with
  | none =>
      rw [hverified] at h
      cases h
      exact Or.inl ⟨rfl, rfl⟩
  | some found =>
      obtain ⟨row, verified⟩ := found
      rw [hverified] at h
      have hverifies := verifies_of_verifiedCredential hverified
      have huses : ∀ other ∈ db.passkeyCredentials,
          usesCredential accountId row other = true ↔ other = row := by
        intro other hother
        unfold usesCredential
        simp only [Bool.and_eq_true, beq_iff_eq]
        constructor
        · rintro ⟨⟨hid, -⟩, -⟩
          exact hkeys.unique hother hverifies.stored hid
        · rintro rfl
          exact ⟨⟨rfl, hverifies.owner⟩, rfl⟩
      have hchanged : (db.passkeyCredentials.filter (usesCredential accountId row)).length = 1 := by
        rw [← List.countP_eq_length_filter]
        calc db.passkeyCredentials.countP (usesCredential accountId row)
            = db.passkeyCredentials.count row := List.countP_congr fun other hother => by
              rw [beq_iff_eq]
              exact huses other hother
          _ = 1 := List.count_eq_one_of_mem hkeys.of_map hverifies.stored
      have hrows : (db.passkeyCredentials.map fun other =>
          if usesCredential accountId row other then other.used verified now else other) =
            db.afterUse row verified now := by
        apply List.map_congr_left
        intro other hother
        by_cases hid : other.credentialId = row.credentialId
        · rw [if_pos hid, if_pos ((huses other hother).mpr
            (hkeys.unique hother hverifies.stored hid))]
        · rw [if_neg hid, if_neg]
          exact fun huse => hid (congrArg _ ((huses other hother).mp huse))
      change (.ok _, { db with passkeyCredentials := _ }) = (r, db') at h
      dsimp only at h
      rw [hchanged, hrows] at h
      cases h
      exact Or.inr ⟨row, verified, rfl, hverifies, rfl⟩

/-- An assertion as it is presented; one for a step-up belongs to a session. -/
structure PasskeyAnswer where
  challengeToken : String
  credential : String
  session : Option Digest

def PasskeyAnswer.purpose (answer : PasskeyAnswer) : PasskeyPurpose :=
  if answer.session.isSome then .stepUp else .login

/-- What an accepted assertion has been checked against, and what it does. -/
structure Accepted (env : Env) (db db' : Db) (now : Nat) (answer : PasskeyAnswer)
    (accountId : String) : Prop where
  assertion : ∃ challenge row verified, decodeOpaqueToken answer.challengeToken = some challenge ∧
    LiveChallenge db now (env.passkeyDigest challenge) answer.purpose
      (answer.session.map fun _ => accountId) answer.session ∧
    Verifies env db answer.credential challenge accountId row verified ∧
    db'.passkeyCredentials = db.afterUse row verified now
  session : ∀ digest ∈ answer.session, LiveSession db now digest accountId
  handle : answer.purpose = .login → ∃ parsed, env.parseAssertion answer.credential = some parsed ∧
    parsed.userHandle = some (bytesFromHex accountId.toList)

theorem handle_of_assertedAccount {credential accountId : String}
    (h : db.assertedAccount env credential = some accountId) :
    ∃ parsed, env.parseAssertion credential = some parsed ∧
      parsed.userHandle = some (bytesFromHex accountId.toList) := by
  unfold Db.assertedAccount at h
  obtain ⟨parsed, hparsed, h⟩ := Option.bind_eq_some_iff.mp h
  split at h
  · cases h
  · obtain ⟨row, -, h⟩ := Option.bind_eq_some_iff.mp h
    split at h
    · next hhandle =>
        cases h
        exact ⟨parsed, hparsed, beq_iff_eq.mp hhandle⟩
    · cases h

theorem afterFailure {α : Type} {challenge : PasskeyChallengeRow} {e : AuthError}
    {r : Except AuthError (Except AuthError α)}
    (h : (recordPasskeyChallengeFailure challenge >>= fun _ =>
      (Pure.pure (.error e) : Store (Except AuthError α))) db = (r, db')) :
    (r = .ok (.error e) ∨ ∃ e', r = .error e') ∧ SameCredentials db db' := by
  rcases Exec.bind_cases h with ⟨e', hrun, hr⟩ | ⟨_, db₁, hrun, h⟩
  · have hsame := recordFailure_same challenge db
    rw [hrun] at hsame
    exact ⟨Or.inr ⟨e', hr⟩, hsame⟩
  · have hsame := recordFailure_same challenge db
    rw [hrun] at hsame
    cases h
    exact ⟨Or.inl rfl, hsame⟩

theorem verifyPasskeyLogin_cases (hkeys : CredentialKeys db) {clock : Option Nat}
    {challengeToken credential : String} {r : Except AuthError VerifiedPasskeyIdentity}
    (h : verifyPasskeyLogin env clock challengeToken credential db = (r, db')) :
    ((∃ e, r = .error e) ∧ SameCredentials db db') ∨ ∃ identity now, r = .ok identity ∧
      clock = some now ∧
      Accepted env db db' now ⟨challengeToken, credential, none⟩ identity.accountId := by
  unfold verifyPasskeyLogin requirePasskeyConfiguration requirePasskeyChallenge readClock at h
  rcases Exec.ensure_bind_cases h with ⟨hr, rfl⟩ | ⟨-, h⟩
  · exact Or.inl ⟨⟨_, hr⟩, rfl⟩
  rcases Exec.require_bind_cases h with ⟨hr, rfl⟩ | ⟨challenge, hchallenge, h⟩
  · exact Or.inl ⟨⟨_, hr⟩, rfl⟩
  rcases Exec.require_bind_cases h with ⟨hr, rfl⟩ | ⟨now, hnow, h⟩
  · exact Or.inl ⟨⟨_, hr⟩, rfl⟩
  rcases Exec.atomically_ofExcept h with ⟨e, hr, rfl⟩ | h
  · exact Or.inl ⟨⟨e, hr⟩, rfl⟩
  rcases passkeyChallengeRow_cases h with ⟨⟨e, hr⟩, -⟩ | ⟨stored, h, hlive⟩
  · cases hr
  rw [Exec.inspect_bind] at h
  cases haccount : db.assertedAccount env credential with
  | none =>
      rw [haccount] at h
      obtain ⟨hr, hsame⟩ := afterFailure h
      rcases hr with hr | ⟨e, hr⟩
      · cases hr
        exact Or.inl ⟨⟨_, rfl⟩, hsame⟩
      · cases hr
  | some accountId =>
      rw [haccount] at h
      rcases Exec.bind_cases h with ⟨e, -, hr⟩ | ⟨accepted, db₁, hassertion, h⟩
      · cases hr
      rcases verifyPasskeyAssertion_cases hkeys hassertion with
        ⟨hfalse, rfl⟩ | ⟨row, verified, htrue, hverifies, rfl⟩
      · cases hfalse
        obtain ⟨hr, hsame⟩ := afterFailure h
        rcases hr with hr | ⟨e, hr⟩
        · cases hr
          exact Or.inl ⟨⟨_, rfl⟩, hsame⟩
        · cases hr
      · cases htrue
        rw [if_pos rfl, Exec.update_bind] at h
        rcases Exec.require_bind_cases h with ⟨hr, -⟩ | ⟨account, -, h⟩
        · cases hr
        · cases h
          exact Or.inr ⟨_, now, rfl, hnow, ⟨challenge, row, verified, hchallenge, hlive, hverifies,
            rfl⟩, nofun, fun _ => handle_of_assertedAccount haccount⟩

theorem completePasskeyStepUp_cases (hkeys : CredentialKeys db) {clock : Option Nat}
    {sessionToken challengeToken credential : String} {r : Except AuthError SessionPrincipal}
    (h : completePasskeyStepUp env clock sessionToken challengeToken credential db = (r, db')) :
    ((∃ e, r = .error e) ∧ SameCredentials db db') ∨ ∃ principal now, r = .ok principal ∧
      clock = some now ∧
      Accepted env db db' now
        ⟨challengeToken, credential, some (opaqueDigest env.sessionDigest sessionToken)⟩
        principal.accountId := by
  unfold completePasskeyStepUp requirePasskeyConfiguration requirePasskeyChallenge readClock at h
  rcases Exec.ensure_bind_cases h with ⟨hr, rfl⟩ | ⟨-, h⟩
  · exact Or.inl ⟨⟨_, hr⟩, rfl⟩
  rcases Exec.require_bind_cases h with ⟨hr, rfl⟩ | ⟨challenge, hchallenge, h⟩
  · exact Or.inl ⟨⟨_, hr⟩, rfl⟩
  rcases Exec.require_bind_cases h with ⟨hr, rfl⟩ | ⟨now, hnow, h⟩
  · exact Or.inl ⟨⟨_, hr⟩, rfl⟩
  rcases Exec.atomically_ofExcept h with ⟨e, hr, rfl⟩ | h
  · exact Or.inl ⟨⟨e, hr⟩, rfl⟩
  rcases Exec.bind_cases h with ⟨e, -, hr⟩ | ⟨found, db₁, hsession, h⟩
  · cases hr
  cases found with
  | none =>
      have hsame := validSessionRow_same (opaqueDigest env.sessionDigest sessionToken) now true db
      rw [hsession] at hsame
      cases h
      exact Or.inl ⟨⟨_, rfl⟩, hsame⟩
  | some found =>
      obtain ⟨session, account, lastSeen⟩ := found
      obtain ⟨hlive, hcredentials, hchallenges⟩ := validSessionRow_spec hsession
      have hkeys₁ : CredentialKeys db₁ := by
        unfold CredentialKeys
        rw [hcredentials]
        exact hkeys
      dsimp only at h
      rcases passkeyChallengeRow_cases h with ⟨⟨e, hr⟩, -⟩ | ⟨stored, h, hchallengeLive⟩
      · cases hr
      rcases Exec.bind_cases h with ⟨e, -, hr⟩ | ⟨accepted, db₂, hassertion, h⟩
      · cases hr
      rcases verifyPasskeyAssertion_cases hkeys₁ hassertion with
        ⟨hfalse, rfl⟩ | ⟨row, verified, htrue, hverifies, rfl⟩
      · cases hfalse
        obtain ⟨hr, hsame⟩ := afterFailure h
        rcases hr with hr | ⟨e, hr⟩
        · cases hr
          exact Or.inl ⟨⟨_, rfl⟩, hsame.trans hcredentials⟩
        · cases hr
      · cases htrue
        rw [if_pos rfl, Exec.update_bind, Exec.update_bind] at h
        cases h
        refine Or.inr ⟨_, now, rfl, hnow, ⟨challenge, row, verified, hchallenge, ?_, ?_, ?_⟩, ?_,
          nofun⟩
        · unfold LiveChallenge at hchallengeLive ⊢
          rw [← hchallenges]
          exact hchallengeLive
        · exact { hverifies with stored := hcredentials ▸ hverifies.stored }
        · change db₁.afterUse row verified now = db.afterUse row verified now
          unfold Db.afterUse
          rw [hcredentials]
        · intro digest hdigest
          cases hdigest
          exact hlive

/-! ## Registrations -/

/-- A new credential has a new identifier, and its account had room for it. -/
structure Registered (db db' : Db) (row : PasskeyCredentialRow) : Prop where
  added : db'.passkeyCredentials = db.passkeyCredentials ++ [row]
  fresh : row.credentialId ∉ db.passkeyCredentials.map (·.credentialId)
  room : (db.passkeyCredentials.filter (·.accountId == row.accountId)).length <
    maxPasskeysPerAccount

theorem storeCredential_cases {random : Random} {challenge : PasskeyChallengeRow}
    {accountId name : String} {now : Nat} {verified : VerifiedRegistration}
    {r : Except AuthError (Except AuthError PasskeyCredentialRow)}
    (h : storeCredential random challenge accountId name now verified db = (r, db')) :
    SameCredentials db db' ∨ ∃ row, r = .ok (.ok row) ∧ row.accountId = accountId ∧
      db'.passkeyCredentials = db.passkeyCredentials ++ [row] ∧
      row.credentialId ∉ db.passkeyCredentials.map (·.credentialId) := by
  unfold storeCredential at h
  rcases Exec.require_bind_cases h with ⟨-, rfl⟩ | ⟨publicId, -, h⟩
  · exact Or.inl rfl
  dsimp only at h
  rw [Exec.inspect_bind] at h
  split at h
  · exact Or.inl (afterFailure h).2
  · next hfree =>
      rw [Exec.update_bind, Exec.update_bind] at h
      cases h
      refine Or.inr ⟨_, rfl, rfl, rfl, ?_⟩
      intro htaken
      obtain ⟨other, hother, hid⟩ := List.mem_map.mp htaken
      exact hfree (List.any_eq_true.mpr ⟨other, hother, beq_iff_eq.mpr hid⟩)

theorem completePasskeyRegistration_cases {random : Random} {clock : Option Nat}
    {sessionToken challengeToken credential name : String}
    {r : Except AuthError PasskeyCredentialRow}
    (h : completePasskeyRegistration env random clock sessionToken challengeToken credential name
      db = (r, db')) : SameCredentials db db' ∨ ∃ row, r = .ok row ∧ Registered db db' row := by
  unfold completePasskeyRegistration requirePasskeyConfiguration requirePasskeyChallenge readClock
    at h
  rcases Exec.ensure_bind_cases h with ⟨-, rfl⟩ | ⟨-, h⟩
  · exact Or.inl rfl
  rcases Exec.require_bind_cases h with ⟨-, rfl⟩ | ⟨normalized, -, h⟩
  · exact Or.inl rfl
  rcases Exec.require_bind_cases h with ⟨-, rfl⟩ | ⟨challenge, -, h⟩
  · exact Or.inl rfl
  rcases Exec.require_bind_cases h with ⟨-, rfl⟩ | ⟨now, -, h⟩
  · exact Or.inl rfl
  rcases Exec.atomically_ofExcept h with ⟨e, -, rfl⟩ | h
  · exact Or.inl rfl
  rcases Exec.bind_cases h with ⟨e, -, hr⟩ | ⟨found, db₁, hsession, h⟩
  · cases hr
  have hsame := validSessionRow_same (opaqueDigest env.sessionDigest sessionToken) now true db
  rw [hsession] at hsame
  have hsame : db₁.passkeyCredentials = db.passkeyCredentials := hsame
  cases found with
  | none =>
      cases h
      exact Or.inl hsame
  | some found =>
      obtain ⟨session, account, lastSeen⟩ := found
      dsimp only at h
      split at h
      · cases h
        exact Or.inl hsame
      · rcases passkeyChallengeRow_cases h with ⟨-, rfl⟩ | ⟨stored, h, -⟩
        · exact Or.inl hsame
        rw [Exec.inspect_bind] at h
        rcases Exec.ensure_bind_cases h with ⟨-, rfl⟩ | ⟨hroom, h⟩
        · exact Or.inl hsame
        rw [decide_eq_true_eq, hsame] at hroom
        cases hverified : (env.verifyRegistration credential challenge).filter
            validRegistrationResult with
        | none =>
            rw [hverified] at h
            exact Or.inl ((afterFailure h).2.trans hsame)
        | some verified =>
            rw [hverified] at h
            rcases storeCredential_cases h with hsame' | ⟨row, hr, haccount, hadded, hfresh⟩
            · exact Or.inl (hsame'.trans hsame)
            · cases hr
              rw [hsame] at hadded hfresh
              exact Or.inr ⟨row, rfl, hadded, hfresh, haccount ▸ hroom⟩

/-! ## Calls -/

/-- The assertion that a call presents, and the part of the call that decides on it, with the
account that it is accepted for. -/
def Call.answer (env : Env) (call : Call) : Option (PasskeyAnswer × Store String) :=
  match call.op with
  | .verifyPasskeyLogin token credential | .completePasskeyLogin token credential _ _ =>
      some (⟨token, credential, none⟩,
        do return (← verifyPasskeyLogin env call.clock token credential).accountId)
  | .completePasskeyStepUp session token credential =>
      some (⟨token, credential, some (opaqueDigest env.sessionDigest session)⟩,
        do return (← completePasskeyStepUp env call.clock session token credential).accountId)
  | _ => none

variable {answer : PasskeyAnswer} {part : Store String}

theorem bind_return {α β : Type} (m : Store α) (f : α → β) :
    (m >>= fun value => (Pure.pure (f value) : Store β)) db = ((m db).1.map f, (m db).2) := by
  change Exec.bind m _ db = _
  unfold Exec.bind
  rcases m db with ⟨e | value, db₁⟩ <;> rfl

/-- The decision on an assertion. -/
theorem answer_cases (hkeys : CredentialKeys db) (hanswer : call.answer env = some (answer, part)) :
    ((∃ e, (part db).1 = .error e) ∧ SameCredentials db (part db).2) ∨
      ∃ accountId now, (part db).1 = .ok accountId ∧ call.clock = some now ∧
        Accepted env db (part db).2 now answer accountId := by
  have hlogin : ∀ token credential, (⟨token, credential, none⟩ : PasskeyAnswer) = answer →
      (do return (← verifyPasskeyLogin env call.clock token credential).accountId) = part →
      ((∃ e, (part db).1 = .error e) ∧ SameCredentials db (part db).2) ∨
        ∃ accountId now, (part db).1 = .ok accountId ∧ call.clock = some now ∧
          Accepted env db (part db).2 now answer accountId := by
    rintro token credential rfl rfl
    rw [bind_return]
    rcases verifyPasskeyLogin_cases hkeys (Prod.eta _).symm with
      ⟨⟨e, hr⟩, hsame⟩ | ⟨identity, now, hr, hnow, haccepted⟩
    · exact Or.inl ⟨⟨e, by rw [hr]; rfl⟩, hsame⟩
    · exact Or.inr ⟨_, now, by rw [hr]; rfl, hnow, haccepted⟩
  obtain ⟨op, random, clock, later⟩ := call
  cases op with
  | verifyPasskeyLogin token credential =>
      obtain ⟨hanswer, hpart⟩ := Prod.mk.inj (Option.some.inj hanswer)
      exact hlogin token credential hanswer hpart
  | completePasskeyLogin token credential ip agent =>
      obtain ⟨hanswer, hpart⟩ := Prod.mk.inj (Option.some.inj hanswer)
      exact hlogin token credential hanswer hpart
  | completePasskeyStepUp session token credential =>
      cases hanswer
      rw [bind_return]
      rcases completePasskeyStepUp_cases hkeys (Prod.eta _).symm with
        ⟨⟨e, hr⟩, hsame⟩ | ⟨principal, now, hr, hnow, haccepted⟩
      · exact Or.inl ⟨⟨e, by rw [hr]; rfl⟩, hsame⟩
      · exact Or.inr ⟨_, now, by rw [hr]; rfl, hnow, haccepted⟩
  | _ => cases hanswer

theorem issueVerifiedPasskeySession_same (random : Random) (clock : Option Nat)
    (identity : VerifiedPasskeyIdentity) (ip agent : Option String) :
    Exec.Moves SameCredentials
      (issueVerifiedPasskeySession env random clock identity ip agent) := by
  have hR := sameCredentials_composes
  unfold issueVerifiedPasskeySession validateAccountId requireEmail readClock
  apply hR.bind (hR.require _ _)
  intro accountId
  apply hR.bind (hR.require _ _)
  intro email
  apply hR.bind (hR.require _ _)
  intro now
  apply hR.atomically
  apply hR.bind (hR.require _ _)
  intro account
  exact issueSession_moves hR (fun _ _ => rfl) (fun _ _ _ _ => rfl) account now ip agent

/-- The rest of the call touches no credential, and a call that succeeds has had its assertion
accepted. -/
theorem answer_after (hanswer : call.answer env = some (answer, part)) :
    (db.after env call).passkeyCredentials = (part db).2.passkeyCredentials ∧
      ∀ reply, (perform env call db).1 = .ok reply → ∃ accountId, (part db).1 = .ok accountId := by
  have hmap : ∀ {α : Type} (m : Store α) (f : α → String) (g : α → Reply),
      ((replyWith g m db).2.passkeyCredentials =
        ((m >>= fun value => (Pure.pure (f value) : Store String)) db).2.passkeyCredentials) ∧
      ∀ reply, (replyWith g m db).1 = .ok reply → ∃ accountId,
        ((m >>= fun value => (Pure.pure (f value) : Store String)) db).1 = .ok accountId := by
    intro α m f g
    unfold replyWith
    rw [bind_return, bind_return]
    refine ⟨rfl, fun reply hreply => ?_⟩
    cases hr : (m db).1 with
    | error e =>
        rw [hr] at hreply
        cases hreply
    | ok value => exact ⟨f value, rfl⟩
  obtain ⟨op, random, clock, later⟩ := call
  cases op with
  | verifyPasskeyLogin token credential =>
      cases hanswer
      exact hmap _ _ _
  | completePasskeyStepUp session token credential =>
      cases hanswer
      exact hmap _ _ _
  | completePasskeyLogin token credential ip agent =>
      cases hanswer
      rw [bind_return]
      unfold Db.after
      change (replyWith .session (completePasskeyLogin env random clock later token credential ip
        agent) db).2.passkeyCredentials = _ ∧ ∀ reply, (replyWith .session (completePasskeyLogin env
          random clock later token credential ip agent) db).1 = .ok reply → _
      unfold replyWith completePasskeyLogin
      rw [bind_return]
      cases hrun : verifyPasskeyLogin env clock token credential db with
      | mk r db₁ =>
          cases r with
          | error e =>
              rw [Exec.bind_of_error hrun]
              exact ⟨rfl, fun reply hreply => nomatch hreply⟩
          | ok identity =>
              rw [Exec.bind_of_ok hrun]
              exact ⟨issueVerifiedPasskeySession_same random later identity ip agent db₁,
                fun reply _ => ⟨_, rfl⟩⟩
  | _ => cases hanswer

/-! ## Runs -/

/-- What one call does to the credentials. -/
theorem credentials_step (hkeys : CredentialKeys db) :
    (∃ answer part now accountId, call.answer env = some (answer, part) ∧
        Accepted env db (db.after env call) now answer accountId) ∨
      KeepsCredentials db (db.after env call) ∨
      ∃ row, Registered db (db.after env call) row := by
  cases hanswer : call.answer env with
  | some found =>
      obtain ⟨answer, part⟩ := found
      have hafter := (@answer_after env db call answer part hanswer).1
      rcases answer_cases hkeys hanswer with ⟨-, hsame⟩ | ⟨accountId, now, -, -, haccepted⟩
      · exact Or.inr (Or.inl (keepsCredentials_of_eq (hafter.trans hsame)))
      · obtain ⟨challenge, row, verified, hchallenge, hlive, hverifies, hused⟩ :=
          haccepted.assertion
        exact Or.inl ⟨answer, part, now, accountId, rfl,
          ⟨challenge, row, verified, hchallenge, hlive,
          hverifies, hafter.trans hused⟩, haccepted.session, haccepted.handle⟩
  | none =>
      by_cases hop : call.op.answersPasskey = false
      · exact Or.inr (Or.inl (keepsCredentials_after hop))
      · obtain ⟨op, random, clock, later⟩ := call
        cases op with
        | completePasskeyRegistration session token credential name =>
            unfold Db.after perform replyWith
            dsimp only
            rw [bind_return]
            rcases completePasskeyRegistration_cases (Prod.eta _).symm with
              hsame | ⟨row, -, hregistered⟩
            · exact Or.inr (Or.inl (keepsCredentials_of_eq hsame))
            · exact Or.inr (Or.inr ⟨row, hregistered⟩)
        | _ => first
          | exact absurd rfl hop
          | cases hanswer

theorem afterUse_used {row : PasskeyCredentialRow} {verified : VerifiedAuthentication} {now : Nat} :
    (db.afterUse row verified now).map (·.credentialId) =
        db.passkeyCredentials.map (·.credentialId) ∧
      ∀ accountId, ((db.afterUse row verified now).filter (·.accountId == accountId)).length =
        (db.passkeyCredentials.filter (·.accountId == accountId)).length := by
  have hfields : ∀ other : PasskeyCredentialRow,
      (if other.credentialId = row.credentialId then other.used verified now
        else other).credentialId = other.credentialId ∧
      (if other.credentialId = row.credentialId then other.used verified now
        else other).accountId = other.accountId := by
    intro other
    split <;> exact ⟨rfl, rfl⟩
  unfold Db.afterUse
  constructor
  · rw [List.map_map]
    exact List.map_congr_left fun other _ => (hfields other).1
  · intro accountId
    rw [← List.countP_eq_length_filter, ← List.countP_eq_length_filter, List.countP_map]
    apply List.countP_congr
    intro other _
    rw [Function.comp_apply, (hfields other).2]

/-- The two bounds on the table of credentials. -/
structure CredentialsInv (db : Db) : Prop where
  keys : CredentialKeys db
  bound : ∀ accountId,
    (db.passkeyCredentials.filter (·.accountId == accountId)).length ≤ maxPasskeysPerAccount

theorem CredentialsInv.after (h : CredentialsInv db) : CredentialsInv (db.after env call) := by
  rcases @credentials_step env db call h.keys with
    ⟨answer, part, now, accountId, -, haccepted⟩ | ⟨keep, hkept⟩ | ⟨row, hregistered⟩
  · obtain ⟨_, row, verified, -, -, -, hused⟩ := haccepted.assertion
    obtain ⟨hids, hcounts⟩ := @afterUse_used db row verified now
    constructor
    · unfold CredentialKeys
      rw [hused, hids]
      exact h.keys
    · intro accountId
      rw [hused, hcounts]
      exact h.bound accountId
  · constructor
    · unfold CredentialKeys
      rw [hkept]
      exact h.keys.sublist (List.filter_sublist.map _)
    · intro accountId
      rw [hkept]
      exact Nat.le_trans (List.filter_sublist.filter _).length_le (h.bound accountId)
  · constructor
    · have hnodup := h.keys.concat hregistered.fresh
      unfold CredentialKeys
      rw [hregistered.added, List.map_append]
      rw [List.concat_eq_append] at hnodup
      exact hnodup
    · intro accountId
      have hroom := hregistered.room
      have hbound := h.bound accountId
      rw [hregistered.added, List.filter_append, List.length_append, List.filter_singleton]
      by_cases haccount : row.accountId = accountId
      · subst haccount
        rw [beq_self_eq_true, cond_true, List.length_singleton]
        omega
      · rw [beq_eq_false_iff_ne.mpr haccount]
        exact hbound

theorem credentialsInv_of_reachable (h : Reachable env db) : CredentialsInv db := by
  apply h.induct
  · exact ⟨List.nodup_nil, fun _ => Nat.zero_le _⟩
  · exact fun _ _ hinv => hinv.after

/-- Counters of credentials that are in both tables do not go back. -/
def Forward (db db' : Db) : Prop :=
  ∀ row ∈ db.passkeyCredentials, ∀ row' ∈ db'.passkeyCredentials,
    row'.credentialId = row.credentialId → row.signCount ≤ row'.signCount

theorem forward_after (h : CredentialsInv db) : Forward db (db.after env call) := by
  intro row hrow row' hrow' hid
  rcases @credentials_step env db call h.keys with
    ⟨answer, part, now, accountId, -, haccepted⟩ | ⟨keep, hkept⟩ | ⟨added, hregistered⟩
  · obtain ⟨_, used, verified, -, -, hverifies, hused⟩ := haccepted.assertion
    rw [hused] at hrow'
    obtain ⟨other, hother, rfl⟩ := List.mem_map.mp hrow'
    split at hid
    · next hsame =>
        have hforward := hverifies.forward
        rw [h.keys.unique hrow hother hid.symm, h.keys.unique hother hverifies.stored hsame,
          if_pos rfl]
        change used.signCount ≤ verified.newSignCount.toNat
        omega
    · next hne =>
        rw [if_neg hne, h.keys.unique hrow hother hid.symm]
  · rw [hkept] at hrow'
    rw [h.keys.unique hrow (List.mem_filter.mp hrow').1 hid.symm]
  · rw [hregistered.added] at hrow'
    rcases List.mem_append.mp hrow' with hrow' | hrow'
    · rw [h.keys.unique hrow hrow' hid.symm]
    · rw [List.mem_singleton.mp hrow'] at hid
      exact absurd (List.mem_map.mpr ⟨row, hrow, hid.symm⟩) hregistered.fresh

/-- The credential is in the table after every call of the run. -/
def StaysStored (env : Env) (credentialId : Bytes) : Db → List Call → Prop :=
  Throughout env fun db call =>
    credentialId ∈ (db.after env call).passkeyCredentials.map (·.credentialId)

theorem signCount_le {calls : List Call} (h : Reachable env db) {row row' : PasskeyCredentialRow}
    (hstays : StaysStored env row.credentialId db calls) (hrow : row ∈ db.passkeyCredentials)
    (hrow' : row' ∈ (db.afterAll env calls).passkeyCredentials)
    (hid : row'.credentialId = row.credentialId) : row.signCount ≤ row'.signCount := by
  induction calls generalizing db row with
  | nil =>
      have hkeys := (credentialsInv_of_reachable h).keys
      rw [hkeys.unique hrow hrow' hid.symm]
  | cons call calls ih =>
      obtain ⟨hstored, hrest⟩ := hstays
      obtain ⟨next, hnext, hnextId⟩ := List.mem_map.mp hstored
      have hforward := forward_after (credentialsInv_of_reachable h) row hrow next hnext hnextId
      rw [← hnextId] at hrest hid
      exact Nat.le_trans hforward (ih (h.after call) hrest hnext hrow' hid)

/-- The part of the call decides on the assertion: a rejected one changes no credential. -/
structure Decided (env : Env) (db : Db) (call : Call) (answer : PasskeyAnswer)
    (part : Store String) : Prop where
  credentials : (db.after env call).passkeyCredentials = (part db).2.passkeyCredentials
  success : ∀ reply, (perform env call db).1 = .ok reply → ∃ accountId, (part db).1 = .ok accountId
  rejected : ∀ e, (part db).1 = .error e → SameCredentials db (part db).2
  accepted : ∀ accountId, (part db).1 = .ok accountId → ∃ now, call.clock = some now ∧
    Accepted env db (part db).2 now answer accountId

theorem decided (hkeys : CredentialKeys db) (hanswer : call.answer env = some (answer, part)) :
    Decided env db call answer part := by
  obtain ⟨hcredentials, hsuccess⟩ := @answer_after env db call answer part hanswer
  refine ⟨hcredentials, hsuccess, ?_, ?_⟩
  · intro e herror
    rcases answer_cases hkeys hanswer with ⟨-, hsame⟩ | ⟨accountId, now, hok, -⟩
    · exact hsame
    · cases hok.symm.trans herror
  · intro accountId hok
    rcases answer_cases hkeys hanswer with ⟨⟨e, herror⟩, -⟩ | ⟨_, now, hok', hnow, haccepted⟩
    · cases herror.symm.trans hok
    · cases hok'.symm.trans hok
      exact ⟨now, hnow, haccepted⟩

/-- Passkey counters only move forward, in every run of the store. -/
theorem passkey_counters (hdb : Reachable env db) :
    (∀ accountId, (db.passkeyCredentials.filter (·.accountId == accountId)).length ≤ 10) ∧
    (∀ row ∈ db.passkeyCredentials, ∀ other ∈ db.passkeyCredentials,
      row.credentialId = other.credentialId → row = other) ∧
    (∀ (later : List Call) (row row' : PasskeyCredentialRow),
      StaysStored env row.credentialId db later → row ∈ db.passkeyCredentials →
      row' ∈ (db.afterAll env later).passkeyCredentials → row'.credentialId = row.credentialId →
      row.signCount ≤ row'.signCount) ∧
    (∀ (call : Call) (answer : PasskeyAnswer) (part : Store String),
      call.answer env = some (answer, part) → Decided env db call answer part) ∧
    ∀ call : Call, call.answer env = none →
      KeepsCredentials db (db.after env call) ∨ ∃ row, Registered db (db.after env call) row := by
  have hinv := credentialsInv_of_reachable hdb
  refine ⟨hinv.bound, fun row hrow other hother => hinv.keys.unique hrow hother, ?_, ?_, ?_⟩
  · exact fun later row row' hstays hrow hrow' hid => signCount_le hdb hstays hrow hrow' hid
  · exact fun call answer part hanswer => decided hinv.keys hanswer
  · intro call hnone
    rcases @credentials_step env db call hinv.keys with ⟨_, _, _, _, hsome, -⟩ | hstep
    · cases hnone.symm.trans hsome
    · exact hstep

/-- One authenticator, which counts by one. -/
def passkeyEnv : Env :=
  { sampleEnv with
    verifyRegistration := fun _ _ => some ⟨[7], [1], 0, true, [7], "single_device", false, []⟩
    parseAssertion := fun _ => some ⟨[7], some (bytesFromHex (sampleHex 1).text.toList)⟩
    verifyAssertion := fun _ _ _ count => some ⟨[7], count + 1, true, "single_device", false⟩ }

def passkeyCalls : List Call :=
  [⟨.provisionActiveAccount "ann@example.org" .user false, sampleRandom 1, some 100, none⟩,
    ⟨.issueVerifiedPasskeySession ⟨(sampleHex 1).text, "ann@example.org"⟩ none none, sampleRandom 2,
      some 100, none⟩,
    ⟨.markStepUp (sampleToken 2).text, sampleRandom 2, some 100, none⟩,
    ⟨.beginPasskeyRegistration (sampleToken 2).text, sampleRandom 3, some 101, none⟩,
    ⟨.completePasskeyRegistration (sampleToken 2).text (sampleToken 3).text "" "Key",
      sampleRandom 4, some 102, none⟩,
    ⟨.beginPasskeyLogin, sampleRandom 5, some 103, none⟩]

def loginCall : Call :=
  ⟨.verifyPasskeyLogin (sampleToken 5).text "", sampleRandom 6, some 104, none⟩

def loginPart : Store String := do
  return (← verifyPasskeyLogin passkeyEnv (some 104) (sampleToken 5).text "").accountId

theorem passkey_counters_login : ∃ now, loginCall.clock = some now ∧
    Accepted passkeyEnv (Db.afterAll passkeyEnv {} passkeyCalls)
      (loginPart (Db.afterAll passkeyEnv {} passkeyCalls)).2 now ⟨(sampleToken 5).text, "", none⟩
      (sampleHex 1).text := by
  obtain ⟨-, -, -, hdecided, -⟩ := passkey_counters (reachable_afterAll passkeyEnv passkeyCalls)
  apply (hdecided loginCall ⟨(sampleToken 5).text, "", none⟩ loginPart rfl).accepted
  have hok : (loginPart (Db.afterAll passkeyEnv {} passkeyCalls)).1.toOption =
      some (sampleHex 1).text := by
    have hprovisioned := @after_provision passkeyEnv 100 rfl rfl 1 none
    rw [passkeyCalls, Db.afterAll, List.foldl_cons, hprovisioned]
    decide +kernel
  cases hr : (loginPart (Db.afterAll passkeyEnv {} passkeyCalls)).1 with
  | error e =>
      rw [hr] at hok
      cases hok
  | ok accountId =>
      rw [hr] at hok
      exact congrArg _ (Option.some.inj hok)

end MaddyWeb.Auth
