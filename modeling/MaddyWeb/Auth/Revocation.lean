import MaddyWeb.Auth.Isolation
import MaddyWeb.Auth.Tokens

/-!
# Revocation

A revocation deletes the rows of three tables.  Every operation that is given a
token looks it up in one of them, and no later call stores the token again.
-/

namespace MaddyWeb.Auth

open MaddyWeb.Library

variable {env : Env} {random : Random} {db db' : Db} {kind : TokenKind} {clock later : Option Nat}

/-! ## Presented tokens -/

/-- The tokens that an operation is given. -/
def Op.presented : Op → List (TokenKind × String)
  | .beginTotpEnrollment token | .confirmTotpEnrollment token .. | .completeTotpChallenge token ..
  | .completeRecoveryChallenge token .. => [(.challenge, token)]
  | .authenticateSession token _ | .markStepUp token | .requireStepUp token | .revokeSession token
  | .beginPasskeyRegistration token | .beginPasskeyStepUp token => [(.session, token)]
  | .listSessions _ current => current.toList.map (.session, ·)
  | .completePasskeyRegistration session challenge _ _
  | .completePasskeyStepUp session challenge _ => [(.session, session), (.passkey, challenge)]
  | .verifyPasskeyLogin challenge _ | .completePasskeyLogin challenge .. => [(.passkey, challenge)]
  | _ => []

/-- What the store reads a text as: a passkey challenge is decoded first. -/
def TokenKind.read : TokenKind → String → Option String
  | .passkey, text => decodeOpaqueToken text
  | _, text => some text

/-- The call presents the token, in any spelling that the store takes for it. -/
def Op.Presents (op : Op) (kind : TokenKind) (token : OpaqueToken) : Prop :=
  ∃ text, (kind, text) ∈ op.presented ∧ kind.read text = kind.read token.text

/-- A call is refused: it raises, finds nothing to revoke, or marks no session as current. -/
inductive Rejected : Except AuthError Reply → Prop
  | raised (e : AuthError) : Rejected (.error e)
  | nothing : Rejected (.ok (.flag false))
  | notCurrent (sessions : List SessionInfo) (h : ∀ info ∈ sessions, info.current = false) :
      Rejected (.ok (.sessions sessions))

/-- The low bits of the last character are the ones that the encoder writes. -/
theorem decodeOpaqueToken_text (token : OpaqueToken) :
    decodeOpaqueToken token.text = some token.text := by
  have hdigit : ∀ c ∈ paddedDigits, ((base64UrlValue c).toList.map fun value =>
      paddedDigits.getD (value / 4) 'A') = [c] := List.all_iff_forall_prop.mp (by decide)
  unfold decodeOpaqueToken
  rw [if_pos token.matchesPattern]
  congr 1
  have hlength : token.text.toList.length = 43 := by
    have hpattern := token.matchesPattern
    unfold isOpaqueToken at hpattern
    rw [Bool.and_eq_true, beq_iff_eq] at hpattern
    exact hpattern.1
  have hne : token.text.toList ≠ [] := List.ne_nil_of_length_pos (by omega)
  have hlast : token.text.toList.getLast? = some (token.text.toList.getLast hne) :=
    List.getLast?_eq_some_getLast hne
  rw [hlast, Option.bind_some, hdigit _ (token.canonical _ hlast), List.dropLast_append_getLast hne]
  exact String.ofList_toList

theorem TokenKind.read_text (kind : TokenKind) (token : OpaqueToken) :
    kind.read token.text = some token.text := by
  cases kind with
  | passkey => exact decodeOpaqueToken_text token
  | session => rfl
  | challenge => rfl

/-! ## A token that is not stored -/

/-- No row has the digest as its key. -/
def Absent (db : Db) (kind : TokenKind) (digest : Digest) : Prop :=
  ∀ owner, (digest, owner) ∉ db.tokenRows kind

theorem absent_session {digest : Digest} (h : Absent db .session digest) :
    ∀ row ∈ db.sessions, row.sessionDigest ≠ digest := by
  intro row hrow heq
  exact h _ (List.mem_map.mpr ⟨row, hrow, by rw [heq]⟩)

theorem absent_challenge {digest : Digest} (h : Absent db .challenge digest) :
    ∀ row ∈ db.pendingChallenges, row.challengeDigest ≠ digest := by
  intro row hrow heq
  exact h _ (List.mem_map.mpr ⟨row, hrow, by rw [heq]⟩)

theorem absent_passkey {digest : Digest} (h : Absent db .passkey digest) :
    ∀ row ∈ db.passkeyChallenges, row.challengeDigest ≠ digest := by
  intro row hrow heq
  exact h _ (List.mem_map.mpr ⟨row, hrow, by rw [heq]⟩)

theorem find?_absent {ρ : Type} {rows : List ρ} {key : ρ → Digest} {digest : Digest}
    (h : ∀ row ∈ rows, key row ≠ digest) : rows.find? (key · == digest) = none := by
  rw [List.find?_eq_none]
  intro row hrow heq
  exact h row hrow (beq_iff_eq.mp heq)

theorem sessionRow_absent {digest : Digest} (h : Absent db .session digest) :
    db.sessionRow digest = none := by
  unfold Db.sessionRow
  rw [find?_absent (absent_session h)]
  rfl

theorem validSessionRow_absent {digest : Digest} (h : Absent db .session digest) (now : Nat)
    (touch : Bool) : validSessionRow digest now touch db = (.ok none, db) := by
  unfold validSessionRow
  rw [Exec.inspect_bind, sessionRow_absent h]
  rfl

/-- The operations on a session refuse what is not one. -/
theorem fails_of_session {α : Type} {digest : Digest} {now : Nat} {touch : Bool}
    {f : Option (SessionRow × AccountRow × Nat) → Store (Except AuthError α)}
    (h : Absent db .session digest) (hnone : f none = Pure.pure (.error .invalidSession)) :
    Exec.Fails (Exec.atomically (validSessionRow digest now touch >>= f) >>= Exec.ofExcept) db := by
  apply Exec.Fails.outcome
  intro r db' hrun
  obtain ⟨found, db₁, hvalid, hrest⟩ := Exec.bind_eq_ok hrun
  rw [validSessionRow_absent h] at hvalid
  cases hvalid
  rw [hnone] at hrest
  exact ⟨_, (Exec.ret_eq_ok hrest).1⟩

theorem fails_challengeRow {α : Type} {digest : Digest} {now : Nat}
    {f : PendingChallengeRow × AccountRow → Store α} (h : Absent db .challenge digest) :
    Exec.Fails (challengeRow digest now >>= f) db := by
  apply Exec.Fails.require_bind
  intro pair hpair
  unfold Db.openChallenge at hpair
  rw [find?_absent (absent_challenge h)] at hpair
  cases hpair

theorem fails_passkeyChallengeRow {α : Type} {digest : Digest} {now : Nat}
    {purpose : PasskeyPurpose} {accountId : Option String} {session : Option Digest}
    {f : PasskeyChallengeRow → Store α}
    (h : ∀ row ∈ db.passkeyChallenges, row.challengeDigest ≠ digest) :
    Exec.Fails (passkeyChallengeRow digest now purpose accountId session >>= f) db := by
  apply Exec.Fails.require_bind
  intro row hrow
  rw [find?_absent h] at hrow
  cases hrow

/-- Looking a session up adds no passkey challenge. -/
theorem validSessionRow_passkeys {digest : Digest} {now : Nat} {touch : Bool}
    {found : Option (SessionRow × AccountRow × Nat)}
    (h : validSessionRow digest now touch db = (.ok found, db')) :
    db'.passkeyChallenges ⊆ db.passkeyChallenges := by
  have hR : Exec.Composes fun db db' : Db => db'.passkeyChallenges ⊆ db.passkeyChallenges :=
    ⟨fun _ => List.Subset.refl _, fun h₁ h₂ => List.Subset.trans h₂ h₁⟩
  have hmoves := validSessionRow_moves hR
    ⟨fun _ _ => List.filter_sublist.subset, fun _ _ _ _ => List.Subset.refl _⟩
    digest now touch db
  rw [h] at hmoves
  exact hmoves

/-! ## The operations that are given a token -/

theorem rejected_of_fails {α : Type} {reply : α → Reply} {m : Store α} (h : Exec.Fails m db) :
    Rejected (replyWith reply m db).1 := by
  obtain ⟨e, he⟩ := Exec.Fails.of_bind (f := fun value => Pure.pure (reply value)) h
  unfold replyWith
  rw [he]
  exact .raised e

theorem verifyPasskeyLogin_fails {challenge credential decoded : String}
    (hdecoded : decodeOpaqueToken challenge = some decoded)
    (h : Absent db .passkey (env.passkeyDigest decoded)) :
    Exec.Fails (verifyPasskeyLogin env clock challenge credential) db := by
  unfold verifyPasskeyLogin requirePasskeyConfiguration requirePasskeyChallenge readClock
  apply Exec.Fails.ensure_bind
  intro _
  apply Exec.Fails.require_bind
  intro text htext
  rw [hdecoded] at htext
  cases htext
  apply Exec.Fails.require_bind
  intro now _
  apply Exec.Fails.of_bind
  exact Exec.Fails.atomically (fails_passkeyChallengeRow (absent_passkey h))

theorem completePasskeyRegistration_fails {session challenge credential name decoded : String}
    (hdecoded : decodeOpaqueToken challenge = some decoded)
    (h : Absent db .passkey (env.passkeyDigest decoded)) :
    Exec.Fails (completePasskeyRegistration env random clock session challenge credential name)
      db := by
  unfold completePasskeyRegistration requirePasskeyConfiguration requirePasskeyChallenge readClock
  apply Exec.Fails.ensure_bind
  intro _
  apply Exec.Fails.require_bind
  intro normalized _
  apply Exec.Fails.require_bind
  intro text htext
  rw [hdecoded] at htext
  cases htext
  apply Exec.Fails.require_bind
  intro now _
  apply Exec.Fails.outcome
  intro r db' hrun
  obtain ⟨found, db₁, hvalid, hrest⟩ := Exec.bind_eq_ok hrun
  have hsubset := validSessionRow_passkeys hvalid
  match found with
  | none => exact ⟨_, (Exec.ret_eq_ok hrest).1⟩
  | some (row, account, _) =>
      dsimp only at hrest
      split at hrest
      · exact ⟨_, (Exec.ret_eq_ok hrest).1⟩
      · have habsent := fun row hrow => absent_passkey h row (hsubset hrow)
        obtain ⟨e, he⟩ := fails_passkeyChallengeRow habsent
        rw [hrest] at he
        cases he

theorem completePasskeyStepUp_fails {session challenge credential decoded : String}
    (hdecoded : decodeOpaqueToken challenge = some decoded)
    (h : Absent db .passkey (env.passkeyDigest decoded)) :
    Exec.Fails (completePasskeyStepUp env clock session challenge credential) db := by
  unfold completePasskeyStepUp requirePasskeyConfiguration requirePasskeyChallenge readClock
  apply Exec.Fails.ensure_bind
  intro _
  apply Exec.Fails.require_bind
  intro text htext
  rw [hdecoded] at htext
  cases htext
  apply Exec.Fails.require_bind
  intro now _
  apply Exec.Fails.outcome
  intro r db' hrun
  obtain ⟨found, db₁, hvalid, hrest⟩ := Exec.bind_eq_ok hrun
  have hsubset := validSessionRow_passkeys hvalid
  match found with
  | none => exact ⟨_, (Exec.ret_eq_ok hrest).1⟩
  | some (row, account, _) =>
      have habsent := fun row hrow => absent_passkey h row (hsubset hrow)
      obtain ⟨e, he⟩ := fails_passkeyChallengeRow habsent
      dsimp only at hrest
      rw [hrest] at he
      cases he

theorem revokeSession_absent {text : String}
    (h : Absent db .session (opaqueDigest env.sessionDigest text)) :
    (revokeSession env text db).1 = .ok false := by
  have hnone : db.sessions.filter
      (·.sessionDigest == opaqueDigest env.sessionDigest text) = [] := by
    rw [List.filter_eq_nil_iff]
    intro row hrow heq
    exact absent_session h row hrow (beq_iff_eq.mp heq)
  show Except.ok ((db.sessions.filter _).length == 1) = _
  rw [hnone]
  rfl

/-- No listed session is the one of a token that is not stored. -/
theorem listSessions_absent {accountId text : String} {sessions : List SessionInfo}
    (h : Absent db .session (opaqueDigest env.sessionDigest text))
    (hrun : listSessions env clock accountId (some text) db = (.ok sessions, db')) :
    ∀ info ∈ sessions, info.current = false := by
  unfold listSessions readClock requireAccountById at hrun
  have hrun := validateAccountId_bind_eq_ok hrun
  obtain ⟨now, -, hrun⟩ := Exec.require_bind_eq_ok hrun
  have hrun := Exec.atomically_eq_ok hrun
  obtain ⟨account, -, hrun⟩ := Exec.require_bind_eq_ok hrun
  rw [Exec.update_bind] at hrun
  cases hrun
  intro info hinfo
  obtain ⟨row, hrow, rfl⟩ := List.mem_map.mp hinfo
  have hrow := (List.mergeSort_perm _ _).mem_iff.mp hrow
  have hstored := (List.mem_filter.mp (List.mem_filter.mp hrow).1).1
  have hne := absent_session h row hstored
  simpa [sessionInfoFromRow] using hne.symm

theorem rejected_session {call : Call} {text : String}
    (h : Absent db .session (opaqueDigest env.sessionDigest text))
    (hmem : (TokenKind.session, text) ∈ call.op.presented) : Rejected (perform env call db).1 := by
  obtain ⟨op, random, clock, later⟩ := call
  cases op with
  | revokeSession token =>
      obtain rfl : text = token := by simpa [Op.presented] using hmem
      have hflag := revokeSession_absent h
      show Rejected (replyWith _ _ db).1
      unfold replyWith
      rcases hrun : revokeSession env text db with ⟨r, db'⟩
      rw [hrun] at hflag
      cases hflag
      show Rejected (Exec.bind _ _ db).1
      unfold Exec.bind
      rw [hrun]
      exact .nothing
  | listSessions accountId current =>
      obtain rfl : current = some text := by simpa [Op.presented, eq_comm] using hmem
      show Rejected (Exec.bind _ _ db).1
      unfold Exec.bind
      rcases hrun : listSessions env clock accountId (some text) db with ⟨e | sessions, db'⟩
      · exact .raised e
      · exact .notCurrent sessions (listSessions_absent h hrun)
  | authenticateSession token touch =>
      obtain rfl : text = token := by simpa [Op.presented] using hmem
      apply rejected_of_fails
      apply Exec.Fails.require_bind
      exact fun now _ => fails_of_session h rfl
  | markStepUp token =>
      obtain rfl : text = token := by simpa [Op.presented] using hmem
      apply rejected_of_fails
      apply Exec.Fails.require_bind
      exact fun now _ => fails_of_session h rfl
  | requireStepUp token =>
      obtain rfl : text = token := by simpa [Op.presented] using hmem
      apply rejected_of_fails
      apply Exec.Fails.require_bind
      exact fun now _ => fails_of_session h rfl
  | beginPasskeyRegistration token =>
      obtain rfl : text = token := by simpa [Op.presented] using hmem
      apply rejected_of_fails
      apply Exec.Fails.ensure_bind
      intro _
      apply Exec.Fails.require_bind
      exact fun now _ => fails_of_session h rfl
  | beginPasskeyStepUp token =>
      obtain rfl : text = token := by simpa [Op.presented] using hmem
      apply rejected_of_fails
      apply Exec.Fails.ensure_bind
      intro _
      apply Exec.Fails.require_bind
      exact fun now _ => fails_of_session h rfl
  | completePasskeyRegistration token challenge credential name =>
      obtain rfl : text = token := by simpa [Op.presented] using hmem
      apply rejected_of_fails
      apply Exec.Fails.ensure_bind
      intro _
      apply Exec.Fails.require_bind
      intro normalized _
      apply Exec.Fails.require_bind
      intro decoded _
      apply Exec.Fails.require_bind
      exact fun now _ => fails_of_session h rfl
  | completePasskeyStepUp token challenge credential =>
      obtain rfl : text = token := by simpa [Op.presented] using hmem
      apply rejected_of_fails
      apply Exec.Fails.ensure_bind
      intro _
      apply Exec.Fails.require_bind
      intro decoded _
      apply Exec.Fails.require_bind
      exact fun now _ => fails_of_session h rfl
  | _ => simp [Op.presented] at hmem

theorem completeRecoveryChallenge_fails {text code : String} {ip agent : Option String}
    (h : Absent db .challenge (opaqueDigest env.challengeDigest text)) :
    Exec.Fails (completeRecoveryChallenge env random clock later text code ip agent) db := by
  unfold completeRecoveryChallenge requireRecoveryCode readClock
  apply Exec.Fails.require_bind
  intro normalized _
  apply Exec.Fails.require_bind
  exact fun now _ => (Exec.Fails.atomically (fails_challengeRow h)).of_bind

theorem rejected_challenge {call : Call} {text : String}
    (h : Absent db .challenge (opaqueDigest env.challengeDigest text))
    (hmem : (TokenKind.challenge, text) ∈ call.op.presented) :
    Rejected (perform env call db).1 := by
  obtain ⟨op, random, clock, later⟩ := call
  cases op with
  | beginTotpEnrollment token =>
      obtain rfl : text = token := by simpa [Op.presented] using hmem
      apply rejected_of_fails
      apply Exec.Fails.require_bind
      exact fun now _ => Exec.Fails.atomically (fails_challengeRow h)
  | confirmTotpEnrollment token code ip agent =>
      obtain rfl : text = token := by simpa [Op.presented] using hmem
      apply rejected_of_fails
      apply Exec.Fails.require_bind
      exact fun now _ => (Exec.Fails.atomically (fails_challengeRow h)).of_bind
  | completeTotpChallenge token code ip agent =>
      obtain rfl : text = token := by simpa [Op.presented] using hmem
      apply rejected_of_fails
      apply Exec.Fails.require_bind
      exact fun now _ => (Exec.Fails.atomically (fails_challengeRow h)).of_bind
  | completeRecoveryChallenge token code ip agent =>
      obtain rfl : text = token := by simpa [Op.presented] using hmem
      exact rejected_of_fails (completeRecoveryChallenge_fails h)
  | _ => simp [Op.presented] at hmem

theorem rejected_passkey {call : Call} {text decoded : String}
    (hdecoded : decodeOpaqueToken text = some decoded)
    (h : Absent db .passkey (env.passkeyDigest decoded))
    (hmem : (TokenKind.passkey, text) ∈ call.op.presented) : Rejected (perform env call db).1 := by
  obtain ⟨op, random, clock, later⟩ := call
  cases op with
  | completePasskeyRegistration token challenge credential name =>
      obtain rfl : text = challenge := by simpa [Op.presented] using hmem
      exact rejected_of_fails (completePasskeyRegistration_fails hdecoded h)
  | completePasskeyStepUp token challenge credential =>
      obtain rfl : text = challenge := by simpa [Op.presented] using hmem
      exact rejected_of_fails (completePasskeyStepUp_fails hdecoded h)
  | verifyPasskeyLogin challenge credential =>
      obtain rfl : text = challenge := by simpa [Op.presented] using hmem
      exact rejected_of_fails (verifyPasskeyLogin_fails hdecoded h)
  | completePasskeyLogin challenge credential ip agent =>
      obtain rfl : text = challenge := by simpa [Op.presented] using hmem
      exact rejected_of_fails (verifyPasskeyLogin_fails hdecoded h).of_bind
  | listSessions accountId current => simp [Op.presented] at hmem
  | _ => simp [Op.presented] at hmem

/-- Every operation looks its tokens up. -/
theorem rejected_of_absent {call : Call} {token : OpaqueToken}
    (h : Absent db kind (env.tokenDigest kind token.text))
    (hpresents : call.op.Presents kind token) :
    Rejected (perform env call db).1 := by
  obtain ⟨text, hmem, hread⟩ := hpresents
  rw [kind.read_text] at hread
  cases kind with
  | session =>
      obtain rfl := Option.some.inj hread
      exact rejected_session h hmem
  | challenge =>
      obtain rfl := Option.some.inj hread
      exact rejected_challenge h hmem
  | passkey => exact rejected_passkey hread h hmem

/-! ## Runs -/

/-- The accounts that a call revokes; `db` is the database after the call. -/
def Op.Revokes (op : Op) (db : Db) (a : String) : Prop :=
  match op with
  | .resetTotp id | .rotateTotp id | .regenerateRecoveryCodes id _ | .revokeSessions id
  | .deleteAccount id | .setRole id _ true | .setPasswordChangeRequired id _ true => id = a
  | .bootstrapActiveAccounts records => db.Named (bootstrapEmails records) a
  | _ => False

/-- The tokens that a reply hands out. -/
def Reply.tokens : Reply → List (TokenKind × String)
  | .pendingChallenge token => [(.challenge, token)]
  | .enrolled result => [(.session, result.session.token)]
  | .session issued => [(.session, issued.token)]
  | .passkeyChallenge token => [(.passkey, token)]
  | _ => []

/-- One of the calls returned the token and stored it for the account. -/
def IssuedFor (env : Env) (calls : List Call) (kind : TokenKind) (token : OpaqueToken)
    (a : String) : Prop :=
  ∃ before call after reply, calls = before ++ call :: after ∧
    (perform env call (Db.afterAll env {} before)).1 = .ok reply ∧
    (kind, token.text) ∈ reply.tokens ∧
    (env.tokenDigest kind token.text, some a) ∈
      (Db.afterAll env {} (before ++ [call])).tokenRows kind

/-- What a revoking call that returns has done. -/
theorem revokes_spec {call : Call} {reply : Reply} {a : String} (hdigests : env.InjectiveDigests)
    (hdb : Reachable env db) (hdb' : Reachable env db')
    (h : perform env call db = (.ok reply, db')) (hrevokes : call.op.Revokes db' a) :
    db'.Cleared a ∧ ∀ b, ¬ call.op.Revokes db' b → db'.stateOf b = db.stateOf b := by
  have hlinks := links_of_reachable hdigests.rate hdb
  have hsingle : ∀ {id : String}, Revoked id db db' → (∀ b, call.op.Revokes db' b ↔ id = b) →
      db'.Cleared a ∧ ∀ b, ¬ call.op.Revokes db' b → db'.stateOf b = db.stateOf b := by
    intro id hrevoked hiff
    obtain rfl := (hiff a).mp hrevokes
    exact ⟨hrevoked.cleared, fun b hb => hrevoked.others b fun heq => hb ((hiff b).mpr heq.symm)⟩
  obtain ⟨op, random, clock, later⟩ := call
  cases op with
  | resetTotp id =>
      obtain ⟨value, -, hrun⟩ := replyWith_eq_ok h
      exact hsingle (resetTotp_revoked hlinks.tokens hrun) fun _ => Iff.rfl
  | rotateTotp id =>
      obtain ⟨value, -, hrun⟩ := replyWith_eq_ok h
      exact hsingle (rotateTotp_revoked hlinks.tokens hrun) fun _ => Iff.rfl
  | regenerateRecoveryCodes id code =>
      obtain ⟨value, -, hrun⟩ := replyWith_eq_ok h
      exact hsingle (regenerateRecoveryCodes_revoked hlinks.tokens hrun) fun _ => Iff.rfl
  | revokeSessions id =>
      obtain ⟨value, -, hrun⟩ := replyWith_eq_ok h
      exact hsingle (revokeSessions_revoked hlinks.tokens hrun) fun _ => Iff.rfl
  | deleteAccount id =>
      obtain ⟨value, -, hrun⟩ := replyWith_eq_ok h
      have hkeyed := (inv_of_reachable hdb).keyed
      exact hsingle (deleteAccount_revoked hdigests.rate hkeyed hlinks hrun) fun _ => Iff.rfl
  | setRole id role revoke =>
      cases revoke with
      | false => cases hrevokes
      | true =>
          obtain ⟨value, -, hrun⟩ := replyWith_eq_ok h
          exact hsingle (setRole_revoked hlinks.tokens hrun) fun _ => Iff.rfl
  | setPasswordChangeRequired id required revoke =>
      cases revoke with
      | false => cases hrevokes
      | true =>
          obtain ⟨value, -, hrun⟩ := replyWith_eq_ok h
          exact hsingle (setPasswordChangeRequired_revoked hlinks.tokens hrun) fun _ => Iff.rfl
  | bootstrapActiveAccounts records =>
      obtain ⟨value, -, hrun⟩ := replyWith_eq_ok h
      obtain ⟨hcleared, hothers⟩ := bootstrapActiveAccounts_revoked hlinks.tokens
        (inv_of_reachable hdb').keyed hrun
      exact ⟨hcleared a hrevokes, hothers⟩
  | _ => cases hrevokes

theorem Db.Cleared.not_mem {a : String} (h : db.Cleared a) (digest : Digest) :
    (digest, some a) ∉ db.tokenRows kind := by
  intro hmem
  cases kind with
  | session =>
      obtain ⟨row, hrow, heq⟩ := List.mem_map.mp hmem
      exact h.sessions row hrow (Option.some.inj (Prod.mk.inj heq).2)
  | challenge =>
      obtain ⟨row, hrow, heq⟩ := List.mem_map.mp hmem
      exact h.pending row hrow (Option.some.inj (Prod.mk.inj heq).2)
  | passkey =>
      obtain ⟨row, hrow, heq⟩ := List.mem_map.mp hmem
      exact h.passkeys row hrow (Prod.mk.inj heq).2

/-- A token of a cleared account is in no state that a later call finds. -/
theorem absent_of_cleared {earlier later : List Call} {token : OpaqueToken} {a : String}
    (hdigests : env.InjectiveDigests) (hfresh : FreshDraws (earlier ++ later))
    (hissued : IssuedFor env earlier kind token a)
    (hcleared : (Db.afterAll env {} earlier).Cleared a) :
    Absent (Db.afterAll env {} (earlier ++ later)) kind (env.tokenDigest kind token.text) := by
  obtain ⟨before, call, after, reply, rfl, -, -, hstored⟩ := hissued
  have hsplit : before ++ call :: after = (before ++ [call]) ++ after := by simp
  rw [hsplit] at hfresh hcleared ⊢
  intro owner hmem
  obtain rfl : owner = some a := by
    rw [List.append_assoc] at hfresh hmem
    exact mem_tokenRows_of_later hdigests hfresh hstored hmem
  have hdrawn : DrawnIn env (before ++ [call] ++ after) kind (env.tokenDigest kind token.text) := by
    rcases mem_tokenRows_afterAll hstored with hempty | ⟨drawing, hdrawing, hdrawn⟩
    · cases kind <;> cases hempty
    · exact ⟨drawing, List.mem_append_left _ hdrawing, hdrawn⟩
  rw [afterAll_append] at hmem
  rcases mem_tokenRows_afterAll hmem with hkept | hnew
  · exact hcleared.not_mem _ hkept
  · exact hfresh.not_drawn hdigests hdrawn hnew

/-- After a revocation every token that was issued for the account is refused for ever, and
the other accounts are as before. -/
theorem revocation_complete (hdigests : env.InjectiveDigests) {earlier later : List Call}
    {revoke : Call} {reply : Reply} {a : String} (hfresh : FreshDraws (earlier ++ revoke :: later))
    (hok : (perform env revoke (Db.afterAll env {} earlier)).1 = .ok reply)
    (hrevokes : revoke.op.Revokes (Db.afterAll env {} (earlier ++ [revoke])) a) :
    (∀ kind token, IssuedFor env earlier kind token a →
      ∀ before call after, later = before ++ call :: after → call.op.Presents kind token →
        Rejected (perform env call (Db.afterAll env {} (earlier ++ revoke :: before))).1) ∧
      ∀ b, ¬ revoke.op.Revokes (Db.afterAll env {} (earlier ++ [revoke])) b →
        (Db.afterAll env {} (earlier ++ [revoke])).stateOf b =
          (Db.afterAll env {} earlier).stateOf b := by
  have hrun : perform env revoke (Db.afterAll env {} earlier) =
      (.ok reply, Db.afterAll env {} (earlier ++ [revoke])) := by
    rw [afterAll_concat, ← hok]
    rfl
  obtain ⟨hcleared, hothers⟩ := revokes_spec hdigests (reachable_afterAll env _)
    (reachable_afterAll env _) hrun hrevokes
  refine ⟨?_, hothers⟩
  rintro kind token hissued before call after rfl hpresents
  apply rejected_of_absent _ hpresents
  have hissued' : IssuedFor env (earlier ++ [revoke]) kind token a := by
    obtain ⟨first, issue, rest, answer, rfl, hissue⟩ := hissued
    exact ⟨first, issue, rest ++ [revoke], answer, by simp, hissue⟩
  have hsplit : earlier ++ revoke :: (before ++ call :: after) =
      (earlier ++ [revoke] ++ before) ++ call :: after := by simp
  rw [hsplit] at hfresh
  have hprefix := (List.pairwise_append.mp hfresh).1
  have habsent := absent_of_cleared hdigests hprefix hissued' hcleared
  rw [List.append_assoc, List.singleton_append] at habsent
  exact habsent

theorem sampleEnv_injectiveDigests : sampleEnv.InjectiveDigests where
  session _ _ h := h
  challenge _ _ h := h
  passkey _ _ h := h
  rate kind _ _ h := by
    have hlists := congrArg String.toList h
    simp only [sampleEnv, String.toList_append] at hlists
    exact String.toList_inj.mp (List.append_cancel_left hlists)

/-- Two accounts; the first one has begun to log in when its sessions are revoked. -/
def loginCalls : List Call :=
  [⟨.createAccount "ann@example.org" .user false, sampleRandom 1, some 0, some 0⟩,
    ⟨.createAccount "bob@example.org" .user false, sampleRandom 2, some 0, some 0⟩,
    ⟨.createPendingChallenge "ann@example.org", sampleRandom 3, some 60, some 60⟩]

def revokeCall : Call := ⟨.revokeSessions (sampleHex 1).text, sampleRandom 4, some 61, some 61⟩

def staleCall : Call :=
  ⟨.beginTotpEnrollment (sampleToken 3).text, sampleRandom 5, some 62, some 62⟩

theorem freshDraws_loginCalls : FreshDraws (loginCalls ++ revokeCall :: [staleCall]) := by
  have hdraws : (loginCalls ++ revokeCall :: [staleCall]).map (·.random) =
      ([1, 2, 3, 4, 5] : List (Fin 16)).map sampleRandom := rfl
  have hpair : (([1, 2, 3, 4, 5] : List (Fin 16)).map sampleRandom).Pairwise fun r r' =>
      ∀ kind, ∀ i < allocationAttempts, ∀ j < allocationAttempts,
        r.drawn kind i ≠ r'.drawn kind j := by
    have htokens : ([1, 2, 3, 4, 5] : List (Fin 16)).Pairwise fun m n =>
        sampleToken m ≠ sampleToken n := by decide +kernel
    rw [List.pairwise_map]
    apply htokens.imp
    intro m n hne kind i _ j _
    cases kind <;> exact hne
  rw [← hdraws] at hpair
  exact List.pairwise_map.mp hpair

theorem exists_of_isOk {α : Type} {x : Except AuthError α} (h : x.isOk = true) :
    ∃ value, x = .ok value := by
  cases x with
  | error e => cases h
  | ok value => exact ⟨value, rfl⟩

/-- The challenge that the first account logs in with. -/
theorem issuedFor_loginCalls :
    IssuedFor sampleEnv loginCalls .challenge (sampleToken 3) (sampleHex 1).text := by
  have hrun : ((perform sampleEnv (loginCalls.getLast (by decide))
        (Db.afterAll sampleEnv {} (loginCalls.take 2))).1.toOption.map Reply.tokens) =
          some [(.challenge, (sampleToken 3).text)] ∧
      (sampleEnv.tokenDigest .challenge (sampleToken 3).text, some (sampleHex 1).text) ∈
        (Db.afterAll sampleEnv {} loginCalls).tokenRows .challenge := by decide +kernel
  rcases hreply : (perform sampleEnv (loginCalls.getLast (by decide))
    (Db.afterAll sampleEnv {} (loginCalls.take 2))).1 with e | reply
  · rw [hreply] at hrun
    cases hrun.1
  · rw [hreply] at hrun
    refine ⟨loginCalls.take 2, loginCalls.getLast (by decide), [], reply, rfl, hreply, ?_, hrun.2⟩
    rw [Option.some.inj hrun.1]
    exact List.mem_singleton_self _

theorem revocation_complete_loginCalls :
    IssuedFor sampleEnv loginCalls .challenge (sampleToken 3) (sampleHex 1).text ∧
      staleCall.op.Presents .challenge (sampleToken 3) ∧
      Rejected (perform sampleEnv staleCall
        (Db.afterAll sampleEnv {} (loginCalls ++ [revokeCall]))).1 ∧
      (Db.afterAll sampleEnv {} (loginCalls ++ [revokeCall])).stateOf (sampleHex 2).text =
        (Db.afterAll sampleEnv {} loginCalls).stateOf (sampleHex 2).text := by
  have hpresents : staleCall.op.Presents .challenge (sampleToken 3) :=
    ⟨(sampleToken 3).text, List.mem_singleton_self _, rfl⟩
  have hok : (perform sampleEnv revokeCall (Db.afterAll sampleEnv {} loginCalls)).1.isOk =
      true := by
    decide +kernel
  obtain ⟨reply, hreply⟩ := exists_of_isOk hok
  have hrevokes : revokeCall.op.Revokes (Db.afterAll sampleEnv {} (loginCalls ++ [revokeCall]))
      (sampleHex 1).text := rfl
  obtain ⟨hrejected, hothers⟩ := revocation_complete sampleEnv_injectiveDigests
    freshDraws_loginCalls hreply hrevokes
  have hissued := issuedFor_loginCalls
  refine ⟨hissued, hpresents, hrejected _ _ hissued [] staleCall [] rfl hpresents, ?_⟩
  have hne : (sampleHex 1).text ≠ (sampleHex 2).text := by decide +kernel
  exact hothers _ hne

end MaddyWeb.Auth
