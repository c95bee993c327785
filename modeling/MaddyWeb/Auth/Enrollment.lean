import MaddyWeb.Auth.ChallengeSteps

/-!
# Every call is a step of every enrollment

The steps of the single operations are put together here: a call of the store moves
each account by one step of its enrollment, and the event of that step says which
counter the call accepted and whether it replaced the secret.
-/

namespace MaddyWeb.Auth

open MaddyWeb.Library
open Enrollment (Event Step Sound)

variable {db db' : Db} {env : Env} {random : Random} {clock later : Option Nat} {a : String}
  {call : Call}

/-! ## What a call accepted -/

/-- The counter that a code has for an account, if it has one. -/
def codeCounter (env : Env) (code : String) (now : Nat) (row : AccountRow) :
    Option (String × Nat) :=
  match matchingCounter env row code now with
  | .ok (some counter) => some (row.accountId, counter)
  | _ => none

/-- The account that a call checks a TOTP code of, with the code. -/
def checkedCode (env : Env) (db : Db) (op : Op) (now : Nat) : Option (AccountRow × String) :=
  match op with
  | .verifyTotp id code => (db.accountById id).map (·, code)
  | .regenerateRecoveryCodes id code => (db.accountById id).map (·, code)
  | .confirmTotpEnrollment token code _ _ =>
      (db.openChallenge (opaqueDigest env.challengeDigest token) now).map (·.2, code)
  | .completeTotpChallenge token code _ _ =>
      (db.openChallenge (opaqueDigest env.challengeDigest token) now).map (·.2, code)
  | _ => none

def returned (env : Env) (db : Db) (call : Call) : Bool := (perform env call db).1.isOk

/-- The account and the counter that a call which returned has accepted. -/
def accepted (env : Env) (db : Db) (call : Call) : Option (String × Nat) := do
  let now ← call.clock
  let (row, code) ← checkedCode env db call.op now
  if returned env db call then codeCounter env code now row else none

/-- The counter that a call accepted for the account `a`. -/
def acceptedCounter (env : Env) (db : Db) (call : Call) (a : String) : Option Nat :=
  (accepted env db call).bind fun entry => if entry.1 = a then some entry.2 else none

def Enrollment.Event.counter : Event → Option Nat
  | .confirmed counter => some counter
  | .accepted counter => some counter
  | _ => none

/-- The call is the reason for the event. -/
structure Permitted (env : Env) (db : Db) (call : Call) (row : AccountRow) (event : Event) :
    Prop where
  counter : event.counter = acceptedCounter env db call row.accountId
  reset : event = .reset → returned env db call = true ∧ call.op = .resetTotp row.accountId
  installed : event = .installed → returned env db call = true ∧
    (call.op = .rotateTotp row.accountId ∨ ∃ records,
      call.op = .bootstrapActiveAccounts records ∧ row.canonicalEmail ∈ bootstrapEmails records)

theorem permitted_passive (h : accepted env db call = none) (row : AccountRow) {event : Event}
    (hevent : event.Passive ∨ event = .began) : Permitted env db call row event := by
  have hcounter : event.counter = none := by
    rcases hevent with (rfl | rfl) | rfl <;> rfl
  constructor
  · rw [hcounter]
    unfold acceptedCounter
    rw [h]
    rfl
  · rintro rfl
    rcases hevent with (heq | heq) | heq <;> cases heq
  · rintro rfl
    rcases hevent with (heq | heq) | heq <;> cases heq

theorem permitted_accepted {counter : Nat} (h : accepted env db call = some (a, counter))
    {event : Event} (hevent : event = .confirmed counter ∨ event = .accepted counter)
    {row : AccountRow} {e : Event} (he : At a event row e) : Permitted env db call row e := by
  unfold At at he
  by_cases hid : row.accountId = a
  · rw [if_pos hid] at he
    subst he
    constructor
    · unfold acceptedCounter
      rw [h, Option.bind_some, if_pos hid.symm]
      rcases hevent with rfl | rfl <;> rfl
    · rintro rfl
      rcases hevent with heq | heq <;> cases heq
    · rintro rfl
      rcases hevent with heq | heq <;> cases heq
  · rw [if_neg hid] at he
    subst he
    constructor
    · unfold acceptedCounter
      rw [h, Option.bind_some, if_neg (fun heq => hid heq.symm)]
      rfl
    · rintro ⟨⟩
    · rintro ⟨⟩

theorem accepted_eq_none (h : ∀ now, checkedCode env db call.op now = none) :
    accepted env db call = none := by
  unfold accepted
  cases call.clock with
  | none => rfl
  | some now =>
      rw [Option.bind_eq_bind, Option.bind_some, h now]
      rfl

theorem checkedCode_mem {op : Op} {now : Nat} {row : AccountRow} {code : String}
    (h : checkedCode env db op now = some (row, code)) : row ∈ db.accounts := by
  unfold checkedCode at h
  split at h
  all_goals first
    | cases h
    | obtain ⟨found, hfound, heq⟩ := Option.map_eq_some_iff.mp h
      cases heq
      first
        | exact (accountById_mem hfound).1
        | exact (openChallenge_mem hfound).2.2.1

theorem accepted_of_error (h : returned env db call = false) : accepted env db call = none := by
  unfold accepted
  rw [h]
  cases call.clock with
  | none => rfl
  | some now =>
      rw [Option.bind_eq_bind, Option.bind_some]
      cases checkedCode env db call.op now <;> rfl

theorem accepted_eq_some {now counter : Nat} {row : AccountRow} {code : String}
    (hreturned : returned env db call = true) (hclock : call.clock = some now)
    (hchecked : checkedCode env db call.op now = some (row, code))
    (hmatch : matchingCounter env row code now = .ok (some counter)) :
    accepted env db call = some (row.accountId, counter) := by
  unfold accepted
  rw [hclock, hreturned]
  simp [hchecked, codeCounter, hmatch]

/-! ## One call -/

theorem replyWith_eq_ok {α : Type} {reply : α → Reply} {m : Store α} {r : Reply}
    (h : replyWith reply m db = (.ok r, db')) :
    ∃ value, r = reply value ∧ m db = (.ok value, db') := by
  obtain ⟨value, db₁, hm, hret⟩ := Exec.bind_eq_ok h
  obtain ⟨rfl, rfl⟩ := Exec.ret_eq_ok hret
  exact ⟨value, rfl, hm⟩

theorem replyWith_cases {α : Type} {reply : α → Reply} {m : Store α} {r : Except AuthError Reply}
    (h : replyWith reply m db = (r, db')) :
    (∃ e, r = .error e ∧ m db = (.error e, db')) ∨
      ∃ value, r = .ok (reply value) ∧ m db = (.ok value, db') := by
  change Exec.bind m _ db = _ at h
  unfold Exec.bind at h
  rcases hrun : m db with ⟨e | value, db₁⟩
  · rw [hrun] at h
    cases h
    exact Or.inl ⟨_, rfl, rfl⟩
  · rw [hrun] at h
    cases h
    exact Or.inr ⟨value, rfl, rfl⟩

/-- An operation whose steps are passive when it raises. -/
theorem refines_of_result {α : Type} {reply : α → Reply} {m : Store α}
    (hperform : perform env call = replyWith reply m)
    (herror : ∀ e db', m db = (.error e, db') → Refines Passive db db')
    (hok : ∀ value db', m db = (.ok value, db') → returned env db call = true →
      Refines (Permitted env db call) db db') :
    Refines (Permitted env db call) db (db.after env call) := by
  rcases hrun : perform env call db with ⟨r, db'⟩
  have hafter : db.after env call = db' := congrArg Prod.snd hrun
  have hreturned : returned env db call = r.isOk := congrArg (·.1.isOk) hrun
  rw [hafter]
  rw [hperform] at hrun
  rcases replyWith_cases hrun with ⟨e, rfl, hm⟩ | ⟨value, rfl, hm⟩
  · exact (herror e db' hm).mono fun row _ event hevent =>
      permitted_passive (accepted_of_error hreturned) row (Or.inl hevent)
  · exact hok value db' hm hreturned

/-- An operation that rolls back when it raises. -/
theorem refines_of_rolls {α : Type} {reply : α → Reply} {m : Store α} (hinv : Inv db)
    (hperform : perform env call = replyWith reply m) (hrolls : Exec.Rolls m)
    (hok : ∀ value db', m db = (.ok value, db') → returned env db call = true →
      Refines (Permitted env db call) db db') :
    Refines (Permitted env db call) db (db.after env call) := by
  apply refines_of_result hperform _ hok
  intro e db' hm
  rw [hrolls db e db' hm]
  exact (PassiveMove.composes.refl db hinv).1

/-- An operation with passive steps only. -/
theorem refines_of_passive {α : Type} {reply : α → Reply} {m : Store α} (hinv : Inv db)
    (hperform : perform env call = replyWith reply m) (hmoves : Exec.Moves PassiveMove m)
    (hnone : ∀ now, checkedCode env db call.op now = none) :
    Refines (Permitted env db call) db (db.after env call) := by
  have hR := PassiveMove.composes
  have hmove : PassiveMove db (db.after env call) := by
    unfold Db.after
    rw [hperform]
    exact replyWith_moves hR hmoves db
  exact (hmove hinv).1.mono fun row _ event hevent =>
    permitted_passive (accepted_eq_none hnone) row (Or.inl hevent)

theorem permitted_reset (hreturned : returned env db call = true) (hop : call.op = .resetTotp a)
    {row : AccountRow} {event : Event} (hevent : At a .reset row event) :
    Permitted env db call row event := by
  have hnone : accepted env db call = none := by
    apply accepted_eq_none
    intro now
    rw [hop]
    rfl
  unfold At at hevent
  split at hevent
  · next hid =>
      subst hevent
      constructor
      · unfold acceptedCounter
        rw [hnone]
        rfl
      · exact fun _ => ⟨hreturned, by rw [hop, hid]⟩
      · rintro ⟨⟩
  · subst hevent
    exact permitted_passive hnone row (Or.inl (Or.inl rfl))

theorem permitted_installed (hreturned : returned env db call = true) {row : AccountRow}
    (hop : call.op = .rotateTotp row.accountId ∨ ∃ records,
      call.op = .bootstrapActiveAccounts records ∧ row.canonicalEmail ∈ bootstrapEmails records) :
    Permitted env db call row .installed := by
  have hnone : accepted env db call = none := by
    apply accepted_eq_none
    intro now
    rcases hop with hop | ⟨records, hop, -⟩
    · rw [hop]
      rfl
    · rw [hop]
      rfl
  constructor
  · unfold acceptedCounter
    rw [hnone]
    rfl
  · rintro ⟨⟩
  · exact fun _ => ⟨hreturned, hop⟩

/-- The operations that leave the three tables alone. -/
theorem refines_of_keepsEnrollment (hinv : Inv db) (hop : call.op.keepsEnrollment = true) :
    Refines (Permitted env db call) db (db.after env call) := by
  have hsame : SameEnrollment db (db.after env call) :=
    side_moves (SameEnrollment.statements env call) hop db
  have hnone : accepted env db call = none := by
    apply accepted_eq_none
    intro now
    unfold checkedCode
    split
    all_goals first
      | rfl
      | next heq =>
          rw [heq] at hop
          cases hop
  exact refines_same hinv hsame fun row _ => permitted_passive hnone row (Or.inl (Or.inl rfl))

/-! ## The operations that check a code -/

theorem verifyTotp_permitted {id code : String} (hinv : Inv db)
    (hop : call.op = .verifyTotp id code) :
    Refines (Permitted env db call) db (db.after env call) := by
  obtain ⟨op, random, clock, later⟩ := call
  subst hop
  refine refines_of_rolls hinv rfl ?_ fun u db' h hreturned => ?_
  · exact Exec.Rolls.require_bind fun _ => Exec.Rolls.require_bind fun _ => Exec.Rolls.atomically _
  · obtain ⟨now, row, counter, hnow, hrow, hmatch, hrefines⟩ := verifyTotp_refines hinv h
    have hchecked : checkedCode env db (.verifyTotp id code) now = some (row, code) := by
      simp [checkedCode, hrow]
    have haccepted := accepted_eq_some hreturned hnow hchecked hmatch
    rw [(accountById_mem hrow).2] at haccepted
    exact hrefines.mono fun other _ event => permitted_accepted haccepted (Or.inr rfl)

theorem regenerateRecoveryCodes_permitted {id code : String} (hinv : Inv db)
    (hop : call.op = .regenerateRecoveryCodes id code) :
    Refines (Permitted env db call) db (db.after env call) := by
  obtain ⟨op, random, clock, later⟩ := call
  subst hop
  refine refines_of_rolls hinv rfl ?_ fun codes db' h hreturned => ?_
  · exact Exec.Rolls.require_bind fun _ => Exec.Rolls.require_bind fun _ => Exec.Rolls.atomically _
  · obtain ⟨now, row, counter, hnow, hrow, hmatch, hrefines⟩ :=
      regenerateRecoveryCodes_refines hinv h
    have hchecked : checkedCode env db (.regenerateRecoveryCodes id code) now =
        some (row, code) := by
      simp [checkedCode, hrow]
    have haccepted := accepted_eq_some hreturned hnow hchecked hmatch
    rw [(accountById_mem hrow).2] at haccepted
    exact hrefines.mono fun other _ event => permitted_accepted haccepted (Or.inr rfl)

theorem confirmTotpEnrollment_permitted {token code : String} {ip agent : Option String}
    (hinv : Inv db) (hop : call.op = .confirmTotpEnrollment token code ip agent) :
    Refines (Permitted env db call) db (db.after env call) := by
  obtain ⟨op, random, clock, later⟩ := call
  subst hop
  refine refines_of_result rfl (fun e db' h => ?_) fun result db' h hreturned => ?_
  · rcases confirmTotpEnrollment_refines hinv h with ⟨_, -, hpassive⟩ | ⟨_, _, _, _, _, heq, -⟩
    · exact hpassive
    · cases heq
  · rcases confirmTotpEnrollment_refines hinv h with
      ⟨_, heq, -⟩ | ⟨_, now, challenge, account, counter, -, hnow, hfound, hmatch, hrefines⟩
    · cases heq
    · have hchecked : checkedCode env db (.confirmTotpEnrollment token code ip agent) now =
          some (account, code) := by
        simp [checkedCode, hfound]
      have haccepted := accepted_eq_some hreturned hnow hchecked hmatch
      exact hrefines.mono fun other _ event => permitted_accepted haccepted (Or.inl rfl)

theorem completeTotpChallenge_permitted {token code : String} {ip agent : Option String}
    (hinv : Inv db) (hop : call.op = .completeTotpChallenge token code ip agent) :
    Refines (Permitted env db call) db (db.after env call) := by
  obtain ⟨op, random, clock, later⟩ := call
  subst hop
  refine refines_of_result rfl (fun e db' h => ?_) fun result db' h hreturned => ?_
  · rcases completeTotpChallenge_refines hinv h with ⟨_, -, hpassive⟩ | ⟨_, _, _, _, _, heq, -⟩
    · exact hpassive
    · cases heq
  · rcases completeTotpChallenge_refines hinv h with
      ⟨_, heq, -⟩ | ⟨_, now, challenge, account, counter, -, hnow, hfound, hmatch, hrefines⟩
    · cases heq
    · have hchecked : checkedCode env db (.completeTotpChallenge token code ip agent) now =
          some (account, code) := by
        simp [checkedCode, hfound]
      have haccepted := accepted_eq_some hreturned hnow hchecked hmatch
      exact hrefines.mono fun other _ event => permitted_accepted haccepted (Or.inr rfl)

/-! ## Every operation -/

theorem perform_refines (env : Env) (call : Call) (hinv : Inv db) :
    Refines (Permitted env db call) db (db.after env call) := by
  by_cases hkeeps : call.op.keepsEnrollment = true
  · exact refines_of_keepsEnrollment hinv hkeeps
  obtain ⟨op, random, clock, later⟩ := call
  have hpassive : ∀ {row event}, accepted env db ⟨op, random, clock, later⟩ = none →
      Passive row event → Permitted env db ⟨op, random, clock, later⟩ row event :=
    fun hnone hevent => permitted_passive hnone _ (Or.inl hevent)
  cases op with
  | verifyTotp id code => exact verifyTotp_permitted hinv rfl
  | regenerateRecoveryCodes id code => exact regenerateRecoveryCodes_permitted hinv rfl
  | confirmTotpEnrollment token code ip agent => exact confirmTotpEnrollment_permitted hinv rfl
  | completeTotpChallenge token code ip agent => exact completeTotpChallenge_permitted hinv rfl
  | setRole id role revoke => exact refines_of_passive hinv rfl setRole_passive fun _ => rfl
  | setPasswordChangeRequired id required revoke =>
      exact refines_of_passive hinv rfl setPasswordChangeRequired_passive fun _ => rfl
  | revokeSessions id => exact refines_of_passive hinv rfl revokeSessions_passive fun _ => rfl
  | createAccount email role required =>
      refine refines_of_rolls hinv rfl ?_ fun account db' h _ => ?_
      · exact Exec.Rolls.require_bind fun _ => Exec.Rolls.require_bind fun _ =>
          Exec.Rolls.atomically _
      · exact (createAccount_refines hinv h).mono fun row _ event hevent =>
          hpassive (accepted_eq_none fun _ => rfl) (Or.inl hevent)
  | provisionActiveAccount email role required =>
      refine refines_of_rolls hinv rfl ?_ fun account db' h _ => ?_
      · exact Exec.Rolls.require_bind fun _ => Exec.Rolls.require_bind fun _ =>
          Exec.Rolls.atomically _
      · exact (provisionActiveAccount_refines hinv h).mono fun row _ event hevent =>
          hpassive (accepted_eq_none fun _ => rfl) (Or.inl hevent)
  | syncAccounts emails role required =>
      refine refines_of_rolls hinv rfl ?_ fun accounts db' h _ => ?_
      · exact Exec.Rolls.require_bind fun _ => Exec.Rolls.require_bind fun _ =>
          Exec.Rolls.atomically _
      · exact (syncAccounts_passive h hinv).1.mono fun row _ event =>
          hpassive (accepted_eq_none fun _ => rfl)
  | resetTotp id =>
      refine refines_of_rolls hinv rfl ?_ fun account db' h hreturned => ?_
      · exact Exec.Rolls.require_bind fun _ => Exec.Rolls.require_bind fun _ =>
          Exec.Rolls.atomically _
      · exact (resetTotp_refines hinv h).mono fun row _ event => permitted_reset hreturned rfl
  | rotateTotp id =>
      refine refines_of_rolls hinv rfl ?_ fun result db' h hreturned => ?_
      · exact Exec.Rolls.require_bind fun _ => Exec.Rolls.require_bind fun _ =>
          Exec.Rolls.atomically _
      · apply (rotateTotp_refines hinv h).mono
        intro row _ event hevent
        unfold At at hevent
        split at hevent
        · next hid =>
            subst hevent
            exact permitted_installed hreturned (Or.inl (by rw [hid]))
        · exact hpassive (accepted_eq_none fun _ => rfl) (Or.inl hevent)
  | bootstrapActiveAccounts records =>
      refine refines_of_rolls hinv rfl ?_ fun accounts db' h hreturned => ?_
      · exact Exec.Rolls.ofExcept_bind fun _ => Exec.Rolls.ensure_bind fun _ =>
          Exec.Rolls.require_bind fun _ => Exec.Rolls.atomically _
      · apply (bootstrapActiveAccounts_refines hinv h).mono
        intro row _ event hevent
        rcases hevent with hevent | ⟨rfl, hemail⟩
        · exact hpassive (accepted_eq_none fun _ => rfl) (Or.inl hevent)
        · exact permitted_installed hreturned (Or.inr ⟨records, rfl, hemail⟩)
  | deleteAccount id =>
      refine refines_of_rolls hinv rfl ?_ fun account db' h _ => ?_
      · exact Exec.Rolls.require_bind fun _ => Exec.Rolls.atomically _
      · exact (deleteAccount_refines hinv h).mono fun row _ event hevent =>
          hpassive (accepted_eq_none fun _ => rfl) (Or.inl hevent)
  | createPendingChallenge email =>
      refine refines_of_rolls hinv rfl ?_ fun token db' h _ => ?_
      · exact Exec.Rolls.require_bind fun _ => Exec.Rolls.require_bind fun _ =>
          Exec.Rolls.atomically _
      · exact (createPendingChallenge_passive h hinv).1.mono fun row _ event =>
          hpassive (accepted_eq_none fun _ => rfl)
  | beginTotpEnrollment token =>
      refine refines_of_rolls hinv rfl ?_ fun secret db' h _ => ?_
      · exact Exec.Rolls.require_bind fun _ => Exec.Rolls.atomically _
      · apply (beginTotpEnrollment_refines hinv h).mono
        intro row _ event hevent
        exact permitted_passive (accepted_eq_none fun _ => rfl) row (hevent.imp_left Or.inl)
  | completeRecoveryChallenge token code ip agent =>
      refine refines_of_result rfl (fun e db' h => completeRecoveryChallenge_refines hinv h) ?_
      intro session db' h _
      exact (completeRecoveryChallenge_refines hinv h).mono fun row _ event =>
        hpassive (accepted_eq_none fun _ => rfl)
  | _ => exact absurd rfl hkeeps

/-- The enrollment invariant holds of every database that a run of the store reaches. -/
theorem inv_of_reachable (h : Reachable env db) : Inv db :=
  Reachable.induct inv_empty (fun _ call hinv => (perform_refines env call hinv).inv hinv) h

/-! ## Ownership -/

/-- What the tables say about one account in every reachable database. -/
structure EnrollmentOwned (db : Db) (row : AccountRow) : Prop where
  pending_iff : row.enrollmentState = .pending ↔ row.enrollmentChallengeDigest.isSome
  owner_row : ∀ digest, row.enrollmentChallengeDigest = some digest →
    ∃ challenge ∈ db.pendingChallenges,
      challenge.challengeDigest = digest ∧ challenge.accountId = row.accountId
  ciphertext_iff : row.totpCiphertext.isSome ↔
    row.enrollmentState = .pending ∨ row.enrollmentState = .active
  challenges_le : (db.pendingOf row.accountId).length ≤ 5
  codes_le : (db.codesOf row.accountId).length ≤ 10

/-- At every time the owner of a pending enrollment can be presented, or the next login of
any account releases the enrollment. -/
def CanFinishOrRelease (env : Env) (db : Db) (row : AccountRow) : Prop :=
  ∃ challenge ∈ db.pendingChallenges,
    row.enrollmentChallengeDigest = some challenge.challengeDigest ∧
    ∀ now, if now < challenge.expiresAt then
        db.openChallenge challenge.challengeDigest now = some (challenge, row)
      else ∀ random email token db',
        createPendingChallenge env random (some now) email db = (.ok token, db') →
        ∃ row' ∈ db'.accounts, row'.accountId = row.accountId ∧ row'.enrollmentState = .required

theorem Inv.enrollmentOwned (hinv : Inv db) {row : AccountRow} (hrow : row ∈ db.accounts) :
    EnrollmentOwned db row := by
  have hsound := hinv.sound row hrow
  constructor
  · exact hsound.pending_iff
  · intro digest howner
    obtain ⟨challenge, hmem, hdigest⟩ := List.mem_map.mp (hsound.owner_open digest howner)
    obtain ⟨hchallenge, hid⟩ := mem_pendingOf.mp hmem
    exact ⟨challenge, hchallenge, hdigest, hid⟩
  · have hciphertext : row.totpCiphertext.isSome ↔ row.enrollmentState ≠ .required :=
      hsound.ciphertext_iff
    rw [hciphertext]
    cases row.enrollmentState <;> simp
  · simpa [Db.enrollment] using hsound.challenges_le
  · exact hsound.codes_le

theorem Inv.code_active (hinv : Inv db) {code : RecoveryCodeRow} (hcode : code ∈ db.recoveryCodes) :
    ∃ row ∈ db.accounts, row.accountId = code.accountId ∧ row.enrollmentState = .active := by
  obtain ⟨row, hrow, hid⟩ := List.mem_map.mp (hinv.keyed.code_account code hcode)
  have hmem : code ∈ db.codesOf row.accountId := List.mem_filter.mpr ⟨hcode, by simp [hid]⟩
  have hcodes : (db.enrollment row).codes ≠ 0 := by
    intro hzero
    rw [List.length_eq_zero_iff.mp hzero] at hmem
    cases hmem
  exact ⟨row, hrow, hid, (hinv.sound row hrow).codes_active hcodes⟩

/-- A login executes the sweep, and no later statement of it touches an account. -/
theorem createPendingChallenge_accounts {email token : String} {now : Nat}
    (h : createPendingChallenge env random (some now) email db = (.ok token, db')) :
    db'.accounts = (db.deleteExpiredChallenges now).accounts := by
  unfold createPendingChallenge requireEmail readClock at h
  obtain ⟨canonical, -, h⟩ := Exec.require_bind_eq_ok h
  obtain ⟨time, htime, h⟩ := Exec.require_bind_eq_ok h
  cases htime
  have h := Exec.atomically_eq_ok h
  obtain ⟨row, -, h⟩ := Exec.require_bind_eq_ok h
  simp only [Exec.update_bind] at h
  obtain ⟨token', -, h⟩ := Exec.require_bind_eq_ok h
  rw [Exec.update_bind] at h
  obtain ⟨-, rfl⟩ := Exec.ret_eq_ok h
  unfold Db.insertPending Db.evictChallenges
  dsimp only
  split <;> rfl

theorem Inv.canFinishOrRelease (hinv : Inv db) {row : AccountRow} (hrow : row ∈ db.accounts)
    (hstate : row.enrollmentState = .pending) : CanFinishOrRelease env db row := by
  have howned := hinv.enrollmentOwned hrow
  obtain ⟨digest, howner⟩ := Option.isSome_iff_exists.mp (howned.pending_iff.mp hstate)
  obtain ⟨challenge, hchallenge, rfl, hid⟩ := howned.owner_row digest howner
  refine ⟨challenge, hchallenge, howner, fun now => ?_⟩
  split
  · next hopen =>
      have hfind : db.pendingChallenges.find? (·.challengeDigest == challenge.challengeDigest) =
          some challenge := by
        cases hfound : db.pendingChallenges.find?
            (·.challengeDigest == challenge.challengeDigest) with
        | none => exact absurd (List.find?_eq_none.mp hfound challenge hchallenge) (by simp)
        | some found =>
            have hdigest := List.find?_some hfound
            rw [hinv.keyed.challenge_unique (List.mem_of_find?_eq_some hfound) hchallenge
              (by simpa using hdigest)]
      unfold Db.openChallenge
      rw [hfind, Option.bind_eq_bind, Option.bind_some, hid, hinv.keyed.accountById_of_mem hrow,
        Option.bind_eq_bind, Option.bind_some, if_neg (by omega)]
  · next hexpired =>
      intro random email token db' h
      have hlisted : challenge.challengeDigest ∈
          (db.pendingChallenges.filter (·.expiresAt ≤ now)).map (·.challengeDigest) :=
        List.mem_map_of_mem (List.mem_filter.mpr ⟨hchallenge, by simpa using hexpired⟩)
      refine ⟨row.released now, ?_, rfl, rfl⟩
      rw [createPendingChallenge_accounts h]
      apply List.mem_map.mpr
      refine ⟨row, hrow, if_pos ?_⟩
      simp only [hstate, howner, Option.any_some, beq_self_eq_true, Bool.true_and]
      exact List.contains_iff_mem.mpr hlisted

/-- The ownership of enrollments in every state that a run of the store reaches. -/
theorem enrollment_owned_of_reachable (h : Reachable env db) :
    (∀ row ∈ db.accounts, EnrollmentOwned db row) ∧
      (∀ code ∈ db.recoveryCodes,
        ∃ row ∈ db.accounts, row.accountId = code.accountId ∧ row.enrollmentState = .active) ∧
      ∀ row ∈ db.accounts, row.enrollmentState = .pending → CanFinishOrRelease env db row := by
  have hinv := inv_of_reachable h
  refine ⟨fun row hrow => hinv.enrollmentOwned hrow, fun code hcode => hinv.code_active hcode, ?_⟩
  exact fun row hrow hstate => hinv.canFinishOrRelease hrow hstate

def pendingCalls : List Call :=
  [⟨.createAccount "ann@example.org" .user false, sampleRandom 1, some 0, some 0⟩,
    ⟨.createPendingChallenge "ann@example.org", sampleRandom 2, some 0, some 0⟩,
    ⟨.beginTotpEnrollment (sampleToken 2).text, sampleRandom 3, some 0, some 0⟩]

theorem enrollment_owned_of_reachable_pendingCalls :
    (Db.afterAll sampleEnv {} pendingCalls).accounts.map (·.enrollmentState) = [.pending] ∧
      ∀ row ∈ (Db.afterAll sampleEnv {} pendingCalls).accounts,
        EnrollmentOwned (Db.afterAll sampleEnv {} pendingCalls) row :=
  ⟨by decide +kernel, (enrollment_owned_of_reachable ⟨pendingCalls, rfl⟩).1⟩

end MaddyWeb.Auth
