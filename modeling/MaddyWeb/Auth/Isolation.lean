import MaddyWeb.Auth.AccountSteps
import MaddyWeb.Auth.Links

/-!
# What a revocation clears and what it leaves alone
-/

namespace MaddyWeb.Auth

open MaddyWeb.Library

variable {db db' : Db} {env : Env} {random : Random} {clock later : Option Nat} {a b : String}

/-- The rows of every table that belong to an account. -/
def Db.stateOf (db : Db) (accountId : String) : Db where
  accounts := db.accounts.filter (·.accountId == accountId)
  recoveryCodes := db.codesOf accountId
  pendingChallenges := db.pendingOf accountId
  sessions := db.sessionsOf accountId
  passkeyCredentials := db.passkeyCredentials.filter (·.accountId == accountId)
  passkeyChallenges := db.passkeyChallenges.filter (·.accountId == some accountId)
  rateLimits := db.rateLimits.filter (·.accountId == some accountId)
  mailRules := db.mailRules.filter (·.accountId == accountId)
  mailRuleRuns := db.mailRuleRuns.filter (·.accountId == accountId)

/-- No token of the account is left. -/
structure Db.Cleared (db : Db) (accountId : String) : Prop where
  sessions : ∀ row ∈ db.sessions, row.accountId ≠ accountId
  pending : ∀ row ∈ db.pendingChallenges, row.accountId ≠ accountId
  passkeys : ∀ row ∈ db.passkeyChallenges, row.accountId ≠ some accountId

theorem Db.Cleared.sublist (h : db.Cleared a) (hsessions : db'.sessions.Sublist db.sessions)
    (hpending : db'.pendingChallenges.Sublist db.pendingChallenges)
    (hpasskeys : db'.passkeyChallenges.Sublist db.passkeyChallenges) : db'.Cleared a where
  sessions row hrow := h.sessions row (hsessions.mem hrow)
  pending row hrow := h.pending row (hpending.mem hrow)
  passkeys row hrow := h.passkeys row (hpasskeys.mem hrow)

theorem cleared_of_filter (hsessions : ∀ row ∈ db.sessions, (row.accountId == a) = false)
    (hpending : ∀ row ∈ db.pendingChallenges, (row.accountId == a) = false)
    (hpasskeys : ∀ row ∈ db.passkeyChallenges, (row.accountId == some a) = false) :
    db.Cleared a where
  sessions row hrow := by simpa using hsessions row hrow
  pending row hrow := by simpa using hpending row hrow
  passkeys row hrow := by simpa using hpasskeys row hrow

theorem cleared_deleteAuthentication (db : Db) (a : String) :
    (db.deleteAuthentication a).Cleared a := by
  apply cleared_of_filter
  · intro row hrow
    simpa using (List.mem_filter.mp hrow).2
  · intro row hrow
    simpa using (List.mem_filter.mp hrow).2
  · intro row hrow
    simpa using (List.mem_filter.mp (List.mem_filter.mp hrow).1).2

theorem cleared_revoke (db : Db) (a : String) (now : Nat) :
    ((db.revokePendingChallenges a now).deleteSessions (·.accountId == a)).Cleared a := by
  apply cleared_of_filter
  · intro row hrow
    simpa using (List.mem_filter.mp hrow).2
  · intro row hrow
    simpa using (List.mem_filter.mp hrow).2
  · intro row hrow
    simpa using (List.mem_filter.mp (List.mem_filter.mp hrow).1).2

theorem cleared_deleteAccountRow (db : Db) (a : String) : (db.deleteAccountRow a).Cleared a := by
  apply cleared_of_filter
  · intro row hrow
    simpa using (List.mem_filter.mp hrow).2
  · intro row hrow
    simpa using (List.mem_filter.mp hrow).2
  · intro row hrow
    simpa using (List.mem_filter.mp hrow).2

/-! ## The rows of another account -/

theorem filter_filter_other {ρ κ : Type} [BEq κ] [LawfulBEq κ] (key : ρ → κ) {x y : κ} (hne : y ≠ x)
    (rows : List ρ) :
    (rows.filter fun row => !(key row == x)).filter (key · == y) = rows.filter (key · == y) := by
  rw [List.filter_filter]
  apply List.filter_congr
  intro row _
  cases hkey : key row == y with
  | false => rfl
  | true => simp [beq_iff_eq.mp hkey, hne]

/-- A filter that keeps the rows of an account. -/
theorem filter_filter_kept {ρ : Type} {mine keep : ρ → Bool} {rows : List ρ}
    (h : ∀ row ∈ rows, mine row = true → keep row = true) :
    (rows.filter keep).filter mine = rows.filter mine := by
  rw [List.filter_filter]
  apply List.filter_congr
  intro row hrow
  cases hmine : mine row with
  | false => rfl
  | true => rw [h row hrow hmine, Bool.true_and]

/-- An update that leaves the rows of an account alone. -/
theorem filter_map_kept {ρ : Type} {mine : ρ → Bool} {set : ρ → ρ} {rows : List ρ}
    (hkeep : ∀ row ∈ rows, mine row = true → set row = row)
    (hout : ∀ row ∈ rows, mine row = false → mine (set row) = false) :
    (rows.map set).filter mine = rows.filter mine := by
  induction rows with
  | nil => rfl
  | cons row rows ih =>
      have htail := ih (fun row hrow => hkeep row (List.mem_cons_of_mem _ hrow))
        fun row hrow => hout row (List.mem_cons_of_mem _ hrow)
      rw [List.map_cons, List.filter_cons, List.filter_cons, htail]
      cases hmine : mine row with
      | false => simp [hout row List.mem_cons_self hmine]
      | true => rw [hkeep row List.mem_cons_self hmine, hmine]

theorem stateOf_updateAccounts {condition : AccountRow → Bool} {set : AccountRow → AccountRow}
    (hset : KeepsKeys set) (hother : ∀ row ∈ db.accounts, condition row = true →
      row.accountId ≠ b) :
    (db.updateAccounts condition set).stateOf b = db.stateOf b := by
  have haccounts : (db.updateAccounts condition set).accounts.filter (·.accountId == b) =
      db.accounts.filter (·.accountId == b) := by
    apply filter_map_kept
    · intro row hrow hmine
      exact if_neg fun hcondition => hother row hrow hcondition (beq_iff_eq.mp hmine)
    · intro row _ hmine
      rw [(keepsKeys_where hset row).1]
      exact hmine
  unfold Db.stateOf
  rw [haccounts]
  rfl

theorem stateOf_deleteCodes (hne : b ≠ a) : (db.deleteCodes a).stateOf b = db.stateOf b := by
  have hcodes : (db.deleteCodes a).codesOf b = db.codesOf b := by
    rw [codesOf_deleteCodes, if_neg hne]
  unfold Db.stateOf
  rw [hcodes]
  rfl

theorem stateOf_appendCodes {rows : List RecoveryCodeRow} (hrows : ∀ row ∈ rows, row.accountId = a)
    (hne : b ≠ a) :
    ({ db with recoveryCodes := db.recoveryCodes ++ rows } : Db).stateOf b = db.stateOf b := by
  have hcodes := codesOf_append hrows db b
  rw [if_neg hne, List.append_nil] at hcodes
  unfold Db.stateOf
  rw [hcodes]
  rfl

theorem stateOf_deletePending (hne : b ≠ a) :
    (db.deletePending (·.accountId == a)).stateOf b = db.stateOf b := by
  have hpending : (db.deletePending (·.accountId == a)).pendingOf b = db.pendingOf b :=
    filter_filter_other PendingChallengeRow.accountId hne _
  unfold Db.stateOf
  rw [hpending]
  rfl

theorem stateOf_deletePasskeyChallenges (hne : b ≠ a) :
    (db.deletePasskeyChallenges (·.accountId == some a)).stateOf b = db.stateOf b := by
  have hpasskeys : (db.deletePasskeyChallenges (·.accountId == some a)).passkeyChallenges.filter
      (·.accountId == some b) = db.passkeyChallenges.filter (·.accountId == some b) :=
    filter_filter_other PasskeyChallengeRow.accountId (fun heq => hne (Option.some.inj heq)) _
  unfold Db.stateOf
  rw [hpasskeys]
  rfl

/-- The cascade from the sessions of an account stays within the account. -/
theorem TokenLinks.cascade_kept (h : TokenLinks db) (hne : b ≠ a) {challenge : PasskeyChallengeRow}
    (hchallenge : challenge ∈ db.passkeyChallenges) (hmine : challenge.accountId = some b) :
    (!challenge.sessionDigest.any fun digest =>
      ((db.sessions.filter (·.accountId == a)).map (·.sessionDigest)).contains digest) = true := by
  cases hdigest : challenge.sessionDigest with
  | none => rfl
  | some digest =>
      rw [Option.any_some, Bool.not_eq_true', ← Bool.not_eq_true, List.contains_iff_mem]
      intro hdeleted
      obtain ⟨deleted, hdeleted, heq⟩ := List.mem_map.mp hdeleted
      obtain ⟨hdeleted, hid⟩ := List.mem_filter.mp hdeleted
      obtain ⟨session, hsession, heq', haccount⟩ := h.bound challenge hchallenge digest hdigest
      obtain rfl := List.inj_on_of_nodup_map h.sessions hsession hdeleted (heq'.trans heq.symm)
      rw [hmine] at haccount
      exact hne ((Option.some.inj haccount).trans (beq_iff_eq.mp hid))

theorem stateOf_deleteSessions (h : TokenLinks db) (hne : b ≠ a) :
    (db.deleteSessions (·.accountId == a)).stateOf b = db.stateOf b := by
  have hsessions : (db.deleteSessions (·.accountId == a)).sessionsOf b = db.sessionsOf b :=
    filter_filter_other SessionRow.accountId hne _
  have hpasskeys : (db.deleteSessions (·.accountId == a)).passkeyChallenges.filter
      (·.accountId == some b) = db.passkeyChallenges.filter (·.accountId == some b) :=
    filter_filter_kept fun challenge hchallenge hmine =>
      h.cascade_kept hne hchallenge (beq_iff_eq.mp hmine)
  unfold Db.stateOf
  rw [hsessions, hpasskeys]
  rfl

theorem stateOf_deleteAuthentication (h : TokenLinks db) (hne : b ≠ a) :
    (db.deleteAuthentication a).stateOf b = db.stateOf b := by
  have hlinks : TokenLinks ((db.deletePending (·.accountId == a)).deletePasskeyChallenges
      (·.accountId == some a)) := (h.deletePasskeyChallenges _).congr rfl rfl
  unfold Db.deleteAuthentication
  rw [stateOf_deleteSessions hlinks hne, stateOf_deletePasskeyChallenges hne,
    stateOf_deletePending hne]

/-- The statements of `_revoke_account_authentication_locked`. -/
theorem stateOf_revoke (h : TokenLinks db) (hne : b ≠ a) (now : Nat) :
    ((db.revokePendingChallenges a now).deleteSessions (·.accountId == a)).stateOf b =
      db.stateOf b := by
  have hlinks : TokenLinks (db.revokePendingChallenges a now) :=
    (h.deletePasskeyChallenges _).congr rfl rfl
  rw [stateOf_deleteSessions hlinks hne]
  unfold Db.revokePendingChallenges
  rw [stateOf_deletePasskeyChallenges hne, stateOf_deletePending hne]
  apply stateOf_updateAccounts (released_keepsKeys now)
  intro row _ hcondition heq
  simp only [Bool.and_eq_true, beq_iff_eq] at hcondition
  exact hne (heq.symm.trans hcondition.1)

/-- The runs of an account refer to its own rules, which the deletion of another account
leaves. -/
theorem RuleLinks.runs_kept (h : RuleLinks db) (hne : b ≠ a) :
    ((db.deleteMailRules (·.accountId == a)).mailRuleRuns.filter (·.accountId != a)).filter
      (·.accountId == b) = db.mailRuleRuns.filter (·.accountId == b) := by
  rw [filter_filter_kept]
  · apply filter_map_kept
    · intro run hrun hmine
      apply if_neg
      intro hcleared
      cases hid : run.ruleId with
      | none =>
          rw [hid] at hcleared
          cases hcleared
      | some ruleId =>
          rw [hid, Option.any_some, List.contains_iff_mem] at hcleared
          obtain ⟨deleted, hdeleted, heq⟩ := List.mem_map.mp hcleared
          obtain ⟨hdeleted, haccount⟩ := List.mem_filter.mp hdeleted
          obtain ⟨rule, hrule, heq', howner⟩ := h.run_rule run hrun ruleId hid
          obtain rfl := List.inj_on_of_nodup_map h.ids hrule hdeleted (heq'.trans heq.symm)
          exact hne ((beq_iff_eq.mp hmine).symm.trans (howner.symm.trans (beq_iff_eq.mp haccount)))
    · intro run _ hmine
      split <;> exact hmine
  · intro run _ hmine
    rw [bne_iff_ne, beq_iff_eq.mp hmine]
    exact hne

theorem stateOf_deleteAccountRow (htokens : TokenLinks db) (hrules : RuleLinks db) (hne : b ≠ a) :
    (db.deleteAccountRow a).stateOf b = db.stateOf b := by
  have hkept : ∀ {ρ : Type} (key : ρ → String) (rows : List ρ),
      (rows.filter (key · != a)).filter (key · == b) = rows.filter (key · == b) :=
    fun key rows => filter_filter_other key hne rows
  have hkept' : ∀ {ρ : Type} (key : ρ → Option String) (rows : List ρ),
      (rows.filter (key · != some a)).filter (key · == some b) = rows.filter (key · == some b) :=
    fun key rows => filter_filter_other key (fun heq => hne (Option.some.inj heq)) rows
  have hpasskeys : (db.deleteAccountRow a).passkeyChallenges.filter (·.accountId == some b) =
      db.passkeyChallenges.filter (·.accountId == some b) :=
    (hkept' PasskeyChallengeRow.accountId _).trans (filter_filter_kept
      fun challenge hchallenge hmine => htokens.cascade_kept hne hchallenge (beq_iff_eq.mp hmine))
  have hruns : (db.deleteAccountRow a).mailRuleRuns.filter (·.accountId == b) =
      db.mailRuleRuns.filter (·.accountId == b) :=
    RuleLinks.runs_kept
      (hrules.congr rfl rfl : RuleLinks (db.deleteSessions (·.accountId == a))) hne
  unfold Db.stateOf
  rw [hpasskeys, hruns]
  congr 1
  · exact hkept AccountRow.accountId _
  · exact hkept RecoveryCodeRow.accountId _
  · exact hkept PendingChallengeRow.accountId _
  · exact hkept SessionRow.accountId _
  · exact hkept PasskeyCredentialRow.accountId _
  · exact hkept' RateRow.accountId _
  · exact hkept MailRuleRow.accountId _

/-- The rate rows of another account count another address. -/
theorem stateOf_deleteRates (hinjective : ∀ kind, Function.Injective (env.rateDigest kind))
    (hkeyed : Keyed db) (hrates : RateLinks env db) {row : AccountRow} (hrow : row ∈ db.accounts)
    (hne : b ≠ row.accountId) :
    ({ db with rateLimits := db.rateLimits.filter fun rate =>
      !(rate.accountId == some row.accountId ||
        rate.accountIdentityDigest == some (env.rateDigest "account" row.canonicalEmail)) } :
      Db).stateOf b = db.stateOf b := by
  unfold Db.stateOf
  congr 1
  apply filter_filter_kept
  intro rate hrate hmine
  have hmine := beq_iff_eq.mp hmine
  obtain ⟨account, haccount, hid, hcounts⟩ := hrates rate hrate b hmine
  have hemail : account.canonicalEmail ≠ row.canonicalEmail := by
    intro heq
    rw [hkeyed.email_unique haccount hrow heq] at hid
    exact hne hid.symm
  have hdigest : env.rateDigest "account" account.canonicalEmail ≠
      env.rateDigest "account" row.canonicalEmail := fun heq => hemail (hinjective "account" heq)
  rw [hmine, hcounts.digest]
  simp [hne, hdigest]

/-! ## The revoking operations -/

/-- The tokens of one account are gone and the other accounts are as before. -/
structure Revoked (a : String) (db db' : Db) : Prop where
  cleared : db'.Cleared a
  others : ∀ b, b ≠ a → db'.stateOf b = db.stateOf b

theorem stateOf_updateAccount {set : AccountRow → AccountRow} (hset : KeepsKeys set) (hne : b ≠ a) :
    (db.updateAccounts (·.accountId == a) set).stateOf b = db.stateOf b := by
  apply stateOf_updateAccounts hset
  intro row _ hcondition heq
  exact hne (heq.symm.trans (beq_iff_eq.mp hcondition))

theorem revokeAccountAuthentication_eq_ok {count : Nat}
    (h : revokeAccountAuthentication a later db = (.ok count, db')) :
    ∃ now, db' = (db.revokePendingChallenges a now).deleteSessions (·.accountId == a) := by
  unfold revokeAccountAuthentication revokePendingChallenges readClock at h
  obtain ⟨_, db₁, hpending, h⟩ := Exec.bind_eq_ok h
  obtain ⟨now, -, hpending⟩ := Exec.require_bind_eq_ok hpending
  cases hpending
  rw [Exec.inspect_bind, Exec.update_bind] at h
  exact ⟨now, (Exec.ret_eq_ok h).2⟩

theorem revokeSessions_revoked {count : Nat} (htokens : TokenLinks db)
    (h : revokeSessions later a db = (.ok count, db')) : Revoked a db db' := by
  unfold revokeSessions requireAccountById at h
  have h := Exec.atomically_eq_ok (validateAccountId_bind_eq_ok h)
  obtain ⟨row, -, h⟩ := Exec.require_bind_eq_ok h
  obtain ⟨now, rfl⟩ := revokeAccountAuthentication_eq_ok h
  exact ⟨cleared_revoke db a now, fun b hne => stateOf_revoke htokens hne now⟩

/-- A change of the row followed by the revocation. -/
theorem revokeAfterChange_revoked {set : AccountRow → AccountRow} {account : Account}
    (htokens : TokenLinks db)
    (h : revokeAfterChange a true later (db.updateAccounts (·.accountId == a) set) =
      (.ok account, db')) (hset : KeepsKeys set) : Revoked a db db' := by
  unfold revokeAfterChange at h
  rw [if_pos rfl] at h
  obtain ⟨count, db₁, hrevoke, h⟩ := Exec.bind_eq_ok h
  obtain rfl := requiredAccount_eq_ok h
  obtain ⟨now, rfl⟩ := revokeAccountAuthentication_eq_ok hrevoke
  have hlinks : TokenLinks (db.updateAccounts (·.accountId == a) set) := htokens.congr rfl rfl
  refine ⟨cleared_revoke _ a now, ?_⟩
  intro b hne
  rw [stateOf_revoke hlinks hne, stateOf_updateAccount hset hne]

theorem setRole_revoked {role : Role} {account : Account} (htokens : TokenLinks db)
    (h : setRole clock later a role true db = (.ok account, db')) : Revoked a db db' := by
  unfold setRole readClock requireAccountById at h
  have h := validateAccountId_bind_eq_ok h
  obtain ⟨now, -, h⟩ := Exec.require_bind_eq_ok h
  have h := Exec.atomically_eq_ok h
  obtain ⟨row, -, h⟩ := Exec.require_bind_eq_ok h
  rw [Exec.update_bind] at h
  exact revokeAfterChange_revoked htokens h fun _ => ⟨rfl, rfl⟩

theorem setPasswordChangeRequired_revoked {required : Bool} {account : Account}
    (htokens : TokenLinks db)
    (h : setPasswordChangeRequired clock later a required true db = (.ok account, db')) :
    Revoked a db db' := by
  unfold setPasswordChangeRequired readClock requireAccountById at h
  have h := validateAccountId_bind_eq_ok h
  obtain ⟨now, -, h⟩ := Exec.require_bind_eq_ok h
  have h := Exec.atomically_eq_ok h
  obtain ⟨row, -, h⟩ := Exec.require_bind_eq_ok h
  rw [Exec.update_bind] at h
  exact revokeAfterChange_revoked htokens h fun _ => ⟨rfl, rfl⟩

/-- New recovery codes followed by the deletions. -/
theorem replaceCodes_revoked {rows : List RecoveryCodeRow} (htokens : TokenLinks db)
    (hrows : ∀ row ∈ rows, row.accountId = a) :
    Revoked a db (({ db.deleteCodes a with
      recoveryCodes := (db.deleteCodes a).recoveryCodes ++ rows } : Db).deleteAuthentication
        a) := by
  refine ⟨cleared_deleteAuthentication _ a, ?_⟩
  intro b hne
  apply (stateOf_deleteAuthentication _ hne).trans
  · exact (stateOf_appendCodes hrows hne).trans (stateOf_deleteCodes hne)
  · exact htokens.congr rfl rfl

theorem Revoked.after {db₁ : Db} (h : Revoked a db₁ db')
    (hothers : ∀ b, b ≠ a → db₁.stateOf b = db.stateOf b) : Revoked a db db' where
  cleared := h.cleared
  others b hne := (h.others b hne).trans (hothers b hne)

theorem resetTotp_revoked {account : Account} (htokens : TokenLinks db)
    (h : resetTotp clock a db = (.ok account, db')) : Revoked a db db' := by
  unfold resetTotp readClock requireAccountById at h
  have h := validateAccountId_bind_eq_ok h
  obtain ⟨now, -, h⟩ := Exec.require_bind_eq_ok h
  have h := Exec.atomically_eq_ok h
  obtain ⟨row, hrow, h⟩ := Exec.require_bind_eq_ok h
  simp only [Exec.update_bind] at h
  obtain rfl := requiredAccount_eq_ok h
  refine ⟨cleared_deleteAuthentication _ a, ?_⟩
  intro b hne
  apply (stateOf_deleteAuthentication _ hne).trans
  · exact (stateOf_deleteCodes hne).trans (stateOf_updateAccount (released_keepsKeys now) hne)
  · exact htokens.congr rfl rfl

theorem rotateTotp_revoked {result : Bytes × List String} (htokens : TokenLinks db)
    (h : rotateTotp env random clock a db = (.ok result, db')) : Revoked a db db' := by
  unfold rotateTotp readClock requireAccountById at h
  have h := validateAccountId_bind_eq_ok h
  obtain ⟨now, -, h⟩ := Exec.require_bind_eq_ok h
  have h := Exec.atomically_eq_ok h
  obtain ⟨row, -, h⟩ := Exec.require_bind_eq_ok h
  simp only [Exec.update_bind] at h
  obtain ⟨_, db₁, hstore, h⟩ := Exec.bind_eq_ok h
  obtain ⟨rows, -, hrows, rfl⟩ := storeRecoveryCodes_eq_ok hstore
  rw [Exec.update_bind] at h
  obtain ⟨-, rfl⟩ := Exec.ret_eq_ok h
  refine (replaceCodes_revoked ?_ hrows).after ?_
  · exact htokens.congr rfl rfl
  · exact fun b hne => stateOf_updateAccount (fun _ => ⟨rfl, rfl⟩) hne

theorem regenerateRecoveryCodes_revoked {code : String} {codes : List String}
    (htokens : TokenLinks db)
    (h : regenerateRecoveryCodes env random clock a code db = (.ok codes, db')) :
    Revoked a db db' := by
  unfold regenerateRecoveryCodes readClock requireAccountById at h
  have h := validateAccountId_bind_eq_ok h
  obtain ⟨now, -, h⟩ := Exec.require_bind_eq_ok h
  have h := Exec.atomically_eq_ok h
  obtain ⟨row, hrow, h⟩ := Exec.require_bind_eq_ok h
  obtain ⟨consumed, db₁, hconsume, h⟩ := Exec.bind_eq_ok h
  obtain ⟨htrue, h⟩ := Exec.ensure_bind_eq_ok h
  rw [htrue] at hconsume
  obtain ⟨-, counter, -, -, rfl⟩ := consumeTotp_eq_ok hconsume
  dsimp only at h
  rw [Exec.update_bind] at h
  obtain ⟨_, db₂, hstore, h⟩ := Exec.bind_eq_ok h
  obtain ⟨rows, -, hrows, rfl⟩ := storeRecoveryCodes_eq_ok hstore
  rw [Exec.update_bind] at h
  obtain ⟨-, rfl⟩ := Exec.ret_eq_ok h
  refine (replaceCodes_revoked ?_ hrows).after ?_
  · exact htokens.congr rfl rfl
  intro b hne
  have hkeys : KeepsKeys (·.counted counter now) := fun _ => ⟨rfl, rfl⟩
  apply stateOf_updateAccounts hkeys
  intro other _ hcondition heq
  have hid : other.accountId = row.accountId := by
    simp only [counterBelow, Bool.and_eq_true, beq_iff_eq] at hcondition
    exact hcondition.1.1
  exact hne (heq.symm.trans (hid.trans (accountById_mem hrow).2))

theorem deleteAccount_revoked {u : Unit}
    (hinjective : ∀ kind, Function.Injective (env.rateDigest kind)) (hkeyed : Keyed db)
    (hlinks : Links env db) (h : deleteAccount env a db = (.ok u, db')) : Revoked a db db' := by
  unfold deleteAccount requireAccountById at h
  have h := Exec.atomically_eq_ok (validateAccountId_bind_eq_ok h)
  obtain ⟨row, hrow, h⟩ := Exec.require_bind_eq_ok h
  rw [Exec.update_bind, Exec.inspect_bind, Exec.update_bind] at h
  obtain ⟨-, rfl⟩ := Exec.ensure_eq_ok h
  refine ⟨cleared_deleteAccountRow _ a, ?_⟩
  intro b hne
  obtain ⟨hmem, rfl⟩ := accountById_mem hrow
  refine (stateOf_deleteAccountRow ?_ ?_ hne).trans ?_
  · exact hlinks.tokens.congr rfl rfl
  · exact hlinks.rules.congr rfl rfl
  · exact stateOf_deleteRates hinjective hkeyed hlinks.rates hmem hne

/-! ## Bootstrap -/

/-- The accounts that the addresses name. -/
def Db.Named (db : Db) (emails : List String) (a : String) : Prop :=
  ∃ row ∈ db.accounts, row.accountId = a ∧ row.canonicalEmail ∈ emails

/-- What the passes of the bootstrap do: accounts keep their keys, no token appears, and an
account that no record names is as before. -/
structure Imports (emails : List String) (db db' : Db) : Prop where
  links : TokenLinks db'
  keys : ∀ row ∈ db.accounts, ∃ row' ∈ db'.accounts,
    row'.accountId = row.accountId ∧ row'.canonicalEmail = row.canonicalEmail
  cleared : ∀ a, db.Cleared a → db'.Cleared a
  others : ∀ b, ¬ db'.Named emails b → db'.stateOf b = db.stateOf b

def ImportMove (emails : List String) (db db' : Db) : Prop :=
  TokenLinks db → Imports emails db db'

theorem Imports.named {emails : List String} (h : Imports emails db db') (ha : db.Named emails a) :
    db'.Named emails a := by
  obtain ⟨row, hrow, hid, hemail⟩ := ha
  obtain ⟨row', hrow', hid', hemail'⟩ := h.keys row hrow
  exact ⟨row', hrow', hid'.trans hid, hemail' ▸ hemail⟩

theorem ImportMove.composes (emails : List String) : Exec.Composes (ImportMove emails) where
  refl _ h := ⟨h, fun row hrow => ⟨row, hrow, rfl, rfl⟩, fun _ h => h, fun _ _ => rfl⟩
  trans := by
    intro db₁ db₂ db₃ h₁ h₂ hlinks
    have h₁ := h₁ hlinks
    have h₂ := h₂ h₁.links
    refine ⟨h₂.links, ?_, fun a ha => h₂.cleared a (h₁.cleared a ha), ?_⟩
    · intro row hrow
      obtain ⟨row₂, hrow₂, hid₂, hemail₂⟩ := h₁.keys row hrow
      obtain ⟨row₃, hrow₃, hid₃, hemail₃⟩ := h₂.keys row₂ hrow₂
      exact ⟨row₃, hrow₃, hid₃.trans hid₂, hemail₃.trans hemail₂⟩
    · intro b hb
      exact (h₂.others b hb).trans (h₁.others b fun hnamed => hb (h₂.named hnamed))

/-- The `INSERT … ON CONFLICT` concerns an account that the record names. -/
theorem upsertAccount_imports {emails : List String} {now index : Nat} {record : PreparedAccount}
    (hemail : record.canonical ∈ emails) (hlinks : TokenLinks db)
    (h : upsertAccount env random now index record db = (.ok a, db')) :
    Imports emails db db' ∧
      ∃ row ∈ db'.accounts, row.accountId = a ∧ row.canonicalEmail = record.canonical := by
  unfold upsertAccount newAccountId at h
  dsimp only at h
  rw [Exec.inspect_bind] at h
  cases hfound : db.accountByEmail record.canonical with
  | none =>
      rw [hfound] at h
      obtain ⟨fresh, hfresh, h⟩ := Exec.require_bind_eq_ok h
      rw [Exec.update_bind] at h
      obtain ⟨rfl, rfl⟩ := Exec.ret_eq_ok h
      have hnew : ∀ row : AccountRow, row ∈ (db.insertAccount row).accounts :=
        fun row => List.mem_append_right _ (List.mem_singleton_self _)
      constructor
      · refine ⟨hlinks.congr rfl rfl, ?_, fun a ha => ⟨ha.1, ha.2, ha.3⟩, ?_⟩
        · exact fun row hrow => ⟨row, List.mem_append_left _ hrow, rfl, rfl⟩
        · intro b hb
          have hne : a ≠ b := fun heq => hb ⟨_, hnew _, heq, hemail⟩
          have haccounts : ∀ row : AccountRow, row.accountId = a →
              (db.insertAccount row).accounts.filter (·.accountId == b) =
                db.accounts.filter (·.accountId == b) := by
            intro row hrow
            simp [Db.insertAccount, hrow, hne]
          unfold Db.stateOf
          rw [haccounts _ rfl]
          rfl
      · exact ⟨_, hnew _, rfl, rfl⟩
  | some existing =>
      rw [hfound] at h
      dsimp only at h
      rw [Exec.update_bind] at h
      obtain ⟨rfl, rfl⟩ := Exec.ret_eq_ok h
      obtain ⟨hmem, hcanonical⟩ := accountByEmail_mem hfound
      have hkeys : KeepsKeys (·.imported record (random.nonce index) (env.encrypt
          (random.nonce index) record.secret existing.accountId record.canonical) now) :=
        fun _ => ⟨rfl, rfl⟩
      have hkeep := @keepsKeys_where (·.canonicalEmail == record.canonical) _ hkeys
      constructor
      · refine ⟨hlinks.congr rfl rfl, ?_, fun a ha => ⟨ha.1, ha.2, ha.3⟩, ?_⟩
        · exact fun row hrow => ⟨_, List.mem_map_of_mem hrow, hkeep row⟩
        · intro b hb
          apply stateOf_updateAccounts hkeys
          intro row hrow hcondition heq
          apply hb
          refine ⟨_, List.mem_map_of_mem hrow, (hkeep row).1.trans heq, ?_⟩
          rw [(hkeep row).2, beq_iff_eq.mp hcondition]
          exact hemail
      · exact ⟨_, List.mem_map_of_mem hmem, (hkeep existing).1, (hkeep existing).2.trans hcanonical⟩

/-- A pass of the bootstrap clears the account of its record. -/
theorem importAccount_imports {emails : List String} {now index : Nat} {record : PreparedAccount}
    {account : Account} (hemail : record.canonical ∈ emails) (hlinks : TokenLinks db)
    (h : importAccount env random now index record db = (.ok account, db')) :
    Imports emails db db' ∧
      ∃ row ∈ db'.accounts, row.canonicalEmail = record.canonical ∧ db'.Cleared row.accountId := by
  unfold importAccount at h
  obtain ⟨accountId, db₁, hid, h⟩ := Exec.bind_eq_ok h
  rw [Exec.update_bind] at h
  obtain ⟨_, db₂, hstore, h⟩ := Exec.bind_eq_ok h
  obtain ⟨rows, -, hrows, rfl⟩ := storeRecoveryCodes_eq_ok hstore
  rw [Exec.update_bind] at h
  obtain rfl := requiredAccount_eq_ok h
  obtain ⟨hupsert, row, hrow, rfl, hcanonical⟩ := upsertAccount_imports hemail hlinks hid
  have hrevoked := replaceCodes_revoked hupsert.links hrows
  refine ⟨(ImportMove.composes emails).trans (fun _ => hupsert) ?_ hlinks, ?_⟩
  · intro hlinks₁
    refine ⟨?_, fun row hrow => ⟨row, hrow, rfl, rfl⟩, ?_, ?_⟩
    · have hdeleted :=
        (hlinks₁.deletePasskeyChallenges (·.accountId == some row.accountId)).deleteSessions
        (·.accountId == row.accountId)
      exact hdeleted.congr rfl rfl
    · intro a ha
      apply ha.sublist
      · exact List.filter_sublist
      · exact List.filter_sublist
      · exact List.filter_sublist.trans List.filter_sublist
    · intro b hb
      exact hrevoked.others b fun heq => hb ⟨row, hrow, heq.symm, hcanonical ▸ hemail⟩
  · exact ⟨row, hrow, hcanonical, hrevoked.cleared⟩

theorem importAccounts_imports {emails : List String} {now : Nat} {records : List PreparedAccount}
    {index : Nat} {accounts : List Account}
    (hemails : ∀ record ∈ records, record.canonical ∈ emails)
    (hlinks : TokenLinks db)
    (h : Exec.forEach (importAccount env random now) index records db = (.ok accounts, db')) :
    Imports emails db db' ∧ ∀ record ∈ records, ∃ row ∈ db'.accounts,
      row.canonicalEmail = record.canonical ∧ db'.Cleared row.accountId := by
  have hR := ImportMove.composes emails
  induction records generalizing db index accounts with
  | nil =>
      cases h
      exact ⟨hR.refl _ hlinks, by simp⟩
  | cons record records ih =>
      obtain ⟨account, db₁, hfirst, h⟩ := Exec.bind_eq_ok h
      obtain ⟨rest, db₂, htail, h⟩ := Exec.bind_eq_ok h
      obtain ⟨-, rfl⟩ := Exec.ret_eq_ok h
      obtain ⟨hpass, row, hrow, hcanonical, hcleared⟩ :=
        importAccount_imports (hemails record List.mem_cons_self) hlinks hfirst
      obtain ⟨hothers, hall⟩ :=
        ih (fun record hrecord => hemails record (List.mem_cons_of_mem _ hrecord)) hpass.links htail
      refine ⟨hR.trans (fun _ => hpass) (fun _ => hothers) hlinks, ?_⟩
      intro other hother
      rcases List.mem_cons.mp hother with rfl | hother
      · obtain ⟨row', hrow', hid, hemail⟩ := hothers.keys row hrow
        exact ⟨row', hrow', hemail.trans hcanonical, hid ▸ hothers.cleared _ hcleared⟩
      · exact hall other hother

/-- The records keep their addresses. -/
theorem mem_bootstrapEmails {records : List AccountBootstrap} {prepared : List PreparedAccount}
    {seen : List String} (h : prepareRecords seen records = .ok prepared) :
    prepared.map (·.canonical) = bootstrapEmails records := by
  induction records generalizing seen prepared with
  | nil =>
      cases h
      rfl
  | cons first rest ih =>
      unfold prepareRecords at h
      unfold bootstrapEmails
      rw [List.filterMap_cons]
      cases hemail : Identity.canonicalizeEmail first.email with
      | none =>
          rw [hemail] at h
          cases h
      | some canonical =>
          simp only [hemail] at h
          split at h
          · cases h
          · split at h
            · obtain ⟨codes, hcodes, h⟩ := Fallible.bind_eq_ok h
              obtain ⟨others, hothers, h⟩ := Fallible.bind_eq_ok h
              cases h
              rw [List.map_cons, ih hothers]
              rfl
            · cases h

theorem bootstrapActiveAccounts_revoked {records : List AccountBootstrap} {accounts : List Account}
    (hlinks : TokenLinks db) (hkeyed : Keyed db')
    (h : bootstrapActiveAccounts env random clock records db = (.ok accounts, db')) :
    (∀ a, db'.Named (bootstrapEmails records) a → db'.Cleared a) ∧
      ∀ b, ¬ db'.Named (bootstrapEmails records) b → db'.stateOf b = db.stateOf b := by
  unfold bootstrapActiveAccounts readClock at h
  obtain ⟨prepared, hprepared, h⟩ := Exec.ofExcept_bind_eq_ok h
  obtain ⟨-, h⟩ := Exec.ensure_bind_eq_ok h
  obtain ⟨now, -, h⟩ := Exec.require_bind_eq_ok h
  have hemails := mem_bootstrapEmails hprepared
  have hmem : ∀ record ∈ prepared, record.canonical ∈ bootstrapEmails records := by
    intro record hrecord
    rw [← hemails]
    exact List.mem_map_of_mem hrecord
  obtain ⟨himports, hcleared⟩ := importAccounts_imports hmem hlinks (Exec.atomically_eq_ok h)
  refine ⟨?_, himports.others⟩
  rintro a ⟨row, hrow, rfl, hemail⟩
  rw [← hemails] at hemail
  obtain ⟨record, hrecord, hcanonical⟩ := List.mem_map.mp hemail
  obtain ⟨row', hrow', hcanonical', hclear⟩ := hcleared record hrecord
  rw [hkeyed.email_unique hrow hrow' (hcanonical.symm.trans hcanonical'.symm)]
  exact hclear

end MaddyWeb.Auth
