import MaddyWeb.Auth.Store
import MaddyWeb.Library.Distinct
import MaddyWeb.Library.Fallible

/-!
# The statements that each operation executes

A relation on databases that allows the statements of an operation allows the
operation.  The theorems below walk through the operations once, for an arbitrary
relation; the frame and provenance results instantiate it.
-/

namespace MaddyWeb.Auth

open MaddyWeb.Library

variable {R : Db → Db → Prop} {env : Env} {random : Random}

/-- A change of an account row that keeps its keys. -/
def KeepsKeys (set : AccountRow → AccountRow) : Prop :=
  ∀ row, (set row).accountId = row.accountId ∧ (set row).canonicalEmail = row.canonicalEmail

/-- The values of a rule that a request writes. -/
def RuleOp.Writes (op : RuleOp) (fields : RuleFields) : Prop :=
  match op with
  | .createMailRule _ name enabled expression target stop
  | .createMailRuleWithRun _ name enabled expression target stop _ _
  | .updateMailRule _ _ _ name enabled expression target stop =>
      validateRuleFields name enabled expression target stop = .ok fields
  | _ => False

def Op.Writes : Op → RuleFields → Prop
  | .mailRules op => op.Writes
  | _ => fun _ => False

def MailRuleRow.fields (row : MailRuleRow) : RuleFields :=
  ⟨row.name, row.enabled, row.expressionJson, row.targetMailbox, row.stopProcessing⟩

/-- The rule that `DELETE … WHERE account_id = ? AND rule_id = ?` names. -/
def isRule (accountId ruleId : String) (row : MailRuleRow) : Bool :=
  row.accountId == accountId && row.ruleId == ruleId

/-- A new rule has a new identifier and comes last. -/
structure Appended (db : Db) (row : MailRuleRow) : Prop where
  fresh : row.ruleId ∉ db.mailRules.map (·.ruleId)
  ruleHex : isHex32 row.ruleId = true
  accountHex : isHex32 row.accountId = true
  position : row.position = nextPosition (db.rulesOf row.accountId)
  room : (db.rulesOf row.accountId).length < maxMailRulesPerAccount

/-- The order names every rule of the account once. -/
structure Reorders (db : Db) (accountId : String) (ruleIds : List String) : Prop where
  nodup : ruleIds.Nodup
  mem_iff : ∀ ruleId, ruleId ∈ ruleIds ↔ ruleId ∈ (db.rulesOf accountId).map (·.ruleId)

/-- The changes of the two rule tables; a new run belongs to the account of its rule. -/
structure RuleStatements (writes : RuleFields → Prop) (R : Db → Db → Prop) : Prop where
  insert : ∀ (db : Db) (row : MailRuleRow), Appended db row → writes row.fields →
    R db { db with mailRules := db.mailRules ++ [row] }
  revise : ∀ (db : Db) (set : MailRuleRow → MailRuleRow),
    (∀ row, (set row).ruleId = row.ruleId ∧ (set row).accountId = row.accountId ∧
      (set row).position = row.position ∧
      ((set row).fields = row.fields ∨ writes (set row).fields)) →
    R db { db with mailRules := db.mailRules.map set }
  delete : ∀ (db : Db) (accountId ruleId : String),
    R db ((db.deleteMailRules (isRule accountId ruleId)).compactPositions accountId)
  reorder : ∀ (db : Db) (accountId : String) (now : Nat) (ruleIds : List String),
    Reorders db accountId ruleIds →
    R db (ruleIds.zipIdx.foldl (fun db entry => db.placeRule accountId now entry.1 entry.2)
      (db.shiftPositions accountId))
  filterRuns : ∀ (db : Db) (keep : MailRuleRunRow → Bool),
    R db { db with mailRuleRuns := db.mailRuleRuns.filter keep }
  insertRun : ∀ (db : Db) (row : MailRuleRunRow),
    (∀ ruleId ∈ row.ruleId, ∃ rule ∈ db.mailRules,
      rule.ruleId = ruleId ∧ rule.accountId = row.accountId) →
    R db { db with mailRuleRuns := db.mailRuleRuns ++ [row] }
  mapRuns : ∀ (db : Db) (set : MailRuleRunRow → MailRuleRunRow),
    (∀ row, (set row).ruleId = row.ruleId ∧ (set row).accountId = row.accountId) →
    R db { db with mailRuleRuns := db.mailRuleRuns.map set }

/-- The changes of the rate table: a row is counted under the account that has the address. -/
structure RateStatements (env : Env) (R : Db → Db → Prop) : Prop where
  filter : ∀ (db : Db) (keep : RateRow → Bool),
    R db { db with rateLimits := db.rateLimits.filter keep }
  login : ∀ (db : Db) (email canonical ip : String) (now : Nat) (policy : RatePolicy),
    Identity.canonicalizeEmail email = some canonical →
    R db { db with
      rateLimits := countAttempt
        (loginBucket env canonical ip ((db.accountByEmail canonical).map (·.accountId))) now
        db.rateLimits policy }
  passkey : ∀ (db : Db) (ip : String) (now : Nat) (policy : RatePolicy),
    R db { db with
      rateLimits := countAttempt (passkeyLoginBucket env ip) now db.rateLimits policy }

structure SessionStatements (R : Db → Db → Prop) : Prop where
  delete : ∀ (db : Db) (condition : SessionRow → Bool), R db (db.deleteSessions condition)
  update : ∀ (db : Db) (digest : Digest) (set : SessionRow → SessionRow),
    (∀ row, (set row).sessionDigest = row.sessionDigest ∧ (set row).accountId = row.accountId) →
    R db (db.updateSession digest set)

/-- A new session has the digest of a drawn token that no session has. -/
def IssueStatement (env : Env) (random : Random) (R : Db → Db → Prop) : Prop :=
  ∀ (db : Db) (row : SessionRow),
    (∃ i < allocationAttempts,
      row.sessionDigest = opaqueDigest env.sessionDigest (random.token i).text) →
    row.sessionDigest ∉ db.sessions.map (·.sessionDigest) →
    R db (db.insertSession row)

def PasskeyUpdate (R : Db → Db → Prop) : Prop :=
  ∀ (db : Db) (digest : Digest) (set : PasskeyChallengeRow → PasskeyChallengeRow),
    (∀ row, (set row).challengeDigest = row.challengeDigest ∧
      (set row).accountId = row.accountId ∧ (set row).sessionDigest = row.sessionDigest) →
    R db (db.updatePasskeyChallenge digest set)

/-- A new passkey challenge has the digest of a drawn challenge, and one that is bound to a
session belongs to the account of the session. -/
def PasskeyInsertion (env : Env) (random : Random) (R : Db → Db → Prop) : Prop :=
  ∀ (db : Db) (row : PasskeyChallengeRow),
    (∃ i < allocationAttempts,
      row.challengeDigest = env.passkeyDigest (random.passkeyChallenge i).text) →
    row.challengeDigest ∉ db.passkeyChallenges.map (·.challengeDigest) →
    (∀ digest ∈ row.sessionDigest, ∃ session ∈ db.sessions,
      session.sessionDigest = digest ∧ row.accountId = some session.accountId) →
    R db (db.insertPasskeyChallenge row)

structure PasskeyStatements (env : Env) (random : Random) (R : Db → Db → Prop) : Prop where
  credentials : ∀ (db : Db) (rows : List PasskeyCredentialRow),
    R db { db with passkeyCredentials := rows }
  delete : ∀ (db : Db) (condition : PasskeyChallengeRow → Bool),
    R db (db.deletePasskeyChallenges condition)
  update : ∀ (db : Db) (digest : Digest) (set : PasskeyChallengeRow → PasskeyChallengeRow),
    (∀ row, (set row).challengeDigest = row.challengeDigest ∧
      (set row).accountId = row.accountId ∧ (set row).sessionDigest = row.sessionDigest) →
    R db (db.updatePasskeyChallenge digest set)
  insert : ∀ (db : Db) (row : PasskeyChallengeRow),
    (∃ i < allocationAttempts,
      row.challengeDigest = env.passkeyDigest (random.passkeyChallenge i).text) →
    row.challengeDigest ∉ db.passkeyChallenges.map (·.challengeDigest) →
    (∀ digest ∈ row.sessionDigest, ∃ session ∈ db.sessions,
      session.sessionDigest = digest ∧ row.accountId = some session.accountId) →
    R db (db.insertPasskeyChallenge row)

structure EnrollmentStatements (env : Env) (random : Random) (R : Db → Db → Prop) : Prop where
  updateAccounts : ∀ (db : Db) (condition : AccountRow → Bool) (set : AccountRow → AccountRow),
    KeepsKeys set → R db (db.updateAccounts condition set)
  insertAccount : ∀ (db : Db) (row : AccountRow), R db (db.insertAccount row)
  deleteAccount : ∀ (db : Db) (accountId : String), R db (db.deleteAccountRow accountId)
  codes : ∀ (db : Db) (rows : List RecoveryCodeRow), R db { db with recoveryCodes := rows }
  delete : ∀ (db : Db) (condition : PendingChallengeRow → Bool), R db (db.deletePending condition)
  update : ∀ (db : Db) (digest : Digest) (set : PendingChallengeRow → PendingChallengeRow),
    (∀ row, (set row).challengeDigest = row.challengeDigest ∧ (set row).accountId = row.accountId) →
    R db (db.updatePending digest set)
  insert : ∀ (db : Db) (row : PendingChallengeRow),
    (∃ i < allocationAttempts,
      row.challengeDigest = opaqueDigest env.challengeDigest (random.token i).text) →
    row.challengeDigest ∉ db.pendingChallenges.map (·.challengeDigest) →
    R db (db.insertPending row)

theorem exists_draw_of_firstUnused {α : Type} {draw : Nat → α} {used : α → Bool} {value : α}
    (h : firstUnused draw used = some value) : ∃ i < allocationAttempts, value = draw i := by
  have hmem := List.mem_of_find?_eq_some h
  obtain ⟨i, hi, heq⟩ := List.mem_map.mp hmem
  exact ⟨i, List.mem_range.mp hi, heq.symm⟩

theorem not_mem_of_firstUnused {α ρ : Type} {draw : Nat → α} {rows : List ρ} {key : ρ → String}
    {digest : α → String} {value : α}
    (h : firstUnused draw (fun value => rows.any (key · == digest value)) = some value) :
    digest value ∉ rows.map key := by
  intro hmem
  obtain ⟨row, hrow, hkey⟩ := List.mem_map.mp hmem
  have hunused := firstUnused_eq_some h
  rw [List.any_eq_false] at hunused
  exact hunused row hrow (beq_iff_eq.mpr hkey)

/-- A loop of statements. -/
theorem foldl_moves (hR : Exec.Composes R) {γ : Type} {f : Db → γ → Db}
    (h : ∀ db x, R db (f db x)) (xs : List γ) (db : Db) : R db (xs.foldl f db) := by
  induction xs generalizing db with
  | nil => exact hR.refl db
  | cons x xs ih => exact hR.trans (h db x) (ih _)

theorem replyWith_moves (hR : Exec.Composes R) {α : Type} {reply : α → Reply} {m : Store α}
    (hm : Exec.Moves R m) : Exec.Moves R (replyWith reply m) :=
  hR.bind hm fun _ => hR.ret _

/-! ## Rules -/

/-- A relation that does not look at the rule tables. -/
theorem RuleStatements.of_any {writes : RuleFields → Prop} (hR : Exec.Composes R)
    (h : ∀ (db : Db) (rules : List MailRuleRow) (runs : List MailRuleRunRow),
      R db { db with mailRules := rules, mailRuleRuns := runs }) : RuleStatements writes R where
  insert db _ _ _ := h db _ db.mailRuleRuns
  revise db _ _ := h db _ db.mailRuleRuns
  delete db _ _ := hR.trans (h db _ _) (hR.trans (h _ _ _)
    (foldl_moves hR (fun db _ => h db _ db.mailRuleRuns) _ _))
  reorder db _ _ _ _ := hR.trans (h db _ _)
    (foldl_moves hR (fun db _ => h db _ db.mailRuleRuns) _ _)
  filterRuns db _ := h db db.mailRules _
  insertRun db _ _ := h db db.mailRules _
  mapRuns db _ _ := h db db.mailRules _

theorem mailRuleFromRow_ruleId {row : MailRuleRow} {record : MailRuleRecord}
    (h : mailRuleFromRow env row = .ok record) : record.ruleId = row.ruleId := by
  unfold mailRuleFromRow at h
  obtain ⟨ruleId, hid, h⟩ := Fallible.bind_eq_ok h
  have hsame : ruleId = row.ruleId := by
    unfold validateMailRuleId at hid
    split at hid
    · exact (Except.ok.inj hid).symm
    · cases hid
  by_cases haccount : (!isHex32 row.accountId) = true
  · rw [if_pos haccount] at h
    cases h
  · rw [if_neg haccount] at h
    obtain ⟨name, -, h⟩ := Fallible.bind_eq_ok h
    obtain ⟨expression, -, h⟩ := Fallible.bind_eq_ok h
    obtain ⟨target, -, h⟩ := Fallible.bind_eq_ok h
    cases h
    exact hsame

theorem insertMailRule_eq_ok {db db' : Db} {now : Nat} {accountId : String} {fields : RuleFields}
    {row : MailRuleRow} (h : insertMailRule random now accountId fields db = (.ok row, db')) :
    db' = { db with mailRules := db.mailRules ++ [row] } ∧ row.accountId = accountId := by
  unfold insertMailRule requireAccountById at h
  obtain ⟨account, -, h⟩ := Exec.require_bind_eq_ok h
  rw [Exec.inspect_bind] at h
  obtain ⟨-, h⟩ := Exec.ensure_bind_eq_ok h
  obtain ⟨ruleId, -, h⟩ := Exec.require_bind_eq_ok h
  dsimp only at h
  rw [Exec.update_bind] at h
  obtain ⟨rfl, rfl⟩ := Exec.ret_eq_ok h
  exact ⟨rfl, rfl⟩

section Rules

variable {writes : RuleFields → Prop} (hR : Exec.Composes R) (hrules : RuleStatements writes R)

include hR hrules

theorem insertMailRule_moves {accountId : String} {fields : RuleFields} (now : Nat)
    (hwrites : writes fields) (hhex : isHex32 accountId = true) :
    Exec.Moves R (insertMailRule random now accountId fields) := by
  intro db
  unfold insertMailRule requireAccountById
  apply hR.require_bind_at
  intro account _
  show R db ((Exec.ensure _ _ >>= _) db).2
  apply hR.ensure_bind_at
  intro hroom
  apply hR.require_bind_at
  intro ruleId hid
  have hfresh : ruleId.text ∉ db.mailRules.map (·.ruleId) := not_mem_of_firstUnused hid
  apply hR.update_bind_at
  · exact hrules.insert db _ ⟨hfresh, ruleId.isHex, hhex, rfl, by simpa using hroom⟩ hwrites
  · exact hR.refl _

theorem insertRun_moves_at {db : Db} {now : Nat} {accountId ruleId : String} {revision : Nat}
    {snapshotJson stateJson : String} {completed : Bool}
    (hrule : ∃ rule ∈ db.mailRules, rule.ruleId = ruleId ∧ rule.accountId = accountId) :
    R db
      (insertRun random now accountId ruleId revision snapshotJson stateJson completed db).2 := by
  unfold insertRun
  show R db ((Exec.ensure _ _ >>= _) db).2
  apply hR.ensure_bind_at
  intro _
  apply hR.update_bind_at (hrules.filterRuns db _)
  apply hR.require_bind_at
  intro runId _
  apply hR.update_bind_at
  · apply hrules.insertRun
    intro id hid
    cases hid
    exact hrule
  · exact hR.refl _

theorem deleteMailRule_moves (accountId ruleId : String) :
    Exec.Moves R (deleteMailRule accountId ruleId) := by
  unfold deleteMailRule validateAccountId
  apply hR.bind (hR.require _ _)
  intro normalizedId
  apply hR.bind (hR.ofExcept _)
  intro normalizedRule
  apply hR.atomically
  apply hR.bind (hR.inspect _)
  intro deleted
  apply hR.bind (hR.ensure _ _)
  exact fun _ db => hrules.delete db normalizedId normalizedRule

theorem reorderMailRules_moves (clock : Option Nat) (accountId : String) (ruleIds : List String) :
    Exec.Moves R (reorderMailRules clock accountId ruleIds) := by
  intro db
  unfold reorderMailRules validateAccountId readClock
  apply hR.require_bind_at
  intro normalizedId _
  apply hR.ofExcept_bind_at
  intro normalizedRules _
  apply hR.ensure_bind_at
  intro hdups
  apply hR.atomically_of_commits
  intro db u db' h
  rw [Exec.inspect_bind] at h
  obtain ⟨hsame, h⟩ := Exec.ensure_bind_eq_ok h
  rw [Exec.update_bind] at h
  obtain ⟨now, -, h⟩ := Exec.require_bind_eq_ok h
  cases h
  apply hrules.reorder
  refine ⟨Distinct.nodup_of_length_eraseDups (beq_iff_eq.mp hdups), ?_⟩
  simp only [Bool.and_eq_true, List.all_eq_true, List.contains_iff_mem] at hsame
  exact fun ruleId => ⟨hsame.1 ruleId, hsame.2 ruleId⟩

theorem updateMailRule_moves {clock : Option Nat} {accountId ruleId : String} {revision : Int}
    {name enabled expression target stop : Json}
    (hwrites : ∀ fields, validateRuleFields name enabled expression target stop = .ok fields →
      writes fields) :
    Exec.Moves R
      (updateMailRule env clock accountId ruleId revision name enabled expression target stop) := by
  intro db
  unfold updateMailRule validateAccountId readClock
  apply hR.require_bind_at
  intro normalizedId _
  apply hR.ofExcept_bind_at
  intro normalizedRule _
  apply hR.ensure_bind_at
  intro _
  apply hR.ofExcept_bind_at
  intro fields hfields
  apply hR.require_bind_at
  intro now _
  refine hR.bind (hR.atomically ?_) (fun _ => hR.ofExcept _) db
  apply hR.bind (hR.inspect _)
  intro changed
  apply hR.bind (hR.inspect _)
  intro existing
  apply hR.bind
  · apply Exec.Moves.update
    intro db
    apply hrules.revise
    intro row
    split
    · exact ⟨rfl, rfl, rfl, Or.inr (hwrites fields hfields)⟩
    · exact ⟨rfl, rfl, rfl, Or.inl rfl⟩
  · intro _
    split
    · split <;> exact hR.raise _
    · exact hR.require _ _

theorem createMailRule_moves {clock : Option Nat} {accountId : String}
    {name enabled expression target stop : Json}
    (hwrites : ∀ fields, validateRuleFields name enabled expression target stop = .ok fields →
      writes fields) :
    Exec.Moves R
      (createMailRule env random clock accountId name enabled expression target stop) := by
  intro db
  unfold createMailRule validateAccountId readClock
  apply hR.require_bind_at
  intro normalizedId hid
  have hhex : isHex32 normalizedId = true := by
    split at hid
    · next hhex =>
        cases hid
        exact hhex
    · cases hid
  apply hR.ofExcept_bind_at
  intro fields hfields
  apply hR.require_bind_at
  intro now _
  refine hR.bind (hR.atomically ?_) (fun _ => hR.ofExcept _) db
  exact insertMailRule_moves hR hrules now (hwrites fields hfields) hhex

theorem createMailRuleWithRun_moves {clock : Option Nat} {accountId : String}
    {name enabled expression target stop state : Json} {completed : Bool}
    (hwrites : ∀ fields, validateRuleFields name enabled expression target stop = .ok fields →
      writes fields) :
    Exec.Moves R (createMailRuleWithRun env random clock accountId name enabled expression target
      stop state completed) := by
  intro db
  unfold createMailRuleWithRun validateAccountId readClock
  apply hR.require_bind_at
  intro normalizedId hid
  have hhex : isHex32 normalizedId = true := by
    split at hid
    · next hhex =>
        cases hid
        exact hhex
    · cases hid
  apply hR.ofExcept_bind_at
  intro fields hfields
  apply hR.ofExcept_bind_at
  intro stateJson _
  apply hR.require_bind_at
  intro now _
  apply hR.atomically_at
  apply hR.bind_at (insertMailRule_moves hR hrules now (hwrites fields hfields) hhex db)
  intro row db' hrow
  obtain ⟨hadded, haccount⟩ := insertMailRule_eq_ok hrow
  have hmem : row ∈ db'.mailRules := by
    rw [hadded]
    exact List.mem_append_right _ List.mem_cons_self
  apply hR.ofExcept_bind_at
  intro rule hrule
  apply hR.ofExcept_bind_at
  intro snapshotJson _
  have hstored := mailRuleFromRow_ruleId hrule
  apply hR.bind_at (insertRun_moves_at hR hrules ⟨row, hmem, hstored.symm, haccount⟩)
  intro runRow db'' _
  exact hR.ofExcept_bind_at fun run _ => hR.refl _

theorem ruleStep_moves (clock : Option Nat) (op : RuleOp)
    (hwrites : ∀ fields, op.Writes fields → writes fields) :
    Exec.Moves R (ruleStep env random clock op) := by
  cases op with
  | createMailRule id name enabled expression target stop =>
      exact replyWith_moves hR (createMailRule_moves hR hrules hwrites)
  | createMailRuleWithRun id name enabled expression target stop state completed =>
      exact replyWith_moves hR (createMailRuleWithRun_moves hR hrules hwrites)
  | updateMailRule id ruleId revision name enabled expression target stop =>
      exact replyWith_moves hR (updateMailRule_moves hR hrules hwrites)
  | deleteMailRule id ruleId => exact replyWith_moves hR (deleteMailRule_moves hR hrules id ruleId)
  | reorderMailRules id ruleIds =>
      exact replyWith_moves hR (reorderMailRules_moves hR hrules clock id ruleIds)
  | createMailRuleRun id ruleId snapshot state =>
      apply replyWith_moves hR
      unfold createMailRuleRun validateAccountId readClock
      apply hR.bind (hR.require _ _)
      intro accountId
      apply hR.bind (hR.ofExcept _)
      intro ruleId
      apply hR.bind (hR.ofExcept _)
      intro snapshotJson
      apply hR.bind (hR.ofExcept _)
      intro stateJson
      apply hR.bind (hR.require _ _)
      intro now
      refine hR.bind (hR.atomically ?_) fun _ => hR.ofExcept _
      intro db
      apply hR.require_bind_at
      intro row hrow
      apply insertRun_moves_at hR hrules
      have hfound := List.find?_some hrow
      simp only [Bool.and_eq_true, beq_iff_eq] at hfound
      exact ⟨row, List.mem_of_find?_eq_some hrow, hfound.2, hfound.1⟩
  | _ =>
      simp only [ruleStep, replyWith, listMailRules, getMailRule, mailboxRuleReferenceCount,
        getActiveMailRuleRun, getMailRuleRun, updateMailRuleRun, cancelMailRuleRun,
        validateAccountId, readClock, requireAccountById]
      repeat' with_reducible first
        | exact hR.ret _
        | exact hR.inspect _
        | exact hR.ofExcept _
        | exact hR.ensure _ _
        | exact hR.require _ _
        | apply hR.bind
        | apply hR.atomically
        | intro _
        | split
      -- what remains of each operation after the walk is the `UPDATE` of a run
      all_goals
        apply Exec.Moves.update
        intro db
        apply hrules.mapRuns
        intro row
        split <;> exact ⟨rfl, rfl⟩

end Rules

/-! ## Sessions -/

theorem validSessionRow_moves (hR : Exec.Composes R) (hsession : SessionStatements R)
    (digest : Digest) (now : Nat) (touch : Bool) :
    Exec.Moves R (validSessionRow digest now touch) := by
  unfold validSessionRow
  apply hR.bind (hR.inspect _)
  intro found
  split
  · exact hR.ret _
  · split
    · apply hR.bind
      · exact Exec.Moves.update fun db => hsession.delete db _
      · exact fun _ => hR.ret _
    · dsimp only
      split
      · apply hR.bind
        · exact Exec.Moves.update fun db => hsession.update db _ _ fun _ => ⟨rfl, rfl⟩
        · exact fun _ => hR.ret _
      · exact hR.ret _

theorem evictSessions_moves (hR : Exec.Composes R)
    (hdelete : ∀ (db : Db) (condition : SessionRow → Bool), R db (db.deleteSessions condition))
    (db : Db) (accountId : String) : R db (db.evictSessions accountId) := by
  unfold Db.evictSessions
  dsimp only
  split
  · exact hdelete db _
  · exact hR.refl db

theorem issueSession_moves (hR : Exec.Composes R)
    (hdelete : ∀ (db : Db) (condition : SessionRow → Bool), R db (db.deleteSessions condition))
    (hissue : IssueStatement env random R) (account : AccountRow) (now : Nat)
    (clientIp userAgent : Option String) :
    Exec.Moves R (issueSession env random account now clientIp userAgent) := by
  intro db
  unfold issueSession
  apply hR.ofExcept_bind_at
  intro metadata _
  apply hR.update_bind_at (hdelete db _)
  apply hR.update_bind_at (evictSessions_moves hR hdelete _ _)
  apply hR.require_bind_at
  intro token htoken
  apply hR.require_bind_at
  intro sessionId _
  obtain ⟨i, hi, rfl⟩ := exists_draw_of_firstUnused htoken
  have hfresh := not_mem_of_firstUnused htoken
  exact hissue _ _ ⟨i, hi, rfl⟩ hfresh

/-- A valid session is in the table, for the account that is returned with it. -/
theorem validSessionRow_eq_ok {db db' : Db} {digest : Digest} {now : Nat} {touch : Bool}
    {session : SessionRow} {account : AccountRow} {lastSeen : Nat}
    (h : validSessionRow digest now touch db = (.ok (some (session, account, lastSeen)), db')) :
    ∃ row ∈ db'.sessions, row.sessionDigest = digest ∧ row.accountId = account.accountId := by
  unfold validSessionRow at h
  rw [Exec.inspect_bind] at h
  cases hfound : db.sessionRow digest with
  | none =>
      rw [hfound] at h
      cases h
  | some found =>
      rw [hfound] at h
      unfold Db.sessionRow at hfound
      obtain ⟨row, hrow, hfound⟩ := Option.bind_eq_some_iff.mp hfound
      obtain ⟨owner, howner, hfound⟩ := Option.bind_eq_some_iff.mp hfound
      cases hfound
      have hmem := List.mem_of_find?_eq_some hrow
      have hdigest : row.sessionDigest = digest := by simpa using List.find?_some hrow
      have hid : owner.accountId = row.accountId := by simpa using List.find?_some howner
      dsimp only at h
      split at h
      · rw [Exec.update_bind] at h
        cases h
      · split at h
        · rw [Exec.update_bind] at h
          cases h
          refine ⟨_, List.mem_map_of_mem hmem, ?_⟩
          dsimp only
          rw [if_pos (beq_iff_eq.mpr hdigest)]
          exact ⟨hdigest, hid.symm⟩
        · cases h
          exact ⟨_, hmem, hdigest, hid.symm⟩

/-! ## Passkeys -/

section Passkeys

variable (hR : Exec.Composes R)
  (hdelete : ∀ (db : Db) (condition : PasskeyChallengeRow → Bool),
    R db (db.deletePasskeyChallenges condition))

include hR hdelete

theorem boundPasskeyChallenges_moves (db : Db) (purpose : PasskeyPurpose)
    (accountId : Option String) (now : Nat) :
    R db (db.boundPasskeyChallenges purpose accountId now) := by
  unfold Db.boundPasskeyChallenges
  dsimp only
  split
  · exact hR.trans (hdelete db _) (hdelete _ _)
  · exact hdelete db _

omit hR hdelete in
theorem boundPasskeyChallenges_sessions (db : Db) (purpose : PasskeyPurpose)
    (accountId : Option String) (now : Nat) :
    (db.boundPasskeyChallenges purpose accountId now).sessions = db.sessions := by
  unfold Db.boundPasskeyChallenges
  dsimp only
  split <;> rfl

theorem createPasskeyChallenge_moves_at (hinsert : PasskeyInsertion env random R) {db : Db}
    {purpose : PasskeyPurpose}
    {accountId : Option String} {sessionDigest : Option Digest} {now : Nat}
    (hbound : ∀ digest ∈ sessionDigest, ∃ session ∈ db.sessions,
      session.sessionDigest = digest ∧ accountId = some session.accountId) :
    R db (createPasskeyChallenge env random purpose accountId sessionDigest now db).2 := by
  unfold createPasskeyChallenge
  apply hR.update_bind_at (boundPasskeyChallenges_moves hR hdelete db _ _ _)
  apply hR.require_bind_at
  intro challenge hchallenge
  obtain ⟨i, hi, rfl⟩ := exists_draw_of_firstUnused hchallenge
  have hfresh := not_mem_of_firstUnused hchallenge
  apply hinsert _ _ ⟨i, hi, rfl⟩ hfresh
  rw [boundPasskeyChallenges_sessions]
  exact hbound

omit hR in
theorem recordPasskeyChallengeFailure_moves (hupdate : PasskeyUpdate R)
    (challenge : PasskeyChallengeRow) :
    Exec.Moves R (recordPasskeyChallengeFailure challenge) := by
  unfold recordPasskeyChallengeFailure
  split
  · exact Exec.Moves.update fun db => hdelete db _
  · exact Exec.Moves.update fun db => hupdate db _ _ fun _ => ⟨rfl, rfl, rfl⟩

omit hdelete in
theorem verifyPasskeyAssertion_moves (hcredentials : ∀ (db : Db) (rows : List PasskeyCredentialRow),
      R db { db with passkeyCredentials := rows }) (credential challenge accountId : String)
    (now : Nat) : Exec.Moves R (verifyPasskeyAssertion env credential challenge accountId now) := by
  unfold verifyPasskeyAssertion
  apply hR.bind (hR.inspect _)
  intro found
  split
  · exact hR.ret _
  · apply hR.bind (hR.inspect _)
    intro _
    apply hR.bind
    · exact Exec.Moves.update fun db => hcredentials db _
    · exact fun _ => hR.ret _

theorem storeCredential_moves (hupdate : PasskeyUpdate R)
    (hcredentials : ∀ (db : Db) (rows : List PasskeyCredentialRow),
      R db { db with passkeyCredentials := rows })
    (challenge : PasskeyChallengeRow) (accountId name : String) (now : Nat)
    (verified : VerifiedRegistration) :
    Exec.Moves R (storeCredential random challenge accountId name now verified) := by
  unfold storeCredential
  apply hR.bind (hR.require _ _)
  intro publicId
  apply hR.bind (hR.inspect _)
  intro taken
  split
  · apply hR.bind (recordPasskeyChallengeFailure_moves hdelete hupdate _)
    exact fun _ => hR.ret _
  · apply hR.bind
    · exact Exec.Moves.update fun db => hcredentials db _
    intro _
    apply hR.bind
    · exact Exec.Moves.update fun db => hdelete db _
    · exact fun _ => hR.ret _

theorem beginPasskeyRegistration_moves (hsession : SessionStatements R)
    (hinsert : PasskeyInsertion env random R) (clock : Option Nat) (token : String) :
    Exec.Moves R (beginPasskeyRegistration env random clock token) := by
  unfold beginPasskeyRegistration requirePasskeyConfiguration readClock
  apply hR.bind (hR.ensure _ _)
  intro _
  apply hR.bind (hR.require _ _)
  intro now
  apply hR.bind _ fun _ => hR.ofExcept _
  apply hR.atomically
  intro db
  apply hR.bind_at (validSessionRow_moves hR hsession _ _ _ db)
  intro found db' hfound
  split
  · exact hR.refl _
  · split
    · exact hR.refl _
    · show R db' ((Exec.ensure _ _ >>= _) db').2
      apply hR.ensure_bind_at
      intro _
      obtain ⟨row, hrow, hdigest, hid⟩ := validSessionRow_eq_ok hfound
      apply hR.bind_at
      · apply createPasskeyChallenge_moves_at hR hdelete hinsert
        intro digest hmem
        cases hmem
        exact ⟨row, hrow, hdigest, by rw [hid]⟩
      · exact fun _ _ _ => hR.refl _

theorem beginPasskeyStepUp_moves (hsession : SessionStatements R)
    (hinsert : PasskeyInsertion env random R) (clock : Option Nat) (token : String) :
    Exec.Moves R (beginPasskeyStepUp env random clock token) := by
  unfold beginPasskeyStepUp requirePasskeyConfiguration readClock
  apply hR.bind (hR.ensure _ _)
  intro _
  apply hR.bind (hR.require _ _)
  intro now
  apply hR.bind _ fun _ => hR.ofExcept _
  apply hR.atomically
  intro db
  apply hR.bind_at (validSessionRow_moves hR hsession _ _ _ db)
  intro found db' hfound
  split
  · exact hR.refl _
  · show R db' ((Exec.ensure _ _ >>= _) db').2
    apply hR.ensure_bind_at
    intro _
    obtain ⟨row, hrow, hdigest, hid⟩ := validSessionRow_eq_ok hfound
    apply hR.bind_at
    · apply createPasskeyChallenge_moves_at hR hdelete hinsert
      intro digest hmem
      cases hmem
      exact ⟨row, hrow, hdigest, by rw [hid]⟩
    · exact fun _ _ _ => hR.refl _

theorem beginPasskeyLogin_moves (hinsert : PasskeyInsertion env random R) (clock : Option Nat) :
    Exec.Moves R (beginPasskeyLogin env random clock) := by
  unfold beginPasskeyLogin requirePasskeyConfiguration readClock
  apply hR.bind (hR.ensure _ _)
  intro _
  apply hR.bind (hR.require _ _)
  intro now
  apply hR.atomically
  intro db
  apply createPasskeyChallenge_moves_at hR hdelete hinsert
  intro digest hmem
  cases hmem

end Passkeys

/-! ## Rates -/

theorem reserveAttempt_rows (policies : List RatePolicy) (bucket : RateScope → RateBucket)
    (now : Nat) (rows : List RateRow) :
    (reserveAttempt policies bucket now rows).2 = trimRates (purgeRates policies now rows) ∨
      (reserveAttempt policies bucket now rows).2 =
        policies.foldl (countAttempt bucket now) (trimRates (purgeRates policies now rows)) := by
  have hite : ∀ (c : Prop) [Decidable c] (x y : Nat × List RateRow),
      (if c then x else y).2 = y.2 ∨ (if c then x else y).2 = x.2 := by
    intro c _ x y
    split
    · exact Or.inr rfl
    · exact Or.inl rfl
  exact hite _ _ _

theorem reserve_moves (hR : Exec.Composes R) (hrates : RateStatements env R)
    (policies : List RatePolicy) (bucket : Db → RateScope → RateBucket) (now : Nat)
    (haccounts : ∀ (db : Db) (rows : List RateRow),
      bucket { db with rateLimits := rows } = bucket db)
    (hcount : ∀ (db : Db) (policy : RatePolicy),
      R db { db with rateLimits := countAttempt (bucket db) now db.rateLimits policy }) :
    Exec.Moves R (reserve policies bucket now) := by
  have hloop : ∀ (db : Db) (rows : List RateRow), R { db with rateLimits := rows }
      { db with rateLimits := policies.foldl (countAttempt (bucket db) now) rows } := by
    intro db
    induction policies with
    | nil => exact fun rows => hR.refl _
    | cons policy policies ih =>
        intro rows
        have hfirst := hcount { db with rateLimits := rows } policy
        rw [haccounts] at hfirst
        exact hR.trans hfirst (ih _)
  have htrim : ∀ db : Db,
      R db { db with rateLimits := trimRates (purgeRates policies now db.rateLimits) } :=
    fun db => hR.trans (hrates.filter db _) (hrates.filter _ _)
  unfold reserve
  apply hR.bind (hR.inspect _)
  intro retryAfter
  apply hR.bind _ fun _ => hR.ret _
  apply Exec.Moves.update
  intro db
  rcases reserveAttempt_rows policies (bucket db) now db.rateLimits with hrows | hrows
  · rw [hrows]
    exact htrim db
  · rw [hrows]
    exact hR.trans (htrim db) (hloop db _)

theorem checkLoginRate_moves (hR : Exec.Composes R) (hrates : RateStatements env R)
    (clock : Option Nat) (email clientIp : String) :
    Exec.Moves R (checkLoginRate env clock email clientIp) := by
  intro db
  unfold checkLoginRate requireEmail requireIp readClock raiseRateLimited
  apply hR.require_bind_at
  intro canonical hcanonical
  apply hR.require_bind_at
  intro ip _
  apply hR.require_bind_at
  intro now _
  refine hR.bind ?_ (fun _ => hR.ensure _ _) db
  apply hR.atomically
  apply reserve_moves hR hrates
  · exact fun _ _ => rfl
  · exact fun db policy => hrates.login db email canonical ip now policy hcanonical

theorem checkPasskeyLoginRate_moves (hR : Exec.Composes R) (hrates : RateStatements env R)
    (clock : Option Nat) (clientIp : String) :
    Exec.Moves R (checkPasskeyLoginRate env clock clientIp) := by
  unfold checkPasskeyLoginRate requireIp readClock raiseRateLimited
  apply hR.bind (hR.require _ _)
  intro ip
  apply hR.bind (hR.require _ _)
  intro now
  apply hR.bind _ fun _ => hR.ensure _ _
  apply hR.atomically
  apply reserve_moves hR hrates
  · exact fun _ _ => rfl
  · exact fun db policy => hrates.passkey db ip now policy

/-! ## The operations beside the enrollment -/

/-- The statements of the operations that leave accounts, recovery codes and login
challenges alone. -/
structure SideStatements (env : Env) (call : Call) (R : Db → Db → Prop) : Prop where
  composes : Exec.Composes R
  rules : RuleStatements call.op.Writes R
  rates : RateStatements env R
  session : SessionStatements R
  issue : IssueStatement env call.random R
  passkey : PasskeyStatements env call.random R

def Op.keepsEnrollment : Op → Bool
  | .createAccount .. | .syncAccounts .. | .setRole .. | .setPasswordChangeRequired ..
  | .resetTotp _ | .rotateTotp _ | .regenerateRecoveryCodes .. | .verifyTotp ..
  | .deleteAccount _ | .provisionActiveAccount .. | .bootstrapActiveAccounts _
  | .createPendingChallenge _ | .beginTotpEnrollment _ | .confirmTotpEnrollment ..
  | .completeTotpChallenge .. | .completeRecoveryChallenge .. | .revokeSessions _ => false
  | _ => true

/-- Every statement that some operation executes. -/
structure AllStatements (env : Env) (call : Call) (R : Db → Db → Prop) : Prop
    extends SideStatements env call R where
  enrollment : EnrollmentStatements env call.random R

/-! ## Which tables an operation writes -/

def Op.writesRates : Op → Bool
  | .checkLoginRate .. | .recordLoginResult .. | .checkPasskeyLoginRate _
  | .recordPasskeyLoginResult .. | .deleteAccount _ => true
  | _ => false

/-- The operations that read a session by its token. -/
def Op.usesSession : Op → Bool
  | .authenticateSession .. | .markStepUp _ | .requireStepUp _ | .beginPasskeyRegistration _
  | .completePasskeyRegistration .. | .beginPasskeyStepUp _ | .completePasskeyStepUp .. => true
  | _ => false

def Op.issuesSession : Op → Bool
  | .confirmTotpEnrollment .. | .completeTotpChallenge .. | .completeRecoveryChallenge ..
  | .issueVerifiedPasskeySession .. | .completePasskeyLogin .. => true
  | _ => false

/-- The operations that end sessions by name, or the sessions of an account. -/
def Op.revokesSessions : Op → Bool
  | .setRole .. | .setPasswordChangeRequired .. | .resetTotp _ | .rotateTotp _
  | .regenerateRecoveryCodes .. | .deleteAccount _ | .bootstrapActiveAccounts _
  | .beginTotpEnrollment _ | .revokeSession _ | .revokeSessionById .. | .revokeSessions _ => true
  | _ => false

def Op.listsSessions : Op → Bool
  | .listSessions .. => true
  | _ => false

def Op.dropsSessions (op : Op) : Bool := op.issuesSession || op.revokesSessions || op.listsSessions

/-- The operations that check a second factor under a login challenge. -/
def Op.guesses : Op → Bool
  | .confirmTotpEnrollment .. | .completeTotpChallenge .. | .completeRecoveryChallenge .. => true
  | _ => false

def Op.createsChallenge : Op → Bool
  | .createPendingChallenge _ => true
  | _ => false

def Op.beginsPasskey : Op → Bool
  | .beginPasskeyRegistration _ | .beginPasskeyLogin | .beginPasskeyStepUp _ => true
  | _ => false

/-- The operations that check a passkey under a passkey challenge. -/
def Op.answersPasskey : Op → Bool
  | .completePasskeyRegistration .. | .verifyPasskeyLogin .. | .completePasskeyLogin ..
  | .completePasskeyStepUp .. => true
  | _ => false

def Op.writesCredentials : Op → Bool
  | .deletePasskey .. => true
  | op => op.answersPasskey

def Op.storesCodes : Op → Bool
  | .rotateTotp _ | .regenerateRecoveryCodes .. | .provisionActiveAccount ..
  | .bootstrapActiveAccounts _ | .confirmTotpEnrollment .. => true
  | _ => false

def Op.deletesAccount : Op → Bool
  | .deleteAccount _ => true
  | _ => false

def Op.writesRules : Op → Bool
  | .mailRules _ => true
  | _ => false

/-- The statements of one operation: those on a table that it does not write are left out. -/
structure OpStatements (env : Env) (call : Call) (R : Db → Db → Prop) : Prop where
  composes : Exec.Composes R
  rules : call.op.writesRules = true → RuleStatements call.op.Writes R
  credentials : call.op.writesCredentials = true →
    ∀ (db : Db) (rows : List PasskeyCredentialRow), R db { db with passkeyCredentials := rows }
  rates : call.op.writesRates = true → RateStatements env R
  sessions : call.op.usesSession = true → SessionStatements R
  dropSessions : call.op.dropsSessions = true →
    ∀ (db : Db) (condition : SessionRow → Bool), R db (db.deleteSessions condition)
  issue : call.op.issuesSession = true → IssueStatement env call.random R
  updatePasskey : call.op.answersPasskey = true → PasskeyUpdate R
  insertPasskey : call.op.beginsPasskey = true → PasskeyInsertion env call.random R
  dropPasskeys : ∀ (db : Db) (condition : PasskeyChallengeRow → Bool),
    R db (db.deletePasskeyChallenges condition)
  updateAccounts : call.op.keepsEnrollment = false →
    ∀ (db : Db) (condition : AccountRow → Bool) (set : AccountRow → AccountRow),
      KeepsKeys set → R db (db.updateAccounts condition set)
  insertAccount : call.op.keepsEnrollment = false →
    ∀ (db : Db) (row : AccountRow), R db (db.insertAccount row)
  deleteAccount : call.op.deletesAccount = true →
    ∀ (db : Db) (accountId : String), R db (db.deleteAccountRow accountId)
  dropCodes : call.op.keepsEnrollment = false → ∀ (db : Db) (keep : RecoveryCodeRow → Bool),
    R db { db with recoveryCodes := db.recoveryCodes.filter keep }
  storeCode : call.op.storesCodes = true → ∀ (db : Db) (row : RecoveryCodeRow),
    R db { db with recoveryCodes := db.recoveryCodes ++ [row] }
  dropPending : call.op.keepsEnrollment = false →
    ∀ (db : Db) (condition : PendingChallengeRow → Bool), R db (db.deletePending condition)
  updatePending : call.op.guesses = true →
    ∀ (db : Db) (digest : Digest) (set : PendingChallengeRow → PendingChallengeRow),
      (∀ row, (set row).challengeDigest = row.challengeDigest ∧
        (set row).accountId = row.accountId) →
      R db (db.updatePending digest set)
  insertPending : call.op.createsChallenge = true →
    ∀ (db : Db) (row : PendingChallengeRow),
      (∃ i < allocationAttempts,
        row.challengeDigest = opaqueDigest env.challengeDigest (call.random.token i).text) →
      row.challengeDigest ∉ db.pendingChallenges.map (·.challengeDigest) →
      R db (db.insertPending row)

theorem AllStatements.toOp {call : Call} (h : AllStatements env call R) :
    OpStatements env call R where
  composes := h.composes
  rules _ := h.rules
  credentials _ := h.passkey.credentials
  rates _ := h.rates
  sessions _ := h.session
  dropSessions _ := h.session.delete
  issue _ := h.issue
  updatePasskey _ := h.passkey.update
  insertPasskey _ := h.passkey.insert
  dropPasskeys := h.passkey.delete
  updateAccounts _ := h.enrollment.updateAccounts
  insertAccount _ := h.enrollment.insertAccount
  deleteAccount _ := h.enrollment.deleteAccount
  dropCodes _ db _ := h.enrollment.codes db _
  storeCode _ db _ := h.enrollment.codes db _
  dropPending _ := h.enrollment.delete
  updatePending _ := h.enrollment.update
  insertPending _ := h.enrollment.insert

theorem Op.flags_of_keepsEnrollment {op : Op} (h : op.keepsEnrollment = true) :
    op.storesCodes = false ∧ op.guesses = false ∧ op.createsChallenge = false ∧
      op.deletesAccount = false := by
  cases op <;> first | exact ⟨rfl, rfl, rfl, rfl⟩ | exact absurd h Bool.false_ne_true

/-- An operation that keeps the enrollment needs no statement about it. -/
theorem SideStatements.toOp {call : Call} (h : SideStatements env call R)
    (hop : call.op.keepsEnrollment = true) : OpStatements env call R := by
  obtain ⟨hstores, hguesses, hcreates, hdeletes⟩ := Op.flags_of_keepsEnrollment hop
  have hnot : ¬ call.op.keepsEnrollment = false := by
    rw [hop]
    nofun
  exact {
    composes := h.composes
    rules := fun _ => h.rules
    credentials _ := h.passkey.credentials
    rates := fun _ => h.rates
    sessions := fun _ => h.session
    dropSessions := fun _ => h.session.delete
    issue := fun _ => h.issue
    updatePasskey := fun _ => h.passkey.update
    insertPasskey := fun _ => h.passkey.insert
    dropPasskeys := h.passkey.delete
    updateAccounts := fun hkeeps => absurd hkeeps hnot
    insertAccount := fun hkeeps => absurd hkeeps hnot
    deleteAccount := fun hop => absurd (hdeletes.symm.trans hop) Bool.false_ne_true
    dropCodes := fun hkeeps => absurd hkeeps hnot
    storeCode := fun hop => absurd (hstores.symm.trans hop) Bool.false_ne_true
    dropPending := fun hkeeps => absurd hkeeps hnot
    updatePending := fun hop => absurd (hguesses.symm.trans hop) Bool.false_ne_true
    insertPending := fun hop => absurd (hcreates.symm.trans hop) Bool.false_ne_true }

section

variable {call : Call} (hops : OpStatements env call R)

include hops

theorem deleteAuthentication_moves (hdrops : call.op.dropsSessions = true)
    (henrollment : call.op.keepsEnrollment = false) (db : Db) (accountId : String) :
    R db (db.deleteAuthentication accountId) :=
  hops.composes.trans (hops.composes.trans (hops.dropPending henrollment db _)
    (hops.dropPasskeys _ _)) (hops.dropSessions hdrops _ _)

omit hops in
theorem released_keepsKeys (now : Nat) : KeepsKeys (·.released now) := fun _ => ⟨rfl, rfl⟩

theorem revokePendingChallenges_statements (henrollment : call.op.keepsEnrollment = false) (db : Db)
    (accountId : String) (now : Nat) : R db (db.revokePendingChallenges accountId now) := by
  unfold Db.revokePendingChallenges
  apply hops.composes.trans (hops.updateAccounts henrollment db _ _ (released_keepsKeys now))
  exact hops.composes.trans (hops.dropPending henrollment _ _) (hops.dropPasskeys _ _)

theorem deleteExpiredChallenges_moves (henrollment : call.op.keepsEnrollment = false) (db : Db)
    (now : Nat) : R db (db.deleteExpiredChallenges now) := by
  unfold Db.deleteExpiredChallenges
  apply hops.composes.trans (hops.updateAccounts henrollment db _ _ (released_keepsKeys now))
  exact hops.dropPending henrollment _ _

theorem storeRecoveryCodes_moves (hstores : call.op.storesCodes = true) (accountId : String)
    (codes : List String) (now : Nat) :
    Exec.Moves R (storeRecoveryCodes env accountId codes now) := by
  have hR := hops.composes
  apply hR.forM
  intro code
  unfold storeRecoveryCode requireRecoveryCode
  apply hR.bind (hR.require _ _)
  intro normalized
  apply hR.bind (hR.inspect _)
  intro present
  apply hR.bind (hR.ensure _ _)
  exact fun _ => Exec.Moves.update fun db => hops.storeCode hstores db _

theorem consumeTotp_moves (henrollment : call.op.keepsEnrollment = false) (row : AccountRow)
    (code : String) (now : Nat) : Exec.Moves R (consumeTotp env row code now) := by
  have hR := hops.composes
  unfold consumeTotp
  apply hR.bind (hR.ensure _ _)
  intro _
  apply hR.bind (hR.ofExcept _)
  intro counter
  split
  · exact hR.ret _
  · split
    · exact hR.ret _
    · apply hR.bind (hR.inspect _)
      intro changed
      apply hR.bind
      · exact Exec.Moves.update fun db =>
          hops.updateAccounts henrollment db _ _ fun _ => ⟨rfl, rfl⟩
      · exact fun _ => hR.ret _

theorem revokeAfterChange_moves (hdrops : call.op.dropsSessions = true)
    (henrollment : call.op.keepsEnrollment = false) (accountId : String) (revokeSessions : Bool)
    (later : Option Nat) : Exec.Moves R (revokeAfterChange accountId revokeSessions later) := by
  have hR := hops.composes
  unfold revokeAfterChange revokeAccountAuthentication revokePendingChallenges requiredAccount
    readClock
  repeat' with_reducible first
    | exact hR.ret _
    | exact hR.inspect _
    | exact hR.require _ _
    | apply hR.bind
    | intro _
    | split
  all_goals first
    | exact Exec.Moves.update fun db =>
        revokePendingChallenges_statements hops henrollment db _ _
    | exact Exec.Moves.update fun db => hops.dropSessions hdrops db _

theorem importAccount_moves (hstores : call.op.storesCodes = true)
    (hdrops : call.op.dropsSessions = true) (henrollment : call.op.keepsEnrollment = false)
    (now index : Nat) (record : PreparedAccount) :
    Exec.Moves R (importAccount env call.random now index record) := by
  have hR := hops.composes
  unfold importAccount upsertAccount newAccountId requiredAccount
  dsimp only
  repeat' with_reducible first
    | exact storeRecoveryCodes_moves hops hstores _ _ _
    | exact hR.ret _
    | exact hR.inspect _
    | exact hR.require _ _
    | apply hR.bind
    | intro _
    | split
  all_goals first
    | exact Exec.Moves.update fun db => hops.insertAccount henrollment db _
    | exact Exec.Moves.update fun db =>
        hops.updateAccounts henrollment db _ _ fun _ => ⟨rfl, rfl⟩
    | exact Exec.Moves.update fun db => hops.dropCodes henrollment db _
    | exact Exec.Moves.update fun db => deleteAuthentication_moves hops hdrops henrollment db _

theorem syncAccount_moves (henrollment : call.op.keepsEnrollment = false) (role : Role)
    (required : Bool) (now index : Nat) (canonical : String) :
    Exec.Moves R (syncAccount call.random role required now index canonical) := by
  have hR := hops.composes
  unfold syncAccount newAccountId requiredAccount
  apply hR.bind (hR.inspect _)
  intro found
  split
  · exact hR.ret _
  · apply hR.bind (hR.require _ _)
    intro accountId
    apply hR.bind
    · exact Exec.Moves.update fun db => hops.insertAccount henrollment db _
    · exact fun _ => hR.bind (hR.require _ _) fun _ => hR.ret _

theorem recordFailure_moves (hguesses : call.op.guesses = true)
    (henrollment : call.op.keepsEnrollment = false) {α : Type} (challenge : PendingChallengeRow)
    (later : Option Nat) :
    Exec.Moves R (recordFailure challenge later : Store (Except AuthError α)) := by
  have hR := hops.composes
  unfold recordFailure recordChallengeFailure readClock
  repeat' with_reducible first
    | exact hR.ret _
    | exact hR.require _ _
    | apply hR.bind
    | intro _
    | split
  all_goals first
    | exact Exec.Moves.update fun db =>
        hops.updateAccounts henrollment db _ _ fun _ => ⟨rfl, rfl⟩
    | exact Exec.Moves.update fun db => hops.dropPending henrollment db _
    | exact Exec.Moves.update fun db => hops.updatePending hguesses db _ _ fun _ => ⟨rfl, rfl⟩

theorem createPendingChallenge_moves (hcreates : call.op.createsChallenge = true)
    (henrollment : call.op.keepsEnrollment = false) (clock : Option Nat) (email : String) :
    Exec.Moves R (createPendingChallenge env call.random clock email) := by
  have hR := hops.composes
  unfold createPendingChallenge requireEmail readClock
  apply hR.bind (hR.require _ _)
  intro canonical
  apply hR.bind (hR.require _ _)
  intro now
  apply hR.atomically
  intro db
  apply hR.require_bind_at
  intro row _
  apply hR.update_bind_at (deleteExpiredChallenges_moves hops henrollment db now)
  apply hR.update_bind_at
  · unfold Db.evictChallenges
    dsimp only
    split
    · exact hops.dropPending henrollment _ _
    · exact hR.refl _
  apply hR.require_bind_at
  intro token htoken
  obtain ⟨i, hi, rfl⟩ := exists_draw_of_firstUnused htoken
  have hfresh := not_mem_of_firstUnused htoken
  exact hops.insertPending hcreates _ _ ⟨i, hi, rfl⟩ hfresh

theorem side_allows (hop : call.op.keepsEnrollment = true) : Exec.Moves R (perform env call) := by
  have hR := hops.composes
  obtain ⟨op, random, clock, later⟩ := call
  cases op with
  | mailRules op => exact ruleStep_moves hR (hops.rules rfl) clock op fun _ h => h
  | beginPasskeyRegistration token =>
      exact replyWith_moves hR
        (beginPasskeyRegistration_moves hR hops.dropPasskeys (hops.sessions rfl)
          (hops.insertPasskey rfl) clock token)
  | beginPasskeyStepUp token =>
      exact replyWith_moves hR
        (beginPasskeyStepUp_moves hR hops.dropPasskeys (hops.sessions rfl) (hops.insertPasskey rfl)
          clock token)
  | beginPasskeyLogin =>
      exact replyWith_moves hR
        (beginPasskeyLogin_moves hR hops.dropPasskeys (hops.insertPasskey rfl) clock)
  | checkLoginRate email ip =>
      exact replyWith_moves hR (checkLoginRate_moves hR (hops.rates rfl) clock email ip)
  | checkPasskeyLoginRate ip =>
      exact replyWith_moves hR (checkPasskeyLoginRate_moves hR (hops.rates rfl) clock ip)
  | _ =>
      first
      | exact absurd hop Bool.false_ne_true
      | simp only [perform, replyWith, getAccount, resolveAccountId, listAccounts,
          recoveryCodeCount, authenticateSession, markStepUp, requireStepUp, revokeSession,
          listSessions, revokeSessionById, completePasskeyRegistration, listPasskeys,
          deletePasskey, verifyPasskeyLogin, issueVerifiedPasskeySession, completePasskeyLogin,
          completePasskeyStepUp, recordLoginResult, recordPasskeyLoginResult, clearBucket,
          requireIp, requireEmail, requirePasskeyConfiguration, requirePasskeyChallenge,
          passkeyChallengeRow, requireAccountById, validateAccountId, readClock]
      repeat' with_reducible first
        | exact validSessionRow_moves hR (hops.sessions rfl) _ _ _
        | exact issueSession_moves hR (hops.dropSessions rfl) (hops.issue rfl) _ _ _ _
        | exact recordPasskeyChallengeFailure_moves hops.dropPasskeys (hops.updatePasskey rfl) _
        | exact verifyPasskeyAssertion_moves hR (hops.credentials rfl) _ _ _ _
        | exact storeCredential_moves hR hops.dropPasskeys (hops.updatePasskey rfl)
            (hops.credentials rfl) _ _ _ _ _
        | exact hR.ret _
        | exact hR.inspect _
        | exact hR.ofExcept _
        | exact hR.ensure _ _
        | exact hR.require _ _
        | apply hR.bind
        | apply hR.atomically
        | intro _
        | split
      all_goals first
        | exact Exec.Moves.update fun db => (hops.rates rfl).filter db _
        | exact Exec.Moves.update fun db => hops.dropSessions rfl db _
        | exact Exec.Moves.update fun db =>
            (hops.sessions rfl).update db _ _ fun _ => ⟨rfl, rfl⟩
        | exact Exec.Moves.update fun db => hops.credentials rfl db _
        | exact Exec.Moves.update fun db => hops.dropPasskeys db _

/-- A relation that allows the statements of a call allows the call. -/
theorem perform_allows : Exec.Moves R (perform env call) := by
  have hR := hops.composes
  by_cases hop : call.op.keepsEnrollment = true
  · exact side_allows hops hop
  obtain ⟨op, random, clock, later⟩ := call
  cases op with
  | createPendingChallenge email =>
      exact hR.bind (createPendingChallenge_moves hops rfl rfl clock email) fun _ => hR.ret _
  | _ =>
      first
      | exact absurd rfl hop
      | simp only [perform, replyWith, createAccount, syncAccounts, setRole,
          setPasswordChangeRequired, resetTotp, rotateTotp, regenerateRecoveryCodes, verifyTotp,
          deleteAccount, provisionActiveAccount, bootstrapActiveAccounts, beginTotpEnrollment,
          confirmTotpEnrollment, activateEnrollment, completeTotpChallenge, acceptCounter,
          completeRecoveryChallenge, acceptRecoveryCode, revokeSessions,
          revokeAccountAuthentication, revokePendingChallenges, newAccountId, requiredAccount,
          challengeRow, requireRecoveryCode, requireEmail, requireAccountById, validateAccountId,
          readClock]
      repeat' with_reducible first
        | exact storeRecoveryCodes_moves hops rfl _ _ _
        | exact consumeTotp_moves hops rfl _ _ _
        | exact revokeAfterChange_moves hops rfl rfl _ _ _
        | exact importAccount_moves hops rfl rfl rfl _ _ _
        | exact syncAccount_moves hops rfl _ _ _ _ _
        | exact recordFailure_moves hops rfl rfl _ _
        | exact issueSession_moves hR (hops.dropSessions rfl) (hops.issue rfl) _ _ _ _
        | exact hR.ret _
        | exact hR.raise _
        | exact hR.inspect _
        | exact hR.ofExcept _
        | exact hR.ensure _ _
        | exact hR.require _ _
        | apply hR.bind
        | apply hR.atomically
        | apply hR.forEach
        | intro _
        | split
      all_goals first
        | exact Exec.Moves.update fun db => hops.updateAccounts rfl db _ _ fun _ => ⟨rfl, rfl⟩
        | exact Exec.Moves.update fun db => hops.dropCodes rfl db _
        | exact Exec.Moves.update fun db => hops.dropPending rfl db _
        | exact Exec.Moves.update fun db => (hops.rates rfl).filter db _
        | exact Exec.Moves.update fun db => hops.dropPasskeys db _
        | exact Exec.Moves.update fun db => hops.dropSessions rfl db _
        | exact Exec.Moves.update fun db => deleteAuthentication_moves hops rfl rfl db _
        | exact Exec.Moves.update fun db => hops.insertAccount rfl db _
        | exact Exec.Moves.update fun db => hops.deleteAccount rfl db _
        | exact Exec.Moves.update fun db => revokePendingChallenges_statements hops rfl db _ _

end

theorem side_moves {call : Call} (hside : SideStatements env call R)
    (hop : call.op.keepsEnrollment = true) : Exec.Moves R (perform env call) :=
  perform_allows (hside.toOp hop)

/-- A relation that allows every statement allows every call. -/
theorem perform_moves {call : Call} (hall : AllStatements env call R) :
    Exec.Moves R (perform env call) :=
  perform_allows hall.toOp

end MaddyWeb.Auth
