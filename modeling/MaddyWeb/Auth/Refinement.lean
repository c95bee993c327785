import MaddyWeb.Auth.Lifecycle
import MaddyWeb.Auth.Statements
import Mathlib.Data.List.Nodup

/-!
# The tables refine the life of a second factor

`Db.enrollment` reads the enrollment of an account from three tables.  `Refines`
says that a call moved every account by an allowed step, and that an account which
is new starts soundly.
-/

namespace MaddyWeb.Auth

open MaddyWeb.Library
open Enrollment (Event Step Sound)

def Db.enrollment (db : Db) (row : AccountRow) : Enrollment where
  state := row.enrollmentState
  nonce := row.totpNonce
  ciphertext := row.totpCiphertext
  owner := row.enrollmentChallengeDigest
  counter := row.totpLastCounter
  challenges := (db.pendingOf row.accountId).map (·.challengeDigest)
  codes := (db.codesOf row.accountId).length

/-- The keys and the foreign keys of the three tables. -/
structure Keyed (db : Db) : Prop where
  ids : (db.accounts.map (·.accountId)).Nodup
  emails : (db.accounts.map (·.canonicalEmail)).Nodup
  digests : (db.pendingChallenges.map (·.challengeDigest)).Nodup
  challenge_account : ∀ row ∈ db.pendingChallenges, row.accountId ∈ db.accounts.map (·.accountId)
  code_account : ∀ row ∈ db.recoveryCodes, row.accountId ∈ db.accounts.map (·.accountId)

structure Inv (db : Db) : Prop where
  keyed : Keyed db
  sound : ∀ row ∈ db.accounts, Sound (db.enrollment row)

theorem inv_empty : Inv {} := by
  constructor
  · constructor <;> simp
  · simp

/-- How an account of `db'` relates to those of `db`. -/
def Evolved (allowed : AccountRow → Event → Prop) (db db' : Db) (row' : AccountRow) : Prop :=
  ∃ row ∈ db.accounts, row.accountId = row'.accountId ∧
    row.canonicalEmail = row'.canonicalEmail ∧
    ∃ event, allowed row event ∧ Step event (db.enrollment row) (db'.enrollment row')

def Created (db db' : Db) (row' : AccountRow) : Prop :=
  row'.accountId ∉ db.accounts.map (·.accountId) ∧ Sound (db'.enrollment row')

structure Refines (allowed : AccountRow → Event → Prop) (db db' : Db) : Prop where
  keyed : Keyed db'
  accounts : ∀ row' ∈ db'.accounts, Evolved allowed db db' row' ∨ Created db db' row'

variable {db db' db'' : Db} {allowed allowed' : AccountRow → Event → Prop} {a : String}

theorem Refines.inv (h : Refines allowed db db') (hinv : Inv db) : Inv db' := by
  refine ⟨h.keyed, ?_⟩
  intro row' hrow'
  rcases h.accounts row' hrow' with ⟨row, hrow, -, -, event, -, hstep⟩ | ⟨-, hsound⟩
  · exact (hinv.sound row hrow).step hstep
  · exact hsound

theorem Refines.mono (h : Refines allowed db db')
    (himp : ∀ row ∈ db.accounts, ∀ event, allowed row event → allowed' row event) :
    Refines allowed' db db' := by
  refine ⟨h.keyed, ?_⟩
  intro row' hrow'
  rcases h.accounts row' hrow' with ⟨row, hrow, hid, hemail, event, hevent, hstep⟩ | hcreated
  · exact Or.inl ⟨row, hrow, hid, hemail, event, himp row hrow event hevent, hstep⟩
  · exact Or.inr hcreated

/-! ## Rows by key -/

theorem accountById_mem {row : AccountRow} (h : db.accountById a = some row) :
    row ∈ db.accounts ∧ row.accountId = a :=
  ⟨List.mem_of_find?_eq_some h, by simpa using List.find?_some h⟩

theorem accountByEmail_mem {row : AccountRow} {email : String}
    (h : db.accountByEmail email = some row) : row ∈ db.accounts ∧ row.canonicalEmail = email :=
  ⟨List.mem_of_find?_eq_some h, by simpa using List.find?_some h⟩

theorem accountById_eq_none (h : db.accountById a = none) :
    a ∉ db.accounts.map (·.accountId) := by
  intro hmem
  obtain ⟨row, hrow, hid⟩ := List.mem_map.mp hmem
  have hne := List.find?_eq_none.mp h row hrow
  simp [hid] at hne

theorem accountByEmail_eq_none {email : String} (h : db.accountByEmail email = none) :
    email ∉ db.accounts.map (·.canonicalEmail) := by
  intro hmem
  obtain ⟨row, hrow, hemail⟩ := List.mem_map.mp hmem
  have hne := List.find?_eq_none.mp h row hrow
  simp [hemail] at hne

theorem Keyed.account_unique (h : Keyed db) {row row' : AccountRow} (hrow : row ∈ db.accounts)
    (hrow' : row' ∈ db.accounts) (hid : row.accountId = row'.accountId) : row = row' :=
  List.inj_on_of_nodup_map h.ids hrow hrow' hid

theorem Keyed.email_unique (h : Keyed db) {row row' : AccountRow} (hrow : row ∈ db.accounts)
    (hrow' : row' ∈ db.accounts) (hemail : row.canonicalEmail = row'.canonicalEmail) :
    row = row' :=
  List.inj_on_of_nodup_map h.emails hrow hrow' hemail

theorem Keyed.challenge_unique (h : Keyed db) {row row' : PendingChallengeRow}
    (hrow : row ∈ db.pendingChallenges) (hrow' : row' ∈ db.pendingChallenges)
    (hdigest : row.challengeDigest = row'.challengeDigest) : row = row' :=
  List.inj_on_of_nodup_map h.digests hrow hrow' hdigest

theorem Keyed.accountById_of_mem (h : Keyed db) {row : AccountRow} (hrow : row ∈ db.accounts) :
    db.accountById row.accountId = some row := by
  cases hfind : db.accountById row.accountId with
  | none => exact absurd (List.mem_map_of_mem hrow) (accountById_eq_none hfind)
  | some found =>
      obtain ⟨hmem, hid⟩ := accountById_mem hfind
      rw [h.account_unique hmem hrow hid]

/-- An account that does not exist has no challenges and no codes. -/
theorem Keyed.pendingOf_eq_nil (h : Keyed db) (ha : a ∉ db.accounts.map (·.accountId)) :
    db.pendingOf a = [] := by
  unfold Db.pendingOf
  rw [List.filter_eq_nil_iff]
  intro row hrow heq
  have hid : row.accountId = a := by simpa using heq
  exact ha (hid ▸ h.challenge_account row hrow)

theorem Keyed.codesOf_eq_nil (h : Keyed db) (ha : a ∉ db.accounts.map (·.accountId)) :
    db.codesOf a = [] := by
  unfold Db.codesOf
  rw [List.filter_eq_nil_iff]
  intro row hrow heq
  have hid : row.accountId = a := by simpa using heq
  exact ha (hid ▸ h.code_account row hrow)

/-! ## Calls that leave the three tables alone -/

structure SameEnrollment (db db' : Db) : Prop where
  accounts : db'.accounts = db.accounts
  codes : db'.recoveryCodes = db.recoveryCodes
  pending : db'.pendingChallenges = db.pendingChallenges

theorem SameEnrollment.composes : Exec.Composes SameEnrollment where
  refl _ := ⟨rfl, rfl, rfl⟩
  trans h h' := ⟨h'.accounts.trans h.accounts, h'.codes.trans h.codes, h'.pending.trans h.pending⟩

theorem SameEnrollment.statements (env : Env) (call : Call) :
    SideStatements env call SameEnrollment where
  composes := SameEnrollment.composes
  rules := RuleStatements.of_any SameEnrollment.composes fun _ _ _ => ⟨rfl, rfl, rfl⟩
  rates := by constructor <;> intros <;> exact ⟨rfl, rfl, rfl⟩
  session := by constructor <;> intros <;> exact ⟨rfl, rfl, rfl⟩
  issue _ _ _ _ := ⟨rfl, rfl, rfl⟩
  passkey := by constructor <;> intros <;> exact ⟨rfl, rfl, rfl⟩

theorem SameEnrollment.enrollment (h : SameEnrollment db db') (row : AccountRow) :
    db'.enrollment row = db.enrollment row := by
  unfold Db.enrollment Db.pendingOf Db.codesOf
  rw [h.pending, h.codes]

theorem SameEnrollment.keyed (h : SameEnrollment db db') (hkeyed : Keyed db) : Keyed db' := by
  obtain ⟨haccounts, hcodes, hpending⟩ := h
  constructor
  · rw [haccounts]
    exact hkeyed.ids
  · rw [haccounts]
    exact hkeyed.emails
  · rw [hpending]
    exact hkeyed.digests
  · rw [haccounts, hpending]
    exact hkeyed.challenge_account
  · rw [haccounts, hcodes]
    exact hkeyed.code_account

theorem Refines.congr (h : Refines allowed db db') (hsame : SameEnrollment db' db'') :
    Refines allowed db db'' := by
  refine ⟨hsame.keyed h.keyed, ?_⟩
  intro row' hrow'
  rw [hsame.accounts] at hrow'
  unfold Evolved Created
  rw [hsame.enrollment]
  exact h.accounts row' hrow'

/-! ## Steps that change nothing but challenges and codes -/

theorem step_same {row : AccountRow} (h : Sound (db.enrollment row))
    (hsame : db'.enrollment row = db.enrollment row) :
    Step .quiet (db.enrollment row) (db'.enrollment row) := by
  rw [hsame]
  exact Step.quiet h.challenges_le h.owner_open (Nat.le_refl _)

theorem refines_refl (hinv : Inv db) (hquiet : ∀ row ∈ db.accounts, allowed row .quiet) :
    Refines allowed db db := by
  refine ⟨hinv.keyed, ?_⟩
  intro row hrow
  exact Or.inl ⟨row, hrow, rfl, rfl, .quiet, hquiet row hrow, step_same (hinv.sound row hrow) rfl⟩

theorem refines_same (hinv : Inv db) (hsame : SameEnrollment db db')
    (hquiet : ∀ row ∈ db.accounts, allowed row .quiet) : Refines allowed db db' :=
  (refines_refl hinv hquiet).congr hsame

/-! ## Calls that keep the set of accounts -/

/-- What a change of the challenge table keeps of a row. -/
def PendingChallengeRow.key (row : PendingChallengeRow) : Digest × String :=
  (row.challengeDigest, row.accountId)

theorem Keyed.of_map {set : AccountRow → AccountRow} (h : Keyed db) (hset : KeepsKeys set)
    (haccounts : db'.accounts = db.accounts.map set)
    (hpending : (db'.pendingChallenges.map (·.key)).Sublist (db.pendingChallenges.map (·.key)))
    (hcodes : ∀ row ∈ db'.recoveryCodes, row.accountId ∈ db.accounts.map (·.accountId)) :
    Keyed db' := by
  have hids : db'.accounts.map (·.accountId) = db.accounts.map (·.accountId) := by
    rw [haccounts, List.map_map]
    exact List.map_congr_left fun row _ => (hset row).1
  have hemails : db'.accounts.map (·.canonicalEmail) = db.accounts.map (·.canonicalEmail) := by
    rw [haccounts, List.map_map]
    exact List.map_congr_left fun row _ => (hset row).2
  have hdigests : ∀ rows : List PendingChallengeRow,
      rows.map (·.challengeDigest) = (rows.map (·.key)).map Prod.fst := by
    intro rows
    rw [List.map_map]
    rfl
  constructor
  · rw [hids]
    exact h.ids
  · rw [hemails]
    exact h.emails
  · rw [hdigests]
    apply List.Nodup.sublist (hpending.map Prod.fst)
    rw [← hdigests]
    exact h.digests
  · intro row hrow
    have hmem := hpending.subset (List.mem_map_of_mem hrow)
    obtain ⟨old, hold, hkey⟩ := List.mem_map.mp hmem
    have hid : old.accountId = row.accountId := congrArg Prod.snd hkey
    rw [hids, ← hid]
    exact h.challenge_account old hold
  · rw [hids]
    exact hcodes

theorem refines_map {set : AccountRow → AccountRow} (hinv : Inv db) (hset : KeepsKeys set)
    (haccounts : db'.accounts = db.accounts.map set)
    (hpending : (db'.pendingChallenges.map (·.key)).Sublist (db.pendingChallenges.map (·.key)))
    (hcodes : ∀ row ∈ db'.recoveryCodes, row.accountId ∈ db.accounts.map (·.accountId))
    (hstep : ∀ row ∈ db.accounts, ∃ event, allowed row event ∧
      Step event (db.enrollment row) (db'.enrollment (set row))) : Refines allowed db db' := by
  refine ⟨hinv.keyed.of_map hset haccounts hpending hcodes, ?_⟩
  intro row' hrow'
  rw [haccounts] at hrow'
  obtain ⟨row, hrow, rfl⟩ := List.mem_map.mp hrow'
  exact Or.inl ⟨row, hrow, (hset row).1.symm, (hset row).2.symm, hstep row hrow⟩

/-- A call that concerns the enrollment of the one account `a`. -/
theorem refines_single {set : AccountRow → AccountRow} (hinv : Inv db) (hset : KeepsKeys set)
    (hother : ∀ row ∈ db.accounts, row.accountId ≠ a → set row = row)
    (haccounts : db'.accounts = db.accounts.map set)
    (hpending : (db'.pendingChallenges.map (·.key)).Sublist (db.pendingChallenges.map (·.key)))
    (hpendingOf : ∀ b, b ≠ a → db'.pendingOf b = db.pendingOf b)
    (hcodesOf : ∀ b, b ≠ a → db'.codesOf b = db.codesOf b)
    (ha : a ∈ db.accounts.map (·.accountId))
    (hquiet : ∀ row ∈ db.accounts, row.accountId ≠ a → allowed row .quiet)
    (hstep : ∀ row ∈ db.accounts, row.accountId = a → ∃ event, allowed row event ∧
      Step event (db.enrollment row) (db'.enrollment (set row))) : Refines allowed db db' := by
  apply refines_map hinv hset haccounts hpending
  · intro row hrow
    by_cases hid : row.accountId = a
    · rw [hid]
      exact ha
    · have hmem : row ∈ db'.codesOf row.accountId := List.mem_filter.mpr ⟨hrow, by simp⟩
      rw [hcodesOf _ hid] at hmem
      exact hinv.keyed.code_account row (List.mem_filter.mp hmem).1
  · intro row hrow
    by_cases hid : row.accountId = a
    · exact hstep row hrow hid
    · refine ⟨.quiet, hquiet row hrow hid, ?_⟩
      rw [hother row hrow hid]
      apply step_same (hinv.sound row hrow)
      unfold Db.enrollment
      rw [hpendingOf _ hid, hcodesOf _ hid]

/-! ## New and deleted accounts -/

theorem refines_insert {new : AccountRow} (hinv : Inv db)
    (hid : new.accountId ∉ db.accounts.map (·.accountId))
    (hemail : new.canonicalEmail ∉ db.accounts.map (·.canonicalEmail))
    (haccounts : db'.accounts = db.accounts ++ [new])
    (hpending : db'.pendingChallenges = db.pendingChallenges)
    (hcodesOf : ∀ b, b ≠ new.accountId → db'.codesOf b = db.codesOf b)
    (hsound : Sound (db'.enrollment new)) (hquiet : ∀ row ∈ db.accounts, allowed row .quiet) :
    Refines allowed db db' := by
  have hpendingOf : ∀ b, db'.pendingOf b = db.pendingOf b := by
    intro b
    unfold Db.pendingOf
    rw [hpending]
  have hold : ∀ row ∈ db.accounts, row.accountId ≠ new.accountId := by
    intro row hrow heq
    exact hid (heq ▸ List.mem_map_of_mem hrow)
  refine ⟨⟨?_, ?_, ?_, ?_, ?_⟩, ?_⟩
  · rw [haccounts, List.map_append]
    simpa using hinv.keyed.ids.concat hid
  · rw [haccounts, List.map_append]
    simpa using hinv.keyed.emails.concat hemail
  · rw [hpending]
    exact hinv.keyed.digests
  · intro row hrow
    rw [hpending] at hrow
    rw [haccounts, List.map_append]
    exact List.mem_append_left _ (hinv.keyed.challenge_account row hrow)
  · intro row hrow
    rw [haccounts, List.map_append]
    by_cases heq : row.accountId = new.accountId
    · exact List.mem_append_right _ (by simp [heq])
    · have hmem : row ∈ db'.codesOf row.accountId := List.mem_filter.mpr ⟨hrow, by simp⟩
      rw [hcodesOf _ heq] at hmem
      exact List.mem_append_left _
        (hinv.keyed.code_account row (List.mem_filter.mp hmem).1)
  · intro row hrow
    rw [haccounts] at hrow
    rcases List.mem_append.mp hrow with hrow | hrow
    · refine Or.inl ⟨row, hrow, rfl, rfl, .quiet, hquiet row hrow, ?_⟩
      apply step_same (hinv.sound row hrow)
      unfold Db.enrollment
      rw [hpendingOf, hcodesOf _ (hold row hrow)]
    · obtain rfl := List.mem_singleton.mp hrow
      exact Or.inr ⟨hid, hsound⟩

theorem refines_delete (hinv : Inv db)
    (haccounts : db'.accounts = db.accounts.filter (·.accountId != a))
    (hpending : db'.pendingChallenges = db.pendingChallenges.filter (·.accountId != a))
    (hcodes : db'.recoveryCodes = db.recoveryCodes.filter (·.accountId != a))
    (hquiet : ∀ row ∈ db.accounts, allowed row .quiet) : Refines allowed db db' := by
  have hids : ∀ b, b ≠ a → b ∈ db.accounts.map (·.accountId) →
      b ∈ db'.accounts.map (·.accountId) := by
    intro b hb hmem
    obtain ⟨row, hrow, rfl⟩ := List.mem_map.mp hmem
    rw [haccounts]
    exact List.mem_map_of_mem (List.mem_filter.mpr ⟨hrow, by simpa using hb⟩)
  refine ⟨⟨?_, ?_, ?_, ?_, ?_⟩, ?_⟩
  · rw [haccounts]
    exact hinv.keyed.ids.sublist (List.filter_sublist.map _)
  · rw [haccounts]
    exact hinv.keyed.emails.sublist (List.filter_sublist.map _)
  · rw [hpending]
    exact hinv.keyed.digests.sublist (List.filter_sublist.map _)
  · intro row hrow
    rw [hpending] at hrow
    obtain ⟨hrow, hne⟩ := List.mem_filter.mp hrow
    exact hids _ (by simpa using hne) (hinv.keyed.challenge_account row hrow)
  · intro row hrow
    rw [hcodes] at hrow
    obtain ⟨hrow, hne⟩ := List.mem_filter.mp hrow
    exact hids _ (by simpa using hne) (hinv.keyed.code_account row hrow)
  · intro row hrow
    rw [haccounts] at hrow
    obtain ⟨hrow, hne⟩ := List.mem_filter.mp hrow
    have hne : row.accountId ≠ a := by simpa using hne
    refine Or.inl ⟨row, hrow, rfl, rfl, .quiet, hquiet row hrow, ?_⟩
    apply step_same (hinv.sound row hrow)
    unfold Db.enrollment Db.pendingOf Db.codesOf
    rw [hpending, hcodes, List.filter_filter, List.filter_filter]
    congr 2
    · apply List.filter_congr
      intro challenge _
      by_cases heq : challenge.accountId = row.accountId
      · simp [heq, hne]
      · simp [heq]
    · apply List.filter_congr
      intro code _
      by_cases heq : code.accountId = row.accountId
      · simp [heq, hne]
      · simp [heq]

/-! ## The statements on challenges and codes -/

theorem pendingOf_deletePending (deleted : PendingChallengeRow → Bool) (b : String) :
    (db.deletePending deleted).pendingOf b = (db.pendingOf b).filter fun row => !deleted row := by
  unfold Db.deletePending Db.pendingOf
  dsimp only
  rw [List.filter_filter, List.filter_filter]
  apply List.filter_congr
  intro row _
  rw [Bool.and_comm]

theorem pendingOf_deletePending_account (b : String) :
    (db.deletePending (·.accountId == a)).pendingOf b = if b = a then [] else db.pendingOf b := by
  unfold Db.deletePending Db.pendingOf
  dsimp only
  rw [List.filter_filter]
  split
  · next hb =>
      rw [List.filter_eq_nil_iff]
      intro row _ hrow
      simp [hb] at hrow
  · next hb =>
      apply List.filter_congr
      intro row _
      by_cases heq : row.accountId = b
      · simp [heq, hb]
      · simp [heq]

theorem codesOf_deleteCodes (b : String) :
    (db.deleteCodes a).codesOf b = if b = a then [] else db.codesOf b := by
  unfold Db.deleteCodes Db.codesOf
  dsimp only
  rw [List.filter_filter]
  split
  · next hb =>
      rw [List.filter_eq_nil_iff]
      intro row _ hrow
      simp [hb] at hrow
  · next hb =>
      apply List.filter_congr
      intro row _
      by_cases heq : row.accountId = b
      · simp [heq, hb]
      · simp [heq]

theorem deletePending_sublist (condition : PendingChallengeRow → Bool) :
    ((db.deletePending condition).pendingChallenges.map (·.key)).Sublist
      (db.pendingChallenges.map (·.key)) :=
  List.filter_sublist.map _

/-- The rows that `_store_recovery_codes_locked` appends. -/
theorem storeRecoveryCodes_eq_ok {env : Env} {codes : List String} {now : Nat} {u : PUnit}
    (h : storeRecoveryCodes env a codes now db = (.ok u, db')) :
    ∃ rows : List RecoveryCodeRow, rows.length = codes.length ∧ (∀ row ∈ rows, row.accountId = a) ∧
      db' = { db with recoveryCodes := db.recoveryCodes ++ rows } := by
  induction codes generalizing db with
  | nil =>
      cases h
      exact ⟨[], rfl, by simp, by simp⟩
  | cons code codes ih =>
      obtain ⟨_, db₁, hfirst, hrest⟩ := Exec.bind_eq_ok h
      unfold storeRecoveryCode requireRecoveryCode at hfirst
      obtain ⟨normalized, -, hfirst⟩ := Exec.require_bind_eq_ok hfirst
      rw [Exec.inspect_bind] at hfirst
      obtain ⟨-, hfirst⟩ := Exec.ensure_bind_eq_ok hfirst
      cases hfirst
      obtain ⟨rows, hlength, hrows, rfl⟩ := ih hrest
      refine ⟨⟨a, env.recoveryDigest a normalized, now⟩ :: rows, by simp [hlength], ?_, by simp⟩
      intro row hrow
      rcases List.mem_cons.mp hrow with rfl | hrow
      · rfl
      · exact hrows row hrow

theorem codesOf_append {rows : List RecoveryCodeRow} (hrows : ∀ row ∈ rows, row.accountId = a)
    (db : Db) (b : String) :
    ({ db with recoveryCodes := db.recoveryCodes ++ rows } : Db).codesOf b =
      db.codesOf b ++ if b = a then rows else [] := by
  unfold Db.codesOf
  dsimp only
  rw [List.filter_append]
  congr 1
  split
  · next hb =>
      rw [List.filter_eq_self]
      intro row hrow
      simp [hrows row hrow, hb]
  · next hb =>
      rw [List.filter_eq_nil_iff]
      intro row hrow
      have hne : a ≠ b := fun heq => hb heq.symm
      simp [hrows row hrow, hne]

theorem generateRecoveryCodes_length (random : Random) :
    (generateRecoveryCodes random).length = 10 := by
  unfold generateRecoveryCodes
  rw [List.length_map]
  exact random.recoveryCodes.count

/-! ## Steps that compose -/

/-- From a sound database, only allowed steps, and no account disappears. -/
def Move (allowed : AccountRow → Event → Prop) (db db' : Db) : Prop :=
  Inv db → Refines allowed db db' ∧
    ∀ id ∈ db.accounts.map (·.accountId), id ∈ db'.accounts.map (·.accountId)

/-- Two allowed steps of an account make an allowed step. -/
structure Closed (allowed : AccountRow → Event → Prop) : Prop where
  quiet : ∀ row, allowed row .quiet
  trans : ∀ {row₁ row₂ : AccountRow} {event₁ event₂ : Event} {e₁ e₂ e₃ : Enrollment},
    row₁.canonicalEmail = row₂.canonicalEmail → allowed row₁ event₁ → allowed row₂ event₂ →
    Step event₁ e₁ e₂ → Step event₂ e₂ e₃ → ∃ event, allowed row₁ event ∧ Step event e₁ e₃

theorem Move.composes (hclosed : Closed allowed) : Exec.Composes (Move allowed) where
  refl _ hinv := ⟨refines_refl hinv fun row _ => hclosed.quiet row, fun _ h => h⟩
  trans := by
    intro db₁ db₂ db₃ h₁ h₂ hinv
    obtain ⟨hrefines₁, hkept₁⟩ := h₁ hinv
    obtain ⟨hrefines₂, hkept₂⟩ := h₂ (hrefines₁.inv hinv)
    refine ⟨⟨hrefines₂.keyed, ?_⟩, fun id hid => hkept₂ id (hkept₁ id hid)⟩
    intro row₃ hrow₃
    rcases hrefines₂.accounts row₃ hrow₃ with
      ⟨row₂, hrow₂, hid₂, hemail₂, event₂, hallowed₂, hstep₂⟩ | ⟨hnew, hsound⟩
    · rcases hrefines₁.accounts row₂ hrow₂ with
        ⟨row₁, hrow₁, hid₁, hemail₁, event₁, hallowed₁, hstep₁⟩ | ⟨hnew, hsound⟩
      · have hboth := hclosed.trans hemail₁ hallowed₁ hallowed₂ hstep₁ hstep₂
        exact Or.inl ⟨row₁, hrow₁, hid₁.trans hid₂, hemail₁.trans hemail₂, hboth⟩
      · exact Or.inr ⟨hid₂ ▸ hnew, hsound.step hstep₂⟩
    · exact Or.inr ⟨fun hmem => hnew (hkept₁ _ hmem), hsound⟩

def Passive (_ : AccountRow) (event : Event) : Prop := event.Passive

theorem passive_closed : Closed Passive where
  quiet _ := Or.inl rfl
  trans _ h₁ h₂ hstep₁ hstep₂ := hstep₁.passive_trans hstep₂ h₁ h₂

def PassiveMove : Db → Db → Prop := Move Passive

theorem PassiveMove.composes : Exec.Composes PassiveMove := Move.composes passive_closed

theorem SameEnrollment.passive (h : SameEnrollment db db') : PassiveMove db db' := by
  intro hinv
  refine ⟨refines_same hinv h fun _ _ => Or.inl rfl, ?_⟩
  rw [h.accounts]
  exact fun _ hid => hid

/-- Challenges are deleted, and the enrollments that lose their owner are released. -/
theorem passive_of_release (released : AccountRow → Bool) (deleted : PendingChallengeRow → Bool)
    (now : Nat)
    (haccounts : db'.accounts =
      db.accounts.map fun row => if released row then row.released now else row)
    (hpending : db'.pendingChallenges = db.pendingChallenges.filter fun row => !deleted row)
    (hcodes : db'.recoveryCodes.Sublist db.recoveryCodes)
    (hstate : ∀ row ∈ db.accounts, released row = true → row.enrollmentState = .pending)
    (hcover : Inv db → ∀ row ∈ db.accounts, ∀ challenge ∈ db.pendingOf row.accountId,
      row.enrollmentChallengeDigest = some challenge.challengeDigest → deleted challenge = true →
      released row = true) : PassiveMove db db' := by
  intro hinv
  have hkeys : KeepsKeys fun row => if released row then row.released now else row := by
    intro row
    dsimp only
    split <;> exact ⟨rfl, rfl⟩
  have hpendingOf : ∀ b, db'.pendingOf b = (db.pendingOf b).filter fun row => !deleted row := by
    intro b
    rw [← pendingOf_deletePending]
    unfold Db.pendingOf
    rw [hpending]
    rfl
  have hcount : ∀ row ∈ db.accounts,
      ((db'.pendingOf row.accountId).map (·.challengeDigest)).length ≤ 5 := by
    intro row hrow
    have hle := (hinv.sound row hrow).challenges_le
    have hfilter := List.length_filter_le (fun c => !deleted c) (db.pendingOf row.accountId)
    rw [hpendingOf, List.length_map]
    simp only [Db.enrollment, List.length_map] at hle
    omega
  have hcodesOf : ∀ b, (db'.codesOf b).length ≤ (db.codesOf b).length :=
    fun b => (hcodes.filter _).length_le
  constructor
  · apply refines_map hinv hkeys haccounts
    · rw [hpending]
      exact List.filter_sublist.map _
    · exact fun row hrow => hinv.keyed.code_account row (hcodes.subset hrow)
    · intro row hrow
      by_cases hreleased : released row = true
      · refine ⟨.released, Or.inr rfl, ?_⟩
        rw [if_pos hreleased]
        exact Step.released (hstate row hrow hreleased) (hcount row hrow) (hcodesOf row.accountId)
      · refine ⟨.quiet, Or.inl rfl, ?_⟩
        rw [if_neg hreleased]
        apply Step.quiet (hcount row hrow) _ (hcodesOf row.accountId)
        intro digest hdigest
        have hopen := (hinv.sound row hrow).owner_open digest hdigest
        obtain ⟨challenge, hmem, rfl⟩ := List.mem_map.mp hopen
        apply List.mem_map_of_mem
        rw [hpendingOf]
        refine List.mem_filter.mpr ⟨hmem, ?_⟩
        by_contra hdeleted
        exact hreleased (hcover hinv row hrow challenge hmem hdigest (by simpa using hdeleted))
  · intro id hid
    obtain ⟨row, hrow, rfl⟩ := List.mem_map.mp hid
    rw [haccounts, List.map_map]
    exact List.mem_map.mpr ⟨row, hrow, (hkeys row).1⟩

theorem revokePendingChallenges_passive (a : String) (now : Nat) :
    PassiveMove db (db.revokePendingChallenges a now) := by
  apply passive_of_release (fun row => row.accountId == a && row.enrollmentState == .pending)
    (·.accountId == a) now
  · rfl
  · rfl
  · exact List.Sublist.refl _
  · intro row _ hreleased
    simp at hreleased
    exact hreleased.2
  · intro hinv row hrow challenge hmem howner hdeleted
    have hpending := (hinv.sound row hrow).pending_iff.mpr (by simp [Db.enrollment, howner])
    have hid : challenge.accountId = row.accountId := by simpa using (List.mem_filter.mp hmem).2
    have ha : challenge.accountId = a := by simpa using hdeleted
    simp [← ha, hid, show row.enrollmentState = .pending from hpending]

end MaddyWeb.Auth
