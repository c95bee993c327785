import MaddyWeb.Auth.Refinement
import MaddyWeb.Library.Fallible

/-!
# The enrollment steps of the account operations
-/

namespace MaddyWeb.Auth

open MaddyWeb.Library
open Enrollment (Event Step Sound)

/-- An event of one account; nothing happens to the others. -/
def At (a : String) (event : Event) (row : AccountRow) (e : Event) : Prop :=
  e = if row.accountId = a then event else .quiet

def Quiet (_ : AccountRow) (e : Event) : Prop := e = .quiet

variable {db db' : Db} {env : Env} {random : Random} {clock later : Option Nat} {a : String}

theorem at_self {row : AccountRow} {event : Event} (h : row.accountId = a) :
    At a event row event := by
  unfold At
  rw [if_pos h]

theorem at_other {row : AccountRow} {event : Event} (h : row.accountId ≠ a) :
    At a event row .quiet := by
  unfold At
  rw [if_neg h]

theorem requiredAccount_eq_ok {account : Account} (h : requiredAccount a db = (.ok account, db')) :
    db' = db := by
  unfold requiredAccount at h
  obtain ⟨row, -, h⟩ := Exec.require_bind_eq_ok h
  exact (Exec.ret_eq_ok h).2

/-! ## Creation -/

theorem newAccountId_fresh {index : Nat}
    (h : (firstUnused (random.accountId index) fun id => (db.accountById id.text).isSome).map
      (·.text) = some a) : a ∉ db.accounts.map (·.accountId) := by
  obtain ⟨id, hid, rfl⟩ := Option.map_eq_some_iff.mp h
  have hunused := firstUnused_eq_some hid
  exact accountById_eq_none (by simpa using hunused)

theorem enrollment_newAccountRow (hinv : Inv db) {email : String} {role : Role} {required : Bool}
    {now : Nat} (ha : a ∉ db.accounts.map (·.accountId)) (rows : List AccountRow) :
    ({ db with accounts := rows } : Db).enrollment (newAccountRow a email role required now) =
      Enrollment.unenrolled [] 0 := by
  have hpending := hinv.keyed.pendingOf_eq_nil ha
  have hcodes := hinv.keyed.codesOf_eq_nil ha
  unfold Db.pendingOf at hpending
  unfold Db.codesOf at hcodes
  simp [Db.enrollment, Db.pendingOf, Db.codesOf, newAccountRow, Enrollment.unenrolled, hpending,
    hcodes]

/-- The `INSERT` of an account whose address and identifier are new. -/
theorem insertAccount_refines (hinv : Inv db) {email : String} {role : Role} {required : Bool}
    {now : Nat} (ha : a ∉ db.accounts.map (·.accountId))
    (hemail : email ∉ db.accounts.map (·.canonicalEmail)) :
    Refines Quiet db (db.insertAccount (newAccountRow a email role required now)) := by
  have haccounts : (db.insertAccount (newAccountRow a email role required now)).accounts =
      db.accounts ++ [newAccountRow a email role required now] := rfl
  apply refines_insert hinv ha hemail haccounts rfl
  · exact fun _ _ => rfl
  · unfold Db.insertAccount
    rw [enrollment_newAccountRow hinv ha]
    exact Enrollment.sound_unenrolled (by simp)
  · exact fun _ _ => rfl

theorem createAccount_refines {email : String} {role : Role} {required : Bool} {account : Account}
    (hinv : Inv db) (h : createAccount random clock email role required db = (.ok account, db')) :
    Refines Quiet db db' := by
  unfold createAccount requireEmail readClock newAccountId at h
  obtain ⟨canonical, -, h⟩ := Exec.require_bind_eq_ok h
  obtain ⟨now, -, h⟩ := Exec.require_bind_eq_ok h
  have h := Exec.atomically_eq_ok h
  rw [Exec.inspect_bind] at h
  obtain ⟨hnew, h⟩ := Exec.ensure_bind_eq_ok h
  obtain ⟨accountId, hid, h⟩ := Exec.require_bind_eq_ok h
  rw [Exec.update_bind] at h
  obtain rfl := requiredAccount_eq_ok h
  exact insertAccount_refines hinv (newAccountId_fresh hid)
    (accountByEmail_eq_none (Option.isNone_iff_eq_none.mp hnew))

/-- An account that is inserted with its factor and ten recovery codes. -/
theorem insertActivated_refines (hinv : Inv db) {email : String} {role : Role} {required : Bool}
    {now : Nat} {nonce ciphertext : Bytes} {rows : List RecoveryCodeRow}
    (ha : a ∉ db.accounts.map (·.accountId))
    (hemail : email ∉ db.accounts.map (·.canonicalEmail))
    (hrows : ∀ row ∈ rows, row.accountId = a) (hcount : rows.length ≤ 10)
    (haccounts : db'.accounts = db.accounts ++
      [(newAccountRow a email role required now).activated nonce ciphertext])
    (hpending : db'.pendingChallenges = db.pendingChallenges)
    (hcodes : db'.recoveryCodes = db.recoveryCodes ++ rows) : Refines Quiet db db' := by
  have hcodesOf : ∀ b, db'.codesOf b = db.codesOf b ++ if b = a then rows else [] := by
    intro b
    rw [← codesOf_append hrows]
    unfold Db.codesOf
    rw [hcodes]
  apply refines_insert hinv ha hemail haccounts hpending
  · intro b hb
    have hb : b ≠ a := hb
    rw [hcodesOf, if_neg hb, List.append_nil]
  · have henrolled : db'.enrollment
        ((newAccountRow a email role required now).activated nonce ciphertext) =
        Enrollment.enrolled nonce ciphertext [] rows.length := by
      have hnone := hinv.keyed.pendingOf_eq_nil ha
      unfold Db.pendingOf at hnone
      simp [Db.enrollment, AccountRow.activated, newAccountRow, Enrollment.enrolled, hcodesOf,
        hinv.keyed.codesOf_eq_nil ha, Db.pendingOf, hpending, hnone]
    rw [henrolled]
    exact Enrollment.sound_enrolled _ _ (by simp) hcount
  · exact fun _ _ => rfl

theorem provisionActiveAccount_refines {email : String} {role : Role} {required : Bool}
    {result : Account × Bytes × List String} (hinv : Inv db)
    (h : provisionActiveAccount env random clock email role required db = (.ok result, db')) :
    Refines Quiet db db' := by
  unfold provisionActiveAccount requireEmail readClock newAccountId at h
  obtain ⟨canonical, -, h⟩ := Exec.require_bind_eq_ok h
  obtain ⟨now, -, h⟩ := Exec.require_bind_eq_ok h
  have h := Exec.atomically_eq_ok h
  rw [Exec.inspect_bind] at h
  obtain ⟨hnew, h⟩ := Exec.ensure_bind_eq_ok h
  obtain ⟨accountId, hid, h⟩ := Exec.require_bind_eq_ok h
  rw [Exec.update_bind] at h
  obtain ⟨_, db₁, hstore, h⟩ := Exec.bind_eq_ok h
  obtain ⟨rows, hlength, hrows, rfl⟩ := storeRecoveryCodes_eq_ok hstore
  obtain ⟨account, db₂, hrequired, h⟩ := Exec.bind_eq_ok h
  obtain rfl := requiredAccount_eq_ok hrequired
  obtain ⟨-, rfl⟩ := Exec.ret_eq_ok h
  rw [generateRecoveryCodes_length] at hlength
  exact insertActivated_refines hinv (newAccountId_fresh hid)
    (accountByEmail_eq_none (Option.isNone_iff_eq_none.mp hnew)) hrows (by omega) rfl rfl rfl

theorem mem_ids_insertAccount {new : AccountRow} (ha : a ∈ db.accounts.map (·.accountId)) :
    a ∈ (db.insertAccount new).accounts.map (·.accountId) := by
  unfold Db.insertAccount
  rw [List.map_append]
  exact List.mem_append_left _ ha

theorem insertAccount_passive {email : String} {role : Role} {required : Bool} {now : Nat}
    (ha : a ∉ db.accounts.map (·.accountId))
    (hemail : email ∉ db.accounts.map (·.canonicalEmail)) :
    PassiveMove db (db.insertAccount (newAccountRow a email role required now)) := by
  intro hinv
  refine ⟨(insertAccount_refines hinv ha hemail).mono fun _ _ _ h => Or.inl h, ?_⟩
  exact fun id hid => mem_ids_insertAccount hid

theorem syncAccount_passive {role : Role} {required : Bool} {now index : Nat}
    {canonical : String} :
    Exec.Commits PassiveMove (syncAccount random role required now index canonical) := by
  intro db account db' h
  unfold syncAccount newAccountId at h
  rw [Exec.inspect_bind] at h
  cases hfound : db.accountByEmail canonical with
  | some row =>
      rw [hfound] at h
      obtain ⟨-, rfl⟩ := Exec.ret_eq_ok h
      exact PassiveMove.composes.refl _
  | none =>
      rw [hfound] at h
      obtain ⟨accountId, hid, h⟩ := Exec.require_bind_eq_ok h
      rw [Exec.update_bind] at h
      obtain rfl := requiredAccount_eq_ok h
      exact insertAccount_passive (newAccountId_fresh hid) (accountByEmail_eq_none hfound)

theorem syncAccounts_passive {emails : List String} {role : Role} {required : Bool}
    {accounts : List Account}
    (h : syncAccounts random clock emails role required db = (.ok accounts, db')) :
    PassiveMove db db' := by
  unfold syncAccounts readClock at h
  obtain ⟨canonical, -, h⟩ := Exec.require_bind_eq_ok h
  obtain ⟨now, -, h⟩ := Exec.require_bind_eq_ok h
  exact PassiveMove.composes.forEach_commits (fun _ _ _ => syncAccount_passive) 0 db _ _
    (Exec.atomically_eq_ok h)

/-! ## Changes that revoke -/

theorem keepsKeys_where {condition : AccountRow → Bool} {set : AccountRow → AccountRow}
    (hset : KeepsKeys set) : KeepsKeys fun row => if condition row then set row else row := by
  intro row
  dsimp only
  split
  · exact hset row
  · exact ⟨rfl, rfl⟩

theorem mem_ids_updateAccounts {condition : AccountRow → Bool} {set : AccountRow → AccountRow}
    (hset : KeepsKeys set) (ha : a ∈ db.accounts.map (·.accountId)) :
    a ∈ (db.updateAccounts condition set).accounts.map (·.accountId) := by
  obtain ⟨row, hrow, rfl⟩ := List.mem_map.mp ha
  unfold Db.updateAccounts
  rw [List.map_map]
  exact List.mem_map.mpr ⟨row, hrow, (keepsKeys_where hset row).1⟩

/-- An `UPDATE` of columns that the enrollment does not read. -/
theorem updateAccounts_passive {condition : AccountRow → Bool} {set : AccountRow → AccountRow}
    (hset : ∀ (db : Db) (row : AccountRow), (set row).accountId = row.accountId ∧
      (set row).canonicalEmail = row.canonicalEmail ∧
      db.enrollment (set row) = db.enrollment row) :
    PassiveMove db (db.updateAccounts condition set) := by
  intro hinv
  have hkeys : KeepsKeys set := fun row => ⟨(hset db row).1, (hset db row).2.1⟩
  constructor
  · apply refines_map hinv (keepsKeys_where hkeys)
    · rfl
    · exact List.Sublist.refl _
    · exact hinv.keyed.code_account
    · intro row hrow
      refine ⟨.quiet, Or.inl rfl, ?_⟩
      have hsame : (db.updateAccounts condition set).enrollment
          (if condition row then set row else row) = db.enrollment row := by
        split
        · exact (hset _ row).2.2
        · rfl
      rw [hsame]
      exact step_same (hinv.sound row hrow) rfl
  · exact fun id hid => mem_ids_updateAccounts hkeys hid

theorem revokeAccountAuthentication_passive :
    Exec.Moves PassiveMove (revokeAccountAuthentication a later) := by
  have hR := PassiveMove.composes
  unfold revokeAccountAuthentication revokePendingChallenges readClock
  apply hR.bind
  · apply hR.bind (hR.require _ _)
    exact fun now => Exec.Moves.update fun db => revokePendingChallenges_passive a now
  · intro _
    apply hR.bind (hR.inspect _)
    intro count
    apply hR.bind
    · exact Exec.Moves.update fun db => SameEnrollment.passive ⟨rfl, rfl, rfl⟩
    · exact fun _ => hR.ret _

theorem revokeAfterChange_passive {revoke : Bool} :
    Exec.Moves PassiveMove (revokeAfterChange a revoke later) := by
  have hR := PassiveMove.composes
  unfold revokeAfterChange revokePendingChallenges readClock requiredAccount
  split
  · apply hR.bind revokeAccountAuthentication_passive
    exact fun _ => hR.bind (hR.require _ _) fun _ => hR.ret _
  · apply hR.bind
    · apply hR.bind (hR.require _ _)
      exact fun now => Exec.Moves.update fun db => revokePendingChallenges_passive a now
    · exact fun _ => hR.bind (hR.require _ _) fun _ => hR.ret _

theorem setRole_passive {role : Role} {revoke : Bool} :
    Exec.Moves PassiveMove (setRole clock later a role revoke) := by
  have hR := PassiveMove.composes
  unfold setRole validateAccountId readClock requireAccountById
  apply hR.bind (hR.require _ _)
  intro normalizedId
  apply hR.bind (hR.require _ _)
  intro now
  apply hR.atomically
  apply hR.bind (hR.require _ _)
  intro row
  apply hR.bind
  · exact Exec.Moves.update fun db => updateAccounts_passive fun _ _ => ⟨rfl, rfl, rfl⟩
  · exact fun _ => revokeAfterChange_passive

theorem setPasswordChangeRequired_passive {required revoke : Bool} :
    Exec.Moves PassiveMove (setPasswordChangeRequired clock later a required revoke) := by
  have hR := PassiveMove.composes
  unfold setPasswordChangeRequired validateAccountId readClock requireAccountById
  apply hR.bind (hR.require _ _)
  intro normalizedId
  apply hR.bind (hR.require _ _)
  intro now
  apply hR.atomically
  apply hR.bind (hR.require _ _)
  intro row
  apply hR.bind
  · exact Exec.Moves.update fun db => updateAccounts_passive fun _ _ => ⟨rfl, rfl, rfl⟩
  · exact fun _ => revokeAfterChange_passive

theorem revokeSessions_passive : Exec.Moves PassiveMove (revokeSessions later a) := by
  have hR := PassiveMove.composes
  unfold revokeSessions validateAccountId requireAccountById
  apply hR.bind (hR.require _ _)
  intro normalizedId
  apply hR.atomically
  apply hR.bind (hR.require _ _)
  exact fun _ => revokeAccountAuthentication_passive

/-! ## Changes of the factor -/

/-- The three tables after a change of the factor of `a`, its codes and its challenges. -/
theorem refines_factor (condition : AccountRow → Bool) (set : AccountRow → AccountRow)
    (rows : List RecoveryCodeRow) {event : Event} (hinv : Inv db) (hset : KeepsKeys set)
    (hwhere : ∀ row ∈ db.accounts, condition row = true ↔ row.accountId = a)
    (ha : a ∈ db.accounts.map (·.accountId)) (hrows : ∀ row ∈ rows, row.accountId = a)
    (haccounts : db'.accounts = (db.updateAccounts condition set).accounts)
    (hpending : db'.pendingChallenges = (db.deletePending (·.accountId == a)).pendingChallenges)
    (hcodes : db'.recoveryCodes = (db.deleteCodes a).recoveryCodes ++ rows)
    (hstep : ∀ row ∈ db.accounts, row.accountId = a → Step event (db.enrollment row)
      { db.enrollment (set row) with challenges := [], codes := rows.length }) :
    Refines (At a event) db db' := by
  have hpendingOf : ∀ b, db'.pendingOf b = if b = a then [] else db.pendingOf b := by
    intro b
    rw [← pendingOf_deletePending_account]
    unfold Db.pendingOf
    rw [hpending]
  have hcodesOf : ∀ b, db'.codesOf b = if b = a then rows else db.codesOf b := by
    intro b
    have happend := codesOf_append hrows (db.deleteCodes a) b
    rw [codesOf_deleteCodes] at happend
    unfold Db.codesOf at happend ⊢
    rw [hcodes, happend]
    split <;> simp
  apply refines_single hinv (keepsKeys_where hset) _ haccounts
  · rw [hpending]
    exact deletePending_sublist _
  · intro b hb
    rw [hpendingOf, if_neg hb]
  · intro b hb
    rw [hcodesOf, if_neg hb]
  · exact ha
  · exact fun row _ hne => at_other hne
  · intro row hrow hid
    refine ⟨event, at_self hid, ?_⟩
    have heq : db'.enrollment (set row) =
        { db.enrollment (set row) with challenges := [], codes := rows.length } := by
      have hid' : (set row).accountId = a := (hset row).1.trans hid
      unfold Db.enrollment
      rw [hpendingOf, hcodesOf, hid', if_pos rfl, if_pos rfl]
      rfl
    rw [if_pos ((hwhere row hrow).mpr hid), heq]
    exact hstep row hrow hid
  · intro row hrow hne
    exact if_neg fun hcondition => hne ((hwhere row hrow).mp hcondition)

theorem mem_ids_of_accountById {row : AccountRow} (h : db.accountById a = some row) :
    a ∈ db.accounts.map (·.accountId) := by
  obtain ⟨hmem, hid⟩ := accountById_mem h
  exact hid ▸ List.mem_map_of_mem hmem

theorem validateAccountId_bind_eq_ok {β : Type} {f : String → Store β} {b : β}
    (h : (validateAccountId a >>= f) db = (.ok b, db')) : f a db = (.ok b, db') := by
  unfold validateAccountId at h
  obtain ⟨normalized, hhex, h⟩ := Exec.require_bind_eq_ok h
  split at hhex
  · cases hhex
    exact h
  · cases hhex

theorem resetTotp_refines {account : Account} (hinv : Inv db)
    (h : resetTotp clock a db = (.ok account, db')) : Refines (At a .reset) db db' := by
  unfold resetTotp readClock requireAccountById at h
  have h := validateAccountId_bind_eq_ok h
  obtain ⟨now, -, h⟩ := Exec.require_bind_eq_ok h
  have h := Exec.atomically_eq_ok h
  obtain ⟨row, hrow, h⟩ := Exec.require_bind_eq_ok h
  simp only [Exec.update_bind] at h
  obtain rfl := requiredAccount_eq_ok h
  apply refines_factor (·.accountId == a) (·.released now) [] hinv fun _ => ⟨rfl, rfl⟩
  · intro other _
    simp
  · exact mem_ids_of_accountById hrow
  · simp
  · rfl
  · rfl
  · exact (List.append_nil _).symm
  · intro row _ hid
    exact Step.reset

theorem rotateTotp_refines {result : Bytes × List String} (hinv : Inv db)
    (h : rotateTotp env random clock a db = (.ok result, db')) :
    Refines (At a .installed) db db' := by
  unfold rotateTotp readClock requireAccountById at h
  have h := validateAccountId_bind_eq_ok h
  obtain ⟨now, -, h⟩ := Exec.require_bind_eq_ok h
  have h := Exec.atomically_eq_ok h
  obtain ⟨row, hrow, h⟩ := Exec.require_bind_eq_ok h
  simp only [Exec.update_bind] at h
  obtain ⟨_, db₁, hstore, h⟩ := Exec.bind_eq_ok h
  obtain ⟨rows, hlength, hrows, rfl⟩ := storeRecoveryCodes_eq_ok hstore
  rw [Exec.update_bind] at h
  obtain ⟨-, rfl⟩ := Exec.ret_eq_ok h
  rw [generateRecoveryCodes_length] at hlength
  apply refines_factor (·.accountId == a) (fun other => { other.activated (random.nonce 0)
    (env.encrypt (random.nonce 0) random.secret a row.canonicalEmail) with updatedAt := now })
    rows hinv fun _ => ⟨rfl, rfl⟩
  · intro other _
    simp
  · exact mem_ids_of_accountById hrow
  · exact hrows
  · rfl
  · rfl
  · rfl
  · intro row _ hid
    exact Step.installed (by simp) (by omega)

/-! ## Codes that are consumed -/

/-- What `_consume_totp_locked` did when it accepted a code. -/
theorem consumeTotp_eq_ok {row : AccountRow} {code : String} {now : Nat}
    (h : consumeTotp env row code now db = (.ok true, db')) :
    row.enrollmentState = .active ∧
      ∃ counter, matchingCounter env row code now = .ok (some counter) ∧
      row.totpLastCounter < counter ∧
      db' = db.updateAccounts (counterBelow row.accountId counter) (·.counted counter now) := by
  unfold consumeTotp at h
  obtain ⟨hactive, h⟩ := Exec.ensure_bind_eq_ok h
  obtain ⟨found, hfound, h⟩ := Exec.ofExcept_bind_eq_ok h
  refine ⟨by simpa using hactive, ?_⟩
  cases found with
  | none => cases h
  | some counter =>
      dsimp only at h
      split at h
      · cases h
      · next hcounter =>
          rw [Exec.inspect_bind, Exec.update_bind] at h
          obtain ⟨-, rfl⟩ := Exec.ret_eq_ok h
          exact ⟨counter, hfound, by omega, rfl⟩

/-- Below the accepted counter stands the row of the account alone. -/
theorem counterBelow_iff (hkeyed : Keyed db) {row : AccountRow} {counter : Nat}
    (hrow : row ∈ db.accounts) (hactive : row.enrollmentState = .active)
    (hcounter : row.totpLastCounter < counter) {other : AccountRow} (hother : other ∈ db.accounts) :
    counterBelow row.accountId counter other = true ↔ other.accountId = row.accountId := by
  constructor
  · intro h
    simp [counterBelow] at h
    exact h.1.1
  · intro hid
    rw [hkeyed.account_unique hother hrow hid]
    simp [counterBelow, hactive, hcounter]

theorem verifyTotp_refines {code : String} {u : Unit} (hinv : Inv db)
    (h : verifyTotp env clock a code db = (.ok u, db')) :
    ∃ now row counter, clock = some now ∧ db.accountById a = some row ∧
      matchingCounter env row code now = .ok (some counter) ∧
      Refines (At a (.accepted counter)) db db' := by
  unfold verifyTotp readClock requireAccountById at h
  have h := validateAccountId_bind_eq_ok h
  obtain ⟨now, hnow, h⟩ := Exec.require_bind_eq_ok h
  have h := Exec.atomically_eq_ok h
  obtain ⟨row, hrow, h⟩ := Exec.require_bind_eq_ok h
  obtain ⟨consumed, db₁, hconsume, h⟩ := Exec.bind_eq_ok h
  obtain ⟨htrue, rfl⟩ := Exec.ensure_eq_ok h
  rw [htrue] at hconsume
  obtain ⟨hactive, counter, hmatch, hcounter, rfl⟩ := consumeTotp_eq_ok hconsume
  obtain ⟨hmem, rfl⟩ := accountById_mem hrow
  refine ⟨now, row, counter, hnow, hrow, hmatch, ?_⟩
  have hbelow := @counterBelow_iff db hinv.keyed row counter hmem hactive hcounter
  have hkeys : KeepsKeys (·.counted counter now) := fun _ => ⟨rfl, rfl⟩
  apply refines_single hinv (keepsKeys_where hkeys)
  · intro other hother hne
    exact if_neg fun hcondition => hne ((hbelow hother).mp hcondition)
  · rfl
  · exact List.Sublist.refl _
  · exact fun _ _ => rfl
  · exact fun _ _ => rfl
  · exact List.mem_map_of_mem hmem
  · exact fun _ _ hne => at_other hne
  · intro other hother hid
    refine ⟨.accepted counter, at_self hid, ?_⟩
    rw [if_pos ((hbelow hother).mpr hid)]
    obtain rfl := hinv.keyed.account_unique hother hmem hid
    exact Step.accepted hactive hcounter (hinv.sound other hother).challenges_le
      (Nat.le_max_left _ _)

theorem regenerateRecoveryCodes_refines {code : String} {codes : List String} (hinv : Inv db)
    (h : regenerateRecoveryCodes env random clock a code db = (.ok codes, db')) :
    ∃ now row counter, clock = some now ∧ db.accountById a = some row ∧
      matchingCounter env row code now = .ok (some counter) ∧
      Refines (At a (.accepted counter)) db db' := by
  unfold regenerateRecoveryCodes readClock requireAccountById at h
  have h := validateAccountId_bind_eq_ok h
  obtain ⟨now, hnow, h⟩ := Exec.require_bind_eq_ok h
  have h := Exec.atomically_eq_ok h
  obtain ⟨row, hrow, h⟩ := Exec.require_bind_eq_ok h
  obtain ⟨consumed, db₁, hconsume, h⟩ := Exec.bind_eq_ok h
  obtain ⟨htrue, h⟩ := Exec.ensure_bind_eq_ok h
  rw [htrue] at hconsume
  obtain ⟨hactive, counter, hmatch, hcounter, rfl⟩ := consumeTotp_eq_ok hconsume
  dsimp only at h
  rw [Exec.update_bind] at h
  obtain ⟨_, db₂, hstore, h⟩ := Exec.bind_eq_ok h
  obtain ⟨rows, hlength, hrows, rfl⟩ := storeRecoveryCodes_eq_ok hstore
  rw [Exec.update_bind] at h
  obtain ⟨-, rfl⟩ := Exec.ret_eq_ok h
  rw [generateRecoveryCodes_length] at hlength
  obtain ⟨hmem, rfl⟩ := accountById_mem hrow
  refine ⟨now, row, counter, hnow, hrow, hmatch, ?_⟩
  apply refines_factor (counterBelow row.accountId counter) (·.counted counter now) rows hinv
    fun _ => ⟨rfl, rfl⟩
  · exact fun other hother => counterBelow_iff hinv.keyed hmem hactive hcounter hother
  · exact List.mem_map_of_mem hmem
  · exact hrows
  · rfl
  · rfl
  · rfl
  · intro other hother hid
    obtain rfl := hinv.keyed.account_unique hother hmem hid
    exact Step.accepted hactive hcounter (by simp) (hlength ▸ Nat.le_max_right _ _)

theorem deleteAccount_refines {u : Unit} (hinv : Inv db)
    (h : deleteAccount env a db = (.ok u, db')) : Refines Quiet db db' := by
  unfold deleteAccount requireAccountById at h
  have h := Exec.atomically_eq_ok (validateAccountId_bind_eq_ok h)
  obtain ⟨row, hrow, h⟩ := Exec.require_bind_eq_ok h
  rw [Exec.update_bind, Exec.inspect_bind, Exec.update_bind] at h
  obtain ⟨-, rfl⟩ := Exec.ensure_eq_ok h
  exact refines_delete hinv rfl rfl rfl fun _ _ => rfl

/-! ## Bootstrap -/

/-- The records install a factor in the accounts that they name. -/
def Importing (emails : List String) (row : AccountRow) (event : Event) : Prop :=
  event = .quiet ∨ (event = .installed ∧ row.canonicalEmail ∈ emails)

theorem importing_closed (emails : List String) : Closed (Importing emails) where
  quiet _ := Or.inl rfl
  trans := by
    intro row₁ row₂ event₁ event₂ e₁ e₂ e₃ hemail h₁ h₂ hstep₁ hstep₂
    have hboth := hstep₁.installed_trans hstep₂ (h₁.imp_right And.left) (h₂.imp_right And.left)
    refine ⟨_, ?_, hboth⟩
    split
    · next hinstalled =>
        rcases h₂ with rfl | ⟨-, hmem⟩
        · cases hinstalled
        · exact Or.inr ⟨rfl, hemail ▸ hmem⟩
    · exact h₁

theorem validateRecoveryCodeSet_length {values codes : List String}
    (h : validateRecoveryCodeSet values = .ok codes) : codes.length = 10 := by
  unfold validateRecoveryCodeSet at h
  by_cases hcount : values.length ≠ 10
  · rw [if_pos hcount] at h
    cases h
  rw [if_neg hcount] at h
  cases hmap : values.mapM normalizeRecoveryCode with
  | none =>
      rw [hmap] at h
      cases h
  | some normalized =>
      rw [hmap] at h
      dsimp only at h
      have hlength := Fallible.length_of_mapM_some hmap
      split at h
      · cases h
      · cases h
        omega

/-- The prepared records have ten codes each and the addresses of the given ones. -/
theorem prepareRecords_mem {seen : List String} {records : List AccountBootstrap}
    {prepared : List PreparedAccount} (h : prepareRecords seen records = .ok prepared) :
    ∀ record ∈ prepared, record.recoveryCodes.length = 10 ∧
      record.canonical ∈ records.filterMap fun given => Identity.canonicalizeEmail given.email := by
  induction records generalizing seen prepared with
  | nil =>
      cases h
      simp
  | cons first rest ih =>
      unfold prepareRecords at h
      cases hemail : Identity.canonicalizeEmail first.email with
      | none =>
          rw [hemail] at h
          cases h
      | some canonical =>
          simp only [hemail] at h
          split at h
          · cases h
          · split at h
            · next secret _ =>
                obtain ⟨codes, hcodes, h⟩ := Fallible.bind_eq_ok h
                obtain ⟨others, hothers, h⟩ := Fallible.bind_eq_ok h
                cases h
                intro record hrecord
                simp only [List.filterMap_cons, hemail]
                rcases List.mem_cons.mp hrecord with rfl | hrecord
                · exact ⟨validateRecoveryCodeSet_length hcodes, List.mem_cons_self⟩
                · obtain ⟨hcount, hmem⟩ := ih hothers record hrecord
                  exact ⟨hcount, List.mem_cons_of_mem _ hmem⟩
            · cases h

theorem Keyed.deletePending_fresh (h : Keyed db) (ha : a ∉ db.accounts.map (·.accountId)) :
    db.pendingChallenges.filter (fun row => !(row.accountId == a)) = db.pendingChallenges := by
  rw [List.filter_eq_self]
  intro row hrow
  have hne : row.accountId ≠ a := fun heq => ha (heq ▸ h.challenge_account row hrow)
  simp [hne]

theorem Keyed.deleteCodes_fresh (h : Keyed db) (ha : a ∉ db.accounts.map (·.accountId)) :
    db.recoveryCodes.filter (·.accountId != a) = db.recoveryCodes := by
  rw [List.filter_eq_self]
  intro row hrow
  have hne : row.accountId ≠ a := fun heq => ha (heq ▸ h.code_account row hrow)
  simp [hne]

theorem importAccount_commits {emails : List String} {now index : Nat} {record : PreparedAccount}
    (hcount : record.recoveryCodes.length = 10) (hemail : record.canonical ∈ emails) :
    Exec.Commits (Move (Importing emails)) (importAccount env random now index record) := by
  intro db account db' h hinv
  unfold importAccount at h
  obtain ⟨accountId, db₁, hid, h⟩ := Exec.bind_eq_ok h
  rw [Exec.update_bind] at h
  obtain ⟨_, db₂, hstore, h⟩ := Exec.bind_eq_ok h
  obtain ⟨rows, hlength, hrows, rfl⟩ := storeRecoveryCodes_eq_ok hstore
  rw [Exec.update_bind] at h
  obtain rfl := requiredAccount_eq_ok h
  unfold upsertAccount newAccountId at hid
  dsimp only at hid
  rw [Exec.inspect_bind] at hid
  cases hfound : db.accountByEmail record.canonical with
  | none =>
      rw [hfound] at hid
      obtain ⟨fresh, hfresh, hid⟩ := Exec.require_bind_eq_ok hid
      rw [Exec.update_bind] at hid
      obtain ⟨rfl, rfl⟩ := Exec.ret_eq_ok hid
      have hnew := newAccountId_fresh hfresh
      constructor
      · have himp : ∀ row ∈ db.accounts, ∀ event, Quiet row event → Importing emails row event :=
          fun _ _ _ hevent => Or.inl hevent
        refine Refines.mono ?_ himp
        apply insertActivated_refines hinv hnew (accountByEmail_eq_none hfound) hrows (by omega)
        · rfl
        · exact hinv.keyed.deletePending_fresh hnew
        · rw [← hinv.keyed.deleteCodes_fresh hnew]
          rfl
      · intro id hmem
        exact mem_ids_insertAccount hmem
  | some existing =>
      rw [hfound] at hid
      dsimp only at hid
      rw [Exec.update_bind] at hid
      obtain ⟨rfl, rfl⟩ := Exec.ret_eq_ok hid
      obtain ⟨hmem, hcanonical⟩ := accountByEmail_mem hfound
      constructor
      · have himp : ∀ row ∈ db.accounts, ∀ event, At existing.accountId .installed row event →
            Importing emails row event := by
          intro row hrow event hevent
          unfold At at hevent
          split at hevent
          · next hid =>
              refine Or.inr ⟨hevent, ?_⟩
              rw [hinv.keyed.account_unique hrow hmem hid, hcanonical]
              exact hemail
          · exact Or.inl hevent
        refine Refines.mono ?_ himp
        apply refines_factor (·.canonicalEmail == record.canonical)
          (·.imported record (random.nonce index) (env.encrypt (random.nonce index)
            record.secret existing.accountId record.canonical) now) rows hinv fun _ => ⟨rfl, rfl⟩
        · intro other hother
          constructor
          · intro heq
            have hsame : other.canonicalEmail = existing.canonicalEmail :=
              (beq_iff_eq.mp heq).trans hcanonical.symm
            rw [hinv.keyed.email_unique hother hmem hsame]
          · intro heq
            rw [hinv.keyed.account_unique hother hmem heq, hcanonical]
            exact beq_self_eq_true _
        · exact List.mem_map_of_mem hmem
        · exact hrows
        · rfl
        · rfl
        · rfl
        · intro other _ _
          exact Step.installed (by simp) (by omega)
      · exact fun id hmem => mem_ids_updateAccounts (fun _ => ⟨rfl, rfl⟩) hmem

/-- The addresses that the records name. -/
def bootstrapEmails (records : List AccountBootstrap) : List String :=
  records.filterMap fun record => Identity.canonicalizeEmail record.email

theorem bootstrapActiveAccounts_refines {records : List AccountBootstrap}
    {accounts : List Account} (hinv : Inv db)
    (h : bootstrapActiveAccounts env random clock records db = (.ok accounts, db')) :
    Refines (Importing (bootstrapEmails records)) db db' := by
  unfold bootstrapActiveAccounts readClock at h
  obtain ⟨prepared, hprepared, h⟩ := Exec.ofExcept_bind_eq_ok h
  obtain ⟨-, h⟩ := Exec.ensure_bind_eq_ok h
  obtain ⟨now, -, h⟩ := Exec.require_bind_eq_ok h
  have hpass : ∀ index, ∀ record ∈ prepared,
      Exec.Commits (Move (Importing (bootstrapEmails records)))
        (importAccount env random now index record) := by
    intro index record hrecord
    obtain ⟨hcount, hemail⟩ := prepareRecords_mem hprepared record hrecord
    exact importAccount_commits hcount hemail
  have hloop := (Move.composes (importing_closed _)).forEach_commits hpass 0
  exact (hloop db _ _ (Exec.atomically_eq_ok h) hinv).1

end MaddyWeb.Auth
