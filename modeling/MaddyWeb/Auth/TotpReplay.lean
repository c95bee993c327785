import MaddyWeb.Auth.Enrollment
import MaddyWeb.Auth.Provision

/-!
# No TOTP step is accepted twice

Between two replacements of the secret of an account, the counters that the four
operations accept go up, whatever the clock does.
-/

namespace MaddyWeb.Auth

open MaddyWeb.Library
open Enrollment (Event Step Sound)

variable {db : Db} {env : Env} {call : Call} {a : String}

/-- The operations that install or remove the secret of an account that exists. -/
def namesSecret (op : Op) (row : AccountRow) : Bool :=
  match op with
  | .resetTotp id => id == row.accountId
  | .rotateTotp id => id == row.accountId
  | .bootstrapActiveAccounts records => (bootstrapEmails records).contains row.canonicalEmail
  | _ => false

/-- The call replaced the secret of the account `a`: by one of the operations above, by the
start of an enrollment, or by the release of one.  The deletion of the account ends its
secret as well. -/
def replacesSecret (env : Env) (db : Db) (call : Call) (a : String) : Bool :=
  match db.accountById a, (db.after env call).accountById a with
  | some old, some new =>
      (returned env db call && namesSecret call.op old) ||
        (old.enrollmentState == .required && new.enrollmentState == .pending) ||
        (old.enrollmentState == .pending && new.enrollmentState == .required)
  | some _, none => true
  | none, _ => false

/-- No call of a run replaces the secret of `a`. -/
def keepsSecret (env : Env) (a : String) : Db → List Call → Bool
  | _, [] => true
  | db, call :: rest =>
      !replacesSecret env db call a && keepsSecret env a (db.after env call) rest

/-- The clock reading and the counter of an accepted code. -/
structure Acceptance where
  now : Nat
  counter : Nat
  deriving DecidableEq, Repr

def acceptance (env : Env) (db : Db) (call : Call) (a : String) : Option Acceptance := do
  let now ← call.clock
  let counter ← acceptedCounter env db call a
  some ⟨now, counter⟩

/-- What a run accepts for `a`, in order. -/
def acceptances (env : Env) (a : String) : Db → List Call → List Acceptance
  | _, [] => []
  | db, call :: rest =>
      (acceptance env db call a).toList ++ acceptances env a (db.after env call) rest

/-! ## One call -/

theorem acceptedCounter_inv {counter : Nat} (h : acceptedCounter env db call a = some counter) :
    ∃ now row code, call.clock = some now ∧ row ∈ db.accounts ∧ row.accountId = a ∧
      matchingCounter env row code now = .ok (some counter) := by
  unfold acceptedCounter at h
  obtain ⟨⟨id, counter'⟩, haccepted, h⟩ := Option.bind_eq_some_iff.mp h
  split at h
  · next hid =>
      cases h
      unfold accepted at haccepted
      obtain ⟨now, hnow, haccepted⟩ := Option.bind_eq_some_iff.mp haccepted
      obtain ⟨⟨row, code⟩, hchecked, haccepted⟩ := Option.bind_eq_some_iff.mp haccepted
      dsimp only at haccepted
      split at haccepted
      · unfold codeCounter at haccepted
        split at haccepted
        · next hmatch =>
            cases haccepted
            exact ⟨now, row, code, hnow, checkedCode_mem hchecked, hid, hmatch⟩
        · cases haccepted
      · cases haccepted
  · cases h

theorem acceptedCounter_window {now counter : Nat} (hclock : call.clock = some now)
    (h : acceptedCounter env db call a = some counter) :
    now / 30 ≤ counter + 1 ∧ counter ≤ now / 30 + 1 := by
  obtain ⟨now', row, code, hclock', -, -, hmatch⟩ := acceptedCounter_inv h
  rw [hclock] at hclock'
  cases hclock'
  unfold matchingCounter at hmatch
  cases hsecret : decryptTotp env row with
  | error e =>
      rw [hsecret] at hmatch
      cases hmatch
  | ok secret =>
      rw [hsecret] at hmatch
      exact matchingTotpCounter_window (Except.ok.inj hmatch)

/-- Nothing is accepted for an account that does not exist. -/
theorem acceptedCounter_of_missing (h : db.accountById a = none) :
    acceptedCounter env db call a = none := by
  cases haccepted : acceptedCounter env db call a with
  | none => rfl
  | some counter =>
      obtain ⟨-, row, -, -, hrow, hid, -⟩ := acceptedCounter_inv haccepted
      exact absurd (hid ▸ List.mem_map_of_mem hrow) (accountById_eq_none h)

/-- The stored counter never goes back, and an accepted counter is above it and replaces it. -/
theorem counter_step (hinv : Inv db) {row : AccountRow} (hrow : db.accountById a = some row)
    (hkeeps : replacesSecret env db call a = false) :
    ∃ row', (db.after env call).accountById a = some row' ∧
      row.totpLastCounter ≤ row'.totpLastCounter ∧
      ∀ counter, acceptedCounter env db call a = some counter →
        row.totpLastCounter < counter ∧ row'.totpLastCounter = counter := by
  unfold replacesSecret at hkeeps
  rw [hrow] at hkeeps
  cases hafter : (db.after env call).accountById a with
  | none =>
      rw [hafter] at hkeeps
      cases hkeeps
  | some row' =>
      rw [hafter] at hkeeps
      simp only [Bool.or_eq_false_iff, Bool.and_eq_false_iff, beq_eq_false_iff_ne] at hkeeps
      refine ⟨row', rfl, ?_⟩
      obtain ⟨hmem, hid⟩ := accountById_mem hrow
      obtain ⟨hmem', hid'⟩ := accountById_mem hafter
      rcases (perform_refines env call hinv).accounts row' hmem' with
        ⟨old, hold, holdId, -, event, hpermitted, hstep⟩ | ⟨hnew, -⟩
      · obtain rfl := hinv.keyed.account_unique hold hmem (holdId.trans (hid'.trans hid.symm))
        have hkept : event ≠ .released ∧ event ≠ .reset ∧ event ≠ .installed ∧
            event ≠ .began := by
          refine ⟨?_, ?_, ?_, ?_⟩
          · rintro rfl
            obtain ⟨hpending, hrequired⟩ := hstep.released_states
            exact hkeeps.2.elim (· hpending) (· hrequired)
          · intro heq
            obtain ⟨hreturned, hop⟩ := hpermitted.reset heq
            simp [hreturned, hop, namesSecret] at hkeeps
          · intro heq
            obtain ⟨hreturned, hop | ⟨records, hop, hemail⟩⟩ := hpermitted.installed heq
            · simp [hreturned, hop, namesSecret] at hkeeps
            · simp [hreturned, hop, namesSecret, hemail] at hkeeps
          · rintro rfl
            obtain ⟨hrequired, hpending⟩ := hstep.began_states
            exact hkeeps.1.2.elim (· hrequired) (· hpending)
        refine ⟨hstep.counter_le hkept, fun counter hcounter => ?_⟩
        rw [← hid, ← hpermitted.counter] at hcounter
        apply hstep.counter_accepted
        cases event with
        | confirmed c => exact Or.inl (congrArg Event.confirmed (Option.some.inj hcounter))
        | accepted c => exact Or.inr (congrArg Event.accepted (Option.some.inj hcounter))
        | _ => cases hcounter
      · exact absurd (hid'.trans hid.symm ▸ List.mem_map_of_mem hmem) hnew

/-! ## Whole runs -/

theorem acceptance_eq_some {entry : Acceptance} (h : acceptance env db call a = some entry) :
    call.clock = some entry.now ∧ acceptedCounter env db call a = some entry.counter := by
  unfold acceptance at h
  obtain ⟨now, hnow, h⟩ := Option.bind_eq_some_iff.mp h
  obtain ⟨counter, hcounter, h⟩ := Option.bind_eq_some_iff.mp h
  cases h
  exact ⟨hnow, hcounter⟩

theorem acceptances_window (env : Env) (a : String) (db : Db) (calls : List Call) :
    ∀ entry ∈ acceptances env a db calls,
      entry.now / 30 ≤ entry.counter + 1 ∧ entry.counter ≤ entry.now / 30 + 1 := by
  induction calls generalizing db with
  | nil => simp [acceptances]
  | cons call rest ih =>
      intro entry hentry
      rcases List.mem_append.mp hentry with hentry | hentry
      · obtain ⟨hclock, hcounter⟩ := acceptance_eq_some (Option.mem_toList.mp hentry)
        exact acceptedCounter_window hclock hcounter
      · exact ih _ entry hentry

/-- The counters of a run that keeps the secret stand above the stored counter and go up. -/
theorem acceptances_increasing (hinv : Inv db) {calls : List Call}
    (hkeeps : keepsSecret env a db calls = true) :
    (∀ row, db.accountById a = some row →
        ∀ entry ∈ acceptances env a db calls, row.totpLastCounter < entry.counter) ∧
      (acceptances env a db calls).Pairwise (·.counter < ·.counter) := by
  induction calls generalizing db with
  | nil => simp [acceptances]
  | cons call rest ih =>
      simp only [keepsSecret, Bool.and_eq_true, Bool.not_eq_true'] at hkeeps
      obtain ⟨hkeeps, hrest⟩ := hkeeps
      obtain ⟨habove, hincreasing⟩ := ih ((perform_refines env call hinv).inv hinv) hrest
      cases hrow : db.accountById a with
      | none =>
          have hnone : acceptance env db call a = none := by
            unfold acceptance
            rw [acceptedCounter_of_missing hrow]
            cases call.clock <;> rfl
          refine ⟨fun row heq => absurd heq (by simp), ?_⟩
          simpa [acceptances, hnone] using hincreasing
      | some row =>
          obtain ⟨row', hrow', hle, haccepted⟩ := counter_step hinv hrow hkeeps
          have hlater := habove row' hrow'
          constructor
          · intro other heq entry hentry
            cases heq
            rcases List.mem_append.mp hentry with hentry | hentry
            · obtain ⟨-, hcounter⟩ := acceptance_eq_some (Option.mem_toList.mp hentry)
              exact (haccepted _ hcounter).1
            · exact Int.lt_of_le_of_lt hle (hlater entry hentry)
          · apply List.pairwise_append.mpr
            refine ⟨by cases acceptance env db call a <;> simp, hincreasing, ?_⟩
            intro entry hentry later hmem
            obtain ⟨-, hcounter⟩ := acceptance_eq_some (Option.mem_toList.mp hentry)
            have hstored := (haccepted _ hcounter).2
            have hlt := hlater later hmem
            omega

/-- In every segment of a run without a replacement of the secret of `a`, the accepted
counters are strictly increasing and within one step of the clock. -/
theorem totp_counters_increase (hreachable : Reachable env db) {calls : List Call}
    (hkeeps : keepsSecret env a db calls = true) :
    ((acceptances env a db calls).map (·.counter)).Pairwise (· < ·) ∧
      ∀ entry ∈ acceptances env a db calls,
        entry.now / 30 ≤ entry.counter + 1 ∧ entry.counter ≤ entry.now / 30 + 1 := by
  refine ⟨?_, acceptances_window env a db calls⟩
  rw [List.pairwise_map]
  exact (acceptances_increasing (inv_of_reachable hreachable) hkeeps).2

def provisionCalls : List Call :=
  [⟨.provisionActiveAccount "ann@example.org" .user false, sampleRandom 1, some 0, some 0⟩]

/-- The code of step 2 is presented twice, then the one of step 1 with the clock set back. -/
def replayCalls : List Call :=
  [("000002", 60), ("000002", 60), ("000001", 30), ("000004", 120)].map fun (code, now) =>
    ⟨.verifyTotp (sampleHex 1).text code, sampleRandom 2, some now, some now⟩

theorem afterAll_provisionCalls : Db.afterAll sampleEnv {} provisionCalls = provisionedDb 1 0 := by
  rw [provisionCalls, Db.afterAll, List.foldl_cons, after_provision rfl rfl 1]
  rfl

theorem totp_counters_increase_replayCalls :
    acceptances sampleEnv (sampleHex 1).text (Db.afterAll sampleEnv {} provisionCalls)
        replayCalls = [⟨60, 2⟩, ⟨120, 4⟩] ∧
      ((acceptances sampleEnv (sampleHex 1).text (Db.afterAll sampleEnv {} provisionCalls)
        replayCalls).map (·.counter)).Pairwise (· < ·) := by
  have hrun : acceptances sampleEnv (sampleHex 1).text (Db.afterAll sampleEnv {} provisionCalls)
        replayCalls = [⟨60, 2⟩, ⟨120, 4⟩] ∧
      keepsSecret sampleEnv (sampleHex 1).text (Db.afterAll sampleEnv {} provisionCalls)
        replayCalls = true := by
    rw [afterAll_provisionCalls]
    decide +kernel
  exact ⟨hrun.1, (totp_counters_increase ⟨provisionCalls, rfl⟩ hrun.2).1⟩

end MaddyWeb.Auth
