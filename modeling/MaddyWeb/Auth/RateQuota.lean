import MaddyWeb.Auth.Enrollment
import MaddyWeb.Auth.Links
import MaddyWeb.Auth.RateTable
import MaddyWeb.Library.FixedWindow

/-!
# The login rate quota

In every run of the store with a non-decreasing clock, an interval that is shorter
than the window of an identity holds at most twice its limit of accepted attempts:
the row of the identity is the state of a fixed-window counter over the attempts of
the run.
-/

namespace MaddyWeb.Auth

open MaddyWeb.Library

variable {db : Db} {env : Env} {call : Call}

/-- The identities that a success does not clear. -/
inductive RateIdentity
  | global
  | ip (address : String)
  | account (canonical : String)
  | passkeyGlobal
  deriving DecidableEq, Repr

namespace RateIdentity

def scope : RateIdentity → RateScope
  | global => .global
  | ip _ => .ip
  | account _ => .account
  | passkeyGlobal => .global

def digest (env : Env) : RateIdentity → Digest
  | global => env.rateDigest "global" "all"
  | ip address => env.rateDigest "ip" address
  | account canonical => env.rateDigest "account" canonical
  | passkeyGlobal => env.rateDigest "passkey-global" "all"

end RateIdentity

def rateKinds : List String := ["global", "ip", "account", "pair", "passkey-global", "passkey-ip"]

/-- HMAC digests tell identities apart, also those of two kinds. -/
structure Env.InjectiveRates (env : Env) : Prop where
  value : ∀ kind, Function.Injective (env.rateDigest kind)
  kind : ∀ kind ∈ rateKinds, ∀ kind' ∈ rateKinds, ∀ value value',
    env.rateDigest kind value = env.rateDigest kind' value' → kind = kind'

/-! ## Checks -/

/-- A check that has read its arguments and the clock. -/
structure RateCheck where
  policies : List RatePolicy
  bucket : RateScope → RateBucket
  identities : List RateIdentity
  now : Nat

def RateCheck.reserve (check : RateCheck) (rows : List RateRow) : Nat × List RateRow :=
  reserveAttempt check.policies check.bucket check.now rows

/-- The check that a call makes; there is none when an argument or the clock is invalid. -/
def rateCheck (env : Env) (db : Db) (call : Call) : Option RateCheck :=
  match call.op with
  | .checkLoginRate email clientIp => do
      let canonical ← Identity.canonicalizeEmail email
      let ip ← env.canonicalIp clientIp
      let now ← call.clock
      return ⟨ratePolicies,
        loginBucket env canonical ip ((db.accountByEmail canonical).map (·.accountId)),
        [.global, .ip ip, .account canonical], now⟩
  | .checkPasskeyLoginRate clientIp => do
      let ip ← env.canonicalIp clientIp
      let now ← call.clock
      return ⟨passkeyLoginRatePolicies, passkeyLoginBucket env ip, [.passkeyGlobal], now⟩
  | _ => none

def RateCheck.reply (check : RateCheck) (rows : List RateRow) : Except AuthError Reply :=
  if (check.reserve rows).1 = 0 then .ok .done
  else .error (.loginRateLimited (check.reserve rows).1)

/-- The two kinds of checks. -/
theorem rateCheck_cases {check : RateCheck} (h : rateCheck env db call = some check) :
    (∃ email clientIp canonical ip, call.op = .checkLoginRate email clientIp ∧
        Identity.canonicalizeEmail email = some canonical ∧ env.canonicalIp clientIp = some ip ∧
        call.clock = some check.now ∧ check = ⟨ratePolicies,
          loginBucket env canonical ip ((db.accountByEmail canonical).map (·.accountId)),
          [.global, .ip ip, .account canonical], check.now⟩) ∨
      ∃ clientIp ip, call.op = .checkPasskeyLoginRate clientIp ∧
        env.canonicalIp clientIp = some ip ∧ call.clock = some check.now ∧
        check = ⟨passkeyLoginRatePolicies, passkeyLoginBucket env ip, [.passkeyGlobal],
          check.now⟩ := by
  unfold rateCheck at h
  split at h
  · next email clientIp hop =>
      obtain ⟨canonical, hemail, h⟩ := Option.bind_eq_some_iff.mp h
      obtain ⟨ip, hip, h⟩ := Option.bind_eq_some_iff.mp h
      obtain ⟨now, hnow, h⟩ := Option.bind_eq_some_iff.mp h
      cases h
      exact Or.inl ⟨email, clientIp, canonical, ip, hop, hemail, hip, hnow, rfl⟩
  · next clientIp hop =>
      obtain ⟨ip, hip, h⟩ := Option.bind_eq_some_iff.mp h
      obtain ⟨now, hnow, h⟩ := Option.bind_eq_some_iff.mp h
      cases h
      exact Or.inr ⟨clientIp, ip, hop, hip, hnow, rfl⟩
  · cases h

theorem reserve_bind_raise {policies : List RatePolicy} {bucket : Db → RateScope → RateBucket}
    {now : Nat} :
    (replyWith (fun _ => .done)
        (Exec.atomically (reserve policies bucket now) >>= raiseRateLimited) : Store Reply) db =
      let result := reserveAttempt policies (bucket db) now db.rateLimits
      (if result.1 = 0 then .ok .done else .error (.loginRateLimited result.1),
        { db with rateLimits := result.2 }) := by
  have hreserve : Exec.atomically (reserve policies bucket now) db =
      (.ok (reserveAttempt policies (bucket db) now db.rateLimits).1,
        { db with rateLimits := (reserveAttempt policies (bucket db) now db.rateLimits).2 }) :=
    Exec.atomically_of_ok rfl
  dsimp only
  generalize reserveAttempt policies (bucket db) now db.rateLimits = result at hreserve
  unfold replyWith
  show (Exec.bind (Exec.bind _ _) _) db = _
  simp only [Exec.bind, hreserve]
  unfold raiseRateLimited
  by_cases hzero : result.1 = 0
  · rw [hzero]
    rfl
  · have hfalse : (result.1 == 0) = false := by simpa using hzero
    rw [if_neg hzero, hfalse]
    rfl

/-- A check replaces the table and replies by the delay. -/
theorem perform_rateCheck {check : RateCheck} (h : rateCheck env db call = some check) :
    perform env call db =
      (check.reply db.rateLimits, { db with rateLimits := (check.reserve db.rateLimits).2 }) := by
  obtain ⟨op, random, clock, later⟩ := call
  rcases rateCheck_cases h with ⟨email, clientIp, canonical, ip, hop, hemail, hip, hnow, hcheck⟩ |
    ⟨clientIp, ip, hop, hip, hnow, hcheck⟩
  · dsimp only at hop hnow
    subst hop hnow
    show replyWith (fun _ => .done) (checkLoginRate env _ email clientIp) db = _
    have hrun : checkLoginRate env (some check.now) email clientIp =
        Exec.atomically (reserve ratePolicies (fun db => loginBucket env canonical ip
          ((db.accountByEmail canonical).map (·.accountId))) check.now) >>= raiseRateLimited := by
      unfold checkLoginRate requireEmail requireIp readClock
      rw [Exec.require_const_bind hemail, Exec.require_const_bind hip, Exec.require_const_bind rfl]
    rw [hrun, reserve_bind_raise, hcheck]
    rfl
  · dsimp only at hop hnow
    subst hop hnow
    show replyWith (fun _ => .done) (checkPasskeyLoginRate env _ clientIp) db = _
    have hrun : checkPasskeyLoginRate env (some check.now) clientIp =
        Exec.atomically (reserve passkeyLoginRatePolicies (fun _ => passkeyLoginBucket env ip)
          check.now) >>= raiseRateLimited := by
      unfold checkPasskeyLoginRate requireIp readClock
      rw [Exec.require_const_bind hip, Exec.require_const_bind rfl]
    rw [hrun, reserve_bind_raise, hcheck]
    rfl

theorem standard_of_rateCheck {check : RateCheck} (h : rateCheck env db call = some check) :
    Standard check.policies := by
  rcases rateCheck_cases h with ⟨_, _, _, _, -, -, -, -, hcheck⟩ | ⟨_, _, -, -, -, hcheck⟩
  · rw [hcheck]
    exact standard_ratePolicies
  · rw [hcheck]
    exact standard_passkeyLoginRatePolicies

theorem clock_of_rateCheck {check : RateCheck} (h : rateCheck env db call = some check) :
    call.clock = some check.now := by
  rcases rateCheck_cases h with ⟨_, _, _, _, -, -, -, hnow, -⟩ | ⟨_, _, -, -, hnow, -⟩
  · exact hnow
  · exact hnow

/-- The identities of a check are those whose rows it counts. -/
theorem mem_identities_iff (hdigests : env.InjectiveRates) {check : RateCheck}
    (h : rateCheck env db call = some check) (identity : RateIdentity) :
    identity ∈ check.identities ↔ identity.scope ∈ check.policies.map (·.scope) ∧
      (check.bucket identity.scope).identityDigest = identity.digest env := by
  have hkinds : ∀ {kind kind' value value' : String}, kind ∈ rateKinds → kind' ∈ rateKinds →
      kind ≠ kind' → ¬ env.rateDigest kind value = env.rateDigest kind' value' :=
    fun hkind hkind' hne heq => hne (hdigests.kind _ hkind _ hkind' _ _ heq)
  rcases rateCheck_cases h with ⟨_, _, canonical, ip, -, -, -, -, hcheck⟩ | ⟨_, ip, -, -, -, hcheck⟩
  · rw [hcheck]
    cases identity with
    | global => simp [RateIdentity.scope, RateIdentity.digest, ratePolicies, loginBucket]
    | ip ip' =>
        simp [RateIdentity.scope, RateIdentity.digest, ratePolicies, loginBucket,
          (hdigests.value "ip").eq_iff, eq_comm]
    | account canonical' =>
        simp [RateIdentity.scope, RateIdentity.digest, ratePolicies, loginBucket,
          (hdigests.value "account").eq_iff, eq_comm]
    | passkeyGlobal =>
        simp [RateIdentity.scope, RateIdentity.digest, ratePolicies, loginBucket,
          @hkinds "global" "passkey-global" "all" "all" (by decide) (by decide) (by decide)]
  · rw [hcheck]
    cases identity with
    | global =>
        simp [RateIdentity.scope, RateIdentity.digest, passkeyLoginRatePolicies,
          passkeyLoginBucket,
          @hkinds "passkey-global" "global" "all" "all" (by decide) (by decide) (by decide)]
    | ip ip' =>
        simp [RateIdentity.scope, RateIdentity.digest, passkeyLoginRatePolicies,
          passkeyLoginBucket, @hkinds "passkey-ip" "ip" ip ip' (by decide) (by decide) (by decide)]
    | account canonical' => simp [RateIdentity.scope, passkeyLoginRatePolicies]
    | passkeyGlobal =>
        simp [RateIdentity.scope, RateIdentity.digest, passkeyLoginRatePolicies, passkeyLoginBucket]

/-! ## The other calls -/

def SameRates (db db' : Db) : Prop := db'.rateLimits = db.rateLimits

theorem sameRates_composes : Exec.Composes SameRates where
  refl _ := rfl
  trans h₁ h₂ := h₂.trans h₁

theorem sameRates_statements (h : call.op.writesRates = false) :
    OpStatements env call SameRates where
  composes := sameRates_composes
  rules _ := RuleStatements.of_any sameRates_composes fun _ _ _ => rfl
  credentials _ _ _ := rfl
  rates hop := absurd (h.symm.trans hop) Bool.false_ne_true
  sessions _ := ⟨fun _ _ => rfl, fun _ _ _ _ => rfl⟩
  dropSessions _ _ _ := rfl
  issue _ _ _ _ _ := rfl
  updatePasskey _ _ _ _ _ := rfl
  insertPasskey _ _ _ _ _ _ := rfl
  dropPasskeys _ _ := rfl
  updateAccounts _ _ _ _ _ := rfl
  insertAccount _ _ _ := rfl
  deleteAccount hop := by
    revert h hop
    cases call.op <;> nofun
  dropCodes _ _ _ := rfl
  storeCode _ _ _ := rfl
  dropPending _ _ _ := rfl
  updatePending _ _ _ _ _ := rfl
  insertPending _ _ _ _ _ := rfl

theorem rates_after (h : call.op.writesRates = false) :
    (db.after env call).rateLimits = db.rateLimits :=
  perform_allows (sameRates_statements h) db

/-- The rows that a call which makes no check deletes. -/
def Drops (env : Env) (db : Db) (op : Op) (row : RateRow) : Prop :=
  match op with
  | .recordLoginResult .. => row.scope = .pair
  | .recordPasskeyLoginResult .. =>
      row.scope = .ip ∧ ∃ ip, row.identityDigest = env.rateDigest "passkey-ip" ip
  | .deleteAccount accountId => ∃ account ∈ db.accounts, account.accountId = accountId ∧
      (row.accountId = some accountId ∨
        row.accountIdentityDigest = some (env.rateDigest "account" account.canonicalEmail))
  | _ => False

structure Spares (dropped : RateRow → Prop) (db db' : Db) : Prop where
  sublist : db'.rateLimits.Sublist db.rateLimits
  kept : ∀ row ∈ db.rateLimits, ¬ dropped row → row ∈ db'.rateLimits

theorem Spares.composes (dropped : RateRow → Prop) : Exec.Composes (Spares dropped) where
  refl _ := ⟨List.Sublist.refl _, fun _ hrow _ => hrow⟩
  trans h₁ h₂ := ⟨h₂.sublist.trans h₁.sublist,
    fun row hrow hkept => h₂.kept row (h₁.kept row hrow hkept) hkept⟩

theorem Spares.filter {dropped : RateRow → Prop} {keep : RateRow → Bool} {db' : Db}
    (hrates : db'.rateLimits = db.rateLimits.filter keep)
    (h : ∀ row ∈ db.rateLimits, keep row = false → dropped row) : Spares dropped db db' := by
  constructor
  · rw [hrates]
    exact List.filter_sublist
  · intro row hrow hkept
    rw [hrates]
    apply List.mem_filter.mpr ⟨hrow, ?_⟩
    by_contra hkeep
    exact hkept (h row hrow (by simpa using hkeep))

theorem deleteAccount_spares (accountId : String) :
    Spares (Drops env db (.deleteAccount accountId)) db (deleteAccount env accountId db).2 := by
  have hR := Spares.composes (Drops env db (.deleteAccount accountId))
  unfold deleteAccount validateAccountId requireAccountById
  apply hR.require_bind_at
  intro normalized hnormalized
  obtain rfl : accountId = normalized := by
    split at hnormalized
    · exact Option.some.inj hnormalized
    · cases hnormalized
  apply hR.atomically_at
  apply hR.require_bind_at
  intro row hrow
  obtain ⟨hmem, hid⟩ := accountById_mem hrow
  apply hR.update_bind_at
  · apply Spares.filter rfl
    intro rate _ hdeleted
    exact ⟨row, hmem, hid, or_iff_not_imp_left.mpr (by simpa using hdeleted)⟩
  · rw [Exec.inspect_bind]
    apply hR.update_bind_at
    · apply Spares.filter rfl
      intro rate _ hdeleted
      exact ⟨row, hmem, hid, Or.inl (by simpa using hdeleted)⟩
    · exact hR.ensure _ _ _

theorem replyWith_at {R : Db → Db → Prop} (hR : Exec.Composes R) {α : Type} {reply : α → Reply}
    {m : Store α} (h : R db (m db).2) : R db (replyWith reply m db).2 :=
  hR.bind_at h fun _ _ _ => hR.refl _

theorem clearBucket_spares {dropped : RateRow → Prop} (scope : RateScope) (digest : Digest)
    (h : ∀ row : RateRow, row.scope = scope → row.identityDigest = digest → dropped row) :
    Spares dropped db (clearBucket scope digest db).2 := by
  apply Spares.filter rfl
  intro row _ hdeleted
  simp only [Bool.not_eq_false', Bool.and_eq_true, beq_iff_eq] at hdeleted
  exact h row hdeleted.1 hdeleted.2

theorem spares_after (h : rateCheck env db call = none) :
    Spares (Drops env db call.op) db (db.after env call) := by
  have hR := Spares.composes (Drops env db call.op)
  by_cases hwrites : call.op.writesRates = false
  · have hsame := @rates_after db env call hwrites
    constructor
    · rw [hsame]
    · rw [hsame]
      exact fun row hrow _ => hrow
  · obtain ⟨op, random, clock, later⟩ := call
    unfold Db.after
    cases op with
    | deleteAccount accountId => exact replyWith_at hR (deleteAccount_spares accountId)
    | checkLoginRate email clientIp =>
        apply replyWith_at hR
        unfold checkLoginRate requireEmail requireIp readClock
        apply hR.require_bind_at
        intro canonical hemail
        apply hR.require_bind_at
        intro ip hip
        apply hR.require_bind_at
        intro now hnow
        dsimp only at hnow
        simp [rateCheck, hemail, hip, hnow] at h
    | checkPasskeyLoginRate clientIp =>
        apply replyWith_at hR
        unfold checkPasskeyLoginRate requireIp readClock
        apply hR.require_bind_at
        intro ip hip
        apply hR.require_bind_at
        intro now hnow
        dsimp only at hnow
        simp [rateCheck, hip, hnow] at h
    | recordLoginResult email clientIp success =>
        apply replyWith_at hR
        unfold recordLoginResult requireEmail requireIp
        apply hR.require_bind_at
        intro canonical _
        apply hR.require_bind_at
        intro ip _
        split
        · exact hR.atomically_at (clearBucket_spares _ _ fun _ hscope _ => hscope)
        · exact hR.refl _
    | recordPasskeyLoginResult clientIp success =>
        apply replyWith_at hR
        unfold recordPasskeyLoginResult requireIp
        apply hR.require_bind_at
        intro ip _
        split
        · exact hR.atomically_at
            (clearBucket_spares _ _ fun _ hscope hdigest => ⟨hscope, ip, hdigest⟩)
        · exact hR.refl _
    | _ => exact absurd rfl hwrites

/-! ## The table of a run -/

/-- Which scopes are linked to an account. -/
def Marked (scope : RateScope) (identity : Digest) (accountId : Option String)
    (accountIdentity : Option Digest) : Prop :=
  match scope with
  | .global | .ip => accountId = none ∧ accountIdentity = none
  | .account => accountIdentity = some identity
  | .pair => True

def RateRow.Marked (row : RateRow) : Prop :=
  Auth.Marked row.scope row.identityDigest row.accountId row.accountIdentityDigest

theorem marked_countAttempt {bucket : RateScope → RateBucket} {now : Nat} {rows : List RateRow}
    {policy : RatePolicy} (h : ∀ row ∈ rows, row.Marked)
    (hbucket : Marked policy.scope (bucket policy.scope).identityDigest
      (bucket policy.scope).accountId (bucket policy.scope).accountIdentityDigest) :
    ∀ row ∈ countAttempt bucket now rows policy, row.Marked := by
  intro row hrow
  rcases mem_countAttempt hrow with hrow | ⟨hscope, hidentity, hlink⟩
  · exact h row hrow
  · unfold RateRow.Marked
    rcases hlink with ⟨haccount, hdigest⟩ | ⟨old, hold, hscope', hidentity', haccount, hdigest⟩
    · rw [hscope, hidentity, haccount, hdigest]
      exact hbucket
    · have hmarked := h old hold
      unfold RateRow.Marked at hmarked
      rw [hscope', hscope, hidentity', hidentity] at hmarked
      rw [hscope, hidentity, haccount, hdigest]
      revert hmarked hbucket
      cases policy.scope with
      | pair => exact fun _ _ => trivial
      | account =>
          intro hbucket _
          unfold Marked at hbucket ⊢
          rw [hbucket]
          rfl
      | _ =>
          intro hbucket hmarked
          unfold Marked at hbucket hmarked ⊢
          rw [hbucket.1, hbucket.2, hmarked.1, hmarked.2]
          exact ⟨rfl, rfl⟩

structure RateInv (db : Db) : Prop where
  table : RateTable db.rateLimits
  marked : ∀ row ∈ db.rateLimits, row.Marked

theorem bucket_marked {check : RateCheck} (h : rateCheck env db call = some check)
    {policy : RatePolicy} (hpolicy : policy ∈ check.policies) :
    Marked policy.scope (check.bucket policy.scope).identityDigest
      (check.bucket policy.scope).accountId (check.bucket policy.scope).accountIdentityDigest := by
  rcases rateCheck_cases h with ⟨_, _, _, _, -, -, -, -, hcheck⟩ | ⟨_, _, -, -, -, hcheck⟩
  · rw [hcheck]
    cases policy.scope <;> simp [Marked, loginBucket]
  · rw [hcheck] at hpolicy ⊢
    simp only [passkeyLoginRatePolicies, List.mem_cons, List.not_mem_nil, or_false] at hpolicy
    rcases hpolicy with rfl | rfl <;> exact ⟨rfl, rfl⟩

theorem RateInv.after (h : RateInv db) : RateInv (db.after env call) := by
  cases hcheck : rateCheck env db call with
  | none =>
      have hspares := spares_after hcheck
      exact ⟨h.table.sublist hspares.sublist,
        fun row hrow => h.marked row (hspares.sublist.subset hrow)⟩
  | some check =>
      have hstandard := standard_of_rateCheck hcheck
      have hrates : (db.after env call).rateLimits = (check.reserve db.rateLimits).2 := by
        unfold Db.after
        rw [perform_rateCheck hcheck]
      constructor
      · rw [hrates]
        exact h.table.reserveAttempt hstandard
      · have hlive : ∀ row ∈ purgeRates check.policies check.now db.rateLimits, row.Marked :=
          fun row hrow => h.marked row (purgeRates_sublist.subset hrow)
        have hdecides := @reserveAttempt_decides _ _ check.bucket check.now h.table hstandard
        rw [hrates]
        unfold RateCheck.reserve
        generalize reserveAttempt check.policies check.bucket check.now db.rateLimits = result
          at hdecides
        cases hdecides with
        | refused => exact hlive
        | accepted =>
            have hfold : ∀ (policies : List RatePolicy) (rows : List RateRow),
                (∀ policy ∈ policies, policy ∈ check.policies) → (∀ row ∈ rows, row.Marked) →
                ∀ row ∈ policies.foldl (countAttempt check.bucket check.now) rows, row.Marked := by
              intro policies
              induction policies with
              | nil => exact fun _ _ hrows => hrows
              | cons policy policies ih =>
                  intro rows hpolicies hrows
                  have hhead := hpolicies policy List.mem_cons_self
                  apply ih _ fun other hother => hpolicies other (List.mem_cons_of_mem _ hother)
                  exact marked_countAttempt hrows (bucket_marked hcheck hhead)
            exact hfold _ _ (fun _ hpolicy => hpolicy) hlive

theorem rateInv_of_reachable (h : Reachable env db) : RateInv db := by
  apply h.induct
  · exact ⟨⟨List.nodup_nil, Nat.zero_le _, nofun⟩, nofun⟩
  · exact fun _ _ hinv => hinv.after

/-! ## Accepted attempts -/

/-- The time of the attempt of an identity that a call makes, when it is accepted. -/
def acceptedAttempt (env : Env) (identity : RateIdentity) (db : Db) (call : Call) : List Nat :=
  match (perform env call db).1, rateCheck env db call with
  | .ok _, some check => if identity ∈ check.identities then [check.now] else []
  | _, _ => []

def acceptedAttempts (env : Env) (identity : RateIdentity) : Db → List Call → List Nat
  | _, [] => []
  | db, call :: calls =>
      acceptedAttempt env identity db call ++
        acceptedAttempts env identity (db.after env call) calls

/-- The row of an identity is the state of its fixed-window counter. -/
def Tracks (env : Env) (identity : RateIdentity) (rows : List RateRow) (log : List Nat)
    (last : Nat) : Prop :=
  match windowAt rows identity.scope (identity.digest env) with
  | none =>
      FixedWindow.Closed identity.scope.policy.windowSeconds identity.scope.policy.limit log last
  | some window => window.1 ≤ last ∧
      FixedWindow.Open identity.scope.policy.windowSeconds identity.scope.policy.limit log window.1
        window.2

variable {identity : RateIdentity} {rows : List RateRow} {log : List Nat} {last now : Nat}

theorem tracks_of_none
    (hwindow : windowAt rows identity.scope (identity.digest env) = none)
    (h : FixedWindow.Closed identity.scope.policy.windowSeconds identity.scope.policy.limit log
      last) :
    Tracks env identity rows log last := by
  unfold Tracks
  rw [hwindow]
  exact h

theorem tracks_of_some {window : Nat × Nat}
    (hwindow : windowAt rows identity.scope (identity.digest env) = some window)
    (hstart : window.1 ≤ last)
    (h : FixedWindow.Open identity.scope.policy.windowSeconds identity.scope.policy.limit log
      window.1 window.2) :
    Tracks env identity rows log last := by
  unfold Tracks
  rw [hwindow]
  exact ⟨hstart, h⟩

theorem Tracks.closed (h : Tracks env identity rows log last)
    (hwindow : windowAt rows identity.scope (identity.digest env) = none) :
    FixedWindow.Closed identity.scope.policy.windowSeconds identity.scope.policy.limit log
      last := by
  unfold Tracks at h
  rw [hwindow] at h
  exact h

theorem Tracks.opened {window : Nat × Nat} (h : Tracks env identity rows log last)
    (hwindow : windowAt rows identity.scope (identity.digest env) = some window) :
    window.1 ≤ last ∧
      FixedWindow.Open identity.scope.policy.windowSeconds identity.scope.policy.limit log window.1
        window.2 := by
  unfold Tracks at h
  rw [hwindow] at h
  exact h

theorem Tracks.quota (h : Tracks env identity rows log last) :
    FixedWindow.Quota identity.scope.policy.windowSeconds identity.scope.policy.limit log := by
  cases hwindow : windowAt rows identity.scope (identity.digest env) with
  | none => exact (h.closed hwindow).quota
  | some window => exact (h.opened hwindow).2.quota

theorem Tracks.congr {rows' : List RateRow} (h : Tracks env identity rows log last)
    (hle : last ≤ now) (hsame : windowAt rows' identity.scope (identity.digest env) =
      windowAt rows identity.scope (identity.digest env)) : Tracks env identity rows' log now := by
  cases hwindow : windowAt rows identity.scope (identity.digest env) with
  | none => exact tracks_of_none (hsame.trans hwindow) ((h.closed hwindow).mono hle)
  | some window =>
      obtain ⟨hstart, hopen⟩ := h.opened hwindow
      exact tracks_of_some (hsame.trans hwindow) (Nat.le_trans hstart hle) hopen

theorem RateTable.count_le {scope : RateScope} {digest : Digest} {window : Nat × Nat}
    (h : RateTable rows) (hwindow : windowAt rows scope digest = some window) :
    window.2 ≤ scope.policy.limit := by
  obtain ⟨row, hrow, hscope, -, -, hcount⟩ := @windowAt_eq_some _ _ _ window.1 window.2 hwindow
  have hle := h.counts row hrow
  rw [hscope, hcount] at hle
  exact hle

/-- The purge closes the windows that have ended. -/
theorem Tracks.purge {policies : List RatePolicy} (h : Tracks env identity rows log last)
    (htable : RateTable rows) (hstandard : Standard policies) (hle : last ≤ now) :
    Tracks env identity (purgeRates policies now rows) log now := by
  by_cases hscope : identity.scope ∈ policies.map (·.scope)
  · have hpurged :=
      @windowAt_purgeRates _ _ now _ (identity.digest env) htable.keys hstandard hscope
    cases hwindow : windowAt rows identity.scope (identity.digest env) with
    | none =>
        rw [hwindow] at hpurged
        exact tracks_of_none hpurged ((h.closed hwindow).mono hle)
    | some window =>
        obtain ⟨hstart, hopen⟩ := h.opened hwindow
        rw [hwindow] at hpurged
        by_cases hlive : now < window.1 + identity.scope.policy.windowSeconds
        · rw [Option.filter_some_pos (by simpa using hlive)] at hpurged
          exact tracks_of_some hpurged (Nat.le_trans hstart hle) hopen
        · rw [Option.filter_some_neg (by simpa using hlive)] at hpurged
          apply tracks_of_none hpurged
          exact (hopen.close (htable.count_le hwindow)).mono (Nat.le_of_not_lt hlive)
  · exact h.congr hle (windowAt_purgeRates_of_not_mem htable.keys hscope)

/-- The call deletes the account that has the address. -/
def DeletesAddress (db : Db) (op : Op) (canonical : String) : Prop :=
  ∃ account ∈ db.accounts, op = .deleteAccount account.accountId ∧
    account.canonicalEmail = canonical

/-- Only the deletion of its address takes the row of an identity before its window ends. -/
theorem not_drops (hdigests : env.InjectiveRates) (hdb : Reachable env db)
    (hkept : ∀ canonical, identity = .account canonical → ¬ DeletesAddress db call.op canonical)
    {row : RateRow} (hrow : row ∈ db.rateLimits) (hscope : row.scope = identity.scope)
    (hdigest : row.identityDigest = identity.digest env) : ¬ Drops env db call.op row := by
  have hmarked := (rateInv_of_reachable hdb).marked row hrow
  unfold RateRow.Marked at hmarked
  rw [hscope, hdigest] at hmarked
  obtain ⟨op, random, clock, later⟩ := call
  cases op with
  | recordLoginResult email clientIp success =>
      intro hpair
      have hscope := hscope.symm.trans hpair
      cases identity <;> cases hscope
  | recordPasskeyLoginResult clientIp success =>
      rintro ⟨hip, ip, hpasskey⟩
      have hscope := hscope.symm.trans hip
      cases identity with
      | ip address =>
          have hkind := hdigests.kind "ip" (by decide) "passkey-ip" (by decide) _ _
            (hdigest.symm.trans hpasskey)
          exact absurd hkind (by decide)
      | _ => cases hscope
  | deleteAccount accountId =>
      rintro ⟨account, haccount, rfl, hlink⟩
      cases identity with
      | account canonical =>
          have hcanonical : account.canonicalEmail = canonical := by
            rcases hlink with hlink | hlink
            · obtain ⟨owner, howner, hid, hcounts⟩ :=
                (links_of_reachable hdigests.value hdb).rates row hrow _ hlink
              obtain rfl := (inv_of_reachable hdb).keyed.account_unique howner haccount hid
              rcases hcounts.bucket with ⟨-, hbucket⟩ | ⟨hpair, -⟩
              · exact hdigests.value "account" (hbucket.symm.trans hdigest)
              · cases hscope.symm.trans hpair
            · exact (hdigests.value "account" (Option.some.inj (hmarked.symm.trans hlink))).symm
          exact hkept canonical rfl ⟨account, haccount, rfl, hcanonical⟩
      | _ =>
          rcases hlink with hlink | hlink
          · exact nomatch hmarked.1.symm.trans hlink
          · exact nomatch hmarked.2.symm.trans hlink
  | _ => exact fun h => h

/-- A check counts an attempt when it accepts it, and only then. -/
theorem Tracks.check (hdigests : env.InjectiveRates) (hdb : Reachable env db) {check : RateCheck}
    (h : Tracks env identity db.rateLimits log last) (hcheck : rateCheck env db call = some check)
    (hle : last ≤ check.now) :
    Tracks env identity (db.after env call).rateLimits
      (log ++ acceptedAttempt env identity db call) check.now := by
  have htable := (rateInv_of_reachable hdb).table
  have hstandard := standard_of_rateCheck hcheck
  have hperform := perform_rateCheck hcheck
  have hpurged := h.purge htable hstandard hle
  have hdecides := @reserveAttempt_decides _ _ check.bucket check.now htable hstandard
  unfold Db.after acceptedAttempt
  rw [hperform, hcheck]
  unfold RateCheck.reply RateCheck.reserve
  dsimp only
  generalize reserveAttempt check.policies check.bucket check.now db.rateLimits = result
    at hdecides
  cases hdecides with
  | refused hdelay _ =>
      dsimp only
      rw [if_neg hdelay, List.append_nil]
      exact hpurged
  | accepted hfull hroom =>
      dsimp only
      rw [if_pos rfl]
      dsimp only
      have hcounted := @windowAt_countAll (purgeRates check.policies check.now db.rateLimits) _
        check.bucket check.now identity.scope (identity.digest env) hstandard.scopes
      by_cases hmem : identity ∈ check.identities
      · rw [if_pos hmem]
        obtain ⟨hscope, hbucket⟩ := (mem_identities_iff hdigests hcheck identity).mp hmem
        rw [if_pos ⟨hscope, hbucket⟩] at hcounted
        cases hwindow : windowAt (purgeRates check.policies check.now db.rateLimits)
            identity.scope (identity.digest env) with
        | none =>
            rw [hwindow] at hcounted
            obtain ⟨hlimit, hseconds⟩ := identity.scope.policy_pos
            apply tracks_of_some hcounted (Nat.le_refl _)
            exact (hpurged.closed hwindow).reopen (Nat.le_refl _) hseconds hlimit
        | some window =>
            rw [hwindow] at hcounted
            obtain ⟨hstart, hopen⟩ := hpurged.opened hwindow
            have hlive : check.now < window.1 + identity.scope.policy.windowSeconds := by
              have hfilter := hwindow
              rw [windowAt_purgeRates htable.keys hstandard hscope] at hfilter
              simpa using (Option.filter_eq_some_iff.mp hfilter).2
            have hspare : window.2 < identity.scope.policy.limit := by
              by_contra hlimit
              apply hfull
              obtain ⟨policy, hpolicy, hsame⟩ := List.mem_map.mp hscope
              obtain ⟨row, hrow, hrowScope, hrowDigest, -, hcount⟩ :=
                @windowAt_eq_some _ _ _ window.1 window.2 hwindow
              refine ⟨policy, hpolicy, row, hrow, hrowScope.trans hsame.symm, ?_, ?_⟩
              · rw [hrowDigest, hsame, hbucket]
              · rw [← hstandard.policy policy hpolicy, hsame, hcount]
                exact Nat.le_of_not_lt hlimit
            exact tracks_of_some hcounted hstart (hopen.accept hspare hstart hlive)
      · rw [if_neg hmem, List.append_nil]
        rw [if_neg fun h => hmem ((mem_identities_iff hdigests hcheck identity).mpr h)] at hcounted
        exact hpurged.congr (Nat.le_refl _) hcounted

theorem Tracks.after (hdigests : env.InjectiveRates) (hdb : Reachable env db)
    (h : Tracks env identity db.rateLimits log last) (hclock : ∀ now ∈ call.clock, last ≤ now)
    (hkept : ∀ canonical, identity = .account canonical → ¬ DeletesAddress db call.op canonical) :
    Tracks env identity (db.after env call).rateLimits
      (log ++ acceptedAttempt env identity db call) (call.clock.getD last) := by
  cases hcheck : rateCheck env db call with
  | none =>
      have hspares := spares_after hcheck
      have hnone : acceptedAttempt env identity db call = [] := by
        unfold acceptedAttempt
        rw [hcheck]
        cases (perform env call db).1 <;> rfl
      have hle : last ≤ call.clock.getD last := by
        cases hreading : call.clock with
        | none => exact Nat.le_refl _
        | some now => exact hclock now hreading
      rw [hnone, List.append_nil]
      apply h.congr hle
      apply windowAt_sublist (rateInv_of_reachable hdb).table.keys hspares.sublist
      intro row hrow hscope hdigest
      exact hspares.kept row hrow (not_drops hdigests hdb hkept hrow hscope hdigest)
  | some check =>
      have hnow := clock_of_rateCheck hcheck
      rw [hnow, Option.getD_some]
      exact h.check hdigests hdb hcheck (hclock _ hnow)

/-! ## Runs -/

/-- The clock readings of a call. -/
def Call.readings (call : Call) : List Nat := call.clock.toList ++ call.later.toList

/-- No call of the run deletes the account that has the address of the identity. -/
def KeepsAddress (env : Env) (identity : RateIdentity) (db : Db) (calls : List Call) : Prop :=
  ∀ canonical, identity = .account canonical → ∀ earlier call later,
    calls = earlier ++ call :: later →
    ¬ DeletesAddress (Db.afterAll env db earlier) call.op canonical

/-- The first reading of a call follows the last reading before it. -/
theorem readings_step {calls : List Call}
    (h : (last :: (call :: calls).flatMap Call.readings).Pairwise (· ≤ ·)) :
    (∀ now ∈ call.clock, last ≤ now) ∧
      (call.clock.getD last :: calls.flatMap Call.readings).Pairwise (· ≤ ·) := by
  rw [List.flatMap_cons, List.pairwise_cons] at h
  obtain ⟨hlast, hrest⟩ := h
  have hreading : ∀ now ∈ call.clock, now ∈ call.readings := fun now hnow =>
    List.mem_append_left _ (Option.mem_toList.mpr hnow)
  refine ⟨fun now hnow => hlast now (List.mem_append_left _ (hreading now hnow)), ?_⟩
  apply List.pairwise_cons.mpr ⟨?_, (List.pairwise_append.mp hrest).2.1⟩
  intro later hlater
  cases hnow : call.clock with
  | none => exact hlast later (List.mem_append_right _ hlater)
  | some now => exact (List.pairwise_append.mp hrest).2.2 now (hreading now hnow) later hlater

theorem Tracks.run (hdigests : env.InjectiveRates) {calls : List Call} (hdb : Reachable env db)
    (h : Tracks env identity db.rateLimits log last)
    (hclock : (last :: calls.flatMap Call.readings).Pairwise (· ≤ ·))
    (hkept : KeepsAddress env identity db calls) :
    FixedWindow.Quota identity.scope.policy.windowSeconds identity.scope.policy.limit
      (log ++ acceptedAttempts env identity db calls) := by
  induction calls generalizing db log last with
  | nil =>
      rw [acceptedAttempts, List.append_nil]
      exact h.quota
  | cons call calls ih =>
      obtain ⟨hnow, hrest⟩ := readings_step hclock
      have hstep := h.after hdigests hdb hnow fun canonical hidentity =>
        hkept canonical hidentity [] call calls rfl
      rw [acceptedAttempts, ← List.append_assoc]
      apply ih (hdb.after call) hstep hrest
      intro canonical hidentity earlier next later hcalls
      exact hkept canonical hidentity (call :: earlier) next later (by rw [hcalls]; rfl)

/-- No window begins after the last reading. -/
def Started (rows : List RateRow) (last : Nat) : Prop := ∀ row ∈ rows, row.windowStartedAt ≤ last

theorem started_after (hdb : Reachable env db) (h : Started db.rateLimits last)
    (hclock : ∀ now ∈ call.clock, last ≤ now) :
    Started (db.after env call).rateLimits (call.clock.getD last) := by
  have htable := (rateInv_of_reachable hdb).table
  have hle : last ≤ call.clock.getD last := by
    cases hreading : call.clock with
    | none => exact Nat.le_refl _
    | some now => exact hclock now hreading
  have hkept : ∀ row ∈ db.rateLimits, row.windowStartedAt ≤ call.clock.getD last :=
    fun row hrow => Nat.le_trans (h row hrow) hle
  cases hcheck : rateCheck env db call with
  | none => exact fun row hrow => hkept row ((spares_after hcheck).sublist.subset hrow)
  | some check =>
      have hstandard := standard_of_rateCheck hcheck
      have hdecides := @reserveAttempt_decides _ _ check.bucket check.now htable hstandard
      have hpurged : ∀ row ∈ purgeRates check.policies check.now db.rateLimits,
          row.windowStartedAt ≤ call.clock.getD last :=
        fun row hrow => hkept row (purgeRates_sublist.subset hrow)
      unfold Db.after
      rw [perform_rateCheck hcheck]
      unfold RateCheck.reserve
      dsimp only
      generalize reserveAttempt check.policies check.bucket check.now db.rateLimits = result
        at hdecides
      cases hdecides with
      | refused => exact hpurged
      | accepted =>
          intro row hrow
          have hkeys := (htable.sublist (@purgeRates_sublist _ check.policies check.now)).keys
          have hwindow := windowAt_of_mem (nodup_countAll hkeys) hrow rfl rfl
          rw [windowAt_countAll hstandard.scopes] at hwindow
          have hsame : ∀ window, windowAt (purgeRates check.policies check.now db.rateLimits)
              row.scope row.identityDigest = some window →
              window.1 ≤ call.clock.getD last := by
            intro window hold
            obtain ⟨old, hmem, -, -, hstart, -⟩ := @windowAt_eq_some _ _ _ window.1 window.2 hold
            exact hstart ▸ hpurged old hmem
          split at hwindow
          · have hbump :
                (bump check.now (windowAt (purgeRates check.policies check.now db.rateLimits)
                row.scope row.identityDigest)).1 = row.windowStartedAt :=
              congrArg Prod.fst (Option.some.inj hwindow)
            rw [← hbump]
            cases hold : windowAt (purgeRates check.policies check.now db.rateLimits) row.scope
                row.identityDigest with
            | none =>
                rw [clock_of_rateCheck hcheck]
                exact Nat.le_refl _
            | some window => exact hsame window hold
          · exact hsame _ hwindow

/-- The quota of the attempts from some call of the run on: the row that is there by then is a
window that has counted none of them. -/
theorem quota_of_suffix (hdigests : env.InjectiveRates) {before during : List Call}
    (hdb : Reachable env db) (h : Started db.rateLimits last)
    (hclock : (last :: (before ++ during).flatMap Call.readings).Pairwise (· ≤ ·))
    (hkept : KeepsAddress env identity (db.afterAll env before) during) :
    FixedWindow.Quota identity.scope.policy.windowSeconds identity.scope.policy.limit
      (acceptedAttempts env identity (db.afterAll env before) during) := by
  induction before generalizing db last with
  | nil =>
      have htracks : Tracks env identity db.rateLimits [] last := by
        cases hwindow : windowAt db.rateLimits identity.scope (identity.digest env) with
        | none => exact tracks_of_none hwindow (FixedWindow.closed_nil _)
        | some window =>
            obtain ⟨row, hrow, -, -, hstart, -⟩ :=
              @windowAt_eq_some _ _ _ window.1 window.2 hwindow
            exact tracks_of_some hwindow (hstart ▸ h row hrow) (FixedWindow.open_nil _ _)
      have hquota := htracks.run hdigests hdb hclock hkept
      rw [List.nil_append] at hquota
      exact hquota
  | cons call before ih =>
      obtain ⟨hnow, hrest⟩ := readings_step hclock
      exact ih (hdb.after call) (started_after hdb h hnow) hrest hkept

/-! ## Refusals -/

def Op.checksRate : Op → Bool
  | .checkLoginRate .. | .checkPasskeyLoginRate _ => true
  | _ => false

theorem rateCheck_of_refused {retryAfter : Nat} {db' : Db} (hop : call.op.checksRate = true)
    (h : perform env call db = (.error (.loginRateLimited retryAfter), db')) :
    ∃ check, rateCheck env db call = some check := by
  obtain ⟨op, random, clock, later⟩ := call
  cases op with
  | checkLoginRate email clientIp =>
      rcases replyWith_cases h with ⟨e, herror, hrun⟩ | ⟨value, hok, -⟩
      · cases herror
        unfold checkLoginRate requireEmail requireIp readClock at hrun
        rcases Exec.require_bind_cases hrun with ⟨hvalue, -⟩ | ⟨canonical, hemail, hrun⟩
        · cases hvalue
        rcases Exec.require_bind_cases hrun with ⟨hvalue, -⟩ | ⟨ip, hip, hrun⟩
        · cases hvalue
        rcases Exec.require_bind_cases hrun with ⟨hvalue, -⟩ | ⟨now, hnow, -⟩
        · cases hvalue
        simp [rateCheck, hemail, hip, show clock = some now from hnow]
      · cases hok
  | checkPasskeyLoginRate clientIp =>
      rcases replyWith_cases h with ⟨e, herror, hrun⟩ | ⟨value, hok, -⟩
      · cases herror
        unfold checkPasskeyLoginRate requireIp readClock at hrun
        rcases Exec.require_bind_cases hrun with ⟨hvalue, -⟩ | ⟨ip, hip, hrun⟩
        · cases hvalue
        rcases Exec.require_bind_cases hrun with ⟨hvalue, -⟩ | ⟨now, hnow, -⟩
        · cases hvalue
        simp [rateCheck, hip, show clock = some now from hnow]
      · cases hok
  | _ => cases hop

/-- What a refusal says about the buckets of the check. -/
structure Refusal (db : Db) (check : RateCheck) (db' : Db) : Prop where
  sublist : db'.rateLimits.Sublist db.rateLimits
  running : ∀ row ∈ db.rateLimits,
    check.now < row.windowStartedAt + row.scope.policy.windowSeconds → row ∈ db'.rateLimits
  reason : FullBucket check.policies check.bucket db'.rateLimits ∨
    maxRateLimitRows <
      db'.rateLimits.length + newRows check.policies check.bucket db'.rateLimits

theorem refusal_of_rateCheck {retryAfter : Nat} {db' : Db} (hdb : Reachable env db)
    {check : RateCheck} (hcheck : rateCheck env db call = some check)
    (h : perform env call db = (.error (.loginRateLimited retryAfter), db')) :
    Refusal db check db' := by
  have hstandard := standard_of_rateCheck hcheck
  have hdecides := @reserveAttempt_decides _ _ check.bucket check.now
    (rateInv_of_reachable hdb).table hstandard
  rw [perform_rateCheck hcheck] at h
  unfold RateCheck.reply RateCheck.reserve at h
  generalize reserveAttempt check.policies check.bucket check.now db.rateLimits = result
    at hdecides h
  obtain ⟨hreply, rfl⟩ := Prod.mk.inj h
  cases hdecides with
  | accepted => cases hreply
  | refused hdelay hreason =>
      refine ⟨purgeRates_sublist, ?_, hreason⟩
      intro row hrow hrunning
      apply mem_purgeRates.mpr ⟨hrow, ?_⟩
      intro policy hpolicy hscope
      rw [← hstandard.policy policy hpolicy, hscope]
      exact hrunning

/-- The quota of the login rates, in every run with a non-decreasing clock. -/
theorem login_rate_quota (hdigests : env.InjectiveRates) (calls : List Call)
    (hclock : (calls.flatMap Call.readings).Pairwise (· ≤ ·)) :
    (Db.afterAll env {} calls).rateLimits.length ≤ 1024 ∧
      (∀ row ∈ (Db.afterAll env {} calls).rateLimits,
        row.attemptCount ≤ row.scope.policy.limit) ∧
      (∀ identity before during, calls = before ++ during →
        KeepsAddress env identity (Db.afterAll env {} before) during →
        ∀ first last, last < first + identity.scope.policy.windowSeconds →
          (acceptedAttempts env identity (Db.afterAll env {} before) during).countP
            (fun time => first ≤ time && time ≤ last) ≤ 2 * identity.scope.policy.limit) ∧
      ∀ call retryAfter db', call.op.checksRate = true →
        perform env call (Db.afterAll env {} calls) =
          (.error (.loginRateLimited retryAfter), db') →
        ∃ check, rateCheck env (Db.afterAll env {} calls) call = some check ∧
          Refusal (Db.afterAll env {} calls) check db' := by
  have hdb := reachable_afterAll env calls
  have htable := (rateInv_of_reachable hdb).table
  refine ⟨htable.size, htable.counts, ?_, ?_⟩
  · intro identity before during hcalls hkept first last hshort
    have hstart : (0 :: (before ++ during).flatMap Call.readings).Pairwise (· ≤ ·) := by
      rw [← hcalls]
      exact List.pairwise_cons.mpr ⟨fun _ _ => Nat.zero_le _, hclock⟩
    have hquota := quota_of_suffix hdigests ⟨[], rfl⟩ (fun _ hrow => nomatch hrow) hstart hkept
    apply Nat.le_trans _ (hquota first)
    apply List.countP_mono_left
    intro time _ htime
    simp only [Bool.and_eq_true, decide_eq_true_eq] at htime ⊢
    omega
  · intro call retryAfter db' hop hrefused
    obtain ⟨check, hcheck⟩ := rateCheck_of_refused hop hrefused
    exact ⟨check, hcheck, refusal_of_rateCheck hdb hcheck hrefused⟩

theorem sampleEnv_injectiveRates : sampleEnv.InjectiveRates where
  value kind _ _ h := by
    have hlists := congrArg String.toList h
    simp only [sampleEnv, String.toList_append] at hlists
    exact String.toList_inj.mp (List.append_cancel_left hlists)
  kind kind hkind kind' hkind' value value' h := by
    have hcolon : ∀ kind ∈ rateKinds, ':' ∉ kind.toList := by decide
    exact append_separator_inj rfl (hcolon kind hkind) (hcolon kind' hkind') h

def sampleAttempts : List Call :=
  [⟨.checkLoginRate "ann@example.org" "10.0.0.1", sampleRandom 0, some 100, none⟩,
    ⟨.checkLoginRate "bob@example.org" "10.0.0.1", sampleRandom 0, some 250, none⟩]

theorem login_rate_quota_global :
    acceptedAttempts sampleEnv .global {} sampleAttempts = [100, 250] ∧
      ∀ first last, last < first + 300 →
        (acceptedAttempts sampleEnv .global {} sampleAttempts).countP
          (fun time => first ≤ time && time ≤ last) ≤ 240 := by
  refine ⟨by decide +kernel, ?_⟩
  have hquota := login_rate_quota sampleEnv_injectiveRates sampleAttempts (by decide)
  exact hquota.2.2.1 .global [] sampleAttempts rfl nofun

end MaddyWeb.Auth
