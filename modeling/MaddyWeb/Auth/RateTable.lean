import MaddyWeb.Auth.RateLimits
import Mathlib.Data.List.Nodup

/-!
# The table of the login rates

The table has one row a bucket, at most `maxRateLimitRows` rows, and no row counts
more attempts than the limit of its scope.  The two checks purge with the same
windows, so a row that they leave is one whose window is open.
-/

namespace MaddyWeb.Auth

open MaddyWeb.Library

variable {rows : List RateRow} {policies : List RatePolicy} {bucket : RateScope → RateBucket}
  {now : Nat} {scope : RateScope} {digest : Digest}

/-- The entry of a scope in `_RATE_POLICIES`. -/
def RateScope.policy : RateScope → RatePolicy
  | .global => ⟨.global, 120, 5 * 60⟩
  | .ip => ⟨.ip, 30, 5 * 60⟩
  | .account => ⟨.account, 15, 15 * 60⟩
  | .pair => ⟨.pair, 10, 15 * 60⟩

/-- The policies of a check agree with `_RATE_POLICIES`. -/
structure Standard (policies : List RatePolicy) : Prop where
  scopes : (policies.map (·.scope)).Nodup
  policy : ∀ policy ∈ policies, policy.scope.policy = policy
  window : 0 < largestWindow policies

theorem standard_ratePolicies : Standard ratePolicies := by
  constructor <;> decide

theorem standard_passkeyLoginRatePolicies : Standard passkeyLoginRatePolicies := by
  constructor <;> decide

theorem RateScope.policy_pos (scope : RateScope) :
    0 < scope.policy.limit ∧ 0 < scope.policy.windowSeconds := by
  cases scope <;> decide

def RateRow.key (row : RateRow) : RateScope × Digest := (row.scope, row.identityDigest)

structure RateTable (rows : List RateRow) : Prop where
  keys : (rows.map RateRow.key).Nodup
  size : rows.length ≤ maxRateLimitRows
  counts : ∀ row ∈ rows, row.attemptCount ≤ row.scope.policy.limit

theorem RateTable.sublist {rows' : List RateRow} (h : RateTable rows) (hsub : rows'.Sublist rows) :
    RateTable rows' where
  keys := h.keys.sublist (hsub.map _)
  size := Nat.le_trans hsub.length_le h.size
  counts row hrow := h.counts row (hsub.subset hrow)

theorem purgeRates_sublist : (purgeRates policies now rows).Sublist rows := List.filter_sublist

theorem trimRates_of_le (h : rows.length ≤ maxRateLimitRows) : trimRates rows = rows := by
  unfold trimRates oldest
  rw [Nat.sub_eq_zero_of_le h, List.take_zero]
  simp

/-! ## Looking up a bucket -/

theorem findRate_eq_some {row : RateRow} (h : findRate rows scope digest = some row) :
    row ∈ rows ∧ row.scope = scope ∧ row.identityDigest = digest := by
  have hkey := List.find?_some h
  simp only [Bool.and_eq_true, beq_iff_eq] at hkey
  exact ⟨List.mem_of_find?_eq_some h, hkey.1, hkey.2⟩

theorem findRate_eq_none (h : findRate rows scope digest = none) :
    ∀ row ∈ rows, row.key ≠ (scope, digest) := by
  intro row hrow heq
  have hnone := List.find?_eq_none.mp h row hrow
  unfold RateRow.key at heq
  obtain ⟨rfl, rfl⟩ := Prod.mk.inj heq
  simp at hnone

/-- The keys tell the rows apart. -/
theorem findRate_of_mem (hkeys : (rows.map RateRow.key).Nodup) {row : RateRow} (hrow : row ∈ rows) :
    findRate rows row.scope row.identityDigest = some row := by
  cases hfound : findRate rows row.scope row.identityDigest with
  | none => exact absurd rfl (findRate_eq_none hfound row hrow)
  | some found =>
      obtain ⟨hmem, hscope, hdigest⟩ := findRate_eq_some hfound
      have hkey : found.key = row.key := Prod.ext hscope hdigest
      rw [List.inj_on_of_nodup_map hkeys hmem hrow hkey]

/-- When the window of a bucket began and how many attempts it has counted. -/
def windowAt (rows : List RateRow) (scope : RateScope) (digest : Digest) : Option (Nat × Nat) :=
  (findRate rows scope digest).map fun row => (row.windowStartedAt, row.attemptCount)

theorem windowAt_eq_some {start count : Nat}
    (h : windowAt rows scope digest = some (start, count)) :
    ∃ row ∈ rows, row.scope = scope ∧ row.identityDigest = digest ∧ row.windowStartedAt = start ∧
      row.attemptCount = count := by
  obtain ⟨row, hrow, heq⟩ := Option.map_eq_some_iff.mp h
  obtain ⟨hmem, hscope, hdigest⟩ := findRate_eq_some hrow
  obtain ⟨hstart, hcount⟩ := Prod.mk.inj heq
  exact ⟨row, hmem, hscope, hdigest, hstart, hcount⟩

theorem windowAt_of_mem (hkeys : (rows.map RateRow.key).Nodup) {row : RateRow}
    (hrow : row ∈ rows) (hscope : row.scope = scope) (hdigest : row.identityDigest = digest) :
    windowAt rows scope digest = some (row.windowStartedAt, row.attemptCount) := by
  rw [← hscope, ← hdigest, windowAt, findRate_of_mem hkeys hrow, Option.map_some]

/-- A deletion that spares the rows of a bucket spares its window. -/
theorem windowAt_sublist {rows' : List RateRow} (hkeys : (rows.map RateRow.key).Nodup)
    (hsub : rows'.Sublist rows)
    (h : ∀ row ∈ rows, row.scope = scope → row.identityDigest = digest → row ∈ rows') :
    windowAt rows' scope digest = windowAt rows scope digest := by
  cases hwindow : windowAt rows scope digest with
  | some window =>
      obtain ⟨row, hrow, hscope, hdigest, hstart, hcount⟩ :=
        @windowAt_eq_some _ _ _ window.1 window.2 hwindow
      rw [windowAt_of_mem (hkeys.sublist (hsub.map _)) (h row hrow hscope hdigest) hscope hdigest,
        hstart, hcount]
  | none =>
      cases hleft : windowAt rows' scope digest with
      | none => rfl
      | some window =>
          obtain ⟨row, hrow, hscope, hdigest, -⟩ :=
            @windowAt_eq_some _ _ _ window.1 window.2 hleft
          rw [windowAt_of_mem hkeys (hsub.subset hrow) hscope hdigest] at hwindow
          cases hwindow

/-! ## Ended windows -/

theorem mem_purgeRates {row : RateRow} :
    row ∈ purgeRates policies now rows ↔ row ∈ rows ∧ ∀ policy ∈ policies,
      policy.scope = row.scope → now < row.windowStartedAt + policy.windowSeconds := by
  unfold purgeRates
  rw [List.mem_filter]
  apply and_congr_right
  intro _
  simp only [Bool.not_eq_true', List.any_eq_false, Bool.and_eq_true, beq_iff_eq,
    decide_eq_true_eq, not_and, Nat.not_le]
  exact forall₂_congr fun policy _ => by rw [eq_comm]

/-- A window that the purge leaves is open, and one that it takes has ended. -/
theorem windowAt_purgeRates (hkeys : (rows.map RateRow.key).Nodup) (hstandard : Standard policies)
    (hscope : scope ∈ policies.map (·.scope)) :
    windowAt (purgeRates policies now rows) scope digest =
      (windowAt rows scope digest).filter fun window =>
        now < window.1 + scope.policy.windowSeconds := by
  obtain ⟨policy, hpolicy, rfl⟩ := List.mem_map.mp hscope
  rw [hstandard.policy policy hpolicy]
  have hleft : ∀ start count,
      windowAt (purgeRates policies now rows) policy.scope digest = some (start, count) →
        windowAt rows policy.scope digest = some (start, count) ∧
          now < start + policy.windowSeconds := by
    intro start count hwindow
    obtain ⟨row, hrow, hscope, hdigest, rfl, rfl⟩ := windowAt_eq_some hwindow
    obtain ⟨hrow, hlive⟩ := mem_purgeRates.mp hrow
    exact ⟨windowAt_of_mem hkeys hrow hscope hdigest, hlive policy hpolicy hscope.symm⟩
  cases hpurged : windowAt (purgeRates policies now rows) policy.scope digest with
  | some window =>
      obtain ⟨hwindow, hlive⟩ := hleft window.1 window.2 hpurged
      rw [hwindow, Option.filter_some_pos (by simpa using hlive)]
  | none =>
      cases hwindow : windowAt rows policy.scope digest with
      | none => rfl
      | some window =>
          rw [Option.filter_some_neg]
          rw [decide_eq_false_iff_not]
          intro hlive
          obtain ⟨row, hrow, hscope, hdigest, hstart, -⟩ :=
            @windowAt_eq_some _ _ _ window.1 window.2 hwindow
          -- the purge only takes rows of this scope whose window has ended
          have hkept : row ∈ purgeRates policies now rows := by
            apply mem_purgeRates.mpr ⟨hrow, ?_⟩
            intro policy' hpolicy' hsame
            have heq : policy' = policy := by
              rw [← hstandard.policy policy' hpolicy', ← hstandard.policy policy hpolicy, hsame,
                hscope]
            rw [heq, hstart]
            exact hlive
          rw [windowAt_of_mem (hkeys.sublist (purgeRates_sublist.map _)) hkept hscope hdigest]
            at hpurged
          cases hpurged

theorem windowAt_purgeRates_of_not_mem (hkeys : (rows.map RateRow.key).Nodup)
    (hscope : scope ∉ policies.map (·.scope)) :
    windowAt (purgeRates policies now rows) scope digest = windowAt rows scope digest := by
  apply windowAt_sublist hkeys purgeRates_sublist
  intro row hrow hsame _
  apply mem_purgeRates.mpr ⟨hrow, ?_⟩
  intro policy hpolicy heq
  exact absurd (List.mem_map.mpr ⟨policy, hpolicy, heq.trans hsame⟩) hscope

/-! ## Counting an attempt -/

/-- An attempt opens a window or counts in the open one. -/
def bump (now : Nat) : Option (Nat × Nat) → Nat × Nat
  | none => (now, 1)
  | some window => (window.1, window.2 + 1)

theorem windowAt_append (row : RateRow) (h : findRate rows row.scope row.identityDigest = none) :
    windowAt (rows ++ [row]) scope digest =
      if row.key = (scope, digest) then some (row.windowStartedAt, row.attemptCount)
      else windowAt rows scope digest := by
  unfold windowAt findRate at *
  rw [List.find?_append]
  split
  · next hkey =>
      obtain ⟨rfl, rfl⟩ := Prod.mk.inj hkey
      rw [h, Option.none_or, List.find?_singleton]
      simp
  · next hkey =>
      rw [List.find?_singleton, if_neg, Option.or_none]
      intro heq
      simp only [Bool.and_eq_true, beq_iff_eq] at heq
      exact hkey (Prod.ext heq.1 heq.2)

theorem countAttempt_of_none (policy : RatePolicy)
    (h : findRate rows policy.scope (bucket policy.scope).identityDigest = none) :
    countAttempt bucket now rows policy = rows ++ [⟨policy.scope,
      (bucket policy.scope).identityDigest, (bucket policy.scope).accountId,
      (bucket policy.scope).accountIdentityDigest, now, 1⟩] := by
  unfold countAttempt
  dsimp only
  rw [h]

/-- One attempt more in the row of a bucket. -/
def RateRow.counted (target : RateBucket) (row : RateRow) : RateRow :=
  { row with
    accountId := target.accountId <|> row.accountId
    accountIdentityDigest := target.accountIdentityDigest <|> row.accountIdentityDigest
    attemptCount := row.attemptCount + 1 }

theorem countAttempt_of_some (policy : RatePolicy) {found : RateRow}
    (h : findRate rows policy.scope (bucket policy.scope).identityDigest = some found) :
    countAttempt bucket now rows policy = rows.map fun row =>
      if row.key = (policy.scope, (bucket policy.scope).identityDigest) then
        row.counted (bucket policy.scope)
      else row := by
  unfold countAttempt
  dsimp only
  rw [h]
  apply List.map_congr_left
  intro row _
  simp [RateRow.key, RateRow.counted]

theorem windowAt_map (target : RateBucket) (scope' : RateScope) (digest' : Digest) :
    windowAt (rows.map fun row => if row.key = (scope', digest') then row.counted target else row)
        scope digest =
      if scope' = scope ∧ digest' = digest then
        (windowAt rows scope digest).map fun window => (window.1, window.2 + 1)
      else windowAt rows scope digest := by
  unfold windowAt findRate
  rw [List.find?_map]
  have hpredicate : ((fun row : RateRow => row.scope == scope && row.identityDigest == digest) ∘
      fun row => if row.key = (scope', digest') then row.counted target else row) =
      fun row => row.scope == scope && row.identityDigest == digest := by
    funext row
    rw [Function.comp_apply]
    split <;> rfl
  rw [hpredicate]
  cases hfound : rows.find? fun row => row.scope == scope && row.identityDigest == digest with
  | none => simp
  | some found =>
      obtain ⟨-, rfl, rfl⟩ := findRate_eq_some hfound
      simp only [Option.map_some, RateRow.key, Prod.mk.injEq]
      by_cases hsame : found.scope = scope' ∧ found.identityDigest = digest'
      · rw [if_pos hsame, if_pos ⟨hsame.1.symm, hsame.2.symm⟩]
        rfl
      · rw [if_neg hsame, if_neg fun h => hsame ⟨h.1.symm, h.2.symm⟩]

theorem windowAt_countAttempt (policy : RatePolicy) :
    windowAt (countAttempt bucket now rows policy) scope digest =
      if policy.scope = scope ∧ (bucket policy.scope).identityDigest = digest then
        some (bump now (windowAt rows scope digest))
      else windowAt rows scope digest := by
  cases hfound : findRate rows policy.scope (bucket policy.scope).identityDigest with
  | none =>
      rw [countAttempt_of_none policy hfound, windowAt_append _ hfound]
      simp only [RateRow.key, Prod.mk.injEq]
      split
      · next hkey =>
          obtain ⟨rfl, rfl⟩ := hkey
          rw [windowAt, hfound]
          rfl
      · rfl
  | some found =>
      rw [countAttempt_of_some policy hfound, windowAt_map]
      split
      · next hkey =>
          obtain ⟨rfl, rfl⟩ := hkey
          rw [windowAt, hfound]
          rfl
      · rfl

/-- An attempt counts once in each of its buckets. -/
theorem windowAt_countAll (hscopes : (policies.map (·.scope)).Nodup) :
    windowAt (policies.foldl (countAttempt bucket now) rows) scope digest =
      if scope ∈ policies.map (·.scope) ∧ (bucket scope).identityDigest = digest then
        some (bump now (windowAt rows scope digest))
      else windowAt rows scope digest := by
  induction policies generalizing rows with
  | nil => simp
  | cons policy policies ih =>
      obtain ⟨hnot, hrest⟩ := List.nodup_cons.mp hscopes
      rw [List.foldl_cons, ih hrest, windowAt_countAttempt]
      by_cases hscope : policy.scope = scope
      · subst hscope
        rw [if_neg fun h => hnot h.1]
        simp
      · have hother : ¬ (policy.scope = scope ∧ (bucket policy.scope).identityDigest = digest) :=
          fun h => hscope h.1
        rw [if_neg hother]
        simp [Ne.symm hscope]

/-- The rows that an attempt adds. -/
def newRows (policies : List RatePolicy) (bucket : RateScope → RateBucket) (rows : List RateRow) :
    Nat :=
  (policies.filter fun policy =>
    (windowAt rows policy.scope (bucket policy.scope).identityDigest).isNone).length

theorem length_countAttempt (policy : RatePolicy) :
    (countAttempt bucket now rows policy).length = rows.length +
      if (windowAt rows policy.scope (bucket policy.scope).identityDigest).isNone then 1
      else 0 := by
  cases hfound : findRate rows policy.scope (bucket policy.scope).identityDigest with
  | none =>
      rw [countAttempt_of_none policy hfound, windowAt, hfound]
      simp
  | some found =>
      rw [countAttempt_of_some policy hfound, windowAt, hfound]
      simp

theorem length_countAll (hscopes : (policies.map (·.scope)).Nodup) :
    (policies.foldl (countAttempt bucket now) rows).length =
      rows.length + newRows policies bucket rows := by
  induction policies generalizing rows with
  | nil => rfl
  | cons policy policies ih =>
      obtain ⟨hnot, hrest⟩ := List.nodup_cons.mp hscopes
      have hsame : newRows policies bucket (countAttempt bucket now rows policy) =
          newRows policies bucket rows := by
        unfold newRows
        congr 1
        apply List.filter_congr
        intro other hother
        have hne : ¬ policy.scope = other.scope := fun heq =>
          hnot (List.mem_map.mpr ⟨other, hother, heq.symm⟩)
        rw [windowAt_countAttempt, if_neg fun h => hne h.1]
      rw [List.foldl_cons, ih hrest, hsame, length_countAttempt]
      unfold newRows
      rw [List.filter_cons]
      split
      · rw [List.length_cons]
        omega
      · rfl

theorem nodup_countAttempt (h : (rows.map RateRow.key).Nodup) (policy : RatePolicy) :
    ((countAttempt bucket now rows policy).map RateRow.key).Nodup := by
  cases hfound : findRate rows policy.scope (bucket policy.scope).identityDigest with
  | none =>
      have hfresh :
          (policy.scope, (bucket policy.scope).identityDigest) ∉ rows.map RateRow.key := by
        intro hmem
        obtain ⟨row, hrow, hkey⟩ := List.mem_map.mp hmem
        exact findRate_eq_none hfound row hrow hkey
      have hnodup := h.concat hfresh
      rw [List.concat_eq_append] at hnodup
      rw [countAttempt_of_none policy hfound, List.map_append]
      exact hnodup
  | some found =>
      rw [countAttempt_of_some policy hfound, List.map_map]
      have hkeys : (RateRow.key ∘ fun row => if row.key =
          (policy.scope, (bucket policy.scope).identityDigest) then
            row.counted (bucket policy.scope) else row) = RateRow.key := by
        funext row
        rw [Function.comp_apply]
        split <;> rfl
      rw [hkeys]
      exact h

theorem nodup_countAll (h : (rows.map RateRow.key).Nodup) :
    ((policies.foldl (countAttempt bucket now) rows).map RateRow.key).Nodup := by
  induction policies generalizing rows with
  | nil => exact h
  | cons policy policies ih => exact ih (nodup_countAttempt h policy)

/-! ## A check -/

/-- One of the buckets of a check is full. -/
def FullBucket (policies : List RatePolicy) (bucket : RateScope → RateBucket)
    (rows : List RateRow) : Prop :=
  ∃ policy ∈ policies, ∃ row ∈ rows, row.scope = policy.scope ∧
    row.identityDigest = (bucket policy.scope).identityDigest ∧ policy.limit ≤ row.attemptCount

theorem RateTable.countAll (h : RateTable rows) (hstandard : Standard policies)
    (hfull : ¬ FullBucket policies bucket rows)
    (hroom : rows.length + newRows policies bucket rows ≤ maxRateLimitRows) :
    RateTable (policies.foldl (countAttempt bucket now) rows) := by
  have hkeys : ((policies.foldl (countAttempt bucket now) rows).map RateRow.key).Nodup :=
    nodup_countAll h.keys
  refine ⟨hkeys, ?_, ?_⟩
  · rw [length_countAll hstandard.scopes]
    exact hroom
  · intro row hrow
    have hwindow := windowAt_of_mem hkeys hrow rfl rfl
    rw [windowAt_countAll hstandard.scopes] at hwindow
    split at hwindow
    · next hcounted =>
        obtain ⟨policy, hpolicy, hscope⟩ := List.mem_map.mp hcounted.1
        cases hold : windowAt rows row.scope row.identityDigest with
        | none =>
            rw [hold] at hwindow
            have hone : 1 = row.attemptCount := congrArg Prod.snd (Option.some.inj hwindow)
            have hpos := row.scope.policy_pos.1
            omega
        | some window =>
            rw [hold] at hwindow
            have hnext : window.2 + 1 = row.attemptCount :=
              congrArg Prod.snd (Option.some.inj hwindow)
            obtain ⟨old, hmem, hscope', hdigest, -, hcount⟩ :=
              @windowAt_eq_some _ _ _ window.1 window.2 hold
            have hspare : old.attemptCount < policy.limit := by
              by_contra hlimit
              apply hfull
              refine ⟨policy, hpolicy, old, hmem, hscope'.trans hscope.symm, ?_,
                Nat.le_of_not_lt hlimit⟩
              rw [hdigest, hscope, hcounted.2]
            have hlimit : row.scope.policy.limit = policy.limit := by
              rw [← hscope, hstandard.policy policy hpolicy]
            omega
    · obtain ⟨old, hmem, hscope, -, -, hcount⟩ := windowAt_eq_some hwindow
      rw [← hcount, ← hscope]
      exact h.counts old hmem

theorem foldl_max_eq_zero {α : Type} {f : α → Nat} {xs : List α} {start : Nat} :
    xs.foldl (fun delay x => max delay (f x)) start = 0 ↔ start = 0 ∧ ∀ x ∈ xs, f x = 0 := by
  induction xs generalizing start with
  | nil => simp
  | cons x xs ih =>
      rw [List.foldl_cons, ih, List.forall_mem_cons, Nat.max_eq_zero_iff, and_assoc]

/-- What a check decides, for a table that is not over its size. -/
inductive Decides (policies : List RatePolicy) (bucket : RateScope → RateBucket) (now : Nat)
    (rows : List RateRow) : Nat × List RateRow → Prop
  | refused {delay : Nat} (hdelay : delay ≠ 0)
      (hreason : FullBucket policies bucket (purgeRates policies now rows) ∨
        maxRateLimitRows < (purgeRates policies now rows).length +
          newRows policies bucket (purgeRates policies now rows)) :
      Decides policies bucket now rows (delay, purgeRates policies now rows)
  | accepted (hfull : ¬ FullBucket policies bucket (purgeRates policies now rows))
      (hroom : (purgeRates policies now rows).length +
        newRows policies bucket (purgeRates policies now rows) ≤ maxRateLimitRows) :
      Decides policies bucket now rows
        (0, policies.foldl (countAttempt bucket now) (purgeRates policies now rows))

/-- The delay of a check is zero as long as no bucket is full. -/
theorem delay_eq_zero_iff (hstandard : Standard policies) :
    (policies.map fun policy =>
        (policy, findRate (purgeRates policies now rows) policy.scope
          (bucket policy.scope).identityDigest)).foldl
      (fun delay pair => max delay ((pair.2.map (bucketDelay pair.1 now)).getD 0)) 0 = 0 ↔
      ∀ policy ∈ policies, ∀ row ∈ findRate (purgeRates policies now rows) policy.scope
        (bucket policy.scope).identityDigest, row.attemptCount < policy.limit := by
  rw [foldl_max_eq_zero, List.forall_mem_map]
  simp only [true_and]
  apply forall₂_congr
  intro policy hpolicy
  cases hfound : findRate (purgeRates policies now rows) policy.scope
      (bucket policy.scope).identityDigest with
  | none => simp
  | some row =>
      obtain ⟨hrow, hscope, -⟩ := findRate_eq_some hfound
      -- the purge has left only open windows, which still have some time to run
      have hlive := (mem_purgeRates.mp hrow).2 policy hpolicy hscope.symm
      have hwindow := policy.scope.policy_pos.2
      rw [hstandard.policy policy hpolicy] at hwindow
      simp only [Option.map_some, Option.getD_some, Option.mem_def, Option.some.injEq,
        forall_eq', bucketDelay]
      split <;> omega

theorem fullBucket_iff (hkeys : (rows.map RateRow.key).Nodup) :
    FullBucket policies bucket rows ↔ ¬ ∀ policy ∈ policies, ∀ row ∈
      findRate rows policy.scope (bucket policy.scope).identityDigest,
        row.attemptCount < policy.limit := by
  constructor
  · rintro ⟨policy, hpolicy, row, hrow, hscope, hdigest, hlimit⟩ hspare
    have hfound := findRate_of_mem hkeys hrow
    rw [hscope, hdigest] at hfound
    have hlt := hspare policy hpolicy row hfound
    omega
  · intro hfull
    simp only [not_forall] at hfull
    obtain ⟨policy, hpolicy, row, hfound, hlimit⟩ := hfull
    obtain ⟨hrow, hscope, hdigest⟩ := findRate_eq_some hfound
    exact ⟨policy, hpolicy, row, hrow, hscope, hdigest, Nat.le_of_not_lt hlimit⟩

theorem reserveAttempt_decides (h : RateTable rows) (hstandard : Standard policies) :
    Decides policies bucket now rows (reserveAttempt policies bucket now rows) := by
  have hlive := h.sublist (@purgeRates_sublist rows policies now)
  have hnew : ((policies.map fun policy =>
      (policy, findRate (purgeRates policies now rows) policy.scope
        (bucket policy.scope).identityDigest)).filter (·.2.isNone)).length =
      newRows policies bucket (purgeRates policies now rows) := by
    rw [List.filter_map, List.length_map]
    unfold newRows windowAt
    congr 1
    apply List.filter_congr
    intro policy _
    simp
  unfold reserveAttempt
  dsimp only
  rw [trimRates_of_le hlive.size, if_neg (Nat.not_lt_of_le hlive.size), hnew]
  generalize hdelay : List.foldl _ 0 _ = delay
  generalize hneeded : (purgeRates policies now rows).length +
    newRows policies bucket (purgeRates policies now rows) = needed
  by_cases hzero : delay = 0
  · have hspare := (delay_eq_zero_iff hstandard).mp (hdelay.trans hzero)
    have hfull : ¬ FullBucket policies bucket (purgeRates policies now rows) := by
      rw [fullBucket_iff hlive.keys, not_not]
      exact hspare
    by_cases hroom : maxRateLimitRows < needed
    · have hretry : (if delay = 0 ∧ maxRateLimitRows < needed then largestWindow policies
          else delay) = largestWindow policies := if_pos ⟨hzero, hroom⟩
      rw [hretry, if_neg (Nat.ne_of_gt hstandard.window)]
      exact .refused (Nat.ne_of_gt hstandard.window) (Or.inr (hneeded ▸ hroom))
    · have hretry : (if delay = 0 ∧ maxRateLimitRows < needed then largestWindow policies
          else delay) = 0 := (if_neg fun h => hroom h.2).trans hzero
      rw [hretry, if_pos rfl]
      exact .accepted hfull (hneeded ▸ Nat.le_of_not_lt hroom)
  · have hretry : (if delay = 0 ∧ maxRateLimitRows < needed then largestWindow policies
        else delay) = delay := if_neg fun h => hzero h.1
    rw [hretry, if_neg hzero]
    apply Decides.refused hzero (Or.inl ?_)
    rw [fullBucket_iff hlive.keys]
    exact fun hspare => hzero (hdelay.symm.trans ((delay_eq_zero_iff hstandard).mpr hspare))

/-- A check keeps the table in order. -/
theorem RateTable.reserveAttempt (h : RateTable rows) (hstandard : Standard policies) :
    RateTable (reserveAttempt policies bucket now rows).2 := by
  have hlive := h.sublist (@purgeRates_sublist rows policies now)
  have hdecides := @reserveAttempt_decides _ _ bucket now h hstandard
  cases hrun : Auth.reserveAttempt policies bucket now rows with
  | mk delay rows' =>
      rw [hrun] at hdecides
      cases hdecides with
      | refused => exact hlive
      | accepted hfull hroom => exact hlive.countAll hstandard hfull hroom

end MaddyWeb.Auth
