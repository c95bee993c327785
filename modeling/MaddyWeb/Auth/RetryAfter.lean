import MaddyWeb.Auth.RateQuota

/-!
# The delay of a refused attempt

A refused check tells when the last of its full buckets ends.  Until then the row of that bucket
stays, unless something else than a check takes it; from then on no bucket of the check is full,
unless an attempt has been accepted meanwhile.
-/

namespace MaddyWeb.Auth

open MaddyWeb.Library

variable {env : Env} {db : Db} {call : Call} {rows : List RateRow} {row : RateRow}
  {check : RateCheck}

/-! ## Full buckets -/

/-- The rows of the buckets that the check finds full. -/
def RateCheck.fullRows (check : RateCheck) (rows : List RateRow) : List RateRow :=
  (purgeRates check.policies check.now rows).filter fun row => check.policies.any fun policy =>
    row.scope == policy.scope && row.identityDigest == (check.bucket policy.scope).identityDigest &&
      policy.limit ≤ row.attemptCount

theorem mem_fullRows : row ∈ check.fullRows rows ↔
    row ∈ purgeRates check.policies check.now rows ∧ ∃ policy ∈ check.policies,
      row.scope = policy.scope ∧ row.identityDigest = (check.bucket policy.scope).identityDigest ∧
        policy.limit ≤ row.attemptCount := by
  unfold RateCheck.fullRows
  rw [List.mem_filter, List.any_eq_true]
  simp only [Bool.and_eq_true, beq_iff_eq, decide_eq_true_eq, and_assoc]

theorem fullBucket_iff_fullRows :
    FullBucket check.policies check.bucket (purgeRates check.policies check.now rows) ↔
      check.fullRows rows ≠ [] := by
  unfold FullBucket
  constructor
  · rintro ⟨policy, hpolicy, row, hrow, hfull⟩
    exact List.ne_nil_of_mem (mem_fullRows.mpr ⟨hrow, policy, hpolicy, hfull⟩)
  · intro h
    obtain ⟨row, hrow⟩ := List.exists_mem_of_ne_nil _ h
    obtain ⟨hlive, policy, hpolicy, hfull⟩ := mem_fullRows.mp hrow
    exact ⟨policy, hpolicy, row, hlive, hfull⟩

/-- When the window of the row ends. -/
def RateRow.ends (row : RateRow) : Nat := row.windowStartedAt + row.scope.policy.windowSeconds

theorem mem_purgeRates_iff {policies : List RatePolicy} {now : Nat} (hstandard : Standard policies)
    (hrow : row ∈ rows) (hscope : row.scope ∈ policies.map (·.scope)) :
    row ∈ purgeRates policies now rows ↔ now < row.ends := by
  rw [mem_purgeRates]
  unfold RateRow.ends
  constructor
  · rintro ⟨-, h⟩
    obtain ⟨policy, hpolicy, hsame⟩ := List.mem_map.mp hscope
    rw [← hsame, hstandard.policy policy hpolicy]
    exact h policy hpolicy hsame
  · intro h
    refine ⟨hrow, fun policy hpolicy hsame => ?_⟩
    rw [← hstandard.policy policy hpolicy, hsame]
    exact h

theorem foldl_max_spec {α : Type} (f : α → Nat) (xs : List α) (start : Nat) :
    start ≤ xs.foldl (fun delay x => max delay (f x)) start ∧
      (∀ x ∈ xs, f x ≤ xs.foldl (fun delay x => max delay (f x)) start) ∧
      (xs.foldl (fun delay x => max delay (f x)) start = start ∨
        ∃ x ∈ xs, f x = xs.foldl (fun delay x => max delay (f x)) start) := by
  induction xs generalizing start with
  | nil => exact ⟨Nat.le_refl _, nofun, Or.inl rfl⟩
  | cons x xs ih =>
      rw [List.foldl_cons]
      obtain ⟨hstart, hall, hattained⟩ := ih (max start (f x))
      have hleft := Nat.le_max_left start (f x)
      have hright := Nat.le_max_right start (f x)
      refine ⟨Nat.le_trans hleft hstart, ?_, ?_⟩
      · exact List.forall_mem_cons.mpr ⟨Nat.le_trans hright hstart, hall⟩
      · rcases hattained with heq | ⟨y, hy, heq⟩
        · rcases Nat.le_total start (f x) with hle | hle
          · rw [heq]
            exact Or.inr ⟨x, List.mem_cons_self, (Nat.max_eq_right hle).symm⟩
          · rw [heq]
            exact Or.inl (Nat.max_eq_left hle)
        · exact Or.inr ⟨y, List.mem_cons_of_mem _ hy, heq⟩

/-- The delay of a check with full buckets is the longest of theirs. -/
theorem reserveAttempt_delay {policies : List RatePolicy} {bucket : RateScope → RateBucket}
    {now : Nat} (htable : RateTable rows) (hstandard : Standard policies)
    (hfull : FullBucket policies bucket (purgeRates policies now rows)) :
    (reserveAttempt policies bucket now rows).1 ≠ 0 ∧
      (reserveAttempt policies bucket now rows).1 = (policies.map fun policy =>
        (policy, findRate (purgeRates policies now rows) policy.scope
          (bucket policy.scope).identityDigest)).foldl
        (fun delay pair => max delay ((pair.2.map (bucketDelay pair.1 now)).getD 0)) 0 := by
  have hlive := htable.sublist (@purgeRates_sublist rows policies now)
  have hdelay := mt (@delay_eq_zero_iff _ _ bucket now hstandard).mp
    ((fullBucket_iff hlive.keys).mp hfull)
  unfold reserveAttempt
  dsimp only
  rw [trimRates_of_le hlive.size, if_neg (Nat.not_lt_of_le hlive.size)]
  generalize List.foldl _ 0 _ = delay at hdelay ⊢
  have hretry : ∀ pressure : Prop, [Decidable pressure] →
      (if delay = 0 ∧ pressure then largestWindow policies else delay) = delay :=
    fun pressure _ => if_neg fun h => hdelay h.1
  rw [hretry, if_neg hdelay]
  exact ⟨hdelay, rfl⟩

/-- The delay of a check with full buckets ends when the last of their windows does. -/
theorem delay_ends (htable : RateTable rows) (hstandard : Standard check.policies)
    (hstarted : ∀ row ∈ rows, row.windowStartedAt ≤ check.now) (hfull : check.fullRows rows ≠ []) :
    (∀ row ∈ check.fullRows rows, row.ends ≤ check.now + (check.reserve rows).1) ∧
      ∃ row ∈ check.fullRows rows, row.ends = check.now + (check.reserve rows).1 := by
  have hlive := htable.sublist (@purgeRates_sublist rows check.policies check.now)
  obtain ⟨hne, hdelay⟩ := reserveAttempt_delay htable hstandard (fullBucket_iff_fullRows.mpr hfull)
  obtain ⟨-, hmax, hattained⟩ := foldl_max_spec
    (fun pair : RatePolicy × Option RateRow => (pair.2.map (bucketDelay pair.1 check.now)).getD 0)
    (check.policies.map fun policy =>
      (policy, findRate (purgeRates check.policies check.now rows) policy.scope
        (check.bucket policy.scope).identityDigest)) 0
  unfold RateCheck.reserve
  rw [← hdelay] at hmax hattained
  have hends : ∀ policy ∈ check.policies, ∀ row ∈ purgeRates check.policies check.now rows,
      row.scope = policy.scope → policy.limit ≤ row.attemptCount →
      row.ends = check.now + bucketDelay policy check.now row := by
    intro policy hpolicy row hrow hscope hlimit
    have hstart := hstarted row (mem_purgeRates.mp hrow).1
    have hopen := (mem_purgeRates.mp hrow).2 policy hpolicy hscope.symm
    unfold RateRow.ends bucketDelay
    rw [if_pos hlimit, hscope, hstandard.policy policy hpolicy]
    omega
  constructor
  · intro row hrow
    obtain ⟨hrow, policy, hpolicy, hscope, hdigest, hlimit⟩ := mem_fullRows.mp hrow
    have hfound := findRate_of_mem hlive.keys hrow
    rw [hscope, hdigest] at hfound
    have hle := hmax _ (List.mem_map.mpr ⟨policy, hpolicy, rfl⟩)
    dsimp only at hle
    rw [hfound, Option.map_some, Option.getD_some] at hle
    rw [hends policy hpolicy row hrow hscope hlimit]
    omega
  · obtain ⟨pair, hpair, heq⟩ := hattained.resolve_left hne
    obtain ⟨policy, hpolicy, rfl⟩ := List.mem_map.mp hpair
    dsimp only at heq
    cases hfound : findRate (purgeRates check.policies check.now rows) policy.scope
        (check.bucket policy.scope).identityDigest with
    | none =>
        rw [hfound] at heq
        exact absurd heq.symm hne
    | some row =>
        obtain ⟨hrow, hscope, hdigest⟩ := findRate_eq_some hfound
        rw [hfound, Option.map_some, Option.getD_some] at heq
        -- a bucket that is not full has no delay
        have hlimit : policy.limit ≤ row.attemptCount := by
          by_contra hspare
          unfold bucketDelay at heq
          rw [if_neg hspare] at heq
          exact hne heq.symm
        refine ⟨row, mem_fullRows.mpr ⟨hrow, policy, hpolicy, hscope, hdigest, hlimit⟩, ?_⟩
        rw [hends policy hpolicy row hrow hscope hlimit, heq]

/-! ## Between two checks -/

/-- The call is an attempt that is accepted. -/
def Accepts (env : Env) (db : Db) (call : Call) : Prop :=
  ∃ check, rateCheck env db call = some check ∧ (perform env call db).1 = .ok .done

/-- Something else than a check takes the row out of the table. -/
def ClearsRow (env : Env) (row : RateRow) (db : Db) (call : Call) : Prop :=
  rateCheck env db call = none ∧ row ∈ db.rateLimits ∧ row ∉ (db.after env call).rateLimits

theorem perform_of_full (hdb : Reachable env db) (hcheck : rateCheck env db call = some check)
    (hfull : check.fullRows db.rateLimits ≠ []) :
    (perform env call db).1 = .error (.loginRateLimited (check.reserve db.rateLimits).1) := by
  obtain ⟨hne, -⟩ := reserveAttempt_delay (rateInv_of_reachable hdb).table
    (standard_of_rateCheck hcheck) (fullBucket_iff_fullRows.mpr hfull)
  rw [perform_rateCheck hcheck]
  exact if_neg hne

/-- What the rows are after an attempt that is not accepted. -/
theorem rates_of_not_accepts (hdb : Reachable env db) (hcheck : rateCheck env db call = some check)
    (h : ¬ Accepts env db call) :
    (db.after env call).rateLimits = purgeRates check.policies check.now db.rateLimits := by
  have hperform := perform_rateCheck hcheck
  have hdecides := @reserveAttempt_decides _ _ check.bucket check.now
    (rateInv_of_reachable hdb).table (standard_of_rateCheck hcheck)
  have hrefused : (check.reserve db.rateLimits).1 ≠ 0 := by
    intro hzero
    apply h
    refine ⟨check, hcheck, ?_⟩
    rw [hperform]
    exact if_pos hzero
  unfold Db.after
  rw [hperform]
  unfold RateCheck.reserve at hrefused ⊢
  dsimp only
  generalize reserveAttempt check.policies check.bucket check.now db.rateLimits = result
    at hdecides hrefused
  cases hdecides with
  | refused => rfl
  | accepted => exact absurd rfl hrefused

theorem sublist_after (hdb : Reachable env db) (h : ¬ Accepts env db call) :
    (db.after env call).rateLimits.Sublist db.rateLimits := by
  cases hcheck : rateCheck env db call with
  | none => exact (spares_after hcheck).sublist
  | some check =>
      rw [rates_of_not_accepts hdb hcheck h]
      exact purgeRates_sublist

theorem mem_after (hdb : Reachable env db) (h : ¬ Accepts env db call)
    (hkept : ¬ ClearsRow env row db call) (hrow : row ∈ db.rateLimits)
    (hclock : ∀ now ∈ call.clock, now < row.ends) : row ∈ (db.after env call).rateLimits := by
  cases hcheck : rateCheck env db call with
  | none =>
      by_contra hgone
      exact hkept ⟨hcheck, hrow, hgone⟩
  | some check =>
      have hnow := hclock check.now (clock_of_rateCheck hcheck)
      rw [rates_of_not_accepts hdb hcheck h]
      apply mem_purgeRates.mpr ⟨hrow, ?_⟩
      intro policy hpolicy hscope
      rw [← (standard_of_rateCheck hcheck).policy policy hpolicy, hscope]
      exact hnow

theorem sublist_afterAll {calls : List Call} (hdb : Reachable env db)
    (h : Throughout env (fun db call => ¬ Accepts env db call) db calls) :
    (db.afterAll env calls).rateLimits.Sublist db.rateLimits := by
  induction calls generalizing db with
  | nil => exact List.Sublist.refl _
  | cons call calls ih => exact (ih (hdb.after call) h.2).trans (sublist_after hdb h.1)

theorem mem_afterAll {calls : List Call} (hdb : Reachable env db)
    (h : Throughout env (fun db call => ¬ Accepts env db call) db calls)
    (hkept : Throughout env (fun db call => ¬ ClearsRow env row db call) db calls)
    (hrow : row ∈ db.rateLimits) (hclock : ∀ call ∈ calls, ∀ now ∈ call.clock, now < row.ends) :
    row ∈ (db.afterAll env calls).rateLimits := by
  induction calls generalizing db with
  | nil => exact hrow
  | cons call calls ih =>
      have hafter := mem_after hdb h.1 hkept.1 hrow (hclock call List.mem_cons_self)
      exact ih (hdb.after call) h.2 hkept.2 hafter fun other hother =>
        hclock other (List.mem_cons_of_mem _ hother)

theorem started_afterAll {calls : List Call} {last now : Nat} (hdb : Reachable env db)
    (h : Started db.rateLimits last) (hnow : call.clock = some now)
    (hclock : (last :: (calls ++ [call]).flatMap Call.readings).Pairwise (· ≤ ·)) :
    Started (db.afterAll env calls).rateLimits now := by
  induction calls generalizing db last with
  | nil =>
      have hle : last ≤ now := (readings_step hclock).1 now hnow
      exact fun row hrow => Nat.le_trans (h row hrow) hle
  | cons other calls ih =>
      obtain ⟨hreading, hrest⟩ := readings_step hclock
      exact ih (hdb.after other) (started_after hdb h hreading) hrest

/-! ## The same call again -/

/-- Two checks of the same buckets. -/
structure SameBuckets (check later : RateCheck) : Prop where
  policies : later.policies = check.policies
  digests : ∀ scope, (later.bucket scope).identityDigest = (check.bucket scope).identityDigest

theorem sameBuckets {db' : Db} {again : Call} {later : RateCheck}
    (hcheck : rateCheck env db call = some check) (hlater : rateCheck env db' again = some later)
    (hop : again.op = call.op) : SameBuckets check later := by
  rcases rateCheck_cases hcheck with ⟨email, ip, canonical, address, hcall, hemail, hip, -, heq⟩ |
    ⟨ip, address, hcall, hip, -, heq⟩
  · rcases rateCheck_cases hlater with ⟨_, _, _, _, hagain, hemail', hip', -, heq'⟩ |
      ⟨_, _, hagain, -⟩
    · cases (hagain.symm.trans hop).trans hcall
      cases hemail.symm.trans hemail'
      cases hip.symm.trans hip'
      rw [heq, heq']
      exact ⟨rfl, fun scope => by cases scope <;> rfl⟩
    · cases (hagain.symm.trans hop).trans hcall
  · rcases rateCheck_cases hlater with ⟨_, _, _, _, hagain, -⟩ | ⟨_, _, hagain, hip', -, heq'⟩
    · cases (hagain.symm.trans hop).trans hcall
    · cases (hagain.symm.trans hop).trans hcall
      cases hip.symm.trans hip'
      rw [heq, heq']
      exact ⟨rfl, fun _ => rfl⟩

/-- Without an attempt in between, a bucket that is full later was full before. -/
theorem mem_fullRows_iff {later : RateCheck} {rows' : List RateRow}
    (hstandard : Standard check.policies) (hsame : SameBuckets check later)
    (hrows : ∀ row ∈ rows', row ∈ purgeRates check.policies check.now rows) :
    row ∈ later.fullRows rows' ↔
      row ∈ rows' ∧ row ∈ check.fullRows rows ∧ later.now < row.ends := by
  have hstandard' : Standard later.policies := hsame.policies ▸ hstandard
  rw [mem_fullRows, mem_fullRows, hsame.policies]
  simp only [hsame.digests]
  constructor
  · rintro ⟨hlive, policy, hpolicy, hfull⟩
    have hrow := purgeRates_sublist.subset hlive
    have hscope : row.scope ∈ check.policies.map (·.scope) :=
      List.mem_map.mpr ⟨policy, hpolicy, hfull.1.symm⟩
    exact ⟨hrow, ⟨hrows row hrow, policy, hpolicy, hfull⟩,
      (mem_purgeRates_iff hstandard hrow hscope).mp hlive⟩
  · rintro ⟨hrow, ⟨-, policy, hpolicy, hfull⟩, hlive⟩
    have hscope : row.scope ∈ check.policies.map (·.scope) :=
      List.mem_map.mpr ⟨policy, hpolicy, hfull.1.symm⟩
    exact ⟨(mem_purgeRates_iff hstandard hrow hscope).mpr hlive, policy, hpolicy, hfull⟩

theorem le_largestWindow {policies : List RatePolicy} {policy : RatePolicy}
    (h : policy ∈ policies) :
    policy.windowSeconds ≤ largestWindow policies := by
  unfold largestWindow
  rw [List.foldl_map]
  exact (foldl_max_spec (fun policy : RatePolicy => policy.windowSeconds) policies 0).2.1 policy h

/-- The table has no room for the rows that the check would add. -/
def RateCheck.Pressed (check : RateCheck) (rows : List RateRow) : Prop :=
  maxRateLimitRows < (purgeRates check.policies check.now rows).length +
    newRows check.policies check.bucket (purgeRates check.policies check.now rows)

/-- A check is refused for a full bucket or for the size of the table. -/
theorem accepted_or_pressed (hdb : Reachable env db) (hcheck : rateCheck env db call = some check)
    (hfull : check.fullRows db.rateLimits = []) :
    (perform env call db).1 = .ok .done ∨ check.Pressed db.rateLimits := by
  have hdecides := @reserveAttempt_decides _ _ check.bucket check.now
    (rateInv_of_reachable hdb).table (standard_of_rateCheck hcheck)
  rw [perform_rateCheck hcheck]
  unfold RateCheck.reply RateCheck.reserve
  dsimp only
  generalize reserveAttempt check.policies check.bucket check.now db.rateLimits = result
    at hdecides
  cases hdecides with
  | refused _ hreason =>
      exact Or.inr (hreason.resolve_left fun h => fullBucket_iff_fullRows.mp h hfull)
  | accepted => exact Or.inl (if_pos rfl)

/-- No attempt of the run is accepted. -/
def NoneAccepted (env : Env) : Db → List Call → Prop :=
  Throughout env fun db call => ¬ Accepts env db call

/-- Nothing but a check takes one of the rows. -/
def NoneCleared (env : Env) (rows : List RateRow) (db : Db) (calls : List Call) : Prop :=
  ∀ row ∈ rows, Throughout env (fun db call => ¬ ClearsRow env row db call) db calls

/-- The run in between takes no full row before its window ends. -/
theorem mem_fullRows_later {between : List Call} {refused : Db} {later : RateCheck}
    (hrefused : Reachable env refused)
    (hrates : refused.rateLimits = purgeRates check.policies check.now rows)
    (hstandard : Standard check.policies) (hsame : SameBuckets check later)
    (hquiet : NoneAccepted env refused between)
    (hkept : NoneCleared env (check.fullRows rows) refused between)
    (hclock : ∀ call ∈ between, ∀ now ∈ call.clock, now ≤ later.now)
    (hrow : row ∈ check.fullRows rows) (hends : later.now < row.ends) :
    row ∈ later.fullRows (refused.afterAll env between).rateLimits := by
  have hsub := sublist_afterAll hrefused hquiet
  rw [hrates] at hsub
  apply (mem_fullRows_iff hstandard hsame fun other hother => hsub.subset hother).mpr
  refine ⟨?_, hrow, hends⟩
  apply mem_afterAll hrefused hquiet (hkept row hrow)
  · rw [hrates]
    exact (mem_fullRows.mp hrow).1
  · intro call hcall now hnow
    exact Nat.lt_of_le_of_lt (hclock call hcall now hnow) hends

/-- The readings before a call, of the run in between and of the call again. -/
theorem readings_between {calls between : List Call} {call again : Call} {now now' : Nat}
    (hclock : ((calls ++ [call] ++ between ++ [again]).flatMap Call.readings).Pairwise (· ≤ ·))
    (hnow : call.clock = some now) (hnow' : again.clock = some now') :
    now ≤ now' ∧ ∀ other ∈ between, ∀ reading ∈ other.clock, reading ≤ now' := by
  have hreading : ∀ {call : Call} {now : Nat}, call.clock = some now → now ∈ call.readings :=
    fun h => List.mem_append_left _ (Option.mem_toList.mpr h)
  rw [List.flatMap_append] at hclock
  obtain ⟨-, -, hagain⟩ := List.pairwise_append.mp hclock
  have hlast : now' ∈ [again].flatMap Call.readings :=
    List.mem_flatMap.mpr ⟨again, List.mem_singleton_self again, hreading hnow'⟩
  rw [List.flatMap_append] at hagain
  constructor
  · apply hagain now (List.mem_append_left _ _) now' hlast
    exact List.mem_flatMap.mpr ⟨call, List.mem_append_right _ (List.mem_singleton_self call),
      hreading hnow⟩
  · intro other hother reading hclock
    apply hagain reading (List.mem_append_right _ _) now' hlast
    exact List.mem_flatMap.mpr ⟨other, hother, hreading hclock⟩

section Again

variable {between : List Call} {again : Call} {later : RateCheck} {refused : Db}

/-- From the end of the delay on, only the size of the table refuses. -/
theorem ended_of_delay (hrefused : Reachable env refused)
    (hrates : refused.rateLimits = purgeRates check.policies check.now rows)
    (hstandard : Standard check.policies) (hsame : SameBuckets check later)
    (hends : ∀ row ∈ check.fullRows rows, row.ends ≤ check.now + (check.reserve rows).1)
    (hquiet : NoneAccepted env refused between)
    (hlater : check.now + (check.reserve rows).1 ≤ later.now) :
    later.fullRows (refused.afterAll env between).rateLimits = [] := by
  have hsub := sublist_afterAll hrefused hquiet
  rw [hrates] at hsub
  rw [List.eq_nil_iff_forall_not_mem]
  intro row hrow
  obtain ⟨-, hfull, hlive⟩ :=
    (mem_fullRows_iff hstandard hsame fun other hother => hsub.subset hother).mp hrow
  have hended := hends row hfull
  omega

/-- Any earlier, the rest of the delay is left. -/
theorem running_of_delay (hrefused : Reachable env refused)
    (hrates : refused.rateLimits = purgeRates check.policies check.now rows)
    (htable : RateTable rows) (hstandard : Standard check.policies)
    (hstarted : Started rows check.now) (hfull : check.fullRows rows ≠ [])
    (hagain : rateCheck env (refused.afterAll env between) again = some later)
    (hsame : SameBuckets check later) (hnow : check.now ≤ later.now)
    (hclock : ∀ call ∈ between, ∀ now ∈ call.clock, now ≤ later.now)
    (hquiet : NoneAccepted env refused between)
    (hkept : NoneCleared env (check.fullRows rows) refused between)
    (hlater : later.now < check.now + (check.reserve rows).1) :
    ∃ delay, (perform env again (refused.afterAll env between)).1 =
        .error (.loginRateLimited delay) ∧
      later.now + delay = check.now + (check.reserve rows).1 := by
  have hdb : Reachable env (refused.afterAll env between) := by
    obtain ⟨calls, rfl⟩ := hrefused
    exact ⟨calls ++ between, afterAll_append env {} calls between⟩
  have htable' := (rateInv_of_reachable hdb).table
  have hstandard' := standard_of_rateCheck hagain
  have hsub := sublist_afterAll hrefused hquiet
  rw [hrates] at hsub
  obtain ⟨hends, last, hlast, hlastEnds⟩ := delay_ends htable hstandard hstarted hfull
  have hlastFull := mem_fullRows_later hrefused hrates hstandard hsame hquiet hkept hclock hlast
    (by omega)
  have hfull' := List.ne_nil_of_mem hlastFull
  have hstarted' : ∀ row ∈ (refused.afterAll env between).rateLimits,
      row.windowStartedAt ≤ later.now := fun row hrow =>
    Nat.le_trans (hstarted row (purgeRates_sublist.subset (hsub.subset hrow))) hnow
  obtain ⟨hends', first, hfirst, hfirstEnds⟩ := delay_ends htable' hstandard' hstarted' hfull'
  obtain ⟨-, hfirstFull, -⟩ :=
    (mem_fullRows_iff hstandard hsame fun other hother => hsub.subset hother).mp hfirst
  refine ⟨_, perform_of_full hdb hagain hfull', ?_⟩
  -- the last window of before is the last one now
  have hle := hends first hfirstFull
  have hge := hends' last hlastFull
  omega

end Again

/-- The delay of an attempt that is refused for full buckets is exact, in every run with a
non-decreasing clock. -/
theorem retry_after_exact (calls between : List Call) (call again : Call) (retryAfter : Nat)
    (refused : Db)
    (hclock : ((calls ++ [call] ++ between ++ [again]).flatMap Call.readings).Pairwise (· ≤ ·))
    (hop : call.op.checksRate = true) (hsame : again.op = call.op)
    (hrefused : perform env call (Db.afterAll env {} calls) =
      (.error (.loginRateLimited retryAfter), refused))
    (hquiet : NoneAccepted env refused between) :
    ∃ check full, rateCheck env (Db.afterAll env {} calls) call = some check ∧
      full = check.fullRows (Db.afterAll env {} calls).rateLimits ∧ retryAfter ≠ 0 ∧
      (full ≠ [] →
        (1 ≤ retryAfter ∧ retryAfter ≤ largestWindow (full.map (·.scope.policy))) ∧
        ∀ later, rateCheck env (refused.afterAll env between) again = some later →
          (check.now + retryAfter ≤ later.now →
            later.fullRows (refused.afterAll env between).rateLimits = [] ∧
            ((perform env again (refused.afterAll env between)).1 = .ok .done ∨
              later.Pressed (refused.afterAll env between).rateLimits)) ∧
          (later.now < check.now + retryAfter → NoneCleared env full refused between →
            ∃ delay, (perform env again (refused.afterAll env between)).1 =
                .error (.loginRateLimited delay) ∧
              later.now + delay = check.now + retryAfter)) := by
  have hdb := reachable_afterAll env calls
  have htable := (rateInv_of_reachable hdb).table
  obtain ⟨check, hcheck⟩ := rateCheck_of_refused hop hrefused
  have hstandard := standard_of_rateCheck hcheck
  have hnow := clock_of_rateCheck hcheck
  have hafter : (Db.afterAll env {} calls).after env call = refused := congrArg Prod.snd hrefused
  have hreachable : Reachable env refused := hafter ▸ hdb.after call
  have hrates : refused.rateLimits =
      purgeRates check.policies check.now (Db.afterAll env {} calls).rateLimits := by
    rw [← hafter]
    apply rates_of_not_accepts hdb hcheck
    rintro ⟨_, -, hok⟩
    rw [hrefused] at hok
    cases hok
  have hdelay : (check.reserve (Db.afterAll env {} calls).rateLimits).1 = retryAfter ∧
      retryAfter ≠ 0 := by
    have hreply := congrArg Prod.fst (hrefused.symm.trans (perform_rateCheck hcheck))
    unfold RateCheck.reply at hreply
    dsimp only at hreply
    split at hreply
    · cases hreply
    · next hne =>
        cases hreply
        exact ⟨rfl, hne⟩
  have hstarted : Started (Db.afterAll env {} calls).rateLimits check.now := by
    apply started_afterAll ⟨[], rfl⟩ (fun _ hrow => nomatch hrow) hnow
    apply List.pairwise_cons.mpr ⟨fun _ _ => Nat.zero_le _, ?_⟩
    rw [List.append_assoc, List.flatMap_append] at hclock
    exact (List.pairwise_append.mp hclock).1
  refine ⟨check, _, hcheck, rfl, hdelay.2, fun hfull => ⟨?_, ?_⟩⟩
  · obtain ⟨-, last, hlast, hends⟩ := delay_ends htable hstandard hstarted hfull
    obtain ⟨hlive, policy, hpolicy, hscope, -⟩ := mem_fullRows.mp hlast
    have hrow := purgeRates_sublist.subset hlive
    have hopen := (mem_purgeRates_iff hstandard hrow
      (List.mem_map.mpr ⟨policy, hpolicy, hscope.symm⟩)).mp hlive
    have hstart := hstarted last hrow
    have hmem : last.scope.policy ∈ (check.fullRows (Db.afterAll env {} calls).rateLimits).map
        (·.scope.policy) := List.mem_map.mpr ⟨last, hlast, rfl⟩
    have hlargest := le_largestWindow hmem
    rw [hdelay.1] at hends
    unfold RateRow.ends at hends hopen
    constructor <;> omega
  · intro later hlater
    have hdb' : Reachable env (refused.afterAll env between) := by
      obtain ⟨before, rfl⟩ := hreachable
      exact ⟨before ++ between, afterAll_append env {} before between⟩
    obtain ⟨hle, hbetween⟩ := readings_between hclock hnow (clock_of_rateCheck hlater)
    have hbuckets := sameBuckets hcheck hlater hsame
    rw [← hdelay.1]
    constructor
    · intro hended
      have hends := (delay_ends htable hstandard hstarted hfull).1
      have hnone := ended_of_delay hreachable hrates hstandard hbuckets hends hquiet hended
      exact ⟨hnone, accepted_or_pressed hdb' hlater hnone⟩
    · intro hrunning hkept
      exact running_of_delay hreachable hrates htable hstandard hstarted hfull hlater hbuckets hle
        hbetween hquiet hkept hrunning

/-! ## A recorded success -/

/-- The delay of the check that a call makes. -/
def delayOf (env : Env) (db : Db) (call : Call) : Option Nat :=
  (rateCheck env db call).map fun check => (check.reserve db.rateLimits).1

theorem perform_of_delay {delay : Nat} (h : delayOf env db call = some delay) :
    (perform env call db).1 =
      if delay = 0 then .ok .done else .error (.loginRateLimited delay) := by
  obtain ⟨check, hcheck, rfl⟩ := Option.map_eq_some_iff.mp h
  rw [perform_rateCheck hcheck]
  rfl

def attemptAt (now : Nat) : Call :=
  ⟨.checkLoginRate "ann@example.org" "10.0.0.1", sampleRandom 0, some now, none⟩

def successAt (now : Nat) : Call :=
  ⟨.recordLoginResult "ann@example.org" "10.0.0.1" true, sampleRandom 0, some now, none⟩

def tenAttempts : List Call := List.replicate 10 (attemptAt 100)

/-- The state after the eleventh attempt. -/
def eleventh : Db := (Db.afterAll sampleEnv {} tenAttempts).after sampleEnv (attemptAt 200)

/-- The eleventh attempt is delayed by a full bucket; a success before the twelfth clears it. -/
theorem delays_tenAttempts :
    delayOf sampleEnv (Db.afterAll sampleEnv {} tenAttempts) (attemptAt 200) = some 800 ∧
      ((rateCheck sampleEnv (Db.afterAll sampleEnv {} tenAttempts) (attemptAt 200)).all fun check =>
        !(check.fullRows (Db.afterAll sampleEnv {} tenAttempts).rateLimits).isEmpty) = true ∧
      (rateCheck sampleEnv eleventh (attemptAt 999)).isSome = true ∧
      delayOf sampleEnv (eleventh.afterAll sampleEnv [successAt 201]) (attemptAt 202) = some 0 := by
  decide +kernel

theorem eleventh_refused :
    perform sampleEnv (attemptAt 200) (Db.afterAll sampleEnv {} tenAttempts) =
    (.error (.loginRateLimited 800), eleventh) := by
  have hreply := perform_of_delay delays_tenAttempts.1
  rw [if_neg (by decide)] at hreply
  unfold eleventh Db.after
  rw [← hreply]

theorem eleventh_full {check : RateCheck}
    (h : rateCheck sampleEnv (Db.afterAll sampleEnv {} tenAttempts) (attemptAt 200) = some check) :
    check.fullRows (Db.afterAll sampleEnv {} tenAttempts).rateLimits ≠ [] := by
  have hall := delays_tenAttempts.2.1
  rw [h, Option.all_some, Bool.not_eq_true', List.isEmpty_eq_false_iff] at hall
  exact hall

theorem retry_after_exact_ten : ∃ delay,
    (perform sampleEnv (attemptAt 999) eleventh).1 = .error (.loginRateLimited delay) ∧
      999 + delay = 1000 := by
  obtain ⟨check, full, hcheck, hfull, -, h⟩ := retry_after_exact tenAttempts [] (attemptAt 200)
    (attemptAt 999) 800 eleventh (by decide) rfl rfl eleventh_refused trivial
  obtain ⟨later, hlater⟩ := Option.isSome_iff_exists.mp delays_tenAttempts.2.2.1
  have hnow : check.now = 200 := (Option.some.inj (clock_of_rateCheck hcheck)).symm
  have hlaterNow : later.now = 999 := (Option.some.inj (clock_of_rateCheck hlater)).symm
  have hrest := ((h (hfull ▸ eleventh_full hcheck)).2 later hlater).2
  rw [hnow, hlaterNow] at hrest
  exact hrest (by decide) fun _ _ => trivial

/-- A success that is recorded in between ends the refusal before its delay does. -/
theorem cleared_early :
    ((tenAttempts ++ [attemptAt 200] ++ [successAt 201] ++ [attemptAt 202]).flatMap
        Call.readings).Pairwise (· ≤ ·) ∧
      perform sampleEnv (attemptAt 200) (Db.afterAll sampleEnv {} tenAttempts) =
        (.error (.loginRateLimited 800), eleventh) ∧
      (∀ check, rateCheck sampleEnv (Db.afterAll sampleEnv {} tenAttempts) (attemptAt 200) =
        some check → check.fullRows (Db.afterAll sampleEnv {} tenAttempts).rateLimits ≠ []) ∧
      NoneAccepted sampleEnv eleventh [successAt 201] ∧
      (perform sampleEnv (attemptAt 202) (eleventh.afterAll sampleEnv [successAt 201])).1 =
        .ok .done := by
  refine ⟨by decide, eleventh_refused, fun _ => eleventh_full, ⟨?_, trivial⟩, ?_⟩
  · rintro ⟨_, hcheck, -⟩
    cases hcheck
  · exact (perform_of_delay delays_tenAttempts.2.2.2).trans (if_pos rfl)

end MaddyWeb.Auth
