import MaddyWeb.Auth.AccountSteps

/-!
# The enrollment steps of the challenge operations
-/

namespace MaddyWeb.Auth

open MaddyWeb.Library
open Enrollment (Event Step Sound)

variable {db db' : Db} {env : Env} {random : Random} {clock later : Option Nat} {a : String}

/-! ## Deleted challenges -/

theorem deleteExpiredChallenges_passive (db : Db) (now : Nat) :
    PassiveMove db (db.deleteExpiredChallenges now) := by
  unfold Db.deleteExpiredChallenges
  apply passive_of_release _ (·.expiresAt ≤ now) now
  · rfl
  · rfl
  · exact List.Sublist.refl _
  · intro row _ hreleased
    simp only [Bool.and_eq_true, beq_iff_eq] at hreleased
    exact hreleased.1
  · intro hinv row hrow challenge hmem howner hexpired
    have hpending := (hinv.sound row hrow).pending_iff.mpr (by simp [Db.enrollment, howner])
    have hstate : row.enrollmentState = .pending := hpending
    have hlisted : challenge.challengeDigest ∈
        (db.pendingChallenges.filter (·.expiresAt ≤ now)).map (·.challengeDigest) :=
      List.mem_map_of_mem (List.mem_filter.mpr ⟨(List.mem_filter.mp hmem).1, hexpired⟩)
    simp only [hstate, howner, Option.any_some, beq_self_eq_true, Bool.true_and]
    exact List.contains_iff_mem.mpr hlisted

/-- No enrollment is owned by a challenge that is deleted. -/
theorem deletePending_passive (deleted : PendingChallengeRow → Bool)
    (haccounts : db'.accounts = db.accounts)
    (hpending : db'.pendingChallenges = db.pendingChallenges.filter fun row => !deleted row)
    (hcodes : db'.recoveryCodes.Sublist db.recoveryCodes)
    (hspared : Inv db → ∀ row ∈ db.accounts, ∀ challenge ∈ db.pendingOf row.accountId,
      row.enrollmentChallengeDigest = some challenge.challengeDigest → deleted challenge = false) :
    PassiveMove db db' := by
  apply passive_of_release (fun _ => false) deleted 0
  · simp [haccounts]
  · exact hpending
  · exact hcodes
  · simp
  · intro hinv row hrow challenge hmem howner hdeleted
    rw [hspared hinv row hrow challenge hmem howner] at hdeleted
    cases hdeleted

theorem mem_pendingOf {challenge : PendingChallengeRow} :
    challenge ∈ db.pendingOf a ↔ challenge ∈ db.pendingChallenges ∧ challenge.accountId = a := by
  unfold Db.pendingOf
  rw [List.mem_filter, beq_iff_eq]

theorem mem_enrollmentOwners {row : AccountRow} {digest : Digest} (hrow : row ∈ db.accounts)
    (hstate : row.enrollmentState = .pending)
    (howner : row.enrollmentChallengeDigest = some digest) :
    digest ∈ db.enrollmentOwners row.accountId := by
  unfold Db.enrollmentOwners
  apply List.mem_filterMap.mpr
  exact ⟨row, List.mem_filter.mpr ⟨hrow, by simp [hstate]⟩, howner⟩

/-- An account has one owner at most. -/
theorem Keyed.enrollmentOwners_unique (h : Keyed db) {digest digest' : Digest}
    (hmem : digest ∈ db.enrollmentOwners a) (hmem' : digest' ∈ db.enrollmentOwners a) :
    digest = digest' := by
  unfold Db.enrollmentOwners at hmem hmem'
  obtain ⟨row, hrow, howner⟩ := List.mem_filterMap.mp hmem
  obtain ⟨row', hrow', howner'⟩ := List.mem_filterMap.mp hmem'
  obtain ⟨hrow, hid⟩ := List.mem_filter.mp hrow
  obtain ⟨hrow', hid'⟩ := List.mem_filter.mp hrow'
  simp only [Bool.and_eq_true, beq_iff_eq] at hid hid'
  obtain rfl := h.account_unique hrow hrow' (hid.1.trans hid'.1.symm)
  exact Option.some.inj (howner.symm.trans howner')

theorem mem_oldest {α : Type} {before : α → α → Bool} {count : Nat} {rows : List α} {x : α}
    (h : x ∈ oldest before count rows) : x ∈ rows := by
  unfold oldest at h
  exact List.mem_mergeSort.mp (List.mem_of_mem_take h)

theorem evictChallenges_passive : PassiveMove db (db.evictChallenges a) := by
  unfold Db.evictChallenges
  dsimp only
  split
  · apply deletePending_passive _
    · rfl
    · rfl
    · exact List.Sublist.refl _
    · intro hinv row hrow challenge hmem howner
      obtain ⟨hchallenge, hid⟩ := mem_pendingOf.mp hmem
      have hstate : row.enrollmentState = .pending :=
        (hinv.sound row hrow).pending_iff.mpr (by simp [Db.enrollment, howner])
      by_contra hevicted
      rw [Bool.not_eq_false, List.contains_iff_mem] at hevicted
      obtain ⟨victim, hvictim, hdigest⟩ := List.mem_map.mp hevicted
      obtain ⟨hown, hnotOwner⟩ := List.mem_filter.mp (mem_oldest hvictim)
      obtain ⟨hvictim, hvictimId⟩ := mem_pendingOf.mp hown
      obtain rfl := hinv.keyed.challenge_unique hvictim hchallenge hdigest
      have hlisted := mem_enrollmentOwners hrow hstate howner
      rw [← hid, hvictimId] at hlisted
      simp [hlisted] at hnotOwner
  · exact PassiveMove.composes.refl db

/-- Of two challenges of an account one does not own its enrollment. -/
theorem evictable_ne_nil (hinv : Inv db) (hfull : 2 ≤ (db.pendingOf a).length) :
    (db.pendingOf a).filter (fun row => !(db.enrollmentOwners a).contains row.challengeDigest) ≠
      [] := by
  intro hnil
  rw [List.filter_eq_nil_iff] at hnil
  have howned : ∀ row ∈ db.pendingOf a, row.challengeDigest ∈ db.enrollmentOwners a := by
    intro row hrow
    simpa using hnil row hrow
  have hnodup : ((db.pendingOf a).map (·.challengeDigest)).Nodup :=
    hinv.keyed.digests.sublist (List.filter_sublist.map _)
  cases hrows : db.pendingOf a with
  | nil => simp [hrows] at hfull
  | cons first rest =>
      cases rest with
      | nil => simp [hrows] at hfull
      | cons second rest =>
          have hsame := hinv.keyed.enrollmentOwners_unique (howned first (by simp [hrows]))
            (howned second (by simp [hrows]))
          rw [hrows] at hnodup
          simp [hsame] at hnodup

theorem oldest_ne_nil {α : Type} {before : α → α → Bool} {count : Nat} {rows : List α}
    (h : rows ≠ []) : oldest before (count + 1) rows ≠ [] := by
  unfold oldest
  intro hnil
  have hlength := congrArg List.length hnil
  rw [List.length_take, List.length_mergeSort, List.length_nil] at hlength
  have hpos := List.length_pos_iff.mpr h
  omega

/-- After the eviction there is room for one more challenge. -/
theorem evictChallenges_room (hinv : Inv db) (ha : a ∈ db.accounts.map (·.accountId)) :
    ((db.evictChallenges a).pendingOf a).length ≤ 4 := by
  obtain ⟨row, hrow, rfl⟩ := List.mem_map.mp ha
  have hle : (db.pendingOf row.accountId).length ≤ 5 := by
    simpa [Db.enrollment] using (hinv.sound row hrow).challenges_le
  unfold Db.evictChallenges
  dsimp only
  split
  · next hfull =>
      have hfull : 5 ≤ (db.pendingOf row.accountId).length := hfull
      have hcandidates := evictable_ne_nil hinv (Nat.le_trans (by omega) hfull)
      have hevicted : oldest PendingChallengeRow.before
          ((db.pendingOf row.accountId).length - maxChallengesPerAccount + 1) _ ≠ [] :=
        oldest_ne_nil hcandidates
      obtain ⟨victim, hvictim⟩ := List.exists_mem_of_ne_nil _ hevicted
      rw [pendingOf_deletePending]
      apply Nat.le_of_lt_succ
      apply Nat.lt_of_lt_of_le _ hle
      rw [List.length_filter_lt_length_iff_exists]
      refine ⟨victim, (List.mem_filter.mp (mem_oldest hvictim)).1, ?_⟩
      rw [Bool.not_eq_true, Bool.not_eq_false', List.contains_iff_mem]
      exact List.mem_map_of_mem hvictim
  · next hroom =>
      have hroom : ¬ 5 ≤ (db.pendingOf row.accountId).length := hroom
      omega

/-! ## New challenges -/

theorem insertPending_passive {new : PendingChallengeRow}
    (hfresh : new.challengeDigest ∉ db.pendingChallenges.map (·.challengeDigest))
    (hroom : (db.pendingOf new.accountId).length ≤ 4)
    (haccount : new.accountId ∈ db.accounts.map (·.accountId)) :
    PassiveMove db (db.insertPending new) := by
  intro hinv
  have hpendingOf : ∀ b, (db.insertPending new).pendingOf b =
      db.pendingOf b ++ if new.accountId = b then [new] else [] := by
    intro b
    unfold Db.insertPending Db.pendingOf
    dsimp only
    rw [List.filter_append, List.filter_singleton]
    simp
  refine ⟨⟨⟨hinv.keyed.ids, hinv.keyed.emails, ?_, ?_, hinv.keyed.code_account⟩, ?_⟩,
    fun _ hid => hid⟩
  · unfold Db.insertPending
    rw [List.map_append]
    simpa using hinv.keyed.digests.concat hfresh
  · intro row hrow
    rcases List.mem_append.mp hrow with hrow | hrow
    · exact hinv.keyed.challenge_account row hrow
    · rw [List.mem_singleton.mp hrow]
      exact haccount
  · intro row hrow
    have hsound := hinv.sound row hrow
    refine Or.inl ⟨row, hrow, rfl, rfl, .quiet, Or.inl rfl, Step.quiet ?_ ?_ (Nat.le_refl _)⟩
    · rw [hpendingOf]
      by_cases hid : new.accountId = row.accountId
      · rw [if_pos hid]
        rw [hid] at hroom
        simp only [List.length_map, List.length_append, List.length_singleton]
        omega
      · rw [if_neg hid, List.append_nil]
        exact hsound.challenges_le
    · intro digest hdigest
      rw [hpendingOf, List.map_append]
      exact List.mem_append_left _ (hsound.owner_open digest hdigest)

theorem createPendingChallenge_passive {email token : String}
    (h : createPendingChallenge env random clock email db = (.ok token, db')) :
    PassiveMove db db' := by
  unfold createPendingChallenge requireEmail readClock at h
  obtain ⟨canonical, -, h⟩ := Exec.require_bind_eq_ok h
  obtain ⟨now, -, h⟩ := Exec.require_bind_eq_ok h
  have h := Exec.atomically_eq_ok h
  obtain ⟨row, hrow, h⟩ := Exec.require_bind_eq_ok h
  simp only [Exec.update_bind] at h
  obtain ⟨token, htoken, h⟩ := Exec.require_bind_eq_ok h
  rw [Exec.update_bind] at h
  obtain ⟨-, rfl⟩ := Exec.ret_eq_ok h
  intro hinv
  have hsweep := deleteExpiredChallenges_passive db now
  have hinv' := (hsweep hinv).1.inv hinv
  have hmem : row.accountId ∈ (db.deleteExpiredChallenges now).accounts.map (·.accountId) :=
    (hsweep hinv).2 _ (List.mem_map_of_mem (accountByEmail_mem hrow).1)
  refine PassiveMove.composes.trans (PassiveMove.composes.trans hsweep
    (evictChallenges_passive (a := row.accountId))) (insertPending_passive ?_ ?_ ?_) hinv
  · intro hused
    have hunused := firstUnused_eq_some htoken
    obtain ⟨challenge, hchallenge, hdigest⟩ := List.mem_map.mp hused
    rw [List.any_eq_false] at hunused
    exact hunused challenge hchallenge (beq_iff_eq.mpr hdigest)
  · exact evictChallenges_room hinv' hmem
  · exact (evictChallenges_passive hinv').2 _ hmem

/-! ## Failures -/

theorem updatePending_passive {digest : Digest}
    {set : PendingChallengeRow → PendingChallengeRow} (hset : ∀ row, (set row).key = row.key) :
    PassiveMove db (db.updatePending digest set) := by
  intro hinv
  have hkeys : ∀ row : PendingChallengeRow,
      (if row.challengeDigest == digest then set row else row).key = row.key := by
    intro row
    split
    · exact hset row
    · rfl
  have hpendingOf : ∀ b, ((db.updatePending digest set).pendingOf b).map (·.challengeDigest) =
      (db.pendingOf b).map (·.challengeDigest) := by
    intro b
    unfold Db.updatePending Db.pendingOf
    dsimp only
    rw [List.filter_map, List.map_map]
    have hfilter : db.pendingChallenges.filter ((·.accountId == b) ∘ fun row =>
        if row.challengeDigest == digest then set row else row) =
        db.pendingChallenges.filter (·.accountId == b) := by
      apply List.filter_congr
      intro row _
      have hid : _ = row.accountId := congrArg Prod.snd (hkeys row)
      exact congrArg (· == b) hid
    rw [hfilter]
    exact List.map_congr_left fun row _ => congrArg Prod.fst (hkeys row)
  refine ⟨?_, fun _ hid => hid⟩
  have hsame : KeepsKeys id := fun _ => ⟨rfl, rfl⟩
  apply refines_map hinv hsame
  · exact (List.map_id _).symm
  · unfold Db.updatePending
    rw [List.map_map]
    simp only [Function.comp_def, hkeys, List.Sublist.refl]
  · exact hinv.keyed.code_account
  · intro row hrow
    refine ⟨.quiet, Or.inl rfl, step_same (hinv.sound row hrow) ?_⟩
    unfold Db.enrollment
    rw [hpendingOf]
    rfl

theorem recordChallengeFailure_passive {digest : Digest} {count : Nat} {u : Unit}
    (h : recordChallengeFailure digest count later db = (.ok u, db')) : PassiveMove db db' := by
  unfold recordChallengeFailure readClock at h
  split at h
  · obtain ⟨now, -, h⟩ := Exec.require_bind_eq_ok h
    rw [Exec.update_bind] at h
    cases h
    apply passive_of_release _ (·.challengeDigest == digest) now
    · rfl
    · rfl
    · exact List.Sublist.refl _
    · intro row _ hreleased
      simp only [Bool.and_eq_true, beq_iff_eq] at hreleased
      exact hreleased.1
    · intro hinv row hrow challenge _ howner hdigest
      have hstate : row.enrollmentState = .pending :=
        (hinv.sound row hrow).pending_iff.mpr (by simp [Db.enrollment, howner])
      simp [hstate, howner, beq_iff_eq.mp hdigest]
  · cases h
    exact updatePending_passive fun _ => rfl

theorem recordFailure_eq_ok {α : Type} {challenge : PendingChallengeRow}
    {outcome : Except AuthError α} (h : recordFailure challenge later db = (.ok outcome, db')) :
    outcome = .error .invalidSecondFactor ∧ PassiveMove db db' := by
  unfold recordFailure at h
  obtain ⟨u, db₁, hrecord, h⟩ := Exec.bind_eq_ok h
  obtain ⟨rfl, rfl⟩ := Exec.ret_eq_ok h
  exact ⟨rfl, recordChallengeFailure_passive hrecord⟩

/-! ## Enrollment -/

theorem openChallenge_mem {digest : Digest} {now : Nat} {challenge : PendingChallengeRow}
    {account : AccountRow} (h : db.openChallenge digest now = some (challenge, account)) :
    challenge ∈ db.pendingChallenges ∧ challenge.challengeDigest = digest ∧
      account ∈ db.accounts ∧ account.accountId = challenge.accountId := by
  unfold Db.openChallenge at h
  obtain ⟨found, hfound, h⟩ := Option.bind_eq_some_iff.mp h
  obtain ⟨row, hrow, h⟩ := Option.bind_eq_some_iff.mp h
  split at h
  · cases h
  · cases h
    obtain ⟨hmem, hid⟩ := accountById_mem hrow
    exact ⟨List.mem_of_find?_eq_some hfound, by simpa using List.find?_some hfound, hmem, hid⟩

theorem challenge_mem_pendingOf {digest : Digest} {now : Nat} {challenge : PendingChallengeRow}
    {account : AccountRow} (h : db.openChallenge digest now = some (challenge, account)) :
    digest ∈ (db.pendingOf account.accountId).map (·.challengeDigest) := by
  obtain ⟨hmem, rfl, -, hid⟩ := openChallenge_mem h
  exact List.mem_map_of_mem (mem_pendingOf.mpr ⟨hmem, hid.symm⟩)

theorem beginTotpEnrollment_refines {token : String} {secret : Bytes} (hinv : Inv db)
    (h : beginTotpEnrollment env random clock token db = (.ok secret, db')) :
    Refines (fun _ event => event = .quiet ∨ event = .began) db db' := by
  unfold beginTotpEnrollment readClock challengeRow at h
  dsimp only at h
  obtain ⟨now, -, h⟩ := Exec.require_bind_eq_ok h
  have h := Exec.atomically_eq_ok h
  obtain ⟨⟨challenge, account⟩, hfound, h⟩ := Exec.require_bind_eq_ok h
  dsimp only at h
  cases hstate : account.enrollmentState with
  | active =>
      rw [hstate] at h
      cases h
  | pending =>
      rw [hstate] at h
      cases howner : account.enrollmentChallengeDigest with
      | none =>
          rw [howner] at h
          cases h
      | some owner =>
          rw [howner] at h
          obtain ⟨-, h⟩ := Exec.ensure_bind_eq_ok h
          obtain ⟨-, rfl⟩ := Exec.ofExcept_eq_ok h
          exact refines_refl hinv fun _ _ => Or.inl rfl
  | required =>
      rw [hstate] at h
      dsimp only at h
      rw [Exec.inspect_bind, Exec.update_bind] at h
      obtain ⟨-, h⟩ := Exec.ensure_bind_eq_ok h
      simp only [Exec.update_bind] at h
      obtain ⟨-, rfl⟩ := Exec.ret_eq_ok h
      obtain ⟨-, -, hmem, -⟩ := openChallenge_mem hfound
      have hopen := challenge_mem_pendingOf hfound
      have hkeys : KeepsKeys (·.begun (opaqueDigest env.challengeDigest token) (random.nonce 0)
        (env.encrypt (random.nonce 0) random.secret account.accountId account.canonicalEmail)
        now) := fun _ => ⟨rfl, rfl⟩
      have hwhere : ∀ row ∈ db.accounts,
          enrollmentRequired account.accountId row = true ↔ row.accountId = account.accountId := by
        intro row hrow
        constructor
        · intro hrequired
          simp only [enrollmentRequired, Bool.and_eq_true, beq_iff_eq] at hrequired
          exact hrequired.1
        · intro hid
          rw [hinv.keyed.account_unique hrow hmem hid]
          simp [enrollmentRequired, hstate]
      apply refines_single hinv (a := account.accountId) (keepsKeys_where hkeys)
      · intro row hrow hne
        exact if_neg fun hrequired => hne ((hwhere row hrow).mp hrequired)
      · rfl
      · exact List.Sublist.refl _
      · exact fun _ _ => rfl
      · intro b hb
        exact (codesOf_deleteCodes b).trans (if_neg hb)
      · exact List.mem_map_of_mem hmem
      · exact fun _ _ _ => Or.inl rfl
      · intro row hrow hid
        refine ⟨.began, Or.inr rfl, ?_⟩
        rw [if_pos ((hwhere row hrow).mpr hid)]
        obtain rfl := hinv.keyed.account_unique hrow hmem hid
        have hcodes : (db.deleteCodes row.accountId).codesOf row.accountId = [] :=
          (codesOf_deleteCodes row.accountId).trans (if_pos rfl)
        show Step .began _ ⟨.pending, some _, some _, some _, -1, _,
          ((db.deleteCodes row.accountId).codesOf row.accountId).length⟩
        rw [hcodes]
        exact Step.began hstate hopen

theorem countAccounts_eq_one (hkeyed : Keyed db) {condition : AccountRow → Bool} {row : AccountRow}
    (hrow : row ∈ db.accounts)
    (hwhere : ∀ other ∈ db.accounts, condition other = true ↔ other.accountId = row.accountId) :
    db.countAccounts condition = 1 := by
  have hfilter : db.accounts.filter condition = [row] := by
    have hnodup : (db.accounts.filter condition).Nodup :=
      (List.Nodup.of_map _ hkeyed.ids).filter _
    have hmem : row ∈ db.accounts.filter condition :=
      List.mem_filter.mpr ⟨hrow, (hwhere row hrow).mpr rfl⟩
    by_contra hne
    rcases (hnodup.ne_singleton_iff row).mp hne with hnil | ⟨other, hother, hdistinct⟩
    · rw [hnil] at hmem
      cases hmem
    · obtain ⟨hother, hcondition⟩ := List.mem_filter.mp hother
      exact hdistinct
        (hkeyed.account_unique hother hrow ((hwhere other hother).mp hcondition))
  unfold Db.countAccounts
  rw [hfilter]
  rfl

theorem issueSession_same {account : AccountRow} {now : Nat} {clientIp userAgent : Option String}
    {session : IssuedSession}
    (h : issueSession env random account now clientIp userAgent db = (.ok session, db')) :
    SameEnrollment db db' := by
  have hstatements := SameEnrollment.statements env ⟨.listAccounts, random, none, none⟩
  have hmoves :=
    issueSession_moves hstatements.composes hstatements.session.delete hstatements.issue
    account now clientIp userAgent
  exact hmoves.commits db session db' h

theorem enrollmentConfirmed_iff (hkeyed : Keyed db) {row : AccountRow} {digest : Digest}
    {counter : Nat} (hrow : row ∈ db.accounts) (hstate : row.enrollmentState = .pending)
    (howner : row.enrollmentChallengeDigest = some digest)
    (hcounter : row.totpLastCounter < counter) {other : AccountRow} (hother : other ∈ db.accounts) :
    enrollmentConfirmed row.accountId digest counter other = true ↔
      other.accountId = row.accountId := by
  constructor
  · intro h
    simp only [enrollmentConfirmed, Bool.and_eq_true, beq_iff_eq] at h
    exact h.1.1.1
  · intro hid
    rw [hkeyed.account_unique hother hrow hid]
    simp [enrollmentConfirmed, hstate, howner, hcounter]

theorem activateEnrollment_refines {account : AccountRow} {challenge : PendingChallengeRow}
    {now counter : Nat} {clientIp userAgent : Option String}
    {outcome : Except AuthError EnrollmentResult} (hinv : Inv db) (hmem : account ∈ db.accounts)
    (hstate : account.enrollmentState = .pending)
    (howner : account.enrollmentChallengeDigest = some challenge.challengeDigest)
    (hcounter : account.totpLastCounter < counter)
    (h : activateEnrollment env random later now challenge account.accountId counter clientIp
      userAgent db = (.ok outcome, db')) :
    (∃ result, outcome = .ok result) ∧
    Refines (At account.accountId (.confirmed counter)) db db' := by
  have hwhere := fun other => @enrollmentConfirmed_iff db hinv.keyed account
    challenge.challengeDigest counter hmem hstate howner hcounter other
  have hkeys : KeepsKeys (·.confirmed counter now) := fun _ => ⟨rfl, rfl⟩
  unfold activateEnrollment at h
  dsimp only at h
  rw [Exec.inspect_bind, Exec.update_bind, countAccounts_eq_one hinv.keyed hmem hwhere,
    if_neg (by simp)] at h
  obtain ⟨_, db₁, hstore, h⟩ := Exec.bind_eq_ok h
  obtain ⟨rows, hlength, hrows, rfl⟩ := storeRecoveryCodes_eq_ok hstore
  rw [generateRecoveryCodes_length] at hlength
  rw [Exec.update_bind] at h
  obtain ⟨row, -, h⟩ := Exec.require_bind_eq_ok h
  obtain ⟨session, db₂, hissue, h⟩ := Exec.bind_eq_ok h
  obtain ⟨rfl, rfl⟩ := Exec.ret_eq_ok h
  refine ⟨⟨_, rfl⟩, Refines.congr ?_ (issueSession_same hissue)⟩
  apply refines_single hinv (keepsKeys_where hkeys)
  · intro other hother hne
    exact if_neg fun hcondition => hne ((hwhere other hother).mp hcondition)
  · rfl
  · exact List.filter_sublist.map _
  · intro b hb
    exact Eq.trans (pendingOf_deletePending_account b) (if_neg hb)
  · intro b hb
    refine (codesOf_append hrows db b).trans ?_
    rw [if_neg hb, List.append_nil]
  · exact List.mem_map_of_mem hmem
  · exact fun _ _ hne => at_other hne
  · intro other hother hid
    refine ⟨.confirmed counter, at_self hid, ?_⟩
    rw [if_pos ((hwhere other hother).mpr hid)]
    obtain rfl := hinv.keyed.account_unique hother hmem hid
    have hpending : (db.deletePending (·.accountId == other.accountId)).pendingOf
        other.accountId = [] := (pendingOf_deletePending_account _).trans (if_pos rfl)
    have hcodes := codesOf_append hrows db other.accountId
    rw [if_pos rfl] at hcodes
    show Step _ _ { db.enrollment other with
      state := .active
      owner := none
      counter := (counter : Int)
      challenges := ((db.deletePending (·.accountId == other.accountId)).pendingOf
        other.accountId).map (·.challengeDigest)
      codes := (({ db with recoveryCodes := db.recoveryCodes ++ rows } : Db).codesOf
        other.accountId).length }
    rw [hpending, hcodes, List.length_append]
    exact Step.confirmed hstate hcounter (Nat.add_le_add_left (by omega) _)

/-- What `confirm_totp_enrollment` does to the enrollments, by its result. -/
theorem confirmTotpEnrollment_refines {token code : String} {clientIp userAgent : Option String}
    {r : Except AuthError EnrollmentResult} (hinv : Inv db)
    (h : confirmTotpEnrollment env random clock later token code clientIp userAgent db = (r, db')) :
    (∃ e, r = .error e ∧ Refines Passive db db') ∨
      ∃ result now challenge account counter, r = .ok result ∧ clock = some now ∧
        db.openChallenge (opaqueDigest env.challengeDigest token) now = some (challenge, account) ∧
        matchingCounter env account code now = .ok (some counter) ∧
        Refines (At account.accountId (.confirmed counter)) db db' := by
  have hnothing : Refines Passive db db := (PassiveMove.composes.refl db hinv).1
  unfold confirmTotpEnrollment readClock challengeRow at h
  dsimp only at h
  rcases Exec.require_bind_cases h with ⟨rfl, rfl⟩ | ⟨now, hnow, h⟩
  · exact Or.inl ⟨_, rfl, hnothing⟩
  rcases Exec.atomically_ofExcept h with ⟨e, rfl, rfl⟩ | h
  · exact Or.inl ⟨e, rfl, hnothing⟩
  obtain ⟨⟨challenge, account⟩, hfound, h⟩ := Exec.require_bind_eq_ok h
  obtain ⟨hstate, h⟩ := Exec.ensure_bind_eq_ok h
  obtain ⟨howner, h⟩ := Exec.ensure_bind_eq_ok h
  obtain ⟨found, hmatch, h⟩ := Exec.ofExcept_bind_eq_ok h
  dsimp only at h hstate howner hmatch
  obtain ⟨-, hdigest, hmem, -⟩ := openChallenge_mem hfound
  cases found with
  | none =>
      obtain ⟨rfl, hpassive⟩ := recordFailure_eq_ok h
      exact Or.inl ⟨_, rfl, (hpassive hinv).1⟩
  | some counter =>
      dsimp only at h
      split at h
      · obtain ⟨rfl, hpassive⟩ := recordFailure_eq_ok h
        exact Or.inl ⟨_, rfl, (hpassive hinv).1⟩
      · next hcounter =>
          have howner : account.enrollmentChallengeDigest = some challenge.challengeDigest := by
            rw [hdigest]
            exact beq_iff_eq.mp howner
          obtain ⟨⟨result, rfl⟩, hrefines⟩ := activateEnrollment_refines hinv hmem
            (beq_iff_eq.mp hstate) howner (by omega) h
          exact Or.inr ⟨result, now, challenge, account, counter, rfl, hnow, hfound, hmatch,
            hrefines⟩

/-! ## Logins -/

theorem acceptCounter_refines {account : AccountRow} {challenge : PendingChallengeRow}
    {now counter : Nat} {clientIp userAgent : Option String}
    {outcome : Except AuthError IssuedSession} (hinv : Inv db) (hmem : account ∈ db.accounts)
    (hchallenge : challenge ∈ db.pendingChallenges)
    (hid : account.accountId = challenge.accountId) (hactive : account.enrollmentState = .active)
    (hcounter : account.totpLastCounter < counter)
    (h : acceptCounter env random later now challenge account.accountId counter clientIp
      userAgent db = (.ok outcome, db')) :
    (∃ session, outcome = .ok session) ∧
      Refines (At account.accountId (.accepted counter)) db db' := by
  have hwhere := fun other => @counterBelow_iff db hinv.keyed account counter hmem hactive hcounter
    other
  have hkeys : KeepsKeys (·.counted counter now) := fun _ => ⟨rfl, rfl⟩
  unfold acceptCounter at h
  rw [Exec.inspect_bind, Exec.update_bind, countAccounts_eq_one hinv.keyed hmem hwhere,
    if_neg (by simp)] at h
  rw [Exec.update_bind] at h
  obtain ⟨row, -, h⟩ := Exec.require_bind_eq_ok h
  obtain ⟨session, db₂, hissue, h⟩ := Exec.bind_eq_ok h
  obtain ⟨rfl, rfl⟩ := Exec.ret_eq_ok h
  refine ⟨⟨session, rfl⟩, Refines.congr ?_ (issueSession_same hissue)⟩
  have hpendingOf : ∀ b, ((db.updateAccounts (counterBelow account.accountId counter)
      (·.counted counter now)).deletePending
        (·.challengeDigest == challenge.challengeDigest)).pendingOf b =
      (db.pendingOf b).filter fun row => !(row.challengeDigest == challenge.challengeDigest) :=
    fun b => pendingOf_deletePending _ b
  apply refines_single hinv (keepsKeys_where hkeys)
  · intro other hother hne
    exact if_neg fun hcondition => hne ((hwhere other hother).mp hcondition)
  · rfl
  · exact List.filter_sublist.map _
  · intro b hb
    rw [hpendingOf, List.filter_eq_self]
    intro row hrow
    obtain ⟨hrow, hrowId⟩ := mem_pendingOf.mp hrow
    by_contra hsame
    have hdigest : row.challengeDigest = challenge.challengeDigest := by simpa using hsame
    have hequal := hinv.keyed.challenge_unique hrow hchallenge hdigest
    exact hb (by rw [← hrowId, hequal, ← hid])
  · exact fun _ _ => rfl
  · exact List.mem_map_of_mem hmem
  · exact fun _ _ hne => at_other hne
  · intro other hother hother_id
    refine ⟨.accepted counter, at_self hother_id, ?_⟩
    rw [if_pos ((hwhere other hother).mpr hother_id)]
    obtain rfl := hinv.keyed.account_unique hother hmem hother_id
    apply Step.accepted hactive hcounter _ (Nat.le_max_left _ _)
    have hle := (hinv.sound other hother).challenges_le
    have hfilter := List.length_filter_le (fun row : PendingChallengeRow =>
      !(row.challengeDigest == challenge.challengeDigest)) (db.pendingOf other.accountId)
    simp only [Db.enrollment, List.length_map] at hle
    rw [List.length_map]
    exact Nat.le_trans (hpendingOf other.accountId ▸ hfilter) hle

theorem completeTotpChallenge_refines {token code : String} {clientIp userAgent : Option String}
    {r : Except AuthError IssuedSession} (hinv : Inv db)
    (h : completeTotpChallenge env random clock later token code clientIp userAgent db = (r, db')) :
    (∃ e, r = .error e ∧ Refines Passive db db') ∨
      ∃ session now challenge account counter, r = .ok session ∧ clock = some now ∧
        db.openChallenge (opaqueDigest env.challengeDigest token) now = some (challenge, account) ∧
        matchingCounter env account code now = .ok (some counter) ∧
        Refines (At account.accountId (.accepted counter)) db db' := by
  have hnothing : Refines Passive db db := (PassiveMove.composes.refl db hinv).1
  unfold completeTotpChallenge readClock challengeRow at h
  dsimp only at h
  rcases Exec.require_bind_cases h with ⟨rfl, rfl⟩ | ⟨now, hnow, h⟩
  · exact Or.inl ⟨_, rfl, hnothing⟩
  rcases Exec.atomically_ofExcept h with ⟨e, rfl, rfl⟩ | h
  · exact Or.inl ⟨e, rfl, hnothing⟩
  obtain ⟨⟨challenge, account⟩, hfound, h⟩ := Exec.require_bind_eq_ok h
  obtain ⟨hstate, h⟩ := Exec.ensure_bind_eq_ok h
  obtain ⟨found, hmatch, h⟩ := Exec.ofExcept_bind_eq_ok h
  dsimp only at h hstate hmatch
  obtain ⟨hchallenge, -, hmem, hid⟩ := openChallenge_mem hfound
  cases found with
  | none =>
      obtain ⟨rfl, hpassive⟩ := recordFailure_eq_ok h
      exact Or.inl ⟨_, rfl, (hpassive hinv).1⟩
  | some counter =>
      dsimp only at h
      split at h
      · obtain ⟨rfl, hpassive⟩ := recordFailure_eq_ok h
        exact Or.inl ⟨_, rfl, (hpassive hinv).1⟩
      · next hcounter =>
          obtain ⟨⟨session, rfl⟩, hrefines⟩ := acceptCounter_refines hinv hmem hchallenge hid
            (beq_iff_eq.mp hstate) (by omega) h
          exact Or.inr ⟨session, now, challenge, account, counter, rfl, hnow, hfound, hmatch,
            hrefines⟩

/-- Spending a recovery code takes no challenge from a pending enrollment: the account is
active. -/
theorem spendCodes_passive (keep : RecoveryCodeRow → Bool) {account : AccountRow}
    (hmem : account ∈ db.accounts) (hactive : account.enrollmentState = .active) :
    PassiveMove db
      (({ db with recoveryCodes := db.recoveryCodes.filter keep } : Db).deleteAuthentication
        account.accountId) := by
  apply deletePending_passive (·.accountId == account.accountId)
  · rfl
  · rfl
  · exact List.filter_sublist
  · intro hinv row hrow challenge hchallenge howner
    obtain ⟨-, hid⟩ := mem_pendingOf.mp hchallenge
    by_contra hdeleted
    have hsame : challenge.accountId = account.accountId := by simpa using hdeleted
    obtain rfl := hinv.keyed.account_unique hrow hmem (hid.symm.trans hsame)
    have hnone := (hinv.sound row hrow).owner_eq_none
      (by rw [show (db.enrollment row).state = .active from hactive]; simp)
    have hsome : (db.enrollment row).owner = some challenge.challengeDigest := howner
    rw [hnone] at hsome
    cases hsome

theorem completeRecoveryChallenge_refines {token code : String}
    {clientIp userAgent : Option String} {r : Except AuthError IssuedSession} (hinv : Inv db)
    (h : completeRecoveryChallenge env random clock later token code clientIp userAgent db =
      (r, db')) : Refines Passive db db' := by
  have hnothing : Refines Passive db db := (PassiveMove.composes.refl db hinv).1
  unfold completeRecoveryChallenge requireRecoveryCode readClock challengeRow at h
  dsimp only at h
  rcases Exec.require_bind_cases h with ⟨rfl, rfl⟩ | ⟨normalized, -, h⟩
  · exact hnothing
  rcases Exec.require_bind_cases h with ⟨rfl, rfl⟩ | ⟨now, -, h⟩
  · exact hnothing
  rcases Exec.atomically_ofExcept h with ⟨e, rfl, rfl⟩ | h
  · exact hnothing
  obtain ⟨⟨challenge, account⟩, hfound, h⟩ := Exec.require_bind_eq_ok h
  obtain ⟨hstate, h⟩ := Exec.ensure_bind_eq_ok h
  dsimp only at h hstate
  obtain ⟨-, -, hmem, -⟩ := openChallenge_mem hfound
  rw [Exec.inspect_bind, Exec.update_bind] at h
  split at h
  · have hspent : PassiveMove db { db with recoveryCodes := db.recoveryCodes.filter fun row =>
        !(row.accountId == account.accountId &&
          row.codeDigest == env.recoveryDigest account.accountId normalized) } := by
      apply deletePending_passive fun _ => false
      · rfl
      · simp
      · exact List.filter_sublist
      · simp
    obtain ⟨-, hpassive⟩ := recordFailure_eq_ok h
    exact (PassiveMove.composes.trans hspent hpassive hinv).1
  · unfold acceptRecoveryCode at h
    rw [Exec.update_bind] at h
    obtain ⟨row, -, h⟩ := Exec.require_bind_eq_ok h
    obtain ⟨session, db₂, hissue, h⟩ := Exec.bind_eq_ok h
    obtain ⟨-, rfl⟩ := Exec.ret_eq_ok h
    refine Refines.congr ?_ (issueSession_same hissue)
    exact (spendCodes_passive _ hmem (beq_iff_eq.mp hstate) hinv).1

end MaddyWeb.Auth
