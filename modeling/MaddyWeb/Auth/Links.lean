import MaddyWeb.Auth.Statements
import Mathlib.Data.List.Nodup

/-!
# References between the tables

The rows of one account refer to rows of the same account only: a passkey challenge
to a session, a run to a rule, a rate row to the address of the account.
-/

namespace MaddyWeb.Auth

open MaddyWeb.Library

variable {db db' : Db} {env : Env} {random : Random}

/-- The databases that keep `I`. -/
def Preserves (I : Db → Prop) (db db' : Db) : Prop := I db → I db'

theorem Preserves.composes (I : Db → Prop) : Exec.Composes (Preserves I) where
  refl _ h := h
  trans h₁ h₂ h := h₂ (h₁ h)

/-! ## Tokens -/

structure TokenLinks (db : Db) : Prop where
  sessions : (db.sessions.map (·.sessionDigest)).Nodup
  passkeys : (db.passkeyChallenges.map (·.challengeDigest)).Nodup
  bound : ∀ challenge ∈ db.passkeyChallenges, ∀ digest ∈ challenge.sessionDigest,
    ∃ session ∈ db.sessions,
      session.sessionDigest = digest ∧ challenge.accountId = some session.accountId

theorem TokenLinks.congr (h : TokenLinks db) (hsessions : db'.sessions = db.sessions)
    (hpasskeys : db'.passkeyChallenges = db.passkeyChallenges) : TokenLinks db' := by
  constructor
  · rw [hsessions]
    exact h.sessions
  · rw [hpasskeys]
    exact h.passkeys
  · rw [hsessions, hpasskeys]
    exact h.bound

theorem TokenLinks.deleteSessions (h : TokenLinks db) (condition : SessionRow → Bool) :
    TokenLinks (db.deleteSessions condition) := by
  refine ⟨h.sessions.sublist (List.filter_sublist.map _),
    h.passkeys.sublist (List.filter_sublist.map _), ?_⟩
  intro challenge hchallenge digest hdigest
  obtain ⟨hchallenge, hkept⟩ := List.mem_filter.mp hchallenge
  obtain ⟨session, hsession, heq, haccount⟩ := h.bound challenge hchallenge digest hdigest
  refine ⟨session, List.mem_filter.mpr ⟨hsession, ?_⟩, heq, haccount⟩
  by_contra hcondition
  have hdeleted : digest ∈ (db.sessions.filter condition).map (·.sessionDigest) :=
    heq ▸ List.mem_map_of_mem (List.mem_filter.mpr ⟨hsession, by simpa using hcondition⟩)
  rw [Option.mem_def.mp hdigest, Option.any_some, List.contains_iff_mem.mpr hdeleted] at hkept
  cases hkept

theorem TokenLinks.deletePasskeyChallenges (h : TokenLinks db)
    (condition : PasskeyChallengeRow → Bool) :
    TokenLinks (db.deletePasskeyChallenges condition) := by
  refine ⟨h.sessions, h.passkeys.sublist (List.filter_sublist.map _), ?_⟩
  exact fun challenge hchallenge => h.bound challenge (List.mem_filter.mp hchallenge).1

theorem map_key_update {ρ : Type} {rows : List ρ} {key : ρ → String} {condition : ρ → Bool}
    {set : ρ → ρ} (hset : ∀ row, key (set row) = key row) :
    (rows.map fun row => if condition row then set row else row).map key = rows.map key := by
  rw [List.map_map]
  apply List.map_congr_left
  intro row _
  rw [Function.comp_apply]
  split
  · exact hset row
  · rfl

theorem TokenLinks.statements (env : Env) (call : Call) :
    AllStatements env call (Preserves TokenLinks) where
  composes := Preserves.composes _
  rules := RuleStatements.of_any (Preserves.composes _) fun _ _ _ h => h.congr rfl rfl
  rates := by constructor <;> intros <;> exact fun h => h.congr rfl rfl
  session :=
    { delete := fun _ condition h => h.deleteSessions condition
      update := by
        intro db digest set hset h
        refine ⟨?_, h.passkeys, ?_⟩
        · exact (map_key_update fun row => (hset row).1).symm ▸ h.sessions
        · intro challenge hchallenge bound hbound
          obtain ⟨session, hsession, heq, haccount⟩ := h.bound challenge hchallenge bound hbound
          refine ⟨_, List.mem_map_of_mem hsession, ?_⟩
          split
          · exact ⟨(hset session).1.trans heq, by rw [(hset session).2, haccount]⟩
          · exact ⟨heq, haccount⟩ }
  issue := by
    intro db row _ hfresh h
    refine ⟨?_, h.passkeys, ?_⟩
    · have hnodup := h.sessions.concat hfresh
      simpa [Db.insertSession] using hnodup
    · intro challenge hchallenge digest hdigest
      obtain ⟨session, hsession, heq⟩ := h.bound challenge hchallenge digest hdigest
      exact ⟨session, List.mem_append_left _ hsession, heq⟩
  passkey :=
    { credentials := fun _ _ h => h.congr rfl rfl
      delete := fun _ condition h => h.deletePasskeyChallenges condition
      update := by
        intro db digest set hset h
        refine ⟨h.sessions, ?_, ?_⟩
        · exact (map_key_update fun row => (hset row).1).symm ▸ h.passkeys
        · intro challenge hchallenge bound hbound
          obtain ⟨old, hold, rfl⟩ := List.mem_map.mp hchallenge
          split at hbound
          · next hcondition =>
              rw [(hset old).2.2] at hbound
              rw [if_pos hcondition, (hset old).2.1]
              exact h.bound old hold bound hbound
          · next hcondition =>
              rw [if_neg hcondition]
              exact h.bound old hold bound hbound
      insert := by
        intro db row _ hfresh hbound h
        refine ⟨h.sessions, ?_, ?_⟩
        · have hnodup := h.passkeys.concat hfresh
          simpa [Db.insertPasskeyChallenge] using hnodup
        · intro challenge hchallenge digest hdigest
          rcases List.mem_append.mp hchallenge with hchallenge | hchallenge
          · exact h.bound challenge hchallenge digest hdigest
          · rw [List.mem_singleton.mp hchallenge] at hdigest ⊢
            exact hbound digest hdigest }
  enrollment :=
    { updateAccounts := fun _ _ _ _ h => h.congr rfl rfl
      insertAccount := fun _ _ h => h.congr rfl rfl
      deleteAccount := fun _ _ h =>
        ((h.deleteSessions _).deletePasskeyChallenges (·.accountId == some _)).congr rfl rfl
      codes := fun _ _ h => h.congr rfl rfl
      delete := fun _ _ h => h.congr rfl rfl
      update := fun _ _ _ _ h => h.congr rfl rfl
      insert := fun _ _ _ _ h => h.congr rfl rfl }

/-! ## Rules and their runs -/

structure RuleLinks (db : Db) : Prop where
  ids : (db.mailRules.map (·.ruleId)).Nodup
  run_rule : ∀ run ∈ db.mailRuleRuns, ∀ ruleId ∈ run.ruleId, ∃ rule ∈ db.mailRules,
    rule.ruleId = ruleId ∧ rule.accountId = run.accountId

theorem RuleLinks.congr (h : RuleLinks db) (hrules : db'.mailRules = db.mailRules)
    (hruns : db'.mailRuleRuns = db.mailRuleRuns) : RuleLinks db' := by
  constructor
  · rw [hrules]
    exact h.ids
  · rw [hrules, hruns]
    exact h.run_rule

theorem RuleLinks.deleteMailRules (h : RuleLinks db) (condition : MailRuleRow → Bool) :
    RuleLinks (db.deleteMailRules condition) := by
  refine ⟨h.ids.sublist (List.filter_sublist.map _), ?_⟩
  intro run hrun ruleId hid
  obtain ⟨old, hold, rfl⟩ := List.mem_map.mp hrun
  split at hid
  · cases hid
  · next hkept =>
      rw [if_neg hkept]
      obtain ⟨rule, hrule, heq, haccount⟩ := h.run_rule old hold ruleId hid
      refine ⟨rule, List.mem_filter.mpr ⟨hrule, ?_⟩, heq, haccount⟩
      by_contra hcondition
      apply hkept
      have hdeleted : ruleId ∈ (db.mailRules.filter condition).map (·.ruleId) :=
        heq ▸ List.mem_map_of_mem (List.mem_filter.mpr ⟨hrule, by simpa using hcondition⟩)
      rw [Option.mem_def.mp hid, Option.any_some]
      exact List.contains_iff_mem.mpr hdeleted

theorem RuleLinks.filterRuns (h : RuleLinks db) (keep : MailRuleRunRow → Bool) :
    RuleLinks { db with mailRuleRuns := db.mailRuleRuns.filter keep } :=
  ⟨h.ids, fun run hrun => h.run_rule run (List.mem_filter.mp hrun).1⟩

/-- A change of rules that keeps their keys. -/
theorem RuleLinks.map (h : RuleLinks db) {set : MailRuleRow → MailRuleRow}
    (hset : ∀ row, (set row).ruleId = row.ruleId ∧ (set row).accountId = row.accountId) :
    RuleLinks { db with mailRules := db.mailRules.map set } := by
  refine ⟨?_, ?_⟩
  · have hkeys : (db.mailRules.map set).map (·.ruleId) = db.mailRules.map (·.ruleId) := by
      rw [List.map_map]
      exact List.map_congr_left fun row _ => (hset row).1
    exact hkeys.symm ▸ h.ids
  · intro run hrun ruleId hid
    obtain ⟨rule, hrule, heq, haccount⟩ := h.run_rule run hrun ruleId hid
    refine ⟨set rule, List.mem_map_of_mem hrule, ?_, ?_⟩
    · rw [(hset rule).1, heq]
    · rw [(hset rule).2, haccount]

theorem RuleLinks.foldl {γ : Type} {f : Db → γ → Db}
    (hstep : ∀ db x, RuleLinks db → RuleLinks (f db x))
    {xs : List γ} (h : RuleLinks db) : RuleLinks (xs.foldl f db) :=
  foldl_moves (Preserves.composes RuleLinks) (fun db x => hstep db x) xs db h

theorem RuleLinks.shiftPositions (h : RuleLinks db) (accountId : String) :
    RuleLinks (db.shiftPositions accountId) := by
  apply h.map
  intro row
  split <;> exact ⟨rfl, rfl⟩

theorem RuleLinks.compactPositions (h : RuleLinks db) (accountId : String) :
    RuleLinks (db.compactPositions accountId) := by
  apply (h.shiftPositions accountId).foldl
  intro db entry h
  apply h.map
  intro row
  split <;> exact ⟨rfl, rfl⟩

theorem RuleLinks.statements (env : Env) (call : Call) :
    AllStatements env call (Preserves RuleLinks) where
  composes := Preserves.composes _
  rules :=
    { insert := by
        intro db row hrow _ h
        refine ⟨?_, ?_⟩
        · have hnodup := h.ids.concat hrow.fresh
          simpa using hnodup
        · intro run hrun ruleId hid
          obtain ⟨rule, hrule, heq⟩ := h.run_rule run hrun ruleId hid
          exact ⟨rule, List.mem_append_left _ hrule, heq⟩
      revise := fun _ set hset h => h.map fun row => ⟨(hset row).1, (hset row).2.1⟩
      delete := fun _ accountId _ h => (h.deleteMailRules _).compactPositions accountId
      reorder := fun _ accountId now ruleIds _ h =>
        (h.shiftPositions accountId).foldl fun _ _ h => h.map fun _ => by split <;> exact ⟨rfl, rfl⟩
      filterRuns := fun _ keep h => h.filterRuns keep
      insertRun := by
        intro db row hrule h
        refine ⟨h.ids, ?_⟩
        intro run hrun ruleId hid
        rcases List.mem_append.mp hrun with hrun | hrun
        · exact h.run_rule run hrun ruleId hid
        · rw [List.mem_singleton.mp hrun] at hid ⊢
          exact hrule ruleId hid
      mapRuns := by
        intro db set hset h
        refine ⟨h.ids, ?_⟩
        intro run hrun ruleId hid
        obtain ⟨old, hold, rfl⟩ := List.mem_map.mp hrun
        rw [(hset old).1] at hid
        rw [(hset old).2]
        exact h.run_rule old hold ruleId hid }
  rates := by constructor <;> intros <;> exact fun h => h.congr rfl rfl
  session := by constructor <;> intros <;> exact fun h => h.congr rfl rfl
  issue := fun _ _ _ _ h => h.congr rfl rfl
  passkey := by constructor <;> intros <;> exact fun h => h.congr rfl rfl
  enrollment :=
    { updateAccounts := fun _ _ _ _ h => h.congr rfl rfl
      insertAccount := fun _ _ h => h.congr rfl rfl
      deleteAccount := fun _ accountId h =>
        ((h.deleteMailRules (·.accountId == accountId)).filterRuns
          (·.accountId != accountId)).congr rfl rfl
      codes := fun _ _ h => h.congr rfl rfl
      delete := fun _ _ h => h.congr rfl rfl
      update := fun _ _ _ _ h => h.congr rfl rfl
      insert := fun _ _ _ _ h => h.congr rfl rfl }

/-! ## Rate rows -/

/-- The bucket of the row is one of the two that count an address. -/
structure RateRow.Counts (env : Env) (canonical : String) (row : RateRow) : Prop where
  email : ∃ email, Identity.canonicalizeEmail email = some canonical
  digest : row.accountIdentityDigest = some (env.rateDigest "account" canonical)
  bucket : (row.scope = .account ∧ row.identityDigest = env.rateDigest "account" canonical) ∨
    (row.scope = .pair ∧
      ∃ ip, row.identityDigest = env.rateDigest "pair" (canonical ++ "\x00" ++ ip))

/-- A row that is linked to an account counts the address of the account. -/
def RateLinks (env : Env) (db : Db) : Prop :=
  ∀ row ∈ db.rateLimits, ∀ accountId ∈ row.accountId, ∃ account ∈ db.accounts,
    account.accountId = accountId ∧ row.Counts env account.canonicalEmail

/-- The part before the first separator. -/
theorem append_separator_inj {c : Char} {separator a b rest rest' : String}
    (hseparator : separator.toList = [c]) (ha : c ∉ a.toList) (hb : c ∉ b.toList)
    (h : a ++ separator ++ rest = b ++ separator ++ rest') : a = b := by
  have hlists : a.toList ++ c :: rest.toList = b.toList ++ c :: rest'.toList := by
    have hsplit := congrArg String.toList h
    simpa [String.toList_append, hseparator] using hsplit
  have hparts := congrArg (Text.partition [c]) hlists
  rw [Text.partition_singleton ha, Text.partition_singleton hb] at hparts
  exact String.toList_inj.mp (Prod.mk.inj (Option.some.inj hparts)).1

/-- The address that a linked row counts is the one whose bucket it is. -/
theorem RateRow.Counts.eq_of_bucket (hinjective : ∀ kind, Function.Injective (env.rateDigest kind))
    {row : RateRow} {canonical canonical' ip email : String} {accountId : Option String}
    (h : row.Counts env canonical)
    (hemail : Identity.canonicalizeEmail email = some canonical')
    (hidentity : row.identityDigest =
      (loginBucket env canonical' ip accountId row.scope).identityDigest) :
    canonical = canonical' := by
  rcases h.bucket with ⟨hscope, hdigest⟩ | ⟨hscope, ip', hdigest⟩
  · rw [hscope, hdigest] at hidentity
    exact hinjective "account" hidentity
  · rw [hscope, hdigest] at hidentity
    obtain ⟨email', hemail'⟩ := h.email
    exact append_separator_inj rfl (Identity.zero_not_mem_of_canonicalizeEmail hemail')
      (Identity.zero_not_mem_of_canonicalizeEmail hemail) (hinjective "pair" hidentity)

/-- What an attempt leaves of a row. -/
theorem mem_countAttempt {bucket : RateScope → RateBucket} {now : Nat} {rows : List RateRow}
    {policy : RatePolicy} {row : RateRow} (h : row ∈ countAttempt bucket now rows policy) :
    row ∈ rows ∨
      (row.scope = policy.scope ∧ row.identityDigest = (bucket policy.scope).identityDigest ∧
        ((row.accountId = (bucket policy.scope).accountId ∧
            row.accountIdentityDigest = (bucket policy.scope).accountIdentityDigest) ∨
          ∃ old ∈ rows, old.scope = row.scope ∧ old.identityDigest = row.identityDigest ∧
            row.accountId = ((bucket policy.scope).accountId <|> old.accountId) ∧
            row.accountIdentityDigest =
              ((bucket policy.scope).accountIdentityDigest <|> old.accountIdentityDigest))) := by
  unfold countAttempt at h
  dsimp only at h
  split at h
  · rcases List.mem_append.mp h with h | h
    · exact Or.inl h
    · cases List.mem_singleton.mp h
      exact Or.inr ⟨rfl, rfl, Or.inl ⟨rfl, rfl⟩⟩
  · obtain ⟨old, hold, rfl⟩ := List.mem_map.mp h
    split
    · next hmatch =>
        simp only [Bool.and_eq_true, beq_iff_eq] at hmatch
        exact Or.inr ⟨hmatch.1, hmatch.2, Or.inr ⟨old, hold, rfl, rfl, rfl, rfl⟩⟩
    · exact Or.inl hold

/-- An attempt that is not linked to an account keeps the links of its row. -/
theorem RateLinks.countUnlinked (h : RateLinks env db) {bucket : RateScope → RateBucket}
    (now : Nat) (policy : RatePolicy)
    (hbucket : (bucket policy.scope).accountId = none ∧
      (bucket policy.scope).accountIdentityDigest = none) :
    RateLinks env { db with rateLimits := countAttempt bucket now db.rateLimits policy } := by
  intro row hrow accountId hid
  rcases mem_countAttempt hrow with hrow | ⟨-, -,
    ⟨hnone, -⟩ | ⟨old, hold, hscope, hidentity, hlink, hdigest⟩⟩
  · exact h row hrow accountId hid
  · rw [hnone, hbucket.1] at hid
    cases hid
  · rw [hlink, hbucket.1] at hid
    rw [hbucket.2] at hdigest
    obtain ⟨account, haccount, heq, hcounts⟩ := h old hold accountId hid
    refine ⟨account, haccount, heq, hcounts.email, hdigest.trans hcounts.digest, ?_⟩
    rw [← hscope, ← hidentity]
    exact hcounts.bucket

theorem loginBucket_counts {canonical ip email : String} {accountId : Option String}
    {row : RateRow} (hemail : Identity.canonicalizeEmail email = some canonical)
    (hscope : row.scope = .account ∨ row.scope = .pair)
    (hidentity : row.identityDigest =
      (loginBucket env canonical ip accountId row.scope).identityDigest)
    (hdigest : row.accountIdentityDigest = some (env.rateDigest "account" canonical)) :
    row.Counts env canonical := by
  refine ⟨⟨email, hemail⟩, hdigest, ?_⟩
  rcases hscope with hscope | hscope
  · rw [hscope] at hidentity
    exact Or.inl ⟨hscope, hidentity⟩
  · rw [hscope] at hidentity
    exact Or.inr ⟨hscope, ip, hidentity⟩

theorem RateLinks.countLogin (hinjective : ∀ kind, Function.Injective (env.rateDigest kind))
    (h : RateLinks env db) {email canonical ip : String} {accountId : Option String} (now : Nat)
    (policy : RatePolicy) (hemail : Identity.canonicalizeEmail email = some canonical)
    (haccount : ∀ id ∈ accountId, ∃ account ∈ db.accounts,
      account.accountId = id ∧ account.canonicalEmail = canonical) :
    RateLinks env { db with
      rateLimits := countAttempt (loginBucket env canonical ip accountId) now db.rateLimits
        policy } := by
  by_cases hlinked : policy.scope = .account ∨ policy.scope = .pair
  · have htarget : (loginBucket env canonical ip accountId policy.scope).accountId = accountId ∧
        (loginBucket env canonical ip accountId policy.scope).accountIdentityDigest =
          some (env.rateDigest "account" canonical) := by
      rcases hlinked with hscope | hscope <;> rw [hscope] <;> exact ⟨rfl, rfl⟩
    intro row hrow id hid
    rcases mem_countAttempt hrow with hrow | ⟨hscope, hidentity, hlink⟩
    · exact h row hrow id hid
    rw [← hscope] at hidentity hlinked
    rw [htarget.1, htarget.2] at hlink
    have hdigest : row.accountIdentityDigest = some (env.rateDigest "account" canonical) := by
      rcases hlink with hlink | ⟨old, -, -, -, -, hlink⟩
      · exact hlink.2
      · exact hlink
    have hcounts := loginBucket_counts hemail hlinked hidentity hdigest
    have hnew : id ∈ accountId → ∃ account ∈ db.accounts,
        account.accountId = id ∧ row.Counts env account.canonicalEmail := by
      intro hid
      obtain ⟨account, hmem, heq, hcanonical⟩ := haccount id hid
      exact ⟨account, hmem, heq, hcanonical ▸ hcounts⟩
    rcases hlink with ⟨hlink, -⟩ | ⟨old, hold, hsame, hidentity', hlink, -⟩
    · exact hnew (hlink ▸ hid)
    · rw [hlink] at hid
      cases accountId with
      | some found => exact hnew hid
      | none =>
          obtain ⟨account, hmem, heq, hcounts'⟩ := h old hold id hid
          have hcanonical : account.canonicalEmail = canonical := by
            apply hcounts'.eq_of_bucket hinjective hemail
            rw [hidentity', hsame]
            exact hidentity
          exact ⟨account, hmem, heq, hcanonical ▸ hcounts⟩
  · apply h.countUnlinked
    cases hscope : policy.scope with
    | global => exact ⟨rfl, rfl⟩
    | ip => exact ⟨rfl, rfl⟩
    | account => exact absurd (Or.inl hscope) hlinked
    | pair => exact absurd (Or.inr hscope) hlinked

theorem RateLinks.filter (h : RateLinks env db) (keep : RateRow → Bool) :
    RateLinks env { db with rateLimits := db.rateLimits.filter keep } :=
  fun row hrow => h row (List.mem_filter.mp hrow).1

theorem RateLinks.statements (hinjective : ∀ kind, Function.Injective (env.rateDigest kind))
    (call : Call) : AllStatements env call (Preserves (RateLinks env)) where
  composes := Preserves.composes _
  rules := RuleStatements.of_any (Preserves.composes _) fun _ _ _ h => h
  rates :=
    { filter := fun _ keep h => h.filter keep
      login := by
        intro db email canonical ip now policy hemail h
        apply h.countLogin hinjective now policy hemail
        intro id hid
        obtain ⟨account, hfound, rfl⟩ := Option.map_eq_some_iff.mp hid
        exact ⟨account, List.mem_of_find?_eq_some hfound, rfl, by
          simpa using List.find?_some hfound⟩
      passkey := by
        intro db ip now policy h
        apply h.countUnlinked
        cases policy.scope <;> exact ⟨rfl, rfl⟩ }
  session := by constructor <;> intros <;> exact fun h => h
  issue := fun _ _ _ _ h => h
  passkey := by constructor <;> intros <;> exact fun h => h
  enrollment :=
    { updateAccounts := by
        intro db condition set hset h row hrow accountId hid
        obtain ⟨account, haccount, heq, hcounts⟩ := h row hrow accountId hid
        refine ⟨_, List.mem_map_of_mem haccount, ?_⟩
        split
        · rw [(hset account).1, (hset account).2]
          exact ⟨heq, hcounts⟩
        · exact ⟨heq, hcounts⟩
      insertAccount := by
        intro db account h row hrow accountId hid
        obtain ⟨account', haccount, hlink⟩ := h row hrow accountId hid
        exact ⟨account', List.mem_append_left _ haccount, hlink⟩
      deleteAccount := by
        intro db deleted h row hrow accountId hid
        obtain ⟨hrow, hkept⟩ := List.mem_filter.mp hrow
        obtain ⟨account, haccount, heq, hcounts⟩ := h row hrow accountId hid
        refine ⟨account, List.mem_filter.mpr ⟨haccount, ?_⟩, heq, hcounts⟩
        rw [Option.mem_def.mp hid] at hkept
        simpa [heq] using hkept
      codes := fun _ _ h => h
      delete := fun _ _ h => h
      update := fun _ _ _ _ h => h
      insert := fun _ _ _ _ h => h }

/-- What `I` says of the empty database it says of every database that the store reaches, if
every statement keeps it. -/
theorem Preserves.reachable {I : Db → Prop}
    (hall : ∀ call, AllStatements env call (Preserves I)) (hempty : I {})
    (h : Reachable env db) : I db := by
  apply h.induct hempty
  intro db call hdb
  exact perform_moves (hall call) db hdb

/-- The references of a reachable database. -/
structure Links (env : Env) (db : Db) : Prop where
  tokens : TokenLinks db
  rules : RuleLinks db
  rates : RateLinks env db

theorem links_of_reachable (hinjective : ∀ kind, Function.Injective (env.rateDigest kind))
    (h : Reachable env db) : Links env db where
  tokens := Preserves.reachable (TokenLinks.statements env) (by constructor <;> simp) h
  rules := Preserves.reachable (RuleLinks.statements env) (by constructor <;> simp) h
  rates := Preserves.reachable (RateLinks.statements hinjective) (by simp [RateLinks]) h

end MaddyWeb.Auth
