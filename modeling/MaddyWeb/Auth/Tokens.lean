import MaddyWeb.Auth.Enrollment
import MaddyWeb.Auth.Links

/-!
# Where the tokens come from

Sessions, login challenges and passkey challenges are kept under the digest of a
random token.  A call only stores tokens that it has drawn itself, so a token that
is gone stays gone.
-/

namespace MaddyWeb.Auth

open MaddyWeb.Library

inductive TokenKind
  | session
  | challenge
  | passkey
  deriving DecidableEq, Repr

/-- The keys of a token table, each with the account that it belongs to. -/
def Db.tokenRows (db : Db) : TokenKind → List (Digest × Option String)
  | .session => db.sessions.map fun row => (row.sessionDigest, some row.accountId)
  | .challenge => db.pendingChallenges.map fun row => (row.challengeDigest, some row.accountId)
  | .passkey => db.passkeyChallenges.map fun row => (row.challengeDigest, row.accountId)

def Env.tokenDigest (env : Env) : TokenKind → String → Digest
  | .session => opaqueDigest env.sessionDigest
  | .challenge => opaqueDigest env.challengeDigest
  | .passkey => env.passkeyDigest

def Random.drawn (random : Random) : TokenKind → Nat → OpaqueToken
  | .session => random.token
  | .challenge => random.token
  | .passkey => random.passkeyChallenge

/-- The HMAC digests of a store have no collisions. -/
structure Env.InjectiveDigests (env : Env) : Prop where
  session : Function.Injective env.sessionDigest
  challenge : Function.Injective env.challengeDigest
  passkey : Function.Injective env.passkeyDigest
  rate : ∀ kind, Function.Injective (env.rateDigest kind)

variable {env : Env} {random : Random} {db db' : Db} {kind : TokenKind}

theorem opaqueDigest_text (digest : String → Digest) (token : OpaqueToken) :
    opaqueDigest digest token.text = digest token.text := by
  unfold opaqueDigest
  rw [if_pos token.matchesPattern]

theorem OpaqueToken.text_injective {token token' : OpaqueToken} (h : token.text = token'.text) :
    token = token' := by
  cases token
  cases token'
  cases h
  rfl

theorem Env.InjectiveDigests.token_eq (h : env.InjectiveDigests) {token token' : OpaqueToken}
    (heq : env.tokenDigest kind token.text = env.tokenDigest kind token'.text) :
    token = token' := by
  apply OpaqueToken.text_injective
  cases kind with
  | session =>
      simp only [Env.tokenDigest, opaqueDigest_text] at heq
      exact h.session heq
  | challenge =>
      simp only [Env.tokenDigest, opaqueDigest_text] at heq
      exact h.challenge heq
  | passkey => exact h.passkey heq

/-! ## One call -/

/-- Every token of `db'` was there before or was drawn by the call. -/
def TokensFrom (env : Env) (random : Random) (db db' : Db) : Prop :=
  ∀ kind, ∀ row ∈ db'.tokenRows kind, row ∈ db.tokenRows kind ∨
    ∃ i < allocationAttempts, row.1 = env.tokenDigest kind (random.drawn kind i).text

theorem TokensFrom.composes (env : Env) (random : Random) :
    Exec.Composes (TokensFrom env random) where
  refl _ _ _ hrow := Or.inl hrow
  trans h₁ h₂ kind row hrow := by
    rcases h₂ kind row hrow with hrow | hdrawn
    · exact h₁ kind row hrow
    · exact Or.inr hdrawn

/-- A change that only takes tokens away. -/
theorem TokensFrom.of_subset (h : ∀ kind, db'.tokenRows kind ⊆ db.tokenRows kind) :
    TokensFrom env random db db' :=
  fun kind _ hrow => Or.inl (h kind hrow)

theorem TokensFrom.congr (hsessions : db'.sessions = db.sessions)
    (hpending : db'.pendingChallenges = db.pendingChallenges)
    (hpasskeys : db'.passkeyChallenges = db.passkeyChallenges) : TokensFrom env random db db' := by
  apply TokensFrom.of_subset
  intro kind
  cases kind with
  | session => simp [Db.tokenRows, hsessions]
  | challenge => simp [Db.tokenRows, hpending]
  | passkey => simp [Db.tokenRows, hpasskeys]

theorem TokensFrom.sublist (hsessions : db'.sessions.Sublist db.sessions)
    (hpending : db'.pendingChallenges.Sublist db.pendingChallenges)
    (hpasskeys : db'.passkeyChallenges.Sublist db.passkeyChallenges) :
    TokensFrom env random db db' := by
  apply TokensFrom.of_subset
  intro kind
  cases kind with
  | session => exact (hsessions.map _).subset
  | challenge => exact (hpending.map _).subset
  | passkey => exact (hpasskeys.map _).subset

/-- An update that keeps the key and the account of a row. -/
theorem tokenRows_update {ρ : Type} {rows : List ρ} {entry : ρ → Digest × Option String}
    {condition : ρ → Bool} {set : ρ → ρ} (hset : ∀ row, entry (set row) = entry row) :
    (rows.map fun row => if condition row then set row else row).map entry = rows.map entry := by
  rw [List.map_map]
  apply List.map_congr_left
  intro row _
  rw [Function.comp_apply]
  split
  · exact hset row
  · rfl

theorem TokensFrom.statements (env : Env) (call : Call) :
    AllStatements env call (TokensFrom env call.random) where
  composes := TokensFrom.composes env call.random
  rules := RuleStatements.of_any (TokensFrom.composes env call.random) fun _ _ _ =>
    TokensFrom.congr rfl rfl rfl
  rates := by constructor <;> intros <;> exact TokensFrom.congr rfl rfl rfl
  session :=
    { delete := fun db condition =>
        TokensFrom.sublist List.filter_sublist (List.Sublist.refl _) List.filter_sublist
      update := by
        intro db digest set hset
        apply TokensFrom.of_subset
        intro kind
        cases kind with
        | session =>
            unfold Db.tokenRows Db.updateSession
            rw [tokenRows_update fun row => by rw [(hset row).1, (hset row).2]]
            exact List.Subset.refl _
        | challenge => exact List.Subset.refl _
        | passkey => exact List.Subset.refl _ }
  issue := by
    intro db row hdrawn _ kind entry hentry
    cases kind with
    | session =>
        simp only [Db.tokenRows, Db.insertSession, List.map_append, List.map_cons, List.map_nil,
          List.mem_append, List.mem_singleton] at hentry
        rcases hentry with hentry | rfl
        · exact Or.inl hentry
        · exact Or.inr hdrawn
    | challenge => exact Or.inl hentry
    | passkey => exact Or.inl hentry
  passkey :=
    { credentials := fun _ _ => TokensFrom.congr rfl rfl rfl
      delete := fun db condition =>
        TokensFrom.sublist (List.Sublist.refl _) (List.Sublist.refl _) List.filter_sublist
      update := by
        intro db digest set hset
        apply TokensFrom.of_subset
        intro kind
        cases kind with
        | session => exact List.Subset.refl _
        | challenge => exact List.Subset.refl _
        | passkey =>
            unfold Db.tokenRows Db.updatePasskeyChallenge
            rw [tokenRows_update fun row => by rw [(hset row).1, (hset row).2.1]]
            exact List.Subset.refl _
      insert := by
        intro db row hdrawn _ _ kind entry hentry
        cases kind with
        | session => exact Or.inl hentry
        | challenge => exact Or.inl hentry
        | passkey =>
            simp only [Db.tokenRows, Db.insertPasskeyChallenge, List.map_append, List.map_cons,
              List.map_nil, List.mem_append, List.mem_singleton] at hentry
            rcases hentry with hentry | rfl
            · exact Or.inl hentry
            · exact Or.inr hdrawn }
  enrollment :=
    { updateAccounts := fun _ _ _ _ => TokensFrom.congr rfl rfl rfl
      insertAccount := fun _ _ => TokensFrom.congr rfl rfl rfl
      deleteAccount := fun db accountId =>
        TokensFrom.sublist List.filter_sublist List.filter_sublist
          (List.filter_sublist.trans List.filter_sublist)
      codes := fun _ _ => TokensFrom.congr rfl rfl rfl
      delete := fun db condition =>
        TokensFrom.sublist (List.Sublist.refl _) List.filter_sublist (List.Sublist.refl _)
      update := by
        intro db digest set hset
        apply TokensFrom.of_subset
        intro kind
        cases kind with
        | session => exact List.Subset.refl _
        | challenge =>
            unfold Db.tokenRows Db.updatePending
            rw [tokenRows_update fun row => by rw [(hset row).1, (hset row).2]]
            exact List.Subset.refl _
        | passkey => exact List.Subset.refl _
      insert := by
        intro db row hdrawn _ kind entry hentry
        cases kind with
        | session => exact Or.inl hentry
        | challenge =>
            simp only [Db.tokenRows, Db.insertPending, List.map_append, List.map_cons,
              List.map_nil, List.mem_append, List.mem_singleton] at hentry
            rcases hentry with hentry | rfl
            · exact Or.inl hentry
            · exact Or.inr hdrawn
        | passkey => exact Or.inl hentry }

theorem after_tokensFrom (env : Env) (db : Db) (call : Call) :
    TokensFrom env call.random db (db.after env call) :=
  perform_moves (TokensFrom.statements env call) db

/-! ## Runs -/

/-- The calls draw different tokens. -/
def FreshDraws (calls : List Call) : Prop :=
  calls.Pairwise fun earlier later => ∀ kind, ∀ i < allocationAttempts, ∀ j < allocationAttempts,
    earlier.random.drawn kind i ≠ later.random.drawn kind j

/-- One of the calls drew a token with the digest. -/
def DrawnIn (env : Env) (calls : List Call) (kind : TokenKind) (digest : Digest) : Prop :=
  ∃ call ∈ calls, ∃ i < allocationAttempts,
    digest = env.tokenDigest kind (call.random.drawn kind i).text

/-- What a run leaves in a token table was there before, or the run drew it. -/
theorem mem_tokenRows_afterAll {calls : List Call} {row : Digest × Option String}
    (h : row ∈ (db.afterAll env calls).tokenRows kind) :
    row ∈ db.tokenRows kind ∨ DrawnIn env calls kind row.1 := by
  induction calls generalizing db with
  | nil => exact Or.inl h
  | cons call calls ih =>
      rcases ih h with hrow | ⟨other, hother, hdrawn⟩
      · rcases after_tokensFrom env db call kind row hrow with hrow | hdrawn
        · exact Or.inl hrow
        · exact Or.inr ⟨call, List.mem_cons_self, hdrawn⟩
      · exact Or.inr ⟨other, List.mem_cons_of_mem _ hother, hdrawn⟩

theorem entry_unique {ρ : Type} {rows : List ρ} {key : ρ → Digest} {owner : ρ → Option String}
    (hnodup : (rows.map key).Nodup) {digest : Digest} {x y : Option String}
    (hx : (digest, x) ∈ rows.map fun row => (key row, owner row))
    (hy : (digest, y) ∈ rows.map fun row => (key row, owner row)) : x = y := by
  obtain ⟨row, hrow, heq⟩ := List.mem_map.mp hx
  obtain ⟨row', hrow', heq'⟩ := List.mem_map.mp hy
  obtain ⟨hkey, rfl⟩ := Prod.mk.inj heq
  obtain ⟨hkey', rfl⟩ := Prod.mk.inj heq'
  rw [List.inj_on_of_nodup_map hnodup hrow hrow' (hkey.trans hkey'.symm)]

/-- A key belongs to one account. -/
theorem tokenRows_unique (h : Reachable env db) {digest : Digest} {x y : Option String}
    (hx : (digest, x) ∈ db.tokenRows kind) (hy : (digest, y) ∈ db.tokenRows kind) : x = y := by
  have htokens : TokenLinks db :=
    Preserves.reachable (TokenLinks.statements env) (by constructor <;> simp) h
  cases kind with
  | session => exact entry_unique htokens.sessions hx hy
  | challenge => exact entry_unique (inv_of_reachable h).keyed.digests hx hy
  | passkey => exact entry_unique htokens.passkeys hx hy

/-- A token that an earlier call drew is drawn by no later one. -/
theorem FreshDraws.not_drawn {first second : List Call} (hdigests : env.InjectiveDigests)
    (hfresh : FreshDraws (first ++ second)) {digest : Digest} (h : DrawnIn env first kind digest) :
    ¬ DrawnIn env second kind digest := by
  rintro ⟨later, hlater, j, hj, hdrawn'⟩
  obtain ⟨earlier, hearlier, i, hi, hdrawn⟩ := h
  have hdiffer := (List.pairwise_append.mp hfresh).2.2 earlier hearlier later hlater kind i hi j hj
  exact hdiffer (hdigests.token_eq (hdrawn.symm.trans hdrawn'))

/-- What a later state says of a token that an earlier call has stored. -/
theorem mem_tokenRows_of_later {first second : List Call} (hdigests : env.InjectiveDigests)
    (hfresh : FreshDraws (first ++ second)) {digest : Digest} {x y : Option String}
    (hstored : (digest, x) ∈ (Db.afterAll env {} first).tokenRows kind)
    (hlater : (digest, y) ∈ (Db.afterAll env {} (first ++ second)).tokenRows kind) : y = x := by
  have hdrawn : DrawnIn env first kind digest := by
    rcases mem_tokenRows_afterAll hstored with hempty | hdrawn
    · cases kind <;> cases hempty
    · exact hdrawn
  rw [afterAll_append] at hlater
  rcases mem_tokenRows_afterAll hlater with hkept | hnew
  · exact tokenRows_unique (reachable_afterAll env first) hkept hstored
  · exact absurd hnew (hfresh.not_drawn hdigests hdrawn)

end MaddyWeb.Auth
