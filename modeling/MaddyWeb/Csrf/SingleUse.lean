import MaddyWeb.Csrf.Middleware

/-!
# How often a CSRF token reaches a handler

A token is consumed by the rotation of the one key under which it is current.
The middleware also registers a replacement under the key of the scope that a
login leaves behind, and then one nonce is current under two keys.  Every run in
which an accepted nonce is current under its own key only uses each token once.
-/

namespace MaddyWeb.Csrf.SingleUse

open MaddyWeb.Csrf.Middleware
open MaddyWeb.Csrf.Store (Entries)

/-- The nonce that a request in this phase may still put in the registry. -/
def registers : Phase → Option String
  | .replacingSafe _ _ replacement => some replacement.nonce
  | .rotating _ _ _ replacement => some replacement.nonce
  | .recovering _ replacement _ => some replacement.nonce
  | .handlingPost _ _ replacement => some replacement.nonce
  | .carrying _ replacement => some replacement.nonce
  | _ => none

/-- The token that a POST in this phase presents. -/
def presents : Phase → Option Token
  | .readingBody _ _ _ token => some token
  | .rotating _ _ token _ => some token
  | _ => none

/-- The nonce is current under no key but this one, and no request in flight may still
register it. -/
def Exclusive (world : World) (key nonce : String) : Prop :=
  (∀ entry ∈ world.shared.entries, entry.1 ≠ key → entry.2.nonce ≠ nonce) ∧
    ∀ phase ∈ world.phases, registers phase ≠ some nonce

instance (world : World) (key nonce : String) : Decidable (Exclusive world key nonce) :=
  inferInstanceAs (Decidable (_ ∧ _))

/-- The step is no rotation, or the nonce that it presents is exclusive to its key. -/
def RotatesExclusive (env : Env) (world : World) : Action → Prop
  | .resume index (.registry _ _) =>
      match world.phases[index]? with
      | some (.rotating _ scope token _) =>
          Exclusive world (stateIdentity env scope token.flowId).2 token.nonce
      | _ => True
  | _ => True

instance (env : Env) (world : World) (action : Action) :
    Decidable (RotatesExclusive env world action) := by
  unfold RotatesExclusive
  split
  · split <;> infer_instance
  · infer_instance

/-- Every step of the run is taken in a state where it `RotatesExclusive`. -/
def ExclusiveRun (env : Env) : World → List Action → Prop
  | _, [] => True
  | world, action :: rest =>
      RotatesExclusive env world action ∧
        match step env world action with
        | some next => ExclusiveRun env next rest
        | none => True

instance decidableExclusiveRun (env : Env) :
    (world : World) → (actions : List Action) → Decidable (ExclusiveRun env world actions)
  | _, [] => inferInstanceAs (Decidable True)
  | world, action :: rest => by
      unfold ExclusiveRun
      cases step env world action with
      | none => infer_instance
      | some next =>
          have := decidableExclusiveRun env next rest
          infer_instance

/-! ## What one request does to the shared state -/

/-- The tokens signed so far carry the draws of the random source in order. -/
def Numbered (env : Env) (minted : List Token) : Prop :=
  ∀ index token, minted[index]? = some token → token.nonce = env.nonce index

/-- `later` was signed after `earlier`, with the next draws. -/
structure Signs (env : Env) (earlier later : List Token) : Prop where
  initial : earlier <+: later
  numbered : Numbered env earlier → Numbered env later

/-- A nonce drawn for `later` only. -/
def Drawn (env : Env) (earlier : List Token) (nonce : String) : Prop :=
  ∃ index, earlier.length ≤ index ∧ nonce = env.nonce index

theorem Signs.refl (env : Env) (minted : List Token) : Signs env minted minted :=
  ⟨List.prefix_refl _, id⟩

theorem Signs.trans {env : Env} {a b c : List Token} (hab : Signs env a b)
    (hbc : Signs env b c) : Signs env a c :=
  ⟨hab.initial.trans hbc.initial, fun h => hbc.numbered (hab.numbered h)⟩

theorem Drawn.mono {env : Env} {a b : List Token} {nonce : String} (hab : Signs env a b)
    (h : Drawn env b nonce) : Drawn env a nonce := by
  obtain ⟨index, hle, heq⟩ := h
  exact ⟨index, Nat.le_trans hab.initial.length_le hle, heq⟩

theorem Drawn.not_minted {env : Env} (hinj : Function.Injective env.nonce)
    {minted : List Token} (hnum : Numbered env minted) {nonce : String}
    (h : Drawn env minted nonce) : ∀ token ∈ minted, token.nonce ≠ nonce := by
  intro token hmem heq
  obtain ⟨index, hle, hnonce⟩ := h
  obtain ⟨j, hj⟩ := List.mem_iff_getElem?.mp hmem
  have hlt : j < minted.length := (List.getElem?_eq_some_iff.mp hj).1
  have hsame : env.nonce j = env.nonce index := by
    rw [← hnum j token hj, heq, hnonce]
  have := hinj hsame
  omega

theorem mint_signs (env : Env) (now : Int) (flowId : String) (shared : Shared) :
    Signs env shared.minted (mint env now flowId shared).2.minted := by
  constructor
  · exact List.prefix_append _ _
  · intro hnum index token hget
    simp only [mint] at hget
    rw [List.getElem?_append] at hget
    split at hget
    · exact hnum index token hget
    · have hindex : index = shared.minted.length := by
        have := (List.getElem?_eq_some_iff.mp hget).1
        simp only [List.length_singleton] at this
        omega
      subst hindex
      simp only [Nat.sub_self, List.getElem?_cons_zero, Option.some.injEq] at hget
      rw [← hget]
      rfl

theorem mint_drawn (env : Env) (now : Int) (flowId : String) (shared : Shared) :
    Drawn env shared.minted (mint env now flowId shared).1.nonce :=
  ⟨shared.minted.length, Nat.le_refl _, rfl⟩

/-- The effect of a step in which no POST reaches its handler, on the request's own
phase and on the shared state. -/
structure Quiet (env : Env) (mayRegister : Option String) (mayPresent : Option Token)
    (before : Shared) (phase : Phase) (after : Shared) : Prop where
  reached : after.reached = before.reached
  signs : Signs env before.minted after.minted
  entries : ∀ entry ∈ after.entries, entry ∈ before.entries ∨ mayRegister = some entry.2.nonce
  registers : ∀ nonce, registers phase = some nonce →
    mayRegister = some nonce ∨ Drawn env before.minted nonce
  presents : ∀ token, presents phase = some token → mayPresent = some token

/-- The step in which a POST reaches its handler. -/
structure Accepted (env : Env) (key : String) (token : Token) (replacement : String)
    (before : Shared) (phase : Phase) (after : Shared) : Prop where
  reached : after.reached = before.reached ++ [token.nonce]
  minted : after.minted = before.minted
  current : ∃ state, (key, state) ∈ before.entries ∧ state.nonce = token.nonce
  entries : ∀ entry ∈ after.entries,
    entry.2.nonce = replacement ∨ (entry ∈ before.entries ∧ entry.1 ≠ key)
  registers : registers phase = some replacement
  presents : presents phase = none

namespace Quiet

/-- Waiting, or ending, without a token to register. -/
theorem of_silent {env : Env} {mayRegister : Option String} {mayPresent : Option Token}
    {before shared : Shared} {phase : Phase}
    (hreached : shared.reached = before.reached)
    (hsigns : Signs env before.minted shared.minted)
    (hentries : shared.entries ⊆ before.entries)
    (hregisters : SingleUse.registers phase = none)
    (hpresents : ∀ token, SingleUse.presents phase = some token → mayPresent = some token) :
    Quiet env mayRegister mayPresent before phase shared where
  reached := hreached
  signs := hsigns
  entries := fun _ hmem => Or.inl (hentries hmem)
  registers := by
    intro nonce h
    rw [hregisters] at h
    cases h
  presents := hpresents

/-- Signing a token and waiting in a phase that holds it. -/
theorem of_mint {env : Env} {mayRegister : Option String} {mayPresent : Option Token}
    {before shared : Shared} {phase : Phase} (now : Int) (flowId : String)
    (hreached : shared.reached = before.reached)
    (hsigns : Signs env before.minted shared.minted)
    (hentries : shared.entries ⊆ before.entries)
    (hregisters : SingleUse.registers phase = some (mint env now flowId shared).1.nonce)
    (hpresents : ∀ token, SingleUse.presents phase = some token → mayPresent = some token) :
    Quiet env mayRegister mayPresent before phase (mint env now flowId shared).2 where
  reached := hreached
  signs := hsigns.trans (mint_signs env now flowId shared)
  entries := fun _ hmem => Or.inl (hentries hmem)
  registers := by
    intro nonce h
    rw [hregisters, Option.some.injEq] at h
    rw [← h]
    exact Or.inr ((mint_drawn env now flowId shared).mono hsigns)
  presents := hpresents

/-- Registering the token that the phase holds. -/
theorem of_register {env : Env} {mayPresent : Option Token} {shared : Shared} {phase : Phase}
    (monotonic : Nat) (scope : CsrfScope) (token : Token)
    (hregisters : SingleUse.registers phase = none) (hpresents : SingleUse.presents phase = none) :
    Quiet env (some token.nonce) mayPresent shared phase
      (register env monotonic scope token shared) where
  reached := rfl
  signs := Signs.refl _ _
  entries := by
    intro entry hmem
    rcases Store.mem_replace hmem with h | h
    · exact Or.inr (by rw [h])
    · exact Or.inl h
  registers := by
    intro nonce h
    rw [hregisters] at h
    cases h
  presents := by
    intro token h
    rw [hpresents] at h
    cases h

end Quiet

theorem admitPost_quiet {env : Env} {request : Request} {now : Int} {scope : CsrfScope}
    {verified : Option (Cookie × Token)} {flowId : String} {before shared : Shared}
    {mayPresent : Option Token}
    (hreached : shared.reached = before.reached)
    (hsigns : Signs env before.minted shared.minted)
    (hentries : shared.entries ⊆ before.entries)
    (hpresent : verified.map Prod.snd = mayPresent) :
    Quiet env none mayPresent before
      (admitPost env request now scope verified flowId shared).1
      (admitPost env request now scope verified flowId shared).2 := by
  subst hpresent
  unfold admitPost
  split
  · exact Quiet.of_silent hreached hsigns hentries rfl (fun token h => by cases h)
  · cases verified with
    | none =>
        exact Quiet.of_mint now flowId hreached hsigns hentries rfl (fun token h => by cases h)
    | some pair =>
        dsimp only
        split
        · exact Quiet.of_silent hreached hsigns hentries rfl (fun token h => by cases h)
        · exact Quiet.of_silent hreached hsigns hentries rfl (fun token h => h)

/-- The arrival of a request registers nothing, and only a signed token is presented. -/
theorem admit_quiet (env : Env) (request : Request) (now : Int) (shared : Shared) :
    ∃ mayPresent : Option Token, (∀ token ∈ mayPresent, token ∈ shared.minted) ∧
      Quiet env none mayPresent shared (admitRequest env request now shared).1
        (admitRequest env request now shared).2 := by
  unfold admitRequest
  split
  · exact ⟨none, by simp, Quiet.of_silent rfl (Signs.refl _ _) (List.Subset.refl _) rfl
      (fun token h => by cases h)⟩
  split
  · exact ⟨none, by simp, Quiet.of_silent rfl (Signs.refl _ _) (List.Subset.refl _) rfl
      (fun token h => by cases h)⟩
  cases requestScope request.authToken request.clientIp with
  | none => exact ⟨none, by simp, Quiet.of_silent rfl (Signs.refl _ _) (List.Subset.refl _) rfl
      (fun token h => by cases h)⟩
  | some scope =>
      cases hverified : (request.cookie.bind fun cookie =>
          (verifyCsrfToken env now shared.minted cookie).map fun token => (cookie, token)) with
      | none =>
          have hsigns := mint_signs env now (env.flow shared.minted.length) shared
          refine ⟨none, by simp, ?_⟩
          dsimp only
          split
          · exact Quiet.of_mint now _ rfl hsigns (List.Subset.refl _) rfl
              (fun token h => by cases h)
          · split
            · apply Quiet.of_silent
              · rfl
              · exact hsigns.trans (mint_signs _ _ _ _)
              · exact List.Subset.refl _
              · rfl
              · intro token h
                cases h
            · apply admitPost_quiet
              · rfl
              · exact hsigns.trans (mint_signs _ _ _ _)
              · exact List.Subset.refl _
              · rfl
      | some pair =>
          refine ⟨some pair.2, ?_, ?_⟩
          · intro token htoken
            obtain ⟨cookie, -, hmap⟩ := Option.bind_eq_some_iff.mp hverified
            obtain ⟨found, hfound, rfl⟩ := Option.map_eq_some_iff.mp hmap
            cases htoken
            have := (Option.filter_eq_some_iff.mp hfound).2
            simp only [Bool.and_eq_true, decide_eq_true_eq] at this
            exact this.1
          · dsimp only
            split
            · exact Quiet.of_silent rfl (Signs.refl _ _) (List.Subset.refl _) rfl
                (fun token h => by cases h)
            · split
              · exact Quiet.of_silent rfl (Signs.refl _ _) (List.Subset.refl _) rfl
                  (fun token h => by cases h)
              · exact admitPost_quiet rfl (Signs.refl _ _) (List.Subset.refl _) rfl

/-- Every way a request can go on after an `await`. -/
theorem advance_cases {env : Env} {shared after : Shared} {phase next : Phase} {input : Input}
    (h : advance env shared phase input = some (next, after)) :
    Quiet env (registers phase) (presents phase) shared next after ∨
      ∃ request scope token replacement monotonic now,
        phase = .rotating request scope token replacement ∧
        input = .registry monotonic now ∧
        Accepted env (stateIdentity env scope token.flowId).2 token replacement.nonce shared next
          after := by
  have hend : ∀ response, Quiet env (registers phase) (presents phase) shared
      (.finished response) shared := by
    intro response
    exact Quiet.of_silent rfl (Signs.refl _ _) (List.Subset.refl _) rfl (fun token h => by cases h)
  unfold advance at h
  split at h
  · cases h
  · cases h
    exact Or.inl (hend _)
  · next request scope token monotonic now =>
      left
      have hsubset := Store.isCurrent_subset monotonic (stateIdentity env scope token.flowId).2
        token.nonce shared.entries
      dsimp only at h
      split at h
      · next entries hcurrent =>
          cases h
          rw [hcurrent] at hsubset
          exact Quiet.of_silent rfl (Signs.refl _ _) hsubset rfl (fun token h => by cases h)
      · next entries hcurrent =>
          cases h
          rw [hcurrent] at hsubset
          exact Quiet.of_mint now _ rfl (Signs.refl _ _) hsubset rfl (fun token h => by cases h)
  · next request scope replacement monotonic now =>
      cases h
      exact Or.inl (Quiet.of_register monotonic scope replacement rfl rfl)
  · next request scope text token submitted now =>
      left
      split at h
      · cases h
        exact hend _
      · split at h
        · cases h
          exact Quiet.of_mint now _ rfl (Signs.refl _ _) (List.Subset.refl _) rfl
            (fun token h => by cases h)
        · cases h
          exact Quiet.of_mint now _ rfl (Signs.refl _ _) (List.Subset.refl _) rfl
            (fun token h => h)
  · next request scope token replacement monotonic now =>
      dsimp only at h
      split at h
      · next entries hrotate =>
          cases h
          right
          obtain ⟨hcurrent, hentries⟩ := Store.rotate_accepted hrotate
          exact ⟨request, scope, token, replacement, monotonic, now, rfl, rfl,
            ⟨rfl, rfl, hcurrent, hentries, rfl, rfl⟩⟩
      · next entries hrotate =>
          cases h
          left
          exact Quiet.of_mint now _ rfl (Signs.refl _ _) (Store.rotate_rejected hrotate) rfl
            (fun token h => by cases h)
  · next scope replacement code monotonic now =>
      cases h
      exact Or.inl (Quiet.of_register monotonic scope replacement rfl rfl)
  · cases h
    exact Or.inl (hend _)
  · next request scope replacement session =>
      left
      split at h
      · cases h
        exact hend _
      · split at h
        · cases h
          exact ⟨rfl, Signs.refl _ _, fun _ hmem => Or.inl hmem, fun _ h => Or.inl h,
            fun token h => by cases h⟩
        · cases h
          exact hend _
  · next postScope replacement monotonic now =>
      cases h
      exact Or.inl (Quiet.of_register monotonic postScope replacement rfl rfl)
  · cases h

/-! ## The invariant of exclusive runs -/

/-- A nonce with which a POST reached its handler is gone: it is registered nowhere, and no
request in flight registers it again. -/
structure Consumed (env : Env) (world : World) : Prop where
  numbered : Numbered env world.shared.minted
  presented : ∀ phase ∈ world.phases, ∀ token, presents phase = some token →
    token ∈ world.shared.minted
  signed : ∀ nonce ∈ world.shared.reached, ∃ token ∈ world.shared.minted, token.nonce = nonce
  unregistered : ∀ nonce ∈ world.shared.reached, ∀ entry ∈ world.shared.entries,
    entry.2.nonce ≠ nonce
  released : ∀ nonce ∈ world.shared.reached, ∀ phase ∈ world.phases,
    registers phase ≠ some nonce
  nodup : world.shared.reached.Nodup

theorem consumed_init (env : Env) : Consumed env {} := by
  constructor
  · intro index token h
    simp at h
  all_goals simp

/-- A quiet step of one request keeps the invariant when the phases after it are the old
ones and the new phase of that request. -/
theorem Consumed.quiet {env : Env} (hinj : Function.Injective env.nonce) {world : World}
    (hinv : Consumed env world) {mayRegister : Option String} {mayPresent : Option Token}
    {phase : Phase} {after : Shared} {phases : List Phase}
    (hquiet : Quiet env mayRegister mayPresent world.shared phase after)
    (hregister : ∀ nonce ∈ world.shared.reached, mayRegister ≠ some nonce)
    (hpresent : ∀ token ∈ mayPresent, token ∈ world.shared.minted)
    (hphases : ∀ other ∈ phases, other ∈ world.phases ∨ other = phase) :
    Consumed env ⟨after, phases⟩ := by
  have hgrow : ∀ token ∈ world.shared.minted, token ∈ after.minted :=
    fun token hmem => hquiet.signs.initial.subset hmem
  have hfresh : ∀ nonce ∈ world.shared.reached, ¬ Drawn env world.shared.minted nonce := by
    intro nonce hmem hdrawn
    obtain ⟨token, htoken, heq⟩ := hinv.signed nonce hmem
    exact hdrawn.not_minted hinj hinv.numbered token htoken heq
  constructor
  · exact hquiet.signs.numbered hinv.numbered
  · intro other hother token htoken
    apply hgrow
    rcases hphases other hother with hold | rfl
    · exact hinv.presented other hold token htoken
    · exact hpresent token (hquiet.presents token htoken)
  · intro nonce hmem
    rw [hquiet.reached] at hmem
    obtain ⟨token, htoken, heq⟩ := hinv.signed nonce hmem
    exact ⟨token, hgrow token htoken, heq⟩
  · intro nonce hmem entry hentry
    rw [hquiet.reached] at hmem
    rcases hquiet.entries entry hentry with hold | hnew
    · exact hinv.unregistered nonce hmem entry hold
    · intro heq
      exact hregister nonce hmem (heq ▸ hnew)
  · intro nonce hmem other hother
    rw [hquiet.reached] at hmem
    rcases hphases other hother with hold | rfl
    · exact hinv.released nonce hmem other hold
    · intro hreg
      rcases hquiet.registers nonce hreg with hheld | hdrawn
      · exact hregister nonce hmem hheld
      · exact hfresh nonce hmem hdrawn
  · show after.reached.Nodup
    rw [hquiet.reached]
    exact hinv.nodup

/-- The accepted nonce was registered, so it had not reached a handler before; exclusivity
makes the rotation take it out of the registry and of every request in flight. -/
theorem Consumed.accepted {env : Env} {world : World} (hinv : Consumed env world)
    {key : String} {token : Token} {replacement : String} {phase : Phase} {after : Shared}
    {phases : List Phase}
    (haccepted : Accepted env key token replacement world.shared phase after)
    (hexclusive : Exclusive world key token.nonce)
    (hheld : ∃ old ∈ world.phases, registers old = some replacement ∧ presents old = some token)
    (hphases : ∀ other ∈ phases, other ∈ world.phases ∨ other = phase) :
    Consumed env ⟨after, phases⟩ := by
  obtain ⟨old, hold, hregister, hpresent⟩ := hheld
  have hsigned : token ∈ world.shared.minted := hinv.presented old hold token hpresent
  have hdistinct : replacement ≠ token.nonce := by
    intro heq
    exact hexclusive.2 old hold (by rw [hregister, heq])
  have hreplacement : ∀ nonce ∈ world.shared.reached, replacement ≠ nonce := by
    intro nonce hmem heq
    exact hinv.released nonce hmem old hold (by rw [hregister, heq])
  have hnew : token.nonce ∉ world.shared.reached := by
    intro hmem
    obtain ⟨state, hstate, hnonce⟩ := haccepted.current
    exact hinv.unregistered token.nonce hmem (key, state) hstate hnonce
  have hreached : ∀ nonce ∈ after.reached, nonce ∈ world.shared.reached ∨ nonce = token.nonce := by
    intro nonce hmem
    rw [haccepted.reached] at hmem
    simpa using hmem
  constructor
  · show Numbered env after.minted
    rw [haccepted.minted]
    exact hinv.numbered
  · intro other hother shown hshown
    show shown ∈ after.minted
    rw [haccepted.minted]
    rcases hphases other hother with hin | rfl
    · exact hinv.presented other hin shown hshown
    · rw [haccepted.presents] at hshown
      cases hshown
  · intro nonce hmem
    show ∃ token ∈ after.minted, token.nonce = nonce
    rw [haccepted.minted]
    rcases hreached nonce hmem with hin | rfl
    · exact hinv.signed nonce hin
    · exact ⟨token, hsigned, rfl⟩
  · intro nonce hmem entry hentry
    rcases haccepted.entries entry hentry with hnonce | ⟨hin, hkey⟩
    · rw [hnonce]
      rcases hreached nonce hmem with hmem | rfl
      · exact hreplacement nonce hmem
      · exact hdistinct
    · rcases hreached nonce hmem with hmem | rfl
      · exact hinv.unregistered nonce hmem entry hin
      · exact hexclusive.1 entry hin hkey
  · intro nonce hmem other hother
    rcases hphases other hother with hin | rfl
    · rcases hreached nonce hmem with hmem | rfl
      · exact hinv.released nonce hmem other hin
      · exact hexclusive.2 other hin
    · rw [haccepted.registers]
      intro heq
      cases heq
      rcases hreached replacement hmem with hmem | heq
      · exact hreplacement replacement hmem rfl
      · exact hdistinct heq
  · show after.reached.Nodup
    rw [haccepted.reached, List.nodup_append]
    refine ⟨hinv.nodup, by simp, ?_⟩
    intro nonce hmem other hother heq
    rw [List.mem_singleton] at hother
    exact hnew (hother ▸ heq ▸ hmem)

/-- One step of an exclusive run keeps the invariant. -/
theorem step_consumed {env : Env} (hinj : Function.Injective env.nonce) {world next : World}
    {action : Action} (hinv : Consumed env world)
    (hexclusive : RotatesExclusive env world action)
    (hstep : step env world action = some next) : Consumed env next := by
  cases action with
  | arrive request now =>
      cases hstep
      obtain ⟨mayPresent, hsigned, hquiet⟩ := admit_quiet env request now world.shared
      apply hinv.quiet hinj hquiet
      · simp
      · exact hsigned
      · intro other hother
        rcases List.mem_append.mp hother with hold | hnew
        · exact Or.inl hold
        · exact Or.inr (List.mem_singleton.mp hnew)
  | resume index input =>
      obtain ⟨phase, hphase, hmap⟩ := Option.bind_eq_some_iff.mp hstep
      obtain ⟨⟨moved, after⟩, hadvance, rfl⟩ := Option.map_eq_some_iff.mp hmap
      have hmem : phase ∈ world.phases := List.mem_of_getElem? hphase
      rcases advance_cases hadvance with hquiet | haccepted
      · apply hinv.quiet hinj hquiet
        · exact fun nonce hnonce => hinv.released nonce hnonce phase hmem
        · exact fun token htoken => hinv.presented phase hmem token htoken
        · exact fun other hother => List.mem_or_eq_of_mem_set hother
      · obtain ⟨request, scope, token, replacement, monotonic, now, rfl, rfl, haccepted⟩ :=
          haccepted
        apply hinv.accepted haccepted
        · simpa [RotatesExclusive, hphase] using hexclusive
        · exact ⟨_, hmem, rfl, rfl⟩
        · exact fun other hother => List.mem_or_eq_of_mem_set hother

theorem run_consumed {env : Env} (hinj : Function.Injective env.nonce) {world last : World}
    {actions : List Action} (hinv : Consumed env world)
    (hexclusive : ExclusiveRun env world actions) (hrun : run env world actions = some last) :
    Consumed env last := by
  induction actions generalizing world with
  | nil =>
      cases hrun
      exact hinv
  | cons action rest ih =>
      obtain ⟨next, hstep, hrest⟩ := Option.bind_eq_some_iff.mp hrun
      have hlater := hexclusive.2
      rw [hstep] at hlater
      exact ih (step_consumed hinj hinv hexclusive.1 hstep) hlater hrest

/-- In a run whose rotations are all exclusive, each token brings at most one POST to its
handler, whatever the interleaving. -/
theorem reached_nodup_of_exclusiveRun (env : Env) (hinj : Function.Injective env.nonce)
    (actions : List Action) (world : World) (hexclusive : ExclusiveRun env {} actions)
    (hrun : run env {} actions = some world) : world.shared.reached.Nodup :=
  (run_consumed hinj (consumed_init env) hexclusive hrun).nodup

/-! ## A login leaves its token current under two keys -/

/-- A process with readable digests and draws. -/
def plainEnv : Env where
  bounds := ⟨4096, 8, 900, by decide, by decide, by decide⟩
  tokenlessPaths := []
  hostIsAllowed := fun host => host == "mail.example.org"
  originIsAllowed := fun _ origin => origin == "https://mail.example.org"
  refererIsAllowed := fun _ _ => false
  scopeDigest := id
  stateDigest := fun base flow => base ++ "/" ++ flow
  flow := fun _ => "flow-flow-flow-flow"
  nonce := fun n => String.ofList (List.replicate n 'n')

theorem plainEnv_nonce_injective : Function.Injective plainEnv.nonce := by
  intro m n h
  have hlists := congrArg String.toList h
  simp only [plainEnv, String.toList_ofList] at hlists
  simpa using congrArg List.length hlists

def browserRequest (method : String) (nonce : Option Nat) (session : Option String) : Request where
  hosts := ["mail.example.org"]
  method := method
  path := "/api/v1/auth/login"
  cookie := nonce.map fun n => ⟨"token", some ⟨0, "flow-flow-flow-flow", plainEnv.nonce n⟩⟩
  origins := ["https://mail.example.org"]
  referers := []
  fetchSites := []
  contentTypes := ["application/json"]
  contentType := "application/json"
  authToken := session
  clientIp := some "192.0.2.1"

def firstVisit : List Action :=
  [.arrive (browserRequest "GET" none none) 0, .resume 0 (.registry 0 0),
    .resume 0 (.handlerEnds none)]

/-- A POST with the token of the `nonce`-th draw, up to its handler. -/
def submits (index nonce : Nat) (session : Option String) : List Action :=
  [.arrive (browserRequest "POST" (some nonce) session) 0,
    .resume index (.body (.ok (some "token")) 0), .resume index (.registry 0 0)]

/-- Two writes of an anonymous visitor, and a replay of the second one. -/
def replayRun : List Action :=
  firstVisit ++ submits 1 1 none ++ [.resume 1 (.handlerEnds none)] ++ submits 2 2 none ++
    submits 3 2 none

theorem reached_nodup_of_exclusiveRun_replayRun :
    ExclusiveRun plainEnv {} replayRun ∧
      ∃ world, run plainEnv {} replayRun = some world ∧ world.shared.reached = ["n", "nn"] ∧
        world.shared.reached.Nodup := by
  have hexclusive : ExclusiveRun plainEnv {} replayRun := by decide +kernel
  have hreached : (run plainEnv {} replayRun).map (·.shared.reached) = some ["n", "nn"] := by
    decide +kernel
  obtain ⟨world, hrun, hworld⟩ := Option.map_eq_some_iff.mp hreached
  exact ⟨hexclusive, world, hrun, hworld,
    reached_nodup_of_exclusiveRun plainEnv plainEnv_nonce_injective replayRun world hexclusive hrun⟩

/-- A visitor logs in, and writes in the session's scope and in the anonymous one. -/
def loginRun : List Action :=
  firstVisit ++ submits 1 1 none ++
    [.resume 1 (.handlerEnds (some "session")), .resume 1 (.registry 0 0)] ++
    submits 2 2 (some "session") ++ submits 3 2 none

/-- After a login the replacement token is current for the session and still current for
the anonymous flow: a POST in each scope reaches its handler with it. -/
theorem login_token_reaches_two_handlers :
    ¬ ∀ (env : Env) (actions : List Action) (world : World), Function.Injective env.nonce →
      run env {} actions = some world → world.shared.reached.Nodup := by
  intro hclaim
  have hreached : (run plainEnv {} loginRun).map (·.shared.reached) = some ["n", "nn", "nn"] := by
    decide +kernel
  obtain ⟨world, hrun, hworld⟩ := Option.map_eq_some_iff.mp hreached
  have hnodup := hclaim plainEnv loginRun world plainEnv_nonce_injective hrun
  rw [hworld] at hnodup
  revert hnodup
  decide

end MaddyWeb.Csrf.SingleUse
