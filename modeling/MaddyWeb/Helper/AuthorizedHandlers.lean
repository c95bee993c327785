import MaddyWeb.Auth.Revocation
import MaddyWeb.Helper.Authorization
import MaddyWeb.Protocol.RoundTrip
import Mathlib.Data.List.Dedup

/-!
# Every handler is called for an authorized request

A handler that is not public finds the session of its principal in the database, alive and
with the rights that the operation asks for.  It follows that a revoked token reaches no such
handler any more.
-/

namespace MaddyWeb.Helper.Authorization

open MaddyWeb.Library MaddyWeb.Helper.Errors
open MaddyWeb.Protocol (Request Response WireError)
open MaddyWeb.Auth

variable {site : Site}

/-! ## What a handler may rely on -/

/-- The clock readings of the calls between the entry of `dispatch` and the handler. -/
def HandlerCall.readings (h : HandlerCall) : List (Option Nat) :=
  (h.calls.drop h.entered.length).map (·.clock)

/-- The session and the account of a handler's principal, as the handler finds them. -/
structure Authenticated (site : Site) (h : HandlerCall) (session : SessionRow)
    (account : AccountRow) : Prop where
  stored : ∃ token, h.received.authToken = some token ∧
    (site.db h.calls).sessionRow (opaqueDigest site.env.sessionDigest token) =
      some (session, account)
  principal : ∃ principal, h.principal = some principal ∧
    principal.accountId = account.accountId ∧ principal.email = account.canonicalEmail ∧
    principal.role = account.role ∧ principal.sessionId = session.sessionId
  live : ∃ now, some now ∈ h.readings ∧ now < session.absoluteExpiresAt ∧
    now < session.lastSeenAt + sessionIdleSeconds ∧
    (h.operation.stepUp = true → now < session.stepUpUntil)
  admin : h.operation.permission = .admin ∨ h.operation.permission = .adminAccount →
    account.role = .admin
  password : account.passwordChangeRequired = true →
    h.received.operation ∈ passwordChangeOperations
  target : h.operation.permission = .account ∨ h.operation.permission = .adminAccount →
    ∃ target, (site.db h.calls).accountById target.accountId = some target ∧
      (account.role = .admin ∨ target.accountId = account.accountId) ∧
      Json.get? h.request.params "username" = some (.str target.canonicalEmail) ∧
      Json.get? h.request.params "target_account_id" = none

/-- The operation of a handler is in the table, its spool is there if and only if the table
says so, and a principal is there unless the operation is public. -/
structure Authorized (site : Site) (h : HandlerCall) : Prop where
  listed : Dict.get allowedOperations h.received.operation = some h.operation
  shaped : h.operation.streamIn = h.input.isSome
  unguarded : h.operation.permission = .publicAccess → h.principal = none ∧ h.request = h.received
  guarded : h.operation.permission ≠ .publicAccess →
    ∃ session account, Authenticated site h session account

/-! ## Progress of the dispatcher -/

/-- The auth store only gets calls, and new handler calls are as `P` says. -/
def Serves (P : HandlerCall → Prop) (d d' : Desk) : Prop :=
  ∀ calls, d.auth = some calls → ∃ more, d'.auth = some (calls ++ more) ∧
    ∀ h ∈ d'.handled, h ∈ d.handled ∨ (P h ∧ h.calls <+: calls ++ more)

variable {P : HandlerCall → Prop} {d d' : Desk}

theorem serves_composes (P : HandlerCall → Prop) : Exec.Composes (Serves P) where
  refl d calls hcalls := ⟨[], by rw [hcalls, List.append_nil], fun _ h => Or.inl h⟩
  trans := by
    intro d₁ d₂ d₃ h₁ h₂ calls hcalls
    obtain ⟨more, hmore, hnew⟩ := h₁ calls hcalls
    obtain ⟨more', hmore', hnew'⟩ := h₂ _ hmore
    refine ⟨more ++ more', by rw [hmore', List.append_assoc], ?_⟩
    rw [← List.append_assoc]
    intro h hh
    rcases hnew' h hh with hh | hh
    · rcases hnew h hh with hh | ⟨hP, hprefix⟩
      · exact Or.inl hh
      · exact Or.inr ⟨hP, hprefix.trans (List.prefix_append _ _)⟩
    · exact Or.inr hh

/-- A change that leaves the calls of the auth store and the log of handlers alone. -/
theorem serves_of_eq (hauth : d'.auth = d.auth) (hhandled : d'.handled = d.handled) :
    Serves P d d' := by
  intro calls hcalls
  refine ⟨[], by rw [hauth, hcalls, List.append_nil], ?_⟩
  rw [hhandled]
  exact fun _ h => Or.inl h

theorem callStore_serves {α : Type} (raised : AuthError → HelperException) (op : Op)
    (used : Reply → Option α) : Exec.Moves (Serves P) (callStore site raised op used) := by
  intro d calls hcalls
  refine ⟨[site.call op calls], ?_⟩
  unfold callStore
  rw [hcalls]
  dsimp only
  split
  · exact ⟨rfl, fun _ h => Or.inl h⟩
  · split <;> exact ⟨rfl, fun _ h => Or.inl h⟩

theorem onMaddy_serves {α : Type} (m : Maddy.Accounts.Service α) :
    Exec.Moves (Serves P) (onMaddy m) := by
  intro d
  unfold onMaddy Exec.focus
  split <;> exact serves_of_eq rfl rfl

theorem setField_serves (name : String) (value : Json) :
    Exec.Moves (Serves P) (setField name value) :=
  Exec.Moves.update fun _ => serves_of_eq rfl rfl

theorem requireActivePrincipal_serves (principal : SessionPrincipal) :
    Exec.Moves (Serves P) (requireActivePrincipal site principal) := by
  have hR := serves_composes P
  unfold requireActivePrincipal maddyAccount
  apply hR.bind (hR.bind (onMaddy_serves _) fun _ => hR.ret _)
  intro record
  split
  · exact hR.ret ()
  · exact hR.bind (callStore_serves _ _ _) fun _ => hR.raise _

theorem authenticate_serves (request : Request) (operation : Operation) (touch : Bool) :
    Exec.Moves (Serves P) (authenticate site request operation touch) := by
  have hR := serves_composes P
  unfold authenticate
  apply hR.bind (hR.require _ _)
  intro token
  apply hR.bind (callStore_serves _ _ _)
  intro principal
  apply hR.bind (setField_serves _ _)
  intro _
  apply hR.bind (setField_serves _ _)
  intro _
  apply hR.bind (requireActivePrincipal_serves _)
  intro _
  apply hR.bind (hR.ensure _ _)
  intro _
  apply hR.bind (hR.ensure _ _)
  intro _
  split
  · exact hR.bind (callStore_serves _ _ _) fun _ => hR.ret _
  · exact hR.ret _

theorem targetParams_serves (request : Request) (operation : Operation)
    (principal : SessionPrincipal) :
    Exec.Moves (Serves P) (targetParams site request operation principal) := by
  have hR := serves_composes P
  unfold targetParams
  split
  · apply hR.bind
    · unfold resolveTarget
      apply hR.bind
      · unfold targetAccountId
        split
        · exact hR.ret _
        · exact hR.ret _
        · exact hR.ret _
        · exact hR.raise _
      · intro target
        split
        · exact hR.bind (hR.ensure _ _) fun _ => callStore_serves _ _ _
        · exact hR.bind (callStore_serves _ _ _) fun _ => hR.bind (hR.ensure _ _) fun _ => hR.ret _
    · exact fun target => hR.bind (setField_serves _ _) fun _ => hR.ret _
  · split
    · split
      · exact hR.bind (callStore_serves _ _ _) fun _ => hR.bind (setField_serves _ _) fun _ =>
          hR.ret _
      · exact hR.raise _
    · exact hR.ret _

theorem authorizeRequest_serves (request : Request) (operation : Operation) (touch : Bool) :
    Exec.Moves (Serves P) (authorizeRequest site request operation touch) := by
  have hR := serves_composes P
  unfold authorizeRequest
  split
  · exact hR.ret _
  · apply hR.bind (hR.require _ _)
    intro _
    apply hR.bind (authenticate_serves request operation touch)
    intro principal
    apply hR.bind (targetParams_serves request operation principal)
    exact fun params => hR.bind (hR.ofExcept _) fun _ => hR.ret _

/-! ## The sessions that the store finds -/

section Store

variable {env : Env} {db db' : Db} {digest : Digest} {now lastSeen : Nat} {touch : Bool}
  {session : SessionRow} {account : AccountRow}

theorem sessionRow_updateSession {set : SessionRow → SessionRow}
    (hset : ∀ row, (set row).sessionDigest = row.sessionDigest ∧
      (set row).accountId = row.accountId)
    (h : db.sessionRow digest = some (session, account)) :
    (db.updateSession digest set).sessionRow digest = some (set session, account) := by
  unfold Db.sessionRow at h ⊢
  obtain ⟨row, hrow, h⟩ := Option.bind_eq_some_iff.mp h
  obtain ⟨owner, howner, h⟩ := Option.bind_eq_some_iff.mp h
  cases h
  have hdigest : session.sessionDigest = digest := by simpa using List.find?_some hrow
  have hkeys : ((fun row : SessionRow => row.sessionDigest == digest) ∘ fun row =>
      if row.sessionDigest == digest then set row else row) = (·.sessionDigest == digest) := by
    funext row
    dsimp only [Function.comp]
    split
    · rw [(hset row).1]
    · rfl
  have hfound : (db.updateSession digest set).sessions.find? (·.sessionDigest == digest) =
      some (set session) := by
    unfold Db.updateSession
    dsimp only
    rw [List.find?_map, hkeys, hrow, Option.map_some, if_pos (beq_iff_eq.mpr hdigest)]
  refine Option.bind_eq_some_iff.mpr
    ⟨set session, hfound, Option.bind_eq_some_iff.mpr ⟨account, ?_, rfl⟩⟩
  rw [(hset session).2]
  exact howner

/-- A session that is found has not expired, and its last use is noted. -/
theorem validSessionRow_found
    (h : validSessionRow digest now touch db = (.ok (some (session, account, lastSeen)), db')) :
    db.sessionRow digest = some (session, account) ∧
      db'.sessionRow digest = some ({ session with lastSeenAt := lastSeen }, account) ∧
      now < session.absoluteExpiresAt ∧ now < session.lastSeenAt + sessionIdleSeconds ∧
      session.lastSeenAt ≤ lastSeen := by
  unfold validSessionRow at h
  rw [Exec.inspect_bind] at h
  cases hfound : db.sessionRow digest with
  | none =>
      rw [hfound] at h
      cases h
  | some found =>
      rw [hfound] at h
      dsimp only at h
      have hlater :
          ∀ row : SessionRow, row.lastSeenAt ≤ effectiveLastSeen touch now row.lastSeenAt := by
        intro row
        unfold effectiveLastSeen
        split
        · exact Nat.le_max_left _ _
        · exact Nat.le_refl _
      split at h
      · rw [Exec.update_bind] at h
        cases h
      · next hlive =>
          simp only [Bool.or_eq_true, decide_eq_true_eq, not_or, Nat.not_le] at hlive
          split at h
          · rw [Exec.update_bind] at h
            cases h
            exact ⟨rfl, sessionRow_updateSession (fun _ => ⟨rfl, rfl⟩) hfound, hlive.1, hlive.2,
              hlater _⟩
          · next hsame =>
              cases h
              refine ⟨rfl, ?_, hlive.1, hlive.2, hlater _⟩
              rw [not_not.mp hsame]
              exact hfound

/-- What `authenticate_session` and `require_step_up` return of a session. -/
structure Describes (principal : SessionPrincipal) (session : SessionRow) (account : AccountRow) :
    Prop where
  accountId : principal.accountId = account.accountId
  email : principal.email = account.canonicalEmail
  role : principal.role = account.role
  passwordChangeRequired : principal.passwordChangeRequired = account.passwordChangeRequired
  sessionId : principal.sessionId = session.sessionId

variable {clock : Option Nat} {token : String} {principal : SessionPrincipal}

theorem authenticateSession_eq_ok
    (h : authenticateSession env clock token touch db = (.ok principal, db')) :
    ∃ now session account, clock = some now ∧
      db'.sessionRow (opaqueDigest env.sessionDigest token) = some (session, account) ∧
      Describes principal session account ∧ now < session.absoluteExpiresAt ∧
      now < session.lastSeenAt + sessionIdleSeconds := by
  unfold authenticateSession readClock at h
  obtain ⟨now, hclock, h⟩ := Exec.require_bind_eq_ok h
  rcases Exec.atomically_ofExcept h with ⟨e, he, -⟩ | h
  · cases he
  obtain ⟨found, db₁, hvalid, h⟩ := Exec.bind_eq_ok h
  match found with
  | none => cases (Exec.ret_eq_ok h).1
  | some (session, account, lastSeen) =>
      obtain ⟨-, hrow, habsolute, hidle, hlater⟩ := validSessionRow_found hvalid
      cases h
      exact ⟨now, _, account, hclock, hrow, ⟨rfl, rfl, rfl, rfl, rfl⟩, habsolute,
        Nat.lt_of_lt_of_le hidle (Nat.add_le_add_right hlater _)⟩

theorem requireStepUp_eq_ok (h : requireStepUp env clock token db = (.ok principal, db')) :
    ∃ now session account lastSeen, clock = some now ∧
      db.sessionRow (opaqueDigest env.sessionDigest token) = some (session, account) ∧
      db'.sessionRow (opaqueDigest env.sessionDigest token) =
        some ({ session with lastSeenAt := lastSeen }, account) ∧
      now < session.absoluteExpiresAt ∧ now < lastSeen + sessionIdleSeconds ∧
      now < session.stepUpUntil := by
  unfold requireStepUp readClock at h
  obtain ⟨now, hclock, h⟩ := Exec.require_bind_eq_ok h
  rcases Exec.atomically_ofExcept h with ⟨e, he, -⟩ | h
  · cases he
  obtain ⟨found, db₁, hvalid, h⟩ := Exec.bind_eq_ok h
  match found with
  | none => cases (Exec.ret_eq_ok h).1
  | some (session, account, lastSeen) =>
      obtain ⟨hbefore, hrow, habsolute, hidle, hlater⟩ := validSessionRow_found hvalid
      dsimp only at h
      split at h
      · cases (Exec.ret_eq_ok h).1
      · next hstep =>
          cases h
          exact ⟨now, session, account, lastSeen, hclock, hbefore, hrow, habsolute,
            Nat.lt_of_lt_of_le hidle (Nat.add_le_add_right hlater _), Nat.lt_of_not_le hstep⟩

theorem resolveAccountId_eq_ok {accountId : String} {target : Account}
    (h : resolveAccountId accountId db = (.ok target, db')) :
    db' = db ∧ ∃ row, db.accountById target.accountId = some row ∧
      target.accountId = accountId ∧ target.email = row.canonicalEmail := by
  unfold resolveAccountId requireAccountById at h
  have h := validateAccountId_bind_eq_ok h
  obtain ⟨row, hrow, h⟩ := Exec.require_bind_eq_ok h
  cases h
  have hid : row.accountId = accountId := by
    unfold Db.accountById at hrow
    simpa using List.find?_some hrow
  refine ⟨rfl, row, ?_, hid, rfl⟩
  show db.accountById row.accountId = some row
  rw [hid]
  exact hrow

end Store

/-! ## A request that is authorized -/

section Request

variable {request request' : Request} {operation : Operation} {touch : Bool}
  {principal : SessionPrincipal} {calls : List Call}

/-- The call that has been added, and what the store said. -/
theorem callStore_eq_ok {α : Type} {raised : AuthError → HelperException} {op : Op}
    {used : Reply → Option α} {value : α} (hauth : d.auth = some calls)
    (h : callStore site raised op used d = (.ok value, d')) :
    d'.auth = some (calls ++ [site.call op calls]) ∧
      ∃ reply, perform site.env (site.call op calls) (site.db calls) =
        (.ok reply, site.db (calls ++ [site.call op calls])) ∧ used reply = some value := by
  unfold callStore at h
  rw [hauth] at h
  have hdb : site.db (calls ++ [site.call op calls]) =
      (perform site.env (site.call op calls) (site.db calls)).2 := afterAll_concat _ _ _ _
  dsimp only at h
  split at h
  · cases h
  · next reply hreply =>
      split at h
      · cases h
      · next hused =>
          cases h
          exact ⟨rfl, reply, by rw [hdb, ← hreply], hused⟩

theorem replyWith_used {α : Type} {db db' : Db} (reply : α → Reply) {used : Reply → Option α}
    {m : Store α} {r : Reply} {value : α} (hused : ∀ a, used (reply a) = some a)
    (h : replyWith reply m db = (.ok r, db')) (hr : used r = some value) :
    m db = (.ok value, db') := by
  obtain ⟨a, rfl, hrun⟩ := replyWith_eq_ok h
  rw [hused] at hr
  cases hr
  exact hrun

theorem requireActivePrincipal_auth {u : Unit}
    (h : requireActivePrincipal site principal d = (.ok u, d')) : d'.auth = d.auth := by
  unfold requireActivePrincipal maddyAccount at h
  obtain ⟨record, d₁, hrecord, h⟩ := Exec.bind_eq_ok h
  obtain ⟨accounts, d₂, hmaddy, hret⟩ := Exec.bind_eq_ok hrecord
  obtain ⟨-, rfl⟩ := Exec.ret_eq_ok hret
  have hsame : d₁.auth = d.auth := by
    unfold onMaddy Exec.focus at hmaddy
    split at hmaddy <;> cases hmaddy
    rfl
  split at h
  · obtain ⟨-, rfl⟩ := Exec.ret_eq_ok h
    exact hsame
  · exact absurd h Exec.bind_raise_ne_ok

/-- The session that the checks of a principal leave in the database. -/
structure Admits (site : Site) (request : Request) (operation : Operation)
    (principal : SessionPrincipal) (calls more : List Call) (session : SessionRow)
    (account : AccountRow) : Prop where
  stored : ∃ token, request.authToken = some token ∧
    (site.db (calls ++ more)).sessionRow (opaqueDigest site.env.sessionDigest token) =
      some (session, account)
  describes : Describes principal session account
  live : ∃ now, some now ∈ more.map (·.clock) ∧ now < session.absoluteExpiresAt ∧
    now < session.lastSeenAt + sessionIdleSeconds ∧
    (operation.stepUp = true → now < session.stepUpUntil)
  admin : operation.permission = .admin ∨ operation.permission = .adminAccount →
    account.role = .admin
  password : account.passwordChangeRequired = true →
    request.operation ∈ passwordChangeOperations

theorem authenticate_eq_ok (hauth : d.auth = some calls)
    (h : authenticate site request operation touch d = (.ok principal, d')) :
    ∃ more session account, d'.auth = some (calls ++ more) ∧
      Admits site request operation principal calls more session account := by
  unfold authenticate at h
  obtain ⟨token, htoken, h⟩ := Exec.require_bind_eq_ok h
  obtain ⟨found, d₁, hfound, h⟩ := Exec.bind_eq_ok h
  obtain ⟨hauth₁, reply, hperform, hreply⟩ := callStore_eq_ok hauth hfound
  have hrun := replyWith_used Reply.principal (fun _ => rfl) hperform hreply
  obtain ⟨now, session, account, hclock, hrow, hdescribes, habsolute, hidle⟩ :=
    authenticateSession_eq_ok hrun
  rw [setField, Exec.update_bind, setField, Exec.update_bind] at h
  obtain ⟨_, d₂, hactive, h⟩ := Exec.bind_eq_ok h
  have hauth₂ := (requireActivePrincipal_auth hactive).trans hauth₁
  obtain ⟨hpassword, h⟩ := Exec.ensure_bind_eq_ok h
  obtain ⟨hadmin, h⟩ := Exec.ensure_bind_eq_ok h
  have hrights : (operation.permission = .admin ∨ operation.permission = .adminAccount →
      account.role = .admin) ∧ (account.passwordChangeRequired = true →
      request.operation ∈ passwordChangeOperations) := by
    rw [hdescribes.role] at hadmin
    rw [hdescribes.passwordChangeRequired] at hpassword
    constructor
    · rintro (hpermission | hpermission)
      · simpa [hpermission] using hadmin
      · simpa [hpermission] using hadmin
    · intro hrequired
      simpa [hrequired] using hpassword
  split at h
  · next hstep =>
      obtain ⟨again, d₃, hagain, h⟩ := Exec.bind_eq_ok h
      obtain ⟨hauth₃, reply', hperform', hreply'⟩ := callStore_eq_ok hauth₂ hagain
      have hrun' := replyWith_used Reply.principal (fun _ => rfl) hperform' hreply'
      obtain ⟨later, session', account', lastSeen, hclock', hbefore, hafter, habsolute', hidle',
        hfresh⟩ := requireStepUp_eq_ok hrun'
      rw [hrow] at hbefore
      cases hbefore
      obtain ⟨rfl, rfl⟩ := Exec.ret_eq_ok h
      refine ⟨_, { session with lastSeenAt := lastSeen }, account,
        by rw [hauth₃, List.append_assoc], ?_, ?_, ?_, hrights.1, hrights.2⟩
      · rw [← List.append_assoc]
        exact ⟨token, htoken, hafter⟩
      · exact ⟨hdescribes.accountId, hdescribes.email, hdescribes.role,
          hdescribes.passwordChangeRequired, hdescribes.sessionId⟩
      · refine ⟨later, ?_, habsolute', hidle', fun _ => hfresh⟩
        rw [← hclock']
        exact List.mem_map_of_mem (List.mem_append_right _ (List.mem_singleton_self _))
  · next hstep =>
      obtain ⟨rfl, rfl⟩ := Exec.ret_eq_ok h
      refine ⟨_, session, account, hauth₂, ⟨token, htoken, hrow⟩, hdescribes, ?_, hrights.1,
        hrights.2⟩
      refine ⟨now, ?_, habsolute, hidle, fun hneeds => absurd hneeds hstep⟩
      rw [← hclock]
      exact List.mem_map_of_mem (List.mem_singleton_self _)

theorem targetAccountId_reads (params : Params) : Exec.Reads (targetAccountId params) := by
  have hR := @Exec.reads_composes Desk
  unfold targetAccountId
  split
  · exact hR.ret _
  · exact hR.ret _
  · exact hR.ret _
  · exact hR.raise _

/-- The target of an operation on an account: the target is resolved, so it is in the database,
and it is the account of the principal unless that is an administrator. -/
theorem resolveTarget_eq_ok {params : Params} {target : Account} (hauth : d.auth = some calls)
    (h : resolveTarget site operation principal params d = (.ok target, d')) :
    ∃ call row, d'.auth = some (calls ++ [call]) ∧
      site.db (calls ++ [call]) = site.db calls ∧
      (site.db calls).accountById target.accountId = some row ∧
      target.email = row.canonicalEmail ∧
      (principal.role = .admin ∨ target.accountId = principal.accountId) := by
  unfold resolveTarget at h
  obtain ⟨chosen, d₁, hchosen, hrest⟩ := Exec.bind_eq_ok h
  clear h
  obtain rfl : d₁ = d := by
    have hread := targetAccountId_reads params d
    rw [hchosen] at hread
    exact hread
  have hresolve : ∀ {accountId : String} {d₂ : Desk},
      callStore site ofAuthError (.resolveAccountId accountId) accountOf d₁ = (.ok target, d₂) →
      ∃ call row, d₂.auth = some (calls ++ [call]) ∧
        site.db (calls ++ [call]) = site.db calls ∧
        (site.db calls).accountById target.accountId = some row ∧
        target.email = row.canonicalEmail ∧ target.accountId = accountId := by
    intro accountId d₂ hcall
    obtain ⟨hauth₂, reply, hperform, hreply⟩ := callStore_eq_ok hauth hcall
    have hrun := replyWith_used Reply.account (fun _ => rfl) hperform hreply
    obtain ⟨hdb, row, hrow, hid, hemail⟩ := resolveAccountId_eq_ok hrun
    exact ⟨_, row, hauth₂, hdb, hrow, hemail, hid⟩
  cases chosen with
  | none =>
      obtain ⟨-, hcalled⟩ := Exec.ensure_bind_eq_ok hrest
      obtain ⟨call, row, hcall, hdb, hrow, hemail, hid⟩ := hresolve hcalled
      exact ⟨call, row, hcall, hdb, hrow, hemail, Or.inr hid⟩
  | some targetId =>
      obtain ⟨found, d₂, hfound, hrest⟩ := Exec.bind_eq_ok hrest
      obtain ⟨hallowed, hrest⟩ := Exec.ensure_bind_eq_ok hrest
      obtain ⟨rfl, rfl⟩ := Exec.ret_eq_ok hrest
      obtain ⟨call, row, hcall, hdb, hrow, hemail, -⟩ := hresolve hfound
      exact ⟨call, row, hcall, hdb, hrow, hemail, by simpa using hallowed⟩

/-- What the handler's parameters say of its target. -/
def Targets (site : Site) (operation : Operation) (principal : SessionPrincipal)
    (calls : List Call) (params : Params) : Prop :=
  operation.permission = .account ∨ operation.permission = .adminAccount →
    ∃ target, (site.db calls).accountById target.accountId = some target ∧
      (principal.role = .admin ∨ target.accountId = principal.accountId) ∧
      Json.get? params "username" = some (.str target.canonicalEmail) ∧
      Json.get? params "target_account_id" = none

theorem targetParams_eq_ok {params : Params} (hauth : d.auth = some calls)
    (h : targetParams site request operation principal d = (.ok params, d')) :
    ∃ more, d'.auth = some (calls ++ more) ∧ site.db (calls ++ more) = site.db calls ∧
      Targets site operation principal (calls ++ more) params := by
  unfold targetParams at h
  split at h
  · obtain ⟨target, d₁, hresolve, h⟩ := Exec.bind_eq_ok h
    obtain ⟨call, row, hcalls, hdb, hrow, hemail, howns⟩ := resolveTarget_eq_ok hauth hresolve
    rw [setField, Exec.update_bind] at h
    cases h
    refine ⟨[call], hcalls, hdb, fun _ => ⟨row, ?_⟩⟩
    have hid : row.accountId = target.accountId := by
      unfold Db.accountById at hrow
      simpa using List.find?_some hrow
    rw [hdb, hid, ← hemail]
    refine ⟨hrow, howns, ?_, ?_⟩
    · exact (Dict.get_set _ _ _ _).trans (if_pos rfl)
    · exact (Dict.get_set _ _ _ _).trans ((if_neg (by decide)).trans
        ((Dict.get_erase _ _ _).trans (if_pos rfl)))
  · next hpermission =>
      have hother : ∀ calls' : List Call, Targets site operation principal calls' params :=
        fun _ hneeds => absurd hneeds hpermission
      split at h
      · generalize Json.get? request.params "target_account_id" = value at h
        match value, h with
        | some (.str targetId), h =>
            obtain ⟨target, d₁, hresolve, h⟩ := Exec.bind_eq_ok h
            obtain ⟨hcalls, reply, hperform, hreply⟩ := callStore_eq_ok hauth hresolve
            have hrun := replyWith_used Reply.account (fun _ => rfl) hperform hreply
            rw [setField, Exec.update_bind] at h
            cases h
            exact ⟨_, hcalls, (resolveAccountId_eq_ok hrun).1, hother _⟩
      · cases h
        exact ⟨[], by rw [hauth, List.append_nil], by rw [List.append_nil], hother _⟩

/-- A request with other parameters, when it passes the checks of a request. -/
theorem withParams_eq_ok {params : Params} (h : withParams request params = .ok request') :
    request'.params = params := by
  unfold withParams Request.make at h
  rw [Protocol.checkIdentifier_of request.isRequestId,
    Protocol.checkIdentifier_of request.isOperation] at h
  simp only [Fallible.ok_bind] at h
  split at h
  · cases h
  · rw [Protocol.checkAuthToken_of request.isAuthToken,
      Protocol.checkStreamLength_of request.isPositive] at h
    cases h
    rfl

theorem authorizeRequest_eq_ok {context : Option SessionPrincipal} (hauth : d.auth = some calls)
    (h : authorizeRequest site request operation touch d = (.ok (request', context), d')) :
    (operation.permission = .publicAccess ∧ context = none ∧ request' = request ∧ d' = d) ∨
      (operation.permission ≠ .publicAccess ∧ ∃ principal more session account,
        context = some principal ∧ d'.auth = some (calls ++ more) ∧
        Admits site request operation principal calls more session account ∧
        Targets site operation principal (calls ++ more) request'.params) := by
  unfold authorizeRequest at h
  split at h
  · next hpublic =>
      cases h
      exact Or.inl ⟨hpublic, rfl, rfl, rfl⟩
  · next hguarded =>
      obtain ⟨_, _, h⟩ := Exec.require_bind_eq_ok h
      obtain ⟨principal, d₁, hprincipal, h⟩ := Exec.bind_eq_ok h
      obtain ⟨more, session, account, hauth₁, hadmits⟩ := authenticate_eq_ok hauth hprincipal
      obtain ⟨params, d₂, hparams, h⟩ := Exec.bind_eq_ok h
      obtain ⟨more', hauth₂, hdb, htargets⟩ := targetParams_eq_ok hauth₁ hparams
      obtain ⟨rewritten, hrewritten, h⟩ := Exec.ofExcept_bind_eq_ok h
      cases h
      rw [List.append_assoc] at hauth₂ hdb htargets
      refine Or.inr ⟨hguarded, principal, _, session, account, rfl, hauth₂, ?_, ?_⟩
      · refine ⟨?_, hadmits.describes, ?_, hadmits.admin, hadmits.password⟩
        · rw [hdb]
          exact hadmits.stored
        · obtain ⟨now, hnow, hlive⟩ := hadmits.live
          refine ⟨now, ?_, hlive⟩
          rw [List.map_append]
          exact List.mem_append_left _ hnow
      · have hok : withParams request params = .ok request' := by
          cases hmake : withParams request params with
          | error e =>
              rw [hmake] at hrewritten
              cases hrewritten
          | ok made =>
              rw [hmake] at hrewritten
              cases hrewritten
              rfl
        rw [withParams_eq_ok hok]
        exact htargets

end Request

/-! ## A request that is served -/

/-- A handler is called for what has been authorized. -/
theorem handle_serves {received request : Request} {operation : Operation}
    {principal : Option SessionPrincipal} {input : Option Nat} {entered : List Call}
    (hP : ∀ calls, d.auth = some calls →
      P ⟨operation, received, request, input, principal, entered, calls⟩) :
    Serves P d (handle site received request operation principal input entered d).2 := by
  unfold handle
  apply (serves_composes P).update_bind_at
  · intro calls hcalls
    refine ⟨[], by rw [hcalls, List.append_nil], ?_⟩
    intro h hh
    rcases List.mem_append.mp hh with hh | hh
    · exact Or.inl hh
    · rw [List.mem_singleton.mp hh, hcalls, Option.getD_some, List.append_nil]
      exact Or.inr ⟨hP calls hcalls, List.prefix_refl _⟩
  · intro calls hcalls
    obtain ⟨more, hmore⟩ :=
      (site.handlers operation.method).extends_calls request input _ calls hcalls
    refine ⟨more, hmore, ?_⟩
    rw [(site.handlers operation.method).handled]
    exact fun _ hh => Or.inl hh

theorem responseTo_serves (request : Request) (value : HandlerValue) :
    Exec.Moves (Serves P) (responseTo request value) := by
  have hR := serves_composes P
  cases value with
  | value result => exact hR.ofExcept _
  | spool length rewinds => exact hR.bind (hR.ensure _ _) fun _ => hR.ofExcept _

theorem attempt_serves {request : Request} {operation : Operation} {input : Option Nat}
    (hlisted : Dict.get allowedOperations request.operation = some operation)
    (hshaped : operation.streamIn = input.isSome) :
    Exec.Moves (Serves (Authorized site)) (attempt site request operation input) := by
  intro d
  have hR := serves_composes (Authorized site)
  cases hauth : d.auth with
  | none =>
      intro calls hcalls
      rw [hauth] at hcalls
      cases hcalls
  | some entered =>
      unfold attempt
      rw [Exec.inspect_bind]
      apply hR.bind_at (authorizeRequest_serves request operation operation.touchSession d)
      rintro ⟨authorized, context⟩ d₁ hauthorize
      apply hR.bind_at
      · apply handle_serves
        intro calls hcalls
        rw [hauth, Option.getD_some]
        rcases authorizeRequest_eq_ok hauth hauthorize with
          ⟨hpublic, rfl, rfl, rfl⟩ | ⟨hguarded, principal, more, session, account, rfl, hauth₁,
            hadmits, htargets⟩
        · exact ⟨hlisted, hshaped, fun _ => ⟨rfl, rfl⟩, fun hguarded => absurd hpublic hguarded⟩
        · rw [hauth₁] at hcalls
          cases hcalls
          refine ⟨hlisted, hshaped, fun hpublic => absurd hpublic hguarded,
            fun _ => ⟨session, account, hadmits.stored, ?_, ?_, hadmits.admin, hadmits.password,
              ?_⟩⟩
          · have hdescribes := hadmits.describes
            exact ⟨principal, rfl, hdescribes.accountId, hdescribes.email, hdescribes.role,
              hdescribes.sessionId⟩
          · unfold HandlerCall.readings
            rw [List.drop_left]
            exact hadmits.live
          · intro hneeds
            obtain ⟨target, hstored, howns, hparams⟩ := htargets hneeds
            rw [hadmits.describes.role, hadmits.describes.accountId] at howns
            exact ⟨target, hstored, howns, hparams⟩
      · exact fun value d₂ _ => responseTo_serves authorized value d₂

theorem refuse_serves (request : Request) (code message : String) :
    Exec.Moves (Serves P) (refuse request code message) := by
  have hR := serves_composes P
  unfold refuse audit
  apply hR.bind
  · exact Exec.Moves.update fun _ => serves_of_eq rfl rfl
  · exact fun _ => hR.ofExcept _

theorem answering_serves {α β : Type} {m : Dispatching α} {answer : α → Serving β}
    {refused : HelperException → Serving β} (hm : Exec.Moves (Serves P) m)
    (hanswer : ∀ value, Exec.Moves (Serves P) (answer value))
    (hrefused : ∀ e, Exec.Moves (Serves P) (refused e)) :
    Exec.Moves (Serves P) (answering m answer refused) := by
  intro d
  have hmoves := hm d
  unfold answering
  rcases hrun : m d with ⟨e | value, d₁⟩
  · rw [hrun] at hmoves
    exact (serves_composes P).trans hmoves (hrefused e d₁)
  · rw [hrun] at hmoves
    exact (serves_composes P).trans hmoves (hanswer value d₁)

theorem dispatch_serves (request : Request) (input : Option Nat) :
    Exec.Moves (Serves (Authorized site)) (dispatch site request input) := by
  have hR := serves_composes (Authorized site)
  unfold dispatch
  apply hR.bind
  · exact Exec.Moves.update fun _ => serves_of_eq rfl rfl
  intro _
  split
  · exact refuse_serves _ _ _
  · next operation hlisted =>
      split
      · exact refuse_serves _ _ _
      · next hshaped =>
          apply hR.finallyDo
          · apply answering_serves (attempt_serves hlisted (not_not.mp hshaped))
            · intro response
              unfold recordSuccess
              apply hR.bind
              · exact Exec.Moves.update fun _ => serves_of_eq rfl rfl
              intro _
              split
              · apply hR.bind
                · exact Exec.Moves.update fun _ => serves_of_eq rfl rfl
                · exact fun _ => hR.ret _
              · exact hR.ret _
            · exact fun _ => refuse_serves _ _ _
          · exact Exec.Moves.update fun _ => serves_of_eq rfl rfl

theorem preflight_serves (request : Request) :
    Exec.Moves (Serves P) (preflight site request) := by
  have hR := serves_composes P
  have hrefuse : ∀ code message : String,
      Exec.Moves (Serves P) (some <$> refuse request code message) := fun code message =>
    hR.bind (refuse_serves request code message) fun _ => hR.ret _
  unfold preflight
  apply hR.bind
  · exact Exec.Moves.update fun _ => serves_of_eq rfl rfl
  intro _
  split
  · exact hrefuse _ _
  · next operation hlisted =>
      split
      · exact hrefuse _ _
      · exact answering_serves (authorizeRequest_serves _ _ _) (fun _ => hR.ret _) fun _ =>
          hrefuse _ _

theorem disturb_serves (d : Desk) (interference : Interference) :
    Serves P d (d.disturb interference) := by
  cases interference with
  | call call =>
      intro calls hcalls
      refine ⟨[call], ?_, fun _ h => Or.inl h⟩
      show d.auth.map _ = _
      rw [hcalls]
      rfl
  | maddy world => exact serves_of_eq rfl rfl

theorem disturbed_serves (d : Desk) (meanwhile : List Interference) :
    Serves P d (meanwhile.foldl Desk.disturb d) := by
  induction meanwhile generalizing d with
  | nil => exact (serves_composes P).refl d
  | cons interference meanwhile ih =>
      exact (serves_composes P).trans (disturb_serves d interference) (ih _)

theorem serve_serves (request : Request) (meanwhile : List Interference) (received : Option Nat) :
    Exec.Moves (Serves (Authorized site)) (serve site request meanwhile received) := by
  have hR := serves_composes (Authorized site)
  unfold serve
  split
  · apply hR.bind (preflight_serves request)
    intro refused
    split
    · exact hR.ret _
    · apply hR.bind (Exec.Moves.update fun d => disturbed_serves d meanwhile)
      intro _
      split
      · exact hR.ret _
      · exact hR.bind (dispatch_serves _ _) fun _ => hR.ret _
  · exact hR.bind (dispatch_serves _ _) fun _ => hR.ret _

theorem next_serves (d : Desk) (event : Event) :
    Serves (Authorized site) d (d.next site event) := by
  cases event with
  | connection request meanwhile received => exact serve_serves request meanwhile received d
  | other interference => exact disturb_serves d interference

theorem after_serves (d : Desk) (events : List Event) :
    Serves (Authorized site) d (d.after site events) := by
  induction events generalizing d with
  | nil => exact (serves_composes _).refl d
  | cons event events ih => exact (serves_composes _).trans (next_serves d event) (ih _)

/-- Every handler call of a run is authorized, in the state that the run had reached. -/
theorem mem_handled_after {world : Maddy.Accounts.World} {events : List Event} {h : HandlerCall}
    {calls : List Call} (hcalls : ((Desk.new world).after site events).auth = some calls)
    (hh : h ∈ ((Desk.new world).after site events).handled) :
    Authorized site h ∧ h.calls <+: calls := by
  obtain ⟨more, hmore, hnew⟩ := after_serves (Desk.new world) events [] rfl
  rw [hcalls] at hmore
  cases hmore
  rcases hnew h hh with hnone | ⟨hauthorized, hprefix⟩
  · cases hnone
  · exact ⟨hauthorized, hprefix⟩

/-- Whatever the handlers do and whoever else uses the store, also while an upload is received,
every handler is called for an authorized request. -/
theorem handlers_authorized (site : Site) (world : Maddy.Accounts.World) (events : List Event) :
    ∀ h ∈ ((Desk.new world).after site events).handled, Authorized site h := by
  intro h hh
  obtain ⟨more, hmore, -⟩ := after_serves (Desk.new world) events [] rfl
  exact (mem_handled_after hmore hh).1

/-- A token of an account that has been revoked since reaches public handlers only. -/
theorem revoked_token_reaches_no_handler (hdigests : site.env.InjectiveDigests)
    {world : Maddy.Accounts.World} {events : List Event} {earlier later : List Call} {revoke : Call}
    {reply : Reply} {a : String}
    (hcalls : ((Desk.new world).after site events).auth = some (earlier ++ revoke :: later))
    (hfresh : FreshDraws (earlier ++ revoke :: later))
    (hok : (perform site.env revoke (site.db earlier)).1 = .ok reply)
    (hrevokes : revoke.op.Revokes (site.db (earlier ++ [revoke])) a) {token : OpaqueToken}
    (hissued : IssuedFor site.env earlier .session token a) :
    ∀ h ∈ ((Desk.new world).after site events).handled, earlier ++ [revoke] <+: h.calls →
      h.received.authToken = some token.text → h.operation.permission = .publicAccess := by
  intro h hh hafter hpresented
  obtain ⟨hauthorized, rest, hrest⟩ := mem_handled_after hcalls hh
  obtain ⟨mid, hmid⟩ := hafter
  by_contra hguarded
  obtain ⟨session, account, hlive⟩ := hauthorized.guarded hguarded
  obtain ⟨text, htext, hstored⟩ := hlive.stored
  rw [hpresented] at htext
  cases htext
  have hrun :
      perform site.env revoke (site.db earlier) = (.ok reply, site.db (earlier ++ [revoke])) := by
    rw [Site.db, Site.db, afterAll_concat, ← hok]
    rfl
  obtain ⟨hcleared, -⟩ := revokes_spec hdigests (reachable_afterAll _ _) (reachable_afterAll _ _)
    hrun hrevokes
  have hissued' : IssuedFor site.env (earlier ++ [revoke]) .session token a := by
    obtain ⟨first, issue, others, answer, rfl, hissue⟩ := hissued
    exact ⟨first, issue, others ++ [revoke], answer, by simp, hissue⟩
  rw [← hrest, ← hmid] at hfresh
  have habsent := absent_of_cleared hdigests (List.pairwise_append.mp hfresh).1 hissued' hcleared
  rw [hmid] at habsent
  have hnone := sessionRow_absent habsent
  rw [Site.db] at hstored
  rw [show opaqueDigest site.env.sessionDigest token.text =
    site.env.tokenDigest .session token.text from rfl, hnone] at hstored
  cases hstored

/-- A handler that uses no service. -/
def idleHandler : Handler where
  run _ _ := return .value .null
  handled _ _ _ := rfl
  extends_calls _ _ _ calls h := ⟨[], by rw [List.append_nil]; exact h⟩

def sampleSite : Site where
  env := sampleEnv
  text := Audit.asciiRules
  casefold name := name
  members names := names.dedup
  mem_members _ _ := List.mem_dedup
  random n := sampleRandom (Fin.ofNat 16 n)
  clock n := some (60 + n)
  later n := some (60 + n)
  handlers _ := idleHandler

theorem isRequestId_sample : Protocol.isRequestId "r1" = true := by decide
theorem isOperation_session : Protocol.isOperation "auth.session" = true := by decide
theorem validated_session : Protocol.validateJsonValue Protocol.maxDepth (.obj []) = .ok () := rfl
theorem isAuthToken_sample :
    ∀ text ∈ some (sampleToken 11).text, Protocol.isAuthToken text = true := by
  rintro _ ⟨⟩
  decide +kernel

/-- `auth.session` with the token of the second call. -/
def sessionRequest : Request :=
  ⟨"r1", "auth.session", [], some (sampleToken 11).text, none, isRequestId_sample,
    isOperation_session, validated_session, isAuthToken_sample, Protocol.isPositive_none⟩

def accountCall : Call :=
  ⟨.createAccount "ann@example.org" .user false, sampleRandom 10, some 0, some 0⟩

def loginCall : Call :=
  ⟨.issueVerifiedPasskeySession ⟨(sampleHex 10).text, "ann@example.org"⟩ none none, sampleRandom 11,
    some 1, some 1⟩

def revocation : Call := ⟨.revokeSessions (sampleHex 10).text, sampleRandom 12, some 61, some 61⟩

/-- A session that is used, revoked, and used again. -/
def sampleEvents : List Event :=
  [.other (.call accountCall), .other (.call loginCall), .connection sessionRequest [] none,
    .other (.call revocation), .connection sessionRequest [] none]

def sampleWorld : Maddy.Accounts.World :=
  Maddy.Accounts.start ⟨["ann@example.org"], ["ann@example.org"]⟩ fun _ => ⟨none, true⟩

def usedDesk : Desk :=
  ((Desk.new sampleWorld).after sampleSite
    [.other (.call accountCall), .other (.call loginCall)]).next sampleSite
      (.connection sessionRequest [] none)

def revokedDesk : Desk := usedDesk.next sampleSite (.other (.call revocation))

def sampleDesk : Desk := revokedDesk.next sampleSite (.connection sessionRequest [] none)

theorem sampleDesk_eq : (Desk.new sampleWorld).after sampleSite sampleEvents = sampleDesk := rfl

/-- The handler has been called once, nothing was drawn twice, and the revocation succeeded. -/
theorem sampleDesk_run : sampleDesk.handled.length = 1 ∧
    ((sampleDesk.auth.getD []).Pairwise fun first second =>
      ∀ i < allocationAttempts, ∀ j < allocationAttempts,
        first.random.token i ≠ second.random.token j ∧
          first.random.passkeyChallenge i ≠ second.random.passkeyChallenge j) ∧
    (perform sampleEnv revocation (sampleSite.db (usedDesk.auth.getD []))).1.isOk = true := by
  decide +kernel

theorem sampleDesk_fresh : FreshDraws (sampleDesk.auth.getD []) := by
  apply sampleDesk_run.2.1.imp
  intro first second hdiffer kind i hi j hj
  cases kind with
  | passkey => exact (hdiffer i hi j hj).2
  | session => exact (hdiffer i hi j hj).1
  | challenge => exact (hdiffer i hi j hj).1

/-- The session of the second call. -/
theorem issuedFor_sample (after : List Call) :
    IssuedFor sampleEnv ([accountCall, loginCall] ++ after) .session (sampleToken 11)
      (sampleHex 10).text := by
  have hrun : ((perform sampleEnv loginCall (Db.afterAll sampleEnv {} [accountCall])).1.toOption.map
        Reply.tokens) = some [(.session, (sampleToken 11).text)] ∧
      (sampleEnv.tokenDigest .session (sampleToken 11).text, some (sampleHex 10).text) ∈
        (Db.afterAll sampleEnv {} [accountCall, loginCall]).tokenRows .session := by decide +kernel
  rcases hreply : (perform sampleEnv loginCall (Db.afterAll sampleEnv {} [accountCall])).1 with
    e | reply
  · rw [hreply] at hrun
    cases hrun.1
  · rw [hreply] at hrun
    refine ⟨[accountCall], loginCall, after, reply, rfl, hreply, ?_, hrun.2⟩
    rw [Option.some.inj hrun.1]
    exact List.mem_singleton_self _

theorem next_otherCall (d : Desk) (call : Call) :
    (d.next site (.other (.call call))).auth = d.auth.map (· ++ [call]) := rfl

/-- One handler has been called, with the token while its session was live. -/
theorem handlers_authorized_sample : ∃ h ∈ sampleDesk.handled, Authorized sampleSite h := by
  obtain ⟨h, hh⟩ : ∃ h, h ∈ sampleDesk.handled :=
    List.exists_mem_of_length_pos (by rw [sampleDesk_run.1]; exact Nat.one_pos)
  exact ⟨h, hh, handlers_authorized sampleSite sampleWorld sampleEvents h hh⟩

/-- The request reaches its handler before the revocation, and not after it. -/
theorem revoked_token_reaches_no_handler_sample :
    sampleDesk.handled.length = 1 ∧
      ∀ h ∈ sampleDesk.handled, revokedDesk.auth.getD [] <+: h.calls →
        h.received.authToken = some (sampleToken 11).text →
        h.operation.permission = .publicAccess := by
  obtain ⟨used, hused, -⟩ : ∃ more, usedDesk.auth = some ([accountCall, loginCall] ++ more) ∧ _ :=
    next_serves _ _ [accountCall, loginCall] rfl
  have hrevoked : revokedDesk.auth = some ([accountCall, loginCall] ++ used ++ [revocation]) := by
    rw [revokedDesk, next_otherCall, hused]
    rfl
  obtain ⟨later, hlater, -⟩ :=
    next_serves revokedDesk (.connection sessionRequest [] none) _ hrevoked
  have hcalls :
      sampleDesk.auth = some ([accountCall, loginCall] ++ used ++ revocation :: later) := by
    rw [sampleDesk, hlater, List.append_assoc _ [revocation]]
    rfl
  have hfresh := sampleDesk_fresh
  rw [hcalls, Option.getD_some] at hfresh
  have hok := sampleDesk_run.2.2
  rw [hused, Option.getD_some] at hok
  obtain ⟨reply, hreply⟩ := exists_of_isOk hok
  refine ⟨sampleDesk_run.1, ?_⟩
  rw [hrevoked, Option.getD_some, ← sampleDesk_eq]
  rw [← sampleDesk_eq] at hcalls
  exact revoked_token_reaches_no_handler sampleEnv_injectiveDigests hcalls hfresh hreply rfl
    (issuedFor_sample used)

end MaddyWeb.Helper.Authorization
