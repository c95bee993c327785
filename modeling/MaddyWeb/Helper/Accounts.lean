import MaddyWeb.Auth.Provision
import MaddyWeb.Helper.Request
import MaddyWeb.Maddy.Accounts

/-!
# Creation of an account by the helper

`accounts.create` makes the Maddy account and then its row in the auth store.  A
failure of the second step deletes the first one again.
-/

namespace MaddyWeb.Helper.Accounts

open MaddyWeb.Library MaddyWeb.Helper MaddyWeb.Maddy.Accounts MaddyWeb.Maddy.Service

/-- The services of the dispatcher; there may be no auth store. -/
structure Services where
  maddy : World
  auth : Option Auth.Db

/-- `notText` is the exception of a check that reads a value which is no text. -/
inductive HandlerError
  | value (message : String)
  | notText (field : String)
  | service (e : ServiceError)
  deriving DecidableEq, Repr

abbrev Handler (α : Type) := Exec Services HandlerError α

def onMaddy {α : Type} (m : Service α) : Handler α :=
  Exec.focus Services.maddy (fun s w => { s with maddy := w }) HandlerError.service m

/-- The outcome of a call of the auth store, if there is one. -/
def onAuth {α : Type} (m : Auth.Store α) : Handler (Option (Except Auth.AuthError α)) := fun s =>
  match s.auth with
  | none => (.ok none, s)
  | some db => (.ok (some (m db).1), { s with auth := some (m db).2 })

/-- The dictionary of a created account. -/
structure CreatedAccount where
  username : String
  metadata : Option (Auth.Account × List UInt8 × List String)

/-- `_params` -/
def requireParams (params : Params) (required optional : List String) : Handler Unit :=
  match paramsError params required optional with
  | some message => Exec.raise (.value message)
  | none => return ()

/-- `maddy.create_account` with the values of a request. -/
def createAccountOf : Option Json → Option Json → Handler String
  | some (.str username), some (.str password) => do
      onMaddy (createAccount username password)
      return username
  | some (.str username), _ => do
      onMaddy (safePositional username "username" 254)
      Exec.raise (.notText "password")
  | _, _ => Exec.raise (.notText "username")

/-- The `except` branch of `_accounts_create`. -/
def undoAccount (username : String) : Handler CreatedAccount := do
  Exec.handle (onMaddy (deleteAccount username)) fun _ =>
    Exec.raise (.service (.partialOperation
      "account authentication setup failed and Maddy rollback was not verified"
      ["credentials.create", "mailbox.create"] (some false)))
  Exec.raise (.service (.partialOperation
    "account authentication setup failed; Maddy account was rolled back"
    ["credentials.create", "mailbox.create"] (some true)))

/-- `_accounts_create` -/
def accountsCreate (env : Auth.Env) (random : Auth.Random) (clock : Option Nat) (params : Params) :
    Handler CreatedAccount := do
  requireParams params ["username", "password"] []
  let username ← createAccountOf (Json.get? params "username") (Json.get? params "password")
  let provisioned ← onAuth (Auth.provisionActiveAccount env random clock username .user false)
  match provisioned with
  | none => return ⟨username, none⟩
  | some (.ok metadata) => return ⟨username, some metadata⟩
  | some (.error _) => undoAccount username

/-! ## Compensation -/

variable {env : Auth.Env} {random : Auth.Random} {clock : Option Nat} {base : Directory}
  {username : String} {auth : Option Auth.Db}

theorem provisionActiveAccount_rolls (env : Auth.Env) (random : Auth.Random) (clock : Option Nat)
    (username : String) :
    Exec.Rolls (Auth.provisionActiveAccount env random clock username .user false) :=
  Exec.Rolls.require_bind fun _ => Exec.Rolls.require_bind fun _ => Exec.Rolls.atomically _

theorem onMaddy_triple {α : Type} {m : Service α} {P : World → Prop} {Q : α → World → Prop}
    {E : ServiceError → World → Prop} (h : Exec.Triple P m Q E) :
    Exec.Triple (fun s => P s.maddy ∧ s.auth = auth) (onMaddy m)
      (fun a s => Q a s.maddy ∧ s.auth = auth)
      (fun e s => ∃ e', e = .service e' ∧ E e' s.maddy ∧ s.auth = auth) := by
  apply Exec.Triple.focus h
  · exact fun s hs => hs.1
  · exact fun s a w hs hw => ⟨hw, hs.2⟩
  · exact fun s e w hs hw => ⟨e, rfl, hw, hs.2⟩

/-- The error of a failed provisioning: the account is gone, or the error does not say so. -/
inductive Undone (username : String) : HandlerError → Directory → Prop
  | gone {message : String} {completed : List String} {d : Directory}
      (h : ∀ resource, username ∉ d.get resource) :
      Undone username (.service (.partialOperation message completed (some true))) d
  | unverified {message : String} {completed : List String} {d : Directory} :
      Undone username (.service (.partialOperation message completed (some false))) d

theorem undoAccount_triple :
    Exec.Triple (fun s => s.auth = auth) (undoAccount username) (fun _ _ => False)
      (fun e s => Undone username e s.maddy.directory ∧ s.auth = auth) := by
  unfold undoAccount
  apply @Exec.Triple.bind _ _ _ _ _ fun _ s =>
    (∀ resource, username ∉ s.maddy.directory.get resource) ∧ s.auth = auth
  · apply Exec.Triple.handle
    · exact (onMaddy_triple deleteAccount_triple).conseq (fun _ hs => ⟨trivial, hs⟩)
        (fun _ _ hs => hs) fun _ _ hs => hs
    · intro e
      apply Exec.Triple.raise
      rintro s ⟨_, _, _, hauth⟩
      exact ⟨.unverified, hauth⟩
  · intro _
    apply Exec.Triple.raise
    rintro s ⟨hgone, hauth⟩
    exact ⟨.gone hgone, hauth⟩

theorem onMaddy_auth {α : Type} (m : Service α) :
    Exec.Triple (fun s => s.auth = auth) (onMaddy m) (fun _ s => s.auth = auth)
      (fun _ s => s.auth = auth) := by
  have hm : Exec.Triple (fun _ => True) m (fun _ _ => True) (fun _ _ => True) := by
    intro w _
    rcases m w with ⟨_ | _, _⟩ <;> trivial
  apply (onMaddy_triple hm).conseq (fun _ hs => ⟨trivial, hs⟩) (fun _ _ hs => hs.2)
  rintro _ _ ⟨_, _, _, hauth⟩
  exact hauth

theorem createAccountOf_auth (username password : Option Json) :
    Exec.Triple (fun s => s.auth = auth) (createAccountOf username password)
      (fun _ s => s.auth = auth) (fun _ s => s.auth = auth) := by
  unfold createAccountOf
  split
  · apply Exec.Triple.bind (onMaddy_auth _)
    intro _
    exact Exec.Triple.ret fun _ hs => hs
  · apply Exec.Triple.bind (onMaddy_auth _)
    intro _
    exact Exec.Triple.raise fun _ hs => hs
  · exact Exec.Triple.raise fun _ hs => hs

/-- A failed provisioning leaves the store as it was. -/
theorem onAuth_triple {α : Type} {m : Auth.Store α} (hm : Exec.Rolls m) :
    Exec.Triple (fun s => s.auth = auth) (onAuth m)
      (fun outcome s => ∀ e, outcome = some (.error e) → s.auth = auth)
      (fun _ s => s.auth = auth) := by
  rintro ⟨w, db⟩ rfl
  cases db with
  | none => exact nofun
  | some db =>
      intro e he
      rcases hrun : m db with ⟨r, db'⟩
      have hr : r = .error e := by simpa [hrun] using he
      subst hr
      exact congrArg some (hm db e db' hrun)

theorem accountsCreate_auth (params : Params) :
    Exec.Triple (fun s => s.auth = auth) (accountsCreate env random clock params)
      (fun _ _ => True) (fun _ s => s.auth = auth) := by
  unfold accountsCreate
  apply @Exec.Triple.bind _ _ _ _ _ fun _ s => s.auth = auth
  · unfold requireParams
    split
    · exact Exec.Triple.raise fun _ hs => hs
    · exact Exec.Triple.ret fun _ hs => hs
  intro _
  apply Exec.Triple.bind (createAccountOf_auth _ _)
  intro username
  apply Exec.Triple.bind (onAuth_triple (provisionActiveAccount_rolls env random clock username))
  intro provisioned
  split
  · exact Exec.Triple.ret fun _ _ => trivial
  · exact Exec.Triple.ret fun _ _ => trivial
  · apply undoAccount_triple.conseq _ (fun _ _ hs => hs.elim) fun _ _ hs => hs.2
    exact fun s hs => hs _ rfl

/-- A handler whose account was made and whose provisioning failed undoes the account. -/
theorem accountsCreate_undoes {params : Params} {password : String} {w : World} {db : Auth.Db}
    {e : Auth.AuthError}
    (hparams : paramsError params ["username", "password"] [] = none)
    (husername : Json.get? params "username" = some (.str username))
    (hpassword : Json.get? params "password" = some (.str password))
    (hcreated : (createAccount username password w).1 = .ok ())
    (hfailed : (Auth.provisionActiveAccount env random clock username .user false db).1 =
      .error e) :
    ∃ s : Services, s.auth = some db ∧
      accountsCreate env random clock params ⟨w, some db⟩ = undoAccount username s := by
  rcases hw : createAccount username password w with ⟨r, w'⟩
  rw [hw] at hcreated
  cases hcreated
  rcases hdb : Auth.provisionActiveAccount env random clock username .user false db with ⟨r, db'⟩
  rw [hdb] at hfailed
  cases hfailed
  have hkept : db' = db := provisionActiveAccount_rolls env random clock username db e db' hdb
  subst hkept
  refine ⟨⟨w', some db'⟩, rfl, ?_⟩
  have hrequire : requireParams params ["username", "password"] [] ⟨w, some db'⟩ =
      (.ok (), ⟨w, some db'⟩) := by
    unfold requireParams
    rw [hparams]
    rfl
  have hmaddy : createAccountOf (some (.str username)) (some (.str password)) ⟨w, some db'⟩ =
      (.ok username, ⟨w', some db'⟩) := by
    apply Exec.bind_of_ok
    unfold onMaddy Exec.focus
    rw [hw]
  have hauth : onAuth (Auth.provisionActiveAccount env random clock username .user false)
      ⟨w', some db'⟩ = (.ok (some (.error e)), ⟨w', some db'⟩) := by
    unfold onAuth
    dsimp only
    rw [hdb]
  unfold accountsCreate
  rw [Exec.bind_of_ok hrequire, husername, hpassword, Exec.bind_of_ok hmaddy,
    Exec.bind_of_ok hauth]

/-- Whatever the commands of a run do, `create_account` ends with the account, with the base, or
with an error that says neither; an `accounts.create` that cannot write its row ends without the
account or with such an error, and with the auth store as it was. -/
theorem account_creation_compensates (env : Auth.Env) (random : Auth.Random) (clock : Option Nat)
    (base : Directory) (reactions : Nat → Reaction) :
    (∀ username password r w, createAccount username password (start base reactions) = (r, w) →
      (∀ resource name, .remove resource name ∈ w.issued → name ∉ base.get resource) ∧
      (r = .ok () → ∀ resource, username ∈ w.directory.get resource) ∧
      ∀ e, r = .error e → CreationError base e w.directory) ∧
    (∀ params username password db e,
      paramsError params ["username", "password"] [] = none →
      Json.get? params "username" = some (.str username) →
      Json.get? params "password" = some (.str password) →
      (createAccount username password (start base reactions)).1 = .ok () →
      (Auth.provisionActiveAccount env random clock username .user false db).1 = .error e →
      ∃ e s, accountsCreate env random clock params ⟨start base reactions, some db⟩ =
          (.error e, s) ∧ Undone username e s.maddy.directory ∧ s.auth = some db) ∧
    ∀ params auth e s,
      accountsCreate env random clock params ⟨start base reactions, auth⟩ = (.error e, s) →
        s.auth = auth := by
  refine ⟨?_, ?_, ?_⟩
  · intro username password r w hrun
    have htriple := @createAccount_triple base username password (start base reactions)
      ⟨near_start, rfl⟩
    rw [hrun] at htriple
    cases r with
    | ok _ => exact ⟨htriple.1.spared, fun _ => htriple.2, nofun⟩
    | error e =>
        refine ⟨htriple.1.spared, nofun, ?_⟩
        rintro _ ⟨⟩
        exact htriple.2
  · intro params username password db e hparams husername hpassword hcreated hfailed
    obtain ⟨s, hauth, hrun⟩ :=
      accountsCreate_undoes hparams husername hpassword hcreated hfailed
    have htriple := @undoAccount_triple username (some db) s hauth
    rw [hrun]
    rcases hundo : undoAccount username s with ⟨e | _, s'⟩
    · rw [hundo] at htriple
      exact ⟨e, s', rfl, htriple⟩
    · rw [hundo] at htriple
      exact htriple.elim
  · intro params auth e s hrun
    have htriple :=
      @accountsCreate_auth env random clock auth params ⟨start base reactions, auth⟩ rfl
    rw [hrun] at htriple
    exact htriple

def sampleParams : Params :=
  [("username", .str "ann@example.org"), ("password", .str "correct horse")]

/-- A store that still has the address of an account that Maddy has no longer. -/
def staleDb : Auth.Db :=
  (Auth.provisionActiveAccount Auth.sampleEnv (Auth.sampleRandom 1) (some 0) "ann@example.org" .user
    false {}).2

theorem staleDb_eq : staleDb = Auth.provisionedDb 1 0 :=
  Auth.provisionActiveAccount_sample rfl rfl 1

/-- A run in which every command succeeds. -/
def smoothStart : World := start ⟨[], []⟩ fun _ => ⟨none, true⟩

theorem account_creation_compensates_stale :
    ∃ e s, accountsCreate Auth.sampleEnv (Auth.sampleRandom 2) (some 5) sampleParams
        ⟨smoothStart, some staleDb⟩ = (.error e, s) ∧
      Undone "ann@example.org" e s.maddy.directory ∧ s.auth = some staleDb :=
  (account_creation_compensates Auth.sampleEnv (Auth.sampleRandom 2) (some 5) ⟨[], []⟩
    fun _ => ⟨none, true⟩).2.1 sampleParams "ann@example.org" "correct horse" staleDb .accountExists
    (by decide +kernel) rfl rfl (by decide +kernel) (by rw [staleDb_eq]; decide +kernel)

/-- The row that refused the provisioning stays, although the account is gone again. -/
theorem accountsCreate_keeps_stale_row :
    ¬ ∀ (env : Auth.Env) (random : Auth.Random) (clock : Option Nat) (params : Params) (w : World)
      (db : Auth.Db) (e : HandlerError) (s : Services),
      accountsCreate env random clock params ⟨w, some db⟩ = (.error e, s) →
      e = .service (.partialOperation
        "account authentication setup failed; Maddy account was rolled back"
        ["credentials.create", "mailbox.create"] (some true)) →
      ∀ db', s.auth = some db' → ∀ username, Json.get? params "username" = some (.str username) →
        db'.accountByEmail username = none := by
  intro h
  have hnone := h Auth.sampleEnv (Auth.sampleRandom 2) (some 5) sampleParams smoothStart
    (Auth.provisionedDb 1 0) _ _ rfl (by decide +kernel) _ rfl "ann@example.org" rfl
  revert hnone
  decide +kernel

end MaddyWeb.Helper.Accounts
