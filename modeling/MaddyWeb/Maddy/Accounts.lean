import MaddyWeb.Maddy.Service

/-!
# The account commands of the Maddy CLI

An account is a credential and a mailbox, made by two commands.  A command that
reports an error or a timeout may have taken effect, and a listing may fail; what
the commands of a run do is a schedule that the run cannot see.  `create_account`
undoes what it has made by reading the two listings again.
-/

namespace MaddyWeb.Maddy.Accounts

open MaddyWeb.Library MaddyWeb.Helper.Errors MaddyWeb.Maddy.Service

inductive Resource
  | credentials
  | mailbox
  deriving DecidableEq, Repr

/-- What the two listings show. -/
structure Directory where
  credentials : List String
  mailboxes : List String
  deriving DecidableEq, Repr

namespace Directory

def get (d : Directory) : Resource → List String
  | .credentials => d.credentials
  | .mailbox => d.mailboxes

def set (d : Directory) (names : List String) : Resource → Directory
  | .credentials => { d with credentials := names }
  | .mailbox => { d with mailboxes := names }

end Directory

inductive AccountCommand
  | list (resource : Resource)
  | create (resource : Resource) (username : String)
  | remove (resource : Resource) (username : String)
  deriving DecidableEq, Repr

/-- The effect of a command that takes effect. -/
def AccountCommand.apply : AccountCommand → Directory → Directory
  | .list _, d => d
  | .create resource username, d =>
      d.set (if username ∈ d.get resource then d.get resource
        else d.get resource ++ [username]) resource
  | .remove resource username, d => d.set ((d.get resource).filter (· != username)) resource

/-- What a command reports, and whether it takes effect when it reports a failure. -/
structure Reaction where
  failure : Option HelperException
  effect : Bool
  deriving DecidableEq, Repr

/-- The commands issued so far decide which reaction is next. -/
structure World where
  directory : Directory
  reactions : Nat → Reaction
  issued : List AccountCommand

def start (directory : Directory) (reactions : Nat → Reaction) : World := ⟨directory, reactions, []⟩

abbrev Service (α : Type) := Exec World ServiceError α

def World.issue (w : World) (command : AccountCommand) : World :=
  let reaction := w.reactions w.issued.length
  { w with
    issued := w.issued ++ [command]
    directory := if reaction.failure.isNone || reaction.effect then command.apply w.directory
      else w.directory }

/-- The commands of `_credentials` and `_imap_accounts`: the report of the command decides
whether it raises. -/
def invoke {α : Type} (command : AccountCommand) (value : Directory → α) : Service α := fun w =>
  match (w.reactions w.issued.length).failure with
  | none => (.ok (value (w.issue command).directory), w.issue command)
  | some e => (.error (.command e), w.issue command)

def mutate (command : AccountCommand) : Service Unit := invoke command fun _ => ()

/-- `list_credentials` and `list_imap_accounts` -/
def listNames (resource : Resource) : Service (List String) :=
  invoke (.list resource) (·.get resource)

/-- `_password_input` -/
def passwordInput (password : String) : Service Unit :=
  Exec.ensure
    (!(password.isEmpty || 1024 < password.length ||
      password.toList.any fun c => c == '\n' || c == '\r' || c.toNat == 0))
    (.invalidArgument "password")

/-! ## Compensation -/

/-- `observe`: whether the name is listed, or nothing when the listing failed each time. -/
def observe (username : String) (resource : Resource) : Nat → Service (Option Bool)
  | 0 => return none
  | attempts + 1 =>
      exceptMaddyError
        (do
          let names ← listNames resource
          return some (names.contains username))
        fun _ => observe username resource attempts

/-- A removal `with suppress(MaddyError)`, of what was created. -/
def removeQuietly (wasCreated : Bool) (resource : Resource) (username : String) : Service Unit :=
  if wasCreated then exceptMaddyError (mutate (.remove resource username)) fun _ => return ()
  else return ()

/-- `_compensate_account_creation` -/
def compensateAccountCreation (username : String)
    (credentialBaseline mailboxBaseline : List String) :
    Service (List String × Bool) := do
  let credentialWasPresent := credentialBaseline.contains username
  let mailboxWasPresent := mailboxBaseline.contains username
  let credentialIsPresent ← observe username .credentials 2
  let mailboxIsPresent ← observe username .mailbox 2
  let credentialWasCreated := !credentialWasPresent && credentialIsPresent == some true
  let mailboxWasCreated := !mailboxWasPresent && mailboxIsPresent == some true
  removeQuietly mailboxWasCreated .mailbox username
  removeQuietly credentialWasCreated .credentials username
  let finalCredential ← observe username .credentials 2
  let finalMailbox ← observe username .mailbox 2
  let credentialWasCreated :=
    credentialWasCreated || (!credentialWasPresent && finalCredential == some true)
  let mailboxWasCreated := mailboxWasCreated || (!mailboxWasPresent && finalMailbox == some true)
  let completed := (if credentialWasCreated then ["credentials.create"] else []) ++
    (if mailboxWasCreated then ["mailbox.create"] else [])
  let rollbackSucceeded :=
    finalCredential == some credentialWasPresent && finalMailbox == some mailboxWasPresent
  return (completed, rollbackSucceeded)

def verifyListed (resource : Resource) (username : String) : Service Unit := do
  let names ← listNames resource
  Exec.ensure (names.contains username) (.verification "account write-back verification failed")

/-- The commands that make an account, and their verification. -/
def makeAccount (username : String) : Service Unit := do
  mutate (.create .credentials username)
  mutate (.create .mailbox username)
  verifyListed .credentials username
  verifyListed .mailbox username

/-- The `except` branch of `create_account`. -/
def failCreation (username : String) (credentialBaseline mailboxBaseline : List String)
    (error : ServiceError) : Service Unit := do
  let (completed, rollbackSucceeded) ←
    compensateAccountCreation username credentialBaseline mailboxBaseline
  if completed.isEmpty && rollbackSucceeded then Exec.raise error
  else Exec.raise (.partialOperation
    (if rollbackSucceeded then "account creation failed; newly created resources were rolled back"
      else "account creation failed and rollback could not be verified")
    completed (some rollbackSucceeded))

/-- `create_account` -/
def createAccount (username password : String) : Service Unit := do
  safePositional username "username" 254
  passwordInput password
  let credentialBaseline ← listNames .credentials
  let mailboxBaseline ← listNames .mailbox
  exceptMaddyError (makeAccount username)
    (failCreation username credentialBaseline mailboxBaseline)

/-! ## Deletion -/

/-- `disable_credentials` and `delete_imap_account` -/
def removeVerified (resource : Resource) (username message : String) : Service Unit := do
  safePositional username "username" 254
  mutate (.remove resource username)
  let names ← listNames resource
  Exec.ensure (!names.contains username) (.verification message)

/-- `delete_account` -/
def deleteAccount (username : String) : Service Unit := do
  safePositional username "username" 254
  removeVerified .credentials username "credential disable read-back verification failed"
  exceptMaddyError
    (removeVerified .mailbox username "IMAP account deletion read-back verification failed")
    fun _ => Exec.raise (.partialOperation "credentials were removed but mailbox deletion failed"
      ["credentials.remove"] none)

/-! ## What the commands do to an account -/

variable {base d : Directory} {username : String} {resource : Resource} {w : World}

def World.record (w : World) (command : AccountCommand) (directory : Directory) : World :=
  { w with issued := w.issued ++ [command], directory }

/-- A command that reports success has taken effect; one that reports a failure may have. -/
theorem invoke_triple {α : Type} {command : AccountCommand} {value : Directory → α}
    {P : World → Prop} {Q : α → World → Prop} {E : ServiceError → World → Prop}
    (hok : ∀ w, P w → Q (value (command.apply w.directory))
      (w.record command (command.apply w.directory)))
    (herror : ∀ w e, P w → ∀ d, d = command.apply w.directory ∨ d = w.directory →
      E (.command e) (w.record command d)) : Exec.Triple P (invoke command value) Q E := by
  intro w hw
  unfold invoke World.issue
  dsimp only
  cases hreport : (w.reactions w.issued.length).failure with
  | none => exact hok w hw
  | some e =>
      apply herror w e hw
      split
      · exact Or.inl rfl
      · exact Or.inr rfl

/-- Apart from the account, the directory is the base. -/
def Around (base : Directory) (username : String) (d : Directory) : Prop :=
  ∀ resource, d.get resource = base.get resource ∨
    (username ∉ base.get resource ∧ d.get resource = base.get resource ++ [username])

theorem get_set (d : Directory) (names : List String) (resource resource' : Resource) :
    (d.set names resource).get resource' = if resource' = resource then names
      else d.get resource' := by
  cases resource <;> cases resource' <;> rfl

theorem directory_ext (h : ∀ resource, d.get resource = base.get resource) : d = base := by
  have hcredentials := h .credentials
  have hmailboxes := h .mailbox
  cases d
  cases base
  cases hcredentials
  cases hmailboxes
  rfl

theorem Around.create (h : Around base username d) (resource : Resource) :
    Around base username ((AccountCommand.create resource username).apply d) := by
  intro resource'
  unfold AccountCommand.apply
  rw [get_set]
  split
  · next hsame =>
      subst hsame
      rcases h resource' with hnames | ⟨hnot, hnames⟩
      · by_cases hmem : username ∈ base.get resource'
        · rw [hnames, if_pos hmem]
          exact Or.inl rfl
        · rw [hnames, if_neg hmem]
          exact Or.inr ⟨hmem, rfl⟩
      · rw [hnames, if_pos (List.mem_append_right _ List.mem_cons_self)]
        exact Or.inr ⟨hnot, rfl⟩
  · exact h resource'

theorem filter_ne_eq_self {names : List String} (h : username ∉ names) :
    names.filter (· != username) = names := by
  rw [List.filter_eq_self]
  intro name hmem
  rw [bne_iff_ne]
  exact fun heq => h (heq ▸ hmem)

theorem Around.remove (h : Around base username d) (hnot : username ∉ base.get resource) :
    Around base username ((AccountCommand.remove resource username).apply d) := by
  intro resource'
  unfold AccountCommand.apply
  rw [get_set]
  split
  · next hsame =>
      subst hsame
      rcases h resource' with hnames | ⟨-, hnames⟩
      · rw [hnames, filter_ne_eq_self hnot]
        exact Or.inl rfl
      · rw [hnames, List.filter_append, filter_ne_eq_self hnot]
        simp
  · exact h resource'

/-- The directory is around the base and no name of the base has been removed. -/
structure Near (base : Directory) (username : String) (w : World) : Prop where
  names : Around base username w.directory
  spared : ∀ resource name, .remove resource name ∈ w.issued → name ∉ base.get resource

theorem Near.record {command : AccountCommand} (h : Near base username w)
    (hd : Around base username d)
    (hcommand : ∀ resource name, command = .remove resource name → name ∉ base.get resource) :
    Near base username (w.record command d) := by
  refine ⟨hd, ?_⟩
  intro resource name hmem
  rcases List.mem_append.mp hmem with hmem | hmem
  · exact h.spared resource name hmem
  · exact hcommand resource name (List.mem_singleton.mp hmem).symm

/-- A listing that agrees with the base on the account shows the base. -/
theorem Near.get_eq (h : Near base username w)
    (hsame : (w.directory.get resource).contains username = (base.get resource).contains username) :
    w.directory.get resource = base.get resource := by
  rcases h.names resource with hnames | ⟨hnot, hnames⟩
  · exact hnames
  · rw [hnames] at hsame
    simp [hnot] at hsame

/-! ## Compensation -/

theorem listNames_triple :
    Exec.Triple (fun w => Near base username w ∧ w.directory = d) (listNames resource)
      (fun names w => names = d.get resource ∧ Near base username w ∧ w.directory = d)
      (fun e w => e.isFailure = true ∧ Near base username w ∧ w.directory = d) := by
  apply invoke_triple
  · rintro w ⟨hnear, rfl⟩
    exact ⟨rfl, hnear.record hnear.names nofun, rfl⟩
  · rintro w e ⟨hnear, rfl⟩ d hd
    obtain rfl : d = w.directory := hd.elim id id
    exact ⟨rfl, hnear.record hnear.names nofun, rfl⟩

theorem observe_triple (attempts : Nat) :
    Exec.Triple (fun w => Near base username w ∧ w.directory = d)
      (observe username resource attempts)
      (fun seen w => (∀ present ∈ seen, present = (d.get resource).contains username) ∧
        Near base username w ∧ w.directory = d)
      (fun _ _ => False) := by
  induction attempts with
  | zero =>
      apply Exec.Triple.ret
      intro w hw
      exact ⟨nofun, hw⟩
  | succ attempts ih =>
      unfold observe
      apply exceptMaddyError_triple _ fun _ _ => ih
      apply Exec.Triple.bind listNames_triple
      intro names
      apply Exec.Triple.ret
      rintro w ⟨rfl, hw⟩
      refine ⟨?_, hw⟩
      intro present hpresent
      exact (Option.some.inj hpresent).symm

theorem removeQuietly_triple {wasCreated : Bool}
    (hcreated : wasCreated = true → username ∉ base.get resource) :
    Exec.Triple (Near base username) (removeQuietly wasCreated resource username)
      (fun _ => Near base username) (fun _ _ => False) := by
  unfold removeQuietly
  apply Exec.Triple.ite
  · intro hremove
    have hnot := hcreated hremove
    apply @exceptMaddyError_triple _ _ _ _ _ _ fun _ => Near base username
    · apply invoke_triple
      · intro w hnear
        apply hnear.record (hnear.names.remove hnot)
        rintro _ _ ⟨⟩
        exact hnot
      · intro w e hnear d hd
        refine ⟨rfl, hnear.record ?_ ?_⟩
        · rcases hd with rfl | rfl
          · exact hnear.names.remove hnot
          · exact hnear.names
        · rintro _ _ ⟨⟩
          exact hnot
    · intro e _
      exact Exec.Triple.ret fun w hw => hw
  · intro _
    exact Exec.Triple.ret fun w hw => hw

theorem not_mem_of_created {names : List String} {seen : Option Bool}
    (h : (!names.contains username && seen == some true) = true) : username ∉ names := by
  simp only [Bool.and_eq_true, Bool.not_eq_true', List.contains_eq_mem,
    decide_eq_false_iff_not] at h
  exact h.1

/-- A rollback that succeeds is one that the last two listings have shown. -/
theorem compensateAccountCreation_triple :
    Exec.Triple (Near base username)
      (compensateAccountCreation username base.credentials base.mailboxes)
      (fun result w => Near base username w ∧ (result.2 = true → w.directory = base))
      (fun _ _ => False) := by
  unfold compensateAccountCreation
  apply Exec.Triple.pin World.directory
  intro d
  apply Exec.Triple.bind (observe_triple 2)
  intro credentialIsPresent
  apply @Exec.Triple.bind _ _ _ _ _ fun _ => Near base username
  · exact (observe_triple 2).conseq (fun _ hw => hw.2) (fun _ _ hw => hw.2.1) fun _ _ hw => hw
  intro mailboxIsPresent
  dsimp only
  apply Exec.Triple.bind (@removeQuietly_triple base username .mailbox _ not_mem_of_created)
  intro _
  apply Exec.Triple.bind (@removeQuietly_triple base username .credentials _ not_mem_of_created)
  intro _
  apply Exec.Triple.pin World.directory
  intro d
  apply Exec.Triple.bind (observe_triple 2)
  intro finalCredential
  apply Exec.Triple.assume
  intro hcredential
  apply Exec.Triple.bind (observe_triple 2)
  intro finalMailbox
  apply Exec.Triple.assume
  intro hmailbox
  apply Exec.Triple.ret
  rintro w ⟨hnear, rfl⟩
  refine ⟨hnear, ?_⟩
  intro hrollback
  simp only [Bool.and_eq_true, beq_iff_eq] at hrollback
  apply directory_ext
  intro resource
  apply hnear.get_eq
  cases resource with
  | credentials => exact (hcredential _ hrollback.1).symm
  | mailbox => exact (hmailbox _ hrollback.2).symm

/-! ## Creation -/

theorem verifyListed_triple :
    Exec.Triple (fun w => Near base username w ∧ w.directory = d) (verifyListed resource username)
      (fun _ w => username ∈ d.get resource ∧ Near base username w ∧ w.directory = d)
      (fun e w => e.isFailure = true ∧ Near base username w) := by
  apply Exec.Triple.bind
  · apply listNames_triple.conseq (fun _ hw => hw) (fun _ _ hw => hw)
    intro e w hw
    exact ⟨hw.1, hw.2.1⟩
  intro names
  apply Exec.Triple.ensure
  · rintro w ⟨rfl, hw⟩ hmem
    exact ⟨by simpa using hmem, hw⟩
  · rintro w ⟨-, hw⟩ -
    exact ⟨rfl, hw.1⟩

theorem makeAccount_triple :
    Exec.Triple (Near base username) (makeAccount username)
      (fun _ w => Near base username w ∧ ∀ resource, username ∈ w.directory.get resource)
      (fun e w => e.isFailure = true ∧ Near base username w) := by
  have hcreate : ∀ resource, Exec.Triple (Near base username) (mutate (.create resource username))
      (fun _ => Near base username) (fun e w => e.isFailure = true ∧ Near base username w) := by
    intro resource
    apply invoke_triple
    · intro w hnear
      exact hnear.record (hnear.names.create resource) nofun
    · intro w e hnear d hd
      refine ⟨rfl, hnear.record ?_ nofun⟩
      rcases hd with rfl | rfl
      · exact hnear.names.create resource
      · exact hnear.names
  unfold makeAccount
  apply Exec.Triple.bind (hcreate .credentials)
  intro _
  apply Exec.Triple.bind (hcreate .mailbox)
  intro _
  apply Exec.Triple.pin World.directory
  intro d
  apply Exec.Triple.bind verifyListed_triple
  intro _
  apply Exec.Triple.assume
  intro hcredential
  apply verifyListed_triple.conseq (fun _ hw => hw) _ fun _ _ hw => hw
  rintro _ w ⟨hmailbox, hnear, rfl⟩
  refine ⟨hnear, ?_⟩
  intro resource
  cases resource with
  | credentials => exact hcredential
  | mailbox => exact hmailbox

/-- What an error of `create_account` says about the directory. -/
inductive CreationError (base : Directory) : ServiceError → Directory → Prop
  | invalid {field : String} : CreationError base (.invalidArgument field) base
  | original {e : ServiceError} (h : e.isFailure = true) : CreationError base e base
  | rolledBack {completed : List String} : CreationError base (.partialOperation
      "account creation failed; newly created resources were rolled back" completed (some true))
        base
  | unverified {completed : List String} {d : Directory} : CreationError base (.partialOperation
      "account creation failed and rollback could not be verified" completed (some false)) d

theorem failCreation_triple {error : ServiceError} (herror : error.isFailure = true) :
    Exec.Triple (Near base username)
      (failCreation username base.credentials base.mailboxes error) (fun _ _ => False)
      (fun e w => Near base username w ∧ CreationError base e w.directory) := by
  unfold failCreation
  apply Exec.Triple.bind (compensateAccountCreation_triple.conseq (fun _ hw => hw)
    (fun _ _ hw => hw)
    fun _ _ hw => hw.elim)
  rintro ⟨completed, rollbackSucceeded⟩
  cases rollbackSucceeded with
  | false =>
      dsimp only
      rw [Bool.and_false, if_neg Bool.false_ne_true]
      exact Exec.Triple.raise fun w hw => ⟨hw.1, .unverified⟩
  | true =>
      apply Exec.Triple.ite
      · intro _
        apply Exec.Triple.raise
        intro w hw
        rw [hw.2 rfl]
        exact ⟨hw.1, .original herror⟩
      · intro _
        apply Exec.Triple.raise
        intro w hw
        rw [hw.2 rfl]
        exact ⟨hw.1, .rolledBack⟩

theorem near_start {reactions : Nat → Reaction} : Near base username (start base reactions) := by
  refine ⟨fun _ => Or.inl rfl, ?_⟩
  intro resource name hmem
  exact absurd hmem List.not_mem_nil

/-- An account that exists, one that does not, or an error that says the difference. -/
theorem createAccount_triple {password : String} :
    Exec.Triple (fun w => Near base username w ∧ w.directory = base)
      (createAccount username password)
      (fun _ w => Near base username w ∧ ∀ resource, username ∈ w.directory.get resource)
      (fun e w => Near base username w ∧ CreationError base e w.directory) := by
  have hlist : ∀ resource, Exec.Triple (fun w => Near base username w ∧ w.directory = base)
      (listNames resource)
      (fun names w => names = base.get resource ∧ Near base username w ∧ w.directory = base)
      (fun e w => Near base username w ∧ CreationError base e w.directory) := by
    intro resource
    apply listNames_triple.conseq (fun _ hw => hw) (fun _ _ hw => hw)
    rintro e w ⟨hfailure, hnear, hbase⟩
    rw [hbase]
    exact ⟨hnear, .original hfailure⟩
  have hrefuse : ∀ field w, Near base username w ∧ w.directory = base →
      Near base username w ∧ CreationError base (.invalidArgument field) w.directory := by
    rintro field w ⟨hnear, hbase⟩
    rw [hbase]
    exact ⟨hnear, .invalid⟩
  unfold createAccount safePositional passwordInput
  apply Exec.Triple.ensure_bind (hrefuse "username")
  intro _
  apply Exec.Triple.ensure_bind (hrefuse "password")
  intro _
  apply Exec.Triple.bind (hlist .credentials)
  intro credentialBaseline
  apply Exec.Triple.assume
  rintro rfl
  apply Exec.Triple.bind (hlist .mailbox)
  intro mailboxBaseline
  apply Exec.Triple.assume
  rintro rfl
  apply @exceptMaddyError_triple _ _ _ _ _ _ fun _ => Near base username
  · exact makeAccount_triple.conseq (fun _ hw => hw.1) (fun _ _ hw => hw) fun _ _ hw => hw
  · intro e herror
    exact (failCreation_triple herror).conseq (fun _ hw => hw) (fun _ _ hw => hw.elim)
      fun _ _ hw => hw

/-! ## Deletion -/

theorem removeVerified_triple {message : String} {P : Directory → Prop}
    (happly : ∀ d, P d → P ((AccountCommand.remove resource username).apply d)) :
    Exec.Triple (fun w => P w.directory) (removeVerified resource username message)
      (fun _ w => username ∉ w.directory.get resource ∧ P w.directory) (fun _ _ => True) := by
  unfold removeVerified safePositional
  apply Exec.Triple.ensure_bind fun _ _ => trivial
  intro _
  apply @Exec.Triple.bind _ _ _ _ _ fun _ w => P w.directory
  · exact invoke_triple (fun w hw => happly w.directory hw) fun _ _ _ _ _ => trivial
  intro _
  apply @Exec.Triple.bind _ _ _ _ _ fun names w => names = w.directory.get resource ∧ P w.directory
  · exact invoke_triple (fun w hw => ⟨rfl, hw⟩) fun _ _ _ _ _ => trivial
  intro names
  apply Exec.Triple.ensure
  · rintro w ⟨rfl, hw⟩ hgone
    exact ⟨by simpa using hgone, hw⟩
  · exact fun _ _ _ => trivial

/-- A deletion that returns has read back that the account is gone. -/
theorem deleteAccount_triple :
    Exec.Triple (fun _ => True) (deleteAccount username)
      (fun _ w => ∀ resource, username ∉ w.directory.get resource) (fun _ _ => True) := by
  unfold deleteAccount safePositional
  apply Exec.Triple.ensure_bind fun _ _ => trivial
  intro _
  apply Exec.Triple.bind ((@removeVerified_triple username .credentials _ (fun _ => True)
    fun _ _ => trivial).conseq (fun _ _ => trivial) (fun _ _ hw => hw.1) fun _ _ hw => hw)
  intro _
  apply Exec.Triple.handle
  · apply (@removeVerified_triple username .mailbox _ (fun d => username ∉ d.get .credentials)
      fun d hd => hd).conseq (fun _ hw => hw) _ fun _ _ hw => hw
    rintro _ w ⟨hmailbox, hcredential⟩ resource
    cases resource with
    | credentials => exact hcredential
    | mailbox => exact hmailbox
  · intro e
    apply Exec.Triple.ite
    · exact fun _ => Exec.Triple.raise fun _ _ => trivial
    · exact fun _ => Exec.Triple.raise fun _ _ => trivial

end MaddyWeb.Maddy.Accounts
