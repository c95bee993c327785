import MaddyWeb.Cli.Bootstrap
import MaddyWeb.Library.Fallible

/-!
# The bootstrap is all or nothing
-/

namespace MaddyWeb.Cli.Bootstrap

open MaddyWeb.Library MaddyWeb.Library.Text MaddyWeb.Maddy.Accounts MaddyWeb.Maddy.Service

variable {d base : Directory} {db : Auth.Db} {names : List String} {email : String}
  {records : List BootstrapRecord} {e : BootstrapError} {s : Site}

/-! ## The records -/

/-- What the validation of a record has checked. -/
structure ValidRecord (record : BootstrapRecord) : Prop where
  canonical : ∃ value, Identity.canonicalizeEmail value = some record.email
  secret : ∃ secret, Auth.decodeTotpSecret record.totpSecret = some secret

theorem identityOf_eq_some {fields : Fields} {role : Auth.Role} {secret : String}
    (h : identityOf fields = some (email, role, secret)) :
    (∃ value, Identity.canonicalizeEmail value = some email) ∧
      ∃ bytes, Auth.decodeTotpSecret secret = some bytes := by
  unfold identityOf at h
  simp only [Option.bind_eq_bind, Option.bind_eq_some_iff] at h
  obtain ⟨value, -, canonical, hcanonical, role', -, secret', -, bytes, hbytes, h⟩ := h
  cases h
  exact ⟨⟨value, hcanonical⟩, bytes, hbytes⟩

theorem validatedRecord_eq_ok {seen : List String} {fields : Fields} {record : BootstrapRecord}
    (h : validatedRecord seen fields = .ok record) : ValidRecord record ∧ record.email ∉ seen := by
  unfold validatedRecord refuse at h
  dsimp only [bind, Except.bind] at h
  split at h
  · cases h
  split at h
  · next email role secret hidentity =>
      obtain ⟨hcanonical, hsecret⟩ := identityOf_eq_some hidentity
      -- the remaining checks do not matter here
      repeat' split at h
      all_goals cases h
      next hseen =>
        refine ⟨⟨hcanonical, hsecret⟩, ?_⟩
        simpa using hseen
  · cases h

theorem validatedBootstrapRecords_eq_ok {seen : List String} {values : List Fields}
    (h : validatedBootstrapRecords seen values = .ok records) :
    (∀ record ∈ records, ValidRecord record ∧ record.email ∉ seen) ∧
      (records.map (·.email)).Nodup := by
  induction values generalizing seen records with
  | nil =>
      cases h
      exact ⟨nofun, List.nodup_nil⟩
  | cons fields values ih =>
      unfold validatedBootstrapRecords at h
      obtain ⟨record, hrecord, h⟩ := Fallible.bind_eq_ok h
      obtain ⟨rest, hrest, h⟩ := Fallible.bind_eq_ok h
      cases h
      obtain ⟨hvalid, hnot⟩ := validatedRecord_eq_ok hrecord
      obtain ⟨hall, hnodup⟩ := ih hrest
      constructor
      · intro other hother
        rcases List.mem_cons.mp hother with rfl | hother
        · exact ⟨hvalid, hnot⟩
        · obtain ⟨hvalid', hnot'⟩ := hall other hother
          exact ⟨hvalid', fun hmem => hnot' (List.mem_cons_of_mem _ hmem)⟩
      · rw [List.map_cons, List.nodup_cons]
        refine ⟨?_, hnodup⟩
        intro hmem
        obtain ⟨other, hother, heq⟩ := List.mem_map.mp hmem
        exact (hall other hother).2 (heq ▸ List.mem_cons_self)

/-- A canonical address is its own canonical form. -/
theorem ValidRecord.canonicalizeEmail_eq {record : BootstrapRecord} (h : ValidRecord record) :
    Identity.canonicalizeEmail record.email = some record.email := by
  obtain ⟨value, hvalue⟩ := h.canonical
  obtain ⟨mailbox, domain, hcanonical⟩ := Identity.isCanonical_of_canonicalizeEmail hvalue
  have hsame := hcanonical.canonicalizeEmail_eq
  rwa [String.ofList_toList] at hsame

/-! ## The directory -/

/-- No command of the run so far has removed a name of `d`. -/
def Spared (d : Directory) (w : World) : Prop :=
  ∀ resource name, .remove resource name ∈ w.issued → name ∉ d.get resource

def NoRemoval (w : World) : Prop := ∀ resource name, .remove resource name ∉ w.issued

/-- The directory has gained these names and lost none. -/
def Grown (d : Directory) (names : List String) (directory : Directory) : Prop :=
  ∀ resource, directory.get resource = d.get resource ++ names

theorem NoRemoval.record {w : World} {command : AccountCommand} {directory : Directory}
    (h : NoRemoval w) (hcommand : ∀ resource name, command ≠ .remove resource name) :
    NoRemoval (w.record command directory) := by
  intro resource name hmem
  rcases List.mem_append.mp hmem with hmem | hmem
  · exact h resource name hmem
  · exact hcommand resource name (List.mem_singleton.mp hmem).symm

theorem Spared.record {w : World} {command : AccountCommand} {directory : Directory}
    (h : Spared d w)
    (hcommand : ∀ resource name, command = .remove resource name → name ∉ d.get resource) :
    Spared d (w.record command directory) := by
  intro resource name hmem
  rcases List.mem_append.mp hmem with hmem | hmem
  · exact h resource name hmem
  · exact hcommand resource name (List.mem_singleton.mp hmem).symm

theorem invoke_noRemoval {α : Type} {command : AccountCommand} {value : Directory → α}
    (hcommand : ∀ resource name, command ≠ .remove resource name) :
    Exec.Triple NoRemoval (invoke command value) (fun _ => NoRemoval) (fun _ _ => True) := by
  apply invoke_triple
  · exact fun w hw => hw.record hcommand
  · exact fun _ _ _ _ _ => trivial

theorem listNames_noRemoval (resource : Resource) :
    Exec.Triple NoRemoval (listNames resource) (fun _ => NoRemoval) (fun _ _ => True) :=
  invoke_noRemoval fun _ _ => nofun

theorem create_noRemoval (resource : Resource) :
    Exec.Triple NoRemoval (mutate (.create resource email)) (fun _ => NoRemoval)
      (fun _ _ => True) :=
  invoke_noRemoval fun _ _ => nofun

/-- An account that is created has needed no removal. -/
theorem createAccount_noRemoval {password : String} :
    Exec.Triple NoRemoval (createAccount email password) (fun _ => NoRemoval)
      (fun _ _ => True) := by
  have hverify : ∀ resource, Exec.Triple NoRemoval (verifyListed resource email)
      (fun _ => NoRemoval) (fun _ _ => True) := by
    intro resource
    apply Exec.Triple.bind (listNames_noRemoval resource)
    intro names
    exact Exec.Triple.ensure (fun _ hw _ => hw) fun _ _ _ => trivial
  unfold createAccount safePositional passwordInput
  apply Exec.Triple.ensure_bind fun _ _ => trivial
  intro _
  apply Exec.Triple.ensure_bind fun _ _ => trivial
  intro _
  apply Exec.Triple.bind (listNames_noRemoval .credentials)
  intro credentialBaseline
  apply Exec.Triple.bind (listNames_noRemoval .mailbox)
  intro mailboxBaseline
  apply @Exec.Triple.handle _ _ _ _ _ _ (fun _ _ => True)
  · apply Exec.Triple.bind (create_noRemoval .credentials)
    intro _
    apply Exec.Triple.bind (create_noRemoval .mailbox)
    intro _
    apply Exec.Triple.bind (hverify .credentials)
    exact fun _ => hverify .mailbox
  · intro e
    apply Exec.Triple.ite
    · intro _
      apply @Exec.Triple.bind _ _ _ _ _ (fun _ _ => True)
      · exact Exec.Triple.of_state fun _ _ => trivial
      · rintro ⟨completed, rollbackSucceeded⟩
        apply Exec.Triple.ite
        · exact fun _ => Exec.Triple.raise fun _ _ => trivial
        · exact fun _ => Exec.Triple.raise fun _ _ => trivial
    · exact fun _ => Exec.Triple.raise fun _ _ => trivial

/-- The errors that do not promise that everything has been undone. -/
inductive Unverified : BootstrapError → Prop
  | bootstrap : Unverified
      (.runtime "authentication bootstrap failed and new-account rollback was not verified")
  | creation {completed : List String} : Unverified (.service (.partialOperation
      "account creation failed and rollback could not be verified" completed (some false)))

/-- The directory when a step has failed: the names gained so far, perhaps a part of the next
account, which only an error that says so leaves behind. -/
structure Left (d : Directory) (names : List String) (e : BootstrapError) (w : World) : Prop where
  spared : Spared d w
  grown : ∀ resource, ∃ rest, w.directory.get resource = d.get resource ++ names ++ rest ∧
    (rest = [] ∨ Unverified e)

theorem Left.of_grown {w : World} (hspared : Spared d w) (h : Grown d names w.directory) :
    Left d names e w := by
  refine ⟨hspared, ?_⟩
  intro resource
  refine ⟨[], ?_, Or.inl rfl⟩
  rw [h resource, List.append_nil]

theorem NoRemoval.spared {w : World} (h : NoRemoval w) : Spared d w :=
  fun resource name hmem => absurd hmem (h resource name)

/-- Only the error that says so leaves anything behind. -/
theorem creationError_cases {error : ServiceError} {directory : Directory}
    (h : CreationError base error directory) : directory = base ∨ ∃ completed,
      error = .partialOperation "account creation failed and rollback could not be verified"
        completed
        (some false) := by
  cases h with
  | invalid => exact Or.inl rfl
  | original => exact Or.inl rfl
  | rolledBack => exact Or.inl rfl
  | unverified => exact Or.inr ⟨_, rfl⟩

/-- Creating an account that is not there. -/
theorem createAccount_grows {password : String} (hd : ∀ resource, email ∉ d.get resource)
    (hnames : email ∉ names) :
    Exec.Triple (fun w => Grown d names w.directory ∧ NoRemoval w) (createAccount email password)
      (fun _ w => Grown d (names ++ [email]) w.directory ∧ NoRemoval w)
      (fun e w => Left d names (.service e) w) := by
  rintro w ⟨hgrown, hnone⟩
  have hbase : ∀ resource, email ∉ w.directory.get resource := by
    intro resource hmem
    rw [hgrown resource] at hmem
    exact (List.mem_append.mp hmem).elim (hd resource) hnames
  have hnear : Near w.directory email w := ⟨fun _ => Or.inl rfl, hnone.spared⟩
  have hcreated := @createAccount_triple w.directory email password w ⟨hnear, rfl⟩
  have hquiet := @createAccount_noRemoval email password w hnone
  rcases hrun : createAccount email password w with ⟨e | u, w'⟩
  · rw [hrun] at hcreated
    obtain ⟨hnear', herror⟩ := hcreated
    have hspared : Spared d w' := by
      intro resource name hmem hname
      apply hnear'.spared resource name hmem
      rw [hgrown resource]
      exact List.mem_append_left _ hname
    rcases creationError_cases herror with heq | ⟨completed, rfl⟩
    · apply Left.of_grown hspared
      rw [heq]
      exact hgrown
    · refine ⟨hspared, ?_⟩
      intro resource
      rcases hnear'.names resource with hsame | ⟨-, hadded⟩
      · refine ⟨[], ?_, Or.inl rfl⟩
        rw [hsame, hgrown resource, List.append_nil]
      · refine ⟨[email], ?_, Or.inr .creation⟩
        rw [hadded, hgrown resource]
  · rw [hrun] at hcreated hquiet
    obtain ⟨hnear', hmem⟩ := hcreated
    refine ⟨?_, hquiet⟩
    intro resource
    rcases hnear'.names resource with hsame | ⟨-, hadded⟩
    · exact absurd (hsame ▸ hmem resource) (hbase resource)
    · rw [hadded, hgrown resource, List.append_assoc]

/-! ## Deleting what has been created -/

/-- A removal of a name that `d` does not have. -/
theorem removeVerified_removes {resource : Resource} {message : String} {D : Directory}
    (hd : email ∉ d.get resource) :
    Exec.Triple (fun w => w.directory = D ∧ Spared d w) (removeVerified resource email message)
      (fun _ w => w.directory = (AccountCommand.remove resource email).apply D ∧ Spared d w)
      (fun _ w => (w.directory = D ∨ w.directory = (AccountCommand.remove resource email).apply D) ∧
        Spared d w) := by
  have hspared : ∀ {w : World} {directory : Directory}, Spared d w →
      Spared d (w.record (.remove resource email) directory) := by
    intro w directory hw
    apply hw.record
    rintro _ _ ⟨⟩
    exact hd
  unfold removeVerified safePositional
  apply Exec.Triple.ensure_bind fun w hw => ⟨Or.inl hw.1, hw.2⟩
  intro _
  apply @Exec.Triple.bind _ _ _ _ _ fun _ w =>
    w.directory = (AccountCommand.remove resource email).apply D ∧ Spared d w
  · apply invoke_triple
    · rintro w ⟨rfl, hw⟩
      exact ⟨rfl, hspared hw⟩
    · rintro w e ⟨rfl, hw⟩ directory hdirectory
      exact ⟨hdirectory.symm, hspared hw⟩
  intro _
  apply @Exec.Triple.bind _ _ _ _ _ fun _ w =>
    w.directory = (AccountCommand.remove resource email).apply D ∧ Spared d w
  · apply invoke_triple
    · rintro w ⟨heq, hw⟩
      exact ⟨heq, hw.record fun _ _ => nofun⟩
    · rintro w e ⟨heq, hw⟩ directory hdirectory
      refine ⟨Or.inr ?_, hw.record fun _ _ => nofun⟩
      exact (hdirectory.elim id id).trans heq
  intro listed
  apply Exec.Triple.ensure
  · exact fun w hw _ => hw
  · exact fun w hw _ => ⟨Or.inr hw.1, hw.2⟩

/-- What is left of the names of a directory when `email` has been removed. -/
theorem get_remove (D : Directory) (resource resource' : Resource) :
    ((AccountCommand.remove resource email).apply D).get resource' =
      if resource' = resource then (D.get resource').filter (· != email) else D.get resource' := by
  unfold AccountCommand.apply
  rw [get_set]
  split
  · next hsame => rw [hsame]
  · rfl

theorem deleteAccount_removes {D : Directory} (hd : ∀ resource, email ∉ d.get resource) :
    Exec.Triple (fun w => w.directory = D ∧ Spared d w) (deleteAccount email)
      (fun _ w => (∀ resource, w.directory.get resource = (D.get resource).filter (· != email)) ∧
        Spared d w)
      (fun _ w => (∀ resource, w.directory.get resource = D.get resource ∨
        w.directory.get resource = (D.get resource).filter (· != email)) ∧ Spared d w) := by
  have hpart : ∀ resource, ∀ resource', (((AccountCommand.remove resource email).apply D).get
      resource' = D.get resource' ∨ ((AccountCommand.remove resource email).apply D).get resource' =
        (D.get resource').filter (· != email)) := by
    intro resource resource'
    rw [get_remove]
    split
    · exact Or.inr rfl
    · exact Or.inl rfl
  have hboth : ∀ resource, ((AccountCommand.remove .mailbox email).apply
      ((AccountCommand.remove .credentials email).apply D)).get resource =
        (D.get resource).filter (· != email) := by
    intro resource
    cases resource <;> rfl
  unfold deleteAccount safePositional
  apply Exec.Triple.ensure_bind fun w hw => ⟨fun _ => Or.inl (by rw [hw.1]), hw.2⟩
  intro _
  apply Exec.Triple.bind
  · apply (removeVerified_removes (hd .credentials)).conseq (fun _ hw => hw) (fun _ _ hw => hw)
    rintro e w ⟨hw, hspared⟩
    refine ⟨?_, hspared⟩
    intro resource
    rcases hw with heq | heq
    · exact Or.inl (by rw [heq])
    · rw [heq]
      exact hpart .credentials resource
  intro _
  apply Exec.Triple.handle
  · apply (removeVerified_removes (hd .mailbox)).conseq (fun _ hw => hw) _ fun _ _ hw => hw
    rintro _ w ⟨heq, hspared⟩
    refine ⟨?_, hspared⟩
    intro resource
    rw [heq, hboth]
  · intro e
    have hraise : ∀ w : World, (w.directory = (AccountCommand.remove .credentials email).apply D ∨
        w.directory = (AccountCommand.remove .mailbox email).apply
          ((AccountCommand.remove .credentials email).apply D)) ∧ Spared d w →
        (∀ resource, w.directory.get resource = D.get resource ∨
          w.directory.get resource = (D.get resource).filter (· != email)) ∧ Spared d w := by
      rintro w ⟨heq | heq, hspared⟩
      · rw [heq]
        exact ⟨hpart .credentials, hspared⟩
      · rw [heq]
        exact ⟨fun resource => Or.inr (hboth resource), hspared⟩
    apply Exec.Triple.ite
    · exact fun _ => Exec.Triple.raise hraise
    · exact fun _ => Exec.Triple.raise hraise

theorem onMaddy_triple {α : Type} {m : Service α} {P : World → Prop} {Q : α → World → Prop}
    {E : ServiceError → World → Prop} (h : Exec.Triple P m Q E) :
    Exec.Triple (fun s => P s.maddy ∧ s.auth = db ∧ s.created = names) (onMaddy m)
      (fun a s => Q a s.maddy ∧ s.auth = db ∧ s.created = names)
      (fun e s => ∃ e', e = .service e' ∧ E e' s.maddy ∧ s.auth = db ∧ s.created = names) := by
  apply Exec.Triple.focus h
  · exact fun s hs => hs.1
  · exact fun s a w hs hw => ⟨hw, hs.2⟩
  · exact fun s e w hs hw => ⟨e, rfl, hw, hs.2⟩

/-- The loop of the rollback, with the accounts that it has still to delete. -/
structure Undoing (d : Directory) (db : Auth.Db) (e : BootstrapError) (pending : List String)
    (failed : Bool) (s : Site) : Prop where
  auth : s.auth = db
  spared : Spared d s.maddy
  kept : ∀ resource, ∀ name ∈ d.get resource, name ∈ s.maddy.directory.get resource
  grown : failed = false → ∀ resource, ∃ rest,
    s.maddy.directory.get resource = d.get resource ++ pending.reverse ++ rest ∧
      (rest = [] ∨ Unverified e)

theorem mem_filter_of_spared {resource : Resource} {D : Directory} {name : String}
    (hd : email ∉ d.get resource) (hname : name ∈ d.get resource) (hmem : name ∈ D.get resource) :
    name ∈ (D.get resource).filter (· != email) := by
  apply List.mem_filter.mpr
  refine ⟨hmem, bne_iff_ne.mpr ?_⟩
  exact fun heq => hd (heq ▸ hname)

theorem rollbackAccount_triple {pending : List String} {failed : Bool}
    (hd : ∀ resource, email ∉ d.get resource) (hpending : email ∉ pending) :
    Exec.Triple (Undoing d db e (email :: pending) failed) (rollbackAccount failed email)
      (fun failed' => Undoing d db e pending failed') (fun _ _ => False) := by
  intro s hs
  have hstart : (s.maddy.directory = s.maddy.directory ∧ Spared d s.maddy) ∧ s.auth = db ∧
      s.created = s.created := ⟨⟨rfl, hs.spared⟩, hs.auth, rfl⟩
  have hdelete := onMaddy_triple (deleteAccount_removes hd) s hstart
  unfold rollbackAccount Exec.handle
  rcases hrun : onMaddy (deleteAccount email) s with ⟨error | u, s'⟩
  · rw [hrun] at hdelete
    rw [Exec.bind_of_error hrun]
    obtain ⟨-, -, ⟨hget, hspared⟩, hauth, -⟩ := hdelete
    refine ⟨hauth, hspared, ?_, nofun⟩
    intro resource name hname
    have hold := hs.kept resource name hname
    rcases hget resource with heq | heq
    · rw [heq]
      exact hold
    · rw [heq]
      exact mem_filter_of_spared (hd resource) hname hold
  · rw [hrun] at hdelete
    rw [Exec.bind_of_ok hrun]
    obtain ⟨⟨hget, hspared⟩, hauth, -⟩ := hdelete
    refine ⟨hauth, hspared, ?_, ?_⟩
    · intro resource name hname
      rw [hget resource]
      exact mem_filter_of_spared (hd resource) hname (hs.kept resource name hname)
    · intro hfailed resource
      obtain ⟨rest, hrest, hend⟩ := hs.grown hfailed resource
      refine ⟨rest.filter (· != email), ?_, ?_⟩
      · have hothers : email ∉ pending.reverse := fun hmem => hpending (List.mem_reverse.mp hmem)
        rw [hget resource, hrest, List.reverse_cons, List.filter_append, List.filter_append,
          List.filter_append, filter_ne_eq_self (hd resource), filter_ne_eq_self hothers]
        simp
      · rcases hend with rfl | hend
        · exact Or.inl rfl
        · exact Or.inr hend

theorem rollback_triple {pending : List String} {failed : Bool} (hnodup : pending.Nodup)
    (hd : ∀ name ∈ pending, ∀ resource, name ∉ d.get resource) :
    Exec.Triple (Undoing d db e pending failed) (pending.foldlM rollbackAccount failed)
      (fun failed' => Undoing d db e [] failed') (fun _ _ => False) := by
  induction pending generalizing failed with
  | nil => exact Exec.Triple.ret fun _ hs => hs
  | cons email pending ih =>
      obtain ⟨hnot, hnodup⟩ := List.nodup_cons.mp hnodup
      rw [List.foldlM_cons]
      apply Exec.Triple.bind (rollbackAccount_triple (hd email List.mem_cons_self) hnot)
      intro failed'
      exact ih hnodup fun name hname => hd name (List.mem_cons_of_mem _ hname)

/-- The state in which the `except` branch starts. -/
structure Broken (d : Directory) (db : Auth.Db) (e : BootstrapError) (s : Site) : Prop where
  auth : s.auth = db
  left : Left d s.created e s.maddy
  nodup : s.created.Nodup
  fresh : ∀ name ∈ s.created, ∀ resource, name ∉ d.get resource

/-- The outcome of a command that fails. -/
structure Undone (d : Directory) (db : Auth.Db) (e : BootstrapError) (s : Site) : Prop where
  auth : s.auth = db
  spared : Spared d s.maddy
  kept : ∀ resource, ∀ name ∈ d.get resource, name ∈ s.maddy.directory.get resource
  restored : s.maddy.directory = d ∨ Unverified e

theorem undoCreated_triple :
    Exec.Triple (Broken d db e) (undoCreated e) (fun _ _ => False) (fun e' => Undone d db e') := by
  unfold undoCreated
  apply @Exec.Triple.bind _ _ _ _ _ fun created s =>
    (created.Nodup ∧ ∀ name ∈ created, ∀ resource, name ∉ d.get resource) ∧
      Undoing d db e created.reverse false s
  · apply Exec.Triple.inspect
    intro s hs
    refine ⟨⟨hs.nodup, hs.fresh⟩, hs.auth, hs.left.spared, ?_, ?_⟩
    · intro resource name hname
      obtain ⟨rest, hrest, -⟩ := hs.left.grown resource
      rw [hrest]
      exact List.mem_append_left _ (List.mem_append_left _ hname)
    · intro _ resource
      rw [List.reverse_reverse]
      exact hs.left.grown resource
  intro created
  apply Exec.Triple.assume
  rintro ⟨hnodup, hfresh⟩
  apply Exec.Triple.bind
  · apply (rollback_triple ((List.reverse_perm created).nodup_iff.mpr hnodup) ?_).conseq
      (fun _ h => h)
      (fun _ _ h => h) fun _ _ h => h.elim
    exact fun name hname => hfresh name (List.mem_reverse.mp hname)
  intro failed
  cases failed with
  | true => exact Exec.Triple.raise fun s hs => ⟨hs.auth, hs.spared, hs.kept, Or.inr .bootstrap⟩
  | false =>
      apply Exec.Triple.raise
      intro s hs
      refine ⟨hs.auth, hs.spared, hs.kept, ?_⟩
      by_cases hverified : Unverified e
      · exact Or.inr hverified
      · left
        apply directory_ext
        intro resource
        obtain ⟨rest, hrest, hend⟩ := hs.grown rfl resource
        rw [hrest, hend.resolve_right hverified, List.reverse_nil, List.append_nil, List.append_nil]

/-! ## Creating the accounts -/

/-- The second loop, after the accounts of `names` have been created. -/
structure Creating (d : Directory) (db : Auth.Db) (names : List String) (s : Site) : Prop where
  auth : s.auth = db
  created : s.created = names
  grown : Grown d names s.maddy.directory
  quiet : NoRemoval s.maddy

def newEmails (records : List BootstrapRecord) : List String :=
  (records.filter (·.createAccount)).map (·.email)

/-- The accounts that the records ask for are new and different. -/
structure Targets (d : Directory) (names : List String) : Prop where
  nodup : names.Nodup
  fresh : ∀ name ∈ names, ∀ resource, name ∉ d.get resource

theorem Creating.broken {rest : List String} (h : Creating d db names s)
    (htargets : Targets d (names ++ rest)) : Broken d db e s := by
  refine ⟨h.auth, ?_, ?_, ?_⟩
  · rw [h.created]
    exact Left.of_grown h.quiet.spared h.grown
  · rw [h.created]
    exact (List.nodup_append.mp htargets.nodup).1
  · rw [h.created]
    exact fun name hname => htargets.fresh name (List.mem_append_left _ hname)

theorem createTarget_triple {record : BootstrapRecord} {rest : List String}
    (hcreate : record.createAccount = true) (htargets : Targets d (names ++ record.email :: rest)) :
    Exec.Triple (Creating d db names) (createTarget record)
      (fun _ => Creating d db (names ++ [record.email])) (fun e => Broken d db e) := by
  have hfresh := htargets.fresh record.email (List.mem_append_right _ List.mem_cons_self)
  obtain ⟨hnodup, -, hdisjoint⟩ := List.nodup_append.mp htargets.nodup
  have hnot : record.email ∉ names :=
    fun hmem => hdisjoint record.email hmem record.email List.mem_cons_self rfl
  unfold createTarget
  rw [if_pos hcreate]
  apply Exec.Triple.bind
  · apply (onMaddy_triple (createAccount_grows hfresh hnot)).conseq
    · exact fun s hs => ⟨⟨hs.grown, hs.quiet⟩, hs.auth, hs.created⟩
    · exact fun _ _ hs => hs
    · rintro e s ⟨e', rfl, hleft, hauth, hcreated⟩
      refine ⟨hauth, ?_, ?_, ?_⟩
      · rw [hcreated]
        exact hleft
      · rw [hcreated]
        exact hnodup
      · rw [hcreated]
        exact fun name hname => htargets.fresh name (List.mem_append_left _ hname)
  intro _
  apply Exec.Triple.update
  rintro s ⟨⟨hgrown, hquiet⟩, hauth, hcreated⟩
  exact ⟨hauth, by rw [hcreated], hgrown, hquiet⟩

theorem createTargets_triple (htargets : Targets d (names ++ newEmails records)) :
    Exec.Triple (Creating d db names) (records.forM createTarget)
      (fun _ => Creating d db (names ++ newEmails records)) (fun e => Broken d db e) := by
  induction records generalizing names with
  | nil =>
      apply Exec.Triple.ret
      intro s hs
      rwa [show newEmails [] = [] from rfl, List.append_nil]
  | cons record records ih =>
      show Exec.Triple _ (createTarget record >>= fun _ => records.forM createTarget) _ _
      cases hcreate : record.createAccount with
      | true =>
          have hemails : newEmails (record :: records) = record.email :: newEmails records := by
            unfold newEmails
            rw [List.filter_cons_of_pos hcreate, List.map_cons]
          rw [hemails] at htargets ⊢
          apply Exec.Triple.bind (createTarget_triple hcreate htargets)
          intro _
          rw [List.append_cons] at htargets
          have hrest := ih htargets
          rwa [← List.append_cons] at hrest
      | false =>
          have hemails : newEmails (record :: records) = newEmails records := by
            unfold newEmails
            rw [List.filter_cons_of_neg (by rw [hcreate]; exact Bool.false_ne_true)]
          rw [hemails] at htargets ⊢
          apply @Exec.Triple.bind _ _ _ _ _ fun _ => Creating d db names
          · unfold createTarget
            rw [hcreate, if_neg Bool.false_ne_true]
            exact Exec.Triple.ret fun _ hs => hs
          · exact fun _ => ih htargets

/-! ## The listing -/

theorem listAccounts_triple {casefold : String → String} :
    Exec.Triple (fun w => w.directory = d ∧ NoRemoval w) (listAccounts casefold)
      (fun accounts w => (∀ resource, ∀ name ∈ d.get resource, ∃ account ∈ accounts,
        account.username = name) ∧ w.directory = d ∧ NoRemoval w)
      (fun _ w => w.directory = d ∧ NoRemoval w) := by
  have hlist : ∀ resource, Exec.Triple (fun w => w.directory = d ∧ NoRemoval w)
      (listNames resource)
      (fun listed w => listed = d.get resource ∧ w.directory = d ∧ NoRemoval w)
      (fun _ w => w.directory = d ∧ NoRemoval w) := by
    intro resource
    apply invoke_triple
    · rintro w ⟨rfl, hw⟩
      exact ⟨rfl, rfl, hw.record fun _ _ => nofun⟩
    · rintro w e ⟨rfl, hw⟩ directory hdirectory
      exact ⟨hdirectory.elim id id, hw.record fun _ _ => nofun⟩
  unfold listAccounts
  apply Exec.Triple.bind (hlist .credentials)
  intro credentials
  apply Exec.Triple.assume
  rintro rfl
  apply Exec.Triple.bind (hlist .mailbox)
  intro mailboxes
  apply Exec.Triple.assume
  rintro rfl
  apply Exec.Triple.ret
  intro w hw
  refine ⟨?_, hw⟩
  intro resource name hname
  have hall : name ∈ d.get .credentials ++ d.get .mailbox := by
    cases resource with
    | credentials => exact List.mem_append_left _ hname
    | mailbox => exact List.mem_append_right _ hname
  have hsorted : name ∈ ((d.get .credentials ++ d.get .mailbox).eraseDups.mergeSort
      fun a b => casefold a ≤ casefold b) := by
    rw [List.mem_mergeSort, List.mem_eraseDups]
    exact hall
  exact ⟨_, List.mem_map_of_mem hsorted, rfl⟩

/-- A target that is to be created is not listed. -/
theorem not_listed_of_checkTarget {casefold : String → String} {accounts : List ListedAccount}
    {record : BootstrapRecord} (h : checkTarget casefold accounts record = .ok ())
    (hcreate : record.createAccount = true) :
    ∀ account ∈ accounts, account.username ≠ record.email := by
  intro account haccount heq
  unfold checkTarget at h
  rw [hcreate, if_pos rfl] at h
  have hsome : (findCurrent casefold accounts record.email).isSome = true := by
    apply List.find?_isSome.mpr
    refine ⟨account, List.mem_reverse.mpr haccount, ?_⟩
    rw [heq, beq_self_eq_true]
  rw [if_pos hsome] at h
  cases h

theorem checkTargets_eq_ok {casefold : String → String} {accounts : List ListedAccount}
    {u : PUnit} (h : records.forM (checkTarget casefold accounts) = .ok u) :
    ∀ record ∈ records, checkTarget casefold accounts record = .ok () := by
  induction records with
  | nil => exact nofun
  | cons record records ih =>
      have h : (checkTarget casefold accounts record >>= fun _ =>
        records.forM (checkTarget casefold accounts)) = .ok u := h
      obtain ⟨v, hrecord, hrest⟩ := Fallible.bind_eq_ok h
      intro other hother
      rcases List.mem_cons.mp hother with rfl | hother
      · exact hrecord
      · exact ih hrest other hother

/-! ## The import -/

variable {env : Auth.Env} {random : Auth.Random} {clock : Option Nat} {db' : Auth.Db}

/-- The account of the address is active, with this role and this secret. -/
def Imported (env : Auth.Env) (canonical : String) (role : Auth.Role) (required : Bool)
    (secret : Auth.Bytes) (db : Auth.Db) : Prop :=
  ∃ row nonce, db.accountByEmail canonical = some row ∧ row.enrollmentState = .active ∧
    row.role = role ∧ row.passwordChangeRequired = required ∧ row.totpNonce = some nonce ∧
    row.totpCiphertext = some (env.encrypt nonce secret row.accountId canonical)

def ImportedRecord (env : Auth.Env) (record : Auth.PreparedAccount) (db : Auth.Db) : Prop :=
  Imported env record.canonical record.role record.required record.secret db

theorem find?_map_if {rows : List Auth.AccountRow} {canonical : String}
    {set : Auth.AccountRow → Auth.AccountRow}
    (hset : ∀ row, (set row).canonicalEmail = row.canonicalEmail) (other : String) :
    (rows.map fun row => if row.canonicalEmail == canonical then set row else row).find?
        (·.canonicalEmail == other) =
      (rows.find? (·.canonicalEmail == other)).map fun row =>
        if row.canonicalEmail == canonical then set row else row := by
  rw [List.find?_map]
  congr 1
  apply congrArg (fun p => rows.find? p)
  funext row
  rw [Function.comp_apply]
  split
  · rw [hset]
  · rfl

/-- The row of one record; the rows of other addresses stay. -/
theorem upsertAccount_imports {now index : Nat} {record : Auth.PreparedAccount} {id : String}
    (h : Auth.upsertAccount env random now index record db = (.ok id, db')) :
    ImportedRecord env record db' ∧ ∀ other, other ≠ record.canonical →
      db'.accountByEmail other = db.accountByEmail other := by
  unfold Auth.upsertAccount at h
  dsimp only at h
  rw [Exec.inspect_bind] at h
  cases hexisting : db.accountByEmail record.canonical with
  | none =>
      rw [hexisting] at h
      obtain ⟨accountId, -, h⟩ := Exec.require_bind_eq_ok h
      rw [Exec.update_bind] at h
      obtain ⟨rfl, rfl⟩ := Exec.ret_eq_ok h
      have hnone : db.accounts.find? (·.canonicalEmail == record.canonical) = none := hexisting
      constructor
      · refine ⟨(Auth.newAccountRow id record.canonical record.role record.required now).activated
          (random.nonce index) (env.encrypt (random.nonce index) record.secret id record.canonical),
          random.nonce index, ?_, rfl, rfl, rfl, rfl, rfl⟩
        show (db.accounts ++ [_]).find? _ = _
        rw [List.find?_append, hnone, Option.none_or]
        exact List.find?_cons_of_pos (beq_self_eq_true _)
      · intro other hother
        show (db.accounts ++ [_]).find? _ = db.accounts.find? _
        rw [List.find?_append, List.find?_cons_of_neg, List.find?_nil, Option.or_none]
        rw [beq_iff_eq]
        exact fun heq => hother heq.symm
  | some existing =>
      rw [hexisting] at h
      dsimp only at h
      rw [Exec.update_bind] at h
      obtain ⟨rfl, rfl⟩ := Exec.ret_eq_ok h
      have hsome : db.accounts.find? (·.canonicalEmail == record.canonical) = some existing :=
        hexisting
      have hcanonical : existing.canonicalEmail = record.canonical := by
        have hfound := List.find?_some hsome
        exact beq_iff_eq.mp hfound
      have hfind := @find?_map_if db.accounts record.canonical
        (Auth.AccountRow.imported record (random.nonce index)
          (env.encrypt (random.nonce index) record.secret existing.accountId record.canonical) now)
        fun _ => rfl
      constructor
      · refine ⟨existing.imported record (random.nonce index) (env.encrypt (random.nonce index)
          record.secret existing.accountId record.canonical) now, random.nonce index, ?_, rfl, rfl,
          rfl, rfl, rfl⟩
        refine (hfind record.canonical).trans ?_
        rw [hsome, Option.map_some, hcanonical, beq_self_eq_true, if_pos rfl]
      · intro other hother
        refine (hfind other).trans ?_
        show Option.map _ (db.accounts.find? _) = db.accounts.find? _
        cases hfound : db.accounts.find? (·.canonicalEmail == other) with
        | none => rfl
        | some row =>
            have hrow := List.find?_some hfound
            have hrow : row.canonicalEmail = other := beq_iff_eq.mp hrow
            rw [Option.map_some, if_neg]
            rw [hrow, beq_iff_eq]
            exact hother

def SameAccounts (db db' : Auth.Db) : Prop := db'.accounts = db.accounts

theorem sameAccounts_composes : Exec.Composes SameAccounts where
  refl _ := rfl
  trans h₁ h₂ := h₂.trans h₁

theorem storeRecoveryCodes_accounts (accountId : String) (codes : List String) (now : Nat) :
    Exec.Moves SameAccounts (Auth.storeRecoveryCodes env accountId codes now) := by
  have hR := sameAccounts_composes
  apply hR.forM
  intro code
  unfold Auth.storeRecoveryCode Auth.requireRecoveryCode
  apply hR.bind (hR.require _ _)
  intro normalized
  apply hR.bind (hR.inspect _)
  intro found
  apply hR.bind (hR.ensure _ _)
  intro _
  exact Exec.Moves.update fun _ => rfl

theorem importAccount_imports {now index : Nat} {record : Auth.PreparedAccount}
    {account : Auth.Account}
    (h : Auth.importAccount env random now index record db = (.ok account, db')) :
    ImportedRecord env record db' ∧ ∀ other, other ≠ record.canonical →
      db'.accountByEmail other = db.accountByEmail other := by
  unfold Auth.importAccount at h
  obtain ⟨accountId, db₁, hupsert, h⟩ := Exec.bind_eq_ok h
  rw [Exec.update_bind] at h
  obtain ⟨u, db₂, hcodes, h⟩ := Exec.bind_eq_ok h
  rw [Exec.update_bind] at h
  obtain ⟨row, -, h⟩ := Exec.require_bind_eq_ok h
  obtain ⟨-, rfl⟩ := Exec.ret_eq_ok h
  have hsame : SameAccounts db₁ db₂ := by
    have hmoves := @storeRecoveryCodes_accounts env accountId record.recoveryCodes now
      (db₁.deleteCodes accountId)
    rw [hcodes] at hmoves
    exact hmoves
  obtain ⟨himported, hothers⟩ := upsertAccount_imports hupsert
  have hfind : ∀ canonical, (db₂.deleteAuthentication accountId).accountByEmail canonical =
      db₁.accountByEmail canonical := by
    intro canonical
    show db₂.accounts.find? _ = db₁.accounts.find? _
    rw [hsame]
  constructor
  · obtain ⟨row, nonce, hrow, hfields⟩ := himported
    exact ⟨row, nonce, (hfind _).trans hrow, hfields⟩
  · exact fun other hother => (hfind other).trans (hothers other hother)

theorem importAccounts_imports {now index : Nat} {prepared : List Auth.PreparedAccount}
    {accounts : List Auth.Account} (hnodup : (prepared.map (·.canonical)).Nodup)
    (h : Exec.forEach (Auth.importAccount env random now) index prepared db =
      (.ok accounts, db')) :
    (∀ record ∈ prepared, ImportedRecord env record db') ∧
      ∀ other, other ∉ prepared.map (·.canonical) →
        db'.accountByEmail other = db.accountByEmail other := by
  induction prepared generalizing db index accounts with
  | nil =>
      obtain ⟨-, rfl⟩ := Exec.ret_eq_ok h
      exact ⟨nofun, fun _ _ => rfl⟩
  | cons record prepared ih =>
      rw [Exec.forEach_cons] at h
      obtain ⟨account, db₁, hfirst, h⟩ := Exec.bind_eq_ok h
      obtain ⟨rest, db₂, hrest, h⟩ := Exec.bind_eq_ok h
      obtain ⟨-, rfl⟩ := Exec.ret_eq_ok h
      rw [List.map_cons, List.nodup_cons] at hnodup
      obtain ⟨himported, hothers⟩ := importAccount_imports hfirst
      obtain ⟨hall, hkept⟩ := ih hnodup.2 hrest
      constructor
      · intro other hother
        rcases List.mem_cons.mp hother with rfl | hother
        · obtain ⟨row, nonce, hrow, hfields⟩ := himported
          exact ⟨row, nonce, (hkept _ hnodup.1).trans hrow, hfields⟩
        · exact hall other hother
      · intro other hother
        rw [List.map_cons, List.mem_cons, not_or] at hother
        exact (hkept other hother.2).trans (hothers other hother.1)

/-- The records that the store prepares are those of the command. -/
theorem prepareRecords_eq_ok {seen : List String} {prepared : List Auth.PreparedAccount}
    (hvalid : ∀ record ∈ records, ValidRecord record)
    (h : Auth.prepareRecords seen (records.map (·.toAuth)) = .ok prepared) :
    prepared.map (·.canonical) = records.map (·.email) ∧ ∀ record ∈ records, ∃ p ∈ prepared,
      p.canonical = record.email ∧ p.role = record.role ∧
      p.required = record.passwordChangeRequired ∧
      Auth.decodeTotpSecret record.totpSecret = some p.secret := by
  induction records generalizing seen prepared with
  | nil =>
      cases h
      exact ⟨rfl, nofun⟩
  | cons record records ih =>
      have hemail := (hvalid record List.mem_cons_self).canonicalizeEmail_eq
      rw [List.map_cons] at h
      unfold Auth.prepareRecords at h
      rw [show record.toAuth.email = record.email from rfl, hemail] at h
      dsimp only at h
      split at h
      · cases h
      · cases hsecret : Auth.decodeTotpSecret record.toAuth.totpSecret with
        | none =>
            rw [hsecret] at h
            cases h
        | some secret =>
            rw [hsecret] at h
            obtain ⟨codes, -, h⟩ := Fallible.bind_eq_ok h
            obtain ⟨rest, hrest, h⟩ := Fallible.bind_eq_ok h
            cases h
            obtain ⟨hemails, hall⟩ := ih (fun other hother =>
              hvalid other (List.mem_cons_of_mem _ hother)) hrest
            constructor
            · rw [List.map_cons, List.map_cons, hemails]
            · intro other hother
              rcases List.mem_cons.mp hother with rfl | hother
              · exact ⟨_, List.mem_cons_self, rfl, rfl, rfl, hsecret⟩
              · obtain ⟨p, hp, hfields⟩ := hall other hother
                exact ⟨p, List.mem_cons_of_mem _ hp, hfields⟩

/-- The record of the command is in the store. -/
def BootstrapRecord.ImportedIn (env : Auth.Env) (db : Auth.Db) (record : BootstrapRecord) : Prop :=
  ∃ secret, Auth.decodeTotpSecret record.totpSecret = some secret ∧
    Imported env record.email record.role record.passwordChangeRequired secret db

theorem bootstrapActiveAccounts_imports {accounts : List Auth.Account}
    (hvalid : ∀ record ∈ records, ValidRecord record) (hnodup : (records.map (·.email)).Nodup)
    (h : Auth.bootstrapActiveAccounts env random clock (records.map (·.toAuth)) db =
      (.ok accounts, db')) : ∀ record ∈ records, record.ImportedIn env db' := by
  unfold Auth.bootstrapActiveAccounts Auth.readClock at h
  obtain ⟨prepared, hprepared, h⟩ := Exec.ofExcept_bind_eq_ok h
  obtain ⟨-, h⟩ := Exec.ensure_bind_eq_ok h
  obtain ⟨now, -, h⟩ := Exec.require_bind_eq_ok h
  have h := Exec.atomically_eq_ok h
  obtain ⟨hemails, hall⟩ := prepareRecords_eq_ok hvalid hprepared
  have himported := (importAccounts_imports (hemails ▸ hnodup) h).1
  intro record hrecord
  obtain ⟨p, hp, hcanonical, hrole, hrequired, hsecret⟩ := hall record hrecord
  refine ⟨p.secret, hsecret, ?_⟩
  rw [← hcanonical, ← hrole, ← hrequired]
  exact himported p hp

theorem bootstrapActiveAccounts_rolls (records : List Auth.AccountBootstrap) :
    Exec.Rolls (Auth.bootstrapActiveAccounts env random clock records) := by
  unfold Auth.bootstrapActiveAccounts Auth.readClock
  apply Exec.Rolls.ofExcept_bind
  intro prepared
  apply Exec.Rolls.ensure_bind
  intro _
  apply Exec.Rolls.require_bind
  exact fun now => Exec.Rolls.atomically _

/-! ## The command -/

/-- The outcome of a command that returns. -/
structure Completed (env : Auth.Env) (d : Directory) (records : List BootstrapRecord) (s : Site) :
    Prop where
  created : s.created = newEmails records
  grown : Grown d (newEmails records) s.maddy.directory
  quiet : NoRemoval s.maddy
  imported : ∀ record ∈ records, record.ImportedIn env s.auth

theorem targets_of_checked {casefold : String → String} {accounts : List ListedAccount}
    (hnodup : (records.map (·.email)).Nodup)
    (hlisted : ∀ resource, ∀ name ∈ d.get resource, ∃ account ∈ accounts, account.username = name)
    (hchecked : ∀ record ∈ records, checkTarget casefold accounts record = .ok ()) :
    Targets d (newEmails records) := by
  refine ⟨hnodup.sublist (List.filter_sublist.map _), ?_⟩
  intro name hname resource hmem
  obtain ⟨record, hrecord, rfl⟩ := List.mem_map.mp hname
  obtain ⟨hrecord, hcreate⟩ := List.mem_filter.mp hrecord
  obtain ⟨account, haccount, heq⟩ := hlisted resource record.email hmem
  exact not_listed_of_checkTarget (hchecked record hrecord) hcreate account haccount heq

theorem importRecords_triple {setup : Setup} {casefold : String → String}
    (hvalid : ∀ record ∈ records, ValidRecord record) (hnodup : (records.map (·.email)).Nodup) :
    Exec.Triple (Creating d db []) (importRecords setup casefold env random clock records)
      (fun _ => Completed env d records) (fun e => Broken d db e) := by
  have hempty : Targets d ([] ++ []) := ⟨List.nodup_nil, nofun⟩
  unfold importRecords
  apply Exec.Triple.ensure_bind fun s hs => hs.broken hempty
  intro _
  apply @Exec.Triple.bind _ _ _ _ _ fun accounts s =>
    (∀ resource, ∀ name ∈ d.get resource, ∃ account ∈ accounts, account.username = name) ∧
      Creating d db [] s
  · have hgrown : ∀ {w : World}, w.directory = d → Grown d [] w.directory := by
      intro w hw resource
      rw [hw, List.append_nil]
    apply (onMaddy_triple listAccounts_triple).conseq
    · intro s hs
      refine ⟨⟨?_, hs.quiet⟩, hs.auth, hs.created⟩
      apply directory_ext
      intro resource
      rw [hs.grown resource, List.append_nil]
    · rintro accounts s ⟨⟨hlisted, hdirectory, hquiet⟩, hauth, hcreated⟩
      exact ⟨hlisted, hauth, hcreated, hgrown hdirectory, hquiet⟩
    · rintro e s ⟨e', rfl, ⟨hdirectory, hquiet⟩, hauth, hcreated⟩
      have hs : Creating d db [] s := ⟨hauth, hcreated, hgrown hdirectory, hquiet⟩
      exact hs.broken hempty
  intro accounts
  apply Exec.Triple.assume
  intro hlisted
  apply Exec.Triple.ofExcept_bind
  · exact fun e s hs => hs.broken hempty
  intro _ hchecked
  have htargets := targets_of_checked hnodup hlisted (checkTargets_eq_ok hchecked)
  apply Exec.Triple.bind (createTargets_triple htargets)
  intro _
  apply @Exec.Triple.bind _ _ _ _ _ fun _ => Completed env d records
  · intro s hs
    unfold onAuth Exec.focus
    rcases hrun : Auth.bootstrapActiveAccounts env random clock (records.map (·.toAuth)) s.auth with
      ⟨e | accounts, db'⟩
    · rw [hrun]
      have hsame := bootstrapActiveAccounts_rolls _ _ _ _ hrun
      have hs' : Creating d db ([] ++ newEmails records) { s with auth := db' } :=
        ⟨hsame.trans hs.auth, hs.created, hs.grown, hs.quiet⟩
      exact @Creating.broken d db _ _ _ [] hs' (by rwa [List.append_nil])
    · rw [hrun]
      exact ⟨hs.created, hs.grown, hs.quiet, bootstrapActiveAccounts_imports hvalid hnodup hrun⟩
  · exact fun _ => Exec.Triple.ret fun _ hs => hs

theorem Creating.undone (h : Creating d db [] s) : Undone d db e s := by
  have hdirectory : s.maddy.directory = d := by
    apply directory_ext
    intro resource
    rw [h.grown resource, List.append_nil]
  refine ⟨h.auth, h.quiet.spared, ?_, Or.inl hdirectory⟩
  rw [hdirectory]
  exact fun _ _ hname => hname

/-- What the command leaves behind: the number that it reports is that of the accounts which it
has created. -/
theorem runAuthBootstrap_triple {setup : Setup} {casefold : String → String}
    {values : List Fields} :
    Exec.Triple (Creating d db []) (runAuthBootstrap setup casefold env random clock values)
      (fun count s => ∃ records, validatedBootstrapRecords [] values = .ok records ∧
        count = (newEmails records).length ∧ Completed env d records s)
      (fun e => Undone d db e) := by
  unfold runAuthBootstrap
  apply Exec.Triple.ensure_bind fun s hs => hs.undone
  intro _
  apply Exec.Triple.ofExcept_bind fun e s hs => hs.undone
  intro records hrecords
  obtain ⟨hvalid, hnodup⟩ := validatedBootstrapRecords_eq_ok hrecords
  apply Exec.Triple.ensure_bind fun s hs => hs.undone
  intro _
  apply @Exec.Triple.bind _ _ _ _ _ fun _ => Creating d db []
  · exact Exec.Triple.update fun s hs => ⟨hs.auth, rfl, hs.grown, hs.quiet⟩
  intro _
  apply @Exec.Triple.bind _ _ _ _ _ fun _ => Completed env d records
  · apply Exec.Triple.handle
      (importRecords_triple (fun record hrecord => (hvalid record hrecord).1) hnodup)
    intro e
    exact undoCreated_triple.conseq (fun _ hs => hs) (fun _ _ hs => hs.elim) fun _ _ hs => hs
  intro _
  apply @Exec.Triple.bind _ _ _ _ _ fun created s =>
    created = newEmails records ∧ Completed env d records s
  · exact Exec.Triple.inspect fun s hs => ⟨hs.created, hs⟩
  intro created
  apply Exec.Triple.ret
  rintro s ⟨rfl, hs⟩
  exact ⟨records, hrecords, rfl, hs⟩

/-- Whatever the commands of a run do, the bootstrap ends with all accounts and all records, or
with the auth store as it was and the directory as it was, or with an error that does not promise
the latter; no name of the directory is removed. -/
theorem auth_bootstrap_all_or_nothing (setup : Setup) (casefold : String → String) (env : Auth.Env)
    (random : Auth.Random) (clock : Option Nat) (values : List Fields) (d : Directory)
    (reactions : Nat → Reaction) (db : Auth.Db) :
    let outcome :=
      runAuthBootstrap setup casefold env random clock values ⟨start d reactions, db, []⟩
    Spared d outcome.2.maddy ∧
      (∀ resource, ∀ name ∈ d.get resource, name ∈ outcome.2.maddy.directory.get resource) ∧
      (∀ count, outcome.1 = .ok count → ∃ records,
        validatedBootstrapRecords [] values = .ok records ∧ count = (newEmails records).length ∧
        ∀ record ∈ records,
          (record.createAccount = true →
            ∀ resource, record.email ∈ outcome.2.maddy.directory.get resource) ∧
          record.ImportedIn env outcome.2.auth) ∧
      ∀ e, outcome.1 = .error e →
        outcome.2.auth = db ∧ (outcome.2.maddy.directory = d ∨ Unverified e) := by
  intro outcome
  have hstart : Creating d db [] ⟨start d reactions, db, []⟩ := by
    refine ⟨rfl, rfl, ?_, fun _ _ => nofun⟩
    exact fun resource => (List.append_nil _).symm
  have htriple := @runAuthBootstrap_triple d db env random clock setup casefold values _ hstart
  rcases hrun : runAuthBootstrap setup casefold env random clock values ⟨start d reactions, db, []⟩
    with ⟨e | count, s⟩
  · have hundone : Undone d db e s := by simpa [hrun] using htriple
    rw [show outcome = (.error e, s) from hrun]
    refine ⟨hundone.spared, hundone.kept, nofun, ?_⟩
    rintro _ ⟨⟩
    exact ⟨hundone.auth, hundone.restored⟩
  · have hdone : ∃ records, validatedBootstrapRecords [] values = .ok records ∧
        count = (newEmails records).length ∧ Completed env d records s := by
      simpa [hrun] using htriple
    obtain ⟨records, hrecords, hcount, hdone⟩ := hdone
    rw [show outcome = (.ok count, s) from hrun]
    refine ⟨hdone.quiet.spared, ?_, ?_, nofun⟩
    · intro resource name hname
      rw [hdone.grown resource]
      exact List.mem_append_left _ hname
    · rintro _ ⟨⟩
      refine ⟨records, hrecords, hcount, ?_⟩
      intro record hrecord
      refine ⟨?_, hdone.imported record hrecord⟩
      intro hcreate resource
      rw [hdone.grown resource]
      apply List.mem_append_right
      exact List.mem_map_of_mem (List.mem_filter.mpr ⟨hrecord, hcreate⟩)

end MaddyWeb.Cli.Bootstrap
