import MaddyWeb.Certificates.Renewal

/-!
# What a renewal reports and what it has done

`Disk` is the part of the world that the reports are about, with the list of replacements,
removals and reloads.
-/

namespace MaddyWeb.Certificates.Renewal

open MaddyWeb.Library

variable {m : Manager} {name : String} {w w' : World} {kind : Kind} {data : Bytes} {old : Pair}

structure Disk where
  source : Pair
  deployed : Pair
  events : List Event

def World.disk (w : World) : Disk := ⟨w.source, w.deployed, w.events⟩

def Disk.replace (kind : Kind) (content : Bytes) (d : Disk) : Disk :=
  ⟨d.source, d.deployed.set (some content) kind, d.events ++ [.replaced kind content]⟩

def Disk.remove (kind : Kind) (d : Disk) : Disk :=
  ⟨d.source, d.deployed.set none kind, d.events ++ [.removed kind]⟩

def Disk.reload (d : Disk) : Disk := ⟨d.source, d.deployed, d.events ++ [.reloaded]⟩

/-- An error that reports nothing about the deployed files. -/
def Plain (e : CertificateError) : Prop :=
  e ≠ restoredError ∧ e ≠ restoredReloadedError ∧ e ≠ rollbackFailedError

theorem plain_operation : Plain .operation := by
  unfold Plain
  decide

/-! ## Steps that change no file -/

abbrev Quiet {α : Type} (m : Program α) : Prop := Exec.Quiet World.disk Plain m

theorem operate_cases {effect : World → World} {r : Except CertificateError Unit}
    (h : operate effect w = (r, w')) :
    (r = .ok () ∧ w' = effect { w with issued := w.issued + 1 }) ∨
      (r = .error .operation ∧ (w' = { w with issued := w.issued + 1 } ∨
        w' = effect { w with issued := w.issued + 1 })) := by
  unfold operate at h
  dsimp only at h
  split at h
  · cases h
    refine Or.inr ⟨rfl, ?_⟩
    split
    · exact Or.inr rfl
    · exact Or.inl rfl
  · cases h
    exact Or.inl ⟨rfl, rfl⟩

theorem operate_quiet {γ : Type} {view : World → γ} {effect : World → World}
    (hissued : ∀ w n, view { w with issued := n } = view w)
    (heffect : ∀ w, view (effect w) = view w) : Exec.Quiet view Plain (operate effect) := by
  intro w r w' h
  rcases operate_cases h with ⟨rfl, rfl⟩ | ⟨rfl, rfl | rfl⟩
  · exact ⟨(heffect _).trans (hissued _ _), nofun⟩
  · refine ⟨hissued _ _, ?_⟩
    intro e he
    cases he
    exact plain_operation
  · refine ⟨(heffect _).trans (hissued _ _), ?_⟩
    intro e he
    cases he
    exact plain_operation

theorem attempt_quiet : Quiet attempt := operate_quiet (fun _ _ => rfl) fun _ => rfl

theorem attempt_run : attempt w = (if (w.reactions w.issued).raises then .error .operation
    else .ok (), { w with issued := w.issued + 1 }) := by
  unfold attempt operate
  dsimp only
  split
  · simp
  · rfl

theorem inspect_quiet (pair : World → Pair) : Quiet (inspect m pair) := by
  apply (Exec.Quiet.inspect _).bind
  intro _
  apply attempt_quiet.bind
  intro _
  apply (Exec.Quiet.inspect _).bind
  intro _
  exact (Exec.Quiet.ret _).ite (Exec.Quiet.inspect _)

theorem status_quiet : Quiet (status m) := by
  apply (inspect_quiet _).bind
  intro source
  apply (inspect_quiet _).bind
  intro deployed
  apply Exec.Quiet.bind
  · exact (attempt_quiet.bind fun _ => Exec.Quiet.ret _).handle fun _ => Exec.Quiet.ret _
  · intro _
    exact attempt_quiet.bind fun _ => attempt_quiet.bind fun _ => Exec.Quiet.ret _

theorem targetExists_quiet : Quiet (targetExists kind) :=
  attempt_quiet.bind fun _ => Exec.Quiet.inspect _

theorem bounded_plain {value : Option Bytes} {e : CertificateError}
    (h : bounded kind value = .error e) : Plain e := by
  have he : e = .validation "configured file has an invalid size" := by
    unfold bounded at h
    split at h
    · cases h
      rfl
    · split at h
      · cases h
      · cases h
        rfl
  rw [he]
  unfold Plain
  decide

theorem readSource_quiet : Quiet (readSource kind) := by
  apply attempt_quiet.bind
  intro _
  apply (Exec.Quiet.inspect _).bind
  intro value
  exact Exec.Quiet.ofExcept fun e he => bounded_plain he

theorem readDeployed_quiet : Quiet (readDeployed kind) := by
  apply attempt_quiet.bind
  intro _
  apply (Exec.Quiet.inspect _).bind
  intro value
  exact Exec.Quiet.ofExcept fun e he => bounded_plain he

theorem validatePair_quiet {certificate privateKey : Bytes} :
    Quiet (validatePair m certificate privateKey) :=
  attempt_quiet.bind fun _ => Exec.Quiet.ensure (by unfold Plain; decide)

theorem readOld_quiet : Quiet (readOld kind) := by
  apply targetExists_quiet.bind
  intro present
  exact (readDeployed_quiet.bind fun _ => Exec.Quiet.ret _).ite (Exec.Quiet.ret _)

theorem isBack_quiet : Quiet (isBack old kind) := by
  unfold isBack
  split
  · exact targetExists_quiet.bind fun _ => Exec.Quiet.ret _
  · exact readDeployed_quiet.bind fun _ => Exec.Quiet.ret _

/-! ## One file -/

theorem writeAll_quiet (fuel : Nat) (view : Bytes) : Quiet (writeAll fuel view) := by
  induction fuel generalizing view with
  | zero => exact Exec.Quiet.ret _
  | succ fuel ih =>
      unfold writeAll
      apply (Exec.Quiet.ret _).ite
      apply (Exec.Quiet.inspect _).bind
      intro index
      apply (Exec.Quiet.inspect _).bind
      intro written
      apply Exec.Quiet.bind (operate_quiet (fun _ _ => rfl) ?_)
      · intro _
        apply (Exec.Quiet.ensure plain_operation).bind
        intro _
        exact ih _
      · exact fun _ => rfl

/-- The whole view has been written, since every pass writes a byte. -/
theorem writeAll_eq_ok {fuel : Nat} {view : Bytes} {u : Unit} (hfuel : view.length ≤ fuel)
    (h : writeAll fuel view w = (.ok u, w')) : w'.temp = w.temp ++ view := by
  induction fuel generalizing view w with
  | zero =>
      have hview : view = [] := List.length_eq_zero_iff.mp (by omega)
      obtain ⟨-, rfl⟩ := Exec.ret_eq_ok h
      rw [hview, List.append_nil]
  | succ fuel ih =>
      unfold writeAll at h
      split at h
      · next hview =>
          rw [List.isEmpty_iff] at hview
          obtain ⟨-, rfl⟩ := Exec.ret_eq_ok h
          rw [hview, List.append_nil]
      · rw [Exec.inspect_bind, Exec.inspect_bind] at h
        obtain ⟨_, w₁, hwrite, h⟩ := Exec.bind_eq_ok h
        obtain ⟨hprogress, h⟩ := Exec.ensure_bind_eq_ok h
        rw [decide_eq_true_eq] at hprogress
        rcases operate_cases hwrite with ⟨-, rfl⟩ | ⟨hcontra, -⟩
        · have hrest := ih (by rw [List.length_drop]; omega) h
          rw [hrest, List.append_assoc, List.take_append_drop]
        · cases hcontra

theorem attempt_temp {r : Except CertificateError Unit} (h : attempt w = (r, w')) :
    w'.temp = w.temp := by
  rcases operate_cases h with ⟨-, rfl⟩ | ⟨-, rfl | rfl⟩ <;> rfl

theorem changeOwner_quiet : Quiet (changeOwner m) := attempt_quiet.ite (Exec.Quiet.ret ())

theorem stage_quiet : Quiet (stage m data) := by
  apply attempt_quiet.bind
  intro _
  apply Exec.Quiet.bind (operate_quiet (fun _ _ => rfl) ?_)
  · intro _
    apply Exec.Quiet.bind (Exec.Quiet.update ?_)
    · intro _
      apply (writeAll_quiet _ _).bind
      intro _
      apply attempt_quiet.bind
      intro _
      apply attempt_quiet.bind
      intro _
      apply changeOwner_quiet.bind
      intro _
      apply attempt_quiet.bind
      intro _
      apply Exec.Quiet.update
      exact fun _ => rfl
    · exact fun _ => rfl
  · exact fun _ => rfl

/-- The staged file holds all the bytes. -/
theorem stage_eq_ok {u : Unit} (h : stage m data w = (.ok u, w')) : w'.temp = data := by
  unfold stage at h
  obtain ⟨_, w₁, -, h₁⟩ := Exec.bind_eq_ok h
  obtain ⟨_, w₂, hopen, h₂⟩ := Exec.bind_eq_ok h₁
  rw [Exec.update_bind] at h₂
  obtain ⟨_, w₃, hwrite, h₃⟩ := Exec.bind_eq_ok h₂
  obtain ⟨_, w₄, hsync, h₄⟩ := Exec.bind_eq_ok h₃
  obtain ⟨_, w₅, hmode, h₅⟩ := Exec.bind_eq_ok h₄
  obtain ⟨_, w₆, howner, h₆⟩ := Exec.bind_eq_ok h₅
  obtain ⟨_, w₇, hclose, h₇⟩ := Exec.bind_eq_ok h₆
  have hempty : w₂.temp = [] := by
    rcases operate_cases hopen with ⟨-, rfl⟩ | ⟨hcontra, -⟩
    · rfl
    · cases hcontra
  have hwritten : w₃.temp = data := by
    rw [writeAll_eq_ok (Nat.le_refl _) hwrite]
    show w₂.temp ++ data = data
    rw [hempty, List.nil_append]
  have howned : w₆.temp = w₅.temp := by
    unfold changeOwner at howner
    split at howner
    · exact attempt_temp howner
    · obtain ⟨-, rfl⟩ := Exec.ret_eq_ok howner
      rfl
  cases h₇
  show w₇.temp = data
  rw [attempt_temp hclose, howned, attempt_temp hmode, attempt_temp hsync, hwritten]

/-- A copy that returns has replaced the file; one that raises may have. -/
def Copied (kind : Kind) (data : Bytes) (d : Disk) (r : Except CertificateError Unit) (d' : Disk) :
    Prop :=
  (r = .ok () ∧ d' = d.replace kind data) ∨
    ∃ e, r = .error e ∧ Plain e ∧ (d' = d ∨ d' = d.replace kind data)

theorem Copied.raised {e : CertificateError} {d d' : Disk}
    (h : Copied kind data d (.error e) d') : Plain e ∧ (d' = d ∨ d' = d.replace kind data) := by
  rcases h with ⟨hcontra, -⟩ | ⟨e', he', h⟩
  · cases hcontra
  · cases he'
    exact h

theorem Copied.may {r : Except CertificateError Unit} {d d' : Disk} (h : Copied kind data d r d') :
    d' = d ∨ d' = d.replace kind data := by
  rcases h with ⟨-, h⟩ | ⟨e, -, -, h⟩
  · exact Or.inr h
  · exact h

theorem stageAndReplace_copied {r : Except CertificateError Unit}
    (h : stageAndReplace m kind data w = (r, w')) : Copied kind data w.disk r w'.disk := by
  unfold stageAndReplace at h
  rcases Exec.bind_cases h with ⟨e, hstage, rfl⟩ | ⟨_, w₁, hstage, h₁⟩
  · exact Or.inr ⟨e, rfl, stage_quiet.error hstage, Or.inl (stage_quiet.state hstage)⟩
  have htemp := stage_eq_ok hstage
  have hdisk := stage_quiet.state hstage
  have hreplace : ({ w₁ with issued := w₁.issued + 1 }.replace kind).disk =
      w.disk.replace kind data := by
    rw [← hdisk, ← htemp]
    rfl
  rcases Exec.bind_cases h₁ with ⟨e, hrun, rfl⟩ | ⟨_, w₂, hrun, h₂⟩
  · rcases operate_cases hrun with ⟨hcontra, -⟩ | ⟨he, rfl | rfl⟩
    · cases hcontra
    · cases he
      exact Or.inr ⟨_, rfl, plain_operation, Or.inl hdisk⟩
    · cases he
      exact Or.inr ⟨_, rfl, plain_operation, Or.inr hreplace⟩
  rcases operate_cases hrun with ⟨-, rfl⟩ | ⟨hcontra, -⟩
  · have hsynced := (attempt_quiet.state h₂).trans hreplace
    rcases r with e | u
    · exact Or.inr ⟨e, rfl, attempt_quiet.error h₂, Or.inr hsynced⟩
    · exact Or.inl ⟨rfl, hsynced⟩
  · cases hcontra

theorem closeStaged_quiet : Quiet closeStaged :=
  (Exec.Quiet.inspect _).bind fun _ => attempt_quiet.ite (Exec.Quiet.ret ())

theorem dropStaged_quiet {e : CertificateError} (he : Plain e) : Quiet (dropStaged e) := by
  apply closeStaged_quiet.bind
  intro _
  exact attempt_quiet.bind fun _ => Exec.Quiet.raise he

theorem dropStaged_ne_ok {e : CertificateError} {u : Unit} : dropStaged e w ≠ (.ok u, w') := by
  intro h
  unfold dropStaged at h
  obtain ⟨_, w₁, -, h⟩ := Exec.bind_eq_ok h
  obtain ⟨_, w₂, -, h⟩ := Exec.bind_eq_ok h
  cases h

/-- Dropping the staged file changes neither file. -/
theorem staged_copied {r : Except CertificateError Unit}
    (h : Exec.handle (stageAndReplace m kind data) dropStaged w = (r, w')) :
    Copied kind data w.disk r w'.disk := by
  rcases Exec.handle_cases h with ⟨u, hrun, rfl⟩ | ⟨e, w₁, hrun, hdrop⟩
  · exact stageAndReplace_copied hrun
  · obtain ⟨hplain, hmay⟩ := (stageAndReplace_copied hrun).raised
    rw [← (dropStaged_quiet hplain).state hdrop] at hmay
    rcases r with e₁ | u
    · exact Or.inr ⟨e₁, rfl, (dropStaged_quiet hplain).error hdrop, hmay⟩
    · exact absurd hdrop dropStaged_ne_ok

theorem atomicCopy_copied {r : Except CertificateError Unit}
    (h : atomicCopy m kind data w = (r, w')) : Copied kind data w.disk r w'.disk := by
  unfold atomicCopy at h
  rcases Exec.bind_cases h with ⟨e, hopen, rfl⟩ | ⟨_, w₁, hopen, h₁⟩
  · exact Or.inr ⟨e, rfl, attempt_quiet.error hopen, Or.inl (attempt_quiet.state hopen)⟩
  rw [Exec.update_bind] at h₁
  obtain ⟨r₁, w₂, r₂, hbody, hclose, hr⟩ := Exec.finallyDo_cases h₁
  have hcopied := staged_copied hbody
  have hopened : w₁.disk = w.disk := attempt_quiet.state hopen
  rw [show ({ w₁ with descriptor := false } : World).disk = w.disk from hopened,
    ← attempt_quiet.state hclose] at hcopied
  rcases hr with ⟨rfl, -⟩ | ⟨e, rfl, rfl⟩
  · exact hcopied
  · exact Or.inr ⟨e, rfl, attempt_quiet.error hclose, hcopied.may⟩

/-- A removal that returns has removed the file; one that raises may have. -/
def Removed (kind : Kind) (d : Disk) (r : Except CertificateError Unit) (d' : Disk) : Prop :=
  (∀ u, r = .ok u → d'.deployed = d.deployed.set none kind) ∧ (d' = d ∨ d' = d.remove kind)

theorem set_get {p : Pair} {content : Option Bytes} (h : p.get kind = content) :
    p.set content kind = p := by
  subst h
  cases kind <;> rfl

theorem removePresent_removed {r : Except CertificateError Unit}
    (h : removePresent kind w = (r, w')) : Removed kind w.disk r w'.disk := by
  unfold removePresent at h
  rcases Exec.bind_cases h with ⟨e, hopen, rfl⟩ | ⟨_, w₁, hopen, h₁⟩
  · exact ⟨nofun, Or.inl (attempt_quiet.state hopen)⟩
  have hopened : w₁.disk = w.disk := attempt_quiet.state hopen
  rw [Exec.inspect_bind] at h₁
  rw [← hopened]
  split at h₁
  · rcases Exec.bind_cases h₁ with ⟨e, hrun, rfl⟩ | ⟨_, w₂, hrun, h₂⟩
    · rcases operate_cases hrun with ⟨hcontra, -⟩ | ⟨-, rfl | rfl⟩
      · cases hcontra
      · exact ⟨nofun, Or.inl rfl⟩
      · exact ⟨nofun, Or.inr rfl⟩
    · rcases operate_cases hrun with ⟨-, rfl⟩ | ⟨hcontra, -⟩
      · have hsynced := attempt_quiet.state h₂
        refine ⟨?_, Or.inr hsynced⟩
        intro _ _
        rw [hsynced]
        rfl
      · cases hcontra
  · next habsent =>
      cases h₁
      rw [Bool.not_eq_true, Option.isSome_eq_false_iff, Option.isNone_iff_eq_none] at habsent
      refine ⟨?_, Or.inl rfl⟩
      intro _ _
      exact (set_get habsent).symm

theorem removeDeployedFile_removed {r : Except CertificateError Unit}
    (h : removeDeployedFile kind w = (r, w')) : Removed kind w.disk r w'.disk := by
  unfold removeDeployedFile at h
  rcases Exec.bind_cases h with ⟨e, hopen, rfl⟩ | ⟨_, w₁, hopen, h₁⟩
  · exact ⟨nofun, Or.inl (attempt_quiet.state hopen)⟩
  have hopened : w₁.disk = w.disk := attempt_quiet.state hopen
  obtain ⟨r₁, w₂, r₂, hbody, hclose, hr⟩ := Exec.finallyDo_cases h₁
  have hremoved := removePresent_removed hbody
  rw [hopened, ← attempt_quiet.state hclose] at hremoved
  rcases hr with ⟨rfl, -⟩ | ⟨e, rfl, rfl⟩
  · exact hremoved
  · exact ⟨nofun, hremoved.2⟩

/-! ## The history of the files -/

/-- The files after an event. -/
def Pair.after (p : Pair) : Event → Pair
  | .replaced kind content => p.set (some content) kind
  | .removed kind => p.set none kind
  | .reloaded => p

/-- The files have only been replaced as a whole, by what they were or by the source, or
removed; the source is untouched. -/
structure Logged (old source : Pair) (d d' : Disk) : Prop where
  unchanged : d'.source = d.source
  events : ∃ new, d'.events = d.events ++ new ∧ d'.deployed = new.foldl Pair.after d.deployed ∧
    ∀ kind content, .replaced kind content ∈ new →
      some content = old.get kind ∨ some content = source.get kind

section History

variable {source : Pair} {d d' : Disk}

theorem Logged.of_eq (h : d' = d) : Logged old source d d' := by
  subst h
  exact ⟨rfl, [], (List.append_nil _).symm, rfl, nofun⟩

theorem Logged.trans {d₁ d₂ d₃ : Disk} (h₁ : Logged old source d₁ d₂)
    (h₂ : Logged old source d₂ d₃) : Logged old source d₁ d₃ := by
  obtain ⟨new₁, hevents₁, hdeployed₁, hwhole₁⟩ := h₁.events
  obtain ⟨new₂, hevents₂, hdeployed₂, hwhole₂⟩ := h₂.events
  refine ⟨h₂.unchanged.trans h₁.unchanged, new₁ ++ new₂, ?_, ?_, ?_⟩
  · rw [hevents₂, hevents₁, List.append_assoc]
  · rw [hdeployed₂, hdeployed₁, List.foldl_append]
  · intro kind content hmem
    rcases List.mem_append.mp hmem with hmem | hmem
    · exact hwhole₁ kind content hmem
    · exact hwhole₂ kind content hmem

theorem Logged.replace (hwhole : some data = old.get kind ∨ some data = source.get kind) :
    Logged old source d (d.replace kind data) := by
  refine ⟨rfl, [.replaced kind data], rfl, rfl, ?_⟩
  intro kind' content hmem
  cases List.mem_singleton.mp hmem
  exact hwhole

theorem Logged.remove : Logged old source d (d.remove kind) :=
  ⟨rfl, [.removed kind], rfl, rfl, by simp⟩

theorem Logged.reload : Logged old source d d.reload := ⟨rfl, [.reloaded], rfl, rfl, by simp⟩

/-- The relation on worlds. -/
def Tracks (old source : Pair) (w w' : World) : Prop := Logged old source w.disk w'.disk

theorem tracks_composes : Exec.Composes (Tracks old source) where
  refl _ := .of_eq rfl
  trans h₁ h₂ := Logged.trans h₁ h₂

theorem tracks_quiet {α : Type} {program : Program α} (h : Quiet program) :
    Exec.Moves (Tracks old source) program :=
  fun w => .of_eq (h w _ _ rfl).1

theorem atomicCopy_tracks (hwhole : some data = old.get kind ∨ some data = source.get kind) :
    Exec.Moves (Tracks old source) (atomicCopy m kind data) := by
  intro w
  rcases hrun : atomicCopy m kind data w with ⟨r, w'⟩
  rcases (atomicCopy_copied hrun).may with hdisk | hdisk
  · exact .of_eq hdisk
  · show Logged _ _ _ w'.disk
    rw [hdisk]
    exact .replace hwhole

theorem removeDeployedFile_tracks : Exec.Moves (Tracks old source) (removeDeployedFile kind) := by
  intro w
  rcases hrun : removeDeployedFile kind w with ⟨r, w'⟩
  rcases (removeDeployedFile_removed hrun).2 with hdisk | hdisk
  · exact .of_eq hdisk
  · show Logged _ _ _ w'.disk
    rw [hdisk]
    exact .remove

theorem putBack_tracks : Exec.Moves (Tracks old source) (putBack m old kind) := by
  unfold putBack
  split
  · exact removeDeployedFile_tracks
  · next hdata => exact atomicCopy_tracks (Or.inl hdata.symm)

theorem restorePriorMaterial_tracks :
    Exec.Moves (Tracks old source) (restorePriorMaterial m old) := by
  apply tracks_composes.bind putBack_tracks
  intro _
  apply tracks_composes.bind putBack_tracks
  intro _
  apply tracks_composes.bind (tracks_quiet isBack_quiet)
  intro _
  apply tracks_composes.bind (tracks_quiet isBack_quiet)
  intro _
  exact tracks_composes.ensure _ _

theorem undoCopy_tracks : Exec.Moves (Tracks old source) (undoCopy m old) := by
  apply tracks_composes.bind
  · apply tracks_composes.handle
    · exact tracks_composes.bind restorePriorMaterial_tracks fun _ => tracks_composes.ret _
    · exact fun _ => tracks_composes.ret _
  · exact fun _ => tracks_composes.raise _

theorem copyPair_tracks {certificate privateKey : Bytes}
    (hcertificate : some certificate = source.certificate)
    (hkey : some privateKey = source.privateKey) :
    Exec.Moves (Tracks old source) (copyPair m certificate privateKey) := by
  apply tracks_composes.bind (atomicCopy_tracks (Or.inr hcertificate))
  intro _
  apply tracks_composes.bind (atomicCopy_tracks (Or.inr hkey))
  intro _
  apply tracks_composes.bind (tracks_quiet readDeployed_quiet)
  intro _
  apply tracks_composes.bind (tracks_quiet readDeployed_quiet)
  intro _
  exact tracks_quiet validatePair_quiet

theorem copy_tracks {certificate privateKey : Bytes}
    (hcertificate : some certificate = source.certificate)
    (hkey : some privateKey = source.privateKey) :
    Exec.Moves (Tracks old source)
      (Exec.handle (copyPair m certificate privateKey) fun _ => undoCopy m old) :=
  tracks_composes.handle (copyPair_tracks hcertificate hkey) fun _ => undoCopy_tracks

theorem reload_tracks : Exec.Moves (Tracks old source) (reload m) := by
  apply tracks_composes.bind (tracks_composes.ensure _ _)
  intro _
  apply tracks_composes.bind (tracks_quiet attempt_quiet)
  intro _
  exact Exec.Moves.update fun _ => .reload

theorem verifyAndReload_tracks : Exec.Moves (Tracks old source) (verifyAndReload m) := by
  apply tracks_composes.bind (tracks_quiet (inspect_quiet _))
  intro _
  apply tracks_composes.bind (tracks_quiet (inspect_quiet _))
  intro _
  apply tracks_composes.bind (tracks_composes.ensure _ _)
  intro _
  exact reload_tracks

theorem undoDeployment_tracks : Exec.Moves (Tracks old source) (undoDeployment m old) := by
  apply tracks_composes.bind
  · apply tracks_composes.handle
    · apply tracks_composes.bind restorePriorMaterial_tracks
      intro _
      exact tracks_composes.bind reload_tracks fun _ => tracks_composes.ret _
    · exact fun _ => tracks_composes.ret _
  · exact fun _ => tracks_composes.raise _

end History

/-! ## What has been restored -/

theorem bounded_eq_ok {value : Option Bytes} (h : bounded kind value = .ok data) :
    value = some data := by
  unfold bounded at h
  split at h
  · cases h
  · split at h
    · cases h
      rfl
    · cases h

theorem attempt_eq_ok {u : Unit} (h : attempt w = (.ok u, w')) : w'.disk = w.disk :=
  attempt_quiet.state h

theorem readSource_eq_ok (h : readSource kind w = (.ok data, w')) :
    some data = w.source.get kind ∧ w'.disk = w.disk := by
  refine ⟨?_, readSource_quiet.state h⟩
  unfold readSource at h
  obtain ⟨_, w₁, hopen, h⟩ := Exec.bind_eq_ok h
  rw [Exec.inspect_bind] at h
  obtain ⟨hbounded, -⟩ := Exec.ofExcept_eq_ok h
  rw [← bounded_eq_ok hbounded,
    show w₁.source = w.source from congrArg Disk.source (attempt_eq_ok hopen)]

theorem readDeployed_eq_ok (h : readDeployed kind w = (.ok data, w')) :
    some data = w.deployed.get kind ∧ w'.disk = w.disk := by
  refine ⟨?_, readDeployed_quiet.state h⟩
  unfold readDeployed at h
  obtain ⟨_, w₁, hopen, h⟩ := Exec.bind_eq_ok h
  rw [Exec.inspect_bind] at h
  obtain ⟨hbounded, -⟩ := Exec.ofExcept_eq_ok h
  rw [← bounded_eq_ok hbounded,
    show w₁.deployed = w.deployed from congrArg Disk.deployed (attempt_eq_ok hopen)]

theorem targetExists_eq_ok {present : Bool} (h : targetExists kind w = (.ok present, w')) :
    present = (w.deployed.get kind).isSome ∧ w'.disk = w.disk := by
  refine ⟨?_, targetExists_quiet.state h⟩
  unfold targetExists at h
  obtain ⟨_, w₁, hopen, h⟩ := Exec.bind_eq_ok h
  cases h
  show (w'.deployed.get kind).isSome = _
  rw [show w'.deployed = w.deployed from congrArg Disk.deployed (attempt_eq_ok hopen)]

theorem readOld_eq_ok {value : Option Bytes} (h : readOld kind w = (.ok value, w')) :
    value = w.deployed.get kind ∧ w'.disk = w.disk := by
  refine ⟨?_, readOld_quiet.state h⟩
  unfold readOld at h
  obtain ⟨present, w₁, hexists, h⟩ := Exec.bind_eq_ok h
  obtain ⟨hpresent, hdisk⟩ := targetExists_eq_ok hexists
  cases present with
  | true =>
      obtain ⟨data, w₂, hread, h⟩ := Exec.bind_eq_ok h
      obtain ⟨rfl, rfl⟩ := Exec.ret_eq_ok h
      rw [(readDeployed_eq_ok hread).1]
      exact congrArg (fun d : Disk => d.deployed.get kind) hdisk
  | false =>
      obtain ⟨rfl, rfl⟩ := Exec.ret_eq_ok h
      symm at hpresent
      rw [Option.isSome_eq_false_iff, Option.isNone_iff_eq_none] at hpresent
      exact hpresent.symm

theorem putBack_eq_ok {u : Unit} (h : putBack m old kind w = (.ok u, w')) :
    w'.deployed = w.deployed.set (old.get kind) kind := by
  unfold putBack at h
  rcases hold : old.get kind with - | data
  · rw [hold] at h
    exact (removeDeployedFile_removed h).1 u rfl
  · rw [hold] at h
    rcases atomicCopy_copied h with ⟨-, hdisk⟩ | ⟨e, hcontra, -⟩
    · exact congrArg Disk.deployed hdisk
    · cases hcontra

theorem restorePriorMaterial_eq_ok {u : Unit} (h : restorePriorMaterial m old w = (.ok u, w')) :
    w'.deployed = old := by
  unfold restorePriorMaterial at h
  obtain ⟨_, w₁, hcertificate, h⟩ := Exec.bind_eq_ok h
  obtain ⟨_, w₂, hkey, h⟩ := Exec.bind_eq_ok h
  obtain ⟨_, w₃, hback, h⟩ := Exec.bind_eq_ok h
  obtain ⟨_, w₄, hback', h⟩ := Exec.bind_eq_ok h
  obtain ⟨-, rfl⟩ := Exec.ensure_eq_ok h
  have hsame : w'.deployed = w₂.deployed :=
    congrArg Disk.deployed ((isBack_quiet.state hback').trans (isBack_quiet.state hback))
  rw [hsame, putBack_eq_ok hkey, putBack_eq_ok hcertificate]
  rfl

theorem reload_eq_ok {u : Unit} (h : reload m w = (.ok u, w')) : w'.disk = w.disk.reload := by
  unfold reload at h
  obtain ⟨-, h⟩ := Exec.ensure_bind_eq_ok h
  obtain ⟨_, w₁, hreload, h⟩ := Exec.bind_eq_ok h
  cases h
  show w₁.disk.reload = _
  rw [attempt_eq_ok hreload]

theorem reload_raised {e : CertificateError} (h : reload m w = (.error e, w')) :
    Plain e ∧ w'.disk = w.disk := by
  unfold reload at h
  rcases Exec.bind_cases h with ⟨e', hrun, he⟩ | ⟨_, w₁, hrun, h₁⟩
  · cases he
    have hquiet : Quiet (Exec.ensure m.reloadConfigured
        (.command "Maddy reload callback is not configured")) :=
      Exec.Quiet.ensure (by unfold Plain; decide)
    exact ⟨hquiet.error hrun, hquiet.state hrun⟩
  obtain ⟨-, rfl⟩ := Exec.ensure_eq_ok hrun
  rcases Exec.bind_cases h₁ with ⟨e', hrun', he⟩ | ⟨_, w₂, -, h₂⟩
  · cases he
    exact ⟨attempt_quiet.error hrun', attempt_quiet.state hrun'⟩
  · cases h₂

/-- A reload is the last thing that has happened. -/
def ReloadedLast (d d' : Disk) : Prop := ∃ new, d'.events = d.events ++ new ++ [.reloaded]

theorem Logged.reloadedLast {source : Pair} {d d' : Disk} (h : Logged old source d d') :
    ReloadedLast d d'.reload := by
  obtain ⟨new, hevents, -, -⟩ := h.events
  refine ⟨new, ?_⟩
  rw [← hevents]
  rfl

/-- What an error says and what has happened to the files. -/
inductive Reported (d : Disk) : CertificateError → Disk → Prop
  | untouched {e : CertificateError} {d' : Disk} (plain : Plain e)
      (same : d'.deployed = d.deployed) : Reported d e d'
  | restored {d' : Disk} (same : d'.deployed = d.deployed) : Reported d restoredError d'
  | reloaded {d' : Disk} (same : d'.deployed = d.deployed)
      (last : ReloadedLast d d') : Reported d restoredReloadedError d'
  | failed {d' : Disk} : Reported d rollbackFailedError d'

theorem undoCopy_reported {r : Except CertificateError Unit} {d : Disk} (hold : old = d.deployed)
    (h : undoCopy m old w = (r, w')) : ∃ e, r = .error e ∧ Reported d e w'.disk := by
  unfold undoCopy at h
  rcases Exec.bind_cases h with ⟨e, hrun, -⟩ | ⟨succeeded, w₁, hrun, h₁⟩
  · rcases Exec.handle_cases hrun with ⟨_, -, hcontra⟩ | ⟨_, _, -, hcontra⟩
    · cases hcontra
    · cases hcontra
  cases h₁
  refine ⟨_, rfl, ?_⟩
  rcases Exec.handle_cases hrun with ⟨a, hbody, ha⟩ | ⟨_, _, -, hfalse⟩
  · cases ha
    obtain ⟨_, w₂, hrestore, hbody⟩ := Exec.bind_eq_ok hbody
    obtain ⟨rfl, rfl⟩ := Exec.ret_eq_ok hbody
    exact .restored ((restorePriorMaterial_eq_ok hrestore).trans hold)
  · cases hfalse
    exact .failed

theorem undoDeployment_reported {r : Except CertificateError Unit} {d : Disk} {source : Pair}
    (hold : old = d.deployed) (hbefore : Logged old source d w.disk)
    (h : undoDeployment m old w = (r, w')) :
    ∃ e, r = .error e ∧ Reported d e w'.disk := by
  unfold undoDeployment at h
  rcases Exec.bind_cases h with ⟨e, hrun, -⟩ | ⟨succeeded, w₁, hrun, h₁⟩
  · rcases Exec.handle_cases hrun with ⟨_, -, hcontra⟩ | ⟨_, _, -, hcontra⟩
    · cases hcontra
    · cases hcontra
  cases h₁
  refine ⟨_, rfl, ?_⟩
  rcases Exec.handle_cases hrun with ⟨a, hbody, ha⟩ | ⟨_, _, -, hfalse⟩
  · cases ha
    obtain ⟨_, w₂, hrestore, hbody⟩ := Exec.bind_eq_ok hbody
    obtain ⟨_, w₃, hreload, hbody⟩ := Exec.bind_eq_ok hbody
    obtain ⟨rfl, rfl⟩ := Exec.ret_eq_ok hbody
    have hdisk := reload_eq_ok hreload
    apply Reported.reloaded
    · rw [hdisk]
      exact (restorePriorMaterial_eq_ok hrestore).trans hold
    · have hrestored := @restorePriorMaterial_tracks m old source w
      rw [hrestore] at hrestored
      rw [hdisk]
      exact (hbefore.trans hrestored).reloadedLast
  · cases hfalse
    exact .failed

/-! ## Copying and reloading -/

theorem copyAllowlistedSource_cases {r : Except CertificateError Pair}
    (h : copyAllowlistedSource m w = (r, w')) :
    Tracks w.deployed w.source w w' ∧
      (r = .ok w.deployed ∨ ∃ e, r = .error e ∧ Reported w.disk e w'.disk) := by
  have hquiet : ∀ {α : Type} {program : Program α} {w₁ : World} {e : CertificateError},
      Quiet program → program w₁ = (.error e, w') → w₁.disk = w.disk →
        Tracks w.deployed w.source w w' ∧ ((Except.error e : Except _ Pair) = .ok w.deployed ∨
          ∃ e', (Except.error e : Except _ Pair) = .error e' ∧ Reported w.disk e' w'.disk) := by
    intro α program w₁ e hprogram hrun hsame
    have hdisk := (hprogram.state hrun).trans hsame
    refine ⟨.of_eq hdisk, Or.inr ⟨e, rfl, ?_⟩⟩
    exact .untouched (hprogram.error hrun) (congrArg Disk.deployed hdisk)
  unfold copyAllowlistedSource at h
  rcases Exec.bind_cases h with ⟨e, hrun, rfl⟩ | ⟨certificate, w₁, hrun, h₁⟩
  · exact hquiet readSource_quiet hrun rfl
  obtain ⟨hcertificate, hw₁⟩ := readSource_eq_ok hrun
  rcases Exec.bind_cases h₁ with ⟨e, hrun, rfl⟩ | ⟨privateKey, w₂, hrun, h₂⟩
  · exact hquiet readSource_quiet hrun hw₁
  obtain ⟨hkey, hw₂⟩ := readSource_eq_ok hrun
  rw [show w₁.source = w.source from congrArg Disk.source hw₁] at hkey
  replace hw₂ := hw₂.trans hw₁
  rcases Exec.bind_cases h₂ with ⟨e, hrun, rfl⟩ | ⟨_, w₃, hrun, h₃⟩
  · exact hquiet validatePair_quiet hrun hw₂
  have hw₃ := (validatePair_quiet.state hrun).trans hw₂
  rcases Exec.bind_cases h₃ with ⟨e, hrun, rfl⟩ | ⟨oldCertificate, w₄, hrun, h₄⟩
  · exact hquiet readOld_quiet hrun hw₃
  obtain ⟨holdCertificate, hw₄⟩ := readOld_eq_ok hrun
  replace hw₄ := hw₄.trans hw₃
  rcases Exec.bind_cases h₄ with ⟨e, hrun, rfl⟩ | ⟨oldKey, w₅, hrun, h₅⟩
  · exact hquiet readOld_quiet hrun hw₄
  obtain ⟨holdKey, hw₅⟩ := readOld_eq_ok hrun
  replace hw₅ := hw₅.trans hw₄
  have hold : (⟨oldCertificate, oldKey⟩ : Pair) = w.deployed := by
    rw [holdCertificate, holdKey]
    show Pair.mk (w₃.disk.deployed.get .certificate) (w₄.disk.deployed.get .privateKey) = _
    rw [hw₃, hw₄]
    rfl
  rw [hold] at h₅
  rcases Exec.bind_cases h₅ with ⟨e, hrun, rfl⟩ | ⟨_, w₆, hrun, h₆⟩
  · have hmoves := @copy_tracks m w.deployed w.source _ _ hcertificate hkey w₅
    rw [hrun] at hmoves
    refine ⟨tracks_composes.trans (.of_eq hw₅) hmoves, Or.inr ⟨e, rfl, ?_⟩⟩
    rcases Exec.handle_cases hrun with ⟨_, -, hcontra⟩ | ⟨_, w₆, -, hundo⟩
    · cases hcontra
    · obtain ⟨e', he', hreported⟩ := undoCopy_reported (d := w.disk) rfl hundo
      cases he'
      exact hreported
  · have hmoves := @copy_tracks m w.deployed w.source _ _ hcertificate hkey w₅
    rw [hrun] at hmoves
    cases h₆
    exact ⟨tracks_composes.trans (.of_eq hw₅) hmoves, Or.inl rfl⟩

/-- The deployed pair belongs together and its certificate has the fingerprint of the source. -/
def InSync (m : Manager) (d : Disk) : Prop :=
  ∃ certificate privateKey sourceCertificate,
    d.deployed = ⟨some certificate, some privateKey⟩ ∧
    m.matchingPair certificate privateKey = true ∧
    d.source.certificate = some sourceCertificate ∧
    m.fingerprint certificate = m.fingerprint sourceCertificate

theorem readablePair_eq_some {p : Pair} {certificate privateKey : Bytes}
    (h : readablePair m p = some (certificate, privateKey)) :
    p = ⟨some certificate, some privateKey⟩ ∧ m.matchingPair certificate privateKey = true := by
  obtain ⟨c, k⟩ := p
  unfold readablePair at h
  dsimp only at h
  split at h
  · split at h
    · next hmatching =>
        cases h
        exact ⟨rfl, hmatching.2.2.2.2⟩
    · cases h
  · cases h

/-- A fingerprint is read from a readable pair only. -/
theorem statusOf_fingerprint {p : Pair} {fingerprint : String}
    (h : (statusOf m p).sha256Fingerprint = some fingerprint) :
    ∃ certificate privateKey, p = ⟨some certificate, some privateKey⟩ ∧
      m.matchingPair certificate privateKey = true ∧ m.fingerprint certificate = fingerprint := by
  unfold statusOf at h
  split at h
  · next certificate privateKey hreadable =>
      obtain ⟨hp, hmatching⟩ := readablePair_eq_some hreadable
      cases h
      exact ⟨certificate, privateKey, hp, hmatching, rfl⟩
  · cases h

theorem statusOf_sound {p : Pair} (h : (statusOf m p).error = none) :
    ∃ fingerprint, (statusOf m p).sha256Fingerprint = some fingerprint := by
  unfold statusOf at h ⊢
  split at h
  · exact ⟨_, rfl⟩
  · cases h

/-- The fingerprints of both pairs can be read and are the same. -/
def Synchronized (m : Manager) (d : Disk) : Prop :=
  ∃ fingerprint, (statusOf m d.source).sha256Fingerprint = some fingerprint ∧
    (statusOf m d.deployed).sha256Fingerprint = some fingerprint

theorem Synchronized.inSync {d : Disk} (h : Synchronized m d) : InSync m d := by
  obtain ⟨fingerprint, hsource, hdeployed⟩ := h
  obtain ⟨sourceCertificate, sourceKey, hsource, -, hfingerprint⟩ := statusOf_fingerprint hsource
  obtain ⟨certificate, privateKey, hdeployed, hmatching, hfingerprint'⟩ :=
    statusOf_fingerprint hdeployed
  refine ⟨certificate, privateKey, sourceCertificate, hdeployed, hmatching, ?_, ?_⟩
  · rw [hsource]
  · rw [hfingerprint', hfingerprint]

/-- An inspection reads the pair, or it is the one that could not. -/
theorem inspect_eq_ok {pair : World → Pair} (hpair : ∀ w n, pair { w with issued := n } = pair w)
    {result : CertificateStatus} (h : inspect m pair w = (.ok result, w')) :
    w' = { w with issued := w.issued + 1 } ∧ (w.reactions w.issued).raises = false ∧
      (((w.reactions w.issued).unreadable = false ∧ result = statusOf m (pair w)) ∨
        result.error ≠ none ∧ result.sha256Fingerprint = none) := by
  unfold inspect at h
  rw [Exec.inspect_bind] at h
  obtain ⟨_, w₁, hread, h⟩ := Exec.bind_eq_ok h
  rw [attempt_run] at hread
  rcases hraises : (w.reactions w.issued).raises with - | -
  · rw [hraises] at hread
    cases hread
    rw [Exec.inspect_bind] at h
    rcases hunreadable : (w.reactions w.issued).unreadable with - | -
    · simp only [hunreadable] at h
      cases h
      exact ⟨rfl, rfl, Or.inl ⟨rfl, congrArg (statusOf m) (hpair w _)⟩⟩
    · simp only [hunreadable] at h
      cases h
      exact ⟨rfl, rfl, Or.inr ⟨nofun, rfl⟩⟩
  · rw [hraises] at hread
    cases hread

theorem inspect_of {pair : World → Pair} (hpair : ∀ w n, pair { w with issued := n } = pair w)
    (hraises : (w.reactions w.issued).raises = false)
    (hunreadable : (w.reactions w.issued).unreadable = false) :
    inspect m pair w = (.ok (statusOf m (pair w)), { w with issued := w.issued + 1 }) := by
  have hread : attempt w = (.ok (), { w with issued := w.issued + 1 }) := by
    rw [attempt_run, hraises]
    rfl
  unfold inspect
  rw [Exec.inspect_bind, Exec.bind_of_ok hread, Exec.inspect_bind]
  simp only [hunreadable]
  exact congrArg (fun p => (Except.ok (statusOf m p), _)) (hpair w _)

theorem verifyAndReload_eq_ok {u : Unit} (h : verifyAndReload m w = (.ok u, w')) :
    w'.disk = w.disk.reload ∧ Synchronized m w.disk := by
  unfold verifyAndReload at h
  obtain ⟨source, w₁, hsource, h⟩ := Exec.bind_eq_ok h
  obtain ⟨deployed, w₂, hdeployed, h⟩ := Exec.bind_eq_ok h
  obtain ⟨hchecked, h⟩ := Exec.ensure_bind_eq_ok h
  obtain ⟨rfl, -, hsource⟩ := inspect_eq_ok (fun _ _ => rfl) hsource
  obtain ⟨rfl, -, hdeployed⟩ := inspect_eq_ok (fun _ _ => rfl) hdeployed
  simp only [Bool.and_eq_true, Option.isNone_iff_eq_none, beq_iff_eq] at hchecked
  obtain ⟨⟨hsourceError, hdeployedError⟩, hsame⟩ := hchecked
  refine ⟨(reload_eq_ok h).trans rfl, ?_⟩
  obtain ⟨-, rfl⟩ := hsource.resolve_right fun hbad => hbad.1 hsourceError
  obtain ⟨-, rfl⟩ := hdeployed.resolve_right fun hbad => hbad.1 hdeployedError
  obtain ⟨fingerprint, hfingerprint⟩ := statusOf_sound hsourceError
  exact ⟨fingerprint, hfingerprint, hsame ▸ hfingerprint⟩

/-- The readings of `status` that can make it fail come from this world without one. -/
def StatusReads (w : World) : Prop :=
  (∀ k, k = 0 ∨ k = 1 → (w.reactions (w.issued + k)).raises = false ∧
    (w.reactions (w.issued + k)).unreadable = false) ∧
  ∀ k, k = 3 ∨ k = 4 → (w.reactions (w.issued + k)).raises = false

/-- The attempt that `status` handles. -/
theorem handled_run :
    Exec.handle (do attempt; return true) (fun _ => return false) w =
      (.ok !(w.reactions w.issued).raises, { w with issued := w.issued + 1 }) := by
  unfold Exec.handle
  rcases hraises : (w.reactions w.issued).raises with - | -
  · have hrun : attempt w = (.ok (), { w with issued := w.issued + 1 }) := by
      rw [attempt_run, hraises]
      rfl
    rw [Exec.bind_of_ok hrun]
    rfl
  · have hrun : attempt w = (.error .operation, { w with issued := w.issued + 1 }) := by
      rw [attempt_run, hraises]
      rfl
    rw [Exec.bind_of_error hrun]
    rfl

theorem attempt_raises {u : Unit} (h : attempt w = (.ok u, w')) :
    (w.reactions w.issued).raises = false ∧ w' = { w with issued := w.issued + 1 } := by
  rw [attempt_run] at h
  rcases hraises : (w.reactions w.issued).raises with - | -
  · rw [hraises] at h
    cases h
    exact ⟨rfl, rfl⟩
  · rw [hraises] at h
    cases h

theorem status_eq_true (h : status m w = (.ok true, w')) :
    w'.disk = w.disk ∧ Synchronized m w.disk ∧ StatusReads w := by
  refine ⟨status_quiet.state h, ?_⟩
  unfold status at h
  obtain ⟨source, w₁, hsource, h⟩ := Exec.bind_eq_ok h
  obtain ⟨deployed, w₂, hdeployed, h⟩ := Exec.bind_eq_ok h
  obtain ⟨_, w₃, hsafe, h⟩ := Exec.bind_eq_ok h
  obtain ⟨_, w₄, hactive, h⟩ := Exec.bind_eq_ok h
  obtain ⟨_, w₅, henabled, h⟩ := Exec.bind_eq_ok h
  obtain ⟨hsame, -⟩ := Exec.ret_eq_ok h
  obtain ⟨rfl, hraises₀, hsource⟩ := inspect_eq_ok (fun _ _ => rfl) hsource
  obtain ⟨rfl, hraises₁, hdeployed⟩ := inspect_eq_ok (fun _ _ => rfl) hdeployed
  rw [handled_run] at hsafe
  cases hsafe
  obtain ⟨hraises₃, rfl⟩ := attempt_raises hactive
  obtain ⟨hraises₄, -⟩ := attempt_raises henabled
  symm at hsame
  rw [Bool.and_eq_true, beq_iff_eq, Option.isSome_iff_exists] at hsame
  obtain ⟨⟨fingerprint, hfingerprint⟩, hsame⟩ := hsame
  have hread₀ := hsource.resolve_right fun hbad => by
    rw [hfingerprint] at hbad
    cases hbad.2
  have hread₁ := hdeployed.resolve_right fun hbad => by
    rw [← hsame, hfingerprint] at hbad
    cases hbad.2
  obtain ⟨hunreadable₀, rfl⟩ := hread₀
  obtain ⟨hunreadable₁, rfl⟩ := hread₁
  refine ⟨⟨fingerprint, hfingerprint, hsame ▸ hfingerprint⟩, ?_, ?_⟩
  · rintro k (rfl | rfl)
    · exact ⟨hraises₀, hunreadable₀⟩
    · exact ⟨hraises₁, hunreadable₁⟩
  · rintro k (rfl | rfl)
    · exact hraises₃
    · exact hraises₄

theorem status_of_reads (hsync : Synchronized m w.disk) (hreads : StatusReads w) :
    ∃ w', status m w = (.ok true, w') := by
  obtain ⟨fingerprint, hsource, hdeployed⟩ := hsync
  obtain ⟨hinspections, hattempts⟩ := hreads
  obtain ⟨hraises₀, hunreadable₀⟩ := hinspections 0 (Or.inl rfl)
  obtain ⟨hraises₁, hunreadable₁⟩ := hinspections 1 (Or.inr rfl)
  unfold status sourceStatus deployedStatus
  rw [Exec.bind_of_ok (inspect_of (fun _ _ => rfl) hraises₀ hunreadable₀)]
  rw [Exec.bind_of_ok (inspect_of (fun _ _ => rfl) hraises₁ hunreadable₁)]
  rw [Exec.bind_of_ok handled_run]
  have hactive : attempt { w with issued := w.issued + 3 } =
      (.ok (), { w with issued := w.issued + 4 }) := by
    rw [attempt_run, hattempts 3 (Or.inl rfl)]
    rfl
  have henabled : attempt { w with issued := w.issued + 4 } =
      (.ok (), { w with issued := w.issued + 5 }) := by
    rw [attempt_run, hattempts 4 (Or.inr rfl)]
    rfl
  refine ⟨{ w with issued := w.issued + 5 },
    (Exec.bind_of_ok hactive).trans ((Exec.bind_of_ok henabled).trans ?_)⟩
  refine Prod.ext ?_ rfl
  show Except.ok ((statusOf m w.disk.source).sha256Fingerprint.isSome &&
    (statusOf m w.disk.source).sha256Fingerprint ==
      (statusOf m w.disk.deployed).sha256Fingerprint) = _
  rw [hsource, hdeployed]
  simp

theorem deployAndReload_cases {r : Except CertificateError Unit}
    (h : deployAndReload m w = (r, w')) :
    Tracks w.deployed w.source w w' ∧
      ((r = .ok () ∧ Synchronized m w'.disk ∧ ReloadedLast w.disk w'.disk) ∨
        ∃ e, r = .error e ∧ Reported w.disk e w'.disk) := by
  unfold deployAndReload at h
  rcases Exec.bind_cases h with ⟨e, hrun, rfl⟩ | ⟨old, w₁, hrun, h₁⟩
  · obtain ⟨htracks, hok | ⟨e', he', hreported⟩⟩ := copyAllowlistedSource_cases hrun
    · cases hok
    · cases he'
      exact ⟨htracks, Or.inr ⟨e, rfl, hreported⟩⟩
  obtain ⟨hcopied, hold | ⟨_, hcontra, -⟩⟩ := copyAllowlistedSource_cases hrun
  swap
  · cases hcontra
  cases hold
  rcases Exec.handle_cases h₁ with ⟨u, hverify, rfl⟩ | ⟨e, w₂, hverify, hundo⟩
  · obtain ⟨hdisk, hsync⟩ := verifyAndReload_eq_ok hverify
    have hverified := @verifyAndReload_tracks m w.deployed w.source w₁
    rw [hverify] at hverified
    refine ⟨tracks_composes.trans hcopied hverified, Or.inl ⟨rfl, ?_, ?_⟩⟩
    · rw [hdisk]
      exact hsync
    · rw [hdisk]
      exact hcopied.reloadedLast
  · have hverified := @verifyAndReload_tracks m w.deployed w.source w₁
    rw [hverify] at hverified
    have hundone := @undoDeployment_tracks m w.deployed w.source w₂
    rw [hundo] at hundone
    have hbefore := tracks_composes.trans hcopied hverified
    exact ⟨tracks_composes.trans hbefore hundone,
      Or.inr (undoDeployment_reported (d := w.disk) rfl hbefore hundo)⟩

theorem reloadOnly_cases {r : Except CertificateError Unit} (h : reloadOnly m w = (r, w')) :
    (r = .ok () ∧ w'.disk = w.disk.reload) ∨ ∃ e, r = .error e ∧ Plain e ∧ w'.disk = w.disk := by
  unfold reloadOnly at h
  rcases Exec.bind_cases h with ⟨e, hrun, rfl⟩ | ⟨_, w₁, hrun, h₁⟩
  · have hquiet : Quiet (Exec.ensure m.reloadConfigured
        (.command "Maddy reload callback is not configured")) :=
      Exec.Quiet.ensure (by unfold Plain; decide)
    exact Or.inr ⟨e, rfl, hquiet.error hrun, hquiet.state hrun⟩
  obtain ⟨-, rfl⟩ := Exec.ensure_eq_ok hrun
  rcases Exec.handle_cases h₁ with ⟨u, hreload, rfl⟩ | ⟨e, w₂, hreload, hraise⟩
  · exact Or.inl ⟨rfl, reload_eq_ok hreload⟩
  · cases hraise
    exact Or.inr ⟨_, rfl, by unfold Plain; decide, (reload_raised hreload).2⟩

/-! ## The whole renewal -/

/-- The deployed files and what has happened to them. -/
def World.files (w : World) : Pair × List Event := (w.deployed, w.events)

theorem Quiet.files {α : Type} {program : Program α} (h : Quiet program) :
    Exec.Quiet World.files Plain program := by
  intro w r w' hrun
  obtain ⟨hdisk, hplain⟩ := h w r w' hrun
  exact ⟨congrArg (fun d : Disk => (d.deployed, d.events)) hdisk, hplain⟩

/-- Certbot changes the source only. -/
theorem runCertbot_quiet : Exec.Quiet World.files Plain (runCertbot m name) := by
  have hattempt : Exec.Quiet World.files Plain attempt := Quiet.files attempt_quiet
  have hstatus : Exec.Quiet World.files Plain (sourceStatus m) := Quiet.files (inspect_quiet _)
  apply Exec.Quiet.bind (Exec.Quiet.ensure (by unfold Plain; decide))
  intro _
  apply hattempt.bind
  intro _
  apply hstatus.bind
  intro before
  apply Exec.Quiet.bind (Exec.Quiet.ensure (by unfold Plain; decide))
  intro _
  apply hattempt.bind
  intro _
  apply Exec.Quiet.bind (operate_quiet (fun _ _ => rfl) ?_)
  swap
  · exact fun _ => rfl
  intro _
  apply hattempt.bind
  intro _
  apply hattempt.bind
  intro _
  apply hstatus.bind
  intro after
  apply Exec.Quiet.bind (Exec.Quiet.ensure (by unfold Plain; decide))
  intro _
  apply Exec.Quiet.bind (Exec.Quiet.ensure (by unfold Plain; decide))
  intro _
  exact Exec.Quiet.ret _

/-- Every replacement has put in place the whole of an old file or of a file of the source, and
the deployed files are what the events have made of them. -/
def WholeFiles (d d' : Disk) : Prop :=
  ∃ new, d'.events = d.events ++ new ∧ d'.deployed = new.foldl Pair.after d.deployed ∧
    ∀ kind content, .replaced kind content ∈ new →
      some content = d.deployed.get kind ∨ some content = d'.source.get kind

theorem WholeFiles.of_files (h : w'.files = w.files) : WholeFiles w.disk w'.disk := by
  refine ⟨[], ?_, ?_, nofun⟩
  · rw [List.append_nil]
    exact congrArg Prod.snd h
  · exact congrArg Prod.fst h

section AfterCertbot

variable {w₁ : World}

/-- What follows Certbot, seen from the start. -/
theorem WholeFiles.of_tracks (hfiles : w₁.files = w.files)
    (h : Tracks w₁.deployed w₁.source w₁ w') : WholeFiles w.disk w'.disk := by
  have hdeployed : w₁.deployed = w.deployed := congrArg Prod.fst hfiles
  have hevents : w₁.events = w.events := congrArg Prod.snd hfiles
  obtain ⟨new, hnew, hreplay, hwhole⟩ := Logged.events h
  refine ⟨new, ?_, ?_, ?_⟩
  · rw [hnew]
    exact congrArg (· ++ new) hevents
  · rw [hreplay]
    exact congrArg (new.foldl Pair.after ·) hdeployed
  · intro kind content hmem
    rw [show w'.disk.source = w₁.source from Logged.unchanged h]
    rw [show w.disk.deployed = w₁.deployed from hdeployed.symm]
    exact hwhole kind content hmem

theorem ReloadedLast.of_files {d' : Disk} (hfiles : w₁.files = w.files)
    (h : ReloadedLast w₁.disk d') : ReloadedLast w.disk d' := by
  obtain ⟨new, hnew⟩ := h
  refine ⟨new, ?_⟩
  rw [hnew]
  exact congrArg (· ++ new ++ [Event.reloaded]) (congrArg Prod.snd hfiles)

theorem Reported.of_files {e : CertificateError} {d' : Disk} (hfiles : w₁.files = w.files)
    (h : Reported w₁.disk e d') : Reported w.disk e d' := by
  have hdeployed : w₁.disk.deployed = w.disk.deployed := congrArg Prod.fst hfiles
  cases h with
  | untouched plain same => exact .untouched plain (same.trans hdeployed)
  | restored same => exact .restored (same.trans hdeployed)
  | reloaded same last => exact .reloaded (same.trans hdeployed) (last.of_files hfiles)
  | failed => exact .failed

end AfterCertbot

/-- What is known before the last status. -/
theorem renewAndDeploy_cases {r : Except CertificateError (Bool × Bool)}
    (h : renewAndDeploy m name w = (r, w')) :
    WholeFiles w.disk w'.disk ∧
      (((∃ x, r = .ok x) ∧ Synchronized m w'.disk ∧ ReloadedLast w.disk w'.disk) ∨
        ∃ e, r = .error e ∧ Reported w.disk e w'.disk) := by
  unfold renewAndDeploy at h
  rcases Exec.bind_cases h with ⟨e, hrun, rfl⟩ | ⟨sourceChanged, w₁, hrun, h₁⟩
  · have hfiles := runCertbot_quiet.state hrun
    refine ⟨.of_files hfiles, Or.inr ⟨e, rfl, ?_⟩⟩
    exact .untouched (runCertbot_quiet.error hrun) (congrArg Prod.fst hfiles)
  have hw₁ := runCertbot_quiet.state hrun
  rcases Exec.bind_cases h₁ with ⟨e, hstatus, rfl⟩ | ⟨current, w₂, hstatus, h₂⟩
  · have hfiles := ((Quiet.files status_quiet).state hstatus).trans hw₁
    refine ⟨.of_files hfiles, Or.inr ⟨e, rfl, ?_⟩⟩
    exact .untouched (status_quiet.error hstatus) (congrArg Prod.fst hfiles)
  have hw₂ := ((Quiet.files status_quiet).state hstatus).trans hw₁
  cases current with
  | false =>
      change (deployAndReload m >>= fun _ => pure (sourceChanged, true)) w₂ = _ at h₂
      rcases Exec.bind_cases h₂ with ⟨e, hdeploy, rfl⟩ | ⟨_, w₃, hdeploy, h₃⟩
      · obtain ⟨htracks, ⟨hcontra, -⟩ | ⟨e', he', hreported⟩⟩ := deployAndReload_cases hdeploy
        · cases hcontra
        · cases he'
          exact ⟨.of_tracks hw₂ htracks, Or.inr ⟨e, rfl, hreported.of_files hw₂⟩⟩
      · obtain ⟨htracks, ⟨-, hsync, hlast⟩ | ⟨e', hcontra, -⟩⟩ := deployAndReload_cases hdeploy
        · cases h₃
          exact ⟨.of_tracks hw₂ htracks, Or.inl ⟨⟨_, rfl⟩, hsync, hlast.of_files hw₂⟩⟩
        · cases hcontra
  | true =>
      change (reloadOnly m >>= fun _ => pure (sourceChanged, false)) w₂ = _ at h₂
      obtain ⟨hdisk, hsync, -⟩ := status_eq_true hstatus
      rw [← hdisk] at hsync
      rcases Exec.bind_cases h₂ with ⟨e, hreload, rfl⟩ | ⟨_, w₃, hreload, h₃⟩
      · rcases reloadOnly_cases hreload with ⟨hcontra, -⟩ | ⟨e', he', hplain, hsame⟩
        · cases hcontra
        · cases he'
          refine ⟨.of_tracks hw₂ (.of_eq hsame), Or.inr ⟨e, rfl, ?_⟩⟩
          exact (Reported.untouched hplain (congrArg Disk.deployed hsame)).of_files hw₂
      · rcases reloadOnly_cases hreload with ⟨-, hreloaded⟩ | ⟨e', hcontra, -⟩
        · cases h₃
          rw [hreloaded]
          have htracks : Logged w₂.deployed w₂.source w₂.disk w₂.disk := .of_eq rfl
          refine ⟨?_, Or.inl ⟨⟨_, rfl⟩, hsync, htracks.reloadedLast.of_files hw₂⟩⟩
          rw [← hreloaded]
          apply WholeFiles.of_tracks hw₂
          show Logged _ _ _ w'.disk
          rw [hreloaded]
          exact .reload
        · cases hcontra

/-- What every report of a renewal has to mean. -/
structure Transactional (m : Manager) (name : String) (w : World) : Prop where
  returned : ∀ x w', renew m name w = (.ok x, w') →
    InSync m w'.disk ∧ ReloadedLast w.disk w'.disk
  restored : ∀ w', renew m name w = (.error restoredError, w') → w'.deployed = w.deployed
  reloaded : ∀ w', renew m name w = (.error restoredReloadedError, w') →
    w'.deployed = w.deployed ∧ ReloadedLast w.disk w'.disk
  failed : ∀ e w', renew m name w = (.error e, w') → w'.deployed ≠ w.deployed →
    e = rollbackFailedError
  whole : WholeFiles w.disk (renew m name w).2.disk

/-- The last check of `renew` and its result. -/
def lastCheck (m : Manager) (sourceChanged synchronized : Bool) : Program String := do
  let result ← status m
  Exec.ensure result (.command "deployed certificate fingerprint does not match source")
  return if sourceChanged then "renewed" else if synchronized then "synchronized" else "not_due"

theorem renew_eq : renew m name = renewAndDeploy m name >>= fun x => lastCheck m x.1 x.2 := rfl

theorem lastCheck_quiet (x : Bool × Bool) : Quiet (lastCheck m x.1 x.2) := by
  apply status_quiet.bind
  intro result
  apply Exec.Quiet.bind (Exec.Quiet.ensure (by unfold Plain; decide))
  intro _
  exact Exec.Quiet.ret _

theorem lastCheck_ok_iff (x : Bool × Bool) (hsync : Synchronized m w.disk) :
    (∃ y w', lastCheck m x.1 x.2 w = (.ok y, w')) ↔ StatusReads w := by
  constructor
  · rintro ⟨y, w', h⟩
    unfold lastCheck at h
    obtain ⟨result, w₁, hstatus, h⟩ := Exec.bind_eq_ok h
    obtain ⟨hresult, -⟩ := Exec.ensure_bind_eq_ok h
    rw [hresult] at hstatus
    exact (status_eq_true hstatus).2.2
  · intro hreads
    obtain ⟨w', hstatus⟩ := status_of_reads hsync hreads
    unfold lastCheck
    rw [Exec.bind_of_ok hstatus]
    exact ⟨_, w', rfl⟩

theorem Reported.same {d d' : Disk} {e : CertificateError} (h : Reported d e d')
    (he : e ≠ rollbackFailedError) : d'.deployed = d.deployed := by
  cases h with
  | untouched plain same => exact same
  | restored same => exact same
  | reloaded same last => exact same
  | failed => exact absurd rfl he

theorem Reported.last {d d' : Disk} {e : CertificateError} (h : Reported d e d')
    (he : e = restoredReloadedError) : ReloadedLast d d' := by
  cases h with
  | untouched plain same => exact absurd he plain.2.1
  | restored same => exact absurd he (by decide)
  | reloaded same last => exact last
  | failed => exact absurd he (by decide)

/-- A renewal ends before its last check, or with it. -/
theorem renew_cases {r : Except CertificateError String} (h : renew m name w = (r, w')) :
    (∃ e, r = .error e ∧ Reported w.disk e w'.disk) ∨
      ∃ x w₁, renewAndDeploy m name w = (.ok x, w₁) ∧ Synchronized m w₁.disk ∧
        ReloadedLast w.disk w₁.disk ∧ lastCheck m x.1 x.2 w₁ = (r, w') ∧ w'.disk = w₁.disk := by
  rw [renew_eq] at h
  rcases Exec.bind_cases h with ⟨e, hrun, rfl⟩ | ⟨x, w₁, hrun, hcheck⟩
  · obtain ⟨-, ⟨⟨x, hcontra⟩, -⟩ | ⟨e', he', hreported⟩⟩ := renewAndDeploy_cases hrun
    · cases hcontra
    · cases he'
      exact Or.inl ⟨e, rfl, hreported⟩
  · obtain ⟨-, ⟨-, hsync, hlast⟩ | ⟨e', hcontra, -⟩⟩ := renewAndDeploy_cases hrun
    · exact Or.inr ⟨x, w₁, hrun, hsync, hlast, hcheck, (lastCheck_quiet x).state hcheck⟩
    · cases hcontra

theorem renew_whole : WholeFiles w.disk (renew m name w).2.disk := by
  rcases hrun : renewAndDeploy m name w with ⟨e | x, w₁⟩
  · rw [renew_eq, Exec.bind_of_error hrun]
    exact (renewAndDeploy_cases hrun).1
  · rw [renew_eq, Exec.bind_of_ok hrun]
    have hsame : (lastCheck m x.1 x.2 w₁).2.disk = w₁.disk := (lastCheck_quiet x w₁ _ _ rfl).1
    rw [hsame]
    exact (renewAndDeploy_cases hrun).1

/-- A renewal is transactional exactly if the status that is read after a deployment which has
changed a file can be read. -/
theorem renewal_transactional_iff (m : Manager) (name : String) (w : World) :
    Transactional m name w ↔
      ∀ x w₁, renewAndDeploy m name w = (.ok x, w₁) → w₁.deployed ≠ w.deployed →
        StatusReads w₁ := by
  constructor
  · intro htransactional x w₁ hrun hchanged
    by_contra hreads
    have hsync : Synchronized m w₁.disk := by
      obtain ⟨-, ⟨-, hsync, -⟩ | ⟨e, hcontra, -⟩⟩ := renewAndDeploy_cases hrun
      · exact hsync
      · cases hcontra
    rcases hcheck : lastCheck m x.1 x.2 w₁ with ⟨e | y, w'⟩
    · have hrenew : renew m name w = (.error e, w') := by
        rw [renew_eq, Exec.bind_of_ok hrun, hcheck]
      have hsame : w'.deployed = w₁.deployed :=
        congrArg Disk.deployed ((lastCheck_quiet x).state hcheck)
      have he := htransactional.failed e w' hrenew (hsame ▸ hchanged)
      exact ((lastCheck_quiet x).error hcheck).2.2 he
    · exact hreads ((lastCheck_ok_iff x hsync).mp ⟨y, w', hcheck⟩)
  · intro hreads
    refine ⟨?_, ?_, ?_, ?_, renew_whole⟩
    · intro y w' hrenew
      rcases renew_cases hrenew with ⟨e, hcontra, -⟩ | ⟨x, w₁, -, hsync, hlast, -, hsame⟩
      · cases hcontra
      · rw [hsame]
        exact ⟨hsync.inSync, hlast⟩
    · intro w' hrenew
      rcases renew_cases hrenew with ⟨e, he, hreported⟩ | ⟨x, w₁, -, -, -, hcheck, -⟩
      · cases he
        exact hreported.same (by decide)
      · exact absurd rfl ((lastCheck_quiet x).error hcheck).1
    · intro w' hrenew
      rcases renew_cases hrenew with ⟨e, he, hreported⟩ | ⟨x, w₁, -, -, -, hcheck, -⟩
      · cases he
        exact ⟨hreported.same (by decide), hreported.last rfl⟩
      · exact absurd rfl ((lastCheck_quiet x).error hcheck).2.1
    · intro e w' hrenew hchanged
      rcases renew_cases hrenew with ⟨e', he', hreported⟩ | ⟨x, w₁, hrun, hsync, -, hcheck, hsame⟩
      · cases he'
        by_contra hne
        exact hchanged (hreported.same hne)
      · have hdeployed : w'.deployed = w₁.deployed := congrArg Disk.deployed hsame
        have hok := (lastCheck_ok_iff x hsync).mpr (hreads x w₁ hrun (hdeployed ▸ hchanged))
        obtain ⟨y, w'', hok⟩ := hok
        rw [hcheck] at hok
        cases hok

/-! ## A last status that cannot be read -/

/-- The source is one byte before the renewal and another after it; every pair matches. -/
def sampleManager : Manager where
  allowedNames := ["mail"]
  reloadConfigured := true
  changesOwner := false
  renewed := ⟨some [2], some [2]⟩
  matchingPair _ _ := true
  fingerprint certificate := if certificate = [1] then "first" else "second"
  dnsNames _ := ["mail.test"]
  ipAddresses _ := []

/-- Every operation succeeds but the one with this number. -/
def lateWorld (late : Nat) : World where
  source := ⟨some [1], some [1]⟩
  deployed := ⟨some [1], some [1]⟩
  temp := []
  descriptor := false
  events := []
  reactions n := ⟨n = late, false, 1, false⟩
  issued := 0

/-- The timer cannot be read after the deployment. -/
theorem late_status_leaves_new_material :
    ¬ ∀ (m : Manager) (name : String) (w : World), Transactional m name w := by
  intro h
  have herror : (renew sampleManager "mail" (lateWorld 48)).1 = .error .operation := by
    decide +kernel
  have hchanged : (renew sampleManager "mail" (lateWorld 48)).2.deployed ≠
      (lateWorld 48).deployed := by decide +kernel
  rcases hrun : renew sampleManager "mail" (lateWorld 48) with ⟨r, w'⟩
  rw [hrun] at herror hchanged
  cases herror
  exact absurd ((h _ _ _).failed _ w' hrun hchanged) plain_operation.2.2

end MaddyWeb.Certificates.Renewal
