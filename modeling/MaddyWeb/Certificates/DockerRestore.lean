import MaddyWeb.Certificates.Docker

/-!
# What a deployment leaves in the container
-/

namespace MaddyWeb.Certificates.Docker

open MaddyWeb.Library

variable {a : Adapter} {w w' : World} {c : Container} {kind : Kind} {token : String}
  {material old : Material} {command : DockerCommand}

/-! ## Commands that succeed -/

/-- The world after a command with this effect. -/
def World.after (w : World) (container : Container) : World :=
  { w with issued := w.issued + 1, container }

theorem run_eq_ok {e : DockerError} {u : Unit}
    (h : (invoke command >>= fun succeeded => Exec.ensure succeeded e) w = (.ok u, w')) :
    command.feasible w.container = true ∧ w' = w.after (command.apply w.container) := by
  obtain ⟨succeeded, w₁, hinvoke, h⟩ := Exec.bind_eq_ok h
  obtain ⟨hsucceeded, rfl⟩ := Exec.ensure_eq_ok h
  unfold invoke at hinvoke
  dsimp only at hinvoke
  split at hinvoke
  · cases hinvoke
  · cases hinvoke
    rw [hsucceeded, Bool.true_or, if_pos rfl]
    rw [Bool.and_eq_true] at hsucceeded
    exact ⟨hsucceeded.2, rfl⟩

/-! ## Installing -/

/-- The container with the files of the material. -/
structure Installed (material : Material) (token : String) (c c' : Container) : Prop where
  deployed : ∀ kind, c'.deployed kind = (material.data kind).map fun data =>
    ⟨data, material.owner kind⟩
  staged : ∀ t kind, c'.staged t kind =
    if t = token ∧ (material.data kind).isSome then none else c.staged t kind

/-- The container after the first loop. -/
def Staging (material : Material) (token : String) (done : List Kind) (c c' : Container) : Prop :=
  c'.deployed = c.deployed ∧ ∀ t kind, c'.staged t kind =
    if t = token ∧ kind ∈ done ∧ (material.data kind).isSome then
      (material.data kind).map fun data => ⟨data, material.owner kind⟩
    else c.staged t kind

theorem stage_eq_ok {u : Unit} (h : stage material token kind w = (.ok u, w')) :
    Staging material token [kind] w.container w'.container := by
  unfold stage at h
  cases hdata : material.data kind with
  | none =>
      rw [hdata] at h
      obtain ⟨-, rfl⟩ := Exec.ret_eq_ok h
      refine ⟨rfl, ?_⟩
      intro t k
      rw [if_neg]
      rintro ⟨-, hk, hsome⟩
      rw [List.mem_singleton.mp hk, hdata] at hsome
      cases hsome
  | some data =>
      rw [hdata] at h
      obtain ⟨_, w₁, hhost, h⟩ := Exec.bind_eq_ok h
      obtain ⟨-, rfl⟩ := run_eq_ok hhost
      rw [Exec.update_bind] at h
      obtain ⟨_, w₂, hcopy, h⟩ := Exec.bind_eq_ok h
      obtain ⟨-, rfl⟩ := run_eq_ok hcopy
      obtain ⟨_, w₃, hchmod, h⟩ := Exec.bind_eq_ok h
      obtain ⟨-, rfl⟩ := run_eq_ok hchmod
      obtain ⟨-, rfl⟩ := run_eq_ok h
      refine ⟨rfl, ?_⟩
      intro t k
      by_cases hpath : t = token ∧ k = kind
      · obtain ⟨rfl, rfl⟩ := hpath
        rw [if_pos ⟨rfl, List.mem_singleton_self k, by rw [hdata]; rfl⟩, hdata]
        simp [World.after, DockerCommand.apply, Container.put]
      · rw [if_neg (fun hk => hpath ⟨hk.1, List.mem_singleton.mp hk.2.1⟩)]
        simp [World.after, DockerCommand.apply, Container.put, hpath]

theorem removeContainerPaths_eq_ok {paths : List Path} {u : Unit}
    (h : removeContainerPaths paths w = (.ok u, w')) :
    w'.container = paths.foldl (fun c path => c.put none path) w.container := by
  unfold removeContainerPaths at h
  cases paths with
  | nil =>
      obtain ⟨-, rfl⟩ := Exec.ret_eq_ok h
      rfl
  | cons path paths =>
      obtain ⟨-, rfl⟩ := run_eq_ok h
      rfl

theorem place_eq_ok {u : Unit} (h : place material token kind w = (.ok u, w')) :
    (∀ k, w'.container.deployed k = if k = kind then
      (if (material.data kind).isSome then w.container.staged token kind else none)
      else w.container.deployed k) ∧
    ∀ t k, w'.container.staged t k =
      if t = token ∧ k = kind ∧ (material.data kind).isSome then none
      else w.container.staged t k := by
  unfold place at h
  cases hdata : material.data kind with
  | none =>
      rw [hdata] at h
      have hremoved := removeContainerPaths_eq_ok h
      rw [hremoved]
      simp [Container.put]
  | some data =>
      rw [hdata] at h
      obtain ⟨_, w₁, hmove, h⟩ := Exec.bind_eq_ok h
      obtain ⟨hfeasible, rfl⟩ := run_eq_ok hmove
      cases h
      obtain ⟨file, hfile⟩ := Option.isSome_iff_exists.mp hfeasible
      constructor
      · intro k
        simp [World.after, DockerCommand.apply, hfile, Container.put]
      · intro t k
        simp [World.after, DockerCommand.apply, hfile, Container.put]

theorem unlinkHostTemps_container {temps : List Unit} {u : PUnit}
    (h : temps.forM (fun _ => onHost .hostUnlink) w = (.ok u, w')) :
    w'.container = w.container := by
  induction temps generalizing w with
  | nil =>
      obtain ⟨-, rfl⟩ := Exec.ret_eq_ok h
      rfl
  | cons _ temps ih =>
      obtain ⟨_, w₁, hunlink, h⟩ := Exec.bind_eq_ok h
      obtain ⟨-, rfl⟩ := run_eq_ok hunlink
      rw [ih h]
      rfl

/-- An installation that returns has put both files in place and left nothing staged. -/
theorem installMaterial_eq_ok {u : Unit} (h : installMaterial material token w = (.ok u, w')) :
    Installed material token w.container w'.container := by
  unfold installMaterial at h
  rw [Exec.update_bind] at h
  obtain ⟨w₁, _, h, hcleanup⟩ := Exec.finallyDo_eq_ok h
  rw [Exec.inspect_bind] at hcleanup
  rw [unlinkHostTemps_container hcleanup]
  have h := Exec.handle_eq_ok (fun _ _ _ _ => Exec.bind_raise_ne_ok) h
  obtain ⟨_, w₂, hstage, h⟩ := Exec.bind_eq_ok h
  obtain ⟨_, w₃, hstage₁, hstage⟩ := Exec.bind_eq_ok hstage
  obtain ⟨_, w₄, hstage₂, hstage⟩ := Exec.bind_eq_ok hstage
  obtain ⟨-, rfl⟩ := Exec.ret_eq_ok hstage
  obtain ⟨_, w₅, hplace₁, h⟩ := Exec.bind_eq_ok h
  obtain ⟨_, w₆, hplace₂, h⟩ := Exec.bind_eq_ok h
  obtain ⟨-, rfl⟩ := Exec.ret_eq_ok h
  obtain ⟨hdeployed₁, hstaged₁⟩ := stage_eq_ok hstage₁
  obtain ⟨hdeployed₂, hstaged₂⟩ := stage_eq_ok hstage₂
  obtain ⟨hdeployed₃, hstaged₃⟩ := place_eq_ok hplace₁
  obtain ⟨hdeployed₄, hstaged₄⟩ := place_eq_ok hplace₂
  constructor
  · intro kind
    rw [hdeployed₄, hdeployed₃, hstaged₃, hstaged₂, hstaged₁]
    cases kind with
    | certificate =>
        cases hdata : material.data .certificate <;> simp [hdata, hstaged₂, hstaged₁]
    | privateKey =>
        cases material.data .privateKey <;> simp
  · intro t kind
    rw [hstaged₄, hstaged₃, hstaged₂, hstaged₁]
    by_cases ht : t = token
    · cases kind with
      | certificate =>
          cases material.data .certificate <;> simp [ht]
      | privateKey =>
          cases material.data .privateKey <;> simp [ht]
    · simp [ht]

/-! ## Reading -/

/-- The commands that look at the container and leave it alone. -/
def DockerCommand.looks : DockerCommand → Bool
  | .readlink _ | .true_ | .cat _ | .stat _ => true
  | _ => false

theorem apply_of_looks (h : command.looks = true) (c : Container) : command.apply c = c := by
  cases command <;> first | rfl | cases h

theorem invoke_eq_ok {found : Bool} (hlooks : command.looks = true)
    (h : invoke command w = (.ok found, w')) :
    w' = w.after w.container ∧
      found = ((w.reactions w.issued).report == .success && command.feasible w.container) ∧
      (w.reactions w.issued).report ≠ .raised := by
  unfold invoke at h
  dsimp only at h
  rw [apply_of_looks hlooks, ite_self] at h
  split at h
  · cases h
  · next hreport =>
      cases h
      exact ⟨rfl, rfl, hreport⟩

/-- What a `cat` that does not fail has read. -/
structure ReadValue (w : World) (kind : Kind) (value : Option Bytes) : Prop where
  content : ∀ data ∈ value, ∃ file ∈ w.container.deployed kind, file.content = data
  missing : value = none ↔
    w.container.deployed kind = none ∨ (w.reactions w.issued).report = .exit

theorem read_eq_ok {allowMissing : Bool} {value : Option Bytes}
    (h : read kind allowMissing w = (.ok value, w')) :
    w' = w.after w.container ∧ ReadValue w kind value := by
  unfold read at h
  obtain ⟨found, w₁, hinvoke, h⟩ := Exec.bind_eq_ok h
  obtain ⟨rfl, hfound, hreport⟩ := invoke_eq_ok rfl hinvoke
  cases found with
  | true =>
      rw [if_pos rfl, Exec.inspect_bind] at h
      obtain ⟨-, h⟩ := Exec.ensure_bind_eq_ok h
      obtain ⟨rfl, rfl⟩ := Exec.ret_eq_ok h
      obtain ⟨hsuccess, hsome⟩ := Bool.and_eq_true_iff.mp hfound.symm
      obtain ⟨file, hfile⟩ := Option.isSome_iff_exists.mp hsome
      refine ⟨rfl, ?_, ?_⟩
      · intro data hdata
        refine ⟨file, hfile, ?_⟩
        have hdata := Option.some.inj hdata
        rw [← hdata]
        show _ = ((w.container.deployed kind).map (·.content)).getD []
        rw [hfile]
        rfl
      · rw [hfile, beq_iff_eq.mp hsuccess]
        simp
  | false =>
      rw [if_neg Bool.false_ne_true] at h
      split at h
      · obtain ⟨rfl, rfl⟩ := Exec.ret_eq_ok h
        refine ⟨rfl, nofun, ?_⟩
        constructor
        · intro _
          cases hfile : w.container.deployed kind with
          | none => exact Or.inl rfl
          | some file =>
              right
              cases hcode : (w.reactions w.issued).report with
              | success => simp [hcode, DockerCommand.feasible, hfile] at hfound
              | exit => rfl
              | raised => exact absurd hcode hreport
        · exact fun _ => rfl
      · cases h

theorem owner_eq_ok {value : Owner} (h : owner kind w = (.ok value, w')) :
    w' = w.after w.container ∧ ∀ file ∈ w.container.deployed kind, file.owner = value := by
  unfold owner at h
  obtain ⟨_, w₁, hstat, h⟩ := Exec.bind_eq_ok h
  obtain ⟨-, rfl⟩ := run_eq_ok hstat
  rw [Exec.inspect_bind] at h
  obtain ⟨-, h⟩ := Exec.ensure_bind_eq_ok h
  obtain ⟨rfl, rfl⟩ := Exec.ret_eq_ok h
  refine ⟨rfl, ?_⟩
  intro file hfile
  show _ = ((w.container.deployed kind).map (·.owner)).getD defaultOwner
  rw [Option.mem_def.mp hfile]
  rfl

theorem ownerOf_eq_ok {value : Option Bytes} {result : Owner}
    (h : ownerOf kind value w = (.ok result, w')) :
    w'.container = w.container ∧ (value = none → result = defaultOwner) ∧
      (value.isSome → ∀ file ∈ w.container.deployed kind, file.owner = result) := by
  unfold ownerOf at h
  cases value with
  | none =>
      obtain ⟨rfl, rfl⟩ := Exec.ret_eq_ok h
      exact ⟨rfl, fun _ => rfl, nofun⟩
  | some data =>
      obtain ⟨rfl, howner⟩ := owner_eq_ok h
      exact ⟨rfl, nofun, fun _ => howner⟩

/-- The material is what the container holds, as far as it has been read. -/
structure Matches (material : Material) (c : Container) : Prop where
  present : ∀ kind, ∀ data ∈ material.data kind,
    c.deployed kind = some ⟨data, material.owner kind⟩
  absent : ∀ kind, material.data kind = none → material.owner kind = defaultOwner

/-- The `cat` commands of a reading follow `/bin/true`. -/
def catIndex (issued : Nat) : Kind → Nat
  | .certificate => issued + 1
  | .privateKey => issued + 2

theorem readMaterial_eq_ok {allowMissing : Bool}
    (h : readMaterial allowMissing w = (.ok material, w')) :
    w'.container = w.container ∧ Matches material w.container ∧
      ∀ kind, material.data kind = none ↔ w.container.deployed kind = none ∨
        (w.reactions (catIndex w.issued kind)).report = .exit := by
  unfold readMaterial at h
  obtain ⟨_, w₁, htrue, h⟩ := Exec.bind_eq_ok h
  obtain ⟨-, rfl⟩ := run_eq_ok htrue
  obtain ⟨certificate, w₂, hread₁, h⟩ := Exec.bind_eq_ok h
  obtain ⟨rfl, hcertificate⟩ := read_eq_ok hread₁
  obtain ⟨privateKey, w₃, hread₂, h⟩ := Exec.bind_eq_ok h
  obtain ⟨rfl, hkey⟩ := read_eq_ok hread₂
  obtain ⟨certificateOwner, w₄, hcowner, h⟩ := Exec.bind_eq_ok h
  obtain ⟨privateKeyOwner, w₅, hkowner, h⟩ := Exec.bind_eq_ok h
  obtain ⟨rfl, rfl⟩ := Exec.ret_eq_ok h
  obtain ⟨hc₄, hcdefault, hcowner⟩ := ownerOf_eq_ok hcowner
  obtain ⟨hc₅, hkdefault, hkowner⟩ := ownerOf_eq_ok hkowner
  rw [hc₄] at hc₅ hkowner
  refine ⟨hc₅, ⟨?_, ?_⟩, ?_⟩
  · intro kind data hdata
    cases kind with
    | certificate =>
        obtain ⟨file, hfile, rfl⟩ := hcertificate.content data hdata
        rw [← hcowner (Option.isSome_of_mem hdata) file hfile]
        exact hfile
    | privateKey =>
        obtain ⟨file, hfile, rfl⟩ := hkey.content data hdata
        rw [← hkowner (Option.isSome_of_mem hdata) file hfile]
        exact hfile
  · intro kind hnone
    cases kind with
    | certificate => exact hcdefault hnone
    | privateKey => exact hkdefault hnone
  · intro kind
    cases kind with
    | certificate => exact hcertificate.missing
    | privateKey => exact hkey.missing

/-! ## Programs that only look -/

/-- The container stays as it is, and no exception speaks of a restored deployment. -/
def Quiet (c : Container) {α : Type} (m : Program α) : Prop :=
  Exec.Triple (fun w => w.container = c) m (fun _ w => w.container = c)
    (fun e w => e ≠ restoredError ∧ w.container = c)

namespace Quiet

variable {α β : Type}

theorem ret (value : α) : Quiet c (Pure.pure value : Program α) := Exec.Triple.ret fun _ hw => hw

theorem inspect (f : World → α) : Quiet c (Exec.inspect f : Program α) :=
  Exec.Triple.inspect fun _ hw => hw

theorem bind {m : Program α} {f : α → Program β} (hm : Quiet c m) (hf : ∀ x, Quiet c (f x)) :
    Quiet c (m >>= f) := Exec.Triple.bind hm hf

theorem raise {e : DockerError} (he : e ≠ restoredError) : Quiet c (Exec.raise e : Program α) :=
  Exec.Triple.raise fun _ hw => ⟨he, hw⟩

theorem ensure {e : DockerError} (condition : Bool) (he : e ≠ restoredError) :
    Quiet c (Exec.ensure condition e : Program Unit) :=
  Exec.Triple.ensure (fun _ hw _ => hw) fun _ hw _ => ⟨he, hw⟩

theorem ofExcept {outcome : Except DockerError α}
    (he : ∀ e, outcome = .error e → e ≠ restoredError) :
    Quiet c (Exec.ofExcept outcome : Program α) := by
  cases outcome with
  | ok value => exact ret value
  | error e => exact raise (he e rfl)

theorem invoke (hlooks : command.looks = true) : Quiet c (invoke command) := by
  intro w hw
  unfold Docker.invoke
  dsimp only
  rw [apply_of_looks hlooks, ite_self]
  split
  · next hsplit =>
      split at hsplit
      · cases hsplit
      · cases hsplit
        exact hw
  · next hsplit =>
      split at hsplit
      · cases hsplit
        exact ⟨nofun, hw⟩
      · cases hsplit

theorem run (hlooks : command.looks = true) : Quiet c (run command) :=
  (invoke hlooks).bind fun succeeded => ensure succeeded (by decide)

theorem forM {γ : Type} {f : γ → Program PUnit} (hf : ∀ x, Quiet c (f x)) :
    ∀ xs : List γ, Quiet c (xs.forM f)
  | [] => ret _
  | x :: xs => (hf x).bind fun _ => forM hf xs

end Quiet

theorem verifyParentPaths_quiet : Quiet c (verifyParentPaths a) := by
  apply Quiet.forM
  intro parent
  apply (Quiet.inspect _).bind
  intro index
  apply (Quiet.run rfl).bind
  intro _
  apply (Quiet.inspect _).bind
  intro canonical
  exact Quiet.ensure canonical (by decide)

theorem readMaterial_quiet (allowMissing : Bool) : Quiet c (readMaterial allowMissing) := by
  have hread : ∀ kind, Quiet c (read kind allowMissing) := by
    intro kind
    apply (Quiet.invoke rfl).bind
    intro found
    cases found with
    | true =>
        apply (Quiet.inspect _).bind
        intro value
        apply (Quiet.ensure _ (by decide)).bind
        exact fun _ => Quiet.ret _
    | false =>
        cases allowMissing with
        | true => exact Quiet.ret _
        | false => exact Quiet.raise (by decide)
  have howner : ∀ kind value, Quiet c (ownerOf kind value) := by
    intro kind value
    cases value with
    | none => exact Quiet.ret _
    | some data =>
        apply (Quiet.run rfl).bind
        intro _
        apply (Quiet.inspect _).bind
        intro value
        apply (Quiet.ensure _ (by decide)).bind
        exact fun _ => Quiet.ret _
  apply (Quiet.run rfl).bind
  intro _
  apply (hread .certificate).bind
  intro certificate
  apply (hread .privateKey).bind
  intro privateKey
  apply (howner .certificate certificate).bind
  intro certificateOwner
  apply (howner .privateKey privateKey).bind
  exact fun privateKeyOwner => Quiet.ret _

/-! ## Restoring -/

theorem verifyParent_eq_ok {parent : String} {u : Unit}
    (h : verifyParent parent w = (.ok u, w')) : w' = w.after w.container := by
  unfold verifyParent at h
  rw [Exec.inspect_bind] at h
  obtain ⟨_, w₁, hrun, h⟩ := Exec.bind_eq_ok h
  obtain ⟨-, rfl⟩ := run_eq_ok hrun
  rw [Exec.inspect_bind] at h
  obtain ⟨-, rfl⟩ := Exec.ensure_eq_ok h
  rfl

theorem verifyParents_eq_ok {parents : List String} {u : PUnit}
    (h : parents.forM verifyParent w = (.ok u, w')) :
    w' = { w with issued := w.issued + parents.length } := by
  induction parents generalizing w with
  | nil =>
      obtain ⟨-, rfl⟩ := Exec.ret_eq_ok h
      rfl
  | cons parent parents ih =>
      obtain ⟨_, w₁, hparent, h⟩ := Exec.bind_eq_ok h
      have hparent := verifyParent_eq_ok hparent
      rw [ih h, hparent, List.length_cons]
      show World.mk .. = World.mk ..
      congr 1
      show w.issued + 1 + parents.length = _
      omega

/-- A restoration that returns has installed the old material. -/
theorem restore_eq_ok {u : Unit} (h : restore a old token w = (.ok u, w')) :
    Installed old token w.container w'.container := by
  unfold restore at h
  obtain ⟨_, w₁, hverify, h⟩ := Exec.bind_eq_ok h
  have hw₁ := verifyParents_eq_ok hverify
  obtain ⟨_, w₂, hinstall, h⟩ := Exec.bind_eq_ok h
  obtain ⟨restored, w₃, hread, h⟩ := Exec.bind_eq_ok h
  obtain ⟨-, rfl⟩ := Exec.ensure_eq_ok h
  have hinstalled := installMaterial_eq_ok hinstall
  rw [(readMaterial_eq_ok hread).1]
  rw [hw₁] at hinstalled
  exact hinstalled

/-- The `cat` commands of the first reading of `deploy` fail only for files that are not there. -/
def Truthful (a : Adapter) (w : World) : Prop :=
  ∀ kind, (w.reactions (catIndex (w.issued + a.parents.length) kind)).report = .exit →
    w.container.deployed kind = none

/-- What `deploy` has read before it changes anything. -/
structure OldMaterial (a : Adapter) (w : World) (old : Material) : Prop where
  held : Matches old w.container
  missing : ∀ kind, old.data kind = none ↔ w.container.deployed kind = none ∨
    (w.reactions (catIndex (w.issued + a.parents.length) kind)).report = .exit

/-- The old material is what the files were exactly if the reading was truthful. -/
theorem OldMaterial.restored_iff (h : OldMaterial a w old) {c' : Container}
    (hinstalled : Installed old token c c') :
    (∀ kind, c'.deployed kind = w.container.deployed kind) ↔ Truthful a w := by
  constructor
  · intro hsame kind hexit
    have hnone := (h.missing kind).mpr (Or.inr hexit)
    rw [← hsame kind, hinstalled.deployed kind, hnone]
    rfl
  · intro htruthful kind
    rw [hinstalled.deployed kind]
    cases hdata : old.data kind with
    | none =>
        rcases (h.missing kind).mp hdata with hnone | hexit
        · exact hnone.symm
        · exact (htruthful kind hexit).symm
    | some data => exact (h.held.present kind data hdata).symm

/-- Nothing is staged that was not staged before. -/
def NothingStaged (c c' : Container) : Prop :=
  ∀ token kind, c'.staged token kind = none ∨ c'.staged token kind = c.staged token kind

theorem Installed.nothingStaged {c' : Container} (h : Installed material token c c') :
    NothingStaged c c' := by
  intro t kind
  rw [h.staged t kind]
  split
  · exact Or.inl rfl
  · exact Or.inr rfl

/-! ## Staged files of other tokens -/

def OthersStaged (token : String) (c c' : Container) : Prop :=
  ∀ t, t ≠ token → ∀ kind, c'.staged t kind = c.staged t kind

/-- The installation keeps the staged files of other tokens, and its list names its own only. -/
structure OwnStaging (token : String) (c : Container) (w : World) : Prop where
  others : OthersStaged token c w.container
  own : ∀ path ∈ w.staged, ∃ kind, path = .staged token kind

theorem othersStaged_put {path : Path} (file : Option File)
    (hpath : ∀ t kind, path = .staged t kind → t = token) :
    OthersStaged token c (c.put file path) := by
  intro t ht kind
  cases path with
  | deployed k => rfl
  | staged t' k =>
      have ht' := hpath t' k rfl
      show (if t = t' ∧ kind = k then file else c.staged t kind) = _
      rw [if_neg]
      exact fun hsame => ht (hsame.1.trans ht')

theorem othersStaged_trans {c₁ c₂ c₃ : Container} (h₁ : OthersStaged token c₁ c₂)
    (h₂ : OthersStaged token c₂ c₃) : OthersStaged token c₁ c₃ :=
  fun t ht kind => (h₂ t ht kind).trans (h₁ t ht kind)

theorem othersStaged_removeAll {paths : List Path}
    (hpaths : ∀ path ∈ paths, ∀ t kind, path = .staged t kind → t = token) (c : Container) :
    OthersStaged token c (paths.foldl (fun c path => c.put none path) c) := by
  induction paths generalizing c with
  | nil => exact fun _ _ _ => rfl
  | cons path paths ih =>
      have hfirst := hpaths path List.mem_cons_self
      have hrest :=
        ih (fun path hpath => hpaths path (List.mem_cons_of_mem _ hpath)) (c.put none path)
      exact othersStaged_trans (othersStaged_put none hfirst) hrest

/-- The commands of an installation with this token. -/
def DockerCommand.uses (token : String) : DockerCommand → Prop
  | .copy t _ _ | .chmod _ t _ | .chown _ t _ | .move t _ => t = token
  | .remove paths => ∀ path ∈ paths, ∀ t kind, path = .staged t kind → t = token
  | _ => True

theorem othersStaged_apply (huses : command.uses token) (c : Container) :
    OthersStaged token c (command.apply c) := by
  have hstaged : ∀ {t : String} {kind : Kind}, t = token →
      ∀ t' k, Path.staged t kind = .staged t' k → t' = token := by
    rintro t kind ht _ _ ⟨⟩
    exact ht
  cases command with
  | copy t kind content => exact othersStaged_put _ (hstaged huses)
  | chown owner t kind => exact othersStaged_put _ (hstaged huses)
  | move t kind =>
      cases hfile : c.staged t kind with
      | none =>
          rw [DockerCommand.apply, hfile]
          exact fun _ _ _ => rfl
      | some file =>
          have hdeployed : OthersStaged token c (c.put (some file) (.deployed kind)) :=
            fun _ _ _ => rfl
          rw [DockerCommand.apply, hfile]
          exact othersStaged_trans hdeployed (othersStaged_put _ (hstaged huses))
  | remove paths => exact othersStaged_removeAll huses c
  | _ => exact fun _ _ _ => rfl

theorem invoke_own (huses : command.uses token) :
    Exec.Keeps (OwnStaging token c) (invoke command) := by
  apply Exec.Triple.of_state
  intro w hw
  have hkept : OwnStaging token c (invoke command w).2 := by
    unfold invoke
    dsimp only
    have hcontainer : OthersStaged token c (if ((w.reactions w.issued).report == .success &&
        command.feasible w.container || (w.reactions w.issued).effect) = true then
          command.apply w.container else w.container) := by
      split
      · exact othersStaged_trans hw.others (othersStaged_apply huses w.container)
      · exact hw.others
    split
    · exact ⟨hcontainer, hw.own⟩
    · exact ⟨hcontainer, hw.own⟩
  exact hkept

theorem run_own (command : DockerCommand) (huses : command.uses token) (e : DockerError) :
    Exec.Keeps (OwnStaging token c)
      (invoke command >>= fun succeeded => Exec.ensure succeeded e) :=
  (invoke_own huses).bind fun succeeded => Exec.Keeps.ensure succeeded e

theorem removeContainerPaths_own {paths : List Path}
    (hpaths : ∀ path ∈ paths, ∀ t kind, path = .staged t kind → t = token) :
    Exec.Keeps (OwnStaging token c) (removeContainerPaths paths) := by
  unfold removeContainerPaths
  split
  · exact Exec.Keeps.ret _
  · exact run_own (.remove paths) hpaths _

theorem stage_own (kind : Kind) :
    Exec.Keeps (OwnStaging token c) (stage material token kind) := by
  unfold stage
  cases material.data kind with
  | none => exact Exec.Keeps.ret _
  | some data =>
      apply (run_own (.hostTemp kind) trivial _).bind
      intro _
      apply Exec.Keeps.bind
      · apply Exec.Keeps.update
        intro w hw
        refine ⟨hw.others, ?_⟩
        intro path hpath
        rcases List.mem_append.mp hpath with hpath | hpath
        · exact hw.own path hpath
        · exact ⟨kind, List.mem_singleton.mp hpath⟩
      intro _
      apply (run_own (.copy token kind data) rfl _).bind
      intro _
      apply (run_own (.chmod (mode kind) token kind) rfl _).bind
      exact fun _ => run_own (.chown (material.owner kind) token kind) rfl _

theorem place_own (kind : Kind) :
    Exec.Keeps (OwnStaging token c) (place material token kind) := by
  unfold place
  cases material.data kind with
  | none =>
      apply removeContainerPaths_own
      intro path hpath t k heq
      rw [List.mem_singleton.mp hpath] at heq
      cases heq
  | some data =>
      apply (run_own (.move token kind) rfl _).bind
      intro _
      apply Exec.Keeps.update
      intro w hw
      exact ⟨hw.others, fun path hpath => hw.own path (List.mem_of_mem_erase hpath)⟩

theorem forM_keeps {γ : Type} {I : World → Prop} {f : γ → Program PUnit}
    (hf : ∀ x, Exec.Keeps I (f x)) : ∀ xs : List γ, Exec.Keeps I (xs.forM f)
  | [] => Exec.Keeps.ret _
  | x :: xs => (hf x).bind fun _ => forM_keeps hf xs

/-- Whatever happens to an installation, the staged files of other tokens stay. -/
theorem installMaterial_others (material : Material) (token : String) (w : World) :
    OthersStaged token w.container (installMaterial material token w).2.container := by
  have hclean : ∀ e, Exec.Keeps (OwnStaging token w.container) (cleanStaging e) := by
    intro e
    have hremove : Exec.Keeps (OwnStaging token w.container) (do
        let staged ← Exec.inspect World.staged
        removeContainerPaths staged) := by
      apply @Exec.Triple.bind _ _ _ _ _ fun staged w' =>
        (∀ path ∈ staged, ∃ kind, path = Path.staged token kind) ∧ OwnStaging token w.container w'
      · exact Exec.Triple.inspect fun w' hw => ⟨hw.own, hw⟩
      intro staged
      apply Exec.Triple.assume
      intro hstaged
      apply removeContainerPaths_own
      intro path hpath t kind heq
      obtain ⟨k, hk⟩ := hstaged path hpath
      cases hk.symm.trans heq
      rfl
    apply Exec.Keeps.bind
    · exact Exec.Triple.handle hremove fun _ => Exec.Keeps.raise _
    · exact fun _ => Exec.Keeps.raise _
  have hunlink : Exec.Keeps (OwnStaging token w.container) (do
      let hostTemps ← Exec.inspect World.hostTemps
      (List.replicate hostTemps ()).forM fun _ => onHost .hostUnlink) := by
    apply (Exec.Keeps.inspect _).bind
    exact fun hostTemps => forM_keeps (fun _ => run_own .hostUnlink trivial _) _
  have hinstall :
      Exec.Triple (fun w' => w'.container = w.container) (installMaterial material token)
      (fun _ => OwnStaging token w.container) (fun _ => OwnStaging token w.container) := by
    unfold installMaterial
    apply @Exec.Triple.bind _ _ _ _ _ fun _ => OwnStaging token w.container
    · apply Exec.Triple.update
      intro w' hw'
      refine ⟨?_, nofun⟩
      intro t _ kind
      show w'.container.staged t kind = _
      rw [hw']
    intro _
    apply Exec.Triple.finallyDo
    · apply Exec.Triple.handle
      · exact (forM_keeps stage_own _).bind fun _ => forM_keeps place_own _
      · exact hclean
    · exact fun _ => hunlink
    · exact fun _ => hunlink
  exact (hinstall.state rfl).others

/-! ## Deployment -/

/-- The container holds a certificate with the fingerprint of the source, and its key. -/
def HoldsSource (a : Adapter) (name : String) (c : Container) : Prop :=
  ∃ sourceCertificate sourceKey certificate privateKey fingerprint,
    a.fullchain name = some sourceCertificate ∧ a.privkey name = some sourceKey ∧
    a.fingerprint sourceCertificate sourceKey = some fingerprint ∧
    (c.deployed .certificate).map (·.content) = some certificate ∧
    (c.deployed .privateKey).map (·.content) = some privateKey ∧
    a.fingerprint certificate privateKey = some fingerprint

theorem boundedHostRead_eq_ok {value : Option Bytes} {data : Bytes}
    (h : boundedHostRead value kind = .ok data) : value = some data := by
  unfold boundedHostRead at h
  cases value with
  | none => cases h
  | some data' =>
      dsimp only at h
      split at h
      · cases h
        rfl
      · cases h

theorem boundedHostRead_ne {value : Option Bytes} {e : DockerError}
    (h : boundedHostRead value kind = .error e) : e ≠ restoredError := by
  unfold boundedHostRead at h
  cases value with
  | none =>
      cases h
      nofun
  | some data =>
      dsimp only at h
      split at h
      · cases h
      · cases h
        nofun

theorem validatePair_eq_ok {certificate privateKey : Bytes} {fingerprint : String}
    (h : validatePair a certificate privateKey = .ok fingerprint) :
    a.fingerprint certificate privateKey = some fingerprint := by
  unfold validatePair at h
  split at h
  · cases h
  · split at h
    · cases h
    · split at h
      · next hfingerprint =>
          cases h
          exact hfingerprint
      · cases h

theorem validatePair_ne {certificate privateKey : Bytes} {e : DockerError}
    (h : validatePair a certificate privateKey = .error e) : e ≠ restoredError := by
  unfold validatePair at h
  split at h
  · cases h
    nofun
  · split at h
    · cases h
      nofun
    · split at h
      · cases h
      · cases h
        nofun

theorem verifyDeployed_eq_ok {fingerprint : String} {u : Unit}
    (h : verifyDeployed a fingerprint w = (.ok u, w')) :
    w'.container = w.container ∧ ∃ certificate privateKey,
      (w.container.deployed .certificate).map (·.content) = some certificate ∧
      (w.container.deployed .privateKey).map (·.content) = some privateKey ∧
      a.fingerprint certificate privateKey = some fingerprint := by
  unfold verifyDeployed at h
  obtain ⟨deployed, w₁, hread, h⟩ := Exec.bind_eq_ok h
  obtain ⟨hcontainer, hmatches, -⟩ := readMaterial_eq_ok hread
  rcases hcertificate : deployed.certificate with - | certificate
  · rw [hcertificate] at h
    cases h
  rcases hkey : deployed.privateKey with - | privateKey
  · rw [hcertificate, hkey] at h
    cases h
  rw [hcertificate, hkey] at h
  obtain ⟨found, hfound, h⟩ := Exec.ofExcept_bind_eq_ok h
  obtain ⟨hsame, rfl⟩ := Exec.ensure_eq_ok h
  rw [beq_iff_eq] at hsame
  subst hsame
  refine ⟨hcontainer, certificate, privateKey, ?_, ?_, validatePair_eq_ok hfound⟩
  · rw [hmatches.present .certificate certificate hcertificate]
    rfl
  · rw [hmatches.present .privateKey privateKey hkey]
    rfl

theorem quiet_error {α : Type} {m : Program α} (h : Quiet w.container m) {e : DockerError}
    (hrun : m w = (.error e, w')) : e ≠ restoredError ∧ w'.container = w.container := by
  have hw := h w rfl
  rw [hrun] at hw
  exact hw

/-- The part of `deploy` before the first change. -/
theorem firstReading {u : Unit} {w₁ : World} (hverify : verifyParentPaths a w = (.ok u, w₁))
    (hread : readMaterial true w₁ = (.ok old, w')) :
    OldMaterial a w old ∧ w'.container = w.container := by
  have hw₁ := verifyParents_eq_ok hverify
  obtain ⟨hcontainer, hmatches, hmissing⟩ := readMaterial_eq_ok hread
  rw [hw₁] at hmatches hmissing hcontainer
  exact ⟨⟨hmatches, hmissing⟩, hcontainer⟩

/-- What is known when `deploy` raises. -/
structure Refused (a : Adapter) (w : World) (e : DockerError) (w' : World) : Prop where
  restored : e = restoredError →
    ((∀ kind, w'.container.deployed kind = w.container.deployed kind) ↔ Truthful a w) ∧
      NothingStaged w.container w'.container
  other : e ≠ restoredError → e = rollbackFailedError ∨ w'.container = w.container

theorem Refused.of_quiet {e : DockerError} (h : e ≠ restoredError ∧ w'.container = w.container) :
    Refused a w e w' :=
  ⟨fun he => absurd he h.1, fun _ => Or.inr h.2⟩

theorem removeStaged (token : String) (c : Container) :
    let c' := (kinds.map (Path.staged token)).foldl (fun c path => c.put none path) c
    c'.deployed = c.deployed ∧ ∀ t kind, c'.staged t kind = if t = token then none
      else c.staged t kind := by
  refine ⟨rfl, ?_⟩
  intro t kind
  by_cases ht : t = token
  · cases kind <;> simp [kinds, Container.put, ht]
  · simp [kinds, Container.put, ht]

theorem undoDeployment_refused {rollbackToken : String} {w₁ : World} {r : Except DockerError Unit}
    (hold : OldMaterial a w old) (hothers : OthersStaged token w.container w₁.container)
    (h : undoDeployment a old token rollbackToken w₁ = (r, w')) :
    ∃ e, r = .error e ∧ Refused a w e w' := by
  unfold undoDeployment at h
  rcases Exec.bind_cases h with ⟨e, hhandle, rfl⟩ | ⟨succeeded, w₂, hhandle, h⟩
  · unfold Exec.handle at hhandle
    split at hhandle
    · cases hhandle
    · cases hhandle
  · cases h
    refine ⟨_, rfl, ?_⟩
    unfold Exec.handle at hhandle
    split at hhandle
    · next hbody =>
        cases hhandle
        obtain ⟨_, w₃, hrestore, hbody⟩ := Exec.bind_eq_ok hbody
        obtain ⟨_, w₄, hremove, hret⟩ := Exec.bind_eq_ok hbody
        obtain ⟨rfl, rfl⟩ := Exec.ret_eq_ok hret
        have hinstalled := restore_eq_ok hrestore
        obtain ⟨hdeployed, hstaged⟩ := removeStaged token w₃.container
        rw [← removeContainerPaths_eq_ok hremove] at hdeployed hstaged
        refine ⟨fun _ => ⟨?_, ?_⟩, fun hne => absurd rfl hne⟩
        · rw [hdeployed]
          exact hold.restored_iff hinstalled
        · intro t kind
          rw [hstaged t kind]
          split
          · exact Or.inl rfl
          · next ht =>
              rw [← hothers t ht kind]
              exact hinstalled.nothingStaged t kind
    · cases hhandle
      exact ⟨nofun, fun _ => Or.inl rfl⟩

theorem verifyDeployed_quiet (fingerprint : String) : Quiet c (verifyDeployed a fingerprint) := by
  apply (readMaterial_quiet false).bind
  intro deployed
  rcases deployed.certificate with - | certificate
  · exact Quiet.raise (by decide)
  rcases deployed.privateKey with - | privateKey
  · exact Quiet.raise (by decide)
  apply (Quiet.ofExcept fun e he => validatePair_ne he).bind
  exact fun found => Quiet.ensure _ (by decide)

/-- A failed attempt to install and verify has only touched its own staged files. -/
theorem attempt_others {fingerprint : String} {r : Except DockerError Unit}
    (h : (installMaterial material token >>= fun _ => verifyDeployed a fingerprint) w = (r, w')) :
    OthersStaged token w.container w'.container := by
  have hinstall := installMaterial_others material token w
  rcases Exec.bind_cases h with ⟨e, hrun, -⟩ | ⟨_, w₁, hrun, hverify⟩
  · rw [hrun] at hinstall
    exact hinstall
  · rw [hrun] at hinstall
    have hquiet := verifyDeployed_quiet (a := a) fingerprint w₁ rfl
    rw [hverify] at hquiet
    have hsame : w'.container = w₁.container := by
      cases r with
      | ok _ => exact hquiet
      | error _ => exact hquiet.2
    rw [hsame]
    exact hinstall

/-- What is known when `deploy` returns. -/
structure Accepted (a : Adapter) (name : String) (w : World) (old : Material) (w' : World) :
    Prop where
  holds : HoldsSource a name w'.container
  staged : NothingStaged w.container w'.container
  old : OldMaterial a w old

theorem deploy_cases {name rollbackToken : String} {r : Except DockerError Material}
    (h : deploy a name token rollbackToken w = (r, w')) :
    (∃ old, r = .ok old ∧ Accepted a name w old w') ∨
      ∃ e, r = .error e ∧ Refused a w e w' := by
  unfold deploy at h
  rcases Exec.bind_cases h with ⟨e, hrun, rfl⟩ | ⟨_, w₁, hallowed, h₁⟩
  · exact Or.inr ⟨e, rfl, .of_quiet (quiet_error (Quiet.ensure _ (by decide)) hrun)⟩
  obtain ⟨-, rfl⟩ := Exec.ensure_eq_ok hallowed
  rcases Exec.bind_cases h₁ with ⟨e, hrun, rfl⟩ | ⟨certificate, w₁, hsource, h₂⟩
  · exact Or.inr ⟨e, rfl, .of_quiet
      (quiet_error (Quiet.ofExcept fun e he => boundedHostRead_ne he) hrun)⟩
  obtain ⟨hcertificate, rfl⟩ := Exec.ofExcept_eq_ok hsource
  rcases Exec.bind_cases h₂ with ⟨e, hrun, rfl⟩ | ⟨privateKey, w₁, hsource, h₃⟩
  · exact Or.inr ⟨e, rfl, .of_quiet
      (quiet_error (Quiet.ofExcept fun e he => boundedHostRead_ne he) hrun)⟩
  obtain ⟨hkey, rfl⟩ := Exec.ofExcept_eq_ok hsource
  rcases Exec.bind_cases h₃ with ⟨e, hrun, rfl⟩ | ⟨fingerprint, w₁, hpair, h₄⟩
  · exact Or.inr ⟨e, rfl, .of_quiet
      (quiet_error (Quiet.ofExcept fun e he => validatePair_ne he) hrun)⟩
  obtain ⟨hfingerprint, rfl⟩ := Exec.ofExcept_eq_ok hpair
  rcases Exec.bind_cases h₄ with ⟨e, hrun, rfl⟩ | ⟨_, w₂, hverify, h₅⟩
  · exact Or.inr ⟨e, rfl, .of_quiet (quiet_error verifyParentPaths_quiet hrun)⟩
  have hw₂ := verifyParents_eq_ok hverify
  rcases Exec.bind_cases h₅ with ⟨e, hrun, rfl⟩ | ⟨old, w₃, hread, h₆⟩
  · have hquiet := quiet_error (readMaterial_quiet true) hrun
    rw [hw₂] at hquiet
    exact Or.inr ⟨e, rfl, .of_quiet hquiet⟩
  obtain ⟨hold, hw₃⟩ := firstReading hverify hread
  rcases Exec.bind_cases h₆ with ⟨e, hrun, rfl⟩ | ⟨_, w₄, hrun, h₇⟩
  · right
    unfold Exec.handle at hrun
    split at hrun
    · cases hrun
    · next e' w₄ hattempt =>
        have hothers := attempt_others hattempt
        rw [hw₃] at hothers
        obtain ⟨e'', he'', hrefused⟩ := undoDeployment_refused hold hothers hrun
        cases he''
        exact ⟨e, rfl, hrefused⟩
  · left
    have hraises : ∀ (e : DockerError) w u w', undoDeployment a old token rollbackToken w ≠
        (.ok u, w') := fun _ _ _ _ => Exec.bind_raise_ne_ok
    have hattempt := Exec.handle_eq_ok (fun e => hraises e) hrun
    obtain ⟨_, w₅, hinstall, hattempt⟩ := Exec.bind_eq_ok hattempt
    have hinstalled := installMaterial_eq_ok hinstall
    obtain ⟨hw₄, certificate', privateKey', hcertificate', hkey', hfingerprint'⟩ :=
      verifyDeployed_eq_ok hattempt
    cases h₇
    refine ⟨old, rfl, ?_, ?_, hold⟩
    · refine ⟨certificate, privateKey, certificate', privateKey', fingerprint,
        boundedHostRead_eq_ok hcertificate, boundedHostRead_eq_ok hkey,
        validatePair_eq_ok hfingerprint, ?_, ?_, hfingerprint'⟩
      · show (w₄.container.deployed .certificate).map _ = _
        rw [hw₄]
        exact hcertificate'
      · show (w₄.container.deployed .privateKey).map _ = _
        rw [hw₄]
        exact hkey'
    · intro t kind
      show w₄.container.staged t kind = none ∨ w₄.container.staged t kind = _
      rw [hw₄, ← hw₃]
      exact hinstalled.nothingStaged t kind

/-- Both files have the content and the owner, or the absence, that they had. -/
def SameFiles (c c' : Container) : Prop := ∀ kind, c'.deployed kind = c.deployed kind

/-- A deployment that reports a restored container has restored it; `w₁` is any later world. -/
structure Transactional (a : Adapter) (name token rollbackToken : String) (w : World) : Prop where
  returned : ∀ old w', deploy a name token rollbackToken w = (.ok old, w') →
    HoldsSource a name w'.container ∧ NothingStaged w.container w'.container
  restored : ∀ w', deploy a name token rollbackToken w = (.error restoredError, w') →
    SameFiles w.container w'.container ∧ NothingStaged w.container w'.container
  rolledBack : ∀ old w', deploy a name token rollbackToken w = (.ok old, w') →
    ∀ laterToken w₁ u w₂, rollback a old laterToken w₁ = (.ok u, w₂) →
      SameFiles w.container w₂.container ∧ NothingStaged w₁.container w₂.container
  other : ∀ e w', deploy a name token rollbackToken w = (.error e, w') → e ≠ restoredError →
    e = rollbackFailedError ∨ w'.container = w.container

theorem rollback_eq_ok {u : Unit} (h : rollback a old token w = (.ok u, w')) :
    Installed old token w.container w'.container := by
  unfold rollback at h
  rw [Exec.inspect_bind] at h
  obtain ⟨-, h⟩ := Exec.ensure_bind_eq_ok h
  obtain ⟨_, w₁, hrestore, h⟩ := Exec.bind_eq_ok h
  have hinstalled := restore_eq_ok hrestore
  cases h
  exact hinstalled

/-- A reported restoration is one exactly if the first reading was truthful; everything else that
a deployment reports is right on every schedule. -/
theorem docker_restored_iff_truthful (a : Adapter) (name token rollbackToken : String) (w : World) :
    (Truthful a w → Transactional a name token rollbackToken w) ∧
    (∀ old w', deploy a name token rollbackToken w = (.ok old, w') →
      HoldsSource a name w'.container ∧ NothingStaged w.container w'.container ∧
      ∀ laterToken w₁ u w₂, rollback a old laterToken w₁ = (.ok u, w₂) →
        (SameFiles w.container w₂.container ↔ Truthful a w) ∧
          NothingStaged w₁.container w₂.container) ∧
    ∀ e w', deploy a name token rollbackToken w = (.error e, w') →
      (e = restoredError → (SameFiles w.container w'.container ↔ Truthful a w) ∧
        NothingStaged w.container w'.container) ∧
      (e ≠ restoredError → e = rollbackFailedError ∨ w'.container = w.container) := by
  have hok : ∀ old w', deploy a name token rollbackToken w = (.ok old, w') →
      Accepted a name w old w' := by
    intro old w' hrun
    rcases deploy_cases hrun with ⟨old', hr, haccepted⟩ | ⟨e, hr, -⟩
    · cases hr
      exact haccepted
    · cases hr
  have herror : ∀ e w', deploy a name token rollbackToken w = (.error e, w') →
      Refused a w e w' := by
    intro e w' hrun
    rcases deploy_cases hrun with ⟨old', hr, -⟩ | ⟨e', hr, hrefused⟩
    · cases hr
    · cases hr
      exact hrefused
  have hrollback : ∀ old w', deploy a name token rollbackToken w = (.ok old, w') →
      ∀ laterToken w₁ u w₂, rollback a old laterToken w₁ = (.ok u, w₂) →
        (SameFiles w.container w₂.container ↔ Truthful a w) ∧
          NothingStaged w₁.container w₂.container := by
    intro old w' hrun laterToken w₁ u w₂ hback
    have hinstalled := rollback_eq_ok hback
    refine ⟨?_, hinstalled.nothingStaged⟩
    exact (hok old w' hrun).old.restored_iff hinstalled
  refine ⟨?_, ?_, ?_⟩
  · intro htruthful
    refine ⟨?_, ?_, ?_, ?_⟩
    · intro old w' hrun
      exact ⟨(hok old w' hrun).holds, (hok old w' hrun).staged⟩
    · intro w' hrun
      obtain ⟨hsame, hstaged⟩ := (herror _ w' hrun).restored rfl
      exact ⟨hsame.mpr htruthful, hstaged⟩
    · intro old w' hrun laterToken w₁ u w₂ hback
      obtain ⟨hsame, hstaged⟩ := hrollback old w' hrun laterToken w₁ u w₂ hback
      exact ⟨hsame.mpr htruthful, hstaged⟩
    · exact fun e w' hrun => (herror e w' hrun).other
  · intro old w' hrun
    exact ⟨(hok old w' hrun).holds, (hok old w' hrun).staged, hrollback old w' hrun⟩
  · intro e w' hrun
    exact ⟨(herror e w' hrun).restored, (herror e w' hrun).other⟩

/-! ## A lost certificate -/

/-- A pair of files has a fingerprint if both are one byte. -/
def sampleAdapter : Adapter where
  allowedNames := ["mail"]
  certificateParent := "/data"
  privateKeyParent := "/data"
  fullchain _ := some [3]
  privkey _ := some [4]
  fingerprint certificate privateKey :=
    if certificate.length = 1 ∧ privateKey.length = 1 then some "fp" else none

/-- A container with both files, whose `cat` of the certificate fails once, and whose first
`docker cp` fails. -/
def busyWorld : World where
  container := ⟨fun kind => match kind with
    | .certificate => some ⟨[1], ⟨5, 5⟩⟩
    | .privateKey => some ⟨[2], ⟨5, 5⟩⟩, fun _ _ => none⟩
  reactions n := ⟨if n = 2 ∨ n = 6 then .exit else .success, false, true⟩
  issued := 0
  staged := []
  hostTemps := 0
  rollbackUsed := false

theorem lost_certificate_reported_restored :
    ¬ ∀ (a : Adapter) (name token rollbackToken : String) (w : World),
      Transactional a name token rollbackToken w := by
  intro h
  have hreport : (deploy sampleAdapter "mail" "t" "r" busyWorld).1 = .error restoredError := by
    decide +kernel
  have hlost : (deploy sampleAdapter "mail" "t" "r" busyWorld).2.container.deployed .certificate =
      none := by decide +kernel
  have hrestored := (h sampleAdapter "mail" "t" "r" busyWorld).restored _ (Prod.ext hreport rfl)
  rw [hrestored.1 .certificate] at hlost
  cases hlost

end MaddyWeb.Certificates.Docker
