import Mathlib.Data.Set.Function
import MaddyWeb.Library.Fallible
import MaddyWeb.Rules.Snapshot

/-!
# Reconciliation never mixes rule generations

Every state that the directory goes through is one with old snapshots only or, later, one
with authoritative snapshots only; temporary files are in neither.
-/

namespace MaddyWeb.Rules

open MaddyWeb.Library

/-! ## File operations -/

/-- After `before`, the directory has only been in states with `P`. -/
def Within (before : List Disk) (P : Disk → Prop) (s : Storage) : Prop :=
  (∃ after, s.history = before ++ after ∧ ∀ disk ∈ after, P disk) ∧ P s.disk

variable {before : List Disk} {P A B : Disk → Prop} {s : Storage}

theorem Within.become (h : Within before P s) {disk : Disk} (hdisk : P disk) :
    Within before P (s.become disk) := by
  obtain ⟨⟨after, hhistory, hall⟩, -⟩ := h
  refine ⟨⟨after ++ [disk], ?_, ?_⟩, hdisk⟩
  · show s.history ++ [disk] = _
    rw [hhistory, List.append_assoc]
  · intro other hother
    rcases List.mem_append.mp hother with hother | hother
    · exact hall other hother
    · rw [List.mem_singleton.mp hother]
      exact hdisk

theorem fileOperation_triple {f : Disk → Disk} (hf : ∀ disk, P disk → A disk → P (f disk))
    (hpost : ∀ disk, P disk → A disk → B (f disk)) :
    Exec.Triple (fun s => Within before P s ∧ A s.disk) (fileOperation f)
      (fun _ s => Within before P s ∧ B s.disk) (fun _ s => Within before P s) := by
  rintro s ⟨hs, hA⟩
  have hnext := hf s.disk hs.2 hA
  unfold fileOperation
  cases s.faults s.operations with
  | none => exact ⟨hs.become hnext, hpost s.disk hs.2 hA⟩
  | some effect =>
      cases effect with
      | true => exact hs.become hnext
      | false => exact hs.become hs.2

theorem fileReading_triple {α : Type} {f : Disk → α} :
    Exec.Triple (fun s => Within before P s ∧ A s.disk) (fileReading f)
      (fun a s => Within before P s ∧ A s.disk ∧ a = f s.disk) (fun _ s => Within before P s) := by
  rintro s ⟨hs, hA⟩
  unfold fileReading
  cases s.faults s.operations with
  | none => exact ⟨hs.become hs.2, hA, rfl⟩
  | some _ => exact hs.become hs.2

theorem synchronize_triple :
    Exec.Triple (fun s => Within before P s ∧ A s.disk) synchronize
      (fun _ s => Within before P s ∧ A s.disk) (fun _ s => Within before P s) :=
  fileOperation_triple (fun _ hP _ => hP) fun _ _ hA => hA

theorem requireDirectory_triple :
    Exec.Triple (fun s => Within before P s ∧ A s.disk) requireDirectory
      (fun _ s => Within before P s ∧ A s.disk) (fun _ s => Within before P s) :=
  fileReading_triple.conseq (fun _ hs => hs) (fun _ _ hs => ⟨hs.1, hs.2.1⟩) fun _ _ hs => hs

theorem requirePrivateTarget_triple {target : String} :
    Exec.Triple (fun s => Within before P s ∧ A s.disk) (requirePrivateTarget target)
      (fun _ s => Within before P s ∧ A s.disk) (fun _ s => Within before P s) := by
  unfold requirePrivateTarget
  apply Exec.Triple.bind fileReading_triple
  intro found
  split
  · exact Exec.Triple.ret fun s hs => ⟨hs.1, hs.2.1⟩
  · exact Exec.Triple.ensure (fun s hs _ => ⟨hs.1, hs.2.1⟩) fun s hs _ => hs.1

/-! ## The purge -/

/-- Nothing is in the directory that was not there before. -/
def Older (disk₀ disk : Disk) : Prop :=
  ∀ name, Dict.get disk name = Dict.get disk₀ name ∨ Dict.get disk name = none

theorem Older.erase {disk₀ disk : Disk} (h : Older disk₀ disk) (name : String) :
    Older disk₀ (Dict.erase disk name) := by
  intro other
  rw [Dict.get_erase]
  split
  · exact Or.inr rfl
  · exact h other

variable {disk₀ : Disk}

/-- Every listed entry is removed. -/
theorem purge_triple (entries : List (String × File)) :
    Exec.Triple (fun s => Within [] (Older disk₀) s)
      (entries.forM fun entry => fileOperation (Dict.erase · entry.1))
      (fun _ s => Within [] (Older disk₀) s ∧ ∀ entry ∈ entries, Dict.get s.disk entry.1 = none)
      (fun _ s => Within [] (Older disk₀) s) := by
  have hloop := @Exec.Triple.forM Storage SnapshotError (fun _ s => Within [] (Older disk₀) s)
    (String × File) (fun entry => fileOperation (Dict.erase · entry.1))
    (fun done s => Within [] (Older disk₀) s ∧ ∀ entry ∈ done, Dict.get s.disk entry.1 = none)
    entries []
  apply (hloop ?_).conseq (fun s hs => ⟨hs, nofun⟩) (fun _ _ hs => hs) fun _ _ hs => hs
  intro entry _ done
  apply @fileOperation_triple _ _ (fun disk => ∀ entry ∈ done, Dict.get disk entry.1 = none)
    (fun disk => ∀ other ∈ done ++ [entry], Dict.get disk other.1 = none)
  · exact fun disk hP _ => hP.erase entry.1
  · intro disk _ hA other hother
    rw [Dict.get_erase]
    split
    · rfl
    · next hne =>
        rcases List.mem_append.mp hother with hother | hother
        · exact hA other hother
        · exact absurd (congrArg Prod.fst (List.mem_singleton.mp hother)) hne

/-! ## Publication -/

variable {env : SnapshotEnv} {snapshots : List (String × List Json)}

/-- The file of an account, with its authoritative document. -/
structure IsSnapshotOf (env : SnapshotEnv) (entry : String × List Json) (name : String)
    (file : File) : Prop where
  name : snapshotName env entry.1 = .ok name
  isPrivate : file.isPrivate = true
  content : buildSnapshot entry.1 entry.2 = .ok file.content

/-- Only authoritative snapshots, and temporary files. -/
def Authoritative (env : SnapshotEnv) (snapshots : List (String × List Json)) (disk : Disk) :
    Prop :=
  ∀ name file, Dict.get disk name = some file →
    isTemporaryName name = true ∨ ∃ entry ∈ snapshots, IsSnapshotOf env entry name file

def Has (env : SnapshotEnv) (disk : Disk) (entry : String × List Json) : Prop :=
  ∃ name file, Dict.get disk name = some file ∧ IsSnapshotOf env entry name file

def Published (env : SnapshotEnv) (done : List (String × List Json)) (disk : Disk) : Prop :=
  ∀ entry ∈ done, Has env disk entry

/-- Digests are hexadecimal, and those of different accounts differ. -/
structure Digests (env : SnapshotEnv) (accounts : Set String) : Prop where
  hex : ∀ email, isSnapshotName (env.sha256 email ++ ".json") = true
  injective : Set.InjOn env.sha256 accounts

variable {accounts : Set String}

theorem isTemporaryName_append (suffix : String) :
    isTemporaryName (".snapshot-" ++ suffix) = true := by
  unfold isTemporaryName
  rw [String.toList_append]
  simp

/-- The digest of an address does not begin with a dot. -/
theorem Digests.not_temporary (h : Digests env accounts) {email name : String}
    (hname : snapshotName env email = .ok name) : isTemporaryName name = false := by
  unfold snapshotName at hname
  split at hname
  · cases hname
  · cases hname
    have hhex := h.hex email
    unfold isSnapshotName at hhex
    unfold isTemporaryName
    simp only [Bool.and_eq_true] at hhex
    have hall := hhex.1.2
    cases htext : (env.sha256 email ++ ".json").toList with
    | nil => rfl
    | cons c rest =>
        rw [htext] at hall
        have hc : (c.isDigit || (decide (0x61 ≤ c.toNat) && decide (c.toNat ≤ 0x66))) = true := by
          rw [show 64 = 63 + 1 from rfl, List.take_succ_cons, List.all_cons,
            Bool.and_eq_true] at hall
          exact hall.1
        have hne : c ≠ '.' := by
          rintro rfl
          revert hc
          decide
        have hdot : ".snapshot-".toList = '.' :: "snapshot-".toList := by decide
        rw [hdot, List.isPrefixOf, beq_eq_false_iff_ne.mpr hne.symm, Bool.false_and]

theorem Digests.eq_of_name (h : Digests env accounts) {email email' name : String}
    (hemail : email ∈ accounts) (hemail' : email' ∈ accounts)
    (hname : snapshotName env email = .ok name) (hname' : snapshotName env email' = .ok name) :
    email = email' := by
  unfold snapshotName at hname hname'
  split at hname
  · cases hname
  split at hname'
  · cases hname'
  cases hname
  apply h.injective hemail hemail'
  have happend := Except.ok.inj hname'
  have htext := congrArg String.toList happend
  rw [String.toList_append, String.toList_append] at htext
  exact (String.toList_inj.mp (List.append_cancel_right htext)).symm

/-- A change of temporary files only. -/
def OnlyTemporary (disk disk' : Disk) : Prop :=
  ∀ name, isTemporaryName name = false → Dict.get disk' name = Dict.get disk name

theorem Authoritative.temporary {disk disk' : Disk} (h : Authoritative env snapshots disk)
    (hchange : OnlyTemporary disk disk') : Authoritative env snapshots disk' := by
  intro name file hfile
  cases htemporary : isTemporaryName name with
  | true => exact Or.inl rfl
  | false =>
      rw [hchange name htemporary] at hfile
      rcases h name file hfile with hname | hname
      · rw [htemporary] at hname
        cases hname
      · exact Or.inr hname

theorem Has.temporary (hdigests : Digests env accounts) {disk disk' : Disk}
    {entry : String × List Json}
    (h : Has env disk entry) (hchange : OnlyTemporary disk disk') : Has env disk' entry := by
  obtain ⟨name, file, hfile, hsnapshot⟩ := h
  refine ⟨name, file, ?_, hsnapshot⟩
  rw [hchange name (hdigests.not_temporary hsnapshot.name)]
  exact hfile

theorem onlyTemporary_set {disk : Disk} {name : String} (hname : isTemporaryName name = true)
    (file : File) : OnlyTemporary disk (Dict.set disk name file) := by
  intro other hother
  rw [Dict.get_set, if_neg]
  rintro rfl
  rw [hname] at hother
  cases hother

theorem onlyTemporary_setFile {disk : Disk} {name : String} (hname : isTemporaryName name = true)
    (f : File → File) : OnlyTemporary disk (setFile name f disk) := by
  unfold setFile
  split
  · exact onlyTemporary_set hname _
  · exact fun _ _ => rfl

theorem onlyTemporary_erase {disk : Disk} {name : String} (hname : isTemporaryName name = true) :
    OnlyTemporary disk (Dict.erase disk name) := by
  intro other hother
  rw [Dict.get_erase, if_neg]
  rintro rfl
  rw [hname] at hother
  cases hother

/-- The snapshots that are there, and a file with `Q` under a temporary name. -/
def Prepared (env : SnapshotEnv) (done : List (String × List Json)) (name : String)
    (Q : File → Prop) (disk : Disk) : Prop :=
  Published env done disk ∧ ∃ file, Dict.get disk name = some file ∧ Q file

theorem Prepared.setFile (hdigests : Digests env accounts) {done : List (String × List Json)}
    {name : String}
    (hname : isTemporaryName name = true) {Q Q' : File → Prop} {f : File → File}
    (hf : ∀ file, Q file → Q' (f file)) {disk : Disk} (h : Prepared env done name Q disk) :
    Prepared env done name Q' (setFile name f disk) := by
  obtain ⟨hdone, file, hfile, hQ⟩ := h
  refine ⟨fun entry hentry => (hdone entry hentry).temporary hdigests
    (onlyTemporary_setFile hname f), f file, ?_, hf file hQ⟩
  unfold Rules.setFile
  rw [hfile, Dict.get_set, if_pos rfl]

theorem Authoritative.move {disk : Disk} (h : Authoritative env snapshots disk)
    {name target : String}
    {file : File} (hfile : Dict.get disk name = some file) {entry : String × List Json}
    (hentry : entry ∈ snapshots) (hsnapshot : IsSnapshotOf env entry target file) :
    Authoritative env snapshots (moveFile name target disk) := by
  intro other found hfound
  unfold moveFile at hfound
  rw [hfile] at hfound
  dsimp only at hfound
  rw [Dict.get_set] at hfound
  split at hfound
  · next heq =>
      cases hfound
      rw [heq]
      exact Or.inr ⟨entry, hentry, hsnapshot⟩
  · rw [Dict.get_erase] at hfound
    split at hfound
    · cases hfound
    · exact h other found hfound

/-- After the move the new snapshot is there, with the others. -/
theorem has_move (hdigests : Digests env accounts) {disk : Disk} {name target : String}
    {file : File}
    (hname : isTemporaryName name = true) (hfile : Dict.get disk name = some file)
    {entry : String × List Json} (hsnapshot : IsSnapshotOf env entry target file)
    {done : List (String × List Json)} (hdone : Published env done disk)
    (hentry : entry.1 ∈ accounts)
    (hkeys : ∀ other ∈ done, other.1 ∈ accounts ∧ (other.1 = entry.1 → other = entry)) :
    Published env (done ++ [entry]) (moveFile name target disk) := by
  have hmove : moveFile name target disk = Dict.set (Dict.erase disk name) target file := by
    unfold moveFile
    rw [hfile]
  have hself : Has env (moveFile name target disk) entry := by
    refine ⟨target, file, ?_, hsnapshot⟩
    rw [hmove, Dict.get_set, if_pos rfl]
  intro other hother
  rcases List.mem_append.mp hother with hother | hother
  · obtain ⟨place, found, hfound, hother'⟩ := hdone other hother
    by_cases heq : place = target
    · rw [heq] at hother'
      have hsame := hdigests.eq_of_name (hkeys other hother).1 hentry hother'.name hsnapshot.name
      rw [(hkeys other hother).2 hsame]
      exact hself
    · refine ⟨place, found, ?_, hother'⟩
      have hne : place ≠ name := by
        rintro rfl
        rw [hdigests.not_temporary hother'.name] at hname
        cases hname
      rw [hmove, Dict.get_set, if_neg heq, Dict.get_erase, if_neg hne]
      exact hfound
  · rw [List.mem_singleton.mp hother]
    exact hself

section Publish

variable (hdigests : Digests env accounts) {entry : String × List Json} (hentry : entry ∈ snapshots)
  (haccount : entry.1 ∈ accounts) {done : List (String × List Json)}
  (hkeys : ∀ other ∈ done, other.1 ∈ accounts ∧ (other.1 = entry.1 → other = entry))

include hdigests

theorem setFile_triple {name : String} (hname : isTemporaryName name = true) {Q Q' : File → Prop}
    {f : File → File}
    (hf : ∀ file, Q file → Q' (f file)) :
    Exec.Triple (fun s => Within before (Authoritative env snapshots) s ∧
        Prepared env done name Q s.disk) (fileOperation (setFile name f))
      (fun _ s => Within before (Authoritative env snapshots) s ∧ Prepared env done name Q' s.disk)
      (fun _ s => Within before (Authoritative env snapshots) s) :=
  fileOperation_triple (fun _ hP _ => hP.temporary (onlyTemporary_setFile hname f))
    fun _ _ hA => hA.setFile hdigests hname hf

theorem makeTemporary_triple :
    Exec.Triple (fun s => Within before (Authoritative env snapshots) s ∧ Published env done s.disk)
      makeTemporary
      (fun name s => isTemporaryName name = true ∧ Within before (Authoritative env snapshots) s ∧
        Prepared env done name (fun file => file.isRegular = true ∧ file.links = 1) s.disk)
      (fun _ s => Within before (Authoritative env snapshots) s) := by
  unfold makeTemporary
  apply @Exec.Triple.bind _ _ _ _ _ fun _ s => Within before (Authoritative env snapshots) s ∧
    Published env done s.disk
  · exact Exec.Triple.inspect fun _ hs => hs
  intro suffix
  dsimp only
  have hname := isTemporaryName_append suffix
  apply Exec.Triple.bind fileReading_triple
  intro taken
  refine Exec.Triple.ensure_bind (fun s hs => hs.1) ?_
  intro _
  apply @Exec.Triple.bind _ _ _ _ _ fun _ s => Within before (Authoritative env snapshots) s ∧
    Prepared env done (".snapshot-" ++ suffix) (fun file => file.isRegular = true ∧
      file.links = 1) s.disk
  · have hset := @fileOperation_triple before (Authoritative env snapshots) (Published env done)
      (Prepared env done (".snapshot-" ++ suffix) fun file => file.isRegular = true ∧
        file.links = 1)
      (Dict.set · (".snapshot-" ++ suffix) ⟨true, 1, 0o600, []⟩) ?_ ?_
    · exact hset.conseq (fun s hs => ⟨hs.1, hs.2.1⟩) (fun _ _ hs => hs) fun _ _ hs => hs
    · exact fun disk hP _ => hP.temporary (onlyTemporary_set hname _)
    · intro disk _ hA
      refine ⟨fun other hother => (hA other hother).temporary hdigests (onlyTemporary_set hname _),
        ⟨true, 1, 0o600, []⟩, ?_, rfl, rfl⟩
      rw [Dict.get_set, if_pos rfl]
  intro _
  exact Exec.Triple.ret fun s hs => ⟨hname, hs⟩

include hentry haccount hkeys

section Target

variable {name target : String} {payload : Bytes}
  (hpayload : buildSnapshot entry.1 entry.2 = .ok payload)
  (htarget : snapshotName env entry.1 = .ok target)

include hpayload htarget

theorem replaceTarget_triple (changesGroup : Bool) (hname : isTemporaryName name = true) :
    Exec.Triple (fun s => Within before (Authoritative env snapshots) s ∧
        Prepared env done name (fun file => file.isRegular = true ∧ file.links = 1) s.disk)
      (replaceTarget changesGroup name target payload)
      (fun _ s => Within before (Authoritative env snapshots) s ∧
        Published env (done ++ [entry]) s.disk)
      (fun _ s => Within before (Authoritative env snapshots) s) := by
  unfold replaceTarget
  apply @Exec.Triple.bind _ _ _ _ _ fun _ s => Within before (Authoritative env snapshots) s ∧
    Prepared env done name (fun file => file.isPrivate = true) s.disk
  · apply setFile_triple hdigests hname
    intro file hfile
    unfold File.isPrivate
    simp [hfile.1, hfile.2]
  intro _
  apply @Exec.Triple.bind _ _ _ _ _ fun _ s => Within before (Authoritative env snapshots) s ∧
    Prepared env done name (fun file => file.isPrivate = true) s.disk
  · unfold changeGroup
    apply Exec.Triple.ite
    · exact fun _ => synchronize_triple
    · exact fun _ => Exec.Triple.ret fun _ hs => hs
  intro _
  apply @Exec.Triple.bind _ _ _ _ _ fun _ s => Within before (Authoritative env snapshots) s ∧
    Prepared env done name (fun file => file.isPrivate = true ∧ file.content = payload) s.disk
  · unfold writeFile
    apply @Exec.Triple.bind _ _ _ _ _ fun _ s => Within before (Authoritative env snapshots) s ∧
      Prepared env done name (fun file => file.isPrivate = true) s.disk
    · exact Exec.Triple.inspect fun _ hs => hs
    intro count
    apply @Exec.Triple.bind _ _ _ _ _ fun _ s => Within before (Authoritative env snapshots) s ∧
      Prepared env done name (fun file => file.isPrivate = true) s.disk
    · exact setFile_triple hdigests hname fun file hfile => hfile
    intro _
    exact setFile_triple hdigests hname fun file hfile => ⟨hfile, rfl⟩
  intro _
  apply Exec.Triple.bind synchronize_triple
  intro _
  apply @Exec.Triple.bind _ _ _ _ _ fun _ s => Within before (Authoritative env snapshots) s ∧
    Published env (done ++ [entry]) s.disk
  · apply fileOperation_triple
    · rintro disk hP ⟨-, file, hfile, hprivate, rfl⟩
      exact hP.move hfile hentry ⟨htarget, hprivate, hpayload⟩
    · rintro disk _ ⟨hdone, file, hfile, hprivate, rfl⟩
      exact has_move hdigests hname hfile ⟨htarget, hprivate, hpayload⟩ hdone haccount hkeys
  intro _
  apply Exec.Triple.bind synchronize_triple
  intro _
  unfold verifyTarget
  apply Exec.Triple.bind fileReading_triple
  intro found
  split
  · exact Exec.Triple.raise fun s hs => hs.1
  · unfold requirePrivate
    refine Exec.Triple.ensure_bind (fun s hs => hs.1) ?_
    intro _
    exact Exec.Triple.ensure (fun s hs _ => ⟨hs.1, hs.2.1⟩) fun s hs _ => hs.1

end Target

theorem publishSnapshot_triple (changesGroup : Bool) :
    Exec.Triple (fun s => Within before (Authoritative env snapshots) s ∧ Published env done s.disk)
      (publishSnapshot env changesGroup entry.1 entry.2)
      (fun _ s => Within before (Authoritative env snapshots) s ∧
        Published env (done ++ [entry]) s.disk)
      (fun _ s => Within before (Authoritative env snapshots) s) := by
  unfold publishSnapshot
  apply Exec.Triple.bind requireDirectory_triple
  intro _
  apply Exec.Triple.ofExcept_bind fun _ s hs => hs.1
  intro payload hpayload
  apply Exec.Triple.ofExcept_bind fun _ s hs => hs.1
  intro target htarget
  apply Exec.Triple.bind requirePrivateTarget_triple
  intro _
  apply Exec.Triple.bind (makeTemporary_triple hdigests)
  intro name
  apply Exec.Triple.assume
  intro hname
  apply Exec.Triple.handle (replaceTarget_triple hdigests hentry haccount hkeys hpayload htarget
    changesGroup
    hname)
  intro e
  have herase := @fileOperation_triple before (Authoritative env snapshots) (fun _ => True)
    (fun _ => True) (Dict.erase · name) (fun _ hP _ => hP.temporary (onlyTemporary_erase hname))
    fun _ _ _ => trivial
  apply (Exec.Triple.bind herase fun _ => Exec.Triple.raise fun s hs => hs.1).conseq
    (fun s hs => ⟨hs, trivial⟩) (fun _ _ hs => hs) fun _ _ hs => hs

theorem republish_triple (changesGroup : Bool) :
    Exec.Triple (fun s => Within before (Authoritative env snapshots) s ∧ Published env done s.disk)
      (republish env changesGroup entry)
      (fun _ s => Within before (Authoritative env snapshots) s ∧
        Published env (done ++ [entry]) s.disk)
      (fun _ s => Within before (Authoritative env snapshots) s) := by
  unfold republish
  apply Exec.Triple.bind (publishSnapshot_triple hdigests hentry haccount hkeys changesGroup)
  intro _
  apply Exec.Triple.ofExcept_bind fun _ s hs => hs.1
  intro payload _
  apply Exec.Triple.ofExcept_bind fun _ s hs => hs.1
  intro target _
  apply Exec.Triple.bind fileReading_triple
  intro file
  exact Exec.Triple.ensure (fun s hs _ => ⟨hs.1, hs.2.1⟩) fun s hs _ => hs.1

end Publish

/-! ## The whole run -/

/-- No state before the publications has a new file, and none after them has an old one. -/
def Separated (env : SnapshotEnv) (snapshots : List (String × List Json)) (disk₀ : Disk)
    (history : List Disk) : Prop :=
  ∃ older newer, history = older ++ newer ∧ (∀ disk ∈ older, Older disk₀ disk) ∧
    ∀ disk ∈ newer, Authoritative env snapshots disk

theorem Within.separated (h : Within [] (Older disk₀) s) :
    Separated env snapshots disk₀ s.history := by
  obtain ⟨⟨older, hhistory, holder⟩, -⟩ := h
  exact ⟨older, [], by rw [hhistory, List.nil_append, List.append_nil], holder, nofun⟩

theorem Within.separated_of_older {older : List Disk} (holder : ∀ disk ∈ older, Older disk₀ disk)
    (h : Within older (Authoritative env snapshots) s) :
    Separated env snapshots disk₀ s.history := by
  obtain ⟨⟨newer, hhistory, hnewer⟩, -⟩ := h
  exact ⟨older, newer, hhistory, holder, hnewer⟩

theorem mem_sortedAccounts {entry : String × List Json} :
    entry ∈ sortedAccounts snapshots ↔ entry ∈ snapshots :=
  List.mem_mergeSort

theorem publishAll_triple (hdigests : Digests env accounts)
    (haccounts : ∀ entry ∈ snapshots, entry.1 ∈ accounts) (hkeys : (snapshots.map (·.1)).Nodup)
    (changesGroup : Bool) :
    Exec.Triple (fun s => Within before (Authoritative env snapshots) s)
      ((sortedAccounts snapshots).forM (republish env changesGroup))
      (fun _ s => Within before (Authoritative env snapshots) s ∧ Published env snapshots s.disk)
      (fun _ s => Within before (Authoritative env snapshots) s) := by
  have hloop := @Exec.Triple.forM Storage SnapshotError
    (fun _ s => Within before (Authoritative env snapshots) s) (String × List Json)
    (republish env changesGroup)
    (fun done s => (∀ entry ∈ done, entry ∈ snapshots) ∧
      Within before (Authoritative env snapshots) s ∧ Published env done s.disk)
    (sortedAccounts snapshots) []
  apply (hloop ?_).conseq
  · exact fun s hs => ⟨nofun, hs, nofun⟩
  · exact fun _ s hs => ⟨hs.2.1, fun entry hentry => hs.2.2 entry (mem_sortedAccounts.mpr hentry)⟩
  · exact fun _ _ hs => hs
  intro entry hentry done
  have hentry' := mem_sortedAccounts.mp hentry
  apply Exec.Triple.assume
  intro hdone
  apply (republish_triple hdigests hentry' (haccounts entry hentry') ?_ changesGroup).conseq
    (fun s hs => hs) _ fun _ _ hs => hs
  · intro other hother
    exact ⟨haccounts other (hdone other hother),
      List.inj_on_of_nodup_map hkeys (hdone other hother) hentry'⟩
  · intro _ s hs
    refine ⟨?_, hs⟩
    intro other hother
    rcases List.mem_append.mp hother with hother | hother
    · exact hdone other hother
    · rw [List.mem_singleton.mp hother]
      exact hentry'

/-- An empty directory has only authoritative snapshots. -/
theorem authoritative_of_purged {entries : Disk} (hall : entries.all isExpected = true)
    (hlisted : ∀ name, Dict.get s.disk name = Dict.get entries name ∨ Dict.get s.disk name = none)
    (hpurged : ∀ entry ∈ entries.filter isExpected, Dict.get s.disk entry.1 = none) :
    Authoritative env snapshots s.disk := by
  intro name file hfile
  rcases hlisted name with hsame | hnone
  · have hentry : (name, file) ∈ entries := Dict.mem_of_get (hsame ▸ hfile)
    have hexpected := List.all_eq_true.mp hall _ hentry
    have hgone := hpurged _ (List.mem_filter.mpr ⟨hentry, hexpected⟩)
    rw [hgone] at hfile
    cases hfile
  · rw [hnone] at hfile
    cases hfile

theorem replaceSnapshotSet_triple (hdigests : Digests env accounts)
    (haccounts : ∀ entry ∈ snapshots, entry.1 ∈ accounts) (hkeys : (snapshots.map (·.1)).Nodup)
    (changesGroup : Bool) :
    Exec.Triple (fun s => s.history = [] ∧ s.disk = disk₀)
      (replaceSnapshotSet env changesGroup snapshots)
      (fun _ s => Separated env snapshots disk₀ s.history ∧ Authoritative env snapshots s.disk ∧
        Published env snapshots s.disk)
      (fun _ s => Separated env snapshots disk₀ s.history) := by
  unfold replaceSnapshotSet
  apply @Exec.Triple.bind _ _ _ _ _ fun _ s => Within [] (Older disk₀) s ∧ s.disk = disk₀
  · apply (@requireDirectory_triple [] (Older disk₀) fun disk => disk = disk₀).conseq
    · rintro s ⟨hhistory, rfl⟩
      exact ⟨⟨⟨[], hhistory, nofun⟩, fun name => Or.inl rfl⟩, rfl⟩
    · exact fun _ _ hs => hs
    · exact fun _ _ hs => hs.separated
  intro _
  refine Exec.Triple.ofExcept_bind (fun _ s hs => hs.1.separated) ?_
  intro _ _
  apply @Exec.Triple.bind _ _ _ _ _ fun entries s => entries = disk₀ ∧ Within [] (Older disk₀) s
  · apply (@fileReading_triple [] (Older disk₀) (fun disk => disk = disk₀) Disk id).conseq
    · exact fun _ hs => hs
    · exact fun entries s hs => ⟨hs.2.2.trans hs.2.1, hs.1⟩
    · exact fun _ _ hs => hs.separated
  intro entries
  apply Exec.Triple.assume
  rintro rfl
  apply Exec.Triple.bind ((purge_triple _).conseq (fun _ hs => hs) (fun _ _ hs => hs)
    fun _ _ hs => hs.separated)
  intro _
  apply Exec.Triple.bind ((@synchronize_triple [] (Older entries) fun disk =>
    ∀ entry ∈ entries.filter isExpected, Dict.get disk entry.1 = none).conseq (fun _ hs => hs)
      (fun _ _ hs => hs) fun _ _ hs => hs.separated)
  intro _
  refine Exec.Triple.ensure_bind (fun s hs => hs.1.separated) ?_
  intro hall
  -- from here on every state is counted as one of the new generation
  apply Exec.Triple.pin Storage.history
  intro older
  apply @Exec.Triple.conseq _ _ _ (fun s => (∀ disk ∈ older, Older entries disk) ∧
    Within older (Authoritative env snapshots) s) _ _ _ _ _ _ (Exec.Triple.assume fun holder =>
      (publishAll_triple hdigests haccounts hkeys changesGroup).conseq (fun _ hs => hs)
        (fun _ s hs => ⟨hs.1.separated_of_older holder, hs.1.2, hs.2⟩)
        fun _ s hs => hs.separated_of_older holder) _ (fun _ _ hs => hs) fun _ _ hs => hs
  rintro s ⟨⟨⟨⟨after, hhistory, hafter⟩, hdisk⟩, hpurged⟩, rfl⟩
  refine ⟨?_, ⟨[], (List.append_nil _).symm, nofun⟩, authoritative_of_purged hall hdisk hpurged⟩
  rw [hhistory]
  exact hafter

/-! ## Loading -/

/-- `json.loads` reads back what `json.dumps` wrote. -/
def ReadsBack (env : SnapshotEnv) (snapshots : List (String × List Json)) : Prop :=
  ∀ entry ∈ snapshots, ∀ payload, buildSnapshot entry.1 entry.2 = .ok payload →
    env.loads payload = .value (snapshotDocument entry.1 entry.2).sortKeys

theorem documentRules_snapshotDocument {email : String} {rules : List Json}
    (hrules : rules.length ≤ 100) :
    documentRules email (snapshotDocument email rules).sortKeys =
      some (rules.map Json.sortKeys) := by
  have hsorted : (snapshotDocument email rules).sortKeys = .obj [("account", .str email),
      ("rules", .arr (rules.map Json.sortKeys)), ("version", .int 1)] := by
    simp [snapshotDocument, Json.sortKeys, Json.sortFields, Json.insertField, Json.sortItems_eq]
  rw [hsorted]
  unfold documentRules
  simp [Json.get?, equalsOne, hrules]

theorem buildSnapshot_bounds {email : String} {rules : List Json} {payload : Bytes}
    (h : buildSnapshot email rules = .ok payload) :
    rules.length ≤ 100 ∧ 2 ≤ payload.length ∧ payload.length ≤ maxSnapshotBytes := by
  unfold buildSnapshot at h
  split at h
  · cases h
  split at h
  · cases h
  dsimp only at h
  split at h
  · next hlength =>
      cases h
      exact ⟨by omega, hlength⟩
  · cases h

theorem IsSnapshotOf.load (hreads : ReadsBack env snapshots) {disk : Disk}
    {entry : String × List Json} (hentry : entry ∈ snapshots) {name : String} {file : File}
    (hfile : Dict.get disk name = some file) (h : IsSnapshotOf env entry name file) :
    loadSnapshot env disk entry.1 = .ok (some (entry.2.map Json.sortKeys)) := by
  have hbounds := buildSnapshot_bounds h.content
  have hdocument : loadDocument env entry.1 file.content = .ok (entry.2.map Json.sortKeys) := by
    unfold loadDocument
    rw [if_pos hbounds.2, hreads entry hentry file.content h.content]
    dsimp only
    rw [documentRules_snapshotDocument hbounds.1]
  rw [loadSnapshot_eq h.name, hfile]
  dsimp only
  rw [if_pos h.isPrivate, hdocument]
  rfl

/-- An old file is loaded as before. -/
theorem Older.load {disk : Disk} (h : Older disk₀ disk) (email : String) :
    loadSnapshot env disk email = loadSnapshot env disk₀ email ∨
      loadSnapshot env disk email = .ok none := by
  cases hname : snapshotName env email with
  | error e =>
      unfold loadSnapshot
      rw [hname]
      exact Or.inl rfl
  | ok name =>
      rw [loadSnapshot_eq hname, loadSnapshot_eq hname]
      rcases h name with hsame | hnone
      · rw [hsame]
        exact Or.inl rfl
      · rw [hnone]
        exact Or.inr rfl

theorem Authoritative.load (hdigests : Digests env accounts)
    (haccounts : ∀ entry ∈ snapshots, entry.1 ∈ accounts) (hreads : ReadsBack env snapshots)
    {disk : Disk} (h : Authoritative env snapshots disk) {email : String}
    (hemail : email ∈ accounts)
    (hname : ∃ name, snapshotName env email = .ok name) :
    loadSnapshot env disk email = .ok none ∨ ∃ entry ∈ snapshots, entry.1 = email ∧
      loadSnapshot env disk email = .ok (some (entry.2.map Json.sortKeys)) := by
  obtain ⟨name, hname⟩ := hname
  cases hfile : Dict.get disk name with
  | none =>
      left
      rw [loadSnapshot_eq hname, hfile]
  | some file =>
      right
      rcases h name file hfile with htemporary | ⟨entry, hentry, hsnapshot⟩
      · rw [hdigests.not_temporary hname] at htemporary
        cases htemporary
      · have heq := hdigests.eq_of_name (haccounts entry hentry) hemail hsnapshot.name hname
        refine ⟨entry, hentry, heq, ?_⟩
        rw [← heq]
        exact hsnapshot.load hreads hentry hfile

/-! ## Documents that cannot be built -/

/-- A document that cannot be built stops the run before the directory is changed. -/
theorem replaceSnapshotSet_unbuildable (changesGroup : Bool) {entry : String × List Json}
    (hentry : entry ∈ snapshots) {e : SnapshotError}
    (he : buildSnapshot entry.1 entry.2 = .error e) :
    Exec.Triple (fun s => s.history = [] ∧ s.disk = disk₀)
      (replaceSnapshotSet env changesGroup snapshots) (fun _ _ => False)
      (fun _ s => s.disk = disk₀ ∧ ∀ disk ∈ s.history, disk = disk₀) := by
  obtain ⟨e', he'⟩ := @Fallible.mapM_error _ _ _ (fun entry : String × List Json =>
    buildSnapshot entry.1 entry.2) entry e he (sortedAccounts snapshots)
      (mem_sortedAccounts.mpr hentry)
  have hprepare : prepareAll snapshots = .error e' := he'
  unfold replaceSnapshotSet
  rw [hprepare]
  apply Exec.Triple.bind ((@requireDirectory_triple [] (fun disk => disk = disk₀)
    fun _ => True).conseq _ (fun _ _ hs => hs) _)
  · intro _
    apply Exec.Triple.ofExcept_bind
    · rintro _ s ⟨⟨⟨after, hhistory, hafter⟩, hdisk⟩, -⟩
      exact ⟨hdisk, hhistory ▸ hafter⟩
    · exact fun _ h => nomatch h
  · rintro s ⟨hhistory, hdisk⟩
    exact ⟨⟨⟨[], hhistory, nofun⟩, hdisk⟩, trivial⟩
  · rintro _ s ⟨⟨after, hhistory, hafter⟩, hdisk⟩
    exact ⟨hdisk, hhistory ▸ hafter⟩

/-! ## No mixture of generations -/

/-- Whatever the directory holds and wherever the run stops: a document that cannot be built
leaves everything as it was; up to some operation there are only old files, and from then on
only authoritative snapshots besides temporary files; and a run that returns leaves exactly
the authoritative snapshots. -/
theorem replaceSnapshotSet_generations (env : SnapshotEnv) (accounts : Set String)
    (hdigests : Digests env accounts) (snapshots : List (String × List Json))
    (haccounts : ∀ entry ∈ snapshots, entry.1 ∈ accounts) (hkeys : (snapshots.map (·.1)).Nodup)
    (hreads : ReadsBack env snapshots) (changesGroup : Bool) (s : Storage)
    (hstart : s.history = []) :
    (∀ entry ∈ snapshots, ∀ e, buildSnapshot entry.1 entry.2 = .error e →
      (∃ e', (replaceSnapshotSet env changesGroup snapshots s).1 = .error e') ∧
      (replaceSnapshotSet env changesGroup snapshots s).2.disk = s.disk ∧
      ∀ disk ∈ (replaceSnapshotSet env changesGroup snapshots s).2.history, disk = s.disk) ∧
    (∃ older newer, (replaceSnapshotSet env changesGroup snapshots s).2.history = older ++ newer ∧
      (∀ disk ∈ older, Older s.disk disk ∧ ∀ email,
        loadSnapshot env disk email = loadSnapshot env s.disk email ∨
          loadSnapshot env disk email = .ok none) ∧
      ∀ disk ∈ newer, Authoritative env snapshots disk ∧ ∀ email ∈ accounts,
        (∃ name, snapshotName env email = .ok name) →
        loadSnapshot env disk email = .ok none ∨ ∃ entry ∈ snapshots, entry.1 = email ∧
          loadSnapshot env disk email = .ok (some (entry.2.map Json.sortKeys))) ∧
    ((replaceSnapshotSet env changesGroup snapshots s).1 = .ok () →
      ∀ email ∈ accounts, ∀ rules,
        loadSnapshot env (replaceSnapshotSet env changesGroup snapshots s).2.disk email =
          .ok (some rules) ↔ ∃ entry ∈ snapshots, entry.1 = email ∧
            rules = entry.2.map Json.sortKeys) := by
  have htriple := @replaceSnapshotSet_triple s.disk env snapshots accounts hdigests haccounts hkeys
    changesGroup
  refine ⟨?_, ?_, ?_⟩
  · intro entry hentry e he
    have hrun := @replaceSnapshotSet_unbuildable s.disk env snapshots changesGroup entry hentry e he
      s ⟨hstart, rfl⟩
    rcases hresult : replaceSnapshotSet env changesGroup snapshots s with ⟨e' | u, s'⟩
    · rw [hresult] at hrun
      exact ⟨⟨e', rfl⟩, hrun⟩
    · rw [hresult] at hrun
      exact hrun.elim
  · have hseparated : Separated env snapshots s.disk
        (replaceSnapshotSet env changesGroup snapshots s).2.history := by
      have hrun := htriple s ⟨hstart, rfl⟩
      rcases hresult : replaceSnapshotSet env changesGroup snapshots s with ⟨e' | u, s'⟩
      · rw [hresult] at hrun
        exact hrun
      · rw [hresult] at hrun
        exact hrun.1
    obtain ⟨older, newer, hhistory, holder, hnewer⟩ := hseparated
    refine ⟨older, newer, hhistory, ?_, ?_⟩
    · exact fun disk hdisk => ⟨holder disk hdisk, (holder disk hdisk).load⟩
    · intro disk hdisk
      exact ⟨hnewer disk hdisk, fun email hemail hname =>
        (hnewer disk hdisk).load hdigests haccounts hreads hemail hname⟩
  · intro hreturn email hemail rules
    obtain ⟨-, hauthoritative, hpublished⟩ := htriple.of_ok ⟨hstart, rfl⟩ hreturn
    constructor
    · intro hload
      have hname : ∃ name, snapshotName env email = .ok name := by
        cases hresult : snapshotName env email with
        | ok name => exact ⟨name, rfl⟩
        | error e =>
            unfold loadSnapshot at hload
            rw [hresult] at hload
            cases hload
      rcases hauthoritative.load hdigests haccounts hreads hemail hname with hnone | hsome
      · rw [hnone] at hload
        cases hload
      · obtain ⟨entry, hentry, heq, hrules⟩ := hsome
        rw [hrules] at hload
        cases hload
        exact ⟨entry, hentry, heq, rfl⟩
    · rintro ⟨entry, hentry, rfl, rfl⟩
      obtain ⟨name, file, hfile, hsnapshot⟩ := hpublished entry hentry
      exact hsnapshot.load hreads hentry hfile

/-- One account has a new rule set, the other one has lost its rules. -/
def sampleSnapshots : List (String × List Json) :=
  [("b@example.org", [.obj [("name", .str "News")]])]

def sampleSnapshotEnv : SnapshotEnv where
  sha256 email := String.ofList (List.replicate 64 (if email = "a@example.org" then 'a' else 'b'))
  loads data :=
    let document := (snapshotDocument "b@example.org" [.obj [("name", .str "News")]]).sortKeys
    if data = utf8 (document.render false) then .value document else .invalid

def sampleStorage : Storage where
  disk := [(String.ofList (List.replicate 64 'a') ++ ".json", ⟨true, 1, 0o640, [0x7B, 0x7D]⟩),
    (".snapshot-left", ⟨true, 1, 0o600, []⟩)]
  faults _ := none
  written _ := 3
  temporary _ := "new"
  operations := 0
  history := []

theorem sampleSnapshotEnv_digests :
    Digests sampleSnapshotEnv {email | email = "a@example.org" ∨ email = "b@example.org"} where
  hex email := by
    show isSnapshotName (String.ofList (List.replicate 64
      (if email = "a@example.org" then 'a' else 'b')) ++ ".json") = true
    split <;> decide
  injective := by
    rintro _ (rfl | rfl) _ (rfl | rfl) h
    · rfl
    · revert h
      decide
    · revert h
      decide
    · rfl

theorem sampleSnapshotEnv_reads : ReadsBack sampleSnapshotEnv sampleSnapshots := by
  intro entry hentry payload hpayload
  rw [List.mem_singleton.mp hentry] at hpayload ⊢
  have hencoded : payload = utf8 ((snapshotDocument "b@example.org"
      [.obj [("name", .str "News")]]).sortKeys.render false) := by
    unfold buildSnapshot at hpayload
    split at hpayload
    · cases hpayload
    split at hpayload
    · cases hpayload
    dsimp only at hpayload
    split at hpayload
    · cases hpayload
      rfl
    · cases hpayload
  rw [hencoded]
  unfold sampleSnapshotEnv
  dsimp only
  rw [if_pos rfl]

theorem replaceSnapshotSet_generations_sample :
    loadSnapshot sampleSnapshotEnv
        (replaceSnapshotSet sampleSnapshotEnv true sampleSnapshots sampleStorage).2.disk
        "b@example.org" = .ok (some [.obj [("name", .str "News")]]) := by
  have hgenerations := replaceSnapshotSet_generations sampleSnapshotEnv _ sampleSnapshotEnv_digests
    sampleSnapshots (by
      intro entry hentry
      rw [List.mem_singleton.mp hentry]
      exact Or.inr rfl) (by decide) sampleSnapshotEnv_reads true sampleStorage rfl
  exact (hgenerations.2.2 (by decide +kernel) "b@example.org" (Or.inr rfl) _).mpr
    ⟨_, List.mem_singleton.mpr rfl, rfl, rfl⟩

end MaddyWeb.Rules
