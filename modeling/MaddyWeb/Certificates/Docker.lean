import MaddyWeb.Certificates.Renewal
import MaddyWeb.Library.Exec
import Mathlib.Algebra.GroupWithZero.Nat
import Mathlib.Data.List.Basic

/-!
# Deployment of a certificate into a container

Every step is a command, which may fail with or without its effect; what the commands of
a run do is a schedule that the run cannot see.  A command that succeeds has taken effect,
and a command whose file is not there cannot succeed.  Of a file the model keeps the
content and the owner.
-/

namespace MaddyWeb.Certificates.Docker

open MaddyWeb.Library

structure Owner where
  uid : Nat
  gid : Nat
  deriving DecidableEq, Repr

/-- `_DEFAULT_OWNER` -/
def defaultOwner : Owner := ⟨0, 0⟩

structure File where
  content : Bytes
  owner : Owner
  deriving DecidableEq, Repr

/-- The two deployed files, and the staged ones by their token. -/
structure Container where
  deployed : Kind → Option File
  staged : String → Kind → Option File

inductive Path
  | deployed (kind : Kind)
  | staged (token : String) (kind : Kind)
  deriving DecidableEq, Repr

def Container.put (c : Container) (file : Option File) : Path → Container
  | .deployed kind => { c with deployed := fun k => if k = kind then file else c.deployed k }
  | .staged token kind => { c with
      staged := fun t k => if t = token ∧ k = kind then file else c.staged t k }

/-- The commands, and the two steps on the host that may fail as well. -/
inductive DockerCommand
  | readlink (parent : String)
  | true_
  | cat (kind : Kind)
  | stat (kind : Kind)
  | hostTemp (kind : Kind)
  | hostUnlink
  | copy (token : String) (kind : Kind) (content : Bytes)
  | chmod (mode token : String) (kind : Kind)
  | chown (owner : Owner) (token : String) (kind : Kind)
  | move (token : String) (kind : Kind)
  | remove (paths : List Path)
  deriving DecidableEq, Repr

/-- Whether the file that the command names is there. -/
def DockerCommand.feasible (c : Container) : DockerCommand → Bool
  | .cat kind | .stat kind => (c.deployed kind).isSome
  | .chmod _ token kind | .chown _ token kind | .move token kind => (c.staged token kind).isSome
  | _ => true

/-- The effect of a command. -/
def DockerCommand.apply : DockerCommand → Container → Container
  | .copy token kind content, c => c.put (some ⟨content, defaultOwner⟩) (.staged token kind)
  | .chown owner token kind, c =>
      c.put ((c.staged token kind).map ({ · with owner })) (.staged token kind)
  | .move token kind, c =>
      match c.staged token kind with
      | none => c
      | some file => (c.put (some file) (.deployed kind)).put none (.staged token kind)
  | .remove paths, c => paths.foldl (fun c path => c.put none path) c
  | _, c => c

/-- The exit code of a command, or the exception of the runner. -/
inductive Report
  | success
  | exit
  | raised
  deriving DecidableEq, Repr

/-- What a command reports, whether it takes effect when it fails, and for `readlink` whether
the path is its own target. -/
structure Reaction where
  report : Report
  effect : Bool
  canonical : Bool
  deriving DecidableEq, Repr

inductive DockerError
  | unknownCertificate
  | validation (message : String)
  | command (message : String)
  | runner
  | host
  deriving DecidableEq, Repr

/-- The number of commands issued decides which reaction is next; `staged` and `hostTemps` are
the local variables of `_install_material`, `rollbackUsed` that of `rollback`. -/
structure World where
  container : Container
  reactions : Nat → Reaction
  issued : Nat
  staged : List Path
  hostTemps : Nat
  rollbackUsed : Bool

abbrev Program (α : Type) := Exec World DockerError α

/-- A command: whether its exit code is zero. -/
def invoke (command : DockerCommand) : Program Bool := fun w =>
  let reaction := w.reactions w.issued
  let succeeded := reaction.report == .success && command.feasible w.container
  let w' := { w with
    issued := w.issued + 1
    container := if succeeded || reaction.effect then command.apply w.container else w.container }
  if reaction.report = .raised then (.error .runner, w') else (.ok succeeded, w')

def commandFailed : DockerError := .command "fixed Docker certificate command failed"

/-- `_run` without `allow_nonzero` -/
def run (command : DockerCommand) : Program Unit := do
  let succeeded ← invoke command
  Exec.ensure succeeded commandFailed

/-- A step on the host, which has no exit code. -/
def onHost (command : DockerCommand) : Program Unit := do
  let succeeded ← invoke command
  Exec.ensure succeeded .host

/-! ## Reading -/

/-- `_read` -/
def read (kind : Kind) (allowMissing : Bool) : Program (Option Bytes) := do
  let found ← invoke (.cat kind)
  if found then
    let value ← Exec.inspect fun w => ((w.container.deployed kind).map (·.content)).getD []
    Exec.ensure (0 < value.length && value.length ≤ maximum kind)
      (.validation "deployed certificate material has an invalid size")
    return some value
  else if allowMissing then return none
  else Exec.raise commandFailed

/-- `_owner` -/
def owner (kind : Kind) : Program Owner := do
  run (.stat kind)
  let value ← Exec.inspect fun w => ((w.container.deployed kind).map (·.owner)).getD defaultOwner
  Exec.ensure (value.uid ≤ 2 ^ 31 - 1 && value.gid ≤ 2 ^ 31 - 1)
    (.command "deployed certificate owner is invalid")
  return value

/-- `_ContainerMaterial` -/
structure Material where
  certificate : Option Bytes
  privateKey : Option Bytes
  certificateOwner : Owner
  privateKeyOwner : Owner
  deriving DecidableEq, Repr

def Material.data (m : Material) : Kind → Option Bytes
  | .certificate => m.certificate
  | .privateKey => m.privateKey

def Material.owner (m : Material) : Kind → Owner
  | .certificate => m.certificateOwner
  | .privateKey => m.privateKeyOwner

def ownerOf (kind : Kind) (value : Option Bytes) : Program Owner :=
  if value.isSome then owner kind else return defaultOwner

/-- `_read_material` -/
def readMaterial (allowMissing : Bool) : Program Material := do
  run .true_
  let certificate ← read .certificate allowMissing
  let privateKey ← read .privateKey allowMissing
  let certificateOwner ← ownerOf .certificate certificate
  let privateKeyOwner ← ownerOf .privateKey privateKey
  return ⟨certificate, privateKey, certificateOwner, privateKeyOwner⟩

/-! ## Installing -/

/-- The trusted configuration: the allow-list, the parents of the two paths, the files of Certbot,
and the fingerprint that the validation of a pair gives. -/
structure Adapter where
  allowedNames : List String
  certificateParent : String
  privateKeyParent : String
  fullchain : String → Option Bytes
  privkey : String → Option Bytes
  fingerprint : Bytes → Bytes → Option String

def Adapter.parents (a : Adapter) : List String :=
  [a.certificateParent, a.privateKeyParent].eraseDups.mergeSort

/-- One pass of the loop of `_verify_parent_paths`. -/
def verifyParent (parent : String) : Program Unit := do
  let index ← Exec.inspect World.issued
  run (.readlink parent)
  let canonical ← Exec.inspect fun w => (w.reactions index).canonical
  Exec.ensure canonical
    (.command "container certificate parent is missing or contains a symbolic link")

/-- `_verify_parent_paths` -/
def verifyParentPaths (a : Adapter) : Program Unit := a.parents.forM verifyParent

/-- `_remove_container_paths` -/
def removeContainerPaths (paths : List Path) : Program Unit :=
  if paths.isEmpty then return () else run (.remove paths)

def mode : Kind → String
  | .certificate => "0644"
  | .privateKey => "0600"

/-- One pass of the first loop of `_install_material`. -/
def stage (material : Material) (token : String) (kind : Kind) : Program Unit :=
  match material.data kind with
  | none => return ()
  | some data => do
      onHost (.hostTemp kind)
      Exec.update fun w => { w with
        hostTemps := w.hostTemps + 1, staged := w.staged ++ [.staged token kind] }
      run (.copy token kind data)
      run (.chmod (mode kind) token kind)
      run (.chown (material.owner kind) token kind)

/-- One pass of the second loop of `_install_material`. -/
def place (material : Material) (token : String) (kind : Kind) : Program Unit :=
  match material.data kind with
  | none => removeContainerPaths [.deployed kind]
  | some _ => do
      run (.move token kind)
      Exec.update fun w => { w with staged := w.staged.erase (.staged token kind) }

def kinds : List Kind := [.certificate, .privateKey]

/-- The `except` branch of `_install_material`. -/
def cleanStaging (error : DockerError) : Program Unit := do
  Exec.handle
    (do
      let staged ← Exec.inspect World.staged
      removeContainerPaths staged)
    fun _ => Exec.raise (.command "Docker certificate staging cleanup failed")
  Exec.raise error

/-- `_install_material` -/
def installMaterial (material : Material) (token : String) : Program Unit := do
  Exec.update fun w => { w with staged := [], hostTemps := 0 }
  Exec.finallyDo
    (Exec.handle
      (do
        kinds.forM (stage material token)
        kinds.forM (place material token))
      cleanStaging)
    (do
      let hostTemps ← Exec.inspect World.hostTemps
      (List.replicate hostTemps ()).forM fun _ => onHost .hostUnlink)

/-- `_restore` -/
def restore (a : Adapter) (old : Material) (token : String) : Program Unit := do
  verifyParentPaths a
  installMaterial old token
  let restored ← readMaterial true
  Exec.ensure (restored == old) (.command "Docker certificate rollback verification failed")

/-! ## Deployment -/

def description : Kind → String
  | .certificate => "source certificate"
  | .privateKey => "source private key"

/-- `_bounded_host_read` -/
def boundedHostRead (value : Option Bytes) (kind : Kind) : Except DockerError Bytes :=
  match value with
  | none => .error (.validation ("configured " ++ description kind ++ " is unreadable"))
  | some data =>
      if 0 < data.length ∧ data.length ≤ maximum kind then .ok data
      else .error (.validation ("configured " ++ description kind ++ " has an invalid size"))

/-- `_validate_pair` -/
def validatePair (a : Adapter) (certificate privateKey : Bytes) : Except DockerError String :=
  if ¬ (0 < certificate.length ∧ certificate.length ≤ maxCertificateBytes) then
    .error (.validation "certificate data has an invalid size")
  else if ¬ (0 < privateKey.length ∧ privateKey.length ≤ maxPrivateKeyBytes) then
    .error (.validation "private-key data has an invalid size")
  else
    match a.fingerprint certificate privateKey with
    | some fingerprint => .ok fingerprint
    | none => .error (.validation "certificate and private key are invalid or do not match")

/-- What is read back after the installation has to be the source. -/
def verifyDeployed (a : Adapter) (sourceFingerprint : String) : Program Unit := do
  let deployed ← readMaterial false
  match deployed.certificate, deployed.privateKey with
  | some certificate, some privateKey => do
      let fingerprint ← Exec.ofExcept (validatePair a certificate privateKey)
      Exec.ensure (fingerprint == sourceFingerprint)
        (.validation "deployed certificate fingerprint does not match source")
  | _, _ => Exec.raise (.validation "deployed certificate material is incomplete")

def restoredError : DockerError :=
  .command "Docker certificate deployment failed and prior material was restored"

def rollbackFailedError : DockerError :=
  .command "Docker certificate deployment failed and rollback failed"

/-- The `except` branch of `deploy`. -/
def undoDeployment (a : Adapter) (old : Material) (token rollbackToken : String) :
    Program Unit := do
  let succeeded ← Exec.handle
    (do
      restore a old rollbackToken
      removeContainerPaths (kinds.map (Path.staged token))
      return true)
    fun _ => return false
  Exec.raise (if succeeded then restoredError else rollbackFailedError)

/-- `deploy`; the result is what the returned `rollback` restores. -/
def deploy (a : Adapter) (name token rollbackToken : String) : Program Material := do
  Exec.ensure (a.allowedNames.contains name) .unknownCertificate
  let certificate ← Exec.ofExcept (boundedHostRead (a.fullchain name) .certificate)
  let privateKey ← Exec.ofExcept (boundedHostRead (a.privkey name) .privateKey)
  let sourceFingerprint ← Exec.ofExcept (validatePair a certificate privateKey)
  verifyParentPaths a
  let old ← readMaterial true
  Exec.handle
    (do
      installMaterial
        ⟨some certificate, some privateKey, old.certificateOwner, old.privateKeyOwner⟩ token
      verifyDeployed a sourceFingerprint)
    fun _ => undoDeployment a old token rollbackToken
  Exec.update fun w => { w with rollbackUsed := false }
  return old

/-- `rollback` -/
def rollback (a : Adapter) (old : Material) (token : String) : Program Unit := do
  let used ← Exec.inspect World.rollbackUsed
  Exec.ensure (!used) (.command "Docker certificate rollback token has already been used")
  restore a old token
  Exec.update fun w => { w with rollbackUsed := true }

end MaddyWeb.Certificates.Docker
