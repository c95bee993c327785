import MaddyWeb.Library.Exec
import MaddyWeb.Library.Text
import Mathlib.Data.List.Basic

/-!
# Renewal of a certificate on the host

`renew` runs Certbot and brings the deployed pair up to its source.  Every operation may
raise, with or without its effect, as the schedule of the run says; `os.replace` is one
operation.  The world keeps a list of the replacements and reloads that have happened.
-/

namespace MaddyWeb.Certificates

open MaddyWeb.Library

inductive Kind
  | certificate
  | privateKey
  deriving DecidableEq, Repr

def maxCertificateBytes : Nat := 2 * 1024 * 1024
def maxPrivateKeyBytes : Nat := 1024 * 1024

def maximum : Kind → Nat
  | .certificate => maxCertificateBytes
  | .privateKey => maxPrivateKeyBytes

namespace Renewal

/-- The two files of a pair. -/
structure Pair where
  certificate : Option Bytes
  privateKey : Option Bytes
  deriving DecidableEq, Repr

def Pair.get (p : Pair) : Kind → Option Bytes
  | .certificate => p.certificate
  | .privateKey => p.privateKey

def Pair.set (p : Pair) (content : Option Bytes) : Kind → Pair
  | .certificate => { p with certificate := content }
  | .privateKey => { p with privateKey := content }

inductive Event
  | replaced (kind : Kind) (content : Bytes)
  | removed (kind : Kind)
  | reloaded
  deriving DecidableEq, Repr

/-- What an operation does: whether it raises, whether it then has its effect, how many bytes a
write takes, and whether an inspection ends in an error status. -/
structure Reaction where
  raises : Bool
  effect : Bool
  written : Nat
  unreadable : Bool
  deriving DecidableEq, Repr

inductive CertificateError
  | unknownCertificate
  | operation
  | validation (message : String)
  | command (message : String)
  deriving DecidableEq, Repr

/-- `temp` and `descriptor` are the staged file of `_atomic_copy` and whether it is open. -/
structure World where
  source : Pair
  deployed : Pair
  temp : Bytes
  descriptor : Bool
  events : List Event
  reactions : Nat → Reaction
  issued : Nat

abbrev Program (α : Type) := Exec World CertificateError α

/-- An operation with an effect on the world. -/
def operate (effect : World → World) : Program Unit := fun w =>
  let reaction := w.reactions w.issued
  let w := { w with issued := w.issued + 1 }
  if reaction.raises then (.error .operation, if reaction.effect then effect w else w)
  else (.ok (), effect w)

/-- An operation that leaves no trace: opening, checking, reading, running a command. -/
def attempt : Program Unit := operate id

/-- The trusted configuration: what the host has installed, and what a certificate says. -/
structure Manager where
  allowedNames : List String
  reloadConfigured : Bool
  changesOwner : Bool
  renewed : Pair
  matchingPair : Bytes → Bytes → Bool
  fingerprint : Bytes → String
  dnsNames : Bytes → List String
  ipAddresses : Bytes → List String

/-! ## Status -/

/-- The fields of `CertificateStatus` that `renew` reads. -/
structure CertificateStatus where
  sha256Fingerprint : Option String
  dnsNames : List String
  ipAddresses : List String
  error : Option String
  deriving DecidableEq, Repr

/-- The pair can be read and belongs together. -/
def readablePair (m : Manager) (p : Pair) : Option (Bytes × Bytes) :=
  match p.certificate, p.privateKey with
  | some certificate, some privateKey =>
      if 0 < certificate.length ∧ certificate.length ≤ maxCertificateBytes ∧
          0 < privateKey.length ∧ privateKey.length ≤ maxPrivateKeyBytes ∧
          m.matchingPair certificate privateKey then some (certificate, privateKey)
      else none
  | _, _ => none

def statusOf (m : Manager) (p : Pair) : CertificateStatus :=
  match readablePair m p with
  | some (certificate, _) =>
      ⟨some (m.fingerprint certificate), m.dnsNames certificate, m.ipAddresses certificate, none⟩
  | none => ⟨none, [], [], some "certificate validation failed"⟩

/-- `_inspect` -/
def inspect (m : Manager) (pair : World → Pair) : Program CertificateStatus := do
  let index ← Exec.inspect World.issued
  attempt
  let unreadable ← Exec.inspect fun w => (w.reactions index).unreadable
  if unreadable then return ⟨none, [], [], some "certificate validation failed"⟩
  else Exec.inspect fun w => statusOf m (pair w)

/-- `_source_status` -/
def sourceStatus (m : Manager) : Program CertificateStatus := inspect m World.source

/-- `_deployed_status` -/
def deployedStatus (m : Manager) : Program CertificateStatus := inspect m World.deployed

/-- `status`: whether the fingerprints match. -/
def status (m : Manager) : Program Bool := do
  let source ← sourceStatus m
  let deployed ← deployedStatus m
  let _safe ← Exec.handle (do attempt; return true) fun _ => return false
  -- the two `systemctl` commands of `_timer_status`
  attempt
  attempt
  return source.sha256Fingerprint.isSome && source.sha256Fingerprint == deployed.sha256Fingerprint

/-! ## Files -/

/-- `_trusted_target_exists` -/
def targetExists (kind : Kind) : Program Bool := do
  attempt
  Exec.inspect fun w => (w.deployed.get kind).isSome

/-- The bound that every reading checks. -/
def bounded (kind : Kind) (value : Option Bytes) : Except CertificateError Bytes :=
  match value with
  | none => .error (.validation "configured file has an invalid size")
  | some data =>
      if 0 < data.length ∧ data.length ≤ maximum kind then .ok data
      else .error (.validation "configured file has an invalid size")

/-- `_bounded_read` of a source file -/
def readSource (kind : Kind) : Program Bytes := do
  attempt
  let value ← Exec.inspect fun w => w.source.get kind
  Exec.ofExcept (bounded kind value)

/-- `_bounded_trusted_read` -/
def readDeployed (kind : Kind) : Program Bytes := do
  attempt
  let value ← Exec.inspect fun w => w.deployed.get kind
  Exec.ofExcept (bounded kind value)

/-- `_validate_pair` -/
def validatePair (m : Manager) (certificate privateKey : Bytes) : Program Unit := do
  attempt
  Exec.ensure
    (certificate.length ≤ maxCertificateBytes && privateKey.length ≤ maxPrivateKeyBytes &&
      m.matchingPair certificate privateKey)
    (.validation "configured certificate and private key are invalid or do not match")

/-- `os.replace` of the staged file. -/
def World.replace (kind : Kind) (w : World) : World :=
  { w with
    deployed := w.deployed.set (some w.temp) kind
    events := w.events ++ [.replaced kind w.temp] }

def World.remove (kind : Kind) (w : World) : World :=
  { w with deployed := w.deployed.set none kind, events := w.events ++ [.removed kind] }

/-- The loop over the view; every pass writes at least one byte, so the length bounds it. -/
def writeAll : Nat → Bytes → Program Unit
  | 0, _ => return ()
  | fuel + 1, view =>
      if view.isEmpty then return ()
      else do
        let index ← Exec.inspect World.issued
        let written ← Exec.inspect fun w => min (w.reactions index).written view.length
        operate fun w => { w with temp := w.temp ++ view.take written }
        Exec.ensure (0 < written) .operation
        writeAll fuel (view.drop written)

/-- `os.fchown`, when an owner is configured. -/
def changeOwner (m : Manager) : Program Unit := if m.changesOwner then attempt else return ()

/-- The `try` block of `_atomic_copy` up to `os.replace`. -/
def stage (m : Manager) (data : Bytes) : Program Unit := do
  attempt
  operate fun w => { w with temp := [] }
  Exec.update fun w => { w with descriptor := true }
  writeAll data.length data
  attempt
  attempt
  changeOwner m
  attempt
  Exec.update fun w => { w with descriptor := false }

/-- The `try` block of `_atomic_copy`. -/
def stageAndReplace (m : Manager) (kind : Kind) (data : Bytes) : Program Unit := do
  stage m data
  operate (World.replace kind)
  attempt

/-- Close the staged file if it is still open. -/
def closeStaged : Program Unit := do
  let descriptor ← Exec.inspect World.descriptor
  if descriptor then attempt else return ()

/-- The `except` branch of `_atomic_copy`. -/
def dropStaged (error : CertificateError) : Program Unit := do
  closeStaged
  attempt
  Exec.raise error

/-- `_atomic_copy` -/
def atomicCopy (m : Manager) (kind : Kind) (data : Bytes) : Program Unit := do
  attempt
  Exec.update fun w => { w with descriptor := false }
  Exec.finallyDo (Exec.handle (stageAndReplace m kind data) dropStaged) attempt

/-- The `try` block of `_remove_deployed_file`. -/
def removePresent (kind : Kind) : Program Unit := do
  attempt
  let present ← Exec.inspect fun w => (w.deployed.get kind).isSome
  if present then do
    operate (World.remove kind)
    attempt
  else return ()

/-- `_remove_deployed_file` -/
def removeDeployedFile (kind : Kind) : Program Unit := do
  attempt
  Exec.finallyDo (removePresent kind) attempt

/-! ## Copying the source -/

/-- What the closure `restore_prior_material` does for one file. -/
def putBack (m : Manager) (old : Pair) (kind : Kind) : Program Unit :=
  match old.get kind with
  | none => removeDeployedFile kind
  | some data => atomicCopy m kind data

def isBack (old : Pair) (kind : Kind) : Program Bool :=
  match old.get kind with
  | none => do
      let present ← targetExists kind
      return !present
  | some data => do
      let content ← readDeployed kind
      return content == data

/-- `restore_prior_material` -/
def restorePriorMaterial (m : Manager) (old : Pair) : Program Unit := do
  putBack m old .certificate
  putBack m old .privateKey
  let certificateRestored ← isBack old .certificate
  let privateKeyRestored ← isBack old .privateKey
  Exec.ensure (certificateRestored && privateKeyRestored)
    (.command "native certificate rollback verification failed")

def readOld (kind : Kind) : Program (Option Bytes) := do
  let present ← targetExists kind
  if present then do
    let data ← readDeployed kind
    return some data
  else return none

def restoredError : CertificateError :=
  .command "certificate deployment failed and prior material was restored"

def rollbackFailedError : CertificateError :=
  .command "certificate deployment failed and rollback failed"

/-- The `except` branch of `_copy_allowlisted_source`. -/
def undoCopy (m : Manager) (old : Pair) : Program Unit := do
  let succeeded ← Exec.handle
    (do
      restorePriorMaterial m old
      return true)
    fun _ => return false
  Exec.raise (if succeeded then restoredError else rollbackFailedError)

/-- The `try` block of `_copy_allowlisted_source`. -/
def copyPair (m : Manager) (certificate privateKey : Bytes) : Program Unit := do
  atomicCopy m .certificate certificate
  atomicCopy m .privateKey privateKey
  let deployedCertificate ← readDeployed .certificate
  let deployedKey ← readDeployed .privateKey
  validatePair m deployedCertificate deployedKey

/-- `_copy_allowlisted_source`; the result is what the returned closure restores. -/
def copyAllowlistedSource (m : Manager) : Program Pair := do
  let certificate ← readSource .certificate
  let privateKey ← readSource .privateKey
  validatePair m certificate privateKey
  let oldCertificate ← readOld .certificate
  let oldPrivateKey ← readOld .privateKey
  let old : Pair := ⟨oldCertificate, oldPrivateKey⟩
  Exec.handle (copyPair m certificate privateKey) fun _ => undoCopy m old
  return old

/-! ## Deployment and renewal -/

/-- `reload_callback` -/
def reload (m : Manager) : Program Unit := do
  Exec.ensure m.reloadConfigured (.command "Maddy reload callback is not configured")
  attempt
  Exec.update fun w => { w with events := w.events ++ [.reloaded] }

def restoredReloadedError : CertificateError :=
  .command "certificate deployment failed; prior material was restored and reloaded"

/-- The check and the reload after the copy. -/
def verifyAndReload (m : Manager) : Program Unit := do
  let source ← sourceStatus m
  let deployed ← deployedStatus m
  Exec.ensure (source.error.isNone && deployed.error.isNone &&
      source.sha256Fingerprint == deployed.sha256Fingerprint)
    (.command "deployed certificate fingerprint does not match source")
  reload m

/-- The `except` branch of `_deploy_and_reload`. -/
def undoDeployment (m : Manager) (old : Pair) : Program Unit := do
  let succeeded ← Exec.handle
    (do
      restorePriorMaterial m old
      reload m
      return true)
    fun _ => return false
  Exec.raise (if succeeded then restoredReloadedError else rollbackFailedError)

/-- `_deploy_and_reload` without a deployment hook -/
def deployAndReload (m : Manager) : Program Unit := do
  let old ← copyAllowlistedSource m
  Exec.handle (verifyAndReload m) fun _ => undoDeployment m old

/-- The reload of a pair that was already deployed. -/
def reloadOnly (m : Manager) : Program Unit := do
  Exec.ensure m.reloadConfigured (.command "Maddy reload callback is not configured")
  Exec.handle (reload m) fun _ => Exec.raise (.command "Maddy reload failed")

def sameNames (xs ys : List String) : Bool := xs.all ys.contains && ys.all xs.contains

/-- Certbot and the checks around it: whether the source has changed. -/
def runCertbot (m : Manager) (name : String) : Program Bool := do
  Exec.ensure (m.allowedNames.contains name) .unknownCertificate
  attempt
  let before ← sourceStatus m
  Exec.ensure (before.error.isNone && before.sha256Fingerprint.isSome)
    (.command "source certificate is invalid before renewal")
  attempt
  operate fun w => { w with source := m.renewed }
  attempt
  attempt
  let after ← sourceStatus m
  Exec.ensure (after.error.isNone && after.sha256Fingerprint.isSome)
    (.command "source certificate is invalid after renewal")
  Exec.ensure (!before.dnsNames.isEmpty && sameNames after.dnsNames before.dnsNames &&
      sameNames after.ipAddresses before.ipAddresses)
    (.command "renewed certificate subject names changed unexpectedly")
  return after.sha256Fingerprint != before.sha256Fingerprint

/-- `renew` up to its last status: whether the source has changed and a deployment was needed. -/
def renewAndDeploy (m : Manager) (name : String) : Program (Bool × Bool) := do
  let sourceChanged ← runCertbot m name
  let current ← status m
  if !current then deployAndReload m else reloadOnly m
  return (sourceChanged, !current)

/-- `renew` in native mode; the result is `renewal_result`. -/
def renew (m : Manager) (name : String) : Program String := do
  let (sourceChanged, synchronized) ← renewAndDeploy m name
  let result ← status m
  Exec.ensure result (.command "deployed certificate fingerprint does not match source")
  return if sourceChanged then "renewed" else if synchronized then "synchronized" else "not_due"

end Renewal

end MaddyWeb.Certificates
