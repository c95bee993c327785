import MaddyWeb.Library.Dict
import MaddyWeb.Library.Exec
import MaddyWeb.Library.Utf8

/-!
# Published snapshots of mail rules

The rules of an account are a JSON document in a file whose name is the digest of the
address.  The directory is changed by single file operations, each of which may fail
before or after it has taken effect; every state that an operation leaves is kept, since a
crash can stop the helper there.
-/

namespace MaddyWeb.Rules

open MaddyWeb.Library

/-! ## Documents -/

/-- What `json.loads` with the hook for unique keys gives: a value, an exception that is a
`ValueError`, or a `RecursionError`. -/
inductive Loaded
  | value (value : Json)
  | invalid
  | tooDeep

structure SnapshotEnv where
  /-- `hashlib.sha256(…).hexdigest()` -/
  sha256 : String → String
  loads : Bytes → Loaded

inductive SnapshotError
  | snapshot (message : String)
  | value (message : String)
  | os
  | recursion
  deriving DecidableEq, Repr

def maxSnapshotBytes : Nat := 256 * 1024

/-- `snapshot_name` -/
def snapshotName (env : SnapshotEnv) (canonicalEmail : String) : Except SnapshotError String :=
  if canonicalEmail.toList.isEmpty || !canonicalEmail.toList.all (·.toNat < 0x80) then
    .error (.value "canonical email must be non-empty ASCII text")
  else .ok (env.sha256 canonicalEmail ++ ".json")

def snapshotDocument (canonicalEmail : String) (rules : List Json) : Json :=
  .obj [("version", .int 1), ("account", .str canonicalEmail), ("rules", .arr rules)]

/-- `build_snapshot` -/
def buildSnapshot (canonicalEmail : String) (rules : List Json) : Except SnapshotError Bytes :=
  if 100 < rules.length then .error (.value "rule snapshot contains too many rules")
  else if !(snapshotDocument canonicalEmail rules).isFinite then
    .error (.value "rule snapshot is not valid JSON")
  else
    let encoded := utf8 ((snapshotDocument canonicalEmail rules).sortKeys.render false)
    if 2 ≤ encoded.length ∧ encoded.length ≤ maxSnapshotBytes then .ok encoded
    else .error (.value "rule snapshot exceeds its size limit")

/-- `value == 1` -/
def equalsOne : Json → Bool
  | .int value => value == 1
  | .bool value => value
  | .float text => text == "1.0"
  | _ => false

/-- The last check of `load_snapshot`; the rules are all that a caller reads. -/
def documentRules (canonicalEmail : String) : Json → Option (List Json)
  | .obj fields =>
      if fields.all (fun field => ["version", "account", "rules"].contains field.1) then
        match Json.get? fields "version", Json.get? fields "account", Json.get? fields "rules" with
        | some version, some (.str account), some (.arr rules) =>
            if equalsOne version && account == canonicalEmail && rules.length ≤ 100 then some rules
            else none
        | _, _, _ => none
      else none
  | _ => none

/-- `load_snapshot`, once the file has been read. -/
def loadDocument (env : SnapshotEnv) (canonicalEmail : String) (data : Bytes) :
    Except SnapshotError (List Json) :=
  if 2 ≤ data.length ∧ data.length ≤ maxSnapshotBytes then
    match env.loads data with
    | .invalid => .error (.snapshot "rule snapshot JSON is invalid")
    | .tooDeep => .error .recursion
    | .value value =>
        match documentRules canonicalEmail value with
        | some rules => .ok rules
        | none => .error (.snapshot "rule snapshot document is invalid")
  else .error (.snapshot "rule snapshot size is invalid")

/-! ## Files -/

structure File where
  isRegular : Bool
  links : Nat
  mode : Nat
  content : Bytes
  deriving DecidableEq, Repr

abbrev Disk := List (String × File)

/-- `_require_snapshot_file` -/
def File.isPrivate (file : File) : Bool :=
  file.isRegular && file.links == 1 && file.mode % 8 == 0

/-- `load_snapshot` -/
def loadSnapshot (env : SnapshotEnv) (disk : Disk) (canonicalEmail : String) :
    Except SnapshotError (Option (List Json)) := do
  let name ← snapshotName env canonicalEmail
  match Dict.get disk name with
  | none => return none
  | some file =>
      if file.isPrivate then
        let rules ← loadDocument env canonicalEmail file.content
        return some rules
      else throw (.snapshot "rule snapshot must be a private single-link regular file")

theorem loadSnapshot_eq {env : SnapshotEnv} {canonicalEmail name : String}
    (hname : snapshotName env canonicalEmail = .ok name) (disk : Disk) :
    loadSnapshot env disk canonicalEmail =
      match Dict.get disk name with
      | none => .ok none
      | some file =>
          if file.isPrivate then (loadDocument env canonicalEmail file.content).map some
          else .error (.snapshot "rule snapshot must be a private single-link regular file") := by
  unfold loadSnapshot
  rw [hname]
  show (match Dict.get disk name with
    | none => _
    | some file => _) = _
  cases Dict.get disk name with
  | none => rfl
  | some file =>
      dsimp only
      split
      · cases loadDocument env canonicalEmail file.content <;> rfl
      · rfl

/-- The directory, what happens to each operation on it, and every state it has been in. -/
structure Storage where
  disk : Disk
  /-- an operation that fails, with or without its effect -/
  faults : Nat → Option Bool
  /-- how much of a file the first write call has written -/
  written : Nat → Nat
  /-- the random part of a temporary name -/
  temporary : Nat → String
  operations : Nat
  history : List Disk

abbrev Storing (α : Type) := Exec Storage SnapshotError α

def Storage.become (s : Storage) (disk : Disk) : Storage :=
  { s with disk, operations := s.operations + 1, history := s.history ++ [disk] }

/-- One call of the operating system. -/
def fileOperation (f : Disk → Disk) : Storing Unit := fun s =>
  match s.faults s.operations with
  | none => (.ok (), s.become (f s.disk))
  | some effect => (.error .os, s.become (if effect then f s.disk else s.disk))

/-- A call that only reads. -/
def fileReading {α : Type} (f : Disk → α) : Storing α := fun s =>
  match s.faults s.operations with
  | none => (.ok (f s.disk), s.become s.disk)
  | some _ => (.error .os, s.become s.disk)

/-- `_sync_directory`, `os.fsync` -/
def synchronize : Storing Unit := fileOperation id

/-- `_require_snapshot_directory`: the directory is private, or this reading fails. -/
def requireDirectory : Storing Unit := fileReading fun _ => ()

def requirePrivate (file : File) : Storing Unit :=
  Exec.ensure file.isPrivate
    (.snapshot "rule snapshot must be a private single-link regular file")

/-! ## Publication -/

/-- A target that exists is checked before it is replaced. -/
def requirePrivateTarget (target : String) : Storing Unit := do
  match ← fileReading (Dict.get · target) with
  | none => return ()
  | some file => requirePrivate file

/-- `tempfile.mkstemp`: a new file under a name that no file has. -/
def makeTemporary : Storing String := do
  let suffix ← Exec.inspect fun s => s.temporary s.operations
  let name := ".snapshot-" ++ suffix
  let taken ← fileReading fun disk => (Dict.get disk name).isSome
  Exec.ensure (!taken) .os
  fileOperation (Dict.set · name ⟨true, 1, 0o600, []⟩)
  return name

def setFile (name : String) (f : File → File) (disk : Disk) : Disk :=
  match Dict.get disk name with
  | some file => Dict.set disk name (f file)
  | none => disk

/-- `os.replace` -/
def moveFile (source target : String) (disk : Disk) : Disk :=
  match Dict.get disk source with
  | some file => Dict.set (Dict.erase disk source) target file
  | none => disk

/-- The file is written in two calls, and a crash can fall between them. -/
def writeFile (name : String) (payload : Bytes) : Storing Unit := do
  let count ← Exec.inspect fun s => s.written s.operations
  fileOperation (setFile name fun file => { file with content := payload.take count })
  fileOperation (setFile name fun file => { file with content := payload })

/-- `os.fchown`, when a group is given. -/
def changeGroup (changesGroup : Bool) : Storing Unit :=
  if changesGroup then fileOperation id else return ()

/-- The read-back of a published file. -/
def verifyTarget (target : String) (payload : Bytes) : Storing Unit := do
  match ← fileReading (Dict.get · target) with
  | none => Exec.raise .os
  | some file => do
      requirePrivate file
      Exec.ensure (file.content == payload)
        (.snapshot "rule snapshot read-back verification failed")

/-- The body of the `try` of `publish_snapshot`. -/
def replaceTarget (changesGroup : Bool) (name target : String) (payload : Bytes) :
    Storing Unit := do
  fileOperation (setFile name fun file => { file with mode := 0o640 })
  changeGroup changesGroup
  writeFile name payload
  synchronize
  fileOperation (moveFile name target)
  synchronize
  verifyTarget target payload

/-- `publish_snapshot` -/
def publishSnapshot (env : SnapshotEnv) (changesGroup : Bool) (canonicalEmail : String)
    (rules : List Json) : Storing Unit := do
  requireDirectory
  let payload ← Exec.ofExcept (buildSnapshot canonicalEmail rules)
  let target ← Exec.ofExcept (snapshotName env canonicalEmail)
  requirePrivateTarget target
  let name ← makeTemporary
  Exec.handle (replaceTarget changesGroup name target payload) fun e => do
    fileOperation (Dict.erase · name)
    Exec.raise e

/-! ## Reconciliation -/

/-- `_SNAPSHOT_FILE_RE` -/
def isSnapshotName (name : String) : Bool :=
  name.toList.length == 69 && (name.toList.take 64).all (fun c =>
    c.isDigit || (0x61 ≤ c.toNat && c.toNat ≤ 0x66)) && name.toList.drop 64 == ".json".toList

def isTemporaryName (name : String) : Bool := ".snapshot-".toList.isPrefixOf name.toList

/-- An old snapshot, or a temporary file that was left over. -/
def isExpected (entry : String × File) : Bool :=
  (isSnapshotName entry.1 || isTemporaryName entry.1) && entry.2.isPrivate

/-- `sorted(snapshots.items())` -/
def sortedAccounts (snapshots : List (String × List Json)) : List (String × List Json) :=
  snapshots.mergeSort fun a b => decide (a.1 ≤ b.1)

/-- The dictionary of all documents, or the first failure to build one. -/
def prepareAll (snapshots : List (String × List Json)) : Except SnapshotError (List Bytes) :=
  (sortedAccounts snapshots).mapM fun entry => buildSnapshot entry.1 entry.2

/-- `publish_snapshot` in the last loop, and the comparison with the prepared document. -/
def republish (env : SnapshotEnv) (changesGroup : Bool) (entry : String × List Json) :
    Storing Unit := do
  publishSnapshot env changesGroup entry.1 entry.2
  let payload ← Exec.ofExcept (buildSnapshot entry.1 entry.2)
  let target ← Exec.ofExcept (snapshotName env entry.1)
  let file ← fileReading (Dict.get · target)
  Exec.ensure (file.map (·.content) == some payload)
    (.snapshot "rule snapshot set read-back verification failed")

/-- `replace_snapshot_set` -/
def replaceSnapshotSet (env : SnapshotEnv) (changesGroup : Bool)
    (snapshots : List (String × List Json)) : Storing Unit := do
  requireDirectory
  let _ ← Exec.ofExcept (prepareAll snapshots)
  let entries ← fileReading id
  (entries.filter isExpected).forM fun entry => fileOperation (Dict.erase · entry.1)
  synchronize
  Exec.ensure (entries.all isExpected)
    (.snapshot "rule snapshot directory contains an unsafe or unexpected entry")
  (sortedAccounts snapshots).forM (republish env changesGroup)

end MaddyWeb.Rules
