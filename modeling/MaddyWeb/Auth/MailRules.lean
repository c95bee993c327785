import MaddyWeb.Auth.Locked

/-!
# Mail rules and their runs over existing mail

The values of a request reach the store as JSON, so every validator takes one.
-/

namespace MaddyWeb.Auth

open MaddyWeb.Library MaddyWeb.Library.Text

def maxMailRulesPerAccount : Nat := 100
def maxMailRuleRunsPerAccount : Nat := 100
def maxMailRuleExpressionBytes : Nat := 32 * 1024
def maxMailRuleStateBytes : Nat := 64 * 1024

structure MailRuleRecord where
  ruleId : String
  accountId : String
  name : String
  enabled : Bool
  position : Nat
  expression : Json
  targetMailbox : String
  stopProcessing : Bool
  revision : Nat
  createdAt : Nat
  updatedAt : Nat
  deriving Repr

structure MailRuleRun where
  runId : String
  accountId : String
  ruleId : Option String
  ruleRevision : Nat
  ruleSnapshot : Json
  state : Json
  status : RunStatus
  scanned : Nat
  matched : Nat
  moved : Nat
  failed : Nat
  createdAt : Nat
  startedAt : Option Nat
  updatedAt : Nat
  finishedAt : Option Nat
  errorCode : Option String
  deriving Repr

/-! ## Validation -/

/-- `_coerce_bool` -/
def coerceBool (name : String) : Json → Except AuthError Bool
  | .bool value => .ok value
  | _ => .error (.value (name ++ " must be a boolean"))

/-- `_validate_mail_rule_id` -/
def validateMailRuleId (value : String) : Except AuthError String :=
  if isHex32 value then .ok value else .error (.value "mail rule identifier is invalid")

/-- `_validate_mail_rule_run_id` -/
def validateMailRuleRunId (value : String) : Except AuthError String :=
  if isHex32 value then .ok value else .error (.value "mail rule run identifier is invalid")

/-- `_normalize_mail_rule_name` -/
def normalizeMailRuleName : Json → Except AuthError String
  | .str value =>
      let normalized := strStrip value.toList
      if 1 ≤ normalized.length ∧ normalized.length ≤ 128 ∧ ¬ normalized.any isControl then
        .ok (String.ofList normalized)
      else .error (.value "mail rule name is invalid")
  | _ => .error (.value "mail rule name must be text")

/-- `_normalize_mailbox_metadata` -/
def normalizeMailboxMetadata : Json → Except AuthError String
  | .str value =>
      if 1 ≤ value.toList.length ∧ value.toList.length ≤ 255 ∧
        strStrip value.toList = value.toList ∧
          ¬ value.toList.any isControl then .ok value
      else .error (.value "mailbox name is invalid")
  | _ => .error (.value "mailbox name is invalid")

/-- `_canonical_json_object` -/
def canonicalJsonObject (value : Json) (name : String) (maximumBytes : Nat) :
    Except AuthError String :=
  match value with
  | .obj _ =>
      let encoded := value.sortKeys.render false
      if 2 ≤ Json.utf8Length encoded ∧ Json.utf8Length encoded ≤ maximumBytes then
        .ok (String.ofList encoded)
      else .error (.value (name ++ " exceeds its size limit"))
  | _ => .error (.value (name ++ " must be an object"))

/-- `_json_object_from_database` -/
def jsonObjectFromDatabase (env : Env) (text name : String) : Except AuthError Json :=
  match env.loads text.toList with
  | some (.obj fields) => .ok (.obj fields)
  | _ => .error (.data (name ++ " is invalid"))

/-- `_mail_rule_from_row` -/
def mailRuleFromRow (env : Env) (row : MailRuleRow) : Except AuthError MailRuleRecord := do
  let ruleId ← validateMailRuleId row.ruleId
  if !isHex32 row.accountId then
    throw (.value "account identifier must be 32 lowercase hexadecimal characters")
  let name ← normalizeMailRuleName (.str row.name)
  let expression ← jsonObjectFromDatabase env row.expressionJson "mail rule expression"
  let target ← normalizeMailboxMetadata (.str row.targetMailbox)
  return ⟨ruleId, row.accountId, name, row.enabled, row.position, expression, target,
    row.stopProcessing, row.revision, row.createdAt, row.updatedAt⟩

/-- `_mail_rule_run_from_row` -/
def mailRuleRunFromRow (env : Env) (row : MailRuleRunRow) : Except AuthError MailRuleRun := do
  let runId ← validateMailRuleRunId row.runId
  if !isHex32 row.accountId then
    throw (.value "account identifier must be 32 lowercase hexadecimal characters")
  match row.ruleId with
  | some ruleId => let _ ← validateMailRuleId ruleId
  | none => pure ()
  let snapshot ← jsonObjectFromDatabase env row.ruleSnapshotJson "mail rule run snapshot"
  let state ← jsonObjectFromDatabase env row.stateJson "mail rule run state"
  return ⟨runId, row.accountId, row.ruleId, row.ruleRevision, snapshot, state, row.status,
    row.scanned, row.matched, row.moved, row.failed, row.createdAt, row.startedAt, row.updatedAt,
    row.finishedAt, row.errorCode⟩

/-! ## Queries -/

namespace Db

def rulesOf (db : Db) (accountId : String) : List MailRuleRow :=
  db.mailRules.filter (·.accountId == accountId)

/-- `ORDER BY position, rule_id` -/
def orderedRules (db : Db) (accountId : String) : List MailRuleRow :=
  (db.rulesOf accountId).mergeSort fun a b =>
    a.position < b.position || (a.position == b.position && a.ruleId ≤ b.ruleId)

def findRule (db : Db) (accountId ruleId : String) : Option MailRuleRow :=
  db.mailRules.find? fun row => row.accountId == accountId && row.ruleId == ruleId

def findRun (db : Db) (accountId runId : String) : Option MailRuleRunRow :=
  db.mailRuleRuns.find? fun row => row.accountId == accountId && row.runId == runId

end Db

def RunStatus.isActive : RunStatus → Bool
  | .queued | .running => true
  | _ => false

/-- `list_mail_rules` -/
def listMailRules (env : Env) (accountId : String) : Store (List MailRuleRecord) := do
  let normalizedId ← validateAccountId accountId
  let _ ← requireAccountById normalizedId
  let rows ← Exec.inspect (·.orderedRules normalizedId)
  Exec.ofExcept (rows.mapM (mailRuleFromRow env))

/-- `get_mail_rule` -/
def getMailRule (env : Env) (accountId ruleId : String) : Store MailRuleRecord := do
  let normalizedId ← validateAccountId accountId
  let normalizedRule ← Exec.ofExcept (validateMailRuleId ruleId)
  let row ← Exec.require (·.findRule normalizedId normalizedRule)
    (.mailRuleNotFound "mail rule does not exist")
  Exec.ofExcept (mailRuleFromRow env row)

/-! ## Rules -/

/-- The values of a rule after validation. -/
structure RuleFields where
  name : String
  enabled : Bool
  expressionJson : String
  targetMailbox : String
  stopProcessing : Bool
  deriving DecidableEq, Repr

/-- The validation that every write of a rule starts with. -/
def validateRuleFields (name enabled expression targetMailbox stopProcessing : Json) :
    Except AuthError RuleFields := do
  let name ← normalizeMailRuleName name
  let enabled ← coerceBool "enabled" enabled
  let expressionJson ← canonicalJsonObject expression "mail rule expression"
    maxMailRuleExpressionBytes
  let target ← normalizeMailboxMetadata targetMailbox
  let stop ← coerceBool "stop_processing" stopProcessing
  return ⟨name, enabled, expressionJson, target, stop⟩

/-- `SELECT COALESCE(MAX(position), -1) + 1` -/
def nextPosition (rows : List MailRuleRow) : Nat :=
  rows.foldl (fun next row => max next (row.position + 1)) 0

/-- The insertion that `create_mail_rule` and `create_mail_rule_with_run` share. -/
def insertMailRule (random : Random) (now : Nat) (accountId : String) (fields : RuleFields) :
    Store MailRuleRow := do
  let _ ← requireAccountById accountId
  let own ← Exec.inspect (·.rulesOf accountId)
  Exec.ensure (own.length < maxMailRulesPerAccount) .mailRuleLimit
  let ruleId ← Exec.require
    (fun db => firstUnused random.ruleId fun id => db.mailRules.any (·.ruleId == id.text))
    (.authentication "unable to allocate a unique mail rule identifier")
  let row : MailRuleRow :=
    ⟨ruleId.text, accountId, fields.name, fields.enabled, nextPosition own, fields.expressionJson,
      fields.targetMailbox, fields.stopProcessing, 1, now, now⟩
  Exec.update fun db => { db with mailRules := db.mailRules ++ [row] }
  return row

/-- `create_mail_rule` -/
def createMailRule (env : Env) (random : Random) (clock : Option Nat) (accountId : String)
    (name enabled expression targetMailbox stopProcessing : Json) : Store MailRuleRecord := do
  let normalizedId ← validateAccountId accountId
  let fields ← Exec.ofExcept
    (validateRuleFields name enabled expression targetMailbox stopProcessing)
  let now ← readClock clock
  let row ← Exec.atomically (insertMailRule random now normalizedId fields)
  Exec.ofExcept (mailRuleFromRow env row)

/-- The `UPDATE` of `update_mail_rule`. -/
def MailRuleRow.revised (fields : RuleFields) (now : Nat) (row : MailRuleRow) : MailRuleRow :=
  { row with
    name := fields.name
    enabled := fields.enabled
    expressionJson := fields.expressionJson
    targetMailbox := fields.targetMailbox
    stopProcessing := fields.stopProcessing
    revision := row.revision + 1
    updatedAt := now }

/-- `update_mail_rule`; the expected revision is a positive integer. -/
def updateMailRule (env : Env) (clock : Option Nat) (accountId ruleId : String)
    (expectedRevision : Int) (name enabled expression targetMailbox stopProcessing : Json) :
    Store MailRuleRecord := do
  let normalizedId ← validateAccountId accountId
  let normalizedRule ← Exec.ofExcept (validateMailRuleId ruleId)
  Exec.ensure (1 ≤ expectedRevision) (.value "mail rule revision must be a positive integer")
  let fields ← Exec.ofExcept
    (validateRuleFields name enabled expression targetMailbox stopProcessing)
  let now ← readClock clock
  let row ← Exec.atomically do
    let chosen := fun row : MailRuleRow => row.accountId == normalizedId &&
      row.ruleId == normalizedRule && (row.revision : Int) == expectedRevision
    let changed ← Exec.inspect fun db => (db.mailRules.filter chosen).length
    let existing ← Exec.inspect (·.findRule normalizedId normalizedRule)
    Exec.update fun db => { db with
      mailRules := db.mailRules.map fun row => if chosen row then row.revised fields now else row }
    if changed ≠ 1 then
      match existing with
      | none => Exec.raise (.mailRuleNotFound "mail rule does not exist")
      | some _ => Exec.raise (.mailRuleConflict "mail rule was changed by another request")
    else
      Exec.require (fun db => db.mailRules.find? (·.ruleId == normalizedRule))
        (.data "authentication row disappeared")
  Exec.ofExcept (mailRuleFromRow env row)

/-- `UPDATE mail_rules SET position = position + 1000 WHERE account_id = ?` -/
def Db.shiftPositions (accountId : String) (db : Db) : Db :=
  { db with mailRules := db.mailRules.map fun row =>
      if row.accountId == accountId then { row with position := row.position + 1000 } else row }

/-- One pass of the loop of `_compact_mail_rule_positions_locked`. -/
def Db.setPosition (ruleId : String) (position : Nat) (db : Db) : Db :=
  { db with mailRules := db.mailRules.map fun row =>
      if row.ruleId == ruleId then { row with position := position } else row }

/-- `_compact_mail_rule_positions_locked` -/
def Db.compactPositions (accountId : String) (db : Db) : Db :=
  ((db.orderedRules accountId).map (·.ruleId)).zipIdx.foldl
    (fun db entry => db.setPosition entry.1 entry.2) (db.shiftPositions accountId)

/-- `delete_mail_rule` -/
def deleteMailRule (accountId ruleId : String) : Store Unit := do
  let normalizedId ← validateAccountId accountId
  let normalizedRule ← Exec.ofExcept (validateMailRuleId ruleId)
  Exec.atomically do
    let chosen := fun row : MailRuleRow => row.accountId == normalizedId &&
      row.ruleId == normalizedRule
    let deleted ← Exec.inspect fun db => (db.mailRules.filter chosen).length
    Exec.ensure (deleted == 1) (.mailRuleNotFound "mail rule does not exist")
    Exec.update (·.deleteMailRules chosen)
    Exec.update (·.compactPositions normalizedId)

/-- One pass of the loop of `reorder_mail_rules`. -/
def Db.placeRule (accountId : String) (now : Nat) (ruleId : String) (position : Nat) (db : Db) :
    Db :=
  { db with mailRules := db.mailRules.map fun row =>
      if row.accountId == accountId && row.ruleId == ruleId then
        { row with position := position, updatedAt := now }
      else row }

/-- `reorder_mail_rules`, which reads the clock inside the transaction. -/
def reorderMailRules (clock : Option Nat) (accountId : String) (ruleIds : List String) :
    Store Unit := do
  let normalizedId ← validateAccountId accountId
  let normalizedRules ← Exec.ofExcept (ruleIds.mapM validateMailRuleId)
  Exec.ensure (normalizedRules.length == normalizedRules.eraseDups.length)
    (.value "mail rule order contains duplicates")
  Exec.atomically do
    let current ← Exec.inspect fun db => (db.rulesOf normalizedId).map (·.ruleId)
    Exec.ensure (normalizedRules.all current.contains && current.all normalizedRules.contains)
      (.value "mail rule order must contain every account rule exactly once")
    Exec.update (·.shiftPositions normalizedId)
    let now ← readClock clock
    Exec.update fun db => normalizedRules.zipIdx.foldl
      (fun db entry => db.placeRule normalizedId now entry.1 entry.2) db

/-- `mailbox_rule_reference_count` -/
def mailboxRuleReferenceCount (accountId : String) (mailbox : Json) : Store Nat := do
  let normalizedId ← validateAccountId accountId
  let normalized ← Exec.ofExcept (normalizeMailboxMetadata mailbox)
  Exec.inspect fun db => ((db.rulesOf normalizedId).filter (·.targetMailbox == normalized)).length

/-! ## Runs -/

def MailRuleRunRow.newerThan (a b : MailRuleRunRow) : Bool :=
  b.createdAt < a.createdAt || (a.createdAt == b.createdAt && b.runId ≤ a.runId)

/-- The final runs beyond the newest 99, which the creation of a run deletes. -/
def Db.pruneRuns (accountId : String) (db : Db) : Db :=
  let final := db.mailRuleRuns.filter fun row =>
    row.accountId == accountId && !row.status.isActive
  let pruned := ((final.mergeSort MailRuleRunRow.newerThan).drop
    (maxMailRuleRunsPerAccount - 1)).map (·.runId)
  { db with mailRuleRuns := db.mailRuleRuns.filter fun row => !pruned.contains row.runId }

/-- The insertion that both operations creating a run share. -/
def insertRun (random : Random) (now : Nat) (accountId ruleId : String) (revision : Nat)
    (snapshotJson stateJson : String) (completed : Bool) : Store MailRuleRunRow := do
  let active ← Exec.inspect fun db => db.mailRuleRuns.any fun row =>
    row.accountId == accountId && row.status.isActive
  Exec.ensure (!active) (.mailRuleConflict "an existing-mail rule run is already active")
  Exec.update (·.pruneRuns accountId)
  let runId ← Exec.require
    (fun db => firstUnused random.runId fun id => db.mailRuleRuns.any (·.runId == id.text))
    (.authentication "unable to allocate a unique mail rule run identifier")
  let row : MailRuleRunRow :=
    { runId := runId.text, accountId := accountId, ruleId := some ruleId
      ruleRevision := revision, ruleSnapshotJson := snapshotJson, stateJson := stateJson
      status := if completed then .completed else .queued
      scanned := 0, matched := 0, moved := 0, failed := 0
      createdAt := now, startedAt := none, updatedAt := now
      finishedAt := if completed then some now else none, errorCode := none }
  Exec.update fun db => { db with mailRuleRuns := db.mailRuleRuns ++ [row] }
  return row

/-- The snapshot of a rule that its run keeps. -/
def ruleRunSnapshot (rule : MailRuleRecord) : Json :=
  .obj [("rule_id", .str rule.ruleId), ("rule_name", .str rule.name),
    ("condition", rule.expression), ("target_mailbox", .str rule.targetMailbox),
    ("revision", .int rule.revision)]

/-- `create_mail_rule_with_run` -/
def createMailRuleWithRun (env : Env) (random : Random) (clock : Option Nat) (accountId : String)
    (name enabled expression targetMailbox stopProcessing : Json) (runState : Json)
    (runCompleted : Bool) : Store (MailRuleRecord × MailRuleRun) := do
  let normalizedId ← validateAccountId accountId
  let fields ← Exec.ofExcept
    (validateRuleFields name enabled expression targetMailbox stopProcessing)
  let stateJson ← Exec.ofExcept
    (canonicalJsonObject runState "mail rule run state" maxMailRuleStateBytes)
  let now ← readClock clock
  Exec.atomically do
    let row ← insertMailRule random now normalizedId fields
    let rule ← Exec.ofExcept (mailRuleFromRow env row)
    let snapshotJson ← Exec.ofExcept
      (canonicalJsonObject (ruleRunSnapshot rule) "mail rule run snapshot" maxMailRuleStateBytes)
    let runRow ← insertRun random now normalizedId rule.ruleId rule.revision snapshotJson
      stateJson runCompleted
    let run ← Exec.ofExcept (mailRuleRunFromRow env runRow)
    return (rule, run)

/-- `create_mail_rule_run` -/
def createMailRuleRun (env : Env) (random : Random) (clock : Option Nat)
    (accountId ruleId : String) (ruleSnapshot state : Json) : Store MailRuleRun := do
  let normalizedId ← validateAccountId accountId
  let normalizedRule ← Exec.ofExcept (validateMailRuleId ruleId)
  let snapshotJson ← Exec.ofExcept
    (canonicalJsonObject ruleSnapshot "mail rule run snapshot" maxMailRuleStateBytes)
  let stateJson ← Exec.ofExcept
    (canonicalJsonObject state "mail rule run state" maxMailRuleStateBytes)
  let now ← readClock clock
  let runRow ← Exec.atomically do
    let row ← Exec.require (·.findRule normalizedId normalizedRule)
      (.mailRuleNotFound "mail rule does not exist")
    insertRun random now normalizedId normalizedRule row.revision snapshotJson stateJson false
  Exec.ofExcept (mailRuleRunFromRow env runRow)

/-- `get_active_mail_rule_run` -/
def getActiveMailRuleRun (env : Env) (accountId : String) : Store (Option MailRuleRun) := do
  let normalizedId ← validateAccountId accountId
  let _ ← requireAccountById normalizedId
  let active ← Exec.inspect fun db => ((db.mailRuleRuns.filter fun row =>
    row.accountId == normalizedId && row.status.isActive).mergeSort
      MailRuleRunRow.newerThan).head?
  match active with
  | none => return none
  | some row =>
      let run ← Exec.ofExcept (mailRuleRunFromRow env row)
      return some run

/-- `get_mail_rule_run` -/
def getMailRuleRun (env : Env) (accountId runId : String) : Store MailRuleRun := do
  let normalizedId ← validateAccountId accountId
  let normalizedRun ← Exec.ofExcept (validateMailRuleRunId runId)
  let row ← Exec.require (·.findRun normalizedId normalizedRun)
    (.mailRuleNotFound "mail rule run does not exist")
  Exec.ofExcept (mailRuleRunFromRow env row)

structure RunProgress where
  status : RunStatus
  scanned : Nat
  matched : Nat
  moved : Nat
  failed : Nat
  errorCode : Option String
  deriving DecidableEq, Repr

/-- The form of an error code, for the ASCII codes that the helper passes. -/
def isErrorCode (text : String) : Bool :=
  1 ≤ text.toList.length && text.toList.length ≤ 64 &&
    (text.toList.filter (· != '_')).all Char.isAlphanum &&
    (text.toList.filter (· != '_')) != []

/-- `update_mail_rule_run` -/
def updateMailRuleRun (env : Env) (clock : Option Nat) (accountId runId : String) (state : Json)
    (progress : RunProgress) : Store MailRuleRun := do
  let normalizedId ← validateAccountId accountId
  let normalizedRun ← Exec.ofExcept (validateMailRuleRunId runId)
  Exec.ensure (progress.errorCode.all isErrorCode) (.value "mail rule run error code is invalid")
  let stateJson ← Exec.ofExcept
    (canonicalJsonObject state "mail rule run state" maxMailRuleStateBytes)
  let now ← readClock clock
  let runRow ← Exec.atomically do
    let current ← Exec.require (·.findRun normalizedId normalizedRun)
      (.mailRuleNotFound "mail rule run does not exist")
    Exec.ensure current.status.isActive (.mailRuleConflict "mail rule run is already final")
    let startedAt := if progress.status == .running && current.startedAt.isNone then some now
      else current.startedAt
    let finishedAt := if progress.status.isActive then none else some now
    Exec.update fun db => { db with mailRuleRuns := db.mailRuleRuns.map fun row =>
      if row.accountId == normalizedId && row.runId == normalizedRun then
        { row with
          stateJson := stateJson, status := progress.status
          scanned := progress.scanned, matched := progress.matched
          moved := progress.moved, failed := progress.failed
          startedAt := startedAt, updatedAt := now, finishedAt := finishedAt
          errorCode := progress.errorCode }
      else row }
    Exec.require (fun db => db.mailRuleRuns.find? (·.runId == normalizedRun))
      (.data "authentication row disappeared")
  Exec.ofExcept (mailRuleRunFromRow env runRow)

/-- `cancel_mail_rule_run` -/
def cancelMailRuleRun (env : Env) (clock : Option Nat) (accountId runId : String) :
    Store MailRuleRun := do
  let current ← getMailRuleRun env accountId runId
  updateMailRuleRun env clock accountId runId current.state
    ⟨.cancelled, current.scanned, current.matched, current.moved, current.failed, none⟩

end MaddyWeb.Auth
