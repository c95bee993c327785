import MaddyWeb.Identity
import MaddyWeb.Library.Stream
import MaddyWeb.Rules.Condition
import MaddyWeb.Rules.Snapshot

/-!
# The delivery-time filter

The bridge reads one control line and one message, evaluates the published rules of the
account and answers with the mailbox that the last matching rule names.  The client forwards
a message to it and writes a validated answer to its output.
-/

namespace MaddyWeb.Rules

open MaddyWeb.Library MaddyWeb.Library.Text MaddyWeb.Identity

/-! ## Published rules -/

/-- The exceptions that an evaluation can raise. -/
inductive FilterError
  | bridge (message : String)
  | rule (e : RuleError)
  | value
  | snapshot (e : SnapshotError)
  deriving DecidableEq, Repr

/-- `except (FilterBridgeError, RuleValidationError, OSError, ValueError)` -/
def FilterError.isCaught : FilterError → Bool
  | .bridge _ | .value => true
  | .rule e =>
      match e with
      | .validation _ => true
      | .recursion => false
  | .snapshot e =>
      match e with
      | .value _ | .os => true
      | .snapshot _ | .recursion => false

structure FilterEnv extends SnapshotEnv where
  /-- `str.casefold` -/
  casefold : String → String
  /-- `parse_rule_message`, with nothing for an exception -/
  parseRuleMessage : Bytes → Option RuleMessage
  reprLimit : ReprLimit

def maxFilterMessageBytes : Nat := 25 * 1024 * 1024
def maxProtocolLineBytes : Nat := 512

/-- `_RULE_ID_RE.fullmatch` -/
def isRuleId (text : String) : Bool :=
  text.toList.length == 32 &&
    text.toList.all fun c => c.isDigit || (0x61 ≤ c.toNat && c.toNat ≤ 0x66)

/-- An entry of `prepared`. -/
structure PreparedRule where
  position : Nat
  stopProcessing : Bool
  rule : Rule
  deriving Repr

def recordKeys : List String :=
  ["rule_id", "enabled", "position", "condition", "target_mailbox", "stop_processing", "revision"]

/-- The metadata of one record. -/
structure RecordHead where
  ruleId : String
  position : Nat
  enabled : Bool
  stopProcessing : Bool

/-- The two checks of a record before its condition is read. -/
def recordHead (seen : List String) (fields : List (String × Json)) :
    Except FilterError RecordHead :=
  if fields.all (fun field => recordKeys.contains field.1) &&
      recordKeys.all (fun key => fields.any (·.1 == key)) then
    match Json.get? fields "rule_id", Json.get? fields "position", Json.get? fields "enabled",
        Json.get? fields "stop_processing", Json.get? fields "revision" with
    | some (.str ruleId), some (.int position), some (.bool enabled), some (.bool stop),
        some (.int revision) =>
        if isRuleId ruleId && !seen.contains ruleId && decide (0 ≤ position ∧ position < 100) &&
            decide (1 ≤ revision) then
          .ok ⟨ruleId, position.toNat, enabled, stop⟩
        else .error (.bridge "published rule metadata is invalid")
    | _, _, _, _, _ => .error (.bridge "published rule metadata is invalid")
  else .error (.bridge "published rule record is invalid")

/-- `compile_rule(Rule.from_mapping(...))` -/
def compileRecord (limit : ReprLimit) (fields : List (String × Json)) : Except RuleError Rule := do
  let rule ← ruleFrom limit ((Json.get? fields "condition").getD .null)
    ((Json.get? fields "target_mailbox").getD .null)
  compileRule rule

/-- One pass of the loop over the records. -/
def prepareRecord (limit : ReprLimit) (seen : List String) :
    Json → Except FilterError (String × Option PreparedRule)
  | .obj fields => do
      let head ← recordHead seen fields
      if head.enabled then
        let rule ← (compileRecord limit fields).mapError .rule
        return (head.ruleId, some ⟨head.position, head.stopProcessing, rule⟩)
      else return (head.ruleId, none)
  | _ => .error (.bridge "published rule record is invalid")

/-- The loop over the records; disabled rules are checked but not compiled. -/
def prepareRules (limit : ReprLimit) :
    List String → List Json → Except FilterError (List PreparedRule)
  | _, [] => .ok []
  | seen, value :: rest => do
      let (ruleId, prepared) ← prepareRecord limit seen value
      let others ← prepareRules limit (ruleId :: seen) rest
      return prepared.toList ++ others

/-- The last loop: a later match replaces an earlier one until a rule stops it. -/
def selectTarget (casefold : String → String) (message : RuleMessage) :
    Option String → List PreparedRule → Option String
  | target, [] => target
  | target, item :: rest =>
      if item.rule.matches casefold message then
        if item.stopProcessing then some item.rule.targetMailbox
        else selectTarget casefold message (some item.rule.targetMailbox) rest
      else selectTarget casefold message target rest

/-- What `evaluate_filter_message` does with the rules of a loaded snapshot. -/
def evaluateRules (env : FilterEnv) (rules : List Json) (rawMessage : Bytes) :
    Except FilterError (Option String) :=
  if 100 < rules.length then .error (.bridge "published rule list is invalid")
  else do
    let prepared ← prepareRules env.reprLimit [] rules
    if (prepared.map (·.position)).Nodup then
      match env.parseRuleMessage rawMessage with
      | none => return none
      | some message =>
          return selectTarget env.casefold message none
            (prepared.mergeSort fun a b => decide (a.position ≤ b.position))
    else throw (.bridge "published rule order is invalid")

/-- `evaluate_filter_message` -/
def evaluateFilterMessage (env : FilterEnv) (disk : Disk) (canonicalEmail : String)
    (rawMessage : Bytes) : Except FilterError (Option String) :=
  match canonicalizeEmail canonicalEmail with
  | none => .error .value
  | some account =>
      if 1 ≤ rawMessage.length ∧ rawMessage.length ≤ maxFilterMessageBytes then
        match loadSnapshot env.toSnapshotEnv disk account with
        | .error e => .error (.snapshot e)
        | .ok none => .ok none
        | .ok (some rules) => evaluateRules env rules rawMessage
      else .ok none

/-! ## The bridge -/

/-- `_TOKEN_RE.fullmatch` -/
def isToken (text : String) : Bool :=
  text.toList.length == 64 &&
    text.toList.all fun c => c.isDigit || (0x61 ≤ c.toNat && c.toNat ≤ 0x66)

def filterProtocol : String := "MADDYWEB-FILTER/1"

/-- `_authenticated_account` -/
def authenticatedAccount (line : Bytes) (expectedToken : String) : Option String :=
  if line = [] ∨ maxProtocolLineBytes < line.length then none
  else
    match asciiDecode line with
    | none => none
    | some decoded =>
        match split [' '] decoded with
        | [protocol, suppliedToken, rawAccount] =>
            if protocol = filterProtocol.toList && isToken expectedToken &&
                suppliedToken = expectedToken.toList then
              canonicalizeEmail (String.ofList rawAccount)
            else none
        | _ => none

/-- `_render_filter_target` -/
def renderFilterTarget : Option String → Bytes
  | none => []
  | some target =>
      let rendered := utf8 target.toList
      if rendered = [] ∨ 0x0A ∈ rendered ∨ 0x0D ∈ rendered ∨ 1024 < rendered.length then []
      else rendered ++ [0x0A]

/-- The evaluation inside its `try`, and the rendering of its result. -/
def answer (env : FilterEnv) (disk : Disk) (account : String) (rawMessage : Bytes) :
    Except FilterError Bytes :=
  match evaluateFilterMessage env disk account rawMessage with
  | .ok target => .ok (renderFilterTarget target)
  | .error e => if e.isCaught then .ok [] else .error e

/-- `evaluate_bridge_payload` -/
def evaluateBridgePayload (env : FilterEnv) (disk : Disk) (expectedToken : String)
    (payload : Bytes) : Except FilterError Bytes :=
  if 1 ≤ payload.length ∧ payload.length ≤ maxProtocolLineBytes + maxFilterMessageBytes then
    match partition [0x0A] payload with
    | none => .ok []
    | some (line, rawMessage) =>
        if rawMessage = [] ∨ maxProtocolLineBytes < line.length then .ok []
        else
          match authenticatedAccount line expectedToken with
          | none => .ok []
          | some account => answer env disk account rawMessage
  else .ok []

/-- A connection; its reads fail with an `OSError` or a `TimeoutError`. -/
abbrev Connection := Source Unit UInt8

/-- The reading of the body of a request whose first bytes came with the control line. -/
def receiveBody (account : String) (initialBody : Bytes) :
    Exec Connection Unit (Option (String × Bytes)) := do
  let (body, atEnd) ← Source.fill (64 * 1024) (maxFilterMessageBytes + 1) initialBody
  if atEnd && !body.isEmpty then return some (account, body) else return none

/-- The reading part of `_FilterRequestHandler.handle`. -/
def receiveRequest (expectedToken : String) : Exec Connection Unit (Option (String × Bytes)) := do
  let (control, _) ← Source.fillUntil (·.contains 0x0A) 4096 (maxProtocolLineBytes + 1)
    (maxProtocolLineBytes + 1) []
  match partition [0x0A] control with
  | none => return none
  | some (line, remainder) =>
      if maxProtocolLineBytes < line.length then return none
      else
        match authenticatedAccount line expectedToken with
        | none => return none
        | some account => receiveBody account remainder

/-- `_FilterRequestHandler.handle`: what it sends, if it does not raise. -/
def handle (env : FilterEnv) (disk : Disk) (expectedToken : String) (connection : Connection) :
    Except FilterError Bytes :=
  match (receiveRequest expectedToken connection).1 with
  | .ok (some (account, rawMessage)) => answer env disk account rawMessage
  | .ok none | .error _ => .ok []

/-! ## The client -/

def maxFilterResponseBytes : Nat := 1025

/-- `_validated_response` -/
def validatedResponse (response : Bytes) : Bytes :=
  if response = [] then []
  else if maxFilterResponseBytes < response.length ∨ response.getLast? ≠ some 0x0A ∨
      response.count 0x0A ≠ 1 ∨ 0x0D ∈ response then []
  else
    match utf8Decode response.dropLast with
    | none => []
    | some rendered =>
        if rendered = [] ∨ rendered.any (fun c => c.toNat < 0x20 || c.toNat == 0x7F) then []
        else response

/-- The control line that the client sends. -/
def requestHeader (token canonicalAccount : String) : Bytes :=
  utf8 (filterProtocol.toList ++ ' ' :: token.toList ++ ' ' :: canonicalAccount.toList) ++ [0x0A]

/-- The loop that reads the answer. -/
def receiveResponse (connection : Connection) : Option Bytes :=
  match (Source.fill (maxFilterResponseBytes + 1) (maxFilterResponseBytes + 1) [] connection).1 with
  | .ok (response, _) => some response
  | .error _ => none

/-- `run_filter_client`: what it writes to its output.  `exchange` is the other end of the
connection, from what has been sent to what can be received. -/
def runFilterClient (account token : String) (source : Connection)
    (exchange : Bytes → Connection) : Bytes :=
  match canonicalizeEmail account with
  | none => []
  | some canonicalAccount =>
      match (Source.fill (64 * 1024) (maxFilterMessageBytes + 1) [] source).1 with
      | .error _ => []
      | .ok (message, atEnd) =>
          if atEnd && !message.isEmpty then
            match receiveResponse (exchange (requestHeader token canonicalAccount ++ message)) with
            | some response => validatedResponse response
            | none => []
          else []

/-- The bridge as the client sees it, with the chunks in which both directions arrive. -/
def bridgeExchange (env : FilterEnv) (disk : Disk) (expectedToken : String)
    (requestCuts responseCuts : Nat → Except Unit Nat) (sent : Bytes) : Connection where
  pending := match handle env disk expectedToken ⟨sent, requestCuts, 0⟩ with
    | .ok response => response
    | .error _ => []
  cuts := responseCuts
  reads := 0

end MaddyWeb.Rules
