import MaddyWeb.Library.Utf8
import MaddyWeb.Rules.Condition

/-!
# Rule documents

A rule as a mapping and as canonical JSON, and back.  `json.loads` is that of the standard
library, with the hooks that refuse duplicate keys and constants.
-/

namespace MaddyWeb.Rules

open MaddyWeb.Library

def maxRuleJsonBytes : Nat := 64 * 1024

/-- What `json.loads` gives. -/
inductive LoadedRule
  | value (value : Json)
  /-- One of the two hooks raises. -/
  | refused (error : RuleError)
  /-- A `UnicodeError`, `ValueError` or `RecursionError`. -/
  | failed

/-- `Rule.from_mapping` -/
def ruleFromMapping (limit : ReprLimit) : Json → Except RuleError Rule
  | .obj fields => do
      requireKeys fields ["condition", "target_mailbox"]
      ruleFrom limit ((Json.get? fields "condition").getD .null)
        ((Json.get? fields "target_mailbox").getD .null)
  | _ => .error (.validation "rule must be an object")

/-- `Rule.to_mapping` -/
def Rule.toMapping (rule : Rule) : Json :=
  .obj [("condition", conditionToMapping rule.condition),
    ("target_mailbox", .str rule.targetMailbox)]

/-- `Rule.canonical_json` -/
def Rule.canonicalJson (rule : Rule) : List Char := rule.toMapping.sortKeys.render false

section Loads

variable (loads : List Char → LoadedRule)

/-- The end of `_load_rule_json`. -/
def loadRendered (rendered : List Char) : Except RuleError Json :=
  match loads rendered with
  | .value (.obj fields) => .ok (.obj fields)
  | .value _ => .error (.validation "rule must be an object")
  | .refused error => .error error
  | .failed => .error (.validation "rule JSON is invalid")

/-- `_load_rule_json` of a `str` -/
def loadRuleText (document : List Char) : Except RuleError Json :=
  if maxRuleJsonBytes < Json.utf8Length document then .error (.validation "rule JSON is too large")
  else loadRendered loads document

/-- `_load_rule_json` of `bytes` -/
def loadRuleBytes (document : List UInt8) : Except RuleError Json :=
  if maxRuleJsonBytes < document.length then .error (.validation "rule JSON is too large")
  else
    match utf8Decode document with
    | none => .error (.validation "rule JSON must be UTF-8")
    | some rendered => loadRendered loads rendered

/-- What `canonical_rule_json` takes. -/
inductive RuleDocument
  | rule (rule : Rule)
  | mapping (document : Json)
  | text (document : List Char)
  | bytes (document : List UInt8)

variable (limit : ReprLimit)

/-- `Rule.from_json` of a `str` -/
def ruleFromJson (document : List Char) : Except RuleError Rule := do
  ruleFromMapping limit (← loadRuleText loads document)

/-- `canonical_rule_json` -/
def canonicalRuleJson : RuleDocument → Except RuleError (List Char)
  | .rule rule => .ok rule.canonicalJson
  | .mapping document => do return (← ruleFromMapping limit document).canonicalJson
  | .text document => do return (← ruleFromJson loads limit document).canonicalJson
  | .bytes document => do
      return (← ruleFromMapping limit (← loadRuleBytes loads document)).canonicalJson

end Loads

end MaddyWeb.Rules
