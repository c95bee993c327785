import MaddyWeb.Library.Json
import Mathlib.Algebra.Group.Int.Defs
import Mathlib.Algebra.GroupWithZero.Nat
import Mathlib.Data.String.Basic

/-!
# Conditions of mail rules

A condition is parsed from a JSON object with a bound on its depth and on the number of its
nodes, and evaluated over the facts of a message in three-valued logic.  Text that holds an
unpaired surrogate stands here with a control character in its place: `_validate_text` refuses
both, and no other check of the filter tells them apart.
-/

namespace MaddyWeb.Rules

open MaddyWeb.Library MaddyWeb.Library.Text

/-- `RuleValidationError`, and the `RecursionError` of a `repr` that nests too deeply. -/
inductive RuleError
  | validation (message : String)
  | recursion
  deriving DecidableEq, Repr

/-! ## Text -/

/-- `unicodedata.category(c) in {"Cc", "Cs"}` -/
def isUnsafe (c : Char) : Bool := c.toNat < 0x20 || (0x7F ≤ c.toNat && c.toNat ≤ 0x9F)

/-- `_validate_text` -/
def validateText (label : String) (maximumCharacters maximumBytes : Nat) :
    Option Json → Except RuleError String
  | some (.str value) =>
      if value.toList.isEmpty then .error (.validation (label ++ " cannot be empty"))
      else if value.toList.any isUnsafe then
        .error (.validation (label ++ " contains unsafe characters"))
      else if maximumCharacters < value.toList.length ∨
          maximumBytes < Json.utf8Length value.toList then
        .error (.validation (label ++ " is too long"))
      else .ok value
  | _ => .error (.validation (label ++ " must be a string"))

def maxRuleDepth : Nat := 8
def maxRuleNodes : Nat := 100
def maxHeaderNameCharacters : Nat := 78

/-- `_HEADER_NAME_RE` -/
def isHeaderChar (c : Char) : Bool := c.isAlphanum || "!#$%&'*+.^_`|~-".toList.contains c

/-- `_validate_header_name`; the name is ASCII, so `casefold` is `lower`. -/
def validateHeaderName (value : Option Json) : Except RuleError String := do
  let name ← validateText "custom header name" maxHeaderNameCharacters maxHeaderNameCharacters value
  if name.toList.all isHeaderChar then return String.ofList (asciiLower name.toList)
  else throw (.validation "custom header name is invalid")

/-- `_validate_target_mailbox` -/
def validateTargetMailbox (value : Option Json) : Except RuleError String := do
  let mailbox ← validateText "target mailbox" 255 1024 value
  if strStrip mailbox.toList = mailbox.toList then return mailbox
  else throw (.validation "target mailbox cannot start or end with whitespace")

/-! ## Conditions -/

inductive StringField
  | from | to | cc | bcc | replyTo | subject | listId | header
  deriving DecidableEq, Repr

inductive StringOperator
  | equals | notEquals | contains | notContains | startsWith | endsWith | exists
  deriving DecidableEq, Repr

inductive NumericOperator
  | eq | lt | lte | gt | gte
  deriving DecidableEq, Repr

namespace StringField

def all : List StringField := [.from, .to, .cc, .bcc, .replyTo, .subject, .listId, .header]

def value : StringField → String
  | .from => "from"
  | .to => "to"
  | .cc => "cc"
  | .bcc => "bcc"
  | .replyTo => "reply_to"
  | .subject => "subject"
  | .listId => "list_id"
  | .header => "header"

end StringField

namespace StringOperator

def all : List StringOperator :=
  [.equals, .notEquals, .contains, .notContains, .startsWith, .endsWith, .exists]

def value : StringOperator → String
  | .equals => "equals"
  | .notEquals => "not_equals"
  | .contains => "contains"
  | .notContains => "not_contains"
  | .startsWith => "starts_with"
  | .endsWith => "ends_with"
  | .exists => "exists"

end StringOperator

namespace NumericOperator

def all : List NumericOperator := [.eq, .lt, .lte, .gt, .gte]

def value : NumericOperator → String
  | .eq => "eq"
  | .lt => "lt"
  | .lte => "lte"
  | .gt => "gt"
  | .gte => "gte"

end NumericOperator

/-- The condition classes; a size or attachment test has one field and a boolean one operator. -/
inductive Condition
  | and (conditions : List Condition)
  | or (conditions : List Condition)
  | not (condition : Condition)
  | string (field : StringField) (operator : StringOperator) (value header : Option String)
  | size (operator : NumericOperator) (value : Nat)
  | hasAttachment (value : Bool)
  deriving Repr

def Condition.children : Condition → List Condition
  | .and conditions | .or conditions => conditions
  | .not condition => [condition]
  | _ => []

/-- The loop of `_validate_condition_budget`, with the nodes that it may still visit. -/
def budgetLoop : Nat → List (Condition × Nat) → Except RuleError Unit
  | _, [] => .ok ()
  | 0, _ :: _ => .error (.validation "rule has too many condition nodes")
  | nodes + 1, (node, depth) :: stack =>
      if maxRuleDepth < depth then .error (.validation "rule condition nesting is too deep")
      else budgetLoop nodes (node.children.reverse.map (fun child => (child, depth + 1)) ++ stack)

/-- `_validate_condition_budget` -/
def validateConditionBudget (condition : Condition) : Except RuleError Unit :=
  budgetLoop maxRuleNodes [(condition, 1)]

/-! ## Parsing -/

/-- `sorted(names)[0]` -/
def leastName : List String → Option String
  | [] => none
  | name :: rest =>
      some (rest.foldl (fun least other => if other < least then other else least) name)

/-- `_require_keys` with no optional key -/
def requireKeys (fields : List (String × Json)) (required : List String) : Except RuleError Unit :=
  match leastName (required.filter fun key => !fields.any (·.1 == key)) with
  | some key => .error (.validation ("missing rule key: " ++ key))
  | none =>
      match leastName ((fields.map (·.1)).filter fun key => !required.contains key) with
      | some key => .error (.validation ("unknown rule key: " ++ key))
      | none => .ok ()

/-- How many calls of `repr` the interpreter nests before it raises a `RecursionError`, by the
depth that is left to the condition and the label of the check. -/
abbrev ReprLimit := Nat → String → Nat

section Parsing

variable (limit : ReprLimit)

/-- `_enum_value`; the text of the `ValueError` that it catches holds `repr(value)`. -/
def enumValue {β : Type} (depth : Nat) (values : List β) (value : β → String) (label : String) :
    Option Json → Except RuleError β
  | some (.str text) =>
      match values.find? (value · == text) with
      | some found => .ok found
      | none => .error (.validation ("unsupported " ++ label))
  | some other =>
      if limit depth label < other.depth then .error .recursion
      else .error (.validation ("unsupported " ++ label))
  | none => .error (.validation ("unsupported " ++ label))

/-- `StringCondition.__post_init__` -/
def stringCondition (field : StringField) (operator : StringOperator) (value header : Option Json) :
    Except RuleError Condition := do
  let headerName ←
    if field = .header then (validateHeaderName header).map some
    else if header.isSome then throw (.validation "header is valid only for the header field")
    else pure none
  if operator = .exists then
    if value.isSome then throw (.validation "exists does not accept a value")
    else return .string field operator none headerName
  else
    let text ← validateText "string test value" 2048 (8 * 1024) value
    return .string field operator (some text) headerName

/-- `NumericCondition.__post_init__` -/
def numericCondition (depth : Nat) (operator value : Option Json) : Except RuleError Condition := do
  let operator ← enumValue limit depth NumericOperator.all NumericOperator.value "numeric operator"
    operator
  match value with
  | some (.int number) =>
      if 0 ≤ number ∧ number ≤ 2 ^ 63 - 1 then return .size operator number.toNat
      else throw (.validation "numeric test value must be a non-negative 64-bit integer")
  | _ => throw (.validation "numeric test value must be a non-negative 64-bit integer")

/-- `BooleanCondition.__post_init__` -/
def booleanCondition (depth : Nat) (operator value : Option Json) : Except RuleError Condition := do
  let _ ← enumValue limit depth [()] (fun _ => "eq") "boolean operator" operator
  match value with
  | some (.bool flag) => return .hasAttachment flag
  | _ => throw (.validation "boolean test value must be a boolean")

/-- The test on one fact of the message. -/
def leafCondition (depth : Nat) (fields : List (String × Json)) : Except RuleError Condition :=
  match Json.get? fields "field" with
  | some (.str name) =>
      match StringField.all.find? (·.value == name) with
      | some field => do
          let operator ← enumValue limit depth StringOperator.all StringOperator.value
            "string operator" (Json.get? fields "operator")
          requireKeys fields (["field", "operator"] ++
            (if field = .header then ["header"] else []) ++
            (if operator = .exists then [] else ["value"]))
          stringCondition field operator (Json.get? fields "value") (Json.get? fields "header")
      | none =>
          if name = "size" then do
            requireKeys fields ["field", "operator", "value"]
            numericCondition limit depth (Json.get? fields "operator") (Json.get? fields "value")
          else if name = "has_attachment" then do
            requireKeys fields ["field", "operator", "value"]
            booleanCondition limit depth (Json.get? fields "operator") (Json.get? fields "value")
          else .error (.validation "unsupported condition field")
  | _ => .error (.validation "unsupported condition field")

/-- `AndCondition.__post_init__` and `OrCondition.__post_init__` -/
def joinCondition (operation : String) (conditions : List Condition) : Except RuleError Condition :=
  if conditions.isEmpty then .error (.validation (operation ++ " requires at least one condition"))
  else if operation = "and" then .ok (.and conditions)
  else .ok (.or conditions)

/-- `condition_from_mapping`, with the depth that is left. -/
def conditionFrom : Nat → Json → Except RuleError Condition
  | 0, _ => .error (.validation "rule condition nesting is too deep")
  | depth + 1, .obj fields =>
      match Json.get? fields "op" with
      | some (.str operation) =>
          if operation = "and" ∨ operation = "or" then do
            requireKeys fields ["op", "conditions"]
            match Json.get? fields "conditions" with
            | some (.arr children) =>
                if maxRuleNodes < children.length then
                  throw (.validation "rule has too many condition nodes")
                else
                  let parsed ← children.mapM (conditionFrom depth)
                  let condition ← joinCondition operation parsed
                  validateConditionBudget condition
                  return condition
            | _ => throw (.validation (operation ++ " conditions must be an array"))
          else if operation = "not" then do
            requireKeys fields ["op", "condition"]
            let child ← conditionFrom depth ((Json.get? fields "condition").getD .null)
            validateConditionBudget (.not child)
            return .not child
          else .error (.validation "unsupported logical operator")
      | some _ => .error (.validation "logical operator must be a string")
      | none => do
          let condition ← leafCondition limit depth fields
          validateConditionBudget condition
          return condition
  | _ + 1, _ => .error (.validation "condition must be an object")

/-- `condition_from_mapping` -/
def conditionFromMapping (document : Json) : Except RuleError Condition :=
  conditionFrom limit maxRuleDepth document

end Parsing

/-- `condition_to_mapping` -/
def conditionToMapping : Condition → Json
  | .and conditions => .obj [("conditions", .arr (conditions.map conditionToMapping)),
      ("op", .str "and")]
  | .or conditions => .obj [("conditions", .arr (conditions.map conditionToMapping)),
      ("op", .str "or")]
  | .not condition => .obj [("condition", conditionToMapping condition), ("op", .str "not")]
  | .string field operator value header =>
      .obj ([("field", .str field.value), ("operator", .str operator.value)] ++
        (header.map fun text => ("header", Json.str text)).toList ++
        (value.map fun text => ("value", Json.str text)).toList)
  | .size operator value => .obj [("field", .str "size"), ("operator", .str operator.value),
      ("value", .int value)]
  | .hasAttachment value => .obj [("field", .str "has_attachment"), ("operator", .str "eq"),
      ("value", .bool value)]

/-! ## Rules -/

/-- `Rule`: a validated condition and target. -/
structure Rule where
  condition : Condition
  targetMailbox : String
  deriving Repr

/-- `Rule.from_mapping` of the document that has these two keys. -/
def ruleFrom (limit : ReprLimit) (condition targetMailbox : Json) : Except RuleError Rule := do
  let condition ← conditionFromMapping limit condition
  validateConditionBudget condition
  let target ← validateTargetMailbox (some targetMailbox)
  return ⟨condition, target⟩

/-- `compile_rule`: the operands are folded when the rule is compiled. -/
def compileRule (rule : Rule) : Except RuleError Rule := do
  validateConditionBudget rule.condition
  return rule

/-! ## Evaluation -/

/-- `RuleMessage` -/
structure RuleMessage where
  headers : List (String × String)
  size : Nat
  hasAttachment : Bool
  envelopeSender : Option String
  envelopeRecipients : List String
  deriving DecidableEq, Repr

inductive Truth
  | false
  | true
  | unknown
  deriving DecidableEq, Repr

def Truth.ofBool : Bool → Truth
  | Bool.true => .true
  | Bool.false => .false

def Truth.negate : Truth → Truth
  | .true => .false
  | .false => .true
  | .unknown => .unknown

/-- The loop of `_CompiledAnd` over the results of the conditions. -/
def Truth.all (results : List Truth) : Truth :=
  if results.contains .false then .false else if results.contains .unknown then .unknown else .true

/-- The loop of `_CompiledOr` over the results of the conditions. -/
def Truth.any (results : List Truth) : Truth :=
  if results.contains .true then .true else if results.contains .unknown then .unknown else .false

section Evaluation

variable (casefold : String → String)

/-- `string_values` -/
def stringValues (message : RuleMessage) (field : StringField) (header : Option String) :
    List String :=
  let name := match field with
    | .replyTo => "reply-to"
    | .listId => "list-id"
    | .header => header.getD ""
    | other => other.value
  (message.headers.filter (·.1 == casefold name)).map (·.2) ++
    match field with
    | .from => message.envelopeSender.toList
    | .to => message.envelopeRecipients
    | _ => []

/-- `_string_result` -/
def stringResult (message : RuleMessage) (field : StringField) (operator : StringOperator)
    (value header : Option String) : Truth :=
  let values := stringValues casefold message field header
  if operator = .exists then .ofBool (!values.isEmpty)
  else
    match value with
    | none => .unknown
    | some value =>
        let folded := (casefold value).toList
        if values.isEmpty then .unknown
        else .ofBool <| match operator with
          | .equals => values.any (·.toList == folded)
          | .notEquals => values.all (·.toList != folded)
          | .contains => values.any (hasSubstring folded ·.toList)
          | .notContains => values.all (!hasSubstring folded ·.toList)
          | .startsWith => values.any (folded.isPrefixOf ·.toList)
          | .endsWith => values.any (folded.isSuffixOf ·.toList)
          | .exists => Bool.false

/-- `_numeric_result` -/
def numericResult (size : Nat) (operator : NumericOperator) (value : Nat) : Truth :=
  .ofBool <| match operator with
    | .eq => size == value
    | .lt => decide (size < value)
    | .lte => decide (size ≤ value)
    | .gt => decide (value < size)
    | .gte => decide (value ≤ size)

/-- `_evaluate_condition` -/
def evaluateCondition (message : RuleMessage) : Condition → Truth
  | .and conditions => .all (conditions.map (evaluateCondition message))
  | .or conditions => .any (conditions.map (evaluateCondition message))
  | .not condition => (evaluateCondition message condition).negate
  | .string field operator value header => stringResult casefold message field operator value header
  | .size operator value => numericResult message.size operator value
  | .hasAttachment value => .ofBool (message.hasAttachment == value)

/-- `CompiledRule.matches` -/
def Rule.matches (rule : Rule) (message : RuleMessage) : Bool :=
  evaluateCondition casefold message rule.condition == .true

end Evaluation

end MaddyWeb.Rules
