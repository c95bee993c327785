import MaddyWeb.Rules.Condition
import Mathlib.Data.List.Perm.Basic
import Mathlib.Order.MinMax

/-!
# Compiled conditions

A condition is compiled before it is evaluated: the operands of its string tests are folded,
and the loops over the children of a node stop at the first child that decides the result.
The reference reads the condition itself in strong Kleene logic, where AND is the least and OR
the greatest truth value of the children.
-/

namespace MaddyWeb.Rules

open MaddyWeb.Library MaddyWeb.Library.Text

/-! ## Compilation -/

/-- `_CompiledCondition` -/
inductive CompiledCondition
  | and (conditions : List CompiledCondition)
  | or (conditions : List CompiledCondition)
  | not (condition : CompiledCondition)
  | string (field : StringField) (operator : StringOperator) (value header : Option String)
  | numeric (operator : NumericOperator) (value : Nat)
  | boolean (value : Bool)
  deriving Repr

section Compilation

variable (casefold : String → String)

/-- `_compile_condition` -/
def compileCondition : Condition → CompiledCondition
  | .and conditions => .and (conditions.map compileCondition)
  | .or conditions => .or (conditions.map compileCondition)
  | .not condition => .not (compileCondition condition)
  | .string field operator value header => .string field operator (value.map casefold) header
  | .size operator value => .numeric operator value
  | .hasAttachment value => .boolean value

/-- `_string_result` of a compiled test. -/
def compiledStringResult (message : RuleMessage) (field : StringField) (operator : StringOperator)
    (value header : Option String) : Truth :=
  let values := stringValues casefold message field header
  if operator = .exists then if values.isEmpty then .false else .true
  else
    match value with
    | none => .unknown
    | some value =>
        if values.isEmpty then .unknown
        else
          let matched := match operator with
            | .equals => values.any fun candidate => candidate.toList == value.toList
            | .notEquals => values.all fun candidate => candidate.toList != value.toList
            | .contains => values.any fun candidate => hasSubstring value.toList candidate.toList
            | .notContains =>
                values.all fun candidate => !hasSubstring value.toList candidate.toList
            | .startsWith => values.any fun candidate => value.toList.isPrefixOf candidate.toList
            | .endsWith => values.any fun candidate => value.toList.isSuffixOf candidate.toList
            | .exists => false
          if matched then .true else .false

mutual

/-- `_evaluate_condition` -/
def evaluateCompiled (message : RuleMessage) : CompiledCondition → Truth
  | .string field operator value header =>
      compiledStringResult casefold message field operator value header
  | .numeric operator value => numericResult message.size operator value
  | .boolean value => if message.hasAttachment = value then .true else .false
  | .not condition =>
      match evaluateCompiled message condition with
      | .true => .false
      | .false => .true
      | .unknown => .unknown
  | .and conditions => evaluateAnd message false conditions
  | .or conditions => evaluateOr message false conditions

/-- The loop over the children of an AND. -/
def evaluateAnd (message : RuleMessage) (sawUnknown : Bool) : List CompiledCondition → Truth
  | [] => if sawUnknown then .unknown else .true
  | child :: rest =>
      match evaluateCompiled message child with
      | .false => .false
      | .unknown => evaluateAnd message true rest
      | .true => evaluateAnd message sawUnknown rest

/-- The loop over the children of an OR. -/
def evaluateOr (message : RuleMessage) (sawUnknown : Bool) : List CompiledCondition → Truth
  | [] => if sawUnknown then .unknown else .false
  | child :: rest =>
      match evaluateCompiled message child with
      | .true => .true
      | .unknown => evaluateOr message true rest
      | .false => evaluateOr message sawUnknown rest

end

end Compilation

/-! ## Strong Kleene logic -/

namespace Truth

/-- `false < unknown < true` -/
def rank : Truth → Nat
  | .false => 0
  | .unknown => 1
  | .true => 2

theorem rank_injective : Function.Injective rank := by
  intro a b h
  cases a <;> cases b <;> first | rfl | cases h

instance : LinearOrder Truth := LinearOrder.lift' rank rank_injective

theorem le_true (a : Truth) : a ≤ .true := by cases a <;> decide

theorem false_le (a : Truth) : .false ≤ a := by cases a <;> decide

theorem negate_negate (a : Truth) : a.negate.negate = a := by cases a <;> rfl

theorem negate_min (a b : Truth) : (min a b).negate = max a.negate b.negate := by
  cases a <;> cases b <;> rfl

theorem negate_max (a b : Truth) : (max a b).negate = min a.negate b.negate := by
  cases a <;> cases b <;> rfl

/-- The least of some truth values. -/
def least (results : List Truth) : Truth := results.foldr min .true

/-- The greatest of some truth values. -/
def greatest (results : List Truth) : Truth := results.foldr max .false

theorem least_cons (a : Truth) (results : List Truth) :
    least (a :: results) = min a (least results) :=
  rfl

theorem greatest_cons (a : Truth) (results : List Truth) :
    greatest (a :: results) = max a (greatest results) := rfl

theorem least_perm {results others : List Truth} (h : results.Perm others) :
    least results = least others := h.foldr_eq _

theorem greatest_perm {results others : List Truth} (h : results.Perm others) :
    greatest results = greatest others := h.foldr_eq _

theorem negate_least (results : List Truth) :
    (least results).negate = greatest (results.map negate) := by
  induction results with
  | nil => rfl
  | cons a results ih => rw [least_cons, negate_min, ih, List.map_cons, greatest_cons]

theorem negate_greatest (results : List Truth) :
    (greatest results).negate = least (results.map negate) := by
  induction results with
  | nil => rfl
  | cons a results ih => rw [greatest_cons, negate_max, ih, List.map_cons, least_cons]

end Truth

/-! ## The reference -/

section Reference

variable (casefold : String → String) (message : RuleMessage)

/-- What a string test says of one value. -/
def Satisfies (operator : StringOperator) (folded candidate : String) : Prop :=
  match operator with
  | .equals => candidate = folded
  | .notEquals => candidate ≠ folded
  | .contains => folded.toList <:+: candidate.toList
  | .notContains => ¬ folded.toList <:+: candidate.toList
  | .startsWith => folded.toList <+: candidate.toList
  | .endsWith => folded.toList <:+ candidate.toList
  | .exists => True

instance (operator : StringOperator) (folded candidate : String) :
    Decidable (Satisfies operator folded candidate) :=
  match operator with
  | .equals => inferInstanceAs (Decidable (candidate = folded))
  | .notEquals => inferInstanceAs (Decidable (candidate ≠ folded))
  | .contains => inferInstanceAs (Decidable (folded.toList <:+: candidate.toList))
  | .notContains => inferInstanceAs (Decidable (¬ folded.toList <:+: candidate.toList))
  | .startsWith => inferInstanceAs (Decidable (folded.toList <+: candidate.toList))
  | .endsWith => inferInstanceAs (Decidable (folded.toList <:+ candidate.toList))
  | .exists => inferInstanceAs (Decidable True)

/-- The negated tests ask for every value, the others for one. -/
def StringOperator.isUniversal : StringOperator → Bool
  | .notEquals | .notContains => true
  | _ => false

/-- A string test: unknown without a value to test. -/
def stringTest (field : StringField) (operator : StringOperator) (value header : Option String) :
    Truth :=
  let values := stringValues casefold message field header
  if operator = .exists then .ofBool (decide (values ≠ []))
  else
    match value with
    | none => .unknown
    | some value =>
        if values = [] then .unknown
        else if operator.isUniversal then
          .ofBool (decide (∀ candidate ∈ values, Satisfies operator (casefold value) candidate))
        else .ofBool (decide (∃ candidate ∈ values, Satisfies operator (casefold value) candidate))

/-- The meaning of a condition. -/
def meaning : Condition → Truth
  | .and conditions => .least (conditions.map meaning)
  | .or conditions => .greatest (conditions.map meaning)
  | .not condition => (meaning condition).negate
  | .string field operator value header => stringTest casefold message field operator value header
  | .size operator value => numericResult message.size operator value
  | .hasAttachment value => .ofBool (message.hasAttachment == value)

end Reference

end MaddyWeb.Rules
