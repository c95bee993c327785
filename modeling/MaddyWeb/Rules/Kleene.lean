import MaddyWeb.Library.Fallible
import MaddyWeb.Rules.Compiled

/-!
# Compiled evaluation is Kleene logic

The evaluation of a compiled condition is its meaning in strong Kleene logic, and the laws of
that logic hold of it.
-/

namespace MaddyWeb.Rules

open MaddyWeb.Library MaddyWeb.Library.Text

/-- The conditions of a node come before the node. -/
theorem Condition.induction {motive : Condition → Prop}
    (hand : ∀ conditions, (∀ child ∈ conditions, motive child) → motive (.and conditions))
    (hor : ∀ conditions, (∀ child ∈ conditions, motive child) → motive (.or conditions))
    (hnot : ∀ condition, motive condition → motive (.not condition))
    (hstring : ∀ field operator value header, motive (.string field operator value header))
    (hsize : ∀ operator value, motive (.size operator value))
    (hattachment : ∀ value, motive (.hasAttachment value)) : ∀ condition, motive condition
  | .and conditions => hand conditions fun child _ =>
      induction hand hor hnot hstring hsize hattachment child
  | .or conditions => hor conditions fun child _ =>
      induction hand hor hnot hstring hsize hattachment child
  | .not condition => hnot condition (induction hand hor hnot hstring hsize hattachment condition)
  | .string field operator value header => hstring field operator value header
  | .size operator value => hsize operator value
  | .hasAttachment value => hattachment value

variable {casefold : String → String} {message : RuleMessage}

/-! ## The loops -/

/-- What the loop over an AND has seen. -/
def seenAnd (sawUnknown : Bool) : Truth := if sawUnknown then .unknown else .true

/-- What the loop over an OR has seen. -/
def seenOr (sawUnknown : Bool) : Truth := if sawUnknown then .unknown else .false

theorem evaluateAnd_eq (sawUnknown : Bool) (children : List CompiledCondition) :
    evaluateAnd casefold message sawUnknown children =
      min (seenAnd sawUnknown) (.least (children.map (evaluateCompiled casefold message))) := by
  induction children generalizing sawUnknown with
  | nil =>
      rw [evaluateAnd, List.map_nil]
      cases sawUnknown <;> rfl
  | cons child rest ih =>
      rw [evaluateAnd, List.map_cons, Truth.least_cons]
      cases evaluateCompiled casefold message child with
      | false => cases sawUnknown <;> simp [seenAnd, Truth.false_le]
      | true =>
          dsimp only
          rw [ih, min_eq_right (Truth.le_true _)]
      | unknown =>
          dsimp only
          rw [ih, ← min_assoc]
          cases sawUnknown <;> rfl

theorem evaluateOr_eq (sawUnknown : Bool) (children : List CompiledCondition) :
    evaluateOr casefold message sawUnknown children =
      max (seenOr sawUnknown) (.greatest (children.map (evaluateCompiled casefold message))) := by
  induction children generalizing sawUnknown with
  | nil =>
      rw [evaluateOr, List.map_nil]
      cases sawUnknown <;> rfl
  | cons child rest ih =>
      rw [evaluateOr, List.map_cons, Truth.greatest_cons]
      cases evaluateCompiled casefold message child with
      | true => cases sawUnknown <;> simp [seenOr, Truth.le_true]
      | false =>
          dsimp only
          rw [ih, max_eq_right (Truth.false_le _)]
      | unknown =>
          dsimp only
          rw [ih, ← max_assoc]
          cases sawUnknown <;> rfl

/-! ## The tests -/

theorem ofBool_eq (b : Bool) : (if b then Truth.true else Truth.false) = .ofBool b := by
  cases b <;> rfl

/-- The check of one value, as `_string_result` makes it. -/
def matchesValue (operator : StringOperator) (folded candidate : String) : Bool :=
  match operator with
  | .equals => candidate.toList == folded.toList
  | .notEquals => candidate.toList != folded.toList
  | .contains => hasSubstring folded.toList candidate.toList
  | .notContains => !hasSubstring folded.toList candidate.toList
  | .startsWith => folded.toList.isPrefixOf candidate.toList
  | .endsWith => folded.toList.isSuffixOf candidate.toList
  | .exists => true

theorem matchesValue_iff (operator : StringOperator) (folded candidate : String) :
    matchesValue operator folded candidate = true ↔ Satisfies operator folded candidate := by
  cases operator with
  | equals => simp [matchesValue, Satisfies, String.toList_inj]
  | notEquals => simp [matchesValue, Satisfies, String.toList_inj]
  | contains => simp [matchesValue, Satisfies, hasSubstring_iff]
  | notContains => simp [matchesValue, Satisfies, ← hasSubstring_iff]
  | startsWith => simp [matchesValue, Satisfies]
  | endsWith => simp [matchesValue, Satisfies]
  | «exists» => simp [matchesValue, Satisfies]

theorem compiledStringResult_eq (field : StringField) (operator : StringOperator)
    (value header : Option String) :
    compiledStringResult casefold message field operator (value.map casefold) header =
      stringTest casefold message field operator value header := by
  unfold compiledStringResult stringTest
  generalize stringValues casefold message field header = values
  by_cases hexists : operator = .exists
  · subst hexists
    cases values <;> rfl
  simp only [if_neg hexists]
  cases value with
  | none => rfl
  | some value =>
      simp only [Option.map_some]
      by_cases hempty : values = []
      · subst hempty
        rfl
      have hany (operator : StringOperator) : values.any (matchesValue operator (casefold value)) =
          decide (∃ candidate ∈ values, Satisfies operator (casefold value) candidate) := by
        rw [Bool.eq_iff_iff, List.any_eq_true, decide_eq_true_iff]
        simp only [matchesValue_iff]
      have hall (operator : StringOperator) : values.all (matchesValue operator (casefold value)) =
          decide (∀ candidate ∈ values, Satisfies operator (casefold value) candidate) := by
        rw [Bool.eq_iff_iff, List.all_eq_true, decide_eq_true_iff]
        simp only [matchesValue_iff]
      rw [if_neg (by simpa using hempty), if_neg hempty]
      cases operator with
      | equals => exact (ofBool_eq _).trans (congrArg Truth.ofBool (hany .equals))
      | notEquals => exact (ofBool_eq _).trans (congrArg Truth.ofBool (hall .notEquals))
      | contains => exact (ofBool_eq _).trans (congrArg Truth.ofBool (hany .contains))
      | notContains => exact (ofBool_eq _).trans (congrArg Truth.ofBool (hall .notContains))
      | startsWith => exact (ofBool_eq _).trans (congrArg Truth.ofBool (hany .startsWith))
      | endsWith => exact (ofBool_eq _).trans (congrArg Truth.ofBool (hany .endsWith))
      | «exists» => exact absurd rfl hexists

/-- A compiled condition evaluates to its meaning. -/
theorem evaluateCompiled_compileCondition (condition : Condition) :
    evaluateCompiled casefold message (compileCondition casefold condition) =
      meaning casefold message condition := by
  induction condition using Condition.induction with
  | hand conditions ih =>
      have hchildren :
          conditions.map (evaluateCompiled casefold message ∘ compileCondition casefold) =
          conditions.map (meaning casefold message) := List.map_congr_left ih
      rw [compileCondition, evaluateCompiled, evaluateAnd_eq, meaning, List.map_map, hchildren]
      exact min_eq_right (Truth.le_true _)
  | hor conditions ih =>
      have hchildren :
          conditions.map (evaluateCompiled casefold message ∘ compileCondition casefold) =
          conditions.map (meaning casefold message) := List.map_congr_left ih
      rw [compileCondition, evaluateCompiled, evaluateOr_eq, meaning, List.map_map, hchildren]
      exact max_eq_right (Truth.false_le _)
  | hnot condition ih =>
      rw [compileCondition, evaluateCompiled, ih, meaning]
      cases meaning casefold message condition <;> rfl
  | hstring field operator value header =>
      rw [compileCondition, evaluateCompiled, compiledStringResult_eq, meaning]
  | hsize operator value => rw [compileCondition, evaluateCompiled, meaning]
  | hattachment value =>
      rw [compileCondition, evaluateCompiled, meaning]
      cases message.hasAttachment <;> cases value <;> rfl

/-! ## The evaluation of the filter -/

theorem all_eq_least (results : List Truth) : Truth.all results = .least results := by
  induction results with
  | nil => rfl
  | cons a results ih =>
      rw [Truth.least_cons, ← ih]
      cases a with
      | false => exact (min_eq_left (Truth.false_le _)).symm
      | true => exact (min_eq_right (Truth.le_true _)).symm
      | unknown =>
          show (if results.contains .false then Truth.false else .unknown) = _
          unfold Truth.all
          cases results.contains .false with
          | true => rfl
          | false => cases results.contains .unknown <;> rfl

theorem any_eq_greatest (results : List Truth) : Truth.any results = .greatest results := by
  induction results with
  | nil => rfl
  | cons a results ih =>
      rw [Truth.greatest_cons, ← ih]
      cases a with
      | true => exact (max_eq_left (Truth.le_true _)).symm
      | false => exact (max_eq_right (Truth.false_le _)).symm
      | unknown =>
          show (if results.contains .true then Truth.true else .unknown) = _
          unfold Truth.any
          cases results.contains .true with
          | true => rfl
          | false => cases results.contains .unknown <;> rfl

/-- `evaluateCondition` folds the operands when it evaluates; the result is the same. -/
theorem evaluateCondition_eq_meaning (condition : Condition) :
    evaluateCondition casefold message condition = meaning casefold message condition := by
  induction condition using Condition.induction with
  | hand conditions ih =>
      rw [evaluateCondition, meaning, all_eq_least, List.map_congr_left ih]
  | hor conditions ih =>
      rw [evaluateCondition, meaning, any_eq_greatest, List.map_congr_left ih]
  | hnot condition ih => rw [evaluateCondition, meaning, ih]
  | hstring field operator value header =>
      rw [evaluateCondition, meaning, ← compiledStringResult_eq]
      unfold stringResult compiledStringResult
      cases value with
      | none => cases stringValues casefold message field header <;> rfl
      | some value =>
          rcases stringValues casefold message field header with - | ⟨first, rest⟩
          · cases operator <;> rfl
          · cases operator <;> first | rfl | exact (ofBool_eq _).symm
  | hsize operator value => rw [evaluateCondition, meaning]
  | hattachment value => rw [evaluateCondition, meaning]

/-! ## Laws -/

/-- `_evaluate_condition(_compile_condition(condition), message)` -/
def evaluate (casefold : String → String) (message : RuleMessage) (condition : Condition) : Truth :=
  evaluateCompiled casefold message (compileCondition casefold condition)

/-- `compile_rule(rule).matches(message)` -/
def Rule.compiledMatches (casefold : String → String) (rule : Rule) (message : RuleMessage) :
    Bool :=
  evaluate casefold message rule.condition == .true

/-- The same condition with the children of some nodes in another order. -/
inductive Reordered : Condition → Condition → Prop
  | refl (condition) : Reordered condition condition
  | trans {a b c} : Reordered a b → Reordered b c → Reordered a c
  | and {conditions others} : conditions.Perm others → Reordered (.and conditions) (.and others)
  | or {conditions others} : conditions.Perm others → Reordered (.or conditions) (.or others)
  | andChild {a b} (before after) : Reordered a b →
      Reordered (.and (before ++ a :: after)) (.and (before ++ b :: after))
  | orChild {a b} (before after) : Reordered a b →
      Reordered (.or (before ++ a :: after)) (.or (before ++ b :: after))
  | not {a b} : Reordered a b → Reordered (.not a) (.not b)

theorem meaning_reordered {a b : Condition} (h : Reordered a b) :
    meaning casefold message a = meaning casefold message b := by
  induction h with
  | refl => rfl
  | trans _ _ ih₁ ih₂ => exact ih₁.trans ih₂
  | and hperm =>
      rw [meaning, meaning]
      exact Truth.least_perm (hperm.map _)
  | or hperm =>
      rw [meaning, meaning]
      exact Truth.greatest_perm (hperm.map _)
  | andChild before after _ ih =>
      rw [meaning, meaning, List.map_append, List.map_append, List.map_cons, List.map_cons, ih]
  | orChild before after _ ih =>
      rw [meaning, meaning, List.map_append, List.map_append, List.map_cons, List.map_cons, ih]
  | not _ ih => rw [meaning, meaning, ih]

theorem map_meaning_not (conditions : List Condition) :
    (conditions.map .not).map (meaning casefold message) =
      (conditions.map (meaning casefold message)).map .negate := by
  rw [List.map_map, List.map_map]
  apply List.map_congr_left
  intro child _
  rw [Function.comp_apply, meaning, Function.comp_apply]

theorem meaning_not_and (conditions : List Condition) :
    meaning casefold message (.not (.and conditions)) =
      meaning casefold message (.or (conditions.map .not)) := by
  rw [meaning, meaning, meaning, Truth.negate_least, map_meaning_not]

theorem meaning_not_or (conditions : List Condition) :
    meaning casefold message (.not (.or conditions)) =
      meaning casefold message (.and (conditions.map .not)) := by
  rw [meaning, meaning, meaning, Truth.negate_greatest, map_meaning_not]

theorem meaning_not_not (condition : Condition) :
    meaning casefold message (.not (.not condition)) = meaning casefold message condition := by
  rw [meaning, meaning, Truth.negate_negate]

/-! ### Headers -/

/-- The header that a string test reads. -/
def headerName (field : StringField) (header : Option String) : String :=
  match field with
  | .replyTo => "reply-to"
  | .listId => "list-id"
  | .header => header.getD ""
  | other => other.value

/-- The headers that the tests of a condition mention. -/
def Condition.headerNames : Condition → List String
  | .and conditions | .or conditions => (conditions.map headerNames).flatten
  | .not condition => headerNames condition
  | .string field _ _ header => [headerName field header]
  | .size _ _ | .hasAttachment _ => []

theorem stringValues_unmentioned {field : StringField} {header : Option String}
    {before after : List (String × String)} {key text : String}
    (h : casefold (headerName field header) ≠ key) :
    stringValues casefold { message with headers := before ++ (key, text) :: after } field header =
      stringValues casefold { message with headers := before ++ after } field header := by
  have hfilter : (before ++ (key, text) :: after).filter
      (·.1 == casefold (headerName field header)) =
        (before ++ after).filter (·.1 == casefold (headerName field header)) := by
    rw [List.filter_append, List.filter_append, List.filter_cons_of_neg]
    simpa using Ne.symm h
  show ((before ++ (key, text) :: after).filter
    (·.1 == casefold (headerName field header))).map (·.2) ++ _ = _
  rw [hfilter]
  rfl

theorem meaning_unmentioned (condition : Condition) {before after : List (String × String)}
    {key text : String} (h : ∀ name ∈ condition.headerNames, casefold name ≠ key) :
    meaning casefold { message with headers := before ++ (key, text) :: after } condition =
      meaning casefold { message with headers := before ++ after } condition := by
  induction condition using Condition.induction with
  | hand conditions ih =>
      rw [meaning, meaning]
      congr 1
      apply List.map_congr_left
      intro child hchild
      apply ih child hchild
      intro name hname
      apply h
      rw [Condition.headerNames]
      exact List.mem_flatten_of_mem (List.mem_map_of_mem hchild) hname
  | hor conditions ih =>
      rw [meaning, meaning]
      congr 1
      apply List.map_congr_left
      intro child hchild
      apply ih child hchild
      intro name hname
      apply h
      rw [Condition.headerNames]
      exact List.mem_flatten_of_mem (List.mem_map_of_mem hchild) hname
  | hnot condition ih =>
      rw [Condition.headerNames] at h
      rw [meaning, meaning, ih h]
  | hstring field operator value header =>
      have hname :=
        h (headerName field header) (by rw [Condition.headerNames]; exact List.mem_singleton_self _)
      rw [meaning, meaning]
      unfold stringTest
      rw [stringValues_unmentioned hname]
  | hsize operator value => rw [meaning, meaning]
  | hattachment value => rw [meaning, meaning]

/-! ### Unknown leaves -/

/-- `AndCondition` and `OrCondition` have at least one condition. -/
inductive Condition.Joined : Condition → Prop
  | and {conditions} :
    conditions ≠ [] → (∀ child ∈ conditions, Joined child) → Joined (.and conditions)
  | or {conditions} :
    conditions ≠ [] → (∀ child ∈ conditions, Joined child) → Joined (.or conditions)
  | not {condition} : Joined condition → Joined (.not condition)
  | string (field operator value header) : Joined (.string field operator value header)
  | size (operator value) : Joined (.size operator value)
  | hasAttachment (value) : Joined (.hasAttachment value)

theorem joined_of_stringCondition {field : StringField} {operator : StringOperator}
    {value header : Option Json} {condition : Condition}
    (h : stringCondition field operator value header = .ok condition) : condition.Joined := by
  -- the last part of the constructor, after the header name
  have hlast (name : Option String) (h : (if operator = .exists then
      if value.isSome = true then throw (.validation "exists does not accept a value")
      else pure (.string field operator none name)
    else do
      let text ← validateText "string test value" 2048 (8 * 1024) value
      pure (.string field operator (some text) name) : Except RuleError Condition) =
        .ok condition) :
      condition.Joined := by
    split at h
    · split at h
      · cases h
      · cases h
        exact .string _ _ _ _
    · obtain ⟨text, -, h⟩ := Fallible.bind_eq_ok h
      cases h
      exact .string _ _ _ _
  unfold stringCondition at h
  dsimp only at h
  split at h
  · obtain ⟨name, -, h⟩ := Fallible.bind_eq_ok h
    exact hlast name h
  split at h
  · cases h
  · exact hlast none h

theorem joined_of_leafCondition {limit : ReprLimit} {depth : Nat} {fields : List (String × Json)}
    {condition : Condition} (h : leafCondition limit depth fields = .ok condition) :
    condition.Joined := by
  unfold leafCondition at h
  split at h
  · split at h
    · obtain ⟨operator, -, h⟩ := Fallible.bind_eq_ok h
      obtain ⟨_, -, h⟩ := Fallible.bind_eq_ok h
      exact joined_of_stringCondition h
    · split at h
      · obtain ⟨_, -, h⟩ := Fallible.bind_eq_ok h
        unfold numericCondition at h
        obtain ⟨operator, -, h⟩ := Fallible.bind_eq_ok h
        split at h
        · split at h
          · cases h
            exact .size _ _
          · cases h
        · cases h
      · split at h
        · obtain ⟨_, -, h⟩ := Fallible.bind_eq_ok h
          unfold booleanCondition at h
          obtain ⟨_, -, h⟩ := Fallible.bind_eq_ok h
          split at h
          · cases h
            exact .hasAttachment _
          · cases h
        · cases h
  · cases h

theorem joined_of_joinCondition {operation : String} {conditions : List Condition}
    {condition : Condition} (h : joinCondition operation conditions = .ok condition)
    (hchildren : ∀ child ∈ conditions, child.Joined) : condition.Joined := by
  unfold joinCondition at h
  split at h
  · cases h
  next hne =>
  rw [List.isEmpty_iff] at hne
  split at h
  · cases h
    exact .and hne hchildren
  · cases h
    exact .or hne hchildren

/-- Every condition that is parsed has this shape. -/
theorem joined_of_conditionFrom {limit : ReprLimit} {depth : Nat} {document : Json}
    {condition : Condition} (h : conditionFrom limit depth document = .ok condition) :
    condition.Joined := by
  induction depth generalizing document condition with
  | zero => cases document <;> cases h
  | succ depth ih =>
      cases document with
      | obj fields =>
          rw [conditionFrom] at h
          split at h
          · split at h
            · obtain ⟨_, -, h⟩ := Fallible.bind_eq_ok h
              split at h
              · split at h
                · cases h
                · obtain ⟨parsed, hparsed, h⟩ := Fallible.bind_eq_ok h
                  obtain ⟨joined, hjoined, h⟩ := Fallible.bind_eq_ok h
                  obtain ⟨_, -, h⟩ := Fallible.bind_eq_ok h
                  cases h
                  apply joined_of_joinCondition hjoined
                  intro child hchild
                  obtain ⟨value, -, hvalue⟩ := Fallible.mem_of_mapM_ok hparsed hchild
                  exact ih hvalue
              · cases h
            · split at h
              · obtain ⟨_, -, h⟩ := Fallible.bind_eq_ok h
                obtain ⟨child, hchild, h⟩ := Fallible.bind_eq_ok h
                obtain ⟨_, -, h⟩ := Fallible.bind_eq_ok h
                cases h
                exact .not (ih hchild)
              · cases h
          · cases h
          · obtain ⟨leaf, hleaf, h⟩ := Fallible.bind_eq_ok h
            obtain ⟨_, -, h⟩ := Fallible.bind_eq_ok h
            cases h
            exact joined_of_leafCondition hleaf
      | _ => cases h

/-- The tests of a condition. -/
def Condition.leaves : Condition → List Condition
  | .and conditions | .or conditions => (conditions.map leaves).flatten
  | .not condition => leaves condition
  | leaf => [leaf]

theorem least_unknown {results : List Truth} (hne : results ≠ [])
    (h : ∀ result ∈ results, result = .unknown) : Truth.least results = .unknown := by
  induction results with
  | nil => exact absurd rfl hne
  | cons a rest ih =>
      rw [Truth.least_cons, h a List.mem_cons_self]
      by_cases hrest : rest = []
      · rw [hrest]
        rfl
      · rw [ih hrest fun result hresult => h result (List.mem_cons_of_mem _ hresult), min_self]

theorem greatest_unknown {results : List Truth} (hne : results ≠ [])
    (h : ∀ result ∈ results, result = .unknown) : Truth.greatest results = .unknown := by
  induction results with
  | nil => exact absurd rfl hne
  | cons a rest ih =>
      rw [Truth.greatest_cons, h a List.mem_cons_self]
      by_cases hrest : rest = []
      · rw [hrest]
        rfl
      · rw [ih hrest fun result hresult => h result (List.mem_cons_of_mem _ hresult), max_self]

theorem mem_leaves_join {conditions : List Condition} {child leaf : Condition}
    (hchild : child ∈ conditions) (hleaf : leaf ∈ child.leaves) :
    leaf ∈ (conditions.map Condition.leaves).flatten :=
  List.mem_flatten_of_mem (List.mem_map_of_mem hchild) hleaf

theorem meaning_unknown {condition : Condition} (hjoined : condition.Joined)
    (h : ∀ leaf ∈ condition.leaves, meaning casefold message leaf = .unknown) :
    meaning casefold message condition = .unknown := by
  induction hjoined with
  | and hne _ ih =>
      rw [Condition.leaves] at h
      rw [meaning]
      apply least_unknown (by simpa using hne)
      intro result hresult
      obtain ⟨child, hchild, rfl⟩ := List.mem_map.mp hresult
      exact ih child hchild fun leaf hleaf => h leaf (mem_leaves_join hchild hleaf)
  | or hne _ ih =>
      rw [Condition.leaves] at h
      rw [meaning]
      apply greatest_unknown (by simpa using hne)
      intro result hresult
      obtain ⟨child, hchild, rfl⟩ := List.mem_map.mp hresult
      exact ih child hchild fun leaf hleaf => h leaf (mem_leaves_join hchild hleaf)
  | not _ ih =>
      rw [Condition.leaves] at h
      rw [meaning, ih h]
      rfl
  | string | size | hasAttachment =>
      apply h
      simp [Condition.leaves]

/-! ## The theorem -/

theorem compiled_rules_are_kleene (casefold : String → String) (message : RuleMessage) :
    (∀ condition, evaluate casefold message condition = meaning casefold message condition) ∧
    (∀ a b, Reordered a b → evaluate casefold message a = evaluate casefold message b) ∧
    (∀ conditions, evaluate casefold message (.not (.and conditions)) =
        evaluate casefold message (.or (conditions.map .not)) ∧
      evaluate casefold message (.not (.or conditions)) =
        evaluate casefold message (.and (conditions.map .not))) ∧
    (∀ condition, evaluate casefold message (.not (.not condition)) =
      evaluate casefold message condition) ∧
    (∀ condition before key text after,
      (∀ name ∈ Condition.headerNames condition, casefold name ≠ key) →
      evaluate casefold { message with headers := before ++ (key, text) :: after } condition =
        evaluate casefold { message with headers := before ++ after } condition) ∧
    (∀ rule : Rule, rule.condition.Joined →
      (∀ leaf ∈ rule.condition.leaves, evaluate casefold message leaf = .unknown) →
      rule.compiledMatches casefold message = false) := by
  have heval (message : RuleMessage) (condition : Condition) :
      evaluate casefold message condition = meaning casefold message condition :=
    evaluateCompiled_compileCondition condition
  refine ⟨heval message, ?_, ?_, ?_, ?_, ?_⟩
  · intro a b h
    rw [heval, heval, meaning_reordered h]
  · intro conditions
    rw [heval, heval, heval, heval]
    exact ⟨meaning_not_and conditions, meaning_not_or conditions⟩
  · intro condition
    rw [heval, heval, meaning_not_not]
  · intro condition before key text after h
    rw [heval, heval]
    exact meaning_unmentioned condition h
  · intro rule hjoined hleaves
    have hunknown : meaning casefold message rule.condition = .unknown := by
      apply meaning_unknown hjoined
      intro leaf hleaf
      rw [← heval, hleaves leaf hleaf]
    unfold Rule.compiledMatches
    rw [heval, hunknown]
    rfl

end MaddyWeb.Rules
