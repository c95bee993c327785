import MaddyWeb.Rules.Condition
import MaddyWeb.Library.Fallible

/-!
# The grammar of conditions

`Denotes` says which documents are conditions, and of which tree, without a word about limits.
`conditionFromMapping` accepts the documents of the grammar whose tree is within them.
-/

namespace MaddyWeb.Rules

open MaddyWeb.Library MaddyWeb.Library.Text

/-! ## Size and depth -/

def Condition.nodes : Condition → Nat
  | .and conditions | .or conditions => 1 + (conditions.map nodes).sum
  | .not condition => 1 + nodes condition
  | _ => 1

def Condition.depth : Condition → Nat
  | .and conditions | .or conditions => 1 + (conditions.map depth).foldr max 0
  | .not condition => 1 + depth condition
  | _ => 1

theorem nodes_eq (c : Condition) : c.nodes = 1 + (c.children.map Condition.nodes).sum := by
  cases c <;> simp [Condition.nodes, Condition.children]

theorem depth_eq (c : Condition) : c.depth = 1 + (c.children.map Condition.depth).foldr max 0 := by
  cases c <;> simp [Condition.depth, Condition.children]

theorem foldr_max_le_iff {values : List Nat} {bound : Nat} :
    values.foldr max 0 ≤ bound ↔ ∀ value ∈ values, value ≤ bound := by
  induction values with
  | nil => simp
  | cons value values ih => rw [List.foldr_cons, Nat.max_le, ih, List.forall_mem_cons]

theorem depth_le_iff {c : Condition} {bound : Nat} :
    c.depth ≤ bound + 1 ↔ ∀ child ∈ c.children, child.depth ≤ bound := by
  rw [depth_eq, Nat.add_comm, Nat.add_le_add_iff_right, foldr_max_le_iff, List.forall_mem_map]

theorem depth_pos (c : Condition) : 0 < c.depth := by
  rw [depth_eq]
  omega

/-- The loop visits every node once, and a node that is `depth - 1` below the root has depth
`depth`. -/
theorem budgetLoop_eq_ok_iff {nodes : Nat} {stack : List (Condition × Nat)} :
    budgetLoop nodes stack = .ok () ↔
      (stack.map (·.1.nodes)).sum ≤ nodes ∧
        ∀ entry ∈ stack, entry.1.depth + entry.2 ≤ maxRuleDepth + 1 := by
  induction nodes generalizing stack with
  | zero =>
      cases stack with
      | nil => simp [budgetLoop]
      | cons entry stack =>
          have hnodes := nodes_eq entry.1
          refine ⟨nofun, fun h => ?_⟩
          have hsum := h.1
          rw [List.map_cons, List.sum_cons] at hsum
          omega
  | succ nodes ih =>
      cases stack with
      | nil => simp [budgetLoop]
      | cons entry stack =>
          obtain ⟨node, depth⟩ := entry
          have hnodes := nodes_eq node
          have hdepth := depth_pos node
          rw [List.map_cons, List.sum_cons, List.forall_mem_cons]
          dsimp only
          unfold budgetLoop
          split
          · next hdeep =>
              refine ⟨nofun, fun h => ?_⟩
              have := h.2.1
              omega
          · next hfits =>
              have hsum : ((node.children.reverse.map fun child => (child, depth + 1)).map
                  (·.1.nodes)).sum = (node.children.map Condition.nodes).sum := by
                rw [List.map_map, List.map_reverse, List.sum_reverse]
                rfl
              have hchildren : (∀ entry ∈ node.children.reverse.map fun child => (child, depth + 1),
                  entry.1.depth + entry.2 ≤ maxRuleDepth + 1) ↔
                    node.depth + depth ≤ maxRuleDepth + 1 := by
                rw [List.forall_mem_map]
                have hbound : node.depth ≤ (maxRuleDepth - depth) + 1 ↔
                    node.depth + depth ≤ maxRuleDepth + 1 := by omega
                rw [← hbound, depth_le_iff]
                constructor
                · intro h child hchild
                  have := h child (List.mem_reverse.mpr hchild)
                  dsimp only at this
                  omega
                · intro h child hchild
                  have := h child (List.mem_reverse.mp hchild)
                  dsimp only
                  omega
              rw [ih, List.map_append, List.sum_append, List.forall_mem_append, hsum, hchildren,
                hnodes]
              constructor
              · rintro ⟨hnodes, hall⟩
                exact ⟨by omega, hall⟩
              · rintro ⟨hnodes, hall⟩
                exact ⟨by omega, hall⟩

theorem validateConditionBudget_iff (c : Condition) :
    validateConditionBudget c = .ok () ↔ c.depth ≤ maxRuleDepth ∧ c.nodes ≤ maxRuleNodes := by
  unfold validateConditionBudget
  rw [budgetLoop_eq_ok_iff, List.map_singleton, List.sum_singleton, List.forall_mem_singleton,
    Nat.add_le_add_iff_right, and_comm]

/-! ## Operands and keys -/

/-- Text that a rule may hold. -/
structure IsText (maximumCharacters maximumBytes : Nat) (text : String) : Prop where
  nonempty : text.toList ≠ []
  safe : ∀ c ∈ text.toList, isUnsafe c = false
  characters : text.toList.length ≤ maximumCharacters
  bytes : Json.utf8Length text.toList ≤ maximumBytes

theorem validateText_eq_ok_iff {label : String} {characters bytes : Nat} {value : Option Json}
    {text : String} : validateText label characters bytes value = .ok text ↔
      value = some (.str text) ∧ IsText characters bytes text := by
  constructor
  · intro h
    unfold validateText at h
    split at h
    · next found =>
        split at h
        · cases h
        · next hempty =>
            split at h
            · cases h
            · next hsafe =>
                split at h
                · cases h
                · next hlength =>
                    cases h
                    rw [not_or, Nat.not_lt, Nat.not_lt] at hlength
                    refine ⟨rfl, fun hnil => hempty (List.isEmpty_iff.mpr hnil), ?_, hlength.1,
                      hlength.2⟩
                    intro c hc
                    rw [Bool.not_eq_true, List.any_eq_false] at hsafe
                    exact Bool.not_eq_true _ ▸ hsafe c hc
    · cases h
  · rintro ⟨rfl, h⟩
    unfold validateText
    dsimp only
    rw [if_neg (by rw [List.isEmpty_iff]; exact h.nonempty), if_neg, if_neg]
    · rw [not_or, Nat.not_lt, Nat.not_lt]
      exact ⟨h.characters, h.bytes⟩
    · rw [Bool.not_eq_true, List.any_eq_false]
      intro c hc
      rw [h.safe c hc]
      exact Bool.false_ne_true

structure IsHeaderName (name : String) : Prop where
  nonempty : name.toList ≠ []
  length : name.toList.length ≤ maxHeaderNameCharacters
  chars : ∀ c ∈ name.toList, isHeaderChar c = true

def lowerName (name : String) : String := String.ofList (asciiLower name.toList)

theorem isHeaderChar_range {c : Char} (h : isHeaderChar c = true) :
    0x20 < c.toNat ∧ c.toNat < 0x7F := by
  unfold isHeaderChar at h
  rw [Bool.or_eq_true] at h
  rcases h with h | h
  · have hrange := range_of_isAlphanum h
    omega
  · have hall : ∀ c ∈ "!#$%&'*+.^_`|~-".toList, 0x20 < c.toNat ∧ c.toNat < 0x7F :=
      List.all_iff_forall_prop.mp (by decide)
    exact hall c (List.contains_iff_mem.mp h)

theorem IsHeaderName.isText {name : String} (h : IsHeaderName name) :
    IsText maxHeaderNameCharacters maxHeaderNameCharacters name := by
  refine ⟨h.nonempty, ?_, h.length, ?_⟩
  · intro c hc
    have hrange := isHeaderChar_range (h.chars c hc)
    unfold isUnsafe
    rw [decide_eq_false (by omega), decide_eq_false (by omega), Bool.false_and, Bool.or_false]
  · have hone : ∀ c ∈ name.toList, c.utf8Size = 1 := by
      intro c hc
      have hrange := isHeaderChar_range (h.chars c hc)
      rw [Char.utf8Size_eq_one_iff, UInt32.le_iff_toNat_le]
      change c.toNat ≤ 127
      omega
    unfold Json.utf8Length
    rw [List.map_congr_left hone, List.map_const', List.sum_replicate_nat, Nat.mul_one]
    exact h.length

theorem validateHeaderName_eq_ok_iff {value : Option Json} {header : String} :
    validateHeaderName value = .ok header ↔
      ∃ name, value = some (.str name) ∧ IsHeaderName name ∧ header = lowerName name := by
  unfold validateHeaderName
  constructor
  · intro h
    obtain ⟨name, hname, h⟩ := Fallible.bind_eq_ok h
    obtain ⟨hvalue, htext⟩ := validateText_eq_ok_iff.mp hname
    split at h
    · next hchars =>
        cases h
        exact ⟨name, hvalue, ⟨htext.nonempty, htext.characters, List.all_eq_true.mp hchars⟩, rfl⟩
    · cases h
  · rintro ⟨name, hvalue, hname, rfl⟩
    rw [validateText_eq_ok_iff.mpr ⟨hvalue, hname.isText⟩, Fallible.ok_bind,
      if_pos (List.all_eq_true.mpr hname.chars)]
    rfl

/-- The object has these keys and no others. -/
def HasKeys (fields : List (String × Json)) (keys : List String) : Prop :=
  ∀ key, key ∈ fields.map (·.1) ↔ key ∈ keys

theorem leastName_eq_none_iff {names : List String} : leastName names = none ↔ names = [] := by
  cases names <;> simp [leastName]

theorem requireKeys_iff {fields : List (String × Json)} {required : List String} :
    requireKeys fields required = .ok () ↔ HasKeys fields required := by
  have hany : ∀ key, fields.any (·.1 == key) = true ↔ key ∈ fields.map (·.1) := by
    intro key
    rw [List.any_eq_true, List.mem_map]
    simp only [beq_iff_eq]
  have hmissing : leastName (required.filter fun key => !fields.any (·.1 == key)) = none ↔
      ∀ key ∈ required, key ∈ fields.map (·.1) := by
    rw [leastName_eq_none_iff, List.filter_eq_nil_iff]
    simp only [Bool.not_eq_true', Bool.not_eq_false, hany]
  have hunknown : leastName ((fields.map (·.1)).filter fun key => !required.contains key) = none ↔
      ∀ key ∈ fields.map (·.1), key ∈ required := by
    rw [leastName_eq_none_iff, List.filter_eq_nil_iff]
    simp only [Bool.not_eq_true', Bool.not_eq_false, List.contains_iff_mem]
  unfold requireKeys HasKeys
  constructor
  · intro h key
    split at h
    · cases h
    · next hnone =>
        split at h
        · cases h
        · next hnone' => exact ⟨hunknown.mp hnone' key, hmissing.mp hnone key⟩
  · intro h
    rw [hmissing.mpr fun key hkey => (h key).mpr hkey]
    dsimp only
    rw [hunknown.mpr fun key hkey => (h key).mp hkey]

theorem get?_eq_none {fields : List (String × Json)} {keys : List String} (h : HasKeys fields keys)
    {key : String} (hkey : key ∉ keys) : Json.get? fields key = none := by
  unfold Json.get?
  rw [Option.map_eq_none_iff, List.find?_eq_none]
  intro field hfield heq
  exact hkey ((h key).mp (List.mem_map.mpr ⟨field, hfield, beq_iff_eq.mp heq⟩))

theorem mem_keys_of_get? {fields : List (String × Json)} {key : String} {value : Json}
    (h : Json.get? fields key = some value) : key ∈ fields.map (·.1) := by
  obtain ⟨field, hfound, -⟩ := Option.map_eq_some_iff.mp h
  have hkey := List.find?_some hfound
  rw [beq_iff_eq] at hkey
  exact List.mem_map.mpr ⟨field, List.mem_of_find?_eq_some hfound, hkey⟩

theorem exists_get? {fields : List (String × Json)} {keys : List String} (h : HasKeys fields keys)
    {key : String} (hkey : key ∈ keys) : ∃ value, Json.get? fields key = some value := by
  cases hget : Json.get? fields key with
  | some value => exact ⟨value, rfl⟩
  | none =>
      exfalso
      obtain ⟨field, hfield, hname⟩ := List.mem_map.mp ((h key).mpr hkey)
      unfold Json.get? at hget
      rw [Option.map_eq_none_iff, List.find?_eq_none] at hget
      exact hget field hfield (beq_iff_eq.mpr hname)

theorem enumValue_eq_ok_iff {β : Type} {limit : ReprLimit} {depth : Nat} {values : List β}
    {value : β → String} {label : String}
    (hvalues : ∀ v, values.find? (value · == value v) = some v) {json : Option Json} {v : β} :
    enumValue limit depth values value label json = .ok v ↔ json = some (.str (value v)) := by
  constructor
  · intro h
    unfold enumValue at h
    split at h
    · split at h
      · next hfound =>
          cases h
          have heq := List.find?_some hfound
          rw [beq_iff_eq] at heq
          rw [heq]
      · cases h
    · split at h <;> cases h
    · cases h
  · rintro rfl
    unfold enumValue
    dsimp only
    rw [hvalues v]

/-- The value is no text, and `repr` cannot write it. -/
def TooNested (limit : ReprLimit) (depth : Nat) (label : String) (operator : Option Json) : Prop :=
  ∃ value, operator = some value ∧ (∀ text, value ≠ .str text) ∧ limit depth label < value.depth

theorem enumValue_eq_recursion_iff {β : Type} {limit : ReprLimit} {depth : Nat} {values : List β}
    {value : β → String} {label : String} {json : Option Json} :
    enumValue limit depth values value label json = .error .recursion ↔
      TooNested limit depth label json := by
  unfold enumValue
  constructor
  · intro h
    split at h
    · split at h <;> cases h
    · next other hother =>
        split at h
        · next hdeep => exact ⟨other, rfl, hother, hdeep⟩
        · cases h
    · cases h
  · rintro ⟨other, rfl, hother, hdeep⟩
    split
    · next text htext => exact absurd (Option.some.inj htext) (hother text)
    · next found _ hfound =>
        cases hfound
        rw [if_pos hdeep]
    · next hnone => cases hnone

theorem stringField_find (field : StringField) :
    StringField.all.find? (·.value == field.value) = some field := by
  cases field <;> decide

theorem stringOperator_find (operator : StringOperator) :
    StringOperator.all.find? (·.value == operator.value) = some operator := by
  cases operator <;> decide

theorem numericOperator_find (operator : NumericOperator) :
    NumericOperator.all.find? (·.value == operator.value) = some operator := by
  cases operator <;> decide

/-! ## Tests -/

def stringKeys (field : StringField) (operator : StringOperator) : List String :=
  ["field", "operator"] ++ (if field = .header then ["header"] else []) ++
    (if operator = .exists then [] else ["value"])

def HeaderOperand (field : StringField) (json : Option Json) (header : Option String) : Prop :=
  if field = .header then
    ∃ name, json = some (.str name) ∧ IsHeaderName name ∧ header = some (lowerName name)
  else header = none

def ValueOperand (operator : StringOperator) (json : Option Json) (value : Option String) : Prop :=
  if operator = .exists then value = none
  else ∃ text, json = some (.str text) ∧ IsText 2048 (8 * 1024) text ∧ value = some text

/-- The three kinds of tests. -/
inductive FieldTest (fields : List (String × Json)) : Condition → Prop
  | string {field : StringField} {operator : StringOperator} {value header : Option String} :
      HasKeys fields (stringKeys field operator) →
      Json.get? fields "field" = some (.str field.value) →
      Json.get? fields "operator" = some (.str operator.value) →
      HeaderOperand field (Json.get? fields "header") header →
      ValueOperand operator (Json.get? fields "value") value →
      FieldTest fields (.string field operator value header)
  | size {operator : NumericOperator} {number : Nat} :
      HasKeys fields ["field", "operator", "value"] →
      Json.get? fields "field" = some (.str "size") →
      Json.get? fields "operator" = some (.str operator.value) →
      Json.get? fields "value" = some (.int number) → number ≤ 2 ^ 63 - 1 →
      FieldTest fields (.size operator number)
  | hasAttachment {flag : Bool} :
      HasKeys fields ["field", "operator", "value"] →
      Json.get? fields "field" = some (.str "has_attachment") →
      Json.get? fields "operator" = some (.str "eq") →
      Json.get? fields "value" = some (.bool flag) →
      FieldTest fields (.hasAttachment flag)

/-- What `__post_init__` makes of the header. -/
def headerStep (field : StringField) (header : Option Json) : Except RuleError (Option String) :=
  if field = .header then (validateHeaderName header).map some
  else if header.isSome then .error (.validation "header is valid only for the header field")
  else .ok none

theorem headerStep_eq_ok_iff {field : StringField} {header : Option Json}
    (hheader : field ≠ .header → header = none) {name : Option String} :
    headerStep field header = .ok name ↔ HeaderOperand field header name := by
  unfold headerStep HeaderOperand
  by_cases hfield : field = .header
  · rw [if_pos hfield, if_pos hfield]
    cases hname : validateHeaderName header with
    | error e =>
        refine ⟨nofun, fun ⟨text, htext, hok, _⟩ => ?_⟩
        rw [validateHeaderName_eq_ok_iff.mpr ⟨text, htext, hok, rfl⟩] at hname
        cases hname
    | ok found =>
        obtain ⟨text, htext, hok, rfl⟩ := validateHeaderName_eq_ok_iff.mp hname
        constructor
        · intro h
          cases h
          exact ⟨text, htext, hok, rfl⟩
        · rintro ⟨text', htext', -, rfl⟩
          rw [htext] at htext'
          cases htext'
          rfl
  · rw [if_neg hfield, if_neg hfield, hheader hfield]
    exact ⟨fun h => (Except.ok.inj h).symm, fun h => by rw [h]; rfl⟩

theorem stringCondition_bind (field : StringField) (operator : StringOperator)
    (value header : Option Json) : stringCondition field operator value header =
      headerStep field header >>= fun headerName =>
        if operator = .exists then
          if value.isSome then .error (.validation "exists does not accept a value")
          else .ok (.string field operator none headerName)
        else validateText "string test value" 2048 (8 * 1024) value >>= fun text =>
          .ok (.string field operator (some text) headerName) := by
  unfold stringCondition headerStep
  dsimp only
  by_cases hfield : field = .header
  · rw [if_pos hfield, if_pos hfield]
    rfl
  · rw [if_neg hfield, if_neg hfield]
    cases header with
    | none => rfl
    | some json => rfl

theorem stringCondition_eq_ok_iff {field : StringField} {operator : StringOperator}
    {value header : Option Json} (hheader : field ≠ .header → header = none)
    (hvalue : operator = .exists → value = none) {c : Condition} :
    stringCondition field operator value header = .ok c ↔
      ∃ text name, c = .string field operator text name ∧ HeaderOperand field header name ∧
        ValueOperand operator value text := by
  rw [stringCondition_bind]
  constructor
  · intro h
    obtain ⟨name, hname, h⟩ := Fallible.bind_eq_ok h
    have hname := (headerStep_eq_ok_iff hheader).mp hname
    unfold ValueOperand
    split at h
    · next hexists =>
        rw [hvalue hexists] at h
        cases h
        refine ⟨none, name, rfl, hname, ?_⟩
        rw [if_pos hexists]
    · next hexists =>
        obtain ⟨text, htext, h⟩ := Fallible.bind_eq_ok h
        cases h
        refine ⟨some text, name, rfl, hname, ?_⟩
        rw [if_neg hexists]
        obtain ⟨hjson, hok⟩ := validateText_eq_ok_iff.mp htext
        exact ⟨text, hjson, hok, rfl⟩
  · rintro ⟨text, name, rfl, hname, htext⟩
    rw [(headerStep_eq_ok_iff hheader).mpr hname, Fallible.ok_bind]
    unfold ValueOperand at htext
    split at htext
    · next hexists =>
        rw [if_pos hexists, hvalue hexists, htext]
        rfl
    · next hexists =>
        obtain ⟨text, hjson, hok, rfl⟩ := htext
        rw [if_neg hexists, validateText_eq_ok_iff.mpr ⟨hjson, hok⟩]
        rfl

theorem numericCondition_eq_ok_iff {limit : ReprLimit} {depth : Nat} {operator value : Option Json}
    {c : Condition} : numericCondition limit depth operator value = .ok c ↔
      ∃ op : NumericOperator, ∃ number : Nat, c = .size op number ∧
        operator = some (.str op.value) ∧ value = some (.int number) ∧ number ≤ 2 ^ 63 - 1 := by
  unfold numericCondition
  constructor
  · intro h
    obtain ⟨op, hop, h⟩ := Fallible.bind_eq_ok h
    have hop := (enumValue_eq_ok_iff numericOperator_find).mp hop
    cases value with
    | none => cases h
    | some json =>
        cases json with
        | int number =>
            dsimp only at h
            split at h
            · next hrange =>
                cases h
                refine ⟨op, number.toNat, rfl, hop, ?_, by omega⟩
                rw [Int.toNat_of_nonneg hrange.1]
            · cases h
        | _ => cases h
  · rintro ⟨op, number, rfl, hop, rfl, hbound⟩
    rw [(enumValue_eq_ok_iff numericOperator_find).mpr hop, Fallible.ok_bind]
    dsimp only
    rw [if_pos (by omega)]
    rfl

theorem booleanCondition_eq_ok_iff {limit : ReprLimit} {depth : Nat} {operator value : Option Json}
    {c : Condition} : booleanCondition limit depth operator value = .ok c ↔
      ∃ flag, c = .hasAttachment flag ∧ operator = some (.str "eq") ∧
        value = some (.bool flag) := by
  have hop : ∀ u : Unit, enumValue limit depth [()] (fun _ => "eq") "boolean operator" operator =
      .ok u ↔ operator = some (.str "eq") :=
    fun _ => enumValue_eq_ok_iff (fun _ => rfl)
  unfold booleanCondition
  constructor
  · intro h
    obtain ⟨u, hu, h⟩ := Fallible.bind_eq_ok h
    have hu := (hop u).mp hu
    cases value with
    | none => cases h
    | some json =>
        cases json with
        | bool flag =>
            cases h
            exact ⟨flag, rfl, hu, rfl⟩
        | _ => cases h
  · rintro ⟨flag, rfl, hoperator, rfl⟩
    rw [(hop ()).mpr hoperator]
    rfl

theorem header_not_mem {field : StringField} (h : field ≠ .header) (operator : StringOperator) :
    "header" ∉ stringKeys field operator := by
  unfold stringKeys
  rw [if_neg h]
  split <;> decide

theorem value_not_mem (field : StringField) {operator : StringOperator} (h : operator = .exists) :
    "value" ∉ stringKeys field operator := by
  unfold stringKeys
  rw [if_pos h]
  split <;> decide

/-- The tests that are accepted are those of the grammar. -/
theorem leafCondition_eq_ok_iff {limit : ReprLimit} {depth : Nat} {fields : List (String × Json)}
    {c : Condition} : leafCondition limit depth fields = .ok c ↔ FieldTest fields c := by
  unfold leafCondition
  constructor
  · intro h
    split at h
    · next name hname =>
        split at h
        · next field hfield =>
            have heq := List.find?_some hfield
            rw [beq_iff_eq] at heq
            subst heq
            obtain ⟨operator, hoperator, h⟩ := Fallible.bind_eq_ok h
            obtain ⟨_, hkeys, h⟩ := Fallible.bind_eq_ok h
            have hkeys : HasKeys fields (stringKeys field operator) := requireKeys_iff.mp hkeys
            obtain ⟨text, name, rfl, hheader, hvalue⟩ := (stringCondition_eq_ok_iff
              (fun hne => get?_eq_none hkeys (header_not_mem hne operator))
              (fun hexists => get?_eq_none hkeys (value_not_mem field hexists))).mp h
            exact .string hkeys hname ((enumValue_eq_ok_iff stringOperator_find).mp hoperator)
              hheader hvalue
        · split at h
          · next hsize =>
              subst hsize
              obtain ⟨_, hkeys, h⟩ := Fallible.bind_eq_ok h
              obtain ⟨op, number, rfl, hop, hvalue, hbound⟩ := numericCondition_eq_ok_iff.mp h
              exact .size (requireKeys_iff.mp hkeys) hname hop hvalue hbound
          · split at h
            · next hattachment =>
                subst hattachment
                obtain ⟨_, hkeys, h⟩ := Fallible.bind_eq_ok h
                obtain ⟨flag, rfl, hop, hvalue⟩ := booleanCondition_eq_ok_iff.mp h
                exact .hasAttachment (requireKeys_iff.mp hkeys) hname hop hvalue
            · cases h
    · cases h
  · intro h
    cases h with
    | @string field operator value header hkeys hfield hoperator hheader hvalue =>
        rw [hfield]
        dsimp only
        rw [stringField_find]
        dsimp only
        rw [(enumValue_eq_ok_iff stringOperator_find).mpr hoperator, Fallible.ok_bind]
        have hrequire : requireKeys fields (["field", "operator"] ++
            (if field = .header then ["header"] else []) ++
            (if operator = .exists then [] else ["value"])) = .ok () := requireKeys_iff.mpr hkeys
        rw [hrequire, Fallible.ok_bind]
        exact (stringCondition_eq_ok_iff
          (fun hne => get?_eq_none hkeys (header_not_mem hne operator))
          (fun hexists => get?_eq_none hkeys (value_not_mem field hexists))).mpr
            ⟨value, header, rfl, hheader, hvalue⟩
    | @size op number hkeys hfield hop hvalue hbound =>
        have hnone : StringField.all.find? (·.value == "size") = none := by decide
        rw [hfield]
        dsimp only
        rw [hnone]
        dsimp only
        rw [if_pos rfl, requireKeys_iff.mpr hkeys, Fallible.ok_bind]
        exact numericCondition_eq_ok_iff.mpr ⟨op, number, rfl, hop, hvalue, hbound⟩
    | @hasAttachment flag hkeys hfield hop hvalue =>
        have hnone : StringField.all.find? (·.value == "has_attachment") = none := by decide
        rw [hfield]
        dsimp only
        rw [hnone]
        dsimp only
        rw [if_neg (by decide), if_pos rfl, requireKeys_iff.mpr hkeys, Fallible.ok_bind]
        exact booleanCondition_eq_ok_iff.mpr ⟨flag, rfl, hop, hvalue⟩

/-! ## Operators that cannot be written -/

/-- A test whose operator is refused with a text that `repr` cannot write. -/
inductive NestedTest (limit : ReprLimit) (depth : Nat) (fields : List (String × Json)) : Prop
  | string {field : StringField} :
      Json.get? fields "field" = some (.str field.value) →
      TooNested limit depth "string operator" (Json.get? fields "operator") →
      NestedTest limit depth fields
  | size :
      HasKeys fields ["field", "operator", "value"] →
      Json.get? fields "field" = some (.str "size") →
      TooNested limit depth "numeric operator" (Json.get? fields "operator") →
      NestedTest limit depth fields
  | hasAttachment :
      HasKeys fields ["field", "operator", "value"] →
      Json.get? fields "field" = some (.str "has_attachment") →
      TooNested limit depth "boolean operator" (Json.get? fields "operator") →
      NestedTest limit depth fields

theorem requireKeys_ne_recursion (fields : List (String × Json)) (required : List String) :
    requireKeys fields required ≠ .error .recursion := by
  unfold requireKeys
  split
  · exact nofun
  · split <;> exact nofun

theorem validateText_ne_recursion (label : String) (characters bytes : Nat) (value : Option Json) :
    validateText label characters bytes value ≠ .error .recursion := by
  unfold validateText
  split
  · repeat' split
    all_goals exact nofun
  · exact nofun

theorem headerStep_ne_recursion (field : StringField) (header : Option Json) :
    headerStep field header ≠ .error .recursion := by
  intro h
  unfold headerStep at h
  split at h
  · cases hname : validateHeaderName header with
    | ok name =>
        rw [hname] at h
        cases h
    | error e =>
        rw [hname] at h
        cases h
        unfold validateHeaderName at hname
        rcases Fallible.bind_eq_error hname with htext | ⟨name, -, hchars⟩
        · exact validateText_ne_recursion _ _ _ _ htext
        · split at hchars <;> cases hchars
  · split at h <;> cases h

theorem stringCondition_ne_recursion (field : StringField) (operator : StringOperator)
    (value header : Option Json) :
    stringCondition field operator value header ≠ .error .recursion := by
  intro h
  rw [stringCondition_bind] at h
  rcases Fallible.bind_eq_error h with hheader | ⟨name, -, h⟩
  · exact headerStep_ne_recursion field header hheader
  · split at h
    · split at h <;> cases h
    · rcases Fallible.bind_eq_error h with htext | ⟨text, -, h⟩
      · exact validateText_ne_recursion _ _ _ _ htext
      · cases h

theorem numericCondition_eq_recursion_iff {limit : ReprLimit} {depth : Nat}
    {operator value : Option Json} :
    numericCondition limit depth operator value = .error .recursion ↔
      TooNested limit depth "numeric operator" operator := by
  unfold numericCondition
  rw [Fallible.bind_eq_error_iff, enumValue_eq_recursion_iff, or_iff_left]
  rintro ⟨op, -, h⟩
  split at h
  · split at h <;> cases h
  · cases h

theorem booleanCondition_eq_recursion_iff {limit : ReprLimit} {depth : Nat}
    {operator value : Option Json} :
    booleanCondition limit depth operator value = .error .recursion ↔
      TooNested limit depth "boolean operator" operator := by
  unfold booleanCondition
  rw [Fallible.bind_eq_error_iff, enumValue_eq_recursion_iff, or_iff_left]
  rintro ⟨_, -, h⟩
  split at h <;> cases h

theorem leafCondition_eq_recursion_iff {limit : ReprLimit} {depth : Nat}
    {fields : List (String × Json)} :
    leafCondition limit depth fields = .error .recursion ↔ NestedTest limit depth fields := by
  unfold leafCondition
  constructor
  · intro h
    split at h
    · next name hname =>
        split at h
        · next field hfield =>
            have heq := List.find?_some hfield
            rw [beq_iff_eq] at heq
            subst heq
            rcases Fallible.bind_eq_error h with hoperator | ⟨operator, -, h⟩
            · exact .string hname (enumValue_eq_recursion_iff.mp hoperator)
            · rcases Fallible.bind_eq_error h with hkeys | ⟨_, -, h⟩
              · exact absurd hkeys (requireKeys_ne_recursion _ _)
              · exact absurd h (stringCondition_ne_recursion _ _ _ _)
        · split at h
          · next hsize =>
              subst hsize
              rcases Fallible.bind_eq_error h with hkeys | ⟨_, hkeys, h⟩
              · exact absurd hkeys (requireKeys_ne_recursion _ _)
              · exact .size (requireKeys_iff.mp hkeys) hname
                  (numericCondition_eq_recursion_iff.mp h)
          · split at h
            · next hattachment =>
                subst hattachment
                rcases Fallible.bind_eq_error h with hkeys | ⟨_, hkeys, h⟩
                · exact absurd hkeys (requireKeys_ne_recursion _ _)
                · exact .hasAttachment (requireKeys_iff.mp hkeys) hname
                    (booleanCondition_eq_recursion_iff.mp h)
            · cases h
    · cases h
  · intro h
    cases h with
    | @string field hfield hoperator =>
        rw [hfield]
        dsimp only
        rw [stringField_find]
        exact Fallible.bind_eq_error_iff.mpr (Or.inl (enumValue_eq_recursion_iff.mpr hoperator))
    | size hkeys hfield hoperator =>
        have hnone : StringField.all.find? (·.value == "size") = none := by decide
        rw [hfield]
        dsimp only
        rw [hnone]
        dsimp only
        rw [if_pos rfl, requireKeys_iff.mpr hkeys, Fallible.ok_bind]
        exact numericCondition_eq_recursion_iff.mpr hoperator
    | hasAttachment hkeys hfield hoperator =>
        have hnone : StringField.all.find? (·.value == "has_attachment") = none := by decide
        rw [hfield]
        dsimp only
        rw [hnone]
        dsimp only
        rw [if_neg (by decide), if_pos rfl, requireKeys_iff.mpr hkeys, Fallible.ok_bind]
        exact booleanCondition_eq_recursion_iff.mpr hoperator

/-! ## Trees -/

mutual

/-- The document is written as this condition. -/
inductive Denotes : Json → Condition → Prop
  | test {fields : List (String × Json)} {c : Condition} :
      FieldTest fields c → Denotes (.obj fields) c
  | not {fields : List (String × Json)} {document : Json} {c : Condition} :
      HasKeys fields ["op", "condition"] → Json.get? fields "op" = some (.str "not") →
      Json.get? fields "condition" = some document → Denotes document c →
      Denotes (.obj fields) (.not c)
  | and {fields : List (String × Json)} {documents : List Json} {conditions : List Condition} :
      HasKeys fields ["op", "conditions"] → Json.get? fields "op" = some (.str "and") →
      Json.get? fields "conditions" = some (.arr documents) → documents ≠ [] →
      DenoteAll documents conditions → Denotes (.obj fields) (.and conditions)
  | or {fields : List (String × Json)} {documents : List Json} {conditions : List Condition} :
      HasKeys fields ["op", "conditions"] → Json.get? fields "op" = some (.str "or") →
      Json.get? fields "conditions" = some (.arr documents) → documents ≠ [] →
      DenoteAll documents conditions → Denotes (.obj fields) (.or conditions)

inductive DenoteAll : List Json → List Condition → Prop
  | nil : DenoteAll [] []
  | cons {document : Json} {c : Condition} {documents : List Json} {conditions : List Condition} :
      Denotes document c → DenoteAll documents conditions →
      DenoteAll (document :: documents) (c :: conditions)

end

theorem denoteAll_of_mapM {f : Json → Except RuleError Condition}
    (hf : ∀ document c, f document = .ok c → Denotes document c) {documents : List Json}
    {conditions : List Condition} (h : documents.mapM f = .ok conditions) :
    DenoteAll documents conditions := by
  induction documents generalizing conditions with
  | nil =>
      cases h
      exact .nil
  | cons document documents ih =>
      rw [List.mapM_cons] at h
      obtain ⟨c, hc, h⟩ := Fallible.bind_eq_ok h
      obtain ⟨rest, hrest, h⟩ := Fallible.bind_eq_ok h
      cases h
      exact .cons (hf document c hc) (ih hrest)

theorem mapM_of_denoteAll {f : Json → Except RuleError Condition} {documents : List Json}
    {conditions : List Condition}
    (hf : ∀ c ∈ conditions, ∀ document, Denotes document c → f document = .ok c)
    (h : DenoteAll documents conditions) : documents.mapM f = .ok conditions := by
  induction documents generalizing conditions with
  | nil =>
      cases h
      rfl
  | cons document documents ih =>
      cases h with
      | @cons _ c _ rest hc hrest =>
          rw [List.mapM_cons, hf c List.mem_cons_self document hc,
            ih (fun c hc => hf c (List.mem_cons_of_mem _ hc)) hrest]
          rfl

theorem DenoteAll.length_eq {documents : List Json} {conditions : List Condition}
    (h : DenoteAll documents conditions) : documents.length = conditions.length := by
  induction documents generalizing conditions with
  | nil =>
      cases h
      rfl
  | cons document documents ih =>
      cases h with
      | cons _ hrest => rw [List.length_cons, List.length_cons, ih hrest]

theorem FieldTest.children_eq {fields : List (String × Json)} {c : Condition}
    (h : FieldTest fields c) : c.children = [] := by
  cases h <;> rfl

theorem FieldTest.get?_op {fields : List (String × Json)} {c : Condition} (h : FieldTest fields c) :
    Json.get? fields "op" = none := by
  cases h with
  | string hkeys =>
      apply get?_eq_none hkeys
      unfold stringKeys
      split
      · split <;> decide
      · split <;> decide
  | size hkeys => exact get?_eq_none hkeys (by decide)
  | hasAttachment hkeys => exact get?_eq_none hkeys (by decide)

section Limits

variable {limit : ReprLimit} {depth : Nat} {document : Json} {c : Condition}

/-- What is parsed is written so, and within the limits. -/
theorem denotes_of_conditionFrom (h : conditionFrom limit depth document = .ok c) :
    Denotes document c ∧ c.depth ≤ depth ∧ c.depth ≤ maxRuleDepth ∧ c.nodes ≤ maxRuleNodes := by
  induction depth generalizing document c with
  | zero => cases document <;> cases h
  | succ depth ih =>
      cases document with
      | obj fields =>
          rw [conditionFrom] at h
          split at h
          · next operation hop =>
              split at h
              · next hjoin =>
                  obtain ⟨_, hkeys, h⟩ := Fallible.bind_eq_ok h
                  split at h
                  · next documents hdocuments =>
                      split at h
                      · cases h
                      · obtain ⟨parsed, hparsed, h⟩ := Fallible.bind_eq_ok h
                        obtain ⟨joined, hjoined, h⟩ := Fallible.bind_eq_ok h
                        obtain ⟨_, hbudget, h⟩ := Fallible.bind_eq_ok h
                        cases h
                        have hall := denoteAll_of_mapM (fun _ _ h => (ih h).1) hparsed
                        have hchildren : ∀ child ∈ parsed, child.depth ≤ depth := by
                          intro child hchild
                          obtain ⟨document, -, hdocument⟩ := Fallible.mem_of_mapM_ok hparsed hchild
                          exact (ih hdocument).2.1
                        rw [← and_assoc]
                        refine ⟨?_, (validateConditionBudget_iff c).mp hbudget⟩
                        unfold joinCondition at hjoined
                        split at hjoined
                        · cases hjoined
                        · next hne =>
                            have hdocs : documents ≠ [] := by
                              rintro rfl
                              cases hall
                              exact hne rfl
                            split at hjoined
                            · next hand =>
                                cases hjoined
                                subst hand
                                exact ⟨.and (requireKeys_iff.mp hkeys) hop hdocuments hdocs hall,
                                  depth_le_iff.mpr hchildren⟩
                            · next hand =>
                                cases hjoined
                                cases hjoin.resolve_left hand
                                exact ⟨.or (requireKeys_iff.mp hkeys) hop hdocuments hdocs hall,
                                  depth_le_iff.mpr hchildren⟩
                  · cases h
              · split at h
                · next hnot =>
                    subst hnot
                    obtain ⟨_, hkeys, h⟩ := Fallible.bind_eq_ok h
                    obtain ⟨child, hchild, h⟩ := Fallible.bind_eq_ok h
                    obtain ⟨_, hbudget, h⟩ := Fallible.bind_eq_ok h
                    cases h
                    have hkeys := requireKeys_iff.mp hkeys
                    obtain ⟨value, hget⟩ := exists_get? hkeys
                      (List.mem_cons_of_mem "op" (List.mem_singleton_self "condition"))
                    rw [hget] at hchild
                    obtain ⟨hdenotes, hdepth, -⟩ := ih hchild
                    exact ⟨.not hkeys hop hget hdenotes,
                      depth_le_iff.mpr (List.forall_mem_singleton.mpr hdepth),
                      (validateConditionBudget_iff _).mp hbudget⟩
                · cases h
          · cases h
          · obtain ⟨leaf, hleaf, h⟩ := Fallible.bind_eq_ok h
            obtain ⟨_, hbudget, h⟩ := Fallible.bind_eq_ok h
            cases h
            have htest := leafCondition_eq_ok_iff.mp hleaf
            refine ⟨.test htest, depth_le_iff.mpr ?_, (validateConditionBudget_iff c).mp hbudget⟩
            rw [htest.children_eq]
            exact nofun
      | _ => cases h

theorem nodes_le_of_mem {c child : Condition} (h : child ∈ c.children) : child.nodes ≤ c.nodes := by
  have hle : ∀ cs : List Condition, child ∈ cs → child.nodes ≤ (cs.map Condition.nodes).sum := by
    intro cs
    induction cs with
    | nil => nofun
    | cons c cs ih =>
        intro h
        rw [List.map_cons, List.sum_cons]
        rcases List.mem_cons.mp h with rfl | h
        · omega
        · have := ih h
          omega
  have := hle c.children h
  rw [nodes_eq c]
  omega

theorem length_children_le (c : Condition) : c.children.length ≤ c.nodes := by
  have hpos : ∀ cs : List Condition, cs.length ≤ (cs.map Condition.nodes).sum := by
    intro cs
    induction cs with
    | nil => exact Nat.le_refl 0
    | cons c cs ih =>
        have := nodes_eq c
        rw [List.length_cons, List.map_cons, List.sum_cons]
        omega
  have := hpos c.children
  rw [nodes_eq c]
  omega

theorem conditionFrom_join {fields : List (String × Json)} {operation : String}
    {documents : List Json} {conditions : List Condition}
    (hoperation : operation = "and" ∨ operation = "or")
    (hkeys : HasKeys fields ["op", "conditions"])
    (hop : Json.get? fields "op" = some (.str operation))
    (hget : Json.get? fields "conditions" = some (.arr documents)) (hne : documents ≠ [])
    (hfew : documents.length ≤ maxRuleNodes) (hall : DenoteAll documents conditions)
    (hparsed : documents.mapM (conditionFrom limit depth) = .ok conditions)
    (hbudget : validateConditionBudget
      (if operation = "and" then .and conditions else .or conditions) = .ok ()) :
    conditionFrom limit (depth + 1) (.obj fields) =
      .ok (if operation = "and" then .and conditions else .or conditions) := by
  have hconditions : conditions.isEmpty = false := by
    rw [List.isEmpty_eq_false_iff, ← List.length_pos_iff, ← hall.length_eq]
    exact List.length_pos_iff.mpr hne
  have hjoin : joinCondition operation conditions =
      .ok (if operation = "and" then .and conditions else .or conditions) := by
    unfold joinCondition
    rw [hconditions, if_neg Bool.false_ne_true]
    split <;> rfl
  rw [conditionFrom, hop]
  dsimp only
  rw [if_pos hoperation, requireKeys_iff.mpr hkeys, Fallible.ok_bind, hget]
  dsimp only
  rw [if_neg (Nat.not_lt.mpr hfew), hparsed, Fallible.ok_bind, hjoin, Fallible.ok_bind, hbudget]
  rfl

/-- What is written so is parsed, if it is within the limits. -/
theorem conditionFrom_of_denotes (h : Denotes document c) (hdepth : c.depth ≤ depth)
    (hlimit : c.depth ≤ maxRuleDepth) (hnodes : c.nodes ≤ maxRuleNodes) :
    conditionFrom limit depth document = .ok c := by
  induction depth generalizing document c with
  | zero =>
      have := depth_pos c
      omega
  | succ depth ih =>
      have hbudget := (validateConditionBudget_iff c).mpr ⟨hlimit, hnodes⟩
      have hchildren := depth_le_iff.mp hdepth
      have hchild : ∀ child ∈ c.children, ∀ document, Denotes document child →
          conditionFrom limit depth document = .ok child := by
        intro child hmem document hdenotes
        have hle := hchildren child hmem
        have hless : child.depth < c.depth := by
          have := (@depth_le_iff c (c.depth - 1)).mp (by omega) child hmem
          have := depth_pos c
          omega
        exact ih hdenotes hle (by omega) (Nat.le_trans (nodes_le_of_mem hmem) hnodes)
      have hfew := Nat.le_trans (length_children_le c) hnodes
      cases h with
      | test htest =>
          rw [conditionFrom, htest.get?_op]
          dsimp only
          rw [leafCondition_eq_ok_iff.mpr htest, Fallible.ok_bind, hbudget]
          rfl
      | @not fields document child hkeys hop hget hdenotes =>
          rw [conditionFrom, hop]
          dsimp only
          rw [if_neg (by decide), if_pos rfl, requireKeys_iff.mpr hkeys, Fallible.ok_bind, hget,
            Option.getD_some, hchild child List.mem_cons_self document hdenotes, Fallible.ok_bind,
            hbudget]
          rfl
      | and hkeys hop hget hne hall =>
          exact conditionFrom_join (Or.inl rfl) hkeys hop hget hne
            (hall.length_eq ▸ hfew) hall (mapM_of_denoteAll hchild hall) hbudget
      | or hkeys hop hget hne hall =>
          exact conditionFrom_join (Or.inr rfl) hkeys hop hget hne
            (hall.length_eq ▸ hfew) hall (mapM_of_denoteAll hchild hall) hbudget

theorem conditionFromMapping_eq_ok_iff : conditionFromMapping limit document = .ok c ↔
      Denotes document c ∧ c.depth ≤ maxRuleDepth ∧ c.nodes ≤ maxRuleNodes :=
  ⟨fun h => (denotes_of_conditionFrom h).imp_right And.right, fun ⟨h, hdepth, hnodes⟩ =>
    conditionFrom_of_denotes h hdepth hdepth hnodes⟩

/-- The first part of the document that is refused is a test with an operator that `repr` cannot
write. -/
inductive Overflows (limit : ReprLimit) : Nat → Json → Prop
  | test {depth : Nat} {fields : List (String × Json)} :
      Json.get? fields "op" = none → NestedTest limit depth fields →
      Overflows limit (depth + 1) (.obj fields)
  | not {depth : Nat} {fields : List (String × Json)} {document : Json} :
      HasKeys fields ["op", "condition"] → Json.get? fields "op" = some (.str "not") →
      Json.get? fields "condition" = some document → Overflows limit depth document →
      Overflows limit (depth + 1) (.obj fields)
  | join {depth : Nat} {fields : List (String × Json)} {operation : String} {document : Json}
      {before after : List Json} :
      operation = "and" ∨ operation = "or" → HasKeys fields ["op", "conditions"] →
      Json.get? fields "op" = some (.str operation) →
      Json.get? fields "conditions" = some (.arr (before ++ document :: after)) →
      (before ++ document :: after).length ≤ maxRuleNodes →
      (∀ earlier ∈ before, ∃ c, Denotes earlier c ∧ c.depth ≤ depth ∧ c.nodes ≤ maxRuleNodes) →
      Overflows limit depth document → Overflows limit (depth + 1) (.obj fields)

theorem budgetLoop_ne_recursion (nodes : Nat) (stack : List (Condition × Nat)) :
    budgetLoop nodes stack ≠ .error .recursion := by
  induction nodes generalizing stack with
  | zero => cases stack <;> exact nofun
  | succ nodes ih =>
      cases stack with
      | nil => exact nofun
      | cons entry stack =>
          unfold budgetLoop
          split
          · exact nofun
          · exact ih _

theorem joinCondition_ne_recursion (operation : String) (conditions : List Condition) :
    joinCondition operation conditions ≠ .error .recursion := by
  unfold joinCondition
  repeat' split
  all_goals exact nofun

theorem overflows_of_conditionFrom (h : conditionFrom limit depth document = .error .recursion) :
    Overflows limit depth document := by
  induction depth generalizing document with
  | zero => cases document <;> cases h
  | succ depth ih =>
      cases document with
      | obj fields =>
          rw [conditionFrom] at h
          split at h
          · next operation hop =>
              split at h
              · next hjoin =>
                  rcases Fallible.bind_eq_error h with hkeys | ⟨_, hkeys, h⟩
                  · exact absurd hkeys (requireKeys_ne_recursion _ _)
                  split at h
                  · next documents hdocuments =>
                      split at h
                      · cases h
                      next hfew =>
                      rcases Fallible.bind_eq_error h with hparsed | ⟨parsed, -, h⟩
                      · obtain ⟨before, document, after, rfl, hbefore, hdocument⟩ :=
                          Fallible.mapM_eq_error_iff.mp hparsed
                        refine .join hjoin (requireKeys_iff.mp hkeys) hop hdocuments
                          (Nat.not_lt.mp hfew) ?_ (ih hdocument)
                        intro earlier hearlier
                        obtain ⟨c, hc⟩ := hbefore earlier hearlier
                        obtain ⟨hdenotes, hdepth, -, hnodes⟩ := denotes_of_conditionFrom hc
                        exact ⟨c, hdenotes, hdepth, hnodes⟩
                      · rcases Fallible.bind_eq_error h with hjoined | ⟨joined, -, h⟩
                        · exact absurd hjoined (joinCondition_ne_recursion _ _)
                        · rcases Fallible.bind_eq_error h with hbudget | ⟨_, -, h⟩
                          · exact absurd hbudget (budgetLoop_ne_recursion _ _)
                          · cases h
                  · cases h
              · split at h
                · next hnot =>
                    subst hnot
                    rcases Fallible.bind_eq_error h with hkeys | ⟨_, hkeys, h⟩
                    · exact absurd hkeys (requireKeys_ne_recursion _ _)
                    have hkeys := requireKeys_iff.mp hkeys
                    obtain ⟨value, hget⟩ := exists_get? hkeys
                      (List.mem_cons_of_mem "op" (List.mem_singleton_self "condition"))
                    rw [hget] at h
                    rcases Fallible.bind_eq_error h with hchild | ⟨child, -, h⟩
                    · exact .not hkeys hop hget (ih hchild)
                    · rcases Fallible.bind_eq_error h with hbudget | ⟨_, -, h⟩
                      · exact absurd hbudget (budgetLoop_ne_recursion _ _)
                      · cases h
                · cases h
          · cases h
          · next hop =>
              rcases Fallible.bind_eq_error h with hleaf | ⟨leaf, -, h⟩
              · exact .test hop (leafCondition_eq_recursion_iff.mp hleaf)
              · rcases Fallible.bind_eq_error h with hbudget | ⟨_, -, h⟩
                · exact absurd hbudget (budgetLoop_ne_recursion _ _)
                · cases h
      | _ => cases h

theorem conditionFrom_of_overflows (h : Overflows limit depth document)
    (hdepth : depth ≤ maxRuleDepth) : conditionFrom limit depth document = .error .recursion := by
  induction h with
  | test hop htest =>
      rw [conditionFrom, hop]
      exact Fallible.bind_eq_error_iff.mpr (Or.inl (leafCondition_eq_recursion_iff.mpr htest))
  | not hkeys hop hget _ ih =>
      rw [conditionFrom, hop]
      dsimp only
      rw [if_neg (by decide), if_pos rfl, requireKeys_iff.mpr hkeys, Fallible.ok_bind, hget,
        Option.getD_some, ih (by omega)]
      rfl
  | @join depth fields operation document before after hoperation hkeys hop hget hfew hbefore _
    ih =>
      have hparsed : (before ++ document :: after).mapM (conditionFrom limit depth) =
          .error .recursion := by
        refine Fallible.mapM_eq_error_iff.mpr ⟨before, document, after, rfl, ?_, ih (by omega)⟩
        intro earlier hearlier
        obtain ⟨c, hdenotes, hc, hnodes⟩ := hbefore earlier hearlier
        exact ⟨c, conditionFrom_of_denotes hdenotes hc (by omega) hnodes⟩
      rw [conditionFrom, hop]
      dsimp only
      rw [if_pos hoperation, requireKeys_iff.mpr hkeys, Fallible.ok_bind, hget]
      dsimp only
      rw [if_neg (Nat.not_lt.mpr hfew), hparsed]
      rfl

theorem conditionFromMapping_eq_recursion_iff :
    conditionFromMapping limit document = .error .recursion ↔
      Overflows limit maxRuleDepth document :=
  ⟨overflows_of_conditionFrom, fun h => conditionFrom_of_overflows h (Nat.le_refl _)⟩

/-- Exactly the documents of the grammar within the limits are accepted, and the budget check
decides the limits.  The others are refused with the exception of the rules, unless the text of
the refusal nests too deeply. -/
theorem condition_grammar_iff (limit : ReprLimit) (document : Json) :
    ((∃ c, conditionFromMapping limit document = .ok c) ↔
      ∃ c, Denotes document c ∧ c.depth ≤ maxRuleDepth ∧ c.nodes ≤ maxRuleNodes) ∧
    (∀ c, conditionFromMapping limit document = .ok c → Denotes document c) ∧
    (((¬ ∃ c, Denotes document c ∧ c.depth ≤ maxRuleDepth ∧ c.nodes ≤ maxRuleNodes) →
      ∃ message, conditionFromMapping limit document = .error (.validation message)) ↔
        ¬ Overflows limit maxRuleDepth document) ∧
    ∀ c, validateConditionBudget c = .ok () ↔ c.depth ≤ maxRuleDepth ∧ c.nodes ≤ maxRuleNodes := by
  refine ⟨?_, fun c h => (conditionFromMapping_eq_ok_iff.mp h).1, ?_, validateConditionBudget_iff⟩
  · exact ⟨fun ⟨c, h⟩ => ⟨c, conditionFromMapping_eq_ok_iff.mp h⟩,
      fun ⟨c, h⟩ => ⟨c, conditionFromMapping_eq_ok_iff.mpr h⟩⟩
  · rw [← conditionFromMapping_eq_recursion_iff]
    constructor
    · intro hrefuses hrecursion
      have hnone : ¬ ∃ c, Denotes document c ∧ c.depth ≤ maxRuleDepth ∧
          c.nodes ≤ maxRuleNodes := by
        rintro ⟨c, hc⟩
        rw [conditionFromMapping_eq_ok_iff.mpr hc] at hrecursion
        cases hrecursion
      obtain ⟨message, hmessage⟩ := hrefuses hnone
      rw [hmessage] at hrecursion
      cases hrecursion
    · intro hfits hnone
      cases hresult : conditionFromMapping limit document with
      | ok c => exact absurd ⟨c, conditionFromMapping_eq_ok_iff.mp hresult⟩ hnone
      | error e =>
          cases e with
          | validation message => exact ⟨message, rfl⟩
          | recursion => exact absurd hresult hfits

/-- `count` arrays in one another. -/
def nestedArrays : Nat → Json
  | 0 => .arr []
  | count + 1 => .arr [nestedArrays count]

theorem depth_nestedArrays (count : Nat) : (nestedArrays count).depth = count + 1 := by
  induction count with
  | zero => rfl
  | succ count ih =>
      rw [nestedArrays, Json.depth, Json.depthItems, Json.depthItems, ih]
      omega

/-- A test of the subject whose operator is 200000 arrays in one another. -/
def nestedOperator : Json :=
  .obj [("field", .str "subject"), ("operator", nestedArrays 200000), ("value", .str "x")]

theorem nested_operator_overflows :
    (¬ ∃ c, Denotes nestedOperator c ∧ c.depth ≤ maxRuleDepth ∧ c.nodes ≤ maxRuleNodes) ∧
      ¬ ∃ message, conditionFromMapping (fun _ _ => 100000) nestedOperator =
        .error (.validation message) := by
  have hoverflows :
      conditionFromMapping (fun _ _ => 100000) nestedOperator = .error .recursion := by
    refine conditionFromMapping_eq_recursion_iff.mpr (.test rfl ?_)
    refine @NestedTest.string _ _ _ .subject rfl ⟨nestedArrays 200000, rfl, ?_, ?_⟩
    · exact nofun
    · rw [depth_nestedArrays]
      decide
  rw [hoverflows]
  refine ⟨?_, nofun⟩
  rintro ⟨c, hc⟩
  rw [conditionFromMapping_eq_ok_iff.mpr hc] at hoverflows
  cases hoverflows

end Limits

end MaddyWeb.Rules
