import MaddyWeb.Identity
import MaddyWeb.Rules.Document
import MaddyWeb.Rules.Grammar

/-!
# Rules and their documents

A valid condition is denoted by what `condition_to_mapping` writes, and a document denotes the
same condition when its keys are sorted; so a rule comes back from its mapping and from its
canonical JSON.
-/

namespace MaddyWeb.Rules

open MaddyWeb.Library MaddyWeb.Library.Text
open MaddyWeb.Identity (lowerChar isAlphanum_lowerChar contains_lowerChar asciiLower_eq
  lowerChar_lowerChar)

/-! ## Valid conditions -/

/-- The header of a test, in the form that the constructor leaves it in. -/
def HeaderOf (field : StringField) : Option String → Prop
  | none => field ≠ .header
  | some header => field = .header ∧ IsHeaderName header ∧ lowerName header = header

def ValueOf (operator : StringOperator) : Option String → Prop
  | none => operator = .exists
  | some text => operator ≠ .exists ∧ IsText 2048 (8 * 1024) text

/-- What the constructors of the conditions let through. -/
inductive Condition.Valid : Condition → Prop
  | and {conditions : List Condition} :
      conditions ≠ [] → (∀ c ∈ conditions, c.Valid) → Valid (.and conditions)
  | or {conditions : List Condition} :
      conditions ≠ [] → (∀ c ∈ conditions, c.Valid) → Valid (.or conditions)
  | not {c : Condition} : c.Valid → Valid (.not c)
  | string {field : StringField} {operator : StringOperator} {value header : Option String} :
      HeaderOf field header → ValueOf operator value → Valid (.string field operator value header)
  | size {operator : NumericOperator} {value : Nat} :
      value ≤ 2 ^ 63 - 1 → Valid (.size operator value)
  | hasAttachment {value : Bool} : Valid (.hasAttachment value)

/-- What the constructor of the rule lets through. -/
structure Rule.Valid (rule : Rule) : Prop where
  condition : rule.condition.Valid
  depth : rule.condition.depth ≤ maxRuleDepth
  nodes : rule.condition.nodes ≤ maxRuleNodes
  target : IsText 255 1024 rule.targetMailbox
  stripped : strStrip rule.targetMailbox.toList = rule.targetMailbox.toList

theorem isHeaderChar_lowerChar {c : Char} (h : isHeaderChar c = true) :
    isHeaderChar (lowerChar c) = true := by
  unfold isHeaderChar at h ⊢
  rw [Bool.or_eq_true] at h ⊢
  rcases h with h | h
  · exact Or.inl (isAlphanum_lowerChar h)
  · exact Or.inr (contains_lowerChar (List.all_iff_forall_prop.mp (by decide)) h)

theorem lowerName_spec {name : String} (h : IsHeaderName name) :
    IsHeaderName (lowerName name) ∧ lowerName (lowerName name) = lowerName name := by
  have htext : (lowerName name).toList = name.toList.map lowerChar := String.toList_ofList
  refine ⟨⟨?_, ?_, ?_⟩, ?_⟩
  · rw [htext]
    exact fun hnil => h.nonempty (List.map_eq_nil_iff.mp hnil)
  · rw [htext, List.length_map]
    exact h.length
  · intro c hc
    rw [htext] at hc
    obtain ⟨d, hd, rfl⟩ := List.mem_map.mp hc
    exact isHeaderChar_lowerChar (h.chars d hd)
  · have hagain : asciiLower (lowerName name).toList = (lowerName name).toList := by
      rw [htext, asciiLower_eq, List.map_map]
      exact List.map_congr_left fun c _ => lowerChar_lowerChar c
    rw [lowerName, hagain, String.ofList_toList]

theorem HeaderOperand.headerOf {field : StringField} {json : Option Json} {header : Option String}
    (h : HeaderOperand field json header) : HeaderOf field header := by
  unfold HeaderOperand at h
  split at h
  · next hfield =>
      obtain ⟨name, -, hname, rfl⟩ := h
      exact ⟨hfield, lowerName_spec hname⟩
  · next hfield =>
      subst h
      exact hfield

theorem HeaderOf.headerOperand {field : StringField} {header : Option String}
    (h : HeaderOf field header) : HeaderOperand field (header.map .str) header := by
  unfold HeaderOperand
  cases header with
  | none =>
      rw [if_neg h]
  | some name =>
      rw [if_pos h.1]
      exact ⟨name, rfl, h.2.1, congrArg some h.2.2.symm⟩

theorem ValueOperand.valueOf {operator : StringOperator} {json : Option Json}
    {value : Option String} (h : ValueOperand operator json value) : ValueOf operator value := by
  unfold ValueOperand at h
  split at h
  · next hexists =>
      subst h
      exact hexists
  · next hexists =>
      obtain ⟨text, -, htext, rfl⟩ := h
      exact ⟨hexists, htext⟩

theorem ValueOf.valueOperand {operator : StringOperator} {value : Option String}
    (h : ValueOf operator value) : ValueOperand operator (value.map .str) value := by
  unfold ValueOperand
  cases value with
  | none => exact (if_pos (show operator = .exists from h)).mpr rfl
  | some text =>
      rw [if_neg h.1]
      exact ⟨text, rfl, h.2, rfl⟩

theorem FieldTest.valid {fields : List (String × Json)} {c : Condition} (h : FieldTest fields c) :
    c.Valid := by
  cases h with
  | string _ _ _ hheader hvalue => exact .string hheader.headerOf hvalue.valueOf
  | size _ _ _ _ hbound => exact .size hbound
  | hasAttachment => exact .hasAttachment

theorem DenoteAll.ne_nil {documents : List Json} {conditions : List Condition}
    (h : DenoteAll documents conditions) (hne : documents ≠ []) : conditions ≠ [] := by
  rw [← List.length_pos_iff, ← h.length_eq]
  exact List.length_pos_iff.mpr hne

mutual

theorem Denotes.valid {document : Json} {c : Condition} : Denotes document c → c.Valid
  | .test h => h.valid
  | .not _ _ _ h => .not h.valid
  | .and _ _ _ hne hall => .and (hall.ne_nil hne) hall.valid
  | .or _ _ _ hne hall => .or (hall.ne_nil hne) hall.valid

theorem DenoteAll.valid {documents : List Json} {conditions : List Condition} :
    DenoteAll documents conditions → ∀ c ∈ conditions, c.Valid
  | .nil => fun _ hc => nomatch hc
  | .cons h hall => List.forall_mem_cons.mpr ⟨h.valid, hall.valid⟩

end

/-! ## Conditions as mappings -/

theorem HasKeys.sortFields {fields : List (String × Json)} {keys : List String}
    (h : HasKeys fields keys) : HasKeys (Json.sortFields fields) keys := by
  intro key
  rw [← h key, List.mem_map, List.mem_map]
  constructor
  · rintro ⟨field, hfield, rfl⟩
    obtain ⟨other, hother, rfl⟩ := Json.mem_sortFields.mp hfield
    exact ⟨other, hother, rfl⟩
  · rintro ⟨field, hfield, rfl⟩
    exact ⟨(field.1, field.2.sortKeys), Json.mem_sortFields.mpr ⟨field, hfield, rfl⟩, rfl⟩

theorem get?_sortFields_of {fields : List (String × Json)} {key : String} {value : Json}
    (h : Json.get? fields key = some value) :
    Json.get? (Json.sortFields fields) key = some value.sortKeys := by
  rw [Json.get?_sortFields, h, Option.map_some]

theorem HeaderOperand.sortKeys {field : StringField} {json : Option Json} {header : Option String}
    (h : HeaderOperand field json header) :
    HeaderOperand field (json.map Json.sortKeys) header := by
  unfold HeaderOperand at h ⊢
  split at h
  · next hfield =>
      obtain ⟨name, rfl, hname, hheader⟩ := h
      rw [if_pos hfield]
      exact ⟨name, rfl, hname, hheader⟩
  · next hfield =>
      rw [if_neg hfield]
      exact h

theorem ValueOperand.sortKeys {operator : StringOperator} {json : Option Json}
    {value : Option String} (h : ValueOperand operator json value) :
    ValueOperand operator (json.map Json.sortKeys) value := by
  unfold ValueOperand at h ⊢
  split at h
  · next hexists =>
      rw [if_pos hexists]
      exact h
  · next hexists =>
      obtain ⟨text, rfl, htext, hvalue⟩ := h
      rw [if_neg hexists]
      exact ⟨text, rfl, htext, hvalue⟩

theorem FieldTest.sortFields {fields : List (String × Json)} {c : Condition}
    (h : FieldTest fields c) : FieldTest (Json.sortFields fields) c := by
  cases h with
  | string hkeys hfield hoperator hheader hvalue =>
      apply FieldTest.string hkeys.sortFields
      · exact get?_sortFields_of hfield
      · exact get?_sortFields_of hoperator
      · rw [Json.get?_sortFields]
        exact hheader.sortKeys
      · rw [Json.get?_sortFields]
        exact hvalue.sortKeys
  | size hkeys hfield hoperator hvalue hbound =>
      exact .size hkeys.sortFields (get?_sortFields_of hfield) (get?_sortFields_of hoperator)
        (get?_sortFields_of hvalue) hbound
  | hasAttachment hkeys hfield hoperator hvalue =>
      exact .hasAttachment hkeys.sortFields (get?_sortFields_of hfield)
        (get?_sortFields_of hoperator) (get?_sortFields_of hvalue)

mutual

/-- The order of the keys does not matter. -/
theorem Denotes.sortKeys {document : Json} {c : Condition} :
    Denotes document c → Denotes document.sortKeys c
  | .test h => .test h.sortFields
  | .not hkeys hop hget h =>
      .not hkeys.sortFields (get?_sortFields_of hop) (get?_sortFields_of hget) h.sortKeys
  | .and hkeys hop hget hne hall =>
      .and hkeys.sortFields (get?_sortFields_of hop) (get?_sortFields_of hget)
        (mt (Json.sortItems_eq_nil_iff.mp) hne) hall.sortItems
  | .or hkeys hop hget hne hall =>
      .or hkeys.sortFields (get?_sortFields_of hop) (get?_sortFields_of hget)
        (mt (Json.sortItems_eq_nil_iff.mp) hne) hall.sortItems

theorem DenoteAll.sortItems {documents : List Json} {conditions : List Condition} :
    DenoteAll documents conditions → DenoteAll (Json.sortItems documents) conditions
  | .nil => .nil
  | .cons h hall => .cons h.sortKeys hall.sortItems

end

theorem denotes_join {operation : String} {conditions : List Condition}
    (hne : conditions ≠ []) (h : ∀ c ∈ conditions, Denotes (conditionToMapping c) c) :
    HasKeys [("conditions", .arr (conditions.map conditionToMapping)), ("op", .str operation)]
        ["op", "conditions"] ∧
      conditions.map conditionToMapping ≠ [] ∧
      DenoteAll (conditions.map conditionToMapping) conditions := by
  refine ⟨?_, mt List.map_eq_nil_iff.mp hne, ?_⟩
  · intro key
    simp only [List.map_cons, List.map_nil, List.mem_cons, List.not_mem_nil, or_false]
    exact or_comm
  · clear hne
    induction conditions with
    | nil => exact .nil
    | cons c conditions ih =>
        exact .cons (h c List.mem_cons_self)
          (ih fun other hother => h other (List.mem_cons_of_mem _ hother))

theorem fieldTest_string {field : StringField} {operator : StringOperator}
    {value header : Option String} (hheader : HeaderOf field header)
    (hvalue : ValueOf operator value) :
    FieldTest ([("field", .str field.value), ("operator", .str operator.value)] ++
      (header.map fun text => ("header", Json.str text)).toList ++
      (value.map fun text => ("value", Json.str text)).toList)
      (.string field operator value header) := by
  have hheader' := hheader.headerOperand
  have hvalue' := hvalue.valueOperand
  have hkeys : stringKeys field operator = ["field", "operator"] ++
      (header.map fun _ => "header").toList ++ (value.map fun _ => "value").toList := by
    unfold stringKeys
    congr 1
    · cases header with
      | none => rw [if_neg (show field ≠ .header from hheader)]; rfl
      | some name => rw [if_pos hheader.1]; rfl
    · cases value with
      | none => rw [if_pos (show operator = .exists from hvalue)]; rfl
      | some text => rw [if_neg hvalue.1]; rfl
  apply FieldTest.string
  · intro key
    rw [hkeys]
    cases header <;> cases value <;> exact Iff.rfl
  · cases header <;> cases value <;> rfl
  · cases header <;> cases value <;> rfl
  · cases header <;> cases value <;> exact hheader'
  · cases header <;> cases value <;> exact hvalue'

/-- What is written denotes the condition that it was written for. -/
theorem Condition.Valid.denotes {c : Condition} (h : c.Valid) :
    Denotes (conditionToMapping c) c := by
  induction h with
  | and hne _ ih =>
      obtain ⟨hkeys, hnil, hall⟩ := denotes_join hne ih
      rw [conditionToMapping]
      exact .and hkeys rfl rfl hnil hall
  | or hne _ ih =>
      obtain ⟨hkeys, hnil, hall⟩ := denotes_join hne ih
      rw [conditionToMapping]
      exact .or hkeys rfl rfl hnil hall
  | not _ ih =>
      rw [conditionToMapping]
      refine .not ?_ rfl rfl ih
      intro key
      simp only [List.map_cons, List.map_nil, List.mem_cons, List.not_mem_nil, or_false]
      exact or_comm
  | string hheader hvalue =>
      rw [conditionToMapping]
      exact .test (fieldTest_string hheader hvalue)
  | size hbound =>
      rw [conditionToMapping]
      exact .test (.size (fun _ => Iff.rfl) rfl rfl rfl hbound)
  | hasAttachment =>
      rw [conditionToMapping]
      exact .test (.hasAttachment (fun _ => Iff.rfl) rfl rfl rfl)

/-! ## Rules as mappings -/

/-- The document is written as this rule. -/
structure DenotesRule (fields : List (String × Json)) (rule : Rule) : Prop where
  keys : HasKeys fields ["condition", "target_mailbox"]
  condition : ∃ document, Json.get? fields "condition" = some document ∧
    Denotes document rule.condition
  target : Json.get? fields "target_mailbox" = some (.str rule.targetMailbox)

theorem validateTargetMailbox_eq_ok_iff {value : Option Json} {mailbox : String} :
    validateTargetMailbox value = .ok mailbox ↔ value = some (.str mailbox) ∧
      IsText 255 1024 mailbox ∧ strStrip mailbox.toList = mailbox.toList := by
  unfold validateTargetMailbox
  constructor
  · intro h
    obtain ⟨text, htext, h⟩ := Fallible.bind_eq_ok h
    split at h
    · next hstripped =>
        cases h
        obtain ⟨hvalue, hok⟩ := validateText_eq_ok_iff.mp htext
        exact ⟨hvalue, hok, hstripped⟩
    · cases h
  · rintro ⟨hvalue, hok, hstripped⟩
    rw [validateText_eq_ok_iff.mpr ⟨hvalue, hok⟩, Fallible.ok_bind, if_pos hstripped]
    rfl

variable {limit : ReprLimit}

theorem ruleFrom_eq_ok_iff {document target : Json} {rule : Rule} :
    ruleFrom limit document target = .ok rule ↔
      Denotes document rule.condition ∧ target = .str rule.targetMailbox ∧ rule.Valid := by
  unfold ruleFrom
  constructor
  · intro h
    obtain ⟨condition, hcondition, h⟩ := Fallible.bind_eq_ok h
    obtain ⟨_, hbudget, h⟩ := Fallible.bind_eq_ok h
    obtain ⟨mailbox, hmailbox, h⟩ := Fallible.bind_eq_ok h
    cases h
    obtain ⟨hdenotes, hdepth, hnodes⟩ := conditionFromMapping_eq_ok_iff.mp hcondition
    obtain ⟨htarget, htext, hstripped⟩ := validateTargetMailbox_eq_ok_iff.mp hmailbox
    exact ⟨hdenotes, Option.some.inj htarget, hdenotes.valid, hdepth, hnodes, htext, hstripped⟩
  · rintro ⟨hdenotes, rfl, h⟩
    rw [conditionFromMapping_eq_ok_iff.mpr ⟨hdenotes, h.depth, h.nodes⟩, Fallible.ok_bind,
      (validateConditionBudget_iff rule.condition).mpr ⟨h.depth, h.nodes⟩, Fallible.ok_bind,
      validateTargetMailbox_eq_ok_iff.mpr ⟨rfl, h.target, h.stripped⟩]
    rfl

theorem ruleFromMapping_eq_ok_iff {fields : List (String × Json)} {rule : Rule} :
    ruleFromMapping limit (.obj fields) = .ok rule ↔ DenotesRule fields rule ∧ rule.Valid := by
  unfold ruleFromMapping
  constructor
  · intro h
    obtain ⟨_, hkeys, h⟩ := Fallible.bind_eq_ok h
    have hkeys := requireKeys_iff.mp hkeys
    obtain ⟨document, hdocument⟩ := exists_get? hkeys List.mem_cons_self
    obtain ⟨target, htarget⟩ := exists_get? hkeys
      (List.mem_cons_of_mem "condition" (List.mem_singleton_self "target_mailbox"))
    rw [hdocument, htarget] at h
    obtain ⟨hdenotes, heq, hvalid⟩ := ruleFrom_eq_ok_iff.mp h
    rw [Option.getD_some] at heq
    subst heq
    exact ⟨⟨hkeys, ⟨document, hdocument, hdenotes⟩, htarget⟩, hvalid⟩
  · rintro ⟨h, hvalid⟩
    obtain ⟨document, hdocument, hdenotes⟩ := h.condition
    dsimp only
    rw [requireKeys_iff.mpr h.keys, Fallible.ok_bind, hdocument, h.target]
    exact ruleFrom_eq_ok_iff.mpr ⟨hdenotes, rfl, hvalid⟩

theorem DenotesRule.sortFields {fields : List (String × Json)} {rule : Rule}
    (h : DenotesRule fields rule) : DenotesRule (Json.sortFields fields) rule := by
  obtain ⟨document, hdocument, hdenotes⟩ := h.condition
  exact ⟨h.keys.sortFields, ⟨_, get?_sortFields_of hdocument, hdenotes.sortKeys⟩,
    get?_sortFields_of h.target⟩

theorem Rule.Valid.denotesRule {rule : Rule} (h : rule.Valid) :
    DenotesRule [("condition", conditionToMapping rule.condition),
      ("target_mailbox", .str rule.targetMailbox)] rule :=
  ⟨fun _ => Iff.rfl, ⟨_, rfl, h.condition.denotes⟩, rfl⟩

theorem ruleFromMapping_toMapping {rule : Rule} (h : rule.Valid) :
    ruleFromMapping limit rule.toMapping = .ok rule :=
  ruleFromMapping_eq_ok_iff.mpr ⟨h.denotesRule, h⟩

theorem ruleFromMapping_sorted {rule : Rule} (h : rule.Valid) :
    ruleFromMapping limit rule.toMapping.sortKeys = .ok rule :=
  ruleFromMapping_eq_ok_iff.mpr ⟨h.denotesRule.sortFields, h⟩

theorem valid_of_ruleFromMapping {document : Json} {rule : Rule}
    (h : ruleFromMapping limit document = .ok rule) : rule.Valid := by
  cases document with
  | obj fields => exact (ruleFromMapping_eq_ok_iff.mp h).2
  | _ => cases h

/-! ## Rules as JSON -/

section Loads

variable {loads : List Char → LoadedRule}

theorem loadRuleText_of_long {document : List Char}
    (h : maxRuleJsonBytes < Json.utf8Length document) :
    loadRuleText loads document = .error (.validation "rule JSON is too large") := by
  unfold loadRuleText
  rw [if_pos h]

/-- `json.loads` reads the canonical JSON of the rule back. -/
def LoadsCanonical (loads : List Char → LoadedRule) (rule : Rule) : Prop :=
  loads rule.canonicalJson = .value rule.toMapping.sortKeys

theorem ruleFromJson_canonical {rule : Rule} (h : rule.Valid) (hloads : LoadsCanonical loads rule)
    (hshort : Json.utf8Length rule.canonicalJson ≤ maxRuleJsonBytes) :
    ruleFromJson loads limit rule.canonicalJson = .ok rule := by
  have hsorted : rule.toMapping.sortKeys = .obj (Json.sortFields
      [("condition", conditionToMapping rule.condition),
        ("target_mailbox", .str rule.targetMailbox)]) := rfl
  have hload : loadRuleText loads rule.canonicalJson = .ok rule.toMapping.sortKeys := by
    unfold loadRuleText loadRendered
    rw [if_neg (Nat.not_lt.mpr hshort), hloads, hsorted]
  unfold ruleFromJson
  rw [hload]
  exact ruleFromMapping_sorted h

end Loads

/-- A rule comes back from its mapping and, if that is not too long, from its canonical JSON; the
canonical JSON of a mapping is a document of the same rule. -/
theorem rule_documents (loads : List Char → LoadedRule) (limit : ReprLimit) :
    (∀ rule : Rule, rule.Valid → ruleFromMapping limit rule.toMapping = .ok rule) ∧
    (∀ rule : Rule, rule.Valid → LoadsCanonical loads rule →
      Json.utf8Length rule.canonicalJson ≤ maxRuleJsonBytes →
      ruleFromJson loads limit rule.canonicalJson = .ok rule) ∧
    (∀ c : Condition, c.Valid → c.depth ≤ maxRuleDepth → c.nodes ≤ maxRuleNodes →
      conditionFromMapping limit (conditionToMapping c) = .ok c) ∧
    ∀ document rule, ruleFromMapping limit document = .ok rule →
      rule.Valid ∧
      canonicalRuleJson loads limit (.mapping document) = .ok rule.canonicalJson ∧
      (∃ denoted, ruleFromMapping limit rule.toMapping.sortKeys = .ok denoted ∧
        ∀ casefold message, denoted.matches casefold message = rule.matches casefold message) ∧
      (LoadsCanonical loads rule → Json.utf8Length rule.canonicalJson ≤ maxRuleJsonBytes →
        canonicalRuleJson loads limit (.text rule.canonicalJson) = .ok rule.canonicalJson ∧
        ∃ denoted, ruleFromJson loads limit rule.canonicalJson = .ok denoted ∧
          ∀ casefold message, denoted.matches casefold message =
            rule.matches casefold message) := by
  refine ⟨fun rule h => ruleFromMapping_toMapping h,
    fun rule h hloads hshort => ruleFromJson_canonical h hloads hshort, ?_, ?_⟩
  · intro c hvalid hdepth hnodes
    exact conditionFromMapping_eq_ok_iff.mpr ⟨hvalid.denotes, hdepth, hnodes⟩
  · intro document rule h
    have hvalid := valid_of_ruleFromMapping h
    refine ⟨hvalid, ?_, ⟨rule, ruleFromMapping_sorted hvalid, fun _ _ => rfl⟩, ?_⟩
    · unfold canonicalRuleJson
      dsimp only
      rw [h]
      rfl
    · intro hloads hshort
      have hjson := @ruleFromJson_canonical limit loads rule hvalid hloads hshort
      refine ⟨?_, rule, hjson, fun _ _ => rfl⟩
      unfold canonicalRuleJson
      dsimp only
      rw [hjson]
      rfl

def sampleRule : Rule :=
  ⟨.and [.string .header .exists none (some "x-list"), .not (.size .gt 1000)], "Archive"⟩

def sampleLoads (text : List Char) : LoadedRule :=
  if text = sampleRule.canonicalJson then .value sampleRule.toMapping.sortKeys else .failed

theorem sampleRule_documents :
    ruleFromJson sampleLoads (fun _ _ => 1000) sampleRule.canonicalJson = .ok sampleRule ∧
      canonicalRuleJson sampleLoads (fun _ _ => 1000) (.text sampleRule.canonicalJson) =
        .ok sampleRule.canonicalJson := by
  have hvalid : sampleRule.Valid := by
    refine ⟨.and (List.cons_ne_nil _ _) ?_, ?_, ?_,
      ⟨by decide, List.all_iff_forall_prop.mp (by decide), by decide, by decide⟩, by decide⟩
    · intro c hc
      rcases List.mem_cons.mp hc with rfl | hc
      · exact .string ⟨rfl, ⟨by decide, by decide, List.all_iff_forall_prop.mp (by decide)⟩,
          by decide⟩ rfl
      · cases List.mem_singleton.mp hc
        exact .not (.size (by decide))
    · unfold sampleRule
      simp [Condition.depth, maxRuleDepth]
    · unfold sampleRule
      simp [Condition.nodes, maxRuleNodes]
  have hloads : LoadsCanonical sampleLoads sampleRule := if_pos rfl
  have hshort : Json.utf8Length sampleRule.canonicalJson ≤ maxRuleJsonBytes := by
    unfold Rule.canonicalJson Rule.toMapping sampleRule
    simp only [conditionToMapping, List.map_cons, List.map_nil]
    decide +kernel
  obtain ⟨hmapping, hjson, -, hdocument⟩ := rule_documents sampleLoads (fun _ _ => 1000)
  exact ⟨hjson sampleRule hvalid hloads hshort,
    ((hdocument sampleRule.toMapping sampleRule (hmapping sampleRule hvalid)).2.2.2
      hloads hshort).1⟩

/-! ## A canonical form that is too long -/

/-- A test with the longest operand. -/
def longTest : Condition :=
  .string .subject .contains (some (String.ofList (List.replicate 2048 'a'))) none

def longRule : Rule := ⟨.and (List.replicate 33 longTest), "Archive"⟩

theorem longTest_valid : longTest.Valid := by
  apply Condition.Valid.string
  · exact (by decide : StringField.subject ≠ .header)
  · refine ⟨by decide, ?_, ?_, ?_, ?_⟩
    · rw [String.toList_ofList]
      exact List.cons_ne_nil _ _
    · intro c hc
      rw [String.toList_ofList] at hc
      cases List.eq_of_mem_replicate hc
      rfl
    · rw [String.toList_ofList, List.length_replicate]
    · unfold Json.utf8Length
      rw [String.toList_ofList, List.map_replicate, List.sum_replicate_nat]
      decide

theorem longRule_valid : longRule.Valid where
  condition := .and (List.cons_ne_nil _ _) fun c hc => by
    cases List.eq_of_mem_replicate hc
    exact longTest_valid
  depth := by
    have htest : longTest.depth = 1 := depth_eq longTest
    rw [depth_eq]
    change 1 + ((List.replicate 33 longTest).map Condition.depth).foldr max 0 ≤ maxRuleDepth
    rw [List.map_replicate, htest]
    decide
  nodes := by
    have htest : longTest.nodes = 1 := nodes_eq longTest
    rw [nodes_eq]
    change 1 + ((List.replicate 33 longTest).map Condition.nodes).sum ≤ maxRuleNodes
    rw [List.map_replicate, htest]
    decide
  target := ⟨by decide, List.all_iff_forall_prop.mp (by decide), by decide, by decide⟩
  stripped := by decide

theorem length_le_renderObject {fields : List (String × Json)} {key : String} {value : Json}
    (h : (key, value) ∈ fields) :
    (value.sortKeys.render false).length ≤ ((Json.obj fields).sortKeys.render false).length := by
  have hfields := Json.length_le_renderFields false (Json.mem_sortFields.mpr ⟨_, h, rfl⟩)
  rw [Json.sortKeys, Json.render, List.length_append, List.length_cons]
  dsimp only at hfields
  omega

theorem longTest_length :
    2048 ≤ ((conditionToMapping longTest).sortKeys.render false).length := by
  have hvalue : ("value", Json.str (String.ofList (List.replicate 2048 'a'))) ∈
      [("field", Json.str StringField.subject.value),
        ("operator", Json.str StringOperator.contains.value),
        ("value", Json.str (String.ofList (List.replicate 2048 'a')))] :=
    List.mem_cons_of_mem _ (List.mem_cons_of_mem _ List.mem_cons_self)
  have htext := Json.length_le_renderString false (String.ofList (List.replicate 2048 'a'))
  rw [String.toList_ofList, List.length_replicate] at htext
  unfold longTest
  rw [conditionToMapping]
  exact Nat.le_trans htext (length_le_renderObject hvalue)

theorem longRule_long : maxRuleJsonBytes < Json.utf8Length longRule.canonicalJson := by
  have hcondition : ("condition", conditionToMapping longRule.condition) ∈
      [("condition", conditionToMapping longRule.condition),
        ("target_mailbox", Json.str longRule.targetMailbox)] := List.mem_cons_self
  have hjoin : ("conditions", Json.arr (List.replicate 33 (conditionToMapping longTest))) ∈
      [("conditions", Json.arr (List.replicate 33 (conditionToMapping longTest))),
        ("op", Json.str "and")] := List.mem_cons_self
  have hitems := Json.sum_le_renderItems false
    (List.replicate 33 (conditionToMapping longTest).sortKeys)
  have htest := longTest_length
  have hbytes := Json.length_le_utf8Length longRule.canonicalJson
  have hrule : ((conditionToMapping longRule.condition).sortKeys.render false).length ≤
      longRule.canonicalJson.length := length_le_renderObject hcondition
  have hand := length_le_renderObject hjoin
  have hmapping : conditionToMapping longRule.condition =
      .obj [("conditions", .arr (List.replicate 33 (conditionToMapping longTest))),
        ("op", .str "and")] := by
    unfold longRule
    rw [conditionToMapping, List.map_replicate]
  rw [hmapping] at hrule
  rw [Json.sortKeys, Json.sortItems_eq, List.map_replicate, Json.render, List.length_append,
    List.length_cons] at hand
  rw [List.map_replicate, List.sum_replicate_nat] at hitems
  unfold maxRuleJsonBytes
  omega

/-- The canonical JSON of an accepted mapping that `canonical_rule_json` refuses. -/
theorem canonical_too_long : ∃ document rule, ∀ limit, ruleFromMapping limit document = .ok rule ∧
    ∀ loads, canonicalRuleJson loads limit (.mapping document) = .ok rule.canonicalJson ∧
      canonicalRuleJson loads limit (.text rule.canonicalJson) =
        .error (.validation "rule JSON is too large") := by
  refine ⟨longRule.toMapping, longRule, fun limit => ?_⟩
  have hparsed := @ruleFromMapping_toMapping limit longRule longRule_valid
  refine ⟨hparsed, fun loads => ⟨?_, ?_⟩⟩
  · unfold canonicalRuleJson
    dsimp only
    rw [hparsed]
    rfl
  · unfold canonicalRuleJson ruleFromJson
    dsimp only
    rw [loadRuleText_of_long longRule_long]
    rfl

end MaddyWeb.Rules
