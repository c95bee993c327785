import MaddyWeb.Library.Fallible
import MaddyWeb.Rules.Bridge
import MaddyWeb.Rules.Grammar

/-!
# Which exceptions leave the bridge

Validation errors of the rules are caught.  Those of a snapshot document are not, and neither is
a `repr` that nests too deeply, so the bridge fails closed exactly for requests whose account
has a sound snapshot or none.
-/

namespace MaddyWeb.Rules

open MaddyWeb.Library MaddyWeb.Library.Text MaddyWeb.Identity

variable {token account : String} {line message : Bytes} {env : FilterEnv} {disk : Disk}

/-! ## What an evaluation raises -/

/-- The fields of a snapshot document of the account. -/
structure SnapshotOf (account : String) (fields : List (String × Json)) (rules : List Json) :
    Prop where
  keys : HasKeys fields ["version", "account", "rules"]
  version : ∃ version, Json.get? fields "version" = some version ∧
    (version = .int 1 ∨ version = .bool true ∨ version = .float "1.0")
  owner : Json.get? fields "account" = some (.str account)
  listed : Json.get? fields "rules" = some (.arr rules)
  few : rules.length ≤ 100

/-- After records that are accepted, a valid record of an enabled rule has a condition that is
refused with a text that nests too deeply. -/
inductive NestedRule (limit : ReprLimit) : List String → List Json → Prop
  | here {seen : List String} {fields : List (String × Json)} {head : RecordHead}
      {rest : List Json} :
      recordHead seen fields = .ok head → head.enabled = true →
      Overflows limit maxRuleDepth ((Json.get? fields "condition").getD .null) →
      NestedRule limit seen (.obj fields :: rest)
  | later {seen : List String} {record : Json} {ruleId : String} {prepared : Option PreparedRule}
      {rest : List Json} :
      prepareRecord limit seen record = .ok (ruleId, prepared) →
      NestedRule limit (ruleId :: seen) rest → NestedRule limit seen (record :: rest)

/-- The snapshot file of the account is absent, or private with a document of the account. -/
def SoundSnapshot (env : FilterEnv) (disk : Disk) (account : String) : Prop :=
  ∀ file, Dict.get disk (env.sha256 account ++ ".json") = some file →
    file.isPrivate = true ∧ 2 ≤ file.content.length ∧ file.content.length ≤ maxSnapshotBytes ∧
      ∃ fields rules, env.loads file.content = .value (.obj fields) ∧
        SnapshotOf account fields rules ∧ ¬ NestedRule env.reprLimit [] rules

theorem equalsOne_iff {value : Json} :
    equalsOne value = true ↔ value = .int 1 ∨ value = .bool true ∨ value = .float "1.0" := by
  cases value <;> simp [equalsOne]

/-- An object with a value for each key has no other keys if every field has one of them. -/
theorem hasKeys_iff_all {fields : List (String × Json)} {keys : List String}
    (hget : ∀ key ∈ keys, ∃ value, Json.get? fields key = some value) :
    HasKeys fields keys ↔ fields.all (fun field => keys.contains field.1) = true := by
  rw [List.all_eq_true]
  constructor
  · intro h field hfield
    exact List.contains_iff_mem.mpr ((h field.1).mp (List.mem_map_of_mem hfield))
  · intro h key
    constructor
    · intro hkey
      obtain ⟨field, hfield, rfl⟩ := List.mem_map.mp hkey
      exact List.contains_iff_mem.mp (h field hfield)
    · intro hkey
      obtain ⟨value, hvalue⟩ := hget key hkey
      exact mem_keys_of_get? hvalue

theorem documentRules_eq_some_iff {value : Json} {rules : List Json} :
    documentRules account value = some rules ↔
      ∃ fields, value = .obj fields ∧ SnapshotOf account fields rules := by
  constructor
  · intro h
    unfold documentRules at h
    split at h
    · next fields =>
        split at h
        · next hall =>
            split at h
            · next version account' rules' hversion haccount hrules =>
                split at h
                · next hchecks =>
                    cases h
                    rw [Bool.and_eq_true, Bool.and_eq_true, beq_iff_eq,
                      decide_eq_true_eq] at hchecks
                    obtain ⟨⟨hone, rfl⟩, hfew⟩ := hchecks
                    have hkeys : HasKeys fields ["version", "account", "rules"] := by
                      refine (hasKeys_iff_all ?_).mpr hall
                      simp [hversion, haccount, hrules]
                    exact ⟨fields, rfl, hkeys, ⟨version, hversion, equalsOne_iff.mp hone⟩,
                      haccount, hrules, hfew⟩
                · cases h
            · cases h
        · cases h
    · cases h
  · rintro ⟨fields, rfl, h⟩
    obtain ⟨version, hversion, hone⟩ := h.version
    unfold documentRules
    dsimp only
    rw [if_pos, hversion, h.owner, h.listed]
    · dsimp only
      rw [equalsOne_iff.mpr hone, beq_self_eq_true, decide_eq_true h.few]
      rfl
    · exact (hasKeys_iff_all fun _ => exists_get? h.keys).mp h.keys

theorem snapshotName_of_canonical {mailbox domain : List Char}
    (h : IsCanonical account.toList mailbox domain) (env : SnapshotEnv) :
    snapshotName env account = .ok (env.sha256 account ++ ".json") := by
  unfold snapshotName
  rw [if_neg]
  have hall : account.toList.all (·.toNat < 0x80) = true := by
    rw [List.all_eq_true]
    intro c hc
    have hrange := h.range hc
    simp
    omega
  simp [hall, h.ne_nil]

theorem canonical_of_authenticatedAccount (h : authenticatedAccount line token = some account) :
    ∃ mailbox domain, IsCanonical account.toList mailbox domain := by
  unfold authenticatedAccount at h
  split at h
  · cases h
  split at h
  · cases h
  split at h
  · split at h
    · exact isCanonical_of_canonicalizeEmail h
    · cases h
  · cases h

theorem canonicalizeEmail_of_canonical {mailbox domain : List Char}
    (h : IsCanonical account.toList mailbox domain) : canonicalizeEmail account = some account := by
  have heq := h.canonicalizeEmail_eq
  rw [String.ofList_toList] at heq
  exact heq

/-- A snapshot document that is not sound raises one of the exceptions that are not caught. -/
theorem loadSnapshot_of_canonical {mailbox domain : List Char}
    (h : IsCanonical account.toList mailbox domain) (env : FilterEnv) (disk : Disk) :
    (SoundSnapshot env disk account ∧ loadSnapshot env.toSnapshotEnv disk account = .ok none) ∨
    (∃ rules, (SoundSnapshot env disk account ↔ ¬ NestedRule env.reprLimit [] rules) ∧
      rules.length ≤ 100 ∧ loadSnapshot env.toSnapshotEnv disk account = .ok (some rules)) ∨
    (¬ SoundSnapshot env disk account ∧ ∃ e,
      loadSnapshot env.toSnapshotEnv disk account = .error e ∧
        (FilterError.snapshot e).isCaught = false) := by
  rw [loadSnapshot_eq (snapshotName_of_canonical h env.toSnapshotEnv)]
  cases hfile : Dict.get disk (env.sha256 account ++ ".json") with
  | none =>
      refine Or.inl ⟨?_, rfl⟩
      intro file hfile'
      rw [hfile] at hfile'
      cases hfile'
  | some file =>
      right
      dsimp only
      by_cases hprivate : file.isPrivate = true
      swap
      · rw [if_neg hprivate]
        exact Or.inr ⟨fun hsound => hprivate (hsound file hfile).1, _, rfl, rfl⟩
      rw [if_pos hprivate]
      unfold loadDocument
      by_cases hlength : 2 ≤ file.content.length ∧ file.content.length ≤ maxSnapshotBytes
      swap
      · rw [if_neg hlength]
        refine Or.inr ⟨fun hsound => ?_, _, rfl, rfl⟩
        exact hlength ⟨(hsound file hfile).2.1, (hsound file hfile).2.2.1⟩
      rw [if_pos hlength]
      cases hloads : env.loads file.content with
      | invalid =>
          refine Or.inr ⟨fun hsound => ?_, _, rfl, rfl⟩
          obtain ⟨fields, rules, hvalue, -⟩ := (hsound file hfile).2.2.2
          rw [hloads] at hvalue
          cases hvalue
      | tooDeep =>
          refine Or.inr ⟨fun hsound => ?_, _, rfl, rfl⟩
          obtain ⟨fields, rules, hvalue, -⟩ := (hsound file hfile).2.2.2
          rw [hloads] at hvalue
          cases hvalue
      | value value =>
          dsimp only
          cases hrules : documentRules account value with
          | none =>
              refine Or.inr ⟨fun hsound => ?_, _, rfl, rfl⟩
              obtain ⟨fields, rules, hvalue, hdocument, -⟩ := (hsound file hfile).2.2.2
              rw [hloads] at hvalue
              cases hvalue
              rw [documentRules_eq_some_iff.mpr ⟨fields, rfl, hdocument⟩] at hrules
              cases hrules
          | some rules =>
              obtain ⟨fields, rfl, hdocument⟩ := documentRules_eq_some_iff.mp hrules
              refine Or.inl ⟨rules, ⟨fun hsound => ?_, fun hfits => ?_⟩, hdocument.few, rfl⟩
              · obtain ⟨fields', rules', hvalue, hdocument', hfits⟩ := (hsound file hfile).2.2.2
                rw [hloads] at hvalue
                cases hvalue
                have hsame := hdocument.listed.symm.trans hdocument'.listed
                cases hsame
                exact hfits
              · intro file' hfile'
                rw [hfile] at hfile'
                cases hfile'
                exact ⟨hprivate, hlength.1, hlength.2, fields, rules, hloads, hdocument, hfits⟩

/-! ## Which mailbox is named -/

/-- The target of an enabled rule of the loaded snapshot. -/
def NamesEnabledRule (env : SnapshotEnv) (disk : Disk) (account target : String) : Prop :=
  ∃ rules, loadSnapshot env disk account = .ok (some rules) ∧ ∃ fields, Json.obj fields ∈ rules ∧
    Json.get? fields "enabled" = some (.bool true) ∧
    Json.get? fields "target_mailbox" = some (.str target)

/-- What `_validate_target_mailbox` accepts. -/
structure IsTarget (target : String) : Prop where
  nonempty : target.toList ≠ []
  safe : ∀ c ∈ target.toList, isUnsafe c = false
  bounded : Json.utf8Length target.toList ≤ 1024

theorem validateTargetMailbox_ok {value : Option Json} {target : String}
    (h : validateTargetMailbox value = .ok target) :
    value = some (.str target) ∧ IsTarget target := by
  unfold validateTargetMailbox at h
  obtain ⟨mailbox, htext, hrest⟩ := Fallible.bind_eq_ok h
  obtain ⟨hvalue, htext⟩ := validateText_eq_ok_iff.mp htext
  split at hrest
  · cases hrest
    exact ⟨hvalue, htext.nonempty, htext.safe, htext.bytes⟩
  · cases hrest

variable {limit : ReprLimit}

theorem ruleFrom_ok {condition targetMailbox : Json} {rule : Rule}
    (h : ruleFrom limit condition targetMailbox = .ok rule) :
    targetMailbox = .str rule.targetMailbox ∧ IsTarget rule.targetMailbox := by
  unfold ruleFrom at h
  obtain ⟨parsed, -, h⟩ := Fallible.bind_eq_ok h
  obtain ⟨_, -, h⟩ := Fallible.bind_eq_ok h
  obtain ⟨target, htarget, h⟩ := Fallible.bind_eq_ok h
  cases h
  obtain ⟨hvalue, hisTarget⟩ := validateTargetMailbox_ok htarget
  exact ⟨Option.some.inj hvalue, hisTarget⟩

theorem compileRecord_ok {fields : List (String × Json)} {rule : Rule}
    (h : compileRecord limit fields = .ok rule) :
    Json.get? fields "target_mailbox" = some (.str rule.targetMailbox) ∧
      IsTarget rule.targetMailbox := by
  unfold compileRecord at h
  obtain ⟨parsed, hparsed, h⟩ := Fallible.bind_eq_ok h
  unfold compileRule at h
  obtain ⟨_, -, h⟩ := Fallible.bind_eq_ok h
  cases h
  obtain ⟨htarget, hisTarget⟩ := ruleFrom_ok hparsed
  refine ⟨?_, hisTarget⟩
  cases hget : Json.get? fields "target_mailbox" with
  | none =>
      rw [hget] at htarget
      cases htarget
  | some value =>
      rw [hget] at htarget
      exact congrArg some htarget

theorem recordHead_ok {seen : List String} {fields : List (String × Json)} {head : RecordHead}
    (h : recordHead seen fields = .ok head) :
    Json.get? fields "enabled" = some (.bool head.enabled) := by
  unfold recordHead at h
  split at h
  · split at h
    · next henabled _ _ =>
        split at h
        · cases h
          exact henabled
        · cases h
    · cases h
  · cases h

/-- A rule that has been prepared comes from an enabled record. -/
def IsRecordOf (rules : List Json) (item : PreparedRule) : Prop :=
  IsTarget item.rule.targetMailbox ∧ ∃ fields, Json.obj fields ∈ rules ∧
    Json.get? fields "enabled" = some (.bool true) ∧
    Json.get? fields "target_mailbox" = some (.str item.rule.targetMailbox)

theorem prepareRecord_ok {seen : List String} {value : Json} {result : String × Option PreparedRule}
    (h : prepareRecord limit seen value = .ok result) :
    ∀ item ∈ result.2, IsRecordOf [value] item := by
  cases value with
  | obj fields =>
      unfold prepareRecord at h
      obtain ⟨head, hhead, h⟩ := Fallible.bind_eq_ok h
      split at h
      · next henabled =>
          obtain ⟨rule, hrule, h⟩ := Fallible.bind_eq_ok h
          cases h
          rintro item ⟨⟩
          have hcompiled : compileRecord limit fields = .ok rule := by
            cases hresult : compileRecord limit fields with
            | error e =>
                rw [hresult] at hrule
                cases hrule
            | ok rule' =>
                rw [hresult] at hrule
                cases hrule
                rfl
          obtain ⟨htarget, hisTarget⟩ := compileRecord_ok hcompiled
          refine ⟨hisTarget, fields, List.mem_singleton_self _, ?_, htarget⟩
          rw [recordHead_ok hhead, henabled]
      · cases h
        rintro item ⟨⟩
  | _ => cases h

theorem prepareRules_ok {seen : List String} {rules : List Json} {prepared : List PreparedRule}
    (h : prepareRules limit seen rules = .ok prepared) :
    ∀ item ∈ prepared, IsRecordOf rules item := by
  induction rules generalizing seen prepared with
  | nil =>
      cases h
      nofun
  | cons value rules ih =>
      rw [prepareRules] at h
      obtain ⟨⟨ruleId, first⟩, hfirst, h⟩ := Fallible.bind_eq_ok h
      dsimp only at h
      obtain ⟨others, hothers, h⟩ := Fallible.bind_eq_ok h
      cases h
      intro item hitem
      rcases List.mem_append.mp hitem with hitem | hitem
      · obtain ⟨hisTarget, fields, hfields, hrest⟩ :=
          prepareRecord_ok hfirst item (Option.mem_toList.mp hitem)
        refine ⟨hisTarget, fields, ?_, hrest⟩
        rw [List.mem_singleton.mp hfields]
        exact List.mem_cons_self
      · obtain ⟨hisTarget, fields, hfields, hrest⟩ := ih hothers item hitem
        exact ⟨hisTarget, fields, List.mem_cons_of_mem _ hfields, hrest⟩

/-- The loop names nothing new. -/
theorem selectTarget_mem {casefold : String → String} {facts : RuleMessage} {target : Option String}
    {items : List PreparedRule} {result : String}
    (h : selectTarget casefold facts target items = some result) :
    target = some result ∨ ∃ item ∈ items, item.rule.targetMailbox = result := by
  induction items generalizing target with
  | nil => exact Or.inl h
  | cons item items ih =>
      rw [selectTarget] at h
      split at h
      · split at h
        · cases h
          exact Or.inr ⟨item, List.mem_cons_self, rfl⟩
        · rcases ih h with hsame | ⟨other, hother, heq⟩
          · cases hsame
            exact Or.inr ⟨item, List.mem_cons_self, rfl⟩
          · exact Or.inr ⟨other, List.mem_cons_of_mem _ hother, heq⟩
      · rcases ih h with hsame | ⟨other, hother, heq⟩
        · exact Or.inl hsame
        · exact Or.inr ⟨other, List.mem_cons_of_mem _ hother, heq⟩

theorem evaluateRules_some {rules : List Json} {target : String}
    (h : evaluateRules env rules message = .ok (some target)) :
    IsTarget target ∧ ∃ fields, Json.obj fields ∈ rules ∧
      Json.get? fields "enabled" = some (.bool true) ∧
      Json.get? fields "target_mailbox" = some (.str target) := by
  unfold evaluateRules at h
  split at h
  · cases h
  obtain ⟨prepared, hprepared, h⟩ := Fallible.bind_eq_ok h
  split at h
  · split at h
    · cases h
    · have hselect := Except.ok.inj h
      rcases selectTarget_mem hselect with hnone | ⟨item, hitem, rfl⟩
      · cases hnone
      · exact prepareRules_ok hprepared item (List.mem_mergeSort.mp hitem)
  · cases h

/-! ## Which exceptions of the rules are caught -/

theorem validateTargetMailbox_ne_recursion (value : Option Json) :
    validateTargetMailbox value ≠ .error .recursion := by
  intro h
  unfold validateTargetMailbox at h
  rcases Fallible.bind_eq_error h with htext | ⟨mailbox, -, h⟩
  · exact validateText_ne_recursion _ _ _ _ htext
  · split at h <;> cases h

theorem compileRecord_eq_recursion_iff {fields : List (String × Json)} :
    compileRecord limit fields = .error .recursion ↔
      Overflows limit maxRuleDepth ((Json.get? fields "condition").getD .null) := by
  rw [← conditionFromMapping_eq_recursion_iff]
  unfold compileRecord ruleFrom compileRule validateConditionBudget
  constructor
  · intro h
    rcases Fallible.bind_eq_error h with h | ⟨rule, -, h⟩
    · rcases Fallible.bind_eq_error h with hcondition | ⟨condition, -, h⟩
      · exact hcondition
      · rcases Fallible.bind_eq_error h with hbudget | ⟨_, -, h⟩
        · exact absurd hbudget (budgetLoop_ne_recursion _ _)
        · rcases Fallible.bind_eq_error h with htarget | ⟨target, -, h⟩
          · exact absurd htarget (validateTargetMailbox_ne_recursion _)
          · cases h
    · rcases Fallible.bind_eq_error h with hbudget | ⟨_, -, h⟩
      · exact absurd hbudget (budgetLoop_ne_recursion _ _)
      · cases h
  · intro h
    rw [h]
    rfl

theorem recordHead_isCaught {seen : List String} {fields : List (String × Json)} {e : FilterError}
    (h : recordHead seen fields = .error e) : e.isCaught = true := by
  unfold recordHead at h
  split at h
  · split at h
    · split at h
      · cases h
      · cases h
        rfl
    · cases h
      rfl
  · cases h
    rfl

/-- Only a text that nests too deeply leaves a record. -/
theorem prepareRecord_error {seen : List String} {value : Json} {e : FilterError}
    (h : prepareRecord limit seen value = .error e) :
    e.isCaught = true ∨ e = .rule .recursion ∧ ∃ fields head, value = .obj fields ∧
      recordHead seen fields = .ok head ∧ head.enabled = true ∧
        Overflows limit maxRuleDepth ((Json.get? fields "condition").getD .null) := by
  cases value with
  | obj fields =>
      unfold prepareRecord at h
      rcases Fallible.bind_eq_error h with hhead | ⟨head, hhead, hrest⟩
      · exact Or.inl (recordHead_isCaught hhead)
      · split at hrest
        · next henabled =>
            rcases Fallible.bind_eq_error hrest with hrule | ⟨rule, -, hrule⟩
            · cases hcompile : compileRecord limit fields with
              | error e' =>
                  rw [hcompile] at hrule
                  cases hrule
                  cases e' with
                  | validation message => exact Or.inl rfl
                  | recursion =>
                      exact Or.inr ⟨rfl, fields, head, rfl, hhead, henabled,
                        compileRecord_eq_recursion_iff.mp hcompile⟩
              | ok rule =>
                  rw [hcompile] at hrule
                  cases hrule
            · cases hrule
        · cases hrest
  | _ =>
      cases h
      exact Or.inl rfl

theorem prepareRules_error {seen : List String} {rules : List Json} {e : FilterError}
    (h : prepareRules limit seen rules = .error e) :
    e.isCaught = true ∨ NestedRule limit seen rules := by
  induction rules generalizing seen with
  | nil => cases h
  | cons value rules ih =>
      rw [prepareRules] at h
      rcases Fallible.bind_eq_error h with hfirst | ⟨⟨ruleId, first⟩, hfirst, h⟩
      · rcases prepareRecord_error hfirst
          with hcaught | ⟨-, fields, head, rfl, hhead, henabled, hdeep⟩
        · exact Or.inl hcaught
        · exact Or.inr (.here hhead henabled hdeep)
      · rcases Fallible.bind_eq_error h with hothers | ⟨others, -, h⟩
        · exact (ih hothers).imp_right (.later hfirst)
        · cases h

theorem prepareRules_of_nested {seen : List String} {rules : List Json}
    (h : NestedRule limit seen rules) :
    prepareRules limit seen rules = .error (.rule .recursion) := by
  induction h with
  | here hhead henabled hdeep =>
      rw [prepareRules, prepareRecord, hhead, Fallible.ok_bind, if_pos henabled,
        compileRecord_eq_recursion_iff.mpr hdeep]
      rfl
  | later hfirst _ ih =>
      rw [prepareRules, hfirst, Fallible.ok_bind]
      dsimp only
      rw [ih]
      rfl

theorem evaluateRules_error {rules : List Json} {e : FilterError}
    (h : evaluateRules env rules message = .error e) :
    e.isCaught = true ∨ NestedRule env.reprLimit [] rules := by
  unfold evaluateRules at h
  split at h
  · cases h
    exact Or.inl rfl
  rcases Fallible.bind_eq_error h with hprepared | ⟨prepared, -, h⟩
  · exact prepareRules_error hprepared
  · split at h
    · split at h
      · cases h
      · cases h
    · cases h
      exact Or.inl rfl

theorem evaluateRules_of_nested {rules : List Json} (hfew : rules.length ≤ 100)
    (h : NestedRule env.reprLimit [] rules) :
    evaluateRules env rules message = .error (.rule .recursion) := by
  unfold evaluateRules
  rw [if_neg (Nat.not_lt.mpr hfew), prepareRules_of_nested h]
  rfl

/-! ## Answers -/

/-- One line of at most 1024 bytes that names an enabled rule. -/
def IsAnswer (env : SnapshotEnv) (disk : Disk) (account : String) (response : Bytes) : Prop :=
  response = [] ∨ ∃ target, response = utf8 target.toList ++ [0x0A] ∧ utf8 target.toList ≠ [] ∧
    (utf8 target.toList).length ≤ 1024 ∧ 0x0A ∉ utf8 target.toList ∧
    NamesEnabledRule env disk account target

theorem not_mem_utf8 {target : String} (h : IsTarget target) {b : UInt8} (hb : b.toNat < 0x20) :
    b ∉ utf8 target.toList := by
  intro hmem
  obtain ⟨c, hc, hvalue⟩ := mem_of_mem_utf8 hmem (by omega)
  have hsafe := h.safe c hc
  unfold isUnsafe at hsafe
  simp at hsafe
  omega

theorem renderFilterTarget_some {target : String} (h : IsTarget target) :
    renderFilterTarget (some target) = utf8 target.toList ++ [0x0A] := by
  unfold renderFilterTarget
  dsimp only
  rw [if_neg]
  rw [length_utf8]
  rintro (hnil | hnewline | hreturn | hlong)
  · exact utf8_ne_nil h.nonempty hnil
  · exact not_mem_utf8 h (by decide) hnewline
  · exact not_mem_utf8 h (by decide) hreturn
  · have hbounded := h.bounded
    omega

theorem evaluateFilterMessage_some {target : String}
    (hcanonical : canonicalizeEmail account = some account)
    (h : evaluateFilterMessage env disk account message = .ok (some target)) :
    IsTarget target ∧ NamesEnabledRule env.toSnapshotEnv disk account target := by
  unfold evaluateFilterMessage at h
  rw [hcanonical] at h
  dsimp only at h
  split at h
  · split at h
    · cases h
    · cases h
    · next rules hload =>
        obtain ⟨htarget, hfields⟩ := evaluateRules_some h
        exact ⟨htarget, rules, hload, hfields⟩
  · cases h

section Answer

variable {mailbox domain : List Char}

/-- The request is evaluated over the snapshot that was loaded. -/
theorem evaluateFilterMessage_of_canonical (h : IsCanonical account.toList mailbox domain)
    (hnonempty : 1 ≤ message.length) (hbounded : message.length ≤ maxFilterMessageBytes) :
    evaluateFilterMessage env disk account message =
      match loadSnapshot env.toSnapshotEnv disk account with
      | .error e => .error (.snapshot e)
      | .ok none => .ok none
      | .ok (some rules) => evaluateRules env rules message := by
  unfold evaluateFilterMessage
  rw [canonicalizeEmail_of_canonical h]
  exact if_pos ⟨hnonempty, hbounded⟩

theorem answer_of_uncaught {e : FilterError}
    (h : evaluateFilterMessage env disk account message = .error e) (he : e.isCaught = false) :
    answer env disk account message = .error e := by
  unfold answer
  rw [h]
  dsimp only
  rw [he]
  rfl

theorem answer_of_caught {e : FilterError}
    (h : evaluateFilterMessage env disk account message = .error e) (he : e.isCaught = true) :
    answer env disk account message = .ok [] := by
  unfold answer
  rw [h]
  dsimp only
  rw [if_pos he]

/-- An evaluation that raises nothing, or what is caught, names an enabled rule or nothing. -/
theorem isAnswer_answer (h : IsCanonical account.toList mailbox domain)
    (hcaught : ∀ e, evaluateFilterMessage env disk account message = .error e → e.isCaught = true) :
    ∃ response, answer env disk account message = .ok response ∧
      IsAnswer env.toSnapshotEnv disk account response := by
  cases hevaluate : evaluateFilterMessage env disk account message with
  | error e => exact ⟨[], answer_of_caught hevaluate (hcaught e hevaluate), Or.inl rfl⟩
  | ok target =>
      refine ⟨renderFilterTarget target, ?_, ?_⟩
      · unfold answer
        rw [hevaluate]
      · cases target with
        | none => exact Or.inl rfl
        | some target =>
            obtain ⟨htarget, hnames⟩ :=
              evaluateFilterMessage_some (canonicalizeEmail_of_canonical h) hevaluate
            refine Or.inr ⟨target, renderFilterTarget_some htarget, utf8_ne_nil htarget.nonempty,
              ?_, not_mem_utf8 htarget (by decide), hnames⟩
            rw [length_utf8]
            exact htarget.bounded

/-- An evaluation returns an answer exactly if the snapshot is sound. -/
theorem answer_cases (h : IsCanonical account.toList mailbox domain)
    (hnonempty : 1 ≤ message.length) (hbounded : message.length ≤ maxFilterMessageBytes) :
    (SoundSnapshot env disk account ∧ ∃ response,
      answer env disk account message = .ok response ∧
        IsAnswer env.toSnapshotEnv disk account response) ∨
    (¬ SoundSnapshot env disk account ∧ ∃ e, answer env disk account message = .error e) := by
  have hevaluate :=
    @evaluateFilterMessage_of_canonical account message env disk _ _ h hnonempty hbounded
  rcases loadSnapshot_of_canonical h env disk with ⟨hsound, hload⟩ |
    ⟨rules, hsound, hfew, hload⟩ | ⟨hbroken, e, hload, hcaught⟩
  · rw [hload] at hevaluate
    refine Or.inl ⟨hsound, isAnswer_answer h ?_⟩
    intro e herror
    rw [hevaluate] at herror
    cases herror
  · rw [hload] at hevaluate
    by_cases hnested : NestedRule env.reprLimit [] rules
    · refine Or.inr ⟨fun hs => hsound.mp hs hnested, .rule .recursion, ?_⟩
      exact answer_of_uncaught (hevaluate.trans (evaluateRules_of_nested hfew hnested)) rfl
    · refine Or.inl ⟨hsound.mpr hnested, isAnswer_answer h ?_⟩
      intro e herror
      rw [hevaluate] at herror
      exact (evaluateRules_error herror).resolve_right hnested
  · rw [hload] at hevaluate
    exact Or.inr ⟨hbroken, .snapshot e, answer_of_uncaught hevaluate hcaught⟩

end Answer

/-! ## The bridge fails closed -/

/-- For every payload, in every chunking and with every failure of the transport: the answer is
empty or names an enabled rule, and neither entrance raises, exactly if a request finds a sound
snapshot. -/
theorem bridge_fails_closed_iff (env : FilterEnv) (disk : Disk) (token : String) (payload : Bytes) :
    ((∃ response, evaluateBridgePayload env disk token payload = .ok response ∧
        (response = [] ∨ ∃ account line message, Accepts token payload account line message ∧
          IsAnswer env.toSnapshotEnv disk account response)) ∧
      ∀ connection : Connection, connection.pending = payload →
        ∃ response, handle env disk token connection = .ok response) ↔
    ∀ account line message, Accepts token payload account line message →
      SoundSnapshot env disk account := by
  constructor
  · rintro ⟨-, hhandle⟩ account line message haccepts
    obtain ⟨mailbox, domain, hcanonical⟩ := canonical_of_authenticatedAccount haccepts.authenticated
    rcases @answer_cases account message env disk mailbox domain hcanonical haccepts.nonempty
      haccepts.bounded with ⟨hsound, -⟩ | ⟨-, e, herror⟩
    · exact hsound
    · obtain ⟨response, hresponse⟩ := hhandle ⟨payload, fun _ => .ok 0, 0⟩ rfl
      rw [handle_of_accepts (fun n => ⟨0, rfl⟩) haccepts, herror] at hresponse
      cases hresponse
  · intro hsound
    have hanswer : ∀ account line message, Accepts token payload account line message →
        ∃ response, answer env disk account message = .ok response ∧
          IsAnswer env.toSnapshotEnv disk account response := by
      intro account line message haccepts
      obtain ⟨mailbox, domain, hcanonical⟩ :=
        canonical_of_authenticatedAccount haccepts.authenticated
      rcases @answer_cases account message env disk mailbox domain hcanonical haccepts.nonempty
        haccepts.bounded with ⟨-, hresponse⟩ | ⟨hbroken, -⟩
      · exact hresponse
      · exact absurd (hsound account line message haccepts) hbroken
    constructor
    · rcases evaluateBridgePayload_cases env disk token payload with hempty |
        ⟨account, line, message, haccepts, heq⟩
      · exact ⟨[], hempty, Or.inl rfl⟩
      · obtain ⟨response, hresponse, hisAnswer⟩ := hanswer account line message haccepts
        exact ⟨response, heq.trans hresponse, Or.inr ⟨account, line, message, haccepts, hisAnswer⟩⟩
    · rintro connection rfl
      rcases handle_cases env disk token connection
        with hempty | ⟨account, line, message, haccepts, heq⟩
      · exact ⟨[], hempty⟩
      · obtain ⟨response, hresponse, -⟩ := hanswer account line message haccepts
        exact ⟨response, heq.trans hresponse⟩

/-- The bytes of the snapshot file are an empty object. -/
def emptyDocumentEnv : FilterEnv where
  sha256 _ := String.ofList (List.replicate 64 'a')
  loads data := if data = [0x7B, 0x7D] then .value (.obj []) else .invalid
  casefold text := text
  parseRuleMessage _ := none
  reprLimit _ _ := 1000

def emptyDocumentDisk : Disk :=
  [(String.ofList (List.replicate 64 'a') ++ ".json", ⟨true, 1, 0o640, [0x7B, 0x7D]⟩)]

def sampleToken : String := String.ofList (List.replicate 64 '0')

theorem bridge_raises_on_empty_document : ¬ ∃ response,
    evaluateBridgePayload emptyDocumentEnv emptyDocumentDisk sampleToken
      (requestHeader sampleToken "alice@example.org" ++ [0x78]) = .ok response := by
  have hraises : evaluateBridgePayload emptyDocumentEnv emptyDocumentDisk sampleToken
      (requestHeader sampleToken "alice@example.org" ++ [0x78]) =
        .error (.snapshot (.snapshot "rule snapshot document is invalid")) := by decide +kernel
  rintro ⟨response, hresponse⟩
  rw [hraises] at hresponse
  cases hresponse

end MaddyWeb.Rules
