import MaddyWeb.Helper.Request
import MaddyWeb.Identity

/-!
# The audit log of the helper

`redact_for_audit` hides what stands under a sensitive name, and `record` writes
one line of JSON.  Two sets of fields that differ only in hidden values have the
same line.
-/

namespace MaddyWeb.Helper.Audit

open MaddyWeb.Library MaddyWeb.Library.Text

/-- `str.lower`, and the letter that `re.IGNORECASE` compares a character by. -/
structure TextRules where
  lower : List Char → List Char
  fold : Char → Char
  lower_ascii : ∀ text : List Char, (∀ c ∈ text, c.isLower = true) → lower text = text

/-- `_SENSITIVE_KEYS` -/
def sensitiveKeys : List String :=
  ["password", "secret", "token", "key", "private_key", "body", "raw", "content", "message",
    "attachment", "authorization", "challenge", "code", "credential", "condition", "expression",
    "match", "rule_snapshot", "state"]

variable (rules : TextRules)

/-- `key.lower().replace("-", "_")` -/
def normalizedKey (key : String) : List Char :=
  (rules.lower key.toList).map fun c => if c == '-' then '_' else c

def isSensitive (key : String) : Bool :=
  sensitiveKeys.any fun secret => hasSubstring secret.toList (normalizedKey rules key)

def longestText : Nat := 256

mutual

/-- `redact_for_audit`, for JSON values -/
def redactForAudit (key : String) (value : Json) : Json :=
  if isSensitive rules key then .str "[REDACTED]"
  else
    match value with
    | .obj fields => .obj (redactFields fields)
    | .arr items => .arr (redactItems key items)
    | .str text =>
        if longestText < text.length then .obj [("characters", .int text.length)] else .str text
    | other => other

def redactItems (key : String) : List Json → List Json
  | [] => []
  | item :: items => redactForAudit key item :: redactItems key items

def redactFields : List (String × Json) → List (String × Json)
  | [] => []
  | (name, item) :: fields => (name, redactForAudit name item) :: redactFields fields

end

/-! ## The line of a record -/

def sensitiveWords : List String :=
  ["password", "secret", "token", "body", "raw", "attachment", "private_key", "session_key"]

/-- `(?:_|$)` -/
def closesName : List Char → Bool
  | [] => true
  | c :: rest => rules.fold c == '_' || (c == '\n' && rest.isEmpty)

def startsWithWord (text : List Char) : Bool :=
  sensitiveWords.any fun word =>
    (text.take word.length).map rules.fold == word.toList &&
      closesName rules (text.drop word.length)

def hasWordBehind : List Char → Bool
  | [] => false
  | c :: rest => (rules.fold c == '_' && startsWithWord rules rest) || hasWordBehind rest

/-- `_SENSITIVE_NAME.search` -/
def isSensitiveName (name : String) : Bool :=
  startsWithWord rules name.toList || hasWordBehind rules name.toList

def deepest : Nat := 8

mutual

/-- `_safe_value` -/
def safeValue (depth : Nat) (value : Json) : Json :=
  if deepest ≤ depth then .str "[TRUNCATED]"
  else
    match value with
    | .obj fields => .obj (safeFields (depth + 1) fields)
    | .arr items => .arr (safeItems (depth + 1) items)
    | other => other

def safeItems (depth : Nat) : List Json → List Json
  | [] => []
  | item :: items => safeValue depth item :: safeItems depth items

def safeFields (depth : Nat) : List (String × Json) → List (String × Json)
  | [] => []
  | (name, item) :: fields =>
      (name, if isSensitiveName rules name then .str "[REDACTED]" else safeValue depth item) ::
        safeFields depth fields

end

/-- `record` -/
def record (time action outcome : String) (fields : Json) : List Char :=
  Json.render true (.obj [("time", .str time), ("action", .str action), ("outcome", .str outcome),
    ("fields", safeValue rules 0 fields)])

/-- `_default_audit` -/
def defaultAudit (time action outcome : String) (fields : Params) : List Char :=
  record rules time action outcome (redactForAudit rules "" (.obj fields))

/-! ## What a line may depend on -/

mutual

/-- The value with everything blanked that is hidden, too long or too deep. -/
def visible (key : String) (depth : Nat) (value : Json) : Json :=
  if isSensitive rules key || deepest ≤ depth then .null
  else
    match value with
    | .obj fields => .obj (visibleFields (depth + 1) fields)
    | .arr items => .arr (visibleItems key (depth + 1) items)
    | .str text =>
        if longestText < text.length then .str (String.ofList (List.replicate text.length ' '))
        else .str text
    | other => other

def visibleItems (key : String) (depth : Nat) : List Json → List Json
  | [] => []
  | item :: items => visible key depth item :: visibleItems key depth items

def visibleFields (depth : Nat) : List (String × Json) → List (String × Json)
  | [] => []
  | (name, item) :: fields =>
      (name, if isSensitiveName rules name then .null else visible name depth item) ::
        visibleFields depth fields

end

variable {rules}

theorem redactForAudit_of_sensitive {key : String} (h : isSensitive rules key = true)
    (value : Json) :
    redactForAudit rules key value = .str "[REDACTED]" := by
  cases value <;> simp [redactForAudit, h]

theorem redactForAudit_obj {key : String} (h : isSensitive rules key = false) (fields : Params) :
    redactForAudit rules key (.obj fields) = .obj (redactFields rules fields) := by
  simp [redactForAudit, h]

theorem safeValue_of_deep {depth : Nat} (h : deepest ≤ depth) (value : Json) :
    safeValue rules depth value = .str "[TRUNCATED]" := by
  cases value <;> simp [safeValue, h]

theorem not_isSensitive_characters : isSensitive rules "characters" = false := by
  have hlower : normalizedKey rules "characters" = "characters".toList := by
    unfold normalizedKey
    rw [rules.lower_ascii _ (List.all_iff_forall_prop.mp (by decide))]
    decide
  unfold isSensitive
  rw [hlower]
  decide

mutual

/-- A second redaction finds nothing to hide. -/
theorem redactForAudit_redactForAudit (key : String) : ∀ value : Json,
    redactForAudit rules key (redactForAudit rules key value) = redactForAudit rules key value := by
  intro value
  by_cases hkey : isSensitive rules key = true
  · rw [redactForAudit_of_sensitive hkey, redactForAudit_of_sensitive hkey]
  · match value with
    | .null | .bool _ | .int _ | .float _ => simp [redactForAudit, hkey]
    | .str text =>
        by_cases hlong : longestText < text.length
        · simp [redactForAudit, redactFields, hkey, hlong, not_isSensitive_characters]
        · simp [redactForAudit, hkey, hlong]
    | .arr items => simp [redactForAudit, hkey, redactItems_redactItems key items]
    | .obj fields => simp [redactForAudit, hkey, redactFields_redactFields fields]

theorem redactItems_redactItems (key : String) : ∀ items : List Json,
    redactItems rules key (redactItems rules key items) = redactItems rules key items
  | [] => rfl
  | item :: items => by
      rw [redactItems, redactItems, redactForAudit_redactForAudit key item,
        redactItems_redactItems key items]

theorem redactFields_redactFields : ∀ fields : List (String × Json),
    redactFields rules (redactFields rules fields) = redactFields rules fields
  | [] => rfl
  | (name, item) :: fields => by
      rw [redactFields, redactFields, redactForAudit_redactForAudit name item,
        redactFields_redactFields fields]

end

mutual

/-- The written value is a function of the visible one. -/
theorem safeValue_visible (key : String) (depth : Nat) : ∀ value : Json,
    safeValue rules depth (redactForAudit rules key (visible rules key depth value)) =
      safeValue rules depth (redactForAudit rules key value) := by
  intro value
  by_cases hdeep : deepest ≤ depth
  · rw [safeValue_of_deep hdeep, safeValue_of_deep hdeep]
  by_cases hkey : isSensitive rules key = true
  · rw [redactForAudit_of_sensitive hkey, redactForAudit_of_sensitive hkey]
  match value with
  | .null | .bool _ | .int _ | .float _ => simp [visible, hkey, hdeep]
  | .str text =>
      by_cases hlong : longestText < text.length
      · simp [visible, redactForAudit, hkey, hdeep, hlong]
      · simp [visible, hkey, hdeep, hlong]
  | .arr items =>
      simp [visible, redactForAudit, safeValue, hkey, hdeep,
        safeItems_visible key (depth + 1) items]
  | .obj fields =>
      simp [visible, redactForAudit, safeValue, hkey, hdeep, safeFields_visible (depth + 1) fields]

theorem safeItems_visible (key : String) (depth : Nat) : ∀ items : List Json,
    safeItems rules depth (redactItems rules key (visibleItems rules key depth items)) =
      safeItems rules depth (redactItems rules key items)
  | [] => rfl
  | item :: items => by
      simp only [visibleItems, redactItems, safeItems]
      rw [safeValue_visible key depth item, safeItems_visible key depth items]

theorem safeFields_visible (depth : Nat) : ∀ fields : List (String × Json),
    safeFields rules depth (redactFields rules (visibleFields rules depth fields)) =
      safeFields rules depth (redactFields rules fields)
  | [] => rfl
  | (name, item) :: fields => by
      simp only [visibleFields, redactFields, safeFields]
      rw [safeFields_visible depth fields]
      by_cases hname : isSensitiveName rules name = true
      · rw [if_pos hname, if_pos hname]
      · rw [if_neg hname, if_neg hname, if_neg hname, safeValue_visible name depth item]

end

theorem safeFields_append (depth : Nat) (fields fields' : List (String × Json)) :
    safeFields rules depth (fields ++ fields') =
      safeFields rules depth fields ++ safeFields rules depth fields' := by
  induction fields with
  | nil => rfl
  | cons field fields ih => rw [List.cons_append, safeFields, ih, safeFields, List.cons_append]

theorem redactFields_append (fields fields' : List (String × Json)) :
    redactFields rules (fields ++ fields') =
      redactFields rules fields ++ redactFields rules fields' := by
  induction fields with
  | nil => rfl
  | cons field fields ih => rw [List.cons_append, redactFields, ih, redactFields, List.cons_append]

theorem not_isSensitive_empty : isSensitive rules "" = false := by
  have hlower : normalizedKey rules "" = [] := by
    unfold normalizedKey
    rw [rules.lower_ascii _ (List.all_iff_forall_prop.mp rfl)]
    rfl
  unfold isSensitive
  rw [hlower]
  decide

/-- `dispatch` redacts the parameters itself, and the log redacts them again. -/
theorem redactForAudit_params (key : String) (params : Params) :
    redactForAudit rules key (redactForAudit rules "" (.obj params)) =
      redactForAudit rules key (.obj params) := by
  rw [redactForAudit_obj not_isSensitive_empty]
  cases hkey : isSensitive rules key with
  | true => rw [redactForAudit_of_sensitive hkey, redactForAudit_of_sensitive hkey]
  | false =>
      rw [redactForAudit_obj hkey, redactForAudit_obj hkey, redactFields_redactFields params]

/-- Requests whose parameters look the same leave the same line in the log. -/
theorem audit_line_hides (rules : TextRules) (time action outcome : String)
    (before after params params' : Params)
    (h : visible rules "params" 1 (.obj params) = visible rules "params" 1 (.obj params')) :
    defaultAudit rules time action outcome
        (before ++ ("params", redactForAudit rules "" (.obj params)) :: after) =
      defaultAudit rules time action outcome
        (before ++ ("params", redactForAudit rules "" (.obj params')) :: after) := by
  have hwritten : safeValue rules 1 (redactForAudit rules "params" (.obj params)) =
      safeValue rules 1 (redactForAudit rules "params" (.obj params')) := by
    rw [← safeValue_visible "params" 1 (.obj params), h, safeValue_visible]
  have hline : ∀ value : Params,
      safeValue rules 0 (redactForAudit rules "" (.obj
        (before ++ ("params", redactForAudit rules "" (.obj value)) :: after))) =
      .obj (safeFields rules 1 (redactFields rules before) ++
        ("params", if isSensitiveName rules "params" then .str "[REDACTED]"
          else safeValue rules 1 (redactForAudit rules "params" (.obj value))) ::
        safeFields rules 1 (redactFields rules after)) := by
    intro value
    rw [redactForAudit_obj not_isSensitive_empty, redactFields_append, redactFields,
      redactForAudit_params, safeValue, if_neg (by decide), safeFields_append, safeFields]
  unfold defaultAudit record
  rw [hline params, hline params', hwritten]

theorem asciiLower_eq_self {text : List Char} (h : ∀ c ∈ text, c.isLower = true) :
    asciiLower text = text := by
  rw [Identity.asciiLower_eq]
  conv_rhs => rw [← List.map_id text]
  apply List.map_congr_left
  intro c hc
  rcases Identity.lowerChar_cases c with ⟨-, hhigh, -⟩ | hsame
  · have hlower : c.isLower = true := h c hc
    delta Char.isLower at hlower
    rw [Bool.and_eq_true, decide_eq_true_eq] at hlower
    have hlow : 0x61 ≤ c.toNat := hlower.1
    omega
  · exact hsame

/-- Letters of ASCII alone. -/
def asciiRules : TextRules where
  lower := asciiLower
  fold := Identity.lowerChar
  lower_ascii _ := asciiLower_eq_self

def loginParams (password : String) : Params :=
  [("email", .str "ann@example.org"), ("password", .str password),
    ("forms", .arr [.obj [("recovery-code", .str password)]])]

theorem audit_line_hides_password :
    visible asciiRules "params" 1 (.obj (loginParams "hunter2")) =
        visible asciiRules "params" 1 (.obj (loginParams "correct horse")) ∧
      defaultAudit asciiRules "" "helper.operation" "ok"
          [("operation", .str "auth.password_begin"),
            ("params", redactForAudit asciiRules "" (.obj (loginParams "hunter2")))] =
        defaultAudit asciiRules "" "helper.operation" "ok"
          [("operation", .str "auth.password_begin"),
            ("params", redactForAudit asciiRules "" (.obj (loginParams "correct horse")))] := by
  have hsame : visible asciiRules "params" 1 (.obj (loginParams "hunter2")) =
      visible asciiRules "params" 1 (.obj (loginParams "correct horse")) := by rfl
  exact ⟨hsame, audit_line_hides asciiRules _ _ _ [_] [] _ _ hsame⟩

end MaddyWeb.Helper.Audit
