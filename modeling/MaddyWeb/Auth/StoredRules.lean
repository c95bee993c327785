import MaddyWeb.Auth.RuleOrder
import MaddyWeb.Library.Fallible

/-!
# The rules that a store holds

What a run of the store leaves in the rule table: rows that can be read back, and for
every account positions that start at zero and have no gaps.
-/

namespace MaddyWeb.Auth

open MaddyWeb.Library MaddyWeb.Library.Text

variable {db db' : Db} {env : Env} {a : String} {ids : List String} {P : RuleFields → Prop}

/-! ## Rows that can be read back -/

/-- The values of a row pass the validation of `_mail_rule_from_row`. -/
structure FieldsDecode (env : Env) (fields : RuleFields) : Prop where
  name : normalizeMailRuleName (.str fields.name) = .ok fields.name
  expression : ∃ value, jsonObjectFromDatabase env fields.expressionJson "mail rule expression" =
    .ok value
  target : normalizeMailboxMetadata (.str fields.targetMailbox) = .ok fields.targetMailbox

/-- A row with valid keys, and values that `P` describes. -/
structure Stored (P : RuleFields → Prop) (row : MailRuleRow) : Prop where
  ruleHex : isHex32 row.ruleId = true
  accountHex : isHex32 row.accountId = true
  fields : P row.fields

/-- The expression that an operation stores. -/
def Op.expression : Op → Option Json
  | .mailRules (.createMailRule _ _ _ expression _ _) => some expression
  | .mailRules (.createMailRuleWithRun _ _ _ expression _ _ _ _) => some expression
  | .mailRules (.updateMailRule _ _ _ _ _ expression _ _) => some expression
  | _ => none

/-- `json.loads` inverts `json.dumps` on the expression of the operation. -/
def Op.LoadsBack (env : Env) (op : Op) : Prop :=
  ∀ value ∈ op.expression, env.loads (value.sortKeys.render false) = some value.sortKeys

theorem normalizeMailRuleName_idem {value : Json} {name : String}
    (h : normalizeMailRuleName value = .ok name) :
    normalizeMailRuleName (.str name) = .ok name := by
  unfold normalizeMailRuleName at h
  split at h
  · next text =>
      dsimp only at h
      split at h
      · next hvalid =>
          cases h
          unfold normalizeMailRuleName
          dsimp only
          rw [String.toList_ofList, strStrip_strStrip]
          exact if_pos hvalid
      · cases h
  · cases h

theorem normalizeMailboxMetadata_idem {value : Json} {target : String}
    (h : normalizeMailboxMetadata value = .ok target) :
    normalizeMailboxMetadata (.str target) = .ok target := by
  unfold normalizeMailboxMetadata at h
  split at h
  · next text =>
      split at h
      · next hvalid =>
          cases h
          unfold normalizeMailboxMetadata
          dsimp only
          rw [if_pos hvalid]
      · cases h
  · cases h

theorem canonicalJsonObject_decodes {value : Json} {name text : String} {maximum : Nat}
    (h : canonicalJsonObject value name maximum = .ok text)
    (hloads : env.loads (value.sortKeys.render false) = some value.sortKeys) (label : String) :
    jsonObjectFromDatabase env text label = .ok value.sortKeys := by
  unfold canonicalJsonObject at h
  split at h
  · next fields =>
      dsimp only at h
      split at h
      · cases h
        unfold jsonObjectFromDatabase
        rw [String.toList_ofList, hloads]
        rfl
      · cases h
  · cases h

/-- What the validation of a request lets through. -/
theorem validateRuleFields_eq_ok {name enabled expression target stop : Json} {fields : RuleFields}
    (h : validateRuleFields name enabled expression target stop = .ok fields) :
    normalizeMailRuleName name = .ok fields.name ∧
      coerceBool "enabled" enabled = .ok fields.enabled ∧
      canonicalJsonObject expression "mail rule expression" maxMailRuleExpressionBytes =
        .ok fields.expressionJson ∧
      normalizeMailboxMetadata target = .ok fields.targetMailbox ∧
      coerceBool "stop_processing" stop = .ok fields.stopProcessing := by
  unfold validateRuleFields at h
  obtain ⟨name', hname, h⟩ := Fallible.bind_eq_ok h
  obtain ⟨enabled', henabled, h⟩ := Fallible.bind_eq_ok h
  obtain ⟨expressionJson, hexpression, h⟩ := Fallible.bind_eq_ok h
  obtain ⟨target', htarget, h⟩ := Fallible.bind_eq_ok h
  obtain ⟨stop', hstop, h⟩ := Fallible.bind_eq_ok h
  cases h
  exact ⟨hname, henabled, hexpression, htarget, hstop⟩

theorem fieldsDecode_of_validate {name enabled expression target stop : Json} {fields : RuleFields}
    (h : validateRuleFields name enabled expression target stop = .ok fields)
    (hloads : env.loads (expression.sortKeys.render false) = some expression.sortKeys) :
    FieldsDecode env fields := by
  obtain ⟨hname, -, hexpression, htarget, -⟩ := validateRuleFields_eq_ok h
  exact ⟨normalizeMailRuleName_idem hname,
    ⟨_, canonicalJsonObject_decodes hexpression hloads _⟩, normalizeMailboxMetadata_idem htarget⟩

theorem Op.LoadsBack.decodes {op : Op} (h : op.LoadsBack env) {fields : RuleFields}
    (hwrites : op.Writes fields) : FieldsDecode env fields := by
  cases op with
  | mailRules op =>
      cases op with
      | createMailRule id name enabled expression target stop =>
          exact fieldsDecode_of_validate hwrites (h expression rfl)
      | createMailRuleWithRun id name enabled expression target stop state completed =>
          exact fieldsDecode_of_validate hwrites (h expression rfl)
      | updateMailRule id ruleId revision name enabled expression target stop =>
          exact fieldsDecode_of_validate hwrites (h expression rfl)
      | _ => cases hwrites
  | _ => cases hwrites

/-- A stored row is read back with its keys and its place. -/
theorem Stored.decode {row : MailRuleRow} (h : Stored (FieldsDecode env) row) :
    ∃ record, mailRuleFromRow env row = .ok record ∧ record.ruleId = row.ruleId := by
  obtain ⟨value, hvalue⟩ := h.fields.expression
  have hid : validateMailRuleId row.ruleId = .ok row.ruleId := if_pos h.ruleHex
  have hrow : mailRuleFromRow env row = .ok ⟨row.ruleId, row.accountId, row.name, row.enabled,
      row.position, value, row.targetMailbox, row.stopProcessing, row.revision, row.createdAt,
      row.updatedAt⟩ := by
    unfold mailRuleFromRow
    have hname := h.fields.name
    have htarget := h.fields.target
    unfold MailRuleRow.fields at hname hvalue htarget
    rw [hid, h.accountHex, hname, hvalue, htarget]
    rfl
  exact ⟨_, hrow, rfl⟩

/-! ## Every call -/

/-- The rule table of a run. -/
structure RulesInv (P : RuleFields → Prop) (db : Db) : Prop where
  stored : ∀ row ∈ db.mailRules, Stored P row
  ordered : RulesOrdered db.mailRules

theorem RulesInv.congr (h : RulesInv P db) (hrules : db'.mailRules = db.mailRules) :
    RulesInv P db' := by
  constructor
  · rw [hrules]
    exact h.stored
  · rw [hrules]
    exact h.ordered

theorem le_nextPosition_foldl (rows : List MailRuleRow) (next : Nat) :
    next ≤ rows.foldl (fun next row => max next (row.position + 1)) next := by
  induction rows generalizing next with
  | nil => exact Nat.le_refl _
  | cons row rows ih => exact Nat.le_trans (Nat.le_max_left _ _) (ih _)

theorem nextPosition_foldl_le {rows : List MailRuleRow} {bound : Nat}
    (h : ∀ row ∈ rows, row.position < bound) {next : Nat} (hnext : next ≤ bound) :
    rows.foldl (fun next row => max next (row.position + 1)) next ≤ bound := by
  induction rows generalizing next with
  | nil => exact hnext
  | cons row rows ih =>
      apply ih fun row hrow => h row (List.mem_cons_of_mem _ hrow)
      exact Nat.max_le.mpr ⟨hnext, h row List.mem_cons_self⟩

theorem lt_nextPosition_foldl {rows : List MailRuleRow} {row : MailRuleRow} (hrow : row ∈ rows)
    (next : Nat) :
    row.position < rows.foldl (fun next row => max next (row.position + 1)) next := by
  induction rows generalizing next with
  | nil => cases hrow
  | cons other rows ih =>
      rcases List.mem_cons.mp hrow with rfl | hrow
      · exact Nat.lt_of_lt_of_le (Nat.lt_of_lt_of_le (Nat.lt_succ_self _) (Nat.le_max_right _ _))
          (le_nextPosition_foldl rows _)
      · exact ih hrow _

/-- The next position of `n` rules is `n`. -/
theorem nextPosition_eq_length {rows : List MailRuleRow}
    (h : (rows.map (·.position)).Perm (List.range rows.length)) :
    nextPosition rows = rows.length := by
  unfold nextPosition
  apply Nat.le_antisymm
  · apply nextPosition_foldl_le _ (Nat.zero_le _)
    intro row hrow
    exact List.mem_range.mp (h.mem_iff.mp (List.mem_map_of_mem hrow))
  · cases hlength : rows.length with
    | zero => exact Nat.zero_le _
    | succ n =>
        have hmem : n ∈ rows.map (·.position) := by
          rw [h.mem_iff, hlength, List.mem_range]
          exact Nat.lt_succ_self n
        obtain ⟨row, hrow, rfl⟩ := List.mem_map.mp hmem
        exact lt_nextPosition_foldl hrow 0

theorem RulesOrdered.append (h : RulesOrdered db.mailRules) {row : MailRuleRow}
    (hrow : Appended db row) : RulesOrdered (db.mailRules ++ [row]) := by
  have hposition : row.position = (db.rulesOf row.accountId).length :=
    hrow.position.trans (nextPosition_eq_length (h.positions row.accountId))
  have hmine : (db.mailRules ++ [row]).filter (·.accountId == row.accountId) =
      db.rulesOf row.accountId ++ [row] := by
    rw [List.filter_append, List.filter_singleton, beq_self_eq_true]
    rfl
  have hothers : ∀ b, b ≠ row.accountId → (db.mailRules ++ [row]).filter (·.accountId == b) =
      db.mailRules.filter (·.accountId == b) := by
    intro b hb
    have hfalse : (row.accountId == b) = false := by simpa using Ne.symm hb
    rw [List.filter_append, List.filter_singleton, hfalse]
    exact List.append_nil _
  refine ⟨?_, ?_, ?_⟩
  · have hnodup := h.ids.concat hrow.fresh
    simpa using hnodup
  · intro b
    by_cases hb : b = row.accountId
    · rw [hb, hmine, List.map_append, List.length_append, List.length_singleton, List.range_succ,
        List.map_singleton, hposition]
      exact (h.positions row.accountId).append_right _
    · rw [hothers b hb]
      exact h.positions b
  · intro b
    by_cases hb : b = row.accountId
    · rw [hb, hmine, List.length_append]
      exact hrow.room
    · rw [hothers b hb]
      exact h.room b

theorem RulesOrdered.map {rows : List MailRuleRow} (h : RulesOrdered rows)
    {set : MailRuleRow → MailRuleRow}
    (hset : ∀ row, (set row).ruleId = row.ruleId ∧ (set row).accountId = row.accountId ∧
      (set row).position = row.position) : RulesOrdered (rows.map set) := by
  have hfilter : ∀ b, (rows.map set).filter (·.accountId == b) =
      (rows.filter (·.accountId == b)).map set :=
    fun b => filter_map_account (fun row _ => (hset row).2.1) b
  have hkeys : ∀ {β : Type} (key : MailRuleRow → β) (rows : List MailRuleRow),
      (∀ row, key (set row) = key row) → (rows.map set).map key = rows.map key := by
    intro β key rows hkey
    rw [List.map_map]
    exact List.map_congr_left fun row _ => hkey row
  refine ⟨?_, ?_, ?_⟩
  · rw [hkeys _ _ fun row => (hset row).1]
    exact h.ids
  · intro b
    rw [hfilter, hkeys _ _ fun row => (hset row).2.2, List.length_map]
    exact h.positions b
  · intro b
    rw [hfilter, List.length_map]
    exact h.room b

/-- All rules of one account go. -/
theorem RulesOrdered.deleteAccount {rows : List MailRuleRow} (h : RulesOrdered rows) (a : String) :
    RulesOrdered (rows.filter fun row => !(row.accountId == a)) := by
  have hfilter : ∀ b, ((rows.filter fun row => !(row.accountId == a)).filter (·.accountId == b)) =
      if b = a then [] else rows.filter (·.accountId == b) := by
    intro b
    rw [List.filter_filter]
    split
    · next hb =>
        rw [List.filter_eq_nil_iff]
        intro row _
        simp [hb]
    · next hb =>
        apply List.filter_congr
        intro row _
        by_cases hrow : row.accountId = b
        · simp [hrow, hb]
        · simp [hrow]
  refine ⟨h.ids.sublist (List.filter_sublist.map _), ?_, ?_⟩
  · intro b
    rw [hfilter]
    split
    · exact List.Perm.refl _
    · exact h.positions b
  · intro b
    rw [hfilter]
    split
    · exact Nat.zero_le _
    · exact h.room b

theorem Placed.stored {rows rows' : List MailRuleRow} (hnames : Names rows a ids)
    (h : Placed a ids ids.length rows rows') (hstored : ∀ row ∈ rows, Stored P row) :
    ∀ row ∈ rows', Stored P row := by
  intro row' hrow'
  obtain ⟨row, hrow, hid, haccount, hfields, -⟩ := h.row hnames hrow'
  have hold := hstored row hrow
  exact ⟨hid ▸ hold.ruleHex, haccount ▸ hold.accountHex, hfields ▸ hold.fields⟩

theorem RulesInv.delete (h : RulesInv P db) (a ruleId : String) :
    RulesInv P ((db.deleteMailRules (isRule a ruleId)).compactPositions a) := by
  have hapart : RulesApart (db.deleteMailRules (isRule a ruleId)).mailRules :=
    h.ordered.apart.filter _
  refine ⟨?_, h.ordered.delete a ruleId⟩
  apply (placed_compact hapart a).stored (names_orderedRules hapart a)
  exact fun row hrow => h.stored row (List.mem_filter.mp hrow).1

theorem RulesInv.reorder (h : RulesInv P db) (hreorders : Reorders db a ids) (now : Nat) :
    RulesInv P (ids.zipIdx.foldl (fun db entry => db.placeRule a now entry.1 entry.2)
      (db.shiftPositions a)) :=
  ⟨(placed_reorder hreorders.names now).stored hreorders.names h.stored,
    h.ordered.reorder hreorders now⟩

theorem RulesInv.statements (env : Env) {call : Call}
    (hwritten : ∀ fields, call.op.Writes fields → P fields) :
    AllStatements env call (Preserves (RulesInv P)) where
  composes := Preserves.composes _
  rules :=
    { insert := by
        intro db row hrow hwrites h
        refine ⟨?_, h.ordered.append hrow⟩
        intro other hother
        rcases List.mem_append.mp hother with hother | hother
        · exact h.stored other hother
        · rw [List.mem_singleton.mp hother]
          exact ⟨hrow.ruleHex, hrow.accountHex, hwritten _ hwrites⟩
      revise := by
        intro db set hset h
        refine ⟨?_, h.ordered.map fun row => ⟨(hset row).1, (hset row).2.1, (hset row).2.2.1⟩⟩
        intro row' hrow'
        obtain ⟨row, hrow, rfl⟩ := List.mem_map.mp hrow'
        obtain ⟨hid, haccount, -, hfields⟩ := hset row
        have hold := h.stored row hrow
        refine ⟨hid ▸ hold.ruleHex, haccount ▸ hold.accountHex, ?_⟩
        rcases hfields with hfields | hwrites
        · rw [hfields]
          exact hold.fields
        · exact hwritten _ hwrites
      delete := fun _ accountId ruleId h => h.delete accountId ruleId
      reorder := fun _ _ now _ hreorders h => h.reorder hreorders now
      filterRuns := fun _ _ h => h.congr rfl
      insertRun := fun _ _ _ h => h.congr rfl
      mapRuns := fun _ _ _ h => h.congr rfl }
  rates := by constructor <;> intros <;> exact fun h => h.congr rfl
  session := by constructor <;> intros <;> exact fun h => h.congr rfl
  issue := fun _ _ _ _ h => h.congr rfl
  passkey := by constructor <;> intros <;> exact fun h => h.congr rfl
  enrollment :=
    { updateAccounts := fun _ _ _ _ h => h.congr rfl
      insertAccount := fun _ _ h => h.congr rfl
      deleteAccount := by
        intro db accountId h
        refine ⟨?_, h.ordered.deleteAccount accountId⟩
        exact fun row hrow => h.stored row (List.mem_filter.mp hrow).1
      codes := fun _ _ h => h.congr rfl
      delete := fun _ _ h => h.congr rfl
      update := fun _ _ _ _ h => h.congr rfl
      insert := fun _ _ _ _ h => h.congr rfl }

theorem rulesInv_afterAll {calls : List Call}
    (hwritten : ∀ call ∈ calls, ∀ fields, call.op.Writes fields → P fields) :
    RulesInv P (Db.afterAll env {} calls) := by
  suffices hall : ∀ start, RulesInv P start → RulesInv P (Db.afterAll env start calls) by
    apply hall
    refine ⟨by simp, ⟨by simp, ?_, by simp⟩⟩
    exact fun a => List.Perm.refl _
  induction calls with
  | nil => exact fun start hstart => hstart
  | cons call calls ih =>
      intro start hstart
      have hcall := hwritten call List.mem_cons_self
      have hstep := perform_moves (RulesInv.statements env hcall) start hstart
      exact ih (fun call hcall => hwritten call (List.mem_cons_of_mem _ hcall)) _ hstep

/-! ## Deleting, reordering and listing -/

theorem validateAccountId_bind {β : Type} (hhex : isHex32 a = true) (k : String → Store β) :
    (validateAccountId a >>= k) db = k a db := by
  unfold validateAccountId
  apply Exec.require_bind_some
  exact if_pos hhex

/-- The listing of an account shows its rows in order. -/
theorem listMailRules_eq (h : RulesInv (FieldsDecode env) db) {account : AccountRow}
    (haccount : account ∈ db.accounts) (hhex : isHex32 account.accountId = true) :
    ∃ records, listMailRules env account.accountId db = (.ok records, db) ∧
      records.map (·.ruleId) = (db.orderedRules account.accountId).map (·.ruleId) := by
  have hfound : ∃ found, db.accountById account.accountId = some found := by
    apply Option.isSome_iff_exists.mp
    exact List.find?_isSome.mpr ⟨account, haccount, beq_self_eq_true _⟩
  obtain ⟨found, hfound⟩ := hfound
  have hdecode : ∀ row ∈ db.orderedRules account.accountId,
      ∃ record, mailRuleFromRow env row = .ok record ∧ record.ruleId = row.ruleId := by
    intro row hrow
    have hrow := (orderedRules_perm db account.accountId).mem_iff.mp hrow
    exact (h.stored row (List.mem_filter.mp hrow).1).decode
  obtain ⟨records, hrecords, hids⟩ :=
    (Fallible.mapM_map_eq_iff (mailRuleFromRow env) (·.ruleId) (·.ruleId) _).mpr hdecode
  refine ⟨records, ?_, hids⟩
  unfold listMailRules
  rw [validateAccountId_bind hhex]
  unfold requireAccountById
  rw [Exec.require_bind_some (by exact hfound), Exec.inspect_bind, hrecords]
  rfl

theorem mapM_validateMailRuleId {ids : List String} (h : ∀ id ∈ ids, isHex32 id = true) :
    ids.mapM validateMailRuleId = .ok ids := by
  induction ids with
  | nil => rfl
  | cons id ids ih =>
      have hid : validateMailRuleId id = .ok id := if_pos (h id List.mem_cons_self)
      rw [List.mapM_cons, hid, ih fun id hid => h id (List.mem_cons_of_mem _ hid)]
      rfl

theorem eq_of_mapM_validateMailRuleId {ids ids' : List String}
    (h : ids.mapM validateMailRuleId = .ok ids') : ids' = ids := by
  induction ids generalizing ids' with
  | nil =>
      cases h
      rfl
  | cons id ids ih =>
      rw [List.mapM_cons] at h
      obtain ⟨id', hid, h⟩ := Fallible.bind_eq_ok h
      obtain ⟨rest, hrest, h⟩ := Fallible.bind_eq_ok h
      cases h
      unfold validateMailRuleId at hid
      split at hid
      · cases hid
        rw [ih hrest]
      · cases hid

/-- What `delete_mail_rule` does when it returns. -/
theorem deleteMailRule_eq_ok {ruleId : String} {u : Unit}
    (h : deleteMailRule a ruleId db = (.ok u, db')) : isHex32 a = true ∧
      db' = (db.deleteMailRules (isRule a ruleId)).compactPositions a := by
  unfold deleteMailRule validateAccountId at h
  obtain ⟨normalized, hnormalized, h⟩ := Exec.require_bind_eq_ok h
  split at hnormalized
  · next hhex =>
      cases hnormalized
      obtain ⟨normalizedRule, hrule, h⟩ := Exec.ofExcept_bind_eq_ok h
      unfold validateMailRuleId at hrule
      split at hrule
      · cases hrule
        have h := Exec.atomically_eq_ok h
        rw [Exec.inspect_bind] at h
        obtain ⟨-, h⟩ := Exec.ensure_bind_eq_ok h
        cases h
        exact ⟨hhex, rfl⟩
      · cases hrule
  · cases hnormalized

/-- What `reorder_mail_rules` does when it returns. -/
theorem reorderMailRules_eq_ok {now : Nat} {u : Unit}
    (h : reorderMailRules (some now) a ids db = (.ok u, db')) :
    isHex32 a = true ∧ Reorders db a ids ∧
      db' = ids.zipIdx.foldl (fun db entry => db.placeRule a now entry.1 entry.2)
        (db.shiftPositions a) := by
  unfold reorderMailRules validateAccountId readClock at h
  obtain ⟨normalized, hnormalized, h⟩ := Exec.require_bind_eq_ok h
  split at hnormalized
  · next hhex =>
      cases hnormalized
      obtain ⟨normalizedRules, hrules, h⟩ := Exec.ofExcept_bind_eq_ok h
      rw [eq_of_mapM_validateMailRuleId hrules] at h
      obtain ⟨hdups, h⟩ := Exec.ensure_bind_eq_ok h
      have h := Exec.atomically_eq_ok h
      rw [Exec.inspect_bind] at h
      obtain ⟨hsame, h⟩ := Exec.ensure_bind_eq_ok h
      rw [Exec.update_bind] at h
      obtain ⟨time, htime, h⟩ := Exec.require_bind_eq_ok h
      cases htime
      cases h
      refine ⟨hhex, ⟨Distinct.nodup_of_length_eraseDups (beq_iff_eq.mp hdups), ?_⟩, rfl⟩
      simp only [Bool.and_eq_true, List.all_eq_true, List.contains_iff_mem] at hsame
      exact fun ruleId => ⟨hsame.1 ruleId, hsame.2 ruleId⟩
  · cases hnormalized

/-- Orders that name every rule once are accepted. -/
theorem reorderMailRules_of_perm (hrules : RulesInv P db) (hhex : isHex32 a = true)
    (hperm : ids.Perm ((db.rulesOf a).map (·.ruleId))) (now : Nat) :
    ∃ db', reorderMailRules (some now) a ids db = (.ok (), db') := by
  have hvalid : ids.mapM validateMailRuleId = .ok ids := by
    apply mapM_validateMailRuleId
    intro id hid
    obtain ⟨row, hrow, rfl⟩ := List.mem_map.mp (hperm.mem_iff.mp hid)
    exact (hrules.stored row (List.mem_filter.mp hrow).1).ruleHex
  have hnodup : ids.Nodup := (Names.of_perm hrules.ordered.ids hperm).nodup
  have hdups : (ids.length == ids.eraseDups.length) = true := by
    rw [Distinct.eraseDups_of_nodup hnodup, beq_self_eq_true]
  have hsame : (ids.all ((db.rulesOf a).map (·.ruleId)).contains &&
      ((db.rulesOf a).map (·.ruleId)).all ids.contains) = true := by
    simp only [Bool.and_eq_true, List.all_eq_true, List.contains_iff_mem]
    exact ⟨fun id => hperm.mem_iff.mp, fun id => hperm.mem_iff.mpr⟩
  refine ⟨ids.zipIdx.foldl (fun db entry => db.placeRule a now entry.1 entry.2)
    (db.shiftPositions a), ?_⟩
  unfold reorderMailRules readClock
  rw [validateAccountId_bind hhex, hvalid]
  apply Exec.ensure_bind_of hdups
  apply Exec.atomically_of_ok
  rw [Exec.inspect_bind]
  apply Exec.ensure_bind_of hsame
  rw [Exec.update_bind]
  rfl

/-- The listing of the account shows these rules in this order. -/
def Lists (env : Env) (a : String) (db : Db) (ids : List String) : Prop :=
  ∃ records, listMailRules env a db = (.ok records, db) ∧ records.map (·.ruleId) = ids

/-- The positions of the rules, and the statements that renumber them. -/
structure Numbered (db : Db) : Prop where
  positions : ∀ a, ((db.rulesOf a).map (·.position)).Perm (List.range (db.rulesOf a).length) ∧
    (db.rulesOf a).length ≤ 100
  delete_safe : ∀ a ruleId, let left := db.deleteMailRules (isRule a ruleId)
    let updates := compactUpdates a ((left.orderedRules a).map (·.ruleId))
    NeverViolates updates left.mailRules ∧
      ∀ u db', deleteMailRule a ruleId db = (.ok u, db') →
        db'.mailRules = runUpdates updates left.mailRules
  reorder_safe : ∀ a ids now, ids.Perm ((db.rulesOf a).map (·.ruleId)) →
    NeverViolates (reorderUpdates a now ids) db.mailRules ∧
      ∀ u db', reorderMailRules (some now) a ids db = (.ok u, db') →
        db'.mailRules = runUpdates (reorderUpdates a now ids) db.mailRules
  reorder_iff : ∀ a ids now, isHex32 a = true →
    ((∃ db', reorderMailRules (some now) a ids db = (.ok (), db')) ↔
      ids.Perm ((db.rulesOf a).map (·.ruleId)))

/-- The order that an account sees before and after. -/
structure Relisted (env : Env) (db : Db) : Prop where
  delete : ∀ account ∈ db.accounts, ∀ ruleId u db',
    deleteMailRule account.accountId ruleId db = (.ok u, db') →
    ∃ ids, Lists env account.accountId db ids ∧
      Lists env account.accountId db' (ids.filter (· != ruleId))
  reorder : ∀ account ∈ db.accounts, ∀ ids now u db',
    reorderMailRules (some now) account.accountId ids db = (.ok u, db') →
    Lists env account.accountId db' ids

theorem RulesInv.numbered (h : RulesInv P db) : Numbered db where
  positions a := ⟨h.ordered.positions a, h.ordered.room a⟩
  delete_safe := by
    intro a ruleId
    have hapart : RulesApart (db.deleteMailRules (isRule a ruleId)).mailRules :=
      h.ordered.apart.filter _
    have hnames := names_orderedRules hapart a
    refine ⟨neverViolates_of_puts hapart hnames (hnames.compact_places hapart), ?_⟩
    intro u db' hdelete
    obtain ⟨-, rfl⟩ := deleteMailRule_eq_ok hdelete
    exact mailRules_compactPositions _ a
  reorder_safe := by
    intro a ids now hperm
    have hnames := Names.of_perm h.ordered.ids hperm
    refine ⟨neverViolates_of_puts h.ordered.apart hnames fun entry _ => reorder_places now entry,
      ?_⟩
    intro u db' hreorder
    obtain ⟨-, -, rfl⟩ := reorderMailRules_eq_ok hreorder
    exact mailRules_reorder db a now ids
  reorder_iff := by
    intro a ids now hhex
    constructor
    · rintro ⟨db', hreorder⟩
      obtain ⟨-, hreorders, -⟩ := reorderMailRules_eq_ok hreorder
      exact hreorders.names.perm h.ordered.ids
    · exact fun hperm => reorderMailRules_of_perm h hhex hperm now

theorem accounts_foldl {γ : Type} {f : Db → γ → Db} (h : ∀ db x, (f db x).accounts = db.accounts)
    (xs : List γ) (db : Db) : (xs.foldl f db).accounts = db.accounts := by
  induction xs generalizing db with
  | nil => rfl
  | cons x xs ih => rw [List.foldl_cons, ih, h]

theorem RulesInv.relisted (h : RulesInv (FieldsDecode env) db) : Relisted env db where
  delete := by
    intro account haccount ruleId u db' hdelete
    obtain ⟨hhex, rfl⟩ := deleteMailRule_eq_ok hdelete
    have hafter := h.delete account.accountId ruleId
    have haccounts : ((db.deleteMailRules (isRule account.accountId ruleId)).compactPositions
        account.accountId).accounts = db.accounts := by
      apply accounts_foldl
      exact fun _ _ => rfl
    refine ⟨_, listMailRules_eq h haccount hhex, ?_⟩
    rw [← orderedRules_delete h.ordered]
    exact listMailRules_eq hafter (haccounts ▸ haccount) hhex
  reorder := by
    intro account haccount ids now u db' hreorder
    obtain ⟨hhex, hreorders, rfl⟩ := reorderMailRules_eq_ok hreorder
    have hafter := h.reorder hreorders now
    have haccounts : (ids.zipIdx.foldl
        (fun db entry => db.placeRule account.accountId now entry.1 entry.2)
          (db.shiftPositions account.accountId)).accounts = db.accounts := by
      apply accounts_foldl
      exact fun _ _ => rfl
    have hlisted := (placed_reorder hreorders.names now).listed hreorders.names hafter.ordered
    obtain ⟨records, hrecords, hids⟩ := listMailRules_eq hafter (haccounts ▸ haccount) hhex
    exact ⟨records, hrecords, hids.trans hlisted⟩

/-- The order of the rules in every state that a run of the store reaches. -/
theorem mail_rule_order (env : Env) (calls : List Call) :
    Numbered (Db.afterAll env {} calls) ∧
      ((∀ call ∈ calls, call.op.LoadsBack env) → Relisted env (Db.afterAll env {} calls)) := by
  constructor
  · have hrules : RulesInv (fun _ => True) (Db.afterAll env {} calls) :=
      rulesInv_afterAll fun _ _ _ _ => trivial
    exact hrules.numbered
  · intro hloads
    have hrules : RulesInv (FieldsDecode env) (Db.afterAll env {} calls) :=
      rulesInv_afterAll fun call hcall _ hwrites => (hloads call hcall).decodes hwrites
    exact hrules.relisted

/-- An account with two rules. -/
def ruleCalls : List Call :=
  [⟨.createAccount "ann@example.org" .user false, sampleRandom 1, some 0, some 0⟩,
    ⟨.mailRules (.createMailRule (sampleHex 1).text (.str "first") (.bool true) (.obj []) (.str "A")
      (.bool false)), sampleRandom 2, some 1, some 1⟩,
    ⟨.mailRules (.createMailRule (sampleHex 1).text (.str "second") (.bool true) (.obj [])
      (.str "B")
      (.bool true)), sampleRandom 3, some 2, some 2⟩]

def ruleEnv : Env := { sampleEnv with
  loads := fun text => if text = "\x7b\x7d".toList then some (.obj []) else none }

theorem loadsBack_ruleCalls : ∀ call ∈ ruleCalls, call.op.LoadsBack ruleEnv := by
  have hempty : ruleEnv.loads ((Json.obj []).sortKeys.render false) =
      some (Json.obj []).sortKeys := rfl
  intro call hcall value hvalue
  unfold ruleCalls at hcall
  simp only [List.mem_cons, List.not_mem_nil, or_false] at hcall
  rcases hcall with rfl | rfl | rfl
  · cases hvalue
  · cases hvalue
    exact hempty
  · cases hvalue
    exact hempty

theorem mail_rule_order_ruleCalls :
    (∃ db', reorderMailRules (some 3) (sampleHex 1).text [(sampleHex 3).text, (sampleHex 2).text]
        (Db.afterAll ruleEnv {} ruleCalls) = (.ok (), db') ∧
      Lists ruleEnv (sampleHex 1).text db' [(sampleHex 3).text, (sampleHex 2).text]) := by
  obtain ⟨hnumbered, hrelisted⟩ := mail_rule_order ruleEnv ruleCalls
  have hhex : isHex32 (sampleHex 1).text = true := by decide +kernel
  have hrows : ((Db.afterAll ruleEnv {} ruleCalls).rulesOf (sampleHex 1).text).map (·.ruleId) =
      [(sampleHex 2).text, (sampleHex 3).text] := by decide +kernel
  have hperm : [(sampleHex 3).text, (sampleHex 2).text].Perm
      (((Db.afterAll ruleEnv {} ruleCalls).rulesOf (sampleHex 1).text).map (·.ruleId)) := by
    rw [hrows]
    exact List.Perm.swap _ _ _
  obtain ⟨db', hreorder⟩ := (hnumbered.reorder_iff _ _ 3 hhex).mpr hperm
  have haccounts : (Db.afterAll ruleEnv {} ruleCalls).accounts.map (·.accountId) =
      [(sampleHex 1).text] := by decide +kernel
  have hmem :
      (sampleHex 1).text ∈ (Db.afterAll ruleEnv {} ruleCalls).accounts.map (·.accountId) := by
    rw [haccounts]
    exact List.mem_singleton_self _
  obtain ⟨account, haccount, hid⟩ := List.mem_map.mp hmem
  rw [← hid] at hreorder ⊢
  exact ⟨db', hreorder, (hrelisted loadsBack_ruleCalls).reorder account haccount _ _ _ _ hreorder⟩

end MaddyWeb.Auth
