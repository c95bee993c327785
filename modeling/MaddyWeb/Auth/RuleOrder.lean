import MaddyWeb.Auth.Links
import Mathlib.Data.List.Nodup
import Mathlib.Data.List.Range

/-!
# The order of the rules of an account

The database checks `UNIQUE(account_id, position)` after every row that a statement
changes, and the order of these rows is its own.  Renumbering therefore moves the
rules out of the way first and then places them one by one.
-/

namespace MaddyWeb.Auth

open MaddyWeb.Library

variable {db db' : Db} {env : Env} {a : String} {rows rows' : List MailRuleRow} {ids : List String}

/-! ## Statements, row by row -/

structure PositionUpdate where
  condition : MailRuleRow → Bool
  set : MailRuleRow → MailRuleRow

def PositionUpdate.apply (u : PositionUpdate) (rows : List MailRuleRow) : List MailRuleRow :=
  rows.map fun row => if u.condition row then u.set row else row

/-- The table while a statement is under way: it has changed some of its rows. -/
def PositionUpdate.Midway (u : PositionUpdate) (rows rows' : List MailRuleRow) : Prop :=
  ∃ done : MailRuleRow → Bool,
    rows' = rows.map fun row => if done row && u.condition row then u.set row else row

def UniquePositions (rows : List MailRuleRow) : Prop :=
  (rows.map fun row => (row.accountId, row.position)).Nodup

def runUpdates (updates : List PositionUpdate) (rows : List MailRuleRow) : List MailRuleRow :=
  updates.foldl (fun rows u => u.apply rows) rows

/-- No row that one of the statements changes violates the constraint. -/
def NeverViolates (updates : List PositionUpdate) (rows : List MailRuleRow) : Prop :=
  ∀ before u after, updates = before ++ u :: after →
    ∀ rows', u.Midway (runUpdates before rows) rows' → UniquePositions rows'

/-- `UPDATE mail_rules SET position = position + 1000 WHERE account_id = ?` -/
def shiftUpdate (a : String) : PositionUpdate :=
  ⟨fun row => row.accountId == a, fun row => { row with position := row.position + 1000 }⟩

/-- The statements of `_compact_mail_rule_positions_locked`. -/
def compactUpdates (a : String) (ids : List String) : List PositionUpdate :=
  shiftUpdate a :: ids.zipIdx.map fun entry =>
    ⟨fun row => row.ruleId == entry.1, fun row => { row with position := entry.2 }⟩

/-- The statements of `reorder_mail_rules`. -/
def reorderUpdates (a : String) (now : Nat) (ids : List String) : List PositionUpdate :=
  shiftUpdate a :: ids.zipIdx.map fun entry =>
    ⟨isRule a entry.1, fun row => { row with position := entry.2, updatedAt := now }⟩

theorem mailRules_foldl {γ : Type} {f : Db → γ → Db} {update : γ → PositionUpdate}
    (h : ∀ db x, (f db x).mailRules = (update x).apply db.mailRules) (xs : List γ) (db : Db) :
    (xs.foldl f db).mailRules = runUpdates (xs.map update) db.mailRules := by
  induction xs generalizing db with
  | nil => rfl
  | cons x xs ih =>
      rw [List.foldl_cons, ih, h]
      rfl

theorem mailRules_compactPositions (db : Db) (a : String) :
    (db.compactPositions a).mailRules =
      runUpdates (compactUpdates a ((db.orderedRules a).map (·.ruleId))) db.mailRules :=
  mailRules_foldl (fun _ _ => rfl) _ _

theorem mailRules_reorder (db : Db) (a : String) (now : Nat) (ids : List String) :
    (ids.zipIdx.foldl (fun db entry => db.placeRule a now entry.1 entry.2)
      (db.shiftPositions a)).mailRules = runUpdates (reorderUpdates a now ids) db.mailRules :=
  mailRules_foldl (fun _ _ => rfl) _ _

/-! ## Rules on their way -/

/-- The position of a rule after the first `k` rules of `ids` have been placed. -/
def midPosition (a : String) (ids : List String) (k : Nat) (row : MailRuleRow) : Nat :=
  if row.accountId = a then
    if ids.idxOf row.ruleId < k then ids.idxOf row.ruleId else row.position + 1000
  else row.position

/-- The table after the first `k` rules have been placed. -/
structure Placed (a : String) (ids : List String) (k : Nat) (rows₀ rows : List MailRuleRow) :
    Prop where
  moved : ∃ f : MailRuleRow → MailRuleRow, rows = rows₀.map f ∧ ∀ row ∈ rows₀,
    (f row).ruleId = row.ruleId ∧ (f row).accountId = row.accountId ∧
      (f row).fields = row.fields ∧ (f row).position = midPosition a ids k row

/-- The rules of an account have different positions, with or without gaps. -/
structure RulesApart (rows : List MailRuleRow) : Prop where
  ids : (rows.map (·.ruleId)).Nodup
  eq_of_position : ∀ row ∈ rows, ∀ row' ∈ rows, row.accountId = row'.accountId →
    row.position = row'.position → row = row'
  position_lt : ∀ row ∈ rows, row.position < maxMailRulesPerAccount
  room : ∀ a, (rows.filter (·.accountId == a)).length ≤ maxMailRulesPerAccount

/-- The rules of every account are numbered from zero. -/
structure RulesOrdered (rows : List MailRuleRow) : Prop where
  ids : (rows.map (·.ruleId)).Nodup
  positions : ∀ a, ((rows.filter (·.accountId == a)).map (·.position)).Perm
    (List.range (rows.filter (·.accountId == a)).length)
  room : ∀ a, (rows.filter (·.accountId == a)).length ≤ maxMailRulesPerAccount

theorem RulesApart.eq_of_id (h : RulesApart rows) {row row' : MailRuleRow} (hrow : row ∈ rows)
    (hrow' : row' ∈ rows) (hid : row.ruleId = row'.ruleId) : row = row' :=
  List.inj_on_of_nodup_map h.ids hrow hrow' hid

theorem RulesApart.filter (h : RulesApart rows) (keep : MailRuleRow → Bool) :
    RulesApart (rows.filter keep) where
  ids := h.ids.sublist (List.filter_sublist.map _)
  eq_of_position row hrow row' hrow' := h.eq_of_position row (List.mem_filter.mp hrow).1 row'
    (List.mem_filter.mp hrow').1
  position_lt row hrow := h.position_lt row (List.mem_filter.mp hrow).1
  room a := Nat.le_trans (List.filter_sublist.filter _).length_le (h.room a)

theorem RulesOrdered.apart (h : RulesOrdered rows) : RulesApart rows where
  ids := h.ids
  room := h.room
  eq_of_position := by
    intro row hrow row' hrow' haccount hposition
    have hnodup : ((rows.filter (·.accountId == row'.accountId)).map (·.position)).Nodup :=
      (h.positions row'.accountId).nodup_iff.mpr List.nodup_range
    have hmem : row ∈ rows.filter (·.accountId == row'.accountId) :=
      List.mem_filter.mpr ⟨hrow, beq_iff_eq.mpr haccount⟩
    have hmem' : row' ∈ rows.filter (·.accountId == row'.accountId) :=
      List.mem_filter.mpr ⟨hrow', beq_self_eq_true _⟩
    exact List.inj_on_of_nodup_map hnodup hmem hmem' hposition
  position_lt := by
    intro row hrow
    have hmem : row ∈ rows.filter (·.accountId == row.accountId) :=
      List.mem_filter.mpr ⟨hrow, beq_self_eq_true _⟩
    have hposition := (h.positions row.accountId).mem_iff.mp (List.mem_map_of_mem hmem)
    exact Nat.lt_of_lt_of_le (List.mem_range.mp hposition) (h.room row.accountId)

/-- Rows whose positions are distinct within each account. -/
theorem uniquePositions_map (hids : (rows.map (·.ruleId)).Nodup) {f : MailRuleRow → MailRuleRow}
    (haccount : ∀ row ∈ rows, (f row).accountId = row.accountId)
    (hposition : ∀ row ∈ rows, ∀ row' ∈ rows, row.accountId = row'.accountId →
      (f row).position = (f row').position → row = row') : UniquePositions (rows.map f) := by
  unfold UniquePositions
  rw [List.map_map]
  apply List.Nodup.map_on _ (List.Nodup.of_map _ hids)
  intro row hrow row' hrow' heq
  obtain ⟨hsame, heq⟩ := Prod.mk.inj heq
  rw [haccount row hrow, haccount row' hrow'] at hsame
  exact hposition row hrow row' hrow' hsame heq

/-- What the order has to name: the rules of the account, each once. -/
structure Names (rows : List MailRuleRow) (a : String) (ids : List String) : Prop where
  nodup : ids.Nodup
  mem_iff : ∀ id, id ∈ ids ↔ ∃ row ∈ rows, row.accountId = a ∧ row.ruleId = id

theorem Names.mem (h : Names rows a ids) {row : MailRuleRow} (hrow : row ∈ rows)
    (ha : row.accountId = a) : row.ruleId ∈ ids :=
  (h.mem_iff row.ruleId).mpr ⟨row, hrow, ha, rfl⟩

/-- There are as many names as rules. -/
theorem Names.perm (h : Names rows a ids) (hids : (rows.map (·.ruleId)).Nodup) :
    ids.Perm ((rows.filter (·.accountId == a)).map (·.ruleId)) := by
  apply (List.perm_ext_iff_of_nodup h.nodup (hids.sublist (List.filter_sublist.map _))).mpr
  intro id
  rw [h.mem_iff, List.mem_map]
  constructor
  · rintro ⟨row, hrow, ha, rfl⟩
    exact ⟨row, List.mem_filter.mpr ⟨hrow, beq_iff_eq.mpr ha⟩, rfl⟩
  · rintro ⟨row, hrow, rfl⟩
    obtain ⟨hrow, ha⟩ := List.mem_filter.mp hrow
    exact ⟨row, hrow, beq_iff_eq.mp ha, rfl⟩

theorem Names.length_le (h : Names rows a ids) (hapart : RulesApart rows) :
    ids.length ≤ maxMailRulesPerAccount := by
  rw [(h.perm hapart.ids).length_eq, List.length_map]
  exact hapart.room a

/-- Placed rules and waiting rules do not meet. -/
theorem midPosition_injective (hapart : RulesApart rows) (hnames : Names rows a ids) (k : Nat)
    {row row' : MailRuleRow} (hrow : row ∈ rows) (hrow' : row' ∈ rows)
    (haccount : row.accountId = row'.accountId)
    (heq : midPosition a ids k row = midPosition a ids k row') : row = row' := by
  unfold midPosition at heq
  rw [haccount] at heq
  by_cases ha : row'.accountId = a
  · rw [if_pos ha, if_pos ha] at heq
    have hlength := hnames.length_le hapart
    have hmem := hnames.mem hrow (haccount.trans ha)
    have hmem' := hnames.mem hrow' ha
    have hlt := List.idxOf_lt_length_of_mem hmem
    have hlt' := List.idxOf_lt_length_of_mem hmem'
    unfold maxMailRulesPerAccount at hlength
    split at heq <;> split at heq
    · apply hapart.eq_of_id hrow hrow'
      exact (List.idxOf_inj hmem).mp heq
    · omega
    · omega
    · exact hapart.eq_of_position row hrow row' hrow' haccount (by omega)
  · rw [if_neg ha, if_neg ha] at heq
    exact hapart.eq_of_position row hrow row' hrow' haccount heq

theorem Placed.unique (hapart : RulesApart rows) (hnames : Names rows a ids) {k : Nat}
    (h : Placed a ids k rows rows') : UniquePositions rows' := by
  obtain ⟨f, rfl, hf⟩ := h.moved
  apply uniquePositions_map hapart.ids
  · exact fun row hrow => (hf row hrow).2.1
  · intro row hrow row' hrow' haccount heq
    rw [(hf row hrow).2.2.2, (hf row' hrow').2.2.2] at heq
    exact midPosition_injective hapart hnames k hrow hrow' haccount heq

/-- The statement that gives one rule its place. -/
structure Places (rows : List MailRuleRow) (a : String) (entry : String × Nat)
    (u : PositionUpdate) : Prop where
  condition : ∀ row ∈ rows, ∀ row' : MailRuleRow, row'.ruleId = row.ruleId →
    row'.accountId = row.accountId →
    (u.condition row' = true ↔ row.accountId = a ∧ row.ruleId = entry.1)
  set : ∀ row, (u.set row).ruleId = row.ruleId ∧ (u.set row).accountId = row.accountId ∧
    (u.set row).fields = row.fields ∧ (u.set row).position = entry.2

theorem midPosition_succ_of_ne {k : Nat} {row : MailRuleRow}
    (h : ¬ (row.accountId = a ∧ ids.idxOf row.ruleId = k)) :
    midPosition a ids (k + 1) row = midPosition a ids k row := by
  unfold midPosition
  by_cases ha : row.accountId = a
  · rw [if_pos ha, if_pos ha]
    have hne : ids.idxOf row.ruleId ≠ k := fun hk => h ⟨ha, hk⟩
    split
    · rw [if_pos (by omega)]
    · rw [if_neg (by omega)]
  · rw [if_neg ha, if_neg ha]

/-- Placing the next rule, done or not yet done. -/
theorem Placed.midway (hapart : RulesApart rows) (hnames : Names rows a ids) {k : Nat}
    (hk : k < ids.length) {u : PositionUpdate} (hu : Places rows a (ids[k], k) u)
    (h : Placed a ids k rows rows') (done : MailRuleRow → Bool) :
    Placed a ids k rows
        (rows'.map fun row => if done row && u.condition row then u.set row else row) ∨
      Placed a ids (k + 1) rows
        (rows'.map fun row => if done row && u.condition row then u.set row else row) := by
  obtain ⟨f, rfl, hf⟩ := h.moved
  rw [List.map_map]
  have hindex : ids.idxOf ids[k] = k := hnames.nodup.idxOf_getElem k hk
  have hchosen : ∀ row ∈ rows, u.condition (f row) = true ↔
      row.accountId = a ∧ row.ruleId = ids[k] :=
    fun row hrow => hu.condition row hrow (f row) (hf row hrow).1 (hf row hrow).2.1
  obtain ⟨next, hnext, ha, hid⟩ := (hnames.mem_iff ids[k]).mp (List.getElem_mem hk)
  have hother : ∀ row ∈ rows, row ≠ next → ¬ (row.accountId = a ∧ ids.idxOf row.ruleId = k) := by
    rintro row hrow hne ⟨hra, hrk⟩
    apply hne
    apply hapart.eq_of_id hrow hnext
    rw [hid]
    have hmem := hnames.mem hrow hra
    exact (List.idxOf_inj hmem).mp (hrk.trans hindex.symm)
  have hkept : ∀ row ∈ rows, row ≠ next → u.condition (f row) ≠ true := by
    intro row hrow hne hcondition
    obtain ⟨hra, hrid⟩ := (hchosen row hrow).mp hcondition
    exact hother row hrow hne ⟨hra, by rw [hrid, hindex]⟩
  by_cases hdone : done (f next) = true
  · refine Or.inr ⟨_, rfl, ?_⟩
    intro row hrow
    rw [Function.comp_apply]
    by_cases hne : row = next
    · rw [hne, hdone, (hchosen next hnext).mpr ⟨ha, hid⟩]
      obtain ⟨hruleId, haccountId, hfields, hposition⟩ := hu.set (f next)
      obtain ⟨hruleId', haccountId', hfields', -⟩ := hf next hnext
      refine ⟨hruleId.trans hruleId', haccountId.trans haccountId', hfields.trans hfields', ?_⟩
      rw [Bool.and_self, if_pos rfl, hposition]
      unfold midPosition
      rw [if_pos ha, hid, hindex, if_pos (by omega)]
    · have hfalse : (done (f row) && u.condition (f row)) ≠ true := by
        rw [ne_eq, Bool.and_eq_true]
        exact fun hboth => hkept row hrow hne hboth.2
      rw [if_neg hfalse, midPosition_succ_of_ne (hother row hrow hne)]
      exact hf row hrow
  · refine Or.inl ⟨_, rfl, ?_⟩
    intro row hrow
    rw [Function.comp_apply]
    have hfalse : (done (f row) && u.condition (f row)) ≠ true := by
      rw [ne_eq, Bool.and_eq_true]
      rintro ⟨hd, hcondition⟩
      by_cases hne : row = next
      · exact hdone (hne ▸ hd)
      · exact hkept row hrow hne hcondition
    rw [if_neg hfalse]
    exact hf row hrow

/-- The statement as a whole places its rule. -/
theorem Placed.step (hnames : Names rows a ids) {k : Nat}
    (hk : k < ids.length) {u : PositionUpdate} (hu : Places rows a (ids[k], k) u)
    (h : Placed a ids k rows rows') : Placed a ids (k + 1) rows (u.apply rows') := by
  obtain ⟨f, rfl, hf⟩ := h.moved
  unfold PositionUpdate.apply
  rw [List.map_map]
  refine ⟨_, rfl, ?_⟩
  intro row hrow
  rw [Function.comp_apply]
  obtain ⟨hruleId', haccountId', hfields', hposition'⟩ := hf row hrow
  have hchosen := hu.condition row hrow (f row) hruleId' haccountId'
  have hindex : ids.idxOf ids[k] = k := hnames.nodup.idxOf_getElem k hk
  split
  · next hcondition =>
      obtain ⟨ha, hid⟩ := hchosen.mp hcondition
      obtain ⟨hruleId, haccountId, hfields, hposition⟩ := hu.set (f row)
      refine ⟨hruleId.trans hruleId', haccountId.trans haccountId', hfields.trans hfields', ?_⟩
      unfold midPosition
      rw [hposition, if_pos ha, hid, hindex, if_pos (by omega)]
  · next hcondition =>
      rw [midPosition_succ_of_ne]
      · exact hf row hrow
      · rintro ⟨ha, hrk⟩
        apply hcondition
        apply hchosen.mpr
        have hmem := hnames.mem hrow ha
        exact ⟨ha, (List.idxOf_inj hmem).mp (hrk.trans hindex.symm)⟩

theorem placed_shift (rows : List MailRuleRow) (a : String) (ids : List String) :
    Placed a ids 0 rows ((shiftUpdate a).apply rows) := by
  refine ⟨_, rfl, ?_⟩
  intro row _
  unfold midPosition shiftUpdate
  by_cases ha : row.accountId = a
  · rw [if_pos (beq_iff_eq.mpr ha), if_pos ha]
    exact ⟨rfl, rfl, rfl, rfl⟩
  · rw [if_neg (fun h => ha (beq_iff_eq.mp h)), if_neg ha]
    exact ⟨rfl, rfl, rfl, rfl⟩

/-- Shifted rules and waiting rules do not meet either. -/
theorem shift_midway_unique (hapart : RulesApart rows) (a : String)
    (h : (shiftUpdate a).Midway rows rows') : UniquePositions rows' := by
  obtain ⟨done, rfl⟩ := h
  apply uniquePositions_map hapart.ids
  · intro row _
    split <;> rfl
  · intro row hrow row' hrow' haccount heq
    apply hapart.eq_of_position row hrow row' hrow' haccount
    have hlt := hapart.position_lt row hrow
    have hlt' := hapart.position_lt row' hrow'
    unfold maxMailRulesPerAccount at hlt hlt'
    unfold shiftUpdate at heq
    have hsplit : ∀ (c : Bool) (row : MailRuleRow), (if c then { row with
        position := row.position + 1000 } else row).position =
          if c then row.position + 1000 else row.position := by
      intro c row
      split <;> rfl
    dsimp only at heq
    rw [hsplit, hsplit] at heq
    split at heq <;> split at heq <;> omega

/-- The table after the first `n` rules have been placed. -/
theorem placed_run (hnames : Names rows a ids) {put : String × Nat → PositionUpdate}
    (hput : ∀ entry, entry.1 ∈ ids → Places rows a entry (put entry))
    {n : Nat} (hn : n ≤ ids.length) :
    Placed a ids n rows
      (runUpdates ((ids.zipIdx.map put).take n) ((shiftUpdate a).apply rows)) := by
  induction n with
  | zero => exact placed_shift rows a ids
  | succ n ih =>
      have hlength : n < (ids.zipIdx.map put).length := by
        rw [List.length_map, List.length_zipIdx]
        exact hn
      have hnth : (ids.zipIdx.map put)[n] = put (ids[n], n) := by simp
      rw [List.take_succ_eq_append_getElem hlength, hnth]
      unfold runUpdates
      rw [List.foldl_append]
      exact (ih (by omega)).step hnames hn (hput _ (List.getElem_mem hn))

theorem placed_all (hnames : Names rows a ids) {put : String × Nat → PositionUpdate}
    (hput : ∀ entry, entry.1 ∈ ids → Places rows a entry (put entry)) :
    Placed a ids ids.length rows (runUpdates (shiftUpdate a :: ids.zipIdx.map put) rows) := by
  have hplaced := placed_run hnames hput (Nat.le_refl _)
  rw [List.take_of_length_le (by simp)] at hplaced
  exact hplaced

theorem neverViolates_of_puts (hapart : RulesApart rows) (hnames : Names rows a ids)
    {put : String × Nat → PositionUpdate}
    (hput : ∀ entry, entry.1 ∈ ids → Places rows a entry (put entry)) :
    NeverViolates (shiftUpdate a :: ids.zipIdx.map put) rows := by
  intro before u after heq rows' hmidway
  cases before with
  | nil =>
      obtain ⟨rfl, -⟩ := List.cons.inj heq
      exact shift_midway_unique hapart a hmidway
  | cons first before =>
      rw [List.cons_append] at heq
      obtain ⟨rfl, hputs⟩ := List.cons.inj heq
      have hlength : before.length < ids.length := by
        have hlengths := congrArg List.length hputs
        simp only [List.length_map, List.length_zipIdx, List.length_append, List.length_cons]
          at hlengths
        omega
      have htake : before = (ids.zipIdx.map put).take before.length := by
        rw [hputs, List.take_left]
      have hu : u = put (ids[before.length], before.length) := by
        have hnth : (ids.zipIdx.map put)[before.length]? = some u := by
          rw [hputs]
          simp
        simpa [hlength] using hnth.symm
      have hplaced := placed_run hnames hput (Nat.le_of_lt hlength)
      rw [← htake] at hplaced
      obtain ⟨done, rfl⟩ := hmidway
      rw [hu]
      rcases hplaced.midway hapart hnames hlength (hput _ (List.getElem_mem hlength)) done
        with hmid | hmid
      · exact hmid.unique hapart hnames
      · exact hmid.unique hapart hnames

/-! ## The order that a listing shows -/

theorem map_idxOf_self {l : List String} (h : l.Nodup) : l.map l.idxOf = List.range l.length := by
  apply List.ext_getElem
  · simp
  · intro i hi _
    rw [List.getElem_map, List.getElem_range]
    exact h.idxOf_getElem i (by simpa using hi)

theorem filter_map_account {f : MailRuleRow → MailRuleRow}
    (haccount : ∀ row ∈ rows, (f row).accountId = row.accountId) (b : String) :
    (rows.map f).filter (·.accountId == b) = (rows.filter (·.accountId == b)).map f := by
  rw [List.filter_map]
  congr 1
  apply List.filter_congr
  intro row hrow
  rw [Function.comp_apply, haccount row hrow]

/-- All rules of the account have been placed. -/
theorem Placed.ordered (hapart : RulesApart rows) (hnames : Names rows a ids)
    (hothers : ∀ b, b ≠ a → ((rows.filter (·.accountId == b)).map (·.position)).Perm
      (List.range (rows.filter (·.accountId == b)).length))
    (h : Placed a ids ids.length rows rows') : RulesOrdered rows' := by
  obtain ⟨f, rfl, hf⟩ := h.moved
  have hfilter := fun b => filter_map_account (fun row hrow => (hf row hrow).2.1) b
  have hids : (rows.map f).map (·.ruleId) = rows.map (·.ruleId) := by
    rw [List.map_map]
    exact List.map_congr_left fun row hrow => (hf row hrow).1
  have hpositions : ∀ b, ((rows.filter (·.accountId == b)).map f).map (·.position) =
      (rows.filter (·.accountId == b)).map (midPosition a ids ids.length) := by
    intro b
    rw [List.map_map]
    exact List.map_congr_left fun row hrow => (hf row (List.mem_filter.mp hrow).1).2.2.2
  refine ⟨hids ▸ hapart.ids, ?_, ?_⟩
  · intro b
    rw [hfilter, hpositions, List.length_map]
    by_cases hb : b = a
    · have hplaced : (rows.filter (·.accountId == b)).map (midPosition a ids ids.length) =
          ((rows.filter (·.accountId == a)).map (·.ruleId)).map ids.idxOf := by
        rw [hb, List.map_map]
        apply List.map_congr_left
        intro row hrow
        obtain ⟨hrow, ha⟩ := List.mem_filter.mp hrow
        have ha := beq_iff_eq.mp ha
        unfold midPosition
        rw [if_pos ha, if_pos (List.idxOf_lt_length_of_mem (hnames.mem hrow ha))]
        rfl
      have hperm := hnames.perm hapart.ids
      have hlength : (rows.filter (·.accountId == b)).length = ids.length := by
        rw [hb, hperm.length_eq, List.length_map]
      rw [hplaced, hlength, ← map_idxOf_self hnames.nodup]
      exact hperm.symm.map _
    · have hkept : (rows.filter (·.accountId == b)).map (midPosition a ids ids.length) =
          (rows.filter (·.accountId == b)).map (·.position) := by
        apply List.map_congr_left
        intro row hrow
        have hrb := beq_iff_eq.mp (List.mem_filter.mp hrow).2
        unfold midPosition
        rw [if_neg fun ha => hb (hrb.symm.trans ha)]
      rw [hkept]
      exact hothers b hb
  · intro b
    rw [hfilter, List.length_map]
    exact hapart.room b

/-- `ORDER BY position, rule_id` -/
def ruleLe (x y : MailRuleRow) : Bool :=
  x.position < y.position || (x.position == y.position && x.ruleId ≤ y.ruleId)

theorem ruleLe_iff (x y : MailRuleRow) : ruleLe x y = true ↔
    x.position < y.position ∨ (x.position = y.position ∧ x.ruleId ≤ y.ruleId) := by
  simp [ruleLe]

theorem pairwise_orderedRules (db : Db) (a : String) :
    (db.orderedRules a).Pairwise fun x y => ruleLe x y = true := by
  apply List.pairwise_mergeSort
  · intro x y z hxy hyz
    have hxy := (ruleLe_iff x y).mp hxy
    have hyz := (ruleLe_iff y z).mp hyz
    apply (ruleLe_iff x z).mpr
    rcases hxy with hxy | ⟨hxy, hid⟩
    · rcases hyz with hyz | ⟨hyz, -⟩
      · exact Or.inl (by omega)
      · exact Or.inl (by omega)
    · rcases hyz with hyz | ⟨hyz, hid'⟩
      · exact Or.inl (by omega)
      · exact Or.inr ⟨by omega, String.le_trans hid hid'⟩
  · intro x y
    rw [Bool.or_eq_true, ruleLe_iff, ruleLe_iff]
    rcases Nat.lt_trichotomy x.position y.position with hlt | heq | hlt
    · exact Or.inl (Or.inl hlt)
    · rcases String.le_total x.ruleId y.ruleId with hle | hle
      · exact Or.inl (Or.inr ⟨heq, hle⟩)
      · exact Or.inr (Or.inr ⟨heq.symm, hle⟩)
    · exact Or.inr (Or.inl hlt)

theorem orderedRules_perm (db : Db) (a : String) :
    (db.orderedRules a).Perm (db.mailRules.filter (·.accountId == a)) :=
  List.mergeSort_perm _ _

/-- The listing shows the positions in turn. -/
theorem orderedRules_positions (h : RulesOrdered db.mailRules) (a : String) :
    (db.orderedRules a).map (·.position) = List.range (db.rulesOf a).length := by
  have hperm : ((db.orderedRules a).map (·.position)).Perm (List.range (db.rulesOf a).length) :=
    ((orderedRules_perm db a).map _).trans (h.positions a)
  apply List.Perm.eq_of_pairwise _ _ List.pairwise_le_range hperm
  · intro x y _ _ hxy hyx
    exact Nat.le_antisymm hxy hyx
  · apply List.pairwise_map.mpr
    apply (pairwise_orderedRules db a).imp
    intro x y hxy
    rcases (ruleLe_iff x y).mp hxy with hlt | ⟨heq, -⟩
    · exact Nat.le_of_lt hlt
    · exact Nat.le_of_eq heq

/-- The listing shows the rules in the order that they have been placed in. -/
theorem orderedRules_ids (h : RulesOrdered db.mailRules) (hnames : Names db.mailRules a ids)
    (hindex : ∀ row ∈ db.mailRules, row.accountId = a → row.position = ids.idxOf row.ruleId) :
    (db.orderedRules a).map (·.ruleId) = ids := by
  have hlookup : (db.orderedRules a).map (·.ruleId) =
      ((db.orderedRules a).map (·.position)).map fun i => ids[i]?.getD "" := by
    rw [List.map_map]
    apply List.map_congr_left
    intro row hrow
    obtain ⟨hrow, ha⟩ := List.mem_filter.mp ((orderedRules_perm db a).mem_iff.mp hrow)
    have ha := beq_iff_eq.mp ha
    have hmem := hnames.mem hrow ha
    have hlt := List.idxOf_lt_length_of_mem hmem
    rw [Function.comp_apply, hindex row hrow ha, List.getElem?_eq_getElem hlt, Option.getD_some]
    exact (List.getElem_idxOf hlt).symm
  have hlength : (db.rulesOf a).length = ids.length := by
    rw [(hnames.perm h.ids).length_eq, List.length_map]
    rfl
  rw [hlookup, orderedRules_positions h, hlength]
  apply List.ext_getElem
  · simp
  · intro i hi hi'
    simp [hi']

/-! ## The two operations -/

theorem Names.of_perm (hids : (rows.map (·.ruleId)).Nodup)
    (h : ids.Perm ((rows.filter (·.accountId == a)).map (·.ruleId))) : Names rows a ids := by
  refine ⟨h.nodup_iff.mpr (hids.sublist (List.filter_sublist.map _)), ?_⟩
  intro id
  rw [h.mem_iff, List.mem_map]
  constructor
  · rintro ⟨row, hrow, rfl⟩
    obtain ⟨hrow, ha⟩ := List.mem_filter.mp hrow
    exact ⟨row, hrow, beq_iff_eq.mp ha, rfl⟩
  · rintro ⟨row, hrow, ha, rfl⟩
    exact ⟨row, List.mem_filter.mpr ⟨hrow, beq_iff_eq.mpr ha⟩, rfl⟩

theorem names_orderedRules (hapart : RulesApart db.mailRules) (a : String) :
    Names db.mailRules a ((db.orderedRules a).map (·.ruleId)) :=
  Names.of_perm hapart.ids ((orderedRules_perm db a).map _)

theorem Reorders.names (h : Reorders db a ids) : Names db.mailRules a ids := by
  refine ⟨h.nodup, ?_⟩
  intro id
  rw [h.mem_iff, List.mem_map]
  constructor
  · rintro ⟨row, hrow, rfl⟩
    obtain ⟨hrow, ha⟩ := List.mem_filter.mp hrow
    exact ⟨row, hrow, beq_iff_eq.mp ha, rfl⟩
  · rintro ⟨row, hrow, ha, rfl⟩
    exact ⟨row, List.mem_filter.mpr ⟨hrow, beq_iff_eq.mpr ha⟩, rfl⟩

theorem reorder_places (now : Nat) (entry : String × Nat) :
    Places rows a entry
      ⟨isRule a entry.1, fun row => { row with position := entry.2, updatedAt := now }⟩ where
  condition row _ row' hid haccount := by
    unfold isRule
    rw [Bool.and_eq_true, beq_iff_eq, beq_iff_eq, hid, haccount]
  set _ := ⟨rfl, rfl, rfl, rfl⟩

/-- The statement of the compaction finds its rule by the primary key. -/
theorem compact_places (hids : (rows.map (·.ruleId)).Nodup) {entry : String × Nat}
    (hentry : ∃ row ∈ rows, row.accountId = a ∧ row.ruleId = entry.1) :
    Places rows a entry
      ⟨fun row => row.ruleId == entry.1, fun row => { row with position := entry.2 }⟩ where
  condition row hrow row' hid haccount := by
    dsimp only
    rw [beq_iff_eq, hid]
    constructor
    · intro heq
      obtain ⟨named, hnamed, ha, hid'⟩ := hentry
      rw [List.inj_on_of_nodup_map hids hrow hnamed (heq.trans hid'.symm)]
      exact ⟨ha, hid'⟩
    · exact And.right
  set _ := ⟨rfl, rfl, rfl, rfl⟩

theorem Names.compact_places (hapart : RulesApart rows) (hnames : Names rows a ids)
    (entry : String × Nat) (hentry : entry.1 ∈ ids) :
    Places rows a entry
      ⟨fun row => row.ruleId == entry.1, fun row => { row with position := entry.2 }⟩ :=
  Auth.compact_places hapart.ids ((hnames.mem_iff entry.1).mp hentry)

/-- Where a placed rule is, and what it keeps. -/
theorem Placed.row (hnames : Names rows a ids) (h : Placed a ids ids.length rows rows')
    {row' : MailRuleRow} (hrow' : row' ∈ rows') : ∃ row ∈ rows, row'.ruleId = row.ruleId ∧
      row'.accountId = row.accountId ∧ row'.fields = row.fields ∧
      (row'.accountId = a → row'.position = ids.idxOf row'.ruleId) := by
  obtain ⟨f, rfl, hf⟩ := h.moved
  obtain ⟨row, hrow, rfl⟩ := List.mem_map.mp hrow'
  obtain ⟨hid, haccount, hfields, hposition⟩ := hf row hrow
  refine ⟨row, hrow, hid, haccount, hfields, ?_⟩
  intro ha
  have ha := haccount.symm.trans ha
  rw [hposition, hid]
  unfold midPosition
  rw [if_pos ha, if_pos (List.idxOf_lt_length_of_mem (hnames.mem hrow ha))]

theorem Placed.names (hnames : Names rows a ids) (h : Placed a ids ids.length rows rows') :
    Names rows' a ids := by
  refine ⟨hnames.nodup, ?_⟩
  intro id
  obtain ⟨f, rfl, hf⟩ := h.moved
  rw [hnames.mem_iff]
  constructor
  · rintro ⟨row, hrow, ha, hid⟩
    exact ⟨f row, List.mem_map_of_mem hrow, (hf row hrow).2.1.trans ha, (hf row hrow).1.trans hid⟩
  · rintro ⟨row', hrow', ha, hid⟩
    obtain ⟨row, hrow, rfl⟩ := List.mem_map.mp hrow'
    exact ⟨row, hrow, (hf row hrow).2.1.symm.trans ha, (hf row hrow).1.symm.trans hid⟩

theorem Placed.listed (hnames : Names rows a ids) (h : Placed a ids ids.length rows db.mailRules)
    (hordered : RulesOrdered db.mailRules) : (db.orderedRules a).map (·.ruleId) = ids := by
  apply orderedRules_ids hordered (h.names hnames)
  intro row hrow
  obtain ⟨-, -, -, -, -, hposition⟩ := h.row hnames hrow
  exact hposition

theorem placed_compact (hapart : RulesApart db.mailRules) (a : String) :
    Placed a ((db.orderedRules a).map (·.ruleId)) ((db.orderedRules a).map (·.ruleId)).length
      db.mailRules (db.compactPositions a).mailRules := by
  have hnames := names_orderedRules hapart a
  rw [mailRules_compactPositions]
  exact placed_all hnames (hnames.compact_places hapart)

theorem placed_reorder (hnames : Names db.mailRules a ids) (now : Nat) :
    Placed a ids ids.length db.mailRules
      (ids.zipIdx.foldl (fun db entry => db.placeRule a now entry.1 entry.2)
        (db.shiftPositions a)).mailRules := by
  rw [mailRules_reorder]
  exact placed_all hnames fun entry _ => reorder_places now entry

/-- The rules that a deletion leaves. -/
theorem filter_isRule_other {b ruleId : String} (hb : b ≠ a) :
    ((rows.filter fun row => !isRule a ruleId row).filter (·.accountId == b)) =
      rows.filter (·.accountId == b) := by
  rw [List.filter_filter]
  apply List.filter_congr
  intro row _
  by_cases hrow : row.accountId = b
  · simp [isRule, hrow, hb]
  · simp [hrow]

theorem RulesOrdered.delete (h : RulesOrdered db.mailRules) (a ruleId : String) :
    RulesOrdered ((db.deleteMailRules (isRule a ruleId)).compactPositions a).mailRules := by
  have hapart : RulesApart (db.deleteMailRules (isRule a ruleId)).mailRules := h.apart.filter _
  apply (placed_compact hapart a).ordered hapart (names_orderedRules hapart a)
  intro b hb
  have hfilter : (db.deleteMailRules (isRule a ruleId)).mailRules.filter (·.accountId == b) =
      db.mailRules.filter (·.accountId == b) := filter_isRule_other hb
  rw [hfilter]
  exact h.positions b

theorem RulesOrdered.reorder (h : RulesOrdered db.mailRules) (hreorders : Reorders db a ids)
    (now : Nat) :
    RulesOrdered (ids.zipIdx.foldl (fun db entry => db.placeRule a now entry.1 entry.2)
      (db.shiftPositions a)).mailRules :=
  (placed_reorder hreorders.names now).ordered h.apart hreorders.names fun b _ => h.positions b

/-- The remaining rules keep their order. -/
theorem orderedRules_delete (h : RulesOrdered db.mailRules) (a ruleId : String) :
    (((db.deleteMailRules (isRule a ruleId)).compactPositions a).orderedRules a).map (·.ruleId) =
      ((db.orderedRules a).map (·.ruleId)).filter (· != ruleId) := by
  have hapart : RulesApart (db.deleteMailRules (isRule a ruleId)).mailRules := h.apart.filter _
  rw [(placed_compact hapart a).listed (names_orderedRules hapart a) (h.delete a ruleId)]
  have hsame : (db.deleteMailRules (isRule a ruleId)).orderedRules a =
      (db.orderedRules a).filter (·.ruleId != ruleId) := by
    apply List.Perm.eq_of_pairwise _ (pairwise_orderedRules _ a)
      ((pairwise_orderedRules db a).filter _)
    · apply (orderedRules_perm _ a).trans
      have hrows : (db.deleteMailRules (isRule a ruleId)).mailRules.filter (·.accountId == a) =
          (db.mailRules.filter (·.accountId == a)).filter (·.ruleId != ruleId) := by
        show (db.mailRules.filter fun row => !isRule a ruleId row).filter (·.accountId == a) = _
        rw [List.filter_filter, List.filter_filter]
        apply List.filter_congr
        intro row _
        unfold isRule
        cases hrow : row.accountId == a with
        | false => simp
        | true => simp [bne]
      rw [hrows]
      exact (orderedRules_perm db a).symm.filter _
    · intro x y hx hy hxy hyx
      have hx := (List.mem_filter.mp ((orderedRules_perm _ a).mem_iff.mp hx)).1
      have hy := (List.mem_filter.mp ((orderedRules_perm db a).mem_iff.mp
        (List.mem_filter.mp hy).1)).1
      apply h.apart.eq_of_id (List.mem_filter.mp hx).1 hy
      have hxy := (ruleLe_iff x y).mp hxy
      have hyx := (ruleLe_iff y x).mp hyx
      rcases hxy with hlt | ⟨heq, hle⟩
      · rcases hyx with hlt' | ⟨heq', -⟩ <;> omega
      · rcases hyx with hlt' | ⟨-, hle'⟩
        · omega
        · exact String.le_antisymm hle hle'
  rw [hsame, List.filter_map]
  rfl

end MaddyWeb.Auth
