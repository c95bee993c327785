import MaddyWeb.Auth.StoredRules

/-!
# The life of a rule run

A run is queued, may run, and ends as completed, failed or cancelled.  Only a call that
creates a run removes runs of an account that stays, and only final ones.
-/

namespace MaddyWeb.Auth

open MaddyWeb.Library

variable {db db' : Db} {env : Env} {call : Call} {a : String}

abbrev Runs := List MailRuleRunRow

/-- The final runs of an account, which the creation of a run prunes. -/
def isFinalOf (a : String) (run : MailRuleRunRow) : Bool :=
  run.accountId == a && !run.status.isActive

def isActiveOf (a : String) (run : MailRuleRunRow) : Bool :=
  run.accountId == a && run.status.isActive

/-! ## Pruning -/

theorem newerThan_iff (x y : MailRuleRunRow) : x.newerThan y = true ↔
    y.createdAt < x.createdAt ∨ (x.createdAt = y.createdAt ∧ y.runId ≤ x.runId) := by
  simp [MailRuleRunRow.newerThan]

theorem newerThan_trans {x y z : MailRuleRunRow} (hxy : x.newerThan y = true)
    (hyz : y.newerThan z = true) : x.newerThan z = true := by
  apply (newerThan_iff x z).mpr
  rcases (newerThan_iff x y).mp hxy with hxy | ⟨hxy, hid⟩
  · rcases (newerThan_iff y z).mp hyz with hyz | ⟨hyz, -⟩ <;> exact Or.inl (by omega)
  · rcases (newerThan_iff y z).mp hyz with hyz | ⟨hyz, hid'⟩
    · exact Or.inl (by omega)
    · exact Or.inr ⟨by omega, String.le_trans hid' hid⟩

theorem newerThan_total (x y : MailRuleRunRow) : x.newerThan y = true ∨ y.newerThan x = true := by
  rw [newerThan_iff, newerThan_iff]
  rcases Nat.lt_trichotomy x.createdAt y.createdAt with hlt | heq | hlt
  · exact Or.inr (Or.inl hlt)
  · rcases String.le_total x.runId y.runId with hle | hle
    · exact Or.inr (Or.inr ⟨heq.symm, hle⟩)
    · exact Or.inl (Or.inr ⟨heq, hle⟩)
  · exact Or.inl (Or.inl hlt)

/-- The final runs of the account, the newest first. -/
def Db.finalRuns (db : Db) (a : String) : Runs :=
  (db.mailRuleRuns.filter (isFinalOf a)).mergeSort MailRuleRunRow.newerThan

theorem finalRuns_perm (db : Db) (a : String) :
    (db.finalRuns a).Perm (db.mailRuleRuns.filter (isFinalOf a)) :=
  List.mergeSort_perm _ _

theorem pairwise_finalRuns (db : Db) (a : String) :
    (db.finalRuns a).Pairwise fun x y => x.newerThan y = true := by
  apply List.pairwise_mergeSort
  · exact fun x y z => newerThan_trans
  · intro x y
    rw [Bool.or_eq_true]
    exact newerThan_total x y

theorem mem_finalRuns {run : MailRuleRunRow} : run ∈ db.finalRuns a ↔
    run ∈ db.mailRuleRuns ∧ run.accountId = a ∧ run.status.isActive = false := by
  rw [(finalRuns_perm db a).mem_iff, List.mem_filter, isFinalOf]
  simp

/-- The runs that stay when a run is created. -/
def Db.keepsRun (db : Db) (a : String) (run : MailRuleRunRow) : Bool :=
  !(((db.finalRuns a).drop 99).map (·.runId)).contains run.runId

theorem pruneRuns_eq (db : Db) (a : String) :
    db.pruneRuns a = { db with mailRuleRuns := db.mailRuleRuns.filter (db.keepsRun a) } := rfl

theorem keepsRun_eq_false {run : MailRuleRunRow} : db.keepsRun a run = false ↔
    ∃ pruned ∈ (db.finalRuns a).drop 99, pruned.runId = run.runId := by
  unfold Db.keepsRun
  rw [Bool.not_eq_false', List.contains_iff_mem, List.mem_map]

section Pruning

variable (hids : (db.mailRuleRuns.map (·.runId)).Nodup)

include hids

/-- A run that is pruned is one of the final runs after the newest 99. -/
theorem mem_drop_of_pruned {run : MailRuleRunRow} (hrun : run ∈ db.mailRuleRuns)
    (hpruned : db.keepsRun a run = false) : run ∈ (db.finalRuns a).drop 99 := by
  obtain ⟨pruned, hmem, hid⟩ := keepsRun_eq_false.mp hpruned
  have hstored := (mem_finalRuns.mp (List.mem_of_mem_drop hmem)).1
  have heq : pruned = run := List.inj_on_of_nodup_map hids hstored hrun hid
  exact heq ▸ hmem

theorem final_of_pruned {run : MailRuleRunRow} (hrun : run ∈ db.mailRuleRuns)
    (hpruned : db.keepsRun a run = false) : run.accountId = a ∧ run.status.isActive = false :=
  (mem_finalRuns.mp (List.mem_of_mem_drop (mem_drop_of_pruned hids hrun hpruned))).2

/-- The final runs that stay are the newest 99. -/
theorem kept_finalRuns_perm :
    ((db.mailRuleRuns.filter (db.keepsRun a)).filter (isFinalOf a)).Perm
      ((db.finalRuns a).take 99) := by
  have hsplit : (db.finalRuns a).filter (db.keepsRun a) = (db.finalRuns a).take 99 := by
    have hnodup : ((db.finalRuns a).map (·.runId)).Nodup := by
      apply ((finalRuns_perm db a).map _).nodup_iff.mpr
      exact hids.sublist (List.filter_sublist.map _)
    have htake : ∀ run ∈ (db.finalRuns a).take 99, db.keepsRun a run = true := by
      intro run hrun
      rw [← Bool.not_eq_false, keepsRun_eq_false]
      rintro ⟨pruned, hpruned, hid⟩
      rw [← List.take_append_drop 99 (db.finalRuns a), List.map_append] at hnodup
      apply (List.nodup_append.mp hnodup).2.2 run.runId (List.mem_map_of_mem hrun) pruned.runId
        (List.mem_map_of_mem hpruned)
      exact hid.symm
    have hdrop : ∀ run ∈ (db.finalRuns a).drop 99, ¬ db.keepsRun a run = true := by
      intro run hrun
      rw [Bool.not_eq_true, keepsRun_eq_false]
      exact ⟨run, hrun, rfl⟩
    conv_lhs => rw [← List.take_append_drop 99 (db.finalRuns a)]
    rw [List.filter_append, List.filter_eq_self.mpr htake, List.filter_eq_nil_iff.mpr hdrop,
      List.append_nil]
  rw [← hsplit, List.filter_comm]
  exact ((finalRuns_perm db a).filter _).symm

theorem newer_of_pruned {run other : MailRuleRunRow} (hrun : run ∈ db.mailRuleRuns)
    (hpruned : db.keepsRun a run = false) (hother : other ∈ db.mailRuleRuns)
    (hfinal : isFinalOf a other = true) (hkept : db.keepsRun a other = true) :
    other.newerThan run = true := by
  have hlater := mem_drop_of_pruned hids hrun hpruned
  have hearlier : other ∈ (db.finalRuns a).take 99 := by
    apply (kept_finalRuns_perm hids).mem_iff.mp
    exact List.mem_filter.mpr ⟨List.mem_filter.mpr ⟨hother, hkept⟩, hfinal⟩
  have hsorted := pairwise_finalRuns db a
  rw [← List.take_append_drop 99 (db.finalRuns a)] at hsorted
  exact (List.pairwise_append.mp hsorted).2.2 other hearlier run hlater

end Pruning

/-! ## What a call does to the runs -/

/-- A new run, of an account that has no active one. -/
structure NewRun (db : Db) (a : String) (run : MailRuleRunRow) : Prop where
  idle : ∀ old ∈ db.mailRuleRuns, isActiveOf a old = false
  fresh : run.runId ∉ (db.pruneRuns a).mailRuleRuns.map (·.runId)
  account : run.accountId = a
  unstarted : run.startedAt = none
  finished : run.finishedAt.isSome = !run.status.isActive

/-- The report of an active run. -/
structure Reported (db : Db) (a runId : String) (set : MailRuleRunRow → MailRuleRunRow) : Prop where
  active : ∀ run ∈ db.findRun a runId, run.status.isActive = true
  keys : ∀ run, (set run).runId = run.runId ∧ (set run).accountId = run.accountId
  started : ∀ run ∈ db.findRun a runId, ∀ time ∈ run.startedAt, (set run).startedAt = some time
  finished : ∀ run, (set run).finishedAt.isSome = !(set run).status.isActive

inductive RunsStep (call : Call) (db db' : Db) : Prop
  | same (h : db'.mailRuleRuns = db.mailRuleRuns)
  | created (a : String) (run : MailRuleRunRow) (hnew : NewRun db a run)
      (h : db'.mailRuleRuns = (db.pruneRuns a).mailRuleRuns ++ [run])
  | reported (a runId : String) (set : MailRuleRunRow → MailRuleRunRow)
      (hset : Reported db a runId set)
      (h : db'.mailRuleRuns = db.mailRuleRuns.map fun run =>
        if run.accountId == a && run.runId == runId then set run else run)
  | ruleDeleted (a ruleId : String)
      (h : db' = (db.deleteMailRules (isRule a ruleId)).compactPositions a)
  | accountDeleted (a : String) (hcall : call.op = .deleteAccount a)
      (h : db'.mailRuleRuns = (db.deleteAccountRow a).mailRuleRuns)
      (hrules : db'.mailRules = (db.deleteAccountRow a).mailRules)

/-- `insertRun` adds its run or fails. -/
theorem insertRun_eq_ok {random : Random} {now : Nat} {ruleId : String} {revision : Nat}
    {snapshotJson stateJson : String} {completed : Bool} {run : MailRuleRunRow}
    (h : insertRun random now a ruleId revision snapshotJson stateJson completed db =
      (.ok run, db')) :
    NewRun db a run ∧ run.ruleId = some ruleId ∧
      db' = { db with mailRuleRuns := (db.pruneRuns a).mailRuleRuns ++ [run] } := by
  unfold insertRun at h
  rw [Exec.inspect_bind] at h
  obtain ⟨hidle, h⟩ := Exec.ensure_bind_eq_ok h
  rw [Exec.update_bind] at h
  obtain ⟨runId, hid, h⟩ := Exec.require_bind_eq_ok h
  dsimp only at h
  rw [Exec.update_bind] at h
  obtain ⟨rfl, rfl⟩ := Exec.ret_eq_ok h
  refine ⟨⟨?_, ?_, rfl, rfl, ?_⟩, rfl, rfl⟩
  · intro old hold
    rw [Bool.not_eq_true', List.any_eq_false] at hidle
    exact Bool.eq_false_of_not_eq_true (hidle old hold)
  · have hfresh : runId.text ∉ (db.pruneRuns a).mailRuleRuns.map (·.runId) :=
      not_mem_of_firstUnused hid
    exact hfresh
  · cases completed <;> rfl

theorem eq_of_ite_hex {normalized : String}
    (h : (if isHex32 a then some a else none) = some normalized) : normalized = a := by
  split at h
  · exact (Option.some.inj h).symm
  · cases h

/-- `create_mail_rule_with_run` adds the rule and its run, or nothing. -/
theorem createMailRuleWithRun_cases {random : Random} {clock : Option Nat}
    {name enabled expression target stop state : Json} {completed : Bool}
    {result : Except AuthError (MailRuleRecord × MailRuleRun)}
    (h : createMailRuleWithRun env random clock a name enabled expression target stop state
      completed db = (result, db')) :
    (∃ e, result = .error e ∧ db' = db) ∨
      ∃ rule run recorded, result = .ok recorded ∧ NewRun db a run ∧
        rule.accountId = a ∧ run.ruleId = some rule.ruleId ∧
        db' = { db with
          mailRules := db.mailRules ++ [rule]
          mailRuleRuns := (db.pruneRuns a).mailRuleRuns ++ [run] } := by
  cases result with
  | error e =>
      refine Or.inl ⟨e, rfl, ?_⟩
      have hrolls : Exec.Rolls (createMailRuleWithRun env random clock a name enabled expression
          target stop state completed) := by
        unfold createMailRuleWithRun validateAccountId readClock
        apply Exec.Rolls.require_bind
        intro normalizedId
        apply Exec.Rolls.ofExcept_bind
        intro fields
        apply Exec.Rolls.ofExcept_bind
        intro stateJson
        apply Exec.Rolls.require_bind
        exact fun now => Exec.Rolls.atomically _
      exact hrolls db e db' h
  | ok recorded =>
      right
      unfold createMailRuleWithRun validateAccountId readClock at h
      obtain ⟨normalized, hnormalized, h⟩ := Exec.require_bind_eq_ok h
      obtain ⟨fields, -, h⟩ := Exec.ofExcept_bind_eq_ok h
      obtain ⟨stateJson, -, h⟩ := Exec.ofExcept_bind_eq_ok h
      obtain ⟨now, -, h⟩ := Exec.require_bind_eq_ok h
      have h := Exec.atomically_eq_ok h
      obtain ⟨row, db₁, hinsert, h⟩ := Exec.bind_eq_ok h
      obtain ⟨rule, hrule, h⟩ := Exec.ofExcept_bind_eq_ok h
      obtain ⟨snapshotJson, -, h⟩ := Exec.ofExcept_bind_eq_ok h
      obtain ⟨run, db₂, hrun, h⟩ := Exec.bind_eq_ok h
      obtain ⟨record, -, h⟩ := Exec.ofExcept_bind_eq_ok h
      obtain ⟨-, rfl⟩ := Exec.ret_eq_ok h
      have haccount : normalized = a := eq_of_ite_hex hnormalized
      obtain ⟨rfl, hrow⟩ := insertMailRule_eq_ok hinsert
      obtain ⟨hnew, hid, hadds⟩ := insertRun_eq_ok hrun
      rw [haccount] at hnew hadds hrow
      have hnew : NewRun db a run :=
        ⟨hnew.idle, hnew.fresh, hnew.account, hnew.unstarted, hnew.finished⟩
      refine ⟨row, run, recorded, rfl, hnew, hrow, ?_, hadds⟩
      rw [hid, mailRuleFromRow_ruleId hrule]

theorem createMailRuleRun_runs {random : Random} {clock : Option Nat} {ruleId : String}
    {snapshot state : Json} :
    Exec.Moves (RunsStep call) (createMailRuleRun env random clock a ruleId snapshot state) := by
  have hrefl : ∀ db, RunsStep call db db := fun db => .same rfl
  have hreads : Exec.Composes fun db db' : Db => db' = db := Exec.reads_composes
  unfold createMailRuleRun validateAccountId readClock
  apply Exec.Reads.bind_moves hrefl (hreads.require _ _)
  intro normalizedId
  apply Exec.Reads.bind_moves hrefl (hreads.ofExcept _)
  intro normalizedRule
  apply Exec.Reads.bind_moves hrefl (hreads.ofExcept _)
  intro snapshotJson
  apply Exec.Reads.bind_moves hrefl (hreads.ofExcept _)
  intro stateJson
  apply Exec.Reads.bind_moves hrefl (hreads.require _ _)
  intro now
  apply Exec.Moves.bind_reads
  · apply Exec.moves_atomically hrefl
    intro db run db' h
    obtain ⟨rule, -, h⟩ := Exec.require_bind_eq_ok h
    obtain ⟨hnew, -, rfl⟩ := insertRun_eq_ok h
    exact .created normalizedId run hnew rfl
  · exact fun run => hreads.ofExcept _

theorem updateMailRuleRun_runs {clock : Option Nat} {runId : String} {state : Json}
    {progress : RunProgress} :
    Exec.Moves (RunsStep call) (updateMailRuleRun env clock a runId state progress) := by
  have hrefl : ∀ db, RunsStep call db db := fun db => .same rfl
  have hreads : Exec.Composes fun db db' : Db => db' = db := Exec.reads_composes
  unfold updateMailRuleRun validateAccountId readClock
  apply Exec.Reads.bind_moves hrefl (hreads.require _ _)
  intro normalizedId
  apply Exec.Reads.bind_moves hrefl (hreads.ofExcept _)
  intro normalizedRun
  apply Exec.Reads.bind_moves hrefl (hreads.ensure _ _)
  intro _
  apply Exec.Reads.bind_moves hrefl (hreads.ofExcept _)
  intro stateJson
  apply Exec.Reads.bind_moves hrefl (hreads.require _ _)
  intro now
  apply Exec.Moves.bind_reads
  · apply Exec.moves_atomically hrefl
    intro db run db' h
    obtain ⟨current, hcurrent, h⟩ := Exec.require_bind_eq_ok h
    obtain ⟨hactive, h⟩ := Exec.ensure_bind_eq_ok h
    rw [Exec.update_bind] at h
    obtain ⟨-, rfl⟩ := Exec.require_eq_ok h
    apply RunsStep.reported normalizedId normalizedRun _ _ rfl
    refine ⟨?_, fun run => ⟨rfl, rfl⟩, ?_, ?_⟩
    · intro found hfound
      have hsame : current = found := Option.some.inj (hcurrent.symm.trans hfound)
      exact hsame ▸ hactive
    · intro found hfound time htime
      have hsame : current = found := Option.some.inj (hcurrent.symm.trans hfound)
      have htime : current.startedAt = some time := hsame ▸ htime
      simp [htime]
    · intro found
      show (if progress.status.isActive then none else some now : Option Nat).isSome = _
      cases progress.status.isActive <;> rfl
  · exact fun run => hreads.ofExcept _

theorem cancelMailRuleRun_runs {clock : Option Nat} {runId : String} :
    Exec.Moves (RunsStep call) (cancelMailRuleRun env clock a runId) := by
  have hrefl : ∀ db, RunsStep call db db := fun db => .same rfl
  have hreads : Exec.Composes fun db db' : Db => db' = db := Exec.reads_composes
  unfold cancelMailRuleRun getMailRuleRun validateAccountId
  apply Exec.Reads.bind_moves hrefl
  · apply hreads.bind (hreads.require _ _)
    intro normalizedId
    apply hreads.bind (hreads.ofExcept _)
    intro normalizedRun
    apply hreads.bind (hreads.require _ _)
    exact fun row => hreads.ofExcept _
  · exact fun current => updateMailRuleRun_runs

def SameRuns (db db' : Db) : Prop := db'.mailRuleRuns = db.mailRuleRuns

theorem sameRuns_composes : Exec.Composes SameRuns where
  refl _ := rfl
  trans h₁ h₂ := h₂.trans h₁

theorem sameRuns_statements (hrules : call.op.writesRules = false)
    (hdeletes : call.op.deletesAccount = false) : OpStatements env call SameRuns where
  composes := sameRuns_composes
  rules hop := absurd (hrules.symm.trans hop) Bool.false_ne_true
  credentials _ _ _ := rfl
  rates _ := ⟨fun _ _ => rfl, fun _ _ _ _ _ _ _ => rfl, fun _ _ _ _ => rfl⟩
  sessions _ := ⟨fun _ _ => rfl, fun _ _ _ _ => rfl⟩
  dropSessions _ _ _ := rfl
  issue _ _ _ _ _ := rfl
  updatePasskey _ _ _ _ _ := rfl
  insertPasskey _ _ _ _ _ _ := rfl
  dropPasskeys _ _ := rfl
  updateAccounts _ _ _ _ _ := rfl
  insertAccount _ _ _ := rfl
  deleteAccount hop := absurd (hdeletes.symm.trans hop) Bool.false_ne_true
  dropCodes _ _ _ := rfl
  storeCode _ _ _ := rfl
  dropPending _ _ _ := rfl
  updatePending _ _ _ _ _ := rfl
  insertPending _ _ _ _ _ := rfl

/-- The operations on rules that leave the runs alone. -/
def RuleOp.writesRuns : RuleOp → Bool
  | .createMailRuleWithRun .. | .createMailRuleRun .. | .updateMailRuleRun ..
  | .cancelMailRuleRun .. | .deleteMailRule .. => true
  | _ => false

theorem ruleStep_sameRuns {random : Random} {clock : Option Nat} {op : RuleOp}
    (hop : op.writesRuns = false) : Exec.Moves SameRuns (ruleStep env random clock op) := by
  have hR := sameRuns_composes
  cases op with
  | _ =>
      first
      | exact absurd hop.symm Bool.false_ne_true
      | simp only [ruleStep, replyWith, listMailRules, getMailRule, createMailRule, insertMailRule,
          updateMailRule, reorderMailRules, mailboxRuleReferenceCount, getActiveMailRuleRun,
          getMailRuleRun, validateAccountId, readClock, requireAccountById]
      repeat' with_reducible first
        | exact hR.ret _
        | exact hR.raise _
        | exact hR.inspect _
        | exact hR.ofExcept _
        | exact hR.ensure _ _
        | exact hR.require _ _
        | apply hR.bind
        | apply hR.atomically
        | intro _
        | split
      -- the loop of `reorder_mail_rules` is the one statement that is not a single update
      all_goals
        apply Exec.Moves.update
        intro db
      all_goals first
        | rfl
        | apply foldl_moves hR
      all_goals
        intro db entry
        rfl

theorem deleteMailRule_runs {ruleId : String} :
    Exec.Moves (RunsStep call) (deleteMailRule a ruleId) := by
  intro db
  rcases hrun : deleteMailRule a ruleId db with ⟨e | u, db'⟩
  · have hrolls : Exec.Rolls (deleteMailRule a ruleId) := by
      unfold deleteMailRule validateAccountId
      apply Exec.Rolls.require_bind
      intro normalizedId
      apply Exec.Rolls.ofExcept_bind
      exact fun normalizedRule => Exec.Rolls.atomically _
    rw [hrolls db e db' hrun]
    exact .same rfl
  · exact .ruleDeleted a ruleId (deleteMailRule_eq_ok hrun).2

theorem deleteAccount_runs (hcall : call.op = .deleteAccount a) :
    Exec.Moves (RunsStep call) (deleteAccount env a) := by
  have hrefl : ∀ db, RunsStep call db db := fun db => .same rfl
  intro db
  unfold deleteAccount validateAccountId
  rcases hhex : isHex32 a with - | -
  · exact .same rfl
  · apply Exec.moves_atomically hrefl
    intro db u db' h
    obtain ⟨row, -, h⟩ := Exec.require_bind_eq_ok h
    rw [Exec.update_bind, Exec.inspect_bind, Exec.update_bind] at h
    obtain ⟨-, rfl⟩ := Exec.ensure_eq_ok h
    exact .accountDeleted a hcall rfl rfl

theorem replyWith_runs {α : Type} {reply : α → Reply} {m : Store α}
    (h : Exec.Moves (RunsStep call) m) : Exec.Moves (RunsStep call) (replyWith reply m) :=
  h.bind_reads fun _ => Exec.reads_composes.ret _

/-- Every call makes one of the steps. -/
theorem perform_runs (env : Env) (db : Db) (call : Call) :
    RunsStep call db (db.after env call) := by
  by_cases hsame : call.op.writesRules = false ∧ call.op.deletesAccount = false
  · exact .same (perform_allows (sameRuns_statements hsame.1 hsame.2) db)
  obtain ⟨op, random, clock, later⟩ := call
  unfold Db.after
  cases op with
  | deleteAccount id => exact replyWith_runs (deleteAccount_runs rfl) db
  | mailRules op =>
      cases op with
      | createMailRuleWithRun id name enabled expression target stop state completed =>
          apply replyWith_runs
          intro db
          rcases hrun :
            createMailRuleWithRun env random clock id name enabled expression target stop
            state completed db with ⟨result, db'⟩
          rcases createMailRuleWithRun_cases hrun
            with ⟨e, -, rfl⟩ | ⟨rule, run, -, -, hnew, -, -, rfl⟩
          · exact .same rfl
          · exact .created id run hnew rfl
      | createMailRuleRun id ruleId snapshot state => exact replyWith_runs createMailRuleRun_runs db
      | updateMailRuleRun id runId state progress => exact replyWith_runs updateMailRuleRun_runs db
      | cancelMailRuleRun id runId => exact replyWith_runs cancelMailRuleRun_runs db
      | deleteMailRule id ruleId => exact replyWith_runs deleteMailRule_runs db
      | _ => exact .same (ruleStep_sameRuns rfl db)
  | _ => exact absurd ⟨rfl, rfl⟩ hsame

/-! ## The runs of an account -/

/-- The runs that a store holds. -/
structure RunsSound (runs : Runs) : Prop where
  ids : (runs.map (·.runId)).Nodup
  oneActive : ∀ a, (runs.filter (isActiveOf a)).length ≤ 1
  room : ∀ a, (runs.filter (·.accountId == a)).length ≤ maxMailRuleRunsPerAccount
  finished : ∀ run ∈ runs, run.finishedAt.isSome = !run.status.isActive

theorem RunsSound.filter {runs : Runs} (h : RunsSound runs) (keep : MailRuleRunRow → Bool) :
    RunsSound (runs.filter keep) where
  ids := h.ids.sublist (List.filter_sublist.map _)
  oneActive a := Nat.le_trans (List.filter_sublist.filter _).length_le (h.oneActive a)
  room a := Nat.le_trans (List.filter_sublist.filter _).length_le (h.room a)
  finished run hrun := h.finished run (List.mem_filter.mp hrun).1

theorem length_filter_map_le {runs : Runs} {set : MailRuleRunRow → MailRuleRunRow}
    {p q : MailRuleRunRow → Bool} (h : ∀ run ∈ runs, p (set run) = true → q run = true) :
    ((runs.map set).filter p).length ≤ (runs.filter q).length := by
  rw [List.filter_map, List.length_map, ← List.countP_eq_length_filter,
    ← List.countP_eq_length_filter]
  exact List.countP_mono_left h

/-- A change of some runs: no final run becomes active, and the report of the end is kept. -/
theorem RunsSound.map {runs : Runs} (h : RunsSound runs) {set : MailRuleRunRow → MailRuleRunRow}
    (hkeys : ∀ run, (set run).runId = run.runId ∧ (set run).accountId = run.accountId)
    (hactive : ∀ run ∈ runs, (set run).status.isActive = true → run.status.isActive = true)
    (hfinished : ∀ run ∈ runs, (set run).finishedAt.isSome = !(set run).status.isActive) :
    RunsSound (runs.map set) where
  ids := by
    have hsame : (runs.map set).map (·.runId) = runs.map (·.runId) := by
      rw [List.map_map]
      exact List.map_congr_left fun run _ => (hkeys run).1
    rw [hsame]
    exact h.ids
  oneActive := by
    intro a
    apply Nat.le_trans _ (h.oneActive a)
    apply length_filter_map_le
    intro run hrun hp
    unfold isActiveOf at hp ⊢
    rw [Bool.and_eq_true] at hp ⊢
    exact ⟨(hkeys run).2 ▸ hp.1, hactive run hrun hp.2⟩
  room := by
    intro a
    apply Nat.le_trans _ (h.room a)
    apply length_filter_map_le
    exact fun run _ hp => (hkeys run).2 ▸ hp
  finished := by
    intro run hrun
    obtain ⟨old, hold, rfl⟩ := List.mem_map.mp hrun
    exact hfinished old hold

theorem RunsSound.created (h : RunsSound db.mailRuleRuns) {run : MailRuleRunRow}
    (hnew : NewRun db a run) : RunsSound ((db.pruneRuns a).mailRuleRuns ++ [run]) := by
  have hkept : RunsSound (db.pruneRuns a).mailRuleRuns := h.filter _
  have hidle : ∀ old ∈ (db.pruneRuns a).mailRuleRuns, isActiveOf a old = false :=
    fun old hold => hnew.idle old (List.mem_filter.mp hold).1
  -- without an active run, the runs that stay are the newest final ones
  have hroom : ((db.pruneRuns a).mailRuleRuns.filter (·.accountId == a)).length ≤ 99 := by
    have hfinal : (db.pruneRuns a).mailRuleRuns.filter (·.accountId == a) =
        (db.pruneRuns a).mailRuleRuns.filter (isFinalOf a) := by
      apply List.filter_congr
      intro old hold
      have hold := hidle old hold
      unfold isActiveOf at hold
      unfold isFinalOf
      cases haccount : old.accountId == a with
      | false => rfl
      | true =>
          rw [haccount, Bool.true_and] at hold
          rw [hold]
          rfl
    rw [hfinal, pruneRuns_eq, (kept_finalRuns_perm h.ids).length_eq, List.length_take]
    exact Nat.min_le_left _ _
  constructor
  · have hnodup := hkept.ids.concat hnew.fresh
    rw [List.concat_eq_append] at hnodup
    rw [List.map_append]
    exact hnodup
  · intro b
    rw [List.filter_append, List.length_append]
    by_cases hb : b = a
    · have hnone : (db.pruneRuns a).mailRuleRuns.filter (isActiveOf a) = [] := by
        apply List.filter_eq_nil_iff.mpr
        intro old hold
        rw [hidle old hold]
        exact Bool.false_ne_true
      rw [hb, hnone]
      have hone := List.length_filter_le (isActiveOf a) [run]
      simpa using hone
    · have hother : [run].filter (isActiveOf b) = [] := by
        simp [isActiveOf, hnew.account, Ne.symm hb]
      rw [hother]
      exact hkept.oneActive b
  · intro b
    rw [List.filter_append, List.length_append]
    by_cases hb : b = a
    · rw [hb]
      have hone := List.length_filter_le (·.accountId == a) [run]
      rw [List.length_singleton] at hone
      unfold maxMailRuleRunsPerAccount
      omega
    · have hother : [run].filter (·.accountId == b) = [] := by
        simp [hnew.account, Ne.symm hb]
      rw [hother]
      exact hkept.room b
  · intro old hold
    rcases List.mem_append.mp hold with hold | hold
    · exact hkept.finished old hold
    · rw [List.mem_singleton.mp hold]
      exact hnew.finished

/-- The run that an update names is the only one it changes. -/
theorem RunsSound.found (h : RunsSound db.mailRuleRuns) {runId : String} {run : MailRuleRunRow}
    (hrun : run ∈ db.mailRuleRuns) (hnamed : (run.accountId == a && run.runId == runId) = true) :
    run ∈ db.findRun a runId := by
  have hsome : (db.findRun a runId).isSome := List.find?_isSome.mpr ⟨run, hrun, hnamed⟩
  obtain ⟨found, hfound⟩ := Option.isSome_iff_exists.mp hsome
  have hmem := List.mem_of_find?_eq_some hfound
  have hkeys := List.find?_some hfound
  rw [Bool.and_eq_true, beq_iff_eq, beq_iff_eq] at hkeys hnamed
  have hsame : found = run :=
    List.inj_on_of_nodup_map h.ids hmem hrun (hkeys.2.trans hnamed.2.symm)
  exact hsame ▸ hfound

/-- The reference of a run to a rule that is deleted. -/
def MailRuleRunRow.released (deleted : List String) (run : MailRuleRunRow) : MailRuleRunRow :=
  if run.ruleId.any fun ruleId => deleted.contains ruleId then { run with ruleId := none } else run

theorem released_cases (deleted : List String) (run : MailRuleRunRow) :
    run.released deleted = run ∨
      (run.released deleted = { run with ruleId := none } ∧
        ∃ ruleId ∈ deleted, run.ruleId = some ruleId) := by
  unfold MailRuleRunRow.released
  split
  · next hany =>
      right
      refine ⟨rfl, ?_⟩
      cases hid : run.ruleId with
      | none =>
          rw [hid] at hany
          cases hany
      | some ruleId =>
          rw [hid] at hany
          exact ⟨ruleId, List.contains_iff_mem.mp hany, rfl⟩
  · exact Or.inl rfl

theorem RunsSound.released {runs : Runs} (h : RunsSound runs) (deleted : List String) :
    RunsSound (runs.map (·.released deleted)) := by
  apply h.map
  · intro run
    rcases released_cases deleted run with heq | ⟨heq, -⟩ <;> rw [heq] <;> exact ⟨rfl, rfl⟩
  · intro run _
    rcases released_cases deleted run with heq | ⟨heq, -⟩ <;> rw [heq] <;> exact fun h => h
  · intro run hrun
    rcases released_cases deleted run with heq | ⟨heq, -⟩ <;> rw [heq] <;> exact h.finished run hrun

theorem mailRuleRuns_compactPositions (db : Db) (a : String) :
    (db.compactPositions a).mailRuleRuns = db.mailRuleRuns := by
  have hloop : SameRuns (db.shiftPositions a) (db.compactPositions a) := by
    apply foldl_moves sameRuns_composes
    intro db entry
    rfl
  exact hloop

theorem RunsSound.step (h : RunsSound db.mailRuleRuns) (hstep : RunsStep call db db') :
    RunsSound db'.mailRuleRuns := by
  cases hstep with
  | same hruns =>
      rw [hruns]
      exact h
  | created a run hnew hruns =>
      rw [hruns]
      exact h.created hnew
  | reported a runId set hset hruns =>
      rw [hruns]
      apply h.map
      · intro run
        split
        · exact hset.keys run
        · exact ⟨rfl, rfl⟩
      · intro run hrun hactive
        split at hactive
        · next hnamed => exact hset.active run (h.found hrun hnamed)
        · exact hactive
      · intro run hrun
        split
        · exact hset.finished run
        · exact h.finished run hrun
  | ruleDeleted a ruleId heq =>
      rw [heq, mailRuleRuns_compactPositions]
      exact h.released _
  | accountDeleted a hcall hruns hrules =>
      rw [hruns]
      exact (h.released _).filter _

/-! ## One call after another -/

/-- What a call makes of the runs: it keeps some of them, changes some of those and adds new
ones. -/
structure RunsMoved (call : Call) (db db' : Db) (keep : MailRuleRunRow → Bool)
    (change : MailRuleRunRow → MailRuleRunRow) (created : Runs) : Prop where
  runs : db'.mailRuleRuns = (db.mailRuleRuns.filter keep).map change ++ created
  keys : ∀ run, (change run).runId = run.runId ∧ (change run).accountId = run.accountId
  final : ∀ run ∈ db.mailRuleRuns, run.status.isActive = false → change run = run ∨
    (change run = { run with ruleId := none } ∧ ∃ rule ∈ db.mailRules,
      run.ruleId = some rule.ruleId ∧ rule.ruleId ∉ db'.mailRules.map (·.ruleId))
  started : ∀ run ∈ db.mailRuleRuns, ∀ time ∈ run.startedAt, (change run).startedAt = some time
  removed : ∀ run ∈ db.mailRuleRuns, keep run = false → call.op = .deleteAccount run.accountId ∨
    (run.status.isActive = false ∧ (∃ new ∈ created, new.accountId = run.accountId) ∧
      ∀ other ∈ db.mailRuleRuns, isFinalOf run.accountId other = true → keep other = true →
        other.newerThan run = true)
  single : created.length ≤ 1

/-- A rule that is deleted is gone: its identifier is not used twice. -/
theorem RuleLinks.gone (h : RuleLinks db) {condition : MailRuleRow → Bool} {ruleId : String}
    (hdeleted : ruleId ∈ (db.mailRules.filter condition).map (·.ruleId)) :
    ∃ rule ∈ db.mailRules, rule.ruleId = ruleId ∧
      ruleId ∉ (db.deleteMailRules condition).mailRules.map (·.ruleId) := by
  obtain ⟨rule, hrule, rfl⟩ := List.mem_map.mp hdeleted
  obtain ⟨hmem, hchosen⟩ := List.mem_filter.mp hrule
  refine ⟨rule, hmem, rfl, ?_⟩
  intro hleft
  obtain ⟨other, hother, hid⟩ := List.mem_map.mp hleft
  obtain ⟨hother, hkept⟩ := List.mem_filter.mp hother
  have hsame : other = rule := List.inj_on_of_nodup_map h.ids hother hmem hid
  rw [hsame, hchosen] at hkept
  cases hkept

theorem ruleIds_compactPositions (db : Db) (a : String) :
    (db.compactPositions a).mailRules.map (·.ruleId) = db.mailRules.map (·.ruleId) := by
  have hmap : ∀ (rows : List MailRuleRow) (set : MailRuleRow → MailRuleRow),
      (∀ row, (set row).ruleId = row.ruleId) →
      (rows.map set).map (·.ruleId) = rows.map (·.ruleId) := by
    intro rows set hset
    rw [List.map_map]
    exact List.map_congr_left fun row _ => hset row
  have hloop : (db.compactPositions a).mailRules.map (·.ruleId) =
      (db.shiftPositions a).mailRules.map (·.ruleId) := by
    unfold Db.compactPositions
    generalize db.shiftPositions a = start
    generalize ((db.orderedRules a).map (·.ruleId)).zipIdx = entries
    induction entries generalizing start with
    | nil => rfl
    | cons entry entries ih =>
        rw [List.foldl_cons, ih]
        apply hmap
        intro row
        split <;> rfl
  rw [hloop]
  apply hmap
  intro row
  split <;> rfl

/-- Deleting rules changes nothing else of a run. -/
theorem RuleLinks.released (h : RuleLinks db) {condition : MailRuleRow → Bool}
    (run : MailRuleRunRow) :
    run.released ((db.mailRules.filter condition).map (·.ruleId)) = run ∨
      (run.released ((db.mailRules.filter condition).map (·.ruleId)) = { run with ruleId := none } ∧
        ∃ rule ∈ db.mailRules, run.ruleId = some rule.ruleId ∧
          rule.ruleId ∉ (db.deleteMailRules condition).mailRules.map (·.ruleId)) := by
  rcases released_cases ((db.mailRules.filter condition).map (·.ruleId)) run with
    heq | ⟨heq, ruleId, hdeleted, hid⟩
  · exact Or.inl heq
  · obtain ⟨rule, hrule, rfl, hgone⟩ := h.gone hdeleted
    exact Or.inr ⟨heq, rule, hrule, hid, hgone⟩

theorem released_keeps (deleted : List String) (run : MailRuleRunRow) :
    (run.released deleted).runId = run.runId ∧ (run.released deleted).accountId = run.accountId ∧
      (run.released deleted).startedAt = run.startedAt := by
  rcases released_cases deleted run with heq | ⟨heq, -⟩ <;> rw [heq] <;> exact ⟨rfl, rfl, rfl⟩

theorem RunsStep.moved (hsound : RunsSound db.mailRuleRuns) (hlinks : RuleLinks db)
    (h : RunsStep call db db') :
    ∃ keep change created, RunsMoved call db db' keep change created := by
  cases h with
  | same hruns =>
      refine ⟨fun _ => true, id, [], ?_, fun _ => ⟨rfl, rfl⟩, fun _ _ _ => Or.inl rfl,
        fun _ _ _ htime => htime, fun _ _ hkeep => absurd hkeep.symm Bool.false_ne_true,
          Nat.zero_le 1⟩
      rw [hruns, List.filter_true, List.map_id, List.append_nil]
  | created a run hnew hruns =>
      refine ⟨db.keepsRun a, id, [run], ?_, fun _ => ⟨rfl, rfl⟩, fun _ _ _ => Or.inl rfl,
        fun _ _ _ htime => htime, ?_, Nat.le_refl 1⟩
      · rw [hruns, List.map_id]
        rfl
      · intro old hold hpruned
        obtain ⟨haccount, hfinal⟩ := final_of_pruned hsound.ids hold hpruned
        refine Or.inr ⟨hfinal, ⟨run, List.mem_singleton_self run, ?_⟩, ?_⟩
        · rw [hnew.account, haccount]
        · intro other hother hofinal hkept
          rw [haccount] at hofinal
          exact newer_of_pruned hsound.ids hold hpruned hother hofinal hkept
  | reported a runId set hset hruns =>
      refine ⟨fun _ => true,
        fun run => if run.accountId == a && run.runId == runId then set run else run, [], ?_, ?_,
        ?_, ?_, fun _ _ hkeep => absurd hkeep.symm Bool.false_ne_true, Nat.zero_le 1⟩
      · rw [hruns, List.filter_true, List.append_nil]
      · intro run
        split
        · exact hset.keys run
        · exact ⟨rfl, rfl⟩
      · intro run hrun hfinal
        split
        · next hnamed =>
            have hactive := hset.active run (hsound.found hrun hnamed)
            exact absurd (hfinal.symm.trans hactive) Bool.false_ne_true
        · exact Or.inl rfl
      · intro run hrun time htime
        split
        · next hnamed => exact hset.started run (hsound.found hrun hnamed) time htime
        · exact htime
  | ruleDeleted a ruleId heq =>
      refine ⟨fun _ => true, (·.released ((db.mailRules.filter (isRule a ruleId)).map (·.ruleId))),
        [], ?_, ?_, ?_, ?_, fun _ _ hkeep => absurd hkeep.symm Bool.false_ne_true, Nat.zero_le 1⟩
      · rw [heq, mailRuleRuns_compactPositions, List.filter_true, List.append_nil]
        rfl
      · exact fun run => ⟨(released_keeps _ run).1, (released_keeps _ run).2.1⟩
      · intro run _ _
        rw [heq, ruleIds_compactPositions]
        exact hlinks.released run
      · intro run _ time htime
        rw [(released_keeps _ run).2.2]
        exact htime
  | accountDeleted a hcall hruns hrules =>
      refine ⟨(·.accountId != a),
        (·.released ((db.mailRules.filter (·.accountId == a)).map (·.ruleId))),
        [], ?_, ?_, ?_, ?_, ?_, Nat.zero_le 1⟩
      · rw [hruns, List.append_nil]
        show (db.mailRuleRuns.map _).filter _ = _
        rw [List.filter_map]
        apply congrArg
        apply List.filter_congr
        intro run _
        show ((run.released _).accountId != a) = _
        rw [(released_keeps _ run).2.1]
      · exact fun run => ⟨(released_keeps _ run).1, (released_keeps _ run).2.1⟩
      · intro run _ _
        rw [hrules]
        exact hlinks.released run
      · intro run _ time htime
        rw [(released_keeps _ run).2.2]
        exact htime
      · intro run _ hkeep
        left
        have haccount : run.accountId = a := by simpa using hkeep
        rw [hcall, haccount]

/-- `create_mail_rule_with_run` in a database: both are added, or nothing changes. -/
def AddsBoth (env : Env) (db : Db) : Prop :=
  ∀ random clock a name enabled expression target stop state completed result db',
    createMailRuleWithRun env random clock a name enabled expression target stop state completed
      db = (result, db') →
    (∃ e, result = .error e ∧ db' = db) ∨
      ∃ rule run recorded, result = .ok recorded ∧ NewRun db a run ∧
        rule.accountId = a ∧ run.ruleId = some rule.ruleId ∧
        db' = { db with
          mailRules := db.mailRules ++ [rule]
          mailRuleRuns := (db.pruneRuns a).mailRuleRuns ++ [run] }

theorem ruleLinks_of_reachable (h : Reachable env db) : RuleLinks db :=
  Preserves.reachable (RuleLinks.statements env) (by constructor <;> simp) h

theorem runsSound_of_reachable (h : Reachable env db) : RunsSound db.mailRuleRuns := by
  apply h.induct
  · constructor <;> simp
  · exact fun db call hsound => hsound.step (perform_runs env db call)

/-- The runs in every state that the store reaches, and what the next call makes of them. -/
theorem rule_runs_sound (env : Env) (calls : List Call) (call : Call) :
    let db := Db.afterAll env {} calls
    RunsSound db.mailRuleRuns ∧ AddsBoth env db ∧
      ∃ keep change created, RunsMoved call db (db.after env call) keep change created := by
  intro db
  have hreachable : Reachable env db := reachable_afterAll env calls
  have hsound := runsSound_of_reachable hreachable
  refine ⟨hsound, ?_, ?_⟩
  · intro random clock a name enabled expression target stop state completed result db' hrun
    exact createMailRuleWithRun_cases hrun
  · exact (perform_runs env db call).moved hsound (ruleLinks_of_reachable hreachable)

end MaddyWeb.Auth
