import MaddyWeb.Csrf.Eviction
import MaddyWeb.Library.History

/-!
# The registry over runs

Calls of `CurrentCsrfStore` with a clock that does not go back, each key with one base.  The
entries stand in the order of their last use, and each of them is as it was last set.
-/

namespace MaddyWeb.Csrf.Store

open MaddyWeb.Library.History

inductive Op
  | isCurrent (now : Nat) (key nonce : String)
  | replace (now : Nat) (base key nonce : String)
  | rotate (now : Nat) (base key expectedNonce replacementNonce : String)
  deriving DecidableEq, Repr

def Op.now : Op → Nat
  | .isCurrent now .. => now
  | .replace now .. => now
  | .rotate now .. => now

def Op.key : Op → String
  | .isCurrent _ key _ => key
  | .replace _ _ key _ => key
  | .rotate _ _ key _ _ => key

inductive Outcome
  /-- `replace` returns. -/
  | done
  | accepted
  | rejected
  /-- `hmac.compare_digest` raises `TypeError` for text outside ASCII. -/
  | raised
  deriving DecidableEq, Repr

def isAscii (text : String) : Bool := text.toList.all (·.toNat < 0x80)

/-- The nonce can be compared with that of the key. -/
def comparable (entries : Entries) (key nonce : String) : Bool :=
  match get entries key with
  | none => true
  | some state => isAscii state.nonce && isAscii nonce

def outcomeOf (accepted : Bool) : Outcome := if accepted then .accepted else .rejected

/-- A call. -/
def step (bounds : Bounds) (entries : Entries) : Op → Outcome × Entries
  | .isCurrent now key nonce =>
      if comparable (purge now entries) key nonce then
        (outcomeOf (isCurrent now key nonce entries).1, (isCurrent now key nonce entries).2)
      else (.raised, purge now entries)
  | .replace now base key nonce => (.done, replace bounds now base key nonce entries)
  | .rotate now base key expectedNonce replacementNonce =>
      if comparable (purge now entries) key expectedNonce then
        let result := rotate bounds now base key expectedNonce replacementNonce entries
        (outcomeOf result.1, result.2)
      else (.raised, purge now entries)

structure Event where
  op : Op
  outcome : Outcome
  deriving DecidableEq, Repr

/-- The key of the call is used with its own base. -/
def Op.Based (baseOf : String → String) : Op → Prop
  | .isCurrent .. => True
  | .replace _ base key _ => base = baseOf key
  | .rotate _ base key _ _ => base = baseOf key

/-- The calls so far, the time of the last one and the entries that they leave. -/
inductive Run (bounds : Bounds) (baseOf : String → String) : Nat → List Event → Entries → Prop
  | nil : Run bounds baseOf 0 [] []
  | snoc {clock : Nat} {log : List Event} {entries : Entries} (op : Op) :
      Run bounds baseOf clock log entries → clock ≤ op.now → op.Based baseOf →
      Run bounds baseOf op.now (log ++ [⟨op, (step bounds entries op).1⟩])
        (step bounds entries op).2

/-! ## What events say of a key -/

/-- A call that moves the key to the end of the registry. -/
def Event.uses (key : String) (event : Event) : Bool :=
  event.op.key = key && (event.outcome = .done || event.outcome = .accepted)

/-- A call that puts a nonce under the key. -/
def Event.sets (key : String) (event : Event) : Bool :=
  match event.op with
  | .isCurrent .. => false
  | _ => event.uses key

/-- The call that put this nonce under the key, until this time. -/
def SetTo (bounds : Bounds) (key : String) (state : Current) (event : Event) : Prop :=
  ∃ now base, state.expiresAt = now + bounds.ttl ∧
    (event = ⟨.replace now base key state.nonce, .done⟩ ∨
      ∃ expected, event = ⟨.rotate now base key expected state.nonce, .accepted⟩)

/-- The key was last used before the other one was. -/
def UsedBefore (log : List Event) (key other : String) : Prop :=
  Since (fun event => event.uses key = false) (fun event => event.uses other = true) log

structure Invariant (bounds : Bounds) (baseOf : String → String) (log : List Event)
    (entries : Entries) : Prop where
  keys : (entries.map Prod.fst).Nodup
  bases : ∀ entry ∈ entries, entry.2.base = baseOf entry.1
  capacity : entries.length ≤ bounds.capacity
  flows : ∀ base, (entries.filter fun entry => entry.2.base == base).length ≤
    bounds.flowsPerIdentity
  recent : entries.Pairwise fun a b => UsedBefore log a.1 b.1
  set : ∀ key state, (key, state) ∈ entries →
    Since (fun event => event.sets key = false) (SetTo bounds key state) log

variable {bounds : Bounds} {baseOf : String → String} {clock now : Nat} {log : List Event}
  {entries left : Entries} {base key nonce : String} {state : Current} {event : Event}

/-! ## One call -/

theorem uses_eq_false (h : event.op.key ≠ key) : event.uses key = false := by
  unfold Event.uses
  rw [decide_eq_false h, Bool.false_and]

theorem sets_eq_false (h : event.uses key = false) : event.sets key = false := by
  unfold Event.sets
  split
  · rfl
  · exact h

/-- Entries whose keys the call does not use. -/
theorem Invariant.shrink (h : Invariant bounds baseOf log entries) (hsub : left.Sublist entries)
    (hunused : ∀ entry ∈ left, event.uses entry.1 = false) :
    Invariant bounds baseOf (log ++ [event]) left := by
  refine ⟨h.keys.sublist (hsub.map _), fun entry hentry => h.bases entry (hsub.subset hentry),
    Nat.le_trans hsub.length_le h.capacity,
    fun base => Nat.le_trans (hsub.filter _).length_le (h.flows base), ?_, ?_⟩
  · apply List.Pairwise.imp_of_mem _ (h.recent.sublist hsub)
    intro a b ha _ hbefore
    exact hbefore.snoc (hunused a ha)
  · intro key state hentry
    exact (h.set key state (hsub.subset hentry)).snoc (sets_eq_false (hunused _ hentry))

theorem Invariant.assigned (h : Invariant bounds baseOf (log ++ [event]) (delete left key))
    (huses : event.uses key = true) (hbase : state.base = baseOf key)
    (hcapacity : (delete left key).length < bounds.capacity)
    (hflows : (group left (baseOf key) key).length < bounds.flowsPerIdentity)
    (hset : Since (fun event => event.sets key = false) (SetTo bounds key state) (log ++ [event])) :
    Invariant bounds baseOf (log ++ [event]) (assignLast left key state) := by
  have hother : ∀ entry ∈ delete left key, entry.1 ≠ key := fun entry hentry =>
    of_decide_eq_true (List.mem_filter.mp hentry).2
  unfold Store.assignLast
  refine ⟨?_, ?_, ?_, ?_, ?_, ?_⟩
  · rw [List.map_append, List.map_singleton]
    apply List.nodup_append.mpr
    refine ⟨h.keys, List.nodup_singleton key, ?_⟩
    rintro a ha b hb rfl
    obtain ⟨entry, hentry, rfl⟩ := List.mem_map.mp ha
    exact hother entry hentry (List.mem_singleton.mp hb)
  · intro entry hentry
    rcases List.mem_append.mp hentry with hentry | hentry
    · exact h.bases entry hentry
    · cases List.mem_singleton.mp hentry
      exact hbase
  · rw [List.length_append, List.length_singleton]
    exact hcapacity
  · intro base
    rw [List.filter_append, List.length_append]
    by_cases heq : state.base = base
    · subst heq
      have hgroup : (delete left key).filter (fun entry => entry.2.base == state.base) =
          group left (baseOf key) key := by
        unfold delete group
        rw [List.filter_filter, hbase]
        apply List.filter_congr
        intro entry _
        by_cases hkey : entry.1 = key
        · simp [hkey]
        · simp [hkey]
      rw [hgroup, List.filter_cons_of_pos (by simp)]
      exact hflows
    · rw [List.filter_cons_of_neg (by simpa using heq)]
      exact h.flows base
  · apply List.pairwise_append.mpr
    refine ⟨h.recent, List.pairwise_singleton _ _, ?_⟩
    intro entry hentry last hlast
    cases List.mem_singleton.mp hlast
    exact Since.now huses
  · intro other state' hentry
    rcases List.mem_append.mp hentry with hentry | hentry
    · exact h.set other state' hentry
    · cases List.mem_singleton.mp hentry
      exact hset

theorem delete_sublist : (delete entries key).Sublist entries := List.filter_sublist

theorem purge_sublist : (purge now entries).Sublist entries := List.filter_sublist

theorem length_delete_lt (hmem : (key, state) ∈ entries) :
    (delete entries key).length < entries.length := by
  unfold delete
  apply List.length_filter_lt_length_iff_exists.mpr
  exact ⟨(key, state), hmem, by simp⟩

/-- An entry under the key leaves room for itself among those of its identity. -/
theorem Invariant.length_group_lt (h : Invariant bounds baseOf log entries)
    (hmem : (key, state) ∈ left) (hsub : left.Sublist entries) :
    (group left (baseOf key) key).length < bounds.flowsPerIdentity := by
  have hbase := h.bases _ (hsub.subset hmem)
  have hall := Nat.le_trans (hsub.filter fun entry => entry.2.base == baseOf key).length_le
    (h.flows (baseOf key))
  apply Nat.lt_of_lt_of_le _ hall
  have hgroup : group left (baseOf key) key =
      (left.filter fun entry => entry.2.base == baseOf key).filter (·.1 != key) := by
    unfold group
    rw [List.filter_filter]
    apply List.filter_congr
    intro entry _
    exact Bool.and_comm _ _
  rw [hgroup]
  apply List.length_filter_lt_length_iff_exists.mpr
  exact ⟨(key, state), List.mem_filter.mpr ⟨hmem, beq_iff_eq.mpr hbase⟩, by simp⟩

/-- A call on a key that is registered: the entry goes to the end, as it was or set anew. -/
theorem Invariant.touch {state' : Current} (h : Invariant bounds baseOf log entries)
    (hkey : event.op.key = key) (huses : event.uses key = true)
    (hmem : (key, state) ∈ purge now entries) (hbase : state'.base = baseOf key)
    (hset : Since (fun event => event.sets key = false) (SetTo bounds key state')
      (log ++ [event])) :
    Invariant bounds baseOf (log ++ [event]) (assignLast (purge now entries) key state') := by
  have hdelete : Invariant bounds baseOf (log ++ [event]) (delete (purge now entries) key) := by
    apply h.shrink (delete_sublist.trans purge_sublist)
    intro entry hentry
    apply uses_eq_false
    rw [hkey]
    exact Ne.symm (of_decide_eq_true (List.mem_filter.mp hentry).2)
  apply hdelete.assigned huses hbase _ (h.length_group_lt hmem purge_sublist) hset
  exact Nat.lt_of_lt_of_le (length_delete_lt hmem)
    (Nat.le_trans purge_sublist.length_le h.capacity)

theorem Invariant.idle (h : Invariant bounds baseOf log entries)
    (houtcome : event.outcome = .rejected ∨ event.outcome = .raised) (now : Nat) :
    Invariant bounds baseOf (log ++ [event]) (purge now entries) := by
  apply h.shrink purge_sublist
  intro entry _
  unfold Event.uses
  rcases houtcome with houtcome | houtcome
  · rw [houtcome]
    exact Bool.and_false _
  · rw [houtcome]
    exact Bool.and_false _

theorem moveToEnd_eq (h : get entries key = some state) :
    moveToEnd entries key = assignLast entries key state := by
  unfold moveToEnd
  rw [h]

theorem uses_self (op : Op) {outcome : Outcome} (h : outcome = .done ∨ outcome = .accepted) :
    Event.uses op.key ⟨op, outcome⟩ = true := by
  unfold Event.uses
  rw [decide_eq_true rfl, Bool.true_and]
  rcases h with rfl | rfl
  · rfl
  · rfl

theorem Invariant.checked (h : Invariant bounds baseOf log entries) (now : Nat)
    (key nonce : String) :
    Invariant bounds baseOf
      (log ++ [⟨.isCurrent now key nonce, (step bounds entries (.isCurrent now key nonce)).1⟩])
      (step bounds entries (.isCurrent now key nonce)).2 := by
  unfold step
  dsimp only
  split
  · unfold Store.isCurrent
    dsimp only
    split
    · exact h.idle (Or.inl rfl) now
    · next state hget =>
        split
        · have hmem := mem_of_get hget
          have hold := h.set key state (purge_sublist.subset hmem)
          rw [moveToEnd_eq hget]
          exact h.touch rfl (uses_self (.isCurrent now key nonce) (Or.inr rfl)) hmem
            (h.bases _ (purge_sublist.subset hmem)) (hold.snoc rfl)
        · exact h.idle (Or.inl rfl) now
  · exact h.idle (Or.inr rfl) now

theorem Invariant.rotated {expected replacement : String}
    (h : Invariant bounds baseOf log entries) (hbase : base = baseOf key) :
    Invariant bounds baseOf
      (log ++ [⟨.rotate now base key expected replacement,
        (step bounds entries (.rotate now base key expected replacement)).1⟩])
      (step bounds entries (.rotate now base key expected replacement)).2 := by
  unfold step
  dsimp only
  split
  · unfold Store.rotate
    dsimp only
    split
    · exact h.idle (Or.inl rfl) now
    · next state hget =>
        split
        · have hset : SetTo bounds key ⟨base, replacement, now + bounds.ttl⟩
              ⟨.rotate now base key expected replacement, .accepted⟩ :=
            ⟨now, base, rfl, Or.inr ⟨expected, rfl⟩⟩
          exact h.touch rfl (uses_self (.rotate now base key expected replacement) (Or.inr rfl))
            (mem_of_get hget) hbase (Since.now hset)
        · exact h.idle (Or.inl rfl) now
  · exact h.idle (Or.inr rfl) now

/-! ## Making room -/

theorem length_roomForFlow_group (hkeys : (entries.map Prod.fst).Nodup) :
    (group (roomForFlow bounds base key entries) base key).length < bounds.flowsPerIdentity := by
  have hpos := bounds.flowsPerIdentity_pos
  rw [group_roomForFlow hkeys, List.length_drop]
  unfold surplus
  omega

theorem length_boundCapacity (h : entries.length ≤ bounds.capacity) :
    (delete (boundCapacity bounds base key entries) key).length < bounds.capacity := by
  have hpos := bounds.capacity_pos
  rw [boundCapacity_eq]
  cases hkey : contains (roomForFlow bounds base key entries) key with
  | true =>
      obtain ⟨⟨key', state⟩, hmem, rfl⟩ := contains_iff.mp hkey
      rw [evictOldest_of_contains hkey]
      exact Nat.lt_of_lt_of_le (length_delete_lt hmem)
        (Nat.le_trans roomForFlow_sublist.length_le h)
  | false =>
      apply Nat.lt_of_le_of_lt delete_sublist.length_le
      rw [evictOldest_eq hkey, List.length_drop]
      omega

theorem Invariant.replaced (h : Invariant bounds baseOf log entries) (hbase : base = baseOf key) :
    Invariant bounds baseOf (log ++ [⟨.replace now base key nonce, .done⟩])
      (replace bounds now base key nonce entries) := by
  have hlive : (purge now entries).length ≤ bounds.capacity :=
    Nat.le_trans purge_sublist.length_le h.capacity
  have hkeys : ((purge now entries).map Prod.fst).Nodup := h.keys.sublist (purge_sublist.map _)
  have hsub := boundCapacity_sublist bounds base key (purge now entries)
  unfold Store.replace
  apply Invariant.assigned
  · apply h.shrink (delete_sublist.trans (hsub.trans purge_sublist))
    intro entry hentry
    apply uses_eq_false
    exact Ne.symm (of_decide_eq_true (List.mem_filter.mp hentry).2)
  · exact uses_self (.replace now base key nonce) (Or.inl rfl)
  · exact hbase
  · exact length_boundCapacity hlive
  · rw [boundCapacity_eq, ← hbase]
    exact Nat.lt_of_le_of_lt (((evictOldest_suffix _ _ _).sublist.filter _).length_le)
      (length_roomForFlow_group hkeys)
  · exact Since.now ⟨now, base, rfl, Or.inl rfl⟩

theorem Invariant.of_run (h : Run bounds baseOf clock log entries) :
    Invariant bounds baseOf log entries := by
  induction h with
  | nil =>
      exact ⟨List.nodup_nil, nofun, Nat.zero_le _, fun _ => Nat.zero_le _, List.Pairwise.nil, nofun⟩
  | snoc op _ _ hbase ih =>
      cases op with
      | isCurrent now key nonce => exact ih.checked now key nonce
      | replace now base key nonce => exact ih.replaced hbase
      | rotate now base key expected replacement => exact ih.rotated hbase

/-! ## Nonces that are accepted -/

/-- A call that was answered with yes for this nonce. -/
def Accepts (now : Nat) (key nonce : String) (event : Event) : Prop :=
  event = ⟨.isCurrent now key nonce, .accepted⟩ ∨
    ∃ base replacement, event = ⟨.rotate now base key nonce replacement, .accepted⟩

theorem mem_of_accepted {op : Op} (h : (step bounds entries op).1 = .accepted)
    (haccepts : Accepts now key nonce ⟨op, .accepted⟩) :
    ∃ state, (key, state) ∈ purge now entries ∧ state.nonce = nonce := by
  rcases haccepts with heq | ⟨base, replacement, heq⟩
  · cases heq
    unfold step Store.isCurrent at h
    dsimp only at h
    split at h
    · split at h
      · cases h
      · next state hget =>
          split at h
          · next hnonce => exact ⟨state, mem_of_get hget, hnonce⟩
          · cases h
    · cases h
  · cases heq
    unfold step Store.rotate at h
    dsimp only at h
    split at h
    · split at h
      · cases h
      · next state hget =>
          split at h
          · next hnonce => exact ⟨state, mem_of_get hget, hnonce⟩
          · cases h
    · cases h

/-- An accepted nonce is the one that was last put under the key, and not expired. -/
def Justified (bounds : Bounds) (log : List Event) : Prop :=
  Guarded (fun before event => ∀ now key nonce, Accepts now key nonce event →
    ∃ state, state.nonce = nonce ∧ now < state.expiresAt ∧
      Since (fun event => event.sets key = false) (SetTo bounds key state) before) log

theorem justified_of_run (h : Run bounds baseOf clock log entries) : Justified bounds log := by
  induction h with
  | nil => exact Guarded.nil
  | @snoc _ _ entries op hrun _ _ ih =>
      apply Guarded.snoc ih
      intro now key nonce haccepts
      have houtcome : (step bounds entries op).1 = .accepted := by
        rcases haccepts with heq | ⟨_, _, heq⟩
        · exact congrArg Event.outcome heq
        · exact congrArg Event.outcome heq
      rw [houtcome] at haccepts
      obtain ⟨state, hmem, hnonce⟩ := mem_of_accepted houtcome haccepts
      obtain ⟨hmem, hlive⟩ := List.mem_filter.mp hmem
      exact ⟨state, hnonce, of_decide_eq_true hlive,
        (Invariant.of_run hrun).set key state hmem⟩

/-- A successful rotation from this nonce. -/
def Rotates (key nonce : String) (event : Event) : Prop :=
  ∃ now base replacement, event = ⟨.rotate now base key nonce replacement, .accepted⟩

/-- A call that puts this nonce under the key. -/
def Installs (key nonce : String) (event : Event) : Prop :=
  ∃ now base, event = ⟨.replace now base key nonce, .done⟩ ∨
    ∃ expected, event = ⟨.rotate now base key expected nonce, .accepted⟩

/-- Between two rotations from one nonce the nonce is put there again. -/
theorem Justified.rotates (h : Justified bounds log) {before mid after : List Event}
    {first second : Event} (hlog : log = before ++ first :: mid ++ second :: after)
    (hfirst : Rotates key nonce first) (hsecond : Rotates key nonce second) :
    ∃ event ∈ first :: mid, Installs key nonce event := by
  obtain ⟨now, base, replacement, rfl⟩ := hsecond
  obtain ⟨state, rfl, -, start, event, rest, hsplit, hset, hunset⟩ :=
    h _ _ _ hlog now key nonce (Or.inr ⟨base, replacement, rfl⟩)
  have hinstalls : Installs key state.nonce event := by
    obtain ⟨now, base, -, hevent⟩ := hset
    exact ⟨now, base, hevent⟩
  have hsets : first.sets key = true := by
    obtain ⟨now, base, replacement, rfl⟩ := hfirst
    exact uses_self (.rotate now base key state.nonce replacement) (Or.inr rfl)
  rcases List.append_eq_append_iff.mp hsplit with ⟨gap, -, hgap⟩ | ⟨gap, -, hgap⟩
  · refine ⟨event, ?_, hinstalls⟩
    rw [hgap]
    exact List.mem_append_right _ List.mem_cons_self
  · cases gap with
    | nil =>
        cases hgap
        exact ⟨first, List.mem_cons_self, hinstalls⟩
    | cons other gap =>
        obtain ⟨-, hrest⟩ := List.cons.inj hgap
        have hfirst : first ∈ rest := by
          rw [hrest]
          exact List.mem_append_right _ List.mem_cons_self
        rw [hunset first hfirst] at hsets
        cases hsets

/-! ## Evictions -/

/-- The entry goes because its identity, or the registry, is full, what stays was used after it,
and with the new entry it fills the bound. -/
def MakesRoom (bounds : Bounds) (log : List Event) (live left : Entries) (base key : String)
    (entry : String × Current) : Prop :=
  (entry ∈ group live base key ∧ bounds.flowsPerIdentity < (group live base key).length + 1 ∧
    (group left base key).length + 1 = bounds.flowsPerIdentity ∧
    ∀ other ∈ group live base key, other ∈ left → UsedBefore log entry.1 other.1) ∨
  (contains live key = false ∧ (group live base key).length < bounds.flowsPerIdentity ∧
    bounds.capacity < live.length + 1 ∧ left.length = bounds.capacity ∧
    ∀ other ∈ live, other ∈ left → UsedBefore log entry.1 other.1)

theorem mem_moveToEnd_of_mem {entry : String × Current} (h : entry ∈ entries)
    (hkey : entry.1 ≠ key) : entry ∈ moveToEnd entries key := by
  unfold moveToEnd
  split
  · exact List.mem_append_left _ (List.mem_filter.mpr ⟨h, decide_eq_true hkey⟩)
  · exact h

theorem mem_assignLast_of_mem {entry : String × Current} (h : entry ∈ entries)
    (hkey : entry.1 ≠ key) (state : Current) : entry ∈ assignLast entries key state :=
  List.mem_append_left _ (List.mem_filter.mpr ⟨h, decide_eq_true hkey⟩)

/-- Of a list in the order of use, what is dropped at the front was used before what stays. -/
theorem usedBefore_drop {live : Entries}
    (hrecent : live.Pairwise fun a b => UsedBefore log a.1 b.1) (count : Nat)
    {entry other : String × Current} (hentry : entry ∈ live) (hgone : entry ∉ live.drop count)
    (hother : other ∈ live.drop count) : UsedBefore log entry.1 other.1 := by
  rw [← List.take_append_drop count live] at hrecent hentry
  have htaken := (List.mem_append.mp hentry).resolve_right hgone
  exact (List.pairwise_append.mp hrecent).2.2 entry htaken other hother

/-- The first loop removes nothing only when it has nothing to remove. -/
theorem length_group_of_roomForFlow_eq
    (h : roomForFlow bounds base key entries = entries) :
    (group entries base key).length < bounds.flowsPerIdentity := by
  have hpos := bounds.flowsPerIdentity_pos
  by_contra hfull
  have hsurplus : 0 < surplus bounds entries base key := by
    unfold surplus
    omega
  have htake : 0 < ((group entries base key).take (surplus bounds entries base key)).length := by
    rw [List.length_take]
    omega
  obtain ⟨first, hfirst⟩ := List.exists_mem_of_length_pos htake
  have hmem : first ∈ roomForFlow bounds base key entries := by
    rw [h]
    exact (mem_group.mp (List.mem_of_mem_take hfirst)).1
  exact of_decide_eq_true (List.mem_filter.mp hmem).2 (List.mem_map_of_mem hfirst)

theorem Invariant.evicts_flow {live left : Entries} {entry : String × Current}
    (hkeys : (live.map Prod.fst).Nodup)
    (hrecent : live.Pairwise fun a b => UsedBefore log a.1 b.1) (hentry : entry ∈ live)
    (hout : entry ∉ roomForFlow bounds base key live)
    (hstays : ∀ other ∈ live, other ∈ left → other.1 ≠ key →
      other ∈ roomForFlow bounds base key live) :
    entry ∈ group live base key ∧ bounds.flowsPerIdentity < (group live base key).length + 1 ∧
      ∀ other ∈ group live base key, other ∈ left → UsedBefore log entry.1 other.1 := by
  have hkey :
      entry.1 ∈ ((group live base key).take (surplus bounds live base key)).map Prod.fst := by
    by_contra hnot
    exact hout (List.mem_filter.mpr ⟨hentry, decide_eq_true hnot⟩)
  obtain ⟨taken, htaken, heq⟩ := List.mem_map.mp hkey
  have hgroup := List.mem_of_mem_take htaken
  cases List.inj_on_of_nodup_map hkeys (mem_group.mp hgroup).1 hentry heq
  have hdrop : group (roomForFlow bounds base key live) base key = _ := group_roomForFlow hkeys
  refine ⟨hgroup, ?_, ?_⟩
  · have hlength := List.length_pos_of_mem htaken
    rw [List.length_take] at hlength
    unfold surplus at hlength
    omega
  · intro other hother hleft
    obtain ⟨hlive, hbase, hne⟩ := mem_group.mp hother
    have hrecent : (group live base key).Pairwise fun a b => UsedBefore log a.1 b.1 :=
      hrecent.sublist List.filter_sublist
    apply usedBefore_drop hrecent (surplus bounds live base key) hgroup
    · rw [← hdrop]
      exact fun hmem => hout (mem_group.mp hmem).1
    · rw [← hdrop]
      exact mem_group.mpr ⟨hstays other hlive hleft hne, hbase, hne⟩

theorem delete_of_not_contains (h : contains entries key = false) :
    delete entries key = entries := by
  unfold delete
  apply List.filter_eq_self.mpr
  intro entry hentry
  apply decide_eq_true
  intro hkey
  rw [contains_iff.mpr ⟨entry, hentry, hkey⟩] at h
  cases h

theorem not_contains_drop (h : contains entries key = false) (count : Nat) :
    contains (entries.drop count) key = false := by
  rw [← Bool.not_eq_true, contains_iff] at h ⊢
  rintro ⟨entry, hentry, hkey⟩
  exact h ⟨entry, List.mem_of_mem_drop hentry, hkey⟩

/-- The first loop leaves as many scopes of the identity as fit beside the new one. -/
theorem length_group_replace (hkeys : ((purge now entries).map Prod.fst).Nodup)
    (hlive : (purge now entries).length ≤ bounds.capacity)
    (hroom : roomForFlow bounds base key (purge now entries) ≠ purge now entries)
    (hfull : bounds.flowsPerIdentity < (group (purge now entries) base key).length + 1) :
    (group (Store.replace bounds now base key nonce entries) base key).length + 1 =
      bounds.flowsPerIdentity := by
  have hpos := bounds.flowsPerIdentity_pos
  unfold Store.replace
  rw [group_assignLast, boundCapacity_of_roomForFlow_ne hlive hroom, group_roomForFlow hkeys,
    List.length_drop]
  unfold surplus
  omega

theorem Invariant.replace_evicts (h : Invariant bounds baseOf log entries)
    {entry : String × Current} (hentry : entry ∈ purge now entries) (hkey : entry.1 ≠ key)
    (hgone : entry ∉ Store.replace bounds now base key nonce entries) :
    MakesRoom bounds log (purge now entries) (Store.replace bounds now base key nonce entries)
      base key entry := by
  have hlive : (purge now entries).length ≤ bounds.capacity :=
    Nat.le_trans purge_sublist.length_le h.capacity
  have hrecent := h.recent.sublist (purge_sublist : (purge now entries).Sublist entries)
  have hkeys : ((purge now entries).map Prod.fst).Nodup := h.keys.sublist (purge_sublist.map _)
  have hstays : ∀ other, other ∈ Store.replace bounds now base key nonce entries →
      other.1 ≠ key → other ∈ boundCapacity bounds base key (purge now entries) := by
    intro other hother hne
    rcases mem_assignLast hother with rfl | ⟨hother, -⟩
    · exact absurd rfl hne
    · exact hother
  have hout : entry ∉ boundCapacity bounds base key (purge now entries) := fun hmem =>
    hgone (mem_assignLast_of_mem hmem hkey _)
  rw [boundCapacity_eq] at hstays hout
  by_cases hroom : entry ∈ roomForFlow bounds base key (purge now entries)
  · right
    cases hcontains : contains (purge now entries) key with
    | true =>
        rw [evictOldest_of_contains (contains_roomForFlow.trans hcontains)] at hout
        exact absurd hroom hout
    | false =>
        rw [evictOldest_eq (contains_roomForFlow.trans hcontains)] at hstays hout
        have hfull : bounds.capacity <
            (roomForFlow bounds base key (purge now entries)).length + 1 := by
          by_contra hfits
          rw [Nat.sub_eq_zero_of_le (by omega), List.drop_zero] at hout
          exact hout hroom
        -- The registry is full even without those that the first loop would have removed.
        have heq : roomForFlow bounds base key (purge now entries) = purge now entries :=
          roomForFlow_sublist.eq_of_length_le (by omega)
        have hflows := length_group_of_roomForFlow_eq heq
        rw [heq] at hstays hout hfull
        have hfills :
            (Store.replace bounds now base key nonce entries).length = bounds.capacity := by
          have hpos := bounds.capacity_pos
          have hevicts := @evictOldest_eq _ _ bounds.capacity hcontains
          unfold Store.replace assignLast
          rw [boundCapacity_eq, heq, hevicts, delete_of_not_contains, List.length_append,
            List.length_drop, List.length_singleton]
          · omega
          · exact not_contains_drop hcontains _
        refine ⟨rfl, hflows, hfull, hfills, ?_⟩
        intro other hother hleft
        have hne : other.1 ≠ key := by
          intro hkey'
          rw [contains_iff.mpr ⟨other, hother, hkey'⟩] at hcontains
          cases hcontains
        exact usedBefore_drop hrecent _ hentry hout (hstays other hleft hne)
  · left
    obtain ⟨hgroup, hfull, hbefore⟩ := Invariant.evicts_flow hkeys hrecent hentry hroom
      fun other _ hleft hne => (evictOldest_suffix _ _ _).subset (hstays other hleft hne)
    have hremoves : roomForFlow bounds base key (purge now entries) ≠ purge now entries := by
      intro heq
      rw [heq] at hroom
      exact hroom hentry
    exact ⟨hgroup, hfull, length_group_replace hkeys hlive hremoves hfull, hbefore⟩

/-- Only `replace` evicts anything but expired entries. -/
theorem step_keeps {op : Op} {entry : String × Current} (hentry : entry ∈ purge op.now entries)
    (hkey : entry.1 ≠ op.key) (hgone : entry ∉ (step bounds entries op).2) :
    ∃ base nonce, op = .replace op.now base op.key nonce := by
  cases op with
  | replace now base key nonce => exact ⟨base, nonce, rfl⟩
  | isCurrent now key nonce =>
      exfalso
      apply hgone
      unfold step Store.isCurrent
      dsimp only
      split
      · split
        · exact hentry
        · split
          · exact mem_moveToEnd_of_mem hentry hkey
          · exact hentry
      · exact hentry
  | rotate now base key expected replacement =>
      exfalso
      apply hgone
      unfold step Store.rotate
      dsimp only
      split
      · split
        · exact hentry
        · split
          · exact mem_assignLast_of_mem hentry hkey _
          · exact hentry
      · exact hentry

/-! ## The result -/

/-- What holds after any run. -/
structure Sound (bounds : Bounds) (log : List Event) (entries : Entries) : Prop where
  capacity : entries.length ≤ bounds.capacity
  flows : ∀ base, (entries.filter fun entry => entry.2.base == base).length ≤
    bounds.flowsPerIdentity
  rotations : ∀ before first mid second after key nonce,
    log = before ++ first :: mid ++ second :: after → Rotates key nonce first →
      Rotates key nonce second → ∃ event ∈ first :: mid, Installs key nonce event
  justified : Justified bounds log
  evictions : ∀ op, ∀ entry ∈ purge op.now entries, entry.1 ≠ op.key →
    entry ∉ (step bounds entries op).2 →
      ∃ base nonce, op = .replace op.now base op.key nonce ∧
        MakesRoom bounds log (purge op.now entries) (step bounds entries op).2 base op.key entry

theorem registry_sound (h : Run bounds baseOf clock log entries) : Sound bounds log entries := by
  have hinv := Invariant.of_run h
  have hjustified := justified_of_run h
  refine ⟨hinv.capacity, hinv.flows, ?_, hjustified, ?_⟩
  · intro _ _ _ _ _ _ _ hlog hfirst hsecond
    exact hjustified.rotates hlog hfirst hsecond
  · intro op entry hentry hkey hgone
    obtain ⟨base, nonce, hop⟩ := step_keeps hentry hkey hgone
    refine ⟨base, nonce, hop, ?_⟩
    have hstep : (step bounds entries op).2 =
        replace bounds op.now base op.key nonce entries := by
      rw [hop]
      rfl
    rw [hstep] at hgone ⊢
    exact hinv.replace_evicts hentry hkey hgone

theorem Run.record (h : Run bounds baseOf clock log entries) (event : Event)
    (hclock : clock ≤ event.op.now) (hbase : event.op.Based baseOf)
    (hstep : step bounds entries event.op = (event.outcome, left)) :
    Run bounds baseOf event.op.now (log ++ [event]) left := by
  have hrun := h.snoc event.op hclock hbase
  rw [hstep] at hrun
  exact hrun

def smallBounds : Bounds := ⟨4, 2, 60, by decide, by decide, by decide⟩

/-- A nonce that is rotated into itself, and then once more. -/
def twice : List Event :=
  [⟨.replace 0 "b" "k" "n", .done⟩, ⟨.rotate 0 "b" "k" "n" "n", .accepted⟩,
    ⟨.rotate 0 "b" "k" "n" "m", .accepted⟩]

theorem twice_run : Run smallBounds (fun _ => "b") 0 twice [("k", ⟨"b", "m", 60⟩)] := by
  have hfirst : Run smallBounds (fun _ => "b") 0 [⟨.replace 0 "b" "k" "n", .done⟩]
      [("k", ⟨"b", "n", 60⟩)] :=
    Run.nil.record ⟨.replace 0 "b" "k" "n", .done⟩ (by decide) rfl (by decide +kernel)
  have hsecond : Run smallBounds (fun _ => "b") 0
      [⟨.replace 0 "b" "k" "n", .done⟩, ⟨.rotate 0 "b" "k" "n" "n", .accepted⟩]
      [("k", ⟨"b", "n", 60⟩)] :=
    hfirst.record ⟨.rotate 0 "b" "k" "n" "n", .accepted⟩ (by decide) rfl (by decide +kernel)
  exact hsecond.record ⟨.rotate 0 "b" "k" "n" "m", .accepted⟩ (by decide) rfl (by decide +kernel)

theorem registry_sound_twice : Sound smallBounds twice [("k", ⟨"b", "m", 60⟩)] :=
  registry_sound twice_run

/-- Two rotations from one nonce can succeed without a `replace` between them. -/
theorem rotated_twice : ¬ ∀ bounds baseOf clock log entries, Run bounds baseOf clock log entries →
    ∀ before first mid second after key nonce,
      log = before ++ first :: mid ++ second :: after → Rotates key nonce first →
        Rotates key nonce second →
          ∃ event ∈ mid, ∃ now base, event = ⟨.replace now base key nonce, .done⟩ := by
  intro h
  obtain ⟨event, hmem, -⟩ := h _ _ _ _ _ twice_run [⟨.replace 0 "b" "k" "n", .done⟩]
    ⟨.rotate 0 "b" "k" "n" "n", .accepted⟩ [] ⟨.rotate 0 "b" "k" "n" "m", .accepted⟩ [] "k" "n"
    rfl ⟨0, "b", "n", rfl⟩ ⟨0, "b", "m", rfl⟩
  cases hmem

end MaddyWeb.Csrf.Store
