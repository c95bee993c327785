import Mathlib.Data.List.Basic

/-!
# The registry of current CSRF nonces

`CurrentCsrfStore` keeps an `OrderedDict` from scope keys to the nonce that may
be used next.  Its operations run under one lock and contain no `await`, so each
of them is one atomic step.  The dictionary is the list of its items in order:
the oldest item is the head, and `move_to_end` moves an item to the other end.
-/

namespace MaddyWeb.Csrf.Store

/-- `_CsrfCurrent` -/
structure Current where
  base : String
  nonce : String
  expiresAt : Nat
  deriving DecidableEq, Repr

abbrev Entries := List (String × Current)

/-- The three bounds that `__post_init__` requires to be positive. -/
structure Bounds where
  capacity : Nat
  flowsPerIdentity : Nat
  ttl : Nat
  capacity_pos : 0 < capacity
  flowsPerIdentity_pos : 0 < flowsPerIdentity
  ttl_pos : 0 < ttl

/-! ## Dictionary operations -/

def get (entries : Entries) (key : String) : Option Current :=
  (entries.find? fun entry => entry.1 == key).map Prod.snd

def delete (entries : Entries) (key : String) : Entries :=
  entries.filter fun entry => entry.1 ≠ key

def contains (entries : Entries) (key : String) : Bool :=
  entries.any fun entry => entry.1 == key

/-- An assignment followed by `move_to_end`. -/
def assignLast (entries : Entries) (key : String) (state : Current) : Entries :=
  delete entries key ++ [(key, state)]

def moveToEnd (entries : Entries) (key : String) : Entries :=
  match get entries key with
  | some state => assignLast entries key state
  | none => entries

/-! ## The store's operations -/

/-- `_purge` -/
def purge (now : Nat) (entries : Entries) : Entries :=
  entries.filter fun entry => now < entry.2.expiresAt

/-- The first loop of `_bound_capacity`, over its list `matching`. -/
def evictFlows (flowsPerIdentity : Nat) : List String → Entries → Entries
  | [], entries => entries
  | key :: rest, entries =>
      if flowsPerIdentity ≤ rest.length + 1 then
        evictFlows flowsPerIdentity rest (delete entries key)
      else entries

/-- The second loop of `_bound_capacity`. -/
def evictOldest (capacity : Nat) (key : String) : Entries → Entries
  | [] => []
  | entry :: rest =>
      if capacity ≤ rest.length + 1 ∧ contains (entry :: rest) key = false then
        evictOldest capacity key rest
      else entry :: rest

/-- `_bound_capacity` -/
def boundCapacity (bounds : Bounds) (base key : String) (entries : Entries) : Entries :=
  let matching := (entries.filter fun entry =>
    entry.2.base == base && entry.1 != key).map Prod.fst
  evictOldest bounds.capacity key (evictFlows bounds.flowsPerIdentity matching entries)

/-- `is_current` -/
def isCurrent (now : Nat) (key nonce : String) (entries : Entries) : Bool × Entries :=
  let live := purge now entries
  match get live key with
  | none => (false, live)
  | some state => if state.nonce = nonce then (true, moveToEnd live key) else (false, live)

/-- `replace` -/
def replace (bounds : Bounds) (now : Nat) (base key nonce : String) (entries : Entries) :
    Entries :=
  assignLast (boundCapacity bounds base key (purge now entries)) key
    ⟨base, nonce, now + bounds.ttl⟩

/-- `rotate` -/
def rotate (bounds : Bounds) (now : Nat) (base key expectedNonce replacementNonce : String)
    (entries : Entries) : Bool × Entries :=
  let live := purge now entries
  match get live key with
  | none => (false, live)
  | some state =>
      if state.nonce = expectedNonce then
        (true, assignLast live key ⟨base, replacementNonce, now + bounds.ttl⟩)
      else (false, live)

/-! ## What the operations leave registered -/

theorem mem_of_get {entries : Entries} {key : String} {state : Current}
    (h : get entries key = some state) : (key, state) ∈ entries := by
  unfold get at h
  obtain ⟨entry, hfind, rfl⟩ := Option.map_eq_some_iff.mp h
  have hkey : entry.1 = key := by simpa using List.find?_some hfind
  have hmem := List.mem_of_find?_eq_some hfind
  rwa [← hkey]

theorem mem_assignLast {entries : Entries} {key : String} {state : Current}
    {entry : String × Current} (h : entry ∈ assignLast entries key state) :
    entry = (key, state) ∨ (entry ∈ entries ∧ entry.1 ≠ key) := by
  simp only [assignLast, delete, List.mem_append, List.mem_filter, List.mem_singleton,
    decide_eq_true_eq] at h
  exact h.symm

theorem mem_moveToEnd {entries : Entries} {key : String} {entry : String × Current}
    (h : entry ∈ moveToEnd entries key) : entry ∈ entries := by
  unfold moveToEnd at h
  split at h
  · next state hget =>
      rcases mem_assignLast h with rfl | ⟨hmem, -⟩
      · exact mem_of_get hget
      · exact hmem
  · exact h

theorem purge_subset (now : Nat) (entries : Entries) : purge now entries ⊆ entries :=
  List.filter_subset_self _

theorem evictFlows_subset (bound : Nat) (matching : List String) (entries : Entries) :
    evictFlows bound matching entries ⊆ entries := by
  induction matching generalizing entries with
  | nil => exact List.Subset.refl _
  | cons key rest ih =>
      unfold evictFlows
      split
      · exact List.Subset.trans (ih _) (List.filter_subset_self _)
      · exact List.Subset.refl _

theorem evictOldest_subset (capacity : Nat) (key : String) (entries : Entries) :
    evictOldest capacity key entries ⊆ entries := by
  induction entries with
  | nil => exact List.Subset.refl _
  | cons entry rest ih =>
      unfold evictOldest
      split
      · exact List.Subset.trans ih (List.subset_cons_self _ _)
      · exact List.Subset.refl _

theorem boundCapacity_subset (bounds : Bounds) (base key : String) (entries : Entries) :
    boundCapacity bounds base key entries ⊆ entries :=
  List.Subset.trans (evictOldest_subset _ _ _) (evictFlows_subset _ _ _)

theorem isCurrent_subset (now : Nat) (key nonce : String) (entries : Entries) :
    (isCurrent now key nonce entries).2 ⊆ entries := by
  unfold isCurrent
  intro entry hmem
  apply purge_subset now
  dsimp only at hmem
  split at hmem
  · exact hmem
  · split at hmem
    · exact mem_moveToEnd hmem
    · exact hmem

theorem mem_replace {bounds : Bounds} {now : Nat} {base key nonce : String}
    {entries : Entries} {entry : String × Current}
    (h : entry ∈ replace bounds now base key nonce entries) :
    entry.2.nonce = nonce ∨ entry ∈ entries := by
  rcases mem_assignLast h with rfl | ⟨hmem, -⟩
  · exact Or.inl rfl
  · exact Or.inr (purge_subset now _ (boundCapacity_subset _ _ _ _ hmem))

/-- A rotation that fails only drops expired entries. -/
theorem rotate_rejected {bounds : Bounds} {now : Nat} {base key expected replacement : String}
    {entries after : Entries}
    (h : rotate bounds now base key expected replacement entries = (false, after)) :
    after ⊆ entries := by
  unfold rotate at h
  dsimp only at h
  split at h
  · cases h
    exact purge_subset now entries
  · split at h
    · cases h
    · cases h
      exact purge_subset now entries

/-- A rotation that succeeds found the expected nonce under the key, and leaves the
replacement there in its place. -/
theorem rotate_accepted {bounds : Bounds} {now : Nat} {base key expected replacement : String}
    {entries after : Entries}
    (h : rotate bounds now base key expected replacement entries = (true, after)) :
    (∃ state, (key, state) ∈ entries ∧ state.nonce = expected) ∧
      ∀ entry ∈ after, entry.2.nonce = replacement ∨ (entry ∈ entries ∧ entry.1 ≠ key) := by
  unfold rotate at h
  dsimp only at h
  split at h
  · cases h
  · next state hget =>
      split at h
      · next hnonce =>
          cases h
          constructor
          · exact ⟨state, purge_subset now _ (mem_of_get hget), hnonce⟩
          · intro entry hmem
            rcases mem_assignLast hmem with rfl | ⟨hin, hkey⟩
            · exact Or.inl rfl
            · exact Or.inr ⟨purge_subset now _ hin, hkey⟩
      · cases h

end MaddyWeb.Csrf.Store
