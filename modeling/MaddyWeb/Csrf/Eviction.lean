import MaddyWeb.Csrf.Store
import Mathlib.Data.List.Nodup

/-!
# What making room in the registry removes

The two loops of `_bound_capacity` remove a prefix each: of the other scopes of the identity, and of
all scopes.
-/

namespace MaddyWeb.Csrf.Store

variable {entries : Entries} {base key : String} {bounds : Bounds}

/-- The other scopes of an identity, in the order of the registry. -/
def group (entries : Entries) (base key : String) : Entries :=
  entries.filter fun entry => entry.2.base == base && entry.1 != key

theorem mem_group {entry : String × Current} :
    entry ∈ group entries base key ↔ entry ∈ entries ∧ entry.2.base = base ∧ entry.1 ≠ key := by
  unfold group
  rw [List.mem_filter, Bool.and_eq_true, beq_iff_eq, bne_iff_ne]

theorem contains_iff : contains entries key = true ↔ ∃ entry ∈ entries, entry.1 = key := by
  unfold contains
  rw [List.any_eq_true]
  simp only [beq_iff_eq]

theorem evictFlows_eq (flows : Nat) (matching : List String) (entries : Entries) :
    evictFlows flows matching entries =
      entries.filter fun entry => entry.1 ∉ matching.take (matching.length + 1 - flows) := by
  induction matching generalizing entries with
  | nil =>
      symm
      apply List.filter_eq_self.mpr
      intro entry _
      simp
  | cons key rest ih =>
      unfold evictFlows
      rw [List.length_cons]
      split
      · next hfull =>
          rw [ih, Nat.succ_sub (by omega : flows ≤ rest.length + 1), List.take_succ_cons]
          unfold delete
          rw [List.filter_filter]
          apply List.filter_congr
          intro entry _
          rw [← Bool.decide_and]
          apply decide_eq_decide.mpr
          rw [List.mem_cons, not_or, and_comm]
      · next hroom =>
          rw [Nat.sub_eq_zero_of_le (by omega), List.take_zero]
          symm
          apply List.filter_eq_self.mpr
          intro entry _
          simp

theorem evictOldest_eq {capacity : Nat} (hkey : contains entries key = false) :
    evictOldest capacity key entries = entries.drop (entries.length + 1 - capacity) := by
  induction entries with
  | nil => exact (List.drop_nil).symm
  | cons entry rest ih =>
      have hrest : contains rest key = false := by
        unfold contains at hkey ⊢
        rw [List.any_cons, Bool.or_eq_false_iff] at hkey
        exact hkey.2
      unfold evictOldest
      rw [List.length_cons]
      split
      · next hfull =>
          rw [ih hrest, Nat.succ_sub hfull.1, List.drop_succ_cons]
      · next hroom =>
          have hless : ¬ capacity ≤ rest.length + 1 := fun h => hroom ⟨h, hkey⟩
          rw [Nat.sub_eq_zero_of_le (by omega), List.drop_zero]

theorem evictOldest_of_contains {capacity : Nat} (hkey : contains entries key = true) :
    evictOldest capacity key entries = entries := by
  cases entries with
  | nil => rfl
  | cons entry rest =>
      unfold evictOldest
      rw [if_neg]
      rw [hkey]
      exact fun h => Bool.false_ne_true h.2.symm

/-- How many of the other scopes of the identity have to go. -/
def surplus (bounds : Bounds) (entries : Entries) (base key : String) : Nat :=
  (group entries base key).length + 1 - bounds.flowsPerIdentity

/-- What the first loop of `_bound_capacity` leaves. -/
def roomForFlow (bounds : Bounds) (base key : String) (entries : Entries) : Entries :=
  entries.filter fun entry =>
    entry.1 ∉ ((group entries base key).take (surplus bounds entries base key)).map Prod.fst

theorem boundCapacity_eq (bounds : Bounds) (base key : String) (entries : Entries) :
    boundCapacity bounds base key entries =
      evictOldest bounds.capacity key (roomForFlow bounds base key entries) := by
  unfold boundCapacity roomForFlow surplus
  dsimp only
  rw [evictFlows_eq, List.length_map, ← List.map_take]
  rfl

theorem roomForFlow_sublist : (roomForFlow bounds base key entries).Sublist entries :=
  List.filter_sublist

theorem evictOldest_suffix (capacity : Nat) (key : String) (entries : Entries) :
    evictOldest capacity key entries <:+ entries := by
  induction entries with
  | nil => exact List.suffix_refl _
  | cons entry rest ih =>
      unfold evictOldest
      split
      · exact ih.trans (List.suffix_cons entry rest)
      · exact List.suffix_refl _

theorem boundCapacity_sublist (bounds : Bounds) (base key : String) (entries : Entries) :
    (boundCapacity bounds base key entries).Sublist entries := by
  rw [boundCapacity_eq]
  exact (evictOldest_suffix _ _ _).sublist.trans roomForFlow_sublist

/-- The key is never evicted for itself. -/
theorem contains_roomForFlow :
    contains (roomForFlow bounds base key entries) key = contains entries key := by
  rw [Bool.eq_iff_iff, contains_iff, contains_iff]
  constructor
  · rintro ⟨entry, hentry, hkey⟩
    exact ⟨entry, roomForFlow_sublist.subset hentry, hkey⟩
  · rintro ⟨entry, hentry, hkey⟩
    refine ⟨entry, List.mem_filter.mpr ⟨hentry, decide_eq_true ?_⟩, hkey⟩
    intro hmem
    obtain ⟨other, hother, heq⟩ := List.mem_map.mp hmem
    exact (mem_group.mp (List.mem_of_mem_take hother)).2.2 (heq.trans hkey)

theorem group_roomForFlow (hkeys : (entries.map Prod.fst).Nodup) :
    group (roomForFlow bounds base key entries) base key =
      (group entries base key).drop (surplus bounds entries base key) := by
  have hnodup : ((group entries base key).map Prod.fst).Nodup :=
    hkeys.sublist (List.filter_sublist.map _)
  have hswap : group (roomForFlow bounds base key entries) base key =
      (group entries base key).filter fun entry =>
        entry.1 ∉ ((group entries base key).take (surplus bounds entries base key)).map
          Prod.fst := by
    unfold roomForFlow
    conv_lhs => unfold group
    conv_rhs => arg 2; unfold group
    rw [List.filter_filter, List.filter_filter]
    apply List.filter_congr
    intro entry _
    exact Bool.and_comm _ _
  rw [hswap]
  generalize group entries base key = others at hnodup ⊢
  generalize surplus bounds entries base key = count
  conv_lhs => arg 2; rw [← List.take_append_drop count others]
  rw [List.filter_append, List.filter_eq_nil_iff.mpr, List.nil_append, List.filter_eq_self.mpr]
  · intro entry hentry
    apply decide_eq_true
    intro hmem
    rw [← List.take_append_drop count others, List.map_append] at hnodup
    exact (List.nodup_append.mp hnodup).2.2 _ hmem _ (List.mem_map_of_mem hentry) rfl
  · intro entry hentry
    rw [decide_eq_true_eq, not_not]
    exact List.mem_map_of_mem hentry

theorem group_assignLast (state : Current) :
    group (assignLast entries key state) base key = group entries base key := by
  unfold assignLast delete group
  rw [List.filter_append, List.filter_filter]
  have hlast :
      [(key, state)].filter (fun entry => entry.2.base == base && entry.1 != key) = [] := by
    simp
  rw [hlast, List.append_nil]
  apply List.filter_congr
  intro entry _
  by_cases hkey : entry.1 = key
  · simp [hkey]
  · simp [hkey]

/-- Where the first loop removes something, the second has nothing to remove. -/
theorem boundCapacity_of_roomForFlow_ne (h : entries.length ≤ bounds.capacity)
    (hroom : roomForFlow bounds base key entries ≠ entries) :
    boundCapacity bounds base key entries = roomForFlow bounds base key entries := by
  have hless : (roomForFlow bounds base key entries).length < entries.length := by
    apply Nat.lt_of_le_of_ne roomForFlow_sublist.length_le
    exact fun heq => hroom (roomForFlow_sublist.eq_of_length heq)
  rw [boundCapacity_eq]
  cases hkey : contains (roomForFlow bounds base key entries) key with
  | true => exact evictOldest_of_contains hkey
  | false => rw [evictOldest_eq hkey, Nat.sub_eq_zero_of_le (by omega), List.drop_zero]

end MaddyWeb.Csrf.Store
