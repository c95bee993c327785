import Mathlib.Data.List.Nodup

/-!
# Dictionaries as association lists

The entries stand in the order in which their keys were first set.
-/

namespace MaddyWeb.Library.Dict

variable {κ β γ : Type} [DecidableEq κ]

/-- `entries.get(key)` -/
def get (entries : List (κ × β)) (key : κ) : Option β := (entries.find? (·.1 == key)).map (·.2)

/-- `entries[key] = value` -/
def set (entries : List (κ × β)) (key : κ) (value : β) : List (κ × β) :=
  if entries.any (·.1 == key) then
    entries.map fun entry => if entry.1 = key then (entry.1, value) else entry
  else entries ++ [(key, value)]

/-- `entries.pop(key, None)` -/
def erase (entries : List (κ × β)) (key : κ) : List (κ × β) := entries.filter (·.1 ≠ key)

theorem mem_of_get {entries : List (κ × β)} {key : κ} {value : β}
    (h : get entries key = some value) : (key, value) ∈ entries := by
  obtain ⟨entry, hfound, rfl⟩ := Option.map_eq_some_iff.mp h
  have hkey : entry.1 = key := by simpa using List.find?_some hfound
  rw [← hkey]
  exact List.mem_of_find?_eq_some hfound

theorem get_eq_some {entries : List (κ × β)} (hkeys : (entries.map (·.1)).Nodup)
    {entry : κ × β} (h : entry ∈ entries) : get entries entry.1 = some entry.2 := by
  unfold get
  have hsome : (entries.find? (·.1 == entry.1)).isSome = true :=
    List.find?_isSome.mpr ⟨entry, h, beq_self_eq_true entry.1⟩
  obtain ⟨found, hfound⟩ := Option.isSome_iff_exists.mp hsome
  have hkey : found.1 = entry.1 := by simpa using List.find?_some hfound
  have heq := List.inj_on_of_nodup_map hkeys (List.mem_of_find?_eq_some hfound) h hkey
  rw [hfound, heq]
  rfl

theorem get_eq_none {entries : List (κ × β)} {key : κ}
    (h : ∀ entry ∈ entries, entry.1 ≠ key) : get entries key = none := by
  unfold get
  rw [Option.map_eq_none_iff, List.find?_eq_none]
  intro entry hentry
  simpa using h entry hentry

theorem set_of_mem {entries : List (κ × β)} {entry : κ × β} (h : entry ∈ entries) (value : β) :
    set entries entry.1 value =
      entries.map fun other => if other.1 = entry.1 then (other.1, value) else other := by
  unfold set
  rw [if_pos]
  exact List.any_eq_true.mpr ⟨entry, h, beq_self_eq_true _⟩

theorem mem_set {entries : List (κ × β)} {key : κ} {value : β} {entry : κ × β}
    (h : entry ∈ set entries key value) : entry = (key, value) ∨ entry ∈ entries := by
  unfold set at h
  split at h
  · obtain ⟨other, hother, rfl⟩ := List.mem_map.mp h
    by_cases hkey : other.1 = key
    · rw [if_pos hkey, hkey]
      exact Or.inl rfl
    · rw [if_neg hkey]
      exact Or.inr hother
  · rcases List.mem_append.mp h with h | h
    · exact Or.inr h
    · exact Or.inl (List.mem_singleton.mp h)

theorem mem_erase {entries : List (κ × β)} {key : κ} {entry : κ × β} :
    entry ∈ erase entries key ↔ entry ∈ entries ∧ entry.1 ≠ key := by
  unfold erase
  rw [List.mem_filter, decide_eq_true_eq]

theorem nodup_set {entries : List (κ × β)} (h : (entries.map (·.1)).Nodup) (key : κ) (value : β) :
    ((set entries key value).map (·.1)).Nodup := by
  unfold set
  split
  · have hkeys : (entries.map fun entry => if entry.1 = key then (entry.1, value) else entry).map
        (·.1) = entries.map (·.1) := by
      rw [List.map_map]
      apply List.map_congr_left
      intro entry _
      rw [Function.comp_apply]
      split <;> rfl
    rw [hkeys]
    exact h
  · next hany =>
      rw [List.map_append, List.map_singleton]
      apply List.nodup_append.mpr
      refine ⟨h, List.nodup_singleton key, ?_⟩
      rintro a ha b hb rfl
      obtain ⟨entry, hentry, hkey⟩ := List.mem_map.mp ha
      rw [List.mem_singleton.mp hb] at hkey
      exact hany (List.any_eq_true.mpr ⟨entry, hentry, beq_iff_eq.mpr hkey⟩)

theorem nodup_erase {entries : List (κ × β)} (h : (entries.map (·.1)).Nodup) (key : κ) :
    ((erase entries key).map (·.1)).Nodup :=
  h.sublist (List.filter_sublist.map _)

/-- `dict(pairs)` for different keys. -/
theorem foldl_set {key : γ → κ} {value : γ → β} (xs : List γ) :
    ∀ entries : List (κ × β), (entries.map (·.1) ++ xs.map key).Nodup →
      xs.foldl (fun entries x => set entries (key x) (value x)) entries =
        entries ++ xs.map fun x => (key x, value x) := by
  induction xs with
  | nil => exact fun entries _ => (List.append_nil entries).symm
  | cons x xs ih =>
      intro entries hnodup
      have hnew : key x ∉ entries.map (·.1) := by
        intro hmem
        exact (List.nodup_append.mp hnodup).2.2 _ hmem _ List.mem_cons_self rfl
      have hset : set entries (key x) (value x) = entries ++ [(key x, value x)] := by
        unfold set
        rw [if_neg]
        intro hany
        obtain ⟨entry, hentry, heq⟩ := List.any_eq_true.mp hany
        exact hnew (List.mem_map.mpr ⟨entry, hentry, beq_iff_eq.mp heq⟩)
      rw [List.foldl_cons, hset, ih]
      · rw [List.append_assoc]
        rfl
      · rw [List.map_append, List.append_assoc]
        exact hnodup

theorem get_cons (entry : κ × β) (entries : List (κ × β)) (key : κ) :
    get (entry :: entries) key = if entry.1 = key then some entry.2 else get entries key := by
  unfold get
  by_cases h : entry.1 = key
  · rw [if_pos h, List.find?_cons_of_pos (by simpa using h)]
    rfl
  · rw [if_neg h, List.find?_cons_of_neg (by simpa using h)]

theorem get_map (f : κ → β → β) (entries : List (κ × β)) (key : κ) :
    get (entries.map fun entry => (entry.1, f entry.1 entry.2)) key =
      (get entries key).map (f key) := by
  induction entries with
  | nil => rfl
  | cons entry entries ih =>
      rw [List.map_cons, get_cons, get_cons, ih]
      by_cases h : entry.1 = key
      · rw [if_pos h, if_pos h, h]
        rfl
      · rw [if_neg h, if_neg h]

theorem get_append_singleton (entries : List (κ × β)) (key key' : κ) (value : β) :
    get (entries ++ [(key, value)]) key' =
      (get entries key').or (if key = key' then some value else none) := by
  induction entries with
  | nil =>
      rw [List.nil_append, get_cons]
      rfl
  | cons entry entries ih =>
      rw [List.cons_append, get_cons, get_cons, ih]
      by_cases h : entry.1 = key'
      · rw [if_pos h, if_pos h]
        rfl
      · rw [if_neg h, if_neg h]

theorem get_set (entries : List (κ × β)) (key key' : κ) (value : β) :
    get (set entries key value) key' = if key' = key then some value else get entries key' := by
  unfold set
  split
  · next hany =>
      have hmap : (entries.map fun entry => if entry.1 = key then (entry.1, value) else entry) =
          entries.map fun entry => (entry.1, if entry.1 = key then value else entry.2) := by
        apply List.map_congr_left
        intro entry _
        split <;> rfl
      rw [hmap, get_map fun k v => if k = key then value else v]
      by_cases h : key' = key
      · subst h
        obtain ⟨entry, hentry, hkey⟩ := List.any_eq_true.mp hany
        have hsome : (get entries key').isSome = true := by
          unfold get
          rw [Option.isSome_map]
          exact List.find?_isSome.mpr ⟨entry, hentry, hkey⟩
        obtain ⟨found, hfound⟩ := Option.isSome_iff_exists.mp hsome
        rw [hfound]
        simp
      · simp [h]
  · next hany =>
      have hnone : get entries key = none := by
        apply get_eq_none
        intro entry hentry heq
        exact hany (List.any_eq_true.mpr ⟨entry, hentry, beq_iff_eq.mpr heq⟩)
      rw [get_append_singleton]
      by_cases h : key' = key
      · subst h
        simp [hnone]
      · rw [if_neg fun heq => h heq.symm, if_neg h, Option.or_none]

theorem get_erase (entries : List (κ × β)) (key key' : κ) :
    get (erase entries key) key' = if key' = key then none else get entries key' := by
  induction entries with
  | nil =>
      show none = _
      split <;> rfl
  | cons entry entries ih =>
      have hcons : erase (entry :: entries) key =
          if entry.1 = key then erase entries key else entry :: erase entries key := by
        unfold erase
        rw [List.filter_cons]
        by_cases h : entry.1 = key <;> simp [h]
      rw [hcons, get_cons]
      by_cases h : entry.1 = key
      · rw [if_pos h, ih]
        by_cases h' : key' = key
        · rw [if_pos h', if_pos h']
        · have hne : entry.1 ≠ key' := fun heq => h' (heq.symm.trans h)
          rw [if_neg h', if_neg h', if_neg hne]
      · rw [if_neg h, get_cons, ih]
        by_cases h' : entry.1 = key'
        · rw [if_pos h', if_pos h', if_neg fun heq => h (h'.trans heq)]
        · rw [if_neg h', if_neg h']

end MaddyWeb.Library.Dict
