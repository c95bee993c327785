import MaddyWeb.Web.Freshness

/-!
# The two indexes of the snapshots

The tokens of an owner are those of its entries, in the same order, after every removal and
every addition; and each of the three loops leaves exactly what it is meant to leave.
-/

namespace MaddyWeb.Web.Freshness

open MaddyWeb.Library

variable {limits : Limits} {s t : Store} {token owner : String} {entry : Entry} {now : Nat}

/-- The tokens that an owner has among some entries. -/
def ownTokens (entries : List (String × Entry)) (owner : String) : List String :=
  (entries.filter (·.2.owner = owner)).map (·.1)

/-- `_owners` is the index of `_entries` by owner. -/
structure Indexed (s : Store) : Prop where
  keys : (s.entries.map (·.1)).Nodup
  ownerKeys : (s.owners.map (·.1)).Nodup
  index : ∀ owner, Dict.get s.owners owner =
    if ownTokens s.entries owner = [] then none else some (ownTokens s.entries owner)

theorem Indexed.empty : Indexed ⟨[], []⟩ := ⟨List.nodup_nil, List.nodup_nil, fun _ => rfl⟩

theorem mem_ownTokens {entries : List (String × Entry)} :
    token ∈ ownTokens entries owner ↔ ∃ entry, (token, entry) ∈ entries ∧ entry.owner = owner := by
  unfold ownTokens
  rw [List.mem_map]
  constructor
  · rintro ⟨⟨key, entry⟩, hmem, rfl⟩
    obtain ⟨hmem, howner⟩ := List.mem_filter.mp hmem
    exact ⟨entry, hmem, of_decide_eq_true howner⟩
  · rintro ⟨entry, hmem, howner⟩
    exact ⟨(token, entry), List.mem_filter.mpr ⟨hmem, decide_eq_true howner⟩, rfl⟩

theorem Indexed.owned (hs : Indexed s) (owner : String) :
    s.owned owner = ownTokens s.entries owner := by
  unfold Store.owned
  rw [hs.index]
  split
  · next hnone =>
      rw [hnone]
      rfl
  · rfl

theorem Indexed.ownTokens_nodup (hs : Indexed s) (owner : String) :
    (ownTokens s.entries owner).Nodup :=
  hs.keys.sublist (List.filter_sublist.map _)

theorem ownTokens_erase (entries : List (String × Entry)) (token owner : String) :
    ownTokens (Dict.erase entries token) owner = (ownTokens entries owner).filter (· ≠ token) := by
  unfold ownTokens Dict.erase
  rw [List.filter_map, List.filter_filter, List.filter_filter]
  congr 1
  apply List.filter_congr
  intro entry _
  rw [Bool.and_comm]
  rfl

theorem ownTokens_append (entries rest : List (String × Entry)) (owner : String) :
    ownTokens (entries ++ rest) owner = ownTokens entries owner ++ ownTokens rest owner := by
  unfold ownTokens
  rw [List.filter_append, List.map_append]

theorem ownTokens_singleton (token owner : String) (entry : Entry) :
    ownTokens [(token, entry)] owner = if entry.owner = owner then [token] else [] := by
  unfold ownTokens
  by_cases howner : entry.owner = owner
  · rw [List.filter_cons_of_pos (by simpa using howner), if_pos howner]
    rfl
  · rw [List.filter_cons_of_neg (by simpa using howner), if_neg howner]
    rfl

/-! ## Removing -/

theorem remove_entries : (s.remove token).2.entries = Dict.erase s.entries token := by
  unfold Store.remove
  split
  · next hnone =>
      symm
      apply List.filter_eq_self.mpr
      intro other hother
      rw [decide_eq_true_eq]
      intro hkey
      unfold Dict.get at hnone
      rw [Option.map_eq_none_iff, List.find?_eq_none] at hnone
      exact hnone other hother (beq_iff_eq.mpr hkey)
  · rfl

theorem remove_sublist : (s.remove token).2.entries.Sublist s.entries := by
  rw [remove_entries]
  exact List.filter_sublist

theorem Indexed.remove (hs : Indexed s) (token : String) : Indexed (s.remove token).2 := by
  refine ⟨?_, ?_, ?_⟩
  · rw [remove_entries]
    exact Dict.nodup_erase hs.keys token
  · unfold Store.remove
    split
    · exact hs.ownerKeys
    · unfold dropOwned
      split
      · exact hs.ownerKeys
      · split
        · exact Dict.nodup_erase hs.ownerKeys _
        · exact Dict.nodup_set hs.ownerKeys _ _
  · intro owner
    rw [remove_entries, ownTokens_erase]
    unfold Store.remove
    split
    · next hnone =>
        have hkeep :
            (ownTokens s.entries owner).filter (· ≠ token) = ownTokens s.entries owner := by
          apply List.filter_eq_self.mpr
          intro other hother
          rw [decide_eq_true_eq]
          rintro rfl
          obtain ⟨entry, hmem, -⟩ := mem_ownTokens.mp hother
          rw [Dict.get_eq_some hs.keys hmem] at hnone
          cases hnone
        rw [hkeep]
        exact hs.index owner
    · next entry hentry =>
        have hmem := Dict.mem_of_get hentry
        have hown : token ∈ ownTokens s.entries entry.owner := mem_ownTokens.mpr ⟨entry, hmem, rfl⟩
        unfold dropOwned
        rw [hs.index, if_neg (List.ne_nil_of_mem hown)]
        dsimp only
        by_cases howner : owner = entry.owner
        · subst howner
          split
          · next hempty =>
              rw [Dict.get_erase, if_pos rfl, if_pos (List.isEmpty_iff.mp hempty)]
          · next hempty =>
              rw [Dict.get_set, if_pos rfl, if_neg fun h => hempty (List.isEmpty_iff.mpr h)]
        · have hkeep : (ownTokens s.entries owner).filter (· ≠ token) =
              ownTokens s.entries owner := by
            apply List.filter_eq_self.mpr
            intro other hother
            rw [decide_eq_true_eq]
            rintro rfl
            obtain ⟨entry', hmem', rfl⟩ := mem_ownTokens.mp hother
            have heq : (other, entry') = (other, entry) :=
              List.inj_on_of_nodup_map hs.keys hmem' hmem rfl
            exact howner (congrArg (Entry.owner ·.2) heq)
          rw [hkeep, ← hs.index owner]
          split
          · rw [Dict.get_erase, if_neg howner]
          · rw [Dict.get_set, if_neg howner]

/-- Removing the oldest entry. -/
theorem remove_head {rest : List (String × Entry)} (hs : Indexed s)
    (hentries : s.entries = (token, entry) :: rest) : (s.remove token).2.entries = rest := by
  have hkeys := hs.keys
  rw [hentries, List.map_cons, List.nodup_cons] at hkeys
  rw [remove_entries, hentries]
  unfold Dict.erase
  rw [List.filter_cons_of_neg (by simp)]
  apply List.filter_eq_self.mpr
  intro other hother
  rw [decide_eq_true_eq]
  exact fun hkey => hkeys.1 (List.mem_map.mpr ⟨other, hother, hkey⟩)

/-! ## The loops -/

/-- The order in which the entries expire is that in which they stand. -/
def Sorted (entries : List (String × Entry)) : Prop :=
  entries.Pairwise fun a b => a.2.expiresAt ≤ b.2.expiresAt

theorem pruneLoop_spec {rounds : Nat} (hs : Indexed s) (hsorted : Sorted s.entries)
    (hrounds : s.entries.length ≤ rounds) :
    Indexed (pruneLoop now rounds s) ∧
      (pruneLoop now rounds s).entries = s.entries.filter (now < ·.2.expiresAt) := by
  induction rounds generalizing s with
  | zero =>
      have hnil : s.entries = [] := List.length_eq_zero_iff.mp (by omega)
      unfold pruneLoop
      rw [hnil]
      exact ⟨hs, rfl⟩
  | succ rounds ih =>
      unfold pruneLoop
      split
      · next hnil =>
          rw [hnil]
          exact ⟨hs, rfl⟩
      · next token entry rest hentries =>
          unfold Sorted at hsorted
          rw [hentries, List.pairwise_cons] at hsorted
          rw [hentries]
          split
          · next hlive =>
              refine ⟨hs, ?_⟩
              rw [hentries]
              symm
              apply List.filter_eq_self.mpr
              intro other hother
              rw [decide_eq_true_eq]
              rcases List.mem_cons.mp hother with rfl | hother
              · exact hlive
              · have := hsorted.1 other hother
                dsimp only at this
                omega
          · next hexpired =>
              have hrest := remove_head hs hentries
              rw [hentries, List.length_cons] at hrounds
              rw [List.filter_cons_of_neg (by rw [decide_eq_true_eq]; exact hexpired), ← hrest]
              apply ih (hs.remove token)
              · rw [hrest]
                exact hsorted.2
              · rw [hrest]
                omega

theorem prune_spec (hs : Indexed s) (hsorted : Sorted s.entries) (now : Nat) :
    Indexed (s.prune now) ∧ (s.prune now).entries = s.entries.filter (now < ·.2.expiresAt) :=
  pruneLoop_spec hs hsorted (Nat.le_refl _)

/-- What the first loop of `issue` leaves. -/
structure Room (limits : Limits) (owner : String) (s t : Store) : Prop where
  indexed : Indexed t
  kept : t.entries.Sublist s.entries
  others : ∀ entry ∈ s.entries, entry.2.owner ≠ owner → entry ∈ t.entries
  room : (ownTokens t.entries owner).length < limits.perOwnerCapacity
  idle : (ownTokens s.entries owner).length < limits.perOwnerCapacity → t = s
  shrunk : limits.perOwnerCapacity ≤ (ownTokens s.entries owner).length →
    t.entries.length < s.entries.length

theorem evictOwned_spec {rounds : Nat} (hs : Indexed s)
    (hrounds : (ownTokens s.entries owner).length ≤ rounds) :
    Room limits owner s (evictOwned limits owner rounds s) := by
  have hidle : (ownTokens s.entries owner).length < limits.perOwnerCapacity →
      Room limits owner s s := fun h =>
    ⟨hs, List.Sublist.refl _, fun _ hentry _ => hentry, h, fun _ => rfl, fun hfull => by omega⟩
  have hpos := limits.perOwnerCapacity_pos
  induction rounds generalizing s with
  | zero => exact hidle (by omega)
  | succ rounds ih =>
      unfold evictOwned
      rw [hs.owned owner]
      split
      · next hnil =>
          apply hidle
          rw [hnil]
          exact hpos
      · next token rest htokens =>
          split
          · next hfull =>
              have hmem : token ∈ ownTokens s.entries owner := by
                rw [htokens]
                exact List.mem_cons_self
              obtain ⟨entry, hentry, howner⟩ := mem_ownTokens.mp hmem
              have hown : ownTokens (s.remove token).2.entries owner = rest := by
                have hnodup := hs.ownTokens_nodup owner
                rw [remove_entries, ownTokens_erase, htokens,
                  List.filter_cons_of_neg (by simp)]
                rw [htokens, List.nodup_cons] at hnodup
                apply List.filter_eq_self.mpr
                intro other hother
                rw [decide_eq_true_eq]
                rintro rfl
                exact hnodup.1 hother
              rw [htokens, List.length_cons] at hrounds
              have hnext := ih (hs.remove token) (by rw [hown]; omega) fun h =>
                ⟨hs.remove token, List.Sublist.refl _, fun _ hentry _ => hentry, h, fun _ => rfl,
                  fun hfull => by omega⟩
              refine ⟨hnext.indexed, hnext.kept.trans remove_sublist, ?_, hnext.room, ?_, ?_⟩
              · intro other hother hother'
                apply hnext.others other _ hother'
                rw [remove_entries]
                refine Dict.mem_erase.mpr ⟨hother, fun hkey => ?_⟩
                have heq : other = (token, entry) :=
                  List.inj_on_of_nodup_map hs.keys hother hentry hkey
                rw [heq] at hother'
                exact hother' howner
              · intro hroom
                rw [htokens] at hroom
                omega
              · intro _
                have hless : (s.remove token).2.entries.length < s.entries.length := by
                  rw [remove_entries]
                  unfold Dict.erase
                  apply List.length_filter_lt_length_iff_exists.mpr
                  exact ⟨(token, entry), hentry, by simp⟩
                exact Nat.lt_of_le_of_lt hnext.kept.length_le hless
          · next hroom =>
              apply hidle
              rw [htokens]
              omega

theorem evictOldest_spec {rounds : Nat} (hs : Indexed s) (hrounds : s.entries.length ≤ rounds) :
    Indexed (evictOldest limits rounds s) ∧
      (evictOldest limits rounds s).entries =
        s.entries.drop (s.entries.length - limits.capacity) := by
  induction rounds generalizing s with
  | zero =>
      have hnil : s.entries = [] := List.length_eq_zero_iff.mp (by omega)
      unfold evictOldest
      rw [hnil, List.drop_nil]
      exact ⟨hs, rfl⟩
  | succ rounds ih =>
      unfold evictOldest
      split
      · next hnil =>
          rw [hnil, List.drop_nil]
          exact ⟨hs, rfl⟩
      · next token entry rest hentries =>
          split
          · next hover =>
              have hrest := remove_head hs hentries
              rw [hentries, List.length_cons] at hrounds hover ⊢
              have hnext := ih (hs.remove token) (by rw [hrest]; omega)
              refine ⟨hnext.1, ?_⟩
              rw [hnext.2, hrest, Nat.succ_sub (by omega), List.drop_succ_cons]
          · next hfits =>
              rw [Nat.sub_eq_zero_of_le (Nat.not_lt.mp hfits)]
              exact ⟨hs, rfl⟩

/-! ## Adding -/

theorem Indexed.add (hs : Indexed s) (hnew : Dict.get s.entries token = none) (entry : Entry) :
    Indexed ⟨s.entries ++ [(token, entry)], addOwned s.owners entry.owner token⟩ := by
  refine ⟨?_, Dict.nodup_set hs.ownerKeys _ _, ?_⟩
  · rw [List.map_append, List.map_singleton]
    apply List.nodup_append.mpr
    refine ⟨hs.keys, List.nodup_singleton token, ?_⟩
    rintro a ha b hb rfl
    obtain ⟨other, hother, rfl⟩ := List.mem_map.mp ha
    have hkey : other.1 = token := List.mem_singleton.mp hb
    rw [← hkey, Dict.get_eq_some hs.keys hother] at hnew
    cases hnew
  · intro owner
    have hgetD : (Dict.get s.owners entry.owner).getD [] = ownTokens s.entries entry.owner :=
      hs.owned entry.owner
    rw [ownTokens_append]
    unfold addOwned
    rw [hgetD, Dict.get_set]
    by_cases howner : owner = entry.owner
    · subst howner
      rw [if_pos rfl, ownTokens_singleton, if_pos rfl,
        if_neg (List.append_ne_nil_of_right_ne_nil _ (List.cons_ne_nil _ _))]
    · rw [if_neg howner, ownTokens_singleton, if_neg (Ne.symm howner), List.append_nil]
      exact hs.index owner

end MaddyWeb.Web.Freshness
