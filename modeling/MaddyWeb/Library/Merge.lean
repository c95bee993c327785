import Mathlib.Algebra.GroupWithZero.Nat
import Mathlib.Data.List.Nodup

/-!
# Merging streams by their heads

`merge` takes the least head of a family of named streams again and again.  The
streams need not be sorted: only the order within each of them is kept.
-/

namespace MaddyWeb.Library.Merge

variable {κ α γ : Type}

/-- `min` with a key: the first of the least elements. -/
def first (lt : γ → γ → Bool) : List γ → Option γ
  | [] => none
  | x :: xs => some (xs.foldl (fun best y => if lt y best then y else best) x)

def heads (streams : List (κ × List α)) : List (κ × α) :=
  streams.filterMap fun stream => stream.2.head?.map fun x => (stream.1, x)

def pop [DecidableEq κ] (k : κ) (streams : List (κ × List α)) : List (κ × List α) :=
  streams.map fun stream => if stream.1 = k then (stream.1, stream.2.tail) else stream

def total (streams : List (κ × List α)) : Nat := (streams.map (·.2.length)).sum

section Steps

variable [DecidableEq κ] (lt : κ × α → κ × α → Bool)

/-- The first `n` elements of the merge. -/
def merge : Nat → List (κ × List α) → List (κ × α)
  | 0, _ => []
  | n + 1, streams =>
      match first lt (heads streams) with
      | none => []
      | some head => head :: merge n (pop head.1 streams)

/-- What `n` steps of the merge leave. -/
def rest : Nat → List (κ × List α) → List (κ × List α)
  | 0, streams => streams
  | n + 1, streams =>
      match first lt (heads streams) with
      | none => streams
      | some head => rest n (pop head.1 streams)

def mergeAll (streams : List (κ × List α)) : List (κ × α) := merge lt (total streams) streams

theorem merge_succ (n : Nat) (streams : List (κ × List α)) :
    merge lt (n + 1) streams = match first lt (heads streams) with
      | none => []
      | some head => head :: merge lt n (pop head.1 streams) := rfl

theorem rest_succ (n : Nat) (streams : List (κ × List α)) :
    rest lt (n + 1) streams = match first lt (heads streams) with
      | none => streams
      | some head => rest lt n (pop head.1 streams) := rfl

end Steps

theorem mem_of_first {lt : γ → γ → Bool} {xs : List γ} {x : γ} (h : first lt xs = some x) :
    x ∈ xs := by
  cases xs with
  | nil => cases h
  | cons y ys =>
      rw [first, Option.some.injEq] at h
      subst h
      have hfold : ∀ (zs : List γ) (best : γ),
          zs.foldl (fun best z => if lt z best then z else best) best ∈ best :: zs := by
        intro zs
        induction zs with
        | nil => exact fun best => List.mem_singleton_self best
        | cons z zs ih =>
            intro best
            rw [List.foldl_cons]
            rcases List.mem_cons.mp (ih (if lt z best then z else best)) with hmem | hmem
            · rw [hmem]
              split
              · exact List.mem_cons_of_mem _ List.mem_cons_self
              · exact List.mem_cons_self
            · exact List.mem_cons_of_mem _ (List.mem_cons_of_mem _ hmem)
      exact hfold ys y

theorem first_eq_none {lt : γ → γ → Bool} {xs : List γ} : first lt xs = none ↔ xs = [] := by
  cases xs with
  | nil => simp [first]
  | cons x xs => simp [first]

theorem mem_heads {streams : List (κ × List α)} {k : κ} {x : α} :
    (k, x) ∈ heads streams ↔ ∃ xs, (k, x :: xs) ∈ streams := by
  unfold heads
  rw [List.mem_filterMap]
  constructor
  · rintro ⟨⟨k', ys⟩, hmem, heq⟩
    cases ys with
    | nil => cases heq
    | cons y ys =>
        cases heq
        exact ⟨ys, hmem⟩
  · rintro ⟨xs, hmem⟩
    exact ⟨(k, x :: xs), hmem, rfl⟩

theorem heads_eq_nil {streams : List (κ × List α)} : heads streams = [] ↔ total streams = 0 := by
  induction streams with
  | nil => simp [heads, total]
  | cons stream streams ih =>
      obtain ⟨k, xs⟩ := stream
      cases xs with
      | nil => simpa [heads, total] using ih
      | cons x xs => simp [heads, total]

theorem length_le_total {streams : List (κ × List α)} {stream : κ × List α}
    (h : stream ∈ streams) : stream.2.length ≤ total streams := by
  induction streams with
  | nil => cases h
  | cons head streams ih =>
      simp only [total, List.map_cons, List.sum_cons] at ih ⊢
      rcases List.mem_cons.mp h with rfl | h
      · omega
      · have := ih h
        omega

theorem first_heads_eq_none {lt : κ × α → κ × α → Bool} {streams : List (κ × List α)} :
    first lt (heads streams) = none ↔ total streams = 0 :=
  first_eq_none.trans heads_eq_nil

section Merge

variable [DecidableEq κ] (lt : κ × α → κ × α → Bool)

omit lt in
@[simp] theorem keys_pop (k : κ) (streams : List (κ × List α)) :
    (pop k streams).map (·.1) = streams.map (·.1) := by
  unfold pop
  rw [List.map_map]
  apply List.map_congr_left
  intro stream _
  rw [Function.comp_apply]
  split <;> rfl

omit lt in
theorem pop_of_not_mem {k : κ} {streams : List (κ × List α)} (h : k ∉ streams.map (·.1)) :
    pop k streams = streams := by
  unfold pop
  conv_rhs => rw [← List.map_id streams]
  apply List.map_congr_left
  intro stream hstream
  rw [if_neg]
  · rfl
  · intro heq
    exact h (heq ▸ List.mem_map_of_mem hstream)

omit lt in
theorem total_pop {streams : List (κ × List α)} (hkeys : (streams.map (·.1)).Nodup) {k : κ} {x : α}
    (hhead : (k, x) ∈ heads streams) : total (pop k streams) + 1 = total streams := by
  induction streams with
  | nil => cases hhead
  | cons stream streams ih =>
      obtain ⟨k', xs⟩ := stream
      rw [List.map_cons, List.nodup_cons] at hkeys
      obtain ⟨ys, hmem⟩ := mem_heads.mp hhead
      rcases List.mem_cons.mp hmem with heq | hmem
      · cases heq
        have hpop : pop k ((k, x :: ys) :: streams) = (k, ys) :: streams := by
          show (if k = k then (k, ys) else (k, x :: ys)) :: pop k streams = _
          rw [if_pos rfl, pop_of_not_mem hkeys.1]
        rw [hpop]
        simp [total]
        omega
      · have hne : k' ≠ k := by
          rintro rfl
          exact hkeys.1 (List.mem_map.mpr ⟨_, hmem, rfl⟩)
        have hpop : pop k ((k', xs) :: streams) = (k', xs) :: pop k streams := by
          show (if k' = k then _ else (k', xs)) :: pop k streams = _
          rw [if_neg hne]
        have hrest := ih hkeys.2 (mem_heads.mpr ⟨ys, hmem⟩)
        rw [hpop]
        simp only [total, List.map_cons, List.sum_cons] at hrest ⊢
        omega

theorem total_rest_zero {n : Nat} {streams : List (κ × List α)}
    (hkeys : (streams.map (·.1)).Nodup) (h : total streams ≤ n) :
    total (rest lt n streams) = 0 := by
  induction n generalizing streams with
  | zero => exact Nat.le_zero.mp h
  | succ n ih =>
      unfold rest
      split
      · next hnone => exact first_heads_eq_none.mp hnone
      · next head hsome =>
          have hpop := total_pop hkeys (mem_of_first hsome)
          exact ih (by rw [keys_pop]; exact hkeys) (by omega)

@[simp] theorem keys_rest (n : Nat) (streams : List (κ × List α)) :
    (rest lt n streams).map (·.1) = streams.map (·.1) := by
  induction n generalizing streams with
  | zero => rfl
  | succ n ih =>
      unfold rest
      split
      · rfl
      · rw [ih, keys_pop]

theorem length_merge_le (n : Nat) (streams : List (κ × List α)) :
    (merge lt n streams).length ≤ n := by
  induction n generalizing streams with
  | zero => exact Nat.le_refl 0
  | succ n ih =>
      unfold merge
      split
      · exact Nat.zero_le _
      · exact Nat.succ_le_succ (ih _)

/-- Each step moves one element. -/
theorem length_merge_add {n : Nat} {streams : List (κ × List α)}
    (hkeys : (streams.map (·.1)).Nodup) :
    (merge lt n streams).length + total (rest lt n streams) = total streams := by
  induction n generalizing streams with
  | zero => exact Nat.zero_add _
  | succ n ih =>
      unfold merge rest
      split
      · exact Nat.zero_add _
      · next head hsome =>
          have hpop := total_pop hkeys (mem_of_first hsome)
          have hkeys' : ((pop head.1 streams).map (·.1)).Nodup := by
            rw [keys_pop]
            exact hkeys
          have hrest := ih hkeys'
          rw [List.length_cons]
          omega

theorem merge_eq_nil_of_total {n : Nat} {streams : List (κ × List α)} (h : total streams = 0) :
    merge lt n streams = [] := by
  cases n with
  | zero => rfl
  | succ n =>
      unfold merge
      rw [heads_eq_nil.mpr h]
      rfl

theorem merge_ne_nil {n : Nat} {streams : List (κ × List α)} (hn : 0 < n) (h : total streams ≠ 0) :
    merge lt n streams ≠ [] := by
  obtain ⟨n, rfl⟩ := Nat.exists_eq_succ_of_ne_zero (Nat.pos_iff_ne_zero.mp hn)
  rw [merge_succ]
  split
  · next hnone => exact absurd (first_heads_eq_none.mp hnone) h
  · exact List.cons_ne_nil _ _

theorem merge_append (m n : Nat) (streams : List (κ × List α)) :
    merge lt (m + n) streams = merge lt m streams ++ merge lt n (rest lt m streams) := by
  induction m generalizing streams with
  | zero =>
      rw [Nat.zero_add]
      rfl
  | succ m ih =>
      rw [Nat.succ_add, merge_succ, merge_succ, rest_succ]
      split
      · next hnone =>
          rw [List.nil_append]
          exact (merge_eq_nil_of_total lt (first_heads_eq_none.mp hnone)).symm
      · rw [ih]
        rfl

/-- Steps beyond the last element change nothing. -/
theorem merge_of_total_le {n : Nat} {streams : List (κ × List α)}
    (hkeys : (streams.map (·.1)).Nodup) (h : total streams ≤ n) :
    merge lt n streams = mergeAll lt streams := by
  obtain ⟨extra, rfl⟩ := Nat.exists_eq_add_of_le h
  rw [merge_append]
  rw [merge_eq_nil_of_total lt (total_rest_zero lt hkeys (Nat.le_refl _)), List.append_nil]
  rfl

/-- The merge of everything is a part of it followed by the merge of what is left. -/
theorem mergeAll_eq_append {streams : List (κ × List α)} (hkeys : (streams.map (·.1)).Nodup)
    (n : Nat) : mergeAll lt streams = merge lt n streams ++ mergeAll lt (rest lt n streams) := by
  have hlength := length_merge_add lt (n := n) hkeys
  have hrest : merge lt (total streams) (rest lt n streams) = mergeAll lt (rest lt n streams) :=
    merge_of_total_le lt (by rw [keys_rest]; exact hkeys) (by omega)
  rw [← merge_of_total_le lt hkeys (show total streams ≤ n + total streams by omega), merge_append,
    hrest]

end Merge

/-! ## Streams that have ended -/

def live (streams : List (κ × List α)) : List (κ × List α) := streams.filter (!·.2.isEmpty)

theorem heads_live (streams : List (κ × List α)) : heads (live streams) = heads streams := by
  unfold heads live
  rw [List.filterMap_filter]
  apply List.filterMap_congr
  rintro ⟨k, xs⟩ _
  cases xs <;> rfl

theorem total_live (streams : List (κ × List α)) : total (live streams) = total streams := by
  induction streams with
  | nil => rfl
  | cons stream streams ih =>
      obtain ⟨k, xs⟩ := stream
      cases xs with
      | nil => simpa [total, live] using ih
      | cons x xs => simpa [total, live] using ih

section Live

variable [DecidableEq κ] (lt : κ × α → κ × α → Bool)

omit lt in
theorem live_pop (k : κ) (streams : List (κ × List α)) :
    live (pop k (live streams)) = live (pop k streams) := by
  induction streams with
  | nil => rfl
  | cons stream streams ih =>
      obtain ⟨k', xs⟩ := stream
      cases xs with
      | nil =>
          have hlive : live ((k', ([] : List α)) :: streams) = live streams := rfl
          have hpop : live (pop k ((k', ([] : List α)) :: streams)) = live (pop k streams) := by
            show live ((if k' = k then (k', []) else (k', [])) :: pop k streams) = _
            rw [ite_self]
            rfl
          rw [hlive, hpop, ih]
      | cons x xs =>
          have hlive : live ((k', x :: xs) :: streams) = (k', x :: xs) :: live streams := rfl
          have hcons : ∀ (head : κ × List α) (l l' : List (κ × List α)), live l = live l' →
              live (head :: l) = live (head :: l') := by
            intro head l l' h
            unfold live at h ⊢
            rw [List.filter_cons, List.filter_cons, h]
          rw [hlive]
          exact hcons _ _ _ ih

/-- Only the streams that have not ended matter. -/
theorem merge_congr_live {n : Nat} {streams streams' : List (κ × List α)}
    (h : live streams = live streams') : merge lt n streams = merge lt n streams' := by
  induction n generalizing streams streams' with
  | zero => rfl
  | succ n ih =>
      have hheads : heads streams = heads streams' := by
        rw [← heads_live streams, h, heads_live]
      unfold merge
      rw [hheads]
      split
      · rfl
      · next head _ =>
          have hpop : live (pop head.1 streams) = live (pop head.1 streams') := by
            rw [← live_pop, h, live_pop]
          rw [ih hpop]

theorem mergeAll_live (streams : List (κ × List α)) :
    mergeAll lt (live streams) = mergeAll lt streams := by
  unfold mergeAll
  rw [total_live]
  apply merge_congr_live
  unfold live
  rw [List.filter_filter]
  simp

/-! ## What a merge holds of each stream -/

theorem filter_merge {streams : List (κ × List α)} (hkeys : (streams.map (·.1)).Nodup)
    {k : κ} {xs : List α} (hstream : (k, xs) ∈ streams) {n : Nat} (hn : total streams ≤ n) :
    (merge lt n streams).filter (·.1 = k) = xs.map fun x => (k, x) := by
  induction n generalizing streams xs with
  | zero =>
      have hlength : xs.length ≤ total streams := length_le_total hstream
      rw [List.length_eq_zero_iff.mp (show xs.length = 0 by omega)]
      rfl
  | succ n ih =>
      unfold merge
      split
      · next hnone =>
          have hzero := first_heads_eq_none.mp hnone
          have hlength : xs.length ≤ total streams := length_le_total hstream
          rw [List.length_eq_zero_iff.mp (show xs.length = 0 by omega)]
          rfl
      · next head hsome =>
          obtain ⟨k', x⟩ := head
          have hhead := mem_of_first hsome
          have hpop := total_pop hkeys hhead
          have hkeys' : ((pop k' streams).map (·.1)).Nodup := by rw [keys_pop]; exact hkeys
          obtain ⟨ys, hmem⟩ := mem_heads.mp hhead
          by_cases hk : k' = k
          · subst hk
            have heq : (k', x :: ys) = (k', xs) :=
              List.inj_on_of_nodup_map hkeys hmem hstream rfl
            obtain rfl := (Prod.mk.inj heq).2
            have hrest : (k', ys) ∈ pop k' streams :=
              List.mem_map.mpr ⟨(k', x :: ys), hmem, if_pos rfl⟩
            rw [List.filter_cons, if_pos (by simp), ih hkeys' hrest (by omega)]
            rfl
          · have hrest : (k, xs) ∈ pop k' streams :=
              List.mem_map.mpr ⟨(k, xs), hstream, if_neg (Ne.symm hk)⟩
            rw [List.filter_cons, if_neg (by simpa using hk), ih hkeys' hrest (by omega)]

theorem filter_mergeAll {streams : List (κ × List α)} (hkeys : (streams.map (·.1)).Nodup)
    {k : κ} {xs : List α} (hstream : (k, xs) ∈ streams) :
    (mergeAll lt streams).filter (·.1 = k) = xs.map fun x => (k, x) :=
  filter_merge lt hkeys hstream (Nat.le_refl _)

end Live

end MaddyWeb.Library.Merge
