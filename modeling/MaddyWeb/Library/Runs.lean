import MaddyWeb.Library.Text
import Mathlib.Data.List.TakeWhile

/-!
# Runs

`Runs ps text` says that a text consists of one run after the other, of the classes `ps`.  Taking
a class off the front of the list of classes is what `dropWhile` does to the text, and taking it
off both ends is what `stripBy` does.
-/

namespace MaddyWeb.Library

open MaddyWeb.Library.Text

variable {α : Type}

def Runs : List (α → Bool) → List α → Prop
  | [], text => text = []
  | p :: ps, text => ∃ run rest, text = run ++ rest ∧ (∀ x ∈ run, p x = true) ∧ Runs ps rest

namespace Runs

variable {p : α → Bool} {ps qs : List (α → Bool)} {text : List α}

theorem skip (h : Runs ps text) : Runs (p :: ps) text := ⟨[], text, rfl, nofun, h⟩

theorem append {rest : List α} (h : Runs ps text) (hrest : Runs qs rest) :
    Runs (ps ++ qs) (text ++ rest) := by
  induction ps generalizing text with
  | nil =>
      cases h
      exact hrest
  | cons p ps ih =>
      obtain ⟨run, tail, rfl, hrun, htail⟩ := h
      exact ⟨run, tail ++ rest, List.append_assoc _ _ _, hrun, ih htail⟩

theorem singleton (h : ∀ x ∈ text, p x = true) : Runs [p] text :=
  ⟨text, [], (List.append_nil text).symm, h, rfl⟩

theorem of_singleton (h : Runs [p] text) : ∀ x ∈ text, p x = true := by
  obtain ⟨run, rest, rfl, hrun, hrest⟩ := h
  cases hrest
  rwa [List.append_nil]

theorem of_cons {x : α} (h : Runs ps (x :: text)) : Runs ps text := by
  induction ps with
  | nil => cases h
  | cons p ps ih =>
      obtain ⟨run, rest, hsplit, hrun, hrest⟩ := h
      cases run with
      | nil =>
          cases (List.nil_append rest ▸ hsplit : x :: text = rest)
          exact skip (ih hrest)
      | cons y run =>
          cases hsplit
          exact ⟨run, rest, rfl, fun z hz => hrun z (List.mem_cons_of_mem _ hz), hrest⟩

theorem suffix {front : List α} (h : Runs ps (front ++ text)) : Runs ps text := by
  induction front with
  | nil => exact h
  | cons x front ih => exact ih h.of_cons

theorem reverse (h : Runs ps text) : Runs ps.reverse text.reverse := by
  induction ps generalizing text with
  | nil =>
      cases h
      rfl
  | cons p ps ih =>
      obtain ⟨run, rest, rfl, hrun, hrest⟩ := h
      rw [List.reverse_cons, List.reverse_append]
      apply append (ih hrest)
      exact singleton fun x hx => hrun x (List.mem_reverse.mp hx)

theorem reverse_iff : Runs ps.reverse text.reverse ↔ Runs ps text := by
  refine ⟨fun h => ?_, reverse⟩
  have hback := h.reverse
  rwa [List.reverse_reverse, List.reverse_reverse] at hback

theorem dropWhile_iff : Runs ps (text.dropWhile p) ↔ Runs (p :: ps) text := by
  constructor
  · intro h
    refine ⟨text.takeWhile p, text.dropWhile p, (List.takeWhile_append_dropWhile).symm, ?_, h⟩
    exact fun x hx => List.mem_takeWhile_imp hx
  · rintro ⟨run, rest, rfl, hrun, hrest⟩
    rw [List.dropWhile_append_of_pos hrun]
    rw [← List.takeWhile_append_dropWhile (p := p) (l := rest)] at hrest
    exact hrest.suffix

theorem stripBy_iff : Runs ps (stripBy p text) ↔ Runs (p :: (ps ++ [p])) text := by
  unfold stripBy
  rw [← dropWhile_iff, ← reverse_iff, List.reverse_reverse, dropWhile_iff, ← reverse_iff,
    List.reverse_reverse, List.reverse_cons, List.reverse_reverse]

/-- Runs of what a filter keeps are runs of that and of what it drops. -/
theorem filter_iff {keep : α → Bool} :
    Runs (p :: ps) (text.filter keep) ↔ Runs ((p :: ps).map fun q x => !keep x || q x) text := by
  induction ps generalizing p text with
  | nil =>
      constructor
      · intro h
        apply singleton
        intro x hx
        rw [Bool.or_eq_true, Bool.not_eq_true']
        by_cases hkeep : keep x = true
        · exact Or.inr (h.of_singleton x (List.mem_filter.mpr ⟨hx, hkeep⟩))
        · exact Or.inl (Bool.eq_false_iff.mpr hkeep)
      · intro h
        apply singleton
        intro x hx
        have hmem := h.of_singleton x (List.mem_of_mem_filter hx)
        simpa [(List.mem_filter.mp hx).2] using hmem
  | cons q ps ih =>
      constructor
      · rintro ⟨run, rest, hsplit, hrun, hrest⟩
        obtain ⟨front, tail, rfl, hfront, htail⟩ := List.filter_eq_append_iff.mp hsplit
        refine ⟨front, tail, rfl, fun x hx => ?_, ih.mp (htail ▸ hrest)⟩
        rw [Bool.or_eq_true, Bool.not_eq_true']
        by_cases hkeep : keep x = true
        · exact Or.inr (hrun x (hfront ▸ List.mem_filter.mpr ⟨hx, hkeep⟩))
        · exact Or.inl (Bool.eq_false_iff.mpr hkeep)
      · rintro ⟨run, rest, rfl, hrun, hrest⟩
        refine ⟨run.filter keep, rest.filter keep, List.filter_append run rest, fun x hx => ?_,
          ih.mpr hrest⟩
        have hmem := hrun x (List.mem_of_mem_filter hx)
        simpa [(List.mem_filter.mp hx).2] using hmem

end Runs

/-! ## A part that is bounded -/

section Bounded

variable {p : α → Bool} {left core rest : List α}

theorem dropWhile_append_of_head (h : ∀ x ∈ core.head?, p x = false) :
    (left ++ core).dropWhile p = left.dropWhile p ++ core := by
  induction left with
  | nil => rw [List.nil_append, Text.dropWhile_eq_self h, List.dropWhile_nil, List.nil_append]
  | cons x left ih =>
      by_cases hx : p x = true
      · rw [List.cons_append, List.dropWhile_cons_of_pos hx, List.dropWhile_cons_of_pos hx, ih]
      · rw [List.cons_append, List.dropWhile_cons_of_neg hx, List.dropWhile_cons_of_neg hx,
          List.cons_append]

/-- Both ends are taken off on their own where what is between them stays. -/
theorem stripBy_between (hne : core ≠ []) (hfirst : ∀ x ∈ core.head?, p x = false)
    (hlast : ∀ x ∈ core.getLast?, p x = false) :
    stripBy p (left ++ core ++ rest) =
      left.dropWhile p ++ core ++ (rest.reverse.dropWhile p).reverse := by
  have hfront : (left ++ core ++ rest).dropWhile p = left.dropWhile p ++ core ++ rest := by
    rw [List.append_assoc, dropWhile_append_of_head, List.append_assoc]
    intro x hx
    apply hfirst x
    rwa [List.head?_append_of_ne_nil _ hne] at hx
  have hback : (left.dropWhile p ++ core ++ rest).reverse.dropWhile p =
      rest.reverse.dropWhile p ++ (left.dropWhile p ++ core).reverse := by
    rw [List.reverse_append, dropWhile_append_of_head]
    intro x hx
    apply hlast x
    rwa [List.head?_reverse, List.getLast?_append_of_ne_nil _ hne] at hx
  rw [stripBy, hfront, hback, List.reverse_append, List.reverse_reverse]

theorem of_mem_head?_stripBy {x : α} {text : List α} (h : x ∈ (stripBy p text).head?) :
    p x = false := by
  have hstrip : stripBy p (stripBy p text) = stripBy p text := stripBy_stripBy text
  by_contra hx
  rw [Bool.not_eq_false] at hx
  cases htext : stripBy p text with
  | nil =>
      rw [htext] at h
      cases h
  | cons y rest =>
      rw [htext] at h hstrip
      cases h
      have hlength := congrArg List.length hstrip
      rw [stripBy_cons hx, stripBy, List.length_reverse, List.length_cons] at hlength
      have hdrop := (List.dropWhile_sublist p (l := (rest.dropWhile p).reverse)).length_le
      have hfront := (List.dropWhile_sublist p (l := rest)).length_le
      rw [List.length_reverse] at hdrop
      omega

theorem stripBy_sublist (text : List α) : (stripBy p text).Sublist text := by
  unfold stripBy
  have hback : ((text.dropWhile p).reverse.dropWhile p).reverse.Sublist (text.dropWhile p) := by
    rw [← List.reverse_sublist, List.reverse_reverse]
    exact List.dropWhile_sublist p
  exact hback.trans (List.dropWhile_sublist p)

/-- A list with an element of a class has a first and a last one. -/
theorem exists_between {x : α} {text : List α} (hx : x ∈ text) (hp : p x = true) :
    ∃ left core rest, text = left ++ core ++ rest ∧ (∀ y ∈ left, p y = false) ∧
      (∃ y ∈ core.head?, p y = true) ∧ (∃ y ∈ core.getLast?, p y = true) ∧
      ∀ y ∈ rest, p y = false := by
  have hfirst : ∃ y, text.find? p = some y := by
    rw [← Option.isSome_iff_exists, List.find?_isSome]
    exact ⟨x, hx, hp⟩
  obtain ⟨y, hfirst⟩ := hfirst
  obtain ⟨hy, left, tail, rfl, hleft⟩ := List.find?_eq_some_iff_append.mp hfirst
  have hlast : ∃ z, (y :: tail).reverse.find? p = some z := by
    rw [← Option.isSome_iff_exists, List.find?_isSome]
    exact ⟨y, List.mem_reverse.mpr List.mem_cons_self, hy⟩
  obtain ⟨z, hlast⟩ := hlast
  obtain ⟨hz, back, front, hsplit, hback⟩ := List.find?_eq_some_iff_append.mp hlast
  have htail : y :: tail = front.reverse ++ [z] ++ back.reverse := by
    rw [← List.reverse_reverse (y :: tail), hsplit]
    simp
  have hhead : (front.reverse ++ [z]).head? = some y := by
    have hcons : (front.reverse ++ [z] ++ back.reverse).head? = some y := by
      rw [← htail]
      rfl
    rwa [List.head?_append_of_ne_nil _ (by simp)] at hcons
  refine ⟨left, front.reverse ++ [z], back.reverse, ?_, ?_, ⟨y, hhead, hy⟩, ⟨z, by simp, hz⟩, ?_⟩
  · rw [htail, List.append_assoc left]
  · simpa using hleft
  · simpa using hback

end Bounded

end MaddyWeb.Library
