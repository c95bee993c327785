import Mathlib.Data.List.Nodup

/-!
# Lists without repetitions

`len(values) == len(set(values))` as a test for repetitions.
-/

namespace MaddyWeb.Library.Distinct

variable {α : Type} [BEq α] [LawfulBEq α]

omit [LawfulBEq α] in
theorem length_eraseDups_le (n : Nat) :
    ∀ l : List α, l.length ≤ n → l.eraseDups.length ≤ l.length := by
  induction n with
  | zero =>
      intro l hl
      rw [List.length_eq_zero_iff.mp (Nat.le_zero.mp hl)]
      exact Nat.le_refl _
  | succ n ih =>
      intro l hl
      cases l with
      | nil => exact Nat.le_refl _
      | cons a l =>
          rw [List.eraseDups_cons, List.length_cons, List.length_cons]
          rw [List.length_cons] at hl
          have hfilter := List.length_filter_le (fun b => !b == a) l
          have hrest := ih (l.filter fun b => !b == a) (by omega)
          omega

/-- `len(values) == len(set(values))` -/
theorem nodup_of_length_eraseDups {l : List α}
    (h : l.length = l.eraseDups.length) : l.Nodup := by
  induction l with
  | nil => exact List.nodup_nil
  | cons a l ih =>
      rw [List.eraseDups_cons, List.length_cons, List.length_cons] at h
      have hfilter := List.length_filter_le (fun b => !b == a) l
      have hrest := length_eraseDups_le _ (l.filter fun b => !b == a) (Nat.le_refl _)
      have hsame : l.filter (fun b => !b == a) = l :=
        List.filter_sublist.eq_of_length (by omega)
      rw [hsame] at h
      apply List.nodup_cons.mpr
      constructor
      · intro hmem
        rw [← hsame] at hmem
        simpa using (List.mem_filter.mp hmem).2
      · exact ih (by omega)

theorem eraseDups_of_nodup {l : List α} (h : l.Nodup) : l.eraseDups = l := by
  induction l with
  | nil => rfl
  | cons x l ih =>
      obtain ⟨hx, hl⟩ := List.nodup_cons.mp h
      have hfilter : l.filter (fun y => !y == x) = l := by
        apply List.filter_eq_self.mpr
        intro y hy
        have hne : y ≠ x := fun heq => hx (heq ▸ hy)
        simpa using hne
      rw [List.eraseDups_cons, hfilter, ih hl]

end MaddyWeb.Library.Distinct
