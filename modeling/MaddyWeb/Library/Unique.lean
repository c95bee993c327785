import Mathlib.Data.List.Basic
import Mathlib.Data.List.Nodup

/-!
# Keeping the first element for each key

The loop that passes over a list with a set of the keys it has seen.
-/

namespace MaddyWeb.Library.Unique

variable {α κ : Type} [DecidableEq κ]

/-- The elements whose key has not been seen, each of which adds its key. -/
def keepNew (key : α → κ) : List κ → List α → List α
  | _, [] => []
  | seen, x :: xs =>
      if key x ∈ seen then keepNew key seen xs else x :: keepNew key (key x :: seen) xs

variable {key : α → κ}

theorem keepNew_sublist (seen : List κ) (xs : List α) : (keepNew key seen xs).Sublist xs := by
  induction xs generalizing seen with
  | nil => exact List.Sublist.refl _
  | cons x xs ih =>
      unfold keepNew
      split
      · exact (ih seen).cons x
      · exact (ih _).cons_cons x

theorem keepNew_not_seen {seen : List κ} {xs : List α} :
    ∀ x ∈ keepNew key seen xs, key x ∉ seen := by
  induction xs generalizing seen with
  | nil => nofun
  | cons x xs ih =>
      intro y hy
      unfold keepNew at hy
      split at hy
      · exact ih y hy
      · next hx =>
          rcases List.mem_cons.mp hy with rfl | hy
          · exact hx
          · exact fun hmem => ih y hy (List.mem_cons_of_mem _ hmem)

theorem keepNew_nodup (seen : List κ) (xs : List α) : ((keepNew key seen xs).map key).Nodup := by
  induction xs generalizing seen with
  | nil => exact List.nodup_nil
  | cons x xs ih =>
      unfold keepNew
      split
      · exact ih seen
      · rw [List.map_cons, List.nodup_cons]
        refine ⟨?_, ih _⟩
        intro hmem
        obtain ⟨y, hy, heq⟩ := List.mem_map.mp hmem
        exact keepNew_not_seen y hy (heq ▸ List.mem_cons_self)

/-- Every key has been seen before or is the key of an element that is kept. -/
theorem keepNew_covers (key : α → κ) (seen : List κ) {xs : List α} :
    ∀ x ∈ xs, key x ∈ seen ∨ ∃ y ∈ keepNew key seen xs, key y = key x := by
  induction xs generalizing seen with
  | nil => nofun
  | cons x xs ih =>
      intro y hy
      unfold keepNew
      split
      · next hx =>
          rcases List.mem_cons.mp hy with rfl | hy
          · exact Or.inl hx
          · exact ih seen y hy
      · rcases List.mem_cons.mp hy with rfl | hy
        · exact Or.inr ⟨y, List.mem_cons_self, rfl⟩
        · rcases ih (key x :: seen) y hy with hmem | ⟨z, hz, heq⟩
          · rcases List.mem_cons.mp hmem with heq | hmem
            · exact Or.inr ⟨x, List.mem_cons_self, heq.symm⟩
            · exact Or.inl hmem
          · exact Or.inr ⟨z, List.mem_cons_of_mem x hz, heq⟩

end MaddyWeb.Library.Unique
