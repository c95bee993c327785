import Mathlib.Logic.Basic

/-!
# Systems that move by actions

A run is a list of actions, each of which is enabled in the state that the earlier
ones have led to.  `good` restricts the runs that are looked at.
-/

namespace MaddyWeb.Library

structure System (σ α : Type) where
  initial : σ
  enabled : σ → α → Prop
  next : σ → α → σ

namespace System

variable {σ α : Type} (sys : System σ α)

/-- The state that the actions lead to. -/
def after (s : σ) (actions : List α) : σ := actions.foldl sys.next s

/-- Every action is enabled when it is taken, and `good`. -/
def Allows (good : σ → α → Prop) : σ → List α → Prop
  | _, [] => True
  | s, a :: actions => sys.enabled s a ∧ good s a ∧ Allows good (sys.next s a) actions

instance decidableAllows (good : σ → α → Prop) [∀ s a, Decidable (sys.enabled s a)]
    [∀ s a, Decidable (good s a)] : ∀ s actions, Decidable (sys.Allows good s actions)
  | _, [] => inferInstanceAs (Decidable True)
  | s, a :: actions =>
      have := decidableAllows good (sys.next s a) actions
      inferInstanceAs (Decidable (_ ∧ _ ∧ _))

/-- What every good action preserves holds after every good run. -/
theorem invariant {good : σ → α → Prop} {I : σ → Prop}
    (hstep : ∀ s a, I s → sys.enabled s a → good s a → I (sys.next s a)) {s : σ} (hs : I s)
    {actions : List α} (h : sys.Allows good s actions) : I (sys.after s actions) := by
  induction actions generalizing s with
  | nil => exact hs
  | cons a actions ih =>
      obtain ⟨henabled, hgood, hrest⟩ := h
      exact ih (hstep s a hs henabled hgood) hrest

end System

end MaddyWeb.Library
