import Mathlib.Logic.Basic

/-!
# Effectful programs whose state survives an exception

`Exec σ ε α` is a program over a state `σ` that returns a value or raises an
exception, and keeps the state it has reached in both cases.  `Triple P m Q E`
is the two-exit Hoare triple: from a state in `P`, a normal return of `m` ends
in `Q` and an exception ends in `E`.  The rules below follow the constructs of
a language with `try`/`except`/`finally`.
-/

namespace MaddyWeb.Library

/-- A program over `σ` that may raise `ε`; the state reached is kept either way. -/
def Exec (σ ε α : Type) : Type := σ → Except ε α × σ

namespace Exec

variable {σ ε α β : Type}

def pure (a : α) : Exec σ ε α := fun s => (.ok a, s)

def bind (m : Exec σ ε α) (f : α → Exec σ ε β) : Exec σ ε β := fun s =>
  match m s with
  | (.ok a, s') => f a s'
  | (.error e, s') => (.error e, s')

instance : Monad (Exec σ ε) where
  pure := Exec.pure
  bind := Exec.bind

/-- `raise e` -/
def raise (e : ε) : Exec σ ε α := fun s => (.error e, s)

/-- Change the state without returning anything. -/
def update (f : σ → σ) : Exec σ ε Unit := fun s => (.ok (), f s)

/-- Read a part of the state. -/
def inspect (f : σ → α) : Exec σ ε α := fun s => (.ok (f s), s)

/-- Raise `e` unless the condition holds. -/
def ensure (condition : Bool) (e : ε) : Exec σ ε Unit :=
  if condition then pure () else raise e

/-- Read a value that may be missing. -/
def require (f : σ → Option α) (e : ε) : Exec σ ε α := fun s =>
  match f s with
  | some a => (.ok a, s)
  | none => (.error e, s)

/-- A transaction: an exception rolls the state back. -/
def atomically (m : Exec σ ε α) : Exec σ ε α := fun s =>
  match m s with
  | (.ok a, s') => (.ok a, s')
  | (.error e, _) => (.error e, s)

/-- Return or raise what an earlier computation decided. -/
def ofExcept (outcome : Except ε α) : Exec σ ε α := fun s => (outcome, s)

/-- A loop over a list that collects the results; the body also gets the position. -/
def forEach (body : Nat → α → Exec σ ε β) : Nat → List α → Exec σ ε (List β)
  | _, [] => Exec.pure []
  | index, x :: xs =>
      Exec.bind (body index x) fun b =>
        Exec.bind (forEach body (index + 1) xs) fun bs => Exec.pure (b :: bs)

/-- `try: m except e: handler e`, where the handler may raise again. -/
def handle (m : Exec σ ε α) (handler : ε → Exec σ ε α) : Exec σ ε α := fun s =>
  match m s with
  | (.ok a, s') => (.ok a, s')
  | (.error e, s') => handler e s'

/-- `try: m finally: cleanup`: an exception of the cleanup replaces the outcome of `m`. -/
def finallyDo (m : Exec σ ε α) (cleanup : Exec σ ε Unit) : Exec σ ε α := fun s =>
  match m s with
  | (r, s') =>
    match cleanup s' with
    | (.ok _, s'') => (r, s'')
    | (.error e, s'') => (.error e, s'')

/-- Run a program on a part of the state; `lift` says what its exceptions are outside. -/
def focus {τ ε' : Type} (get : σ → τ) (set : σ → τ → σ) (lift : ε' → ε) (m : Exec τ ε' α) :
    Exec σ ε α := fun s =>
  match m (get s) with
  | (.ok a, t) => (.ok a, set s t)
  | (.error e, t) => (.error (lift e), set s t)

/-! ## Runs that return -/

section Returns

variable {m : Exec σ ε α} {f : α → Exec σ ε β} {s s' : σ} {a : α} {b : β} {e : ε}

theorem bind_eq_ok (h : (m >>= f) s = (.ok b, s')) :
    ∃ a s₁, m s = (.ok a, s₁) ∧ f a s₁ = (.ok b, s') := by
  change Exec.bind m f s = _ at h
  unfold Exec.bind at h
  rcases hm : m s with ⟨_ | a, s₁⟩
  · rw [hm] at h
    cases h
  · rw [hm] at h
    exact ⟨a, s₁, rfl, h⟩

theorem ensure_eq_ok {condition : Bool} {u : Unit}
    (h : (Exec.ensure condition e : Exec σ ε Unit) s = (.ok u, s')) :
    condition = true ∧ s' = s := by
  cases condition with
  | true =>
      cases h
      exact ⟨rfl, rfl⟩
  | false => cases h

theorem require_eq_ok {g : σ → Option α} (h : Exec.require g e s = (.ok a, s')) :
    g s = some a ∧ s' = s := by
  unfold Exec.require at h
  split at h
  · next hg =>
      cases h
      exact ⟨hg, rfl⟩
  · cases h

theorem atomically_eq_ok (h : Exec.atomically m s = (.ok a, s')) : m s = (.ok a, s') := by
  unfold Exec.atomically at h
  rcases hm : m s with ⟨_ | a', s₁⟩
  · rw [hm] at h
    cases h
  · rw [hm] at h
    exact h

theorem atomically_eq_error (h : Exec.atomically m s = (.error e, s')) : s' = s := by
  unfold Exec.atomically at h
  rcases hm : m s with ⟨_ | a', s₁⟩
  · rw [hm] at h
    cases h
    rfl
  · rw [hm] at h
    cases h

theorem ret_eq_ok {a' : α} (h : (Pure.pure a : Exec σ ε α) s = (.ok a', s')) : a' = a ∧ s' = s := by
  cases h
  exact ⟨rfl, rfl⟩

theorem ofExcept_eq_ok {outcome : Except ε α}
    (h : (Exec.ofExcept outcome : Exec σ ε α) s = (.ok a, s')) : outcome = .ok a ∧ s' = s := by
  cases h
  exact ⟨rfl, rfl⟩

theorem require_bind_eq_ok {g : σ → Option α} (h : (Exec.require g e >>= f) s = (.ok b, s')) :
    ∃ a, g s = some a ∧ f a s = (.ok b, s') := by
  obtain ⟨a, s₁, hrequire, hrest⟩ := bind_eq_ok h
  obtain ⟨hg, rfl⟩ := require_eq_ok hrequire
  exact ⟨a, hg, hrest⟩

theorem ensure_bind_eq_ok {condition : Bool} {g : Unit → Exec σ ε β}
    (h : (Exec.ensure condition e >>= g) s = (.ok b, s')) :
    condition = true ∧ g () s = (.ok b, s') := by
  obtain ⟨u, s₁, hensure, hrest⟩ := bind_eq_ok h
  obtain ⟨hcondition, rfl⟩ := ensure_eq_ok hensure
  exact ⟨hcondition, hrest⟩

theorem ofExcept_bind_eq_ok {outcome : Except ε α}
    (h : (Exec.ofExcept outcome >>= f) s = (.ok b, s')) :
    ∃ a, outcome = .ok a ∧ f a s = (.ok b, s') := by
  obtain ⟨a, s₁, hread, hrest⟩ := bind_eq_ok h
  obtain ⟨houtcome, rfl⟩ := ofExcept_eq_ok hread
  exact ⟨a, houtcome, hrest⟩

/-- A transaction whose outcome is raised after it has committed. -/
theorem atomically_ofExcept {m : Exec σ ε (Except ε α)} {r : Except ε α}
    (h : (Exec.atomically m >>= Exec.ofExcept) s = (r, s')) :
    (∃ e, r = .error e ∧ s' = s) ∨ m s = (.ok r, s') := by
  change Exec.bind (Exec.atomically m) Exec.ofExcept s = _ at h
  unfold Exec.bind Exec.atomically at h
  rcases hrun : m s with ⟨e | outcome, s₁⟩
  · rw [hrun] at h
    cases h
    exact Or.inl ⟨_, rfl, rfl⟩
  · rw [hrun] at h
    cases h
    exact Or.inr rfl

theorem require_bind_cases {g : σ → Option α} {r : Except ε β}
    (h : (Exec.require g e >>= f) s = (r, s')) :
    (r = .error e ∧ s' = s) ∨ ∃ a, g s = some a ∧ f a s = (r, s') := by
  change Exec.bind (Exec.require g e) f s = _ at h
  unfold Exec.bind Exec.require at h
  cases hg : g s with
  | none =>
      rw [hg] at h
      cases h
      exact Or.inl ⟨rfl, rfl⟩
  | some a =>
      rw [hg] at h
      exact Or.inr ⟨a, rfl, h⟩

theorem ensure_bind_cases {condition : Bool} {g : Unit → Exec σ ε β} {r : Except ε β}
    (h : (Exec.ensure condition e >>= g) s = (r, s')) :
    (r = .error e ∧ s' = s) ∨ condition = true ∧ g () s = (r, s') := by
  cases condition with
  | false =>
      cases h
      exact Or.inl ⟨rfl, rfl⟩
  | true => exact Or.inr ⟨rfl, h⟩

theorem update_bind {g : σ → σ} {k : Unit → Exec σ ε β} :
    (Exec.update g >>= k) s = k () (g s) := rfl

theorem inspect_bind {g : σ → α} : (Exec.inspect g >>= f) s = f (g s) s := rfl

theorem forEach_cons {body : Nat → α → Exec σ ε β} {index : Nat} {x : α} {xs : List α} :
    forEach body index (x :: xs) =
      body index x >>= fun b => forEach body (index + 1) xs >>= fun bs => Pure.pure (b :: bs) := rfl

theorem bind_of_ok (h : m s = (.ok a, s')) : (m >>= f) s = f a s' := by
  show Exec.bind m f s = _
  unfold Exec.bind
  rw [h]

theorem bind_of_error (h : m s = (.error e, s')) : (m >>= f) s = (.error e, s') := by
  change Exec.bind m f s = _
  unfold Exec.bind
  rw [h]

theorem focus_of_ok {τ ε' : Type} {get : σ → τ} {set : σ → τ → σ} {lift : ε' → ε} {m : Exec τ ε' α}
    {t : τ} (h : m (get s) = (.ok a, t)) : Exec.focus get set lift m s = (.ok a, set s t) := by
  unfold Exec.focus
  rw [h]

theorem focus_of_error {τ ε' : Type} {get : σ → τ} {set : σ → τ → σ} {lift : ε' → ε}
    {m : Exec τ ε' α} {t : τ} {e' : ε'} (h : m (get s) = (.error e', t)) :
    Exec.focus get set lift m s = (.error (lift e'), set s t) := by
  unfold Exec.focus
  rw [h]

/-- The cleanup has the last word on the state. -/
theorem finallyDo_state {cleanup : Exec σ ε Unit} :
    (Exec.finallyDo m cleanup s).2 = (cleanup (m s).2).2 := by
  unfold Exec.finallyDo
  rcases m s with ⟨e | a, s'⟩
  · dsimp only
    rcases cleanup s' with ⟨e' | u, s''⟩
    · rfl
    · rfl
  · dsimp only
    rcases cleanup s' with ⟨e' | u, s''⟩
    · rfl
    · rfl

theorem ensure_bind_of {condition : Bool} {g : Unit → Exec σ ε β} {r : Except ε β × σ}
    (hc : condition = true) (h : g () s = r) : (Exec.ensure condition e >>= g) s = r := by
  subst hc
  exact h

theorem atomically_of_ok (h : m s = (.ok a, s')) : Exec.atomically m s = (.ok a, s') := by
  unfold Exec.atomically
  rw [h]

theorem require_bind_some {g : σ → Option α} (h : g s = some a) :
    (Exec.require g e >>= f) s = f a s := by
  show Exec.bind (Exec.require g e) f s = _
  have hrequire : Exec.require g e s = (.ok a, s) := by
    unfold Exec.require
    rw [h]
  unfold Exec.bind
  rw [hrequire]

/-- A value that does not depend on the state. -/
theorem require_const_bind {value : Option α} (h : value = some a) :
    (Exec.require (fun _ => value) e >>= f) = f a := by
  funext s
  exact require_bind_some h

/-- A sequence ends in its first part, or the second part decides. -/
theorem bind_cases {r : Except ε β} (h : (m >>= f) s = (r, s')) :
    (∃ e, m s = (.error e, s') ∧ r = .error e) ∨ ∃ a s₁, m s = (.ok a, s₁) ∧ f a s₁ = (r, s') := by
  change Exec.bind m f s = _ at h
  unfold Exec.bind at h
  rcases hm : m s with ⟨e | a, s₁⟩
  · rw [hm] at h
    cases h
    exact Or.inl ⟨e, rfl, rfl⟩
  · rw [hm] at h
    exact Or.inr ⟨a, s₁, rfl, h⟩

/-- A handler that always raises. -/
theorem handle_eq_ok {handler : ε → Exec σ ε α}
    (hraises : ∀ e s a s', handler e s ≠ (.ok a, s'))
    (h : Exec.handle m handler s = (.ok a, s')) : m s = (.ok a, s') := by
  unfold Exec.handle at h
  rcases hm : m s with ⟨e | b, s₁⟩
  · rw [hm] at h
    exact absurd h (hraises e s₁ a s')
  · rw [hm] at h
    exact h

theorem finallyDo_eq_ok {cleanup : Exec σ ε Unit}
    (h : Exec.finallyDo m cleanup s = (.ok a, s')) :
    ∃ s₁ u, m s = (.ok a, s₁) ∧ cleanup s₁ = (.ok u, s') := by
  unfold Exec.finallyDo at h
  rcases hm : m s with ⟨r, s₁⟩
  rw [hm] at h
  dsimp only at h
  split at h
  · next hcleanup =>
      cases h
      exact ⟨s₁, _, rfl, hcleanup⟩
  · cases h

theorem handle_cases {handler : ε → Exec σ ε α} {r : Except ε α}
    (h : Exec.handle m handler s = (r, s')) :
    (∃ a, m s = (.ok a, s') ∧ r = .ok a) ∨
    ∃ e s₁, m s = (.error e, s₁) ∧ handler e s₁ = (r, s') := by
  unfold Exec.handle at h
  rcases hm : m s with ⟨e | a, s₁⟩
  · rw [hm] at h
    exact Or.inr ⟨e, s₁, rfl, h⟩
  · rw [hm] at h
    cases h
    exact Or.inl ⟨a, rfl, rfl⟩

/-- The outcome is the one of `m`, or the exception of the cleanup. -/
theorem finallyDo_cases {cleanup : Exec σ ε Unit} {r : Except ε α}
    (h : Exec.finallyDo m cleanup s = (r, s')) :
    ∃ r₁ s₁ r₂, m s = (r₁, s₁) ∧ cleanup s₁ = (r₂, s') ∧
      (r = r₁ ∧ (∃ u, r₂ = .ok u) ∨ ∃ e, r₂ = .error e ∧ r = .error e) := by
  unfold Exec.finallyDo at h
  rcases hm : m s with ⟨r₁, s₁⟩
  rw [hm] at h
  dsimp only at h
  rcases hcleanup : cleanup s₁ with ⟨e | u, s₂⟩
  · rw [hcleanup] at h
    cases h
    exact ⟨r₁, s₁, _, rfl, hcleanup, Or.inr ⟨e, rfl, rfl⟩⟩
  · rw [hcleanup] at h
    cases h
    exact ⟨_, s₁, _, rfl, hcleanup, Or.inl ⟨rfl, u, rfl⟩⟩

/-- A program that ends with an exception. -/
theorem bind_raise_ne_ok {m : Exec σ ε β} {error : β → ε} :
    (m >>= fun b => (Exec.raise (error b) : Exec σ ε α)) s ≠ (.ok a, s') := by
  intro h
  obtain ⟨b, s₁, -, h⟩ := bind_eq_ok h
  cases h

end Returns

/-- An exception of `m` leaves the state as it was. -/
def Rolls (m : Exec σ ε α) : Prop := ∀ s e s', m s = (.error e, s') → s' = s

namespace Rolls

theorem atomically (m : Exec σ ε α) : Rolls (Exec.atomically m) :=
  fun _ _ _ h => atomically_eq_error h

theorem ofExcept_bind {outcome : Except ε α} {f : α → Exec σ ε β} (hf : ∀ a, Rolls (f a)) :
    Rolls (Exec.ofExcept outcome >>= f) := by
  intro s e s' h
  cases outcome with
  | error e' =>
      cases h
      rfl
  | ok a => exact hf a s e s' h

theorem require_bind {g : σ → Option α} {e : ε} {f : α → Exec σ ε β} (hf : ∀ a, Rolls (f a)) :
    Rolls (Exec.require g e >>= f) := by
  intro s e' s' h
  change Exec.bind (Exec.require g e) f s = _ at h
  unfold Exec.bind Exec.require at h
  cases hg : g s with
  | none =>
      rw [hg] at h
      cases h
      rfl
  | some a =>
      rw [hg] at h
      exact hf a s e' s' h

theorem ensure_bind {condition : Bool} {e : ε} {f : Unit → Exec σ ε β} (hf : ∀ u, Rolls (f u)) :
    Rolls (Exec.ensure condition e >>= f) := by
  intro s e' s' h
  cases condition with
  | true => exact hf () s e' s' h
  | false =>
      cases h
      rfl

end Rolls

/-- What a run of `m` that returns does to the state. -/
def Commits (R : σ → σ → Prop) (m : Exec σ ε α) : Prop :=
  ∀ s a s', m s = (.ok a, s') → R s s'

/-! ## Runs that raise -/

def Fails (m : Exec σ ε α) (s : σ) : Prop := ∃ e, (m s).1 = .error e

namespace Fails

variable {s : σ}

theorem bind {m : Exec σ ε α} {f : α → Exec σ ε β}
    (h : ∀ a s', m s = (.ok a, s') → Fails (f a) s') : Fails (m >>= f) s := by
  change ∃ e, (Exec.bind m f s).1 = .error e
  unfold Exec.bind
  rcases hrun : m s with ⟨e | a, s'⟩
  · exact ⟨e, rfl⟩
  · exact h a s' hrun

theorem require_bind {g : σ → Option α} {e : ε} {f : α → Exec σ ε β}
    (h : ∀ a, g s = some a → Fails (f a) s) : Fails (Exec.require g e >>= f) s := by
  apply bind
  intro a s' hrun
  obtain ⟨hg, rfl⟩ := require_eq_ok hrun
  exact h a hg

theorem ensure_bind {condition : Bool} {e : ε} {f : Unit → Exec σ ε β}
    (h : condition = true → Fails (f ()) s) : Fails (Exec.ensure condition e >>= f) s := by
  apply bind
  intro a s' hrun
  obtain ⟨hcondition, rfl⟩ := ensure_eq_ok hrun
  exact h hcondition

theorem of_bind {m : Exec σ ε α} {f : α → Exec σ ε β} (h : Fails m s) : Fails (m >>= f) s := by
  apply bind
  intro a s' hrun
  obtain ⟨e, he⟩ := h
  rw [hrun] at he
  cases he

theorem atomically {m : Exec σ ε α} (h : Fails m s) : Fails (Exec.atomically m) s := by
  obtain ⟨e, he⟩ := h
  unfold Fails Exec.atomically
  rcases hrun : m s with ⟨e' | a, s'⟩
  · exact ⟨e', rfl⟩
  · rw [hrun] at he
    cases he

/-- The exception that is raised after the transaction. -/
theorem outcome {m : Exec σ ε (Except ε α)}
    (h : ∀ r s', m s = (.ok r, s') → ∃ e, r = .error e) :
    Fails (Exec.atomically m >>= Exec.ofExcept) s := by
  apply bind
  intro r s' hrun
  obtain ⟨e, rfl⟩ := h r s' (atomically_eq_ok hrun)
  exact ⟨e, rfl⟩

end Fails

/-! ## Two-exit triples -/

/-- From `P`, a return of `m` satisfies `Q` and an exception of `m` satisfies `E`. -/
def Triple (P : σ → Prop) (m : Exec σ ε α) (Q : α → σ → Prop) (E : ε → σ → Prop) : Prop :=
  ∀ s, P s → match m s with
    | (.ok a, s') => Q a s'
    | (.error e, s') => E e s'

variable {P P' : σ → Prop} {Q Q' : α → σ → Prop} {R : β → σ → Prop} {E E' : ε → σ → Prop}

namespace Triple

theorem ret {a : α} (h : ∀ s, P s → Q a s) : Triple P (Pure.pure a : Exec σ ε α) Q E :=
  fun s hs => h s hs

theorem raise {e : ε} (h : ∀ s, P s → E e s) : Triple P (Exec.raise e : Exec σ ε α) Q E :=
  fun s hs => h s hs

theorem update {f : σ → σ} {Q : Unit → σ → Prop} (h : ∀ s, P s → Q () (f s)) :
    Triple P (Exec.update f : Exec σ ε Unit) Q E :=
  fun s hs => h s hs

theorem inspect {f : σ → α} (h : ∀ s, P s → Q (f s) s) :
    Triple P (Exec.inspect f : Exec σ ε α) Q E :=
  fun s hs => h s hs

theorem bind {m : Exec σ ε α} {f : α → Exec σ ε β}
    (hm : Triple P m Q E) (hf : ∀ a, Triple (Q a) (f a) R E) : Triple P (m >>= f) R E := by
  intro s hs
  have hms := hm s hs
  change match Exec.bind m f s with
    | (.ok a, s') => R a s'
    | (.error e, s') => E e s'
  unfold Exec.bind
  rcases hrun : m s with ⟨_ | a, s'⟩
  · simpa [hrun] using hms
  · rw [hrun] at hms
    exact hf a s' hms

theorem conseq {m : Exec σ ε α} (hm : Triple P m Q E)
    (hP : ∀ s, P' s → P s) (hQ : ∀ a s, Q a s → Q' a s) (hE : ∀ e s, E e s → E' e s) :
    Triple P' m Q' E' := by
  intro s hs
  have hms := hm s (hP s hs)
  rcases hrun : m s with ⟨_ | a, s'⟩
  · rw [hrun] at hms
    exact hE _ s' hms
  · rw [hrun] at hms
    exact hQ a s' hms

theorem both {m : Exec σ ε α} (hm : Triple P m Q E) (hm' : Triple P m Q' E') :
    Triple P m (fun a s => Q a s ∧ Q' a s) (fun e s => E e s ∧ E' e s) := by
  intro s hs
  have hms := hm s hs
  have hms' := hm' s hs
  rcases hrun : m s with ⟨_ | a, s'⟩
  · rw [hrun] at hms hms'
    exact ⟨hms, hms'⟩
  · rw [hrun] at hms hms'
    exact ⟨hms, hms'⟩

/-- A fact of the precondition that does not depend on the state. -/
theorem assume {φ : Prop} {m : Exec σ ε α} (h : φ → Triple P m Q E) :
    Triple (fun s => φ ∧ P s) m Q E :=
  fun s hs => h hs.1 s hs.2

/-- Name a part of the state that the program starts from. -/
theorem pin {γ : Type} {m : Exec σ ε α} (f : σ → γ)
    (h : ∀ d, Triple (fun s => P s ∧ f s = d) m Q E) : Triple P m Q E :=
  fun s hs => h (f s) s ⟨hs, rfl⟩

theorem ensure {condition : Bool} {e : ε} {Q : Unit → σ → Prop}
    (hok : ∀ s, P s → condition = true → Q () s)
    (herror : ∀ s, P s → condition = false → E e s) :
    Triple P (Exec.ensure condition e) Q E := by
  cases condition with
  | true => exact fun s hs => hok s hs rfl
  | false => exact fun s hs => herror s hs rfl

theorem ensure_bind {condition : Bool} {e : ε} {f : Unit → Exec σ ε β}
    (herror : ∀ s, P s → E e s) (hf : condition = true → Triple P (f ()) R E) :
    Triple P (Exec.ensure condition e >>= f) R E := by
  cases condition with
  | true => exact hf rfl
  | false => exact fun s hs => herror s hs

theorem ofExcept_bind {outcome : Except ε α} {f : α → Exec σ ε β}
    (herror : ∀ e s, P s → E e s) (hf : ∀ a, outcome = .ok a → Triple P (f a) R E) :
    Triple P (Exec.ofExcept outcome >>= f) R E := by
  cases outcome with
  | ok a => exact hf a rfl
  | error e => exact fun s hs => herror e s hs

theorem ite {c : Prop} [Decidable c] {m n : Exec σ ε α}
    (hm : c → Triple P m Q E) (hn : ¬ c → Triple P n Q E) :
    Triple P (if c then m else n) Q E := by
  by_cases hc : c
  · simpa [hc] using hm hc
  · simpa [hc] using hn hc

theorem handle {m : Exec σ ε α} {handler : ε → Exec σ ε α}
    (hm : Triple P m Q E) (hh : ∀ e, Triple (E e) (handler e) Q E') :
    Triple P (Exec.handle m handler) Q E' := by
  intro s hs
  have hms := hm s hs
  unfold Exec.handle
  rcases hrun : m s with ⟨_ | a, s'⟩
  · rw [hrun] at hms
    exact hh _ s' hms
  · simpa [hrun] using hms

/-- The rule for `finally`: the cleanup runs from every exit of the body. -/
theorem finallyDo {m : Exec σ ε α} {cleanup : Exec σ ε Unit}
    (hm : Triple P m Q E)
    (hok : ∀ a, Triple (Q a) cleanup (fun _ => Q' a) E')
    (herror : ∀ e, Triple (E e) cleanup (fun _ => E' e) E') :
    Triple P (Exec.finallyDo m cleanup) Q' E' := by
  intro s hs
  have hms := hm s hs
  unfold Exec.finallyDo
  rcases hrun : m s with ⟨e | a, s'⟩
  · rw [hrun] at hms
    have hc := herror e s' hms
    rcases hclean : cleanup s' with ⟨e' | u, s''⟩ <;> simpa [hrun, hclean] using hc
  · rw [hrun] at hms
    have hc := hok a s' hms
    rcases hclean : cleanup s' with ⟨e' | u, s''⟩ <;> simpa [hrun, hclean] using hc

theorem focus {τ ε' : Type} {get : σ → τ} {set : σ → τ → σ} {lift : ε' → ε} {m : Exec τ ε' α}
    {P' : τ → Prop} {Q' : α → τ → Prop} {E' : ε' → τ → Prop} (hm : Triple P' m Q' E')
    (hP : ∀ s, P s → P' (get s)) (hQ : ∀ s a t, P s → Q' a t → Q a (set s t))
    (hE : ∀ s e t, P s → E' e t → E (lift e) (set s t)) :
    Triple P (Exec.focus get set lift m) Q E := by
  intro s hs
  have hms := hm (get s) (hP s hs)
  unfold Exec.focus
  rcases hrun : m (get s) with ⟨e | a, t⟩
  · rw [hrun] at hms
    exact hE s e t hs hms
  · rw [hrun] at hms
    exact hQ s a t hs hms

/-- The rule for a loop over a list: the invariant names the part that is done. -/
theorem forM {γ : Type} {f : γ → Exec σ ε PUnit} {I : List γ → σ → Prop} (xs done : List γ)
    (hstep : ∀ x ∈ xs, ∀ done, Triple (I done) (f x) (fun _ => I (done ++ [x])) E) :
    Triple (I done) (xs.forM f) (fun _ => I (done ++ xs)) E := by
  induction xs generalizing done with
  | nil =>
      apply ret
      intro s hs
      rwa [List.append_nil]
  | cons x xs ih =>
      show Triple _ (f x >>= fun _ => xs.forM f) _ _
      apply bind (hstep x List.mem_cons_self done)
      intro _
      have hrest := ih (done ++ [x]) fun y hy => hstep y (List.mem_cons_of_mem _ hy)
      rw [List.append_assoc] at hrest
      exact hrest

/-- One condition for both exits. -/
theorem of_state {m : Exec σ ε α} {A : σ → Prop} (h : ∀ s, P s → A (m s).2) :
    Triple P m (fun _ => A) (fun _ => A) := by
  intro s hs
  have hA := h s hs
  rcases hrun : m s with ⟨_ | a, s'⟩
  · rwa [hrun] at hA
  · rwa [hrun] at hA

theorem state {m : Exec σ ε α} {A : σ → Prop} (hm : Triple P m (fun _ => A) (fun _ => A)) {s : σ}
    (hs : P s) : A (m s).2 := by
  have hms := hm s hs
  rcases hrun : m s with ⟨_ | a, s'⟩
  · rwa [hrun] at hms
  · rwa [hrun] at hms

/-- What the triple says of a run that returned. -/
theorem of_ok {m : Exec σ ε α} (hm : Triple P m Q E) {s : σ} {a : α} (hs : P s)
    (hok : (m s).1 = .ok a) : Q a (m s).2 := by
  have hms := hm s hs
  rcases hrun : m s with ⟨_ | b, s'⟩
  · rw [hrun] at hok
    cases hok
  · rw [hrun] at hms hok
    cases hok
    exact hms

/-- What the triple says of a run that raised. -/
theorem of_error {m : Exec σ ε α} (hm : Triple P m Q E) {s : σ} {e : ε} (hs : P s)
    (herror : (m s).1 = .error e) : E e (m s).2 := by
  have hms := hm s hs
  rcases hrun : m s with ⟨e' | b, s'⟩
  · rw [hrun] at hms herror
    cases herror
    exact hms
  · rw [hrun] at herror
    cases herror

end Triple

/-! ## Invariants of a program -/

/-- `m` keeps `I`, whether it returns or raises. -/
def Keeps (I : σ → Prop) (m : Exec σ ε α) : Prop := Triple I m (fun _ => I) (fun _ => I)

namespace Keeps

variable {I : σ → Prop}

theorem ret (a : α) : Keeps I (Pure.pure a : Exec σ ε α) := Triple.ret fun _ hs => hs

theorem raise (e : ε) : Keeps I (Exec.raise e : Exec σ ε α) := Triple.raise fun _ hs => hs

theorem update {f : σ → σ} (h : ∀ s, I s → I (f s)) :
    Keeps I (Exec.update f : Exec σ ε Unit) :=
  Triple.update h

theorem inspect (f : σ → α) : Keeps I (Exec.inspect f : Exec σ ε α) :=
  Triple.inspect fun _ hs => hs

theorem bind {m : Exec σ ε α} {f : α → Exec σ ε β}
    (hm : Keeps I m) (hf : ∀ a, Keeps I (f a)) : Keeps I (m >>= f) :=
  Triple.bind hm hf

theorem ofExcept (outcome : Except ε α) : Keeps I (Exec.ofExcept outcome : Exec σ ε α) :=
  Triple.of_state fun _ hs => hs

theorem ensure (condition : Bool) (e : ε) : Keeps I (Exec.ensure condition e) :=
  Triple.ensure (fun _ hs _ => hs) (fun _ hs _ => hs)

theorem ite {c : Prop} [Decidable c] {m n : Exec σ ε α} (hm : Keeps I m) (hn : Keeps I n) :
    Keeps I (if c then m else n) :=
  Triple.ite (fun _ => hm) (fun _ => hn)

/-- A loop over a list keeps what every pass keeps. -/
theorem foldlM {γ : Type} {f : β → γ → Exec σ ε β} (hstep : ∀ b c, Keeps I (f b c)) :
    ∀ (xs : List γ) (b : β), Keeps I (xs.foldlM f b)
  | [], b => ret b
  | x :: xs, b => bind (hstep b x) fun b' => foldlM hstep xs b'

end Keeps

/-! ## What a program may do to the state -/

/-- `m` only makes the changes that `R` allows, whether it returns or raises. -/
def Moves (R : σ → σ → Prop) (m : Exec σ ε α) : Prop := ∀ s, R s (m s).2

/-- Changes that compose: doing nothing is allowed, and so is one change after another. -/
structure Composes (R : σ → σ → Prop) : Prop where
  refl : ∀ s, R s s
  trans : ∀ {s₁ s₂ s₃}, R s₁ s₂ → R s₂ s₃ → R s₁ s₃

namespace Composes

variable {R : σ → σ → Prop} (hR : Composes R)

include hR

theorem ret (a : α) : Moves R (Pure.pure a : Exec σ ε α) := fun s => hR.refl s

theorem raise (e : ε) : Moves R (Exec.raise e : Exec σ ε α) := fun s => hR.refl s

theorem inspect (f : σ → α) : Moves R (Exec.inspect f : Exec σ ε α) := fun s => hR.refl s

theorem ofExcept (outcome : Except ε α) : Moves R (Exec.ofExcept outcome : Exec σ ε α) :=
  fun s => hR.refl s

theorem ensure (condition : Bool) (e : ε) : Moves R (Exec.ensure condition e : Exec σ ε Unit) := by
  intro s
  cases condition <;> exact hR.refl s

theorem require (f : σ → Option α) (e : ε) : Moves R (Exec.require f e) := by
  intro s
  unfold Exec.require
  split <;> exact hR.refl s

theorem bind {m : Exec σ ε α} {f : α → Exec σ ε β} (hm : Moves R m)
    (hf : ∀ a, Moves R (f a)) : Moves R (m >>= f) := by
  intro s
  have hms := hm s
  change R s (Exec.bind m f s).2
  unfold Exec.bind
  rcases hrun : m s with ⟨_ | a, s'⟩
  · simpa [hrun] using hms
  · rw [hrun] at hms
    exact hR.trans hms (hf a s')

/-- The rule for a sequence from one state: what the first part returned is known. -/
theorem bind_at {m : Exec σ ε α} {f : α → Exec σ ε β} {s : σ} (hm : R s (m s).2)
    (hf : ∀ a s', m s = (.ok a, s') → R s' (f a s').2) : R s ((m >>= f) s).2 := by
  change R s (Exec.bind m f s).2
  unfold Exec.bind
  rcases hrun : m s with ⟨_ | a, s'⟩
  · simpa [hrun] using hm
  · rw [hrun] at hm
    exact hR.trans hm (hf a s' hrun)

theorem require_bind_at {g : σ → Option α} {e : ε} {f : α → Exec σ ε β} {s : σ}
    (hf : ∀ a, g s = some a → R s (f a s).2) : R s ((Exec.require g e >>= f) s).2 := by
  apply hR.bind_at (hR.require g e s)
  intro a s' hrun
  obtain ⟨hg, rfl⟩ := require_eq_ok hrun
  exact hf a hg

theorem ensure_bind_at {condition : Bool} {e : ε} {f : Unit → Exec σ ε β} {s : σ}
    (hf : condition = true → R s (f () s).2) : R s ((Exec.ensure condition e >>= f) s).2 := by
  apply hR.bind_at (hR.ensure condition e s)
  intro a s' hrun
  obtain ⟨hcondition, rfl⟩ := ensure_eq_ok hrun
  exact hf hcondition

theorem ofExcept_bind_at {outcome : Except ε α} {f : α → Exec σ ε β} {s : σ}
    (hf : ∀ a, outcome = .ok a → R s (f a s).2) : R s ((Exec.ofExcept outcome >>= f) s).2 := by
  apply hR.bind_at (hR.ofExcept outcome s)
  intro a s' hrun
  obtain ⟨houtcome, rfl⟩ := ofExcept_eq_ok hrun
  exact hf a houtcome

theorem update_bind_at {g : σ → σ} {f : Unit → Exec σ ε β} {s : σ} (hg : R s (g s))
    (hf : R (g s) (f () (g s)).2) : R s ((Exec.update g >>= f) s).2 :=
  hR.trans hg hf

theorem atomically_at {m : Exec σ ε α} {s : σ} (hm : R s (m s).2) :
    R s (Exec.atomically m s).2 := by
  unfold Exec.atomically
  rcases hrun : m s with ⟨_ | a, s'⟩
  · exact hR.refl s
  · simpa [hrun] using hm

theorem atomically {m : Exec σ ε α} (hm : Moves R m) : Moves R (Exec.atomically m) := by
  intro s
  have hms := hm s
  unfold Exec.atomically
  rcases hrun : m s with ⟨_ | a, s'⟩
  · exact hR.refl s
  · simpa [hrun] using hms

theorem forM {γ : Type} {f : γ → Exec σ ε PUnit} (hstep : ∀ x, Moves R (f x)) :
    ∀ xs : List γ, Moves R (xs.forM f)
  | [] => hR.ret _
  | x :: xs => hR.bind (hstep x) fun _ => forM hstep xs

theorem forEach {γ : Type} {body : Nat → γ → Exec σ ε β} (hstep : ∀ i x, Moves R (body i x)) :
    ∀ (index : Nat) (xs : List γ), Moves R (Exec.forEach body index xs)
  | _, [] => hR.ret _
  | index, x :: xs =>
      hR.bind (hstep index x) fun _ => hR.bind (forEach hstep (index + 1) xs) fun _ => hR.ret _

theorem handle {m : Exec σ ε α} {handler : ε → Exec σ ε α} (hm : Moves R m)
    (hh : ∀ e, Moves R (handler e)) : Moves R (Exec.handle m handler) := by
  intro s
  have hms := hm s
  unfold Exec.handle
  rcases hrun : m s with ⟨e | a, s'⟩
  · rw [hrun] at hms
    exact hR.trans hms (hh e s')
  · rw [hrun] at hms
    exact hms

theorem finallyDo {m : Exec σ ε α} {cleanup : Exec σ ε Unit} (hm : Moves R m)
    (hc : Moves R cleanup) : Moves R (Exec.finallyDo m cleanup) := by
  intro s
  rw [finallyDo_state]
  exact hR.trans (hm s) (hc _)

end Composes

theorem Moves.commits {R : σ → σ → Prop} {m : Exec σ ε α} (h : Moves R m) : Commits R m := by
  intro s a s' hrun
  have hs := h s
  rw [hrun] at hs
  exact hs

/-- A transaction that rolls back does nothing. -/
theorem moves_atomically {R : σ → σ → Prop} (hrefl : ∀ s, R s s) {m : Exec σ ε α}
    (hm : Commits R m) : Moves R (Exec.atomically m) := by
  intro s
  unfold Exec.atomically
  rcases hrun : m s with ⟨_ | a, s'⟩
  · exact hrefl s
  · exact hm s a s' hrun

theorem Composes.atomically_of_commits {R : σ → σ → Prop} (hR : Composes R) {m : Exec σ ε α}
    (hm : Commits R m) : Moves R (Exec.atomically m) :=
  moves_atomically hR.refl hm

theorem Composes.forEach_commits {R : σ → σ → Prop} (hR : Composes R) {γ : Type}
    {body : Nat → γ → Exec σ ε β} {xs : List γ} (hstep : ∀ i, ∀ x ∈ xs, Commits R (body i x))
    (index : Nat) : Commits R (Exec.forEach body index xs) := by
  induction xs generalizing index with
  | nil =>
      intro s bs s' hrun
      cases hrun
      exact hR.refl s
  | cons x xs ih =>
      intro s bs s' hrun
      obtain ⟨b, s₁, hbody, hrest⟩ := bind_eq_ok hrun
      obtain ⟨bs', s₂, htail, hlast⟩ := bind_eq_ok hrest
      obtain ⟨-, rfl⟩ := ret_eq_ok hlast
      have htail' := ih (fun i y hy => hstep i y (List.mem_cons_of_mem x hy)) (index + 1)
      exact hR.trans (hstep index x List.mem_cons_self s b s₁ hbody) (htail' _ _ _ htail)

theorem Moves.update {R : σ → σ → Prop} {f : σ → σ} (h : ∀ s, R s (f s)) :
    Moves R (Exec.update f : Exec σ ε Unit) := h

/-- `m` leaves the state alone. -/
def Reads (m : Exec σ ε α) : Prop := Moves (fun s s' => s' = s) m

theorem reads_composes : Composes fun s s' : σ => s' = s where
  refl _ := rfl
  trans h₁ h₂ := h₂.trans h₁

/-- Reading before and after a single change; `R` need not compose. -/
theorem Reads.bind_moves {R : σ → σ → Prop} (hrefl : ∀ s, R s s) {m : Exec σ ε α}
    {f : α → Exec σ ε β} (hm : Reads m) (hf : ∀ a, Moves R (f a)) : Moves R (m >>= f) := by
  intro s
  have hms := hm s
  change R s (Exec.bind m f s).2
  unfold Exec.bind
  rcases hrun : m s with ⟨_ | a, s'⟩
  · rw [hrun] at hms
    rw [show s' = s from hms]
    exact hrefl s
  · rw [hrun] at hms
    rw [show s' = s from hms]
    exact hf a s

theorem Moves.bind_reads {R : σ → σ → Prop} {m : Exec σ ε α} {f : α → Exec σ ε β}
    (hm : Moves R m) (hf : ∀ a, Reads (f a)) : Moves R (m >>= f) := by
  intro s
  have hms := hm s
  change R s (Exec.bind m f s).2
  unfold Exec.bind
  rcases hrun : m s with ⟨_ | a, s'⟩
  · rw [hrun] at hms
    exact hms
  · rw [hrun] at hms
    rw [show (f a s').2 = s' from hf a s']
    exact hms

/-- `m` leaves what `view` shows as it is, and its exceptions satisfy `plain`. -/
def Quiet {γ : Type} (view : σ → γ) (plain : ε → Prop) (m : Exec σ ε α) : Prop :=
  ∀ s r s', m s = (r, s') → view s' = view s ∧ ∀ e, r = .error e → plain e

namespace Quiet

variable {γ : Type} {view : σ → γ} {plain : ε → Prop}

theorem ret (a : α) : Quiet view plain (Pure.pure a : Exec σ ε α) := by
  intro s r s' h
  cases h
  exact ⟨rfl, nofun⟩

theorem raise {e : ε} (he : plain e) : Quiet view plain (Exec.raise e : Exec σ ε α) := by
  intro s r s' h
  cases h
  refine ⟨rfl, ?_⟩
  intro e' he'
  cases he'
  exact he

theorem inspect (f : σ → α) : Quiet view plain (Exec.inspect f : Exec σ ε α) := by
  intro s r s' h
  cases h
  exact ⟨rfl, nofun⟩

theorem update {f : σ → σ} (hf : ∀ s, view (f s) = view s) :
    Quiet view plain (Exec.update f : Exec σ ε Unit) := by
  intro s r s' h
  cases h
  exact ⟨hf s, nofun⟩

theorem ensure {condition : Bool} {e : ε} (he : plain e) :
    Quiet view plain (Exec.ensure condition e : Exec σ ε Unit) := by
  cases condition with
  | true => exact ret ()
  | false => exact raise he

theorem ofExcept {outcome : Except ε α} (h : ∀ e, outcome = .error e → plain e) :
    Quiet view plain (Exec.ofExcept outcome : Exec σ ε α) := by
  intro s r s' hrun
  cases hrun
  exact ⟨rfl, h⟩

theorem bind {m : Exec σ ε α} {f : α → Exec σ ε β} (hm : Quiet view plain m)
    (hf : ∀ a, Quiet view plain (f a)) : Quiet view plain (m >>= f) := by
  intro s r s' h
  rcases bind_cases h with ⟨e, hrun, rfl⟩ | ⟨a, s₁, hrun, hrest⟩
  · obtain ⟨hview, hplain⟩ := hm s _ s' hrun
    refine ⟨hview, ?_⟩
    intro e' he'
    cases he'
    exact hplain e rfl
  · obtain ⟨hview, -⟩ := hm s _ s₁ hrun
    obtain ⟨hview', hplain⟩ := hf a s₁ r s' hrest
    exact ⟨hview'.trans hview, hplain⟩

theorem ite {c : Prop} [Decidable c] {m n : Exec σ ε α} (hm : Quiet view plain m)
    (hn : Quiet view plain n) : Quiet view plain (if c then m else n) := by
  split
  · exact hm
  · exact hn

theorem handle {m : Exec σ ε α} {handler : ε → Exec σ ε α} (hm : Quiet view plain m)
    (hh : ∀ e, Quiet view plain (handler e)) : Quiet view plain (Exec.handle m handler) := by
  intro s r s' h
  unfold Exec.handle at h
  rcases hrun : m s with ⟨e | a, s₁⟩
  · rw [hrun] at h
    obtain ⟨hview, hplain⟩ := hh e s₁ r s' h
    exact ⟨hview.trans (hm s _ s₁ hrun).1, hplain⟩
  · rw [hrun] at h
    cases h
    exact hm s _ _ hrun

theorem state {m : Exec σ ε α} (hm : Quiet view plain m) {s s' : σ} {r : Except ε α}
    (h : m s = (r, s')) : view s' = view s :=
  (hm s r s' h).1

theorem error {m : Exec σ ε α} (hm : Quiet view plain m) {s s' : σ} {e : ε}
    (h : m s = (.error e, s')) : plain e :=
  (hm s _ s' h).2 e rfl

end Quiet

end Exec

end MaddyWeb.Library
