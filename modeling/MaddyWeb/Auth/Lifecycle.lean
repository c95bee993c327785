import MaddyWeb.Auth.Schema

/-!
# The life of one account's second factor

`Enrollment` is what the account, challenge and recovery-code tables say about
one account.  A call of the store moves it by one of the steps below, and two
laws hold of every step: it keeps an enrollment sound, and the counter only goes
back when the secret is replaced.
-/

namespace MaddyWeb.Auth

structure Enrollment where
  state : EnrollmentState
  nonce : Option Bytes
  ciphertext : Option Bytes
  owner : Option Digest
  counter : Int
  challenges : List Digest
  codes : Nat
  deriving DecidableEq, Repr

namespace Enrollment

def unenrolled (challenges : List Digest) (codes : Nat) : Enrollment :=
  ⟨.required, none, none, none, -1, challenges, codes⟩

def enrolled (nonce ciphertext : Bytes) (challenges : List Digest) (codes : Nat) : Enrollment :=
  ⟨.active, some nonce, some ciphertext, none, -1, challenges, codes⟩

inductive Event
  | quiet
  | released
  | reset
  | installed
  | began
  | confirmed (counter : Nat)
  | accepted (counter : Nat)
  deriving DecidableEq, Repr

/-- The steps; the challenges of an account and its codes change along with the factor. -/
inductive Step : Event → Enrollment → Enrollment → Prop
  | quiet {e : Enrollment} {challenges : List Digest} {codes : Nat}
      (hcount : challenges.length ≤ 5) (howner : ∀ digest ∈ e.owner, digest ∈ challenges)
      (hcodes : codes ≤ e.codes) :
      Step .quiet e { e with challenges := challenges, codes := codes }
  | released {e : Enrollment} {challenges : List Digest} {codes : Nat}
      (hstate : e.state = .pending) (hcount : challenges.length ≤ 5) (hcodes : codes ≤ e.codes) :
      Step .released e (unenrolled challenges codes)
  | reset {e : Enrollment} : Step .reset e (unenrolled [] 0)
  | installed {e : Enrollment} {nonce ciphertext : Bytes} {challenges : List Digest} {codes : Nat}
      (hcount : challenges.length ≤ 5) (hcodes : codes ≤ 10) :
      Step .installed e (enrolled nonce ciphertext challenges codes)
  | began {e : Enrollment} {nonce ciphertext : Bytes} {digest : Digest}
      (hstate : e.state = .required) (hopen : digest ∈ e.challenges) :
      Step .began e ⟨.pending, some nonce, some ciphertext, some digest, -1, e.challenges, 0⟩
  | confirmed {e : Enrollment} {counter : Nat} {codes : Nat} (hstate : e.state = .pending)
      (hcounter : e.counter < counter) (hcodes : codes ≤ e.codes + 10) :
      Step (.confirmed counter) e
        { e with
          state := .active, owner := none, counter := counter, challenges := [], codes := codes }
  | accepted {e : Enrollment} {counter : Nat} {challenges : List Digest} {codes : Nat}
      (hstate : e.state = .active) (hcounter : e.counter < counter)
      (hcount : challenges.length ≤ 5) (hcodes : codes ≤ max e.codes 10) :
      Step (.accepted counter) e
        { e with counter := counter, challenges := challenges, codes := codes }

/-- A pending enrollment is owned by an open challenge, and only an active account has
recovery codes. -/
structure Sound (e : Enrollment) : Prop where
  pending_iff : e.state = .pending ↔ e.owner.isSome
  owner_open : ∀ digest ∈ e.owner, digest ∈ e.challenges
  nonce_iff : e.nonce.isSome ↔ e.state ≠ .required
  ciphertext_iff : e.ciphertext.isSome ↔ e.state ≠ .required
  challenges_le : e.challenges.length ≤ 5
  codes_active : e.codes ≠ 0 → e.state = .active
  codes_le : e.codes ≤ 10

theorem sound_unenrolled {challenges : List Digest} (h : challenges.length ≤ 5) :
    Sound (unenrolled challenges 0) := by
  constructor <;> simp [unenrolled, h]

theorem sound_enrolled (nonce ciphertext : Bytes) {challenges : List Digest} {codes : Nat}
    (hcount : challenges.length ≤ 5) (hcodes : codes ≤ 10) :
    Sound (enrolled nonce ciphertext challenges codes) := by
  constructor <;> simp [enrolled, hcount, hcodes]

/-- An account that is not active has no codes. -/
theorem Sound.codes_eq_zero {e : Enrollment} (h : Sound e) (hstate : e.state ≠ .active) :
    e.codes = 0 := by
  by_contra hcodes
  exact hstate (h.codes_active hcodes)

theorem Sound.owner_eq_none {e : Enrollment} (h : Sound e) (hstate : e.state ≠ .pending) :
    e.owner = none := by
  cases howner : e.owner with
  | none => rfl
  | some digest => exact absurd (h.pending_iff.mpr (by rw [howner]; rfl)) hstate

theorem Sound.step {event : Event} {e e' : Enrollment} (h : Sound e) (hstep : Step event e e') :
    Sound e' := by
  cases hstep with
  | quiet hcount howner hcodes =>
      refine ⟨h.pending_iff, howner, h.nonce_iff, h.ciphertext_iff, hcount, ?_,
        Nat.le_trans hcodes h.codes_le⟩
      intro hne
      dsimp only at hne
      exact h.codes_active (by omega)
  | @released _ challenges codes hstate hcount hcodes =>
      have hzero := h.codes_eq_zero (by rw [hstate]; simp)
      obtain rfl : codes = 0 := by omega
      exact sound_unenrolled hcount
  | reset => exact sound_unenrolled (by simp)
  | installed hcount hcodes => exact sound_enrolled _ _ hcount hcodes
  | began hstate hopen =>
      constructor
      all_goals simp
      · exact hopen
      · exact h.challenges_le
  | confirmed hstate hcounter hcodes =>
      have hzero := h.codes_eq_zero (by rw [hstate]; simp)
      have hnonce := h.nonce_iff
      have hciphertext := h.ciphertext_iff
      rw [hstate] at hnonce hciphertext
      constructor
      all_goals simp
      · simpa using hnonce
      · simpa using hciphertext
      · omega
  | accepted hstate hcounter hcount hcodes =>
      have howner := h.owner_eq_none (by rw [hstate]; simp)
      refine ⟨h.pending_iff, ?_, h.nonce_iff, h.ciphertext_iff, hcount, fun _ => hstate, ?_⟩
      · simp [howner]
      · exact Nat.le_trans hcodes (Nat.max_le.mpr ⟨h.codes_le, Nat.le_refl _⟩)

/-- The steps that no caller asks for by name: challenges come and go, and the loss of its
owner releases a pending enrollment. -/
def Event.Passive (event : Event) : Prop := event = .quiet ∨ event = .released

theorem Step.passive_trans {event₁ event₂ : Event} {e₁ e₂ e₃ : Enrollment}
    (h₁ : Step event₁ e₁ e₂) (h₂ : Step event₂ e₂ e₃) (hp₁ : event₁.Passive)
    (hp₂ : event₂.Passive) : ∃ event : Event, event.Passive ∧ Step event e₁ e₃ := by
  rcases hp₁ with rfl | rfl <;> rcases hp₂ with rfl | rfl
  · cases h₁ with
    | quiet _ _ hcodes₁ =>
      cases h₂ with
      | quiet hcount howner hcodes₂ =>
        exact ⟨.quiet, Or.inl rfl, .quiet hcount howner (Nat.le_trans hcodes₂ hcodes₁)⟩
  · cases h₁ with
    | quiet _ _ hcodes₁ =>
      cases h₂ with
      | released hstate hcount hcodes₂ =>
        exact ⟨.released, Or.inr rfl, .released hstate hcount (Nat.le_trans hcodes₂ hcodes₁)⟩
  · cases h₁ with
    | released hstate _ hcodes₁ =>
      cases h₂ with
      | quiet hcount _ hcodes₂ =>
        exact ⟨.released, Or.inr rfl, .released hstate hcount (Nat.le_trans hcodes₂ hcodes₁)⟩
  · cases h₁ with
    | released =>
      cases h₂ with
      | released hstate => cases hstate

/-- A quiet step before or after an installation belongs to it. -/
theorem Step.installed_trans {event₁ event₂ : Event} {e₁ e₂ e₃ : Enrollment}
    (h₁ : Step event₁ e₁ e₂) (h₂ : Step event₂ e₂ e₃)
    (hp₁ : event₁ = .quiet ∨ event₁ = .installed) (hp₂ : event₂ = .quiet ∨ event₂ = .installed) :
    Step (if event₂ = .installed then .installed else event₁) e₁ e₃ := by
  rcases hp₂ with rfl | rfl
  · rw [if_neg (by simp)]
    cases h₂ with
    | quiet hcount howner hcodes =>
      rcases hp₁ with rfl | rfl
      · cases h₁ with
        | quiet _ _ hcodes₁ => exact .quiet hcount howner (Nat.le_trans hcodes hcodes₁)
      · cases h₁ with
        | installed _ hcodes₁ => exact .installed hcount (Nat.le_trans hcodes hcodes₁)
  · rw [if_pos rfl]
    cases h₂ with
    | installed hcount hcodes => exact .installed hcount hcodes

theorem Step.released_states {e e' : Enrollment} (h : Step .released e e') :
    e.state = .pending ∧ e'.state = .required := by
  cases h with
  | released hstate => exact ⟨hstate, rfl⟩

theorem Step.began_states {e e' : Enrollment} (h : Step .began e e') :
    e.state = .required ∧ e'.state = .pending := by
  cases h with
  | began hstate => exact ⟨hstate, rfl⟩

/-- A step that keeps the secret never takes the counter back. -/
theorem Step.counter_le {event : Event} {e e' : Enrollment} (hstep : Step event e e')
    (hkeeps : event ≠ .released ∧ event ≠ .reset ∧ event ≠ .installed ∧ event ≠ .began) :
    e.counter ≤ e'.counter := by
  cases hstep with
  | quiet => exact Int.le_refl _
  | confirmed _ hcounter => exact Int.le_of_lt hcounter
  | accepted _ hcounter => exact Int.le_of_lt hcounter
  | released => exact absurd rfl hkeeps.1
  | reset => exact absurd rfl hkeeps.2.1
  | installed => exact absurd rfl hkeeps.2.2.1
  | began => exact absurd rfl hkeeps.2.2.2

/-- An accepted counter is above the stored one and becomes the stored one. -/
theorem Step.counter_accepted {event : Event} {e e' : Enrollment} {counter : Nat}
    (hstep : Step event e e') (hevent : event = .confirmed counter ∨ event = .accepted counter) :
    e.counter < counter ∧ e'.counter = counter := by
  cases hstep with
  | confirmed _ hcounter =>
      rcases hevent with heq | heq
      · cases heq
        exact ⟨hcounter, rfl⟩
      · cases heq
  | accepted _ hcounter =>
      rcases hevent with heq | heq
      · cases heq
      · cases heq
        exact ⟨hcounter, rfl⟩
  | quiet => rcases hevent with heq | heq <;> cases heq
  | released => rcases hevent with heq | heq <;> cases heq
  | reset => rcases hevent with heq | heq <;> cases heq
  | installed => rcases hevent with heq | heq <;> cases heq
  | began => rcases hevent with heq | heq <;> cases heq

end Enrollment

end MaddyWeb.Auth
