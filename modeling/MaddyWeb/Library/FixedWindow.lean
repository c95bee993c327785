import Mathlib.Data.List.Basic

/-!
# Fixed-window counters

A counter opens a window of width `W` at its first attempt, counts at most `L`
attempts in it, and starts again after the window has ended.  An interval that is
shorter than a window meets at most two windows, hence at most `2 * L` attempts.
The log holds the times of the accepted attempts, in any order.
-/

namespace MaddyWeb.Library.FixedWindow

variable {W L : Nat} {log : List Nat} {start count now stop : Nat}

/-- The attempts in `[a, b)`. -/
def countIn (log : List Nat) (a b : Nat) : Nat := log.countP fun t => a ≤ t && t < b

def Quota (W L : Nat) (log : List Nat) : Prop := ∀ a, countIn log a (a + W) ≤ 2 * L

@[simp] theorem countIn_nil (a b : Nat) : countIn [] a b = 0 := rfl

theorem countIn_append (log log' : List Nat) (a b : Nat) :
    countIn (log ++ log') a b = countIn log a b + countIn log' a b :=
  List.countP_append

theorem countIn_singleton (now a b : Nat) :
    countIn [now] a b = if a ≤ now ∧ now < b then 1 else 0 := by
  unfold countIn
  rw [List.countP_singleton]
  simp only [Bool.and_eq_true, decide_eq_true_eq]

theorem countIn_mono {a a' b b' : Nat} (ha : a' ≤ a) (hb : b ≤ b') :
    countIn log a b ≤ countIn log a' b' := by
  apply List.countP_mono_left
  intro t _ h
  simp only [Bool.and_eq_true, decide_eq_true_eq] at h ⊢
  omega

theorem countIn_eq_of_lt {a b b' : Nat} (h : ∀ t ∈ log, t < b) (hb : b ≤ b') :
    countIn log a b' = countIn log a b := by
  apply List.countP_congr
  intro t ht
  have hlt := h t ht
  simp only [Bool.and_eq_true, decide_eq_true_eq]
  omega

theorem countIn_eq_zero {a b : Nat} (h : ∀ t ∈ log, t < a) : countIn log a b = 0 := by
  apply List.countP_eq_zero.mpr
  intro t ht
  have hlt := h t ht
  simp only [Bool.and_eq_true, decide_eq_true_eq]
  omega

theorem countIn_split {a b c : Nat} (hab : a ≤ b) (hbc : b ≤ c) :
    countIn log a c = countIn log a b + countIn log b c := by
  induction log with
  | nil => rfl
  | cons t log ih =>
      have hcons : ∀ a b, countIn (t :: log) a b = countIn [t] a b + countIn log a b :=
        fun a b => countIn_append [t] log a b
      rw [hcons, hcons, hcons, ih, countIn_singleton, countIn_singleton, countIn_singleton]
      split <;> split <;> split <;> omega

/-- No window is open, and the last one ended by `stop`. -/
structure Closed (W L : Nat) (log : List Nat) (stop : Nat) : Prop where
  past : ∀ t ∈ log, t < stop
  recent : ∀ a, stop < a + W → countIn log a stop ≤ L
  quota : Quota W L log

/-- A window is open since `start`, with `count` attempts. -/
structure Open (W L : Nat) (log : List Nat) (start count : Nat) : Prop where
  past : ∀ t ∈ log, t < start + W
  before : ∀ a, start < a + W → countIn log a start ≤ L
  inside : countIn log start (start + W) ≤ count
  quota : Quota W L log

theorem closed_nil (stop : Nat) : Closed W L [] stop :=
  ⟨by simp, by simp, fun a => by simp⟩

theorem open_nil (start count : Nat) : Open W L [] start count :=
  ⟨by simp, by simp, by simp, fun a => by simp⟩

theorem Closed.mono (h : Closed W L log stop) (hle : stop ≤ now) : Closed W L log now := by
  refine ⟨fun t ht => Nat.lt_of_lt_of_le (h.past t ht) hle, ?_, h.quota⟩
  intro a ha
  rw [countIn_eq_of_lt h.past hle]
  exact h.recent a (by omega)

/-- The window ends with at most `L` attempts in it. -/
theorem Open.close (h : Open W L log start count) (hcount : count ≤ L) :
    Closed W L log (start + W) := by
  refine ⟨h.past, ?_, h.quota⟩
  intro a ha
  calc countIn log a (start + W)
      ≤ countIn log start (start + W) := countIn_mono (by omega) (Nat.le_refl _)
    _ ≤ L := Nat.le_trans h.inside hcount

/-- The attempt that opens a window. -/
theorem Closed.reopen (h : Closed W L log stop) (hle : stop ≤ now) (hW : 0 < W) (hL : 0 < L) :
    Open W L (log ++ [now]) now 1 := by
  have hclosed := h.mono hle
  have hnone : countIn log now (now + W) = 0 := countIn_eq_zero hclosed.past
  refine ⟨?_, ?_, ?_, ?_⟩
  · intro t ht
    rcases List.mem_append.mp ht with ht | ht
    · have hlt := hclosed.past t ht
      omega
    · rw [List.mem_singleton.mp ht]
      omega
  · intro a ha
    rw [countIn_append, countIn_singleton, if_neg (by omega)]
    exact hclosed.recent a ha
  · have hcount : countIn (log ++ [now]) now (now + W) = 0 + 1 := by
      rw [countIn_append, countIn_singleton, if_pos (by omega), hnone]
    omega
  · intro a
    have hquota := h.quota a
    rw [countIn_append, countIn_singleton]
    split
    · next hin =>
        -- only attempts of the previous window precede `now` in this interval
        have hrecent := hclosed.recent a hin.2
        rw [countIn_eq_of_lt hclosed.past (Nat.le_of_lt hin.2)]
        omega
    · omega

/-- An attempt in the open window. -/
theorem Open.accept (h : Open W L log start count) (hcount : count < L) (hstart : start ≤ now)
    (hnow : now < start + W) : Open W L (log ++ [now]) start (count + 1) := by
  refine ⟨?_, ?_, ?_, ?_⟩
  · intro t ht
    rcases List.mem_append.mp ht with ht | ht
    · exact h.past t ht
    · rw [List.mem_singleton.mp ht]
      exact hnow
  · intro a ha
    rw [countIn_append, countIn_singleton, if_neg (by omega)]
    exact h.before a ha
  · have hinside := h.inside
    rw [countIn_append, countIn_singleton, if_pos ⟨hstart, hnow⟩]
    omega
  · intro a
    have hquota := h.quota a
    rw [countIn_append, countIn_singleton]
    split
    · next hin =>
        have hinside := h.inside
        -- the interval holds `now`, so it meets this window and the one before it
        by_cases ha : a ≤ start
        · have hbefore := h.before a (by omega)
          have hsplit : countIn log a (start + W) =
              countIn log a start + countIn log start (start + W) :=
            countIn_split ha (Nat.le_add_right _ _)
          have hle : countIn log a (a + W) ≤ countIn log a (start + W) :=
            countIn_mono (Nat.le_refl a) (by omega)
          omega
        · have hle : countIn log a (a + W) ≤ countIn log start (a + W) :=
            countIn_mono (by omega) (Nat.le_refl _)
          have hsame : countIn log start (a + W) = countIn log start (start + W) :=
            countIn_eq_of_lt h.past (by omega)
          omega
    · omega

end MaddyWeb.Library.FixedWindow
