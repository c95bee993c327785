import Mathlib.Algebra.GroupWithZero.Nat
import Mathlib.Data.List.Basic
import Mathlib.Data.List.Induction

/-!
# Decimal integers as text

The canonical decimal rendering of a number and the value of a run of digits,
which invert each other.
-/

namespace MaddyWeb.Library.Decimal

def digitChar (d : Nat) : Char := Char.ofNat (0x30 + d)

def isDigit (c : Char) : Bool := 0x30 ≤ c.toNat && c.toNat ≤ 0x39

/-- `str(n)` -/
def digits (n : Nat) : List Char :=
  if n < 10 then [digitChar n] else digits (n / 10) ++ [digitChar (n % 10)]
termination_by n
decreasing_by omega

theorem digits_eq (n : Nat) :
    digits n = if n < 10 then [digitChar n] else digits (n / 10) ++ [digitChar (n % 10)] := by
  rw [digits]

/-- `int` of a run of ASCII digits. -/
def value (text : List Char) : Nat := text.foldl (fun v c => 10 * v + (c.toNat - 0x30)) 0

/-- `str(i)` -/
def decimal (i : Int) : List Char := if i < 0 then '-' :: digits i.natAbs else digits i.natAbs

theorem digitChar_toNat {d : Nat} (hd : d < 10) : (digitChar d).toNat = 0x30 + d := by
  revert d
  decide

theorem isDigit_digitChar {d : Nat} (hd : d < 10) : isDigit (digitChar d) = true := by
  simp only [isDigit, digitChar_toNat hd, Bool.and_eq_true, decide_eq_true_eq]
  omega

theorem value_snoc (text : List Char) (c : Char) :
    value (text ++ [c]) = 10 * value text + (c.toNat - 0x30) := by
  simp [value, List.foldl_append]

theorem value_digits (n : Nat) : value (digits n) = n := by
  induction n using Nat.strongRecOn with
  | ind n ih =>
    rw [digits_eq]
    by_cases hsmall : n < 10
    · rw [if_pos hsmall]
      simp [value, digitChar_toNat hsmall]
    · rw [if_neg hsmall, value_snoc, ih (n / 10) (by omega), digitChar_toNat (by omega)]
      omega

theorem isDigit_of_mem_digits {n : Nat} {c : Char} (hc : c ∈ digits n) : isDigit c = true := by
  induction n using Nat.strongRecOn with
  | ind n ih =>
    rw [digits_eq] at hc
    by_cases hsmall : n < 10
    · rw [if_pos hsmall, List.mem_singleton] at hc
      exact hc ▸ isDigit_digitChar hsmall
    · rw [if_neg hsmall, List.mem_append, List.mem_singleton] at hc
      rcases hc with hc | rfl
      · exact ih (n / 10) (by omega) hc
      · exact isDigit_digitChar (by omega)

theorem digits_ne_nil (n : Nat) : digits n ≠ [] := by
  rw [digits_eq]
  by_cases hsmall : n < 10
  · simp [if_pos hsmall]
  · simp [if_neg hsmall]

theorem length_digits_le {n k : Nat} (hk : 0 < k) (hn : n < 10 ^ k) : (digits n).length ≤ k := by
  induction k generalizing n with
  | zero => omega
  | succ k ih =>
      rw [digits_eq]
      by_cases hsmall : n < 10
      · rw [if_pos hsmall]
        simp
      · have hpos : 0 < k := by
          rcases Nat.eq_zero_or_pos k with rfl | hpos
          · omega
          · exact hpos
        have hdiv : n / 10 < 10 ^ k := by
          rw [Nat.div_lt_iff_lt_mul (by decide)]
          rwa [Nat.pow_succ] at hn
        rw [if_neg hsmall, List.length_append, List.length_singleton]
        have := ih hpos hdiv
        omega

/-! ## Canonical numerals -/

/-- A run of digits without a leading zero. -/
structure Canonical (text : List Char) : Prop where
  ne_nil : text ≠ []
  digits : ∀ c ∈ text, isDigit c = true
  leading : 1 < text.length → text.head? ≠ some '0'

theorem toNat_of_isDigit {c : Char} (h : isDigit c = true) : 0x30 ≤ c.toNat ∧ c.toNat ≤ 0x39 := by
  simpa only [isDigit, Bool.and_eq_true, decide_eq_true_eq] using h

theorem digitChar_sub {c : Char} (h : isDigit c = true) : digitChar (c.toNat - 0x30) = c := by
  have hc := toNat_of_isDigit h
  unfold digitChar
  rw [show 0x30 + (c.toNat - 0x30) = c.toNat by omega, Char.ofNat_toNat]

theorem value_pos {text : List Char} (h : Canonical text) (hlong : 1 < text.length) :
    0 < value text := by
  cases text with
  | nil => exact absurd rfl h.ne_nil
  | cons c text =>
      have hc := toNat_of_isDigit (h.digits c List.mem_cons_self)
      have hzero : c.toNat ≠ 0x30 := by
        intro heq
        apply h.leading hlong
        rw [List.head?_cons, ← Char.ofNat_toNat c, heq]
      have hgrow : ∀ (rest : List Char) (v : Nat), 0 < v →
          0 < rest.foldl (fun v c => 10 * v + (c.toNat - 0x30)) v := by
        intro rest
        induction rest with
        | nil => exact fun v hv => hv
        | cons d rest ih =>
            intro v hv
            rw [List.foldl_cons]
            apply ih
            omega
      apply hgrow text
      show 0 < 10 * 0 + (c.toNat - 0x30)
      omega

theorem Canonical.init {text : List Char} {c : Char} (h : Canonical (text ++ [c]))
    (hne : text ≠ []) : Canonical text := by
  refine ⟨hne, fun d hd => h.digits d (List.mem_append_left _ hd), ?_⟩
  intro hlong hhead
  apply h.leading
  · rw [List.length_append]
    omega
  · rw [List.head?_append, hhead]
    rfl

/-- `str(int(text)) == text` -/
theorem digits_value {text : List Char} (h : Canonical text) : digits (value text) = text := by
  induction text using List.reverseRecOn with
  | nil => exact absurd rfl h.ne_nil
  | append_singleton text c ih =>
      have hc := h.digits c (List.mem_append_right _ List.mem_cons_self)
      have hd := toNat_of_isDigit hc
      rw [value_snoc, digits]
      cases text with
      | nil =>
          rw [show value [] = 0 from rfl, if_pos (by omega)]
          simp [digitChar_sub hc]
      | cons d text =>
          have hpos : 0 < value (d :: text) := by
            have hinit := h.init (List.cons_ne_nil d text)
            by_cases hlong : 1 < (d :: text).length
            · exact value_pos hinit hlong
            · have hnil : text = [] := List.length_eq_zero_iff.mp (by
                rw [List.length_cons] at hlong
                omega)
              subst hnil
              have hd := toNat_of_isDigit (hinit.digits d List.mem_cons_self)
              have hzero : d.toNat ≠ 0x30 := by
                intro heq
                apply h.leading (by simp)
                rw [List.cons_append, List.head?_cons, ← Char.ofNat_toNat d, heq]
              show 0 < 10 * 0 + (d.toNat - 0x30)
              omega
          rw [if_neg (by omega), show (10 * value (d :: text) + (c.toNat - 0x30)) / 10 =
            value (d :: text) by omega, ih (h.init (List.cons_ne_nil d text)),
            show (10 * value (d :: text) + (c.toNat - 0x30)) % 10 = c.toNat - 0x30 by omega,
            digitChar_sub hc]

theorem value_inj {a b : List Char} (ha : Canonical a) (hb : Canonical b)
    (h : value a = value b) : a = b := by
  rw [← digits_value ha, ← digits_value hb, h]

theorem canonical_digits (n : Nat) : Canonical (digits n) := by
  refine ⟨digits_ne_nil n, fun c hc => isDigit_of_mem_digits hc, ?_⟩
  induction n using Nat.strongRecOn with
  | ind n ih =>
      rw [digits_eq]
      by_cases hsmall : n < 10
      · rw [if_pos hsmall]
        intro hlong
        exact absurd hlong (by simp)
      · rw [if_neg hsmall]
        intro _ hhead
        rw [List.head?_append_of_ne_nil _ (digits_ne_nil _)] at hhead
        by_cases hlong : 1 < (digits (n / 10)).length
        · exact ih (n / 10) (by omega) hlong hhead
        · -- a single leading digit is the number itself, which is positive
          have hone : n / 10 < 10 := by
            by_contra hbig
            apply hlong
            rw [digits_eq, if_neg hbig, List.length_append, List.length_singleton]
            have := List.length_pos_of_ne_nil (digits_ne_nil (n / 10 / 10))
            omega
          rw [digits_eq, if_pos hone, List.head?_cons, Option.some.injEq] at hhead
          have hvalue := congrArg Char.toNat hhead
          rw [digitChar_toNat hone] at hvalue
          have : '0'.toNat = 0x30 := rfl
          omega

end MaddyWeb.Library.Decimal
