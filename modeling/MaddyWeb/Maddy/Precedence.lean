import MaddyWeb.Maddy.Version
import Mathlib.Data.Char
import Mathlib.Data.List.Lex
import Mathlib.Data.Prod.Lex
import Mathlib.Data.Sum.Order
import Mathlib.Order.WithBot

/-!
# Precedence of versions

`precedence` is the order of SemVer 2.0 as a map into a linear order: the core, then the
prerelease identifiers with numbers below words, and a release above all its prereleases.
-/

namespace MaddyWeb.Maddy.Version

open MaddyWeb.Library
open MaddyWeb.Library.Text

variable {digits : UnicodeDigits} {v w : SemVer}

/-- Numeric identifiers by their number, below all others. -/
def rank (identifier : List Char) : Nat ⊕ₗ List Char :=
  if isNumeric identifier then toLex (.inl (Decimal.value identifier)) else toLex (.inr identifier)

def prereleaseRank (prerelease : List (List Char)) : WithTop (List (Nat ⊕ₗ List Char)) :=
  if prerelease = [] then ⊤ else ↑(prerelease.map rank)

def SemVer.precedence (v : SemVer) :
    Nat ×ₗ Nat ×ₗ Nat ×ₗ WithTop (List (Nat ⊕ₗ List Char)) :=
  toLex (v.major, toLex (v.minor, toLex (v.patch, prereleaseRank v.prerelease)))

/-! ## What is accepted -/

def IsIdentifier (identifier : List Char) : Prop :=
  identifier ≠ [] ∧ ∀ c ∈ identifier, isIdentifierChar c = true

/-- A version that `parse` can give. -/
structure Parsed (v : SemVer) : Prop where
  core : ∀ n ∈ [v.major, v.minor, v.patch], (Decimal.digits n).length ≤ maxStrDigits
  prerelease : ∀ i ∈ v.prerelease, IsIdentifier i ∧ leadingZero i = false
  build : ∀ i ∈ v.build, IsIdentifier i

theorem identifiers_eq_some {text : List Char} {parts : List (List Char)}
    (h : identifiers text = some parts) : ∀ i ∈ parts, IsIdentifier i := by
  unfold identifiers at h
  dsimp only at h
  split at h
  · next hall =>
      cases h
      intro i hi
      have hi := List.all_eq_true.mp hall i hi
      rw [Bool.and_eq_true, Bool.not_eq_true', List.isEmpty_eq_false_iff] at hi
      exact ⟨hi.1, List.all_eq_true.mp hi.2⟩
  · cases h

theorem optionalIdentifiers_eq_some {text : Option (List Char)} {parts : List (List Char)}
    (h : optionalIdentifiers text = some parts) : ∀ i ∈ parts, IsIdentifier i := by
  cases text with
  | none =>
      cases h
      nofun
  | some text => exact identifiers_eq_some h

theorem fullmatch_eq_some {text : List Char} {groups : Groups}
    (h : fullmatch digits text = some groups) :
    (∀ numeral ∈ [groups.major, groups.minor, groups.patch],
      isCoreNumeral digits numeral = true) ∧
    (∀ i ∈ groups.prerelease, IsIdentifier i) ∧ ∀ i ∈ groups.build, IsIdentifier i := by
  unfold fullmatch at h
  dsimp only at h
  split at h
  · next hprerelease hbuild =>
      split at h
      · next hcore =>
          cases h
          exact ⟨List.all_eq_true.mp hcore, optionalIdentifiers_eq_some hprerelease,
            optionalIdentifiers_eq_some hbuild⟩
      · cases h
  · cases h

theorem int_eq_ok {text : List Char} {n : Nat} (hne : text ≠ [])
    (h : int digits text = .ok n) : (Decimal.digits n).length ≤ maxStrDigits := by
  unfold int at h
  split at h
  · cases h
  · next hlength =>
      cases h
      have hbound : ∀ text : List Char,
          text.foldl (fun v c => 10 * v + (digits.decimal c).getD 0) 0 < 10 ^ text.length := by
        intro text
        induction text using List.reverseRecOn with
        | nil => exact Nat.one_pos
        | append_singleton text c ih =>
            have hc : (digits.decimal c).getD 0 < 10 := by
              cases hdecimal : digits.decimal c with
              | none => decide
              | some d => exact digits.lt_ten c d hdecimal
            rw [List.foldl_append, List.foldl_cons, List.foldl_nil, List.length_append,
              List.length_singleton, Nat.pow_succ]
            omega
      have hlength' := Decimal.length_digits_le (List.length_pos_of_ne_nil hne) (hbound text)
      omega

theorem isCoreNumeral_ne_nil {numeral : List Char} (h : isCoreNumeral digits numeral = true) :
    numeral ≠ [] := by
  rintro rfl
  cases h

theorem parse_eq_ok {value : List Char} (h : parse digits value = .ok v) : Parsed v := by
  unfold parse at h
  split at h
  · cases h
  · next groups hgroups =>
      obtain ⟨hcore, hprerelease, hbuild⟩ := fullmatch_eq_some hgroups
      split at h
      · cases h
      · next hzero =>
          rw [Bool.not_eq_true, List.any_eq_false] at hzero
          obtain ⟨major, hmajor, h⟩ := Fallible.bind_eq_ok h
          obtain ⟨minor, hminor, h⟩ := Fallible.bind_eq_ok h
          obtain ⟨patch, hpatch, h⟩ := Fallible.bind_eq_ok h
          cases h
          have hne := fun numeral hmem => isCoreNumeral_ne_nil (hcore numeral hmem)
          refine ⟨?_, ?_, hbuild⟩
          · intro n hn
            simp only [List.mem_cons, List.not_mem_nil, or_false] at hn
            rcases hn with rfl | rfl | rfl
            · exact int_eq_ok (hne _ (by simp)) hmajor
            · exact int_eq_ok (hne _ (by simp)) hminor
            · exact int_eq_ok (hne _ (by simp)) hpatch
          · intro i hi
            have hi' := hzero i hi
            rw [Bool.not_eq_true] at hi'
            exact ⟨hprerelease i hi, hi'⟩

/-! ## Identifiers -/

theorem canonical_of_isNumeric {i : List Char} (hnumeric : isNumeric i = true)
    (hzero : leadingZero i = false) : Decimal.Canonical i := by
  unfold leadingZero at hzero
  rw [hnumeric, Bool.true_and, Bool.and_eq_false_iff] at hzero
  unfold isNumeric at hnumeric
  rw [Bool.and_eq_true, Bool.not_eq_true', List.isEmpty_eq_false_iff] at hnumeric
  refine ⟨hnumeric.1, List.all_eq_true.mp hnumeric.2, ?_⟩
  intro hlong hhead
  rcases hzero with hzero | hzero
  · exact absurd hlong (of_decide_eq_false hzero)
  · rw [hhead] at hzero
    cases hzero

theorem rank_of_numeric {i : List Char} (h : isNumeric i = true) :
    rank i = toLex (.inl (Decimal.value i)) := by
  unfold rank
  rw [if_pos h]

theorem rank_of_word {i : List Char} (h : isNumeric i = false) : rank i = toLex (.inr i) := by
  unfold rank
  rw [h, if_neg Bool.false_ne_true]

theorem rank_inj {a b : List Char} (ha : leadingZero a = false) (hb : leadingZero b = false)
    (h : rank a = rank b) : a = b := by
  cases hnumeric : isNumeric a with
  | true =>
      cases hnumeric' : isNumeric b with
      | true =>
          rw [rank_of_numeric hnumeric, rank_of_numeric hnumeric'] at h
          have hvalue : Decimal.value a = Decimal.value b := Sum.inl.inj h
          exact Decimal.value_inj (canonical_of_isNumeric hnumeric ha)
            (canonical_of_isNumeric hnumeric' hb) hvalue
      | false =>
          rw [rank_of_numeric hnumeric, rank_of_word hnumeric'] at h
          cases h
  | false =>
      cases hnumeric' : isNumeric b with
      | true =>
          rw [rank_of_word hnumeric, rank_of_numeric hnumeric'] at h
          cases h
      | false =>
          rw [rank_of_word hnumeric, rank_of_word hnumeric'] at h
          exact Sum.inr.inj h

theorem map_rank_inj {xs ys : List (List Char)} (hxs : ∀ i ∈ xs, leadingZero i = false)
    (hys : ∀ i ∈ ys, leadingZero i = false) (h : xs.map rank = ys.map rank) : xs = ys := by
  induction xs generalizing ys with
  | nil => exact (List.map_eq_nil_iff.mp h.symm).symm
  | cons x xs ih =>
      cases ys with
      | nil => cases h
      | cons y ys =>
          obtain ⟨hhead, htail⟩ := List.cons.inj h
          have hx := rank_inj (hxs x List.mem_cons_self) (hys y List.mem_cons_self) hhead
          have hrest := ih (fun i hi => hxs i (List.mem_cons_of_mem x hi))
            (fun i hi => hys i (List.mem_cons_of_mem y hi)) htail
          rw [hx, hrest]

/-- `int` of ASCII digits. -/
theorem int_of_numeric {i : List Char} (h : isNumeric i = true) :
    int digits i = if maxStrDigits < i.length then .error .value else .ok (Decimal.value i) := by
  unfold isNumeric at h
  rw [Bool.and_eq_true] at h
  have hfold : ∀ (text : List Char), (∀ c ∈ text, Decimal.isDigit c = true) → ∀ v,
      text.foldl (fun v c => 10 * v + (digits.decimal c).getD 0) v =
        text.foldl (fun v c => 10 * v + (c.toNat - 0x30)) v := by
    intro text
    induction text with
    | nil => exact fun _ _ => rfl
    | cons c text ih =>
        intro hdigits v
        have hc := hdigits c List.mem_cons_self
        have hascii := Decimal.toNat_of_isDigit hc
        rw [List.foldl_cons, List.foldl_cons, digits.ascii c (by omega), hc, if_pos rfl,
          Option.getD_some]
        exact ih (fun d hd => hdigits d (List.mem_cons_of_mem c hd)) _
  unfold int
  rw [hfold i (List.all_eq_true.mp h.2)]
  rfl

/-! ## The comparison -/

/-- At the first difference stand two numbers, one of them with more digits than `int` takes. -/
def meetsLongNumber : List (List Char) → List (List Char) → Bool
  | own :: rest, theirs :: rest' =>
      if own = theirs then meetsLongNumber rest rest'
      else isNumeric own && isNumeric theirs &&
        (maxStrDigits < own.length || maxStrDigits < theirs.length)
  | _, _ => false

def SemVer.meetsLong (v w : SemVer) : Bool :=
  v.major == w.major && v.minor == w.minor && v.patch == w.patch &&
    meetsLongNumber v.prerelease w.prerelease

theorem lt_of_ranks {a b : List Char} (ha : leadingZero a = false) (hb : leadingZero b = false)
    (hne : a ≠ b) (xs ys : List (Nat ⊕ₗ List Char)) :
    rank a :: xs < rank b :: ys ↔ rank a < rank b := by
  rw [List.cons_lt_cons_iff]
  constructor
  · rintro (hlt | ⟨heq, -⟩)
    · exact hlt
    · exact absurd (rank_inj ha hb heq) hne
  · exact Or.inl

/-- Two different numbers. -/
theorem numbers_spec {x y : List Char} (hx : isNumeric x = true) (hy : isNumeric y = true) :
    if true && true && (maxStrDigits < x.length || maxStrDigits < y.length) then
      (do
        let a ← int digits x
        let b ← int digits y
        return decide (a < b) : Except VersionError Bool) = .error .value
    else ∃ b, (do
        let a ← int digits x
        let b ← int digits y
        return decide (a < b) : Except VersionError Bool) = .ok b ∧
      (b = true ↔ rank x < rank y) := by
  rw [rank_of_numeric hx, rank_of_numeric hy, int_of_numeric hx, int_of_numeric hy]
  by_cases hlongx : maxStrDigits < x.length
  · simp only [hlongx, if_true, decide_true, Bool.true_or, Bool.and_self]
    rfl
  · by_cases hlongy : maxStrDigits < y.length
    · simp only [hlongx, hlongy, if_true, if_false, decide_true, Bool.or_true, Bool.and_self]
      rfl
    · simp only [hlongx, hlongy, if_false, decide_false, Bool.or_self, Bool.and_false,
        Bool.false_eq_true]
      refine ⟨_, rfl, ?_⟩
      rw [decide_eq_true_iff, Sum.Lex.inl_lt_inl_iff]

/-- The loop decides the order of the ranks, except where `int` refuses a number. -/
theorem prereleaseLt_spec {xs ys : List (List Char)} (hxs : ∀ i ∈ xs, leadingZero i = false)
    (hys : ∀ i ∈ ys, leadingZero i = false) :
    if meetsLongNumber xs ys then prereleaseLt digits xs ys = .error .value
    else ∃ b, prereleaseLt digits xs ys = .ok b ∧ (b = true ↔ xs.map rank < ys.map rank) := by
  induction xs generalizing ys with
  | nil =>
      cases ys with
      | nil => exact ⟨false, rfl, by simp⟩
      | cons y ys => exact ⟨true, rfl, by simp⟩
  | cons x xs ih =>
      cases ys with
      | nil => exact ⟨false, rfl, by simp⟩
      | cons y ys =>
          have hx := hxs x List.mem_cons_self
          have hy := hys y List.mem_cons_self
          rw [meetsLongNumber, prereleaseLt, List.map_cons, List.map_cons]
          by_cases hsame : x = y
          · rw [if_pos hsame, if_pos hsame, hsame]
            simp only [List.cons_lt_cons_iff, lt_irrefl, false_or, true_and]
            exact ih (fun i hi => hxs i (List.mem_cons_of_mem x hi))
              (fun i hi => hys i (List.mem_cons_of_mem y hi))
          · rw [if_neg hsame, if_neg hsame, lt_of_ranks hx hy hsame]
            cases hnumeric : isNumeric x with
            | true =>
                cases hnumeric' : isNumeric y with
                | true =>
                    exact numbers_spec hnumeric hnumeric'
                | false =>
                    rw [rank_of_numeric hnumeric, rank_of_word hnumeric']
                    exact ⟨true, rfl, by simp⟩
            | false =>
                cases hnumeric' : isNumeric y with
                | true =>
                    rw [rank_of_word hnumeric, rank_of_numeric hnumeric']
                    exact ⟨false, rfl, by simp⟩
                | false =>
                    rw [rank_of_word hnumeric, rank_of_word hnumeric']
                    refine ⟨decide (x < y), rfl, ?_⟩
                    rw [decide_eq_true_iff, Sum.Lex.inr_lt_inr_iff]

/-- A release is above its prereleases. -/
theorem prereleaseRank_lt {xs ys : List (List Char)} :
    prereleaseRank xs < prereleaseRank ys ↔
      xs ≠ [] ∧ (ys = [] ∨ xs.map rank < ys.map rank) := by
  unfold prereleaseRank
  by_cases hxs : xs = []
  · rw [if_pos hxs]
    simp [hxs]
  · rw [if_neg hxs]
    by_cases hys : ys = []
    · rw [if_pos hys]
      simp [hxs, hys, WithTop.coe_lt_top]
    · rw [if_neg hys, WithTop.coe_lt_coe]
      simp [hxs, hys]

theorem precedence_lt : v.precedence < w.precedence ↔
    v.major < w.major ∨ v.major = w.major ∧ (v.minor < w.minor ∨ v.minor = w.minor ∧
      (v.patch < w.patch ∨ v.patch = w.patch ∧
        prereleaseRank v.prerelease < prereleaseRank w.prerelease)) := by
  unfold SemVer.precedence
  rw [Prod.Lex.toLex_lt_toLex, Prod.Lex.toLex_lt_toLex, Prod.Lex.toLex_lt_toLex]

theorem precedence_eq (hv : Parsed v) (hw : Parsed w) :
    v.precedence = w.precedence ↔ v.equals w = true := by
  have hrank : prereleaseRank v.prerelease = prereleaseRank w.prerelease ↔
      v.prerelease = w.prerelease := by
    constructor
    · intro h
      unfold prereleaseRank at h
      by_cases hxs : v.prerelease = []
      · by_cases hys : w.prerelease = []
        · rw [hxs, hys]
        · rw [if_pos hxs, if_neg hys] at h
          cases h
      · by_cases hys : w.prerelease = []
        · rw [if_neg hxs, if_pos hys] at h
          cases h
        · rw [if_neg hxs, if_neg hys] at h
          exact map_rank_inj (fun i hi => (hv.prerelease i hi).2)
            (fun i hi => (hw.prerelease i hi).2) (WithTop.coe_injective h)
    · exact congrArg prereleaseRank
  unfold SemVer.equals
  simp only [Bool.and_eq_true, beq_iff_eq]
  constructor
  · intro h
    obtain ⟨hmajor, h⟩ := Prod.mk.inj h
    obtain ⟨hminor, h⟩ := Prod.mk.inj h
    obtain ⟨hpatch, h⟩ := Prod.mk.inj h
    exact ⟨⟨⟨hmajor, hminor⟩, hpatch⟩, hrank.mp h⟩
  · rintro ⟨⟨⟨hmajor, hminor⟩, hpatch⟩, h⟩
    unfold SemVer.precedence
    rw [hmajor, hminor, hpatch, h]

/-- A release and one of its own prereleases. -/
def SemVer.releaseOf (v w : SemVer) : Bool :=
  v.major == w.major && v.minor == w.minor && v.patch == w.patch && v.prerelease.isEmpty &&
    !w.prerelease.isEmpty

def Agrees (digits : UnicodeDigits) (v w : SemVer) : Prop :=
  ∃ b, v.lt digits w = .ok b ∧ (b = true ↔ v.precedence < w.precedence)

theorem core_ne {P : Bool} (hcore : (v.major, v.minor, v.patch) ≠ (w.major, w.minor, w.patch)) :
    (v.major == w.major && v.minor == w.minor && v.patch == w.patch && P) = false := by
  rw [Bool.and_eq_false_iff]
  left
  rw [Bool.eq_false_iff]
  intro hall
  simp only [Bool.and_eq_true, beq_iff_eq] at hall
  exact hcore (by rw [hall.1.1, hall.1.2, hall.2])

/-- Different cores decide both orders. -/
theorem lt_of_cores (hcore : (v.major, v.minor, v.patch) ≠ (w.major, w.minor, w.patch)) :
    Agrees digits v w := by
  unfold Agrees SemVer.lt
  rw [if_pos hcore, precedence_lt]
  refine ⟨_, rfl, ?_⟩
  simp only [Bool.or_eq_true, Bool.and_eq_true, decide_eq_true_eq, beq_iff_eq]
  constructor
  · rintro (hlt | ⟨heq, hlt | ⟨heq', hlt⟩⟩)
    · exact Or.inl hlt
    · exact Or.inr ⟨heq, Or.inl hlt⟩
    · exact Or.inr ⟨heq, Or.inr ⟨heq', Or.inl hlt⟩⟩
  · rintro (hlt | ⟨heq, hlt | ⟨heq', hlt | ⟨heq'', -⟩⟩⟩)
    · exact Or.inl hlt
    · exact Or.inr ⟨heq, Or.inl hlt⟩
    · exact Or.inr ⟨heq, Or.inr ⟨heq', hlt⟩⟩
    · exact absurd (by rw [heq, heq', heq'']) hcore

/-- `__lt__` decides the precedence, except that a release is less than its prereleases and
that `int` refuses long numbers. -/
theorem agrees_iff (hv : Parsed v) (hw : Parsed w) :
    Agrees digits v w ↔ v.releaseOf w = false ∧ v.meetsLong w = false := by
  by_cases hcore : (v.major, v.minor, v.patch) = (w.major, w.minor, w.patch)
  swap
  · have hrelease : v.releaseOf w = false := by
      unfold SemVer.releaseOf
      rw [Bool.and_assoc]
      exact core_ne hcore
    exact iff_of_true (lt_of_cores hcore) ⟨hrelease, core_ne hcore⟩
  obtain ⟨hmajor, hrest⟩ := Prod.mk.inj hcore
  obtain ⟨hminor, hpatch⟩ := Prod.mk.inj hrest
  unfold Agrees SemVer.lt SemVer.releaseOf SemVer.meetsLong
  rw [if_neg (not_not_intro hcore), precedence_lt, prereleaseRank_lt]
  simp only [hmajor, hminor, hpatch, beq_self_eq_true, Bool.true_and, lt_irrefl, false_or,
    true_and]
  by_cases hv' : v.prerelease = []
  · rw [if_pos hv', hv']
    have hshort : meetsLongNumber [] w.prerelease = false := rfl
    simp [hshort]
  · rw [if_neg hv']
    have hne : v.prerelease.isEmpty = false := List.isEmpty_eq_false_iff.mpr hv'
    by_cases hw' : w.prerelease = []
    · rw [if_pos hw', hw', hne]
      have hshort : meetsLongNumber v.prerelease [] = false := by
        cases v.prerelease <;> rfl
      simp [hshort, hv']
    · rw [if_neg hw', hne]
      have hspec := @prereleaseLt_spec digits _ _ (fun i hi => (hv.prerelease i hi).2)
        (fun i hi => (hw.prerelease i hi).2)
      split at hspec
      · next hlong => simp [hlong, hspec]
      · next hlong =>
          obtain ⟨b, hb, hiff⟩ := hspec
          rw [Bool.not_eq_true] at hlong
          simp [hlong, hb, hiff, hv', hw']

/-! ## The comparisons of the gate -/

/-- The comparison raises nothing, and is true exactly if `p` holds. -/
def Compares (outcome : Except VersionError Bool) (p : Prop) : Prop :=
  ∃ b, outcome = .ok b ∧ (b = true ↔ p)

theorem prereleaseLt_self (parts : List (List Char)) :
    prereleaseLt digits parts parts = .ok false := by
  induction parts with
  | nil => rfl
  | cons part parts ih => rw [prereleaseLt, if_pos rfl, ih]

theorem lt_of_equals (h : v.equals w = true) : v.lt digits w = .ok false := by
  unfold SemVer.equals at h
  simp only [Bool.and_eq_true, beq_iff_eq] at h
  obtain ⟨⟨⟨hmajor, hminor⟩, hpatch⟩, hprerelease⟩ := h
  unfold SemVer.lt
  rw [hmajor, hminor, hpatch, hprerelease, if_neg (not_not_intro rfl), prereleaseLt_self]
  by_cases hrelease : w.prerelease = []
  · rw [if_pos hrelease, hrelease]
    rfl
  · rw [if_neg hrelease, if_neg hrelease]

/-- `<=` agrees with the precedence where `<` does. -/
theorem le_compares_iff (hv : Parsed v) (hw : Parsed w) :
    Compares (v.le digits w) (v.precedence ≤ w.precedence) ↔ Agrees digits v w := by
  have hequals := precedence_eq hv hw
  unfold Agrees
  cases hlt : v.lt digits w with
  | error e =>
      have hle : v.le digits w = .error e := by
        rw [SemVer.le, hlt]
        rfl
      rw [hle]
      constructor <;> exact fun ⟨_, h, _⟩ => nomatch h
  | ok less =>
      have hle : v.le digits w = .ok (less || v.equals w) := by
        rw [SemVer.le, hlt]
        rfl
      have hexclusive : less = true → v.equals w = false := by
        rintro rfl
        rw [Bool.eq_false_iff]
        intro hsame
        rw [lt_of_equals hsame] at hlt
        cases hlt
      unfold Compares
      simp only [hle, Except.ok.injEq, exists_eq_left', le_iff_lt_or_eq, hequals, Bool.or_eq_true]
      constructor
      · intro h
        constructor
        · intro hless
          rcases h.mp (Or.inl hless) with hlt | hsame
          · exact hlt
          · rw [hexclusive hless] at hsame
            cases hsame
        · intro hlt
          rcases h.mpr (Or.inl hlt) with hless | hsame
          · exact hless
          · exact absurd (hequals.mpr hsame) hlt.ne
      · intro h
        rw [h]

/-- `>=` agrees with the precedence where `<` does. -/
theorem ge_compares_iff :
    Compares (v.ge digits w) (w.precedence ≤ v.precedence) ↔ Agrees digits v w := by
  unfold Agrees
  cases hlt : v.lt digits w with
  | error e =>
      have hge : v.ge digits w = .error e := by
        rw [SemVer.ge, hlt]
        rfl
      rw [hge]
      constructor <;> exact fun ⟨_, h, _⟩ => nomatch h
  | ok less =>
      have hge : v.ge digits w = .ok !less := by
        rw [SemVer.ge, hlt]
        rfl
      unfold Compares
      simp only [hge, Except.ok.injEq, exists_eq_left', ← not_lt, Bool.not_eq_true']
      rw [← Bool.not_eq_true, not_iff_not]

/-- Releases are compared rightly. -/
theorem agrees_of_releases (hv : Parsed v) (hw : Parsed w) (hrelease : v.prerelease = [])
    (hrelease' : w.prerelease = []) : Agrees digits v w := by
  rw [agrees_iff hv hw]
  unfold SemVer.releaseOf SemVer.meetsLong
  rw [hrelease, hrelease']
  exact ⟨Bool.and_false _, Bool.and_false _⟩

/-! ## The text of a version -/

theorem range_of_isIdentifierChar {c : Char} (h : isIdentifierChar c = true) :
    0x2D ≤ c.toNat ∧ c.toNat < 0x7F ∧ c ≠ '.' ∧ c ≠ '+' := by
  unfold isIdentifierChar at h
  rw [Bool.or_eq_true] at h
  rcases h with h | h
  · have hrange : 0x30 ≤ c.toNat ∧ c.toNat < 0x7F := by
      have hcases := range_of_isAlphanum h
      omega
    refine ⟨by omega, hrange.2, ?_, ?_⟩
    · rintro rfl
      exact absurd hrange.1 (by decide)
    · rintro rfl
      exact absurd hrange.1 (by decide)
  · rw [beq_iff_eq.mp h]
    decide

theorem isSpace_of_range {c : Char} (hlow : 0x21 ≤ c.toNat) (hhigh : c.toNat < 0x7F) :
    isSpace c = false := by
  simp only [isSpace, Bool.or_eq_false_iff, Bool.and_eq_false_iff, decide_eq_false_iff_not,
    beq_eq_false_iff_ne, Nat.not_le]
  omega

theorem mem_join {c : Char} {parts : List (List Char)} (hparts : ∀ i ∈ parts, IsIdentifier i)
    (h : c ∈ List.intercalate ['.'] parts) : c = '.' ∨ isIdentifierChar c = true := by
  rcases mem_intercalate h with h | ⟨part, hpart, h⟩
  · exact Or.inl h
  · exact Or.inr ((hparts part hpart).2 c h)

/-- The identifiers of a group are read back. -/
theorem identifiers_join {parts : List (List Char)} (hne : parts ≠ [])
    (hparts : ∀ i ∈ parts, IsIdentifier i) :
    identifiers (List.intercalate ['.'] parts) = some parts := by
  have hsplit : split ['.'] (List.intercalate ['.'] parts) = parts := by
    apply split_intercalate hne
    intro part hpart hmem
    exact (range_of_isIdentifierChar ((hparts part hpart).2 '.' hmem)).2.2.1 rfl
  unfold identifiers
  rw [hsplit]
  dsimp only
  rw [if_pos]
  rw [List.all_eq_true]
  intro part hpart
  rw [Bool.and_eq_true, Bool.not_eq_true', List.isEmpty_eq_false_iff]
  exact ⟨(hparts part hpart).1, List.all_eq_true.mpr (hparts part hpart).2⟩

theorem cut_of_not_mem {c : Char} {text : List Char} (h : c ∉ text) :
    cut c text = (text, none) := by
  unfold cut
  rw [(partition_singleton_eq_none_iff text).mpr h]

theorem cut_append {c : Char} {text : List Char} (h : c ∉ text) (rest : List Char) :
    cut c (text ++ c :: rest) = (text, some rest) := by
  unfold cut
  rw [partition_singleton h]

/-- An optional group, with the separator that introduces it. -/
theorem cut_group {c : Char} {text : List Char} {parts : List (List Char)} (h : c ∉ text) :
    cut c (text ++ if parts = [] then [] else c :: List.intercalate ['.'] parts) =
      (text, if parts = [] then none else some (List.intercalate ['.'] parts)) := by
  by_cases hparts : parts = []
  · rw [if_pos hparts, if_pos hparts, List.append_nil, cut_of_not_mem h]
  · rw [if_neg hparts, if_neg hparts, cut_append h]

theorem optionalIdentifiers_group {parts : List (List Char)}
    (hparts : ∀ i ∈ parts, IsIdentifier i) :
    optionalIdentifiers (if parts = [] then none else some (List.intercalate ['.'] parts)) =
      some parts := by
  by_cases hne : parts = []
  · rw [if_pos hne, hne]
    rfl
  · rw [if_neg hne]
    exact identifiers_join hne hparts

def coreText (v : SemVer) : List Char :=
  List.intercalate ['.'] [Decimal.digits v.major, Decimal.digits v.minor, Decimal.digits v.patch]

theorem mem_coreText {c : Char} (h : c ∈ coreText v) : c = '.' ∨ Decimal.isDigit c = true := by
  rcases mem_intercalate h with h | ⟨part, hpart, h⟩
  · exact Or.inl h
  · right
    simp only [List.mem_cons, List.not_mem_nil, or_false] at hpart
    rcases hpart with rfl | rfl | rfl <;> exact Decimal.isDigit_of_mem_digits h

theorem split_coreText : split ['.'] (coreText v) =
    [Decimal.digits v.major, Decimal.digits v.minor, Decimal.digits v.patch] := by
  apply split_intercalate (List.cons_ne_nil _ _)
  intro part hpart hmem
  simp only [List.mem_cons, List.not_mem_nil, or_false] at hpart
  have hdigit : Decimal.isDigit '.' = true := by
    rcases hpart with rfl | rfl | rfl <;> exact Decimal.isDigit_of_mem_digits hmem
  exact absurd hdigit (by decide)

theorem isCoreNumeral_digits (n : Nat) : isCoreNumeral digits (Decimal.digits n) = true := by
  have hcanonical := Decimal.canonical_digits n
  cases htext : Decimal.digits n with
  | nil => exact absurd htext (Decimal.digits_ne_nil n)
  | cons c rest =>
      rw [htext] at hcanonical
      have hc := Decimal.toNat_of_isDigit (hcanonical.digits c List.mem_cons_self)
      have hrest : rest.all (fun d => (digits.decimal d).isSome) = true := by
        rw [List.all_eq_true]
        intro d hd
        have hdigit := hcanonical.digits d (List.mem_cons_of_mem c hd)
        have hascii := Decimal.toNat_of_isDigit hdigit
        rw [digits.ascii d (by omega), hdigit, if_pos rfl]
        rfl
      rw [isCoreNumeral, hrest]
      by_cases hzero : c.toNat = 0x30
      · have hchar : c = '0' := by rw [← Char.ofNat_toNat c, hzero]
        have hshort : rest = [] := by
          by_contra hne
          apply hcanonical.leading
          · have := List.length_pos_of_ne_nil hne
            rw [List.length_cons]
            omega
          · rw [hchar]
            rfl
        rw [hchar, hshort]
        rfl
      · simp only [Bool.and_true, Bool.or_eq_true, Bool.and_eq_true, decide_eq_true_eq]
        right
        omega

theorem isNumeric_digits (n : Nat) : isNumeric (Decimal.digits n) = true := by
  unfold isNumeric
  rw [Bool.and_eq_true, Bool.not_eq_true', List.isEmpty_eq_false_iff, List.all_eq_true]
  exact ⟨Decimal.digits_ne_nil n, fun c hc => Decimal.isDigit_of_mem_digits hc⟩

theorem int_digits {n : Nat} (h : (Decimal.digits n).length ≤ maxStrDigits) :
    int digits (Decimal.digits n) = .ok n := by
  rw [int_of_numeric (isNumeric_digits n), if_neg (Nat.not_lt.mpr h), Decimal.value_digits]

theorem head_coreText : ∃ c rest, coreText v = c :: rest ∧ Decimal.isDigit c = true := by
  cases htext : coreText v with
  | nil =>
      unfold coreText at htext
      rw [List.intercalate_cons_cons, List.append_assoc] at htext
      exact absurd (List.append_eq_nil_iff.mp htext).1 (Decimal.digits_ne_nil _)
  | cons c rest =>
      refine ⟨c, rest, rfl, ?_⟩
      unfold coreText at htext
      rw [List.intercalate_cons_cons, List.append_assoc] at htext
      cases hdigits : Decimal.digits v.major with
      | nil => exact absurd hdigits (Decimal.digits_ne_nil _)
      | cons d ds =>
          rw [hdigits] at htext
          rw [← (List.cons.inj htext).1]
          exact Decimal.isDigit_of_mem_digits (hdigits ▸ List.mem_cons_self)

/-- The characters of a version: no blank, and no separator outside its place. -/
def IsPlain (c : Char) : Prop := c ≠ '+' ∧ 0x21 ≤ c.toNat ∧ c.toNat < 0x7F

theorem plain_of_identifierChar {c : Char} (h : c = '.' ∨ isIdentifierChar c = true) :
    IsPlain c := by
  rcases h with rfl | h
  · unfold IsPlain
    decide
  · obtain ⟨hlow, hhigh, -, hplus⟩ := range_of_isIdentifierChar h
    exact ⟨hplus, by omega, hhigh⟩

theorem plain_of_mem_core {c : Char} (h : c ∈ coreText v) : IsPlain c := by
  rcases mem_coreText h with h | h
  · exact plain_of_identifierChar (Or.inl h)
  · have hrange := Decimal.toNat_of_isDigit h
    refine ⟨?_, by omega, by omega⟩
    rintro rfl
    exact absurd h (by decide)

theorem plain_of_mem_group {c d : Char} {parts : List (List Char)}
    (hparts : ∀ i ∈ parts, IsIdentifier i)
    (h : d ∈ if parts = [] then [] else c :: List.intercalate ['.'] parts) : d = c ∨ IsPlain d := by
  split at h
  · cases h
  · rcases List.mem_cons.mp h with h | h
    · exact Or.inl h
    · exact Or.inr (plain_of_identifierChar (mem_join hparts h))

/-- The text up to the build metadata has no plus. -/
theorem plain_of_mem_left (hv : Parsed v) {c : Char}
    (h : c ∈ coreText v ++ if v.prerelease = [] then [] else
      '-' :: List.intercalate ['.'] v.prerelease) : IsPlain c := by
  rcases List.mem_append.mp h with h | h
  · exact plain_of_mem_core h
  · rcases plain_of_mem_group (fun i hi => (hv.prerelease i hi).1) h with rfl | h
    · unfold IsPlain
      decide
    · exact h

theorem strip_str (hv : Parsed v) : strStrip v.str = v.str := by
  apply stripBy_of_no_blank
  intro c hc
  have hrange : 0x21 ≤ c.toNat ∧ c.toNat < 0x7F := by
    rcases List.mem_append.mp hc with hc | hc
    · exact (plain_of_mem_left hv hc).2
    · rcases plain_of_mem_group hv.build hc with rfl | h
      · decide
      · exact h.2
  exact isSpace_of_range hrange.1 hrange.2

theorem dropPrefix_str : dropPrefix v.str = v.str := by
  obtain ⟨c, rest, htext, hdigit⟩ := @head_coreText v
  have hstr : v.str = c :: (rest ++ (if v.prerelease = [] then [] else
      '-' :: List.intercalate ['.'] v.prerelease) ++
      if v.build = [] then [] else '+' :: List.intercalate ['.'] v.build) := by
    show coreText v ++ _ ++ _ = _
    rw [htext]
    rfl
  rw [hstr]
  unfold dropPrefix
  split
  · next heq =>
      rw [(List.cons.inj heq).1] at hdigit
      exact absurd hdigit (by decide)
  · rfl

theorem fullmatch_str (hv : Parsed v) : fullmatch digits v.str =
    some ⟨Decimal.digits v.major, Decimal.digits v.minor, Decimal.digits v.patch, v.prerelease,
      v.build⟩ := by
  have hplus : '+' ∉ coreText v ++ if v.prerelease = [] then [] else
      '-' :: List.intercalate ['.'] v.prerelease :=
    fun hmem => (plain_of_mem_left hv hmem).1 rfl
  have hhyphen : '-' ∉ coreText v := by
    intro hmem
    rcases mem_coreText hmem with h | h
    · cases h
    · exact absurd h (by decide)
  have hbuild : cut '+' v.str = (coreText v ++ (if v.prerelease = [] then [] else
      '-' :: List.intercalate ['.'] v.prerelease),
      if v.build = [] then none else some (List.intercalate ['.'] v.build)) := cut_group hplus
  unfold fullmatch
  rw [dropPrefix_str, hbuild]
  dsimp only
  rw [cut_group hhyphen]
  dsimp only
  rw [split_coreText, optionalIdentifiers_group fun i hi => (hv.prerelease i hi).1,
    optionalIdentifiers_group hv.build]
  dsimp only
  rw [if_pos]
  simp only [List.all_cons, List.all_nil, isCoreNumeral_digits, Bool.and_self]

/-- `parse` reads every version back from its text. -/
theorem parse_str (hv : Parsed v) : parse digits v.str = .ok v := by
  have hzero : v.prerelease.any leadingZero = false := by
    rw [List.any_eq_false]
    intro i hi
    rw [(hv.prerelease i hi).2]
    exact Bool.false_ne_true
  unfold parse
  rw [strip_str hv, fullmatch_str hv]
  dsimp only
  rw [hzero, if_neg Bool.false_ne_true, int_digits (hv.core _ (by simp)),
    int_digits (hv.core _ (by simp)), int_digits (hv.core _ (by simp))]
  rfl

/-! ## The ordering of accepted versions -/

/-- The comparisons of two accepted versions are those of their precedence exactly if neither a
release meets one of its prereleases nor `int` a number that is too long; versions of the same
precedence are equal, and the text of a version is read back as it. -/
theorem comparison_agrees_iff {digits : UnicodeDigits} {s t : List Char} {v w : SemVer}
    (hv : parse digits s = .ok v) (hw : parse digits t = .ok w) :
    (Agrees digits v w ↔ v.releaseOf w = false ∧ v.meetsLong w = false) ∧
      (Compares (v.le digits w) (v.precedence ≤ w.precedence) ↔
        v.releaseOf w = false ∧ v.meetsLong w = false) ∧
      (Compares (v.ge digits w) (w.precedence ≤ v.precedence) ↔
        v.releaseOf w = false ∧ v.meetsLong w = false) ∧
      (v.precedence = w.precedence ↔ v.equals w = true) ∧ parse digits v.str = .ok v := by
  have hagrees := @agrees_iff digits v w (parse_eq_ok hv) (parse_eq_ok hw)
  refine ⟨hagrees, ?_, ge_compares_iff.trans hagrees, ?_, parse_str (parse_eq_ok hv)⟩
  · exact (le_compares_iff (parse_eq_ok hv) (parse_eq_ok hw)).trans hagrees
  · exact precedence_eq (parse_eq_ok hv) (parse_eq_ok hw)

/-- The digits of ASCII alone. -/
def asciiDigits : UnicodeDigits where
  decimal c := if Decimal.isDigit c then some (c.toNat - 0x30) else none
  ascii _ _ := rfl
  lt_ten c d h := by
    split at h
    · next hdigit =>
        have := Decimal.toNat_of_isDigit hdigit
        cases h
        omega
    · cases h

/-- The numbers of prereleases are compared as numbers. -/
theorem comparison_of_samples :
    let v : SemVer := ⟨1, 0, 0, ["alpha".toList, "2".toList], []⟩
    let w : SemVer := ⟨1, 0, 0, ["alpha".toList, "10".toList], ["5".toList]⟩
    v.lt asciiDigits w = .ok true ∧
      (Agrees asciiDigits v w ↔ v.releaseOf w = false ∧ v.meetsLong w = false) ∧
      (Compares (v.le asciiDigits w) (v.precedence ≤ w.precedence) ↔
        v.releaseOf w = false ∧ v.meetsLong w = false) ∧
      (Compares (v.ge asciiDigits w) (w.precedence ≤ v.precedence) ↔
        v.releaseOf w = false ∧ v.meetsLong w = false) ∧
      (v.precedence = w.precedence ↔ v.equals w = true) ∧ parse asciiDigits v.str = .ok v :=
  ⟨by decide, @comparison_agrees_iff asciiDigits "v1.0.0-alpha.2".toList " 1.0.0-alpha.10+5".toList
    _ _ (by decide) (by decide)⟩

/-- A release is less than its prerelease, and the prerelease less than it. -/
theorem release_below_prerelease :
    ¬ ∀ (digits : UnicodeDigits) (s t : List Char) (v w : SemVer),
      parse digits s = .ok v → parse digits t = .ok w → Agrees digits v w := by
  intro h
  have hagrees := h asciiDigits "1.0.0".toList "1.0.0-rc".toList ⟨1, 0, 0, [], []⟩
    ⟨1, 0, 0, ["rc".toList], []⟩ (by decide) (by decide)
  have hback := h asciiDigits "1.0.0-rc".toList "1.0.0".toList ⟨1, 0, 0, ["rc".toList], []⟩
    ⟨1, 0, 0, [], []⟩ (by decide) (by decide)
  obtain ⟨b, hb, hiff⟩ := hagrees
  obtain ⟨b', hb', hiff'⟩ := hback
  cases hb
  cases hb'
  exact lt_asymm (hiff.mp rfl) (hiff'.mp rfl)

/-! ## The gate -/

theorem parsed_release {major minor patch : Nat} (hmajor : major < 10) (hminor : minor < 10)
    (hpatch : patch < 10) : Parsed ⟨major, minor, patch, [], []⟩ := by
  refine ⟨?_, nofun, nofun⟩
  intro n hn
  have hsmall : n < 10 ^ 1 := by
    simp only [List.mem_cons, List.not_mem_nil, or_false] at hn
    omega
  exact Nat.le_trans (Decimal.length_digits_le Nat.one_pos hsmall) (by decide)

theorem parsed_testedReleases {release : SemVer} (h : release ∈ testedReleases) :
    Parsed release ∧ release.prerelease = [] := by
  simp only [testedReleases, minSupportedVersion, maxSupportedVersion, List.map_cons, List.map_nil,
    List.cons_append, List.nil_append, List.mem_cons, List.not_mem_nil, or_false] at h
  rcases h with rfl | rfl | rfl | rfl | rfl | rfl | rfl <;>
    exact ⟨parsed_release (by decide) (by decide) (by decide), rfl⟩

theorem any_testedReleases (hv : Parsed v) : testedReleases.any (·.equals v) = true ↔
    ∃ release ∈ testedReleases, release.precedence = v.precedence := by
  rw [List.any_eq_true]
  constructor
  · rintro ⟨release, hmem, hequals⟩
    exact ⟨release, hmem, (precedence_eq (parsed_testedReleases hmem).1 hv).mpr hequals⟩
  · rintro ⟨release, hmem, hsame⟩
    exact ⟨release, hmem, (precedence_eq (parsed_testedReleases hmem).1 hv).mp hsame⟩

/-- The gate lets through the releases between the oldest and the newest supported one, and of
these the tested ones where it asks for a known release. -/
theorem requireSupportedVersion_iff (hv : Parsed v) {knownRelease : Bool} :
    requireSupportedVersion digits knownRelease v = .ok v ↔
      v.prerelease = [] ∧ v.build = [] ∧ minSupportedVersion.precedence ≤ v.precedence ∧
        v.precedence ≤ maxSupportedVersion.precedence ∧
        (knownRelease = true → ∃ release ∈ testedReleases, release.precedence = v.precedence) := by
  unfold requireSupportedVersion
  by_cases hprerelease : v.prerelease = []
  swap
  · rw [if_pos hprerelease]
    exact iff_of_false nofun fun h => hprerelease h.1
  by_cases hbuild : v.build = []
  swap
  · rw [if_neg (not_not_intro hprerelease), if_pos hbuild]
    exact iff_of_false nofun fun h => hbuild h.2.1
  have hmin : minSupportedVersion ∈ testedReleases := List.mem_cons_self
  have hmax : maxSupportedVersion ∈ testedReleases :=
    List.mem_append_right _ List.mem_cons_self
  obtain ⟨hparsed, hrelease⟩ := parsed_testedReleases hmin
  obtain ⟨hparsed', hrelease'⟩ := parsed_testedReleases hmax
  obtain ⟨above, habove, haboveIff⟩ :=
    (@le_compares_iff digits _ _ hparsed hv).mpr
    (agrees_of_releases hparsed hv hrelease hprerelease)
  obtain ⟨below, hbelow, hbelowIff⟩ :=
    (@le_compares_iff digits _ _ hv hparsed').mpr
      (agrees_of_releases hv hparsed' hprerelease hrelease')
  rw [if_neg (not_not_intro hprerelease), if_neg (not_not_intro hbuild), habove, hbelow,
    ← haboveIff, ← hbelowIff, ← any_testedReleases hv]
  cases above <;> cases below <;> cases knownRelease <;>
    simp [hprerelease, hbuild, bind, Except.bind, pure, Except.pure]

/-- Where the gate lets a version through, each capability is there from its release on. -/
theorem capabilitiesFor_spec (hv : Parsed v)
    (h : requireSupportedVersion digits true v = .ok v) :
    ∃ names, capabilitiesFor digits v = .ok names ∧
      ∀ name, name ∈ names ↔ name ∈ baseCapabilities ∨
        ∃ since ∈ capabilitySince, name ∈ since.2 ∧ since.1.precedence ≤ v.precedence := by
  have hrelease : v.prerelease = [] := ((requireSupportedVersion_iff hv).mp h).1
  have hge : ∀ patch < 10, ∃ since, v.ge digits ⟨0, 9, patch, [], []⟩ = .ok since ∧
      (since = true ↔ SemVer.precedence ⟨0, 9, patch, [], []⟩ ≤ v.precedence) := by
    intro patch hpatch
    have hparsed := parsed_release (by decide : 0 < 10) (by decide : 9 < 10) hpatch
    exact ge_compares_iff.mpr (agrees_of_releases hv hparsed hrelease rfl)
  obtain ⟨reload, hreload, hreloadIff⟩ := hge 0 (by decide)
  obtain ⟨ldap, hldap, hldapIff⟩ := hge 3 (by decide)
  obtain ⟨lifecycle, hlifecycle, hlifecycleIff⟩ := hge 4 (by decide)
  refine ⟨baseCapabilities ++ [if reload then ["zero_downtime_reload", "verify_config"] else [],
    if ldap then ["ldap_auth_safe"] else [],
    if lifecycle then ["explicit_cli_lifecycle"] else []].flatten, ?_, ?_⟩
  · unfold capabilitiesFor capabilitySince
    rw [h]
    simp only [List.mapM_cons, List.mapM_nil, bind, Except.bind, hreload, hldap, hlifecycle]
    rfl
  · intro name
    unfold capabilitySince
    simp only [List.mem_append, List.mem_flatten, List.mem_cons, List.not_mem_nil, or_false,
      exists_eq_or_imp, exists_eq_left, ← hreloadIff, ← hldapIff, ← hlifecycleIff]
    cases reload <;> cases ldap <;> cases lifecycle <;> simp

end MaddyWeb.Maddy.Version
