import Mathlib.Data.Bool.AllAny
import Mathlib.Data.List.Basic

/-!
# Python text primitives

`splitlines`, `strip` and the character classes behind them, over lists of
characters or bytes.  `splitlines` is stated for any element type and any set
of line breaks: `bytes` and `str` differ only in that set.
-/

namespace MaddyWeb.Library

abbrev Bytes := List UInt8

def crlf : Bytes := [0x0D, 0x0A]

namespace Text

/-- A control character of ASCII. -/
def isControl (c : Char) : Bool := c.toNat < 0x20 || c.toNat == 0x7F

/-! ## Line splitting -/

section Splitlines

variable {α : Type} [DecidableEq α] (isBreak : α → Bool) (cr lf : α)

/-- `splitlines` after a carriage return (`afterCr`) or not, with the start of a line read. -/
def splitlinesFrom : Bool → List α → List α → List (List α)
  | _, line, [] => if line.isEmpty then [] else [line]
  | afterCr, line, c :: rest =>
    if afterCr && c == lf then splitlinesFrom false line rest
    else if isBreak c then line :: splitlinesFrom (c == cr) [] rest
    else splitlinesFrom false (line ++ [c]) rest

variable {isBreak cr lf} in
theorem splitlinesFrom_break {afterCr : Bool} {line rest : List α} {c : α}
    (hbreak : isBreak c = true) (hlf : (afterCr && c == lf) = false) :
    splitlinesFrom isBreak cr lf afterCr line (c :: rest) =
      line :: splitlinesFrom isBreak cr lf (c == cr) [] rest := by
  rw [splitlinesFrom, hlf, hbreak]
  rfl

variable {isBreak cr lf} in
/-- No line has a break in it. -/
theorem plain_of_mem_splitlinesFrom {afterCr : Bool} {start text line : List α}
    (hstart : ∀ c ∈ start, isBreak c = false)
    (hline : line ∈ splitlinesFrom isBreak cr lf afterCr start text) :
    ∀ c ∈ line, isBreak c = false := by
  fun_induction splitlinesFrom isBreak cr lf afterCr start text with
  | case1 => cases hline
  | case2 afterCr start =>
      rw [List.mem_singleton.mp hline]
      exact hstart
  | case3 afterCr start c rest _ ih => exact ih hstart hline
  | case4 afterCr start c rest _ _ ih =>
      rcases List.mem_cons.mp hline with rfl | hline
      · exact hstart
      · exact ih nofun hline
  | case5 afterCr start c rest _ hplain ih =>
      apply ih _ hline
      intro d hd
      rcases List.mem_append.mp hd with hd | hd
      · exact hstart d hd
      · rw [List.mem_singleton.mp hd]
        exact Bool.eq_false_iff.mpr hplain

variable {isBreak cr lf} in
theorem splitlinesFrom_plain {afterCr : Bool} {line rest : List α} {c : α}
    (hplain : isBreak c = false) (hlf : (afterCr && c == lf) = false) :
    splitlinesFrom isBreak cr lf afterCr line (c :: rest) =
      splitlinesFrom isBreak cr lf false (line ++ [c]) rest := by
  rw [splitlinesFrom, hlf, hplain]
  rfl

section Lf

variable {isBreak cr lf} (hlf : isBreak lf = true) (hcr : lf ≠ cr)
include hlf hcr

theorem splitlinesFrom_lf (line rest : List α) :
    splitlinesFrom isBreak cr lf false line (lf :: rest) =
      line :: splitlinesFrom isBreak cr lf false [] rest := by
  rw [splitlinesFrom_break hlf rfl, beq_eq_false_iff_ne.mpr hcr]

omit hlf hcr in
theorem splitlinesFrom_plains (line start rest : List α) (hline : ∀ c ∈ line, isBreak c = false) :
    splitlinesFrom isBreak cr lf false start (line ++ rest) =
      splitlinesFrom isBreak cr lf false (start ++ line) rest := by
  induction line generalizing start with
  | nil => simp
  | cons c line ih =>
      rw [List.cons_append, splitlinesFrom_plain (hline c (by simp)) rfl,
        ih _ fun d hd => hline d (List.mem_cons_of_mem _ hd)]
      simp

/-- The lines of a text that ends with a line feed come first, whatever follows. -/
theorem splitlinesFrom_append_lf (text start rest : List α) (htext : cr ∉ text) :
    splitlinesFrom isBreak cr lf false start (text ++ lf :: rest) =
      splitlinesFrom isBreak cr lf false start (text ++ [lf]) ++
        splitlinesFrom isBreak cr lf false [] rest := by
  induction text generalizing start with
  | nil =>
      rw [List.nil_append, List.nil_append, splitlinesFrom_lf hlf hcr, splitlinesFrom_lf hlf hcr]
      rfl
  | cons c text ih =>
      have htail : cr ∉ text := fun h => htext (by simp [h])
      have hc : (c == cr) = false := beq_eq_false_iff_ne.mpr fun h => htext (by simp [h])
      rw [List.cons_append, List.cons_append]
      cases hbreak : isBreak c with
      | true =>
          rw [splitlinesFrom_break hbreak rfl, splitlinesFrom_break hbreak rfl, hc, ih _ htail]
          rfl
      | false => rw [splitlinesFrom_plain hbreak rfl, splitlinesFrom_plain hbreak rfl, ih _ htail]

/-- Only the first line depends on how it began. -/
theorem splitlinesFrom_start (text : List α) (htext : cr ∉ text) :
    ∃ first lines, ∀ start, splitlinesFrom isBreak cr lf false start (text ++ [lf]) =
      (start ++ first) :: lines := by
  induction text with
  | nil => exact ⟨[], [], fun start => by simp [splitlinesFrom_lf hlf hcr, splitlinesFrom]⟩
  | cons c text ih =>
      have htail : cr ∉ text := fun h => htext (by simp [h])
      have hc : (c == cr) = false := beq_eq_false_iff_ne.mpr fun h => htext (by simp [h])
      obtain ⟨first, lines, hstart⟩ := ih htail
      cases hbreak : isBreak c with
      | true =>
          refine ⟨[], splitlinesFrom isBreak cr lf false [] (text ++ [lf]), fun start => ?_⟩
          rw [List.cons_append, splitlinesFrom_break hbreak rfl, hc, List.append_nil]
      | false =>
          refine ⟨c :: first, lines, fun start => ?_⟩
          rw [List.cons_append, splitlinesFrom_plain hbreak rfl, hstart]
          simp

end Lf

/-- Lines without their breaks; `cr lf` is one break, and no empty line follows the last one. -/
def splitlines (text : List α) : List (List α) := splitlinesFrom isBreak cr lf false [] text

end Splitlines

/-- The line breaks of `bytes.splitlines`. -/
def isByteBreak (b : UInt8) : Bool := b == 0x0A || b == 0x0D

/-- `bytes.splitlines()` -/
def bytesSplitlines (text : List UInt8) : List (List UInt8) :=
  splitlines isByteBreak 0x0D 0x0A text

/-! ## Substrings -/

section Substring

variable {α : Type} [DecidableEq α]

/-- `needle in text` -/
def hasSubstring (needle : List α) : List α → Bool
  | [] => needle.isEmpty
  | c :: rest => needle.isPrefixOf (c :: rest) || hasSubstring needle rest

/-- `text.partition(sep)`: what stands before and after the first `sep`. -/
def partition (sep : List α) : List α → Option (List α × List α)
  | [] => none
  | c :: rest =>
    if sep.isPrefixOf (c :: rest) then some ([], (c :: rest).drop sep.length)
    else (partition sep rest).map fun parts => (c :: parts.1, parts.2)

/-- `text.split(sep)` inside a piece, with `skip` characters of a separator still to pass. -/
def splitFrom (sep : List α) : Nat → List α → List α → List (List α)
  | _, piece, [] => [piece]
  | skip + 1, piece, _ :: rest => splitFrom sep skip piece rest
  | 0, piece, c :: rest =>
    if sep.isPrefixOf (c :: rest) then piece :: splitFrom sep (sep.length - 1) [] rest
    else splitFrom sep 0 (piece ++ [c]) rest

/-- `text.split(sep)` -/
def split (sep text : List α) : List (List α) := splitFrom sep 0 [] text

/-- `text.split()` inside a word. -/
def splitBlankFrom (isBlank : α → Bool) : List α → List α → List (List α)
  | word, [] => if word.isEmpty then [] else [word]
  | word, c :: rest =>
    if isBlank c then
      if word.isEmpty then splitBlankFrom isBlank [] rest
      else word :: splitBlankFrom isBlank [] rest
    else splitBlankFrom isBlank (word ++ [c]) rest

end Substring

/-! ### Searching past a character that the needle does not have -/

section SubstringLemmas

variable {α : Type} [DecidableEq α] {needle : List α} {c : α}

theorem hasSubstring_nil : hasSubstring needle [] = needle.isEmpty := rfl

theorem hasSubstring_cons (c : α) (rest : List α) : hasSubstring needle (c :: rest) =
    (needle.isPrefixOf (c :: rest) || hasSubstring needle rest) := rfl

theorem partition_nil : partition needle ([] : List α) = none := rfl

theorem partition_cons (c : α) (rest : List α) : partition needle (c :: rest) =
    if needle.isPrefixOf (c :: rest) then some ([], (c :: rest).drop needle.length)
    else (partition needle rest).map fun parts => (c :: parts.1, parts.2) := rfl

theorem splitFrom_cons (piece : List α) (c : α) (rest : List α) :
    splitFrom needle 0 piece (c :: rest) =
      if needle.isPrefixOf (c :: rest) then
        piece :: splitFrom needle (needle.length - 1) [] rest
      else splitFrom needle 0 (piece ++ [c]) rest := rfl

theorem isPrefixOf_append_cons (hc : c ∉ needle) (text rest : List α) :
    needle.isPrefixOf (text ++ c :: rest) = needle.isPrefixOf text := by
  induction needle generalizing text with
  | nil => simp
  | cons x needle ih =>
      have hx : x ≠ c := fun h => hc (by simp [h])
      have htail : c ∉ needle := fun h => hc (by simp [h])
      cases text with
      | nil => simp [List.isPrefixOf, hx]
      | cons y text => simp [List.isPrefixOf, ih htail]

theorem hasSubstring_append_cons (hc : c ∉ needle) (hne : needle ≠ []) (text rest : List α) :
    hasSubstring needle (text ++ c :: rest) =
      (hasSubstring needle text || hasSubstring needle rest) := by
  induction text with
  | nil =>
      have hstarts : needle.isPrefixOf ([] ++ c :: rest) = needle.isPrefixOf [] :=
        isPrefixOf_append_cons hc [] rest
      cases needle with
      | nil => exact absurd rfl hne
      | cons x needle =>
          rw [List.nil_append] at hstarts ⊢
          rw [hasSubstring_cons, hstarts]
          rfl
  | cons y text ih =>
      have hstarts := isPrefixOf_append_cons hc (y :: text) rest
      rw [List.cons_append] at hstarts ⊢
      rw [hasSubstring_cons, hstarts, ih, hasSubstring_cons, Bool.or_assoc]

theorem hasSubstring_eq_false_of_not_mem {text : List α} (hc : c ∈ needle) (htext : c ∉ text) :
    hasSubstring needle text = false := by
  induction text with
  | nil =>
      cases needle with
      | nil => simp at hc
      | cons x needle => rfl
  | cons y text ih =>
      have htail : c ∉ text := fun h => htext (by simp [h])
      have hstarts : needle.isPrefixOf (y :: text) = false := by
        rw [Bool.eq_false_iff]
        intro h
        exact htext ((List.isPrefixOf_iff_prefix.mp h).subset hc)
      rw [hasSubstring_cons, hstarts, ih htail, Bool.or_false]

theorem hasSubstring_append_of_not_mem {x : α} {needle text : List α} (hx : x ∉ text)
    (rest : List α) :
    hasSubstring (x :: needle) (text ++ rest) = hasSubstring (x :: needle) rest := by
  induction text with
  | nil => rfl
  | cons y text ih =>
      have hy : x ≠ y := fun h => hx (by simp [h])
      have htail : x ∉ text := fun h => hx (by simp [h])
      rw [List.cons_append, hasSubstring_cons, ih htail]
      simp [List.isPrefixOf, hy]

theorem hasSubstring_iff {needle text : List α} :
    hasSubstring needle text = true ↔ needle <:+: text := by
  induction text with
  | nil => rw [hasSubstring_nil, List.isEmpty_iff, List.infix_nil]
  | cons c rest ih =>
      rw [hasSubstring_cons, Bool.or_eq_true, ih, List.isPrefixOf_iff_prefix, List.infix_cons_iff]

theorem hasSubstring_of_isPrefixOf {short : List α} (hshort : short <+: needle) {text : List α}
    (h : hasSubstring short text = false) : hasSubstring needle text = false := by
  induction text with
  | nil =>
      cases short with
      | nil => cases h
      | cons x short =>
          obtain ⟨tail, rfl⟩ := hshort
          rfl
  | cons y text ih =>
      rw [hasSubstring_cons, Bool.or_eq_false_iff] at h
      have hno : needle.isPrefixOf (y :: text) = false := by
        rw [Bool.eq_false_iff]
        intro hstarts
        have hshorter := List.isPrefixOf_iff_prefix.mpr
          (hshort.trans (List.isPrefixOf_iff_prefix.mp hstarts))
        rw [h.1] at hshorter
        cases hshorter
      rw [hasSubstring_cons, hno, ih h.2, Bool.or_false]

theorem hasSubstring_self_append (hne : needle ≠ []) (rest : List α) :
    hasSubstring needle (needle ++ rest) = true := by
  cases needle with
  | nil => exact absurd rfl hne
  | cons x needle =>
      have hstarts : (x :: needle).isPrefixOf (x :: (needle ++ rest)) = true :=
        List.isPrefixOf_iff_prefix.mpr ⟨rest, rfl⟩
      rw [List.cons_append, hasSubstring_cons, hstarts, Bool.true_or]

theorem partition_append_cons (hc : c ∉ needle) (hne : needle ≠ []) {text : List α}
    (h : hasSubstring needle text = false) (rest : List α) :
    partition needle (text ++ c :: rest) =
      (partition needle rest).map fun parts => (text ++ c :: parts.1, parts.2) := by
  induction text with
  | nil =>
      have hstarts : needle.isPrefixOf ([] ++ c :: rest) = needle.isPrefixOf [] :=
        isPrefixOf_append_cons hc [] rest
      have hnil : needle.isPrefixOf ([] : List α) = false := by
        cases needle with
        | nil => exact absurd rfl hne
        | cons x needle => rfl
      rw [List.nil_append] at hstarts ⊢
      rw [partition_cons, hstarts, hnil]
      simp
  | cons y text ih =>
      rw [hasSubstring_cons, Bool.or_eq_false_iff] at h
      have hstarts := isPrefixOf_append_cons hc (y :: text) rest
      rw [List.cons_append] at hstarts ⊢
      rw [partition_cons, hstarts, h.1, ih h.2]
      simp [Option.map_map, Function.comp_def]

theorem partition_append_of_not_mem {x : α} {needle text : List α} (hx : x ∉ text)
    (rest : List α) :
    partition (x :: needle) (text ++ rest) =
      (partition (x :: needle) rest).map fun parts => (text ++ parts.1, parts.2) := by
  induction text with
  | nil => simp
  | cons y text ih =>
      have hy : x ≠ y := fun h => hx (by simp [h])
      have htail : x ∉ text := fun h => hx (by simp [h])
      rw [List.cons_append, partition_cons, ih htail]
      simp [List.isPrefixOf, hy, Option.map_map, Function.comp_def]

theorem partition_self_append (hne : needle ≠ []) (rest : List α) :
    partition needle (needle ++ rest) = some ([], rest) := by
  cases needle with
  | nil => exact absurd rfl hne
  | cons x needle =>
      have hstarts : (x :: needle).isPrefixOf (x :: (needle ++ rest)) = true :=
        List.isPrefixOf_iff_prefix.mpr ⟨rest, rfl⟩
      rw [List.cons_append, partition_cons, hstarts]
      simp

/-- A needle inside the first line is found there. -/
theorem partition_append_of_hasSubstring (hc : c ∉ needle) (hne : needle ≠ []) {text : List α}
    (h : hasSubstring needle text = true) (rest : List α) :
    ∃ first last after, text = first ++ last ∧
      partition needle (text ++ c :: rest) = some (first, after) := by
  induction text with
  | nil =>
      cases needle with
      | nil => exact absurd rfl hne
      | cons x needle => cases h
  | cons y text ih =>
      have hlong := isPrefixOf_append_cons hc (y :: text) rest
      rw [List.cons_append] at hlong
      by_cases hstarts : needle.isPrefixOf (y :: text) = true
      · refine ⟨[], y :: text, (y :: (text ++ c :: rest)).drop needle.length, rfl, ?_⟩
        rw [List.cons_append, partition_cons, hlong, if_pos hstarts]
      · rw [hasSubstring_cons, Bool.or_eq_true, or_iff_right hstarts] at h
        obtain ⟨first, last, after, htext, hpartition⟩ := ih h
        refine ⟨y :: first, last, after, by rw [htext]; rfl, ?_⟩
        rw [List.cons_append, partition_cons, hlong, if_neg hstarts, hpartition]
        rfl

/-- A one-character separator splits at its first occurrence. -/
theorem partition_singleton {text : List α} (h : c ∉ text) (rest : List α) :
    partition [c] (text ++ c :: rest) = some (text, rest) := by
  induction text with
  | nil => simp [partition_cons, List.isPrefixOf]
  | cons y text ih =>
      have hy : c ≠ y := fun h' => h (by simp [h'])
      have htail : c ∉ text := fun h' => h (by simp [h'])
      rw [List.cons_append, partition_cons, ih htail]
      simp [List.isPrefixOf, hy]

theorem partition_singleton_eq_none_iff (text : List α) : partition [c] text = none ↔ c ∉ text := by
  induction text with
  | nil => simp [partition_nil]
  | cons y text ih =>
      rw [partition_cons, List.mem_cons, not_or, ← ih]
      by_cases hy : c = y
      · simp [List.isPrefixOf, hy]
      · simp [List.isPrefixOf, hy]

theorem eq_of_partition_singleton {text before after : List α}
    (h : partition [c] text = some (before, after)) : text = before ++ c :: after ∧ c ∉ before := by
  have hmem : c ∈ text := by
    by_contra hnot
    rw [(partition_singleton_eq_none_iff text).mpr hnot] at h
    cases h
  obtain ⟨first, rest, htext, hfirst⟩ := List.eq_append_cons_of_mem hmem
  rw [htext, partition_singleton hfirst] at h
  cases h
  exact ⟨htext, hfirst⟩

/-! ### Pieces and occurrences -/

theorem splitFrom_skip (sep : List α) (skip : Nat) (piece text : List α) :
    splitFrom sep skip piece text = splitFrom sep 0 piece (text.drop skip) := by
  induction text generalizing skip with
  | nil => simp [splitFrom]
  | cons x text ih =>
      cases skip with
      | zero => rfl
      | succ skip => rw [splitFrom, ih, List.drop_succ_cons]

theorem splitFrom_append_cons (hc : c ∉ needle) {text : List α}
    (hne : needle ≠ []) (h : hasSubstring needle text = false) (piece rest : List α) :
    splitFrom needle 0 piece (text ++ c :: rest) =
      splitFrom needle 0 (piece ++ text ++ [c]) rest := by
  have hnil : needle.isPrefixOf ([] : List α) = false := by
    cases needle with
    | nil => exact absurd rfl hne
    | cons x needle => rfl
  induction text generalizing piece with
  | nil =>
      have hstarts : needle.isPrefixOf ([] ++ c :: rest) = needle.isPrefixOf [] :=
        isPrefixOf_append_cons hc [] rest
      rw [List.nil_append] at hstarts ⊢
      rw [splitFrom_cons, hstarts, hnil]
      simp
  | cons y text ih =>
      rw [hasSubstring_cons, Bool.or_eq_false_iff] at h
      have hstarts := isPrefixOf_append_cons hc (y :: text) rest
      rw [List.cons_append] at hstarts ⊢
      rw [splitFrom_cons, hstarts, h.1]
      simp [ih h.2]

theorem splitFrom_self_append (hne : needle ≠ []) (piece rest : List α) :
    splitFrom needle 0 piece (needle ++ rest) = piece :: splitFrom needle 0 [] rest := by
  cases needle with
  | nil => exact absurd rfl hne
  | cons x needle =>
      have hstarts : (x :: needle).isPrefixOf (x :: (needle ++ rest)) = true :=
        List.isPrefixOf_iff_prefix.mpr ⟨rest, rfl⟩
      rw [List.cons_append, splitFrom_cons, hstarts, splitFrom_skip]
      simp

theorem splitFrom_singleton {text : List α} (h : c ∉ text) (piece : List α) :
    splitFrom [c] 0 piece text = [piece ++ text] := by
  induction text generalizing piece with
  | nil => rw [splitFrom, List.append_nil]
  | cons y text ih =>
      have hy : c ≠ y := fun heq => h (heq ▸ List.mem_cons_self)
      have htail : c ∉ text := fun hmem => h (List.mem_cons_of_mem y hmem)
      rw [splitFrom_cons, if_neg (by simpa [List.isPrefixOf] using hy), ih htail, List.append_assoc]
      rfl

theorem splitFrom_singleton_append {text : List α} (h : c ∉ text) (piece rest : List α) :
    splitFrom [c] 0 piece (text ++ c :: rest) = (piece ++ text) :: splitFrom [c] 0 [] rest := by
  induction text generalizing piece with
  | nil =>
      rw [List.append_nil]
      exact splitFrom_self_append (List.cons_ne_nil c []) piece rest
  | cons y text ih =>
      have hy : c ≠ y := fun heq => h (heq ▸ List.mem_cons_self)
      have htail : c ∉ text := fun hmem => h (List.mem_cons_of_mem y hmem)
      rw [List.cons_append, splitFrom_cons, if_neg (by simpa [List.isPrefixOf] using hy), ih htail,
        List.append_assoc]
      rfl

/-- `sep.join(pieces)` is split back into the pieces. -/
theorem split_intercalate {pieces : List (List α)} (hne : pieces ≠ [])
    (h : ∀ piece ∈ pieces, c ∉ piece) : split [c] (List.intercalate [c] pieces) = pieces := by
  induction pieces with
  | nil => exact absurd rfl hne
  | cons piece pieces ih =>
      have hpiece := h piece List.mem_cons_self
      cases pieces with
      | nil =>
          show splitFrom [c] 0 [] (List.intercalate [c] [piece]) = [piece]
          rw [List.intercalate_singleton, splitFrom_singleton hpiece, List.nil_append]
      | cons next pieces =>
          have hrest := ih (List.cons_ne_nil _ _) fun p hp => h p (List.mem_cons_of_mem _ hp)
          show splitFrom [c] 0 [] _ = _
          rw [List.intercalate_cons_cons, List.append_assoc, List.singleton_append,
            splitFrom_singleton_append hpiece, List.nil_append]
          exact congrArg (piece :: ·) hrest

/-- A character of the text is a separator or stands in a piece. -/
theorem mem_splitFrom_singleton {sep x : α} {piece text : List α} (hx : x ∈ piece ∨ x ∈ text)
    (hsep : x ≠ sep) : ∃ part ∈ splitFrom [sep] 0 piece text, x ∈ part := by
  induction text generalizing piece with
  | nil =>
      rcases hx with hx | hx
      · exact ⟨piece, List.mem_singleton_self _, hx⟩
      · cases hx
  | cons y text ih =>
      rw [splitFrom]
      split
      · next hstart =>
          have hy : sep = y := by simpa using hstart
          rcases hx with hx | hx
          · exact ⟨piece, List.mem_cons_self, hx⟩
          · rcases List.mem_cons.mp hx with rfl | hx
            · exact absurd hy.symm hsep
            · obtain ⟨part, hpart, hmem⟩ := ih (Or.inr hx)
              exact ⟨part, List.mem_cons_of_mem _ hpart, hmem⟩
      · apply ih
        rw [List.mem_append, List.mem_singleton]
        rcases hx with hx | hx
        · exact Or.inl (Or.inl hx)
        · rcases List.mem_cons.mp hx with rfl | hx
          · exact Or.inl (Or.inr rfl)
          · exact Or.inr hx

/-! ### Text whose characters are mapped -/

section Mapped

variable {f : α → α}

theorem isPrefixOf_map (hf : ∀ d ∈ needle, ∀ x, d = f x ↔ d = x) (text : List α) :
    needle.isPrefixOf (text.map f) = needle.isPrefixOf text := by
  induction needle generalizing text with
  | nil => cases text <;> rfl
  | cons d needle ih =>
      cases text with
      | nil => rfl
      | cons x text =>
          have hhead : (d == f x) = (d == x) := by
            rw [Bool.eq_iff_iff, beq_iff_eq, beq_iff_eq]
            exact hf d List.mem_cons_self x
          rw [List.map_cons, List.isPrefixOf, List.isPrefixOf, hhead,
            ih (fun d' hd' => hf d' (List.mem_cons_of_mem d hd')) text]

theorem hasSubstring_map (hf : ∀ d ∈ needle, ∀ x, d = f x ↔ d = x) (text : List α) :
    hasSubstring needle (text.map f) = hasSubstring needle text := by
  induction text with
  | nil => rfl
  | cons x text ih =>
      have hstart := isPrefixOf_map hf (x :: text)
      rw [List.map_cons] at hstart ⊢
      rw [hasSubstring_cons, hasSubstring_cons, hstart, ih]

theorem splitFrom_map {sep : α} (hf : ∀ x, sep = f x ↔ sep = x) (piece text : List α) :
    splitFrom [sep] 0 (piece.map f) (text.map f) =
      (splitFrom [sep] 0 piece text).map (List.map f) := by
  induction text generalizing piece with
  | nil => rfl
  | cons x text ih =>
      have hstart := @isPrefixOf_map α _ [sep] f
        (fun d hd x => by rw [List.mem_singleton.mp hd]; exact hf x) (x :: text)
      rw [List.map_cons] at hstart ⊢
      rw [splitFrom_cons, splitFrom_cons, hstart]
      split
      · have hrest := ih []
        rw [List.map_nil] at hrest
        rw [List.map_cons]
        exact congrArg _ hrest
      · have hrest := ih (piece ++ [x])
        rw [List.map_append] at hrest
        exact hrest

end Mapped

/-- The number of positions at which the needle stands. -/
def occurrences (needle : List α) : List α → Nat
  | [] => 0
  | x :: rest => (if needle.isPrefixOf (x :: rest) then 1 else 0) + occurrences needle rest

/-- No proper suffix of the needle is a start of it, so two occurrences never overlap. -/
def BorderFree (needle : List α) : Prop :=
  ∀ j < needle.length, 0 < j → ¬ (needle.drop j).isPrefixOf needle

instance (needle : List α) : Decidable (BorderFree needle) := by
  unfold BorderFree
  infer_instance

theorem occurrences_drop_of_prefix (hborder : BorderFree needle) {text : List α}
    (hstarts : needle <+: text) (j : Nat) (hpos : 0 < j) (hj : j ≤ needle.length) :
    occurrences needle (text.drop j) = occurrences needle (text.drop needle.length) := by
  obtain ⟨k, hk⟩ : ∃ k, k + j = needle.length := ⟨needle.length - j, by omega⟩
  induction k generalizing j with
  | zero =>
      have hend : j = needle.length := by omega
      rw [hend]
  | succ k ih =>
      rw [← ih (j + 1) (by omega) (by omega) (by omega)]
      cases hdrop : text.drop j with
      | nil => simp [← List.drop_drop, hdrop, occurrences]
      | cons x rest =>
          have hrest : text.drop (j + 1) = rest := by rw [← List.drop_drop, hdrop]; rfl
          have hno : needle.isPrefixOf (x :: rest) = false := by
            rw [Bool.eq_false_iff]
            intro h
            have h1 : needle <+: text.drop j := by
              rw [hdrop]
              exact List.isPrefixOf_iff_prefix.mp h
            have h2 : needle.drop j <+: text.drop j := by
              obtain ⟨tail, rfl⟩ := hstarts
              rw [List.drop_append_of_le_length (by omega)]
              exact List.prefix_append _ _
            have h3 : needle.drop j <+: needle :=
              List.prefix_of_prefix_length_le h2 h1 (by simp)
            exact hborder j (by omega) hpos (List.isPrefixOf_iff_prefix.mpr h3)
          rw [occurrences, hno, hrest]
          simp

theorem length_splitFrom (hborder : BorderFree needle) (hne : needle ≠ []) (piece text : List α) :
    (splitFrom needle 0 piece text).length = 1 + occurrences needle text := by
  obtain ⟨n, hn⟩ : ∃ n, text.length = n := ⟨_, rfl⟩
  induction n using Nat.strongRecOn generalizing piece text with
  | ind n ih =>
    cases text with
    | nil => rfl
    | cons x rest =>
        rw [splitFrom, occurrences]
        by_cases hstarts : needle.isPrefixOf (x :: rest) = true
        · have hlength := List.length_pos_of_ne_nil hne
          have hdrop : rest.drop (needle.length - 1) = (x :: rest).drop needle.length := by
            obtain ⟨k, hk⟩ : ∃ k, needle.length = k + 1 := ⟨needle.length - 1, by omega⟩
            rw [hk]
            rfl
          have hskip := occurrences_drop_of_prefix hborder (List.isPrefixOf_iff_prefix.mp hstarts) 1
            (by omega) (by omega)
          rw [if_pos hstarts, if_pos hstarts, List.length_cons, splitFrom_skip, hdrop,
            ih _ (by simp only [List.length_drop, List.length_cons] at hn ⊢; omega) _ _ rfl,
              ← hskip]
          simp only [List.drop_succ_cons, List.drop_zero]
          omega
        · rw [if_neg hstarts, if_neg hstarts, ih _ (by simp at hn; omega) _ rest rfl]
          omega

theorem occurrences_append_le (text rest : List α) :
    occurrences needle text + occurrences needle rest ≤ occurrences needle (text ++ rest) := by
  induction text with
  | nil => simp [occurrences]
  | cons x text ih =>
      have hstarts : needle.isPrefixOf (x :: text) = true →
          needle.isPrefixOf (x :: (text ++ rest)) = true := fun h =>
        List.isPrefixOf_iff_prefix.mpr
          ((List.isPrefixOf_iff_prefix.mp h).trans (List.prefix_append (x :: text) rest))
      rw [List.cons_append, occurrences, occurrences]
      by_cases h : needle.isPrefixOf (x :: text) = true
      · rw [if_pos h, if_pos (hstarts h)]
        omega
      · rw [if_neg h]
        omega

theorem occurrences_pos (hne : needle ≠ []) {text : List α} (h : hasSubstring needle text = true) :
    0 < occurrences needle text := by
  induction text with
  | nil =>
      cases needle with
      | nil => exact absurd rfl hne
      | cons x needle => cases h
  | cons x text ih =>
      rw [hasSubstring_cons, Bool.or_eq_true] at h
      rw [occurrences]
      rcases h with h | h
      · rw [if_pos h]
        omega
      · have := ih h
        omega

end SubstringLemmas

/-! ### Joined texts -/

section Joined

variable {α : Type}

theorem mem_intercalate {x sep : α} {parts : List (List α)}
    (h : x ∈ List.intercalate [sep] parts) : x = sep ∨ ∃ part ∈ parts, x ∈ part := by
  induction parts with
  | nil => cases h
  | cons part parts ih =>
      cases parts with
      | nil =>
          rw [List.intercalate_singleton] at h
          exact Or.inr ⟨part, List.mem_cons_self, h⟩
      | cons next parts =>
          rw [List.intercalate_cons_cons, List.mem_append, List.mem_append] at h
          rcases h with (h | h) | h
          · exact Or.inr ⟨part, List.mem_cons_self, h⟩
          · exact Or.inl (List.mem_singleton.mp h)
          · rcases ih h with h | ⟨other, hother, h⟩
            · exact Or.inl h
            · exact Or.inr ⟨other, List.mem_cons_of_mem part hother, h⟩

/-- The parts of a joined text are what is left when the separators go. -/
theorem filter_intercalate {p : α → Bool} {sep : List α} (hsep : ∀ x ∈ sep, p x = false)
    {parts : List (List α)} (hparts : ∀ part ∈ parts, ∀ x ∈ part, p x = true) :
    (List.intercalate sep parts).filter p = parts.flatten := by
  induction parts with
  | nil => rfl
  | cons part parts ih =>
      have hpart : part.filter p = part := List.filter_eq_self.mpr (hparts part List.mem_cons_self)
      cases parts with
      | nil =>
          rw [List.intercalate_singleton, hpart, List.flatten_cons, List.flatten_nil,
            List.append_nil]
      | cons next parts =>
          have hgone : sep.filter p = [] := by
            rw [List.filter_eq_nil_iff]
            intro x hx
            rw [hsep x hx]
            exact Bool.false_ne_true
          rw [List.intercalate_cons_cons, List.filter_append, List.filter_append, hpart, hgone,
            List.append_nil, List.flatten_cons,
            ih fun other hother => hparts other (List.mem_cons_of_mem part hother)]

/-- The groups of `size` elements, one after the other. -/
theorem flatten_groups (text : List α) (size count : Nat) :
    ((List.range count).map fun i => (text.drop (size * i)).take size).flatten =
      text.take (size * count) := by
  induction count with
  | zero => simp
  | succ count ih =>
      rw [List.range_succ, List.map_append, List.flatten_append, ih, Nat.mul_succ, List.take_add]
      simp

end Joined

/-! ### Texts made of lines -/

section Unlines

variable {α : Type} [DecidableEq α] {needle : List α} {c : α}

/-- Lines, each followed by `c`. -/
def unlines (c : α) (lines : List (List α)) : List α := lines.flatMap fun line => line ++ [c]

omit [DecidableEq α] in
theorem unlines_cons (line : List α) (lines : List (List α)) (rest : List α) :
    unlines c (line :: lines) ++ rest = line ++ c :: (unlines c lines ++ rest) := by
  simp [unlines]

theorem hasSubstring_unlines (hc : c ∉ needle) (hne : needle ≠ []) (lines : List (List α))
    (rest : List α) :
    hasSubstring needle (unlines c lines ++ rest) =
      (lines.any (hasSubstring needle) || hasSubstring needle rest) := by
  induction lines with
  | nil => simp [unlines]
  | cons line lines ih =>
      rw [unlines_cons, hasSubstring_append_cons hc hne, ih, List.any_cons, Bool.or_assoc]

theorem partition_unlines (hc : c ∉ needle) (hne : needle ≠ []) {lines : List (List α)}
    (h : lines.any (hasSubstring needle) = false) (rest : List α) :
    partition needle (unlines c lines ++ rest) =
      (partition needle rest).map fun parts => (unlines c lines ++ parts.1, parts.2) := by
  induction lines with
  | nil => simp [unlines]
  | cons line lines ih =>
      rw [List.any_cons, Bool.or_eq_false_iff] at h
      rw [unlines_cons, partition_append_cons hc hne h.1, ih h.2]
      simp [Option.map_map, Function.comp_def, unlines]

theorem splitFrom_unlines (hc : c ∉ needle) (hne : needle ≠ []) {lines : List (List α)}
    (h : lines.any (hasSubstring needle) = false) (piece rest : List α) :
    splitFrom needle 0 piece (unlines c lines ++ rest) =
      splitFrom needle 0 (piece ++ unlines c lines) rest := by
  induction lines generalizing piece with
  | nil => simp [unlines]
  | cons line lines ih =>
      rw [List.any_cons, Bool.or_eq_false_iff] at h
      rw [unlines_cons, splitFrom_append_cons hc hne h.1, ih h.2]
      simp [unlines]

end Unlines

/-! ## White space -/

theorem mem_dropWhile {α : Type} {p : α → Bool} {x : α} {l : List α} (hx : x ∈ l)
    (hp : p x = false) : x ∈ l.dropWhile p := by
  induction l with
  | nil => cases hx
  | cons y l ih =>
      by_cases hy : p y = true
      · rw [List.dropWhile_cons_of_pos hy]
        rcases List.mem_cons.mp hx with rfl | hx
        · rw [hp] at hy
          cases hy
        · exact ih hx
      · rwa [List.dropWhile_cons_of_neg hy]

/-- The text without the elements of a class at either end. -/
def stripBy {α : Type} (isBlank : α → Bool) (text : List α) : List α :=
  ((text.dropWhile isBlank).reverse.dropWhile isBlank).reverse

section Blank

variable {α : Type} {isBlank : α → Bool}

theorem stripBy_cons {b : α} (hb : isBlank b = true) (text : List α) :
    stripBy isBlank (b :: text) = stripBy isBlank text := by
  rw [stripBy, List.dropWhile_cons_of_pos hb, stripBy]

theorem dropWhile_eq_self {text : List α} (h : ∀ c ∈ text.head?, isBlank c = false) :
    text.dropWhile isBlank = text := by
  cases text with
  | nil => rfl
  | cons c text => rw [List.dropWhile_cons_of_neg (by simp [h c rfl])]

theorem stripBy_eq_self {text : List α} (hfirst : ∀ c ∈ text.head?, isBlank c = false)
    (hlast : ∀ c ∈ text.getLast?, isBlank c = false) : stripBy isBlank text = text := by
  rw [stripBy, dropWhile_eq_self hfirst, dropWhile_eq_self, List.reverse_reverse]
  rwa [List.head?_reverse]

theorem stripBy_of_no_blank {text : List α} (h : ∀ c ∈ text, isBlank c = false) :
    stripBy isBlank text = text :=
  stripBy_eq_self (fun c hc => h c (List.mem_of_mem_head? hc))
    (fun c hc => h c (List.mem_of_mem_getLast? hc))

theorem head?_dropWhile {text : List α} {c : α} (h : (text.dropWhile isBlank).head? = some c) :
    isBlank c = false := by
  induction text with
  | nil => cases h
  | cons x text ih =>
      by_cases hx : isBlank x = true
      · rw [List.dropWhile_cons_of_pos hx] at h
        exact ih h
      · rw [List.dropWhile_cons_of_neg hx] at h
        cases h
        simpa using hx

theorem stripBy_stripBy (text : List α) :
    stripBy isBlank (stripBy isBlank text) = stripBy isBlank text := by
  apply stripBy_eq_self
  · intro c hc
    have hpre : stripBy isBlank text <+: text.dropWhile isBlank := by
      have hsuffix : (text.dropWhile isBlank).reverse.dropWhile isBlank <:+
          (text.dropWhile isBlank).reverse := List.dropWhile_suffix _
      rw [← List.reverse_reverse (text.dropWhile isBlank)]
      exact List.reverse_prefix.mpr hsuffix
    obtain ⟨rest, hrest⟩ := hpre
    apply @head?_dropWhile _ isBlank text
    rw [← hrest, List.head?_append, Option.mem_def.mp hc]
    rfl
  · intro c hc
    rw [stripBy, List.getLast?_reverse] at hc
    exact head?_dropWhile hc

theorem splitBlankFrom_word {w : List α} (hw : ∀ c ∈ w, isBlank c = false) (word rest : List α) :
    splitBlankFrom isBlank word (w ++ rest) = splitBlankFrom isBlank (word ++ w) rest := by
  induction w generalizing word with
  | nil => simp
  | cons c w ih =>
      rw [List.cons_append, splitBlankFrom, hw c (by simp)]
      simp [ih fun d hd => hw d (List.mem_cons_of_mem _ hd)]

/-- Words joined by a blank are split back into the words. -/
theorem splitBlankFrom_intercalate {b : α} (hb : isBlank b = true) (words : List (List α))
    (hwords : ∀ w ∈ words, w ≠ [] ∧ ∀ c ∈ w, isBlank c = false) :
    splitBlankFrom isBlank [] (List.intercalate [b] words) = words := by
  induction words with
  | nil => rfl
  | cons w words ih =>
      obtain ⟨hne, hw⟩ := hwords w (by simp)
      have htail := ih fun v hv => hwords v (List.mem_cons_of_mem _ hv)
      cases words with
      | nil =>
          have h := splitBlankFrom_word hw [] []
          simp only [List.append_nil, List.nil_append] at h
          simpa [splitBlankFrom, hne] using h
      | cons v words =>
          rw [List.intercalate_cons_cons, List.append_assoc, splitBlankFrom_word hw,
            List.nil_append, List.singleton_append, splitBlankFrom, hb, htail]
          simp [hne]

end Blank

/-- The white space of `bytes.strip`. -/
def isByteSpace (b : UInt8) : Bool := b == 0x20 || (0x09 ≤ b && b ≤ 0x0D)

/-- `bytes.strip()` -/
def bytesStrip (text : List UInt8) : List UInt8 := stripBy isByteSpace text

/-! ## Character classes of `str` -/

/-- `str.isspace` of one character, which is also the class `\s` of a pattern. -/
def isSpace (c : Char) : Bool :=
  let n := c.toNat
  (9 ≤ n && n ≤ 13) || (0x1C ≤ n && n ≤ 0x20) || n == 0x85 || n == 0xA0 || n == 0x1680 ||
    (0x2000 ≤ n && n ≤ 0x200A) || n == 0x2028 || n == 0x2029 || n == 0x202F || n == 0x205F ||
    n == 0x3000

theorem range_of_isAlphanum {c : Char} (h : c.isAlphanum = true) :
    (0x30 ≤ c.toNat ∧ c.toNat ≤ 0x39) ∨ (0x41 ≤ c.toNat ∧ c.toNat ≤ 0x5A) ∨
      (0x61 ≤ c.toNat ∧ c.toNat ≤ 0x7A) := by
  delta Char.isAlphanum Char.isAlpha Char.isUpper Char.isLower Char.isDigit at h
  simp only [Bool.or_eq_true, Bool.and_eq_true, decide_eq_true_eq, ge_iff_le,
    UInt32.le_iff_toNat_le] at h
  change ((65 ≤ c.toNat ∧ c.toNat ≤ 90) ∨ (97 ≤ c.toNat ∧ c.toNat ≤ 122)) ∨
    (48 ≤ c.toNat ∧ c.toNat ≤ 57) at h
  omega

/-- The line breaks of `str.splitlines`. -/
def isLineBreak (c : Char) : Bool :=
  let n := c.toNat
  (10 ≤ n && n ≤ 13) || (0x1C ≤ n && n ≤ 0x1E) || n == 0x85 || n == 0x2028 || n == 0x2029

/-- `str.splitlines()` -/
def strSplitlines (text : List Char) : List (List Char) := splitlines isLineBreak '\r' '\n' text

/-- `str.strip()` -/
def strStrip (text : List Char) : List Char := stripBy isSpace text

theorem strStrip_strStrip (text : List Char) : strStrip (strStrip text) = strStrip text :=
  stripBy_stripBy text

/-- `str.split()` -/
def strSplit (text : List Char) : List (List Char) := splitBlankFrom isSpace [] text

/-- `str.lower()` as far as a comparison with an ASCII word without `k` sees it: the Kelvin sign
is the only other character whose lower case is an ASCII letter. -/
def asciiLower (text : List Char) : List Char :=
  text.map fun c => if 0x41 ≤ c.toNat && c.toNat ≤ 0x5A then Char.ofNat (c.toNat + 32) else c

end Text

end MaddyWeb.Library
