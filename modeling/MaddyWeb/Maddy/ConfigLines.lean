import MaddyWeb.Maddy.ConfigGate

/-!
# Lines of a configuration

A line that ends at a line feed is cut further by `str.splitlines`, at characters that are white
space for the tokens.  What the gate finds in the pieces, it finds in the line, up to the first
comment.
-/

namespace MaddyWeb.Maddy.ConfigGate

open MaddyWeb.Library MaddyWeb.Library.Text

/-! ## Cuts -/

def IsPiece (piece : Line) : Prop := ∀ c ∈ piece, isLineBreak c = false

/-- The pieces of a line between other breaks than the line feed; no piece stands for the end of a
text behind a break. -/
inductive Cuts : Line → List Line → Prop
  | nil : Cuts [] []
  | last {piece : Line} : IsPiece piece → Cuts piece [piece]
  | cut {piece rest : Line} {c : Char} {pieces : List Line} : IsPiece piece → isLineBreak c = true →
      c ≠ '\n' → Cuts rest pieces → Cuts (piece ++ c :: rest) (piece :: pieces)

theorem Cuts.no_lf {line : Line} {pieces : List Line} (h : Cuts line pieces) : '\n' ∉ line := by
  have hpiece : ∀ {piece : Line}, IsPiece piece → '\n' ∉ piece := by
    intro piece hpiece hmem
    have hbreak := hpiece _ hmem
    cases hbreak
  induction h with
  | nil => exact List.not_mem_nil
  | last h => exact hpiece h
  | cut h _ hc _ ih =>
      rw [List.mem_append, List.mem_cons]
      rintro (hmem | heq | hmem)
      · exact hpiece h hmem
      · exact hc heq.symm
      · exact ih hmem

/-- A line without a break is its own piece. -/
theorem Cuts.whole {line : Line} {pieces : List Line} (h : Cuts line pieces)
    (hline : IsPiece line) :
    pieces = [line] ∨ line = [] := by
  cases h with
  | nil => exact Or.inr rfl
  | last => exact Or.inl rfl
  | @cut piece rest c pieces _ hc =>
      have hplain := hline c (List.mem_append_right _ List.mem_cons_self)
      rw [hc] at hplain
      cases hplain

/-- Both functions in the middle of a text: `line` has been read of the line up to the line feed,
which came to the pieces `done` and the start of one more. -/
structure Reading (line : Line) (done : List Line) (start : Line) (afterCr : Bool) : Prop where
  isPiece : IsPiece start
  cuts : ∀ rest pieces, Cuts (start ++ rest) pieces → Cuts (line ++ rest) (done ++ pieces)
  empty : line = [] → done = [] ∧ start = []
  returned : afterCr = true → start = [] ∧ Cuts line.dropLast done ∧ line.getLast? = some '\r'
  plain : afterCr = false → line.getLast? ≠ some '\r'

theorem Reading.init : Reading [] [] [] false where
  isPiece := nofun
  cuts _ _ h := h
  empty _ := ⟨rfl, rfl⟩
  returned := nofun
  plain _ := nofun

section Reading

variable {line start : Line} {done : List Line} {afterCr : Bool} {c : Char}

theorem Reading.read (h : Reading line done start afterCr) (hc : isLineBreak c = false) :
    Reading (line ++ [c]) done (start ++ [c]) false where
  isPiece d hd := by
    rcases List.mem_append.mp hd with hd | hd
    · exact h.isPiece d hd
    · rw [List.mem_singleton.mp hd]
      exact hc
  cuts rest pieces hrest := by
    rw [List.append_assoc] at hrest ⊢
    exact h.cuts _ pieces hrest
  empty heq := by simp at heq
  returned := nofun
  plain _ := by
    rw [List.getLast?_concat]
    rintro ⟨⟩
    cases hc

theorem Reading.cut (h : Reading line done start afterCr) (hc : isLineBreak c = true)
    (hlf : c ≠ '\n') :
    Reading (line ++ [c]) (done ++ [start]) [] (c == '\r') where
  isPiece := nofun
  cuts rest pieces hrest := by
    rw [List.append_assoc, List.append_assoc]
    exact h.cuts _ _ (.cut h.isPiece hc hlf hrest)
  empty heq := by simp at heq
  returned hcr := by
    have hline : Cuts (line ++ []) (done ++ [start]) := by
      apply h.cuts
      rw [List.append_nil]
      exact .last h.isPiece
    rw [List.append_nil] at hline
    rw [List.dropLast_concat, List.getLast?_concat, beq_iff_eq.mp hcr]
    exact ⟨rfl, hline, rfl⟩
  plain hcr := by
    rw [List.getLast?_concat]
    rintro ⟨⟩
    cases hcr

/-- What is left of a text in both cuts. -/
theorem Reading.rest (h : Reading line done start afterCr) (text : List Char) :
    ∃ groups, List.Forall₂ Cuts (lfLinesFrom line text) groups ∧
      groups.flatten = done ++ splitlinesFrom isLineBreak '\r' '\n' afterCr start text := by
  induction text generalizing line done start afterCr with
  | nil =>
      by_cases hline : line = []
      · obtain ⟨rfl, rfl⟩ := h.empty hline
        subst hline
        exact ⟨[], .nil, rfl⟩
      · have hcuts : Cuts (line ++ []) (done ++ if start.isEmpty then [] else [start]) := by
          apply h.cuts
          rw [List.append_nil]
          cases start with
          | nil => exact .nil
          | cons d start => exact .last h.isPiece
        rw [List.append_nil] at hcuts
        have hlines : lfLinesFrom line [] = [line] := by simp [lfLinesFrom, hline]
        rw [hlines]
        exact ⟨[_], .cons hcuts .nil, by simp [splitlinesFrom]⟩
  | cons c text ih =>
      by_cases hlf : c = '\n'
      · subst hlf
        obtain ⟨groups, hgroups, hflat⟩ := ih Reading.init
        have hlines : lfLinesFrom line ('\n' :: text) = dropCr line :: lfLinesFrom [] text := rfl
        rw [hlines]
        cases afterCr with
        | true =>
            obtain ⟨rfl, hcuts, hcr⟩ := h.returned rfl
            refine ⟨done :: groups, .cons ?_ hgroups, by rw [List.flatten_cons, hflat]; rfl⟩
            rwa [dropCr, if_pos hcr]
        | false =>
            have hcuts : Cuts (line ++ []) (done ++ [start]) := by
              apply h.cuts
              rw [List.append_nil]
              exact .last h.isPiece
            rw [List.append_nil] at hcuts
            refine ⟨(done ++ [start]) :: groups, .cons ?_ hgroups, ?_⟩
            · rwa [dropCr, if_neg (h.plain rfl)]
            · rw [List.flatten_cons, hflat, splitlinesFrom_lf rfl (by decide), List.append_assoc]
              rfl
      · have hskip : (afterCr && c == '\n') = false := by simp [hlf]
        have hlines : lfLinesFrom line (c :: text) = lfLinesFrom (line ++ [c]) text := by
          simp [lfLinesFrom, hlf]
        rw [hlines]
        cases hc : isLineBreak c with
        | true =>
            obtain ⟨groups, hgroups, hflat⟩ := ih (h.cut hc hlf)
            refine ⟨groups, hgroups, ?_⟩
            rw [hflat, splitlinesFrom_break hc hskip, List.append_assoc]
            rfl
        | false =>
            obtain ⟨groups, hgroups, hflat⟩ := ih (h.read hc)
            exact ⟨groups, hgroups, by rw [hflat, splitlinesFrom_plain hc hskip]⟩

end Reading

/-- `str.splitlines` cuts every line that ends at a line feed on its own. -/
theorem cuts_lfLines (text : List Char) :
    ∃ groups, List.Forall₂ Cuts (lfLines text) groups ∧ groups.flatten = strSplitlines text :=
  Reading.init.rest text

/-! ## What a break is to the gate -/

theorem ne_of_isLineBreak {b d : Char} (hb : isLineBreak b = true) (hd : isLineBreak d = false) :
    b ≠ d := by
  rintro rfl
  rw [hb] at hd
  cases hd

theorem isSpace_of_isLineBreak {b : Char} (hb : isLineBreak b = true) : isSpace b = true := by
  simp only [isLineBreak, isSpace, Bool.or_eq_true, Bool.and_eq_true, decide_eq_true_eq,
    beq_iff_eq] at hb ⊢
  omega

theorem not_isNameChar_of_isLineBreak {b : Char} (hb : isLineBreak b = true) :
    isNameChar b = false ∧ isNameStart b = false := by
  have halnum : b.isAlphanum = false := by
    rw [Bool.eq_false_iff]
    intro hword
    have hrange := range_of_isAlphanum hword
    simp only [isLineBreak, Bool.or_eq_true, Bool.and_eq_true, decide_eq_true_eq, beq_iff_eq] at hb
    omega
  have halpha : b.isAlpha = false := by
    rw [Char.isAlphanum, Bool.or_eq_false_iff] at halnum
    exact halnum.1
  have hunder := ne_of_isLineBreak (d := '_') hb rfl
  have hdot := ne_of_isLineBreak (d := '.') hb rfl
  have hminus := ne_of_isLineBreak (d := '-') hb rfl
  simp [isNameChar, isNameStart, halnum, halpha, hunder, hdot, hminus]

theorem isIndent_of_isLineBreak {b : Char} (hb : isLineBreak b = true) : isIndent b = false := by
  have hspace := ne_of_isLineBreak (d := ' ') hb rfl
  have htab := ne_of_isLineBreak (d := '\t') hb rfl
  simp [isIndent, hspace, htab]

section Break

variable {b : Char} (hb : isLineBreak b = true)
include hb

/-! ### Comments and continuation -/

omit hb in
/-- A comment ends the line in the piece; without one, the piece is kept. -/
theorem cleanFrom_append {quoted escaped : Bool} {piece clean : Line}
    (h : cleanFrom quoted escaped piece = some clean) :
    (∀ rest, cleanFrom quoted escaped (piece ++ rest) = some clean) ∨
      clean = piece ∧
        ∀ rest, cleanFrom quoted escaped (piece ++ rest) =
          (cleanFrom false false rest).map (piece ++ ·) := by
  induction piece generalizing quoted escaped clean with
  | nil =>
      right
      cases quoted <;> cases escaped <;> cases h
      refine ⟨rfl, fun rest => ?_⟩
      simp
  | cons c piece ih =>
      have hstep : ∀ {quoted' escaped' : Bool},
          (∀ rest, cleanFrom quoted escaped (c :: rest) =
            (cleanFrom quoted' escaped' rest).map (c :: ·)) →
          (∀ rest, cleanFrom quoted escaped (c :: piece ++ rest) = some clean) ∨
            clean = c :: piece ∧ ∀ rest, cleanFrom quoted escaped (c :: piece ++ rest) =
              (cleanFrom false false rest).map (c :: piece ++ ·) := by
        intro quoted' escaped' hnext
        rw [hnext, Option.map_eq_some_iff] at h
        obtain ⟨tail, htail, rfl⟩ := h
        rcases ih htail with hcomment | ⟨rfl, hkept⟩
        · left
          intro rest
          rw [List.cons_append, hnext, hcomment, Option.map_some]
        · right
          refine ⟨rfl, fun rest => ?_⟩
          rw [List.cons_append, hnext, hkept, Option.map_map]
          rfl
      cases escaped with
      | true => exact hstep fun rest => rfl
      | false =>
          by_cases hslash : (quoted && c == '\\') = true
          · exact hstep fun rest => by rw [cleanFrom, if_pos hslash]
          by_cases hquote : (c == '"') = true
          · exact hstep fun rest => by rw [cleanFrom, if_neg hslash, if_pos hquote]
          by_cases hhash : (c == '#' && !quoted) = true
          · left
            intro rest
            rw [cleanFrom, if_neg hslash, if_neg hquote, if_pos hhash] at h
            rw [List.cons_append, cleanFrom, if_neg hslash, if_neg hquote, if_pos hhash, h]
          · exact hstep fun rest => by rw [cleanFrom, if_neg hslash, if_neg hquote, if_neg hhash]

omit hb in
theorem cleanFrom_sublist {quoted escaped : Bool} {line clean : Line}
    (h : cleanFrom quoted escaped line = some clean) : clean.Sublist line := by
  fun_induction cleanFrom quoted escaped line generalizing clean with
  | case1 => cases h
  | case2 =>
      cases h
      exact List.Sublist.slnil
  | case3 quoted c rest ih =>
      obtain ⟨tail, htail, rfl⟩ := Option.map_eq_some_iff.mp h
      exact (ih htail).cons_cons c
  | case4 quoted c rest _ ih =>
      obtain ⟨tail, htail, rfl⟩ := Option.map_eq_some_iff.mp h
      exact (ih htail).cons_cons c
  | case5 quoted c rest _ _ ih =>
      obtain ⟨tail, htail, rfl⟩ := Option.map_eq_some_iff.mp h
      exact (ih htail).cons_cons c
  | case6 =>
      cases h
      exact List.nil_sublist _
  | case7 quoted c rest _ _ _ ih =>
      obtain ⟨tail, htail, rfl⟩ := Option.map_eq_some_iff.mp h
      exact (ih htail).cons_cons c

theorem cleanFrom_break (rest : Line) :
    cleanFrom false false (b :: rest) = (cleanFrom false false rest).map (b :: ·) := by
  have hquote := ne_of_isLineBreak (d := '"') hb rfl
  have hhash := ne_of_isLineBreak (d := '#') hb rfl
  simp [cleanFrom, hquote, hhash]

theorem isContinued_append (piece : Line) {rest : Line} (hrest : isContinued rest = false) :
    isContinued (piece ++ b :: rest) = false := by
  unfold isContinued at hrest ⊢
  rw [List.reverse_append, List.reverse_cons, List.append_assoc, List.dropWhile_append]
  split
  · rw [List.singleton_append, List.dropWhile_cons_of_neg (by simp [isIndent_of_isLineBreak hb])]
    have hslash := ne_of_isLineBreak (d := '\\') hb rfl
    simpa using hslash
  · next hsome =>
      rw [List.head?_append_of_ne_nil _ (by simpa using hsome)]
      exact hrest

/-! ### Tokens -/

omit hb in
theorem lex_quoted {c : Char} (hc : c ≠ '\\') (decoded rest : Line) :
    lex (.quoted decoded) (c :: rest) =
      if c == '"' then
        if endsQuoted rest then (lex .between rest).map (decoded :: ·)
        else .error (.runtimeConfigUnsafe "Maddy config contains an ambiguous quoted token")
      else lex (.quoted (decoded ++ [c])) rest := by
  rw [lex]
  · exact fun heq _ => hc heq
  · exact fun _ _ heq _ => hc heq

omit hb in
/-- A step that puts tokens in front of those of the rest. -/
theorem map_front (front : List Line) {read longer behind : Except Refusal (List Line)}
    {tokens : List Line}
    (ih : ∀ {tokens}, read = .ok tokens → longer = behind.map (tokens ++ ·))
    (h : read.map (front ++ ·) = .ok tokens) :
    longer.map (front ++ ·) = behind.map (tokens ++ ·) := by
  cases read with
  | error e => cases h
  | ok read =>
      cases h
      rw [ih rfl]
      cases behind with
      | error e => rfl
      | ok behind => simp [Except.map]

/-- The tokens before a break, and the tokens behind it. -/
theorem lex_append {state : LexState} {piece : Line} {tokens : List Line}
    (h : lex state piece = .ok tokens) (rest : Line) :
    lex state (piece ++ b :: rest) = (lex .between rest).map (tokens ++ ·) := by
  have hspace := isSpace_of_isLineBreak hb
  fun_induction lex state piece generalizing tokens with
  | case1 =>
      cases h
      rw [List.nil_append, lex, if_pos hspace]
      cases lex .between rest <;> rfl
  | case2 c piece hc ih => rw [List.cons_append, lex, if_pos hc, ih h]
  | case3 c piece hc hbrace ih =>
      rw [List.cons_append, lex, if_neg hc, if_pos hbrace]
      exact map_front [[c]] ih h
  | case4 => cases h
  | case5 c piece hc hbrace hsingle hquote ih =>
      rw [List.cons_append, lex, if_neg hc, if_neg hbrace, if_neg hsingle, if_pos hquote, ih h]
  | case6 c piece hc hbrace hsingle hquote ih =>
      rw [List.cons_append, lex, if_neg hc, if_neg hbrace, if_neg hsingle, if_neg hquote, ih h]
  | case7 token =>
      cases h
      rw [List.nil_append, lex, if_pos hspace]
      rfl
  | case8 token c piece hc ih =>
      rw [List.cons_append, lex, if_pos hc]
      exact map_front [token] ih h
  | case9 token c piece hc hbrace ih =>
      rw [List.cons_append, lex, if_neg hc, if_pos hbrace]
      exact map_front [token, [c]] ih h
  | case10 token c piece hc hbrace ih =>
      rw [List.cons_append, lex, if_neg hc, if_neg hbrace, ih h]
  | case11 => cases h
  | case12 => cases h
  | case13 decoded c piece ih => rw [List.cons_append, List.cons_append, lex, ih h]
  | case14 decoded c piece _ _ hquote hends ih =>
      have hc : c ≠ '\\' := by
        rintro rfl
        cases hquote
      have hends' : endsQuoted (piece ++ b :: rest) = true := by
        cases piece with
        | nil => simp [endsQuoted, hspace]
        | cons d piece => exact hends
      rw [List.cons_append, lex_quoted hc, if_pos hquote, if_pos hends']
      exact map_front [decoded] ih h
  | case15 => cases h
  | case16 decoded c piece hnil hcons hquote ih =>
      have hc : c ≠ '\\' := by
        intro heq
        cases piece with
        | nil => exact hnil heq rfl
        | cons d piece => exact hcons d piece heq rfl
      rw [List.cons_append, lex_quoted hc, if_neg hquote, ih h]

omit hb in
theorem lexLine_ok_iff {rawLine clean : Line} {tokens : List Line} :
    lexLine rawLine = .ok (clean, tokens) ↔
      cleanFrom false false rawLine = some clean ∧ isContinued clean = false ∧
        lex .between clean = .ok tokens := by
  constructor
  · intro h
    unfold lexLine at h
    split at h
    · cases h
    next line hline =>
    split at h
    · cases h
    next hcontinued =>
    cases hlex : lex .between line with
    | error e =>
        rw [hlex] at h
        cases h
    | ok ts =>
        rw [hlex] at h
        cases h
        exact ⟨hline, Bool.eq_false_iff.mpr hcontinued, hlex⟩
  · rintro ⟨hclean, hcontinued, hlex⟩
    unfold lexLine
    rw [hclean]
    show (if isContinued clean = true then _ else _) = _
    rw [if_neg (by simp [hcontinued]), hlex]
    rfl

/-- Either a comment in the piece ends the line, or the line goes on behind the break. -/
theorem lexLine_append {piece clean rest clean' : Line} {tokens tokens' : List Line}
    (hpiece : lexLine piece = .ok (clean, tokens)) (hrest : lexLine rest = .ok (clean', tokens')) :
    lexLine (piece ++ b :: rest) = .ok (clean, tokens) ∨
      lexLine (piece ++ b :: rest) = .ok (clean ++ b :: clean', tokens ++ tokens') := by
  obtain ⟨hclean, hcontinued, hlex⟩ := lexLine_ok_iff.mp hpiece
  obtain ⟨hclean', hcontinued', hlex'⟩ := lexLine_ok_iff.mp hrest
  rcases cleanFrom_append hclean with hcomment | ⟨rfl, hkept⟩
  · exact Or.inl (lexLine_ok_iff.mpr ⟨hcomment _, hcontinued, hlex⟩)
  · refine Or.inr (lexLine_ok_iff.mpr ⟨?_, isContinued_append hb clean hcontinued', ?_⟩)
    · rw [hkept, cleanFrom_break hb, hclean']
      rfl
    · rw [lex_append hb hlex, hlex']
      rfl

/-! ### Macros -/

theorem span_append_break (name rest : List Char) :
    (name ++ b :: rest).takeWhile isNameChar = name.takeWhile isNameChar ∧
      (name ++ b :: rest).dropWhile isNameChar = name.dropWhile isNameChar ++ b :: rest := by
  have hname : ¬isNameChar b = true := by simp [(not_isNameChar_of_isLineBreak hb).1]
  induction name with
  | nil => exact ⟨List.takeWhile_cons_of_neg hname, List.dropWhile_cons_of_neg hname⟩
  | cons c name ih =>
      by_cases hc : isNameChar c = true
      · simp only [List.cons_append, List.takeWhile_cons_of_pos hc, List.dropWhile_cons_of_pos hc,
          ih, and_self]
      · simp only [List.cons_append, List.takeWhile_cons_of_neg hc, List.dropWhile_cons_of_neg hc,
          and_self]

omit hb in
theorem macroAt_cons (c : Char) (rest : List Char) : macroAt ('$' :: '(' :: c :: rest) =
    if isNameStart c && (rest.takeWhile isNameChar).length ≤ 127 then
      afterParenthesis (rest.dropWhile isNameChar)
    else none := rfl

omit hb in
theorem macroAt_of_ne {c d : Char} (h : ¬(c = '$' ∧ d = '(')) (rest : List Char) :
    macroAt (c :: d :: rest) = none := by
  rw [macroAt]
  rintro x after heq
  cases heq
  exact h ⟨rfl, rfl⟩

omit hb in
theorem macroAt_short {text : List Char} (h : text.length < 3) : macroAt text = none := by
  rw [macroAt]
  rintro x after rfl
  simp only [List.length_cons] at h
  omega

theorem afterParenthesis_append (piece rest : List Char) :
    afterParenthesis (piece ++ b :: rest) = (afterParenthesis piece).map (· ++ b :: rest) := by
  have hclose := ne_of_isLineBreak (d := ')') hb rfl
  cases piece with
  | nil => simp [afterParenthesis, hclose]
  | cons c piece =>
      by_cases hc : c = ')'
      · simp [afterParenthesis, hc]
      · simp [afterParenthesis, hc]

/-- No reference goes over a break. -/
theorem macroAt_append (piece rest : List Char) :
    macroAt (piece ++ b :: rest) = (macroAt piece).map (· ++ b :: rest) := by
  have hstart := (not_isNameChar_of_isLineBreak hb).2
  have hdollar := ne_of_isLineBreak (d := '$') hb rfl
  have hopen := ne_of_isLineBreak (d := '(') hb rfl
  match piece with
  | [] =>
      rw [List.nil_append, macroAt]
      · rfl
      · rintro c after ⟨⟩
        exact hdollar rfl
  | [c] =>
      rw [macroAt_short (by simp : [c].length < 3)]
      exact macroAt_of_ne (fun h => hopen h.2) rest
  | [c, d] =>
      rw [macroAt_short (by simp : [c, d].length < 3)]
      by_cases h : c = '$' ∧ d = '('
      · obtain ⟨rfl, rfl⟩ := h
        show macroAt ('$' :: '(' :: b :: rest) = none
        rw [macroAt_cons, hstart]
        rfl
      · exact macroAt_of_ne h (b :: rest)
  | c :: d :: e :: name =>
      by_cases h : c = '$' ∧ d = '('
      · obtain ⟨rfl, rfl⟩ := h
        have hspan := span_append_break hb name rest
        show macroAt ('$' :: '(' :: e :: (name ++ b :: rest)) = _
        rw [macroAt_cons, macroAt_cons, hspan.1, hspan.2, afterParenthesis_append hb]
        split
        · rfl
        · rfl
      · rw [macroAt_of_ne h]
        exact macroAt_of_ne h _

omit hb in
/-- A match is not empty. -/
theorem length_macroAt {c : Char} {rest after : List Char} (h : macroAt (c :: rest) = some after) :
    after.length ≤ rest.length := by
  unfold macroAt at h
  split at h
  · next d name heq =>
      cases heq
      split at h
      · have hname := (List.dropWhile_sublist isNameChar (l := name)).length_le
        cases hdrop : name.dropWhile isNameChar with
        | nil =>
            rw [hdrop] at h
            cases h
        | cons x tail =>
            rw [hdrop, afterParenthesis] at h
            split at h
            · cases h
              rw [hdrop, List.length_cons] at hname
              simp only [List.length_cons]
              omega
            · cases h
      · cases h
  · cases h

theorem subMacros_append {skip : Nat} {piece : List Char} (hskip : skip ≤ piece.length)
    (rest : List Char) :
    subMacros skip (piece ++ b :: rest) = subMacros skip piece ++ b :: subMacros 0 rest := by
  have hnone : macroAt (b :: rest) = none := macroAt_append hb [] rest
  induction piece generalizing skip with
  | nil =>
      have hzero : skip = 0 := Nat.le_zero.mp hskip
      subst hzero
      show subMacros 0 (b :: rest) = b :: subMacros 0 rest
      rw [subMacros, hnone]
  | cons c piece ih =>
      cases skip with
      | succ skip => exact ih (Nat.le_of_succ_le_succ hskip)
      | zero =>
          have hmatch := macroAt_append hb (c :: piece) rest
          rw [List.cons_append] at hmatch
          rw [List.cons_append, subMacros, subMacros, hmatch]
          cases hafter : macroAt (c :: piece) with
          | none =>
              show c :: subMacros 0 (piece ++ b :: rest) = c :: subMacros 0 piece ++ _
              rw [ih (Nat.zero_le _)]
              rfl
          | some after =>
              have hlength := length_macroAt hafter
              have hsame : (piece ++ b :: rest).length - (after ++ b :: rest).length =
                  piece.length - after.length := by
                rw [List.length_append, List.length_append]
                omega
              show subMacros ((piece ++ b :: rest).length - (after ++ b :: rest).length) _ =
                subMacros (piece.length - after.length) piece ++ _
              rw [hsame, ih (Nat.sub_le _ _)]

theorem hasStrayMacro_append (piece rest : Line) :
    hasStrayMacro (piece ++ b :: rest) = (hasStrayMacro piece || hasStrayMacro rest) := by
  have hmark : b ∉ "$(".toList := by
    have hdollar := ne_of_isLineBreak (d := '$') hb rfl
    have hopen := ne_of_isLineBreak (d := '(') hb rfl
    simp [hdollar, hopen]
  unfold hasStrayMacro
  rw [subMacros_append hb (Nat.zero_le _), hasSubstring_append_cons hmark (by decide)]

end Break

end MaddyWeb.Maddy.ConfigGate
