import MaddyWeb.Library.Fallible
import MaddyWeb.Maddy.ConfigLines
import MaddyWeb.Maddy.Precedence

/-!
# Line separators and the gate

The gate accepts a text when each of its lines passes the rules for lines and the blocks close.
With `str.splitlines` the lines are shorter than Maddy's, so a rule about what stands together on a
line can pass where the whole line breaks it.
-/

namespace MaddyWeb.Maddy.ConfigGate

open MaddyWeb.Library MaddyWeb.Library.Text MaddyWeb.Maddy.Version

/-! ## The rules -/

/-- The line without its comment. -/
def cleanOf (line : Line) : Line :=
  match lexLine line with
  | .ok (clean, _) => clean
  | .error _ => []

def tokensOf (line : Line) : List Line :=
  match lexLine line with
  | .ok (_, tokens) => tokens
  | .error _ => []

/-- No quotation is left open, nothing is continued, and the tokens can be told. -/
def Reads (line : Line) : Prop := lexLine line = .ok (cleanOf line, tokensOf line)

/-- An environment placeholder in one of the two official lines. -/
structure Official (mode : DeploymentMode) (line : Line) : Prop where
  docker : mode = .docker
  bare : stripBy isIndent line = stripBy isIndent (cleanOf line)
  official : stripBy isIndent line ∈ officialDockerEnvAssignments

/-- No brace in the value of a macro, and none next to a token on a line with a macro. -/
structure BracesApart (clean : Line) : Prop where
  value : ∀ value ∈ assignment clean, ∀ c ∈ value, isBrace c = false
  standAlone : hasReference clean = true → bracesStandAlone ' ' clean = true

structure LinePasses (mode : DeploymentMode) (legacy : Bool) (line : Line) : Prop where
  reads : Reads line
  noLdap : legacy = true → ∀ token ∈ tokensOf line, token ∉ ldapTokens
  noImport : "import".toList ∉ tokensOf line
  noStray : hasStrayMacro (cleanOf line) = false
  env : hasEnv (cleanOf line) = true → Official mode line
  braces : hasEnv (cleanOf line) = false → BracesApart (cleanOf line)
  context : isUnsafeMacroLine (cleanOf line) = false

/-- The block depth after the lines, which is zero at every line with an environment placeholder. -/
def blockWalk : Nat → List Line → Option Nat
  | depth, [] => some depth
  | depth, clean :: rest =>
    if hasEnv clean then if depth = 0 then blockWalk depth rest else none
    else (blockDepth depth false false clean).bind (blockWalk · rest)

def BlocksClose (lines : List Line) : Prop := blockWalk 0 (lines.map cleanOf) = some 0

/-- `version < SemVer.parse("0.9.3")` -/
def isLegacy (version : SemVer) : Bool :=
  version.major < 0 || version.major == 0 && (version.minor < 9 || version.minor == 9 &&
    (version.patch < 3 || version.patch == 3 && version.prerelease != []))

/-- The configuration matters for this deployment. -/
def Checked (mode : DeploymentMode) (version : SemVer) : Prop :=
  isLegacy version = true ∨ mode = .native

/-! ## What the gate accepts -/

theorem lt_safeLdapVersion (digits : UnicodeDigits) (version : SemVer) :
    version.lt digits safeLdapVersion = .ok (isLegacy version) := by
  unfold SemVer.lt isLegacy safeLdapVersion
  by_cases hcore : (version.major, version.minor, version.patch) = (0, 9, 3)
  · obtain ⟨hmajor, hminor, hpatch⟩ :
      version.major = 0 ∧ version.minor = 9 ∧ version.patch = 3 := by
      simpa using hcore
    by_cases hprerelease : version.prerelease = []
    · simp [hmajor, hminor, hpatch, hprerelease]
    · simp [hmajor, hminor, hpatch, hprerelease]
  · rw [if_pos hcore]
    congr 1
    have hne : ¬(version.major = 0 ∧ version.minor = 9 ∧ version.patch = 3) := by simpa using hcore
    rw [Bool.eq_iff_iff]
    simp only [Bool.or_eq_true, Bool.and_eq_true, decide_eq_true_eq, beq_iff_eq]
    constructor <;> (intro h; omega)

theorem reads_iff {line : Line} :
    Reads line ↔ ∃ clean tokens, lexLine line = .ok (clean, tokens) := by
  constructor
  · exact fun h => ⟨_, _, h⟩
  · rintro ⟨clean, tokens, h⟩
    rw [Reads, cleanOf, tokensOf, h]

theorem eq_of_lexLine {line clean : Line} {tokens : List Line}
    (h : lexLine line = .ok (clean, tokens)) :
    cleanOf line = clean ∧ tokensOf line = tokens := by
  rw [cleanOf, tokensOf, h]
  exact ⟨rfl, rfl⟩

theorem mapM_lexLine {lines : List Line} (h : ∀ line ∈ lines, Reads line) :
    lines.mapM lexLine = .ok (lines.map fun line => (cleanOf line, tokensOf line)) := by
  induction lines with
  | nil => rfl
  | cons line lines ih =>
      have hline : lexLine line = _ := h line List.mem_cons_self
      rw [List.mapM_cons, hline, ih fun l hl => h l (List.mem_cons_of_mem _ hl)]
      rfl

/-- The tokens of all lines, and the lines without comments. -/
theorem configTokensAndText_eq_ok_iff {cut : List Char → List Line} {text uncommented : List Char}
    {tokens : List Line} :
    configTokensAndText cut text = .ok (tokens, uncommented) ↔
      '\ufeff' ∉ text ∧ (∀ line ∈ cut text, Reads line) ∧ tokens = (cut text).flatMap tokensOf ∧
        uncommented = List.intercalate ['\n'] ((cut text).map cleanOf) := by
  unfold configTokensAndText
  by_cases hbom : '\ufeff' ∈ text
  · simp [hbom]
  · rw [if_neg (by simpa using hbom)]
    by_cases hreads : ∀ line ∈ cut text, Reads line
    · rw [mapM_lexLine hreads]
      simp only [Fallible.ok_bind, pure, Except.pure, Except.ok.injEq, Prod.mk.injEq, hbom,
        not_false_eq_true, true_and, List.flatMap_map, List.map_map]
      constructor
      · rintro ⟨rfl, rfl⟩
        exact ⟨hreads, rfl, rfl⟩
      · rintro ⟨-, rfl, rfl⟩
        exact ⟨rfl, rfl⟩
    · constructor
      · intro h
        obtain ⟨lines, hlines, -⟩ := Fallible.bind_eq_ok h
        exfalso
        apply hreads
        intro line hline
        obtain ⟨⟨clean, lineTokens⟩, hok⟩ := Fallible.mapM_ok_of_mem hlines hline
        exact reads_iff.mpr ⟨clean, lineTokens, hok⟩
      · exact fun h => absurd h.2.1 hreads

/-- What the first loop asks of a line. -/
structure Scans (allowOfficial : Bool) (line clean : Line) : Prop where
  noStray : hasStrayMacro clean = false
  env : hasEnv clean = true → allowOfficial = true ∧
    stripBy isIndent line = stripBy isIndent clean ∧
    stripBy isIndent line ∈ officialDockerEnvAssignments
  braces : hasEnv clean = false → BracesApart clean

theorem bracesApart_iff (clean : Line) : BracesApart clean ↔
    (assignment clean).any (·.any isBrace) = false ∧
      (hasReference clean && !bracesStandAlone ' ' clean) = false := by
  constructor
  · intro h
    constructor
    · cases hassign : assignment clean with
      | none => rfl
      | some value =>
          rw [Option.any_some, List.any_eq_false]
          intro c hc
          rw [h.value value hassign c hc]
          exact Bool.false_ne_true
    · cases href : hasReference clean with
      | false => rfl
      | true => rw [h.standAlone href]; rfl
  · rintro ⟨hvalue, halone⟩
    constructor
    · intro value hassign c hc
      rw [hassign, Option.any_some] at hvalue
      exact Bool.eq_false_iff.mpr (List.any_eq_false.mp hvalue c hc)
    · intro href
      simpa [href] using halone

theorem scanLines_eq_ok_iff {allowOfficial : Bool} {pairs : List (Line × Line)} {depth last : Nat} :
    scanLines allowOfficial depth pairs = .ok (some last) ↔
      (∀ pair ∈ pairs, Scans allowOfficial pair.1 pair.2) ∧
        blockWalk depth (pairs.map (·.2)) = some last := by
  induction pairs generalizing depth with
  | nil => simp [scanLines, blockWalk]
  | cons pair pairs ih =>
      obtain ⟨line, clean⟩ := pair
      rw [scanLines, List.map_cons, blockWalk, List.forall_mem_cons]
      cases hstray : hasStrayMacro clean with
      | true =>
          simp only [if_true, Except.ok.injEq, reduceCtorEq, false_iff]
          rintro ⟨⟨hscan, -⟩, -⟩
          rw [hscan.noStray] at hstray
          cases hstray
      | false =>
          rw [if_neg Bool.false_ne_true]
          cases henv : hasEnv clean with
          | true =>
              rw [if_pos rfl, if_pos rfl]
              by_cases hofficial : allowOfficial = true ∧ depth = 0 ∧
                  stripBy isIndent line = stripBy isIndent clean ∧
                  stripBy isIndent line ∈ officialDockerEnvAssignments
              · obtain ⟨hallow, hdepth, hbare, hmem⟩ := hofficial
                have hscan : Scans allowOfficial line clean :=
                  ⟨hstray, fun _ => ⟨hallow, hbare, hmem⟩,
                    fun h => absurd (h.symm.trans henv) Bool.false_ne_true⟩
                rw [if_neg (by simp [hallow, hdepth, ← hbare, hmem]), if_pos hdepth, ih]
                simp only [hscan, true_and]
              · rw [if_pos]
                · simp only [Except.ok.injEq, reduceCtorEq, false_iff]
                  rintro ⟨⟨hscan, -⟩, hwalk⟩
                  have hrule := hscan.env henv
                  split at hwalk
                  · next hdepth => exact hofficial ⟨hrule.1, hdepth, hrule.2⟩
                  · cases hwalk
                · by_contra hcond
                  apply hofficial
                  simpa [and_assoc] using hcond
          | false =>
              rw [if_neg Bool.false_ne_true, if_neg Bool.false_ne_true]
              by_cases hapart : BracesApart clean
              · have hscan : Scans allowOfficial line clean :=
                  ⟨hstray, fun h => absurd (henv.symm.trans h) Bool.false_ne_true, fun _ => hapart⟩
                rw [bracesApart_iff] at hapart
                rw [if_neg (by simp [hapart.1]), if_neg (by simp [hapart.2])]
                cases blockDepth depth false false clean with
                | none => simp
                | some depth' => simp only [ih, hscan, true_and, Option.bind_some]
              · have hscan : ¬Scans allowOfficial line clean := fun h => hapart (h.braces henv)
                rw [bracesApart_iff, not_and_or, Bool.not_eq_false, Bool.not_eq_false] at hapart
                rcases hapart with hvalue | halone
                · simp [hvalue, hscan]
                · rw [if_pos halone]
                  simp [hscan]

/-- Joined at line feeds and split again, the lines are those that were read. -/
theorem legacyDynamicConfigIsUnsafe_eq_ok_iff {cut : List Char → List Line} {text : List Char}
    {allowOfficial : Bool} (hcut : ∀ line ∈ cut text, '\n' ∉ cleanOf line) :
    legacyDynamicConfigIsUnsafe cut text
      (List.intercalate ['\n'] ((cut text).map cleanOf)) allowOfficial =
        .ok false ↔
      (∀ line ∈ cut text, Scans allowOfficial line (cleanOf line) ∧
        isUnsafeMacroLine (cleanOf line) = false) ∧ BlocksClose (cut text) := by
  have hclean : (if cut text = [] then []
      else split ['\n'] (List.intercalate ['\n'] ((cut text).map cleanOf))) =
        (cut text).map cleanOf := by
    split
    · next hnil => rw [hnil, List.map_nil]
    · next hsome =>
        apply split_intercalate (by simpa using hsome)
        intro piece hpiece
        obtain ⟨line, hline, rfl⟩ := List.mem_map.mp hpiece
        exact hcut line hline
  have hzip : (cut text).zip ((cut text).map cleanOf) =
      (cut text).map fun line => (line, cleanOf line) := by
    exact List.map_prod_left_eq_zip.symm
  unfold legacyDynamicConfigIsUnsafe
  simp only [hclean, List.length_map, ne_eq, not_true_eq_false, if_false, hzip]
  have hscan : ∀ last, scanLines allowOfficial 0 ((cut text).map fun line => (line, cleanOf line)) =
      .ok (some last) ↔ (∀ line ∈ cut text, Scans allowOfficial line (cleanOf line)) ∧
        blockWalk 0 ((cut text).map cleanOf) = some last := by
    intro last
    rw [scanLines_eq_ok_iff, List.forall_mem_map, List.map_map]
    rfl
  have hright : ((∀ line ∈ cut text, Scans allowOfficial line (cleanOf line) ∧
        isUnsafeMacroLine (cleanOf line) = false) ∧ BlocksClose (cut text)) ↔
      scanLines allowOfficial 0 ((cut text).map fun line => (line, cleanOf line)) = .ok (some 0) ∧
        ((cut text).map cleanOf).any isUnsafeMacroLine = false := by
    rw [hscan, BlocksClose, forall₂_and, List.any_eq_false, List.forall_mem_map]
    simp only [Bool.not_eq_true]
    tauto
  rw [hright]
  cases scanLines allowOfficial 0 ((cut text).map fun line => (line, cleanOf line)) with
  | error e => exact ⟨nofun, nofun⟩
  | ok found =>
      cases found with
      | none => exact ⟨nofun, nofun⟩
      | some depth =>
          by_cases hdepth : depth = 0
          · subst hdepth
            simp [Fallible.ok_bind, pure, Except.pure]
          · simp [Fallible.ok_bind, hdepth, throw, throwThe, MonadExceptOf.throw]

theorem requireFlags_eq_ok_iff {legacy : Bool} {mode : DeploymentMode} {flags : ConfigFlags} :
    requireFlags legacy mode flags = .ok () ↔
      (legacy = true → flags.legacyConfigHasLdap = false ∧ flags.legacyConfigHasImport = false ∧
        flags.legacyConfigHasUnsafeDynamicConfig = false) ∧
      (mode = .native → flags.legacyConfigHasImport = false ∧ flags.runtimeConfigHasEnv = false ∧
        flags.legacyConfigHasUnsafeDynamicConfig = false) := by
  unfold requireFlags
  rw [Fallible.ensure_bind_eq_ok_iff, Fallible.ensure_bind_eq_ok_iff,
    Fallible.ensure_bind_eq_ok_iff, Fallible.ensure_bind_eq_ok_iff, Fallible.ensure_eq_ok_iff]
  simp only [Bool.and_eq_true, Bool.or_eq_true, beq_iff_eq, not_and, not_or, Bool.not_eq_true]
  tauto

theorem hasEnv_intercalate {lines : List Line} (h : ∀ line ∈ lines, hasEnv line = false) :
    hasEnv (List.intercalate ['\n'] lines) = false := by
  induction lines with
  | nil => rfl
  | cons line lines ih =>
      cases lines with
      | nil =>
          rw [List.intercalate_singleton]
          exact h line List.mem_cons_self
      | cons next lines =>
          rw [List.intercalate_cons_cons, List.append_assoc, List.singleton_append, hasEnv,
            hasSubstring_append_cons (by decide) (by decide), Bool.or_eq_false_iff]
          exact ⟨h line List.mem_cons_self, ih fun l hl => h l (List.mem_cons_of_mem _ hl)⟩

theorem not_lf_mem_cleanOf {line : Line} (hreads : Reads line) (hline : '\n' ∉ line) :
    '\n' ∉ cleanOf line :=
  fun hmem => hline ((cleanFrom_sublist (lexLine_ok_iff.mp hreads).1).mem hmem)

/-- A text that the gate lets through, cut into lines. -/
structure Accepted (mode : DeploymentMode) (version : SemVer) (text : List Char)
    (lines : List Line) :
    Prop where
  noBom : '\ufeff' ∉ text
  passes : ∀ line ∈ lines, LinePasses mode (isLegacy version) line
  closes : BlocksClose lines

section Gate

variable {digits : UnicodeDigits} {cut : List Char → List Line} {mode : DeploymentMode}
  {version : SemVer} {text : List Char}

theorem readFlags_eq_ok_iff {flags : ConfigFlags} : readFlags cut mode text = .ok flags ↔
    ∃ unsafeDynamic, '\ufeff' ∉ text ∧ (∀ line ∈ cut text, Reads line) ∧
      legacyDynamicConfigIsUnsafe cut text (List.intercalate ['\n'] ((cut text).map cleanOf))
        (mode == .docker) = .ok unsafeDynamic ∧
      flags = ⟨ldapTokens.any ((cut text).flatMap tokensOf).contains,
        ((cut text).flatMap tokensOf).contains "import".toList,
        hasEnv (List.intercalate ['\n'] ((cut text).map cleanOf)), unsafeDynamic⟩ := by
  constructor
  · intro h
    obtain ⟨⟨tokens, uncommented⟩, hread, h⟩ := Fallible.bind_eq_ok h
    obtain ⟨hbom, hreads, rfl, rfl⟩ := configTokensAndText_eq_ok_iff.mp hread
    obtain ⟨unsafeDynamic, hdynamic, h⟩ := Fallible.bind_eq_ok h
    cases h
    exact ⟨unsafeDynamic, hbom, hreads, hdynamic, rfl⟩
  · rintro ⟨unsafeDynamic, hbom, hreads, hdynamic, rfl⟩
    unfold readFlags
    rw [configTokensAndText_eq_ok_iff.mpr ⟨hbom, hreads, rfl, rfl⟩, Fallible.ok_bind]
    show legacyDynamicConfigIsUnsafe cut text _ _ >>= _ = _
    rw [hdynamic]
    rfl

theorem accepted_iff (hcut : ∀ line ∈ cut text, '\n' ∉ line) :
    Accepted mode version text (cut text) ↔
      '\ufeff' ∉ text ∧ (∀ line ∈ cut text, Reads line) ∧
      (isLegacy version = true → ∀ line ∈ cut text, ∀ token ∈ tokensOf line, token ∉ ldapTokens) ∧
      (∀ line ∈ cut text, "import".toList ∉ tokensOf line) ∧
      legacyDynamicConfigIsUnsafe cut text (List.intercalate ['\n'] ((cut text).map cleanOf))
        (mode == .docker) = .ok false := by
  constructor
  · intro h
    refine ⟨h.noBom, fun line hline => (h.passes line hline).reads,
      fun hlegacy line hline => (h.passes line hline).noLdap hlegacy,
      fun line hline => (h.passes line hline).noImport, ?_⟩
    rw [legacyDynamicConfigIsUnsafe_eq_ok_iff fun line hline =>
      not_lf_mem_cleanOf (h.passes line hline).reads (hcut line hline)]
    refine ⟨fun line hline => ?_, h.closes⟩
    have hpass := h.passes line hline
    refine ⟨⟨hpass.noStray, fun henv => ?_, hpass.braces⟩, hpass.context⟩
    have hofficial := hpass.env henv
    exact ⟨beq_iff_eq.mpr hofficial.docker, hofficial.bare, hofficial.official⟩
  · rintro ⟨hbom, hreads, hldap, himport, hdynamic⟩
    rw [legacyDynamicConfigIsUnsafe_eq_ok_iff fun line hline =>
      not_lf_mem_cleanOf (hreads line hline) (hcut line hline)] at hdynamic
    refine ⟨hbom, fun line hline => ?_, hdynamic.2⟩
    have hscan := (hdynamic.1 line hline).1
    refine ⟨hreads line hline, fun hlegacy => hldap hlegacy line hline, himport line hline,
      hscan.noStray, fun henv => ?_, hscan.braces, (hdynamic.1 line hline).2⟩
    obtain ⟨hdocker, hbare, hmem⟩ := hscan.env henv
    exact ⟨beq_iff_eq.mp hdocker, hbare, hmem⟩

theorem contains_tokens_eq_false {token : Line} :
    ((cut text).flatMap tokensOf).contains token = false ↔
    ∀ line ∈ cut text, token ∉ tokensOf line := by
  rw [Bool.eq_false_iff, ne_eq, List.contains_iff_mem, List.mem_flatMap]
  simp

/-- The gate lets a text through when it does not check it, or when its lines pass. -/
theorem ensureLegacyAuthSafe_eq_ok_iff (hcut : ∀ line ∈ cut text, '\n' ∉ line) :
    ensureLegacyAuthSafe digits cut mode version text = .ok () ↔
      ¬Checked mode version ∨ Accepted mode version text (cut text) := by
  unfold ensureLegacyAuthSafe
  rw [lt_safeLdapVersion]
  show (if (!isLegacy version && mode == .docker) = true then (.ok () : Except Refusal Unit)
    else readFlags cut mode text >>= requireFlags (isLegacy version) mode) = _ ↔ _
  have hskip : (!isLegacy version && mode == .docker) = true ↔ ¬Checked mode version := by
    unfold Checked
    cases isLegacy version <;> cases mode <;> simp
  by_cases hchecked : Checked mode version
  · rw [if_neg (by rw [hskip]; exact not_not_intro hchecked), or_iff_right (not_not_intro hchecked)]
    constructor
    · intro h
      obtain ⟨flags, hread, hrequire⟩ := Fallible.bind_eq_ok h
      obtain ⟨unsafeDynamic, hbom, hreads, hdynamic, rfl⟩ := readFlags_eq_ok_iff.mp hread
      obtain ⟨hlegacy, hnative⟩ := requireFlags_eq_ok_iff.mp hrequire
      have hsafe : ((cut text).flatMap tokensOf).contains "import".toList = false ∧
          unsafeDynamic = false := by
        rcases hchecked with hold | hmode
        · exact (hlegacy hold).2
        · exact ⟨(hnative hmode).1, (hnative hmode).2.2⟩
      rw [hsafe.2] at hdynamic
      rw [accepted_iff hcut]
      refine ⟨hbom, hreads, fun hold line hline token htoken hmem => ?_,
        contains_tokens_eq_false.mp hsafe.1, hdynamic⟩
      have hnone := List.any_eq_false.mp (hlegacy hold).1 token hmem
      rw [Bool.not_eq_true, contains_tokens_eq_false] at hnone
      exact hnone line hline htoken
    · intro h
      obtain ⟨hbom, hreads, hldap, himport, hdynamic⟩ := (accepted_iff hcut).mp h
      have hnoImport := contains_tokens_eq_false.mpr himport
      rw [readFlags_eq_ok_iff.mpr ⟨false, hbom, hreads, hdynamic, rfl⟩, Fallible.ok_bind,
        requireFlags_eq_ok_iff]
      refine ⟨fun hold => ⟨?_, hnoImport, rfl⟩, fun hmode => ⟨hnoImport, ?_, rfl⟩⟩
      · rw [List.any_eq_false]
        intro token htoken
        rw [Bool.not_eq_true, contains_tokens_eq_false]
        exact fun line hline hmem => hldap hold line hline token hmem htoken
      · -- a native configuration has no official line
        apply hasEnv_intercalate
        intro clean hclean
        obtain ⟨line, hline, rfl⟩ := List.mem_map.mp hclean
        rw [Bool.eq_false_iff]
        intro henv
        have hdocker := ((h.passes line hline).env henv).docker
        rw [hmode] at hdocker
        cases hdocker
  · rw [if_pos (hskip.mpr hchecked)]
    exact ⟨fun _ => Or.inl hchecked, fun _ => rfl⟩

end Gate

/-! ## Lines and their pieces -/

/-- Pieces that can be read make a line that can be read, with no token of its own. -/
theorem reads_of_cuts {line : Line} {pieces : List Line} (h : Cuts line pieces)
    (hreads : ∀ piece ∈ pieces, Reads piece) :
    Reads line ∧ (∀ token ∈ tokensOf line, ∃ piece ∈ pieces, token ∈ tokensOf piece) ∧
      ((∀ piece ∈ pieces, hasStrayMacro (cleanOf piece) = false) →
        hasStrayMacro (cleanOf line) = false) := by
  induction h with
  | nil =>
      have hempty : lexLine [] = .ok ([], []) := rfl
      obtain ⟨hclean, htokens⟩ := eq_of_lexLine hempty
      rw [htokens, hclean]
      exact ⟨reads_iff.mpr ⟨_, _, hempty⟩, nofun, fun _ => rfl⟩
  | @last piece _ =>
      have hmem := List.mem_singleton_self piece
      exact ⟨hreads piece hmem, fun token htoken => ⟨piece, hmem, htoken⟩,
        fun hstray => hstray piece hmem⟩
  | @cut piece rest b pieces _ hb _ _ ih =>
      obtain ⟨hrest, htokens, hstray⟩ := ih fun p hp => hreads p (List.mem_cons_of_mem _ hp)
      have hpiece := hreads piece List.mem_cons_self
      rcases lexLine_append hb hpiece hrest with hline | hline
      · obtain ⟨hclean', htokens'⟩ := eq_of_lexLine hline
        rw [htokens', hclean']
        refine ⟨reads_iff.mpr ⟨_, _, hline⟩, fun token htoken => ?_, fun hnone => ?_⟩
        · exact ⟨piece, List.mem_cons_self, htoken⟩
        · exact hnone piece List.mem_cons_self
      · obtain ⟨hclean', htokens'⟩ := eq_of_lexLine hline
        rw [htokens', hclean']
        refine ⟨reads_iff.mpr ⟨_, _, hline⟩, fun token htoken => ?_, fun hnone => ?_⟩
        · rcases List.mem_append.mp htoken with htoken | htoken
          · exact ⟨piece, List.mem_cons_self, htoken⟩
          · obtain ⟨p, hp, htoken⟩ := htokens token htoken
            exact ⟨p, List.mem_cons_of_mem _ hp, htoken⟩
        · rw [hasStrayMacro_append hb, hnone piece List.mem_cons_self, Bool.false_or]
          exact hstray fun p hp => hnone p (List.mem_cons_of_mem _ hp)

/-- A line with another separator than the line feed: it is no official line, and the rules about
what stands together hold of all of it. -/
structure PassesWhole (line : Line) : Prop where
  noEnv : hasEnv (cleanOf line) = false
  braces : BracesApart (cleanOf line)
  context : isUnsafeMacroLine (cleanOf line) = false

theorem not_official_of_break {mode : DeploymentMode} {line : Line} (hline : ¬IsPiece line) :
    ¬Official mode line := by
  intro h
  apply hline
  intro c hc
  by_contra hbreak
  rw [Bool.not_eq_false] at hbreak
  have hindent := isIndent_of_isLineBreak hbreak
  have hstrip : c ∈ stripBy isIndent line := by
    rw [stripBy, List.mem_reverse]
    exact mem_dropWhile (List.mem_reverse.mpr (mem_dropWhile hc hindent)) hindent
  have hofficial :
      (officialDockerEnvAssignments.all fun l => l.all fun c => !isLineBreak c) = true := by
    decide
  have hplain := List.all_eq_true.mp (List.all_eq_true.mp hofficial _ h.official) c hstrip
  rw [hbreak] at hplain
  cases hplain

theorem linePasses_nil (mode : DeploymentMode) (legacy : Bool) : LinePasses mode legacy [] := by
  obtain ⟨hclean, htokens⟩ := eq_of_lexLine (rfl : lexLine [] = .ok ([], []))
  refine ⟨reads_iff.mpr ⟨[], [], rfl⟩, ?_, ?_, ?_, ?_, ?_, ?_⟩
  · rw [htokens]
    nofun
  · rw [htokens]
    exact List.not_mem_nil
  · rw [hclean]
    rfl
  · rw [hclean]
    nofun
  · rw [hclean]
    exact fun _ => ⟨nofun, nofun⟩
  · rw [hclean]
    rfl

/-- Nothing hides behind another separator, and the braces that Maddy reads close their blocks. -/
structure NothingHidden (text : List Char) : Prop where
  whole : ∀ line ∈ lfLines text, ¬IsPiece line → PassesWhole line
  closes : BlocksClose (lfLines text)

theorem exists_pieces {text : List Char} {line : Line} (hline : line ∈ lfLines text) :
    ∃ pieces, Cuts line pieces ∧ ∀ piece ∈ pieces, piece ∈ strSplitlines text := by
  obtain ⟨groups, hcuts, hflat⟩ := cuts_lfLines text
  rw [← hflat]
  generalize lfLines text = lines at hcuts hline
  clear hflat
  induction hcuts with
  | nil => cases hline
  | @cons first group lines groups hfirst _ ih =>
      rcases List.mem_cons.mp hline with rfl | hline
      · exact ⟨group, hfirst, fun piece hpiece => List.mem_append_left _ hpiece⟩
      · obtain ⟨pieces, hpieces, hmem⟩ := ih hline
        exact ⟨pieces, hpieces, fun piece hpiece => List.mem_append_right _ (hmem piece hpiece)⟩

theorem not_lf_mem_of_lfLines {text : List Char} {line : Line} (hline : line ∈ lfLines text) :
    '\n' ∉ line := by
  obtain ⟨pieces, hcuts, -⟩ := exists_pieces hline
  exact hcuts.no_lf

theorem not_lf_mem_of_strSplitlines {text : List Char} {line : Line}
    (hline : line ∈ strSplitlines text) :
    '\n' ∉ line := by
  intro hmem
  have hplain := plain_of_mem_splitlinesFrom nofun hline _ hmem
  cases hplain

theorem accepted_lfLines_iff {mode : DeploymentMode} {version : SemVer} {text : List Char}
    (h : Accepted mode version text (strSplitlines text)) :
    Accepted mode version text (lfLines text) ↔ NothingHidden text := by
  constructor
  · intro hlf
    refine ⟨fun line hline hbreak => ?_, hlf.closes⟩
    have hpass := hlf.passes line hline
    have hnoEnv : hasEnv (cleanOf line) = false := by
      rw [Bool.eq_false_iff]
      exact fun henv => not_official_of_break hbreak (hpass.env henv)
    exact ⟨hnoEnv, hpass.braces hnoEnv, hpass.context⟩
  · intro hhidden
    refine ⟨h.noBom, fun line hline => ?_, hhidden.closes⟩
    obtain ⟨pieces, hcuts, hpieces⟩ := exists_pieces hline
    obtain ⟨hreads, htokens, hstray⟩ :=
      reads_of_cuts hcuts fun p hp => (h.passes p (hpieces p hp)).reads
    by_cases hpiece : IsPiece line
    · rcases hcuts.whole hpiece with rfl | rfl
      · exact h.passes line (hpieces line List.mem_cons_self)
      · exact linePasses_nil mode _
    · have hwhole := hhidden.whole line hline hpiece
      refine ⟨hreads, fun hlegacy token htoken => ?_, fun himport => ?_,
        hstray fun p hp => (h.passes p (hpieces p hp)).noStray,
        fun henv => absurd (hwhole.noEnv.symm.trans henv) Bool.false_ne_true,
          fun _ => hwhole.braces,
        hwhole.context⟩
      · obtain ⟨p, hp, htoken⟩ := htokens token htoken
        exact (h.passes p (hpieces p hp)).noLdap hlegacy token htoken
      · obtain ⟨p, hp, himport⟩ := htokens _ himport
        exact (h.passes p (hpieces p hp)).noImport himport

/-! ## The gate with either cut -/

def Refuses (digits : UnicodeDigits) (cut : List Char → List Line) (mode : DeploymentMode)
    (version : SemVer) (text : List Char) : Prop :=
  ∃ refusal, ensureLegacyAuthSafe digits cut mode version text = .error refusal

theorem refuses_iff {digits : UnicodeDigits} {cut : List Char → List Line} {mode : DeploymentMode}
    {version : SemVer} {text : List Char} (hcut : ∀ line ∈ cut text, '\n' ∉ line) :
    Refuses digits cut mode version text ↔
      Checked mode version ∧ ¬Accepted mode version text (cut text) := by
  have hok : ensureLegacyAuthSafe digits cut mode version text = .ok () ↔ _ :=
    ensureLegacyAuthSafe_eq_ok_iff hcut
  rw [← not_not (a := Checked mode version), ← not_or, ← hok, Refuses]
  cases ensureLegacyAuthSafe digits cut mode version text with
  | error refusal => exact ⟨fun _ => nofun, fun _ => ⟨refusal, rfl⟩⟩
  | ok u =>
      constructor
      · rintro ⟨_, ⟨⟩⟩
      · exact fun h => absurd rfl h

/-- What the gate refuses when it reads the lines that end at a line feed, it refuses, exactly when
it does not check the text, refuses it anyway, or nothing hides behind another separator. -/
theorem separators_hide_nothing_iff (digits : UnicodeDigits) (mode : DeploymentMode)
    (version : SemVer)
    (text : List Char) :
    (Refuses digits lfLines mode version text → Refuses digits strSplitlines mode version text) ↔
      ¬Checked mode version ∨ ¬Accepted mode version text (strSplitlines text) ∨
        NothingHidden text := by
  rw [refuses_iff fun line hline => not_lf_mem_of_lfLines hline,
    refuses_iff fun line hline => not_lf_mem_of_strSplitlines hline]
  constructor
  · intro h
    by_contra hnone
    rw [not_or, not_or, not_not, not_not] at hnone
    obtain ⟨hchecked, haccepted, hhides⟩ := hnone
    rw [← accepted_lfLines_iff haccepted] at hhides
    exact (h ⟨hchecked, hhides⟩).2 haccepted
  · rintro h ⟨hchecked, hlf⟩
    refine ⟨hchecked, fun haccepted => ?_⟩
    rcases h with hskip | hrefused | hhidden
    · exact hskip hchecked
    · exact hrefused haccepted
    · exact hlf ((accepted_lfLines_iff haccepted).mpr hhidden)

/-- The vertical tabulator separates the provider from its macro for the gate only. -/
theorem vertical_tab_hides_macro :
    ¬∀ (digits : UnicodeDigits) (mode : DeploymentMode) (version : SemVer) (text : List Char),
      Refuses digits lfLines mode version text →
        Refuses digits strSplitlines mode version text := by
  intro h
  have hlf : Refuses asciiDigits lfLines .docker ⟨0, 8, 2, [], []⟩
      "auth.pass_table \x0b hostname $(hostname)".toList := ⟨_, rfl⟩
  have hstr : ensureLegacyAuthSafe asciiDigits strSplitlines .docker ⟨0, 8, 2, [], []⟩
      "auth.pass_table \x0b hostname $(hostname)".toList = .ok () := rfl
  obtain ⟨refusal, hrefusal⟩ := h _ _ _ _ hlf
  rw [hstr] at hrefusal
  cases hrefusal

end MaddyWeb.Maddy.ConfigGate
