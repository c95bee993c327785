import MaddyWeb.Maddy.Version

/-!
# The gate before configuration writes

What the service accepts of a Maddy configuration before it writes: tokens, macros and environment
placeholders of the text, cut into lines by a function that is a parameter here.  The source cuts
with `str.splitlines`.
-/

namespace MaddyWeb.Maddy.ConfigGate

open MaddyWeb.Library MaddyWeb.Library.Text MaddyWeb.Maddy.Version

abbrev Line : Type := List Char

/-- `DeploymentMode` -/
inductive DeploymentMode
  | native
  | docker
  deriving DecidableEq, Repr

inductive Refusal
  | runtimeConfigUnsafe (message : String)
  | legacyLdapUnsafe (message : String)
  | version (error : VersionError)

def isIndent (c : Char) : Bool := c == ' ' || c == '\t'

def isBrace (c : Char) : Bool := c == '{' || c == '}'

/-! ## `_config_tokens_and_text` -/

/-- The line up to its comment, with `quoted` and `escaped` before it; `none` if one of the two
still holds at the end. -/
def cleanFrom : Bool → Bool → Line → Option Line
  | quoted, escaped, [] => if quoted || escaped then none else some []
  | quoted, true, c :: rest => (cleanFrom quoted false rest).map (c :: ·)
  | quoted, false, c :: rest =>
    if quoted && c == '\\' then (cleanFrom quoted true rest).map (c :: ·)
    else if c == '"' then (cleanFrom (!quoted) false rest).map (c :: ·)
    else if c == '#' && !quoted then some []
    else (cleanFrom quoted false rest).map (c :: ·)

/-- `line.rstrip(" \t").endswith("\\")` -/
def isContinued (line : Line) : Bool := (line.reverse.dropWhile isIndent).head? == some '\\'

inductive LexState
  | between
  | word (token : Line)
  | quoted (decoded : Line)

/-- A quoted token is followed by white space or a brace. -/
def endsQuoted : Line → Bool
  | [] => true
  | c :: _ => isSpace c || isBrace c

/-- The tokens of a line without its comment. -/
def lex : LexState → Line → Except Refusal (List Line)
  | .between, [] => .ok []
  | .between, c :: rest =>
    if isSpace c then lex .between rest
    else if isBrace c then (lex .between rest).map ([c] :: ·)
    else if c == '\'' then
      .error (.runtimeConfigUnsafe "Maddy config contains an unsupported token quote")
    else if c == '"' then lex (.quoted []) rest
    else lex (.word [c]) rest
  | .word token, [] => .ok [token]
  | .word token, c :: rest =>
    if isSpace c then (lex .between rest).map (token :: ·)
    else if isBrace c then (lex .between rest).map fun tokens => token :: [c] :: tokens
    else lex (.word (token ++ [c])) rest
  | .quoted _, [] => .error (.runtimeConfigUnsafe "Maddy config contains an unterminated token")
  | .quoted _, ['\\'] =>
    .error (.runtimeConfigUnsafe "Maddy config contains an unterminated quoted escape")
  | .quoted decoded, '\\' :: c :: rest =>
    lex (.quoted (decoded ++ if c == '"' then ['"'] else ['\\', c])) rest
  | .quoted decoded, c :: rest =>
    if c == '"' then
      if endsQuoted rest then (lex .between rest).map (decoded :: ·)
      else .error (.runtimeConfigUnsafe "Maddy config contains an ambiguous quoted token")
    else lex (.quoted (decoded ++ [c])) rest

/-- One turn of the loop: the line without its comment, and its tokens. -/
def lexLine (rawLine : Line) : Except Refusal (Line × List Line) :=
  match cleanFrom false false rawLine with
  | none => .error (.runtimeConfigUnsafe "Maddy config contains an ambiguous quoted line")
  | some line =>
    if isContinued line then
      .error (.runtimeConfigUnsafe "Maddy config line continuation is unsupported")
    else (lex .between line).map fun tokens => (line, tokens)

/-- `_config_tokens_and_text` -/
def configTokensAndText (cut : List Char → List Line) (configText : List Char) :
    Except Refusal (List Line × List Char) :=
  if configText.contains '\ufeff' then
    .error (.runtimeConfigUnsafe "Maddy config BOM is unsupported")
  else do
    let lines ← (cut configText).mapM lexLine
    return (lines.flatMap (·.2), List.intercalate ['\n'] (lines.map (·.1)))

/-! ## The patterns -/

def isNameStart (c : Char) : Bool := c.isAlpha || c == '_'

def isNameChar (c : Char) : Bool := c.isAlphanum || c == '_' || c == '.' || c == '-'

def afterParenthesis : List Char → Option (List Char)
  | [] => none
  | c :: rest => if c == ')' then some rest else none

/-- What follows a match of `_CONFIG_MACRO_REFERENCE_RE` at the start of the text. -/
def macroAt : List Char → Option (List Char)
  | '$' :: '(' :: c :: rest =>
    if isNameStart c && (rest.takeWhile isNameChar).length ≤ 127 then
      afterParenthesis (rest.dropWhile isNameChar)
    else none
  | _ => none

/-- `_CONFIG_MACRO_REFERENCE_RE.sub("", text)`, with the number of characters of a match that are
still to be skipped. -/
def subMacros : Nat → List Char → List Char
  | _, [] => []
  | skip + 1, _ :: rest => subMacros skip rest
  | 0, c :: rest =>
    match macroAt (c :: rest) with
    | some after => subMacros (rest.length - after.length) rest
    | none => c :: subMacros 0 rest

/-- `_CONFIG_MACRO_REFERENCE_RE.search(text)` -/
def hasReference : List Char → Bool
  | [] => false
  | c :: rest => (macroAt (c :: rest)).isSome || hasReference rest

/-- Group 2 of `_CONFIG_MACRO_ASSIGNMENT_RE.fullmatch(line)` -/
def assignment (line : Line) : Option Line :=
  match macroAt (line.dropWhile isIndent) with
  | none => none
  | some after =>
    match after.dropWhile isIndent with
    | '=' :: value => some (stripBy isIndent value)
    | _ => none

/-- `"|\.|(?=[ \t{=]|\$\(|$)` -/
def endsProvider : List Char → Bool
  | [] => true
  | c :: rest => "\". \t\x7b=".toList.contains c || (c == '$' && rest.head? == some '(')

/-- `(?:auth|pass|user|table|auth_map)`, and what ends it. -/
def providerAt (text : List Char) : Bool :=
  ["auth", "pass", "user", "table", "auth_map"].any fun word =>
    word.toList.isPrefixOf text && endsProvider (text.drop word.length)

/-- `_AUTH_PROVIDER_CONTEXT_RE.search(text)`, with the character before the text. -/
def hasProvider : Option Char → List Char → Bool
  | _, [] => false
  | before, c :: rest =>
    (!before.any isNameChar && (providerAt (c :: rest) || (c == '"' && providerAt rest))) ||
      hasProvider (some c) rest

/-- `[ \t]|$` -/
def endsWord : List Char → Bool
  | [] => true
  | c :: _ => isIndent c

/-- `_SAFE_LEGACY_MACRO_CONTEXT_RE.match(line)` -/
def isSafeContext (line : Line) : Bool :=
  let text := line.dropWhile isIndent
  (["hostname", "entry", "destination", "source", "dkim", "autogenerated_msg_domain"].any
    fun word =>
      word.toList.isPrefixOf text && endsWord (text.drop word.length)) ||
    ("tls".toList.isPrefixOf text && (text.drop 3).head?.any isIndent &&
      "file".toList.isPrefixOf ((text.drop 3).dropWhile isIndent) &&
      endsWord (((text.drop 3).dropWhile isIndent).drop 4))

/-! ## `_legacy_dynamic_config_is_unsafe` -/

/-- `_OFFICIAL_DOCKER_ENV_ASSIGNMENTS` -/
def officialDockerEnvAssignments : List Line :=
  ["$(hostname) = \x7benv:MADDY_HOSTNAME\x7d".toList,
    "$(primary_domain) = \x7benv:MADDY_DOMAIN\x7d".toList]

def hasEnv (line : List Char) : Bool := hasSubstring "\x7benv:".toList line

/-- The macro syntax that is left without the references. -/
def hasStrayMacro (line : Line) : Bool := hasSubstring "$(".toList (subMacros 0 line)

/-- Every brace has white space or a brace on either side, `before` being what is before the
text. -/
def bracesStandAlone : Char → Line → Bool
  | _, [] => true
  | before, c :: rest =>
    (!isBrace c || ((isSpace before || isBrace before) &&
      (isSpace (rest.headD ' ') || isBrace (rest.headD ' ')))) && bracesStandAlone c rest

/-- `block_depth` after the braces of a line that are outside quotations; `none` below zero. -/
def blockDepth : Nat → Bool → Bool → Line → Option Nat
  | depth, _, _, [] => some depth
  | depth, quoted, true, _ :: rest => blockDepth depth quoted false rest
  | depth, quoted, false, c :: rest =>
    if quoted && c == '\\' then blockDepth depth quoted true rest
    else if c == '"' then blockDepth depth (!quoted) false rest
    else if quoted then blockDepth depth quoted false rest
    else if c == '{' then blockDepth (depth + 1) quoted false rest
    else if c == '}' then
      match depth with
      | 0 => none
      | depth + 1 => blockDepth depth quoted false rest
    else blockDepth depth quoted false rest

def blockRefusal : Refusal := .runtimeConfigUnsafe "Maddy config block structure is ambiguous"

/-- The first loop: `none` where it returns `True`, else `block_depth` after the lines. -/
def scanLines (allowOfficial : Bool) : Nat → List (Line × Line) → Except Refusal (Option Nat)
  | depth, [] => .ok (some depth)
  | depth, (rawLine, cleanLine) :: rest =>
    if hasStrayMacro cleanLine then .ok none
    else if hasEnv cleanLine then
      if !allowOfficial || depth != 0 || stripBy isIndent rawLine != stripBy isIndent cleanLine ||
          !officialDockerEnvAssignments.contains (stripBy isIndent rawLine) then .ok none
      else scanLines allowOfficial depth rest
    else if (assignment cleanLine).any (·.any isBrace) then .ok none
    else if hasReference cleanLine && !bracesStandAlone ' ' cleanLine then .ok none
    else
      match blockDepth depth false false cleanLine with
      | none => .error blockRefusal
      | some depth => scanLines allowOfficial depth rest

/-- What the second loop refuses of a line. -/
def isUnsafeMacroLine (line : Line) : Bool :=
  hasReference line && (assignment line).isNone &&
    (line.contains '=' || hasProvider none line || !isSafeContext line)

/-- `_legacy_dynamic_config_is_unsafe` -/
def legacyDynamicConfigIsUnsafe (cut : List Char → List Line)
    (configText uncommentedText : List Char)
    (allowOfficial : Bool) : Except Refusal Bool :=
  let rawLines := cut configText
  let cleanLines := if rawLines = [] then [] else split ['\n'] uncommentedText
  if rawLines.length ≠ cleanLines.length then
    .error (.runtimeConfigUnsafe "Maddy config line structure is ambiguous")
  else do
    match ← scanLines allowOfficial 0 (rawLines.zip cleanLines) with
    | none => return true
    | some depth =>
      if depth ≠ 0 then throw blockRefusal
      else return cleanLines.any isUnsafeMacroLine

/-! ## `_ensure_legacy_auth_safe` -/

/-- `SemVer.parse("0.9.3")` -/
def safeLdapVersion : SemVer := ⟨0, 9, 3, [], []⟩

def ldapTokens : List Line := ["auth.ldap".toList, "table.ldap".toList, "ldap".toList]

/-- What the service keeps of the first configuration that it reads. -/
structure ConfigFlags where
  legacyConfigHasLdap : Bool
  legacyConfigHasImport : Bool
  runtimeConfigHasEnv : Bool
  legacyConfigHasUnsafeDynamicConfig : Bool

def readFlags (cut : List Char → List Line) (mode : DeploymentMode) (configText : List Char) :
    Except Refusal ConfigFlags := do
  let (tokens, uncommented) ← configTokensAndText cut configText
  let unsafeDynamic ← legacyDynamicConfigIsUnsafe cut configText uncommented (mode == .docker)
  return ⟨ldapTokens.any tokens.contains, tokens.contains "import".toList, hasEnv uncommented,
    unsafeDynamic⟩

def requireFlags (legacy : Bool) (mode : DeploymentMode) (flags : ConfigFlags) :
    Except Refusal Unit := do
  Fallible.ensure (¬(legacy && flags.legacyConfigHasLdap))
    (.legacyLdapUnsafe "Maddy versions before 0.9.3 are unsafe with LDAP")
  Fallible.ensure (¬(legacy && flags.legacyConfigHasImport))
    (.legacyLdapUnsafe "Maddy versions before 0.9.3 require an import-free config for writes")
  Fallible.ensure (¬(legacy && flags.legacyConfigHasUnsafeDynamicConfig))
    (.legacyLdapUnsafe "Maddy versions before 0.9.3 require allow-listed static macro contexts")
  Fallible.ensure (¬(mode == .native &&
      (flags.runtimeConfigHasEnv || flags.legacyConfigHasUnsafeDynamicConfig)))
    (.runtimeConfigUnsafe "native Maddy configs using dynamic env or macro contexts are read-only")
  Fallible.ensure (¬(mode == .native && flags.legacyConfigHasImport))
    (.runtimeConfigUnsafe
      "native Maddy configs using imports are read-only without service env parity")

/-- `_ensure_legacy_auth_safe` of a service that has not checked its configuration before. -/
def ensureLegacyAuthSafe (digits : UnicodeDigits) (cut : List Char → List Line)
    (mode : DeploymentMode)
    (version : SemVer) (configText : List Char) : Except Refusal Unit := do
  let legacy ← (version.lt digits safeLdapVersion).mapError .version
  if !legacy && mode == .docker then .ok ()
  else do
    let flags ← readFlags cut mode configText
    requireFlags legacy mode flags

/-! ## The cut at line feeds -/

def dropCr (line : Line) : Line := if line.getLast? = some '\r' then line.dropLast else line

/-- The lines that end at a line feed, each without the carriage return directly before it; `line`
has been read of the first one. -/
def lfLinesFrom : Line → List Char → List Line
  | line, [] => if line.isEmpty then [] else [line]
  | line, c :: rest =>
      if c == '\n' then dropCr line :: lfLinesFrom [] rest else lfLinesFrom (line ++ [c]) rest

def lfLines (text : List Char) : List Line := lfLinesFrom [] text

end MaddyWeb.Maddy.ConfigGate
