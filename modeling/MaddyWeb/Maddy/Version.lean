import MaddyWeb.Library.Decimal
import MaddyWeb.Library.Text
import MaddyWeb.Library.Fallible
import Mathlib.Data.List.Basic

/-!
# Versions of Maddy

`SemVer.parse`, `SemVer.__str__` and the comparison behind the supported-version gate.  `int`
refuses a text of more digits than `sys.get_int_max_str_digits` allows.
-/

namespace MaddyWeb.Maddy.Version

open MaddyWeb.Library
open MaddyWeb.Library.Text

/-- `sys.get_int_max_str_digits()` -/
def maxStrDigits : Nat := 4300

inductive VersionError
  | versionParse (message : String)
  | unsupported (message : String)
  | value
  deriving DecidableEq, Repr

/-- `unicodedata.decimal`, which `\d` and `int` go by. -/
structure UnicodeDigits where
  decimal : Char → Option Nat
  ascii : ∀ c, c.toNat < 0x80 →
    decimal c = if Decimal.isDigit c then some (c.toNat - 0x30) else none
  lt_ten : ∀ c d, decimal c = some d → d < 10

/-- `SemVer` -/
structure SemVer where
  major : Nat
  minor : Nat
  patch : Nat
  prerelease : List (List Char)
  build : List (List Char)
  deriving DecidableEq, Repr

/-- `==`, which leaves `build` out. -/
def SemVer.equals (v w : SemVer) : Bool :=
  v.major == w.major && v.minor == w.minor && v.patch == w.patch && v.prerelease == w.prerelease

/-- `identifier.isdigit()` of an ASCII identifier. -/
def isNumeric (identifier : List Char) : Bool :=
  !identifier.isEmpty && identifier.all Decimal.isDigit

/-! ## Parsing -/

/-- `0|[1-9]\d*` -/
def isCoreNumeral (digits : UnicodeDigits) : List Char → Bool
  | [] => false
  | c :: rest =>
      (c == '0' && rest.isEmpty) ||
        (0x31 ≤ c.toNat && c.toNat ≤ 0x39 && rest.all fun d => (digits.decimal d).isSome)

def isIdentifierChar (c : Char) : Bool := c.isAlphanum || c == '-'

/-- `[0-9A-Za-z-]+(?:\.[0-9A-Za-z-]+)*`, split at the dots. -/
def identifiers (text : List Char) : Option (List (List Char)) :=
  let parts := split ['.'] text
  if parts.all fun part => !part.isEmpty && part.all isIdentifierChar then some parts else none

def optionalIdentifiers : Option (List Char) → Option (List (List Char))
  | none => some []
  | some text => identifiers text

/-- The groups of `_SEMVER_RE`. -/
structure Groups where
  major : List Char
  minor : List Char
  patch : List Char
  prerelease : List (List Char)
  build : List (List Char)

/-- `(?:v)?` -/
def dropPrefix : List Char → List Char
  | 'v' :: rest => rest
  | text => text

/-- The text before the separator, and the text after it. -/
def cut (c : Char) (text : List Char) : List Char × Option (List Char) :=
  match partition [c] text with
  | none => (text, none)
  | some (before, after) => (before, some after)

/-- `_SEMVER_RE.fullmatch`: neither the core nor a prerelease has a plus, and the core has no
hyphen, so that the first of each is the separator. -/
def fullmatch (digits : UnicodeDigits) (text : List Char) : Option Groups :=
  let (left, build) := cut '+' (dropPrefix text)
  let (core, prerelease) := cut '-' left
  match split ['.'] core, optionalIdentifiers prerelease, optionalIdentifiers build with
  | [major, minor, patch], some prerelease, some build =>
      if [major, minor, patch].all (isCoreNumeral digits) then
        some ⟨major, minor, patch, prerelease, build⟩
      else none
  | _, _, _ => none

/-- `int(text)` of decimal digits. -/
def int (digits : UnicodeDigits) (text : List Char) : Except VersionError Nat :=
  if maxStrDigits < text.length then .error .value
  else .ok (text.foldl (fun v c => 10 * v + (digits.decimal c).getD 0) 0)

def leadingZero (identifier : List Char) : Bool :=
  isNumeric identifier && 1 < identifier.length && identifier.head? == some '0'

/-- `SemVer.parse` -/
def parse (digits : UnicodeDigits) (value : List Char) : Except VersionError SemVer :=
  match fullmatch digits (strStrip value) with
  | none => .error (.versionParse "Maddy version is not valid SemVer")
  | some groups =>
      if groups.prerelease.any leadingZero then
        .error (.versionParse "numeric prerelease identifiers cannot have leading zeroes")
      else do
        let major ← int digits groups.major
        let minor ← int digits groups.minor
        let patch ← int digits groups.patch
        return ⟨major, minor, patch, groups.prerelease, groups.build⟩

/-- `SemVer.__str__` -/
def SemVer.str (v : SemVer) : List Char :=
  List.intercalate ['.'] [Decimal.digits v.major, Decimal.digits v.minor, Decimal.digits v.patch] ++
    (if v.prerelease = [] then [] else '-' :: List.intercalate ['.'] v.prerelease) ++
    if v.build = [] then [] else '+' :: List.intercalate ['.'] v.build

/-! ## Comparing -/

/-- The loop over the prerelease identifiers, and the comparison of the lengths after it. -/
def prereleaseLt (digits : UnicodeDigits) :
    List (List Char) → List (List Char) → Except VersionError Bool
  | own :: rest, theirs :: rest' =>
      if own = theirs then prereleaseLt digits rest rest'
      else if isNumeric own && isNumeric theirs then do
        let a ← int digits own
        let b ← int digits theirs
        return a < b
      else if isNumeric own != isNumeric theirs then .ok (isNumeric own)
      else .ok (own < theirs)
  | [], _ :: _ => .ok true
  | _, [] => .ok false

/-- `SemVer.__lt__` -/
def SemVer.lt (digits : UnicodeDigits) (v w : SemVer) : Except VersionError Bool :=
  if (v.major, v.minor, v.patch) ≠ (w.major, w.minor, w.patch) then
    .ok (v.major < w.major || v.major == w.major &&
      (v.minor < w.minor || v.minor == w.minor && v.patch < w.patch))
  else if v.prerelease = [] then .ok (w.prerelease ≠ [])
  else if w.prerelease = [] then .ok true
  else prereleaseLt digits v.prerelease w.prerelease

/-- `__le__` of `total_ordering` -/
def SemVer.le (digits : UnicodeDigits) (v w : SemVer) : Except VersionError Bool := do
  let less ← v.lt digits w
  return less || v.equals w

/-- `__ge__` of `total_ordering` -/
def SemVer.ge (digits : UnicodeDigits) (v w : SemVer) : Except VersionError Bool := do
  let less ← v.lt digits w
  return !less

/-! ## The supported versions -/

def minSupportedVersion : SemVer := ⟨0, 8, 2, [], []⟩

def maxSupportedVersion : SemVer := ⟨0, 9, 5, [], []⟩

def testedReleases : List SemVer :=
  minSupportedVersion :: ([0, 1, 2, 3, 4].map fun patch => ⟨0, 9, patch, [], []⟩) ++
    [maxSupportedVersion]

/-- `require_supported_version` -/
def requireSupportedVersion (digits : UnicodeDigits) (knownRelease : Bool) (version : SemVer) :
    Except VersionError SemVer := do
  let text := String.ofList version.str
  if version.prerelease ≠ [] then
    throw (.unsupported ("prerelease Maddy build " ++ text ++ " is not supported"))
  if version.build ≠ [] then
    throw (.unsupported ("Maddy build metadata is not an exact tested release: " ++ text))
  let above ← minSupportedVersion.le digits version
  let within ← if above then version.le digits maxSupportedVersion else .ok false
  if !within then
    throw (.unsupported ("Maddy " ++ text ++ " is outside " ++
      String.ofList minSupportedVersion.str ++ ".." ++ String.ofList maxSupportedVersion.str))
  if knownRelease && !testedReleases.any (·.equals version) then
    throw (.unsupported ("Maddy " ++ text ++ " is not a tested upstream release"))
  return version

/-- `capabilities_for` reads the capabilities off the first release that has each. -/
def capabilitySince : List (SemVer × List String) :=
  [(⟨0, 9, 0, [], []⟩, ["zero_downtime_reload", "verify_config"]),
    (⟨0, 9, 3, [], []⟩, ["ldap_auth_safe"]),
    (⟨0, 9, 4, [], []⟩, ["explicit_cli_lifecycle"])]

def baseCapabilities : List String :=
  ["diagnostics", "account_admin", "mailbox_admin", "message_admin", "certificate_file_admin",
    "tls_reload"]

/-- `capabilities_for` -/
def capabilitiesFor (digits : UnicodeDigits) (version : SemVer) :
    Except VersionError (List String) := do
  let version ← requireSupportedVersion digits true version
  let later ← capabilitySince.mapM fun (release, names) => do
    return if ← version.ge digits release then names else []
  return baseCapabilities ++ later.flatten

end MaddyWeb.Maddy.Version
