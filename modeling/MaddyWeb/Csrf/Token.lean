import MaddyWeb.Library.Base64
import MaddyWeb.Library.Decimal
import MaddyWeb.Library.Text

/-!
# Signed tokens

`new_csrf_token` and `verify_csrf_token`.  A `str` is the list of its code points, lone surrogates
included, and what `int` and `isalnum` make of those outside ASCII is a parameter.
-/

namespace MaddyWeb.Csrf.Token

open MaddyWeb.Library

abbrev Str := List Nat

/-- ASCII text. -/
def codes (text : List Char) : Str := text.map Char.toNat

abbrev dot : Nat := 0x2E

/-- `[0-9A-Za-z]` -/
def isAsciiAlnum (c : Nat) : Bool :=
  (0x30 ≤ c && c ≤ 0x39) || (0x41 ≤ c && c ≤ 0x5A) || (0x61 ≤ c && c ≤ 0x7A)

/-- The character database, which is that of ASCII below 0x80. -/
structure UnicodeTables where
  isalnum : Nat → Bool
  decimal : Nat → Option Nat
  isspace : Nat → Bool
  isalnum_ascii : ∀ c < 0x80, isalnum c = isAsciiAlnum c
  decimal_ascii : ∀ c < 0x80, decimal c = if 0x30 ≤ c ∧ c ≤ 0x39 then some (c - 0x30) else none

inductive PyError
  | value (message : String)
  /-- `UnicodeEncodeError` -/
  | unicodeEncode
  | type
  deriving DecidableEq, Repr

/-! ## `int` and `str.split` -/

section Unicode

variable (tables : UnicodeTables)

/-- The white space that `int` passes over. -/
def isIntSpace (c : Nat) : Bool :=
  c == 0x20 || (0x09 ≤ c && c ≤ 0x0D) || (0x80 ≤ c && tables.isspace c)

/-- Digits, with single underscores between them. -/
def natural (text : Str) : Option Nat :=
  if (Text.split [0x5F] text).all fun piece =>
      !piece.isEmpty && piece.all fun c => (tables.decimal c).isSome then
    some ((text.filter (· != 0x5F)).foldl (fun v c => 10 * v + (tables.decimal c).getD 0) 0)
  else none

/-- `int(text)`, or `none` for `ValueError`. -/
def int (text : Str) : Option Int :=
  match Text.stripBy (isIntSpace tables) text with
  | 0x2D :: rest => (natural tables rest).map fun n : Nat => -(n : Int)
  | 0x2B :: rest => (natural tables rest).map Int.ofNat
  | rest => (natural tables rest).map Int.ofNat

end Unicode

/-- `text.split(sep, maximum)` -/
def splitMax (sep : Nat) : Nat → Str → List Str
  | 0, text => [text]
  | maximum + 1, text =>
      match Text.partition [sep] text with
      | none => [text]
      | some (before, after) => before :: splitMax sep maximum after

/-- `hmac.compare_digest` of two `str` values. -/
def compareDigest (a b : Str) : Except PyError Bool :=
  if a.all (· < 0x80) && b.all (· < 0x80) then .ok (a == b) else .error .type

/-! ## Signatures -/

/-- The alphabet of `base64.urlsafe_b64encode`. -/
def urlsafe (b : UInt8) : UInt8 := if b = 0x2B then 0x2D else if b = 0x2F then 0x5F else b

/-- `_b64encode` -/
def b64encode (value : List UInt8) : Str :=
  (((Base64.encode value).map urlsafe).reverse.dropWhile (· == 0x3D)).reverse.map UInt8.toNat

section Keyed

-- `hmac` is HMAC-SHA256.
variable (hmac : List UInt8 → List UInt8 → List UInt8)

def signature (key : List UInt8) (payload : Str) : Str :=
  b64encode (hmac key (payload.map UInt8.ofNat))

/-- `_csrf_signature` -/
def csrfSignature (key : List UInt8) (payload : Str) : Except PyError Str :=
  if payload.all (· < 0x80) then .ok (signature hmac key payload) else .error .unicodeEncode

/-- `f"v2.{issued_at}.{flow_id}.{nonce}"` -/
def payloadOf (issuedAt : Int) (flowId nonce : Str) : Str :=
  codes "v2".toList ++ dot :: (codes (Decimal.decimal issuedAt) ++ dot :: (flowId ++ dot :: nonce))

variable (tables : UnicodeTables)

def validFlow (flowId : Str) : Bool :=
  16 ≤ flowId.length && flowId.length ≤ 32 &&
    flowId.all fun c => tables.isalnum c || c == 0x5F || c == 0x2D

/-- `new_csrf_token`, with the nonce that is drawn. -/
def newCsrfToken (key : List UInt8) (now : Int) (flowId nonce : Str) : Except PyError Str :=
  if !validFlow tables flowId then .error (.value "CSRF flow identifier is invalid")
  else do
    let payload := payloadOf now flowId nonce
    return payload ++ dot :: (← csrfSignature hmac key payload)

/-- `_contains_forbidden_header_characters` -/
def containsForbiddenHeaderCharacters (value : Str) : Bool :=
  value.any fun c => c < 0x20 || c == 0x7F

structure Fields where
  issuedText : Str
  issuedAt : Int
  flowId : Str
  nonce : Str
  signature : Str
  deriving DecidableEq, Repr

/-- What `verify_csrf_token` checks before it reads the clock. -/
def fields (token : Str) : Option Fields :=
  if 256 < token.length || containsForbiddenHeaderCharacters token then none
  else
    match splitMax dot 4 token with
    | [version, issuedText, flowId, nonce, signature] =>
        match int tables issuedText with
        | none => none
        | some issuedAt =>
            if version != codes "v2".toList || !validFlow tables flowId || nonce.isEmpty ||
                64 < nonce.length then none
            else some ⟨issuedText, issuedAt, flowId, nonce, signature⟩
    | _ => none

def expired (issuedAt now maxAge : Int) : Bool := issuedAt > now + 60 || now - issuedAt > maxAge

/-- `verify_csrf_token`: the nonce, the time of issue and the flow. -/
def verifyCsrfToken (token : Str) (key : List UInt8) (maxAge now : Int) :
    Except PyError (Option (Str × Int × Str)) :=
  match fields tables token with
  | none => .ok none
  | some f =>
      if expired f.issuedAt now maxAge then .ok none
      else do
        let expected ← csrfSignature hmac key (payloadOf f.issuedAt f.flowId f.nonce)
        if ← compareDigest f.signature expected then return some (f.nonce, f.issuedAt, f.flowId)
        else return none

end Keyed

end MaddyWeb.Csrf.Token
