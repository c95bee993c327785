import MaddyWeb.Library.Percent
import MaddyWeb.Library.Text

/-!
# Envelope headers for display

`_decode_envelope_header` decodes the RFC 2047 words of a header value and falls
back to the raw text when anything is wrong with them.  The codecs of the
standard library and the Unicode tables are parameters.
-/

namespace MaddyWeb.Maddy.EncodedWord

open MaddyWeb.Library MaddyWeb.Library.Text
open MaddyWeb.Library.Percent (hexValue)

abbrev Text := List Char

/-- The library functions that the decoder calls; `none` is an exception it catches. -/
structure Codecs where
  /-- `base64.b64decode(text, validate=True)` -/
  b64decode : Text → Option Bytes
  /-- `raw.decode(charset)`, checked to encode again -/
  decode : Text → Bytes → Option Text
  /-- `unicodedata.category` is in `_UNSAFE_HEADER_CATEGORIES` -/
  isUnsafe : Char → Bool
  /-- the pattern class `\d` -/
  isDecimal : Char → Bool

def maxEnvelopeHeaderInputChars : Nat := 4096

def maxEnvelopeHeaderOutputChars : Nat := 512

def maxEncodedWordsPerHeader : Nat := 64

/-- `_HEADER_CONTROL_RE.sub(" ", value)`, inside a run of controls or not. -/
def subControls : Bool → Text → Text
  | _, [] => []
  | inRun, c :: rest =>
    if isControl c then
      if inRun then subControls true rest else ' ' :: subControls true rest
    else c :: subControls false rest

/-- `_clean_envelope_header` with `safe_display_header` -/
def cleanEnvelopeHeader (codecs : Codecs) (value : Text) : Text :=
  ((strStrip (subControls false value)).filter fun c => !codecs.isUnsafe c).take
    maxEnvelopeHeaderOutputChars

/-- `_decode_q_word` -/
def decodeQWord : Text → Option Bytes
  | [] => some []
  | '_' :: rest => (decodeQWord rest).map (0x20 :: ·)
  | '=' :: a :: b :: rest =>
    match hexValue a, hexValue b with
    | some x, some y => (decodeQWord rest).map (UInt8.ofNat (16 * x + y) :: ·)
    | _, _ => none
  | c :: rest =>
    if 0x21 ≤ c.toNat && c.toNat ≤ 0x7E && c != '=' then
      (decodeQWord rest).map (UInt8.ofNat c.toNat :: ·)
    else none

/-- The groups of `_ENCODED_WORD_RE`. -/
structure WordMatch where
  charset : Text
  encoding : Char
  payload : Text
  deriving DecidableEq, Repr

/-- The matched text. -/
def WordMatch.text (word : WordMatch) : Text :=
  ['=', '?'] ++ word.charset ++ ['?', word.encoding, '?'] ++ word.payload ++ ['?', '=']

def isWordChar (c : Char) : Bool := c != '?' && !isSpace c

/-- A match of `_ENCODED_WORD_RE` at the start of a text. -/
def matchEncodedWord : Text → Option WordMatch
  | '=' :: '?' :: rest =>
    let charset := rest.takeWhile isWordChar
    match rest.drop charset.length with
    | '?' :: encoding :: '?' :: rest =>
      let payload := rest.takeWhile isWordChar
      match rest.drop payload.length with
      | '?' :: '=' :: _ =>
        if 1 ≤ charset.length && charset.length ≤ 127 && ['B', 'b', 'Q', 'q'].contains encoding &&
            1 ≤ payload.length && payload.length ≤ 4096 then some { charset, encoding, payload }
        else none
      | _ => none
    | _ => none
  | _ => none

def isBase64Char (c : Char) : Bool := c.isAlphanum || c == '+' || c == '/'

/-- `_BASE64_WORD_RE.fullmatch` -/
def matchesBase64Word (payload : Text) : Bool :=
  let body := payload.takeWhile isBase64Char
  let padding := payload.drop body.length
  !body.isEmpty && padding.length ≤ 2 && padding.all (· == '=')

/-- `_decode_encoded_word` -/
def decodeEncodedWord (codecs : Codecs) (word : WordMatch) : Option Text := do
  guard (word.charset.all fun c => 0x21 ≤ c.toNat && c.toNat ≤ 0x7E)
  let raw ←
    if word.encoding == 'B' || word.encoding == 'b' then do
      guard (matchesBase64Word word.payload && word.payload.length % 4 != 1)
      codecs.b64decode
        (word.payload ++ List.replicate ((4 - word.payload.length % 4) % 4) '=')
    else decodeQWord word.payload
  let rendered ← codecs.decode word.charset raw
  guard !rendered.isEmpty
  return rendered

/-- The loop over the encoded words: `skip` characters of a word still to pass, the text since
the last word, whether that word was decoded, the count so far and the pieces.  `none` is the
return of the fallback. -/
def decodeFrom (codecs : Codecs) : Nat → Text → Bool → Nat → Text → Text → Option Text
  | _, separator, _, count, pieces, [] =>
    if count = 0 then none else some (pieces ++ separator)
  | skip + 1, separator, decoded, count, pieces, _ :: rest =>
    decodeFrom codecs skip separator decoded count pieces rest
  | 0, separator, decoded, count, pieces, c :: rest =>
    match matchEncodedWord (c :: rest) with
    | none => decodeFrom codecs 0 (separator ++ [c]) decoded count pieces rest
    | some word =>
      if maxEncodedWordsPerHeader < count + 1 then none
      else match decodeEncodedWord codecs word with
        | none =>
          decodeFrom codecs (word.text.length - 1) [] false (count + 1)
            (pieces ++ separator ++ word.text) rest
        | some rendered =>
          let kept :=
            if decoded && separator.all fun c => c == ' ' || c == '\t' then [] else separator
          decodeFrom codecs (word.text.length - 1) [] true (count + 1)
            (pieces ++ kept ++ rendered) rest

/-- `_decode_envelope_header` -/
def decodeEnvelopeHeader (codecs : Codecs) (value : Text) : Text :=
  let fallback := cleanEnvelopeHeader codecs value
  if !hasSubstring ['=', '?'] value || maxEnvelopeHeaderInputChars < value.length then fallback
  else match decodeFrom codecs 0 [] false 0 [] value with
    | none => fallback
    | some pieces => cleanEnvelopeHeader codecs pieces

end MaddyWeb.Maddy.EncodedWord
