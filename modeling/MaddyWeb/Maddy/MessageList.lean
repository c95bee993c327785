import MaddyWeb.Helper.Errors
import MaddyWeb.Library.Decimal
import MaddyWeb.Maddy.EncodedWord
import Mathlib.Algebra.Group.Int.Defs
import Mathlib.Algebra.GroupWithZero.Nat

/-!
# Parsing a message listing

`parse_message_list` reads the two shapes of `maddy imap-msgs list`.  A full
listing is cut at every `- Server meta-data:`, each block at its first
`- Envelope:`, and both parts into lines; later lines overwrite earlier fields.
Every failure is a `CapabilityFingerprintError`, given here by its text.
-/

namespace MaddyWeb.Maddy.MessageList

open MaddyWeb.Library MaddyWeb.Library.Text MaddyWeb.Helper.Errors MaddyWeb.Maddy.EncodedWord

/-! ## Records -/

/-- The envelope headers that are kept, `envelope_keys`. -/
inductive HeaderField
  | «from»
  | to
  | cc
  | bcc
  | inReplyTo
  | messageId
  | subject
  deriving DecidableEq, Repr

/-- One parsed message; a field is absent until a line sets it. -/
structure MessageRecord where
  uid : Option Int := none
  sequenceNumber : Option Int := none
  flags : Option (List Text) := none
  bodySize : Option Int := none
  internalDateUnix : Option Int := none
  internalDate : Option Text := none
  dateUnix : Option Int := none
  date : Option Text := none
  headers : List (HeaderField × Text) := []
  deriving DecidableEq, Repr

/-- `record[key] = value` for a header. -/
def MessageRecord.setHeader (record : MessageRecord) (field : HeaderField) (value : Text) :
    MessageRecord :=
  { record with headers := (field, value) :: record.headers.filter fun h => h.1 != field }

def maxMessageListOutputBytes : Nat := 4 * 1024 * 1024

def maxMessageOutputLineChars : Nat := 64 * 1024

def maxImapUid : Int := 2 ^ 32 - 1

def metadataMarker : Text := "- Server meta-data:".toList

def envelopeMarker : Text := "- Envelope:".toList

/-! ## Scalars -/

/-- `_strict_output_integer` -/
def strictOutputInteger (value : Text) (field : String) (minimum maximum : Int) :
    Except String Int :=
  let candidate := strStrip value
  let negative := candidate.head? == some '-'
  let digits := if negative then candidate.drop 1 else candidate
  if digits.isEmpty || 20 < digits.length || !digits.all Decimal.isDigit then
    .error ("Maddy " ++ field ++ " is not a tested integer")
  else
    let parsed : Int := if negative then -(Decimal.value digits : Int) else Decimal.value digits
    if minimum ≤ parsed ∧ parsed ≤ maximum then .ok parsed
    else .error ("Maddy " ++ field ++ " is outside its tested range")

/-- `_parse_flags` and `_strict_flags` -/
def strictFlags (value : Text) : Except String (List Text) :=
  let stripped := strStrip value
  if stripped.head? ≠ some '[' ∨ stripped.getLast? ≠ some ']' then
    .error "Maddy flag output does not match a tested profile"
  else
    let flags := strSplit (stripped.drop 1).dropLast
    if flags.any fun flag => flag.any fun c => c.toNat < 0x20 then
      .error "Maddy flag output contains invalid characters"
    else .ok flags

/-- A time as `<unix> <text>`; without a second part the whole value stands for the text. -/
def strictStamp (value : Text) (field : String) : Except String (Int × Text) := do
  let (unix, human) := (partition [' '] value).getD (value, [])
  let parsed ← strictOutputInteger unix field (-(2 ^ 63)) (2 ^ 63 - 1)
  return (parsed, if human.isEmpty then value else human)

/-! ## The full listing -/

/-- The key and the value of a line with a colon. -/
def keyValue (line : Text) : Option (Text × Text) :=
  (partition [':'] line).map fun parts => (asciiLower (strStrip parts.1), strStrip parts.2)

/-- One line of the meta-data part. -/
def metadataLine (record : MessageRecord) (line : Text) : Except String MessageRecord :=
  match keyValue line with
  | none =>
    if (strStrip line).isEmpty then .ok record
    else .error "full Maddy metadata line is malformed"
  | some (key, value) =>
    if key = "uid".toList then do
      let uid ← strictOutputInteger value "message UID" 1 maxImapUid
      return { record with uid := some uid }
    else if key = "sequence number".toList then do
      let number ← strictOutputInteger value "message sequence number" 1 maxImapUid
      return { record with sequenceNumber := some number }
    else if key = "flags".toList then do
      let flags ← strictFlags value
      return { record with flags := some flags }
    else if key = "body size".toList then do
      let size ← strictOutputInteger value "message body size" 0 (2 ^ 63 - 1)
      return { record with bodySize := some size }
    else if key = "internal date".toList then do
      let (unix, human) ← strictStamp value "message internal date"
      return { record with internalDateUnix := some unix, internalDate := some human }
    else .ok record

/-- `envelope_keys` -/
def envelopeKey (key : Text) : Option HeaderField :=
  if key = "from".toList then some .from
  else if key = "to".toList then some .to
  else if key = "cc".toList then some .cc
  else if key = "bcc".toList then some .bcc
  else if key = "in-reply-to".toList then some .inReplyTo
  else if key = "message-id".toList then some .messageId
  else if key = "subject".toList then some .subject
  else none

/-- `_RFC2047_ENVELOPE_FIELDS` -/
def HeaderField.isRfc2047 : HeaderField → Bool
  | .inReplyTo | .messageId => false
  | _ => true

section Parser

variable (codecs : Codecs)

/-- One line of the envelope part. -/
def envelopeLine (record : MessageRecord) (line : Text) : Except String MessageRecord :=
  match keyValue line with
  | none =>
    if (strStrip line).isEmpty then .ok record
    else .error "full Maddy envelope line is malformed"
  | some (key, value) =>
    if key = "date".toList then do
      let (unix, human) ← strictStamp value "envelope date"
      return { record with dateUnix := some unix, date := some human }
    else match envelopeKey key with
      | some field =>
        .ok (record.setHeader field
          (if field.isRfc2047 then decodeEnvelopeHeader codecs value else value))
      | none => .ok record

/-- One block of a full listing. -/
def parseBlock (block : Text) : Except String MessageRecord :=
  match partition envelopeMarker block with
  | none => .error "full Maddy message block has no envelope"
  | some (metadataText, envelopeText) => do
    let record ← (strSplitlines metadataText).foldlM metadataLine { flags := some [] }
    let record ← (strSplitlines envelopeText).foldlM (envelopeLine codecs) record
    if record.uid.any fun uid => 1 ≤ uid && uid ≤ maxImapUid then return record
    else throw "full Maddy message block has no valid UID"

/-! ## The compact listing -/

/-- `^UID ([1-9]\d*): (.*?) - (.*)$` -/
def matchCompact (line : Text) : Option (Text × Text × Text) :=
  match line with
  | 'U' :: 'I' :: 'D' :: ' ' :: rest =>
    let number := rest.takeWhile codecs.isDecimal
    match number.head?, rest.drop number.length with
    | some first, ':' :: ' ' :: text =>
      if '1' ≤ first && first ≤ '9' then
        (partition [' ', '-', ' '] text).map fun parts => (number, parts.1, parts.2)
      else none
    | _, _ => none
  | _ => none

/-- The loop over the lines of a compact listing. -/
def parseCompact : List Text → Except String (List MessageRecord)
  | [] => .ok []
  | line :: rest =>
    match matchCompact codecs line with
    | none => .error "compact Maddy message output does not match a tested profile"
    | some (number, sender, subject) => do
      let uid ← strictOutputInteger number "message UID" 1 maxImapUid
      let record := (MessageRecord.setHeader { uid := some uid } .from
        (decodeEnvelopeHeader codecs sender)).setHeader .subject
          (decodeEnvelopeHeader codecs subject)
      match rest with
      | [] => return [record]
      | next :: rest' =>
        let details := strStrip next
        match partition [',', ' '] details with
        | some (flagText, dateText) => do
          let flags ← strictFlags flagText
          let records ← parseCompact rest'
          return { record with flags := some flags, date := some dateText } :: records
        | none =>
          if ['U', 'I', 'D', ' '].isPrefixOf details then do
            let records ← parseCompact (next :: rest')
            return record :: records
          else throw "compact Maddy message detail does not match a tested profile"

/-! ## The parser -/

/-- `len(output.encode("utf-8"))` -/
def encodedSize (output : Text) : Nat := (output.map fun c => c.utf8Size).sum

/-- The limits that `parse_message_list` puts on its input. -/
def withinLimits (output : Text) : Bool :=
  encodedSize output ≤ maxMessageListOutputBytes &&
    (strSplitlines output).all fun line => line.length ≤ maxMessageOutputLineChars

/-- `parse_message_list`, on decoded text. -/
def parseMessageList (output : Text) : Except String (List MessageRecord) :=
  if maxMessageListOutputBytes < encodedSize output then
    .error "Maddy message output exceeds the tested limit"
  else if (strSplitlines output).any fun line => maxMessageOutputLineChars < line.length then
    .error "Maddy message output contains an oversized line"
  else if (strStrip output).isEmpty then .ok []
  else if !hasSubstring metadataMarker output then
    parseCompact codecs ((strSplitlines output).filter fun line => !(strStrip line).isEmpty)
  else if !metadataMarker.isPrefixOf (output.dropWhile isSpace) then
    .error "full Maddy message output has an unexpected prefix"
  else ((split metadataMarker output).drop 1).mapM (parseBlock codecs)

/-- The end of `_list_message_set`: a failure stays in `_output_contract_failure`. -/
def listMessageSet (failure : Option String) (stdout : Text) :
    Except HelperException (List MessageRecord) × Option String :=
  match parseMessageList codecs stdout with
  | .ok records => (.ok records, failure)
  | .error message => (.error .capabilityFingerprint, some message)

end Parser

end MaddyWeb.Maddy.MessageList
