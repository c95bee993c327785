import MaddyWeb.Library.Text
import MaddyWeb.Library.Unique
import MaddyWeb.Library.Fallible

/-!
# Replies to a received message

The threading headers and the recipients of a reply, and what an outgoing message accepts of
the former.  `getaddresses`, `Address` and `str.casefold` are those of the standard library.
-/

namespace MaddyWeb.Mail

open MaddyWeb.Library
open MaddyWeb.Library.Text

abbrev Str := List Char

/-- The fields of `ParsedMessage` that a reply goes by; `to` is a word of the language. -/
structure ParsedMessage where
  sender : Str
  toAddrs : List Str
  cc : List Str
  messageId : Str
  replyTo : List Str
  inReplyTo : Str
  references : List Str

inductive MailError
  | mail (message : String)
  | limit (message : String)
  deriving DecidableEq, Repr

/-- A received value as it is searched: without control characters, and cut off. -/
def rendered (value : Str) : Str := (value.filter (!isControl ·)).take 998

/-! ## Message IDs -/

def maxThreadMessageIds : Nat := 32

/-- `[^<>\s@]` with `re.ASCII` -/
def isIdChar (c : Char) : Bool :=
  c != '<' && c != '>' && c != '@' && c != ' ' && !(0x09 ≤ c.toNat && c.toNat ≤ 0x0D)

/-- `_MESSAGE_ID_RE` at the start of the text; its classes exclude what follows them, so that
a run of characters is always taken as a whole. -/
def matchId : Str → Option Str
  | '<' :: rest =>
      match rest.dropWhile isIdChar with
      | '@' :: rest' =>
          match rest'.dropWhile isIdChar with
          | '>' :: _ =>
              let name := rest.takeWhile isIdChar
              let host := rest'.takeWhile isIdChar
              if name.isEmpty || host.isEmpty then none
              else some ('<' :: name ++ '@' :: host ++ ['>'])
          | _ => none
      | _ => none
  | _ => none

/-- `_MESSAGE_ID_RE.finditer`, with `skip` characters of a match still to pass. -/
def finditer : Nat → Str → List Str
  | _, [] => []
  | skip + 1, _ :: rest => finditer skip rest
  | 0, c :: rest =>
      match matchId (c :: rest) with
      | some found => found :: finditer (found.length - 1) rest
      | none => finditer 0 rest

/-- `_MESSAGE_ID_RE.fullmatch` -/
def fullmatch (text : Str) : Bool := matchId text == some text

/-- `str.isascii` -/
def isAscii (text : Str) : Bool := text.all (·.toNat < 0x80)

/-- `found[-maximum:]` -/
def lastOf {α : Type} (maximum : Nat) (found : List α) : List α :=
  found.drop (found.length - maximum)

/-- `_extract_message_ids` of a sequence; an ASCII text is folded by lowering it. -/
def extractMessageIds (maximum : Nat) (values : List Str) : List Str :=
  let found := (values.flatMap fun value => finditer 0 (rendered value)).filter isAscii
  lastOf maximum (Unique.keepNew asciiLower [] found)

/-- `_validate_header_value` -/
def validateHeaderValue (value : Str) (label : String) (maximum : Nat) : Except MailError Str :=
  if (strStrip value).any isControl || maximum < (strStrip value).length then
    .error (.mail ("invalid " ++ label))
  else .ok (strStrip value)

/-- `_validate_message_id` -/
def validateMessageId (value : Str) (label : String) : Except MailError Str := do
  let candidate ← validateHeaderValue value label 998
  if !isAscii candidate || !fullmatch candidate then throw (.mail ("invalid " ++ label))
  return candidate

/-- The `for` loop of `_validate_references`. -/
def validateEach : List Str → List Str → Except MailError (List Str)
  | _, [] => return []
  | seen, value :: rest => do
      let messageId ← validateMessageId value "References message ID"
      if asciiLower messageId ∈ seen then validateEach seen rest
      else do
        let others ← validateEach (asciiLower messageId :: seen) rest
        return messageId :: others

/-- `" ".join(values)` -/
def joined (values : List Str) : Str := List.intercalate [' '] values

/-- `_validate_references` -/
def validateReferences (values : List Str) : Except MailError (List Str) := do
  if maxThreadMessageIds < values.length then throw (.limit "too many References message IDs")
  let references ← validateEach [] values
  if 998 < (joined references).length then throw (.limit "References header is too large")
  return references

/-- The loop that drops references until they fit. -/
def fit : List Str → List Str
  | [] => []
  | value :: rest => if 998 < (joined (value :: rest)).length then fit rest else value :: rest

/-- The chain that `reply_thread_headers` starts from. -/
def baseReferences (message : ParsedMessage) : List Str :=
  if !message.references.isEmpty then message.references
  else if !message.inReplyTo.isEmpty then [message.inReplyTo]
  else []

/-- `reply_thread_headers` -/
def replyThreadHeaders (message : ParsedMessage) : Str × List Str :=
  let parent := ((extractMessageIds 1 [message.messageId]).head?).getD []
  let references := extractMessageIds maxThreadMessageIds (baseReferences message)
  let references :=
    if !parent.isEmpty && !(references.map asciiLower).contains (asciiLower parent) then
      references ++ [parent]
    else references
  (parent, fit (lastOf maxThreadMessageIds references))

/-- What an outgoing message makes of its two threading headers. -/
def validateThread (inReplyTo : Str) (references : List Str) :
    Except MailError (Str × List Str) := do
  let inReplyTo ←
    if !inReplyTo.isEmpty then validateMessageId inReplyTo "In-Reply-To message ID"
    else pure []
  let references ← validateReferences references
  return (inReplyTo, references)

/-! ## Recipients -/

/-- `Address` -/
structure Address where
  username : Str
  domain : Str
  addrSpec : Str
  text : Str

/-- How the constructor of `Address` ends. -/
inductive Constructed
  | address (address : Address)
  /-- `TypeError` or `ValueError`, which the defects of an address are -/
  | refused
  /-- another exception, such as `HeaderParseError` -/
  | raised

/-- The address parser, and `casefold`. -/
structure AddressParser where
  getaddresses : List Str → List (Str × Str)
  address : Str → Str → Constructed
  casefold : Str → Str

/-- `MailError`, or what the constructor of `Address` raises and nobody catches. -/
inductive ReplyError
  | mail (e : MailError)
  | address
  deriving DecidableEq, Repr

variable (parser : AddressParser)

/-- The body of the loop over the parsed addresses. -/
def validAddress (displayName addrSpec : Str) : Except ReplyError (Option Address) :=
  if addrSpec.isEmpty || !addrSpec.contains '@' then .ok none
  else
    match parser.address displayName addrSpec with
    | .address address =>
        if address.username.isEmpty || address.domain.isEmpty then .ok none else .ok (some address)
    | .refused => .ok none
    | .raised => .error .address

/-- `_received_addresses`: the text of each address and its key. -/
def receivedAddresses (values : List Str) : Except ReplyError (List (Str × Str)) := do
  let found ← (parser.getaddresses (values.map rendered)).mapM fun pair =>
    validAddress parser pair.1 pair.2
  return (found.filterMap id).map fun address => (address.text, parser.casefold address.addrSpec)

/-- The body of the loop of `parse_address_list`. -/
def listedAddress (pair : Str × Str) : Except ReplyError Str := do
  match ← validAddress parser pair.1 pair.2 with
  | some address => return address.text
  | none => throw (.mail (.mail "invalid email address"))

/-- `parse_address_list` of one value. -/
def parseAddressList (value : Str) : Except ReplyError (List Str) := do
  if value.any isControl then throw (.mail (.mail "address header contains control characters"))
  let parsed := parser.getaddresses [value]
  if 100 < parsed.length then throw (.mail (.limit "too many recipients"))
  let result ← parsed.mapM (listedAddress parser)
  if result.isEmpty then throw (.mail (.mail "at least one email address is required"))
  return result

/-- `_envelope_address` -/
def envelopeAddress (value : Str) : Except ReplyError Str :=
  match parser.getaddresses [value] with
  | [(_, addrSpec)] => if addrSpec.isEmpty then .error (.mail (.mail "invalid envelope address"))
      else .ok addrSpec
  | _ => .error (.mail (.mail "invalid envelope address"))

/-- `self_keys` -/
def selfKeys (selfSource : List Str) : Except ReplyError (List Str) := do
  let keys ← selfSource.mapM fun value => do
    let addresses ← parseAddressList parser value
    addresses.mapM fun address => parser.casefold <$> envelopeAddress parser address
  return keys.flatten

/-- A destination and the keys that have been seen. -/
abbrev Collected := List Str × List Str

/-- `append_unique` -/
def appendUnique (collected : Collected) (item : Str × Str) : Collected × Bool :=
  if item.2 ∈ collected.2 then (collected, false)
  else ((collected.1 ++ [item.1], item.2 :: collected.2), true)

/-- The loop that stops after the first address it has appended. -/
def appendFirst : Collected → List (Str × Str) → Collected
  | collected, [] => collected
  | collected, item :: rest =>
      if (appendUnique collected item).2 then (appendUnique collected item).1
      else appendFirst (appendUnique collected item).1 rest

def appendAll (collected : Collected) (items : List (Str × Str)) : Collected :=
  items.foldl (fun collected item => (appendUnique collected item).1) collected

structure ReplyRecipients where
  toAddrs : List Str
  cc : List Str
  deriving DecidableEq, Repr

/-- The addresses that a reply goes to first. -/
def primarySource (message : ParsedMessage) : List Str :=
  if !message.replyTo.isEmpty then message.replyTo
  else if !message.sender.isEmpty then [message.sender]
  else []

/-- `derive_reply_recipients` -/
def deriveReplyRecipients (message : ParsedMessage) (selfSource : List Str) (replyAll : Bool) :
    Except ReplyError ReplyRecipients := do
  if selfSource.isEmpty then throw (.mail (.mail "at least one self address is required"))
  let selfKeys ← selfKeys parser selfSource
  let primary ← receivedAddresses parser (primarySource message)
  let original ← receivedAddresses parser (message.toAddrs ++ message.cc)
  let primaries := appendAll ([], selfKeys) primary
  let addressed := if primaries.1.isEmpty then appendFirst primaries original else primaries
  let copied := if replyAll then appendAll ([], addressed.2) original else ([], addressed.2)
  return ⟨addressed.1, copied.1⟩

end MaddyWeb.Mail
