import MaddyWeb.Library.Tree
import MaddyWeb.Mail.Filename
import MaddyWeb.Mail.Reply

/-!
# Reading a MIME message

The email parser of the standard library delivers a tree of parts; `parse_message` goes through it
with a stack and takes the bodies and the attachments from its leaves.  `nh3.clean`, `HTMLParser`,
the header policy and the lenient UTF-8 decoder are parameters.
-/

namespace MaddyWeb.Mail.Mime

open MaddyWeb.Library MaddyWeb.Library.Text

/-! ## Limits -/

def maxRawMessageBytes : Nat := 25 * 1024 * 1024

def maxBodyCharacters : Nat := 2 * 1024 * 1024

def maxAttachmentBytes : Nat := 20 * 1024 * 1024

def maxTotalAttachmentBytes : Nat := 25 * 1024 * 1024

def maxAttachments : Nat := 64

def maxMimeParts : Nat := 128

def maxMimeDepth : Nat := 32

def maxSanitizedHtmlCharacters : Nat := 3 * 1024 * 1024

def maxSanitizedHtmlElements : Nat := 4096

def maxSanitizedHtmlDepth : Nat := 64

def maxTopLevelHeaderBytes : Nat := 64 * 1024

def maxHeadersPerPart : Nat := 256

def maxHeaderCharactersPerPart : Nat := 64 * 1024

def maxMessageHeaders : Nat := 512

def maxMessageHeaderCharacters : Nat := 128 * 1024

def maxAddressHeaderValues : Nat := 32

def maxAddressHeaderCharacters : Nat := 16 * 1024

/-! ## Parts -/

structure Headers where
  /-- `raw_items()` -/
  rawItems : List (Filename.Text × Filename.Text)
  /-- `get_content_type()` -/
  contentType : Str
  /-- `get_content_disposition()` -/
  disposition : Option Str
  /-- `get_filename()` -/
  filename : Option Filename.Text

structure Content where
  /-- `get_content()`, `none` where it raises `LookupError`, `UnicodeError` or `ValueError`. -/
  content : Option Str
  /-- `get_payload(decode=True) or b""` -/
  payload : List UInt8

/-- A branch is a part whose `is_multipart()` holds. -/
abbrev Part : Type := Tree (Headers × Content) Headers

def headersOf : Part → Headers
  | .leaf (headers, _) => headers
  | .branch headers _ => headers

inductive HtmlEvent
  | startTag (tag : Str)
  | startEndTag (tag : Str)
  | endTag (tag : Str)
  | data (text : Str)
  deriving DecidableEq

structure Platform where
  /-- The text of `policy.header_fetch_parse` for a name and a raw value. -/
  headerFetchParse : Filename.Text → Filename.Text → Str
  /-- `bytes.decode("utf-8", "replace")` -/
  decodeReplace : List UInt8 → Str
  normalizer : Filename.Normalizer
  /-- `nh3.clean` with the tags, attributes and schemes of the source; `none` without the
  package. -/
  clean : Option (Str → Str)
  /-- What `HTMLParser` reports of a text that is fed and closed. -/
  htmlEvents : Str → List HtmlEvent

section Platform

variable (platform : Platform)

/-! ## Headers -/

/-- `name.casefold()` and `name.lower()`; a name holds ASCII and surrogates. -/
def folded (name : Filename.Text) : List Nat :=
  name.map fun c => if 0x41 ≤ c.val && c.val ≤ 0x5A then c.val + 0x20 else c.val

def isNamed (word : String) (name : Filename.Text) : Bool :=
  folded name == folded (Filename.ofString word)

/-- `message.get_all(name, [])` -/
def getAll (headers : Headers) (name : String) : List Str :=
  (headers.rawItems.filter fun item => isNamed name item.1).map fun item =>
    platform.headerFetchParse item.1 item.2

/-- `safe_display_header` -/
def safeDisplayHeader (value : Str) : Str :=
  (value.filter fun c => !Filename.isUnsafe (Filename.ofChar c)).take 998

/-- `_header_text` -/
def headerText (headers : Headers) (name : String) : Str :=
  safeDisplayHeader ((getAll platform headers name).headD [])

/-- `_header_values` -/
def headerValues (headers : Headers) (name : String) : List Str :=
  (getAll platform headers name).map safeDisplayHeader

/-- `stream.readline(size)` -/
def readline (size : Nat) (stream : List UInt8) : List UInt8 :=
  let line := (stream.take size).takeWhile (· != 0x0A)
  if line.length < (stream.take size).length then line ++ [0x0A] else line

theorem length_readline_le (size : Nat) (stream : List UInt8) :
    (readline size stream).length ≤ stream.length := by
  have htake := List.length_take_le' size stream
  have hline := (List.takeWhile_sublist (· != (0x0A : UInt8)) (l := stream.take size)).length_le
  unfold readline
  dsimp only
  split
  · rw [List.length_append, List.length_singleton]
    omega
  · omega

/-- The loop of `_validate_top_level_headers`. -/
def validateHeaderLines (headerBytes headerCount : Nat) (stream : List UInt8) :
    Except MailError Unit :=
  let line := readline (maxTopLevelHeaderBytes + 2) stream
  if hline : line = [] then .ok ()
  else if maxTopLevelHeaderBytes < headerBytes + line.length then
    .error (.limit "top-level message headers are too large")
  else
    let content := (line.reverse.dropWhile isByteBreak).reverse
    if content = [] then .ok ()
    else if content.head? = some 0x20 ∨ content.head? = some 0x09 then
      validateHeaderLines (headerBytes + line.length) headerCount (stream.drop line.length)
    else if !content.contains 0x3A then .ok ()
    else if maxHeadersPerPart < headerCount + 1 then
      .error (.limit "too many top-level message headers")
    else validateHeaderLines (headerBytes + line.length) (headerCount + 1) (stream.drop line.length)
termination_by stream.length
decreasing_by all_goals
  have hlength := length_readline_le (maxTopLevelHeaderBytes + 2) stream
  have hpos : 0 < (readline (maxTopLevelHeaderBytes + 2) stream).length :=
    List.length_pos_iff.mpr hline
  rw [List.length_drop]
  omega

/-- `_validate_top_level_headers` -/
def validateTopLevelHeaders (raw : List UInt8) : Except MailError Unit :=
  validateHeaderLines 0 0 raw

structure HeaderTotals where
  count : Nat
  characters : Nat
  addressValues : Nat
  addressCharacters : Nat

def isAddressHeader (name : Filename.Text) : Bool :=
  isNamed "to" name || isNamed "cc" name || isNamed "reply-to" name

/-- The loop of `_validate_part_headers`. -/
def countHeader (totals : HeaderTotals) (item : Filename.Text × Filename.Text) :
    Except MailError HeaderTotals := do
  let count := totals.count + 1
  let characters := totals.characters + (item.1.length + item.2.length)
  Fallible.ensure (¬(maxHeadersPerPart < count ∨ maxHeaderCharactersPerPart < characters))
    (.limit "message headers are too large")
  if isAddressHeader item.1 then do
    let addressValues := totals.addressValues + 1
    let addressCharacters := totals.addressCharacters + item.2.length
    Fallible.ensure
      (¬(maxAddressHeaderValues < addressValues ∨ maxAddressHeaderCharacters < addressCharacters))
      (.limit "message address headers are too large")
    .ok ⟨count, characters, addressValues, addressCharacters⟩
  else .ok ⟨count, characters, totals.addressValues, totals.addressCharacters⟩

/-- `_validate_part_headers` -/
def validatePartHeaders (headers : Headers) : Except MailError HeaderTotals :=
  headers.rawItems.foldlM countHeader ⟨0, 0, 0, 0⟩

/-! ## HTML -/

/-- `html.escape` -/
def htmlEscape (value : Str) : Str :=
  value.flatMap fun c =>
    if c = '&' then "&amp;".toList
    else if c = '<' then "&lt;".toList
    else if c = '>' then "&gt;".toList
    else if c = '"' then "&quot;".toList
    else if c = '\'' then "&#x27;".toList
    else [c]

/-- `_SanitizedHtmlBudget` -/
structure HtmlBudget where
  elements : Nat
  depth : Nat

def isVoidTag (tag : Str) : Bool :=
  ["br".toList, "col".toList, "hr".toList, "img".toList].contains (asciiLower tag)

/-- `_element` -/
def HtmlBudget.element (budget : HtmlBudget) (tag : Str) (nested : Bool) :
    Except MailError HtmlBudget := do
  let elements := budget.elements + 1
  Fallible.ensure (elements ≤ maxSanitizedHtmlElements) (.limit "HTML body has too many elements")
  if nested && !isVoidTag tag then do
    let depth := budget.depth + 1
    Fallible.ensure (depth ≤ maxSanitizedHtmlDepth) (.limit "HTML body nesting is too deep")
    .ok ⟨elements, depth⟩
  else .ok ⟨elements, budget.depth⟩

def HtmlBudget.handle (budget : HtmlBudget) : HtmlEvent → Except MailError HtmlBudget
  | .startTag tag => budget.element tag true
  | .startEndTag tag => budget.element tag false
  | .endTag tag =>
    .ok (if !isVoidTag tag && budget.depth != 0 then ⟨budget.elements, budget.depth - 1⟩
      else budget)
  | .data _ => .ok budget

/-- `_validate_sanitized_html` -/
def validateSanitizedHtml (value : Str) : Except MailError Str := do
  Fallible.ensure (value.length ≤ maxSanitizedHtmlCharacters)
    (.limit "sanitized HTML body is too large")
  let _ ← (platform.htmlEvents value).foldlM HtmlBudget.handle ⟨0, 0⟩
  .ok value

def sanitized (value : Str) : Str :=
  match platform.clean with
  | none => "<pre>".toList ++ htmlEscape value ++ "</pre>".toList
  | some clean => clean value

/-- `sanitize_html_email` -/
def sanitizeHtmlEmail (value : Str) : Except MailError Str := do
  Fallible.ensure (value.length ≤ maxBodyCharacters) (.limit "HTML body is too large")
  validateSanitizedHtml platform (sanitized platform value)

def isBlockTag (tag : Str) : Bool :=
  (["blockquote", "br", "div", "h1", "h2", "h3", "h4", "h5", "h6", "hr", "li", "p", "pre", "table",
    "tr"].map String.toList).contains tag

/-- `_TextExtractor`; a tag that closes itself is a start tag and an end tag to it. -/
def extracted : HtmlEvent → Str
  | .startTag tag => if isBlockTag tag then ['\n'] else []
  | .startEndTag tag => if isBlockTag tag then ['\n', '\n'] else []
  | .endTag tag => if isBlockTag tag then ['\n'] else []
  | .data text => text

/-- `html_to_text` -/
def htmlToText (value : Str) : Str :=
  let parts := (platform.htmlEvents (value.take maxBodyCharacters)).flatMap extracted
  let lines := (strSplitlines parts).map fun line => List.intercalate [' '] (strSplit line)
  strStrip (List.intercalate ['\n'] (lines.filter (· ≠ [])))

/-! ## The parts one after the other -/

structure ParsedAttachment where
  attachmentId : String
  filename : Filename.Text
  contentType : Str
  data : List UInt8
  contentId : Option Str
  inline : Bool

/-- What a part has from those above it. -/
structure Place where
  depth : Nat
  underAttachment : Bool

def rootPlace : Place := ⟨0, false⟩

/-- The frame of a child. -/
def Place.child (place : Place) (headers : Headers) : Place where
  depth := place.depth + 1
  underAttachment := place.underAttachment || headers.disposition == some "attachment".toList ||
    headers.filename.isSome || asciiLower headers.contentType == "message/rfc822".toList

section Parts

variable {σ : Type} (consume : σ → Part × Place → Except MailError σ)

/-- From one `pop` of `_bounded_message_parts` to the end of the turn that takes the part. -/
def takePart : Nat × σ → Part × Place → Except MailError (Nat × σ)
  | (partCount, state), (part, place) => do
    Fallible.ensure (place.depth ≤ maxMimeDepth) (.limit "MIME nesting is too deep")
    Fallible.ensure (partCount + 1 ≤ maxMimeParts) (.limit "too many MIME parts")
    let state ← consume state (part, place)
    .ok (partCount + 1, state)

/-- `_bounded_message_parts` with the loop that takes the parts from it. -/
def boundedMessageParts (message : Part) (state : σ) : Except MailError (Nat × σ) :=
  Tree.walk Place.child (takePart consume) [(message, rootPlace)] (0, state)

end Parts

/-- The variables of the loop in `parse_message`. -/
structure Reading where
  textBody : Str
  htmlBody : Option Str
  attachments : List ParsedAttachment
  totalAttachmentBytes : Nat
  totalHeaders : Nat
  totalHeaderCharacters : Nat

/-- `is_body` -/
def isBody (place : Place) (headers : Headers) : Bool :=
  !place.underAttachment && headers.disposition != some "attachment".toList &&
    headers.filename.isNone &&
    ["text/plain".toList, "text/html".toList].contains (asciiLower headers.contentType)

def decodedText (content : Content) : Str :=
  content.content.getD (platform.decodeReplace content.payload)

/-- `_decode_text_part` -/
def decodeTextPart (content : Content) : Except MailError Str := do
  let value := decodedText platform content
  Fallible.ensure (value.length ≤ maxBodyCharacters) (.limit "message body is too large")
  .ok value

def isAngle (c : Char) : Bool := c == '<' || c == '>'

/-- `_header_text(part, "Content-ID").strip("<>") or None` -/
def contentIdOf (headers : Headers) : Option Str :=
  let contentId := stripBy isAngle (headerText platform headers "Content-ID")
  if contentId = [] then none else some contentId

def parsedAttachment (index : Nat) (place : Place) (headers : Headers) (content : Content) :
    ParsedAttachment where
  attachmentId := toString index
  filename := Filename.safeFilename platform.normalizer headers.filename Filename.defaultFilename
  contentType := asciiLower headers.contentType
  data := content.payload
  contentId := contentIdOf platform headers
  inline := !place.underAttachment &&
    (headers.disposition == some "inline".toList || (contentIdOf platform headers).isSome)

/-- The loop's body from `is_multipart` on, for a leaf. -/
def readLeaf (place : Place) (headers : Headers) (content : Content) (reading : Reading) :
    Except MailError Reading :=
  if isBody place headers then do
    let decoded ← decodeTextPart platform content
    if asciiLower headers.contentType = "text/plain".toList ∧ reading.textBody = [] then
      .ok { reading with textBody := decoded }
    else if asciiLower headers.contentType = "text/html".toList ∧ reading.htmlBody = none then do
      let htmlBody ← sanitizeHtmlEmail platform decoded
      .ok { reading with htmlBody := some htmlBody }
    else .ok reading
  else do
    Fallible.ensure (content.payload.length ≤ maxAttachmentBytes) (.limit "attachment is too large")
    let totalAttachmentBytes := reading.totalAttachmentBytes + content.payload.length
    Fallible.ensure (totalAttachmentBytes ≤ maxTotalAttachmentBytes)
      (.limit "attachments are too large")
    Fallible.ensure (reading.attachments.length < maxAttachments) (.limit "too many attachments")
    .ok { reading with
      totalAttachmentBytes
      attachments := reading.attachments ++
        [parsedAttachment platform reading.attachments.length place headers content] }

/-- The body of the loop in `parse_message`. -/
def readPart (reading : Reading) : Part × Place → Except MailError Reading
  | (part, place) => do
    let totals ← validatePartHeaders (headersOf part)
    let totalHeaders := reading.totalHeaders + totals.count
    let totalHeaderCharacters := reading.totalHeaderCharacters + totals.characters
    Fallible.ensure (¬(maxMessageHeaders < totalHeaders ∨
      maxMessageHeaderCharacters < totalHeaderCharacters)) (.limit "message headers are too large")
    let reading := { reading with totalHeaders, totalHeaderCharacters }
    match part with
    | .branch _ _ => .ok reading
    | .leaf (headers, content) => readLeaf platform place headers content reading

/-! ## `parse_message` -/

/-- `ParsedMessage` with all of its fields. -/
structure MimeMessage extends ParsedMessage where
  subject : Str
  date : Str
  text : Str
  html : Option Str
  attachments : List ParsedAttachment

/-- How `BytesParser` fails. -/
inductive ParserFailure
  | tooManyParts
  | recursion
  | typeOrValue

def ParserFailure.raised : ParserFailure → MailError
  | .tooManyParts => .limit "too many MIME parts"
  | .recursion => .limit "MIME nesting is too deep"
  | .typeOrValue => .mail "invalid message"

def emptyReading : Reading := ⟨[], none, [], 0, 0, 0⟩

/-- The text of the HTML body stands in for an empty text body. -/
def Reading.text (reading : Reading) : Str :=
  match reading.textBody, reading.htmlBody with
  | [], some (c :: html) => htmlToText platform (c :: html)
  | text, _ => text

def parsedMessage (headers : Headers) (reading : Reading) : MimeMessage where
  subject :=
    let subject := headerText platform headers "Subject"
    if subject = [] then "(No subject)".toList else subject
  sender := headerText platform headers "From"
  toAddrs := headerValues platform headers "To"
  cc := headerValues platform headers "Cc"
  date := headerText platform headers "Date"
  messageId := headerText platform headers "Message-ID"
  text := reading.text platform
  html := reading.htmlBody
  attachments := reading.attachments
  replyTo := headerValues platform headers "Reply-To"
  inReplyTo := (extractMessageIds 1 (getAll platform headers "In-Reply-To")).headD []
  references := extractMessageIds maxThreadMessageIds (getAll platform headers "References")

/-- `parse_message` -/
def parseMessage (parsebytes : List UInt8 → Except ParserFailure Part) (raw : List UInt8) :
    Except MailError MimeMessage := do
  Fallible.ensure (raw.length ≤ maxRawMessageBytes) (.limit "raw message is too large")
  validateTopLevelHeaders raw
  let message ← (parsebytes raw).mapError ParserFailure.raised
  let (_, reading) ← boundedMessageParts (readPart platform) message emptyReading
  .ok (parsedMessage platform (headersOf message) reading)

end Platform

end MaddyWeb.Mail.Mime
