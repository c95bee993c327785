import MaddyWeb.Library.Json
import MaddyWeb.Maddy.Window
import Mathlib.Algebra.Group.Int.Defs
import Mathlib.Algebra.GroupWithZero.Nat

/-!
# Pages of a mailbox

`_messages_list` cuts a window to the size of a response frame.  The message after
the last one that fits is the cursor of the next page.
-/

namespace MaddyWeb.Helper.Messages

open MaddyWeb.Library MaddyWeb.Helper.Errors MaddyWeb.Maddy.MessageList MaddyWeb.Maddy.Window

/-! ## The handler -/

def HeaderField.key : HeaderField → String
  | .from => "from"
  | .to => "to"
  | .cc => "cc"
  | .bcc => "bcc"
  | .inReplyTo => "in_reply_to"
  | .messageId => "message_id"
  | .subject => "subject"

def textValue (text : List Char) : Json := .str (String.ofList text)

/-- The dictionary of a record. -/
def recordValue (record : MessageRecord) : Json :=
  let field := fun (key : String) (value : Option Json) =>
    value.toList.map fun value => (key, value)
  .obj (field "uid" (record.uid.map .int) ++
    field "sequence_number" (record.sequenceNumber.map .int) ++
    field "flags" (record.flags.map fun flags => .arr (flags.map textValue)) ++
    field "body_size" (record.bodySize.map .int) ++
    field "internal_date_unix" (record.internalDateUnix.map .int) ++
    field "internal_date" (record.internalDate.map textValue) ++
    field "date_unix" (record.dateUnix.map .int) ++ field "date" (record.date.map textValue) ++
    record.headers.map fun header => (HeaderField.key header.1, textValue header.2))

/-- Texts are cut after 512 characters. -/
def bounded (record : MessageRecord) : MessageRecord :=
  { record with
    internalDate := record.internalDate.map (·.take 512)
    date := record.date.map (·.take 512)
    headers := record.headers.map fun header => (header.1, header.2.take 512) }

structure MessagesPage where
  items : List MessageRecord
  offset : Int
  limit : Int
  nextOffset : Option Int
  deriving DecidableEq, Repr

def MessagesPage.value (page : MessagesPage) : Json :=
  .obj [("items", .arr (page.items.map recordValue)), ("offset", .int page.offset),
    ("limit", .int page.limit), ("total", .null),
    ("next_offset", (page.nextOffset.map Json.int).getD .null)]

def MessagesPage.fits (page : MessagesPage) : Bool :=
  Json.utf8Length (Json.dumps false page.value) ≤ 48 * 1024

/-- The page that ends after these items of the window. -/
def pageWith (messages : List MessageRecord) (offset limit : Int) (items : List MessageRecord) :
    MessagesPage :=
  ⟨items, offset, limit, (messages[items.length]?).map uidOf⟩

/-- The loop over the candidates. -/
def fillPage (messages : List MessageRecord) (offset limit : Int) :
    List MessageRecord → List MessageRecord → List MessageRecord
  | [], page => page
  | candidate :: candidates, page =>
      let trial := page ++ [bounded candidate]
      if (pageWith messages offset limit trial).fits then
        fillPage messages offset limit candidates trial
      else page

/-- `type(value) is int and low <= value <= high` -/
def integerWithin (low high : Int) : Json → Except HelperException Int
  | .int value => if low ≤ value ∧ value ≤ high then .ok value else .error .value
  | _ => .error .value

/-- `_messages_list` -/
def messagesList (first second : Listing) (limit offset : Json) :
    Except HelperException MessagesPage := do
  let limit ← integerWithin 1 200 limit
  let offset ← integerWithin 0 (2 ^ 32 - 1) offset
  let messages := sortByUid (← listMessageWindow first second limit offset)
  Fallible.ensure (messages.length ≤ limit + 1) .maddy
  Fallible.ensure (messages.all fun message => validUid message.uid) .maddy
  let currentOffset := if offset = 0 then (messages.head?.map uidOf).getD offset else offset
  let candidates := messages.take limit.toNat
  let page := fillPage messages currentOffset limit candidates []
  Fallible.ensure (candidates = [] ∨ page ≠ []) .commandOutputLimit
  return pageWith messages currentOffset limit page

end MaddyWeb.Helper.Messages
