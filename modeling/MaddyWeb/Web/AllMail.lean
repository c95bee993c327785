import MaddyWeb.Library.Decimal
import MaddyWeb.Library.Dict
import MaddyWeb.Library.Exec
import MaddyWeb.Library.Json
import MaddyWeb.Library.Merge
import MaddyWeb.Web.MailboxCursors
import Mathlib.Algebra.GroupWithZero.Nat

/-!
# The All Mail view

One page merges the mailboxes of an account.  A page of a mailbox may be shorter
than requested, so it is refilled while the page is built, and what is left over
is read again by the next request, which starts at the first message not shown.
-/

namespace MaddyWeb.Web

open MaddyWeb.Library

def maxAllMailCandidates : Nat := 400

inductive WebError
  | type (text : String)
  | value (text : String)
  | gateway (code : String)
  deriving DecidableEq, Repr

/-! ## Records and pages -/

/-- `_record_value` of a mapping. -/
def recordValue (record : Json) (names : List String) (default : Json) : Json :=
  match record with
  | .obj fields => (names.findSome? (Json.get? fields)).getD default
  | _ => default

/-- `str(value)`, unless that text cannot be a decimal number. -/
def uidText : Json → Option (List Char)
  | .int value => some (Decimal.decimal value)
  | .str value => some value.toList
  | _ => none

/-- `_normalized_message_uid`, as a number. -/
def normalizedMessageUid (value : List Char) : Option Nat :=
  if value.all Decimal.isDigit ∧ value ≠ [] ∧ value.head? ≠ some '0' ∧ value.length ≤ 10 ∧
      1 ≤ Decimal.value value ∧ Decimal.value value ≤ maxMessageCursor then
    some (Decimal.value value)
  else none

/-- `_all_mail_resume_offset` -/
def allMailResumeOffset (record : Json) : Except WebError Nat :=
  match (uidText (recordValue record ["uid", "id"] (.str ""))).bind normalizedMessageUid with
  | some uid => .ok uid
  | none => .error (.type "messages.list returned an invalid all-mail UID")

def recordTimestamp (record : Json) : Int :=
  match recordValue record ["internal_date_unix", "date_unix"] (.int 0) with
  | .int timestamp => timestamp
  | _ => 0

/-- Whether `_all_mail_head_key` of the first pair is less than that of the second. -/
def headKeyLt (casefold : String → String) (x y : String × Json) : Bool :=
  let key := fun head : String × Json => (-recordTimestamp head.2, casefold head.1, head.1)
  let (time, folded, mailbox) := key x
  let (time', folded', mailbox') := key y
  time < time' || (time == time' && (folded < folded' || (folded == folded' && mailbox < mailbox')))

structure MessagePage where
  items : List Json
  hasNext : Bool
  nextOffset : Option Nat
  offset : Nat
  deriving Repr

/-- What a gateway answers: a page, or the mapping that the helper sent. -/
inductive PageReply
  | page (items : Json) (hasNext : Bool) (nextOffset : Json) (offset : Json)
  | mapping (fields : List (String × Json))

/-- The checks that `_message_page` makes. -/
def checkPage (items nextOffset offset : Json) (hasNext : Option Json) :
    Except WebError MessagePage := do
  let .arr items := items | throw (.type "messages.list items must be a sequence")
  let next ← match nextOffset with
    | .null => pure none
    | .int next =>
        if 1 ≤ next ∧ next ≤ maxMessageCursor then pure (some next.toNat)
        else throw (.type "messages.list next_offset must be a positive integer or null")
    | _ => throw (.type "messages.list next_offset must be a positive integer or null")
  let offset ← match offset with
    | .int offset =>
        if 0 ≤ offset ∧ offset ≤ maxMessageCursor then pure offset.toNat
        else throw (.type "messages.list offset must be a non-negative integer")
    | _ => throw (.type "messages.list offset must be a non-negative integer")
  if next.any fun next => offset == 0 || offset ≤ next then
    throw (.type "messages.list continuation must precede the current UID anchor")
  let hasNext ← match hasNext with
    | none => pure next.isSome
    | some (.bool hasNext) => pure hasNext
    | some _ => throw (.type "messages.list has_next must be a boolean")
  if hasNext != next.isSome then
    throw (.type "messages.list continuation metadata is inconsistent")
  return ⟨items, hasNext, next, offset⟩

/-- `_message_page` -/
def messagePage : PageReply → Except WebError MessagePage
  | .page items hasNext nextOffset offset =>
      checkPage items nextOffset offset (some (.bool hasNext))
  | .mapping fields => checkPage ((Json.get? fields "items").getD .null)
      ((Json.get? fields "next_offset").getD .null) ((Json.get? fields "offset").getD (.int 0))
      (Json.get? fields "has_next")

/-! ## One page of the view -/

/-- `list_messages` of the gateway for one account.  The answer to a request may depend on
when it is made: the first argument counts the requests. -/
def Gateway : Type := Nat → String → Nat → Nat → Except WebError PageReply

/-- A request moves the count. -/
abbrev Requests (α : Type) : Type := Exec Nat WebError α

def request (gateway : Gateway) (mailbox : String) (limit offset : Nat) : Requests PageReply :=
  fun count => (gateway count mailbox limit offset, count + 1)

/-- The `fetch` of `_list_all_mail_page`. -/
def fetch (gateway : Gateway) (mailbox : String) (offset limit : Nat) : Requests MessagePage := do
  let reply ← request gateway mailbox limit offset
  let page ← Exec.ofExcept (messagePage reply)
  Exec.ensure (page.items.length ≤ limit)
    (.type "messages.list exceeded the requested all-mail window")
  Exec.ensure (!(page.items.isEmpty && page.nextOffset.isSome))
    (.type "messages.list returned an empty page with a continuation")
  return page

/-- The entries of `pages` and `positions` for one mailbox. -/
structure Buffer where
  page : MessagePage
  position : Nat
  deriving Repr

namespace Buffer

def left (buffer : Buffer) : List Json := buffer.page.items.drop buffer.position

end Buffer

abbrev Buffers : Type := List (String × Buffer)

def Buffers.heads (buffers : Buffers) : List (String × Json) :=
  buffers.filterMap fun entry => entry.2.left.head?.map fun record => (entry.1, record)

def Buffers.advance (buffers : Buffers) (mailbox : String) : Buffers :=
  buffers.map fun entry =>
    if entry.1 = mailbox then (entry.1, { entry.2 with position := entry.2.position + 1 })
    else entry

/-- The messages that have been read and not been selected. -/
def Buffers.buffered (buffers : Buffers) : Nat :=
  (buffers.map fun entry => entry.2.page.items.length - entry.2.position).sum

structure Selection where
  buffers : Buffers
  selected : List (String × Json)

section View

variable (casefold : String → String) (candidates : Nat) (gateway : Gateway) (limit : Nat)

/-- The loop of `_list_all_mail_page`; the argument is the number of messages still missing. -/
def selectMessages : Nat → Selection → Requests Selection
  | 0, state => pure state
  | missing + 1, state =>
      match Merge.first (headKeyLt casefold) state.buffers.heads with
      | none => pure state
      | some (mailbox, record) => do
          let selected := state.selected ++ [(mailbox, record)]
          let buffers := state.buffers.advance mailbox
          match Dict.get buffers mailbox with
          | none => selectMessages missing ⟨buffers, selected⟩
          | some buffer =>
              match buffer.page.nextOffset with
              | some next =>
                  if buffer.position = buffer.page.items.length ∧ 0 < missing then
                    let refill := min missing (candidates - buffers.buffered)
                    if refill = 0 then pure ⟨buffers, selected⟩
                    else do
                      let page ← fetch gateway mailbox next refill
                      selectMessages missing ⟨Dict.set buffers mailbox ⟨page, 0⟩, selected⟩
                  else selectMessages missing ⟨buffers, selected⟩
              | none => selectMessages missing ⟨buffers, selected⟩

/-- Where the next request continues in one mailbox. -/
def resumeOffset (buffer : Buffer) : Except WebError (Option Nat) :=
  match buffer.left.head? with
  | some record => (allMailResumeOffset record).map some
  | none => .ok buffer.page.nextOffset

def nextOffsets (buffers : Buffers) : List String → Except WebError (List (String × Nat))
  | [] => .ok []
  | mailbox :: active => do
      let resume ← match Dict.get buffers mailbox with
        | some buffer => resumeOffset buffer
        | none => .ok none
      let others ← nextOffsets buffers active
      return resume.toList.map (fun offset => (mailbox, offset)) ++ others

structure AllMailPage where
  items : List (String × Json)
  nextOffsets : List (String × Nat)

/-- `_list_all_mail_page` -/
def listAllMailPage (mailboxes : List String) (offsets : List (String × Nat)) :
    Requests AllMailPage := do
  if mailboxes.isEmpty || offsets.isEmpty then
    return ⟨[], []⟩
  else
    Exec.ensure (mailboxes.length ≤ maxAllMailMailboxes)
      (.value "all-mail mailbox fan-out exceeds the supported limit")
    Exec.ensure ((offsets.map (·.1)).eraseDups.length == offsets.length &&
        offsets.all fun entry => mailboxes.contains entry.1)
      (.value "all-mail mailbox continuation is invalid")
    let active := mailboxes.filterMap fun mailbox =>
      (Dict.get offsets mailbox).map fun offset => (mailbox, offset)
    let perMailboxLimit := max 1 (min limit (candidates / max 1 active.length))
    let pages ← Exec.forEach (fun _ entry => fetch gateway entry.1 entry.2 perMailboxLimit) 0 active
    let buffers := (active.zip pages).foldl
      (fun buffers entry => Dict.set buffers entry.1.1 ⟨entry.2, 0⟩) []
    let state ← selectMessages casefold candidates gateway limit ⟨buffers, []⟩
    let next ← Exec.ofExcept (nextOffsets state.buffers (active.map (·.1)))
    return ⟨state.selected, next⟩

end View

end MaddyWeb.Web
