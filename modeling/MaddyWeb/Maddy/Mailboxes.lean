import MaddyWeb.Library.Dict
import MaddyWeb.Maddy.Service
import Mathlib.Algebra.GroupWithZero.Nat

/-!
# Mailboxes and the commands that change them

The mailboxes of one account, with the messages in them.  A command that reports a
failure may have taken effect, and a copy or a removal of messages may have taken
effect on some of them.  Other clients move between the commands: they deliver
messages, and create the mailbox that is being deleted again.
-/

namespace MaddyWeb.Maddy.Mailboxes

open MaddyWeb.Library MaddyWeb.Helper.Errors MaddyWeb.Maddy.Service

/-! ## Mailboxes -/

/-- A message, by the UID it has in its mailbox. -/
structure Stored where
  uid : Nat
  message : Nat
  deriving DecidableEq, Repr

structure Box where
  attributes : List String
  uidNext : Nat
  messages : List Stored
  sorted : messages.Pairwise fun a b => a.uid < b.uid
  bounded : ∀ stored ∈ messages, stored.uid < uidNext
  deriving DecidableEq

namespace Box

def empty (attributes : List String) : Box where
  attributes := attributes
  uidNext := 1
  messages := []
  sorted := List.Pairwise.nil
  bounded := nofun

def deliver (box : Box) (message : Nat) : Box where
  attributes := box.attributes
  uidNext := box.uidNext + 1
  messages := box.messages ++ [⟨box.uidNext, message⟩]
  sorted := by
    rw [List.pairwise_append]
    refine ⟨box.sorted, List.pairwise_singleton _ _, ?_⟩
    intro stored hstored new hnew
    rw [List.mem_singleton] at hnew
    subst hnew
    exact box.bounded stored hstored
  bounded := by
    intro stored hstored
    rcases List.mem_append.mp hstored with hstored | hstored
    · exact Nat.lt_succ_of_lt (box.bounded stored hstored)
    · rw [List.mem_singleton] at hstored
      subst hstored
      exact Nat.lt_succ_self _

def deliverAll (box : Box) (messages : List Nat) : Box := messages.foldl deliver box

def keep (box : Box) (p : Stored → Bool) : Box where
  attributes := box.attributes
  uidNext := box.uidNext
  messages := box.messages.filter p
  sorted := box.sorted.filter p
  bounded := fun stored hstored => box.bounded stored (List.mem_of_mem_filter hstored)

def contents (box : Box) : List Nat := box.messages.map (·.message)

end Box

/-- The mailboxes of an account, under different names. -/
structure Mail where
  boxes : List (String × Box)
  distinct : (boxes.map (·.1)).Nodup
  deriving DecidableEq

/-- The name of a mailbox after `src` has become `dst`: the mailboxes below it go with it. -/
def renamed (src dst name : String) : String :=
  if name = src then dst
  else if (src ++ "/").toList.isPrefixOf name.toList then
    String.ofList (dst.toList ++ name.toList.drop src.toList.length)
  else name

namespace Mail

def names (mail : Mail) : List String := mail.boxes.map (·.1)

def find (mail : Mail) (name : String) : Option Box := Dict.get mail.boxes name

/-- The messages in a mailbox; none when there is no such mailbox. -/
def contents (mail : Mail) (name : String) : List Nat := ((mail.find name).map Box.contents).getD []

def adjust (mail : Mail) (name : String) (f : Box → Box) : Mail where
  boxes := mail.boxes.map fun entry => (entry.1, if entry.1 = name then f entry.2 else entry.2)
  distinct := by
    rw [List.map_map]
    exact mail.distinct

def create (mail : Mail) (name : String) (attributes : List String) : Mail :=
  if h : name ∈ mail.names then mail
  else
    { boxes := mail.boxes ++ [(name, .empty attributes)]
      distinct := by
        rw [List.map_append, List.nodup_append]
        refine ⟨mail.distinct, List.nodup_singleton _, ?_⟩
        intro other hother new hnew heq
        rw [List.map_singleton, List.mem_singleton] at hnew
        rw [heq, hnew] at hother
        exact h hother }

def drop (mail : Mail) (name : String) : Mail where
  boxes := mail.boxes.filter (·.1 != name)
  distinct := mail.distinct.sublist (List.filter_sublist.map _)

/-- A mailbox that the new names would hide makes the server refuse. -/
def rename (mail : Mail) (src dst : String) : Mail :=
  if h : ((mail.boxes.map fun entry => (renamed src dst entry.1, entry.2)).map (·.1)).Nodup then
    ⟨_, h⟩
  else mail

end Mail

theorem mem_contents_deliver {box : Box} {message id : Nat} :
    id ∈ (box.deliver message).contents ↔ id ∈ box.contents ∨ id = message := by
  unfold Box.contents Box.deliver
  simp

theorem deliverAll_spec (messages : List Nat) (box : Box) :
    (box.deliverAll messages).contents = box.contents ++ messages ∧
      box.uidNext ≤ (box.deliverAll messages).uidNext := by
  induction messages generalizing box with
  | nil => exact ⟨(List.append_nil _).symm, Nat.le_refl _⟩
  | cons message rest ih =>
      obtain ⟨hcontents, hnext⟩ := ih (box.deliver message)
      constructor
      · show ((box.deliver message).deliverAll rest).contents = _
        rw [hcontents]
        simp [Box.contents, Box.deliver]
      · exact Nat.le_trans (Nat.le_succ _) hnext

namespace Mail

variable {mail : Mail} {name other src dst : String} {box : Box}

theorem find_eq_some : mail.find name = some box ↔ (name, box) ∈ mail.boxes :=
  ⟨Dict.mem_of_get, fun h => Dict.get_eq_some mail.distinct h⟩

theorem mem_names : name ∈ mail.names ↔ ∃ box, mail.find name = some box := by
  unfold names
  rw [List.mem_map]
  constructor
  · rintro ⟨entry, hentry, rfl⟩
    exact ⟨entry.2, find_eq_some.mpr hentry⟩
  · rintro ⟨box, hbox⟩
    exact ⟨(name, box), find_eq_some.mp hbox, rfl⟩

theorem find_adjust {f : Box → Box} (h : mail.find other = some box) :
    (mail.adjust name f).find other = some (if other = name then f box else box) := by
  rw [find_eq_some] at h ⊢
  exact List.mem_map.mpr ⟨_, h, rfl⟩

theorem names_adjust {f : Box → Box} : (mail.adjust name f).names = mail.names := by
  unfold names adjust
  rw [List.map_map]
  rfl

theorem find_create {attributes : List String} (h : mail.find other = some box) :
    (mail.create name attributes).find other = some box := by
  unfold create
  split
  · exact h
  · rw [find_eq_some] at h ⊢
    exact List.mem_append_left _ h

theorem find_create_self {attributes : List String} (h : name ∉ mail.names) :
    (mail.create name attributes).find name = some (.empty attributes) := by
  unfold create
  rw [dif_neg h, find_eq_some]
  exact List.mem_append_right _ List.mem_cons_self

theorem find_drop (h : mail.find other = some box) (hne : other ≠ name) :
    (mail.drop name).find other = some box := by
  rw [find_eq_some] at h ⊢
  apply List.mem_filter.mpr
  exact ⟨h, by simpa using hne⟩

theorem find_rename (hnodup : (mail.names.map (renamed src dst)).Nodup)
    (h : mail.find other = some box) :
    (mail.rename src dst).find (renamed src dst other) = some box := by
  unfold rename
  have hnodup' :
      ((mail.boxes.map fun entry => (renamed src dst entry.1, entry.2)).map (·.1)).Nodup := by
    unfold names at hnodup
    rw [List.map_map] at hnodup ⊢
    exact hnodup
  rw [dif_pos hnodup', find_eq_some]
  rw [find_eq_some] at h
  exact List.mem_map.mpr ⟨_, h, rfl⟩

end Mail

theorem renamed_src (src dst : String) : renamed src dst src = dst := if_pos rfl

theorem renamed_eq_self {src dst name : String} (hne : name ≠ src)
    (hchild : (src ++ "/").toList.isPrefixOf name.toList = false) :
    renamed src dst name = name := by
  unfold renamed
  rw [if_neg hne, hchild]
  rfl

/-! ## Commands -/

inductive MailCommand
  | listMailboxes
  | create (name : String) (attributes : List String)
  | rename (src dst : String)
  | remove (name : String)
  /-- `imap-msgs list --uid … "*"`, with `--full` or without -/
  | latest (name : String) (full : Bool)
  | window (name : String)
  | copy (src : String) (anchor : Nat) (dst : String)
  | expunge (name : String) (anchor : Nat)
  deriving DecidableEq, Repr

/-- What the server refuses has no effect and reports a failure. -/
def MailCommand.possible (mail : Mail) : MailCommand → Bool
  | .listMailboxes => true
  | .create name _ => !mail.names.contains name
  | .rename src dst => mail.names.contains src && !mail.names.contains dst &&
      decide (mail.names.map (renamed src dst)).Nodup
  | .remove name | .latest name _ | .window name | .expunge name _ => mail.names.contains name
  | .copy src _ dst => mail.names.contains src && mail.names.contains dst

/-- The effect of a command on the messages with a UID in `picked`. -/
def MailCommand.apply (picked : Nat → Bool) (mail : Mail) : MailCommand → Mail
  | .listMailboxes | .latest .. | .window _ => mail
  | .create name attributes => mail.create name attributes
  | .rename src dst => mail.rename src dst
  | .remove name => mail.drop name
  | .copy src anchor dst =>
      let selected := ((mail.find src).map (·.messages)).getD [] |>.filter fun stored =>
        stored.uid ≤ anchor && picked stored.uid
      mail.adjust dst (·.deliverAll (selected.map (·.message)))
  | .expunge name anchor =>
      mail.adjust name (·.keep fun stored => !(stored.uid ≤ anchor && picked stored.uid))

/-- What a command reports.  A failed one may have taken effect, on messages only in part. -/
structure Reaction where
  failure : Option HelperException
  effect : Bool
  picked : Nat → Bool

/-! ## Runs -/

inductive ClientAction
  | deliver (name : String) (message : Nat)
  /-- create the original mailbox again -/
  | recreate
  deriving DecidableEq, Repr

/-- What has happened: a client has moved, or a command was issued on these mailboxes. -/
inductive Event
  | client (action : ClientAction)
  | command (command : MailCommand) (mail : Mail) (succeeded : Bool)
  deriving DecidableEq

structure World where
  mail : Mail
  original : String
  reactions : Nat → Reaction
  /-- the moves of the clients before each command -/
  clients : Nat → List ClientAction
  issued : Nat
  log : List Event

/-- The emptiness check has found the mailbox empty: of the two listings of the newest message
only that of `list_message_window` is a full one. -/
def Event.foundEmpty (name : String) : Event → Bool
  | .command (.latest other true) mail true => other == name && (mail.contents name).isEmpty
  | _ => false

namespace World

def start (mail : Mail) (original : String) (reactions : Nat → Reaction)
    (clients : Nat → List ClientAction) : World := ⟨mail, original, reactions, clients, 0, []⟩

/-- Nothing is delivered into a mailbox after the emptiness check, or when it does not exist. -/
def client (w : World) : ClientAction → World
  | .deliver name message =>
      if w.mail.names.contains name && !w.log.any (·.foundEmpty name) then
        { w with
          mail := w.mail.adjust name (·.deliver message)
          log := w.log ++ [.client (.deliver name message)] }
      else w
  | .recreate =>
      if w.mail.names.contains w.original then w
      else
        { w with
          mail := w.mail.create w.original []
          log := w.log ++ [.client .recreate] }

/-- The clients move before the next command. -/
def advance (w : World) : World := (w.clients w.issued).foldl client w

def record (w : World) (command : MailCommand) (succeeded : Bool) (mail : Mail) : World :=
  { w with mail, issued := w.issued + 1, log := w.log ++ [.command command w.mail succeeded] }

end World

abbrev MailService (α : Type) := Exec World ServiceError α

/-- `_invoke` -/
def invoke {α : Type} (command : MailCommand) (value : Mail → α) : MailService α := fun w =>
  let w' := w.advance
  let reaction := w.reactions w.issued
  if command.possible w'.mail then
    match reaction.failure with
    | none => (.ok (value w'.mail), w'.record command true (command.apply (fun _ => true) w'.mail))
    | some e => (.error (.command e), w'.record command false
        (if reaction.effect then command.apply reaction.picked w'.mail else w'.mail))
  else (.error (.command .commandFailed), w'.record command false w'.mail)

/-! ## Operations -/

/-- A record of `list_mailboxes`. -/
structure MailboxRecord where
  name : String
  attributes : List String
  deriving DecidableEq, Repr

/-- `list_mailboxes` -/
def listMailboxes : MailService (List MailboxRecord) :=
  invoke .listMailboxes fun mail => mail.boxes.map fun entry => ⟨entry.1, entry.2.attributes⟩

/-- The set of names of a listing. -/
def listedNames : MailService (List String) := do
  let records ← listMailboxes
  return records.map (·.name)

def specialUses : List String := ["archive", "drafts", "junk", "sent", "trash"]

def protectedMailboxNames : List String := "inbox" :: specialUses

def protectedSpecialUseFlags : List String :=
  ["\\all", "\\archive", "\\drafts", "\\flagged", "\\important", "\\junk", "\\sent", "\\trash"]

variable (casefold : String → String)

/-- `_require_mutable_mailbox` -/
def requireMutableMailbox (mailbox : String) (mailboxes : List MailboxRecord) :
    MailService Unit := do
  Exec.ensure (!protectedMailboxNames.contains (casefold mailbox))
    (.invalidArgument "INBOX and SPECIAL-USE mailboxes are protected")
  match mailboxes.filter (·.name == mailbox) with
  | [record] =>
      Exec.ensure (!record.attributes.any fun flag =>
          protectedSpecialUseFlags.contains (casefold flag))
        (.invalidArgument "INBOX and SPECIAL-USE mailboxes are protected")
  | _ => Exec.raise (.invalidArgument "mailbox does not exist or is ambiguous")

def maxImapUid : Nat := 2 ^ 32 - 1

/-- The record of the newest message. -/
def newestRecord (mailbox : String) (full : Bool) : MailService (Option Stored) :=
  invoke (.latest mailbox full)
    fun mail => (((mail.find mailbox).map (·.messages)).getD []).getLast?

/-- `latest_message_uid` -/
def latestMessageUid (mailbox : String) : MailService Nat := do
  match ← newestRecord mailbox false with
  | none => return 0
  | some record => do
      Exec.ensure (1 ≤ record.uid && record.uid ≤ maxImapUid)
        (.verification "Maddy omitted the latest message UID")
      return record.uid

/-- Whether `list_message_window(limit=1)` shows no message: a mailbox with a newest message
has a window, or the second listing fails. -/
def windowIsEmpty (mailbox : String) : MailService Bool := do
  match ← newestRecord mailbox true with
  | none => return true
  | some record => do
      Exec.ensure (1 ≤ record.uid && record.uid ≤ maxImapUid)
        (.verification "Maddy omitted required message cursor metadata")
      invoke (.window mailbox) fun _ => ()
      return false

/-- `_new_mailbox_quarantine_name`, with the tokens it draws. -/
def newMailboxQuarantineName (tokens : Nat → String) (existing : List String) : Option String :=
  ((List.range 4).map fun attempt => "MaddyWeb Quarantine " ++ tokens attempt).find?
    (!existing.contains ·)

/-- The body of the `try` of `_restore_mailbox_quarantine`. -/
def restoreQuarantine (mailbox quarantine : String) : MailService Unit := do
  let observed ← listedNames
  if observed.contains mailbox || !observed.contains quarantine then return ()
  else do
    invoke (.rename quarantine mailbox) fun _ => ()
    let restored ← listedNames
    Exec.ensure (restored.contains mailbox && !restored.contains quarantine)
      (.verification "mailbox quarantine restoration was not verified")

/-- `_restore_mailbox_quarantine` -/
def restoreMailboxQuarantine (mailbox quarantine : String) : MailService Unit :=
  exceptMaddyError (restoreQuarantine mailbox quarantine) fun _ => return ()

/-- A command on the messages up to the newest one, when there is one. -/
def onSnapshot (anchor : Nat) (command : Nat → MailCommand) : MailService Unit :=
  if anchor = 0 then return () else invoke (command anchor) fun _ => ()

/-- The body of the `try` of `migrate_and_delete_mailbox`. -/
def migrateMailbox (mailbox target quarantine : String) : MailService Unit := do
  invoke (.rename mailbox quarantine) fun _ => ()
  let renamed ← listedNames
  Exec.ensure (!renamed.contains mailbox && renamed.contains quarantine && renamed.contains target)
    (.verification "mailbox quarantine rename read-back verification failed")
  let anchorUid ← latestMessageUid quarantine
  onSnapshot anchorUid fun anchor => .copy quarantine anchor target
  let afterCopy ← listedNames
  Exec.ensure (!afterCopy.contains mailbox)
    (.verification "original mailbox was recreated during deletion")
  Exec.ensure (afterCopy.contains quarantine && afterCopy.contains target)
    (.verification "mailbox copy destination disappeared before source removal")
  onSnapshot anchorUid (.expunge quarantine)
  let empty ← windowIsEmpty quarantine
  Exec.ensure empty
    (.verification "quarantined mailbox changed while messages were being migrated")
  let beforeRemove ← listedNames
  Exec.ensure (!beforeRemove.contains mailbox)
    (.verification "original mailbox was recreated during deletion")
  Exec.ensure (beforeRemove.contains quarantine && beforeRemove.contains target)
    (.verification "mailbox deletion precondition changed")
  invoke (.remove quarantine) fun _ => ()
  let observed ← listedNames
  Exec.ensure (!observed.contains mailbox && !observed.contains quarantine)
    (.verification "mailbox deletion read-back verification failed")
  Exec.ensure (observed.contains target)
    (.verification "mailbox migration target disappeared during deletion")

/-- The checks of `migrate_and_delete_mailbox`, and the name of the quarantine. -/
def planMigration (tokens : Nat → String) (username mailbox target : String) :
    MailService String := do
  safePositional username "username" 254
  safePositional mailbox "mailbox" 255
  safePositional target "target mailbox" 255
  let mailboxes ← listMailboxes
  requireMutableMailbox casefold mailbox mailboxes
  Exec.ensure (!mailboxes.any fun record => (mailbox ++ "/").toList.isPrefixOf record.name.toList)
    (.invalidArgument "mailbox with child mailboxes cannot be deleted")
  Exec.ensure (mailbox != target) (.invalidArgument "source and target mailboxes must differ")
  Exec.ensure ((mailboxes.filter (·.name == target)).length == 1)
    (.invalidArgument "target mailbox does not exist or is ambiguous")
  Exec.require (fun _ => newMailboxQuarantineName tokens (mailboxes.map (·.name)))
    (.verification "could not allocate a unique mailbox quarantine name")

/-- `migrate_and_delete_mailbox` -/
def migrateAndDeleteMailbox (tokens : Nat → String) (username mailbox target : String) :
    MailService Unit := do
  let quarantine ← planMigration casefold tokens username mailbox target
  exceptMaddyError (migrateMailbox mailbox target quarantine) fun e => do
    restoreMailboxQuarantine mailbox quarantine
    Exec.raise e

end MaddyWeb.Maddy.Mailboxes
