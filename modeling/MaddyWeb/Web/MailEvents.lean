import MaddyWeb.Library.Dict
import MaddyWeb.Library.Json
import MaddyWeb.Web.MailboxCursors
import Mathlib.Data.List.Basic

/-!
# Mail events

`_MailEventHub` shares one probe of the Inbox between the tabs of a session, and `mail_events` is
the stream that a tab reads.  No block under the lock of the hub contains an `await`, so that
each of them is one step; between the steps tabs, watchers and the network come in any order.
-/

namespace MaddyWeb.Web.MailEvents

open MaddyWeb.Library

/-- The only mailbox that is watched. -/
def inbox : String := "INBOX"

/-- The digest of the session token, the account and the mailbox. -/
structure Key where
  digest : String
  account : String
  mailbox : String
  deriving DecidableEq, Repr

/-- How `latest_message_uid` ends; `value none` is something else than an `int`. -/
inductive Probe
  | value (value : Option Int)
  | helperCallError (code : String)
  | failed
  deriving DecidableEq, Repr

inductive EventName
  | newMail
  | sessionExpired
  deriving DecidableEq, Repr

structure MailEvent where
  name : EventName
  uid : Int
  deriving DecidableEq, Repr

/-- `cancelling` is a task that has been cancelled and has not yet noticed. -/
inductive Task
  | running
  | cancelling
  | done
  deriving DecidableEq, Repr

/-- `_MailEventWatcher`.  A tab is named by its number, and so is its queue; `token` stands in
the context that the task has copied from the request that created it. -/
structure Watcher where
  token : String
  account : String
  mailbox : String
  latestUid : Int
  subscribers : List Nat
  task : Option Task
  deriving DecidableEq, Repr

/-- What is written to a tab in one piece. -/
inductive Frame
  | retry
  | keepalive
  | event (name : String) (data : List (String × Json)) (eventId : Option Int)

/-- `streaming owed last`: the frames `owed` are still to be written, and the loop ends after
them if `last`. -/
inductive Phase
  | probing
  | streaming (owed : List Frame) (last : Bool)
  | ended

/-- A request of `mail_events` with its queue of one place. -/
structure Stream where
  token : String
  account : String
  resumeFrom : Option Int
  queue : Option MailEvent
  phase : Phase
  written : List Frame

/-- The watchers and streams there have been, and `_watchers`. -/
structure Hub where
  watchers : List Watcher
  registry : List (Key × Nat)
  streams : List Stream

def Hub.new : Hub := ⟨[], [], []⟩

/-- `_valid_uid` -/
def validUid : Option Int → Bool
  | some uid => 0 ≤ uid && uid ≤ maxMessageCursor
  | none => false

def Task.isDone (task : Task) : Bool := task = .done

/-- `watcher.task is not None and not watcher.task.done()` -/
def Watcher.alive (w : Watcher) : Bool := w.task.any (!·.isDone)

/-- `task.cancel()` for a task that is not done -/
def Watcher.cancel (w : Watcher) : Watcher :=
  if w.alive then { w with task := some .cancelling } else w

/-! ## The stream of a tab -/

/-- `_mail_event_bytes`; `none` is its `ValueError`. -/
def mailEventBytes (event : String) (data : List (String × Json)) (eventId : Option Int) :
    Option (List Char) :=
  let letters := event.toList
  if letters.all (fun c => c.isLower || c = '_') && letters.length ∈ List.range' 1 32 then
    let head := s!"event: {event}\n".toList
    let body := "data: ".toList ++ Json.render true (.obj data) ++ "\n\n".toList
    match eventId with
    | none => some (head ++ body)
    | some uid =>
        if validUid (some uid) then some (head ++ s!"id: {uid}\n".toList ++ body) else none
  else none

def Frame.bytes : Frame → Option (List Char)
  | .retry => some "retry: 15000\n".toList
  | .keepalive => some ": keepalive\n\n".toList
  | .event name data eventId => mailEventBytes name data eventId

def ready (eventId : Option Int) : Frame := .event "ready" [("mailbox", .str inbox)] eventId

def newMail (uid : Int) : Frame := .event "new_mail" [("mailbox", .str inbox)] (some uid)

def sessionExpired : Frame := .event "session_expired" [] none

/-- What is written before the loop. -/
def opening (resumeFrom : Option Int) (latestUid : Int) : List Frame :=
  let baseline := resumeFrom.getD latestUid
  [.retry, ready (if resumeFrom.isSome && baseline < latestUid then none else some latestUid)] ++
    if baseline < latestUid then [newMail latestUid] else []

def MailEvent.frame (event : MailEvent) : Frame :=
  match event.name with
  | .newMail => newMail event.uid
  | .sessionExpired => sessionExpired

/-- `queue.put_nowait(event)`, after the queue has been emptied where it was full -/
def put (queue : Option MailEvent) (event : MailEvent) : Option MailEvent :=
  let emptied := if queue.isSome then none else queue
  match emptied with
  | none => some event
  | some kept => some kept

/-! ## The hub -/

def Watcher.key (digest : String → String) (w : Watcher) : Key :=
  ⟨digest w.token, w.account, w.mailbox⟩

def Stream.key (digest : String → String) (s : Stream) : Key := ⟨digest s.token, s.account, inbox⟩

/-- `_publish` -/
def publish (streams : List Stream) (subscribers : List Nat) (event : MailEvent) : List Stream :=
  subscribers.foldl
    (fun streams tab => streams.modify tab fun s => { s with queue := put s.queue event }) streams

/-- The codes at which `_watch` gives up. -/
def expiredCodes : List String := ["forbidden", "password_change_required", "unauthorized"]

/-- `_watch`, from one sleep to the next -/
def Hub.watch (h : Hub) (i : Nat) (probe : Probe) : Hub :=
  match h.watchers[i]? with
  | none => h
  | some w =>
      match w.task with
      | some .running =>
          match probe with
          | .helperCallError code =>
              if code ∈ expiredCodes then
                { h with
                  streams := publish h.streams w.subscribers ⟨.sessionExpired, w.latestUid⟩
                  watchers := h.watchers.set i { w with task := some .done } }
              else h
          | .failed => h
          | .value value =>
              match value with
              | none => h
              | some uid =>
                  if validUid (some uid) then
                    { h with
                      streams :=
                        if w.latestUid < uid then publish h.streams w.subscribers ⟨.newMail, uid⟩
                        else h.streams
                      watchers := h.watchers.set i { w with latestUid := uid } }
                  else h
      | some .cancelling => { h with watchers := h.watchers.set i { w with task := some .done } }
      | _ => h

/-- The registered watcher, if its task is not done. -/
def Hub.liveWatcher (h : Hub) (key : Key) : Option (Nat × Watcher) :=
  match Dict.get h.registry key with
  | none => none
  | some i => (h.watchers[i]?.filter Watcher.alive).map fun w => (i, w)

/-- A queue is added to the subscribers, and `subscribe` returns to the tab. -/
def Hub.join (h : Hub) (i : Nat) (w : Watcher) (tab : Nat) : Hub :=
  { h with
    watchers := h.watchers.set i { w with subscribers := w.subscribers.insert tab }
    streams := h.streams.modify tab fun s =>
      { s with phase := .streaming (opening s.resumeFrom w.latestUid) false } }

/-- A watcher is registered and its task created. -/
def Hub.create (h : Hub) (key : Key) (w : Watcher) : Hub :=
  { h with watchers := h.watchers ++ [w], registry := Dict.set h.registry key h.watchers.length }

/-- `subscribe`, up to its `await` or to its end -/
def Hub.request (digest : String → String) (h : Hub) (token account : String)
    (resumeFrom : Option Int) : Hub :=
  let s : Stream := ⟨token, account, resumeFrom, none, .probing, []⟩
  let h' := { h with streams := h.streams ++ [s] }
  match h'.liveWatcher (s.key digest) with
  | some (i, w) => h'.join i w h.streams.length
  | none => h'

def Hub.setPhase (h : Hub) (tab : Nat) (phase : Phase) : Hub :=
  { h with streams := h.streams.modify tab fun s => { s with phase } }

/-- `subscribe`, after its `await` -/
def Hub.probed (digest : String → String) (h : Hub) (tab : Nat) (probe : Probe) : Hub :=
  match h.streams[tab]? with
  | none => h
  | some s =>
      match s.phase with
      | .probing =>
          match probe with
          | .value (some uid) =>
              if validUid (some uid) then
                match h.liveWatcher (s.key digest) with
                | some (i, w) => h.join i w tab
                | none =>
                    let w : Watcher := ⟨s.token, s.account, inbox, uid, [], some .running⟩
                    (h.create (s.key digest) w).join h.watchers.length w tab
              else h.setPhase tab .ended
          | _ => h.setPhase tab .ended
      | _ => h

def Hub.unsubscribe (h : Hub) (key : Key) (tab : Nat) : Hub :=
  match Dict.get h.registry key with
  | none => h
  | some i =>
      match h.watchers[i]? with
      | none => h
      | some w =>
          let left := { w with subscribers := w.subscribers.filter (· ≠ tab) }
          if left.subscribers.isEmpty then
            { h with
              registry := Dict.erase h.registry key
              watchers := h.watchers.set i left.cancel }
          else { h with watchers := h.watchers.set i left }

/-- The `finally` of `mail_events` -/
def Hub.finish (digest : String → String) (h : Hub) (tab : Nat) (s : Stream) : Hub :=
  (h.unsubscribe (s.key digest) tab).setPhase tab .ended

def Hub.close (h : Hub) : Hub :=
  { h with
    registry := []
    watchers := (h.registry.map (·.2)).foldl (fun ws i => ws.modify i Watcher.cancel) h.watchers }

/-- What can happen next. -/
inductive Action
  | request (token account : String) (resumeFrom : Option Int)
  | probed (tab : Nat) (probe : Probe)
  | watch (watcher : Nat) (probe : Probe)
  /-- The next frame is written. -/
  | write (tab : Nat)
  /-- `events.get()` returns. -/
  | receive (tab : Nat)
  | keepalive (tab : Nat)
  /-- The connection is lost, or the request is cancelled. -/
  | disconnect (tab : Nat)
  | close
  deriving DecidableEq, Repr

/-- Nothing happens where an action is not possible. -/
def Hub.next (digest : String → String) (h : Hub) : Action → Hub
  | .request token account resumeFrom => h.request digest token account resumeFrom
  | .probed tab probe => h.probed digest tab probe
  | .watch i probe => h.watch i probe
  | .close => h.close
  | .write tab =>
      match h.streams[tab]? with
      | none => h
      | some s =>
          match s.phase with
          | .streaming (frame :: owed) last =>
              match frame.bytes with
              | none => h.finish digest tab s
              | some _ =>
                  let s' :=
                    { s with written := s.written ++ [frame], phase := .streaming owed last }
                  let h' := { h with streams := h.streams.set tab s' }
                  if owed.isEmpty && last then h'.finish digest tab s else h'
          | _ => h
  | .receive tab =>
      match h.streams[tab]? with
      | none => h
      | some s =>
          match s.phase, s.queue with
          | .streaming [] false, some event =>
              let phase := .streaming [event.frame] (event.name = .sessionExpired)
              { h with streams := h.streams.set tab { s with queue := none, phase } }
          | _, _ => h
  | .keepalive tab =>
      match h.streams[tab]? with
      | none => h
      | some s =>
          match s.phase with
          | .streaming [] false =>
              { h with
                streams := h.streams.set tab { s with written := s.written ++ [.keepalive] } }
          | _ => h
  | .disconnect tab =>
      match h.streams[tab]? with
      | none => h
      | some s =>
          match s.phase with
          | .probing => h.setPhase tab .ended
          | .streaming _ _ => h.finish digest tab s
          | .ended => h

/-- The hub after the actions. -/
def Hub.after (digest : String → String) (actions : List Action) : Hub :=
  actions.foldl (Hub.next digest) Hub.new

end MaddyWeb.Web.MailEvents
