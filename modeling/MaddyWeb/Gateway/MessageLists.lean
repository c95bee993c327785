import MaddyWeb.Library.Dict
import MaddyWeb.Library.Serial
import MaddyWeb.Library.System

/-!
# The message lists of the gateway

`HelperGateway.list_messages` keeps lists for five seconds, under two generations: one of
the account and one of the mailbox.  A change of a mailbox sweeps the lists that it is
known to affect.  Deletions run in tasks that are counted; a step of a rule run runs in a
task that is not; every other change is made by its own caller, and goes on in the helper
when that caller is cancelled.
-/

namespace MaddyWeb.Gateway

open MaddyWeb.Library

set_option linter.unusedSectionVars false

def messageListCacheSeconds : Nat := 5
def messageListCacheCapacity : Nat := 128

/-- An account and a mailbox of it. -/
abbrev Scope := String × String

/-- The arguments of `_invalidate_message_lists`. -/
abbrev Sweep := String × Option String

def Sweep.covers (sweep : Sweep) (scope : Scope) : Bool :=
  sweep.1 = scope.1 && sweep.2.all (· = scope.2)

inductive Discipline
  /-- awaited by the caller itself -/
  | plain
  /-- a task that outlives its caller -/
  | shielded
  /-- such a task, which `list_messages` waits for -/
  | tracked (scope : Scope)

/-- What a change affects in the helper, and what it sweeps: before its helper call, after it in
any case, and when the helper has sent a result. -/
structure MessageMutation where
  discipline : Discipline
  affects : Scope → Bool
  before : List Sweep
  after : List Sweep
  replied : List Sweep

def movesTo (account source target : String) : MessageMutation where
  discipline := .plain
  affects scope := scope = (account, source) || scope = (account, target)
  before := [(account, some source), (account, some target)]
  after := [(account, some source), (account, some target)]
  replied := []

/-- The helper resolves the target; only its result names it. -/
def movesToSpecial (account source target : String) : MessageMutation where
  discipline := .plain
  affects scope := scope = (account, source) || scope = (account, target)
  before := [(account, some source)]
  after := [(account, some source)]
  replied := [(account, some target)]

def flags (account mailbox : String) : MessageMutation where
  discipline := .plain
  affects scope := scope = (account, mailbox)
  before := [(account, some mailbox)]
  after := [(account, some mailbox)]
  replied := []

def deletes (account mailbox : String) : MessageMutation where
  discipline := .tracked (account, mailbox)
  affects scope := scope = (account, mailbox)
  before := [(account, some mailbox)]
  after := [(account, some mailbox)]
  replied := []

/-- The mailbox itself, or one below it. -/
def liesIn (parent mailbox : String) : Bool :=
  mailbox = parent || (parent ++ "/").toList.isPrefixOf mailbox.toList

inductive MessageOperation
  | moveMessageToTrash (account mailbox trash : String)
  | moveMessageToArchive (account mailbox archive : String)
  | moveMessage (account mailbox target : String)
  | setMessageSeen (account mailbox : String)
  | setMessagesSeen (account mailbox : String)
  | moveMessagesToTrash (account mailbox trash : String)
  | moveMessagesToArchive (account mailbox archive : String)
  | moveMessages (account mailbox target : String)
  | deleteMessagePermanently (account mailbox : String)
  | deleteMessagesPermanently (account mailbox : String)
  | renameMailbox (account oldName newName : String)
  /-- `trash` is the mailbox that the helper resolves when there is no target -/
  | deleteNamedMailbox (account mailbox disposition : String) (target : Option String)
      (trash : String)
  /-- `own` is the account of the session, `sent` the mailbox that the helper resolves -/
  | saveSent (target : Option String) (own sent : String)
  | stepMailRuleRun (account : String)
  deriving DecidableEq, Repr

def MessageOperation.mutation : MessageOperation → MessageMutation
  | moveMessageToTrash account mailbox trash => movesToSpecial account mailbox trash
  | moveMessageToArchive account mailbox archive => movesToSpecial account mailbox archive
  | moveMessage account mailbox target => movesTo account mailbox target
  | setMessageSeen account mailbox => flags account mailbox
  | setMessagesSeen account mailbox => flags account mailbox
  | moveMessagesToTrash account mailbox trash => movesToSpecial account mailbox trash
  | moveMessagesToArchive account mailbox archive => movesToSpecial account mailbox archive
  | moveMessages account mailbox target => movesTo account mailbox target
  | deleteMessagePermanently account mailbox => deletes account mailbox
  | deleteMessagesPermanently account mailbox => deletes account mailbox
  | renameMailbox account oldName newName =>
      -- the mailboxes below the old name get new names too
      { discipline := .plain
        affects := fun scope =>
          scope.1 = account && (liesIn oldName scope.2 || liesIn newName scope.2)
        before := [(account, some oldName), (account, some newName)]
        after := []
        replied := [] }
  | deleteNamedMailbox account mailbox disposition target trash =>
      let sweeps : List Sweep := (account, some mailbox) ::
        match target with
        | some target => [(account, some target)]
        | none => if disposition = "trash" then [(account, none)] else []
      { discipline := .plain
        affects := fun scope =>
          scope = (account, mailbox) || scope = (account, target.getD trash)
        before := sweeps
        after := sweeps
        replied := [(account, some (target.getD trash))] }
  | saveSent target own sent =>
      let sweeps : List Sweep := target.toList.map fun account => (account, none)
      { discipline := .plain
        affects := fun scope => scope = (target.getD own, sent)
        before := sweeps
        after := sweeps
        replied := [] }
  | stepMailRuleRun account =>
      { discipline := .shielded
        affects := fun scope => scope.1 = account
        before := [(account, none)]
        after := [(account, none)]
        replied := [] }

inductive MessageRequest
  | list (read : Nat)
  | mutation (task : Nat)
  deriving DecidableEq, Repr

/-- A change, by its number in `MessageState.tasks`; `finished` when its helper call and its
sweeps are over, `abandoned` when its caller was cancelled before that. -/
structure MessageTask where
  operation : MessageOperation
  finished : Bool
  abandoned : Bool

structure ListKey (κ : Type) where
  authKey : κ
  scope : Scope
  limit : Int
  offset : Int
  deriving DecidableEq

/-- A list of messages, by the place of its read in the log of the helper. -/
structure MessageListCacheEntry where
  expiresAt : Nat
  place : Nat

inductive ListAwait
  | mutations (tasks : List Nat)
  | read (index : Nat) (generation : Nat × Nat)
  deriving DecidableEq

/-- A call of `list_messages` at an await; `known` are the changes that had taken effect and
whose calls had ended when it began. -/
structure ListReader (κ : Type) where
  key : ListKey κ
  known : List (Nat × MessageOperation)
  awaits : ListAwait

structure ListReply where
  scope : Scope
  known : List (Nat × MessageOperation)
  place : Nat
  deriving DecidableEq, Repr

structure MessageState (κ : Type) where
  now : Nat
  helper : Serial.Server MessageRequest
  messageAccountGeneration : String → Nat
  messageMailboxGeneration : Scope → Nat
  messageListCache : List (ListKey κ × MessageListCacheEntry)
  messageCacheQuarantined : List Scope
  messageMutationsInflight : Scope → Nat
  messageMutationTasks : Scope → List Nat
  tasks : List MessageTask
  /-- the number of requests for lists -/
  reads : Nat
  readers : List (ListReader κ)
  returned : List ListReply

def initialMessages {κ : Type} : MessageState κ where
  now := 0
  helper := ⟨fun _ => .created, [], []⟩
  messageAccountGeneration _ := 0
  messageMailboxGeneration _ := 0
  messageListCache := []
  messageCacheQuarantined := []
  messageMutationsInflight _ := 0
  messageMutationTasks _ := []
  tasks := []
  reads := 0
  readers := []
  returned := []

inductive MessageAction (κ : Type)
  /-- the monotonic clock advances -/
  | tick (seconds : Nat)
  | helper (event : Serial.Event MessageRequest)
  /-- a call of `list_messages` up to its first await -/
  | listMessages (key : ListKey κ)
  /-- a suspended call goes on after its await, or is cancelled there -/
  | resume (reader : Nat)
  | leave (reader : Nat)
  /-- `latest_message_uid` and the other calls that only sweep -/
  | sweep (sweep : Sweep)
  /-- a change up to its await -/
  | begin (operation : MessageOperation)
  /-- a change goes on after its helper call, to its end -/
  | finish (task : Nat)
  /-- the caller of a change is cancelled at its await -/
  | cancel (task : Nat)
  /-- the callback of a counted task that is done -/
  | release (scope : Scope) (task : Nat)

section Messages

variable {κ : Type} [DecidableEq κ]

/-- `_message_generation` -/
def MessageState.messageGeneration (s : MessageState κ) (scope : Scope) : Nat × Nat :=
  (s.messageAccountGeneration scope.1, s.messageMailboxGeneration scope)

/-- `_invalidate_message_lists` -/
def MessageState.invalidate (s : MessageState κ) (sweep : Sweep) : MessageState κ :=
  let kept := s.messageListCache.filter fun entry => !sweep.covers entry.1.scope
  match sweep with
  | (account, none) => { s with
      messageAccountGeneration := fun other =>
        if other = account then s.messageAccountGeneration other + 1
        else s.messageAccountGeneration other
      messageListCache := kept }
  | (account, some mailbox) => { s with
      messageMailboxGeneration := fun scope =>
        if scope = (account, mailbox) then s.messageMailboxGeneration scope + 1
        else s.messageMailboxGeneration scope
      messageListCache := kept }

def MessageState.invalidateAll (s : MessageState κ) (sweeps : List Sweep) : MessageState κ :=
  sweeps.foldl MessageState.invalidate s

def MessageState.suspend (s : MessageState κ) (key : ListKey κ)
    (known : List (Nat × MessageOperation)) (awaits : ListAwait) : MessageState κ :=
  { s with readers := s.readers ++ [⟨key, known, awaits⟩] }

def MessageState.done (s : MessageState κ) (task : Nat) : Bool :=
  (s.tasks[task]?).any (·.finished)

/-- The body of the loop of `list_messages` up to its next await; `_wait_for_message_mutations`
tests the same count, and raises when it finds no task. -/
def MessageState.turn (s : MessageState κ) (key : ListKey κ)
    (known : List (Nat × MessageOperation)) : MessageState κ :=
  if s.messageMutationsInflight key.scope ≠ 0 then
    let tasks := (s.messageMutationTasks key.scope).filter fun task => !s.done task
    let s := { s with messageMutationTasks := fun scope =>
      if scope = key.scope then tasks else s.messageMutationTasks scope }
    if tasks.isEmpty then s else s.suspend key known (.mutations tasks)
  else
    let cached := if key.scope ∈ s.messageCacheQuarantined then none
      else (Dict.get s.messageListCache key).filter (s.now < ·.expiresAt)
    match cached with
    | some entry => { s with returned := ⟨key.scope, known, entry.place⟩ :: s.returned }
    | none =>
        MessageState.suspend { s with reads := s.reads + 1 } key known
          (.read s.reads (s.messageGeneration key.scope))

/-- `_prune_message_list_cache`, and the insertion after it. -/
def MessageState.stored (s : MessageState κ) (key : ListKey κ) (place : Nat) :
    List (ListKey κ × MessageListCacheEntry) :=
  let live := s.messageListCache.filter fun entry => s.now < entry.2.expiresAt
  let room := live.drop (live.length - (messageListCacheCapacity - 1))
  Dict.set room key ⟨s.now + messageListCacheSeconds, place⟩

/-- `list_messages` after its helper call. -/
def MessageState.afterRead (s : MessageState κ) (reader : ListReader κ) (index : Nat)
    (generation : Nat × Nat) : MessageState κ :=
  match s.helper.phase (.list index) with
  | .answered place =>
      if generation ≠ s.messageGeneration reader.key.scope ∨
          s.messageMutationsInflight reader.key.scope ≠ 0 then
        s.turn reader.key reader.known
      else
        { s with
          messageCacheQuarantined := s.messageCacheQuarantined.filter (· ≠ reader.key.scope)
          messageListCache := s.stored reader.key place
          returned := ⟨reader.key.scope, reader.known, place⟩ :: s.returned }
  | _ => s

def MessageTask.ended (task : MessageTask) : Bool := task.finished || task.abandoned

/-- The changes that have taken effect and whose calls have ended. -/
def MessageState.effective (s : MessageState κ) : List (Nat × MessageOperation) :=
  s.tasks.zipIdx.filterMap fun (task, index) =>
    if task.ended && s.helper.served.contains (.mutation index) then some (index, task.operation)
    else none

def MessageState.beginMutation (s : MessageState κ) (operation : MessageOperation) :
    MessageState κ :=
  let task := s.tasks.length
  let s := s.invalidateAll operation.mutation.before
  let s := { s with tasks := s.tasks ++ [⟨operation, false, false⟩] }
  match operation.mutation.discipline with
  | .tracked scope => { s with
      messageMutationsInflight := fun other =>
        if other = scope then s.messageMutationsInflight other + 1
        else s.messageMutationsInflight other
      messageMutationTasks := fun other =>
        if other = scope then task :: s.messageMutationTasks other
        else s.messageMutationTasks other }
  | _ => s

/-- What a change sweeps at its end. -/
def MessageMutation.sweeps (mutation : MessageMutation) : Serial.Phase → List Sweep
  | .answered _ => mutation.after ++ mutation.replied
  | _ => mutation.after

def MessageState.finishMutation (s : MessageState κ) (index : Nat) (task : MessageTask) :
    MessageState κ :=
  let phase := s.helper.phase (.mutation index)
  let s := { s with tasks := s.tasks.set index { task with finished := true } }
  let s :=
    match task.operation.mutation.discipline with
    | .tracked scope => { s with
        messageCacheQuarantined := match phase with
          | .broken => scope :: s.messageCacheQuarantined
          | _ => s.messageCacheQuarantined
        messageMutationsInflight := fun other =>
          if other = scope then s.messageMutationsInflight other - 1
          else s.messageMutationsInflight other }
    | _ => s
  s.invalidateAll (task.operation.mutation.sweeps phase)

/-- A plain call that is cancelled runs its `finally` clause; a task goes on. -/
def MessageState.cancelMutation (s : MessageState κ) (index : Nat) (task : MessageTask) :
    MessageState κ :=
  match task.operation.mutation.discipline with
  | .plain => MessageState.invalidateAll
      { s with tasks := s.tasks.set index { task with finished := true } }
      task.operation.mutation.after
  | _ => { s with tasks := s.tasks.set index { task with abandoned := true } }

def nextMessages (s : MessageState κ) : MessageAction κ → MessageState κ
  | .tick seconds => { s with now := s.now + seconds }
  | .helper event => { s with helper := s.helper.next event }
  | .listMessages key => s.turn key s.effective
  | .resume index =>
      match s.readers[index]? with
      | none => s
      | some reader =>
          let s := { s with readers := s.readers.eraseIdx index }
          match reader.awaits with
          | .mutations _ => s.turn reader.key reader.known
          | .read read generation => s.afterRead reader read generation
  | .leave index => { s with readers := s.readers.eraseIdx index }
  | .sweep sweep => s.invalidate sweep
  | .begin operation => s.beginMutation operation
  | .finish index =>
      match s.tasks[index]? with
      | none => s
      | some task => s.finishMutation index task
  | .cancel index =>
      match s.tasks[index]? with
      | none => s
      | some task => s.cancelMutation index task
  | .release scope task => { s with
      messageMutationTasks := fun other =>
        if other = scope then (s.messageMutationTasks other).filter (· ≠ task)
        else s.messageMutationTasks other }

/-- The thread of a call that is cancelled still submits its request. -/
def enabledMessages (s : MessageState κ) : MessageAction κ → Bool
  | .tick _ | .listMessages _ | .sweep _ | .begin _ => true
  | .helper event => s.helper.enabled event &&
      match event with
      | .submit (.list read) | .fail (.list read) => read < s.reads
      | .submit (.mutation task) => task < s.tasks.length
      | .fail (.mutation task) => (s.tasks[task]?).any (!·.finished)
      | .serve _ | .drop => true
  | .resume index => (s.readers[index]?).any fun reader =>
      match reader.awaits with
      | .mutations tasks => tasks.all s.done
      | .read read _ =>
          s.helper.phase (.list read) ≠ .created && s.helper.phase (.list read) ≠ .queued
  | .leave index => index < s.readers.length
  | .finish index => (s.tasks[index]?).any (!·.finished) &&
      s.helper.phase (.mutation index) ≠ .created && s.helper.phase (.mutation index) ≠ .queued
  | .cancel index => (s.tasks[index]?).any (!·.ended)
  | .release _ task => s.done task

def messageSystem : System (MessageState κ) (MessageAction κ) where
  initial := initialMessages
  enabled s a := enabledMessages s a = true
  next := nextMessages

end Messages

end MaddyWeb.Gateway
