import MaddyWeb.Gateway.MessageLists

/-!
# Message lists after a change

A list that is kept, or that is being read under the generations of now, is `Behind` a
change when it was read after it, or will be.  A change whose call has ended leaves only
such lists of the mailboxes that it affects, if those that it does not sweep at its end
are left so by themselves.
-/

namespace MaddyWeb.Gateway

open MaddyWeb.Library

set_option linter.unusedSectionVars false

section Behind

variable {κ : Type} [DecidableEq κ]

/-- The read of a suspended call, when its generations are those of now. -/
def MessageState.currentRead (s : MessageState κ) (reader : ListReader κ) : Option Nat :=
  match reader.awaits with
  | .read index generation =>
      if generation = s.messageGeneration reader.key.scope then some index else none
  | .mutations _ => none

def Behind (s : MessageState κ) (task : Nat) (scopes : Scope → Bool) : Prop :=
  (∀ entry ∈ s.messageListCache, scopes entry.1.scope = true →
    Serial.Past s.helper (.mutation task) entry.2.place) ∧
  ∀ reader ∈ s.readers, scopes reader.key.scope = true →
    ∀ index ∈ s.currentRead reader, Serial.Follows s.helper (.list index) [.mutation task]

instance (s : MessageState κ) (task : Nat) (scopes : Scope → Bool) :
    Decidable (Behind s task scopes) :=
  inferInstanceAs (Decidable (_ ∧ _))

def covered (sweeps : List Sweep) (scope : Scope) : Bool := sweeps.any (·.covers scope)

/-- A change leaves nothing stale in the mailboxes that it affects and does not sweep. -/
def Unswept (s : MessageState κ) (index : Nat) (task : MessageTask) (sweeps : List Sweep) : Prop :=
  Behind s index fun scope => task.operation.mutation.affects scope && !covered sweeps scope

instance (s : MessageState κ) (index : Nat) (task : MessageTask) (sweeps : List Sweep) :
    Decidable (Unswept s index task sweeps) :=
  inferInstanceAs (Decidable (Behind _ _ _))

def MessageTask.shielded (task : MessageTask) : Bool :=
  match task.operation.mutation.discipline with
  | .shielded => true
  | _ => false

def MessageTask.plain (task : MessageTask) : Bool :=
  match task.operation.mutation.discipline with
  | .plain => true
  | _ => false

/-- What is asked of a step: a call that ends, and an abandoned step of a rule run that takes
effect, leave nothing stale; and no request is submitted for a call that has ended. -/
def Settles (s : MessageState κ) : MessageAction κ → Prop
  | .finish index => ∀ task ∈ s.tasks[index]?,
      Unswept s index task (task.operation.mutation.sweeps (s.helper.phase (.mutation index)))
  | .cancel index => ∀ task ∈ s.tasks[index]?,
      (task.plain = true → s.helper.phase (.mutation index) ≠ .created →
        Unswept s index task task.operation.mutation.after) ∧
      (task.shielded = true → .mutation index ∈ s.helper.served → Unswept s index task [])
  | .helper (.submit (.mutation index)) => ∀ task ∈ s.tasks[index]?, task.finished = false
  | .helper (.serve _) => ∀ request ∈ s.helper.queue.head?,
      match request with
      | .mutation index => ∀ task ∈ s.tasks[index]?,
          task.shielded = true → task.abandoned = true → task.finished = false →
            Unswept s index task []
      | .list _ => True
  | _ => True

instance (s : MessageState κ) (a : MessageAction κ) : Decidable (Settles s a) :=
  match a with
  | .finish index => inferInstanceAs (Decidable (∀ task ∈ s.tasks[index]?,
      Unswept s index task (task.operation.mutation.sweeps (s.helper.phase (.mutation index)))))
  | .cancel index => inferInstanceAs (Decidable (∀ task ∈ s.tasks[index]?,
      (task.plain = true → s.helper.phase (.mutation index) ≠ .created →
        Unswept s index task task.operation.mutation.after) ∧
      (task.shielded = true → .mutation index ∈ s.helper.served → Unswept s index task [])))
  | .helper (.submit (.mutation index)) =>
      inferInstanceAs (Decidable (∀ task ∈ s.tasks[index]?, task.finished = false))
  | .helper (.serve _) =>
      match h : s.helper.queue.head? with
      | some (.mutation index) => decidable_of_iff
          (∀ task ∈ s.tasks[index]?, task.shielded = true → task.abandoned = true →
            task.finished = false → Unswept s index task []) (by simp [Settles, h])
      | some (.list _) | none => isTrue (by simp [Settles, h])
  | .helper (.submit (.list _)) | .helper .drop | .helper (.fail _) | .tick _ | .listMessages _
  | .resume _ | .leave _ | .sweep _ | .begin _ | .release _ _ => isTrue trivial

instance (s : MessageState κ) (a : MessageAction κ) : Decidable (messageSystem.enabled s a) :=
  inferInstanceAs (Decidable (_ = true))

variable {s : MessageState κ} {index : Nat} {scopes : Scope → Bool}

theorem Behind.cached (h : Behind s index scopes) {entry : ListKey κ × MessageListCacheEntry}
    (hentry : entry ∈ s.messageListCache) (hscope : scopes entry.1.scope = true) :
    Serial.Past s.helper (.mutation index) entry.2.place :=
  h.1 entry hentry hscope

theorem Behind.reading (h : Behind s index scopes) {reader : ListReader κ}
    (hreader : reader ∈ s.readers) (hscope : scopes reader.key.scope = true) {read : Nat}
    (hread : read ∈ s.currentRead reader) :
    Serial.Follows s.helper (.list read) [.mutation index] :=
  h.2 reader hreader hscope read hread

theorem Behind.weaken (h : Behind s index scopes) {fewer : Scope → Bool}
    (hfewer : ∀ scope, fewer scope = true → scopes scope = true) : Behind s index fewer :=
  And.intro (fun _ hentry hscope => h.cached hentry (hfewer _ hscope))
    fun _ hreader hscope _ hread => h.reading hreader (hfewer _ hscope) hread

theorem Behind.helper (h : Behind s index scopes) {event : Serial.Event MessageRequest}
    (hclosed : Serial.Closed s.helper (.mutation index))
    (hqueue : ∀ request ∈ s.helper.queue, Serial.Closed s.helper request)
    (henabled : s.helper.enabled event = true) :
    Behind { s with helper := s.helper.next event } index scopes := by
  constructor
  · intro entry hentry hscope
    exact (h.cached hentry hscope).next hclosed henabled
  · intro reader hreader hscope read hread
    apply (h.reading hreader hscope hread).next _ _ hqueue henabled
    · intro hmem
      cases List.mem_singleton.mp hmem
    · intro other hother
      rw [List.mem_singleton.mp hother]
      exact hclosed

/-- The generations of a suspended call are not ahead of those of now. -/
def Paced (s : MessageState κ) : Prop :=
  ∀ reader ∈ s.readers, ∀ read generation, reader.awaits = .read read generation →
    generation.1 ≤ (s.messageGeneration reader.key.scope).1 ∧
      generation.2 ≤ (s.messageGeneration reader.key.scope).2

theorem invalidate_generation (s : MessageState κ) (sweep : Sweep) (scope : Scope) :
    (s.invalidate sweep).messageGeneration scope =
      if sweep.covers scope then
        if sweep.2 = none then
          ((s.messageGeneration scope).1 + 1, (s.messageGeneration scope).2)
        else ((s.messageGeneration scope).1, (s.messageGeneration scope).2 + 1)
      else s.messageGeneration scope := by
  obtain ⟨account, mailbox⟩ := sweep
  obtain ⟨account', mailbox'⟩ := scope
  unfold MessageState.invalidate MessageState.messageGeneration Sweep.covers
  by_cases haccount : account = account'
  · subst haccount
    cases mailbox with
    | none => simp
    | some mailbox =>
        by_cases hmailbox : mailbox = mailbox'
        · simp [hmailbox]
        · simp [hmailbox, Ne.symm hmailbox]
  · cases mailbox with
    | none => simp [haccount, Ne.symm haccount]
    | some mailbox => simp [haccount, Ne.symm haccount]

theorem generation_le_invalidate (s : MessageState κ) (sweep : Sweep) (scope : Scope) :
    (s.messageGeneration scope).1 ≤ ((s.invalidate sweep).messageGeneration scope).1 ∧
      (s.messageGeneration scope).2 ≤ ((s.invalidate sweep).messageGeneration scope).2 := by
  rw [invalidate_generation]
  split
  · split
    · exact ⟨Nat.le_succ _, Nat.le_refl _⟩
    · exact ⟨Nat.le_refl _, Nat.le_succ _⟩
  · exact ⟨Nat.le_refl _, Nat.le_refl _⟩

theorem invalidate_readers (s : MessageState κ) (sweep : Sweep) :
    (s.invalidate sweep).readers = s.readers := by
  unfold MessageState.invalidate
  split <;> rfl

theorem invalidate_helper (s : MessageState κ) (sweep : Sweep) :
    (s.invalidate sweep).helper = s.helper := by
  unfold MessageState.invalidate
  split <;> rfl

theorem invalidate_cache (s : MessageState κ) (sweep : Sweep) :
    (s.invalidate sweep).messageListCache =
      s.messageListCache.filter fun entry => !sweep.covers entry.1.scope := by
  unfold MessageState.invalidate
  split <;> rfl

theorem Paced.invalidate (h : Paced s) (sweep : Sweep) : Paced (s.invalidate sweep) := by
  intro reader hreader read generation hawaits
  rw [invalidate_readers] at hreader
  have hold := h reader hreader read generation hawaits
  have hgrows := generation_le_invalidate s sweep reader.key.scope
  exact ⟨Nat.le_trans hold.1 hgrows.1, Nat.le_trans hold.2 hgrows.2⟩

theorem mem_currentRead {reader : ListReader κ} {read : Nat} :
    read ∈ s.currentRead reader ↔
      reader.awaits = .read read (s.messageGeneration reader.key.scope) := by
  unfold MessageState.currentRead
  split
  · next index generation hawaits =>
      rw [hawaits]
      split
      · next hcurrent =>
          rw [hcurrent, Option.mem_def, Option.some.injEq, ListAwait.read.injEq]
          exact ⟨fun h => ⟨h, rfl⟩, fun h => h.1⟩
      · next hold =>
          rw [ListAwait.read.injEq]
          exact ⟨nofun, fun h => absurd h.2 hold⟩
  · next tasks hawaits =>
      rw [hawaits]
      exact ⟨nofun, nofun⟩

/-- A sweep leaves no current read of the mailboxes that it covers. -/
theorem currentRead_invalidate (h : Paced s) {sweep : Sweep} {reader : ListReader κ} {read : Nat}
    (hreader : reader ∈ s.readers) (hread : read ∈ (s.invalidate sweep).currentRead reader) :
    sweep.covers reader.key.scope = false ∧ read ∈ s.currentRead reader := by
  rw [mem_currentRead] at hread
  have hpaced := h reader hreader read _ hread
  rw [invalidate_generation] at hread hpaced
  by_cases hcovers : sweep.covers reader.key.scope = true
  · rw [if_pos hcovers] at hpaced
    split at hpaced
    · exact absurd hpaced.1 (Nat.not_succ_le_self _)
    · exact absurd hpaced.2 (Nat.not_succ_le_self _)
  · rw [if_neg hcovers] at hread
    exact ⟨Bool.not_eq_true _ ▸ hcovers, mem_currentRead.mpr hread⟩

theorem Behind.swept (hpaced : Paced s) {sweep : Sweep}
    (h : Behind s index fun scope => scopes scope && !sweep.covers scope) :
    Behind (s.invalidate sweep) index scopes := by
  constructor
  · intro entry hentry hscope
    rw [invalidate_cache, List.mem_filter] at hentry
    rw [invalidate_helper]
    apply h.cached hentry.1
    rw [hscope, hentry.2]
    rfl
  · intro reader hreader hscope read hread
    rw [invalidate_readers] at hreader
    obtain ⟨hcovers, hread⟩ := currentRead_invalidate hpaced hreader hread
    rw [invalidate_helper]
    apply h.reading hreader _ hread
    rw [hscope, hcovers]
    rfl

/-- Only the mailboxes that no sweep covers have to be looked at. -/
theorem Behind.sweptAll (sweeps : List Sweep) (hpaced : Paced s)
    (h : Behind s index fun scope => scopes scope && !covered sweeps scope) :
    Behind (s.invalidateAll sweeps) index scopes := by
  induction sweeps generalizing s with
  | nil =>
      apply h.weaken
      intro scope hscope
      rw [hscope]
      rfl
  | cons sweep sweeps ih =>
      apply ih (hpaced.invalidate sweep)
      apply Behind.swept hpaced
      apply h.weaken
      intro scope hscope
      unfold covered at hscope ⊢
      rw [List.any_cons, Bool.not_or]
      rw [Bool.and_assoc, Bool.and_comm (!List.any _ _)] at hscope
      exact hscope

theorem Behind.invalidateAll (h : Behind s index scopes) (hpaced : Paced s)
    (sweeps : List Sweep) : Behind (s.invalidateAll sweeps) index scopes := by
  apply Behind.sweptAll sweeps hpaced
  apply h.weaken
  intro scope hscope
  exact (Bool.and_eq_true_iff.mp hscope).1

end Behind

section Invariant

variable {κ : Type} [DecidableEq κ]

/-- The call of the change has ended, and the helper has been given its request; a rule step
whose caller was cancelled counts from when it takes effect. -/
def MessageState.Due (s : MessageState κ) (index : Nat) (task : MessageTask) : Prop :=
  (task.finished = true ∧ Serial.Closed s.helper (.mutation index)) ∨
    (task.shielded = true ∧ task.abandoned = true ∧ .mutation index ∈ s.helper.served)

def MessageTask.unsettled (scope : Scope) (task : MessageTask) : Bool :=
  match task.operation.mutation.discipline with
  | .tracked other => other = scope && !task.finished
  | _ => false

/-- The change has taken effect and its call has ended. -/
def MessageState.Effective (s : MessageState κ) (change : Nat × MessageOperation) : Prop :=
  ∃ task, s.tasks[change.1]? = some task ∧ task.operation = change.2 ∧ task.ended = true ∧
    .mutation change.1 ∈ s.helper.served

structure MessageInv (s : MessageState κ) : Prop where
  queued : ∀ request ∈ s.helper.queue, Serial.Closed s.helper request
  served : ∀ request ∈ s.helper.served, Serial.Closed s.helper request
  unborn : ∀ read, s.reads ≤ read → s.helper.phase (.list read) = .created
  paced : Paced s
  inflight : ∀ scope, s.messageMutationsInflight scope = s.tasks.countP (·.unsettled scope)
  unabandoned : ∀ task ∈ s.tasks, task.plain = true → task.abandoned = false
  behind : ∀ (index : Nat) (task : MessageTask), s.tasks[index]? = some task → s.Due index task →
    Behind s index task.operation.mutation.affects
  known : ∀ reader ∈ s.readers, ∀ change ∈ reader.known, s.Effective change
  replies : ∀ reply ∈ s.returned, ∀ change ∈ reply.known,
    Serial.Closed s.helper (.mutation change.1) ∧
      (change.2.mutation.affects reply.scope = true →
        Serial.Past s.helper (.mutation change.1) reply.place)

variable {s : MessageState κ} {key : ListKey κ} {known : List (Nat × MessageOperation)}

theorem mem_effective {change : Nat × MessageOperation} (h : change ∈ s.effective) :
    s.Effective change := by
  unfold MessageState.effective at h
  obtain ⟨⟨task, index⟩, hmem, hsome⟩ := List.mem_filterMap.mp h
  have htask : s.tasks[index]? = some task := List.mk_mem_zipIdx_iff_getElem?.mp hmem
  dsimp only at hsome
  split at hsome
  · next hboth =>
      rw [Bool.and_eq_true] at hboth
      rw [← Option.some.inj hsome]
      exact ⟨task, htask, rfl, hboth.1, List.contains_iff_mem.mp hboth.2⟩
  · cases hsome

/-- A counted change affects the mailbox under which it is counted, and sweeps it. -/
theorem eq_of_tracked {operation : MessageOperation} {scope other : Scope}
    (htracked : operation.mutation.discipline = .tracked other)
    (haffects : operation.mutation.affects scope = true) : other = scope := by
  cases operation with
  | deleteMessagePermanently account mailbox =>
      injection htracked with htracked
      exact htracked ▸ (of_decide_eq_true haffects).symm
  | deleteMessagesPermanently account mailbox =>
      injection htracked with htracked
      exact htracked ▸ (of_decide_eq_true haffects).symm
  | _ => cases htracked

theorem MessageInv.due_of_effective (h : MessageInv s) {change : Nat × MessageOperation}
    (heffective : s.Effective change) {scope : Scope}
    (haffects : change.2.mutation.affects scope = true)
    (hinflight : s.messageMutationsInflight scope = 0) :
    ∃ task, s.tasks[change.1]? = some task ∧ task.operation = change.2 ∧ s.Due change.1 task := by
  obtain ⟨task, htask, hoperation, hended, hserved⟩ := heffective
  have hclosed := h.served _ hserved
  have hmem : task ∈ s.tasks := List.mem_of_getElem? htask
  refine ⟨task, htask, hoperation, ?_⟩
  rw [← hoperation] at haffects
  unfold MessageTask.ended at hended
  rw [Bool.or_eq_true] at hended
  rcases hended with hfinished | habandoned
  · exact Or.inl ⟨hfinished, hclosed⟩
  · cases hdiscipline : task.operation.mutation.discipline with
    | plain =>
        have hplain : task.plain = true := by
          unfold MessageTask.plain
          rw [hdiscipline]
        rw [h.unabandoned task hmem hplain] at habandoned
        cases habandoned
    | shielded =>
        have hshielded : task.shielded = true := by
          unfold MessageTask.shielded
          rw [hdiscipline]
        exact Or.inr ⟨hshielded, habandoned, hserved⟩
    | tracked other =>
        -- a counted task that has not finished would keep the call waiting
        left
        refine ⟨?_, hclosed⟩
        by_contra hnot
        have hunsettled : task.unsettled scope = true := by
          unfold MessageTask.unsettled
          rw [hdiscipline]
          dsimp only
          rw [eq_of_tracked hdiscipline haffects, Bool.eq_false_iff.mpr hnot]
          simp
        have hpos := List.countP_pos_iff.mpr ⟨task, hmem, hunsettled⟩
        rw [h.inflight scope] at hinflight
        exact absurd hinflight (Nat.ne_of_gt hpos)

theorem MessageInv.suspend (h : MessageInv s) (hknown : ∀ change ∈ known, s.Effective change)
    {awaits : ListAwait} (hawaits : ∀ read generation, awaits = .read read generation →
      generation = s.messageGeneration key.scope ∧ s.helper.phase (.list read) = .created) :
    MessageInv (s.suspend key known awaits) := by
  refine { h with paced := ?_, behind := ?_, known := ?_ }
  · intro reader hreader read generation hread
    rcases List.mem_append.mp hreader with hreader | hreader
    · exact h.paced reader hreader read generation hread
    · rw [List.mem_singleton.mp hreader] at hread ⊢
      obtain ⟨hgeneration, _⟩ := hawaits read generation hread
      rw [hgeneration]
      exact ⟨Nat.le_refl _, Nat.le_refl _⟩
  · intro index task htask hdue
    have hbehind := h.behind index task htask hdue
    refine And.intro hbehind.1 ?_
    intro reader hreader hscope read hread
    rcases List.mem_append.mp hreader with hreader | hreader
    · exact hbehind.reading hreader hscope hread
    · rw [List.mem_singleton.mp hreader] at hread
      exact Serial.follows_of_created (hawaits read _ (mem_currentRead.mp hread)).2
  · intro reader hreader
    rcases List.mem_append.mp hreader with hreader | hreader
    · exact h.known reader hreader
    · rw [List.mem_singleton.mp hreader]
      exact hknown

/-- A list may be returned when it is behind every change that has ended. -/
theorem MessageInv.reply (h : MessageInv s) (hknown : ∀ change ∈ known, s.Effective change)
    {place : Nat} {scope : Scope} (hinflight : s.messageMutationsInflight scope = 0)
    (hplace : ∀ (index : Nat) (task : MessageTask), s.tasks[index]? = some task → s.Due index task →
      task.operation.mutation.affects scope = true →
      Serial.Past s.helper (.mutation index) place) :
    MessageInv { s with returned := ⟨scope, known, place⟩ :: s.returned } := by
  refine { h with replies := List.forall_mem_cons.mpr ⟨?_, h.replies⟩ }
  intro change hchange
  obtain ⟨_, _, _, _, hserved⟩ := hknown change hchange
  refine ⟨h.served _ hserved, fun haffects => ?_⟩
  obtain ⟨task, htask, hoperation, hdue⟩ :=
    h.due_of_effective (hknown change hchange) haffects hinflight
  exact hplace change.1 task htask hdue (hoperation ▸ haffects)

theorem MessageInv.retask (h : MessageInv s) (tasks : Scope → List Nat) :
    MessageInv { s with messageMutationTasks := tasks } :=
  { h with }

theorem MessageInv.turn (h : MessageInv s) (hknown : ∀ change ∈ known, s.Effective change) :
    MessageInv (s.turn key known) := by
  unfold MessageState.turn
  split
  · dsimp only
    split
    · exact { h with }
    · apply MessageInv.suspend (h.retask _)
      · exact hknown
      · intro read generation hawaits
        cases hawaits
  · next hinflight =>
      rw [not_not] at hinflight
      dsimp only
      split
      · next entry hcached =>
          apply h.reply hknown hinflight
          intro index task htask hdue haffects
          have hmem : (key, entry) ∈ s.messageListCache := by
            split at hcached
            · cases hcached
            · exact Dict.mem_of_get (Option.eq_some_of_filter_eq_some hcached)
          exact (h.behind index task htask hdue).cached hmem haffects
      · have hread : MessageInv { s with reads := s.reads + 1 } :=
          { h with unborn := fun read hlt => h.unborn read (Nat.le_of_succ_le hlt) }
        apply hread.suspend hknown
        intro read generation hawaits
        injection hawaits with hindex hgeneration
        exact ⟨hgeneration.symm, hindex ▸ h.unborn s.reads (Nat.le_refl _)⟩

theorem mem_stored {place : Nat} {entry : ListKey κ × MessageListCacheEntry}
    (h : entry ∈ s.stored key place) :
    (entry.1 = key ∧ entry.2.place = place) ∨ entry ∈ s.messageListCache := by
  rcases Dict.mem_set h with rfl | h
  · exact Or.inl ⟨rfl, rfl⟩
  · exact Or.inr (List.mem_filter.mp (List.mem_of_mem_drop h)).1

theorem MessageInv.store (h : MessageInv s) {cache : List (ListKey κ × MessageListCacheEntry)}
    {place : Nat}
    (hcache : ∀ entry ∈ cache, (entry.1 = key ∧ entry.2.place = place) ∨
      entry ∈ s.messageListCache)
    (hplace : ∀ (index : Nat) (task : MessageTask), s.tasks[index]? = some task → s.Due index task →
      task.operation.mutation.affects key.scope = true →
      Serial.Past s.helper (.mutation index) place) (scopes : List Scope) :
    MessageInv { s with messageCacheQuarantined := scopes, messageListCache := cache } := by
  refine { h with behind := ?_ }
  intro index task htask hdue
  have hbehind := h.behind index task htask hdue
  refine And.intro ?_ hbehind.2
  intro entry hentry hscope
  rcases hcache entry hentry with ⟨hkey, hentryPlace⟩ | hentry
  · rw [hentryPlace]
    exact hplace index task htask hdue (hkey ▸ hscope)
  · exact hbehind.cached hentry hscope

theorem MessageInv.leave (h : MessageInv s) (index : Nat) :
    MessageInv { s with readers := s.readers.eraseIdx index } := by
  have hmem : ∀ reader ∈ s.readers.eraseIdx index, reader ∈ s.readers :=
    fun reader hreader => (List.eraseIdx_sublist _ _).subset hreader
  refine { h with paced := ?_, behind := ?_, known := ?_ }
  · exact fun reader hreader => h.paced reader (hmem reader hreader)
  · intro index task htask hdue
    have hbehind := h.behind index task htask hdue
    exact And.intro hbehind.1 fun reader hreader => hbehind.2 reader (hmem reader hreader)
  · exact fun reader hreader => h.known reader (hmem reader hreader)

/-- `read` is the read of a call that has just been taken out of the suspended ones. -/
theorem MessageInv.afterRead (h : MessageInv s) {reader : ListReader κ} {read position : Nat}
    {generation : Nat × Nat} (hreader : reader ∈ s.readers)
    (hawaits : reader.awaits = .read read generation) :
    MessageInv (MessageState.afterRead { s with readers := s.readers.eraseIdx position }
      reader read generation) := by
  have hleft := h.leave position
  have hknown := h.known reader hreader
  unfold MessageState.afterRead
  dsimp only
  split
  · next place hphase =>
      split
      · exact hleft.turn hknown
      · next hcurrent =>
          rw [not_or, not_not, not_not] at hcurrent
          obtain ⟨hgeneration, hinflight⟩ := hcurrent
          have hread : read ∈ s.currentRead reader :=
            mem_currentRead.mpr (hgeneration ▸ hawaits)
          have hplace : ∀ (index : Nat) (task : MessageTask), s.tasks[index]? = some task →
              s.Due index task → task.operation.mutation.affects reader.key.scope = true →
              Serial.Past s.helper (.mutation index) place := by
            intro index task htask hdue haffects
            have hfollows := (h.behind index task htask hdue).reading hreader haffects hread
            exact hfollows.answered hphase List.mem_cons_self
          have hreplied := hleft.reply hknown hinflight hplace
          apply hreplied.store _ hplace
          intro entry hentry
          exact mem_stored hentry
  · exact hleft

theorem MessageInv.resume (h : MessageInv s) (index : Nat) :
    MessageInv (nextMessages s (.resume index)) := by
  unfold nextMessages
  dsimp only
  split
  · exact h
  · next reader hreader =>
      have hmem := List.mem_of_getElem? hreader
      split
      · exact (h.leave index).turn (h.known reader hmem)
      · next read generation hawaits => exact h.afterRead hmem hawaits

theorem MessageInv.invalidate (h : MessageInv s) (sweep : Sweep) :
    MessageInv (s.invalidate sweep) := by
  have hothers : s.invalidate sweep = { s with
      messageAccountGeneration := (s.invalidate sweep).messageAccountGeneration
      messageMailboxGeneration := (s.invalidate sweep).messageMailboxGeneration
      messageListCache := (s.invalidate sweep).messageListCache } := by
    unfold MessageState.invalidate
    split <;> rfl
  have hpaced := h.paced.invalidate sweep
  have hbehind : ∀ index task, s.tasks[index]? = some task → s.Due index task →
      Behind (s.invalidate sweep) index task.operation.mutation.affects :=
    fun index task htask hdue =>
      (h.behind index task htask hdue).invalidateAll h.paced [sweep]
  rw [hothers] at hpaced hbehind ⊢
  exact { h with paced := hpaced, behind := hbehind }

theorem MessageInv.invalidateAll (h : MessageInv s) (sweeps : List Sweep) :
    MessageInv (s.invalidateAll sweeps) := by
  induction sweeps generalizing s with
  | nil => exact h
  | cons sweep sweeps ih => exact ih (h.invalidate sweep)

theorem Unswept.behind {index : Nat} {task : MessageTask} (h : Unswept s index task []) :
    Behind s index task.operation.mutation.affects := by
  apply Behind.weaken h
  intro scope hscope
  rw [hscope]
  rfl

/-- A change whose call has ended and whose request the helper has not been given is not given
to it later. -/
theorem closed_of_closed_next {event : Serial.Event MessageRequest} {index : Nat}
    {task : MessageTask} (htask : s.tasks[index]? = some task) (hfinished : task.finished = true)
    (hqueue : ∀ request ∈ s.helper.queue, Serial.Closed s.helper request)
    (henabled : enabledMessages s (.helper event) = true) (hgood : Settles s (.helper event))
    (hclosed : Serial.Closed (s.helper.next event) (.mutation index)) :
    Serial.Closed s.helper (.mutation index) := by
  unfold enabledMessages at henabled
  dsimp only at henabled
  rw [Bool.and_eq_true] at henabled
  intro hcreated
  apply hclosed
  apply Serial.created_next hcreated hqueue henabled.1
  · intro heq
    subst heq
    have hunfinished : task.finished = false := hgood task htask
    rw [hfinished] at hunfinished
    cases hunfinished
  · intro heq
    subst heq
    have hunfinished : (s.tasks[index]?).any (!·.finished) = true := henabled.2
    rw [htask, Option.any_some, hfinished] at hunfinished
    cases hunfinished

theorem MessageInv.behind_helper (h : MessageInv s) {event : Serial.Event MessageRequest}
    (henabled : enabledMessages s (.helper event) = true) (hgood : Settles s (.helper event))
    {index : Nat} {task : MessageTask} (htask : s.tasks[index]? = some task)
    (hdue : MessageState.Due { s with helper := s.helper.next event } index task) :
    Behind s index task.operation.mutation.affects ∧
      Serial.Closed s.helper (.mutation index) := by
  rcases hdue with ⟨hfinished, hclosed⟩ | ⟨hshielded, habandoned, hserved⟩
  · have hbefore := closed_of_closed_next htask hfinished h.queued henabled hgood hclosed
    exact ⟨h.behind index task htask (Or.inl ⟨hfinished, hbefore⟩), hbefore⟩
  · rcases Serial.mem_served_next hserved with hserved | ⟨accepted, queue, rfl, hqueue⟩
    · have hbehind := h.behind index task htask (Or.inr ⟨hshielded, habandoned, hserved⟩)
      exact ⟨hbehind, h.served _ hserved⟩
    · have hclosed := h.queued (.mutation index) (hqueue ▸ List.mem_cons_self)
      refine ⟨?_, hclosed⟩
      cases hfinished : task.finished with
      | true => exact h.behind index task htask (Or.inl ⟨hfinished, hclosed⟩)
      | false =>
          unfold Settles at hgood
          dsimp only at hgood
          have hhead := hgood (.mutation index) (by rw [hqueue]; rfl)
          exact (hhead task htask hshielded habandoned hfinished).behind

theorem MessageInv.helper (h : MessageInv s) {event : Serial.Event MessageRequest}
    (henabled : enabledMessages s (.helper event) = true) (hgood : Settles s (.helper event)) :
    MessageInv (nextMessages s (.helper event)) := by
  have hboth := henabled
  unfold enabledMessages at hboth
  dsimp only at hboth
  rw [Bool.and_eq_true] at hboth
  obtain ⟨hserver, hbegun⟩ := hboth
  have hunborn : ∀ read, s.reads ≤ read →
      (s.helper.next event).phase (.list read) = .created := by
    intro read hread
    apply Serial.created_next (h.unborn read hread) h.queued hserver
    all_goals
      intro heq
      subst heq
      exact absurd (of_decide_eq_true hbegun) (Nat.not_lt.mpr hread)
  refine { h with
    queued := Serial.closed_of_queued h.queued hserver
    served := ?_
    unborn := hunborn
    behind := ?_
    known := ?_
    replies := ?_ }
  · intro request hrequest
    rcases Serial.mem_served_next hrequest with hrequest | ⟨_, queue, _, hqueue⟩
    · exact (h.served request hrequest).next
    · exact (h.queued request (hqueue ▸ List.mem_cons_self)).next
  · intro index task htask hdue
    obtain ⟨hbehind, hclosed⟩ := h.behind_helper henabled hgood htask hdue
    exact hbehind.helper hclosed h.queued hserver
  · intro reader hreader change hchange
    obtain ⟨task, htask, hoperation, hended, hserved⟩ := h.known reader hreader change hchange
    exact ⟨task, htask, hoperation, hended, Serial.served_subset_next hserved⟩
  · intro reply hreply change hchange
    obtain ⟨hclosed, hpast⟩ := h.replies reply hreply change hchange
    exact ⟨hclosed.next, fun haffects => (hpast haffects).next hclosed hserver⟩

/-! ## Changes begin and end -/

theorem getElem?_concat_eq {tasks : List MessageTask} {new task : MessageTask} {index : Nat}
    (h : (tasks ++ [new])[index]? = some task) : tasks[index]? = some task ∨ task = new := by
  by_cases hlt : index < tasks.length
  · rw [List.getElem?_append_left hlt] at h
    exact Or.inl h
  · rw [List.getElem?_append_right (Nat.not_lt.mp hlt)] at h
    exact Or.inr (List.mem_singleton.mp (List.mem_of_getElem? h))

theorem MessageInv.begun (h : MessageInv s) (operation : MessageOperation)
    {inflight : Scope → Nat}
    (hinflight : ∀ scope, inflight scope = s.messageMutationsInflight scope +
      if MessageTask.unsettled scope ⟨operation, false, false⟩ then 1 else 0)
    (tasks : Scope → List Nat) :
    MessageInv { s with
      tasks := s.tasks ++ [⟨operation, false, false⟩]
      messageMutationsInflight := inflight
      messageMutationTasks := tasks } := by
  refine { h with inflight := ?_, unabandoned := ?_, behind := ?_, known := ?_ }
  · intro scope
    show inflight scope =
      List.countP (MessageTask.unsettled scope) (s.tasks ++ [⟨operation, false, false⟩])
    rw [hinflight, h.inflight, List.countP_append, List.countP_singleton]
  · intro task htask
    rcases List.mem_append.mp htask with htask | htask
    · exact h.unabandoned task htask
    · rw [List.mem_singleton.mp htask]
      exact fun _ => rfl
  · intro index task htask hdue
    rcases getElem?_concat_eq htask with hold | rfl
    · exact h.behind index task hold hdue
    · rcases hdue with ⟨hfinished, _⟩ | ⟨_, habandoned, _⟩
      · cases hfinished
      · cases habandoned
  · intro reader hreader change hchange
    obtain ⟨task, htask, hrest⟩ := h.known reader hreader change hchange
    obtain ⟨hlt, _⟩ := List.getElem?_eq_some_iff.mp htask
    exact ⟨task, (List.getElem?_append_left hlt).trans htask, hrest⟩

theorem MessageInv.beginMutation (h : MessageInv s) (operation : MessageOperation) :
    MessageInv (s.beginMutation operation) := by
  have hswept := h.invalidateAll operation.mutation.before
  unfold MessageState.beginMutation
  dsimp only
  split
  · next scope hdiscipline =>
      apply hswept.begun
      intro other
      unfold MessageTask.unsettled
      rw [hdiscipline]
      by_cases heq : other = scope
      · simp [heq]
      · simp [heq, Ne.symm heq]
  · next hdiscipline =>
      apply hswept.begun
      intro other
      unfold MessageTask.unsettled
      split
      · next scope htracked => exact absurd htracked (hdiscipline scope)
      · rfl

theorem MessageInv.retire (h : MessageInv s) {index : Nat} {task task' : MessageTask}
    (htask : s.tasks[index]? = some task) (hoperation : task'.operation = task.operation)
    (hended : task.ended = true → task'.ended = true)
    (hplain : task'.plain = true → task'.abandoned = false)
    (hdue : s.Due index task' → Behind s index task.operation.mutation.affects)
    {inflight : Scope → Nat}
    (hinflight : ∀ scope, inflight scope = s.messageMutationsInflight scope -
      (if task.unsettled scope then 1 else 0) + if task'.unsettled scope then 1 else 0)
    (scopes : List Scope) :
    MessageInv { s with
      tasks := s.tasks.set index task'
      messageCacheQuarantined := scopes
      messageMutationsInflight := inflight } := by
  obtain ⟨hlt, hget⟩ := List.getElem?_eq_some_iff.mp htask
  refine { h with inflight := ?_, unabandoned := ?_, behind := ?_, known := ?_ }
  · intro scope
    show inflight scope = (s.tasks.set index task').countP (·.unsettled scope)
    rw [hinflight, h.inflight, List.countP_set hlt, hget]
  · intro other hother
    rcases List.mem_or_eq_of_mem_set hother with hother | rfl
    · exact h.unabandoned other hother
    · exact hplain
  · intro other otherTask hother hotherDue
    rw [List.getElem?_set] at hother
    by_cases heq : index = other
    · subst heq
      rw [if_pos rfl, if_pos hlt] at hother
      rw [← Option.some.inj hother] at hotherDue ⊢
      rw [hoperation]
      exact hdue hotherDue
    · rw [if_neg heq] at hother
      exact h.behind other otherTask hother hotherDue
  · intro reader hreader change hchange
    obtain ⟨other, hother, hsame, hotherEnded, hserved⟩ := h.known reader hreader change hchange
    by_cases heq : index = change.1
    · subst heq
      rw [htask] at hother
      cases Option.some.inj hother
      refine ⟨task', ?_, hoperation.trans hsame, hended hotherEnded, hserved⟩
      rw [List.getElem?_set, if_pos rfl, if_pos hlt]
    · refine ⟨other, ?_, hsame, hotherEnded, hserved⟩
      rw [List.getElem?_set, if_neg heq, hother]

/-- Sweeps touch neither tasks nor counts. -/
theorem invalidateAll_tasks (sweeps : List Sweep) (tasks : List MessageTask)
    (inflight : Scope → Nat) (scopes : List Scope) :
    MessageState.invalidateAll { s with
      tasks := tasks
      messageCacheQuarantined := scopes
      messageMutationsInflight := inflight } sweeps =
    { s.invalidateAll sweeps with
      tasks := tasks
      messageCacheQuarantined := scopes
      messageMutationsInflight := inflight } := by
  induction sweeps generalizing s with
  | nil => rfl
  | cons sweep sweeps ih =>
      have hone : MessageState.invalidate { s with
            tasks := tasks
            messageCacheQuarantined := scopes
            messageMutationsInflight := inflight } sweep =
          { s.invalidate sweep with
            tasks := tasks
            messageCacheQuarantined := scopes
            messageMutationsInflight := inflight } := by
        unfold MessageState.invalidate
        split <;> rfl
      unfold MessageState.invalidateAll at ih ⊢
      rw [List.foldl_cons, List.foldl_cons, hone, ih]

theorem unsettled_finished (task : MessageTask) (scope : Scope) :
    MessageTask.unsettled scope { task with finished := true } = false := by
  unfold MessageTask.unsettled
  dsimp only
  split
  · exact Bool.and_false _
  · rfl

theorem invalidateAll_eq (sweeps : List Sweep) :
    ∃ accounts mailboxes cache, s.invalidateAll sweeps = { s with
      messageAccountGeneration := accounts
      messageMailboxGeneration := mailboxes
      messageListCache := cache } := by
  induction sweeps generalizing s with
  | nil => exact ⟨_, _, _, rfl⟩
  | cons sweep sweeps ih =>
      obtain ⟨accounts, mailboxes, cache, heq⟩ := @ih (s.invalidate sweep)
      refine ⟨accounts, mailboxes, cache, heq.trans ?_⟩
      unfold MessageState.invalidate
      split <;> rfl

/-- A change ends with sweeps, behind which nothing stale is left. -/
theorem MessageInv.finished (h : MessageInv s) {index : Nat} {task : MessageTask}
    (htask : s.tasks[index]? = some task) {sweeps : List Sweep}
    (hunswept : Serial.Closed s.helper (.mutation index) → Unswept s index task sweeps)
    {inflight : Scope → Nat}
    (hinflight : ∀ scope, inflight scope = s.messageMutationsInflight scope -
      if task.unsettled scope then 1 else 0)
    (scopes : List Scope) :
    MessageInv (MessageState.invalidateAll { s with
      tasks := s.tasks.set index { task with finished := true }
      messageCacheQuarantined := scopes
      messageMutationsInflight := inflight } sweeps) := by
  have hswept := h.invalidateAll sweeps
  obtain ⟨_, _, _, heq⟩ := @invalidateAll_eq κ _ s sweeps
  have htasks : (s.invalidateAll sweeps).tasks = s.tasks := by rw [heq]
  have hhelper : (s.invalidateAll sweeps).helper = s.helper := by rw [heq]
  have hcount : (s.invalidateAll sweeps).messageMutationsInflight = s.messageMutationsInflight := by
    rw [heq]
  have hkept : (s.invalidateAll sweeps).tasks[index]? = some task := htasks ▸ htask
  rw [invalidateAll_tasks, ← htasks]
  apply hswept.retire hkept
  · rfl
  · exact fun _ => rfl
  · exact h.unabandoned task (List.mem_of_getElem? htask)
  · intro hdue
    apply Behind.sweptAll sweeps h.paced
    apply hunswept
    rw [← hhelper]
    rcases hdue with ⟨_, hclosed⟩ | ⟨_, _, hserved⟩
    · exact hclosed
    · exact hswept.served _ hserved
  · intro scope
    rw [unsettled_finished, hcount, hinflight]
    rfl

theorem MessageInv.finish (h : MessageInv s) {index : Nat}
    (henabled : enabledMessages s (.finish index) = true)
    (hgood : Settles s (.finish index)) : MessageInv (nextMessages s (.finish index)) := by
  unfold nextMessages
  dsimp only
  split
  · exact h
  · next task htask =>
      have hunfinished : task.finished = false := by
        unfold enabledMessages at henabled
        dsimp only at henabled
        rw [Bool.and_eq_true, Bool.and_eq_true, htask, Option.any_some,
          Bool.not_eq_true'] at henabled
        exact henabled.1.1
      have hunswept := hgood task htask
      unfold MessageState.finishMutation
      dsimp only
      split
      · next scope hdiscipline =>
          apply h.finished htask (fun _ => hunswept)
          intro other
          unfold MessageTask.unsettled
          rw [hdiscipline, hunfinished]
          by_cases heq : other = scope
          · simp [heq]
          · simp [heq, Ne.symm heq]
      · next hdiscipline =>
          apply h.finished htask (fun _ => hunswept)
          intro other
          unfold MessageTask.unsettled
          split
          · next scope htracked => exact absurd htracked (hdiscipline scope)
          · rfl

theorem MessageInv.cancel (h : MessageInv s) {index : Nat}
    (hgood : Settles s (.cancel index)) : MessageInv (nextMessages s (.cancel index)) := by
  unfold nextMessages
  dsimp only
  split
  · exact h
  · next task htask =>
      obtain ⟨hplain, hshielded⟩ := hgood task htask
      unfold MessageState.cancelMutation
      split
      · next hdiscipline =>
          have hisPlain : task.plain = true := by
            unfold MessageTask.plain
            rw [hdiscipline]
          apply h.finished htask (hplain hisPlain)
          intro scope
          unfold MessageTask.unsettled
          rw [hdiscipline]
          rfl
      · next hdiscipline =>
          apply h.retire htask
          · rfl
          · intro _
            exact Bool.or_true _
          · intro hisPlain
            unfold MessageTask.plain at hisPlain
            split at hisPlain
            · next heq => exact absurd heq hdiscipline
            · cases hisPlain
          · intro hdue
            rcases hdue with ⟨hfinished, hclosed⟩ | ⟨hisShielded, _, hserved⟩
            · exact h.behind index task htask (Or.inl ⟨hfinished, hclosed⟩)
            · exact (hshielded hisShielded hserved).behind
          · intro scope
            show s.messageMutationsInflight scope = s.messageMutationsInflight scope -
              (if task.unsettled scope then 1 else 0) + if task.unsettled scope then 1 else 0
            split
            · next hunsettled =>
                have hpos : 0 < s.messageMutationsInflight scope := by
                  rw [h.inflight scope]
                  exact List.countP_pos_iff.mpr ⟨task, List.mem_of_getElem? htask, hunsettled⟩
                omega
            · rfl

theorem MessageInv.step (h : MessageInv s) {a : MessageAction κ}
    (henabled : enabledMessages s a = true) (hgood : Settles s a) :
    MessageInv (nextMessages s a) := by
  cases a with
  | tick seconds => exact { h with }
  | helper event => exact h.helper henabled hgood
  | listMessages key => exact h.turn fun change hchange => mem_effective hchange
  | resume index => exact h.resume index
  | leave index => exact h.leave index
  | sweep sweep => exact h.invalidate sweep
  | begin operation => exact h.beginMutation operation
  | finish index => exact h.finish henabled hgood
  | cancel index => exact h.cancel hgood
  | release scope task => exact h.retask _

theorem MessageInv.initial : MessageInv (initialMessages : MessageState κ) := by
  constructor
  case unborn => exact fun _ _ => rfl
  case inflight => exact fun _ => rfl
  all_goals nofun

/-- A list that a call has returned was read after every change of its mailbox that had taken
effect, and whose call had ended, when the call began. -/
theorem message_lists_coherent {actions : List (MessageAction κ)}
    (hrun : messageSystem.Allows Settles initialMessages actions) :
    ∀ reply ∈ (messageSystem.after initialMessages actions).returned,
      ∀ change ∈ reply.known, change.2.mutation.affects reply.scope = true →
        ∀ i, (messageSystem.after initialMessages actions).helper.served[i]? =
          some (.mutation change.1) → i < reply.place := by
  have hinv : MessageInv (messageSystem.after initialMessages actions) := by
    apply messageSystem.invariant _ MessageInv.initial hrun
    intro s a hs henabled hgood
    exact hs.step henabled hgood
  intro reply hreply change hchange haffects
  exact ((hinv.replies reply hreply change hchange).2 haffects).before

end Invariant

/-- A message is moved while a list of its mailbox is kept, and the list is read again. -/
def movedThenListed : List (MessageAction Unit) :=
  [.listMessages ⟨(), ("a", "INBOX"), 50, 0⟩, .helper (.submit (.list 0)), .helper (.serve true),
    .resume 0, .begin (.moveMessage "a" "INBOX" "Work"), .helper (.submit (.mutation 0)),
    .helper (.serve true), .finish 0, .listMessages ⟨(), ("a", "INBOX"), 50, 0⟩,
    .helper (.submit (.list 1)), .helper (.serve true), .resume 0]

theorem message_lists_coherent_moved :
    messageSystem.Allows Settles initialMessages movedThenListed ∧
      (messageSystem.after initialMessages movedThenListed).returned.map (·.place) = [2, 0] ∧
      ∀ reply ∈ (messageSystem.after initialMessages movedThenListed).returned,
        ∀ change ∈ reply.known, change.2.mutation.affects reply.scope = true →
          ∀ i, (messageSystem.after initialMessages movedThenListed).helper.served[i]? =
            some (.mutation change.1) → i < reply.place := by
  have hrun : messageSystem.Allows Settles initialMessages movedThenListed := by decide +kernel
  exact ⟨hrun, by decide +kernel, message_lists_coherent hrun⟩

/-- The old mailbox is listed while its rename waits for the helper: the list is kept under the
generations of now, and the rename does not sweep again when it returns. -/
def listedDuringRename : List (MessageAction Unit) :=
  [.begin (.renameMailbox "a" "Old" "New"), .listMessages ⟨(), ("a", "Old"), 50, 0⟩,
    .helper (.submit (.list 0)), .helper (.serve true), .resume 0,
    .helper (.submit (.mutation 0)), .helper (.serve true), .finish 0,
    .listMessages ⟨(), ("a", "Old"), 50, 0⟩]

theorem message_list_stale_after_rename :
    messageSystem.Allows (fun _ _ => True) initialMessages listedDuringRename ∧
      (messageSystem.after initialMessages listedDuringRename).helper.served[1]? =
        some (.mutation 0) ∧
      ⟨("a", "Old"), [(0, .renameMailbox "a" "Old" "New")], 0⟩ ∈
        (messageSystem.after initialMessages listedDuringRename).returned ∧
      (MessageOperation.renameMailbox "a" "Old" "New").mutation.affects ("a", "Old") = true := by
  decide +kernel

end MaddyWeb.Gateway
