import MaddyWeb.Library.Serial
import MaddyWeb.Library.System

/-!
# The account list of the gateway

`HelperGateway.list_accounts` keeps one list for two seconds and shares one read between
the calls that carry the same token.  `_account_mutation` runs each change in a task of
its own, which outlives the call that started it; a generation and a count of the tasks
that have not settled keep a list that was read before a change from being served after it.
-/

namespace MaddyWeb.Gateway

open MaddyWeb.Library

set_option linter.unusedSectionVars false

def accountCacheSeconds : Nat := 2

inductive AccountRequest
  | read (flight : Nat)
  | mutation (task : Nat)
  deriving DecidableEq, Repr

/-- A list of accounts, by the token that it was read under and the place of the read in the
log of the helper. -/
structure AccountList where
  token : Option String
  place : Nat
  deriving DecidableEq, Repr

structure AccountCache (κ : Type) where
  expiresAt : Nat
  value : AccountList
  authKey : κ

/-- `known` are the changes that had settled when the read was started. -/
structure AccountFlight (κ : Type) where
  generation : Nat
  authKey : κ
  authToken : Option String
  known : List Nat

inductive AccountAwait
  | mutations (tasks : List Nat)
  | flight (index : Nat)

/-- A call of `list_accounts` at an await; `known` are the changes that had settled when it
began. -/
structure AccountReader where
  token : Option String
  known : List Nat
  awaits : AccountAwait

/-- A list that a call has returned. -/
structure AccountReply where
  token : Option String
  known : List Nat
  value : AccountList
  deriving DecidableEq, Repr

structure AccountState (κ : Type) where
  now : Nat
  helper : Serial.Server AccountRequest
  accountGeneration : Nat
  accountMutationsInflight : Int
  accountCacheQuarantined : Bool
  accountCache : Option (AccountCache κ)
  accountFlight : Option Nat
  /-- the read tasks, and which of them are done -/
  flights : List (AccountFlight κ)
  finished : List Nat
  /-- the number of mutation tasks, and which of them are done -/
  mutations : Nat
  settled : List Nat
  accountMutationTasks : List Nat
  readers : List AccountReader
  /-- the changes whose callers still wait -/
  writers : List Nat
  returned : List AccountReply
  /-- a call has raised "account mutation task tracking was lost" -/
  lost : Bool

def initialAccounts {κ : Type} : AccountState κ where
  now := 0
  helper := ⟨fun _ => .created, [], []⟩
  accountGeneration := 0
  accountMutationsInflight := 0
  accountCacheQuarantined := false
  accountCache := none
  accountFlight := none
  flights := []
  finished := []
  mutations := 0
  settled := []
  accountMutationTasks := []
  readers := []
  writers := []
  returned := []
  lost := false

inductive AccountAction
  /-- the monotonic clock advances -/
  | tick (seconds : Nat)
  | helper (event : Serial.Event AccountRequest)
  /-- a call of `list_accounts` up to its first await -/
  | listAccounts (token : Option String)
  /-- a suspended call goes on after its await, or is cancelled there -/
  | resume (reader : Nat)
  | cancel (reader : Nat)
  /-- a read task goes on after its helper call, to its end -/
  | finish (flight : Nat)
  /-- a call of `_account_mutation` up to its await -/
  | mutate
  /-- a mutation task goes on after its helper call, to its end -/
  | settle (task : Nat)
  /-- the callback of a task that is done -/
  | release (task : Nat)
  /-- the call that started a task returns, raises or is cancelled -/
  | leave (task : Nat)

section Accounts

variable {κ : Type} [DecidableEq κ] (key : Option String → κ)

/-- `_invalidate_accounts` -/
def AccountState.invalidateAccounts (s : AccountState κ) : AccountState κ :=
  { s with
    accountGeneration := s.accountGeneration + 1
    accountCache := none
    accountFlight := none }

/-- The cached list, when `list_accounts` may return it. -/
def AccountState.cached (s : AccountState κ) (token : Option String) : Option AccountList :=
  if s.accountMutationsInflight = 0 ∧ s.accountCacheQuarantined = false then
    (s.accountCache.filter fun cache =>
      cache.authKey = key token ∧ s.now < cache.expiresAt).map (·.value)
  else none

/-- The read that `list_accounts` may join. -/
def AccountState.joinable (s : AccountState κ) (token : Option String) : Option Nat :=
  s.accountFlight.filter fun index => (s.flights[index]?).any fun flight =>
    flight.generation = s.accountGeneration ∧ flight.authKey = key token

/-- `_start_account_read` -/
def AccountState.startAccountRead (s : AccountState κ) (token : Option String) : AccountState κ :=
  { s with
    flights := s.flights ++ [⟨s.accountGeneration, key token, token, s.settled⟩]
    accountFlight := some s.flights.length }

def AccountState.suspend (s : AccountState κ) (token : Option String) (known : List Nat)
    (awaits : AccountAwait) : AccountState κ :=
  { s with readers := s.readers ++ [⟨token, known, awaits⟩] }

/-- The body of the loop of `list_accounts`, to the next await or the end of the call;
`_wait_for_account_mutations` tests the same count. -/
def AccountState.turn (s : AccountState κ) (token : Option String) (known : List Nat) :
    AccountState κ :=
  if s.accountMutationsInflight ≠ 0 then
    let tasks := s.accountMutationTasks.filter (· ∉ s.settled)
    let s := { s with accountMutationTasks := tasks }
    if tasks.isEmpty then { s with lost := true } else s.suspend token known (.mutations tasks)
  else
    match s.cached key token with
    | some value => { s with returned := ⟨token, known, value⟩ :: s.returned }
    | none =>
        match s.joinable key token with
        | some index => s.suspend token known (.flight index)
        | none => (s.startAccountRead key token).suspend token known (.flight s.flights.length)

/-- `list_accounts` after the read that it has waited for. -/
def AccountState.afterFlight (s : AccountState κ) (reader : AccountReader) (index : Nat) :
    AccountState κ :=
  match s.flights[index]?, s.helper.phase (.read index) with
  | some flight, .answered place =>
      if flight.generation ≠ s.accountGeneration ∨ s.accountMutationsInflight ≠ 0 then
        s.turn key reader.token reader.known
      else
        { s with
          returned := ⟨reader.token, reader.known, ⟨flight.authToken, place⟩⟩ :: s.returned }
  | _, _ => s

/-- `_run_account_read` after its helper call. -/
def AccountState.finishRead (s : AccountState κ) (index : Nat) : AccountState κ :=
  let s := { s with finished := index :: s.finished }
  let s :=
    match s.flights[index]?, s.helper.phase (.read index) with
    | some flight, .answered place =>
        if flight.generation = s.accountGeneration ∧ s.accountMutationsInflight = 0 then
          { s with
            accountCacheQuarantined := false
            accountCache := some
              ⟨s.now + accountCacheSeconds, ⟨flight.authToken, place⟩, flight.authKey⟩ }
        else s
    | _, _ => s
  if s.accountFlight = some index then { s with accountFlight := none } else s

/-- `_run_account_mutation` after its helper call: an error that the helper has sent means that
the operation is complete. -/
def AccountState.settleMutation (s : AccountState κ) (task : Nat) : AccountState κ :=
  let s :=
    match s.helper.phase (.mutation task) with
    | .broken => { s with accountCacheQuarantined := true }
    | _ => s
  AccountState.invalidateAccounts { s with
    accountMutationsInflight := s.accountMutationsInflight - 1
    settled := task :: s.settled }

def nextAccounts (s : AccountState κ) : AccountAction → AccountState κ
  | .tick seconds => { s with now := s.now + seconds }
  | .helper event => { s with helper := s.helper.next event }
  | .listAccounts token => s.turn key token s.settled
  | .resume index =>
      match s.readers[index]? with
      | none => s
      | some reader =>
          let s := { s with readers := s.readers.eraseIdx index }
          match reader.awaits with
          | .mutations _ => s.turn key reader.token reader.known
          | .flight flight => s.afterFlight key reader flight
  | .cancel index => { s with readers := s.readers.eraseIdx index }
  | .finish index => s.finishRead index
  | .mutate =>
      let s := s.invalidateAccounts
      { s with
        accountMutationsInflight := s.accountMutationsInflight + 1
        mutations := s.mutations + 1
        accountMutationTasks := s.mutations :: s.accountMutationTasks
        writers := s.mutations :: s.writers }
  | .settle task => s.settleMutation task
  | .release task => { s with accountMutationTasks := s.accountMutationTasks.filter (· ≠ task) }
  | .leave task => { s with writers := s.writers.filter (· ≠ task) }

/-- The task of the request has begun and is not done. -/
def AccountState.running (s : AccountState κ) : AccountRequest → Bool
  | .read index => index < s.flights.length && !s.finished.contains index
  | .mutation task => task < s.mutations && !s.settled.contains task

/-- The helper call of a task has ended. -/
def AccountState.returns (s : AccountState κ) (request : AccountRequest) : Bool :=
  s.running request && s.helper.phase request ≠ .created && s.helper.phase request ≠ .queued

def enabledAccounts (s : AccountState κ) : AccountAction → Bool
  | .tick _ | .listAccounts _ | .mutate => true
  | .helper event => s.helper.enabled event &&
      match event with
      | .submit request | .fail request => s.running request
      | .serve _ | .drop => true
  | .resume index => (s.readers[index]?).any fun reader =>
      match reader.awaits with
      | .mutations tasks => tasks.all (· ∈ s.settled)
      | .flight flight => s.finished.contains flight
  | .cancel index => index < s.readers.length
  | .finish index => s.returns (.read index)
  | .settle task => s.returns (.mutation task)
  | .release task => s.settled.contains task
  | .leave task => s.writers.contains task

def accountSystem : System (AccountState κ) AccountAction where
  initial := initialAccounts
  enabled s a := enabledAccounts s a = true
  next := nextAccounts key

instance (s : AccountState κ) (a : AccountAction) : Decidable ((accountSystem key).enabled s a) :=
  inferInstanceAs (Decidable (_ = true))

/-! ## What every interleaving keeps -/

/-- The mutation tasks that have not settled. -/
def AccountState.unsettled (s : AccountState κ) : List Nat :=
  (List.range s.mutations).filter (· ∉ s.settled)

structure AccountInv (s : AccountState κ) : Prop where
  inflight : s.accountMutationsInflight = s.unsettled.length
  started : ∀ task ∈ s.settled, task < s.mutations
  tracked : ∀ task ∈ s.unsettled, task ∈ s.accountMutationTasks
  lost : s.lost = false
  queued : ∀ request ∈ s.helper.queue, Serial.Closed s.helper request
  closed : ∀ task ∈ s.settled, Serial.Closed s.helper (.mutation task)
  unborn : ∀ index, s.flights.length ≤ index → s.helper.phase (.read index) = .created
  known : ∀ flight ∈ s.flights, flight.known ⊆ s.settled
  keyed : ∀ flight ∈ s.flights, flight.authKey = key flight.authToken
  fresh : ∀ flight ∈ s.flights, flight.generation ≤ s.accountGeneration ∧
    (flight.generation = s.accountGeneration → s.settled ⊆ flight.known)
  follows : ∀ (index : Nat) (flight : AccountFlight κ), s.flights[index]? = some flight →
    Serial.Follows s.helper (.read index) (flight.known.map .mutation)
  cache : ∀ cache ∈ s.accountCache, cache.authKey = key cache.value.token ∧
    ∀ task ∈ s.settled, Serial.Past s.helper (.mutation task) cache.value.place
  readers : ∀ reader ∈ s.readers, reader.known ⊆ s.settled ∧
    ∀ index, reader.awaits = .flight index → ∃ flight, s.flights[index]? = some flight ∧
      flight.authKey = key reader.token
  returned : ∀ reply ∈ s.returned, reply.value.token = reply.token ∧ reply.known ⊆ s.settled ∧
    ∀ task ∈ reply.known, Serial.Past s.helper (.mutation task) reply.value.place

variable {key} {s : AccountState κ} {token : Option String} {known : List Nat}

theorem mem_unsettled {task : Nat} :
    task ∈ s.unsettled ↔ task < s.mutations ∧ task ∉ s.settled := by
  unfold AccountState.unsettled
  rw [List.mem_filter, List.mem_range, decide_eq_true_eq]

theorem AccountInv.suspend (h : AccountInv key s) (hknown : known ⊆ s.settled)
    {awaits : AccountAwait} (hflight : ∀ index, awaits = .flight index →
      ∃ flight, s.flights[index]? = some flight ∧ flight.authKey = key token) :
    AccountInv key (s.suspend token known awaits) := by
  refine { h with readers := ?_ }
  intro reader hreader
  rcases List.mem_append.mp hreader with hreader | hreader
  · exact h.readers reader hreader
  · rw [List.mem_singleton.mp hreader]
    exact ⟨hknown, hflight⟩

theorem AccountInv.reply (h : AccountInv key s) (hknown : known ⊆ s.settled) {value : AccountList}
    (htoken : value.token = token)
    (hpast : ∀ task ∈ s.settled, Serial.Past s.helper (.mutation task) value.place) :
    AccountInv key { s with returned := ⟨token, known, value⟩ :: s.returned } := by
  refine { h with returned := List.forall_mem_cons.mpr ⟨?_, h.returned⟩ }
  exact ⟨htoken, hknown, fun task htask => hpast task (hknown htask)⟩

theorem AccountInv.startAccountRead (h : AccountInv key s) :
    AccountInv key (s.startAccountRead key token) := by
  have hflights : (s.startAccountRead key token).flights =
      s.flights ++ [⟨s.accountGeneration, key token, token, s.settled⟩] := rfl
  have hold : ∀ (index : Nat) (flight : AccountFlight κ), s.flights[index]? = some flight →
      (s.startAccountRead key token).flights[index]? = some flight := by
    intro index flight hflight
    obtain ⟨hlt, _⟩ := List.getElem?_eq_some_iff.mp hflight
    rw [hflights, List.getElem?_append_left hlt, hflight]
  refine { h with
    unborn := ?_, known := ?_, keyed := ?_, fresh := ?_, follows := ?_, readers := ?_ }
  · intro index hindex
    apply h.unborn
    rw [hflights, List.length_append] at hindex
    omega
  · intro flight hflight
    rcases List.mem_append.mp hflight with hflight | hflight
    · exact h.known flight hflight
    · rw [List.mem_singleton.mp hflight]
      exact List.Subset.refl _
  · intro flight hflight
    rcases List.mem_append.mp hflight with hflight | hflight
    · exact h.keyed flight hflight
    · rw [List.mem_singleton.mp hflight]
  · intro flight hflight
    rcases List.mem_append.mp hflight with hflight | hflight
    · exact h.fresh flight hflight
    · rw [List.mem_singleton.mp hflight]
      exact ⟨Nat.le_refl _, fun _ => List.Subset.refl _⟩
  · intro index flight hflight
    by_cases hlt : index < s.flights.length
    · rw [hflights, List.getElem?_append_left hlt] at hflight
      exact h.follows index flight hflight
    · exact Serial.follows_of_created (h.unborn index (by omega))
  · intro reader hreader
    obtain ⟨hknown, hawaits⟩ := h.readers reader hreader
    refine ⟨hknown, fun index hindex => ?_⟩
    obtain ⟨flight, hflight, hkey⟩ := hawaits index hindex
    exact ⟨flight, hold index flight hflight, hkey⟩

theorem cached_eq_some {value : AccountList} (h : s.cached key token = some value) :
    ∃ cache ∈ s.accountCache, cache.value = value ∧ cache.authKey = key token := by
  unfold AccountState.cached at h
  split at h
  · obtain ⟨cache, hcache, rfl⟩ := Option.map_eq_some_iff.mp h
    obtain ⟨hmem, hmatch⟩ := Option.filter_eq_some_iff.mp hcache
    exact ⟨cache, hmem, rfl, (of_decide_eq_true hmatch).1⟩
  · cases h

theorem joinable_eq_some {index : Nat} (h : s.joinable key token = some index) :
    ∃ flight, s.flights[index]? = some flight ∧ flight.authKey = key token := by
  unfold AccountState.joinable at h
  obtain ⟨_, hmatch⟩ := Option.filter_eq_some_iff.mp h
  cases hflight : s.flights[index]? with
  | none =>
      rw [hflight] at hmatch
      cases hmatch
  | some flight =>
      rw [hflight, Option.any_some] at hmatch
      exact ⟨flight, rfl, (of_decide_eq_true hmatch).2⟩

/-- A task that has not settled is still in the set of tasks. -/
theorem AccountInv.waitsFor (h : AccountInv key s) (hinflight : s.accountMutationsInflight ≠ 0) :
    s.accountMutationTasks.filter (· ∉ s.settled) ≠ [] := by
  have hunsettled : s.unsettled ≠ [] := by
    intro hnone
    apply hinflight
    rw [h.inflight, hnone]
    rfl
  obtain ⟨task, htask⟩ := List.exists_mem_of_ne_nil _ hunsettled
  apply List.ne_nil_of_mem
  exact List.mem_filter.mpr ⟨h.tracked task htask, decide_eq_true (mem_unsettled.mp htask).2⟩

theorem AccountInv.turn (hkey : Function.Injective key) (h : AccountInv key s)
    (hknown : known ⊆ s.settled) : AccountInv key (s.turn key token known) := by
  unfold AccountState.turn
  split
  · next hinflight =>
      have hwaits := h.waitsFor hinflight
      dsimp only
      rw [if_neg (fun hempty => hwaits (List.isEmpty_iff.mp hempty))]
      have hpruned : AccountInv key
          { s with accountMutationTasks := s.accountMutationTasks.filter (· ∉ s.settled) } := by
        refine { h with tracked := ?_ }
        intro task htask
        exact List.mem_filter.mpr
          ⟨h.tracked task htask, decide_eq_true (mem_unsettled.mp htask).2⟩
      exact hpruned.suspend hknown nofun
  · split
    · next value hcached =>
        obtain ⟨cache, hcache, rfl, hauth⟩ := cached_eq_some hcached
        obtain ⟨hcacheKey, hpast⟩ := h.cache cache hcache
        exact h.reply hknown (hkey (hcacheKey.symm.trans hauth)) hpast
    · split
      · next index hjoin =>
          apply h.suspend hknown
          intro other hother
          injection hother with hother
          exact hother ▸ joinable_eq_some hjoin
      · apply h.startAccountRead.suspend hknown
        intro other hother
        injection hother with hother
        refine ⟨⟨s.accountGeneration, key token, token, s.settled⟩, ?_, rfl⟩
        rw [← hother]
        exact List.getElem?_concat_length

/-- A read of the current generation was served after every change that has settled. -/
theorem AccountInv.current (h : AccountInv key s) {index place : Nat} {flight : AccountFlight κ}
    (hflight : s.flights[index]? = some flight)
    (hgeneration : flight.generation = s.accountGeneration)
    (hphase : s.helper.phase (.read index) = .answered place) :
    ∀ task ∈ s.settled, Serial.Past s.helper (.mutation task) place := by
  intro task htask
  have hknown := (h.fresh flight (List.mem_of_getElem? hflight)).2 hgeneration htask
  exact (h.follows index flight hflight).answered hphase (List.mem_map_of_mem hknown)

theorem AccountInv.afterFlight (hkey : Function.Injective key) (h : AccountInv key s)
    {reader : AccountReader} (hknown : reader.known ⊆ s.settled) {index : Nat}
    (hreads : ∃ flight, s.flights[index]? = some flight ∧ flight.authKey = key reader.token) :
    AccountInv key (s.afterFlight key reader index) := by
  unfold AccountState.afterFlight
  obtain ⟨flight, hflight, hauth⟩ := hreads
  split
  · next other place hother hphase =>
      rw [hflight] at hother
      injection hother with hother
      subst hother
      split
      · exact h.turn hkey hknown
      · next hcurrent =>
          rw [not_or, not_not, not_not] at hcurrent
          have hkeyed := h.keyed flight (List.mem_of_getElem? hflight)
          exact h.reply hknown (hkey (hkeyed.symm.trans hauth))
            (h.current hflight hcurrent.1 hphase)
  · exact h

theorem AccountInv.finishRead (h : AccountInv key s) (index : Nat) :
    AccountInv key (s.finishRead index) := by
  have hdetached : ∀ s' : AccountState κ, AccountInv key s' → AccountInv key
      (if s'.accountFlight = some index then { s' with accountFlight := none } else s') := by
    intro s' hs'
    split
    · exact { hs' with }
    · exact hs'
  unfold AccountState.finishRead
  apply hdetached
  dsimp only
  split
  · next flight place hflight hphase =>
      split
      · next hcurrent =>
          refine { h with cache := ?_ }
          intro cache hcache
          rw [← Option.some.inj hcache]
          exact ⟨h.keyed flight (List.mem_of_getElem? hflight),
            h.current hflight hcurrent.1 hphase⟩
      · exact { h with }
  · exact { h with }

/-- Reads of earlier generations are never served again. -/
theorem fresh_of_invalidated {generation : Nat} {settled : List Nat} {flight : AccountFlight κ}
    (h : flight.generation ≤ generation) :
    flight.generation ≤ generation + 1 ∧
      (flight.generation = generation + 1 → settled ⊆ flight.known) := by
  constructor
  · omega
  · intro heq
    omega

theorem length_unsettled_settle {n task : Nat} {settled : List Nat} (hlt : task < n)
    (hnew : task ∉ settled) :
    ((List.range n).filter (· ∉ task :: settled)).length + 1 =
      ((List.range n).filter (· ∉ settled)).length := by
  have hmem : task ∈ (List.range n).filter (· ∉ settled) :=
    List.mem_filter.mpr ⟨List.mem_range.mpr hlt, decide_eq_true hnew⟩
  have hnodup : ((List.range n).filter (· ∉ settled)).Nodup := List.nodup_range.filter _
  have herase : (List.range n).filter (· ∉ task :: settled) =
      ((List.range n).filter (· ∉ settled)).erase task := by
    rw [hnodup.erase_eq_filter, List.filter_filter]
    apply List.filter_congr
    intro other _
    by_cases heq : other = task <;> simp [heq]
  rw [herase, List.length_erase_of_mem hmem]
  have hpos := List.length_pos_of_mem hmem
  omega

theorem AccountInv.settleMutation (h : AccountInv key s) {task : Nat}
    (henabled : s.returns (.mutation task) = true) :
    AccountInv key (s.settleMutation task) := by
  unfold AccountState.returns AccountState.running at henabled
  rw [Bool.and_eq_true, Bool.and_eq_true, Bool.and_eq_true, Bool.not_eq_true',
    decide_eq_true_eq, decide_eq_true_eq] at henabled
  obtain ⟨⟨⟨hlt, hnew⟩, hcreated⟩, _⟩ := henabled
  have hnew : task ∉ s.settled := fun hmem => by
    rw [List.contains_iff_mem.mpr hmem] at hnew
    cases hnew
  have hgrown : s.settled ⊆ task :: s.settled := List.subset_cons_self task s.settled
  have hsettled : AccountInv key (AccountState.invalidateAccounts { s with
      accountMutationsInflight := s.accountMutationsInflight - 1
      settled := task :: s.settled }) := by
    constructor
    · have hcount := length_unsettled_settle hlt hnew
      have hinflight := h.inflight
      unfold AccountState.unsettled at hinflight
      show s.accountMutationsInflight - 1 =
        (((List.range s.mutations).filter (· ∉ task :: s.settled)).length : Int)
      omega
    · exact List.forall_mem_cons.mpr ⟨hlt, h.started⟩
    · intro other hother
      obtain ⟨hother, hunsettled⟩ := mem_unsettled.mp hother
      exact h.tracked other
        (mem_unsettled.mpr ⟨hother, fun hmem => hunsettled (hgrown hmem)⟩)
    · exact h.lost
    · exact h.queued
    · exact List.forall_mem_cons.mpr ⟨hcreated, h.closed⟩
    · exact h.unborn
    · exact fun flight hflight => List.Subset.trans (h.known flight hflight) hgrown
    · exact h.keyed
    · exact fun flight hflight => fresh_of_invalidated (h.fresh flight hflight).1
    · exact h.follows
    · nofun
    · intro reader hreader
      obtain ⟨hknown, hawaits⟩ := h.readers reader hreader
      exact ⟨List.Subset.trans hknown hgrown, hawaits⟩
    · intro reply hreply
      obtain ⟨htoken, hknown, hpast⟩ := h.returned reply hreply
      exact ⟨htoken, List.Subset.trans hknown hgrown, hpast⟩
  unfold AccountState.settleMutation
  dsimp only
  split
  · exact { hsettled with }
  · exact hsettled

theorem AccountInv.mutate (h : AccountInv key s) :
    AccountInv key (nextAccounts key s .mutate) := by
  have hfresh : s.mutations ∉ s.settled := fun hmem => Nat.lt_irrefl _ (h.started _ hmem)
  have hunsettled : (nextAccounts key s .mutate).unsettled = s.unsettled ++ [s.mutations] := by
    show (List.range (s.mutations + 1)).filter (· ∉ s.settled) = _
    rw [List.range_succ, List.filter_append, List.filter_singleton, decide_eq_true hfresh]
    rfl
  refine { h with inflight := ?_, started := ?_, tracked := ?_, fresh := ?_, cache := nofun }
  · rw [hunsettled, List.length_append, List.length_singleton, Int.natCast_add, ← h.inflight]
    rfl
  · exact fun task htask => Nat.lt_succ_of_lt (h.started task htask)
  · intro task htask
    rw [hunsettled, List.mem_append, List.mem_singleton] at htask
    rcases htask with htask | rfl
    · exact List.mem_cons_of_mem _ (h.tracked task htask)
    · exact List.mem_cons_self
  · exact fun flight hflight => fresh_of_invalidated (h.fresh flight hflight).1

theorem AccountInv.helper (h : AccountInv key s) {event : Serial.Event AccountRequest}
    (henabled : enabledAccounts s (.helper event) = true) :
    AccountInv key (nextAccounts key s (.helper event)) := by
  unfold enabledAccounts at henabled
  dsimp only at henabled
  rw [Bool.and_eq_true] at henabled
  obtain ⟨henabled, hrunning⟩ := henabled
  have hpast : ∀ task ∈ s.settled, ∀ place, Serial.Past s.helper (.mutation task) place →
      Serial.Past (s.helper.next event) (.mutation task) place := by
    intro task htask place hpast
    exact hpast.next (h.closed task htask) henabled
  have hidle : ∀ index, s.flights.length ≤ index →
      event ≠ .submit (.read index) ∧ event ≠ .fail (.read index) := by
    intro index hindex
    have hnot : s.running (.read index) = false := by
      unfold AccountState.running
      dsimp only
      rw [decide_eq_false (by omega), Bool.false_and]
    constructor
    all_goals
      intro heq
      rw [heq] at hrunning
      dsimp only at hrunning
      rw [hnot] at hrunning
      cases hrunning
  refine { h with
    queued := ?_, closed := ?_, unborn := ?_, follows := ?_, cache := ?_, returned := ?_ }
  · exact Serial.closed_of_queued h.queued henabled
  · exact fun task htask => (h.closed task htask).next
  · intro index hindex
    obtain ⟨hsubmit, hfail⟩ := hidle index hindex
    exact Serial.created_next (h.unborn index hindex) h.queued henabled hsubmit hfail
  · intro index flight hflight
    apply (h.follows index flight hflight).next _ _ h.queued henabled
    · intro hmem
      obtain ⟨task, _, heq⟩ := List.mem_map.mp hmem
      cases heq
    · intro other hother
      obtain ⟨task, htask, rfl⟩ := List.mem_map.mp hother
      exact h.closed task (h.known flight (List.mem_of_getElem? hflight) htask)
  · intro cache hcache
    obtain ⟨hauth, hsettled⟩ := h.cache cache hcache
    exact ⟨hauth, fun task htask => hpast task htask _ (hsettled task htask)⟩
  · intro reply hreply
    obtain ⟨htoken, hknown, hsettled⟩ := h.returned reply hreply
    exact ⟨htoken, hknown, fun task htask => hpast task (hknown htask) _ (hsettled task htask)⟩

theorem AccountInv.cancel (h : AccountInv key s) (index : Nat) :
    AccountInv key { s with readers := s.readers.eraseIdx index } :=
  { h with
    readers := fun reader hreader =>
      h.readers reader ((List.eraseIdx_sublist _ _).subset hreader) }

theorem AccountInv.resume (hkey : Function.Injective key) (h : AccountInv key s) (index : Nat) :
    AccountInv key (nextAccounts key s (.resume index)) := by
  unfold nextAccounts
  dsimp only
  split
  · exact h
  · next reader hreader =>
      obtain ⟨hknown, hreads⟩ := h.readers reader (List.mem_of_getElem? hreader)
      have hcancelled := h.cancel index
      split
      · exact hcancelled.turn hkey hknown
      · next flight hawaits => exact hcancelled.afterFlight hkey hknown (hreads flight hawaits)

theorem AccountInv.release (h : AccountInv key s) {task : Nat}
    (henabled : enabledAccounts s (.release task) = true) :
    AccountInv key (nextAccounts key s (.release task)) := by
  have hsettled : task ∈ s.settled := List.contains_iff_mem.mp henabled
  refine { h with tracked := ?_ }
  intro other hother
  have hne : other ≠ task := by
    intro heq
    rw [heq] at hother
    exact (mem_unsettled.mp hother).2 hsettled
  exact List.mem_filter.mpr ⟨h.tracked other hother, decide_eq_true hne⟩

theorem AccountInv.step (hkey : Function.Injective key) (h : AccountInv key s) {a : AccountAction}
    (henabled : enabledAccounts s a = true) : AccountInv key (nextAccounts key s a) := by
  cases a with
  | tick seconds => exact { h with }
  | helper event => exact h.helper henabled
  | listAccounts token => exact h.turn hkey (List.Subset.refl _)
  | resume index => exact h.resume hkey index
  | cancel index => exact h.cancel index
  | finish index => exact h.finishRead index
  | mutate => exact h.mutate
  | settle task => exact h.settleMutation henabled
  | release task => exact h.release henabled
  | leave task => exact { h with }

theorem AccountInv.initial : AccountInv key (initialAccounts : AccountState κ) := by
  constructor
  case inflight | lost => rfl
  case unborn => exact fun _ _ => rfl
  all_goals nofun

/-- In every interleaving a call that has returned a list was given one that was read after
every change that had settled when the call began, and under its own token; and the count of the
tasks that have not settled is exact. -/
theorem account_lists_coherent (hkey : Function.Injective key) {actions : List AccountAction}
    (hrun : (accountSystem key).Allows (fun _ _ => True) initialAccounts actions) :
    let s := (accountSystem key).after initialAccounts actions
    (∀ reply ∈ s.returned, reply.value.token = reply.token ∧
      ∀ task ∈ reply.known, ∀ i, s.helper.served[i]? = some (.mutation task) →
        i < reply.value.place) ∧
      s.accountMutationsInflight = s.unsettled.length ∧ s.lost = false := by
  intro s
  have hinv : AccountInv key s := by
    apply (accountSystem key).invariant _ AccountInv.initial hrun
    intro s a hs henabled _
    exact AccountInv.step hkey hs henabled
  refine ⟨fun reply hreply => ?_, hinv.inflight, hinv.lost⟩
  obtain ⟨htoken, _, hpast⟩ := hinv.returned reply hreply
  exact ⟨htoken, fun task htask => (hpast task htask).before⟩

end Accounts

/-- A change whose transport fails while it waits in the queue, with a list before and one after
it; the call that made the change is cancelled. -/
def brokenMutation : List AccountAction :=
  [.listAccounts none, .helper (.submit (.read 0)), .helper (.serve true), .finish 0, .resume 0,
    .mutate, .helper (.submit (.mutation 0)), .leave 0, .helper (.fail (.mutation 0)), .settle 0,
    .listAccounts none, .helper (.submit (.read 1)), .helper (.serve true), .helper (.serve true),
    .finish 1, .resume 0]

theorem account_lists_coherent_broken :
    (accountSystem id).Allows (fun _ _ => True) initialAccounts brokenMutation ∧
      ((accountSystem id).after initialAccounts brokenMutation).returned =
        [⟨none, [0], ⟨none, 2⟩⟩, ⟨none, [], ⟨none, 0⟩⟩] ∧
      ((accountSystem id).after initialAccounts brokenMutation).lost = false := by
  have hrun : (accountSystem id).Allows (fun _ _ => True) initialAccounts brokenMutation := by
    decide +kernel
  exact ⟨hrun, by decide +kernel, (account_lists_coherent Function.injective_id hrun).2.2⟩

end MaddyWeb.Gateway
