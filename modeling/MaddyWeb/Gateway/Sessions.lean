import MaddyWeb.Library.Dict
import MaddyWeb.Library.System

/-!
# The session cache of the gateway

`HelperGateway.session` shares one load between the calls that wait for it and keeps
its result for two seconds; `logout` drops the result.  The calls are tasks that are
interrupted at their awaits: a state holds what is suspended, and an action runs one
task to its next await, or one request of the helper.
-/

namespace MaddyWeb.Gateway

open MaddyWeb.Library

set_option linter.unusedSectionVars false

def sessionCacheSeconds : Nat := 2
def sessionCacheCapacity : Nat := 256

structure SessionCacheEntry (π : Type) where
  expiresAt : Nat
  value : π

inductive LoadResult (π : Type)
  | principal (value : π)
  | failed

/-- The task `load()`: the answer to its request, and whether it has finished. -/
structure SessionFlight (π : Type) where
  token : String
  answer : Option (LoadResult π)
  done : Bool

/-- A call of `session` at its `await`; `late` when it began after a logout had returned. -/
structure SessionWaiter where
  token : String
  flight : Nat
  late : Bool

/-- A call of `logout` at its `await`; the helper revokes a session or refuses the request. -/
structure LogoutCall where
  token : String
  revoked : Option Bool

structure SessionState (κ π : Type) where
  now : Nat
  /-- the sessions of the helper, and the tokens that it has issued -/
  sessions : String → Option π
  issued : List String
  cache : List (κ × SessionCacheEntry π)
  flights : List (SessionFlight π)
  registered : List (κ × Nat)
  waiters : List SessionWaiter
  logouts : List LogoutCall
  /-- the tokens of the logouts that have returned normally -/
  loggedOut : List String
  /-- the calls of `session` that have returned a principal: token and `late` -/
  returned : List (String × Bool)

def initialSessions {κ π : Type} : SessionState κ π where
  now := 0
  sessions _ := none
  issued := []
  cache := []
  flights := []
  registered := []
  waiters := []
  logouts := []
  loggedOut := []
  returned := []

inductive SessionAction (π : Type)
  /-- the monotonic clock advances -/
  | tick (seconds : Nat)
  /-- the helper issues a session, changes or ends it -/
  | issue (token : String) (value : π)
  | change (token : String) (value : π)
  | revoke (token : String)
  /-- a call of `session` up to its await -/
  | session (token : String)
  /-- the helper answers the request of a load, or its transport fails -/
  | answer (flight : Nat)
  | fail (flight : Nat)
  /-- a load finishes -/
  | finish (flight : Nat)
  /-- a suspended call goes on after its await, or is cancelled there -/
  | resume (waiter : Nat)
  | cancel (waiter : Nat)
  /-- a call of `logout` up to its await -/
  | logout (token : String)
  /-- the helper serves the request of a logout -/
  | serveLogout (call : Nat)
  /-- `logout` returns, or raises -/
  | returnLogout (call : Nat)
  | raiseLogout (call : Nat)

section Sessions

variable {κ π : Type} [DecidableEq κ] (key : String → κ)

/-- The insertion at the end of `session`: expired entries go first, then the oldest ones. -/
def SessionState.store (s : SessionState κ π) (token : String) (value : π) : SessionState κ π :=
  let live := s.cache.filter fun entry => s.now < entry.2.expiresAt
  let room := live.drop (live.length - (sessionCacheCapacity - 1))
  { s with cache := Dict.set room (key token) ⟨s.now + sessionCacheSeconds, value⟩ }

/-- The `finally` clause of `session`. -/
def SessionState.release (s : SessionState κ π) (waiter : SessionWaiter) : SessionState κ π :=
  if (s.flights[waiter.flight]?).any (·.done) ∧
      Dict.get s.registered (key waiter.token) = some waiter.flight then
    { s with registered := Dict.erase s.registered (key waiter.token) }
  else s

def SessionState.answerWith (s : SessionState κ π) (flight : Nat) (result : LoadResult π) :
    SessionState κ π :=
  { s with flights := s.flights.modify flight fun f => { f with answer := some result } }

def nextSessions (s : SessionState κ π) : SessionAction π → SessionState κ π
  | .tick seconds => { s with now := s.now + seconds }
  | .issue token value => { s with
      sessions := fun other => if other = token then some value else s.sessions other
      issued := token :: s.issued }
  | .change token value => { s with
      sessions := fun other => if other = token then some value else s.sessions other }
  | .revoke token => { s with
      sessions := fun other => if other = token then none else s.sessions other }
  | .session token =>
      let late := s.loggedOut.contains token
      match (Dict.get s.cache (key token)).filter (s.now < ·.expiresAt) with
      | some _ => { s with returned := (token, late) :: s.returned }
      | none =>
          match Dict.get s.registered (key token) with
          | some flight => { s with waiters := s.waiters ++ [⟨token, flight, late⟩] }
          | none => { s with
              flights := s.flights ++ [⟨token, none, false⟩]
              registered := Dict.set s.registered (key token) s.flights.length
              waiters := s.waiters ++ [⟨token, s.flights.length, late⟩] }
  | .answer flight =>
      match s.flights[flight]? with
      | some f => s.answerWith flight
          (match s.sessions f.token with
          | some value => .principal value
          | none => .failed)
      | none => s
  | .fail flight => s.answerWith flight .failed
  | .finish flight => { s with
      flights := s.flights.modify flight fun f => { f with done := true } }
  | .resume index =>
      match s.waiters[index]? with
      | none => s
      | some waiter =>
          let s' := { s.release key waiter with waiters := s.waiters.eraseIdx index }
          match (s.flights[waiter.flight]?).bind (·.answer) with
          | some (.principal value) =>
              { s'.store key waiter.token value with
                returned := (waiter.token, waiter.late) :: s.returned }
          | _ => s'
  | .cancel index =>
      match s.waiters[index]? with
      | none => s
      | some waiter => { s.release key waiter with waiters := s.waiters.eraseIdx index }
  | .logout token => { s with
      cache := Dict.erase s.cache (key token)
      logouts := s.logouts ++ [⟨token, none⟩] }
  | .serveLogout index =>
      match s.logouts[index]? with
      | none => s
      | some call => { s with
          sessions := fun other => if other = call.token then none else s.sessions other
          logouts :=
            s.logouts.set index { call with revoked := some (s.sessions call.token).isSome } }
  | .returnLogout index =>
      match s.logouts[index]? with
      | none => s
      | some call => { s with
          cache := Dict.erase s.cache (key call.token)
          logouts := s.logouts.eraseIdx index
          loggedOut := call.token :: s.loggedOut }
  | .raiseLogout index =>
      match s.logouts[index]? with
      | none => s
      | some call => { s with
          cache := Dict.erase s.cache (key call.token)
          logouts := s.logouts.eraseIdx index }

/-- When an action can be taken: requests are answered once, a load finishes after its answer,
and a token is issued once. -/
def enabledSessions (s : SessionState κ π) : SessionAction π → Bool
  | .tick _ | .revoke _ | .session _ | .logout _ => true
  | .issue token _ => !s.issued.contains token
  | .change token _ => (s.sessions token).isSome
  | .answer flight | .fail flight => (s.flights[flight]?).any (·.answer.isNone)
  | .finish flight => (s.flights[flight]?).any fun f => f.answer.isSome && !f.done
  | .resume index =>
      (s.waiters[index]?).any fun waiter => (s.flights[waiter.flight]?).any (·.done)
  | .cancel index => index < s.waiters.length
  | .serveLogout index => (s.logouts[index]?).any (·.revoked.isNone)
  | .returnLogout index => (s.logouts[index]?).any (·.revoked == some true)
  | .raiseLogout index => index < s.logouts.length

def sessionSystem : System (SessionState κ π) (SessionAction π) where
  initial := initialSessions
  enabled s a := enabledSessions s a = true
  next := nextSessions key

/-! ## Loads that outlive a logout -/

/-- The helper has answered the load with a principal. -/
def SessionState.loaded (s : SessionState κ π) (flight : Nat) : Bool :=
  match (s.flights[flight]?).bind (·.answer) with
  | some (.principal _) => true
  | _ => false

/-- A load with a principal can still be joined, or a call that waits for one goes on. -/
def SessionState.uncollected (s : SessionState κ π) (token : String) : Bool :=
  s.registered.any (fun entry => entry.1 = key token && s.loaded entry.2) ||
    s.waiters.any (fun waiter => waiter.token = token && s.loaded waiter.flight)

/-- A logout returns only when no such load is left. -/
def Collected (s : SessionState κ π) : SessionAction π → Prop
  | .returnLogout index => ∀ call ∈ s.logouts[index]?, s.uncollected key call.token = false
  | _ => True

instance (s : SessionState κ π) (a : SessionAction π) : Decidable (Collected key s a) :=
  match a with
  | .returnLogout index => inferInstanceAs
      (Decidable (∀ call ∈ s.logouts[index]?, s.uncollected key call.token = false))
  | .tick _ | .issue _ _ | .change _ _ | .revoke _ | .session _ | .answer _ | .fail _ | .finish _
  | .resume _ | .cancel _ | .logout _ | .serveLogout _ | .raiseLogout _ =>
      inferInstanceAs (Decidable True)

instance (s : SessionState κ π) (a : SessionAction π) :
    Decidable ((sessionSystem key).enabled s a) :=
  inferInstanceAs (Decidable (_ = true))

/-- What a logout leaves behind. -/
structure SessionInv (s : SessionState κ π) : Prop where
  valid : ∀ token, s.sessions token ≠ none → token ∈ s.issued
  revoked : ∀ call ∈ s.logouts, call.revoked = some true →
    call.token ∈ s.issued ∧ s.sessions call.token = none
  ended : ∀ token ∈ s.loggedOut, token ∈ s.issued ∧ s.sessions token = none
  uncached : ∀ token ∈ s.loggedOut, ∀ entry ∈ s.cache, entry.1 ≠ key token
  unjoined : ∀ token ∈ s.loggedOut, ∀ entry ∈ s.registered, entry.1 = key token →
    s.loaded entry.2 = false
  unawaited : ∀ token ∈ s.loggedOut, ∀ waiter ∈ s.waiters, waiter.token = token →
    s.loaded waiter.flight = false
  registered : ∀ entry ∈ s.registered, ∃ flight, s.flights[entry.2]? = some flight ∧
    key flight.token = entry.1
  awaited : ∀ waiter ∈ s.waiters, ∃ flight, s.flights[waiter.flight]? = some flight ∧
    key flight.token = key waiter.token
  late : ∀ waiter ∈ s.waiters, waiter.late = true → waiter.token ∈ s.loggedOut
  returned : ∀ reply ∈ s.returned, reply.2 = false

variable {key} {s : SessionState κ π}

/-- Tasks that end, entries that go. -/
theorem SessionInv.mono (h : SessionInv key s) {s' : SessionState κ π}
    (hsessions : s'.sessions = s.sessions) (hissued : s'.issued = s.issued)
    (hflights : s'.flights = s.flights) (hloggedOut : s'.loggedOut = s.loggedOut)
    (hreturned : s'.returned = s.returned) (hcache : s'.cache ⊆ s.cache)
    (hregistered : s'.registered ⊆ s.registered) (hwaiters : s'.waiters ⊆ s.waiters)
    (hlogouts : s'.logouts ⊆ s.logouts) : SessionInv key s' := by
  have hloaded : ∀ i, s'.loaded i = s.loaded i := by
    intro i
    unfold SessionState.loaded
    rw [hflights]
  constructor
  · rw [hsessions, hissued]
    exact h.valid
  · rw [hsessions, hissued]
    exact fun call hcall => h.revoked call (hlogouts hcall)
  · rw [hsessions, hissued, hloggedOut]
    exact h.ended
  · rw [hloggedOut]
    exact fun token htoken entry hentry => h.uncached token htoken entry (hcache hentry)
  · rw [hloggedOut]
    intro token htoken entry hentry hkey
    rw [hloaded]
    exact h.unjoined token htoken entry (hregistered hentry) hkey
  · rw [hloggedOut]
    intro token htoken waiter hwaiter hmine
    rw [hloaded]
    exact h.unawaited token htoken waiter (hwaiters hwaiter) hmine
  · rw [hflights]
    exact fun entry hentry => h.registered entry (hregistered hentry)
  · rw [hflights]
    exact fun waiter hwaiter => h.awaited waiter (hwaiters hwaiter)
  · rw [hloggedOut]
    exact fun waiter hwaiter => h.late waiter (hwaiters hwaiter)
  · rw [hreturned]
    exact h.returned

/-- The helper ends or changes sessions; it never revives one. -/
theorem SessionInv.sessions (h : SessionInv key s) {sessions : String → Option π}
    (hkept : ∀ token, s.sessions token = none → token ∈ s.issued → sessions token = none)
    {issued : List String} (hissued : s.issued ⊆ issued)
    (hvalid : ∀ token, sessions token ≠ none → token ∈ issued) :
    SessionInv key { s with sessions := sessions, issued := issued } where
  valid := hvalid
  revoked := by
    intro call hcall hrevoked
    obtain ⟨hmem, hnone⟩ := h.revoked call hcall hrevoked
    exact ⟨hissued hmem, hkept _ hnone hmem⟩
  ended := by
    intro token htoken
    obtain ⟨hmem, hnone⟩ := h.ended token htoken
    exact ⟨hissued hmem, hkept _ hnone hmem⟩
  uncached := h.uncached
  unjoined := h.unjoined
  unawaited := h.unawaited
  registered := h.registered
  awaited := h.awaited
  late := h.late
  returned := h.returned

/-- Loads go on; a principal is only given to a token that is valid. -/
theorem SessionInv.flights (hkey : Function.Injective key) (h : SessionInv key s)
    {flights : List (SessionFlight π)}
    (hkept : ∀ (i : Nat) (f : SessionFlight π), s.flights[i]? = some f →
      ∃ f' : SessionFlight π, flights[i]? = some f' ∧ f'.token = f.token)
    (hloaded : ∀ (i : Nat) (f : SessionFlight π), s.flights[i]? = some f →
      SessionState.loaded { s with flights := flights } i = true →
      s.loaded i = true ∨ s.sessions f.token ≠ none) :
    SessionInv key { s with flights := flights } := by
  have hunloaded : ∀ token ∈ s.loggedOut, ∀ i f, s.flights[i]? = some f → f.token = token →
      s.loaded i = false → SessionState.loaded { s with flights := flights } i = false := by
    intro token htoken i f hf hmine hnot
    cases hload : SessionState.loaded { s with flights := flights } i with
    | false => rfl
    | true =>
        rcases hloaded i f hf hload with hold | hsession
        · rw [hnot] at hold
          cases hold
        · rw [hmine] at hsession
          exact absurd (h.ended token htoken).2 hsession
  refine ⟨h.valid, h.revoked, h.ended, h.uncached, ?_, ?_, ?_, ?_, h.late, h.returned⟩
  · intro token htoken entry hentry hentryKey
    obtain ⟨f, hf, hftoken⟩ := h.registered entry hentry
    exact hunloaded token htoken entry.2 f hf (hkey (hftoken.trans hentryKey))
      (h.unjoined token htoken entry hentry hentryKey)
  · intro token htoken waiter hwaiter hmine
    obtain ⟨f, hf, hftoken⟩ := h.awaited waiter hwaiter
    exact hunloaded token htoken waiter.flight f hf ((hkey hftoken).trans hmine)
      (h.unawaited token htoken waiter hwaiter hmine)
  · intro entry hentry
    obtain ⟨f, hf, hftoken⟩ := h.registered entry hentry
    obtain ⟨f', hf', hsame⟩ := hkept entry.2 f hf
    exact ⟨f', hf', hsame ▸ hftoken⟩
  · intro waiter hwaiter
    obtain ⟨f, hf, hftoken⟩ := h.awaited waiter hwaiter
    obtain ⟨f', hf', hsame⟩ := hkept waiter.flight f hf
    exact ⟨f', hf', hsame ▸ hftoken⟩

theorem getElem?_modify_flights {flight i : Nat} {g : SessionFlight π → SessionFlight π}
    {f : SessionFlight π} (hf : s.flights[i]? = some f) :
    (s.flights.modify flight g)[i]? = some (if flight = i then g f else f) := by
  rw [List.getElem?_modify, hf]
  split <;> rfl

theorem getElem?_append_flights {i : Nat} {f : SessionFlight π} (hf : s.flights[i]? = some f)
    {more : List (SessionFlight π)} : (s.flights ++ more)[i]? = some f := by
  obtain ⟨hi, _⟩ := List.getElem?_eq_some_iff.mp hf
  rw [List.getElem?_append_left hi, hf]

theorem SessionInv.answerWith (hkey : Function.Injective key) (h : SessionInv key s) {flight : Nat}
    {result : LoadResult π}
    (hresult : ∀ f value, s.flights[flight]? = some f → result = .principal value →
      s.sessions f.token ≠ none) : SessionInv key (s.answerWith flight result) := by
  apply h.flights hkey
  · intro i f hf
    refine ⟨_, getElem?_modify_flights hf, ?_⟩
    split <;> rfl
  · intro i f hf hload
    unfold SessionState.loaded at hload
    dsimp only at hload
    rw [getElem?_modify_flights hf] at hload
    by_cases hi : flight = i
    · subst hi
      rw [if_pos rfl] at hload
      right
      cases result with
      | failed => cases hload
      | principal value => exact hresult f value hf rfl
    · rw [if_neg hi] at hload
      left
      unfold SessionState.loaded
      rw [hf]
      exact hload

theorem SessionInv.finish (hkey : Function.Injective key) (h : SessionInv key s) (flight : Nat) :
    SessionInv key { s with
      flights := s.flights.modify flight fun f => { f with done := true } } := by
  apply h.flights hkey
  · intro i f hf
    refine ⟨_, getElem?_modify_flights hf, ?_⟩
    split <;> rfl
  · intro i f hf hload
    left
    unfold SessionState.loaded at hload ⊢
    dsimp only at hload
    rw [getElem?_modify_flights hf] at hload
    rw [hf]
    by_cases hi : flight = i
    · rw [if_pos hi] at hload
      exact hload
    · rw [if_neg hi] at hload
      exact hload

theorem SessionInv.release (h : SessionInv key s) (waiter : SessionWaiter) (index : Nat) :
    SessionInv key { s.release key waiter with waiters := s.waiters.eraseIdx index } := by
  have hregistered : (s.release key waiter).registered ⊆ s.registered := by
    unfold SessionState.release
    split
    · exact fun entry hentry => (Dict.mem_erase.mp hentry).1
    · exact List.Subset.refl _
  have hothers : { s.release key waiter with waiters := s.waiters.eraseIdx index } =
      { s with
        registered := (s.release key waiter).registered
        waiters := s.waiters.eraseIdx index } := by
    unfold SessionState.release
    split <;> rfl
  rw [hothers]
  apply h.mono
  all_goals try exact List.Subset.refl _
  all_goals try rfl
  · exact hregistered
  · exact (List.eraseIdx_sublist _ _).subset

theorem SessionInv.cached (h : SessionInv key s) {cache : List (κ × SessionCacheEntry π)}
    (hcache : ∀ token ∈ s.loggedOut, ∀ entry ∈ cache, entry.1 ≠ key token) :
    SessionInv key { s with cache := cache } :=
  ⟨h.valid, h.revoked, h.ended, hcache, h.unjoined, h.unawaited, h.registered, h.awaited, h.late,
    h.returned⟩

/-- A call that goes on with a principal belongs to a session that has not been logged out. -/
theorem SessionInv.store (hkey : Function.Injective key) (h : SessionInv key s) {token : String}
    (htoken : token ∉ s.loggedOut) (value : π) : SessionInv key (s.store key token value) := by
  apply h.cached
  intro other hother entry hentry
  rcases Dict.mem_set hentry with rfl | hentry
  · exact fun heq => htoken (hkey heq ▸ hother)
  · exact h.uncached other hother entry (List.mem_filter.mp (List.mem_of_mem_drop hentry)).1

theorem SessionInv.reply (h : SessionInv key s) {reply : String × Bool} (hreply : reply.2 = false) :
    SessionInv key { s with returned := reply :: s.returned } :=
  { h with returned := List.forall_mem_cons.mpr ⟨hreply, h.returned⟩ }

theorem loaded_of_principal {flight : Nat} {value : π}
    (h : (s.flights[flight]?).bind (·.answer) = some (.principal value)) :
    s.loaded flight = true := by
  unfold SessionState.loaded
  rw [h]

theorem SessionInv.resume (hkey : Function.Injective key) (h : SessionInv key s) (index : Nat) :
    SessionInv key (nextSessions key s (.resume index)) := by
  unfold nextSessions
  dsimp only
  split
  · exact h
  · next waiter hwaiter =>
      have hmem : waiter ∈ s.waiters := List.mem_of_getElem? hwaiter
      have hreleased := h.release waiter index
      split
      · next value hvalue =>
          have hout : waiter.token ∉ s.loggedOut := by
            intro hmine
            have hnot := h.unawaited waiter.token hmine waiter hmem rfl
            rw [loaded_of_principal hvalue] at hnot
            cases hnot
          have hlate : waiter.late = false := by
            cases hlate : waiter.late with
            | false => rfl
            | true => exact absurd (h.late waiter hmem hlate) hout
          have hkept : (s.release key waiter).loggedOut = s.loggedOut := by
            unfold SessionState.release
            split <;> rfl
          have hstored := hreleased.store hkey (hkept ▸ hout) value
          generalize hstate : SessionState.store key
            { s.release key waiter with waiters := s.waiters.eraseIdx index } waiter.token value =
              stored at hstored ⊢
          have hreplies : stored.returned = s.returned := by
            rw [← hstate]
            unfold SessionState.store SessionState.release
            split <;> rfl
          rw [← hreplies]
          exact hstored.reply hlate
      · exact hreleased

theorem SessionInv.session (hkey : Function.Injective key) (h : SessionInv key s) (token : String) :
    SessionInv key (nextSessions key s (.session token)) := by
  unfold nextSessions
  dsimp only
  split
  · next entry hcached =>
      apply h.reply
      have hentry := Dict.mem_of_get (Option.eq_some_of_filter_eq_some hcached)
      cases hlate : s.loggedOut.contains token with
      | false => rfl
      | true =>
          have hmem : token ∈ s.loggedOut := List.contains_iff_mem.mp hlate
          exact absurd rfl (h.uncached token hmem _ hentry)
  · split
    · next flight hflight =>
        have hentry := Dict.mem_of_get hflight
        obtain ⟨f, hf, hftoken⟩ := h.registered _ hentry
        refine ⟨h.valid, h.revoked, h.ended, h.uncached, h.unjoined, ?_, h.registered, ?_, ?_,
          h.returned⟩
        · intro other hother waiter hwaiter hmine
          rcases List.mem_append.mp hwaiter with hwaiter | hwaiter
          · exact h.unawaited other hother waiter hwaiter hmine
          · rw [List.mem_singleton.mp hwaiter] at hmine ⊢
            exact h.unjoined other hother _ hentry (congrArg key hmine)
        · intro waiter hwaiter
          rcases List.mem_append.mp hwaiter with hwaiter | hwaiter
          · exact h.awaited waiter hwaiter
          · rw [List.mem_singleton.mp hwaiter]
            exact ⟨f, hf, hftoken⟩
        · intro waiter hwaiter hlate
          rcases List.mem_append.mp hwaiter with hwaiter | hwaiter
          · exact h.late waiter hwaiter hlate
          · rw [List.mem_singleton.mp hwaiter] at hlate ⊢
            exact List.contains_iff_mem.mp hlate
    · -- a new load has not been answered
      have hgrown : SessionInv key { s with flights := s.flights ++ [⟨token, none, false⟩] } := by
        apply h.flights hkey
        · intro i f hf
          exact ⟨f, getElem?_append_flights hf, rfl⟩
        · intro i f hf hload
          left
          unfold SessionState.loaded at hload ⊢
          dsimp only at hload
          rw [getElem?_append_flights hf] at hload
          rw [hf]
          exact hload
      have hnew : (s.flights ++ [(⟨token, none, false⟩ : SessionFlight π)])[s.flights.length]? =
          some ⟨token, none, false⟩ := by simp
      have hunloaded : SessionState.loaded
          { s with flights := s.flights ++ [⟨token, none, false⟩] } s.flights.length = false := by
        unfold SessionState.loaded
        dsimp only
        rw [hnew]
        rfl
      refine ⟨h.valid, h.revoked, h.ended, h.uncached, ?_, ?_, ?_, ?_, ?_, h.returned⟩
      · intro other hother entry hentry hentryKey
        rcases Dict.mem_set hentry with rfl | hentry
        · exact hunloaded
        · exact hgrown.unjoined other hother entry hentry hentryKey
      · intro other hother waiter hwaiter hmine
        rcases List.mem_append.mp hwaiter with hwaiter | hwaiter
        · exact hgrown.unawaited other hother waiter hwaiter hmine
        · rw [List.mem_singleton.mp hwaiter]
          exact hunloaded
      · intro entry hentry
        rcases Dict.mem_set hentry with rfl | hentry
        · exact ⟨_, hnew, rfl⟩
        · exact hgrown.registered entry hentry
      · intro waiter hwaiter
        rcases List.mem_append.mp hwaiter with hwaiter | hwaiter
        · exact hgrown.awaited waiter hwaiter
        · rw [List.mem_singleton.mp hwaiter]
          exact ⟨_, hnew, rfl⟩
      · intro waiter hwaiter hlate
        rcases List.mem_append.mp hwaiter with hwaiter | hwaiter
        · exact h.late waiter hwaiter hlate
        · rw [List.mem_singleton.mp hwaiter] at hlate ⊢
          exact List.contains_iff_mem.mp hlate

theorem SessionInv.issue (h : SessionInv key s) {token : String} (hnew : token ∉ s.issued)
    (value : π) : SessionInv key (nextSessions key s (.issue token value)) := by
  apply h.sessions
  · intro other hnone hissued
    have hne : other ≠ token := fun heq => hnew (heq ▸ hissued)
    rw [if_neg hne]
    exact hnone
  · exact List.subset_cons_self token s.issued
  · intro other hother
    by_cases heq : other = token
    · exact List.mem_cons.mpr (Or.inl heq)
    · rw [if_neg heq] at hother
      exact List.mem_cons_of_mem token (h.valid other hother)

theorem SessionInv.change (h : SessionInv key s) {token : String} (hvalid : s.sessions token ≠ none)
    (value : π) : SessionInv key (nextSessions key s (.change token value)) := by
  apply h.sessions
  · intro other hnone _
    have hne : other ≠ token := fun heq => hvalid (heq ▸ hnone)
    rw [if_neg hne]
    exact hnone
  · exact List.Subset.refl _
  · intro other hother
    by_cases heq : other = token
    · rw [heq]
      exact h.valid token hvalid
    · rw [if_neg heq] at hother
      exact h.valid other hother

theorem SessionInv.revoke (h : SessionInv key s) (token : String) :
    SessionInv key (nextSessions key s (.revoke token)) := by
  apply h.sessions
  · intro other hnone _
    split
    · rfl
    · exact hnone
  · exact List.Subset.refl _
  · intro other hother
    by_cases heq : other = token
    · rw [if_pos heq] at hother
      exact absurd rfl hother
    · rw [if_neg heq] at hother
      exact h.valid other hother

theorem SessionInv.serveLogout (h : SessionInv key s) (index : Nat) :
    SessionInv key (nextSessions key s (.serveLogout index)) := by
  unfold nextSessions
  dsimp only
  split
  · exact h
  · next call hcall =>
      have hrevoked := h.revoke call.token
      refine { hrevoked with revoked := ?_ }
      intro other hother hserved
      rcases List.mem_or_eq_of_mem_set hother with hother | rfl
      · exact hrevoked.revoked other hother hserved
      · refine ⟨?_, if_pos rfl⟩
        apply h.valid
        exact Option.isSome_iff_ne_none.mp (Option.some.inj hserved)

/-- The logout drops the cached principal; the condition leaves no load to bring it back. -/
theorem SessionInv.returnLogout (h : SessionInv key s) {index : Nat}
    (henabled : enabledSessions s (.returnLogout index) = true)
    (hgood : Collected key s (.returnLogout index)) :
    SessionInv key (nextSessions key s (.returnLogout index)) := by
  unfold nextSessions
  dsimp only
  unfold enabledSessions at henabled
  dsimp only at henabled
  split
  · exact h
  · next call hcall =>
      rw [hcall, Option.any_some, beq_iff_eq] at henabled
      have hcollected := hgood call hcall
      unfold SessionState.uncollected at hcollected
      rw [Bool.or_eq_false_iff, List.any_eq_false, List.any_eq_false] at hcollected
      obtain ⟨hjoin, hwait⟩ := hcollected
      refine ⟨h.valid, ?_, ?_, ?_, ?_, ?_, h.registered, h.awaited, ?_, h.returned⟩
      · exact fun other hother => h.revoked other ((List.eraseIdx_sublist _ _).subset hother)
      · intro token htoken
        rcases List.mem_cons.mp htoken with rfl | htoken
        · exact h.revoked call (List.mem_of_getElem? hcall) henabled
        · exact h.ended token htoken
      · intro token htoken entry hentry
        obtain ⟨hentry, hne⟩ := Dict.mem_erase.mp hentry
        rcases List.mem_cons.mp htoken with rfl | htoken
        · exact hne
        · exact h.uncached token htoken entry hentry
      · intro token htoken entry hentry hentryKey
        rcases List.mem_cons.mp htoken with rfl | htoken
        · have hnot := hjoin entry hentry
          rw [decide_eq_true hentryKey, Bool.true_and, Bool.not_eq_true] at hnot
          exact hnot
        · exact h.unjoined token htoken entry hentry hentryKey
      · intro token htoken waiter hwaiter hmine
        rcases List.mem_cons.mp htoken with rfl | htoken
        · have hnot := hwait waiter hwaiter
          rw [decide_eq_true hmine, Bool.true_and, Bool.not_eq_true] at hnot
          exact hnot
        · exact h.unawaited token htoken waiter hwaiter hmine
      · exact fun waiter hwaiter hlate => List.mem_cons_of_mem _ (h.late waiter hwaiter hlate)

theorem SessionInv.logout (h : SessionInv key s) (token : String) :
    SessionInv key (nextSessions key s (.logout token)) := by
  have hdropped : SessionInv key { s with cache := Dict.erase s.cache (key token) } :=
    h.cached fun other hother entry hentry =>
      h.uncached other hother entry (Dict.mem_erase.mp hentry).1
  refine { hdropped with revoked := ?_ }
  intro call hcall hserved
  rcases List.mem_append.mp hcall with hcall | hcall
  · exact h.revoked call hcall hserved
  · rw [List.mem_singleton.mp hcall] at hserved
    cases hserved

theorem SessionInv.raiseLogout (h : SessionInv key s) (index : Nat) :
    SessionInv key (nextSessions key s (.raiseLogout index)) := by
  unfold nextSessions
  dsimp only
  split
  · exact h
  · next call _ =>
      have hcache : Dict.erase s.cache (key call.token) ⊆ s.cache :=
        fun entry hentry => (Dict.mem_erase.mp hentry).1
      apply h.mono
      all_goals try exact List.Subset.refl _
      all_goals try rfl
      · exact hcache
      · exact (List.eraseIdx_sublist _ _).subset

theorem SessionInv.answer (hkey : Function.Injective key) (h : SessionInv key s) (flight : Nat) :
    SessionInv key (nextSessions key s (.answer flight)) := by
  unfold nextSessions
  dsimp only
  split
  · next f hf =>
      apply h.answerWith hkey
      intro f' value hf' hvalue hnone
      rw [hf] at hf'
      rw [← Option.some.inj hf'] at hnone
      rw [hnone] at hvalue
      cases hvalue
  · exact h

theorem SessionInv.step (hkey : Function.Injective key) (h : SessionInv key s)
    {a : SessionAction π} (henabled : enabledSessions s a = true) (hgood : Collected key s a) :
    SessionInv key (nextSessions key s a) := by
  cases a with
  | tick seconds => exact { h with }
  | issue token value =>
      apply h.issue
      intro hissued
      unfold enabledSessions at henabled
      dsimp only at henabled
      rw [List.contains_iff_mem.mpr hissued] at henabled
      cases henabled
  | change token value => exact h.change (Option.isSome_iff_ne_none.mp henabled) value
  | revoke token => exact h.revoke token
  | session token => exact h.session hkey token
  | answer flight => exact h.answer hkey flight
  | fail flight => exact h.answerWith hkey (by intro f value _ hvalue; cases hvalue)
  | finish flight => exact h.finish hkey flight
  | resume index => exact h.resume hkey index
  | cancel index =>
      unfold nextSessions
      dsimp only
      split
      · exact h
      · exact h.release _ index
  | logout token => exact h.logout token
  | serveLogout index => exact h.serveLogout index
  | returnLogout index => exact h.returnLogout henabled hgood
  | raiseLogout index => exact h.raiseLogout index

theorem SessionInv.initial : SessionInv key (initialSessions : SessionState κ π) := by
  constructor
  all_goals intro x hx
  case valid => exact absurd rfl hx
  all_goals cases hx

/-- No call of `session` that begins after a logout returns a principal, in every run whose
logouts leave no load behind. -/
theorem session_after_logout (hkey : Function.Injective key) {actions : List (SessionAction π)}
    (hrun : (sessionSystem key).Allows (Collected key) initialSessions actions) (token : String) :
    (token, true) ∉ ((sessionSystem key).after initialSessions actions).returned := by
  have hinv : SessionInv key ((sessionSystem key).after initialSessions actions) := by
    apply (sessionSystem key).invariant _ SessionInv.initial hrun
    intro s a hs henabled hgood
    exact SessionInv.step hkey hs henabled hgood
  intro hreturned
  cases hinv.returned _ hreturned

end Sessions

/-- A session that is loaded, cached, logged out and asked for again. -/
def collectedLogout : List (SessionAction Unit) :=
  [.issue "t" (), .session "t", .answer 0, .finish 0, .resume 0, .session "t", .logout "t",
    .serveLogout 0, .returnLogout 0, .session "t", .answer 1, .finish 1, .resume 0]

theorem session_after_logout_collected :
    (sessionSystem id).Allows (Collected id) initialSessions collectedLogout ∧
      ("t", true) ∉ ((sessionSystem id).after initialSessions collectedLogout).returned :=
  have hrun : (sessionSystem id).Allows (Collected id) initialSessions collectedLogout := by
    decide +kernel
  ⟨hrun, session_after_logout Function.injective_id hrun "t"⟩

/-- The call that waits for the load is cancelled: the finished load stays registered, and a
call that begins after the logout joins it. -/
def abandonedLoad : List (SessionAction Unit) :=
  [.issue "t" (), .session "t", .answer 0, .cancel 0, .finish 0, .logout "t", .serveLogout 0,
    .returnLogout 0, .session "t", .resume 0]

theorem session_after_logout_abandoned :
    (sessionSystem id).Allows (fun _ _ => True) initialSessions abandonedLoad ∧
      ("t", true) ∈ ((sessionSystem id).after initialSessions abandonedLoad).returned := by
  decide +kernel

end MaddyWeb.Gateway
