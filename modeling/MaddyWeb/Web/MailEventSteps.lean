import MaddyWeb.Web.MailEvents

/-!
# What the mail event hub keeps true

A running watcher is the registered one of its key, and what its tabs have been told or will be
told next is not behind the watcher.  A tab without a running watcher is about to be told that
its session has expired.
-/

namespace MaddyWeb.Web.MailEvents

open MaddyWeb.Library

variable {digest : String → String} {h h' : Hub} {i j : Nat} {w w' : Watcher} {s s' : Stream}

section Lists

variable {α : Type}

theorem getElem?_set_of_eq {xs : List α} {x : α} {i : Nat} (hx : xs[i]? = some x) (y : α)
    (j : Nat) :
    (xs.set i y)[j]? = if i = j then some y else xs[j]? := by
  have hi : i < xs.length := by
    by_contra hi
    rw [List.getElem?_eq_none (by omega)] at hx
    cases hx
  rw [List.getElem?_set, if_pos hi]

/-- A step that is taken once or more at each of the places. -/
theorem getElem?_foldl_modify {f : α → α} (hf : ∀ x, f (f x) = f x) (places : List Nat)
    (xs : List α) (j : Nat) :
    (places.foldl (fun xs i => xs.modify i f) xs)[j]? =
      xs[j]?.map fun x => if j ∈ places then f x else x := by
  induction places generalizing xs with
  | nil => simp
  | cons i places ih =>
      rw [List.foldl_cons, ih, List.getElem?_modify]
      cases xs[j]? with
      | none => rfl
      | some x =>
          by_cases hij : i = j
          · by_cases hj : j ∈ places <;> simp [hij, hj, hf]
          · simp [hij, Ne.symm hij]

theorem getElem?_modify_of_eq {xs : List α} {x : α} {i : Nat} (hx : xs[i]? = some x) (f : α → α)
    (j : Nat) : (xs.modify i f)[j]? = if i = j then some (f x) else xs[j]? := by
  rw [List.getElem?_modify]
  by_cases hij : i = j
  · subst hij
    simp [hx]
  · simp [hij]

end Lists

/-! ## Small facts -/

theorem put_eq (queue : Option MailEvent) (event : MailEvent) : put queue event = some event := by
  cases queue <;> rfl

theorem getElem?_publish (streams : List Stream) (subscribers : List Nat) (event : MailEvent)
    (j : Nat) :
    (publish streams subscribers event)[j]? =
      streams[j]?.map fun s => if j ∈ subscribers then { s with queue := some event } else s := by
  rw [publish, getElem?_foldl_modify fun s => by simp only [put_eq]]
  simp only [put_eq]

theorem cancel_cancel (w : Watcher) : w.cancel.cancel = w.cancel := by
  unfold Watcher.cancel
  split <;> simp [*]

theorem cancel_not_running (w : Watcher) : w.cancel.task ≠ some .running := by
  unfold Watcher.cancel
  split
  · simp
  · next halive =>
      intro htask
      simp [Watcher.alive, htask, Task.isDone] at halive

@[simp] theorem key_cancel (w : Watcher) : w.cancel.key digest = w.key digest := by
  unfold Watcher.cancel
  split <;> rfl

theorem alive_of_running (hw : w.task = some .running) : w.alive = true := by
  simp [Watcher.alive, hw, Task.isDone]

def Frame.eventId : Frame → Option Int
  | .event _ _ eventId => eventId
  | _ => none

def Stream.owed (s : Stream) : List Frame :=
  match s.phase with
  | .streaming owed _ => owed
  | _ => []

/-- What has been written and what is still owed. -/
def Stream.frames (s : Stream) : List Frame := s.written ++ s.owed

/-- The identifier that a browser sends back as `Last-Event-ID`. -/
def lastEventId (frames : List Frame) : Option Int := (frames.filterMap Frame.eventId).getLast?

/-- The latest arrival that the tab has been told, or will be told next. -/
def Stream.heard (s : Stream) : Option Int :=
  match s.queue with
  | some event => some event.uid
  | none => lastEventId s.frames

theorem lastEventId_append_some {frames : List Frame} {frame : Frame} {uid : Int}
    (hframe : frame.eventId = some uid) : lastEventId (frames ++ [frame]) = some uid := by
  simp [lastEventId, hframe]

theorem lastEventId_append_none {frames : List Frame} {frame : Frame}
    (hframe : frame.eventId = none) : lastEventId (frames ++ [frame]) = lastEventId frames := by
  simp [lastEventId, hframe]

theorem lastEventId_opening (resumeFrom : Option Int) (uid : Int) :
    lastEventId (opening resumeFrom uid) = some uid := by
  cases resumeFrom with
  | none => simp [opening, lastEventId, ready, List.filterMap_cons, Frame.eventId]
  | some r =>
      by_cases hr : r < uid <;>
        simp [opening, lastEventId, ready, newMail, List.filterMap_cons, Frame.eventId, hr]

/-! ## The invariants -/

/-- The tab waits for new mail, and is not behind. -/
structure Current (latestUid : Int) (s : Stream) : Prop where
  streaming : ∃ owed, s.phase = .streaming owed false
  heard : ∃ uid, s.heard = some uid ∧ latestUid ≤ uid
  newMail : ∀ event, s.queue = some event → event.name = .newMail

/-- The tab will be told that its session has expired, and then ends. -/
def Stream.Expiring (s : Stream) : Prop :=
  (∃ uid, s.queue = some ⟨.sessionExpired, uid⟩) ∨ ∃ owed, s.phase = .streaming owed true

def Stream.Streaming (s : Stream) : Prop := ∃ owed last, s.phase = .streaming owed last

structure Consistent (digest : String → String) (h : Hub) : Prop where
  registered : ∀ key (i : Nat), Dict.get h.registry key = some i →
    ∃ w, h.watchers[i]? = some w ∧ w.key digest = key ∧ w.task ≠ some .cancelling
  running : ∀ (i : Nat) (w : Watcher), h.watchers[i]? = some w → w.task = some .running →
    Dict.get h.registry (w.key digest) = some i
  served : ∀ (i : Nat) (w : Watcher), h.watchers[i]? = some w → w.task = some .running →
    ∀ j ∈ w.subscribers,
    ∃ s, h.streams[j]? = some s ∧ s.key digest = w.key digest ∧ Current w.latestUid s

/-- Somebody listens to every running watcher. -/
def Followed (h : Hub) : Prop :=
  ∀ (i : Nat) (w : Watcher), h.watchers[i]? = some w → w.task = some .running → w.subscribers ≠ []

/-- A running watcher has the tab among its subscribers. -/
def Watched (h : Hub) (j : Nat) : Prop :=
  ∃ (i : Nat) (w : Watcher), h.watchers[i]? = some w ∧ w.task = some .running ∧ j ∈ w.subscribers

def Attended (h : Hub) : Prop :=
  ∀ (j : Nat) (s : Stream), h.streams[j]? = some s → s.Streaming → Watched h j ∨ s.Expiring

/-- No tab has two running watchers. -/
theorem Consistent.unique (hinv : Consistent digest h) (hw : h.watchers[i]? = some w)
    (hrunning : w.task = some .running) {i' : Nat} (hw' : h.watchers[i']? = some w')
    (hrunning' : w'.task = some .running) (hj : j ∈ w.subscribers) (hj' : j ∈ w'.subscribers) :
    i = i' := by
  obtain ⟨s, hs, hkey, -⟩ := hinv.served i w hw hrunning j hj
  obtain ⟨s', hs', hkey', -⟩ := hinv.served i' w' hw' hrunning' j hj'
  have hss : s = s' := Option.some.inj (hs.symm.trans hs')
  subst hss
  have hi := hinv.running i w hw hrunning
  rw [← hkey, hkey', hinv.running i' w' hw' hrunning'] at hi
  exact (Option.some.inj hi).symm

/-- Only the tabs have moved, and none of them has fallen behind. -/
theorem Consistent.tabs (hinv : Consistent digest h) (hwatchers : h'.watchers = h.watchers)
    (hregistry : h'.registry = h.registry)
    (hstreams : ∀ (j : Nat) (s : Stream), h.streams[j]? = some s → ∃ s', h'.streams[j]? = some s' ∧
      s'.key digest = s.key digest ∧ ∀ latestUid, Current latestUid s → Current latestUid s') :
    Consistent digest h' := by
  constructor
  · rw [hwatchers, hregistry]
    exact hinv.registered
  · rw [hwatchers, hregistry]
    exact hinv.running
  · rw [hwatchers]
    intro i w hw hrunning j hj
    obtain ⟨s, hs, hkey, hcurrent⟩ := hinv.served i w hw hrunning j hj
    obtain ⟨s', hs', hkey', hkeeps⟩ := hstreams j s hs
    exact ⟨s', hs', hkey'.trans hkey, hkeeps _ hcurrent⟩

theorem Attended.tabs (hattended : Attended h) (hwatchers : h'.watchers = h.watchers)
    (hstreams : ∀ (j : Nat) (s' : Stream), h'.streams[j]? = some s' → s'.Streaming →
      ∃ s, h.streams[j]? = some s ∧ s.Streaming ∧ (s.Expiring → s'.Expiring)) : Attended h' := by
  intro j s' hs' hstreaming
  obtain ⟨s, hs, hold, hexpiring⟩ := hstreams j s' hs' hstreaming
  rcases hattended j s hs hold with hwatched | hexpires
  · left
    unfold Watched
    rw [hwatchers]
    exact hwatched
  · exact Or.inr (hexpiring hexpires)

/-- A queue is empty until it has been subscribed. -/
def Fresh (h : Hub) : Prop :=
  ∀ (j : Nat) (s : Stream), h.streams[j]? = some s → s.phase = .probing → s.queue = none

/-! ## One tab moves -/

section Tab

variable (hs : h.streams[j]? = some s)
  (hstreams : ∀ k, h'.streams[k]? = if j = k then some s' else h.streams[k]?)

include hs hstreams

theorem Consistent.tab (hinv : Consistent digest h) (hwatchers : h'.watchers = h.watchers)
    (hregistry : h'.registry = h.registry) (hkey : s'.key digest = s.key digest)
    (hcurrent : ∀ latestUid, Current latestUid s → Current latestUid s') :
    Consistent digest h' := by
  apply hinv.tabs hwatchers hregistry
  intro k t ht
  rw [hstreams k]
  by_cases hjk : j = k
  · subst hjk
    cases Option.some.inj (hs.symm.trans ht)
    exact ⟨s', if_pos rfl, hkey, hcurrent⟩
  · exact ⟨t, by rw [if_neg hjk, ht], rfl, fun _ h => h⟩

theorem Attended.tab (hattended : Attended h) (hwatchers : h'.watchers = h.watchers)
    (hstreaming : s'.Streaming → s.Streaming)
    (hexpiring : s.Expiring → s'.Streaming → s'.Expiring) :
    Attended h' := by
  apply hattended.tabs hwatchers
  intro k t ht hlive
  rw [hstreams k] at ht
  by_cases hjk : j = k
  · subst hjk
    rw [if_pos rfl] at ht
    cases ht
    exact ⟨s, hs, hstreaming hlive, fun h => hexpiring h hlive⟩
  · rw [if_neg hjk] at ht
    exact ⟨t, ht, hlive, fun h => h⟩

omit hs in
theorem Fresh.tab (hfresh : Fresh h) (hphase : s'.phase ≠ .probing) : Fresh h' := by
  intro k t ht hprobing
  rw [hstreams k] at ht
  by_cases hjk : j = k
  · rw [if_pos hjk] at ht
    cases ht
    exact absurd hprobing hphase
  · rw [if_neg hjk] at ht
    exact hfresh k t ht hprobing

end Tab

theorem getElem?_setPhase (hs : h.streams[j]? = some s) (phase : Phase) (k : Nat) :
    (h.setPhase j phase).streams[k]? = if j = k then some { s with phase } else h.streams[k]? :=
  getElem?_modify_of_eq hs _ k

/-! ## A watcher moves -/

/-- Watcher `i` and its tabs have changed. -/
theorem Consistent.watcher (hinv : Consistent digest h) (hw : h.watchers[i]? = some w)
    (hregistry : h'.registry = h.registry)
    (hwatchers : ∀ k, h'.watchers[k]? = if i = k then some w' else h.watchers[k]?)
    (hkey : w'.key digest = w.key digest) (hcancelling : w'.task ≠ some .cancelling)
    (hrunning : w'.task = some .running → w.task = some .running)
    (hothers : ∀ j s, h.streams[j]? = some s → s.Streaming →
      (w.task = some .running → j ∉ w.subscribers) → h'.streams[j]? = some s)
    (hserved : w'.task = some .running → ∀ j ∈ w'.subscribers, ∃ s, h'.streams[j]? = some s ∧
      s.key digest = w'.key digest ∧ Current w'.latestUid s) : Consistent digest h' := by
  constructor
  · intro key k hk
    rw [hregistry] at hk
    obtain ⟨v, hv, hvkey, hvtask⟩ := hinv.registered key k hk
    rw [hwatchers k]
    by_cases hik : i = k
    · subst hik
      cases Option.some.inj (hw.symm.trans hv)
      exact ⟨w', if_pos rfl, hkey.trans hvkey, hcancelling⟩
    · exact ⟨v, by rw [if_neg hik, hv], hvkey, hvtask⟩
  · intro k v hv hvrunning
    rw [hwatchers k] at hv
    rw [hregistry]
    by_cases hik : i = k
    · rw [if_pos hik] at hv
      cases hv
      rw [hkey, ← hik]
      exact hinv.running i w hw (hrunning hvrunning)
    · rw [if_neg hik] at hv
      exact hinv.running k v hv hvrunning
  · intro k v hv hvrunning j hj
    rw [hwatchers k] at hv
    by_cases hik : i = k
    · rw [if_pos hik] at hv
      cases hv
      exact hserved hvrunning j hj
    · rw [if_neg hik] at hv
      obtain ⟨s, hs, hskey, hcurrent⟩ := hinv.served k v hv hvrunning j hj
      have hnot : w.task = some .running → j ∉ w.subscribers := fun hwrunning hjw =>
        hik (hinv.unique hw hwrunning hv hvrunning hjw hj)
      exact ⟨s, hothers j s hs (hcurrent.streaming.imp fun _ h => ⟨false, h⟩) hnot, hskey, hcurrent⟩

theorem Followed.watcher (hfollowed : Followed h) (hw : h.watchers[i]? = some w)
    (hwatchers : ∀ k, h'.watchers[k]? = if i = k then some w' else h.watchers[k]?)
    (hsubscribers : w'.task = some .running → w.task = some .running ∧
      w'.subscribers = w.subscribers) :
    Followed h' := by
  intro k v hv hrunning
  rw [hwatchers k] at hv
  by_cases hik : i = k
  · rw [if_pos hik] at hv
    cases hv
    obtain ⟨hold, hsame⟩ := hsubscribers hrunning
    rw [hsame]
    exact hfollowed i w hw hold
  · rw [if_neg hik] at hv
    exact hfollowed k v hv hrunning

/-- What a watcher does from one sleep to the next. -/
theorem watch_cases (h : Hub) (i : Nat) (probe : Probe) :
    h.watch i probe = h ∨ ∃ w, h.watchers[i]? = some w ∧
      ((w.task = some .running ∧ h.watch i probe =
          { h with
            streams := publish h.streams w.subscribers ⟨.sessionExpired, w.latestUid⟩
            watchers := h.watchers.set i { w with task := some .done } }) ∨
        (w.task = some .running ∧ ∃ uid, probe = .value (some uid) ∧ validUid (some uid) = true ∧
          h.watch i probe =
            { h with
              streams := if w.latestUid < uid then publish h.streams w.subscribers ⟨.newMail, uid⟩
                else h.streams
              watchers := h.watchers.set i { w with latestUid := uid } }) ∨
        (w.task = some .cancelling ∧ h.watch i probe =
          { h with watchers := h.watchers.set i { w with task := some .done } })) := by
  unfold Hub.watch
  cases hw : h.watchers[i]? with
  | none => exact Or.inl rfl
  | some w =>
      dsimp only
      rcases htask : w.task with - | - | - | -
      · exact Or.inl rfl
      · cases probe with
        | failed => exact Or.inl rfl
        | helperCallError code =>
            dsimp only
            by_cases hcode : code ∈ expiredCodes
            · simp only [hcode, if_true]
              exact Or.inr ⟨w, rfl, Or.inl ⟨htask, rfl⟩⟩
            · simp [hcode]
        | value value =>
            cases value with
            | none => exact Or.inl rfl
            | some uid =>
                dsimp only
                by_cases hvalid : validUid (some uid) = true
                · simp only [hvalid, if_true]
                  exact Or.inr ⟨w, rfl, Or.inr (Or.inl ⟨htask, uid, rfl, hvalid, by rw [htask]⟩)⟩
                · simp [hvalid]
      · exact Or.inr ⟨w, rfl, Or.inr (Or.inr ⟨htask, rfl⟩)⟩
      · exact Or.inl rfl

theorem publish_others {subscribers : List Nat} (hj : j ∉ subscribers) (event : MailEvent) :
    (publish h.streams subscribers event)[j]? = h.streams[j]? := by
  rw [getElem?_publish]
  cases h.streams[j]? <;> simp [hj]

theorem publish_subscriber {subscribers : List Nat} (hs : h.streams[j]? = some s)
    (hj : j ∈ subscribers) (event : MailEvent) :
    (publish h.streams subscribers event)[j]? = some { s with queue := some event } := by
  rw [getElem?_publish, hs, Option.map_some, if_pos hj]

theorem Consistent.watch (hinv : Consistent digest h) (i : Nat) (probe : Probe) :
    Consistent digest (h.watch i probe) := by
  rcases watch_cases h i probe with hsame | ⟨w, hw, ⟨hrunning, hh⟩ | ⟨hrunning, uid, -, -, hh⟩ |
    ⟨hcancelling, hh⟩⟩
  · rw [hsame]
    exact hinv
  · rw [hh]
    refine hinv.watcher hw rfl (getElem?_set_of_eq hw { w with task := some .done }) rfl (by simp)
      (by simp) ?_ (by simp)
    intro j s hs _ hj
    rw [publish_others (hj hrunning), hs]
  · rw [hh]
    refine hinv.watcher hw rfl (getElem?_set_of_eq hw { w with latestUid := uid }) rfl
      (by simp [hrunning]) (fun h => h) ?_ ?_
    · intro j s hs _ hj
      dsimp only
      split
      · rw [publish_others (hj hrunning), hs]
      · exact hs
    · intro _ j hj
      obtain ⟨s, hs, hkey, hcurrent⟩ := hinv.served i w hw hrunning j hj
      dsimp only
      by_cases hnew : w.latestUid < uid
      · rw [if_pos hnew]
        refine ⟨_, publish_subscriber hs hj _, hkey, hcurrent.streaming, ⟨uid, rfl, le_refl uid⟩,
          ?_⟩
        intro event hevent
        cases hevent
        rfl
      · rw [if_neg hnew]
        obtain ⟨last, hlast, hle⟩ := hcurrent.heard
        exact ⟨s, hs, hkey, hcurrent.streaming, ⟨last, hlast, by omega⟩, hcurrent.newMail⟩
  · rw [hh]
    exact hinv.watcher hw rfl (getElem?_set_of_eq hw { w with task := some .done }) rfl (by simp)
      (by simp) (fun _ _ hs _ _ => hs) (by simp)

theorem Followed.watch (hfollowed : Followed h) (i : Nat) (probe : Probe) :
    Followed (h.watch i probe) := by
  rcases watch_cases h i probe with hsame | ⟨w, hw, ⟨hrunning, hh⟩ | ⟨hrunning, uid, -, -, hh⟩ |
    ⟨hcancelling, hh⟩⟩
  · rw [hsame]
    exact hfollowed
  · rw [hh]
    exact hfollowed.watcher hw (getElem?_set_of_eq hw { w with task := some .done }) (by simp)
  · rw [hh]
    exact hfollowed.watcher hw (getElem?_set_of_eq hw { w with latestUid := uid })
      fun _ => ⟨hrunning, rfl⟩
  · rw [hh]
    exact hfollowed.watcher hw (getElem?_set_of_eq hw { w with task := some .done }) (by simp)

/-- Publishing reaches only tabs that are no longer probing. -/
theorem Fresh.publish (hfresh : Fresh h) (hinv : Consistent digest h) (hw : h.watchers[i]? = some w)
    (hrunning : w.task = some .running) (event : MailEvent) (j : Nat) (s : Stream)
    (hs : (publish h.streams w.subscribers event)[j]? = some s) (hprobing : s.phase = .probing) :
    s.queue = none := by
  by_cases hj : j ∈ w.subscribers
  · obtain ⟨t, ht, -, hcurrent⟩ := hinv.served i w hw hrunning j hj
    rw [publish_subscriber ht hj] at hs
    cases hs
    obtain ⟨owed, hphase⟩ := hcurrent.streaming
    rw [hphase] at hprobing
    cases hprobing
  · rw [publish_others hj] at hs
    exact hfresh j s hs hprobing

theorem Fresh.watch (hfresh : Fresh h) (hinv : Consistent digest h) (i : Nat) (probe : Probe) :
    Fresh (h.watch i probe) := by
  rcases watch_cases h i probe with hsame | ⟨w, hw, ⟨hrunning, hh⟩ | ⟨hrunning, uid, -, -, hh⟩ |
    ⟨hcancelling, hh⟩⟩
  · rw [hsame]
    exact hfresh
  · rw [hh]
    exact hfresh.publish hinv hw hrunning _
  · rw [hh]
    intro j s hs
    dsimp only at hs
    split at hs
    · exact hfresh.publish hinv hw hrunning _ j s hs
    · exact hfresh j s hs
  · rw [hh]
    exact hfresh

/-- A tab is as it was before the publication, or it has the event in its queue. -/
theorem publish_cases {subscribers : List Nat} {event : MailEvent}
    (hs : (publish h.streams subscribers event)[j]? = some s') :
    ∃ s, h.streams[j]? = some s ∧ s'.phase = s.phase ∧
      (j ∉ subscribers ∧ s' = s ∨ j ∈ subscribers ∧ s'.queue = some event) := by
  rw [getElem?_publish] at hs
  obtain ⟨s, hold, rfl⟩ := Option.map_eq_some_iff.mp hs
  refine ⟨s, hold, ?_⟩
  by_cases hj : j ∈ subscribers
  · simp [hj]
  · simp [hj]

theorem Watched.watcher (hwatched : Watched h j) (hw : h.watchers[i]? = some w)
    (hwatchers : ∀ k, h'.watchers[k]? = if i = k then some w' else h.watchers[k]?)
    (hkeeps : w.task = some .running → j ∈ w.subscribers →
      w'.task = some .running ∧ j ∈ w'.subscribers) : Watched h' j := by
  obtain ⟨k, v, hv, hrunning, hj⟩ := hwatched
  by_cases hik : i = k
  · subst hik
    cases Option.some.inj (hw.symm.trans hv)
    obtain ⟨hrunning', hj'⟩ := hkeeps hrunning hj
    exact ⟨i, w', by rw [hwatchers, if_pos rfl], hrunning', hj'⟩
  · exact ⟨k, v, by rw [hwatchers, if_neg hik, hv], hrunning, hj⟩

theorem Attended.watch (hattended : Attended h) (i : Nat) (probe : Probe) :
    Attended (h.watch i probe) := by
  rcases watch_cases h i probe with hsame | ⟨w, hw, ⟨hrunning, hh⟩ | ⟨hrunning, uid, -, -, hh⟩ |
    ⟨hcancelling, hh⟩⟩
  · rw [hsame]
    exact hattended
  · rw [hh]
    intro j s' hs' hstreaming
    obtain ⟨s, hs, hsame, ⟨hj, rfl⟩ | ⟨hj, hqueue⟩⟩ := publish_cases hs'
    · exact (hattended j s' hs hstreaming).imp_left fun hwatched =>
        hwatched.watcher hw (getElem?_set_of_eq hw { w with task := some .done })
          fun _ hjw => absurd hjw hj
    · exact Or.inr (Or.inl ⟨_, hqueue⟩)
  · have hwatchers := getElem?_set_of_eq hw { w with latestUid := uid }
    rw [hh]
    intro j s' hs' hstreaming
    dsimp only at hs'
    split at hs'
    · obtain ⟨s, hs, hsame, ⟨hj, rfl⟩ | ⟨hj, hqueue⟩⟩ := publish_cases hs'
      · exact (hattended j s' hs hstreaming).imp_left fun hwatched =>
          hwatched.watcher hw hwatchers fun hrunning hjw => ⟨hrunning, hjw⟩
      · exact Or.inl ⟨i, { w with latestUid := uid }, by rw [hwatchers, if_pos rfl], hrunning, hj⟩
    · exact (hattended j s' hs' hstreaming).imp_left fun hwatched =>
        hwatched.watcher hw hwatchers fun hrunning hjw => ⟨hrunning, hjw⟩
  · rw [hh]
    intro j s hs hstreaming
    refine (hattended j s hs hstreaming).imp_left fun hwatched =>
      hwatched.watcher hw (getElem?_set_of_eq hw { w with task := some .done }) ?_
    intro hrunning
    rw [hcancelling] at hrunning
    cases hrunning

/-! ## A tab leaves -/

theorem Consistent.registered_of_subscriber (hinv : Consistent digest h) {k : Nat} {v : Watcher}
    (hv : h.watchers[k]? = some v) (hrunning : v.task = some .running) (hj : j ∈ v.subscribers)
    (hs : h.streams[j]? = some s) : Dict.get h.registry (s.key digest) = some k := by
  obtain ⟨t, ht, hkey, -⟩ := hinv.served k v hv hrunning j hj
  cases Option.some.inj (hs.symm.trans ht)
  rw [hkey]
  exact hinv.running k v hv hrunning

theorem unsubscribe_cases (h : Hub) (key : Key) (tab : Nat) :
    (h.unsubscribe key tab = h ∧
        ∀ i, Dict.get h.registry key = some i → h.watchers[i]? = none) ∨
      ∃ i w, Dict.get h.registry key = some i ∧ h.watchers[i]? = some w ∧
        (((∀ j ∈ w.subscribers, j = tab) ∧ h.unsubscribe key tab =
            { h with
              registry := Dict.erase h.registry key
              watchers := h.watchers.set i
                ({ w with subscribers := w.subscribers.filter (· ≠ tab) } : Watcher).cancel }) ∨
          (w.subscribers.filter (· ≠ tab) ≠ [] ∧ h.unsubscribe key tab =
            { h with
              watchers := h.watchers.set i
                { w with subscribers := w.subscribers.filter (· ≠ tab) } })) := by
  unfold Hub.unsubscribe
  cases hi : Dict.get h.registry key with
  | none => exact Or.inl ⟨rfl, by simp⟩
  | some i =>
      dsimp only
      cases hw : h.watchers[i]? with
      | none =>
          refine Or.inl ⟨rfl, ?_⟩
          rintro k ⟨⟩
          exact hw
      | some w =>
          right
          refine ⟨i, w, rfl, hw, ?_⟩
          dsimp only
          by_cases hempty : w.subscribers.filter (· ≠ tab) = []
          · left
            refine ⟨?_, by rw [if_pos (List.isEmpty_iff.mpr hempty)]⟩
            intro j hj
            simpa using List.filter_eq_nil_iff.mp hempty j hj
          · right
            exact ⟨hempty, by rw [if_neg (mt List.isEmpty_iff.mp hempty)]⟩

/-- A tab has left. -/
theorem Consistent.unsubscribe (hinv : Consistent digest h) (key : Key) (j : Nat) :
    Consistent digest (h.unsubscribe key j) := by
  rcases unsubscribe_cases h key j with ⟨hsame, hnone⟩ |
    ⟨i, w, hi, hw, ⟨honly, hh⟩ | ⟨hrest, hh⟩⟩
  · rw [hsame]
    exact hinv
  · have hwatchers := getElem?_set_of_eq hw
      ({ w with subscribers := w.subscribers.filter (· ≠ j) } : Watcher).cancel
    obtain ⟨w', hw', hkey, -⟩ := hinv.registered _ _ hi
    cases Option.some.inj (hw.symm.trans hw')
    -- a watcher that still runs is another one
    have hstill : ∀ (k : Nat) (v : Watcher),
        (h.watchers.set i
            ({ w with subscribers := w.subscribers.filter (· ≠ j) } : Watcher).cancel)[k]? =
          some v → v.task = some .running → i ≠ k ∧ h.watchers[k]? = some v := by
      intro k v hv hrunning
      rw [hwatchers k] at hv
      by_cases hik : i = k
      · rw [if_pos hik] at hv
        cases hv
        exact absurd hrunning (cancel_not_running _)
      · rw [if_neg hik] at hv
        exact ⟨hik, hv⟩
    rw [hh]
    constructor
    · intro key k hk
      rw [Dict.get_erase] at hk
      split at hk
      · cases hk
      · next hne =>
          obtain ⟨v, hv, hvkey, htask⟩ := hinv.registered key k hk
          have hik : i ≠ k := by
            intro hik
            subst hik
            cases Option.some.inj (hw.symm.trans hv)
            exact hne (hvkey.symm.trans hkey)
          exact ⟨v, by rw [hwatchers, if_neg hik, hv], hvkey, htask⟩
    · intro k v hv hrunning
      obtain ⟨hik, hold⟩ := hstill k v hv hrunning
      have hregistered := hinv.running k v hold hrunning
      rw [Dict.get_erase, if_neg]
      · exact hregistered
      · intro heq
        rw [heq, hi] at hregistered
        exact hik (Option.some.inj hregistered)
    · intro k v hv hrunning
      exact hinv.served k v (hstill k v hv hrunning).2 hrunning
  · rw [hh]
    obtain ⟨w', hw', -, hcancelling⟩ := hinv.registered _ _ hi
    cases Option.some.inj (hw.symm.trans hw')
    refine hinv.watcher hw rfl
      (getElem?_set_of_eq hw { w with subscribers := w.subscribers.filter (· ≠ j) }) rfl hcancelling
      (fun h => h) (fun _ _ hs _ _ => hs) ?_
    intro hrunning k hk
    exact hinv.served i w hw hrunning k (List.mem_of_mem_filter hk)

/-- No watcher that runs has the tab still. -/
theorem not_watched_unsubscribe (hinv : Consistent digest h) (hs : h.streams[j]? = some s) :
    ¬ Watched (h.unsubscribe (s.key digest) j) j := by
  rintro ⟨k, v, hv, hrunning, hj⟩
  have hkeep : ∀ {k : Nat} {v : Watcher}, h.watchers[k]? = some v → v.task = some .running →
      j ∈ v.subscribers → Dict.get h.registry (s.key digest) = some k :=
    fun hv hrunning hj => hinv.registered_of_subscriber hv hrunning hj hs
  rcases unsubscribe_cases h (s.key digest) j with ⟨hsame, hnone⟩ |
    ⟨i, w, hi, hw, ⟨honly, hh⟩ | ⟨hrest, hh⟩⟩
  · rw [hsame] at hv
    rw [hnone k (hkeep hv hrunning hj)] at hv
    cases hv
  all_goals
    rw [hh] at hv
    dsimp only at hv
    rw [getElem?_set_of_eq hw] at hv
    by_cases hik : i = k
    · rw [if_pos hik] at hv
      cases hv
      first
      | exact cancel_not_running _ hrunning
      | simp at hj
    · rw [if_neg hik] at hv
      have hregistered := hkeep hv hrunning hj
      rw [hi] at hregistered
      exact hik (Option.some.inj hregistered)

theorem Followed.unsubscribe (hfollowed : Followed h) (key : Key) (tab : Nat) :
    Followed (h.unsubscribe key tab) := by
  rcases unsubscribe_cases h key tab with ⟨hsame, -⟩ | ⟨i, w, hi, hw, ⟨honly, hh⟩ | ⟨hrest, hh⟩⟩
  · rw [hsame]
    exact hfollowed
  all_goals
    rw [hh]
    intro k v hv hrunning
    dsimp only at hv
    rw [getElem?_set_of_eq hw] at hv
    by_cases hik : i = k
    · rw [if_pos hik] at hv
      cases hv
      first
      | exact absurd hrunning (cancel_not_running _)
      | exact hrest
    · rw [if_neg hik] at hv
      exact hfollowed k v hv hrunning

theorem unsubscribe_streams (h : Hub) (key : Key) (tab : Nat) :
    (h.unsubscribe key tab).streams = h.streams := by
  rcases unsubscribe_cases h key tab with ⟨hsame, -⟩ | ⟨i, w, -, -, ⟨-, hh⟩ | ⟨-, hh⟩⟩
  · rw [hsame]
  all_goals rw [hh]

/-- The other tabs keep their watcher. -/
theorem Watched.unsubscribe {tab : Nat} (hwatched : Watched h j) (hj : j ≠ tab) (key : Key) :
    Watched (h.unsubscribe key tab) j := by
  rcases unsubscribe_cases h key tab with ⟨hsame, -⟩ | ⟨i, w, -, hw, ⟨honly, hh⟩ | ⟨-, hh⟩⟩
  · rw [hsame]
    exact hwatched
  · rw [hh]
    exact hwatched.watcher hw (getElem?_set_of_eq hw _) fun _ hjw => absurd (honly j hjw) hj
  · rw [hh]
    refine hwatched.watcher hw (getElem?_set_of_eq hw _) fun hrunning hjw => ⟨hrunning, ?_⟩
    exact List.mem_filter.mpr ⟨hjw, by simpa using hj⟩

/-- The `finally` of a tab. -/
theorem Consistent.finish (hinv : Consistent digest h) (hs : h.streams[j]? = some s) :
    Consistent digest (h.finish digest j s) := by
  have hleft := hinv.unsubscribe (s.key digest) j
  constructor
  · exact hleft.registered
  · exact hleft.running
  · intro k v hv hrunning l hl
    obtain ⟨t, ht, hkey, hcurrent⟩ := hleft.served k v hv hrunning l hl
    have hjl : j ≠ l := by
      intro hjl
      subst hjl
      exact not_watched_unsubscribe hinv hs ⟨k, v, hv, hrunning, hl⟩
    refine ⟨t, ?_, hkey, hcurrent⟩
    rw [Hub.finish, getElem?_setPhase (by rw [unsubscribe_streams, hs]), if_neg hjl, ht]

theorem Attended.finish (hattended : Attended h) (hs : h.streams[j]? = some s) :
    Attended (h.finish digest j s) := by
  intro k t ht hstreaming
  rw [Hub.finish, getElem?_setPhase (by rw [unsubscribe_streams, hs])] at ht
  by_cases hjk : j = k
  · rw [if_pos hjk] at ht
    cases ht
    obtain ⟨owed, last, hphase⟩ := hstreaming
    cases hphase
  · rw [if_neg hjk, unsubscribe_streams] at ht
    exact (hattended k t ht hstreaming).imp_left fun hwatched =>
      hwatched.unsubscribe (Ne.symm hjk) _

theorem Fresh.finish (hfresh : Fresh h) (hs : h.streams[j]? = some s) :
    Fresh (h.finish digest j s) := by
  have hstreams : ∀ k, (h.finish digest j s).streams[k]? =
      if j = k then some { s with phase := .ended } else h.streams[k]? := by
    intro k
    rw [Hub.finish, getElem?_setPhase (by rw [unsubscribe_streams, hs]), unsubscribe_streams]
  exact hfresh.tab hstreams (by simp)

/-! ## A tab joins -/

theorem liveWatcher_eq_some {key : Key} (hinv : Consistent digest h)
    (hlive : h.liveWatcher key = some (i, w)) :
    h.watchers[i]? = some w ∧ w.key digest = key ∧ w.task = some .running := by
  unfold Hub.liveWatcher at hlive
  cases hi : Dict.get h.registry key with
  | none => simp [hi] at hlive
  | some k =>
      obtain ⟨v, hv, hkey, hcancelling⟩ := hinv.registered key k hi
      simp only [hi, hv, Option.map_eq_some_iff, Option.filter_eq_some_iff] at hlive
      obtain ⟨u, ⟨hu, halive⟩, heq⟩ := hlive
      cases heq
      cases hu
      refine ⟨hv, hkey, ?_⟩
      rcases htask : w.task with - | - | - | -
      · simp [Watcher.alive, htask] at halive
      · rfl
      · exact absurd htask hcancelling
      · simp [Watcher.alive, htask, Task.isDone] at halive

theorem not_running_of_liveWatcher_eq_none {key : Key} (hinv : Consistent digest h)
    (hlive : h.liveWatcher key = none) (hw : h.watchers[i]? = some w)
    (hrunning : w.task = some .running) : w.key digest ≠ key := by
  intro hkey
  have hi := hinv.running i w hw hrunning
  rw [hkey] at hi
  simp [Hub.liveWatcher, hi, hw, alive_of_running hrunning] at hlive

/-- The tab when `subscribe` returns. -/
def Stream.opened (s : Stream) (latestUid : Int) : Stream :=
  { s with phase := .streaming (opening s.resumeFrom latestUid) false }

theorem current_opened (hqueue : s.queue = none) (latestUid : Int) :
    Current latestUid (s.opened latestUid) := by
  refine ⟨⟨_, rfl⟩, ⟨latestUid, ?_, le_refl latestUid⟩, ?_⟩
  · have hopening := lastEventId_opening s.resumeFrom latestUid
    unfold lastEventId at hopening
    simp [Stream.heard, Stream.opened, hqueue, lastEventId, Stream.frames, Stream.owed,
      List.getLast?_append, hopening]
  · intro event hevent
    rw [show (s.opened latestUid).queue = s.queue from rfl, hqueue] at hevent
    cases hevent

theorem getElem?_join (hs : h.streams[j]? = some s) (i : Nat) (w : Watcher) (k : Nat) :
    (h.join i w j).streams[k]? = if j = k then some (s.opened w.latestUid) else h.streams[k]? :=
  getElem?_modify_of_eq hs _ k

theorem Consistent.join (hinv : Consistent digest h) (hfresh : Fresh h)
    (hw : h.watchers[i]? = some w) (hrunning : w.task = some .running)
    (hs : h.streams[j]? = some s) (hprobing : s.phase = .probing)
    (hkey : s.key digest = w.key digest) : Consistent digest (h.join i w j) := by
  have hother : ∀ (k : Nat) (t : Stream), h.streams[k]? = some t → t.Streaming →
      (h.join i w j).streams[k]? = some t := by
    intro k t ht ⟨owed, last, hphase⟩
    rw [getElem?_join hs, if_neg, ht]
    intro hjk
    subst hjk
    cases Option.some.inj (hs.symm.trans ht)
    rw [hprobing] at hphase
    cases hphase
  refine hinv.watcher hw rfl
    (getElem?_set_of_eq hw { w with subscribers := w.subscribers.insert j }) rfl
    (by simp [hrunning])
    (fun h => h) (fun k t ht hstreaming _ => hother k t ht hstreaming) ?_
  intro _ k hk
  by_cases hjk : j = k
  · subst hjk
    refine ⟨s.opened w.latestUid, ?_, hkey, current_opened (hfresh j s hs hprobing) _⟩
    rw [getElem?_join hs, if_pos rfl]
  · have hold : k ∈ w.subscribers := (List.mem_insert_iff.mp hk).resolve_left (Ne.symm hjk)
    obtain ⟨t, ht, htkey, hcurrent⟩ := hinv.served i w hw hrunning k hold
    exact ⟨t, hother k t ht (hcurrent.streaming.imp fun _ h => ⟨false, h⟩), htkey, hcurrent⟩

theorem Followed.join (hw : h.watchers[i]? = some w) (tab : Nat)
    (hfollowed : ∀ (k : Nat) (v : Watcher), i ≠ k → h.watchers[k]? = some v →
      v.task = some .running → v.subscribers ≠ []) : Followed (h.join i w tab) := by
  intro k v hv hrunning
  rw [Hub.join, getElem?_set_of_eq hw] at hv
  by_cases hik : i = k
  · rw [if_pos hik] at hv
    cases hv
    exact List.ne_nil_of_mem (List.mem_insert_self)
  · rw [if_neg hik] at hv
    exact hfollowed k v hik hv hrunning

theorem Attended.join (hattended : Attended h) (hw : h.watchers[i]? = some w)
    (hrunning : w.task = some .running) (hs : h.streams[j]? = some s) :
    Attended (h.join i w j) := by
  have hwatchers := getElem?_set_of_eq hw { w with subscribers := w.subscribers.insert j }
  intro k t ht hstreaming
  rw [getElem?_join hs] at ht
  by_cases hjk : j = k
  · subst hjk
    exact Or.inl ⟨i, { w with subscribers := w.subscribers.insert j },
      by rw [Hub.join, hwatchers, if_pos rfl], hrunning, List.mem_insert_self⟩
  · rw [if_neg hjk] at ht
    exact (hattended k t ht hstreaming).imp_left fun hwatched =>
      hwatched.watcher hw hwatchers fun hrunning hk => ⟨hrunning, List.mem_insert_of_mem hk⟩

theorem Fresh.join (hfresh : Fresh h) (hs : h.streams[j]? = some s) (i : Nat) (w : Watcher) :
    Fresh (h.join i w j) :=
  hfresh.tab (getElem?_join hs i w) (by simp [Stream.opened])

/-! ## A watcher is created -/

theorem getElem?_create (h : Hub) (key : Key) (w : Watcher) (k : Nat) :
    (h.create key w).watchers[k]? = if h.watchers.length = k then some w else h.watchers[k]? := by
  rw [Hub.create, List.getElem?_append]
  by_cases hk : k < h.watchers.length
  · rw [if_pos hk, if_neg (by omega)]
  · rw [if_neg hk, List.getElem?_singleton]
    by_cases heq : h.watchers.length = k
    · rw [if_pos heq, if_pos (by omega)]
    · rw [if_neg heq, if_neg (by omega), List.getElem?_eq_none (by omega)]

theorem length_ne_of_getElem? {v : Watcher} {k : Nat} (hv : h.watchers[k]? = some v) :
    h.watchers.length ≠ k := by
  intro heq
  rw [List.getElem?_eq_none (by omega)] at hv
  cases hv

theorem Consistent.create (hinv : Consistent digest h) {key : Key}
    (hlive : h.liveWatcher key = none) (hkey : w.key digest = key)
    (hrunning : w.task = some .running)
    (hsubscribers : w.subscribers = []) : Consistent digest (h.create key w) := by
  have hget : ∀ key', Dict.get (h.create key w).registry key' =
      if key' = key then some h.watchers.length else Dict.get h.registry key' := by
    intro key'
    rw [Hub.create, Dict.get_set]
  constructor
  · intro key' k hk
    rw [hget] at hk
    by_cases heq : key' = key
    · rw [if_pos heq] at hk
      cases hk
      exact ⟨w, by rw [getElem?_create, if_pos rfl], hkey.trans heq.symm, by simp [hrunning]⟩
    · rw [if_neg heq] at hk
      obtain ⟨v, hv, hvkey, htask⟩ := hinv.registered key' k hk
      exact ⟨v, by rw [getElem?_create, if_neg (length_ne_of_getElem? hv), hv], hvkey, htask⟩
  · intro k v hv hvrunning
    rw [getElem?_create] at hv
    rw [hget]
    by_cases heq : h.watchers.length = k
    · rw [if_pos heq] at hv
      cases hv
      rw [if_pos hkey, heq]
    · rw [if_neg heq] at hv
      rw [if_neg (not_running_of_liveWatcher_eq_none hinv hlive hv hvrunning)]
      exact hinv.running k v hv hvrunning
  · intro k v hv hvrunning j hj
    rw [getElem?_create] at hv
    by_cases heq : h.watchers.length = k
    · rw [if_pos heq] at hv
      cases hv
      rw [hsubscribers] at hj
      cases hj
    · rw [if_neg heq] at hv
      exact hinv.served k v hv hvrunning j hj

theorem Attended.create (hattended : Attended h) (key : Key) (w : Watcher) :
    Attended (h.create key w) := by
  intro j s hs hstreaming
  refine (hattended j s hs hstreaming).imp_left ?_
  rintro ⟨k, v, hv, hrunning, hj⟩
  exact ⟨k, v, by rw [getElem?_create, if_neg (length_ne_of_getElem? hv), hv], hrunning, hj⟩

/-! ## Every action -/

/-- What an action of a tab does before the tab leaves or waits again. -/
structure TabStep (digest : String → String) (h h' : Hub) (j : Nat) (s s' : Stream) : Prop where
  streams : ∀ k, h'.streams[k]? = if j = k then some s' else h.streams[k]?
  watchers : h'.watchers = h.watchers
  registry : h'.registry = h.registry
  key : s'.key digest = s.key digest
  resumeFrom : s'.resumeFrom = s.resumeFrom
  phase : s'.phase ≠ .probing
  streaming : s'.Streaming → s.Streaming
  current : ∀ latestUid, Current latestUid s → Current latestUid s'
  expiring : s.Expiring → s'.Streaming → s'.Expiring
  queue : ∀ event, s'.queue = some event → s.queue = some event
  frames : ∀ frame ∈ s'.frames, frame ∈ s.frames ∨ frame = .keepalive ∨
    ∃ event, s.queue = some event ∧ frame = event.frame

def TabSteps (digest : String → String) (h h' : Hub) (j : Nat) : Prop :=
  h' = h ∨ ∃ s s' h₁, h.streams[j]? = some s ∧ TabStep digest h h₁ j s s' ∧
    (h' = h₁ ∨ h' = h₁.finish digest j s')

theorem TabStep.refl (hs : h.streams[j]? = some s) (hphase : s.phase ≠ .probing) :
    TabStep digest h h j s s where
  streams k := by
    by_cases hjk : j = k
    · rw [if_pos hjk, ← hjk, hs]
    · rw [if_neg hjk]
  watchers := rfl
  registry := rfl
  key := rfl
  resumeFrom := rfl
  phase := hphase
  streaming h := h
  current _ h := h
  expiring h _ := h
  queue _ h := h
  frames _ h := Or.inl h

theorem tabSteps_write (digest : String → String) (h : Hub) (j : Nat) :
    TabSteps digest h (h.next digest (.write j)) j := by
  unfold Hub.next
  dsimp only
  cases hs : h.streams[j]? with
  | none => exact Or.inl rfl
  | some s =>
      dsimp only
      rcases hphase : s.phase with - | ⟨_ | ⟨frame, owed⟩, last⟩ | -
      · exact Or.inl rfl
      · exact Or.inl rfl
      · dsimp only
        cases hbytes : frame.bytes with
        | none =>
            exact Or.inr ⟨s, s, h, hs, TabStep.refl hs (by rw [hphase]; simp), Or.inr rfl⟩
        | some bytes =>
            have hframes :
                ({ s with written := s.written ++ [frame], phase := .streaming owed last } :
                Stream).frames = s.frames := by
              simp [Stream.frames, Stream.owed, hphase]
            refine Or.inr ⟨s,
              { s with written := s.written ++ [frame], phase := .streaming owed last },
              { h with streams := h.streams.set j _ }, hs,
                ⟨getElem?_set_of_eq hs _, rfl, rfl, rfl, rfl,
                by simp, fun _ => ⟨_, _, hphase⟩, ?_, ?_, fun _ h => h, ?_⟩, ?_⟩
            · rintro latestUid ⟨⟨all, hall⟩, ⟨uid, hheard, hle⟩, hnew⟩
              rw [hphase] at hall
              cases hall
              refine ⟨⟨owed, rfl⟩, ⟨uid, ?_, hle⟩, hnew⟩
              rw [← hheard]
              unfold Stream.heard
              rw [hframes]
            · rintro (hqueue | ⟨all, hall⟩) -
              · exact Or.inl hqueue
              · rw [hphase] at hall
                cases hall
                exact Or.inr ⟨owed, rfl⟩
            · intro f hf
              rw [hframes] at hf
              exact Or.inl hf
            · dsimp only
              split
              · exact Or.inr rfl
              · exact Or.inl rfl
      · exact Or.inl rfl

theorem tabSteps_receive (digest : String → String) (h : Hub) (j : Nat) :
    TabSteps digest h (h.next digest (.receive j)) j := by
  unfold Hub.next
  dsimp only
  cases hs : h.streams[j]? with
  | none => exact Or.inl rfl
  | some s =>
      dsimp only
      rcases hphase : s.phase with - | ⟨_ | ⟨frame, owed⟩, _ | -⟩ | -
      · exact Or.inl rfl
      · cases hqueue : s.queue with
        | none => exact Or.inl rfl
        | some event =>
            dsimp only
            let phase : Phase := .streaming [event.frame] (event.name = .sessionExpired)
            refine Or.inr ⟨s, { s with queue := none, phase },
              { h with streams := h.streams.set j _ }, hs,
              ⟨getElem?_set_of_eq hs _, rfl, rfl, rfl, rfl, by simp, fun _ => ⟨_, _, hphase⟩, ?_,
                ?_, by simp, ?_⟩, Or.inl rfl⟩
            · rintro latestUid ⟨-, ⟨uid, hheard, hle⟩, hnew⟩
              have hname := hnew event hqueue
              simp only [Stream.heard, hqueue, Option.some.injEq] at hheard
              refine ⟨⟨[event.frame], by simp [phase, hname]⟩, ⟨uid, ?_, hle⟩, by simp⟩
              rw [← hheard]
              exact lastEventId_append_some (by rw [MailEvent.frame, hname]; rfl)
            · rintro (⟨uid, hexpired⟩ | ⟨all, hall⟩) -
              · rw [hqueue] at hexpired
                cases hexpired
                exact Or.inr ⟨_, rfl⟩
              · rw [hphase] at hall
                cases hall
            · intro f hf
              rcases List.mem_append.mp hf with hf | hf
              · exact Or.inl (List.mem_append_left _ hf)
              · exact Or.inr (Or.inr ⟨event, hqueue, List.mem_singleton.mp hf⟩)
      · exact Or.inl rfl
      · exact Or.inl rfl
      · exact Or.inl rfl
      · exact Or.inl rfl

theorem tabSteps_keepalive (digest : String → String) (h : Hub) (j : Nat) :
    TabSteps digest h (h.next digest (.keepalive j)) j := by
  unfold Hub.next
  dsimp only
  cases hs : h.streams[j]? with
  | none => exact Or.inl rfl
  | some s =>
      dsimp only
      rcases hphase : s.phase with - | ⟨_ | ⟨frame, owed⟩, _ | -⟩ | -
      · exact Or.inl rfl
      · dsimp only
        have howed : s.owed = [] := by rw [Stream.owed, hphase]
        refine Or.inr ⟨s, { s with written := s.written ++ [.keepalive] },
          { h with streams := h.streams.set j _ }, hs, ⟨getElem?_set_of_eq hs _, rfl, rfl, rfl, rfl,
            by rw [hphase]; simp, fun h => h, ?_, fun h _ => h, fun _ h => h, ?_⟩,
          Or.inl (by rw [hphase])⟩
        · rintro latestUid ⟨hstreaming, ⟨uid, hheard, hle⟩, hnew⟩
          refine ⟨hstreaming, ⟨uid, ?_, hle⟩, hnew⟩
          rw [← hheard]
          have hframes : ({ s with written := s.written ++ [.keepalive] } : Stream).frames =
              s.written ++ [.keepalive] := by
            simp [Stream.frames, Stream.owed, hphase]
          unfold Stream.heard
          rw [hframes, lastEventId_append_none rfl, Stream.frames, howed, List.append_nil]
        · intro f hf
          simp only [Stream.frames, Stream.owed, hphase, List.append_nil] at hf ⊢
          rcases List.mem_append.mp hf with hf | hf
          · exact Or.inl hf
          · exact Or.inr (Or.inl (List.mem_singleton.mp hf))
      · exact Or.inl rfl
      · exact Or.inl rfl
      · exact Or.inl rfl
      · exact Or.inl rfl

theorem tabStep_ended (hs : h.streams[j]? = some s) (hprobing : s.phase = .probing) :
    TabStep digest h (h.setPhase j .ended) j s { s with phase := .ended } := by
  refine ⟨getElem?_setPhase hs .ended, rfl, rfl, rfl, rfl, by simp, ?_, ?_, ?_, fun _ h => h, ?_⟩
  · rintro ⟨owed, last, hended⟩
    cases hended
  · rintro latestUid ⟨⟨owed, hstreaming⟩, -, -⟩
    rw [hprobing] at hstreaming
    cases hstreaming
  · rintro - ⟨owed, last, hended⟩
    cases hended
  · intro f hf
    simp only [Stream.frames, Stream.owed, List.append_nil] at hf
    exact Or.inl (List.mem_append_left _ hf)

theorem tabSteps_disconnect (digest : String → String) (h : Hub) (j : Nat) :
    TabSteps digest h (h.next digest (.disconnect j)) j := by
  unfold Hub.next
  dsimp only
  cases hs : h.streams[j]? with
  | none => exact Or.inl rfl
  | some s =>
      dsimp only
      rcases hphase : s.phase with - | ⟨owed, last⟩ | -
      · exact Or.inr ⟨s, _, _, hs, tabStep_ended hs hphase, Or.inl rfl⟩
      · exact Or.inr ⟨s, s, h, hs, TabStep.refl hs (by rw [hphase]; simp), Or.inr rfl⟩
      · exact Or.inl rfl

theorem request_cases (digest : String → String) (h : Hub) (token account : String)
    (resumeFrom : Option Int) :
    ∃ s : Stream, ∃ h₁ : Hub, s = ⟨token, account, resumeFrom, none, .probing, []⟩ ∧
      h₁ = { h with streams := h.streams ++ [s] } ∧
        (h.request digest token account resumeFrom = h₁ ∨
          ∃ i w, h₁.liveWatcher (s.key digest) = some (i, w) ∧
            h.request digest token account resumeFrom = h₁.join i w h.streams.length) := by
  refine ⟨_, _, rfl, rfl, ?_⟩
  unfold Hub.request
  dsimp only
  split
  · next i w hlive => exact Or.inr ⟨i, w, hlive, rfl⟩
  · exact Or.inl rfl

/-- The watcher that `subscribe` creates. -/
def Stream.watcher (s : Stream) (uid : Int) : Watcher :=
  ⟨s.token, s.account, inbox, uid, [], some .running⟩

theorem probed_cases (digest : String → String) (h : Hub) (j : Nat) (probe : Probe) :
    h.probed digest j probe = h ∨ ∃ s, h.streams[j]? = some s ∧ s.phase = .probing ∧
      (h.probed digest j probe = h.setPhase j .ended ∨
        ∃ uid, probe = .value (some uid) ∧ validUid (some uid) = true ∧
          ((∃ i w, h.liveWatcher (s.key digest) = some (i, w) ∧
              h.probed digest j probe = h.join i w j) ∨
            (h.liveWatcher (s.key digest) = none ∧ h.probed digest j probe =
              (h.create (s.key digest) (s.watcher uid)).join h.watchers.length
                (s.watcher uid) j))) := by
  unfold Hub.probed
  cases hs : h.streams[j]? with
  | none => exact Or.inl rfl
  | some s =>
      dsimp only
      rcases hphase : s.phase with - | ⟨owed, last⟩ | -
      · right
        refine ⟨s, rfl, hphase, ?_⟩
        rcases probe with ⟨- | uid⟩ | code | -
        · exact Or.inl rfl
        · dsimp only
          split
          · next hvalid =>
              right
              refine ⟨uid, rfl, hvalid, ?_⟩
              split
              · next i w hlive => exact Or.inl ⟨i, w, hlive, rfl⟩
              · next hlive => exact Or.inr ⟨hlive, rfl⟩
          · exact Or.inl rfl
        · exact Or.inl rfl
        · exact Or.inl rfl
      · exact Or.inl rfl
      · exact Or.inl rfl

/-- A new tab, which is not yet subscribed. -/
theorem getElem?_streams_append (s : Stream) (k : Nat) :
    (h.streams ++ [s])[k]? = if h.streams.length = k then some s else h.streams[k]? := by
  rw [List.getElem?_append]
  by_cases hk : k < h.streams.length
  · rw [if_pos hk, if_neg (by omega)]
  · rw [if_neg hk, List.getElem?_singleton]
    by_cases heq : h.streams.length = k
    · rw [if_pos heq, if_pos (by omega)]
    · rw [if_neg heq, if_neg (by omega), List.getElem?_eq_none (by omega)]

/-- What holds of the hub at every time. -/
structure Sound (digest : String → String) (h : Hub) : Prop where
  consistent : Consistent digest h
  followed : Followed h
  fresh : Fresh h

theorem Sound.tabSteps (hsound : Sound digest h) (hsteps : TabSteps digest h h' j) :
    Sound digest h' := by
  rcases hsteps with rfl | ⟨s, s', h₁, hs, hstep, hh⟩
  · exact hsound
  · have hinv := hsound.consistent.tab hs hstep.streams hstep.watchers hstep.registry hstep.key
      hstep.current
    have hfresh := hsound.fresh.tab hstep.streams hstep.phase
    have hfollowed : Followed h₁ := by
      unfold Followed
      rw [hstep.watchers]
      exact hsound.followed
    have hs' : h₁.streams[j]? = some s' := by rw [hstep.streams, if_pos rfl]
    rcases hh with rfl | rfl
    · exact ⟨hinv, hfollowed, hfresh⟩
    · exact ⟨hinv.finish hs', hfollowed.unsubscribe _ _, hfresh.finish hs'⟩

theorem Attended.tabSteps (hattended : Attended h) (hsteps : TabSteps digest h h' j) :
    Attended h' := by
  rcases hsteps with rfl | ⟨s, s', h₁, hs, hstep, hh⟩
  · exact hattended
  · have hattended₁ := hattended.tab hs hstep.streams hstep.watchers hstep.streaming hstep.expiring
    rcases hh with rfl | rfl
    · exact hattended₁
    · exact hattended₁.finish (by rw [hstep.streams, if_pos rfl])

theorem Sound.append (hsound : Sound digest h) (hqueue : s.queue = none) :
    Sound digest { h with streams := h.streams ++ [s] } := by
  refine ⟨?_, hsound.followed, ?_⟩
  · refine hsound.consistent.tabs rfl rfl ?_
    intro k t ht
    refine ⟨t, ?_, rfl, fun _ h => h⟩
    rw [getElem?_streams_append, if_neg, ht]
    intro heq
    rw [List.getElem?_eq_none (by omega)] at ht
    cases ht
  · intro k t ht hprobing
    rw [getElem?_streams_append] at ht
    by_cases heq : h.streams.length = k
    · rw [if_pos heq] at ht
      cases ht
      exact hqueue
    · rw [if_neg heq] at ht
      exact hsound.fresh k t ht hprobing

theorem Attended.append (hattended : Attended h) (hphase : s.phase = .probing) :
    Attended { h with streams := h.streams ++ [s] } := by
  refine hattended.tabs rfl ?_
  intro k t ht hstreaming
  rw [getElem?_streams_append] at ht
  by_cases heq : h.streams.length = k
  · rw [if_pos heq] at ht
    cases ht
    obtain ⟨owed, last, hlive⟩ := hstreaming
    rw [hphase] at hlive
    cases hlive
  · rw [if_neg heq] at ht
    exact ⟨t, ht, hstreaming, fun h => h⟩

theorem Sound.join (hsound : Sound digest h) (hs : h.streams[j]? = some s)
    (hprobing : s.phase = .probing) (hlive : h.liveWatcher (s.key digest) = some (i, w)) :
    Sound digest (h.join i w j) := by
  obtain ⟨hw, hkey, hrunning⟩ := liveWatcher_eq_some hsound.consistent hlive
  exact ⟨hsound.consistent.join hsound.fresh hw hrunning hs hprobing hkey.symm,
    Followed.join hw j fun k v _ hv => hsound.followed k v hv, hsound.fresh.join hs i w⟩

theorem Sound.create_join (hsound : Sound digest h) (hs : h.streams[j]? = some s)
    (hprobing : s.phase = .probing) (hlive : h.liveWatcher (s.key digest) = none) (uid : Int) :
    Sound digest
      ((h.create (s.key digest) (s.watcher uid)).join h.watchers.length (s.watcher uid) j) := by
  have hw : (h.create (s.key digest) (s.watcher uid)).watchers[h.watchers.length]? =
      some (s.watcher uid) := by
    rw [getElem?_create, if_pos rfl]
  have hinv := hsound.consistent.create (w := s.watcher uid) hlive rfl rfl rfl
  have hfresh : Fresh (h.create (s.key digest) (s.watcher uid)) := hsound.fresh
  refine ⟨hinv.join hfresh hw rfl hs hprobing rfl, Followed.join hw j ?_, hfresh.join hs _ _⟩
  intro k v hne hv
  rw [getElem?_create, if_neg hne] at hv
  exact hsound.followed k v hv

theorem getElem?_close (h : Hub) (k : Nat) :
    h.close.watchers[k]? =
      h.watchers[k]?.map fun w => if k ∈ h.registry.map (·.2) then w.cancel else w :=
  getElem?_foldl_modify cancel_cancel _ _ k

/-- The end of the application leaves no watcher running. -/
theorem not_running_close (hinv : Consistent digest h) (hw : h.close.watchers[i]? = some w) :
    w.task ≠ some .running := by
  intro hrunning
  rw [getElem?_close] at hw
  obtain ⟨v, hv, rfl⟩ := Option.map_eq_some_iff.mp hw
  split at hrunning
  · exact cancel_not_running v hrunning
  · next hi =>
      have hregistered := Dict.mem_of_get (hinv.running i v hv hrunning)
      exact hi (List.mem_map.mpr ⟨_, hregistered, rfl⟩)

theorem Sound.close (hsound : Sound digest h) : Sound digest h.close := by
  refine ⟨⟨?_, ?_, ?_⟩, ?_, hsound.fresh⟩
  · intro key k hk
    cases hk
  · intro k v hv hrunning
    exact absurd hrunning (not_running_close hsound.consistent hv)
  · intro k v hv hrunning
    exact absurd hrunning (not_running_close hsound.consistent hv)
  · intro k v hv hrunning
    exact absurd hrunning (not_running_close hsound.consistent hv)

theorem Sound.request (hsound : Sound digest h) (token account : String) (resumeFrom : Option Int) :
    Sound digest (h.request digest token account resumeFrom) := by
  obtain ⟨s, h₁, rfl, rfl, hh⟩ := request_cases digest h token account resumeFrom
  have happend := hsound.append (s := ⟨token, account, resumeFrom, none, .probing, []⟩) rfl
  rcases hh with hh | ⟨i, w, hlive, hh⟩
  · rw [hh]
    exact happend
  · rw [hh]
    exact happend.join List.getElem?_concat_length rfl hlive

theorem Attended.request (hattended : Attended h) (hsound : Sound digest h) (token account : String)
    (resumeFrom : Option Int) : Attended (h.request digest token account resumeFrom) := by
  obtain ⟨s, h₁, rfl, rfl, hh⟩ := request_cases digest h token account resumeFrom
  have happend := hattended.append (s := ⟨token, account, resumeFrom, none, .probing, []⟩) rfl
  rcases hh with hh | ⟨i, w, hlive, hh⟩
  · rw [hh]
    exact happend
  · have hlive' := liveWatcher_eq_some (hsound.append rfl).consistent hlive
    rw [hh]
    exact happend.join hlive'.1 hlive'.2.2 List.getElem?_concat_length

theorem Sound.probed (hsound : Sound digest h) (j : Nat) (probe : Probe) :
    Sound digest (h.probed digest j probe) := by
  rcases probed_cases digest h j probe with hh | ⟨s, hs, hprobing, hh | ⟨uid, -, -,
    ⟨i, w, hlive, hh⟩ | ⟨hlive, hh⟩⟩⟩
  · rw [hh]
    exact hsound
  · rw [hh]
    exact hsound.tabSteps (Or.inr ⟨s, _, _, hs, tabStep_ended hs hprobing, Or.inl rfl⟩)
  · rw [hh]
    exact hsound.join hs hprobing hlive
  · rw [hh]
    exact hsound.create_join hs hprobing hlive uid

theorem Attended.probed (hattended : Attended h) (hsound : Sound digest h) (j : Nat)
    (probe : Probe) : Attended (h.probed digest j probe) := by
  rcases probed_cases digest h j probe with hh | ⟨s, hs, hprobing, hh | ⟨uid, -, -,
    ⟨i, w, hlive, hh⟩ | ⟨hlive, hh⟩⟩⟩
  · rw [hh]
    exact hattended
  · have hstep : TabStep digest h _ j s _ := tabStep_ended hs hprobing
    rw [hh]
    exact hattended.tabSteps (Or.inr ⟨s, _, _, hs, hstep, Or.inl rfl⟩)
  · obtain ⟨hw, -, hrunning⟩ := liveWatcher_eq_some hsound.consistent hlive
    rw [hh]
    exact hattended.join hw hrunning hs
  · rw [hh]
    refine (hattended.create _ _).join ?_ rfl hs
    rw [getElem?_create, if_pos rfl]

theorem Sound.next (hsound : Sound digest h) (action : Action) :
    Sound digest (h.next digest action) := by
  cases action with
  | request token account resumeFrom => exact hsound.request token account resumeFrom
  | probed j probe => exact hsound.probed j probe
  | watch i probe =>
      exact ⟨hsound.consistent.watch i probe, hsound.followed.watch i probe,
        hsound.fresh.watch hsound.consistent i probe⟩
  | write j => exact hsound.tabSteps (tabSteps_write digest h j)
  | receive j => exact hsound.tabSteps (tabSteps_receive digest h j)
  | keepalive j => exact hsound.tabSteps (tabSteps_keepalive digest h j)
  | disconnect j => exact hsound.tabSteps (tabSteps_disconnect digest h j)
  | close => exact hsound.close

theorem Attended.next (hattended : Attended h) (hsound : Sound digest h) {action : Action}
    (haction : action ≠ .close) : Attended (h.next digest action) := by
  cases action with
  | request token account resumeFrom => exact hattended.request hsound token account resumeFrom
  | probed j probe => exact hattended.probed hsound j probe
  | watch i probe => exact hattended.watch i probe
  | write j => exact hattended.tabSteps (tabSteps_write digest h j)
  | receive j => exact hattended.tabSteps (tabSteps_receive digest h j)
  | keepalive j => exact hattended.tabSteps (tabSteps_keepalive digest h j)
  | disconnect j => exact hattended.tabSteps (tabSteps_disconnect digest h j)
  | close => exact absurd rfl haction

end MaddyWeb.Web.MailEvents
