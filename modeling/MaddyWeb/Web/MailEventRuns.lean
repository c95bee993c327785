import MaddyWeb.Web.MailEventSteps
import Mathlib.Data.List.Induction

/-!
# Every tab hears of its mail

Runs of the hub, in any order of requests, answers, writes and lost connections.  Nothing that
is written to a tab has another source than the probes for its own key.
-/

namespace MaddyWeb.Web.MailEvents

open MaddyWeb.Library

variable {digest : String → String} {h h' : Hub} {i j : Nat} {w : Watcher} {s s' : Stream}
  {P : Key → Int → Prop}

/-! ## Where the identifiers come from -/

/-- The action is an answer for the key: a probe under a token with this digest, for this account
and mailbox. -/
def Answers (digest : String → String) (h : Hub) (key : Key) (uid : Int) : Action → Prop
  | .probed tab probe =>
      probe = .value (some uid) ∧ ∃ s, h.streams[tab]? = some s ∧ s.key digest = key
  | .watch i probe => probe = .value (some uid) ∧ ∃ w, h.watchers[i]? = some w ∧ w.key digest = key
  | _ => False

/-- One of the actions is such an answer, and valid. -/
def Answered (digest : String → String) (actions : List Action) (key : Key) (uid : Int) : Prop :=
  validUid (some uid) = true ∧ ∃ before action after, actions = before ++ action :: after ∧
    Answers digest (Hub.after digest before) key uid action

/-- What stands in the queue of a tab, has been written to it or is owed to it. -/
structure Told (P : Key → Int → Prop) (digest : String → String) (s : Stream) : Prop where
  queue : ∀ event, s.queue = some event → P (s.key digest) event.uid
  frames : ∀ frame ∈ s.frames, frame ∈ [.retry, .keepalive, sessionExpired, ready none] ∨
    ∃ uid, P (s.key digest) uid ∧ (frame = ready (some uid) ∨ frame = newMail uid)
  resumed : ∀ r, s.resumeFrom = some r → ∀ uid, ready (some uid) ∈ s.frames → uid ≤ r

structure Sourced (P : Key → Int → Prop) (digest : String → String) (h : Hub) : Prop where
  watchers : ∀ (i : Nat) (w : Watcher), h.watchers[i]? = some w → P (w.key digest) w.latestUid
  streams : ∀ (j : Nat) (s : Stream), h.streams[j]? = some s → Told P digest s

theorem Told.mono {Q : Key → Int → Prop} (htold : Told P digest s)
    (hPQ : ∀ key uid, P key uid → Q key uid) : Told Q digest s where
  queue event hevent := hPQ _ _ (htold.queue event hevent)
  frames frame hframe := (htold.frames frame hframe).imp_right fun ⟨uid, huid, heq⟩ =>
    ⟨uid, hPQ _ _ huid, heq⟩
  resumed := htold.resumed

theorem Sourced.mono {Q : Key → Int → Prop} (hsourced : Sourced P digest h)
    (hPQ : ∀ key uid, P key uid → Q key uid) : Sourced Q digest h where
  watchers i w hw := hPQ _ _ (hsourced.watchers i w hw)
  streams j s hs := (hsourced.streams j s hs).mono hPQ

theorem newMail_ne_ready (uid : Int) (eventId : Option Int) : newMail uid ≠ ready eventId := by
  intro heq
  injection heq with hname
  exact absurd hname (by decide)

theorem frame_ne_ready (event : MailEvent) (eventId : Option Int) :
    event.frame ≠ ready eventId := by
  unfold MailEvent.frame
  cases event.name with
  | newMail => exact newMail_ne_ready _ _
  | sessionExpired =>
      intro heq
      injection heq with hname
      exact absurd hname (by decide)

/-- The tab after a step says nothing new but what stood in its queue. -/
theorem Told.step (htold : Told P digest s) (hstep : TabStep digest h h' j s s') :
    Told P digest s' where
  queue event hevent := by
    rw [hstep.key]
    exact htold.queue event (hstep.queue event hevent)
  frames frame hframe := by
    rw [hstep.key]
    rcases hstep.frames frame hframe with hold | rfl | ⟨event, hevent, rfl⟩
    · exact htold.frames frame hold
    · exact Or.inl (by simp)
    · unfold MailEvent.frame
      cases event.name with
      | newMail => exact Or.inr ⟨event.uid, htold.queue event hevent, Or.inr rfl⟩
      | sessionExpired => exact Or.inl (by simp)
  resumed r hr uid huid := by
    rw [hstep.resumeFrom] at hr
    rcases hstep.frames _ huid with hold | hkeepalive | ⟨event, -, hframe⟩
    · exact htold.resumed r hr uid hold
    · cases hkeepalive
    · exact absurd hframe.symm (frame_ne_ready event _)

theorem Sourced.step (hsourced : Sourced P digest h) (hs : h.streams[j]? = some s)
    (hstep : TabStep digest h h' j s s') : Sourced P digest h' := by
  refine ⟨?_, ?_⟩
  · rw [hstep.watchers]
    exact hsourced.watchers
  · intro k t ht
    rw [hstep.streams] at ht
    by_cases hjk : j = k
    · rw [if_pos hjk] at ht
      cases ht
      exact (hsourced.streams j s hs).step hstep
    · rw [if_neg hjk] at ht
      exact hsourced.streams k t ht

theorem latestUid_cancel (w : Watcher) : w.cancel.latestUid = w.latestUid := by
  unfold Watcher.cancel
  split <;> rfl

theorem Sourced.unsubscribe (hsourced : Sourced P digest h) (key : Key) (tab : Nat) :
    Sourced P digest (h.unsubscribe key tab) := by
  refine ⟨?_, by rw [unsubscribe_streams]; exact hsourced.streams⟩
  rcases unsubscribe_cases h key tab with ⟨hsame, -⟩ | ⟨i, w, -, hw, ⟨-, hh⟩ | ⟨-, hh⟩⟩
  · rw [hsame]
    exact hsourced.watchers
  all_goals
    rw [hh]
    intro k v hv
    dsimp only at hv
    rw [getElem?_set_of_eq hw] at hv
    by_cases hik : i = k
    · rw [if_pos hik] at hv
      cases hv
      have hold := hsourced.watchers i w hw
      first
      | rw [key_cancel, latestUid_cancel]; exact hold
      | exact hold
    · rw [if_neg hik] at hv
      exact hsourced.watchers k v hv

theorem Sourced.tabSteps (hsourced : Sourced P digest h) (hsteps : TabSteps digest h h' j) :
    Sourced P digest h' := by
  rcases hsteps with rfl | ⟨s, s', h₁, hs, hstep, hh⟩
  · exact hsourced
  · have hsourced₁ := hsourced.step hs hstep
    have hs' : h₁.streams[j]? = some s' := by rw [hstep.streams, if_pos rfl]
    rcases hh with rfl | rfl
    · exact hsourced₁
    · have hleft := hsourced₁.unsubscribe (s'.key digest) j
      refine ⟨hleft.watchers, ?_⟩
      intro k t ht
      rw [Hub.finish, getElem?_setPhase (by rw [unsubscribe_streams, hs'])] at ht
      by_cases hjk : j = k
      · rw [if_pos hjk] at ht
        cases ht
        have htold := hsourced₁.streams j s' hs'
        have hsub : ∀ frame, frame ∈ ({ s' with phase := .ended } : Stream).frames →
            frame ∈ s'.frames := by
          intro frame hframe
          simp only [Stream.frames, Stream.owed, List.append_nil] at hframe
          exact List.mem_append_left _ hframe
        exact ⟨htold.queue, fun frame hframe => htold.frames frame (hsub frame hframe),
          fun r hr uid huid => htold.resumed r hr uid (hsub _ huid)⟩
      · rw [if_neg hjk] at ht
        exact hleft.streams k t ht

theorem Told.opened (htold : Told P digest s) (hprobing : s.phase = .probing) {uid : Int}
    (huid : P (s.key digest) uid) : Told P digest (s.opened uid) := by
  have hframes : (s.opened uid).frames = s.frames ++ opening s.resumeFrom uid := by
    simp [Stream.frames, Stream.opened, Stream.owed, hprobing]
  refine ⟨htold.queue, ?_, ?_⟩
  · intro frame hframe
    rw [hframes] at hframe
    rcases List.mem_append.mp hframe with hold | hnew
    · exact htold.frames frame hold
    · simp only [opening, List.mem_append, List.mem_cons, List.not_mem_nil, or_false] at hnew
      rcases hnew with (rfl | rfl) | hnew
      · exact Or.inl (by simp)
      · split
        · exact Or.inl (by simp)
        · exact Or.inr ⟨uid, huid, Or.inl rfl⟩
      · split at hnew
        · exact Or.inr ⟨uid, huid, Or.inr (List.mem_singleton.mp hnew)⟩
        · cases hnew
  · intro r hr u hu
    rw [hframes] at hu
    rcases List.mem_append.mp hu with hold | hnew
    · exact htold.resumed r hr u hold
    · rw [show s.resumeFrom = some r from hr] at hnew
      by_cases hlt : r < uid
      · simp [opening, hlt, ready, newMail] at hnew
      · simp only [opening, Option.getD_some, hlt, Option.isSome_some, Bool.true_and, decide_false,
          Bool.false_eq_true, if_false, List.append_nil, List.mem_cons, List.not_mem_nil,
          or_false] at hnew
        rcases hnew with hnew | hnew
        · cases hnew
        · injection hnew with _ _ hid
          cases hid
          omega

theorem Sourced.join (hsourced : Sourced P digest h) (hw : h.watchers[i]? = some w)
    (hs : h.streams[j]? = some s) (hprobing : s.phase = .probing)
    (hkey : w.key digest = s.key digest) : Sourced P digest (h.join i w j) := by
  have huid := hsourced.watchers i w hw
  refine ⟨?_, ?_⟩
  · intro k v hv
    rw [Hub.join, getElem?_set_of_eq hw] at hv
    by_cases hik : i = k
    · rw [if_pos hik] at hv
      cases hv
      exact huid
    · rw [if_neg hik] at hv
      exact hsourced.watchers k v hv
  · intro k t ht
    rw [getElem?_join hs] at ht
    by_cases hjk : j = k
    · rw [if_pos hjk] at ht
      cases ht
      exact (hsourced.streams j s hs).opened hprobing (hkey ▸ huid)
    · rw [if_neg hjk] at ht
      exact hsourced.streams k t ht

theorem Sourced.create (hsourced : Sourced P digest h) (key : Key)
    (hw : P (w.key digest) w.latestUid) : Sourced P digest (h.create key w) := by
  refine ⟨?_, hsourced.streams⟩
  intro k v hv
  rw [getElem?_create] at hv
  by_cases hk : h.watchers.length = k
  · rw [if_pos hk] at hv
    cases hv
    exact hw
  · rw [if_neg hk] at hv
    exact hsourced.watchers k v hv

theorem Sourced.publish (hsourced : Sourced P digest h) (hinv : Consistent digest h)
    (hw : h.watchers[i]? = some w) (hrunning : w.task = some .running) {event : MailEvent}
    (hevent : P (w.key digest) event.uid) (j : Nat) (s' : Stream)
    (hs' : (publish h.streams w.subscribers event)[j]? = some s') : Told P digest s' := by
  by_cases hj : j ∈ w.subscribers
  · obtain ⟨s, hs, hkey, -⟩ := hinv.served i w hw hrunning j hj
    rw [publish_subscriber hs hj] at hs'
    cases hs'
    have htold := hsourced.streams j s hs
    refine ⟨?_, htold.frames, htold.resumed⟩
    intro event' hevent'
    cases hevent'
    rw [show Stream.key digest { s with queue := some event } = s.key digest from rfl, hkey]
    exact hevent
  · rw [publish_others hj] at hs'
    exact hsourced.streams j s' hs'

theorem Sourced.watch (hsourced : Sourced P digest h) (hinv : Consistent digest h) (i : Nat)
    (probe : Probe) (hanswers : ∀ key uid, validUid (some uid) = true →
      Answers digest h key uid (.watch i probe) → P key uid) :
    Sourced P digest (h.watch i probe) := by
  rcases watch_cases h i probe with hsame | ⟨w, hw, hcases⟩
  · rw [hsame]
    exact hsourced
  have hold := hsourced.watchers i w hw
  have hset : ∀ v : Watcher, P (v.key digest) v.latestUid → ∀ (k : Nat) (u : Watcher),
      (h.watchers.set i v)[k]? = some u → P (u.key digest) u.latestUid := by
    intro v hv k u hu
    rw [getElem?_set_of_eq hw] at hu
    by_cases hik : i = k
    · rw [if_pos hik] at hu
      cases hu
      exact hv
    · rw [if_neg hik] at hu
      exact hsourced.watchers k u hu
  rcases hcases with ⟨hrunning, hh⟩ | ⟨hrunning, uid, hprobe, hvalid, hh⟩ | ⟨-, hh⟩
  · rw [hh]
    exact ⟨hset _ hold, hsourced.publish hinv hw hrunning hold⟩
  · have huid : P (w.key digest) uid := hanswers _ _ hvalid ⟨hprobe, w, hw, rfl⟩
    rw [hh]
    refine ⟨hset _ huid, ?_⟩
    intro j s hs
    dsimp only at hs
    split at hs
    · exact hsourced.publish hinv hw hrunning huid j s hs
    · exact hsourced.streams j s hs
  · rw [hh]
    exact ⟨hset _ hold, hsourced.streams⟩

theorem Sourced.append (hsourced : Sourced P digest h) (token account : String)
    (resumeFrom : Option Int) :
    Sourced P digest
      { h with streams := h.streams ++ [⟨token, account, resumeFrom, none, .probing, []⟩] } := by
  refine ⟨hsourced.watchers, ?_⟩
  intro k t ht
  rw [getElem?_streams_append] at ht
  by_cases hk : h.streams.length = k
  · rw [if_pos hk] at ht
    cases ht
    exact ⟨by simp, by simp [Stream.frames, Stream.owed], by simp [Stream.frames, Stream.owed]⟩
  · rw [if_neg hk] at ht
    exact hsourced.streams k t ht

theorem Sourced.close (hsourced : Sourced P digest h) : Sourced P digest h.close := by
  refine ⟨?_, hsourced.streams⟩
  intro k v hv
  rw [getElem?_close] at hv
  obtain ⟨u, hu, rfl⟩ := Option.map_eq_some_iff.mp hv
  have hold := hsourced.watchers k u hu
  split
  · rw [key_cancel, latestUid_cancel]
    exact hold
  · exact hold

theorem Sourced.next (hsourced : Sourced P digest h) (hsound : Sound digest h) (action : Action)
    (hanswers : ∀ key uid, validUid (some uid) = true → Answers digest h key uid action →
      P key uid) : Sourced P digest (h.next digest action) := by
  cases action with
  | request token account resumeFrom =>
      have happend := hsourced.append token account resumeFrom
      obtain ⟨s, h₁, rfl, rfl, hh | ⟨i, w, hlive, hh⟩⟩ :=
        request_cases digest h token account resumeFrom
      · exact Eq.subst hh.symm happend
      · obtain ⟨hw, hkey, -⟩ := liveWatcher_eq_some (hsound.append rfl).consistent hlive
        exact Eq.subst hh.symm (happend.join hw List.getElem?_concat_length rfl hkey)
  | probed j probe =>
      rcases probed_cases digest h j probe with hh | ⟨s, hs, hprobing, hh | ⟨uid, hprobe, hvalid,
        ⟨i, w, hlive, hh⟩ | ⟨hlive, hh⟩⟩⟩
      · exact Eq.subst hh.symm hsourced
      · exact Eq.subst hh.symm (hsourced.tabSteps
          (Or.inr ⟨s, _, _, hs, tabStep_ended hs hprobing, Or.inl rfl⟩))
      · obtain ⟨hw, hkey, -⟩ := liveWatcher_eq_some hsound.consistent hlive
        exact Eq.subst hh.symm (hsourced.join hw hs hprobing hkey)
      · have huid : P (s.key digest) uid := hanswers _ _ hvalid ⟨hprobe, s, hs, rfl⟩
        refine Eq.subst hh.symm ((hsourced.create (s.key digest) (w := s.watcher uid) huid).join
          ?_ hs hprobing rfl)
        rw [getElem?_create, if_pos rfl]
  | watch i probe => exact hsourced.watch hsound.consistent i probe hanswers
  | write j => exact hsourced.tabSteps (tabSteps_write digest h j)
  | receive j => exact hsourced.tabSteps (tabSteps_receive digest h j)
  | keepalive j => exact hsourced.tabSteps (tabSteps_keepalive digest h j)
  | disconnect j => exact hsourced.tabSteps (tabSteps_disconnect digest h j)
  | close => exact hsourced.close

/-! ## Runs -/

theorem after_concat (digest : String → String) (actions : List Action) (action : Action) :
    Hub.after digest (actions ++ [action]) = (Hub.after digest actions).next digest action := by
  rw [Hub.after, List.foldl_append]
  rfl

theorem sound_after (digest : String → String) (actions : List Action) :
    Sound digest (Hub.after digest actions) := by
  induction actions using List.reverseRecOn with
  | nil =>
      refine ⟨⟨?_, ?_, ?_⟩, ?_, ?_⟩
      · intro key i hi
        cases hi
      all_goals
        intro i w hw
        cases hw
  | append_singleton actions action ih =>
      rw [after_concat]
      exact ih.next action

theorem attended_after {actions : List Action} (hclose : Action.close ∉ actions) :
    Attended (Hub.after digest actions) := by
  induction actions using List.reverseRecOn with
  | nil =>
      intro j s hs
      cases hs
  | append_singleton actions action ih =>
      rw [List.mem_append, List.mem_singleton, not_or] at hclose
      rw [after_concat]
      exact (ih hclose.1).next (sound_after digest actions) (Ne.symm hclose.2)

theorem answered_concat {actions : List Action} {key : Key} {uid : Int}
    (h : Answered digest actions key uid) (action : Action) :
    Answered digest (actions ++ [action]) key uid := by
  obtain ⟨hvalid, before, answer, after, rfl, hanswers⟩ := h
  exact ⟨hvalid, before, answer, after ++ [action], by simp, hanswers⟩

theorem sourced_after (digest : String → String) (actions : List Action) :
    Sourced (Answered digest actions) digest (Hub.after digest actions) := by
  induction actions using List.reverseRecOn with
  | nil =>
      constructor
      all_goals
        intro i w hw
        cases hw
  | append_singleton actions action ih =>
      rw [after_concat]
      refine (ih.mono fun key uid h => answered_concat h action).next (sound_after digest actions)
        action ?_
      intro key uid hvalid hanswers
      exact ⟨hvalid, actions, action, [], rfl, hanswers⟩

/-- The tab is among the subscribers of the registered watcher of its key, which runs and is not
ahead of what the tab has been told or will be told next. -/
def Hears (digest : String → String) (h : Hub) (j : Nat) (s : Stream) : Prop :=
  ∃ i w uid, Dict.get h.registry (s.key digest) = some i ∧ h.watchers[i]? = some w ∧
    w.task = some .running ∧ j ∈ w.subscribers ∧ w.key digest = s.key digest ∧
      s.heard = some uid ∧ w.latestUid ≤ uid

theorem Current.not_expiring {latestUid : Int} (hcurrent : Current latestUid s) : ¬ s.Expiring := by
  rintro (⟨uid, hqueue⟩ | ⟨owed, hlast⟩)
  · cases hcurrent.newMail _ hqueue
  · obtain ⟨owed', hopen⟩ := hcurrent.streaming
    rw [hopen] at hlast
    cases hlast

/-- A tab that listens either hears of its mail or will be told that the session has expired, and
never both: no order of requests, answers and lost connections leaves it waiting for nothing. -/
theorem tab_hears_of_its_mail {actions : List Action} (hclose : Action.close ∉ actions)
    (hs : (Hub.after digest actions).streams[j]? = some s) (hstreaming : s.Streaming) :
    (Hears digest (Hub.after digest actions) j s ∨ s.Expiring) ∧
      ¬ (Hears digest (Hub.after digest actions) j s ∧ s.Expiring) := by
  have hinv := (sound_after digest actions).consistent
  constructor
  · rcases attended_after hclose j s hs hstreaming with ⟨i, w, hw, hrunning, hj⟩ | hexpiring
    · obtain ⟨t, ht, hkey, hcurrent⟩ := hinv.served i w hw hrunning j hj
      cases Option.some.inj (hs.symm.trans ht)
      obtain ⟨uid, hheard, hle⟩ := hcurrent.heard
      exact Or.inl ⟨i, w, uid, hinv.registered_of_subscriber hw hrunning hj hs, hw, hrunning, hj,
        hkey.symm, hheard, hle⟩
    · exact Or.inr hexpiring
  · rintro ⟨⟨i, w, uid, -, hw, hrunning, hj, -⟩, hexpiring⟩
    obtain ⟨t, ht, -, hcurrent⟩ := hinv.served i w hw hrunning j hj
    cases Option.some.inj (hs.symm.trans ht)
    exact hcurrent.not_expiring hexpiring

/-- Two tabs of a session: one that resumes, and then new mail. -/
def sampleActions : List Action :=
  [.request "t" "ann" none, .probed 0 (.value (some 5)), .request "t" "ann" (some 3), .write 1,
    .write 1, .write 1, .watch 0 (.value (some 9)), .receive 1, .write 1]

def sampleTab : Stream :=
  ⟨"t", "ann", some 3, none, .streaming [] false, [.retry, ready none, newMail 5, newMail 9]⟩

theorem sampleTab_eq : (Hub.after id sampleActions).streams[1]? = some sampleTab := rfl

theorem tab_hears_of_its_mail_sample :
    (Hears id (Hub.after id sampleActions) 1 sampleTab ∨ sampleTab.Expiring) ∧
      ¬ (Hears id (Hub.after id sampleActions) 1 sampleTab ∧ sampleTab.Expiring) :=
  tab_hears_of_its_mail (by decide) sampleTab_eq ⟨[], false, rfl⟩

/-- At most one task probes for a key, and only while a tab of this key listens. -/
theorem one_probe_while_a_tab_listens (actions : List Action)
    (hw : (Hub.after digest actions).watchers[i]? = some w) (hrunning : w.task = some .running) :
    (∀ (k : Nat) (v : Watcher), (Hub.after digest actions).watchers[k]? = some v →
      v.task = some .running → v.key digest = w.key digest → k = i) ∧
    ∃ j ∈ w.subscribers, ∃ s, (Hub.after digest actions).streams[j]? = some s ∧
      s.Streaming ∧ s.key digest = w.key digest := by
  have hsound := sound_after digest actions
  refine ⟨?_, ?_⟩
  · intro k v hv hvrunning hkey
    have hk := hsound.consistent.running k v hv hvrunning
    rw [hkey, hsound.consistent.running i w hw hrunning] at hk
    exact (Option.some.inj hk).symm
  · obtain ⟨j, hj⟩ := List.exists_mem_of_ne_nil _ (hsound.followed i w hw hrunning)
    obtain ⟨s, hs, hkey, hcurrent⟩ := hsound.consistent.served i w hw hrunning j hj
    exact ⟨j, hj, s, hs, hcurrent.streaming.imp fun _ h => ⟨false, h⟩, hkey⟩

theorem one_probe_while_a_tab_listens_sample :
    ∃ w, (Hub.after id sampleActions).watchers[0]? = some w ∧
      (∀ (k : Nat) (v : Watcher), (Hub.after id sampleActions).watchers[k]? = some v →
        v.task = some .running → v.key id = w.key id → k = 0) ∧
      ∃ j ∈ w.subscribers, ∃ s, (Hub.after id sampleActions).streams[j]? = some s ∧
        s.Streaming ∧ s.key id = w.key id :=
  ⟨_, rfl, one_probe_while_a_tab_listens sampleActions rfl rfl⟩

theorem isSome_mailEventBytes {event : String} {data : List (String × Json)} {uid : Int}
    (hname : (event.toList.all fun c => c.isLower || c = '_') = true)
    (hlength : event.toList.length ∈ List.range' 1 32) (hvalid : validUid (some uid) = true) :
    (mailEventBytes event data (some uid)).isSome = true := by
  unfold mailEventBytes
  dsimp only
  rw [hname, decide_eq_true hlength, Bool.and_self, if_pos rfl, if_pos hvalid]
  rfl

/-- An identifier that a tab has received is an answer to a probe for its own session, account
and mailbox, and one past the identifier it resumed from came with `new_mail`. -/
theorem identifiers_are_answers (actions : List Action)
    (hs : (Hub.after digest actions).streams[j]? = some s) {frame : Frame}
    (hframe : frame ∈ s.written)
    {uid : Int} (huid : frame.eventId = some uid) :
    Answered digest actions (s.key digest) uid ∧ frame.bytes.isSome = true ∧
      ∀ r, s.resumeFrom = some r → r < uid → frame = newMail uid := by
  have htold := (sourced_after digest actions).streams j s hs
  have hmem : frame ∈ s.frames := List.mem_append_left _ hframe
  rcases htold.frames frame hmem with hother | ⟨u, hu, heq⟩
  · simp only [List.mem_cons, List.not_mem_nil, or_false] at hother
    rcases hother with rfl | rfl | rfl | rfl <;> cases huid
  · have huid' : u = uid := by
      rcases heq with rfl | rfl <;> exact Option.some.inj huid
    subst huid'
    have hvalid := hu.1
    rcases heq with rfl | rfl
    · refine ⟨hu, ?_, fun r hr hlt => ?_⟩
      · have hready := @isSome_mailEventBytes "ready" [("mailbox", .str inbox)] u (by decide)
          (by decide)
        exact hready hvalid
      · have hle := htold.resumed r hr u hmem
        omega
    · refine ⟨hu, ?_, fun _ _ _ => rfl⟩
      have hnewMail := @isSome_mailEventBytes "new_mail" [("mailbox", .str inbox)] u (by decide)
        (by decide)
      exact hnewMail hvalid

theorem identifiers_are_answers_sample :
    Answered id sampleActions (sampleTab.key id) 9 ∧ (newMail 9).bytes.isSome = true ∧
      ∀ r, sampleTab.resumeFrom = some r → r < 9 → newMail 9 = newMail 9 :=
  identifiers_are_answers sampleActions sampleTab_eq (by simp [sampleTab]) rfl

end MaddyWeb.Web.MailEvents
