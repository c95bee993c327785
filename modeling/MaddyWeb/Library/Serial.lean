import Mathlib.Logic.Function.Basic
import Mathlib.Data.List.Basic

/-!
# A server that takes one request at a time

Requests wait in the order in which they were submitted.  The transport of a request
can fail at any time, as its client sees it: one that was submitted stays in the queue
and may still be served, or be dropped unserved.  A request that is created after
others have left their clients' hands is served behind all of them.
-/

namespace MaddyWeb.Library.Serial

/-- What the client of a request knows; an answer has the place of the request in the log. -/
inductive Phase
  | created
  | queued
  | answered (place : Nat)
  | refused
  | broken
  deriving DecidableEq, Repr

/-- `served` is the log of the requests that were served, the oldest first. -/
structure Server (ρ : Type) where
  phase : ρ → Phase
  queue : List ρ
  served : List ρ

inductive Event (ρ : Type)
  | submit (request : ρ)
  | serve (accepted : Bool)
  | drop
  | fail (request : ρ)
  deriving DecidableEq, Repr

set_option linter.unusedSectionVars false

section Server

variable {ρ : Type} [DecidableEq ρ]

def Server.reply (server : Server ρ) (request : ρ) (phase : Phase) : ρ → Phase :=
  if server.phase request = .queued then Function.update server.phase request phase
  else server.phase

def Server.next (server : Server ρ) : Event ρ → Server ρ
  | .submit request => { server with
      phase := Function.update server.phase request .queued
      queue := server.queue ++ [request] }
  | .serve accepted =>
      match server.queue with
      | [] => server
      | request :: queue =>
          { phase := server.reply request
              (if accepted then .answered server.served.length else .refused)
            queue := queue
            served := server.served ++ [request] }
  | .drop =>
      match server.queue with
      | [] => server
      | request :: queue => { server with
          phase := server.reply request .broken
          queue := queue }
  | .fail request => { server with phase := Function.update server.phase request .broken }

def Server.enabled (server : Server ρ) : Event ρ → Bool
  | .submit request => server.phase request = .created
  | .serve _ | .drop => !server.queue.isEmpty
  | .fail request => server.phase request ≠ .broken

/-- The request is in the queue, was there, or never will be. -/
def Closed (server : Server ρ) (request : ρ) : Prop := server.phase request ≠ .created

/-- The request was served before `place`, or never will be. -/
structure Past (server : Server ρ) (request : ρ) (place : Nat) : Prop where
  gone : request ∉ server.queue
  before : ∀ i, server.served[i]? = some request → i < place

/-- What waits behind a request. -/
def behind (queue : List ρ) (request : ρ) : List ρ := (queue.dropWhile (· ≠ request)).tail

/-- No request of `others` is served behind this one. -/
def Follows (server : Server ρ) (request : ρ) (others : List ρ) : Prop :=
  match server.phase request with
  | .queued => request ∈ server.queue ∧ ∀ other ∈ others, other ∉ behind server.queue request
  | .answered place => ∀ other ∈ others, Past server other place
  | _ => True

instance (server : Server ρ) (request : ρ) (place : Nat) : Decidable (Past server request place) :=
  decidable_of_iff
    (request ∉ server.queue ∧ ∀ i < server.served.length, server.served[i]? = some request →
      i < place)
    ⟨fun h => ⟨h.1, fun i hi => h.2 i (List.getElem?_eq_some_iff.mp hi).1 hi⟩,
      fun h => ⟨h.gone, fun i _ => h.before i⟩⟩

instance (server : Server ρ) (request : ρ) (others : List ρ) :
    Decidable (Follows server request others) :=
  match h : server.phase request with
  | .queued => decidable_of_iff
      (request ∈ server.queue ∧ ∀ other ∈ others, other ∉ behind server.queue request)
      (by rw [Follows, h])
  | .answered place => decidable_of_iff (∀ other ∈ others, Past server other place)
      (by rw [Follows, h])
  | .created | .refused | .broken => decidable_of_iff True (by rw [Follows, h])

variable {server : Server ρ} {request other : ρ} {others : List ρ} {place : Nat} {event : Event ρ}

theorem follows_of_created (h : server.phase request = .created) :
    Follows server request others := by
  unfold Follows
  rw [h]
  trivial

theorem Follows.answered (h : Follows server request others)
    (hphase : server.phase request = .answered place) (hother : other ∈ others) :
    Past server other place := by
  unfold Follows at h
  rw [hphase] at h
  exact h other hother

theorem Follows.queued (h : Follows server request others)
    (hphase : server.phase request = .queued) :
    request ∈ server.queue ∧ ∀ other ∈ others, other ∉ behind server.queue request := by
  unfold Follows at h
  rw [hphase] at h
  exact h

theorem behind_cons_self (queue : List ρ) : behind (request :: queue) request = queue := by
  unfold behind
  rw [List.dropWhile_cons_of_neg (by simp)]
  rfl

theorem behind_cons_of_ne (queue : List ρ) (h : other ≠ request) :
    behind (other :: queue) request = behind queue request := by
  unfold behind
  rw [List.dropWhile_cons_of_pos (by simpa using h)]

theorem behind_append {queue : List ρ} (h : request ∈ queue) (more : List ρ) :
    behind (queue ++ more) request = behind queue request ++ more := by
  induction queue with
  | nil => cases h
  | cons head queue ih =>
      by_cases heq : head = request
      · rw [heq, List.cons_append, behind_cons_self, behind_cons_self]
      · have hmem : request ∈ queue := by
          rcases List.mem_cons.mp h with h | h
          · exact absurd h.symm heq
          · exact h
        rw [List.cons_append, behind_cons_of_ne _ heq, behind_cons_of_ne _ heq, ih hmem]

theorem behind_concat_self {queue : List ρ} (h : request ∉ queue) :
    behind (queue ++ [request]) request = [] := by
  induction queue with
  | nil => exact behind_cons_self []
  | cons head queue ih =>
      rw [List.mem_cons, not_or] at h
      rw [List.cons_append, behind_cons_of_ne _ (Ne.symm h.1), ih h.2]

theorem reply_of_ne (h : other ≠ request) (phase : Phase) :
    server.reply request phase other = server.phase other := by
  unfold Server.reply
  split
  · exact Function.update_of_ne h _ _
  · rfl

theorem reply_self (phase : Phase) :
    server.reply request phase request =
      if server.phase request = .queued then phase else server.phase request := by
  unfold Server.reply
  split
  · exact Function.update_self _ _ _
  · rfl

theorem Closed.next (h : Closed server other) : Closed (server.next event) other := by
  have hreply :
      ∀ request phase, phase ≠ .created → server.reply request phase other ≠ .created := by
    intro request phase hphase
    by_cases heq : other = request
    · rw [heq, reply_self]
      split
      · exact hphase
      · exact heq ▸ h
    · rw [reply_of_ne heq]
      exact h
  have hupdate : ∀ request phase, phase ≠ .created →
      Function.update server.phase request phase other ≠ .created := by
    intro request phase hphase
    by_cases heq : other = request
    · rw [heq, Function.update_self]
      exact hphase
    · rw [Function.update_of_ne heq]
      exact h
  unfold Closed Server.next
  cases event with
  | submit request => exact hupdate request _ nofun
  | serve accepted =>
      dsimp only
      split
      · exact h
      · apply hreply
        split <;> nofun
  | drop =>
      dsimp only
      split
      · exact h
      · exact hreply _ _ nofun
  | fail request => exact hupdate request _ nofun

theorem Past.next (h : Past server other place) (hclosed : Closed server other)
    (henabled : server.enabled event = true) : Past (server.next event) other place := by
  unfold Server.next
  cases event with
  | submit request =>
      have hne : other ≠ request := by
        intro heq
        exact hclosed (heq ▸ of_decide_eq_true henabled)
      constructor
      · intro hmem
        rcases List.mem_append.mp hmem with hmem | hmem
        · exact h.gone hmem
        · exact hne (List.mem_singleton.mp hmem)
      · exact h.before
  | serve accepted =>
      dsimp only
      split
      · exact h
      · next request queue hqueue =>
          have hgone := h.gone
          rw [hqueue, List.mem_cons, not_or] at hgone
          constructor
          · exact hgone.2
          · intro i hi
            by_cases hlt : i < server.served.length
            · rw [List.getElem?_append_left hlt] at hi
              exact h.before i hi
            · rw [List.getElem?_append_right (by omega)] at hi
              have hmem := List.mem_of_getElem? hi
              exact absurd (List.mem_singleton.mp hmem) hgone.1
  | drop =>
      dsimp only
      split
      · exact h
      · next request queue hqueue =>
          have hgone := h.gone
          rw [hqueue, List.mem_cons, not_or] at hgone
          exact ⟨hgone.2, h.before⟩
  | fail request => exact ⟨h.gone, h.before⟩

theorem next_serve {head : ρ} {queue : List ρ} (hqueue : server.queue = head :: queue)
    (accepted : Bool) :
    server.next (.serve accepted) =
      { phase := server.reply head
          (if accepted then .answered server.served.length else .refused)
        queue := queue
        served := server.served ++ [head] } := by
  unfold Server.next
  simp only [hqueue]

theorem next_drop {head : ρ} {queue : List ρ} (hqueue : server.queue = head :: queue) :
    server.next .drop = { server with phase := server.reply head .broken, queue := queue } := by
  unfold Server.next
  simp only [hqueue]

theorem serve_phase {head : ρ} {queue : List ρ} (hqueue : server.queue = head :: queue)
    (accepted : Bool) :
    (server.next (.serve accepted)).phase =
      server.reply head (if accepted then .answered server.served.length else .refused) := by
  rw [next_serve hqueue]

theorem drop_phase {head : ρ} {queue : List ρ} (hqueue : server.queue = head :: queue) :
    (server.next .drop).phase = server.reply head .broken := by
  rw [next_drop hqueue]

theorem exists_head (henabled : (!server.queue.isEmpty) = true) :
    ∃ head queue, server.queue = head :: queue := by
  cases hqueue : server.queue with
  | nil =>
      rw [hqueue] at henabled
      cases henabled
  | cons head queue => exact ⟨head, queue, rfl⟩

theorem closed_of_queued (hqueue : ∀ request ∈ server.queue, Closed server request)
    (henabled : server.enabled event = true) :
    ∀ request ∈ (server.next event).queue, Closed (server.next event) request := by
  intro request hrequest
  cases event with
  | submit submitted =>
      rcases List.mem_append.mp hrequest with hrequest | hrequest
      · exact (hqueue request hrequest).next
      · rw [List.mem_singleton.mp hrequest]
        show Function.update server.phase submitted .queued submitted ≠ .created
        rw [Function.update_self]
        nofun
  | serve accepted =>
      obtain ⟨head, queue, heq⟩ := exists_head henabled
      apply (hqueue request _).next
      rw [next_serve heq] at hrequest
      rw [heq]
      exact List.mem_cons_of_mem head hrequest
  | drop =>
      obtain ⟨head, queue, heq⟩ := exists_head henabled
      apply (hqueue request _).next
      rw [next_drop heq] at hrequest
      rw [heq]
      exact List.mem_cons_of_mem head hrequest
  | fail failed => exact (hqueue request hrequest).next

theorem mem_served_next (h : request ∈ (server.next event).served) :
    request ∈ server.served ∨
      ∃ accepted queue, event = .serve accepted ∧ server.queue = request :: queue := by
  cases event with
  | submit submitted => exact Or.inl h
  | serve accepted =>
      cases hqueue : server.queue with
      | nil =>
          unfold Server.next at h
          simp only [hqueue] at h
          exact Or.inl h
      | cons head queue =>
          rw [next_serve hqueue] at h
          rcases List.mem_append.mp h with h | h
          · exact Or.inl h
          · exact Or.inr ⟨accepted, queue, rfl, by rw [List.mem_singleton.mp h]⟩
  | drop =>
      unfold Server.next at h
      dsimp only at h
      split at h
      · exact Or.inl h
      · exact Or.inl h
  | fail failed => exact Or.inl h

theorem served_subset_next : server.served ⊆ (server.next event).served := by
  intro request h
  unfold Server.next
  cases event with
  | submit submitted => exact h
  | serve accepted =>
      dsimp only
      split
      · exact h
      · exact List.mem_append_left _ h
  | drop =>
      dsimp only
      split
      · exact h
      · exact h
  | fail failed => exact h

theorem created_next (h : server.phase other = .created)
    (hqueue : ∀ request ∈ server.queue, Closed server request)
    (henabled : server.enabled event = true) (hsubmit : event ≠ .submit other)
    (hfail : event ≠ .fail other) : (server.next event).phase other = .created := by
  have hhead : ∀ head queue, server.queue = head :: queue → other ≠ head := by
    intro head queue heq hother
    apply hqueue head
    · rw [heq]
      exact List.mem_cons_self
    · exact hother ▸ h
  cases event with
  | submit request =>
      have hne : other ≠ request := fun heq => hsubmit (congrArg Event.submit heq.symm)
      exact (Function.update_of_ne hne _ _).trans h
  | serve accepted =>
      obtain ⟨head, queue, heq⟩ := exists_head henabled
      rw [serve_phase heq, reply_of_ne (hhead head queue heq), h]
  | drop =>
      obtain ⟨head, queue, heq⟩ := exists_head henabled
      rw [drop_phase heq, reply_of_ne (hhead head queue heq), h]
  | fail request =>
      have hne : other ≠ request := fun heq => hfail (congrArg Event.fail heq.symm)
      exact (Function.update_of_ne hne _ _).trans h

/-- A queued request moves up. -/
theorem Follows.tail {head : ρ} {queue : List ρ} (h : Follows server request others)
    (hqueue : server.queue = head :: queue) (hne : head ≠ request)
    (hphase : server.phase request = .queued) :
    request ∈ queue ∧ ∀ other ∈ others, other ∉ behind queue request := by
  obtain ⟨hmem, hbehind⟩ := h.queued hphase
  rw [hqueue] at hmem
  rw [hqueue, behind_cons_of_ne _ hne] at hbehind
  rcases List.mem_cons.mp hmem with hmem | hmem
  · exact absurd hmem.symm hne
  · exact ⟨hmem, hbehind⟩

theorem Follows.head {queue : List ρ} (h : Follows server request others)
    (hqueue : server.queue = request :: queue) (hphase : server.phase request = .queued) :
    ∀ other ∈ others, other ∉ queue := by
  obtain ⟨_, hbehind⟩ := h.queued hphase
  rw [hqueue, behind_cons_self] at hbehind
  exact hbehind

/-- The request that is served now is served behind the others. -/
theorem Follows.past {queue : List ρ} (h : Follows server request others)
    (hself : request ∉ others) (hqueue : server.queue = request :: queue)
    (hphase : server.phase request = .queued) (accepted : Bool) :
    ∀ other ∈ others, Past (server.next (.serve accepted)) other server.served.length := by
  intro other hother
  rw [next_serve hqueue]
  constructor
  · exact h.head hqueue hphase other hother
  · intro i hi
    by_contra hge
    rw [List.getElem?_append_right (by omega)] at hi
    have hmem := List.mem_singleton.mp (List.mem_of_getElem? hi)
    exact hself (hmem ▸ hother)

theorem Follows.next (h : Follows server request others) (hself : request ∉ others)
    (hclosed : ∀ other ∈ others, Closed server other)
    (hqueue : ∀ request ∈ server.queue, Closed server request)
    (henabled : server.enabled event = true) : Follows (server.next event) request others := by
  -- the phase of the request stays: only its place in the queue has to be looked at
  have hkept : (server.next event).phase request = server.phase request →
      (server.phase request = .queued → request ∈ (server.next event).queue ∧
        ∀ other ∈ others, other ∉ behind (server.next event).queue request) →
      Follows (server.next event) request others := by
    intro hphase hplace
    unfold Follows
    rw [hphase]
    split
    · next hqueued => exact hplace hqueued
    · next place hanswer =>
        intro other hother
        exact (h.answered hanswer hother).next (hclosed other hother) henabled
    · trivial
  cases event with
  | submit submitted =>
      have hcreated : server.phase submitted = .created := of_decide_eq_true henabled
      by_cases heq : request = submitted
      · have hphase : (server.next (.submit submitted)).phase request = .queued :=
          heq ▸ Function.update_self _ _ _
        have hnew : request ∉ server.queue := fun hmem => hqueue request hmem (heq ▸ hcreated)
        have hlast : (server.next (.submit submitted)).queue = server.queue ++ [request] :=
          heq ▸ rfl
        unfold Follows
        rw [hphase, hlast]
        refine ⟨List.mem_append_right _ List.mem_cons_self, fun other _ => ?_⟩
        rw [behind_concat_self hnew]
        exact List.not_mem_nil
      · apply hkept (Function.update_of_ne heq _ _)
        intro hphase
        obtain ⟨hplace, hbehind⟩ := h.queued hphase
        show request ∈ server.queue ++ [submitted] ∧
          ∀ other ∈ others, other ∉ behind (server.queue ++ [submitted]) request
        rw [behind_append hplace]
        refine ⟨List.mem_append_left _ hplace, ?_⟩
        intro other hother hmem
        rcases List.mem_append.mp hmem with hmem | hmem
        · exact hbehind other hother hmem
        · exact hclosed other hother (List.mem_singleton.mp hmem ▸ hcreated)
  | serve accepted =>
      obtain ⟨head, queue, heq⟩ := exists_head henabled
      by_cases hhead : request = head
      · subst hhead
        by_cases hphase : server.phase request = .queued
        · have hpast := h.past hself heq hphase accepted
          have hreply : (server.next (.serve accepted)).phase request =
              if accepted then .answered server.served.length else .refused := by
            rw [serve_phase heq, reply_self, if_pos hphase]
          unfold Follows
          rw [hreply]
          cases accepted with
          | true => exact hpast
          | false => trivial
        · apply hkept
          · rw [serve_phase heq, reply_self, if_neg hphase]
          · exact fun hqueued => absurd hqueued hphase
      · apply hkept
        · rw [serve_phase heq, reply_of_ne hhead]
        · intro hphase
          rw [next_serve heq]
          exact h.tail heq (Ne.symm hhead) hphase
  | drop =>
      obtain ⟨head, queue, heq⟩ := exists_head henabled
      by_cases hhead : request = head
      · subst hhead
        by_cases hphase : server.phase request = .queued
        · have hreply : (server.next .drop).phase request = .broken := by
            rw [drop_phase heq, reply_self, if_pos hphase]
          unfold Follows
          rw [hreply]
          trivial
        · apply hkept
          · rw [drop_phase heq, reply_self, if_neg hphase]
          · exact fun hqueued => absurd hqueued hphase
      · apply hkept
        · rw [drop_phase heq, reply_of_ne hhead]
        · intro hphase
          rw [next_drop heq]
          exact h.tail heq (Ne.symm hhead) hphase
  | fail failed =>
      by_cases heq : request = failed
      · have hphase : (server.next (.fail failed)).phase request = .broken :=
          heq ▸ Function.update_self _ _ _
        unfold Follows
        rw [hphase]
        trivial
      · exact hkept (Function.update_of_ne heq _ _) h.queued

end Server

end MaddyWeb.Library.Serial
