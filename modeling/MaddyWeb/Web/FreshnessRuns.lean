import MaddyWeb.Web.FreshnessIndex
import MaddyWeb.Library.History

/-!
# Every token is used once

Runs of calls with a clock that does not go back.  The entries expire in the order in which they
stand, and each of them was issued by a call after which its token was neither issued again nor
consumed.
-/

namespace MaddyWeb.Web.Freshness

open MaddyWeb.Library MaddyWeb.Library.History

/-- A call and how it ended. -/
structure Event where
  op : Op
  outcome : Outcome
  deriving DecidableEq, Repr

def Event.issues (token : String) (event : Event) : Bool := event.outcome = .issued token

def Event.consumes (token : String) (event : Event) : Bool :=
  match event.op, event.outcome with
  | .consume _ consumed _, .consumed _ => consumed = token
  | _, _ => false

/-- The calls so far, the time of the last one and the store that they leave. -/
inductive Run (limits : Limits) : Nat → List Event → Store → Prop
  | nil : Run limits 0 [] ⟨[], []⟩
  | snoc {clock : Nat} {log : List Event} {s s' : Store} {op : Op} {outcome : Outcome} :
      Run limits clock log s → clock ≤ op.now → s.step limits op = some (outcome, s') →
      Run limits op.now (log ++ [⟨op, outcome⟩]) s'

/-- The call that issued the token for this entry. -/
def IssuedAs (limits : Limits) (token : String) (entry : Entry) (event : Event) : Prop :=
  ∃ now draws, event = ⟨.issue now entry.owner entry.account entry.mailbox entry.uid entry.digest
    draws, .issued token⟩ ∧ entry.expiresAt = now + limits.ttl

def Untouched (token : String) (event : Event) : Prop :=
  event.issues token = false ∧ event.consumes token = false

/-- A consumed entry is the one that was issued last under the token, not consumed since, for
the same owner, and not yet expired. -/
def OneUse (limits : Limits) (log : List Event) : Prop :=
  Guarded (fun before event => ∀ now token owner entry,
    event = ⟨.consume now token owner, .consumed entry⟩ →
      entry.owner = owner ∧ now < entry.expiresAt ∧
        Since (Untouched token) (IssuedAs limits token entry) before) log

structure Invariant (limits : Limits) (clock : Nat) (log : List Event) (s : Store) : Prop where
  indexed : Indexed s
  sorted : Sorted s.entries
  inTime : ∀ entry ∈ s.entries, entry.2.expiresAt ≤ clock + limits.ttl
  capacity : s.entries.length ≤ limits.capacity
  perOwner : ∀ owner, (ownTokens s.entries owner).length ≤ limits.perOwnerCapacity
  issued : ∀ token entry, (token, entry) ∈ s.entries →
    Since (Untouched token) (IssuedAs limits token entry) log
  oneUse : OneUse limits log

/-- The entries that have not expired. -/
def live (now : Nat) (entries : List (String × Entry)) : List (String × Entry) :=
  entries.filter (now < ·.2.expiresAt)

variable {limits : Limits} {clock now : Nat} {log : List Event} {s s' : Store} {event : Event}

theorem ownTokens_length_le {entries rest : List (String × Entry)} (h : entries.Sublist rest)
    (owner : String) : (ownTokens entries owner).length ≤ (ownTokens rest owner).length :=
  ((h.filter _).map _).length_le

/-! ## What the calls do -/

theorem issue_cases {draws : List String} {owner account mailbox uid digest : String}
    {outcome : Outcome} (hs : Indexed (s.prune now))
    (h : s.issue limits draws now owner account mailbox uid digest = some (outcome, s')) :
    (outcome = .invalidOwner ∧ s' = s.prune now) ∨
      ∃ token room, outcome = .issued token ∧ Room limits owner (s.prune now) room ∧
        Dict.get room.entries token = none ∧ Indexed s' ∧
        s'.entries = (room.entries ++
          [(token, Entry.mk owner account mailbox uid digest (now + limits.ttl))]).drop
            (room.entries.length + 1 - limits.capacity) := by
  unfold Store.issue at h
  dsimp only at h
  split at h
  · obtain ⟨token, hdraw, hresult⟩ := Option.map_eq_some_iff.mp h
    cases hresult
    have hroom : Room limits owner (s.prune now) _ :=
      evictOwned_spec hs (Nat.le_of_eq (congrArg List.length (hs.owned owner).symm))
    have hnew := List.find?_some hdraw
    rw [Option.isNone_iff_eq_none] at hnew
    have hadd := hroom.indexed.add hnew ⟨owner, account, mailbox, uid, digest, now + limits.ttl⟩
    have hevict := @evictOldest_spec limits _ _ hadd (Nat.le_refl _)
    refine Or.inr ⟨token, _, rfl, hroom, hnew, hevict.1, ?_⟩
    rw [hevict.2, List.length_append, List.length_singleton]
  · cases h
    exact Or.inl ⟨rfl, rfl⟩

theorem consume_cases (s : Store) (now : Nat) (token owner : String) :
    ((s.consume now token owner).2 = s.prune now ∧
        (s.consume now token owner).1 ∈ [Outcome.absent, Outcome.uncomparable]) ∨
      ∃ entry, s.consume now token owner = (.consumed entry, ((s.prune now).remove token).2) ∧
        (token, entry) ∈ (s.prune now).entries ∧ entry.owner = owner := by
  unfold Store.consume
  dsimp only
  split
  · split
    · exact Or.inl ⟨rfl, List.mem_cons_self⟩
    · next entry hentry =>
        split
        · exact Or.inl ⟨rfl, List.mem_cons_of_mem _ List.mem_cons_self⟩
        · split
          · next howner => exact Or.inr ⟨entry, rfl, Dict.mem_of_get hentry, howner⟩
          · exact Or.inl ⟨rfl, List.mem_cons_self⟩
  · exact Or.inl ⟨rfl, List.mem_cons_self⟩

/-! ## One call -/

/-- Entries that stay are still as they were issued. -/
theorem Invariant.shrink (h : Invariant limits clock log s) (hclock : clock ≤ now)
    (hs' : Indexed s') (hsub : s'.entries.Sublist (s.prune now).entries)
    (huntouched : ∀ token entry, (token, entry) ∈ s'.entries → Untouched token event)
    (honeUse : OneUse limits (log ++ [event])) : Invariant limits now (log ++ [event]) s' := by
  have hprune := (prune_spec h.indexed h.sorted now).2
  have hsub : s'.entries.Sublist s.entries := by
    rw [hprune] at hsub
    exact hsub.trans List.filter_sublist
  refine ⟨hs', h.sorted.sublist hsub, ?_, ?_, ?_, ?_, honeUse⟩
  · intro entry hentry
    have := h.inTime entry (hsub.subset hentry)
    omega
  · exact Nat.le_trans hsub.length_le h.capacity
  · exact fun owner => Nat.le_trans (ownTokens_length_le hsub owner) (h.perOwner owner)
  · exact fun token entry hentry =>
      (h.issued token entry (hsub.subset hentry)).snoc (huntouched token entry hentry)

theorem OneUse.snoc (h : OneUse limits log) (hevent : ∀ now token owner entry,
    event = ⟨.consume now token owner, .consumed entry⟩ →
      entry.owner = owner ∧ now < entry.expiresAt ∧
        Since (Untouched token) (IssuedAs limits token entry) log) :
    OneUse limits (log ++ [event]) := Guarded.snoc h hevent

theorem Invariant.consume (h : Invariant limits clock log s) (hclock : clock ≤ now)
    (token owner : String) :
    Invariant limits now
      (log ++ [⟨.consume now token owner, (s.consume now token owner).1⟩])
      (s.consume now token owner).2 := by
  obtain ⟨hindexed, hentries⟩ := prune_spec h.indexed h.sorted now
  rcases consume_cases s now token owner with ⟨hs', houtcome⟩ | ⟨entry, heq, hmem, howner⟩
  · have houtcome : (s.consume now token owner).1 = .absent ∨
        (s.consume now token owner).1 = .uncomparable := by simpa using houtcome
    rw [hs']
    apply h.shrink hclock hindexed (List.Sublist.refl _)
    · intro other _ _
      rcases houtcome with houtcome | houtcome
      · rw [houtcome]
        exact ⟨rfl, rfl⟩
      · rw [houtcome]
        exact ⟨rfl, rfl⟩
    · apply h.oneUse.snoc
      intro _ _ _ entry heq
      have hconsumed : (s.consume now token owner).1 = .consumed entry :=
        congrArg Event.outcome heq
      rcases houtcome with houtcome | houtcome
      · rw [houtcome] at hconsumed
        cases hconsumed
      · rw [houtcome] at hconsumed
        cases hconsumed
  · rw [heq]
    have hremoved : ((s.prune now).remove token).2.entries = _ := remove_entries
    apply h.shrink hclock (hindexed.remove token) remove_sublist
    · intro other _ hother
      rw [hremoved] at hother
      refine ⟨rfl, decide_eq_false ?_⟩
      exact Ne.symm (Dict.mem_erase.mp hother).2
    · apply h.oneUse.snoc
      intro _ _ _ _ heq'
      cases heq'
      rw [hentries] at hmem
      obtain ⟨hmem, hlive⟩ := List.mem_filter.mp hmem
      exact ⟨howner, of_decide_eq_true hlive, h.issued token entry hmem⟩

theorem Invariant.issue {draws : List String} {owner account mailbox uid digest : String}
    {outcome : Outcome} (h : Invariant limits clock log s) (hclock : clock ≤ now)
    (hissue : s.issue limits draws now owner account mailbox uid digest = some (outcome, s')) :
    Invariant limits now
      (log ++ [⟨.issue now owner account mailbox uid digest draws, outcome⟩]) s' := by
  obtain ⟨hindexed, hentries⟩ := prune_spec h.indexed h.sorted now
  have honeUse : OneUse limits
      (log ++ [⟨.issue now owner account mailbox uid digest draws, outcome⟩]) := by
    apply h.oneUse.snoc
    intro _ _ _ _ heq
    cases heq
  rcases issue_cases hindexed hissue with
    ⟨rfl, rfl⟩ | ⟨token, room, rfl, hroom, hnew, hindexed', hentries'⟩
  · exact h.shrink hclock hindexed (List.Sublist.refl _) (fun _ _ _ => ⟨rfl, rfl⟩) honeUse
  · have hsub : s'.entries.Sublist
        (room.entries ++ [(token,
          Entry.mk owner account mailbox uid digest (now + limits.ttl))]) := by
      rw [hentries']
      exact List.drop_sublist _ _
    have hold : room.entries.Sublist s.entries := by
      have hkept := hroom.kept
      rw [hentries] at hkept
      exact hkept.trans List.filter_sublist
    have hlate : ∀ entry ∈ room.entries, entry.2.expiresAt ≤ now + limits.ttl := by
      intro entry hentry
      have := h.inTime entry (hold.subset hentry)
      omega
    refine ⟨hindexed', ?_, ?_, ?_, ?_, ?_, honeUse⟩
    · apply List.Pairwise.sublist hsub
      apply List.pairwise_append.mpr
      refine ⟨h.sorted.sublist hold, List.pairwise_singleton _ _, ?_⟩
      intro entry hentry other hother
      rw [List.mem_singleton.mp hother]
      exact hlate entry hentry
    · intro entry hentry
      rcases List.mem_append.mp (hsub.subset hentry) with hentry | hentry
      · exact hlate entry hentry
      · cases List.mem_singleton.mp hentry
        exact Nat.le_refl _
    · rw [hentries', List.length_drop, List.length_append, List.length_singleton]
      omega
    · intro owner'
      apply Nat.le_trans (ownTokens_length_le hsub owner')
      rw [ownTokens_append, List.length_append, ownTokens_singleton]
      by_cases howner : owner = owner'
      · subst howner
        have hroom' := hroom.room
        rw [if_pos rfl, List.length_singleton]
        omega
      · rw [if_neg howner]
        exact Nat.le_trans (ownTokens_length_le hold owner') (h.perOwner owner')
    · intro other entry hentry
      rcases List.mem_append.mp (hsub.subset hentry) with hentry | hentry
      · apply (h.issued other entry (hold.subset hentry)).snoc
        refine ⟨decide_eq_false ?_, rfl⟩
        intro houtcome
        cases houtcome
        rw [Dict.get_eq_some hroom.indexed.keys hentry] at hnew
        cases hnew
      · cases List.mem_singleton.mp hentry
        exact Since.now ⟨now, draws, rfl, rfl⟩

theorem Invariant.of_run (h : Run limits clock log s) : Invariant limits clock log s := by
  induction h with
  | nil =>
      exact ⟨Indexed.empty, List.Pairwise.nil, nofun, Nat.zero_le _, fun _ => Nat.zero_le _, nofun,
        Guarded.nil⟩
  | @snoc clock log s s' op outcome _ hclock hstep ih =>
      cases op with
      | issue now owner account mailbox uid digest draws => exact ih.issue hclock hstep
      | consume now token owner =>
          have hresult : s.consume now token owner = (outcome, s') := Option.some.inj hstep
          have hclock : clock ≤ now := hclock
          have hinv := ih.consume hclock token owner
          rw [hresult] at hinv
          exact hinv

/-! ## The result -/

/-- What holds after any run. -/
structure Sound (limits : Limits) (log : List Event) (s : Store) : Prop where
  indexed : Indexed s
  capacity : s.entries.length ≤ limits.capacity
  perOwner : ∀ owner, (ownTokens s.entries owner).length ≤ limits.perOwnerCapacity
  oneUse : OneUse limits log
  atMostOnce : ∀ token, log.countP (Event.consumes token) ≤ log.countP (Event.issues token)
  pruned : ∀ now, (s.prune now).entries = live now s.entries
  fair : ∀ draws now owner account mailbox uid digest outcome s',
    s.issue limits draws now owner account mailbox uid digest = some (outcome, s') →
      ∀ entry ∈ live now s.entries, entry.2.owner ≠ owner → entry ∉ s'.entries →
        (live now s.entries).length = limits.capacity ∧ s'.entries.length = limits.capacity ∧
          (ownTokens (live now s.entries) owner).length < limits.perOwnerCapacity

theorem OneUse.atMostOnce (h : OneUse limits log) (token : String) :
    log.countP (Event.consumes token) ≤ log.countP (Event.issues token) := by
  apply countP_le
  · rintro ⟨op, outcome⟩ hissues
    have houtcome : outcome = .issued token := of_decide_eq_true hissues
    subst houtcome
    cases op <;> rfl
  · intro before event after hlog hconsumes
    rcases event with ⟨⟨⟩ | ⟨now, token', owner⟩, ⟨⟩⟩ <;> try cases hconsumes
    next entry =>
      have htoken : token' = token := of_decide_eq_true hconsumes
      subst htoken
      apply (h before _ after hlog now token' owner entry rfl).2.2.imp
      · exact fun _ huntouched => huntouched.2
      · rintro _ ⟨_, _, rfl, -⟩
        exact decide_eq_true rfl

theorem Invariant.fair (h : Invariant limits clock log s) {draws : List String}
    {owner account mailbox uid digest : String} {outcome : Outcome}
    (hissue : s.issue limits draws now owner account mailbox uid digest = some (outcome, s'))
    {entry : String × Entry} (hentry : entry ∈ live now s.entries) (howner : entry.2.owner ≠ owner)
    (hgone : entry ∉ s'.entries) :
    (live now s.entries).length = limits.capacity ∧ s'.entries.length = limits.capacity ∧
      (ownTokens (live now s.entries) owner).length < limits.perOwnerCapacity := by
  obtain ⟨hindexed, hentries⟩ := prune_spec h.indexed h.sorted now
  have hentries : (s.prune now).entries = live now s.entries := hentries
  have hcapacity : (live now s.entries).length ≤ limits.capacity :=
    Nat.le_trans (List.length_filter_le _ _) h.capacity
  rcases issue_cases hindexed hissue with ⟨-, rfl⟩ | ⟨token, room, -, hroom, -, -, hentries'⟩
  · rw [hentries] at hgone
    exact absurd hentry hgone
  · have hkept : entry ∈ room.entries := hroom.others entry (hentries ▸ hentry) howner
    -- Nothing is dropped unless the new entry is one too many.
    have hover : limits.capacity < room.entries.length + 1 := by
      by_contra hfits
      apply hgone
      rw [hentries', Nat.sub_eq_zero_of_le (Nat.not_lt.mp hfits), List.drop_zero]
      exact List.mem_append_left _ hkept
    have hlength : s'.entries.length = limits.capacity := by
      rw [hentries', List.length_drop, List.length_append, List.length_singleton]
      omega
    by_cases hfull : limits.perOwnerCapacity ≤ (ownTokens (live now s.entries) owner).length
    · have hshrunk := hroom.shrunk (hentries ▸ hfull)
      rw [hentries] at hshrunk
      omega
    · have hroomeq := hroom.idle (by rw [hentries]; omega)
      rw [hroomeq, hentries] at hover
      omega

theorem freshness_sound (h : Run limits clock log s) : Sound limits log s := by
  have hinv := Invariant.of_run h
  exact ⟨hinv.indexed, hinv.capacity, hinv.perOwner, hinv.oneUse, hinv.oneUse.atMostOnce,
    fun now => (prune_spec hinv.indexed hinv.sorted now).2,
    fun _ _ _ _ _ _ _ _ _ hissue _ hentry howner hgone => hinv.fair hissue hentry howner hgone⟩

theorem smallTtl_pos : 0 < 60 := by decide

def smallLimits : Limits := ⟨60, 2, 1, smallTtl_pos, by decide, by decide⟩

def sampleOwner : String := String.ofList (List.replicate 64 'a')

def sampleToken : String := String.ofList (List.replicate 43 'A')

def sampleEntry : Entry := ⟨sampleOwner, "me@x", "INBOX", "7", "d", 61⟩

def sampleIssue : Event :=
  ⟨.issue 1 sampleOwner "me@x" "INBOX" "7" "d" [sampleToken], .issued sampleToken⟩

def sampleConsume : Event := ⟨.consume 2 sampleToken sampleOwner, .consumed sampleEntry⟩

theorem Run.record (h : Run limits clock log s) (event : Event) (hclock : clock ≤ event.op.now)
    (hstep : s.step limits event.op = some (event.outcome, s')) :
    Run limits event.op.now (log ++ [event]) s' := .snoc h hclock hstep

theorem sample_issued : Run smallLimits 1 [sampleIssue]
    ⟨[(sampleToken, sampleEntry)], [(sampleOwner, [sampleToken])]⟩ :=
  Run.nil.record sampleIssue (by decide) (by decide +kernel)

theorem sample_consumed : Run smallLimits 2 [sampleIssue, sampleConsume] ⟨[], []⟩ :=
  sample_issued.record sampleConsume (by decide) (by decide +kernel)

/-- A token that is issued and used. -/
theorem freshness_sound_sample : Sound smallLimits [sampleIssue, sampleConsume] ⟨[], []⟩ :=
  freshness_sound sample_consumed

end MaddyWeb.Web.Freshness
