import MaddyWeb.Maddy.Mailboxes

/-!
# Deleting a mailbox loses no mail

What is in the mailbox, and what arrives in it or in its quarantine, stays in one of the
three mailboxes of the migration.  The order of the commands carries the argument: the
messages up to the newest one are removed only after they were copied, those that come
later have larger UIDs, and the quarantine goes only after it was found empty.  The
restoration looks before it renames: a mailbox that is created again in between is
renamed onto, which the server refuses.
-/

namespace MaddyWeb.Maddy.Mailboxes

open MaddyWeb.Library MaddyWeb.Helper.Errors MaddyWeb.Maddy.Service

/-! ## Steps -/

/-- What one move of a client can do. -/
inductive ClientStep (w : World) : World → Prop
  | idle : ClientStep w w
  | deliver {name : String} {message : Nat} (hname : name ∈ w.mail.names)
      (hopen : ∀ event ∈ w.log, event.foundEmpty name = false) :
      ClientStep w { w with
        mail := w.mail.adjust name (·.deliver message)
        log := w.log ++ [.client (.deliver name message)] }
  | recreate (habsent : w.original ∉ w.mail.names) :
      ClientStep w { w with
        mail := w.mail.create w.original []
        log := w.log ++ [.client .recreate] }

theorem clientStep (w : World) (action : ClientAction) : ClientStep w (w.client action) := by
  cases action with
  | deliver name message =>
      unfold World.client
      dsimp only
      split
      · next hcond =>
          simp only [Bool.and_eq_true, List.contains_eq_mem, decide_eq_true_eq,
            Bool.not_eq_true', List.any_eq_false, Bool.not_eq_true] at hcond
          exact .deliver hcond.1 hcond.2
      · exact .idle
  | recreate =>
      unfold World.client
      dsimp only
      split
      · exact .idle
      · next hcond => exact .recreate (by simpa using hcond)

/-- The moves of the clients keep `P`. -/
def Stable (P : World → Prop) : Prop := ∀ w w', ClientStep w w' → P w → P w'

theorem Stable.and {P Q : World → Prop} (hP : Stable P) (hQ : Stable Q) :
    Stable fun w => P w ∧ Q w :=
  fun w w' hstep h => ⟨hP w w' hstep h.1, hQ w w' hstep h.2⟩

theorem Stable.advance {P : World → Prop} (hstable : Stable P) {w : World} (h : P w) :
    P w.advance := by
  unfold World.advance
  generalize w.clients w.issued = actions
  induction actions generalizing w with
  | nil => exact h
  | cons action actions ih => exact ih (hstable w _ (clientStep w action) h)

/-- What a command can leave. -/
inductive Outcome (command : MailCommand) (mail : Mail) : Mail → Prop
  | nothing : Outcome command mail mail
  | applied (picked : Nat → Bool) (hpossible : command.possible mail = true) :
      Outcome command mail (command.apply picked mail)

/-- The rule of a command on the mailboxes that the clients leave to it. -/
theorem invoke_advance {α : Type} {command : MailCommand} {value : Mail → α} {P : World → Prop}
    {Q : α → World → Prop} {E : ServiceError → World → Prop}
    (hok : ∀ w, P w → command.possible w.advance.mail = true →
      Q (value w.advance.mail)
        (w.advance.record command true (command.apply (fun _ => true) w.advance.mail)))
    (herror : ∀ w e mail, P w → Outcome command w.advance.mail mail →
      E (.command e) (w.advance.record command false mail)) :
    Exec.Triple P (invoke command value) Q E := by
  intro w hw
  unfold invoke
  dsimp only
  by_cases hpossible : command.possible w.advance.mail = true
  · rw [if_pos hpossible]
    cases (w.reactions w.issued).failure with
    | none => exact hok w hw hpossible
    | some e =>
        apply herror w e _ hw
        split
        · exact .applied _ hpossible
        · exact .nothing
  · rw [if_neg hpossible]
    exact herror w _ _ hw .nothing

theorem invoke_triple {α : Type} {command : MailCommand} {value : Mail → α} {P : World → Prop}
    {Q : α → World → Prop} {E : ServiceError → World → Prop} (hstable : Stable P)
    (hok : ∀ w, P w → command.possible w.mail = true →
      Q (value w.mail) (w.record command true (command.apply (fun _ => true) w.mail)))
    (herror : ∀ w e mail, P w → Outcome command w.mail mail →
      E (.command e) (w.record command false mail)) :
    Exec.Triple P (invoke command value) Q E :=
  invoke_advance (fun w hw => hok w.advance (hstable.advance hw))
    fun w e mail hw => herror w.advance e mail (hstable.advance hw)

/-! ## Messages -/

def Holds (mail : Mail) (name : String) (id : Nat) : Prop :=
  ∃ box, mail.find name = some box ∧ id ∈ box.contents

variable {mail mail' : Mail} {name other : String} {id anchor : Nat} {w w' : World}

/-- Every mailbox keeps its messages and takes new ones under new UIDs. -/
def Grows (mail mail' : Mail) : Prop :=
  ∀ name box, mail.find name = some box → ∃ box', mail'.find name = some box' ∧
    box.uidNext ≤ box'.uidNext ∧ (∀ stored ∈ box.messages, stored ∈ box'.messages) ∧
    ∀ stored ∈ box'.messages, stored ∈ box.messages ∨ box.uidNext ≤ stored.uid

theorem Grows.refl (mail : Mail) : Grows mail mail :=
  fun _ box hbox => ⟨box, hbox, Nat.le_refl _, fun _ h => h, fun _ h => Or.inl h⟩

theorem Grows.create {attributes : List String} : Grows mail (mail.create name attributes) :=
  fun _ box hbox =>
    ⟨box, Mail.find_create hbox, Nat.le_refl _, fun _ h => h, fun _ h => Or.inl h⟩

theorem Grows.deliver {message : Nat} : Grows mail (mail.adjust name (·.deliver message)) := by
  intro other box hbox
  refine ⟨_, Mail.find_adjust hbox, ?_⟩
  by_cases hname : other = name
  · rw [if_pos hname]
    refine ⟨Nat.le_succ _, fun stored hstored => List.mem_append_left _ hstored, ?_⟩
    intro stored hstored
    rcases List.mem_append.mp hstored with hstored | hstored
    · exact Or.inl hstored
    · rw [List.mem_singleton] at hstored
      rw [hstored]
      exact Or.inr (Nat.le_refl _)
  · rw [if_neg hname]
    exact ⟨Nat.le_refl _, fun _ h => h, fun _ h => Or.inl h⟩

theorem ClientStep.grows (h : ClientStep w w') : Grows w.mail w'.mail := by
  cases h with
  | idle => exact .refl _
  | deliver => exact .deliver
  | recreate => exact .create

theorem Holds.grow (h : Holds mail name id) (hgrows : Grows mail mail') : Holds mail' name id := by
  obtain ⟨box, hbox, hid⟩ := h
  obtain ⟨box', hbox', -, hkept, -⟩ := hgrows name box hbox
  refine ⟨box', hbox', ?_⟩
  obtain ⟨stored, hstored, rfl⟩ := List.mem_map.mp hid
  exact List.mem_map.mpr ⟨stored, hkept stored hstored, rfl⟩

theorem holds_deliver (hname : name ∈ mail.names) :
    Holds (mail.adjust name (·.deliver id)) name id := by
  obtain ⟨box, hbox⟩ := Mail.mem_names.mp hname
  refine ⟨_, Mail.find_adjust hbox, ?_⟩
  rw [if_pos rfl]
  exact mem_contents_deliver.mpr (Or.inr rfl)

theorem Holds.rename {src dst : String} (h : Holds mail name id)
    (hpossible : (MailCommand.rename src dst).possible mail = true) :
    Holds (mail.rename src dst) (renamed src dst name) id := by
  obtain ⟨box, hbox, hid⟩ := h
  simp only [MailCommand.possible, Bool.and_eq_true, decide_eq_true_eq] at hpossible
  exact ⟨box, Mail.find_rename hpossible.2 hbox, hid⟩

theorem Holds.adjust {f : Box → Box} (h : Holds mail name id)
    (hf : name = other → ∀ box, mail.find name = some box → id ∈ (f box).contents) :
    Holds (mail.adjust other f) name id := by
  obtain ⟨box, hbox, hid⟩ := h
  refine ⟨_, Mail.find_adjust hbox, ?_⟩
  by_cases hname : name = other
  · rw [if_pos hname]
    exact hf hname box hbox
  · rw [if_neg hname]
    exact hid

theorem Holds.copy {dst : String} {messages : List Nat} (h : Holds mail name id) :
    Holds (mail.adjust dst (·.deliverAll messages)) name id := by
  obtain ⟨box, hbox, hid⟩ := h
  apply Holds.adjust ⟨box, hbox, hid⟩
  intro _ other hother
  rw [hbox] at hother
  cases hother
  rw [(deliverAll_spec messages box).1]
  exact List.mem_append_left _ hid

/-! ## The log -/

theorem split_snoc {α : Type} {log before after : List α} {event last : α}
    (h : log ++ [last] = before ++ event :: after) :
    (before = log ∧ event = last ∧ after = []) ∨
      ∃ rest, after = rest ++ [last] ∧ log = before ++ event :: rest := by
  rcases List.eq_nil_or_concat after with rfl | ⟨rest, x, rfl⟩
  · obtain ⟨hlog, hlast⟩ := List.append_inj' h rfl
    exact Or.inl ⟨hlog.symm, (List.cons.inj hlast).1.symm, rfl⟩
  · rw [List.concat_eq_append, ← List.cons_append, ← List.append_assoc] at h
    obtain ⟨hlog, hlast⟩ := List.append_inj' h rfl
    refine Or.inr ⟨rest, ?_, hlog⟩
    rw [List.concat_eq_append, (List.cons.inj hlast).1]

/-- Every event is allowed by those before it. -/
def Guarded (guard : List Event → Event → Prop) (log : List Event) : Prop :=
  ∀ before event after, log = before ++ event :: after → guard before event

theorem Guarded.snoc {guard : List Event → Event → Prop} {log : List Event} {event : Event}
    (h : Guarded guard log) (hevent : guard log event) : Guarded guard (log ++ [event]) := by
  intro before other after hsplit
  rcases split_snoc hsplit with ⟨rfl, rfl, -⟩ | ⟨rest, -, hlog⟩
  · exact hevent
  · exact h before other rest hlog

def Event.isClient : Event → Bool
  | .client _ => true
  | .command .. => false

def Event.isRename : Event → Bool
  | .command (.rename _ _) _ _ => true
  | _ => false

/-- The last command was a listing without the mailbox. -/
def NotListed (mailbox : String) (log : List Event) : Prop :=
  ∃ before mail after, log = before ++ .command .listMailboxes mail true :: after ∧
    (∀ event ∈ after, event.isClient = true) ∧ mailbox ∉ mail.names

def commandsIn (log : List Event) : Nat := log.countP (!·.isClient)

theorem commandsIn_snoc (log : List Event) (event : Event) :
    commandsIn (log ++ [event]) = commandsIn log + commandsIn [event] :=
  List.countP_append

theorem commandsIn_client (log : List Event) (action : ClientAction) :
    commandsIn (log ++ [.client action]) = commandsIn log :=
  commandsIn_snoc log (.client action)

/-- No command removes the mailbox, and one that renames onto it follows a listing that has
not shown it: it is there again exactly when the clients that move before the command
create it. -/
def guard (clients : Nat → List ClientAction) (mailbox quarantine : String)
    (before : List Event) : Event → Prop
  | .command (.remove name) _ _ => name = quarantine ∧ name ≠ mailbox
  | .command (.rename src dst) mail _ => (src = mailbox ∧ dst = quarantine ∧ dst ≠ mailbox) ∨
      (src = quarantine ∧ dst = mailbox ∧ NotListed mailbox before ∧
        (mailbox ∈ mail.names ↔ .recreate ∈ clients (commandsIn before)))
  | _ => True

/-! ## Safety -/

/-- The names of a migration. -/
structure Plan (mailbox quarantine target : String) : Prop where
  quarantine_ne : quarantine ≠ mailbox
  target_ne : target ≠ mailbox
  target_ne_quarantine : target ≠ quarantine
  quarantined : renamed mailbox quarantine target = target
  restored : renamed quarantine mailbox target = target

variable {originals : List Nat} {clients : Nat → List ClientAction}
  {mailbox quarantine target : String}

/-- The messages of the mailbox, and those that came into it or into the quarantine. -/
def Tracked (originals : List Nat) (mailbox quarantine : String) (log : List Event) (id : Nat) :
    Prop :=
  id ∈ originals ∨ .client (.deliver mailbox id) ∈ log ∨ .client (.deliver quarantine id) ∈ log

def Held (mailbox quarantine target : String) (mail : Mail) (id : Nat) : Prop :=
  Holds mail mailbox id ∨ Holds mail quarantine id ∨ Holds mail target id

/-- A mailbox that was created again after a rename is there with all that came into it. -/
def RecreatedKept (mailbox : String) (w : World) : Prop :=
  ∀ before after, w.log = before ++ .client .recreate :: after →
    (∃ event ∈ before, event.isRename = true) →
    ∃ box, w.mail.find mailbox = some box ∧
      ∀ id, .client (.deliver mailbox id) ∈ after → id ∈ box.contents

structure Safe (originals : List Nat) (clients : Nat → List ClientAction)
    (mailbox quarantine target : String) (w : World) : Prop where
  original : w.original = mailbox
  schedule : w.clients = clients
  counted : w.issued = commandsIn w.log
  held : ∀ id, Tracked originals mailbox quarantine w.log id →
    Held mailbox quarantine target w.mail id
  guarded : Guarded (guard clients mailbox quarantine) w.log
  kept : RecreatedKept mailbox w

theorem Held.grow (h : Held mailbox quarantine target mail id) (hgrows : Grows mail mail') :
    Held mailbox quarantine target mail' id := by
  rcases h with h | h | h
  · exact Or.inl (h.grow hgrows)
  · exact Or.inr (Or.inl (h.grow hgrows))
  · exact Or.inr (Or.inr (h.grow hgrows))

theorem RecreatedKept.grow {event : Event} (h : RecreatedKept mailbox w)
    (hgrows : Grows w.mail mail') (hlog : w'.log = w.log ++ [event]) (hmail : w'.mail = mail')
    (hevent : ∀ id, event = .client (.deliver mailbox id) → Holds mail' mailbox id)
    (hrecreate : event = .client .recreate → mailbox ∈ mail'.names) : RecreatedKept mailbox w' := by
  intro before after hsplit hrename
  rw [hlog] at hsplit
  rw [hmail]
  rcases split_snoc hsplit with ⟨-, hlast, rfl⟩ | ⟨rest, rfl, hbefore⟩
  · obtain ⟨box, hbox⟩ := Mail.mem_names.mp (hrecreate hlast.symm)
    exact ⟨box, hbox, fun id hid => absurd hid List.not_mem_nil⟩
  · obtain ⟨box, hbox, hin⟩ := h before rest hbefore hrename
    obtain ⟨box', hbox', -, hsub, -⟩ := hgrows mailbox box hbox
    refine ⟨box', hbox', ?_⟩
    intro id hid
    rcases List.mem_append.mp hid with hid | hid
    · obtain ⟨stored, hstored, rfl⟩ := List.mem_map.mp (hin id hid)
      exact List.mem_map.mpr ⟨stored, hsub stored hstored, rfl⟩
    · obtain ⟨other, hother, hcontents⟩ := hevent id (List.mem_singleton.mp hid).symm
      rw [hbox'] at hother
      cases hother
      exact hcontents

theorem safe_stable : Stable (Safe originals clients mailbox quarantine target) := by
  intro w w' hstep hsafe
  have hgrows := hstep.grows
  cases hstep with
  | idle => exact hsafe
  | @deliver name message hname _ =>
      refine ⟨hsafe.original, hsafe.schedule, hsafe.counted.trans (commandsIn_client _ _).symm, ?_,
        hsafe.guarded.snoc trivial, ?_⟩
      · intro id hid
        have hcases : Tracked originals mailbox quarantine w.log id ∨
            ((name = mailbox ∨ name = quarantine) ∧ id = message) := by
          unfold Tracked at hid ⊢
          simp only [List.mem_append, List.mem_singleton, Event.client.injEq,
            ClientAction.deliver.injEq] at hid
          grind
        rcases hcases with hid | ⟨hname', rfl⟩
        · exact (hsafe.held id hid).grow hgrows
        · have hholds := @holds_deliver w.mail name id hname
          rcases hname' with rfl | rfl
          · exact Or.inl hholds
          · exact Or.inr (Or.inl hholds)
      · apply hsafe.kept.grow hgrows rfl rfl
        · rintro id ⟨⟩
          exact holds_deliver hname
        · nofun
  | recreate habsent =>
      refine ⟨hsafe.original, hsafe.schedule, hsafe.counted.trans (commandsIn_client _ _).symm, ?_,
        hsafe.guarded.snoc trivial, ?_⟩
      · intro id hid
        apply (hsafe.held id _).grow hgrows
        unfold Tracked at hid ⊢
        simpa using hid
      · apply hsafe.kept.grow hgrows rfl rfl nofun
        intro _
        rw [← hsafe.original]
        exact Mail.mem_names.mpr ⟨_, Mail.find_create_self habsent⟩

/-! ## Commands of a migration -/

/-- The mailbox is still there, with its messages. -/
def MailboxKept (mailbox : String) (mail mail' : Mail) : Prop :=
  ∀ box, mail.find mailbox = some box →
    ∃ box', mail'.find mailbox = some box' ∧ ∀ id ∈ box.contents, id ∈ box'.contents

theorem MailboxKept.refl (mail : Mail) : MailboxKept mailbox mail mail :=
  fun box hbox => ⟨box, hbox, fun _ h => h⟩

theorem Safe.record {command : MailCommand} {succeeded : Bool}
    (h : Safe originals clients mailbox quarantine target w)
    (hguard : guard clients mailbox quarantine w.log (.command command w.mail succeeded))
    (hheld : ∀ id, Held mailbox quarantine target w.mail id →
      Held mailbox quarantine target mail' id)
    (hkept : (∃ event ∈ w.log, event.isRename = true) → MailboxKept mailbox w.mail mail') :
    Safe originals clients mailbox quarantine target (w.record command succeeded mail') := by
  refine ⟨h.original, h.schedule, ?_, ?_, h.guarded.snoc hguard, ?_⟩
  · show w.issued + 1 = commandsIn (w.log ++ [.command command w.mail succeeded])
    rw [commandsIn_snoc, h.counted]
    rfl
  · intro id hid
    apply hheld id (h.held id _)
    unfold Tracked World.record at hid
    unfold Tracked
    simpa using hid
  · intro before after hsplit hrename
    rcases split_snoc hsplit with ⟨-, hlast, -⟩ | ⟨rest, rfl, hbefore⟩
    · cases hlast
    · obtain ⟨box, hbox, hin⟩ := h.kept before rest hbefore hrename
      obtain ⟨event, hevent, hisRename⟩ := hrename
      have hlogged : event ∈ w.log := by
        rw [hbefore]
        exact List.mem_append_left _ hevent
      obtain ⟨box', hbox', hsub⟩ := hkept ⟨event, hlogged, hisRename⟩ box hbox
      refine ⟨box', hbox', ?_⟩
      intro id hid
      apply hsub id (hin id _)
      simpa using hid

theorem holds_mem_names (h : Holds mail name id) : name ∈ mail.names := by
  obtain ⟨box, hbox, -⟩ := h
  exact Mail.mem_names.mpr ⟨box, hbox⟩

theorem rename_possible {src dst : String}
    (h : (MailCommand.rename src dst).possible mail = true) :
    src ∈ mail.names ∧ dst ∉ mail.names := by
  simp only [MailCommand.possible, Bool.and_eq_true, List.contains_eq_mem, decide_eq_true_eq,
    Bool.not_eq_true', decide_eq_false_iff_not] at h
  exact h.1

/-- A rename between the mailbox and the quarantine. -/
theorem held_rename {src dst : String}
    (hpossible : (MailCommand.rename src dst).possible mail = true)
    (htarget : renamed src dst target = target) :
    (Holds mail src id → Holds (mail.rename src dst) dst id) ∧ ¬ Holds mail dst id ∧
      (Holds mail target id → Holds (mail.rename src dst) target id) := by
  refine ⟨?_, ?_, ?_⟩
  · intro h
    have hrenamed := h.rename hpossible
    rwa [renamed_src] at hrenamed
  · intro h
    exact (rename_possible hpossible).2 (holds_mem_names h)
  · intro h
    have hrenamed := h.rename hpossible
    rwa [htarget] at hrenamed

theorem Safe.rename (hplan : Plan mailbox quarantine target)
    (h : Safe originals clients mailbox quarantine target w)
    (hfirst : ∀ event ∈ w.log, event.isRename = false) {succeeded : Bool}
    (hmail : Outcome (.rename mailbox quarantine) w.mail mail') :
    Safe originals clients mailbox quarantine target
      (w.record (.rename mailbox quarantine) succeeded mail') := by
  apply h.record
  · exact Or.inl ⟨rfl, rfl, hplan.quarantine_ne⟩
  · intro id hid
    cases hmail with
    | nothing => exact hid
    | applied picked hpossible =>
        obtain ⟨hsrc, hdst, htarget⟩ :=
          @held_rename w.mail id target _ _ hpossible hplan.quarantined
        rcases hid with hid | hid | hid
        · exact Or.inr (Or.inl (hsrc hid))
        · exact absurd hid hdst
        · exact Or.inr (Or.inr (htarget hid))
  · rintro ⟨event, hevent, hrename⟩
    rw [hfirst event hevent] at hrename
    cases hrename

theorem Safe.restore (hplan : Plan mailbox quarantine target)
    (h : Safe originals clients mailbox quarantine target w) (hlisted : NotListed mailbox w.log)
    (hthere : mailbox ∈ w.mail.names ↔ .recreate ∈ w.clients w.issued)
    {succeeded : Bool} (hmail : Outcome (.rename quarantine mailbox) w.mail mail') :
    Safe originals clients mailbox quarantine target
      (w.record (.rename quarantine mailbox) succeeded mail') := by
  apply h.record
  · rw [h.schedule, h.counted] at hthere
    exact Or.inr ⟨rfl, rfl, hlisted, hthere⟩
  · intro id hid
    cases hmail with
    | nothing => exact hid
    | applied picked hpossible =>
        obtain ⟨hsrc, hdst, htarget⟩ := @held_rename w.mail id target _ _ hpossible hplan.restored
        rcases hid with hid | hid | hid
        · exact absurd hid hdst
        · exact Or.inl (hsrc hid)
        · exact Or.inr (Or.inr (htarget hid))
  · intro _ box hbox
    cases hmail with
    | nothing => exact ⟨box, hbox, fun _ h => h⟩
    | applied picked hpossible =>
        exact absurd (Mail.mem_names.mpr ⟨box, hbox⟩) (rename_possible hpossible).2

theorem find_adjust_ne {f : Box → Box} {box : Box} (h : mail.find name = some box)
    (hne : name ≠ other) : (mail.adjust other f).find name = some box := by
  rw [Mail.find_adjust h, if_neg hne]

theorem Safe.copy (hplan : Plan mailbox quarantine target)
    (h : Safe originals clients mailbox quarantine target w) {succeeded : Bool}
    (hmail : Outcome (.copy quarantine anchor target) w.mail mail') :
    Safe originals clients mailbox quarantine target
      (w.record (.copy quarantine anchor target) succeeded mail') := by
  apply h.record
  · exact trivial
  · intro id hid
    cases hmail with
    | nothing => exact hid
    | applied picked _ =>
        rcases hid with hid | hid | hid
        · exact Or.inl hid.copy
        · exact Or.inr (Or.inl hid.copy)
        · exact Or.inr (Or.inr hid.copy)
  · intro _ box hbox
    cases hmail with
    | nothing => exact ⟨box, hbox, fun _ h => h⟩
    | applied picked _ =>
        exact ⟨box, find_adjust_ne hbox hplan.target_ne.symm, fun _ h => h⟩

/-- The messages up to the anchor are in the target. -/
def Copied (quarantine target : String) (anchor : Nat) (w : World) : Prop :=
  ∃ box, w.mail.find quarantine = some box ∧ anchor < box.uidNext ∧
    ∀ stored ∈ box.messages, stored.uid ≤ anchor → Holds w.mail target stored.message

theorem Safe.expunge (hplan : Plan mailbox quarantine target)
    (h : Safe originals clients mailbox quarantine target w)
    (hcopied : Copied quarantine target anchor w) {succeeded : Bool}
    (hmail : Outcome (.expunge quarantine anchor) w.mail mail') :
    Safe originals clients mailbox quarantine target
      (w.record (.expunge quarantine anchor) succeeded mail') := by
  apply h.record
  · exact trivial
  · intro id hid
    cases hmail with
    | nothing => exact hid
    | applied picked _ =>
        have hother : ∀ {name}, name ≠ quarantine → Holds w.mail name id →
            Holds ((MailCommand.expunge quarantine anchor).apply picked w.mail) name id := by
          intro name hne hholds
          exact hholds.adjust fun heq => absurd heq hne
        rcases hid with hid | hid | hid
        · exact Or.inl (hother hplan.quarantine_ne.symm hid)
        · obtain ⟨box, hbox, hcontents⟩ := hid
          obtain ⟨stored, hstored, rfl⟩ := List.mem_map.mp hcontents
          by_cases hremoved : (stored.uid ≤ anchor && picked stored.uid) = true
          · obtain ⟨copied, hfound, -, hin⟩ := hcopied
            rw [hbox] at hfound
            cases hfound
            simp only [Bool.and_eq_true, decide_eq_true_eq] at hremoved
            exact Or.inr (Or.inr (hother hplan.target_ne_quarantine
              (hin stored hstored hremoved.1)))
          · refine Or.inr (Or.inl ⟨_, Mail.find_adjust hbox, ?_⟩)
            rw [if_pos rfl]
            refine List.mem_map.mpr ⟨stored, List.mem_filter.mpr ⟨hstored, ?_⟩, rfl⟩
            rw [Bool.not_eq_true']
            exact Bool.eq_false_iff.mpr hremoved
        · exact Or.inr (Or.inr (hother hplan.target_ne_quarantine hid))
  · intro _ box hbox
    cases hmail with
    | nothing => exact ⟨box, hbox, fun _ h => h⟩
    | applied picked _ =>
        exact ⟨box, find_adjust_ne hbox hplan.quarantine_ne.symm, fun _ h => h⟩

/-- The quarantine was found empty, and still is. -/
def Emptied (quarantine : String) (w : World) : Prop :=
  (∃ event ∈ w.log, event.foundEmpty quarantine = true) ∧
    ∀ box, w.mail.find quarantine = some box → box.messages = []

theorem Safe.remove (hplan : Plan mailbox quarantine target)
    (h : Safe originals clients mailbox quarantine target w) (hempty : Emptied quarantine w)
    {succeeded : Bool} (hmail : Outcome (.remove quarantine) w.mail mail') :
    Safe originals clients mailbox quarantine target
      (w.record (.remove quarantine) succeeded mail') := by
  have hdrop : ∀ {name box}, w.mail.find name = some box → name ≠ quarantine →
      mail'.find name = some box := by
    intro name box hbox hne
    cases hmail with
    | nothing => exact hbox
    | applied picked _ => exact Mail.find_drop hbox hne
  apply h.record
  · exact ⟨rfl, hplan.quarantine_ne⟩
  · intro id hid
    rcases hid with ⟨box, hbox, hin⟩ | ⟨box, hbox, hin⟩ | ⟨box, hbox, hin⟩
    · exact Or.inl ⟨box, hdrop hbox hplan.quarantine_ne.symm, hin⟩
    · rw [Box.contents, hempty.2 box hbox] at hin
      exact absurd hin List.not_mem_nil
    · exact Or.inr (Or.inr ⟨box, hdrop hbox hplan.target_ne_quarantine, hin⟩)
  · intro _ box hbox
    exact ⟨box, hdrop hbox hplan.quarantine_ne.symm, fun _ h => h⟩

/-! ## Stages -/

def MailCommand.isReading : MailCommand → Bool
  | .listMailboxes | .latest .. | .window _ => true
  | _ => false

/-- Moves of the clients and readings keep `P`. -/
structure Quiet (P : World → Prop) : Prop where
  stable : Stable P
  read : ∀ w command succeeded, command.isReading = true → P w →
    P (w.record command succeeded w.mail)

theorem Quiet.and {P Q : World → Prop} (hP : Quiet P) (hQ : Quiet Q) :
    Quiet fun w => P w ∧ Q w where
  stable := hP.stable.and hQ.stable
  read := fun w command succeeded hread h =>
    ⟨hP.read w command succeeded hread h.1, hQ.read w command succeeded hread h.2⟩

theorem Outcome.eq_of_isReading {command : MailCommand} (h : Outcome command mail mail')
    (hread : command.isReading = true) : mail' = mail := by
  cases h with
  | nothing => rfl
  | applied picked _ => cases command <;> first | rfl | cases hread

theorem quiet_safe : Quiet (Safe originals clients mailbox quarantine target) where
  stable := safe_stable
  read := by
    intro w command succeeded hread h
    apply h.record
    · cases command <;> trivial
    · exact fun id hid => hid
    · exact fun _ => MailboxKept.refl w.mail

/-- No rename has been issued. -/
def Unrenamed (w : World) : Prop := ∀ event ∈ w.log, event.isRename = false

theorem quiet_unrenamed : Quiet Unrenamed where
  stable := by
    intro w w' hstep h event hevent
    cases hstep with
    | idle => exact h event hevent
    | deliver | recreate =>
        rcases List.mem_append.mp hevent with hevent | hevent
        · exact h event hevent
        · rw [List.mem_singleton.mp hevent]
          rfl
  read := by
    intro w command succeeded hread h event hevent
    rcases List.mem_append.mp hevent with hevent | hevent
    · exact h event hevent
    · rw [List.mem_singleton.mp hevent]
      cases command <;> first | rfl | cases hread

/-- A property of the mailboxes that survives their growth. -/
theorem quiet_mail {P : Mail → Prop} (h : ∀ mail mail', Grows mail mail' → P mail → P mail') :
    Quiet fun w => P w.mail where
  stable := fun w w' hstep hw => h w.mail w'.mail hstep.grows hw
  read := fun _ _ _ _ hw => hw

def AllIn (originals : List Nat) (name : String) (mail : Mail) : Prop :=
  ∀ id ∈ originals, Holds mail name id

theorem quiet_allIn : Quiet fun w => AllIn originals name w.mail :=
  quiet_mail fun _ _ hgrows h id hid => (h id hid).grow hgrows

/-- The original messages are among those up to the anchor. -/
def Snapshot (originals : List Nat) (quarantine : String) (anchor : Nat) (mail : Mail) : Prop :=
  ∃ box, mail.find quarantine = some box ∧ (anchor ≠ 0 → anchor < box.uidNext) ∧
    ∀ id ∈ originals, anchor ≠ 0 ∧ ∃ stored ∈ box.messages, stored.uid ≤ anchor ∧
      stored.message = id

theorem quiet_snapshot : Quiet fun w => Snapshot originals quarantine anchor w.mail := by
  apply quiet_mail
  rintro mail mail' hgrows ⟨box, hbox, hanchor, horiginals⟩
  obtain ⟨box', hbox', hnext, hsub, -⟩ := hgrows quarantine box hbox
  refine ⟨box', hbox', fun hne => Nat.lt_of_lt_of_le (hanchor hne) hnext, ?_⟩
  intro id hid
  obtain ⟨hne, stored, hstored, hle, hmessage⟩ := horiginals id hid
  exact ⟨hne, stored, hsub stored hstored, hle, hmessage⟩

theorem quiet_copied :
    Quiet fun w => anchor ≠ 0 → Copied quarantine target anchor w := by
  refine ⟨?_, fun _ _ _ _ h => h⟩
  intro w w' hstep hcopied hne
  obtain ⟨box, hbox, hanchor, hin⟩ := hcopied hne
  obtain ⟨box', hbox', hnext, -, hnew⟩ := hstep.grows quarantine box hbox
  refine ⟨box', hbox', Nat.lt_of_lt_of_le hanchor hnext, ?_⟩
  intro stored hstored hle
  rcases hnew stored hstored with hold | hlater
  · exact (hin stored hold hle).grow hstep.grows
  · omega

theorem find_adjust_inv {f : Box → Box} {box : Box} (hne : other ≠ name)
    (h : (mail.adjust name f).find other = some box) : mail.find other = some box := by
  rw [Mail.find_eq_some] at h
  obtain ⟨entry, hentry, heq⟩ := List.mem_map.mp h
  cases heq
  rw [Mail.find_eq_some, if_neg hne]
  exact hentry

theorem find_create_inv {attributes : List String} {box : Box}
    (h : (mail.create name attributes).find other = some box) :
    mail.find other = some box ∨ box = .empty attributes := by
  unfold Mail.create at h
  split at h
  · exact Or.inl h
  · rw [Mail.find_eq_some] at h
    rcases List.mem_append.mp h with h | h
    · exact Or.inl (Mail.find_eq_some.mpr h)
    · cases List.mem_singleton.mp h
      exact Or.inr rfl

theorem quiet_emptied : Quiet (Emptied quarantine) where
  stable := by
    intro w w' hstep hempty
    obtain ⟨⟨event, hevent, hfound⟩, hnone⟩ := hempty
    have hlogged : ∀ last, ∃ event ∈ w.log ++ [last], event.foundEmpty quarantine = true :=
      fun last => ⟨event, List.mem_append_left _ hevent, hfound⟩
    cases hstep with
    | idle => exact ⟨⟨event, hevent, hfound⟩, hnone⟩
    | @deliver name message _ hopen =>
        refine ⟨hlogged _, ?_⟩
        intro box hbox
        have hne : quarantine ≠ name := by
          rintro rfl
          rw [hopen event hevent] at hfound
          cases hfound
        exact hnone box (find_adjust_inv hne hbox)
    | recreate _ =>
        refine ⟨hlogged _, ?_⟩
        intro box hbox
        rcases find_create_inv hbox with hbox | rfl
        · exact hnone box hbox
        · rfl
  read := by
    rintro w command succeeded _ ⟨⟨event, hevent, hfound⟩, hnone⟩
    exact ⟨⟨event, List.mem_append_left _ hevent, hfound⟩, hnone⟩

/-! ## Readings -/

/-- The exit of a failure: nothing has been lost. -/
def FailsSafe (originals : List Nat) (clients : Nat → List ClientAction)
    (mailbox quarantine target : String) (e : ServiceError) (w : World) : Prop :=
  e.isFailure = true ∧ Safe originals clients mailbox quarantine target w

section Readings

variable {P : World → Prop} (hP : Quiet P)
  (hsafe : ∀ w, P w → Safe originals clients mailbox quarantine target w)

include hP hsafe

theorem reading_triple {α : Type} {command : MailCommand} {value : Mail → α}
    (hread : command.isReading = true) :
    Exec.Triple P (invoke command value)
      (fun a w => a = value w.mail ∧ command.possible w.mail = true ∧
        (∃ before, w.log = before ++ [.command command w.mail true]) ∧ P w)
      (FailsSafe originals clients mailbox quarantine target) := by
  apply invoke_triple hP.stable
  · intro w hw hpossible
    have hmail := (Outcome.applied (fun _ => true) hpossible).eq_of_isReading hread
    rw [hmail]
    exact ⟨rfl, hpossible, ⟨w.log, rfl⟩, hP.read w command true hread hw⟩
  · intro w e mail hw houtcome
    rw [houtcome.eq_of_isReading hread]
    exact ⟨rfl, hsafe _ (hP.read w command false hread hw)⟩

theorem listedNames_triple :
    Exec.Triple P listedNames
      (fun names w => names = w.mail.names ∧
        (∃ before, w.log = before ++ [.command .listMailboxes w.mail true]) ∧ P w)
      (FailsSafe originals clients mailbox quarantine target) := by
  unfold listedNames listMailboxes
  apply Exec.Triple.bind (reading_triple hP hsafe rfl)
  intro records
  apply Exec.Triple.ret
  rintro w ⟨rfl, -, hlog, hw⟩
  refine ⟨?_, hlog, hw⟩
  rw [List.map_map]
  rfl

/-- A listing whose checks raise failures, before what follows. -/
theorem listed_bind {β : Type} {f : List String → MailService β} {Q : β → World → Prop}
    (hf : ∀ names, Exec.Triple P (f names) Q
      (FailsSafe originals clients mailbox quarantine target)) :
    Exec.Triple P (listedNames >>= f) Q
      (FailsSafe originals clients mailbox quarantine target) := by
  apply Exec.Triple.bind (listedNames_triple hP hsafe)
  intro names
  exact (hf names).conseq (fun w hw => hw.2.2) (fun _ _ hw => hw) fun _ _ hw => hw

theorem windowIsEmpty_triple :
    Exec.Triple P (windowIsEmpty quarantine)
      (fun empty w => P w ∧ (empty = true → Emptied quarantine w))
      (FailsSafe originals clients mailbox quarantine target) := by
  unfold windowIsEmpty newestRecord
  apply Exec.Triple.bind (reading_triple hP hsafe rfl)
  intro newest
  cases newest with
  | none =>
      apply Exec.Triple.ret
      rintro w ⟨hnewest, -, ⟨before, hlog⟩, hw⟩
      refine ⟨hw, fun _ => ?_⟩
      have hnone : ∀ box, w.mail.find quarantine = some box → box.messages = [] := by
        intro box hbox
        rw [hbox] at hnewest
        exact List.getLast?_eq_none_iff.mp hnewest.symm
      refine ⟨⟨_, hlog ▸ List.mem_append_right _ List.mem_cons_self, ?_⟩, hnone⟩
      unfold Event.foundEmpty Mail.contents
      cases hfind : w.mail.find quarantine with
      | none => simp [hfind]
      | some box => simp [hfind, Box.contents, hnone box hfind]
  | some record =>
      apply Exec.Triple.ensure_bind fun w hw => ⟨rfl, hsafe w hw.2.2.2⟩
      intro _
      apply Exec.Triple.bind ((reading_triple hP hsafe rfl).conseq (fun w hw => hw.2.2.2)
        (fun _ _ hw => hw) fun _ _ hw => hw)
      intro _
      apply Exec.Triple.ret
      rintro w ⟨-, -, -, hw⟩
      exact ⟨hw, fun hempty => absurd hempty Bool.false_ne_true⟩

end Readings

theorem getLast_le {messages : List Stored} (hsorted : messages.Pairwise fun a b => a.uid < b.uid)
    {newest : Stored} (hnewest : messages.getLast? = some newest) :
    newest ∈ messages ∧ ∀ stored ∈ messages, stored.uid ≤ newest.uid := by
  obtain ⟨initial, rfl⟩ := List.getLast?_eq_some_iff.mp hnewest
  refine ⟨List.mem_append_right _ List.mem_cons_self, ?_⟩
  intro stored hstored
  rcases List.mem_append.mp hstored with hstored | hstored
  · exact Nat.le_of_lt
      ((List.pairwise_append.mp hsorted).2.2 stored hstored newest List.mem_cons_self)
  · exact Nat.le_of_eq (congrArg Stored.uid (List.mem_singleton.mp hstored))

theorem latestMessageUid_triple :
    Exec.Triple (fun w => Safe originals clients mailbox quarantine target w ∧
        AllIn originals quarantine w.mail) (latestMessageUid quarantine)
      (fun anchor w => Safe originals clients mailbox quarantine target w ∧
        Snapshot originals quarantine anchor w.mail)
      (FailsSafe originals clients mailbox quarantine target) := by
  unfold latestMessageUid newestRecord
  apply Exec.Triple.bind (reading_triple (quiet_safe.and quiet_allIn) (fun w hw => hw.1) rfl)
  intro newest
  have hfind : ∀ w : World, (MailCommand.latest quarantine false).possible w.mail = true →
      ∃ box, w.mail.find quarantine = some box := by
    intro w hpossible
    apply Mail.mem_names.mp
    simpa [MailCommand.possible] using hpossible
  cases newest with
  | none =>
      apply Exec.Triple.ret
      rintro w ⟨hnewest, hpossible, -, hsafe, hall⟩
      obtain ⟨box, hbox⟩ := hfind w hpossible
      rw [hbox] at hnewest
      have hmessages : box.messages = [] := List.getLast?_eq_none_iff.mp hnewest.symm
      refine ⟨hsafe, box, hbox, fun hne => absurd rfl hne, ?_⟩
      intro id hid
      obtain ⟨other, hother, hin⟩ := hall id hid
      rw [hbox] at hother
      cases hother
      rw [Box.contents, hmessages] at hin
      exact absurd hin List.not_mem_nil
  | some newest =>
      apply Exec.Triple.ensure_bind fun w hw => ⟨rfl, hw.2.2.2.1⟩
      intro hvalid
      apply Exec.Triple.ret
      rintro w ⟨hnewest, hpossible, -, hsafe, hall⟩
      obtain ⟨box, hbox⟩ := hfind w hpossible
      rw [hbox] at hnewest
      obtain ⟨hmem, hle⟩ := getLast_le box.sorted hnewest.symm
      simp only [Bool.and_eq_true, decide_eq_true_eq] at hvalid
      refine ⟨hsafe, box, hbox, fun _ => box.bounded newest hmem, ?_⟩
      intro id hid
      obtain ⟨other, hother, hin⟩ := hall id hid
      rw [hbox] at hother
      cases hother
      obtain ⟨stored, hstored, rfl⟩ := List.mem_map.mp hin
      exact ⟨by omega, stored, hstored, hle stored hstored, rfl⟩

/-! ## The migration -/

theorem notListed_stable : Stable fun w => NotListed mailbox w.log := by
  rintro w w' hstep ⟨before, mail, after, hlog, hclients, habsent⟩
  have hsnoc : ∀ action, NotListed mailbox (w.log ++ [.client action]) := by
    intro action
    refine ⟨before, mail, after ++ [.client action], ?_, ?_, habsent⟩
    · rw [hlog, List.append_assoc, List.cons_append]
    · intro event hevent
      rcases List.mem_append.mp hevent with hevent | hevent
      · exact hclients event hevent
      · rw [List.mem_singleton.mp hevent]
        rfl
  cases hstep with
  | idle => exact ⟨before, mail, after, hlog, hclients, habsent⟩
  | deliver => exact hsnoc _
  | recreate => exact hsnoc _

theorem schedule_stable {issued : Nat} :
    Stable fun w => w.clients = clients ∧ w.issued = issued := by
  intro w w' hstep h
  cases hstep <;> exact h

theorem mem_names_client {action : ClientAction} (horiginal : w.original = mailbox) :
    (w.client action).original = mailbox ∧
      (mailbox ∈ (w.client action).mail.names ↔ mailbox ∈ w.mail.names ∨ action = .recreate) := by
  cases action with
  | deliver name message =>
      unfold World.client
      dsimp only
      split
      · simp [Mail.names_adjust, horiginal]
      · simp [horiginal]
  | recreate =>
      unfold World.client
      dsimp only
      rw [horiginal]
      split
      · next hthere => simpa [horiginal] using hthere
      · next habsent =>
          have hnew : mailbox ∉ w.mail.names := by simpa using habsent
          simp [Mail.mem_names.mpr ⟨_, Mail.find_create_self hnew⟩]

/-- The mailbox is there after the moves of the clients when it was there or one creates it. -/
theorem mem_names_advance (horiginal : w.original = mailbox) :
    mailbox ∈ w.advance.mail.names ↔
      mailbox ∈ w.mail.names ∨ .recreate ∈ w.clients w.issued := by
  unfold World.advance
  generalize w.clients w.issued = actions
  induction actions generalizing w with
  | nil => simp
  | cons action actions ih =>
      obtain ⟨hnext, hnames⟩ := @mem_names_client w mailbox action horiginal
      rw [List.foldl_cons, ih hnext, hnames, List.mem_cons, or_assoc]
      simp only [eq_comm]

section Migration

variable (hplan : Plan mailbox quarantine target)

include hplan

theorem restoreQuarantine_triple :
    Exec.Triple (Safe originals clients mailbox quarantine target)
      (restoreQuarantine mailbox quarantine)
      (fun _ => Safe originals clients mailbox quarantine target)
      (FailsSafe originals clients mailbox quarantine target) := by
  unfold restoreQuarantine
  apply Exec.Triple.bind (listedNames_triple quiet_safe fun _ hw => hw)
  intro observed
  apply Exec.Triple.ite
  · intro _
    exact Exec.Triple.ret fun w hw => hw.2.2
  intro hobserved
  have hnot : mailbox ∉ observed := by
    intro hmem
    apply hobserved
    rw [List.contains_iff_mem.mpr hmem, Bool.true_or]
  apply @Exec.Triple.bind _ _ _ _ _ fun _ => Safe originals clients mailbox quarantine target
  · have hrename : Exec.Triple (fun w => (Safe originals clients mailbox quarantine target w ∧
        NotListed mailbox w.log) ∧ mailbox ∉ w.mail.names)
        (invoke (.rename quarantine mailbox) fun _ => ())
        (fun _ => Safe originals clients mailbox quarantine target)
        (FailsSafe originals clients mailbox quarantine target) := by
      have hadvance : ∀ w : World, ((Safe originals clients mailbox quarantine target w ∧
          NotListed mailbox w.log) ∧ mailbox ∉ w.mail.names) →
          (Safe originals clients mailbox quarantine target w.advance ∧
            NotListed mailbox w.advance.log) ∧
          (mailbox ∈ w.advance.mail.names ↔ .recreate ∈ w.advance.clients w.advance.issued) := by
        rintro w ⟨hw, habsent⟩
        refine ⟨(safe_stable.and notListed_stable).advance hw, ?_⟩
        obtain ⟨hclients, hissued⟩ :=
          (@schedule_stable w.clients w.issued).advance ⟨rfl, rfl⟩
        rw [hclients, hissued, mem_names_advance hw.1.original]
        exact or_iff_right habsent
      apply invoke_advance
      · intro w hw hpossible
        obtain ⟨⟨hsafe, hlisted⟩, hthere⟩ := hadvance w hw
        exact hsafe.restore hplan hlisted hthere (.applied _ hpossible)
      · intro w e mail hw houtcome
        obtain ⟨⟨hsafe, hlisted⟩, hthere⟩ := hadvance w hw
        exact ⟨rfl, hsafe.restore hplan hlisted hthere houtcome⟩
    apply hrename.conseq _ (fun _ _ hw => hw) fun _ _ hw => hw
    rintro w ⟨rfl, ⟨before, hlog⟩, hsafe⟩
    exact ⟨⟨hsafe, before, w.mail, [], hlog, nofun, hnot⟩, hnot⟩
  intro _
  apply Exec.Triple.bind (listedNames_triple quiet_safe fun _ hw => hw)
  intro restored
  apply Exec.Triple.ensure
  · exact fun w hw _ => hw.2.2
  · exact fun w hw _ => ⟨rfl, hw.2.2⟩

theorem restoreMailboxQuarantine_triple :
    Exec.Triple (Safe originals clients mailbox quarantine target)
      (restoreMailboxQuarantine mailbox quarantine)
      (fun _ => Safe originals clients mailbox quarantine target) (fun _ _ => False) := by
  apply exceptMaddyError_triple (restoreQuarantine_triple hplan)
  intro e _
  exact Exec.Triple.ret fun _ hw => hw

theorem rename_triple :
    Exec.Triple (fun w => Safe originals clients mailbox quarantine target w ∧ Unrenamed w ∧
        AllIn originals mailbox w.mail) (invoke (.rename mailbox quarantine) fun _ => ())
      (fun _ w => Safe originals clients mailbox quarantine target w ∧
        AllIn originals quarantine w.mail)
      (FailsSafe originals clients mailbox quarantine target) := by
  apply invoke_triple (safe_stable.and (quiet_unrenamed.stable.and quiet_allIn.stable))
  · rintro w ⟨hsafe, hfirst, hall⟩ hpossible
    refine ⟨hsafe.rename hplan hfirst (.applied _ hpossible), ?_⟩
    intro id hid
    exact (held_rename hpossible hplan.quarantined).1 (hall id hid)
  · rintro w e mail ⟨hsafe, hfirst, -⟩ houtcome
    exact ⟨rfl, hsafe.rename hplan hfirst houtcome⟩

theorem copy_triple :
    Exec.Triple (fun w => Safe originals clients mailbox quarantine target w ∧
        Snapshot originals quarantine anchor w.mail)
      (onSnapshot anchor fun anchor => .copy quarantine anchor target)
      (fun _ w => Safe originals clients mailbox quarantine target w ∧
        (anchor ≠ 0 → Copied quarantine target anchor w) ∧ AllIn originals target w.mail)
      (FailsSafe originals clients mailbox quarantine target) := by
  unfold onSnapshot
  apply Exec.Triple.ite
  · intro hzero
    apply Exec.Triple.ret
    rintro w ⟨hsafe, box, -, -, horiginals⟩
    refine ⟨hsafe, fun hne => absurd hzero hne, ?_⟩
    intro id hid
    exact absurd hzero (horiginals id hid).1
  intro hne
  apply invoke_triple (safe_stable.and quiet_snapshot.stable)
  · rintro w ⟨hsafe, box, hbox, hanchor, horiginals⟩ hpossible
    refine ⟨hsafe.copy hplan (.applied _ hpossible), ?_⟩
    -- what the copy has delivered
    have hcopied : ∀ stored ∈ box.messages, stored.uid ≤ anchor →
        Holds ((MailCommand.copy quarantine anchor target).apply (fun _ => true) w.mail) target
          stored.message := by
      intro stored hstored hle
      have htarget : target ∈ w.mail.names := by
        simp only [MailCommand.possible, Bool.and_eq_true, List.contains_eq_mem,
          decide_eq_true_eq] at hpossible
        exact hpossible.2
      obtain ⟨found, hfound⟩ := Mail.mem_names.mp htarget
      refine ⟨_, Mail.find_adjust hfound, ?_⟩
      rw [if_pos rfl, (deliverAll_spec _ found).1, hbox]
      apply List.mem_append_right
      apply List.mem_map.mpr
      exact ⟨stored, List.mem_filter.mpr ⟨hstored, by simpa using hle⟩, rfl⟩
    constructor
    · intro _
      refine ⟨box, find_adjust_ne hbox hplan.target_ne_quarantine.symm, hanchor hne, ?_⟩
      exact fun stored hstored hle => hcopied stored hstored hle
    · intro id hid
      obtain ⟨-, stored, hstored, hle, rfl⟩ := horiginals id hid
      exact hcopied stored hstored hle
  · rintro w e mail ⟨hsafe, -⟩ houtcome
    exact ⟨rfl, hsafe.copy hplan houtcome⟩

theorem expunge_triple :
    Exec.Triple (fun w => Safe originals clients mailbox quarantine target w ∧
        (anchor ≠ 0 → Copied quarantine target anchor w) ∧ AllIn originals target w.mail)
      (onSnapshot anchor (.expunge quarantine))
      (fun _ w => Safe originals clients mailbox quarantine target w ∧
        AllIn originals target w.mail)
      (FailsSafe originals clients mailbox quarantine target) := by
  unfold onSnapshot
  apply Exec.Triple.ite
  · intro _
    exact Exec.Triple.ret fun w hw => ⟨hw.1, hw.2.2⟩
  intro hne
  apply invoke_triple (safe_stable.and (quiet_copied.stable.and quiet_allIn.stable))
  · rintro w ⟨hsafe, hcopied, hall⟩ hpossible
    refine ⟨hsafe.expunge hplan (hcopied hne) (.applied _ hpossible), ?_⟩
    intro id hid
    exact (hall id hid).adjust fun heq => absurd heq hplan.target_ne_quarantine
  · rintro w e mail ⟨hsafe, hcopied, -⟩ houtcome
    exact ⟨rfl, hsafe.expunge hplan (hcopied hne) houtcome⟩

theorem remove_triple :
    Exec.Triple (fun w => (Safe originals clients mailbox quarantine target w ∧
        AllIn originals target w.mail) ∧ Emptied quarantine w)
      (invoke (.remove quarantine) fun _ => ())
      (fun _ w => Safe originals clients mailbox quarantine target w ∧
        AllIn originals target w.mail)
      (FailsSafe originals clients mailbox quarantine target) := by
  apply invoke_triple ((safe_stable.and quiet_allIn.stable).and quiet_emptied.stable)
  · rintro w ⟨⟨hsafe, hall⟩, hempty⟩ hpossible
    refine ⟨hsafe.remove hplan hempty (.applied _ hpossible), ?_⟩
    intro id hid
    obtain ⟨box, hbox, hin⟩ := hall id hid
    exact ⟨box, Mail.find_drop hbox hplan.target_ne_quarantine, hin⟩
  · rintro w e mail ⟨⟨hsafe, -⟩, hempty⟩ houtcome
    exact ⟨rfl, hsafe.remove hplan hempty houtcome⟩

theorem migrateMailbox_triple :
    Exec.Triple (fun w => Safe originals clients mailbox quarantine target w ∧ Unrenamed w ∧
        AllIn originals mailbox w.mail) (migrateMailbox mailbox target quarantine)
      (fun _ w => Safe originals clients mailbox quarantine target w ∧
        AllIn originals target w.mail ∧ mailbox ∉ w.mail.names ∧ quarantine ∉ w.mail.names)
      (FailsSafe originals clients mailbox quarantine target) := by
  unfold migrateMailbox
  apply Exec.Triple.bind (rename_triple hplan)
  intro _
  apply listed_bind (quiet_safe.and quiet_allIn) fun _ hw => hw.1
  intro renamed
  apply Exec.Triple.ensure_bind fun w hw => ⟨rfl, hw.1⟩
  intro _
  apply Exec.Triple.bind latestMessageUid_triple
  intro anchor
  apply Exec.Triple.bind (copy_triple hplan)
  intro _
  apply listed_bind (quiet_safe.and (quiet_copied.and quiet_allIn)) fun _ hw => hw.1
  intro afterCopy
  apply Exec.Triple.ensure_bind fun w hw => ⟨rfl, hw.1⟩
  intro _
  apply Exec.Triple.ensure_bind fun w hw => ⟨rfl, hw.1⟩
  intro _
  apply Exec.Triple.bind (expunge_triple hplan)
  intro _
  apply Exec.Triple.bind (windowIsEmpty_triple (quiet_safe.and quiet_allIn) fun _ hw => hw.1)
  intro empty
  apply Exec.Triple.ensure_bind fun w hw => ⟨rfl, hw.1.1⟩
  intro hempty
  apply @Exec.Triple.conseq _ _ _ (fun w => (Safe originals clients mailbox quarantine target w ∧
    AllIn originals target w.mail) ∧ Emptied quarantine w) _ _ _ _ _ _ _
    (fun w hw => ⟨hw.1, hw.2 hempty⟩) (fun _ _ hw => hw) fun _ _ hw => hw
  apply listed_bind ((quiet_safe.and quiet_allIn).and quiet_emptied) fun _ hw => hw.1.1
  intro beforeRemove
  apply Exec.Triple.ensure_bind fun w hw => ⟨rfl, hw.1.1⟩
  intro _
  apply Exec.Triple.ensure_bind fun w hw => ⟨rfl, hw.1.1⟩
  intro _
  apply Exec.Triple.bind (remove_triple hplan)
  intro _
  apply Exec.Triple.bind (listedNames_triple (quiet_safe.and quiet_allIn) fun _ hw => hw.1)
  intro observed
  apply Exec.Triple.ensure_bind fun w hw => ⟨rfl, hw.2.2.1⟩
  intro hgone
  apply Exec.Triple.ensure
  · rintro w ⟨rfl, -, hsafe, hall⟩ _
    simp only [Bool.and_eq_true, Bool.not_eq_true', List.contains_eq_mem,
      decide_eq_false_iff_not] at hgone
    exact ⟨hsafe, hall, hgone⟩
  · exact fun w hw _ => ⟨rfl, hw.2.2.1⟩

end Migration

/-! ## The checks before it -/

/-- Nothing but the clients has changed anything, whatever the quarantine will be called. -/
def Untouched (originals : List Nat) (clients : Nat → List ClientAction) (mailbox : String)
    (w : World) : Prop :=
  (∀ quarantine target, Safe originals clients mailbox quarantine target w) ∧ Unrenamed w ∧
    AllIn originals mailbox w.mail

theorem quiet_untouched : Quiet (Untouched originals clients mailbox) := by
  have hsafe : Quiet fun w =>
      ∀ quarantine target, Safe originals clients mailbox quarantine target w :=
    ⟨fun w w' hstep h quarantine target => safe_stable w w' hstep (h quarantine target),
      fun w command succeeded hread h quarantine target =>
        quiet_safe.read w command succeeded hread (h quarantine target)⟩
  exact hsafe.and (quiet_unrenamed.and quiet_allIn)

theorem untouched_start {reactions : Nat → Reaction} {clients : Nat → List ClientAction} :
    Untouched (mail.contents mailbox) clients mailbox (.start mail mailbox reactions clients) := by
  have hall : AllIn (mail.contents mailbox) mailbox mail := by
    intro id hid
    unfold Mail.contents at hid
    cases hbox : mail.find mailbox with
    | none =>
        rw [hbox] at hid
        exact absurd hid List.not_mem_nil
    | some box =>
        rw [hbox] at hid
        exact ⟨box, hbox, hid⟩
  refine ⟨?_, nofun, hall⟩
  intro quarantine target
  refine ⟨rfl, rfl, rfl, ?_, ?_, ?_⟩
  · intro id hid
    rcases hid with hid | hid | hid
    · exact Or.inl (hall id hid)
    · exact absurd hid List.not_mem_nil
    · exact absurd hid List.not_mem_nil
  · intro before event after hsplit
    exact absurd hsplit (by simp [World.start])
  · intro before after hsplit
    exact absurd hsplit (by simp [World.start])

section Checks

variable {casefold : String → String} {tokens : Nat → String} {username : String}

theorem requireMutableMailbox_triple {mailboxes : List MailboxRecord} {P : World → Prop} :
    Exec.Triple P (requireMutableMailbox casefold mailbox mailboxes)
      (fun _ w => mailbox ∈ mailboxes.map (·.name) ∧ P w) (fun _ => P) := by
  unfold requireMutableMailbox
  refine Exec.Triple.ensure_bind (fun _ hw => hw) ?_
  intro _
  split
  · next record hmatches =>
      apply Exec.Triple.ensure
      · intro w hw _
        have hrecord : record ∈ mailboxes.filter (·.name == mailbox) := by
          rw [hmatches]
          exact List.mem_cons_self
        obtain ⟨hmem, hname⟩ := List.mem_filter.mp hrecord
        exact ⟨List.mem_map.mpr ⟨record, hmem, by simpa using hname⟩, hw⟩
      · exact fun w hw _ => hw
  · exact Exec.Triple.raise fun _ hw => hw

/-- The target does not lie below one of the drawn names. -/
def FreshTokens (tokens : Nat → String) (target : String) : Prop :=
  ∀ attempt, ("MaddyWeb Quarantine " ++ tokens attempt ++ "/").toList.isPrefixOf target.toList =
    false

theorem plan_of_checks {names : List String} (hfresh : FreshTokens tokens target)
    (hmailbox : mailbox ∈ names)
    (hchildren : ∀ name ∈ names, (mailbox ++ "/").toList.isPrefixOf name.toList = false)
    (hne : mailbox ≠ target) (htarget : target ∈ names)
    (hquarantine : newMailboxQuarantineName tokens names = some quarantine) :
    Plan mailbox quarantine target ∧
      ∃ attempt, quarantine = "MaddyWeb Quarantine " ++ tokens attempt := by
  have hnew : quarantine ∉ names := by simpa using List.find?_some hquarantine
  obtain ⟨attempt, -, rfl⟩ := List.mem_map.mp (List.mem_of_find?_eq_some hquarantine)
  have htargetNew : target ≠ "MaddyWeb Quarantine " ++ tokens attempt := by
    intro heq
    exact hnew (heq ▸ htarget)
  refine ⟨⟨?_, hne.symm, htargetNew, ?_, ?_⟩, attempt, rfl⟩
  · intro heq
    exact hnew (heq ▸ hmailbox)
  · exact renamed_eq_self hne.symm (hchildren target htarget)
  · exact renamed_eq_self htargetNew (hfresh attempt)

theorem planMigration_triple (hfresh : FreshTokens tokens target) :
    Exec.Triple (Untouched originals clients mailbox)
      (planMigration casefold tokens username mailbox target)
      (fun quarantine w => (Plan mailbox quarantine target ∧
        ∃ attempt, quarantine = "MaddyWeb Quarantine " ++ tokens attempt) ∧
        Untouched originals clients mailbox w)
      (fun _ => Untouched originals clients mailbox) := by
  unfold planMigration safePositional
  refine Exec.Triple.ensure_bind (fun _ hw => hw) ?_
  intro _
  refine Exec.Triple.ensure_bind (fun _ hw => hw) ?_
  intro _
  refine Exec.Triple.ensure_bind (fun _ hw => hw) ?_
  intro _
  apply @Exec.Triple.bind _ _ _ _ _ fun _ => Untouched originals clients mailbox
  · apply invoke_triple quiet_untouched.stable
    · intro w hw _
      exact quiet_untouched.read w _ _ rfl hw
    · intro w e mail hw houtcome
      rw [houtcome.eq_of_isReading rfl]
      exact quiet_untouched.read w _ _ rfl hw
  intro mailboxes
  apply Exec.Triple.bind requireMutableMailbox_triple
  intro _
  apply Exec.Triple.assume
  intro hmailbox
  refine Exec.Triple.ensure_bind (fun _ hw => hw) ?_
  intro hchildren
  refine Exec.Triple.ensure_bind (fun _ hw => hw) ?_
  intro hne
  refine Exec.Triple.ensure_bind (fun _ hw => hw) ?_
  intro htarget w hw
  unfold Exec.require
  cases hquarantine : newMailboxQuarantineName tokens (mailboxes.map (·.name)) with
  | none => exact hw
  | some quarantine =>
      refine ⟨plan_of_checks hfresh hmailbox ?_ (by simpa using hne) ?_ hquarantine, hw⟩
      · intro name hname
        obtain ⟨record, hrecord, rfl⟩ := List.mem_map.mp hname
        simp only [Bool.not_eq_true', List.any_eq_false, Bool.not_eq_true] at hchildren
        exact hchildren record hrecord
      · have hpositive : 0 < (mailboxes.filter (·.name == target)).length := by
          rw [beq_iff_eq] at htarget
          omega
        obtain ⟨record, hrecord⟩ := List.exists_mem_of_length_pos hpositive
        obtain ⟨hmem, hname⟩ := List.mem_filter.mp hrecord
        exact List.mem_map.mpr ⟨record, hmem, by simpa using hname⟩

/-- The command renames a mailbox onto one of this name. -/
def Event.renamesOnto (mailbox : String) : Event → Bool
  | .command (.rename _ dst) mail _ => dst == mailbox && mail.names.contains mailbox
  | _ => false

def Event.removes (mailbox : String) : Event → Bool
  | .command (.remove name) _ _ => name == mailbox
  | _ => false

/-- Deleting the mailbox has lost no mail, and has left alone what the clients created again. -/
structure LosesNoMail (originals : List Nat) (mailbox quarantine target : String)
    (r : Except ServiceError Unit) (w : World) : Prop where
  held : ∀ id, Tracked originals mailbox quarantine w.log id →
    Held mailbox quarantine target w.mail id
  returned : r = .ok () → mailbox ∉ w.mail.names ∧ quarantine ∉ w.mail.names ∧
    ∀ id ∈ originals, Holds w.mail target id
  unremoved : ∀ event ∈ w.log, event.removes mailbox = false
  spared : ∀ event ∈ w.log, event.renamesOnto mailbox = false

/-- No client creates the mailbox again right before a command that renames onto it, that is
after the listing of the restoration. -/
def Undisturbed (mailbox : String) (clients : Nat → List ClientAction) (log : List Event) : Prop :=
  ∀ before src mail succeeded after,
    log = before ++ .command (.rename src mailbox) mail succeeded :: after →
    .recreate ∉ clients (commandsIn before)

theorem unremoved_of_guarded {log : List Event}
    (h : Guarded (guard clients mailbox quarantine) log) :
    ∀ event ∈ log, event.removes mailbox = false := by
  intro event hevent
  obtain ⟨before, after, hlog⟩ := List.append_of_mem hevent
  have hguard := h before event after hlog
  unfold Event.removes
  split
  · exact beq_eq_false_iff_ne.mpr hguard.2
  · rfl

theorem spared_iff_undisturbed {log : List Event}
    (h : Guarded (guard clients mailbox quarantine) log) :
    (∀ event ∈ log, event.renamesOnto mailbox = false) ↔ Undisturbed mailbox clients log := by
  constructor
  · intro hspared before src mail succeeded after hlog hrecreate
    have hevent := hspared _ (hlog ▸ List.mem_append_right before List.mem_cons_self)
    rcases h before _ after hlog with ⟨-, -, hdst⟩ | ⟨-, -, -, hthere⟩
    · exact hdst rfl
    · rw [Event.renamesOnto, beq_self_eq_true, Bool.true_and] at hevent
      rw [List.contains_iff_mem.mpr (hthere.mpr hrecreate)] at hevent
      cases hevent
  · intro hundisturbed event hevent
    obtain ⟨before, after, hlog⟩ := List.append_of_mem hevent
    unfold Event.renamesOnto
    split
    · next src dst mail succeeded =>
        rw [Bool.and_eq_false_imp, beq_iff_eq]
        rintro rfl
        rcases h before _ after hlog with ⟨-, -, hdst⟩ | ⟨-, -, -, hthere⟩
        · exact absurd rfl hdst
        · have habsent := mt hthere.mp (hundisturbed before src mail succeeded after hlog)
          simpa using habsent
    · rfl

theorem Safe.losesNoMail_iff {r : Except ServiceError Unit}
    (h : Safe originals clients mailbox quarantine target w)
    (hreturned : r = .ok () → mailbox ∉ w.mail.names ∧ quarantine ∉ w.mail.names ∧
      ∀ id ∈ originals, Holds w.mail target id) :
    LosesNoMail originals mailbox quarantine target r w ↔
      Undisturbed mailbox clients w.log := by
  constructor
  · intro hkept
    exact (spared_iff_undisturbed h.guarded).mp hkept.spared
  · intro hundisturbed
    exact ⟨h.held, hreturned, unremoved_of_guarded h.guarded,
      (spared_iff_undisturbed h.guarded).mpr hundisturbed⟩

/-- On every schedule of commands and clients the deletion loses no mail, and leaves alone what
was created again exactly when nothing is created between the listing and the rename of the
restoration; what was created again is never removed or replaced. -/
theorem migration_loses_no_mail (casefold : String → String) (tokens : Nat → String)
    (username mailbox target : String) (hfresh : FreshTokens tokens target) (mail : Mail)
    (reactions : Nat → Reaction) (clients : Nat → List ClientAction)
    (r : Except ServiceError Unit) (w : World)
    (hrun : migrateAndDeleteMailbox casefold tokens username mailbox target
      (.start mail mailbox reactions clients) = (r, w)) :
    ∃ quarantine attempt, quarantine = "MaddyWeb Quarantine " ++ tokens attempt ∧
      (LosesNoMail (mail.contents mailbox) mailbox quarantine target r w ↔
        Undisturbed mailbox clients w.log) ∧
      (∀ id, Tracked (mail.contents mailbox) mailbox quarantine w.log id →
        Held mailbox quarantine target w.mail id) ∧
      (r = .ok () → mailbox ∉ w.mail.names ∧ quarantine ∉ w.mail.names ∧
        ∀ id ∈ mail.contents mailbox, Holds w.mail target id) ∧
      Guarded (guard clients mailbox quarantine) w.log ∧ RecreatedKept mailbox w := by
  have htriple : Exec.Triple (Untouched (mail.contents mailbox) clients mailbox)
      (migrateAndDeleteMailbox casefold tokens username mailbox target)
      (fun _ w => ∃ quarantine attempt, quarantine = "MaddyWeb Quarantine " ++ tokens attempt ∧
        Safe (mail.contents mailbox) clients mailbox quarantine target w ∧
        AllIn (mail.contents mailbox) target w.mail ∧
        mailbox ∉ w.mail.names ∧ quarantine ∉ w.mail.names)
      (fun _ w => ∃ quarantine attempt, quarantine = "MaddyWeb Quarantine " ++ tokens attempt ∧
        Safe (mail.contents mailbox) clients mailbox quarantine target w) := by
    unfold migrateAndDeleteMailbox
    apply Exec.Triple.bind ((planMigration_triple hfresh).conseq (fun _ hw => hw)
      (fun _ _ hw => hw) fun _ w hw => ⟨_, 0, rfl, hw.1 _ _⟩)
    intro quarantine
    apply Exec.Triple.assume
    rintro ⟨hplan, attempt, hattempt⟩
    apply exceptMaddyError_triple
    · apply (migrateMailbox_triple hplan).conseq (fun w hw => ⟨hw.1 _ _, hw.2⟩) _ fun _ _ hw => hw
      exact fun _ w hw => ⟨quarantine, attempt, hattempt, hw⟩
    · intro e _
      apply Exec.Triple.bind ((restoreMailboxQuarantine_triple hplan).conseq (fun _ hw => hw)
        (fun _ _ hw => hw) fun _ _ hw => hw.elim)
      intro _
      exact Exec.Triple.raise fun w hw => ⟨quarantine, attempt, hattempt, hw⟩
  have hresult := htriple _ (@untouched_start mail mailbox reactions clients)
  rw [hrun] at hresult
  cases r with
  | ok _ =>
      obtain ⟨quarantine, attempt, hattempt, hsafe, hall, hgone, hquarantine⟩ := hresult
      have hreturned := And.intro hgone (And.intro hquarantine hall)
      exact ⟨quarantine, attempt, hattempt, hsafe.losesNoMail_iff fun _ => hreturned, hsafe.held,
        fun _ => hreturned, hsafe.guarded, hsafe.kept⟩
  | error e =>
      obtain ⟨quarantine, attempt, hattempt, hsafe⟩ := hresult
      exact ⟨quarantine, attempt, hattempt, hsafe.losesNoMail_iff nofun, hsafe.held, nofun,
        hsafe.guarded, hsafe.kept⟩

end Checks

def sampleMail : Mail where
  boxes := [("INBOX", .empty []), ("Projects", (Box.empty []).deliverAll [1, 2, 3])]
  distinct := by decide

theorem freshTokens_sample : FreshTokens (fun _ => "0f") "INBOX" := by
  intro _
  show ("MaddyWeb Quarantine " ++ "0f" ++ "/").toList.isPrefixOf "INBOX".toList = false
  decide +kernel

/-- The copy times out after one message, and a message comes into the quarantine before it. -/
def sampleReactions (n : Nat) : Reaction :=
  if n = 4 then ⟨some .commandTimeout, true, fun uid => uid == 2⟩ else ⟨none, true, fun _ => true⟩

def sampleClients (n : Nat) : List ClientAction :=
  if n = 4 then [.deliver "MaddyWeb Quarantine 0f" 7] else []

theorem migration_loses_no_mail_sample :
    ∃ r w, migrateAndDeleteMailbox String.toLower (fun _ => "0f") "ann@example.org" "Projects"
        "INBOX" (.start sampleMail "Projects" sampleReactions sampleClients) = (r, w) ∧
      r = .error (.command .commandTimeout) ∧
      ∃ quarantine, LosesNoMail [1, 2, 3] "Projects" quarantine "INBOX" r w := by
  refine ⟨_, _, rfl, by decide +kernel, ?_⟩
  obtain ⟨quarantine, -, -, hiff, -⟩ := migration_loses_no_mail String.toLower (fun _ => "0f")
    "ann@example.org" "Projects" "INBOX" freshTokens_sample sampleMail sampleReactions
    sampleClients _ _ rfl
  refine ⟨quarantine, hiff.mpr ?_⟩
  intro before _ _ _ _ _
  unfold sampleClients
  split
  · decide
  · exact List.not_mem_nil

/-- The first rename times out, and the mailbox is created again after the listing that follows. -/
def lateReactions (n : Nat) : Reaction :=
  if n = 1 then ⟨some .commandTimeout, true, fun _ => true⟩ else ⟨none, true, fun _ => true⟩

def lateClients (n : Nat) : List ClientAction := if n = 3 then [.recreate] else []

theorem restoration_renames_onto_recreated :
    ∃ r w, migrateAndDeleteMailbox String.toLower (fun _ => "0f") "ann@example.org" "Projects"
        "INBOX" (.start sampleMail "Projects" lateReactions lateClients) = (r, w) ∧
      r = .error (.command .commandTimeout) ∧
      ∀ quarantine, ¬ LosesNoMail [1, 2, 3] "Projects" quarantine "INBOX" r w := by
  refine ⟨_, _, rfl, by decide +kernel, ?_⟩
  intro quarantine h
  have hspared := List.all_eq_true.mpr fun event hevent =>
    Bool.not_eq_true' _ ▸ h.spared event hevent
  revert hspared
  decide +kernel

end MaddyWeb.Maddy.Mailboxes
