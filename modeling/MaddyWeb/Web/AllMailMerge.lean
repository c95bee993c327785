import MaddyWeb.Web.AllMail
import MaddyWeb.Library.Distinct

/-!
# All Mail is the merge of its mailboxes

However the gateway cuts its pages, the pages of the view together are the merge
of the mailboxes by the keys of their first messages.
-/

namespace MaddyWeb.Web

open MaddyWeb.Library

/-! ## Mailboxes and gateways -/

def uidOf (record : Json) : Nat :=
  match allMailResumeOffset record with
  | .ok uid => uid
  | .error _ => 0

/-- A mailbox, newest message first. -/
structure MailStream where
  messages : List Json
  uids : ∀ record ∈ messages, allMailResumeOffset record = .ok (uidOf record)
  descending : messages.Pairwise fun x y => uidOf y < uidOf x

/-- What a request with this offset reads. -/
def MailStream.startingAt (stream : MailStream) (offset : Nat) : List Json :=
  if offset = 0 then stream.messages else stream.messages.dropWhile (uidOf · != offset)

def offsetValue : Option Nat → Json
  | none => .null
  | some offset => .int offset

/-- The reply shows these messages and this continuation. -/
def PageReply.Shows : PageReply → List Json → Option Nat → Nat → Prop
  | .page items hasNext nextOffset offset, messages, next, start =>
      items = .arr messages ∧ hasNext = next.isSome ∧ nextOffset = offsetValue next ∧
        offset = .int start
  | .mapping fields, messages, next, start =>
      Json.get? fields "items" = some (.arr messages) ∧
        Json.get? fields "next_offset" = some (offsetValue next) ∧
        Json.get? fields "offset" = some (.int start) ∧
        (Json.get? fields "has_next" = none ∨
          Json.get? fields "has_next" = some (.bool next.isSome))

/-- The anchor of a page: its first message when the request does not name one. -/
def anchor (messages : List Json) (offset : Nat) : Nat :=
  if offset = 0 then (messages.head?.map uidOf).getD 0 else offset

/-- The gateway cuts a page of at most `limit` messages, and an empty one only at the end. -/
def Answers (messages : List Json) (limit offset : Nat) (reply : PageReply) : Prop :=
  ∃ k ≤ limit, (messages ≠ [] → 1 ≤ k) ∧
    reply.Shows (messages.take k) ((messages.drop k).head?.map uidOf) (anchor messages offset)

def MailStream.Knows (stream : MailStream) (offset : Nat) : Prop :=
  offset = 0 ∨ ∃ record ∈ stream.messages, uidOf record = offset

/-- Every request that continues at a message of its mailbox is answered. -/
def Serves (gateway : Gateway) (streams : List (String × MailStream)) : Prop :=
  ∀ entry ∈ streams, ∀ count limit offset, 1 ≤ limit → entry.2.Knows offset →
    ∃ reply, gateway count entry.1 limit offset = .ok reply ∧
      Answers (entry.2.startingAt offset) limit offset reply

theorem normalizedMessageUid_bounds {text : List Char} {uid : Nat}
    (h : normalizedMessageUid text = some uid) : 1 ≤ uid ∧ uid ≤ maxMessageCursor := by
  unfold normalizedMessageUid at h
  split at h
  · next hvalid =>
      cases h
      exact ⟨hvalid.2.2.2.2.1, hvalid.2.2.2.2.2⟩
  · cases h

theorem allMailResumeOffset_bounds {record : Json} {uid : Nat}
    (h : allMailResumeOffset record = .ok uid) : 1 ≤ uid ∧ uid ≤ maxMessageCursor := by
  unfold allMailResumeOffset at h
  split at h
  · next value hvalue =>
      cases h
      obtain ⟨text, -, htext⟩ := Option.bind_eq_some_iff.mp hvalue
      exact normalizedMessageUid_bounds htext
  · cases h

variable {streams : List (String × MailStream)} {gateway : Gateway}

theorem MailStream.uid_bounds (stream : MailStream) {record : Json}
    (h : record ∈ stream.messages) : 1 ≤ uidOf record ∧ uidOf record ≤ maxMessageCursor :=
  allMailResumeOffset_bounds (stream.uids record h)

/-- A request that names a message reads from that message on. -/
theorem MailStream.startingAt_head (stream : MailStream) {record : Json} {messages : List Json}
    (h : record :: messages <:+ stream.messages) :
    stream.startingAt (uidOf record) = record :: messages := by
  obtain ⟨before, hbefore⟩ := h
  have hmem : record ∈ stream.messages := by
    rw [← hbefore]
    exact List.mem_append_right _ List.mem_cons_self
  have hpos := (stream.uid_bounds hmem).1
  have hdescending := stream.descending
  unfold MailStream.startingAt
  rw [if_neg (by omega), ← hbefore]
  rw [← hbefore, List.pairwise_append] at hdescending
  rw [List.dropWhile_append_of_pos]
  · rw [List.dropWhile_cons_of_neg]
    simp
  · intro other hother
    have hlt := hdescending.2.2 other hother record List.mem_cons_self
    simp only [bne_iff_ne, ne_eq]
    omega

theorem MailStream.startingAt_suffix (stream : MailStream) (offset : Nat) :
    stream.startingAt offset <:+ stream.messages := by
  unfold MailStream.startingAt
  split
  · exact List.suffix_refl _
  · exact List.dropWhile_suffix _

/-- The validation lets the reply through. -/
theorem messagePage_of_shows {reply : PageReply} {messages : List Json} {next : Option Nat}
    {start : Nat} (h : reply.Shows messages next start) (hstart : start ≤ maxMessageCursor)
    (hnext : ∀ offset ∈ next, 1 ≤ offset ∧ offset < start) :
    messagePage reply = .ok ⟨messages, next.isSome, next, start⟩ := by
  have hcheck : ∀ hasNext : Option Json, hasNext = none ∨ hasNext = some (.bool next.isSome) →
      checkPage (.arr messages) (offsetValue next) (.int start) hasNext =
        .ok ⟨messages, next.isSome, next, start⟩ := by
    intro hasNext hhasNext
    unfold checkPage
    have hstart' : (0 : Int) ≤ start ∧ (start : Int) ≤ maxMessageCursor := by omega
    cases next with
    | none => rcases hhasNext with rfl | rfl <;> simp [offsetValue, hstart', pure, Except.pure,
        bind, Except.bind]
    | some offset =>
        obtain ⟨hpos, hlt⟩ := hnext offset rfl
        have hoffset : (1 : Int) ≤ offset ∧ (offset : Int) ≤ maxMessageCursor := by omega
        have hbefore : ¬ (start = 0 ∨ start ≤ offset) := by omega
        rcases hhasNext with rfl | rfl <;> simp [offsetValue, hstart', hoffset, hbefore, pure,
          Except.pure, bind, Except.bind]
  cases reply with
  | page items hasNext nextOffset offset =>
      obtain ⟨rfl, rfl, rfl, rfl⟩ := h
      exact hcheck _ (Or.inr rfl)
  | mapping fields =>
      obtain ⟨hitems, hnextOffset, hoffset, hhasNext⟩ := h
      unfold messagePage
      dsimp only
      rw [hitems, hnextOffset, hoffset]
      exact hcheck _ hhasNext

/-- The anchor is the first message. -/
theorem MailStream.anchor_startingAt (stream : MailStream) {offset : Nat}
    (hoffset : stream.Knows offset) :
    anchor (stream.startingAt offset) offset =
      ((stream.startingAt offset).head?.map uidOf).getD 0 := by
  unfold anchor
  split
  · rfl
  · next hne =>
      rcases hoffset with rfl | ⟨record, hrecord, rfl⟩
      · exact absurd rfl hne
      · obtain ⟨before, after, hsplit⟩ := List.append_of_mem hrecord
        have hsuffix : record :: after <:+ stream.messages := ⟨before, hsplit.symm⟩
        rw [stream.startingAt_head hsuffix]
        rfl

/-- What `fetch` returns for the messages from an offset on. -/
structure Fetched (messages : List Json) (page : MessagePage) : Prop where
  parts : ∃ after, messages = page.items ++ after ∧ page.nextOffset = after.head?.map uidOf
  nonempty : messages ≠ [] → page.items ≠ []

theorem fetch_eq {mailbox : String} {offset limit count : Nat} {reply : PageReply}
    {page : MessagePage} (hreply : gateway count mailbox limit offset = .ok reply)
    (hpage : messagePage reply = .ok page) (hlength : page.items.length ≤ limit)
    (hempty : page.items = [] → page.nextOffset = none) :
    fetch gateway mailbox offset limit count = (.ok page, count + 1) := by
  have hrequest : request gateway mailbox limit offset count = (.ok reply, count + 1) := by
    unfold request
    rw [hreply]
  have hcontinues : (!(page.items.isEmpty && page.nextOffset.isSome)) = true := by
    cases hitems : page.items with
    | nil => simp [hempty hitems]
    | cons item items => rfl
  unfold fetch
  rw [Exec.bind_of_ok hrequest, hpage]
  apply Exec.ensure_bind_of (decide_eq_true hlength)
  apply Exec.ensure_bind_of hcontinues
  rfl

theorem fetch_spec (hserves : Serves gateway streams) {entry : String × MailStream}
    (hentry : entry ∈ streams) {offset limit : Nat} (hlimit : 1 ≤ limit)
    (hoffset : entry.2.Knows offset) (count : Nat) :
    ∃ page, fetch gateway entry.1 offset limit count = (.ok page, count + 1) ∧
      Fetched (entry.2.startingAt offset) page := by
  obtain ⟨reply, hreply, k, hk, hpos, hshows⟩ := hserves entry hentry count limit offset hlimit
    hoffset
  obtain ⟨mailbox, stream⟩ := entry
  dsimp only at hreply hshows hpos hoffset ⊢
  rw [stream.anchor_startingAt hoffset] at hshows
  have hsuffix := stream.startingAt_suffix offset
  generalize stream.startingAt offset = messages at hshows hpos hsuffix ⊢
  have hdescending := stream.descending.sublist hsuffix.sublist
  have hbounds : ∀ record ∈ messages, 1 ≤ uidOf record ∧ uidOf record ≤ maxMessageCursor :=
    fun record hrecord => stream.uid_bounds (hsuffix.subset hrecord)
  have hanchor : (messages.head?.map uidOf).getD 0 ≤ maxMessageCursor := by
    cases messages with
    | nil => exact Nat.zero_le _
    | cons record messages => exact (hbounds record List.mem_cons_self).2
  have hnext : ∀ next ∈ (messages.drop k).head?.map uidOf,
      1 ≤ next ∧ next < (messages.head?.map uidOf).getD 0 := by
    intro next hnext
    obtain ⟨record, hrecord, rfl⟩ := Option.map_eq_some_iff.mp hnext
    have hmem := List.mem_of_mem_head? hrecord
    cases messages with
    | nil => simp at hrecord
    | cons first messages =>
        obtain ⟨k, rfl⟩ := Nat.exists_eq_succ_of_ne_zero (Nat.pos_iff_ne_zero.mp (hpos (by simp)))
        rw [List.drop_succ_cons] at hmem
        have hlater := List.mem_of_mem_drop hmem
        exact ⟨(hbounds record (List.mem_cons_of_mem _ hlater)).1,
          List.rel_of_pairwise_cons hdescending hlater⟩
  have hpage := messagePage_of_shows hshows hanchor hnext
  have hfirst : messages ≠ [] → messages.take k ≠ [] := by
    intro hne heq
    rcases List.take_eq_nil_iff.mp heq with hzero | hnil
    · have := hpos hne
      omega
    · exact hne hnil
  refine ⟨_, fetch_eq hreply hpage ?_ ?_, ⟨messages.drop k, (List.take_append_drop k _).symm, rfl⟩,
    hfirst⟩
  · exact Nat.le_trans (List.length_take_le k messages) hk
  · intro hnil
    by_cases hne : messages = []
    · rw [hne]
      simp
    · exact absurd hnil (hfirst hne)

/-! ## Buffers -/

/-- A buffer and the messages of its mailbox that have not been selected. -/
structure Holds (streams : List (String × MailStream)) (entry : String × Buffer)
    (unseen : String × List Json) : Prop where
  mailbox : entry.1 = unseen.1
  parts : ∃ after, unseen.2 = entry.2.left ++ after ∧
    entry.2.page.nextOffset = after.head?.map uidOf
  stream : ∃ stream, (unseen.1, stream) ∈ streams ∧ unseen.2 <:+ stream.messages

/-- The buffer holds the next message of its mailbox, if there is one. -/
def Buffer.Ready (buffer : Buffer) : Prop := buffer.left = [] → buffer.page.nextOffset = none

variable {buffers : Buffers} {unseen : List (String × List Json)}

theorem keys_of_holds (h : List.Forall₂ (Holds streams) buffers unseen) :
    buffers.map (·.1) = unseen.map (·.1) := by
  induction h with
  | nil => rfl
  | cons hentry _ ih => rw [List.map_cons, List.map_cons, hentry.mailbox, ih]

theorem heads_of_holds (h : List.Forall₂ (Holds streams) buffers unseen)
    (hready : ∀ entry ∈ buffers, entry.2.Ready) : buffers.heads = Merge.heads unseen := by
  induction h with
  | nil => rfl
  | @cons entry mailbox buffers unseen hentry h ih =>
      have hheads := ih fun entry hentry => hready entry (List.mem_cons_of_mem _ hentry)
      unfold Buffers.heads Merge.heads at hheads ⊢
      rw [List.filterMap_cons, List.filterMap_cons, hheads, hentry.mailbox]
      obtain ⟨after, hparts, hnext⟩ := hentry.parts
      have hhead : entry.2.left.head? = mailbox.2.head? := by
        cases hleft : entry.2.left with
        | nil =>
            rw [hready entry List.mem_cons_self hleft] at hnext
            rw [hparts, hleft, List.nil_append]
            exact (Option.map_eq_none_iff.mp hnext.symm).symm
        | cons record left =>
            rw [hparts, hleft]
            rfl
      rw [hhead]

/-- Every message but the first stays unseen. -/
theorem holds_advance (hkeys : (unseen.map (·.1)).Nodup)
    (h : List.Forall₂ (Holds streams) buffers unseen) {mailbox : String} {record : Json}
    (hhead : (mailbox, record) ∈ buffers.heads) :
    List.Forall₂ (Holds streams) (buffers.advance mailbox) (Merge.pop mailbox unseen) := by
  have hleft : ∀ entry ∈ buffers, entry.1 = mailbox → ∃ left, entry.2.left = record :: left := by
    intro entry hentry hname
    unfold Buffers.heads at hhead
    obtain ⟨other, hother, heq⟩ := List.mem_filterMap.mp hhead
    obtain ⟨first, hfirst, heq⟩ := Option.map_eq_some_iff.mp heq
    cases heq
    rw [← keys_of_holds h] at hkeys
    rw [List.inj_on_of_nodup_map hkeys hentry hother hname]
    exact ⟨other.2.left.tail, (List.cons_head?_tail hfirst).symm⟩
  unfold Buffers.advance Merge.pop
  clear hkeys hhead
  induction h with
  | nil => exact List.Forall₂.nil
  | @cons entry mine buffers unseen hentry h ih =>
      rw [List.map_cons, List.map_cons]
      apply List.Forall₂.cons _ (ih fun entry hentry => hleft entry (List.mem_cons_of_mem _ hentry))
      rw [hentry.mailbox]
      split
      · next hname =>
          obtain ⟨left, hleft⟩ := hleft entry List.mem_cons_self (hentry.mailbox.trans hname)
          obtain ⟨after, hparts, hnext⟩ := hentry.parts
          obtain ⟨stream, hstream, hsuffix⟩ := hentry.stream
          have hdrop : Buffer.left { entry.2 with position := entry.2.position + 1 } = left := by
            unfold Buffer.left at hleft ⊢
            rw [← List.tail_drop, hleft]
            rfl
          refine ⟨rfl, ⟨after, ?_, hnext⟩, ⟨stream, hstream, ?_⟩⟩
          · rw [hdrop, hparts, hleft]
            rfl
          · exact (List.tail_suffix _).trans hsuffix
      · exact hentry

/-- A page that continues where the buffer of its mailbox ended. -/
theorem holds_refill (h : List.Forall₂ (Holds streams) buffers unseen) {mailbox : String}
    {page : MessagePage} (hpage : ∀ mine ∈ unseen, mine.1 = mailbox → Fetched mine.2 page) :
    List.Forall₂ (Holds streams)
      (buffers.map fun entry => if entry.1 = mailbox then (entry.1, ⟨page, 0⟩) else entry)
      unseen := by
  induction h with
  | nil => exact List.Forall₂.nil
  | @cons entry mine buffers unseen hentry h ih =>
      rw [List.map_cons]
      apply List.Forall₂.cons _ (ih fun mine hmine => hpage mine (List.mem_cons_of_mem _ hmine))
      split
      · next hname =>
          have hfetched := hpage mine List.mem_cons_self (hentry.mailbox.symm.trans hname)
          exact ⟨hentry.mailbox, hfetched.parts, hentry.stream⟩
      · exact hentry

theorem mem_of_forall₂ {α β : Type} {R : α → β → Prop} {xs : List α} {ys : List β}
    (h : List.Forall₂ R xs ys) {x : α} (hx : x ∈ xs) : ∃ y ∈ ys, R x y := by
  induction h with
  | nil => cases hx
  | @cons x' y xs ys hxy _ ih =>
      rcases List.mem_cons.mp hx with rfl | hx
      · exact ⟨y, List.mem_cons_self, hxy⟩
      · obtain ⟨y, hy, hR⟩ := ih hx
        exact ⟨y, List.mem_cons_of_mem _ hy, hR⟩

/-- The entry whose first message has been selected. -/
theorem mem_advance {mailbox : String} {record : Json} (hhead : (mailbox, record) ∈ buffers.heads) :
    ∃ buffer, (mailbox, buffer) ∈ buffers.advance mailbox ∧
      buffer.position ≤ buffer.page.items.length := by
  unfold Buffers.heads at hhead
  obtain ⟨entry, hentry, heq⟩ := List.mem_filterMap.mp hhead
  obtain ⟨first, hfirst, heq⟩ := Option.map_eq_some_iff.mp heq
  cases heq
  refine ⟨{ entry.2 with position := entry.2.position + 1 },
    List.mem_map.mpr ⟨entry, hentry, if_pos rfl⟩, ?_⟩
  by_contra hlong
  dsimp only at hlong
  have hnil : entry.2.left = [] := List.drop_eq_nil_of_le (by omega)
  rw [hnil] at hfirst
  cases hfirst

theorem keys_advance (buffers : Buffers) (mailbox : String) :
    (buffers.advance mailbox).map (·.1) = buffers.map (·.1) := by
  unfold Buffers.advance
  rw [List.map_map]
  apply List.map_congr_left
  intro entry _
  rw [Function.comp_apply]
  split <;> rfl

theorem mem_of_mem_advance {mailbox : String} {entry : String × Buffer}
    (h : entry ∈ buffers.advance mailbox) (hname : entry.1 ≠ mailbox) : entry ∈ buffers := by
  obtain ⟨other, hother, rfl⟩ := List.mem_map.mp h
  by_cases hsame : other.1 = mailbox
  · rw [if_pos hsame] at hname
    exact absurd hsame hname
  · rw [if_neg hsame]
    exact hother

/-- Selecting a message leaves the other buffers ready. -/
theorem ready_advance (hkeys : (buffers.map (·.1)).Nodup)
    (hready : ∀ entry ∈ buffers, entry.2.Ready)
    {mailbox : String} {buffer : Buffer} (hbuffer : (mailbox, buffer) ∈ buffers.advance mailbox)
    (hmine : buffer.Ready) : ∀ entry ∈ buffers.advance mailbox, entry.2.Ready := by
  intro entry hentry
  by_cases hname : entry.1 = mailbox
  · rw [← keys_advance buffers mailbox] at hkeys
    rw [List.inj_on_of_nodup_map hkeys hentry hbuffer hname]
    exact hmine
  · exact hready entry (mem_of_mem_advance hentry hname)

theorem ready_refill (hready : ∀ entry ∈ buffers, entry.2.Ready) {mailbox : String}
    {page : MessagePage} (hpage : page.items ≠ []) :
    ∀ entry ∈ (buffers.advance mailbox).map fun entry =>
      if entry.1 = mailbox then (entry.1, ⟨page, 0⟩) else entry, entry.2.Ready := by
  intro entry hentry
  obtain ⟨other, hother, rfl⟩ := List.mem_map.mp hentry
  split
  · exact fun hleft => absurd hleft hpage
  · next hname => exact hready other (mem_of_mem_advance hother hname)

theorem ready_of_position {buffer : Buffer} (hle : buffer.position ≤ buffer.page.items.length)
    (hne : buffer.position ≠ buffer.page.items.length) : buffer.Ready := by
  intro hleft
  have hlength := List.drop_eq_nil_iff.mp hleft
  omega

/-- The continuation of an exhausted buffer. -/
theorem Holds.continues {entry : String × Buffer} {mine : String × List Json}
    (h : Holds streams entry mine) {next : Nat} (hleft : entry.2.left = [])
    (hnext : entry.2.page.nextOffset = some next) : ∃ stream, (mine.1, stream) ∈ streams ∧
      stream.Knows next ∧ stream.startingAt next = mine.2 ∧ mine.2 ≠ [] := by
  obtain ⟨after, hparts, hafter⟩ := h.parts
  obtain ⟨stream, hstream, hsuffix⟩ := h.stream
  rw [hleft, List.nil_append] at hparts
  rw [hnext] at hafter
  obtain ⟨record, hrecord, rfl⟩ := Option.map_eq_some_iff.mp hafter.symm
  obtain ⟨later, hlater⟩ : ∃ later, mine.2 = record :: later :=
    ⟨after.tail, hparts.trans (List.cons_head?_tail hrecord).symm⟩
  rw [hlater] at hsuffix ⊢
  refine ⟨stream, hstream, Or.inr ⟨record, ?_, rfl⟩, stream.startingAt_head hsuffix, by simp⟩
  exact hsuffix.subset List.mem_cons_self

/-! ## The loop -/

section View

variable {casefold : String → String} {candidates : Nat}

/-- What the loop has selected and what it leaves. -/
structure Selects (streams : List (String × MailStream)) (casefold : String → String)
    (unseen : List (String × List Json)) (missing : Nat) (before after : Selection) (n : Nat) :
    Prop where
  steps : n ≤ missing
  progress : 0 < missing → Merge.total unseen ≠ 0 → 0 < n
  selected : after.selected = before.selected ++ Merge.merge (headKeyLt casefold) n unseen
  holds : List.Forall₂ (Holds streams) after.buffers (Merge.rest (headKeyLt casefold) n unseen)

theorem selectMessages_spec (hserves : Serves gateway streams) (missing : Nat) :
    ∀ (state : Selection) (unseen : List (String × List Json)) (count : Nat),
      (unseen.map (·.1)).Nodup → List.Forall₂ (Holds streams) state.buffers unseen →
      (0 < missing → ∀ entry ∈ state.buffers, entry.2.Ready) →
      ∃ state' count' n, selectMessages casefold candidates gateway missing state count =
        (.ok state', count') ∧ Selects streams casefold unseen missing state state' n := by
  induction missing with
  | zero =>
      intro state unseen count _ hholds _
      refine ⟨state, count, 0, rfl, ⟨Nat.le_refl 0, by simp, ?_, hholds⟩⟩
      exact (List.append_nil _).symm
  | succ missing ih =>
      intro state unseen count hkeys hholds hready
      have hready := hready (Nat.succ_pos _)
      have hheads := heads_of_holds hholds hready
      unfold selectMessages
      rw [hheads]
      cases hfirst : Merge.first (headKeyLt casefold) (Merge.heads unseen) with
      | none =>
          refine ⟨state, count, 0, rfl, ⟨Nat.zero_le _, ?_, (List.append_nil _).symm, hholds⟩⟩
          intro _ htotal
          exact absurd (Merge.first_heads_eq_none.mp hfirst) htotal
      | some head =>
          obtain ⟨mailbox, record⟩ := head
          have hhead : (mailbox, record) ∈ state.buffers.heads :=
            hheads ▸ Merge.mem_of_first hfirst
          have hkeys' : ((state.buffers.advance mailbox).map (·.1)).Nodup := by
            rw [keys_advance, keys_of_holds hholds]
            exact hkeys
          have hunseen : ((Merge.pop mailbox unseen).map (·.1)).Nodup := by
            rw [Merge.keys_pop]
            exact hkeys
          have hadvanced := holds_advance hkeys hholds hhead
          obtain ⟨buffer, hbuffer, hposition⟩ := mem_advance hhead
          -- the steps after this one, when the buffers are ready for them
          have hcons : ∀ (buffers : Buffers) count,
              List.Forall₂ (Holds streams) buffers (Merge.pop mailbox unseen) →
              (0 < missing → ∀ entry ∈ buffers, entry.2.Ready) →
              ∃ state' count' n, selectMessages casefold candidates gateway missing
                ⟨buffers, state.selected ++ [(mailbox, record)]⟩ count = (.ok state', count') ∧
                Selects streams casefold unseen (missing + 1) state state' n := by
            intro buffers count hbuffers hready
            obtain ⟨state', count', n, hrun, hselects⟩ :=
              ih ⟨buffers, _⟩ _ count hunseen hbuffers hready
            refine ⟨state', count', n + 1, hrun, ⟨Nat.succ_le_succ hselects.steps,
              fun _ _ => Nat.succ_pos n, ?_, ?_⟩⟩
            · rw [hselects.selected, Merge.merge_succ, hfirst, List.append_assoc]
              rfl
            · rw [Merge.rest_succ, hfirst]
              exact hselects.holds
          dsimp only
          rw [Dict.get_eq_some hkeys' hbuffer]
          dsimp only
          have hallReady : buffer.Ready → ∀ entry ∈ state.buffers.advance mailbox, entry.2.Ready :=
            ready_advance (keys_of_holds hholds ▸ hkeys) hready hbuffer
          cases hnext : buffer.page.nextOffset with
          | none => exact hcons _ count hadvanced fun _ => hallReady fun _ => hnext
          | some next =>
              dsimp only
              split
              · next hexhausted =>
                  have hleft : buffer.left = [] :=
                    List.drop_eq_nil_of_le (Nat.le_of_eq hexhausted.1.symm)
                  split
                  · refine ⟨_, count, 1, rfl, ⟨Nat.succ_le_succ (Nat.zero_le _),
                      fun _ _ => Nat.one_pos, ?_, ?_⟩⟩
                    · rw [Merge.merge_succ, hfirst]
                      rfl
                    · rw [Merge.rest_succ, hfirst]
                      exact hadvanced
                  · next hrefill =>
                      obtain ⟨mine, hmine, hmineHolds⟩ := mem_of_forall₂ hadvanced hbuffer
                      obtain ⟨stream, hstream, hknows, hstart, hne⟩ :=
                        hmineHolds.continues hleft hnext
                      obtain ⟨page, hfetch, hfetched⟩ :=
                        fetch_spec hserves hstream (Nat.pos_of_ne_zero hrefill) hknows count
                      rw [hstart] at hfetched
                      have hname : mine.1 = mailbox := hmineHolds.mailbox.symm
                      rw [hname] at hfetch
                      rw [Exec.bind_of_ok hfetch, Dict.set_of_mem hbuffer]
                      apply hcons
                      · apply holds_refill hadvanced
                        intro other hother hsame
                        rw [List.inj_on_of_nodup_map hunseen hother hmine (hsame.trans hname.symm)]
                        exact hfetched
                      · exact fun _ => ready_refill hready (hfetched.nonempty hne)
              · next hmore =>
                  apply hcons _ count hadvanced
                  intro hmissing
                  apply hallReady
                  apply ready_of_position hposition
                  exact fun heq => hmore ⟨heq, hmissing⟩

/-! ## One page -/

/-- The request that continues where `unseen` starts. -/
def offsetsOf (unseen : List (String × List Json)) : List (String × Nat) :=
  (Merge.heads unseen).map fun head => (head.1, uidOf head.2)

theorem resumeOffset_of_holds {entry : String × Buffer} {mine : String × List Json}
    (h : Holds streams entry mine) : resumeOffset entry.2 = .ok (mine.2.head?.map uidOf) := by
  obtain ⟨after, hparts, hnext⟩ := h.parts
  obtain ⟨stream, -, hsuffix⟩ := h.stream
  unfold resumeOffset
  cases hleft : entry.2.left with
  | nil =>
      rw [hparts, hleft, List.nil_append, ← hnext]
      rfl
  | cons record left =>
      have hmem : record ∈ stream.messages := by
        apply hsuffix.subset
        rw [hparts, hleft]
        exact List.mem_cons_self
      rw [hparts, hleft]
      show (allMailResumeOffset record).map some = _
      rw [stream.uids record hmem]
      rfl

theorem nextOffsets_of_holds (hkeys : (buffers.map (·.1)).Nodup) {part : Buffers}
    (h : List.Forall₂ (Holds streams) part unseen) (hpart : ∀ entry ∈ part, entry ∈ buffers) :
    nextOffsets buffers (part.map (·.1)) = .ok (offsetsOf unseen) := by
  induction h with
  | nil => rfl
  | @cons entry mine part unseen hentry h ih =>
      have hget := Dict.get_eq_some hkeys (hpart entry List.mem_cons_self)
      have hothers := ih fun entry hentry => hpart entry (List.mem_cons_of_mem _ hentry)
      unfold offsetsOf Merge.heads at hothers ⊢
      rw [List.map_cons, nextOffsets, hget, hothers, List.filterMap_cons]
      dsimp only
      rw [resumeOffset_of_holds hentry, hentry.mailbox]
      cases hhead : mine.2.head? <;> rfl

/-- An offset and what it stands for. -/
structure Points (streams : List (String × MailStream)) (entry : String × Nat)
    (mine : String × List Json) : Prop where
  mailbox : entry.1 = mine.1
  stream : ∃ stream, (mine.1, stream) ∈ streams ∧ stream.Knows entry.2 ∧
    stream.startingAt entry.2 = mine.2

theorem fetchAll_spec (hserves : Serves gateway streams) {limit : Nat} (hlimit : 1 ≤ limit)
    {active : List (String × Nat)} (h : List.Forall₂ (Points streams) active unseen) :
    ∀ index count, ∃ pages count', Exec.forEach
      (fun _ entry => fetch gateway entry.1 entry.2 limit) index active count =
        (.ok pages, count') ∧
      List.Forall₂ (Holds streams)
        ((active.zip pages).map fun entry => (entry.1.1, ⟨entry.2, 0⟩)) unseen ∧
      ∀ entry ∈ (active.zip pages).map fun entry => (entry.1.1, (⟨entry.2, 0⟩ : Buffer)),
        entry.2.Ready := by
  induction h with
  | nil => exact fun index count => ⟨[], count, rfl, List.Forall₂.nil, by simp⟩
  | @cons entry mine active unseen hentry h ih =>
      intro index count
      obtain ⟨stream, hstream, hknows, hstart⟩ := hentry.stream
      obtain ⟨page, hfetch, hfetched⟩ := fetch_spec hserves hstream hlimit hknows count
      obtain ⟨pages, count', hpages, hholds, hready⟩ := ih (index + 1) (count + 1)
      rw [hstart] at hfetched
      rw [← hentry.mailbox] at hfetch
      refine ⟨page :: pages, count', ?_, List.Forall₂.cons ?_ hholds, ?_⟩
      · rw [Exec.forEach_cons, Exec.bind_of_ok hfetch, Exec.bind_of_ok hpages]
        rfl
      · refine ⟨hentry.mailbox, hfetched.parts, stream, hstream, ?_⟩
        rw [← hstart]
        exact stream.startingAt_suffix _
      · intro other hother
        rcases List.mem_cons.mp hother with rfl | hother
        · intro hleft
          obtain ⟨after, hparts, hnext⟩ := hfetched.parts
          by_cases hne : mine.2 = []
          · rw [hne] at hparts
            rw [hnext, (List.append_eq_nil_iff.mp hparts.symm).2]
            rfl
          · exact absurd hleft (hfetched.nonempty hne)
        · exact hready other hother

/-- The mailboxes that a continuation names, in the order of the view. -/
theorem active_eq {offsets : List (String × Nat)} {mailboxes : List String}
    (hsublist : (offsets.map (·.1)).Sublist mailboxes) (hnodup : mailboxes.Nodup) :
    (mailboxes.filterMap fun mailbox => (Dict.get offsets mailbox).map fun offset =>
      (mailbox, offset)) = offsets := by
  have hkeys : (offsets.map (·.1)).Nodup := hnodup.sublist hsublist
  have hpart : ∀ (mailboxes : List String) (part : List (String × Nat)),
      (part.map (·.1)).Sublist mailboxes → mailboxes.Nodup → (∀ entry ∈ part, entry ∈ offsets) →
      (∀ entry ∈ offsets, entry.1 ∈ mailboxes → entry ∈ part) →
      (mailboxes.filterMap fun mailbox => (Dict.get offsets mailbox).map fun offset =>
        (mailbox, offset)) = part := by
    intro mailboxes
    induction mailboxes with
    | nil =>
        intro part hsublist _ _ _
        exact (List.map_eq_nil_iff.mp (List.sublist_nil.mp hsublist)).symm
    | cons mailbox mailboxes ih =>
        intro part hsublist hnodup hsubset hmem
        obtain ⟨hnew, hothers⟩ := List.nodup_cons.mp hnodup
        rw [List.filterMap_cons]
        rcases List.sublist_cons_iff.mp hsublist with hskipped | ⟨names, heq, hnames⟩
        · have hnone : Dict.get offsets mailbox = none := by
            apply Dict.get_eq_none
            rintro entry hentry rfl
            have hpart := hmem entry hentry List.mem_cons_self
            exact hnew (hskipped.subset (List.mem_map_of_mem hpart))
          rw [hnone]
          exact ih part hskipped hothers hsubset fun entry hentry hname =>
            hmem entry hentry (List.mem_cons_of_mem _ hname)
        · cases part with
          | nil => cases heq
          | cons entry part =>
              obtain ⟨rfl, rfl⟩ := List.cons.inj heq
              rw [Dict.get_eq_some hkeys (hsubset entry List.mem_cons_self)]
              have hrest := ih part hnames hothers
                (fun other hother => hsubset other (List.mem_cons_of_mem _ hother))
              rw [Option.map_some, hrest]
              intro other hother hname
              rcases List.mem_cons.mp (hmem other hother (List.mem_cons_of_mem _ hname))
                with rfl | h
              · exact absurd hname hnew
              · exact h
  exact hpart mailboxes offsets hsublist hnodup (fun _ h => h) (fun _ h _ => h)

theorem keys_of_points {offsets : List (String × Nat)}
    (h : List.Forall₂ (Points streams) offsets unseen) :
    offsets.map (·.1) = unseen.map (·.1) := by
  induction h with
  | nil => rfl
  | cons hentry _ ih => rw [List.map_cons, List.map_cons, hentry.mailbox, ih]

/-- What one page shows, and where the next one continues. -/
structure Shown (streams : List (String × MailStream)) (casefold : String → String)
    (unseen : List (String × List Json)) (limit n : Nat) (page : AllMailPage) : Prop where
  steps : n ≤ limit
  progress : Merge.total unseen ≠ 0 → 0 < n
  items : page.items = Merge.merge (headKeyLt casefold) n unseen
  next : page.nextOffsets = offsetsOf (Merge.rest (headKeyLt casefold) n unseen)
  suffixes : ∀ mine ∈ Merge.rest (headKeyLt casefold) n unseen,
    ∃ stream, (mine.1, stream) ∈ streams ∧ mine.2 <:+ stream.messages

theorem listAllMailPage_spec (hserves : Serves gateway streams) {limit : Nat} (hlimit : 1 ≤ limit)
    {mailboxes : List String} {offsets : List (String × Nat)} (hnodup : mailboxes.Nodup)
    (hfew : mailboxes.length ≤ maxAllMailMailboxes)
    (hsublist : (offsets.map (·.1)).Sublist mailboxes)
    (hpoints : List.Forall₂ (Points streams) offsets unseen) (count : Nat) :
    ∃ page count' n, listAllMailPage casefold candidates gateway limit mailboxes offsets count =
      (.ok page, count') ∧ Shown streams casefold unseen limit n page := by
  unfold listAllMailPage
  have hkeys : (offsets.map (·.1)).Nodup := hnodup.sublist hsublist
  have hunseen : (unseen.map (·.1)).Nodup := keys_of_points hpoints ▸ hkeys
  by_cases hempty : (mailboxes.isEmpty || offsets.isEmpty) = true
  · have hoffsets : offsets = [] := by
      rcases Bool.or_eq_true _ _ ▸ hempty with hempty | hempty
      · rw [List.isEmpty_iff.mp hempty, List.sublist_nil] at hsublist
        exact List.map_eq_nil_iff.mp hsublist
      · exact List.isEmpty_iff.mp hempty
    subst hoffsets
    cases hpoints
    rw [if_pos hempty]
    exact ⟨_, count, 0, rfl, ⟨Nat.zero_le _, fun h => absurd rfl h, rfl, rfl, by simp [Merge.rest]⟩⟩
  · rw [if_neg hempty]
    have hvalid : ((offsets.map (·.1)).eraseDups.length == offsets.length &&
        offsets.all fun entry => mailboxes.contains entry.1) = true := by
      rw [Distinct.eraseDups_of_nodup hkeys, List.length_map, beq_self_eq_true, Bool.true_and,
        List.all_eq_true]
      intro entry hentry
      exact List.contains_iff_mem.mpr (hsublist.subset (List.mem_map_of_mem hentry))
    obtain ⟨pages, count₁, hpages, hholds, hready⟩ := fetchAll_spec hserves
      (Nat.le_max_left 1 (min limit (candidates / max 1 offsets.length))) hpoints 0 count
    obtain ⟨state, count₂, n, hrun, hselects⟩ :=
      @selectMessages_spec streams gateway casefold candidates hserves limit
        ⟨_, []⟩ unseen count₁ hunseen hholds fun _ => hready
    have hrest : ((Merge.rest (headKeyLt casefold) n unseen).map (·.1)).Nodup := by
      rw [Merge.keys_rest]
      exact hunseen
    have hnames : offsets.map (·.1) = state.buffers.map (·.1) := by
      rw [keys_of_points hpoints, keys_of_holds hselects.holds, Merge.keys_rest]
    have hnext : nextOffsets state.buffers (offsets.map (·.1)) =
        .ok (offsetsOf (Merge.rest (headKeyLt casefold) n unseen)) := by
      rw [hnames]
      exact nextOffsets_of_holds (keys_of_holds hselects.holds ▸ hrest) hselects.holds
        fun _ hentry => hentry
    have hbuffers : (offsets.zip pages).foldl
        (fun buffers entry => Dict.set buffers entry.1.1 (⟨entry.2, 0⟩ : Buffer)) [] =
          (offsets.zip pages).map fun entry => (entry.1.1, ⟨entry.2, 0⟩) := by
      apply Dict.foldl_set
      have hzip := keys_of_holds hholds
      rw [List.map_map] at hzip
      rw [List.map_nil, List.nil_append]
      exact hzip ▸ hunseen
    refine ⟨⟨state.selected, _⟩, count₂, n, ?_, ⟨hselects.steps, hselects.progress hlimit,
      hselects.selected, rfl, ?_⟩⟩
    · apply Exec.ensure_bind_of (decide_eq_true hfew)
      apply Exec.ensure_bind_of hvalid
      dsimp only
      rw [active_eq hsublist hnodup, Exec.bind_of_ok hpages, hbuffers, Exec.bind_of_ok hrun, hnext]
      rfl
    · intro mine hmine
      obtain ⟨entry, -, hentry⟩ := mem_of_forall₂ hselects.holds.flip hmine
      exact hentry.stream

/-! ## All pages -/

/-- Requesting page after page until there is nothing to continue. -/
def traverse (casefold : String → String) (candidates : Nat) (gateway : Gateway) (limit : Nat)
    (mailboxes : List String) : Nat → List (String × Nat) → Requests (List AllMailPage)
  | 0, _ => pure []
  | fuel + 1, offsets => do
      let page ← listAllMailPage casefold candidates gateway limit mailboxes offsets
      if page.nextOffsets.isEmpty then return [page]
      else
        let pages ← traverse casefold candidates gateway limit mailboxes fuel page.nextOffsets
        return page :: pages

theorem offsetsOf_eq_nil : offsetsOf unseen = [] ↔ Merge.total unseen = 0 := by
  unfold offsetsOf
  rw [List.map_eq_nil_iff, Merge.heads_eq_nil]

/-- The continuation names the mailboxes that have messages left. -/
theorem points_offsetsOf (h : ∀ mine ∈ unseen, ∃ stream, (mine.1, stream) ∈ streams ∧
      mine.2 <:+ stream.messages) :
    List.Forall₂ (Points streams) (offsetsOf unseen) (Merge.live unseen) := by
  induction unseen with
  | nil => exact List.Forall₂.nil
  | cons mine unseen ih =>
      have hothers := ih fun mine hmine => h mine (List.mem_cons_of_mem _ hmine)
      obtain ⟨mailbox, messages⟩ := mine
      cases messages with
      | nil => exact hothers
      | cons record messages =>
          obtain ⟨stream, hstream, hsuffix⟩ := h _ List.mem_cons_self
          have hmem : record ∈ stream.messages := hsuffix.subset List.mem_cons_self
          apply List.Forall₂.cons _ hothers
          exact ⟨rfl, stream, hstream, Or.inr ⟨record, hmem, rfl⟩, stream.startingAt_head hsuffix⟩

theorem traverse_spec (hserves : Serves gateway streams) {limit : Nat} (hlimit : 1 ≤ limit)
    {mailboxes : List String} (hnodup : mailboxes.Nodup)
    (hfew : mailboxes.length ≤ maxAllMailMailboxes) (fuel : Nat) :
    ∀ (offsets : List (String × Nat)) (unseen : List (String × List Json)) (count : Nat),
      (offsets.map (·.1)).Sublist mailboxes → List.Forall₂ (Points streams) offsets unseen →
      Merge.total unseen < fuel →
      ∃ pages count', traverse casefold candidates gateway limit mailboxes fuel offsets count =
        (.ok pages, count') ∧ pages.getLast?.map (·.nextOffsets) = some [] ∧
        pages.flatMap (·.items) = Merge.mergeAll (headKeyLt casefold) unseen ∧
        (∀ page ∈ pages, page.items.length ≤ limit) ∧
        (Merge.total unseen ≠ 0 → ∀ page ∈ pages, page.items ≠ []) := by
  induction fuel with
  | zero => exact fun _ _ _ _ _ hfuel => absurd hfuel (Nat.not_lt_zero _)
  | succ fuel ih =>
      intro offsets unseen count hsublist hpoints hfuel
      obtain ⟨page, count₁, n, hpage, hshown⟩ := @listAllMailPage_spec streams gateway unseen
        casefold candidates hserves limit hlimit mailboxes offsets hnodup hfew hsublist hpoints
          count
      have hkeys : (unseen.map (·.1)).Nodup := keys_of_points hpoints ▸ hnodup.sublist hsublist
      have hsplit := Merge.mergeAll_eq_append (headKeyLt casefold) hkeys n
      have hlength := @Merge.length_merge_add _ _ _ (headKeyLt casefold) n _ hkeys
      have hitems : page.items.length ≤ limit := by
        rw [hshown.items]
        exact Nat.le_trans (Merge.length_merge_le _ n unseen) hshown.steps
      have hsome : Merge.total unseen ≠ 0 → page.items ≠ [] := by
        intro htotal
        rw [hshown.items]
        exact Merge.merge_ne_nil (headKeyLt casefold) (hshown.progress htotal) htotal
      unfold traverse
      rw [Exec.bind_of_ok hpage]
      by_cases hend : page.nextOffsets = []
      · rw [if_pos (List.isEmpty_iff.mpr hend)]
        rw [hshown.next, offsetsOf_eq_nil] at hend
        refine ⟨[page], count₁, rfl, ?_, ?_, by simpa using hitems, by simpa using hsome⟩
        · simp [hshown.next, offsetsOf_eq_nil, hend]
        · rw [hsplit, ← hshown.items]
          simp [Merge.mergeAll, hend, Merge.merge]
      · rw [if_neg fun hnil => hend (List.isEmpty_iff.mp hnil)]
        rw [hshown.next, offsetsOf_eq_nil] at hend
        have hne : Merge.total unseen ≠ 0 := by omega
        have hdecrease : 0 < (Merge.merge (headKeyLt casefold) n unseen).length := by
          rw [← hshown.items]
          exact List.length_pos_iff.mpr (hsome hne)
        have hpoints' := points_offsetsOf hshown.suffixes
        have hsublist' : ((offsetsOf (Merge.rest (headKeyLt casefold) n unseen)).map (·.1)).Sublist
            mailboxes := by
          rw [keys_of_points hpoints']
          apply (List.filter_sublist.map _).trans
          rw [Merge.keys_rest, ← keys_of_points hpoints]
          exact hsublist
        obtain ⟨pages, count₂, hpages, hlast, hmerge, hlengths, hnonempty⟩ :=
          ih _ _ count₁ hsublist'
          hpoints' (by rw [Merge.total_live]; omega)
        rw [Merge.mergeAll_live] at hmerge
        rw [Merge.total_live] at hnonempty
        rw [hshown.next, Exec.bind_of_ok hpages]
        refine ⟨page :: pages, count₂, rfl, ?_, ?_, ?_, ?_⟩
        · cases pages with
          | nil => cases hlast
          | cons next pages => exact hlast
        · rw [List.flatMap_cons, hmerge, hsplit, hshown.items]
        · exact List.forall_mem_cons.mpr ⟨hitems, hlengths⟩
        · exact fun htotal => List.forall_mem_cons.mpr ⟨hsome htotal, hnonempty hend⟩

end View

def contents (streams : List (String × MailStream)) : List (String × List Json) :=
  streams.map fun entry => (entry.1, entry.2.messages)

/-- The first request of the view. -/
def startOffsets (streams : List (String × MailStream)) : List (String × Nat) :=
  streams.map fun entry => (entry.1, 0)

theorem points_startOffsets :
    List.Forall₂ (Points streams) (startOffsets streams) (contents streams) := by
  have hpart : ∀ part : List (String × MailStream), (∀ entry ∈ part, entry ∈ streams) →
      List.Forall₂ (Points streams) (startOffsets part) (contents part) := by
    intro part hpart
    induction part with
    | nil => exact List.Forall₂.nil
    | cons entry part ih =>
        apply List.Forall₂.cons _
          (ih fun entry hentry => hpart entry (List.mem_cons_of_mem _ hentry))
        exact ⟨rfl, entry.2, hpart entry List.mem_cons_self, Or.inl rfl, if_pos rfl⟩
  exact hpart streams fun _ hentry => hentry

/-- The pages of the view are the merge of its mailboxes, whatever the limit of a page, the
number of candidates and the pages of the gateway are.  More mailboxes than the view supports
are refused. -/
theorem all_mail_is_merge (casefold : String → String) (candidates : Nat) (gateway : Gateway)
    (streams : List (String × MailStream)) (limit count : Nat) (hlimit : 1 ≤ limit)
    (hnodup : (streams.map (·.1)).Nodup) (hserves : Serves gateway streams) :
    (streams.length ≤ 64 → ∃ fuel pages count',
      traverse casefold candidates gateway limit (streams.map (·.1)) fuel (startOffsets streams)
        count = (.ok pages, count') ∧
      pages.getLast?.map (·.nextOffsets) = some [] ∧
      pages.flatMap (·.items) = Merge.mergeAll (headKeyLt casefold) (contents streams) ∧
      (∀ entry ∈ streams, (pages.flatMap (·.items)).filter (·.1 = entry.1) =
        entry.2.messages.map fun record => (entry.1, record)) ∧
      (∀ page ∈ pages, page.items.length ≤ limit) ∧
      (Merge.total (contents streams) ≠ 0 → ∀ page ∈ pages, page.items ≠ [])) ∧
    (64 < streams.length → listAllMailPage casefold candidates gateway limit (streams.map (·.1))
      (startOffsets streams) count =
        (.error (.value "all-mail mailbox fan-out exceeds the supported limit"), count)) := by
  constructor
  · intro hfew
    have hkeys : ((contents streams).map (·.1)).Nodup := by
      unfold contents
      rw [List.map_map]
      exact hnodup
    have hsublist : ((startOffsets streams).map (·.1)).Sublist (streams.map (·.1)) := by
      unfold startOffsets
      rw [List.map_map]
      exact List.Sublist.refl _
    obtain ⟨pages, count', hpages, hlast, hmerge, hlengths, hnonempty⟩ :=
      @traverse_spec streams gateway casefold candidates hserves limit hlimit _ hnodup
        (by rw [List.length_map]; exact hfew) (Merge.total (contents streams) + 1)
        (startOffsets streams) (contents streams) count hsublist points_startOffsets
        (Nat.lt_succ_self _)
    refine ⟨_, pages, count', hpages, hlast, hmerge, ?_, hlengths, hnonempty⟩
    intro entry hentry
    rw [hmerge]
    exact Merge.filter_mergeAll _ hkeys (List.mem_map.mpr ⟨entry, hentry, rfl⟩)
  · intro hmany
    have hnonempty : ((streams.map (·.1)).isEmpty || (startOffsets streams).isEmpty) = false := by
      cases streams with
      | nil => exact absurd hmany (Nat.not_lt_zero _)
      | cons entry streams => rfl
    have hlong : decide ((streams.map (·.1)).length ≤ maxAllMailMailboxes) = false := by
      rw [List.length_map]
      exact decide_eq_false (Nat.not_le.mpr hmany)
    unfold listAllMailPage
    rw [if_neg (by rw [hnonempty]; exact Bool.false_ne_true), hlong]
    rfl

/-! ## Mailboxes with one message -/

def onlyRecord : Json := .obj [("uid", .int 1)]

theorem allMailResumeOffset_onlyRecord : allMailResumeOffset onlyRecord = .ok 1 := by
  have htext : uidText (recordValue onlyRecord ["uid", "id"] (.str "")) = some ['1'] := by
    show some (Decimal.digits 1) = _
    rw [Decimal.digits_eq]
    rfl
  unfold allMailResumeOffset
  rw [htext]
  rfl

theorem uidOf_onlyRecord : uidOf onlyRecord = 1 := by
  unfold uidOf
  rw [allMailResumeOffset_onlyRecord]

def onlyStream : MailStream where
  messages := [onlyRecord]
  uids := by
    intro record hrecord
    rw [List.mem_singleton.mp hrecord, uidOf_onlyRecord]
    exact allMailResumeOffset_onlyRecord
  descending := List.pairwise_singleton _ _

def onlyGateway : Gateway := fun _ _ _ _ =>
  .ok (.mapping [("items", .arr [onlyRecord]), ("offset", .int 1), ("next_offset", .null)])

def onlyStreams (n : Nat) : List (String × MailStream) :=
  (List.range n).map fun i => (String.ofList (List.replicate i 'a'), onlyStream)

theorem onlyStreams_nodup (n : Nat) : ((onlyStreams n).map (·.1)).Nodup := by
  unfold onlyStreams
  rw [List.map_map]
  apply List.Nodup.map_on _ List.nodup_range
  intro i _ j _ heq
  have hlists := congrArg (fun text => text.toList.length) heq
  simpa using hlists

theorem onlyGateway_serves (n : Nat) : Serves onlyGateway (onlyStreams n) := by
  intro entry hentry count limit offset hlimit hknows
  obtain ⟨i, -, rfl⟩ := List.mem_map.mp hentry
  have hstart : onlyStream.startingAt offset = [onlyRecord] ∧ anchor [onlyRecord] offset = 1 := by
    rcases hknows with rfl | ⟨record, hrecord, rfl⟩
    · refine ⟨rfl, ?_⟩
      show uidOf onlyRecord = 1
      exact uidOf_onlyRecord
    · rw [List.mem_singleton.mp hrecord]
      refine ⟨onlyStream.startingAt_head (List.suffix_refl _), ?_⟩
      rw [uidOf_onlyRecord]
      rfl
  refine ⟨_, rfl, ?_⟩
  dsimp only
  rw [hstart.1]
  refine ⟨1, hlimit, fun _ => Nat.le_refl 1, ?_⟩
  rw [hstart.2]
  exact ⟨rfl, rfl, rfl, Or.inl rfl⟩

theorem all_mail_is_merge_two : ∃ fuel pages count',
    traverse id maxAllMailCandidates onlyGateway 1 ["", "a"] fuel [("", 0), ("a", 0)] 0 =
        (.ok pages, count') ∧
      pages.flatMap (·.items) = [("", onlyRecord), ("a", onlyRecord)] := by
  obtain ⟨fuel, pages, count', hpages, -, hmerge, -⟩ := (all_mail_is_merge id maxAllMailCandidates
    onlyGateway (onlyStreams 2) 1 0 (Nat.le_refl 1) (onlyStreams_nodup 2)
    (onlyGateway_serves 2)).1 (by decide)
  refine ⟨fuel, pages, count', hpages, ?_⟩
  rw [hmerge]
  rfl

/-- Sixty-five mailboxes are too many. -/
theorem all_mail_refuses_many :
    ((onlyStreams 65).map (·.1)).Nodup ∧ Serves onlyGateway (onlyStreams 65) ∧
      listAllMailPage id maxAllMailCandidates onlyGateway 1 ((onlyStreams 65).map (·.1))
        (startOffsets (onlyStreams 65)) 0 =
          (.error (.value "all-mail mailbox fan-out exceeds the supported limit"), 0) :=
  ⟨onlyStreams_nodup 65, onlyGateway_serves 65, rfl⟩

end MaddyWeb.Web
