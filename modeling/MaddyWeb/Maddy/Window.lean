import MaddyWeb.Library.Fallible
import MaddyWeb.Maddy.MessageList
import Mathlib.Data.List.Sort

/-!
# Windows of a mailbox

A page starts at a message that is named by its UID, but the command line can only
bound a listing by sequence numbers.  `list_message_window` therefore resolves the
UID first and reads the window with a second command; a mailbox that has changed in
between is noticed and reported as a stale cursor.
-/

namespace MaddyWeb.Maddy.Window

open MaddyWeb.Library MaddyWeb.Helper.Errors MaddyWeb.Maddy.MessageList

/-- The message sets that are asked for: `*`, one UID, or a range of sequence numbers. -/
inductive MessageSet
  | newest
  | uid (uid : Int)
  | sequence (low high : Int)
  deriving DecidableEq, Repr

/-- `_list_message_set`, as one command sees the mailbox. -/
def Listing : Type := MessageSet → Except HelperException (List MessageRecord)

def uidOf (record : MessageRecord) : Int := record.uid.getD 0

/-- `records.sort(key=lambda item: int(item["uid"]), reverse=True)` -/
def sortByUid (records : List MessageRecord) : List MessageRecord :=
  records.mergeSort fun a b => uidOf b ≤ uidOf a

def validUid (uid : Option Int) : Bool := uid.any fun uid => 1 ≤ uid && uid ≤ maxImapUid

def validSequence (number : Option Int) : Bool := number.any fun number => 0 < number

/-- The loop over `seen_uids`. -/
def validWindow : List Int → List MessageRecord → Bool
  | _, [] => true
  | seen, record :: records =>
      validUid record.uid && validSequence record.sequenceNumber && !seen.contains (uidOf record) &&
        validWindow (uidOf record :: seen) records

/-- The second half of `list_message_window`: the window that ends at the anchor. -/
def windowFrom (second : Listing) (limit cursorUid : Int) (anchor : MessageRecord) :
    Except HelperException (List MessageRecord) := do
  Fallible.ensure (validUid anchor.uid ∧ validSequence anchor.sequenceNumber) .maddy
  let anchorUid := uidOf anchor
  let anchorSequence := anchor.sequenceNumber.getD 0
  Fallible.ensure (cursorUid = 0 ∨ anchorUid = cursorUid) .staleMessageCursor
  let records ← second (.sequence (max 1 (anchorSequence - limit)) anchorSequence)
  Fallible.ensure (records.length ≤ limit + 1) .maddy
  Fallible.ensure (validWindow [] records) .maddy
  let records := sortByUid records
  let matching := records.filter fun record => uidOf record == anchorUid
  Fallible.ensure (matching.map (·.sequenceNumber) = [some anchorSequence] ∧
    records.head?.map uidOf = some anchorUid) .staleMessageCursor
  return records

/-- `list_message_window`: `first` resolves the anchor, `second` reads the window. -/
def listMessageWindow (first second : Listing) (limit cursorUid : Int) :
    Except HelperException (List MessageRecord) := do
  Fallible.ensure (1 ≤ limit ∧ limit ≤ 200) .invalidMaddyArgument
  Fallible.ensure (0 ≤ cursorUid ∧ cursorUid ≤ maxImapUid) .invalidMaddyArgument
  let anchors ← first (if cursorUid = 0 then .newest else .uid cursorUid)
  match anchors with
  | [] => if cursorUid = 0 then .ok [] else .error .staleMessageCursor
  | [anchor] => windowFrom second limit cursorUid anchor
  | _ => .error .maddy

/-! ## Mailboxes -/

structure Message where
  uid : Int
  record : MessageRecord
  deriving DecidableEq, Repr

/-- A mailbox in the order of its UIDs, and the least UID that has not been used. -/
structure Mailbox where
  messages : List Message
  uidNext : Int
  ascending : messages.Pairwise fun a b => a.uid < b.uid
  valid : ∀ message ∈ messages, 1 ≤ message.uid ∧ message.uid < uidNext ∧
    message.uid ≤ maxImapUid

/-- The record of a message at this position. -/
def Message.listed (message : Message) (position : Nat) : MessageRecord :=
  { message.record with
    uid := some message.uid, sequenceNumber := some ((position + 1 : Nat) : Int) }

namespace Mailbox

def records (mailbox : Mailbox) : List MessageRecord :=
  mailbox.messages.zipIdx.map fun entry => entry.1.listed entry.2

/-- What the command line answers. -/
def listing (mailbox : Mailbox) : Listing
  | .newest => .ok mailbox.records.getLast?.toList
  | .uid uid => .ok (mailbox.records.filter fun record => uidOf record == uid)
  | .sequence low high => .ok ((mailbox.records.take high.toNat).drop (low.toNat - 1))

def uids (mailbox : Mailbox) : List Int := mailbox.messages.map (·.uid)

/-- The records from a UID downwards. -/
def below (mailbox : Mailbox) (uid : Int) : List MessageRecord :=
  (mailbox.records.filter fun record => uidOf record ≤ uid).reverse

variable (mailbox : Mailbox)

@[simp] theorem length_records : mailbox.records.length = mailbox.messages.length := by
  simp [records]

theorem getElem_records {i : Nat} (hi : i < mailbox.records.length) :
    ∃ message ∈ mailbox.messages, mailbox.records[i] = message.listed i := by
  have hi' : i < mailbox.messages.length := mailbox.length_records ▸ hi
  exact ⟨mailbox.messages[i], List.getElem_mem hi', by simp [records]⟩

theorem uidOf_records : mailbox.records.map uidOf = mailbox.uids := by
  apply List.ext_getElem
  · simp [uids]
  · intro i hi _
    simp [uids, records, Message.listed, uidOf]

theorem ascending_records : mailbox.records.Pairwise fun a b => uidOf a < uidOf b := by
  rw [← List.pairwise_map, uidOf_records]
  exact List.pairwise_map.mpr mailbox.ascending

theorem mem_records {record : MessageRecord} (h : record ∈ mailbox.records) :
    ∃ i, ∃ hi : i < mailbox.records.length, record = mailbox.records[i] ∧
      record.sequenceNumber = some ((i + 1 : Nat) : Int) ∧ 1 ≤ uidOf record ∧
      uidOf record < mailbox.uidNext ∧ validUid record.uid = true ∧
      validSequence record.sequenceNumber = true := by
  obtain ⟨i, hi, rfl⟩ := List.getElem_of_mem h
  obtain ⟨message, hmessage, heq⟩ := mailbox.getElem_records hi
  obtain ⟨hpos, hnext, hmax⟩ := mailbox.valid message hmessage
  refine ⟨i, hi, rfl, ?_⟩
  rw [heq]
  refine ⟨rfl, hpos, hnext, ?_, ?_⟩
  · show (decide (1 ≤ message.uid) && decide (message.uid ≤ maxImapUid)) = true
    simp [hpos, hmax]
  · show decide (0 < ((i + 1 : Nat) : Int)) = true
    simp

/-- The records up to the one with this UID. -/
theorem filter_le_eq_take {i : Nat} (hi : i < mailbox.records.length) :
    (mailbox.records.filter fun record => uidOf record ≤ uidOf mailbox.records[i]) =
      mailbox.records.take (i + 1) := by
  have hascending := mailbox.ascending_records
  generalize hlist : mailbox.records = list at hi hascending ⊢
  clear hlist
  induction list generalizing i with
  | nil => exact absurd hi (Nat.not_lt_zero _)
  | cons record list ih =>
      obtain ⟨hfirst, hrest⟩ := List.pairwise_cons.mp hascending
      cases i with
      | zero =>
          rw [List.take_succ_cons, List.take_zero, List.getElem_cons_zero, List.filter_cons,
            if_pos (by simp)]
          congr 1
          rw [List.filter_eq_nil_iff]
          intro other hother
          have := hfirst other hother
          simp only [decide_eq_true_eq]
          omega
      | succ i =>
          have hi' : i < list.length := by simpa using hi
          have hlt := hfirst list[i] (List.getElem_mem hi')
          rw [List.take_succ_cons, List.getElem_cons_succ, List.filter_cons,
            if_pos (by simp only [decide_eq_true_eq]; omega), ih hi' hrest]

end Mailbox

/-! ## Mailboxes that change -/

/-- Other clients delete messages, and new messages get UIDs that have not been used. -/
structure Mailbox.Evolves (mailbox later : Mailbox) : Prop where
  parts : ∃ kept arrived, later.messages = kept ++ arrived ∧ kept.Sublist mailbox.messages ∧
    ∀ message ∈ arrived, mailbox.uidNext ≤ message.uid
  uidNext : mailbox.uidNext ≤ later.uidNext

theorem Mailbox.Evolves.uids {mailbox later : Mailbox} (h : mailbox.Evolves later) {bound : Int}
    (hbound : bound < mailbox.uidNext) :
    (later.uids.filter (· ≤ bound)).Sublist (mailbox.uids.filter (· ≤ bound)) := by
  obtain ⟨kept, arrived, hparts, hkept, harrived⟩ := h.parts
  have hnew : (arrived.map (·.uid)).filter (· ≤ bound) = [] := by
    rw [List.filter_eq_nil_iff]
    intro uid huid
    obtain ⟨message, hmessage, rfl⟩ := List.mem_map.mp huid
    have := harrived message hmessage
    simp only [decide_eq_true_eq]
    omega
  unfold Mailbox.uids
  rw [hparts, List.map_append, List.filter_append, hnew, List.append_nil]
  exact (hkept.map _).filter _

/-! ## What a window holds -/

theorem validWindow_of {records : List MessageRecord} {seen : List Int}
    (hvalid : ∀ record ∈ records, validUid record.uid = true ∧
      validSequence record.sequenceNumber = true)
    (hnodup : (seen ++ records.map uidOf).Nodup) : validWindow seen records = true := by
  induction records generalizing seen with
  | nil => rfl
  | cons record records ih =>
      obtain ⟨huid, hsequence⟩ := hvalid record List.mem_cons_self
      have hnew : uidOf record ∉ seen := by
        intro hmem
        exact (List.nodup_append.mp hnodup).2.2 _ hmem _ List.mem_cons_self rfl
      have hrest : (uidOf record :: seen ++ records.map uidOf).Nodup := by
        apply List.Perm.nodup_iff _ |>.mpr hnodup
        exact List.perm_middle.symm
      unfold validWindow
      rw [huid, hsequence, ih (fun record hrecord => hvalid record (List.mem_cons_of_mem _ hrecord))
        hrest]
      simpa using hnew

theorem sortByUid_eq_reverse {records : List MessageRecord}
    (h : records.Pairwise fun a b => uidOf a < uidOf b) : sortByUid records = records.reverse := by
  have hsorted : (sortByUid records).Pairwise fun a b => decide (uidOf b ≤ uidOf a) = true := by
    apply List.pairwise_mergeSort
    · intro a b c hab hbc
      simp only [decide_eq_true_eq] at *
      omega
    · intro a b
      simp only [Bool.or_eq_true, decide_eq_true_eq]
      omega
  have hreverse : records.reverse.Pairwise fun a b => decide (uidOf b ≤ uidOf a) = true := by
    apply List.pairwise_reverse.mpr
    apply h.imp
    intro a b hab
    simp only [decide_eq_true_eq]
    omega
  apply List.Perm.eq_of_pairwise _ hsorted hreverse
  · exact (List.mergeSort_perm _ _).trans (List.reverse_perm _).symm
  · intro a b ha hb hab hba
    simp only [decide_eq_true_eq] at hab hba
    have hnodup : (records.map uidOf).Nodup := by
      apply List.pairwise_map.mpr
      apply h.imp
      intro a b hlt heq
      omega
    apply List.inj_on_of_nodup_map hnodup
    · exact (List.mergeSort_perm _ _).mem_iff.mp ha
    · exact List.mem_reverse.mp hb
    · omega

/-- The window that ends at the message at position `i`. -/
theorem window_eq_below (mailbox : Mailbox) {i : Nat} (hi : i < mailbox.records.length)
    (limit : Nat) :
    sortByUid ((mailbox.records.take (i + 1)).drop (i - limit)) =
      (mailbox.below (uidOf mailbox.records[i])).take (limit + 1) := by
  have hascending : ((mailbox.records.take (i + 1)).drop (i - limit)).Pairwise
      fun a b => uidOf a < uidOf b :=
    mailbox.ascending_records.sublist ((List.drop_sublist _ _).trans (List.take_sublist _ _))
  have hlength : (mailbox.records.take (i + 1)).length = i + 1 := by
    rw [List.length_take]
    omega
  unfold Mailbox.below
  rw [sortByUid_eq_reverse hascending, mailbox.filter_le_eq_take hi, List.take_reverse, hlength]
  congr 2
  omega

theorem sequence_bounds {i limit : Nat} :
    (max 1 (((i + 1 : Nat) : Int) - limit)).toNat - 1 = i - limit := by
  omega

/-- The anchor is the last record of its window. -/
theorem window_eq_concat (mailbox : Mailbox) {i : Nat} (hi : i < mailbox.records.length)
    (limit : Nat) : (mailbox.records.take (i + 1)).drop (i - limit) =
      (mailbox.records.take i).drop (i - limit) ++ [mailbox.records[i]] := by
  have hlength : (mailbox.records.take i).length = i := by
    rw [List.length_take]
    omega
  rw [List.take_succ_eq_append_getElem hi, List.drop_append_of_le_length (by omega)]

/-- A mailbox that does not change has a window at each of its messages. -/
theorem windowFrom_complete {mailbox : Mailbox} {limit : Nat} {cursor : Int} {i : Nat}
    (hi : i < mailbox.records.length) (hcursor : cursor = 0 ∨ uidOf mailbox.records[i] = cursor) :
    windowFrom mailbox.listing limit cursor mailbox.records[i] =
      .ok ((mailbox.below (uidOf mailbox.records[i])).take (limit + 1)) := by
  have hmem : mailbox.records[i] ∈ mailbox.records := List.getElem_mem hi
  obtain ⟨message, -, hmessage⟩ := mailbox.getElem_records hi
  have hposition : mailbox.records[i].sequenceNumber = some ((i + 1 : Nat) : Int) := by
    rw [hmessage]
    rfl
  obtain ⟨-, -, -, -, -, -, huid, hsequence⟩ := mailbox.mem_records hmem
  have hsublist : ((mailbox.records.take (i + 1)).drop (i - limit)).Sublist mailbox.records :=
    (List.drop_sublist _ _).trans (List.take_sublist _ _)
  have hascending := mailbox.ascending_records.sublist hsublist
  have hlisted :
      mailbox.listing (.sequence (max 1 (mailbox.records[i].sequenceNumber.getD 0 - limit))
      (mailbox.records[i].sequenceNumber.getD 0)) =
        .ok ((mailbox.records.take (i + 1)).drop (i - limit)) := by
    rw [hposition]
    show Except.ok ((mailbox.records.take _).drop (_ - 1)) = _
    rw [Option.getD_some, sequence_bounds, Int.toNat_natCast]
  have hlength : (((mailbox.records.take (i + 1)).drop (i - limit)).length : Int) ≤ limit + 1 := by
    rw [List.length_drop, List.length_take]
    omega
  have hvalid : validWindow [] ((mailbox.records.take (i + 1)).drop (i - limit)) = true := by
    apply validWindow_of
    · intro record hrecord
      obtain ⟨-, -, -, -, -, -, huid, hsequence⟩ := mailbox.mem_records (hsublist.subset hrecord)
      exact ⟨huid, hsequence⟩
    · apply List.pairwise_map.mpr
      apply hascending.imp
      intro a b hlt heq
      omega
  have hsorted : sortByUid ((mailbox.records.take (i + 1)).drop (i - limit)) =
      mailbox.records[i] :: ((mailbox.records.take i).drop (i - limit)).reverse := by
    rw [sortByUid_eq_reverse hascending, window_eq_concat mailbox hi, List.reverse_concat]
  have hothers : (((mailbox.records.take i).drop (i - limit)).reverse.filter
      fun record => uidOf record == uidOf mailbox.records[i]) = [] := by
    rw [List.filter_eq_nil_iff]
    intro record hrecord
    rw [window_eq_concat mailbox hi, List.pairwise_append] at hascending
    have hlt := hascending.2.2 record (List.mem_reverse.mp hrecord) _ (List.mem_singleton_self _)
    simp only [beq_iff_eq]
    omega
  unfold windowFrom
  rw [Fallible.ensure_bind_of ⟨huid, hsequence⟩]
  dsimp only
  rw [Fallible.ensure_bind_of hcursor, hlisted]
  show Fallible.ensure _ _ >>= _ = _
  rw [Fallible.ensure_bind_of hlength, Fallible.ensure_bind_of hvalid, Fallible.ensure_bind_of]
  · show Except.ok _ = _
    rw [window_eq_below mailbox hi]
  · rw [hsorted, List.filter_cons, if_pos (beq_self_eq_true _), hothers, List.map_singleton,
      hposition]
    exact ⟨rfl, rfl⟩

namespace Mailbox

variable (mailbox : Mailbox)

theorem mem_below {uid : Int} {record : MessageRecord} :
    record ∈ mailbox.below uid ↔ record ∈ mailbox.records ∧ uidOf record ≤ uid := by
  unfold below
  rw [List.mem_reverse, List.mem_filter, decide_eq_true_eq]

theorem descending_below (uid : Int) :
    (mailbox.below uid).Pairwise fun a b => uidOf b < uidOf a :=
  List.pairwise_reverse.mpr (mailbox.ascending_records.filter _)

theorem exists_record {uid : Int} (h : uid ∈ mailbox.uids) :
    ∃ i, ∃ hi : i < mailbox.records.length, uidOf mailbox.records[i] = uid := by
  rw [← mailbox.uidOf_records] at h
  obtain ⟨record, hrecord, rfl⟩ := List.mem_map.mp h
  obtain ⟨i, hi, rfl⟩ := List.getElem_of_mem hrecord
  exact ⟨i, hi, rfl⟩

theorem uid_bounds {uid : Int} (h : uid ∈ mailbox.uids) :
    1 ≤ uid ∧ uid < mailbox.uidNext ∧ uid ≤ maxImapUid := by
  obtain ⟨message, hmessage, rfl⟩ := List.mem_map.mp h
  exact mailbox.valid message hmessage

theorem filter_uid {i : Nat} (hi : i < mailbox.records.length) :
    (mailbox.records.filter fun record => uidOf record == uidOf mailbox.records[i]) =
      [mailbox.records[i]] := by
  have hnodup : (mailbox.records.map uidOf).Nodup := by
    apply List.pairwise_map.mpr
    apply mailbox.ascending_records.imp
    intro a b hlt heq
    omega
  have hperm : (mailbox.records.filter fun record => uidOf record == uidOf mailbox.records[i]).Perm
      [mailbox.records[i]] := by
    apply (List.perm_ext_iff_of_nodup ((List.Nodup.of_map _ hnodup).filter _)
      (List.nodup_singleton _)).mpr
    intro record
    rw [List.mem_filter, List.mem_singleton]
    constructor
    · rintro ⟨hrecord, huid⟩
      exact List.inj_on_of_nodup_map hnodup hrecord (List.getElem_mem hi) (by simpa using huid)
    · rintro rfl
      exact ⟨List.getElem_mem hi, beq_self_eq_true _⟩
  exact List.perm_singleton.mp hperm

end Mailbox

variable {limit : Nat}

/-- `list_message_window` on a mailbox that does not change. -/
theorem listMessageWindow_eq (mailbox : Mailbox) (hlimit : 1 ≤ limit ∧ limit ≤ 200)
    {cursor : Int} (hcursor : cursor ∈ mailbox.uids) :
    listMessageWindow mailbox.listing mailbox.listing limit cursor =
      .ok ((mailbox.below cursor).take (limit + 1)) := by
  obtain ⟨hpos, -, hmax⟩ := mailbox.uid_bounds hcursor
  obtain ⟨i, hi, rfl⟩ := mailbox.exists_record hcursor
  unfold listMessageWindow
  rw [Fallible.ensure_bind_of (by omega), Fallible.ensure_bind_of ⟨by omega, hmax⟩,
    if_neg (by omega)]
  have hanchor : mailbox.listing (.uid (uidOf mailbox.records[i])) = .ok [mailbox.records[i]] :=
    congrArg Except.ok (mailbox.filter_uid hi)
  rw [hanchor]
  exact windowFrom_complete hi (Or.inr rfl)

theorem listMessageWindow_newest (mailbox : Mailbox) (hlimit : 1 ≤ limit ∧ limit ≤ 200) :
    listMessageWindow mailbox.listing mailbox.listing limit 0 =
      .ok (mailbox.records.reverse.take (limit + 1)) := by
  unfold listMessageWindow
  rw [Fallible.ensure_bind_of (by omega), Fallible.ensure_bind_of ⟨by omega, by decide⟩, if_pos rfl]
  by_cases hempty : mailbox.records = []
  · have hanchor : mailbox.listing .newest = .ok [] := by
      show Except.ok mailbox.records.getLast?.toList = _
      rw [hempty]
      rfl
    rw [hanchor, hempty]
    rfl
  · have hpos := List.length_pos_iff.mpr hempty
    have hi : mailbox.records.length - 1 < mailbox.records.length := by omega
    have hanchor : mailbox.listing .newest = .ok [mailbox.records[mailbox.records.length - 1]] := by
      show Except.ok mailbox.records.getLast?.toList = _
      rw [List.getLast?_eq_getElem?, List.getElem?_eq_getElem hi]
      rfl
    rw [hanchor]
    show windowFrom _ _ _ _ = _
    rw [windowFrom_complete hi (Or.inl rfl)]
    unfold Mailbox.below
    rw [mailbox.filter_le_eq_take hi, Nat.sub_add_cancel hpos, List.take_length]

/-- A cursor whose message is gone is stale. -/
theorem listMessageWindow_stale {mailbox : Mailbox} {second : Listing}
    (hlimit : 1 ≤ limit ∧ limit ≤ 200) {cursor : Int} (hvalid : 1 ≤ cursor ∧ cursor ≤ maxImapUid)
    (hgone : cursor ∉ mailbox.uids) :
    listMessageWindow mailbox.listing second limit cursor = .error .staleMessageCursor := by
  unfold listMessageWindow
  rw [Fallible.ensure_bind_of (by omega), Fallible.ensure_bind_of ⟨by omega, hvalid.2⟩,
    if_neg (by omega)]
  have hanchor : mailbox.listing (.uid cursor) = .ok [] := by
    show Except.ok (mailbox.records.filter fun record => uidOf record == cursor) = _
    congr 1
    rw [List.filter_eq_nil_iff]
    intro record hrecord huid
    apply hgone
    rw [← mailbox.uidOf_records, ← beq_iff_eq.mp huid]
    exact List.mem_map_of_mem hrecord
  rw [hanchor]
  show (if cursor = 0 then _ else _) = _
  rw [if_neg (by omega)]

end MaddyWeb.Maddy.Window
