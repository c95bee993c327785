import MaddyWeb.Helper.Messages

/-!
# Reading a mailbox page by page

A traversal follows the cursor of each page while the mailbox changes between the
requests: messages arrive with higher UIDs, and others are deleted.
-/

namespace MaddyWeb.Helper.Messages

open MaddyWeb.Library MaddyWeb.Helper.Errors MaddyWeb.Maddy.MessageList MaddyWeb.Maddy.Window

/-! ## One page -/

/-- The numbers of a page that a request can return. -/
structure InRange (page : MessagesPage) : Prop where
  offset : 0 ≤ page.offset ∧ page.offset ≤ maxImapUid
  limit : 1 ≤ page.limit ∧ page.limit ≤ 200
  next : ∀ next ∈ page.nextOffset, 1 ≤ next ∧ next ≤ maxImapUid

/-- Every record of the mailbox fits in a frame of its own. -/
def FitsAlone (mailbox : Mailbox) : Prop :=
  ∀ record ∈ mailbox.records, ∀ page : MessagesPage, page.items = [bounded record] →
    InRange page → page.fits = true

theorem uidOf_bounded (record : MessageRecord) : uidOf (bounded record) = uidOf record := rfl

theorem fillPage_eq (messages : List MessageRecord) (offset limit : Int)
    (candidates : List MessageRecord) : ∀ page, ∃ k ≤ candidates.length,
      fillPage messages offset limit candidates page = page ++ (candidates.take k).map bounded := by
  induction candidates with
  | nil => exact fun page => ⟨0, Nat.le_refl 0, (List.append_nil page).symm⟩
  | cons candidate candidates ih =>
      intro page
      unfold fillPage
      dsimp only
      split
      · obtain ⟨k, hk, heq⟩ := ih (page ++ [bounded candidate])
        refine ⟨k + 1, Nat.succ_le_succ hk, ?_⟩
        rw [heq, List.take_succ_cons, List.map_cons, List.append_assoc]
        rfl
      · exact ⟨0, Nat.zero_le _, (List.append_nil page).symm⟩

/-- The first candidate stays when it fits. -/
theorem fillPage_ne_nil {messages : List MessageRecord} {offset limit : Int}
    {candidate : MessageRecord} {candidates : List MessageRecord}
    (hfits : (pageWith messages offset limit [bounded candidate]).fits = true) :
    fillPage messages offset limit (candidate :: candidates) [] ≠ [] := by
  unfold fillPage
  dsimp only [List.nil_append]
  rw [if_pos hfits]
  obtain ⟨k, -, heq⟩ := fillPage_eq messages offset limit candidates [bounded candidate]
  rw [heq]
  simp

theorem sortByUid_of_descending {records : List MessageRecord}
    (h : records.Pairwise fun a b => uidOf b < uidOf a) : sortByUid records = records := by
  apply List.mergeSort_of_pairwise
  apply h.imp
  intro a b hlt
  simp only [decide_eq_true_eq]
  omega

theorem uid_bounds_of_valid {record : MessageRecord} (h : validUid record.uid = true) :
    1 ≤ uidOf record ∧ uidOf record ≤ maxImapUid := by
  unfold validUid at h
  unfold uidOf
  cases huid : record.uid with
  | none =>
      rw [huid] at h
      cases h
  | some uid =>
      rw [huid] at h
      simpa using h

/-- A request for the messages of `below`, which are in descending order. -/
theorem messagesList_spec {first second : Listing} {limit : Nat} (hlimit : 1 ≤ limit ∧ limit ≤ 200)
    {offset : Int} (hoffset : 0 ≤ offset ∧ offset ≤ maxImapUid) {below : List MessageRecord}
    (hwindow : listMessageWindow first second limit offset = .ok (below.take (limit + 1)))
    (hdescending : below.Pairwise fun a b => uidOf b < uidOf a)
    (hvalid : ∀ record ∈ below, validUid record.uid = true)
    (hfits : ∀ record ∈ below, ∀ page : MessagesPage, page.items = [bounded record] →
      InRange page → page.fits = true) :
    ∃ page k, messagesList first second (.int limit) (.int offset) = .ok page ∧ k ≤ limit ∧
      (below ≠ [] → 1 ≤ k) ∧ page.items = (below.take k).map bounded ∧
      page.nextOffset = below[k]?.map uidOf := by
  have hsorted : sortByUid (below.take (limit + 1)) = below.take (limit + 1) :=
    sortByUid_of_descending (hdescending.sublist (List.take_sublist _ _))
  generalize hstart : (if offset = 0 then ((below.take (limit + 1)).head?.map uidOf).getD offset
    else offset) = start
  obtain ⟨k, hk, hpage⟩ := fillPage_eq (below.take (limit + 1)) start limit
    ((below.take (limit + 1)).take limit) []
  rw [List.nil_append] at hpage
  have hcandidates : (below.take (limit + 1)).take limit = below.take limit := by
    rw [List.take_take]
    congr 1
    omega
  rw [hcandidates] at hk hpage
  have hklimit : k ≤ limit := Nat.le_trans hk (List.length_take_le _ _)
  have htake : (below.take limit).take k = below.take k := by
    rw [List.take_take]
    congr 1
    omega
  rw [htake] at hpage
  have hlength : ((below.take k).map bounded).length = k := by
    rw [List.length_map, List.length_take]
    have := List.length_take_le limit below
    rw [List.length_take] at hk
    omega
  have hbounds : ∀ record ∈ below, 1 ≤ uidOf record ∧ uidOf record ≤ maxImapUid :=
    fun record hrecord => uid_bounds_of_valid (hvalid record hrecord)
  have hrange : ∀ record, InRange (pageWith (below.take (limit + 1)) start limit [record]) := by
    intro record
    refine ⟨?_, by constructor <;> dsimp only [pageWith] <;> omega, ?_⟩
    · dsimp only [pageWith]
      rw [← hstart]
      split
      · cases below with
        | nil => simpa using hoffset
        | cons first rest =>
            have := hbounds first List.mem_cons_self
            exact ⟨by simpa using by omega, by simpa using this.2⟩
      · exact hoffset
    · intro next hnext
      obtain ⟨other, hother, rfl⟩ := Option.map_eq_some_iff.mp hnext
      exact hbounds other (List.mem_of_mem_take (List.mem_of_getElem? hother))
  have hnonempty : below.take limit = [] ∨ (below.take k).map bounded ≠ [] := by
    cases hbelow : below with
    | nil => exact Or.inl (by simp)
    | cons record rest =>
        right
        rw [← hbelow, ← hpage, hbelow]
        obtain ⟨limit', rfl⟩ := Nat.exists_eq_succ_of_ne_zero (show limit ≠ 0 by omega)
        rw [List.take_succ_cons]
        apply fillPage_ne_nil
        have hmine := hrange (bounded record)
        rw [hbelow] at hmine
        exact hfits record (hbelow ▸ List.mem_cons_self) _ rfl hmine
  refine ⟨pageWith (below.take (limit + 1)) start limit ((below.take k).map bounded), k, ?_,
    hklimit, ?_, rfl, ?_⟩
  · have hlimit' : integerWithin 1 200 (.int limit) = .ok (limit : Int) := if_pos (by omega)
    have hoffset' : integerWithin 0 (2 ^ 32 - 1) (.int offset) = .ok offset := if_pos hoffset
    have hcount : ((below.take (limit + 1)).length : Int) ≤ limit + 1 := by
      have := List.length_take_le (limit + 1) below
      omega
    have hall : (below.take (limit + 1)).all (fun message => validUid message.uid) = true :=
      List.all_eq_true.mpr fun record hrecord => hvalid record (List.mem_of_mem_take hrecord)
    unfold messagesList
    rw [hlimit', Fallible.ok_bind, hoffset', Fallible.ok_bind, hwindow, Fallible.ok_bind]
    dsimp only
    rw [hsorted, Fallible.ensure_bind_of hcount, Fallible.ensure_bind_of hall, hstart,
      Int.toNat_natCast, hcandidates, hpage, Fallible.ensure_bind_of hnonempty]
    rfl
  · intro hne
    rcases hnonempty with hnil | hitems
    · rcases List.take_eq_nil_iff.mp hnil with hzero | hnil
      · omega
      · exact absurd hnil hne
    · rcases Nat.eq_zero_or_pos k with rfl | hpos
      · exact absurd rfl hitems
      · exact hpos
  · show ((below.take (limit + 1))[((below.take k).map bounded).length]?).map uidOf = _
    rw [hlength, List.getElem?_take_of_lt (by omega)]

/-- A page of the messages up to `top`. -/
structure PageAt (mailbox : Mailbox) (limit : Nat) (top : Int) (page : MessagesPage) : Prop where
  count : page.items.length ≤ limit
  descending : page.items.Pairwise fun a b => uidOf b < uidOf a
  shown : ∀ item ∈ page.items, uidOf item ≤ top ∧ ∃ record ∈ mailbox.records, item = bounded record
  next : ∀ next ∈ page.nextOffset, next ∈ mailbox.uids ∧ next < top ∧
    ∀ item ∈ page.items, next < uidOf item
  complete : ∀ uid ∈ mailbox.uids, uid ≤ top → (∀ next ∈ page.nextOffset, next < uid) →
    uid ∈ page.items.map uidOf

theorem pageAt_of_below {mailbox : Mailbox} {limit k : Nat} {top : Int} {page : MessagesPage}
    (hk : k ≤ limit) (hfirst : mailbox.below top ≠ [] → 1 ≤ k)
    (hitems : page.items = ((mailbox.below top).take k).map bounded)
    (hnext : page.nextOffset = (mailbox.below top)[k]?.map uidOf) :
    PageAt mailbox limit top page := by
  have hdescending := mailbox.descending_below top
  have hparts : ∀ a ∈ (mailbox.below top).take k, ∀ b ∈ (mailbox.below top).drop k,
      uidOf b < uidOf a := by
    rw [← List.take_append_drop k (mailbox.below top), List.pairwise_append] at hdescending
    exact hdescending.2.2
  have hmem : ∀ record ∈ (mailbox.below top).take k, record ∈ mailbox.records ∧
      uidOf record ≤ top :=
    fun record hrecord => mailbox.mem_below.mp (List.mem_of_mem_take hrecord)
  refine ⟨?_, ?_, ?_, ?_, ?_⟩
  · rw [hitems, List.length_map]
    exact Nat.le_trans (List.length_take_le _ _) hk
  · rw [hitems]
    exact List.pairwise_map.mpr (hdescending.sublist (List.take_sublist _ _))
  · intro item hitem
    rw [hitems] at hitem
    obtain ⟨record, hrecord, rfl⟩ := List.mem_map.mp hitem
    exact ⟨(hmem record hrecord).2, record, (hmem record hrecord).1, rfl⟩
  · intro next hmemNext
    rw [hnext] at hmemNext
    obtain ⟨record, hrecord, rfl⟩ := Option.map_eq_some_iff.mp hmemNext
    obtain ⟨hklt, hget⟩ := List.getElem?_eq_some_iff.mp hrecord
    have hdrop : record ∈ (mailbox.below top).drop k := by
      rw [List.drop_eq_getElem_cons hklt, hget]
      exact List.mem_cons_self
    have hbelow := mailbox.mem_below.mp (List.mem_of_mem_drop hdrop)
    have huid : uidOf record ∈ mailbox.uids := by
      rw [← mailbox.uidOf_records]
      exact List.mem_map_of_mem hbelow.1
    refine ⟨huid, ?_, ?_⟩
    · -- the first message of the page lies between
      have hne : mailbox.below top ≠ [] := List.ne_nil_of_length_pos (by omega)
      have hpos := hfirst hne
      have htake : (mailbox.below top)[0] ∈ (mailbox.below top).take k := by
        rw [List.mem_take_iff_getElem]
        exact ⟨0, by omega, rfl⟩
      have hlt := hparts _ htake record hdrop
      have hle := (hmem _ htake).2
      omega
    · intro item hitem
      rw [hitems] at hitem
      obtain ⟨shown, hshown, rfl⟩ := List.mem_map.mp hitem
      exact hparts shown hshown record hdrop
  · intro uid huid htop hlater
    rw [← mailbox.uidOf_records] at huid
    obtain ⟨record, hrecord, rfl⟩ := List.mem_map.mp huid
    have hbelow : record ∈ mailbox.below top := mailbox.mem_below.mpr ⟨hrecord, htop⟩
    rw [← List.take_append_drop k (mailbox.below top), List.mem_append] at hbelow
    rcases hbelow with htake | hdrop
    · rw [hitems, List.map_map]
      exact List.mem_map.mpr ⟨record, htake, rfl⟩
    · exfalso
      cases hrest : (mailbox.below top).drop k with
      | nil =>
          rw [hrest] at hdrop
          cases hdrop
      | cons first rest =>
          have hget : (mailbox.below top)[k]? = some first := by
            rw [← List.head?_drop, hrest]
            rfl
          have hlt : uidOf first < uidOf record := by
            apply hlater
            rw [hnext, hget]
            rfl
          have hsorted := hdescending.sublist (List.drop_sublist k _)
          rw [hrest] at hdrop hsorted
          rcases List.mem_cons.mp hdrop with rfl | hdrop
          · omega
          · have := List.rel_of_pairwise_cons hsorted hdrop
            omega

theorem validUid_of_mem {mailbox : Mailbox} {record : MessageRecord}
    (h : record ∈ mailbox.records) : validUid record.uid = true := by
  obtain ⟨-, -, -, -, -, -, huid, -⟩ := mailbox.mem_records h
  exact huid

/-- A request whose cursor is still there. -/
theorem messagesList_cursor {mailbox : Mailbox} (hfits : FitsAlone mailbox) {limit : Nat}
    (hlimit : 1 ≤ limit ∧ limit ≤ 200) {cursor : Int} (hcursor : cursor ∈ mailbox.uids) :
    ∃ page, messagesList mailbox.listing mailbox.listing (.int limit) (.int cursor) = .ok page ∧
      PageAt mailbox limit cursor page := by
  obtain ⟨hpos, -, hmax⟩ := mailbox.uid_bounds hcursor
  obtain ⟨page, k, hpage, hk, hfirst, hitems, hnext⟩ := messagesList_spec hlimit
    ⟨by omega, hmax⟩ (listMessageWindow_eq mailbox hlimit hcursor)
    (mailbox.descending_below cursor)
    (fun record hrecord => validUid_of_mem (mailbox.mem_below.mp hrecord).1)
    (fun record hrecord => hfits record (mailbox.mem_below.mp hrecord).1)
  exact ⟨page, hpage, pageAt_of_below hk hfirst hitems hnext⟩

/-- The UID of the newest message. -/
def newest (mailbox : Mailbox) : Int := (mailbox.uids.getLast?).getD 0

theorem uid_le_newest {mailbox : Mailbox} {uid : Int} (h : uid ∈ mailbox.uids) :
    uid ≤ newest mailbox := by
  have hascending : mailbox.uids.Pairwise (· < ·) := List.pairwise_map.mpr mailbox.ascending
  unfold newest
  generalize mailbox.uids = uids at h hascending ⊢
  rcases List.eq_nil_or_concat uids with rfl | ⟨before, last, rfl⟩
  · cases h
  · rw [List.concat_eq_append, List.getLast?_concat, Option.getD_some]
    rw [List.concat_eq_append, List.pairwise_append] at hascending
    rw [List.concat_eq_append, List.mem_append, List.mem_singleton] at h
    rcases h with h | rfl
    · exact Int.le_of_lt (hascending.2.2 uid h last (List.mem_singleton_self _))
    · exact Int.le_refl _

/-- The first request. -/
theorem messagesList_first {mailbox : Mailbox} (hfits : FitsAlone mailbox) {limit : Nat}
    (hlimit : 1 ≤ limit ∧ limit ≤ 200) :
    ∃ page, messagesList mailbox.listing mailbox.listing (.int limit) (.int 0) = .ok page ∧
      PageAt mailbox limit (newest mailbox) page := by
  have hbelow : mailbox.records.reverse = mailbox.below (newest mailbox) := by
    unfold Mailbox.below
    congr 1
    apply (List.filter_eq_self.mpr _).symm
    intro record hrecord
    apply decide_eq_true
    apply uid_le_newest
    rw [← mailbox.uidOf_records]
    exact List.mem_map_of_mem hrecord
  have hwindow := listMessageWindow_newest mailbox hlimit
  rw [hbelow] at hwindow
  obtain ⟨page, k, hpage, hk, hfirst, hitems, hnext⟩ := messagesList_spec hlimit
    ⟨by omega, by decide⟩ hwindow (mailbox.descending_below _)
    (fun record hrecord => validUid_of_mem (mailbox.mem_below.mp hrecord).1)
    (fun record hrecord => hfits record (mailbox.mem_below.mp hrecord).1)
  exact ⟨page, hpage, pageAt_of_below hk hfirst hitems hnext⟩

/-- A request whose cursor is gone. -/
theorem messagesList_gone {mailbox : Mailbox} {limit : Nat} (hlimit : 1 ≤ limit ∧ limit ≤ 200)
    {cursor : Int} (hvalid : 1 ≤ cursor ∧ cursor ≤ maxImapUid) (hgone : cursor ∉ mailbox.uids) :
    messagesList mailbox.listing mailbox.listing (.int limit) (.int cursor) =
      .error .staleMessageCursor := by
  have hlimit' : integerWithin 1 200 (.int limit) = .ok (limit : Int) := if_pos (by omega)
  have hoffset : integerWithin 0 (2 ^ 32 - 1) (.int cursor) = .ok cursor :=
    if_pos ⟨by omega, hvalid.2⟩
  unfold messagesList
  rw [hlimit', Fallible.ok_bind, hoffset, Fallible.ok_bind,
    listMessageWindow_stale hlimit hvalid hgone]
  rfl

/-! ## The traversal -/

/-- Following the cursors through the mailbox as each request finds it.  The second part is
missing while there is more to read. -/
def follow (snapshots : Nat → Mailbox) (limit : Nat) :
    Nat → Nat → Int → List MessagesPage × Option (Except HelperException Unit)
  | 0, _, _ => ([], none)
  | fuel + 1, i, offset =>
      match messagesList (snapshots i).listing (snapshots i).listing (.int limit) (.int offset) with
      | .error e => ([], some (.error e))
      | .ok page =>
          match page.nextOffset with
          | none => ([page], some (.ok ()))
          | some next =>
              let (pages, result) := follow snapshots limit fuel (i + 1) next
              (page :: pages, result)

/-- Each message down to `bottom` is on its page exactly when that page found it. -/
def Covers (snapshots : Nat → Mailbox) (pages : List MessagesPage) (i : Nat) (bottom top : Int) :
    Prop :=
  ∀ uid, bottom < uid → uid ≤ top → ∃ j page, pages[j]? = some page ∧
    (uid ∈ page.items.map uidOf ↔ uid ∈ (snapshots (i + j)).uids)

/-- The cursor that the request after these pages has. -/
def lastCursor (top : Int) (pages : List MessagesPage) : Option Int :=
  match pages.getLast? with
  | none => some top
  | some last => last.nextOffset

structure Traversed (snapshots : Nat → Mailbox) (limit i : Nat) (top : Int)
    (pages : List MessagesPage) (result : Except HelperException Unit) : Prop where
  count : ∀ page ∈ pages, page.items.length ≤ limit
  descending : (pages.flatMap (·.items)).Pairwise fun a b => uidOf b < uidOf a
  within : ∀ item ∈ pages.flatMap (·.items), uidOf item ≤ top
  shown : ∀ j page, pages[j]? = some page → ∀ item ∈ page.items,
    ∃ record ∈ (snapshots (i + j)).records, item = bounded record
  ends : (result = .ok () ∧ Covers snapshots pages i 0 top) ∨
    ∃ cursor, result = .error .staleMessageCursor ∧
      lastCursor top pages = some cursor ∧ cursor ∉ (snapshots (i + pages.length)).uids ∧
      Covers snapshots pages i cursor top
  /-- No page is read below a cursor that has been deleted. -/
  stale : ∀ j page next, pages[j]? = some page → page.nextOffset = some next →
    next ∉ (snapshots (i + (j + 1))).uids →
      result = .error .staleMessageCursor ∧ pages.length = j + 1

section Traversal

variable {snapshots : Nat → Mailbox} {limit i : Nat} {top : Int} {page : MessagesPage}

/-- What a page says about the UIDs in its range. -/
theorem PageAt.mem_iff {mailbox : Mailbox} (h : PageAt mailbox limit top page) {uid : Int}
    (htop : uid ≤ top) (hnext : ∀ next ∈ page.nextOffset, next < uid) :
    uid ∈ page.items.map uidOf ↔ uid ∈ mailbox.uids := by
  constructor
  · intro hmem
    obtain ⟨item, hitem, rfl⟩ := List.mem_map.mp hmem
    obtain ⟨-, record, hrecord, rfl⟩ := h.shown item hitem
    rw [uidOf_bounded, ← mailbox.uidOf_records]
    exact List.mem_map_of_mem hrecord
  · exact fun huid => h.complete uid huid htop hnext

theorem traversed_last (h : PageAt (snapshots i) limit top page) (hnext : page.nextOffset = none) :
    Traversed snapshots limit i top [page] (.ok ()) where
  count := by
    intro other hother
    rw [List.mem_singleton.mp hother]
    exact h.count
  descending := by simpa using h.descending
  within := by
    intro item hitem
    exact (h.shown item (by simpa using hitem)).1
  shown := by
    intro j other hother
    cases j with
    | zero =>
        cases hother
        exact fun item hitem => (h.shown item hitem).2
    | succ j => simp at hother
  ends := by
    refine Or.inl ⟨rfl, ?_⟩
    intro uid _ htop
    exact ⟨0, page, rfl, h.mem_iff htop (by simp [hnext])⟩
  stale := by
    intro j other next hother hnext'
    cases j with
    | zero =>
        cases hother
        rw [hnext] at hnext'
        cases hnext'
    | succ j => simp at hother

theorem lastCursor_cons {next : Int} (h : page.nextOffset = some next)
    (pages : List MessagesPage) : lastCursor top (page :: pages) = lastCursor next pages := by
  unfold lastCursor
  cases pages with
  | nil => exact h
  | cons other pages => rfl

theorem traversed_cons (h : PageAt (snapshots i) limit top page) {next : Int}
    (hnext : page.nextOffset = some next) {pages : List MessagesPage}
    {result : Except HelperException Unit}
    (hpages : Traversed snapshots limit (i + 1) next pages result)
    (hgone : next ∉ (snapshots (i + 1)).uids →
      result = .error .staleMessageCursor ∧ pages = []) :
    Traversed snapshots limit i top (page :: pages) result := by
  obtain ⟨-, hlt, hbefore⟩ := h.next next hnext
  have hcovers : ∀ bottom, Covers snapshots pages (i + 1) bottom next →
      Covers snapshots (page :: pages) i bottom top := by
    intro bottom hrest uid hbottom htop
    by_cases huid : uid ≤ next
    · obtain ⟨j, other, hother, hiff⟩ := hrest uid hbottom huid
      refine ⟨j + 1, other, hother, ?_⟩
      rw [hiff, Nat.add_right_comm, Nat.add_assoc]
    · refine ⟨0, page, rfl, h.mem_iff htop ?_⟩
      intro other hother
      rw [hnext] at hother
      cases hother
      omega
  refine ⟨?_, ?_, ?_, ?_, ?_, ?_⟩
  · exact List.forall_mem_cons.mpr ⟨h.count, hpages.count⟩
  · rw [List.flatMap_cons, List.pairwise_append]
    refine ⟨h.descending, hpages.descending, ?_⟩
    intro a ha b hb
    have hle := hpages.within b hb
    have := hbefore a ha
    omega
  · intro item hitem
    rw [List.flatMap_cons, List.mem_append] at hitem
    rcases hitem with hitem | hitem
    · exact (h.shown item hitem).1
    · have := hpages.within item hitem
      omega
  · intro j other hother
    cases j with
    | zero =>
        cases hother
        exact fun item hitem => (h.shown item hitem).2
    | succ j =>
        have hshown := hpages.shown j other hother
        rwa [Nat.add_right_comm, Nat.add_assoc] at hshown
  · rcases hpages.ends with ⟨hok, hrest⟩ | ⟨cursor, herror, hlast, hgone, hrest⟩
    · exact Or.inl ⟨hok, hcovers 0 hrest⟩
    · refine Or.inr ⟨cursor, herror, ?_, ?_, hcovers cursor hrest⟩
      · rw [lastCursor_cons hnext]
        exact hlast
      · rw [List.length_cons]
        rwa [Nat.add_right_comm, Nat.add_assoc] at hgone
  · intro j other next' hother hnext' hdeleted
    cases j with
    | zero =>
        cases hother
        rw [hnext] at hnext'
        cases hnext'
        obtain ⟨hresult, rfl⟩ := hgone hdeleted
        exact ⟨hresult, rfl⟩
    | succ j =>
        rw [Nat.add_comm (j + 1), ← Nat.add_assoc] at hdeleted
        obtain ⟨hresult, hlength⟩ := hpages.stale j other next' hother hnext' hdeleted
        exact ⟨hresult, by rw [List.length_cons, hlength]⟩

/-- How many messages are left to read. -/
def left (mailbox : Mailbox) (cursor : Int) : Nat := (mailbox.uids.filter (· ≤ cursor)).length

theorem left_lt {mailbox : Mailbox} {next cursor : Int} (hcursor : cursor ∈ mailbox.uids)
    (hlt : next < cursor) : left mailbox next < left mailbox cursor := by
  have hsub : (mailbox.uids.filter (· ≤ next)).Sublist (mailbox.uids.filter (· ≤ cursor)) := by
    have hsame : mailbox.uids.filter (· ≤ next) =
        (mailbox.uids.filter (· ≤ cursor)).filter (· ≤ next) := by
      rw [List.filter_filter]
      apply List.filter_congr
      intro uid _
      rw [Bool.eq_iff_iff, Bool.and_eq_true, decide_eq_true_eq, decide_eq_true_eq]
      omega
    rw [hsame]
    exact List.filter_sublist
  apply Nat.lt_of_le_of_ne hsub.length_le
  intro hlength
  have hmem : cursor ∈ mailbox.uids.filter (· ≤ next) := by
    rw [hsub.eq_of_length hlength]
    exact List.mem_filter.mpr ⟨hcursor, by simp⟩
  have := (List.mem_filter.mp hmem).2
  simp only [decide_eq_true_eq] at this
  omega

theorem follow_spec (hlimit : 1 ≤ limit ∧ limit ≤ 200) (hfits : ∀ i, FitsAlone (snapshots i))
    (hevolves : ∀ i, (snapshots i).Evolves (snapshots (i + 1))) (fuel : Nat) :
    ∀ i cursor, 1 ≤ cursor ∧ cursor ≤ maxImapUid → left (snapshots i) cursor < fuel →
      ∃ pages result, follow snapshots limit fuel i cursor = (pages, some result) ∧
        Traversed snapshots limit i cursor pages result ∧
        (cursor ∉ (snapshots i).uids → result = .error .staleMessageCursor ∧ pages = []) := by
  induction fuel with
  | zero => exact fun _ _ _ hfuel => absurd hfuel (Nat.not_lt_zero _)
  | succ fuel ih =>
      intro i cursor hvalid hfuel
      unfold follow
      by_cases hcursor : cursor ∈ (snapshots i).uids
      · obtain ⟨page, hpage, hat⟩ := messagesList_cursor (hfits i) hlimit hcursor
        rw [hpage]
        cases hnext : page.nextOffset with
        | none =>
            exact ⟨_, _, by simp only [hnext], traversed_last hat hnext, fun h => absurd hcursor h⟩
        | some next =>
            obtain ⟨hmem, hlt, -⟩ := hat.next next hnext
            obtain ⟨hpos, hbound, hmax⟩ := (snapshots i).uid_bounds hmem
            have hle : left (snapshots (i + 1)) next ≤ left (snapshots i) next :=
              ((hevolves i).uids hbound).length_le
            have hless := left_lt hcursor hlt
            obtain ⟨pages, result, hrun, htraversed, hgone⟩ :=
              ih (i + 1) next ⟨hpos, hmax⟩ (by omega)
            refine ⟨page :: pages, result, ?_, traversed_cons hat hnext htraversed hgone,
              fun h => absurd hcursor h⟩
            simp only [hnext, hrun]
      · rw [messagesList_gone hlimit hvalid hcursor]
        refine ⟨[], _, rfl, ?_, fun _ => ⟨rfl, rfl⟩⟩
        refine ⟨by simp, by simp, by simp, by simp, Or.inr ⟨cursor, rfl, rfl, hcursor, ?_⟩, by simp⟩
        intro uid hbottom htop
        omega

/-- Reading a mailbox from its newest message on, page by page. -/
theorem pagination_complete (hlimit : 1 ≤ limit ∧ limit ≤ 200)
    (hfits : ∀ i, FitsAlone (snapshots i))
    (hevolves : ∀ i, (snapshots i).Evolves (snapshots (i + 1))) :
    ∃ fuel pages result, follow snapshots limit fuel 0 0 = (pages, some result) ∧
      Traversed snapshots limit 0 (newest (snapshots 0)) pages result := by
  obtain ⟨page, hpage, hat⟩ := messagesList_first (hfits 0) hlimit
  cases hnext : page.nextOffset with
  | none =>
      refine ⟨1, [page], .ok (), ?_, traversed_last hat hnext⟩
      unfold follow
      rw [hpage]
      simp only [hnext]
  | some next =>
      obtain ⟨hmem, -, -⟩ := hat.next next hnext
      obtain ⟨hpos, -, hmax⟩ := (snapshots 0).uid_bounds hmem
      obtain ⟨pages, result, hrun, htraversed, hgone⟩ := follow_spec hlimit hfits hevolves
        (left (snapshots 1) next + 1) 1 next ⟨hpos, hmax⟩ (Nat.lt_succ_self _)
      refine ⟨left (snapshots 1) next + 2, page :: pages, result, ?_,
        traversed_cons hat hnext htraversed hgone⟩
      unfold follow
      rw [hpage]
      simp only [hnext, hrun]

end Traversal

/-! ## Three messages, one of which goes -/

def shortMessage (uid : Int) : Message := ⟨uid, {}⟩

def threeMessages : Mailbox where
  messages := [shortMessage 4, shortMessage 7, shortMessage 9]
  uidNext := 10
  ascending := by decide
  valid := by decide

def twoMessages : Mailbox where
  messages := [shortMessage 7, shortMessage 9]
  uidNext := 10
  ascending := by decide
  valid := by decide

/-- The oldest message is deleted after the first request. -/
def shrinking : Nat → Mailbox
  | 0 => threeMessages
  | _ => twoMessages

theorem evolves_shrinking (i : Nat) : (shrinking i).Evolves (shrinking (i + 1)) := by
  cases i with
  | zero => exact ⟨⟨twoMessages.messages, [], rfl, by decide, by simp⟩, by decide⟩
  | succ i =>
      exact ⟨⟨twoMessages.messages, [], rfl, List.Sublist.refl _, by simp⟩, Int.le_refl _⟩

theorem length_repr_uid {uid : Int} (h : 0 ≤ uid ∧ uid ≤ maxImapUid) :
    uid.repr.toList.length ≤ 10 := by
  obtain ⟨n, rfl⟩ := Int.eq_ofNat_of_zero_le h.1
  have hn : n < 10 ^ 10 := by
    have := h.2
    unfold maxImapUid at this
    omega
  rw [String.length_toList]
  exact (Nat.length_repr_le_iff (by decide)).mpr hn

theorem utf8Length_le (text : List Char) : Json.utf8Length text ≤ 4 * text.length := by
  induction text with
  | nil => exact Nat.le_refl _
  | cons c text ih =>
      have hc := Char.utf8Size_le_four c
      unfold Json.utf8Length at ih ⊢
      rw [List.map_cons, List.sum_cons, List.length_cons]
      omega

theorem fits_shortMessage {uid : Int} (huid : 0 ≤ uid ∧ uid ≤ maxImapUid) {position : Nat}
    (hposition : position ≤ 10) {page : MessagesPage}
    (hitems : page.items = [bounded ((shortMessage uid).listed position)]) (hrange : InRange page) :
    page.fits = true := by
  obtain ⟨items, offset, limit, next⟩ := page
  obtain ⟨hoffset, hlimit, hnext⟩ := hrange
  dsimp only at hitems hoffset hlimit hnext
  subst hitems
  have huidText := length_repr_uid huid
  have hpositionText : ((position : Int) + 1).repr.toList.length ≤ 10 :=
    length_repr_uid (by unfold maxImapUid; omega)
  have hoffsetText := length_repr_uid hoffset
  have hlimitText : limit.repr.toList.length ≤ 10 := length_repr_uid (by unfold maxImapUid; omega)
  apply decide_eq_true
  apply Nat.le_trans (utf8Length_le _)
  cases next with
  | none =>
      simp [MessagesPage.value, recordValue, bounded, Message.listed, shortMessage, Json.dumps,
        Json.dumpsItems, Json.dumpsFields, Json.render, Json.renderString, Json.escapeChar]
      omega
  | some next =>
      have hnextText : next.repr.toList.length ≤ 10 := by
        have := hnext next rfl
        exact length_repr_uid (by omega)
      simp [MessagesPage.value, recordValue, bounded, Message.listed, shortMessage, Json.dumps,
        Json.dumpsItems, Json.dumpsFields, Json.render, Json.renderString, Json.escapeChar]
      omega

theorem fitsAlone_shrinking (i : Nat) : FitsAlone (shrinking i) := by
  have hmessages : ∀ message ∈ (shrinking i).messages, ∃ uid, message = shortMessage uid := by
    intro message hmessage
    cases i with
    | zero =>
        simp only [shrinking, threeMessages, List.mem_cons, List.not_mem_nil, or_false] at hmessage
        rcases hmessage with rfl | rfl | rfl <;> exact ⟨_, rfl⟩
    | succ i =>
        simp only [shrinking, twoMessages, List.mem_cons, List.not_mem_nil, or_false] at hmessage
        rcases hmessage with rfl | rfl <;> exact ⟨_, rfl⟩
  have hlength : (shrinking i).records.length ≤ 3 := by
    rw [Mailbox.length_records]
    cases i with
    | zero => decide
    | succ i => show 2 ≤ 3; decide
  intro record hrecord page hitems hrange
  obtain ⟨j, hj, rfl⟩ := List.getElem_of_mem hrecord
  obtain ⟨message, hmessage, heq⟩ := (shrinking i).getElem_records hj
  have hvalid := (shrinking i).valid message hmessage
  obtain ⟨uid, rfl⟩ := hmessages message hmessage
  rw [heq] at hitems
  have hbounds : 0 ≤ uid ∧ uid ≤ maxImapUid := ⟨Int.le_trans (by decide) hvalid.1, hvalid.2.2⟩
  exact fits_shortMessage hbounds (by omega) hitems hrange

theorem pagination_complete_shrinking :
    ∃ fuel pages result, follow shrinking 1 fuel 0 0 = (pages, some result) ∧
      Traversed shrinking 1 0 9 pages result :=
  pagination_complete (by decide) fitsAlone_shrinking evolves_shrinking

end MaddyWeb.Helper.Messages
