import MaddyWeb.Library.Dict
import Mathlib.Data.List.Pairwise

/-!
# Opaque mailbox cursors

`_MailboxCursorStore` keeps the states behind the tokens of the message lists, for a time and up
to a number.  A cursor resolves exactly while it is among the last of them and has not expired.
-/

namespace MaddyWeb.Web

def maxMessageCursor : Nat := 0xFFFFFFFF
def maxAllMailMailboxes : Nat := 64

namespace MailboxCursors

open MaddyWeb.Library

def maxMailboxPage : Int := 10000

/-- What `_MailboxCursorState` and `_AllMailCursorState` do not share. -/
inductive View
  | mailbox (mailbox : String) (offset : Int)
  | allMail (mailboxes : List String) (offsets : List (String × Int))
  deriving DecidableEq, Repr

structure Cursor where
  account : String
  view : View
  page : Int
  previous : Option String
  expiresAt : Nat
  deriving DecidableEq, Repr

/-- The bounds that `__init__` accepts. -/
structure Limits where
  ttl : Nat
  capacity : Nat
  ttl_pos : 0 < ttl
  capacity_pos : 0 < capacity

/-- `_states`, in the order in which the cursors were created -/
abbrev Store := List (String × Cursor)

inductive Error
  | invalidCursor
  | mismatchedCursor
  | outOfBounds
  | allMailOutOfBounds
  | invalidContinuation
  | noActiveMailbox
  deriving DecidableEq, Repr

def Error.message : Error → String
  | .invalidCursor => "invalid mailbox cursor"
  | .mismatchedCursor => "expired or mismatched mailbox cursor"
  | .outOfBounds => "mailbox cursor state is out of bounds"
  | .allMailOutOfBounds => "all-mail cursor state is out of bounds"
  | .invalidContinuation => "all-mail cursor continuation is invalid"
  | .noActiveMailbox => "all-mail cursor has no active mailbox"

/-- `_prune` -/
def prune (now : Nat) : Store → Store
  | [] => []
  | entry :: rest => if now < entry.2.expiresAt then entry :: rest else prune now rest

/-- `[A-Za-z0-9_-]{32}` -/
def isCursorToken (token : String) : Bool :=
  token.toList.length = 32 && token.toList.all fun c => c.isAlphanum || c = '_' || c = '-'

/-- What `resolve` and `resolve_all` share. -/
def lookup (s : Store) (now : Nat) (token : String) (accepts : Cursor → Bool) :
    Except Error Cursor × Store :=
  if isCursorToken token then
    let s := prune now s
    match Dict.get s token with
    | none => (.error .mismatchedCursor, s)
    | some cursor =>
        if cursor.expiresAt ≤ now || !accepts cursor then (.error .mismatchedCursor, s)
        else (.ok cursor, s)
  else (.error .invalidCursor, s)

def Cursor.isFor (account mailbox : String) (cursor : Cursor) : Bool :=
  match cursor.view with
  | .mailbox own _ => cursor.account = account && own = mailbox
  | .allMail _ _ => false

def Cursor.isForAll (account : String) (mailboxes : List String) (cursor : Cursor) : Bool :=
  match cursor.view with
  | .mailbox _ _ => false
  | .allMail own _ => cursor.account = account && own = mailboxes

def resolve (s : Store) (now : Nat) (token account mailbox : String) :
    Except Error Cursor × Store :=
  lookup s now token (Cursor.isFor account mailbox)

def resolveAll (s : Store) (now : Nat) (token account : String) (mailboxes : List String) :
    Except Error Cursor × Store :=
  lookup s now token (Cursor.isForAll account mailboxes)

/-- What `create` and `create_all` share; `draws` are the tokens that are drawn one after the
other, and there is no step where all of them are taken. -/
def insert (limits : Limits) (s : Store) (now : Nat) (draws : List String) (account : String)
    (view : View) (page : Int) (previous : Option String) : Option (String × Store) :=
  let s := prune now s
  (draws.find? fun token => (Dict.get s token).isNone).map fun token =>
    let s := s ++ [(token, ⟨account, view, page, previous, now + limits.ttl⟩)]
    (token, s.drop (s.length - limits.capacity))

def validPage (page : Int) : Bool := 1 ≤ page && page ≤ maxMailboxPage

def validOffset (offset : Int) : Bool := 0 ≤ offset && offset ≤ maxMessageCursor

/-- The loop over the offsets of `create_all`. -/
def validOffsets (allowed : List String) : List String → List (String × Int) → Bool
  | _, [] => true
  | seen, (mailbox, offset) :: rest =>
      mailbox ∈ allowed && mailbox ∉ seen && validOffset offset &&
        validOffsets allowed (mailbox :: seen) rest

/-- The arguments of `create_all` that are accepted. -/
def checkAll (mailboxes : List String) (offsets : List (String × Int)) (page : Int) :
    Except Error Unit :=
  if !(1 ≤ mailboxes.length && mailboxes.length ≤ maxAllMailMailboxes) ||
      mailboxes.dedup.length ≠ mailboxes.length || !validPage page then
    .error .allMailOutOfBounds
  else if !validOffsets mailboxes [] offsets then .error .invalidContinuation
  else if offsets.isEmpty then .error .noActiveMailbox
  else .ok ()

inductive Op
  | resolve (now : Nat) (token account mailbox : String)
  | resolveAll (now : Nat) (token account : String) (mailboxes : List String)
  | create (now : Nat) (draws : List String) (account mailbox : String) (offset page : Int)
      (previous : Option String)
  | createAll (now : Nat) (draws : List String) (account : String) (mailboxes : List String)
      (offsets : List (String × Int)) (page : Int) (previous : Option String)
  deriving DecidableEq, Repr

inductive Outcome
  | resolved (cursor : Cursor)
  | created (token : String) (cursor : Cursor)
  | failed (error : Error)
  deriving DecidableEq, Repr

def Op.now : Op → Nat
  | .resolve now .. | .resolveAll now .. | .create now .. | .createAll now .. => now

def ofLookup (result : Except Error Cursor × Store) : Outcome × Store :=
  match result with
  | (.ok cursor, s) => (.resolved cursor, s)
  | (.error error, s) => (.failed error, s)

def ofInsert (cursor : Cursor) (result : String × Store) : Outcome × Store :=
  (.created result.1 cursor, result.2)

def step (limits : Limits) (s : Store) : Op → Option (Outcome × Store)
  | .resolve now token account mailbox => some (ofLookup (resolve s now token account mailbox))
  | .resolveAll now token account mailboxes =>
      some (ofLookup (resolveAll s now token account mailboxes))
  | .create now draws account mailbox offset page previous =>
      if validOffset offset && validPage page then
        (insert limits s now draws account (.mailbox mailbox offset) page previous).map
          (ofInsert ⟨account, .mailbox mailbox offset, page, previous, now + limits.ttl⟩)
      else some (.failed .outOfBounds, s)
  | .createAll now draws account mailboxes offsets page previous =>
      match checkAll mailboxes offsets page with
      | .error error => some (.failed error, s)
      | .ok () =>
          (insert limits s now draws account (.allMail mailboxes offsets) page previous).map
            (ofInsert ⟨account, .allMail mailboxes offsets, page, previous, now + limits.ttl⟩)

/-- The cursor that a call has created, under its token. -/
def Outcome.creation : Outcome → List (String × Cursor)
  | .created token cursor => [(token, cursor)]
  | _ => []

/-- The time of the last call, the cursors created so far and the store. -/
inductive Run (limits : Limits) : Nat → List (String × Cursor) → Store → Prop
  | nil : Run limits 0 [] []
  | snoc {clock : Nat} {created : List (String × Cursor)} {s s' : Store} {op : Op}
      {outcome : Outcome} : Run limits clock created s → clock ≤ op.now →
      step limits s op = some (outcome, s') →
      Run limits op.now (created ++ outcome.creation) s'

/-- The store is the end of what has been created; the rest has expired or is too old. -/
structure Recent (limits : Limits) (clock : Nat) (created : List (String × Cursor)) (s : Store) :
    Prop where
  suffix : ∃ front, created = front ++ s ∧ ∀ n entry, front[n]? = some entry →
    entry.2.expiresAt ≤ clock ∨ n + limits.capacity < created.length
  sorted : created.Pairwise fun first second => first.2.expiresAt ≤ second.2.expiresAt
  inTime : ∀ entry ∈ created, entry.2.expiresAt ≤ clock + limits.ttl
  nodup : (s.map (·.1)).Nodup
  length_le : s.length ≤ limits.capacity

variable {limits : Limits} {clock now : Nat} {created : List (String × Cursor)} {s s' : Store}

/-- Pruning takes expired entries from the front, and an unexpired one stands first after it. -/
theorem prune_spec (now : Nat) (s : Store) :
    ∃ front, s = front ++ prune now s ∧ (∀ entry ∈ front, entry.2.expiresAt ≤ now) ∧
      ∀ entry ∈ (prune now s).head?, now < entry.2.expiresAt := by
  induction s with
  | nil => exact ⟨[], rfl, by simp, by simp [prune]⟩
  | cons entry rest ih =>
      by_cases hlive : now < entry.2.expiresAt
      · refine ⟨[], ?_, by simp, ?_⟩
        · simp [prune, hlive]
        · simp [prune, hlive]
      · obtain ⟨front, heq, hexpired, hhead⟩ := ih
        rw [prune, if_neg hlive]
        refine ⟨entry :: front, by rw [List.cons_append, ← heq], ?_, hhead⟩
        intro other hother
        rcases List.mem_cons.mp hother with rfl | hother
        · omega
        · exact hexpired other hother

/-- In a sorted store the entries that are left are the unexpired ones. -/
theorem mem_prune (hsorted : s.Pairwise fun first second => first.2.expiresAt ≤ second.2.expiresAt)
    {entry : String × Cursor} : entry ∈ prune now s ↔ entry ∈ s ∧ now < entry.2.expiresAt := by
  induction s with
  | nil => simp [prune]
  | cons first rest ih =>
      obtain ⟨hfirst, hrest⟩ := List.pairwise_cons.mp hsorted
      by_cases hlive : now < first.2.expiresAt
      · rw [prune, if_pos hlive]
        refine ⟨fun hmem => ⟨hmem, ?_⟩, fun h => h.1⟩
        rcases List.mem_cons.mp hmem with rfl | hmem
        · exact hlive
        · have hle := hfirst entry hmem
          omega
      · rw [prune, if_neg hlive, ih hrest]
        refine ⟨fun ⟨hmem, h⟩ => ⟨List.mem_cons_of_mem _ hmem, h⟩, fun ⟨hmem, h⟩ => ⟨?_, h⟩⟩
        rcases List.mem_cons.mp hmem with rfl | hmem
        · exact absurd h hlive
        · exact hmem

theorem prune_sublist (now : Nat) (s : Store) : (prune now s).Sublist s := by
  obtain ⟨front, heq, -⟩ := prune_spec now s
  nth_rewrite 2 [heq]
  exact List.sublist_append_right _ _

theorem Recent.later (h : Recent limits clock created s) (hle : clock ≤ now) :
    Recent limits now created s := by
  obtain ⟨⟨front, heq, hfront⟩, hsorted, htime, hnodup, hlength⟩ := h
  refine ⟨⟨front, heq, fun n entry hn => ?_⟩, hsorted, fun entry hentry => ?_, hnodup, hlength⟩
  · exact (hfront n entry hn).imp_left fun h => by omega
  · have hold := htime entry hentry
    omega

theorem Recent.pruned (h : Recent limits clock created s) (hle : clock ≤ now) :
    Recent limits now created (prune now s) := by
  obtain ⟨dropped, hs, hdropped, -⟩ := prune_spec now s
  obtain ⟨⟨front, heq, hfront⟩, hsorted, htime, hnodup, hlength⟩ := h.later hle
  have hsublist := prune_sublist now s
  refine ⟨⟨front ++ dropped, ?_, ?_⟩, hsorted, htime, hnodup.sublist (hsublist.map _),
    Nat.le_trans hsublist.length_le hlength⟩
  · rw [List.append_assoc, ← hs, heq]
  · intro n entry hn
    rw [List.getElem?_append] at hn
    split at hn
    · exact hfront n entry hn
    · exact Or.inl (hdropped entry (List.mem_of_getElem? hn))

/-- A cursor is added under a token that is not taken, and the oldest ones beyond the capacity
are given up. -/
theorem Recent.push (h : Recent limits now created s) {token : String} {cursor : Cursor}
    (htoken : Dict.get s token = none) (hexpires : cursor.expiresAt = now + limits.ttl) :
    Recent limits now (created ++ [(token, cursor)])
      ((s ++ [(token, cursor)]).drop ((s ++ [(token, cursor)]).length - limits.capacity)) := by
  obtain ⟨⟨front, heq, hfront⟩, hsorted, htime, hnodup, hlength⟩ := h
  have hfull : ((s ++ [(token, cursor)]).map (·.1)).Nodup := by
    rw [List.map_append, List.map_singleton]
    refine hnodup.append (List.nodup_singleton _) ?_
    intro key hkey hsame
    obtain ⟨entry, hentry, rfl⟩ := List.mem_map.mp hkey
    rw [List.mem_singleton] at hsame
    have hsome := Dict.get_eq_some hnodup hentry
    rw [hsame, htoken] at hsome
    cases hsome
  refine ⟨⟨front ++ (s ++ [(token, cursor)]).take
    ((s ++ [(token, cursor)]).length - limits.capacity),
    ?_, ?_⟩, ?_, ?_, hfull.sublist ((List.drop_sublist _ _).map _), ?_⟩
  · rw [List.append_assoc, List.take_append_drop, heq, List.append_assoc]
  · intro n entry hn
    rw [List.getElem?_append] at hn
    split at hn
    · refine (hfront n entry hn).imp_right fun hlt => ?_
      rw [List.length_append]
      omega
    · right
      have hlt : n - front.length < (s ++ [(token, cursor)]).length - limits.capacity := by
        by_contra hge
        rw [List.getElem?_eq_none (by rw [List.length_take]; omega)] at hn
        cases hn
      rw [heq, List.append_assoc, List.length_append]
      omega
  · rw [List.pairwise_append]
    refine ⟨hsorted, List.pairwise_singleton _ _, ?_⟩
    intro entry hentry other hother
    rw [List.mem_singleton.mp hother, hexpires]
    exact htime entry hentry
  · intro entry hentry
    rcases List.mem_append.mp hentry with hold | hnew
    · exact htime entry hold
    · rw [List.mem_singleton.mp hnew]
      exact Nat.le_of_eq hexpires
  · rw [List.length_drop]
    omega

theorem Recent.insert (h : Recent limits clock created s) (hle : clock ≤ now) {draws : List String}
    {account : String} {view : View} {page : Int} {previous : Option String} {token : String}
    (hinsert : insert limits s now draws account view page previous = some (token, s')) :
    Recent limits now
      (created ++ [(token, ⟨account, view, page, previous, now + limits.ttl⟩)]) s' := by
  obtain ⟨drawn, hdraw, hresult⟩ := Option.map_eq_some_iff.mp hinsert
  have hfree := List.find?_some hdraw
  rw [Option.isNone_iff_eq_none] at hfree
  cases hresult
  exact (h.pruned hle).push hfree rfl

theorem Recent.lookup (h : Recent limits clock created s) (hle : clock ≤ now) (token : String)
    (accepts : Cursor → Bool) : Recent limits now created (lookup s now token accepts).2 := by
  unfold MailboxCursors.lookup
  split
  · dsimp only
    split
    · exact h.pruned hle
    · split
      · exact h.pruned hle
      · exact h.pruned hle
  · exact h.later hle

theorem creation_ofLookup (result : Except Error Cursor × Store) :
    (ofLookup result).1.creation = [] ∧ (ofLookup result).2 = result.2 := by
  obtain ⟨cursor | error, s⟩ := result <;> exact ⟨rfl, rfl⟩

/-- Every run keeps the last cursors. -/
theorem Run.recent (hrun : Run limits clock created s) : Recent limits clock created s := by
  induction hrun with
  | nil => exact ⟨⟨[], rfl, by simp⟩, List.Pairwise.nil, by simp, List.nodup_nil, Nat.zero_le _⟩
  | @snoc clock created s s' op outcome hrun hle hstep ih =>
      cases op with
      | resolve now token account mailbox =>
          obtain ⟨hcreation, hs⟩ := creation_ofLookup (resolve s now token account mailbox)
          rw [Option.some.inj hstep] at hcreation hs
          dsimp only at hcreation hs
          rw [hcreation, List.append_nil, hs]
          exact ih.lookup hle token _
      | resolveAll now token account mailboxes =>
          obtain ⟨hcreation, hs⟩ := creation_ofLookup (resolveAll s now token account mailboxes)
          rw [Option.some.inj hstep] at hcreation hs
          dsimp only at hcreation hs
          rw [hcreation, List.append_nil, hs]
          exact ih.lookup hle token _
      | create now draws account mailbox offset page previous =>
          rw [step] at hstep
          split at hstep
          · obtain ⟨⟨token, rest⟩, hinsert, hresult⟩ := Option.map_eq_some_iff.mp hstep
            cases hresult
            exact ih.insert hle hinsert
          · cases hstep
            simpa only [Outcome.creation, List.append_nil] using ih.later hle
      | createAll now draws account mailboxes offsets page previous =>
          rw [step] at hstep
          split at hstep
          · cases hstep
            simpa only [Outcome.creation, List.append_nil] using ih.later hle
          · obtain ⟨⟨token, rest⟩, hinsert, hresult⟩ := Option.map_eq_some_iff.mp hstep
            cases hresult
            exact ih.insert hle hinsert

theorem lookup_eq_ok (s : Store) (now : Nat) (token : String) (accepts : Cursor → Bool)
    (cursor : Cursor) : (lookup s now token accepts).1 = .ok cursor ↔
      isCursorToken token = true ∧ Dict.get (prune now s) token = some cursor ∧
        now < cursor.expiresAt ∧ accepts cursor = true := by
  unfold lookup
  by_cases htoken : isCursorToken token = true
  · rw [if_pos htoken]
    dsimp only
    cases hget : Dict.get (prune now s) token with
    | none => simp [htoken]
    | some found =>
        dsimp only
        by_cases hbad : (decide (found.expiresAt ≤ now) || !accepts found) = true
        · rw [if_pos hbad]
          constructor
          · intro h
            cases h
          · rintro ⟨-, heq, hlive, haccepts⟩
            cases heq
            simp [haccepts] at hbad
            omega
        · rw [if_neg hbad]
          simp only [Bool.or_eq_true, decide_eq_true_eq, Bool.not_eq_true', not_or, Nat.not_le,
            Bool.not_eq_false] at hbad
          constructor
          · intro h
            cases h
            exact ⟨htoken, rfl, hbad⟩
          · rintro ⟨-, heq, -⟩
            cases heq
            rfl
  · rw [if_neg htoken]
    simp [htoken]

theorem Recent.get_iff (h : Recent limits clock created s) (hle : clock ≤ now) (token : String)
    (cursor : Cursor) : (Dict.get (MailboxCursors.prune now s) token = some cursor ∧
        now < cursor.expiresAt) ↔
      now < cursor.expiresAt ∧ ∃ n, created[n]? = some (token, cursor) ∧
        created.length ≤ n + limits.capacity := by
  have hsorted : s.Pairwise fun first second => first.2.expiresAt ≤ second.2.expiresAt := by
    obtain ⟨front, heq, -⟩ := h.suffix
    have hall := h.sorted
    rw [heq] at hall
    exact (List.pairwise_append.mp hall).2.1
  obtain ⟨front, heq, hfront⟩ := h.suffix
  have hcount : created.length = front.length + s.length := by rw [heq, List.length_append]
  refine ⟨fun ⟨hget, hlive⟩ => ⟨hlive, ?_⟩, fun ⟨hlive, n, hn, hnear⟩ => ⟨?_, hlive⟩⟩
  · have hmem := ((mem_prune hsorted).mp (Dict.mem_of_get hget)).1
    obtain ⟨m, hm⟩ := List.mem_iff_getElem?.mp hmem
    have hlength := h.length_le
    refine ⟨front.length + m, ?_, by omega⟩
    rw [heq, List.getElem?_append_right (by omega), Nat.add_sub_cancel_left, hm]
  · have hs : (token, cursor) ∈ s := by
      rw [heq, List.getElem?_append] at hn
      split at hn
      · exfalso
        rcases hfront n _ hn with hexpired | hfar
        · have hexpired : cursor.expiresAt ≤ clock := hexpired
          omega
        · omega
      · exact List.mem_of_getElem? hn
    have hmem := (mem_prune hsorted).mpr ⟨hs, hlive⟩
    have hnodup := h.nodup.sublist ((prune_sublist now s).map _)
    exact Dict.get_eq_some hnodup hmem

/-- In every run a cursor resolves exactly while it has not expired and is among the last
`capacity` that were created, and for nothing but what it was created for. -/
theorem cursors_resolve_exactly (hrun : Run limits clock created s) (hnow : clock ≤ now)
    (token account : String) (cursor : Cursor) :
    (∀ mailbox, (resolve s now token account mailbox).1 = .ok cursor ↔
      isCursorToken token = true ∧ cursor.isFor account mailbox = true ∧ now < cursor.expiresAt ∧
        ∃ n, created[n]? = some (token, cursor) ∧ created.length ≤ n + limits.capacity) ∧
    ∀ mailboxes, (resolveAll s now token account mailboxes).1 = .ok cursor ↔
      isCursorToken token = true ∧ cursor.isForAll account mailboxes = true ∧
        now < cursor.expiresAt ∧
        ∃ n, created[n]? = some (token, cursor) ∧ created.length ≤ n + limits.capacity := by
  have hget := hrun.recent.get_iff hnow token cursor
  refine ⟨fun mailbox => ?_, fun mailboxes => ?_⟩
  · rw [resolve, lookup_eq_ok]
    constructor
    · rintro ⟨htoken, hfound, hlive, haccepts⟩
      exact ⟨htoken, haccepts, hget.mp ⟨hfound, hlive⟩⟩
    · rintro ⟨htoken, haccepts, hrecent⟩
      obtain ⟨hfound, hlive⟩ := hget.mpr hrecent
      exact ⟨htoken, hfound, hlive, haccepts⟩
  · rw [resolveAll, lookup_eq_ok]
    constructor
    · rintro ⟨htoken, hfound, hlive, haccepts⟩
      exact ⟨htoken, haccepts, hget.mp ⟨hfound, hlive⟩⟩
    · rintro ⟨htoken, haccepts, hrecent⟩
      obtain ⟨hfound, hlive⟩ := hget.mpr hrecent
      exact ⟨htoken, hfound, hlive, haccepts⟩

def sampleLimits : Limits := ⟨10, 1, Nat.succ_pos 9, Nat.succ_pos 0⟩

def sampleToken (c : Char) : String := String.ofList (List.replicate 32 c)

def sampleCursor : Cursor := ⟨"ann", .mailbox "INBOX" 20, 2, none, 13⟩

def firstOp : Op := .create 1 [sampleToken 'a'] "ann" "INBOX" 0 1 none

def secondOp : Op := .create 3 [sampleToken 'b'] "ann" "INBOX" 20 2 none

/-- The first cursor makes room for the second. -/
theorem sampleRun : Run sampleLimits 3
    [(sampleToken 'a', ⟨"ann", .mailbox "INBOX" 0, 1, none, 11⟩), (sampleToken 'b', sampleCursor)]
    [(sampleToken 'b', sampleCursor)] := by
  have hfirst : step sampleLimits [] firstOp = some (.created (sampleToken 'a')
      ⟨"ann", .mailbox "INBOX" 0, 1, none, 11⟩,
      [(sampleToken 'a', ⟨"ann", .mailbox "INBOX" 0, 1, none, 11⟩)]) := by decide +kernel
  have hsecond : step sampleLimits [(sampleToken 'a', ⟨"ann", .mailbox "INBOX" 0, 1, none, 11⟩)]
      secondOp = some (.created (sampleToken 'b') sampleCursor,
        [(sampleToken 'b', sampleCursor)]) := by
    decide +kernel
  exact .snoc (.snoc .nil (Nat.zero_le _) hfirst) (by decide) hsecond

theorem cursors_resolve_exactly_sample :
    (resolve [(sampleToken 'b', sampleCursor)] 5 (sampleToken 'b') "ann" "INBOX").1 =
      .ok sampleCursor :=
  ((cursors_resolve_exactly sampleRun (by decide) _ _ _).1 _).mpr
    ⟨by decide +kernel, by decide, by decide, 1, rfl, by decide⟩

end MailboxCursors

end MaddyWeb.Web
