import MaddyWeb.Library.Dict
import Mathlib.Data.List.Basic

/-!
# One-use snapshots of messages

`_FreshnessStore` keeps the entries in the order in which their tokens were issued, and for
each owner the tokens that are its own.  The operations contain no `await`.
-/

namespace MaddyWeb.Web.Freshness

open MaddyWeb.Library

/-- `_FreshnessEntry` -/
structure Entry where
  owner : String
  account : String
  mailbox : String
  uid : String
  digest : String
  expiresAt : Nat
  deriving DecidableEq, Repr

/-- The bounds that `__init__` accepts. -/
structure Limits where
  ttl : Nat
  capacity : Nat
  perOwnerCapacity : Nat
  ttl_pos : 0 < ttl
  perOwnerCapacity_pos : 0 < perOwnerCapacity
  perOwner_le : perOwnerCapacity ≤ capacity

structure Store where
  entries : List (String × Entry)
  owners : List (String × List String)
  deriving DecidableEq, Repr

/-- `_owners` without the token. -/
def dropOwned (owners : List (String × List String)) (owner token : String) :
    List (String × List String) :=
  match Dict.get owners owner with
  | none => owners
  | some tokens =>
      if (tokens.filter (· ≠ token)).isEmpty then Dict.erase owners owner
      else Dict.set owners owner (tokens.filter (· ≠ token))

/-- `_remove` -/
def Store.remove (s : Store) (token : String) : Option Entry × Store :=
  match Dict.get s.entries token with
  | none => (none, s)
  | some entry =>
      (some entry, ⟨Dict.erase s.entries token, dropOwned s.owners entry.owner token⟩)

/-- The loop of `_prune`. -/
def pruneLoop (now : Nat) : Nat → Store → Store
  | 0, s => s
  | rounds + 1, s =>
      match s.entries with
      | [] => s
      | (token, entry) :: _ =>
          if now < entry.expiresAt then s else pruneLoop now rounds (s.remove token).2

/-- `_prune`; each round removes an entry. -/
def Store.prune (s : Store) (now : Nat) : Store := pruneLoop now s.entries.length s

/-- `owner_entries`, which is empty once it has been deleted from `_owners`. -/
def Store.owned (s : Store) (owner : String) : List String := (Dict.get s.owners owner).getD []

/-- The first loop of `issue`. -/
def evictOwned (limits : Limits) (owner : String) : Nat → Store → Store
  | 0, s => s
  | rounds + 1, s =>
      match s.owned owner with
      | [] => s
      | token :: rest =>
          if limits.perOwnerCapacity ≤ (token :: rest).length then
            evictOwned limits owner rounds (s.remove token).2
          else s

/-- The last loop of `issue`. -/
def evictOldest (limits : Limits) : Nat → Store → Store
  | 0, s => s
  | rounds + 1, s =>
      match s.entries with
      | [] => s
      | (token, _) :: _ =>
          if limits.capacity < s.entries.length then
            evictOldest limits rounds (s.remove token).2
          else s

/-- `re.fullmatch(r"[0-9a-f]{64}", owner)` -/
def validOwner (owner : String) : Bool :=
  owner.toList.length == 64 &&
    owner.toList.all fun c => c.isDigit || (0x61 ≤ c.toNat && c.toNat ≤ 0x66)

/-- `re.fullmatch(r"[A-Za-z0-9_-]{43}", token)` -/
def validToken (token : String) : Bool :=
  token.toList.length == 43 && token.toList.all fun c => c.isAlphanum || c == '_' || c == '-'

/-- `_owners.setdefault(owner, OrderedDict())[token] = None` for a token that is not in it. -/
def addOwned (owners : List (String × List String)) (owner token : String) :
    List (String × List String) :=
  Dict.set owners owner ((Dict.get owners owner).getD [] ++ [token])

/-- How a call ends. -/
inductive Outcome
  | issued (token : String)
  /-- `issue` raises `ValueError`. -/
  | invalidOwner
  | consumed (entry : Entry)
  | absent
  /-- `secrets.compare_digest` raises `TypeError` for text outside ASCII. -/
  | uncomparable
  deriving DecidableEq, Repr

/-- `issue`, which uses the first of its draws that is not a token in use. -/
def Store.issue (s : Store) (limits : Limits) (draws : List String) (now : Nat)
    (owner account mailbox uid digest : String) : Option (Outcome × Store) :=
  let live := s.prune now
  if validOwner owner then
    let room := evictOwned limits owner (live.owned owner).length live
    (draws.find? fun token => (Dict.get room.entries token).isNone).map fun token =>
      let entry : Entry := ⟨owner, account, mailbox, uid, digest, now + limits.ttl⟩
      let full : Store := ⟨room.entries ++ [(token, entry)], addOwned room.owners owner token⟩
      (.issued token, evictOldest limits full.entries.length full)
  else some (.invalidOwner, live)

/-- `consume` -/
def Store.consume (s : Store) (now : Nat) (token owner : String) : Outcome × Store :=
  let live := s.prune now
  if validToken token then
    match Dict.get live.entries token with
    | none => (.absent, live)
    | some entry =>
        if !owner.toList.all (·.toNat < 0x80) then (.uncomparable, live)
        else if entry.owner = owner then (.consumed entry, (live.remove token).2)
        else (.absent, live)
  else (.absent, live)

inductive Op
  | issue (now : Nat) (owner account mailbox uid digest : String) (draws : List String)
  | consume (now : Nat) (token owner : String)
  deriving DecidableEq, Repr

def Op.now : Op → Nat
  | .issue now .. => now
  | .consume now .. => now

/-- A call that returns or raises. -/
def Store.step (limits : Limits) (s : Store) : Op → Option (Outcome × Store)
  | .issue now owner account mailbox uid digest draws =>
      s.issue limits draws now owner account mailbox uid digest
  | .consume now token owner => some (s.consume now token owner)

end MaddyWeb.Web.Freshness
