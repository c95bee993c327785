import MaddyWeb.Auth.Schema
import MaddyWeb.Library.Text
import Mathlib.Algebra.GroupWithZero.Nat

/-!
# TOTP secrets and codes

HMAC-SHA1 is an arbitrary function of the secret and the counter; the truncation
and the search of the window are those of the source.
-/

namespace MaddyWeb.Auth

open MaddyWeb.Library.Text

def totpPeriodSeconds : Nat := 30
def totpWindow : Nat := 1
def totpSecretBytes : Nat := 20

/-- `str.upper` on the characters whose upper case is ASCII. -/
def upperAscii (c : Char) : List Char :=
  if c.isLower && c.toNat < 0x80 then [c.toUpper]
  else match c.toNat with
    | 0xDF => ['S', 'S']
    | 0x131 => ['I']
    | 0x17F => ['S']
    | 0xFB00 => ['F', 'F']
    | 0xFB01 => ['F', 'I']
    | 0xFB02 => ['F', 'L']
    | 0xFB03 => ['F', 'F', 'I']
    | 0xFB04 => ['F', 'F', 'L']
    | 0xFB05 => ['S', 'T']
    | 0xFB06 => ['S', 'T']
    | _ => [c]

def base32Value (c : Char) : Option Nat :=
  if 'A' ≤ c ∧ c ≤ 'Z' then some (c.toNat - 0x41)
  else if '2' ≤ c ∧ c ≤ '7' then some (c.toNat - 0x32 + 26)
  else none

/-- The bytes of a big-endian number. -/
def bigEndian (value : Nat) : Nat → Bytes
  | 0 => []
  | width + 1 => bigEndian (value / 256) width ++ [UInt8.ofNat (value % 256)]

/-- `decode_totp_secret`: padding cannot give twenty bytes, so no character is `=`. -/
def decodeTotpSecret (value : String) : Option Bytes :=
  let normalized := (value.toList.flatMap upperAscii).filter fun c => !isSpace c
  if normalized.length ≠ 32 then none
  else (normalized.mapM base32Value).map fun digits =>
    bigEndian (digits.foldl (fun total digit => 32 * total + digit) 0) totpSecretBytes

/-- `f"{value:06d}"` -/
def sixDigits (value : Nat) : String :=
  let text := toString value
  String.ofList (List.replicate (6 - text.length) '0') ++ text

/-- `_totp_for_counter` -/
def totpForCounter (hmacSha1 : Bytes → Nat → Bytes) (secret : Bytes) (counter : Nat) : String :=
  let digest := hmacSha1 secret counter
  let offset := (digest.getLastD 0).toNat % 16
  let word := ((digest.drop offset).take 4).foldl (fun total byte => 256 * total + byte.toNat) 0
  sixDigits (word % 2 ^ 31 % 1000000)

/-- `_matching_totp_counter`: the loop keeps the last candidate whose code matches. -/
def matchingTotpCounter (hmacSha1 : Bytes → Nat → Bytes) (secret : Bytes) (code : String)
    (now : Nat) : Option Nat :=
  let bounded := if code.length = 6 ∧ code.toList.all (·.toNat < 0x80) then code else ""
  let current := now / totpPeriodSeconds
  let first := current - totpWindow
  (List.range' first (current + totpWindow + 1 - first)).foldl
    (fun found candidate =>
      if totpForCounter hmacSha1 secret candidate = bounded then some candidate else found) none

theorem foldl_keep_last_mem {α : Type} (p : α → Bool) (xs : List α) (start : Option α) {x : α}
    (h : xs.foldl (fun found y => if p y then some y else found) start = some x) :
    x ∈ xs ∨ start = some x := by
  induction xs generalizing start with
  | nil => exact Or.inr h
  | cons y ys ih =>
      rcases ih _ h with hmem | hstart
      · exact Or.inl (List.mem_cons_of_mem y hmem)
      · dsimp only at hstart
        split at hstart
        · cases hstart
          exact Or.inl List.mem_cons_self
        · exact Or.inr hstart

/-- An accepted counter is at most one step away from the current one. -/
theorem matchingTotpCounter_window {hmacSha1 : Bytes → Nat → Bytes} {secret : Bytes}
    {code : String} {now counter : Nat}
    (h : matchingTotpCounter hmacSha1 secret code now = some counter) :
    now / 30 ≤ counter + 1 ∧ counter ≤ now / 30 + 1 := by
  unfold matchingTotpCounter at h
  have hmem := foldl_keep_last_mem
    (fun candidate => decide (totpForCounter hmacSha1 secret candidate = _)) _ none
    (by simpa only [decide_eq_true_eq] using h)
  simp only [List.mem_range'_1, totpPeriodSeconds, totpWindow, reduceCtorEq, or_false] at hmem
  omega

end MaddyWeb.Auth
