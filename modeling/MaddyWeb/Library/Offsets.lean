import Mathlib.Data.Nat.Digits.Defs
import Mathlib.Data.List.Basic

/-!
# Reading a byte string by offsets

A scanner holds the whole of its data and an offset.  A slice outside the data is cut off in
silence; an index outside the data raises.  What a scanner reads at an offset is what stands at
the front of the data from there on.
-/

namespace MaddyWeb.Library.Offsets

inductive IndexError
  | outOfRange
  deriving DecidableEq, Repr

/-- `data[offset]` -/
def byteAt (data : List UInt8) (offset : Nat) : Except IndexError UInt8 :=
  match data[offset]? with
  | some byte => .ok byte
  | none => .error .outOfRange

/-- `data[start:stop]` -/
def slice (data : List UInt8) (start stop : Nat) : List UInt8 :=
  (data.drop start).take (stop - start)

/-- `int.from_bytes(data, "little")` -/
def fromLittle (data : List UInt8) : Nat := Nat.ofDigits 256 (data.map UInt8.toNat)

/-- `int.from_bytes(data, "big")` -/
def fromBig (data : List UInt8) : Nat := fromLittle data.reverse

section At

variable {data rest : List UInt8} {offset : Nat} (h : data.drop offset = rest)

include h

theorem length_eq_of_drop (hne : rest ≠ []) : data.length = offset + rest.length := by
  have hlength := congrArg List.length h
  have hpos := List.length_pos_iff.mpr hne
  rw [List.length_drop] at hlength
  omega

theorem drop_add (n : Nat) : data.drop (offset + n) = rest.drop n := by
  rw [← List.drop_drop, h]

theorem slice_at (i j : Nat) : slice data (offset + i) (offset + j) = slice rest i j := by
  unfold slice
  rw [drop_add h, Nat.add_sub_add_left]

theorem byteAt_add (i : Nat) : byteAt data (offset + i) = byteAt rest i := by
  unfold byteAt
  rw [← h, List.getElem?_drop]

end At

theorem byteAt_of_lt {data : List UInt8} {offset : Nat} (h : offset < data.length) :
    byteAt data offset = .ok data[offset] := by
  unfold byteAt
  rw [List.getElem?_eq_getElem h]

theorem exists_byteAt {data : List UInt8} {offset : Nat} (h : offset < data.length) :
    ∃ byte, byteAt data offset = .ok byte ∧ data.drop offset = byte :: data.drop (offset + 1) :=
  ⟨data[offset], byteAt_of_lt h, List.drop_eq_getElem_cons h⟩

theorem byteAt_of_drop {data rest : List UInt8} {offset : Nat} {byte : UInt8}
    (h : data.drop offset = byte :: rest) : byteAt data offset = .ok byte := by
  have hread := byteAt_add h 0
  rwa [Nat.add_zero] at hread

/-- A field that lies within the data. -/
theorem drop_eq_slice_append {data : List UInt8} {offset n : Nat} (h : offset + n ≤ data.length) :
    data.drop offset = slice data offset (offset + n) ++ data.drop (offset + n) ∧
      (slice data offset (offset + n)).length = n := by
  unfold slice
  rw [Nat.add_sub_cancel_left, ← List.drop_drop, List.take_append_drop, List.length_take,
    List.length_drop]
  exact ⟨rfl, by omega⟩

/-- A field of a known length at the front. -/
theorem slice_of_drop {data field rest : List UInt8} {offset : Nat}
    (h : data.drop offset = field ++ rest) {n : Nat} (hn : field.length = n) :
    slice data offset (offset + n) = field := by
  unfold slice
  rw [h, Nat.add_sub_cancel_left, ← hn, List.take_left]

theorem drop_of_drop {data field rest : List UInt8} {offset : Nat}
    (h : data.drop offset = field ++ rest) {n : Nat} (hn : field.length = n) :
    data.drop (offset + n) = rest := by
  rw [drop_add h, ← hn, List.drop_left]

theorem slice_append {field rest : List UInt8} {i j : Nat} (hij : i ≤ j) (hj : j ≤ field.length) :
    slice (field ++ rest) i j = slice field i j := by
  unfold slice
  rw [List.drop_append_of_le_length (by omega),
    List.take_append_of_le_length (by rw [List.length_drop]; omega)]

end MaddyWeb.Library.Offsets
