/-!
# Percent encoding

Bytes written as ASCII text: letters, digits and a few marks stand for themselves, and every other
byte is a percent sign with two digits.
-/

namespace MaddyWeb.Library.Percent

/-- The bytes that `urllib.parse.quote` with `safe=""` leaves alone. -/
def isAlwaysSafe (b : UInt8) : Bool :=
  (0x30 ≤ b && b ≤ 0x39) || (0x41 ≤ b && b ≤ 0x5A) || (0x61 ≤ b && b ≤ 0x7A) ||
    b == 0x5F || b == 0x2E || b == 0x2D || b == 0x7E

def upperHex (n : Nat) : Char := Char.ofNat (if n < 10 then 0x30 + n else 0x37 + n)

def encodeByte (b : UInt8) : List Char :=
  if isAlwaysSafe b then [Char.ofNat b.toNat]
  else ['%', upperHex (b.toNat / 16), upperHex (b.toNat % 16)]

def encode (data : List UInt8) : List Char := data.flatMap encodeByte

def hexValue (c : Char) : Option Nat :=
  let n := c.toNat
  if 0x30 ≤ n && n ≤ 0x39 then some (n - 0x30)
  else if 0x41 ≤ n && n ≤ 0x46 then some (n - 0x37)
  else if 0x61 ≤ n && n ≤ 0x66 then some (n - 0x57)
  else none

/-- The bytes of a text, `none` where a percent sign is not followed by two digits. -/
def decode : List Char → Option (List UInt8)
  | [] => some []
  | '%' :: high :: low :: rest =>
    match hexValue high, hexValue low with
    | some x, some y => (decode rest).map ((16 * x + y).toUInt8 :: ·)
    | _, _ => none
  | c :: rest =>
    if c == '%' then none
    else if c.toNat < 0x80 then (decode rest).map (c.toNat.toUInt8 :: ·)
    else none

theorem hexValue_upperHex : ∀ n < 16, hexValue (upperHex n) = some n := by decide

theorem isAlwaysSafe_range {b : UInt8} (h : isAlwaysSafe b = true) :
    b.toNat < 0x80 ∧ b.toNat ≠ 0x25 := by
  simp only [isAlwaysSafe, Bool.or_eq_true, Bool.and_eq_true, decide_eq_true_eq, beq_iff_eq,
    UInt8.le_iff_toNat_le, ← UInt8.toNat_inj] at h
  simp at h
  omega

theorem toNat_ofNat {n : Nat} (h : n < 0x80) : (Char.ofNat n).toNat = n := by
  have hvalid : n.isValidChar := Or.inl (by omega)
  rw [Char.ofNat, dif_pos hvalid]
  rfl

theorem decode_plain {c : Char} (hc : c ≠ '%') (hrange : c.toNat < 0x80) (rest : List Char) :
    decode (c :: rest) = (decode rest).map (c.toNat.toUInt8 :: ·) := by
  rw [decode]
  · rw [if_neg (by simpa using hc), if_pos hrange]
  · rintro _ _ _ rfl
    exact absurd rfl hc

theorem decode_encodeByte (b : UInt8) (rest : List Char) :
    decode (encodeByte b ++ rest) = (decode rest).map (b :: ·) := by
  have hback : b.toNat.toUInt8 = b := by simp
  unfold encodeByte
  split
  · next hsafe =>
      have hrange := isAlwaysSafe_range hsafe
      have hvalue := toNat_ofNat hrange.1
      have hplain : Char.ofNat b.toNat ≠ '%' := by
        intro heq
        rw [heq] at hvalue
        exact hrange.2 hvalue.symm
      rw [List.singleton_append, decode_plain hplain (by omega), hvalue, hback]
  · have hb : b.toNat < 256 := b.toNat_lt
    have hhigh := hexValue_upperHex (b.toNat / 16) (by omega)
    have hlow := hexValue_upperHex (b.toNat % 16) (by omega)
    have hbyte : (16 * (b.toNat / 16) + b.toNat % 16).toUInt8 = b := by
      rw [Nat.div_add_mod, hback]
    show decode ('%' :: _ :: _ :: rest) = _
    rw [decode, hhigh, hlow]
    simp only [hbyte]

/-- What was encoded is read back. -/
theorem decode_encode (data : List UInt8) : decode (encode data) = some data := by
  unfold encode
  induction data with
  | nil => rfl
  | cons b data ih => rw [List.flatMap_cons, decode_encodeByte, ih, Option.map_some]

end MaddyWeb.Library.Percent
