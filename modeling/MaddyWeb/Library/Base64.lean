import Mathlib.Algebra.GroupWithZero.Nat
import Mathlib.Logic.Basic

/-!
# Base64

The standard alphabet with padding, as `base64.b64encode` writes it.
-/

namespace MaddyWeb.Library.Base64

/-- The character of a six-bit group. -/
def symbol (sextet : Nat) : UInt8 :=
  if sextet < 26 then UInt8.ofNat (0x41 + sextet)
  else if sextet < 52 then UInt8.ofNat (0x61 + (sextet - 26))
  else if sextet < 62 then UInt8.ofNat (0x30 + (sextet - 52))
  else if sextet = 62 then 0x2B
  else 0x2F

/-- `base64.b64encode` -/
def encode : List UInt8 → List UInt8
  | [] => []
  | [a] =>
    let bits := a.toNat * 2 ^ 16
    [symbol (bits / 2 ^ 18 % 64), symbol (bits / 2 ^ 12 % 64), 0x3D, 0x3D]
  | [a, b] =>
    let bits := a.toNat * 2 ^ 16 + b.toNat * 2 ^ 8
    [symbol (bits / 2 ^ 18 % 64), symbol (bits / 2 ^ 12 % 64), symbol (bits / 2 ^ 6 % 64), 0x3D]
  | a :: b :: c :: rest =>
    let bits := a.toNat * 2 ^ 16 + b.toNat * 2 ^ 8 + c.toNat
    symbol (bits / 2 ^ 18 % 64) :: symbol (bits / 2 ^ 12 % 64) ::
      symbol (bits / 2 ^ 6 % 64) :: symbol (bits % 64) :: encode rest

theorem symbol_lt (sextet : Nat) : (symbol sextet).toNat < 0x80 := by
  have hofNat : ∀ n < 0x80, (UInt8.ofNat n).toNat < 0x80 := by
    intro n hn
    rw [UInt8.toNat_ofNat']
    omega
  unfold symbol
  split
  · exact hofNat _ (by omega)
  · split
    · exact hofNat _ (by omega)
    · split
      · exact hofNat _ (by omega)
      · split <;> decide

/-- The text is ASCII. -/
theorem encode_lt {value : List UInt8} : ∀ b ∈ encode value, b.toNat < 0x80 := by
  induction value using encode.induct with
  | case1 => nofun
  | case2 a =>
      intro b hb
      simp only [encode, List.mem_cons, List.not_mem_nil, or_false] at hb
      rcases hb with rfl | rfl | rfl | rfl
      · exact symbol_lt _
      · exact symbol_lt _
      · decide
      · decide
  | case3 a b =>
      intro c hc
      simp only [encode, List.mem_cons, List.not_mem_nil, or_false] at hc
      rcases hc with rfl | rfl | rfl | rfl
      · exact symbol_lt _
      · exact symbol_lt _
      · exact symbol_lt _
      · decide
  | case4 a b c rest ih =>
      intro d hd
      simp only [encode, List.mem_cons] at hd
      rcases hd with rfl | rfl | rfl | rfl | hd
      · exact symbol_lt _
      · exact symbol_lt _
      · exact symbol_lt _
      · exact symbol_lt _
      · exact ih d hd

/-! ## Length and padding -/

theorem encode_append {front : List UInt8} (hfront : front.length % 3 = 0) (rest : List UInt8) :
    encode (front ++ rest) = encode front ++ encode rest := by
  induction front using encode.induct with
  | case1 => rfl
  | case2 a => exact absurd hfront (by simp)
  | case3 a b => exact absurd hfront (by simp)
  | case4 a b c front ih =>
      have hlength : front.length % 3 = 0 := by
        simp only [List.length_cons] at hfront
        omega
      simp only [List.cons_append, encode, ih hlength]

theorem length_encode (value : List UInt8) :
    (encode value).length = 4 * ((value.length + 2) / 3) := by
  induction value using encode.induct with
  | case1 => rfl
  | case2 a => simp [encode]
  | case3 a b => simp [encode]
  | case4 a b c rest ih =>
      simp only [encode, List.length_cons, ih]
      omega

/-- The six-bit group of a character of the alphabet. -/
def sextet (c : UInt8) : Option Nat :=
  if 0x41 ≤ c ∧ c ≤ 0x5A then some (c.toNat - 0x41)
  else if 0x61 ≤ c ∧ c ≤ 0x7A then some (c.toNat - 0x61 + 26)
  else if 0x30 ≤ c ∧ c ≤ 0x39 then some (c.toNat - 0x30 + 52)
  else if c = 0x2B then some 62
  else if c = 0x2F then some 63
  else none

theorem sextet_symbol {n : Nat} (hn : n < 64) : sextet (symbol n) = some n := by
  have hall : ∀ n : Fin 64, sextet (symbol n) = some n.val := by decide
  exact hall ⟨n, hn⟩

theorem symbol_ne_padding {n : Nat} (hn : n < 64) : symbol n ≠ 0x3D := by
  intro heq
  have hvalue := sextet_symbol hn
  rw [heq] at hvalue
  exact absurd hvalue nofun

/-- Only a last group that is not full is padded. -/
theorem padding_not_mem_encode {value : List UInt8} (h : value.length % 3 = 0) :
    0x3D ∉ encode value := by
  induction value using encode.induct with
  | case1 => exact List.not_mem_nil
  | case2 a => exact absurd h (by simp)
  | case3 a b => exact absurd h (by simp)
  | case4 a b c rest ih =>
      have hlength : rest.length % 3 = 0 := by
        simp only [List.length_cons] at h
        omega
      simp only [encode, List.mem_cons, not_or]
      exact ⟨(symbol_ne_padding (by omega)).symm, (symbol_ne_padding (by omega)).symm,
        (symbol_ne_padding (by omega)).symm, (symbol_ne_padding (by omega)).symm, ih hlength⟩

/-! ## Decoding -/

/-- The last group, of which the third character may be padding too. -/
def decodePadded (a b c : UInt8) : Option (List UInt8) := do
  let high ← sextet a
  let middle ← sextet b
  if c = 0x3D then
    let bits := high * 2 ^ 6 + middle
    if bits % 2 ^ 4 = 0 then some [UInt8.ofNat (bits / 2 ^ 4)] else none
  else
    let low ← sextet c
    let bits := high * 2 ^ 12 + middle * 2 ^ 6 + low
    if bits % 2 ^ 2 = 0 then some [UInt8.ofNat (bits / 2 ^ 10), UInt8.ofNat (bits / 2 ^ 2)]
    else none

/-- Strict decoding: padding stands in the last group only, and over bits that are zero. -/
def decode : List UInt8 → Option (List UInt8)
  | [] => some []
  | a :: b :: c :: d :: rest =>
    if d = 0x3D then
      if rest = [] then decodePadded a b c else none
    else do
      let bits :=
        (← sextet a) * 2 ^ 18 + (← sextet b) * 2 ^ 12 + (← sextet c) * 2 ^ 6 + (← sextet d)
      let tail ← decode rest
      some (UInt8.ofNat (bits / 2 ^ 16) :: UInt8.ofNat (bits / 2 ^ 8) :: UInt8.ofNat bits :: tail)
  | _ => none

theorem ofNat_eq {n : Nat} {a : UInt8} (h : n % 2 ^ 8 = a.toNat) : UInt8.ofNat n = a := by
  rw [← UInt8.toNat_inj, UInt8.toNat_ofNat']
  exact h

section Padded

variable {a b c : UInt8} {high middle low : Nat}

theorem decodePadded_one (ha : sextet a = some high) (hb : sextet b = some middle)
    (hbits : (high * 2 ^ 6 + middle) % 2 ^ 4 = 0) :
    decodePadded a b 0x3D = some [UInt8.ofNat ((high * 2 ^ 6 + middle) / 2 ^ 4)] := by
  unfold decodePadded
  rw [ha, hb]
  exact if_pos hbits

theorem decodePadded_two (ha : sextet a = some high) (hb : sextet b = some middle)
    (hc : sextet c = some low) (hpadding : c ≠ 0x3D)
    (hbits : (high * 2 ^ 12 + middle * 2 ^ 6 + low) % 2 ^ 2 = 0) :
    decodePadded a b c = some [UInt8.ofNat ((high * 2 ^ 12 + middle * 2 ^ 6 + low) / 2 ^ 10),
      UInt8.ofNat ((high * 2 ^ 12 + middle * 2 ^ 6 + low) / 2 ^ 2)] := by
  unfold decodePadded
  rw [ha, hb, hc]
  exact (if_neg hpadding).trans (if_pos hbits)

end Padded

theorem decode_encode (value : List UInt8) : decode (encode value) = some value := by
  have hgroup : ∀ n, n % 64 < 64 := fun n => Nat.mod_lt n (by decide)
  induction value using encode.induct with
  | case1 => rfl
  | case2 a =>
      have ha := a.toNat_lt
      have hbits : (a.toNat * 2 ^ 16 / 2 ^ 18 % 64 * 2 ^ 6 + a.toNat * 2 ^ 16 / 2 ^ 12 % 64) =
          a.toNat * 2 ^ 4 := by omega
      rw [encode, decode, if_pos rfl, if_pos rfl, decodePadded_one (sextet_symbol (hgroup _))
        (sextet_symbol (hgroup _)), hbits, ofNat_eq (a := a)]
      · omega
      · omega
  | case3 a b =>
      have ha := a.toNat_lt
      have hb := b.toNat_lt
      have hbits : ((a.toNat * 2 ^ 16 + b.toNat * 2 ^ 8) / 2 ^ 18 % 64 * 2 ^ 12 +
          (a.toNat * 2 ^ 16 + b.toNat * 2 ^ 8) / 2 ^ 12 % 64 * 2 ^ 6 +
          (a.toNat * 2 ^ 16 + b.toNat * 2 ^ 8) / 2 ^ 6 % 64) =
          a.toNat * 2 ^ 10 + b.toNat * 2 ^ 2 := by omega
      rw [encode, decode, if_pos rfl, if_pos rfl, decodePadded_two (sextet_symbol (hgroup _))
        (sextet_symbol (hgroup _)) (sextet_symbol (hgroup _)) (symbol_ne_padding (hgroup _)),
        hbits, ofNat_eq (a := a), ofNat_eq (a := b)]
      · omega
      · omega
      · omega
  | case4 a b c rest ih =>
      have ha := a.toNat_lt
      have hb := b.toNat_lt
      have hc := c.toNat_lt
      have hbits : (a.toNat * 2 ^ 16 + b.toNat * 2 ^ 8 + c.toNat) / 2 ^ 18 % 64 * 2 ^ 18 +
          (a.toNat * 2 ^ 16 + b.toNat * 2 ^ 8 + c.toNat) / 2 ^ 12 % 64 * 2 ^ 12 +
          (a.toNat * 2 ^ 16 + b.toNat * 2 ^ 8 + c.toNat) / 2 ^ 6 % 64 * 2 ^ 6 +
          (a.toNat * 2 ^ 16 + b.toNat * 2 ^ 8 + c.toNat) % 64 =
          a.toNat * 2 ^ 16 + b.toNat * 2 ^ 8 + c.toNat := by omega
      simp only [encode, decode, sextet_symbol (hgroup _),
        if_neg (symbol_ne_padding (hgroup _)), Option.bind_eq_bind,
        Option.bind_some, hbits, ih]
      rw [ofNat_eq (a := a) (by omega), ofNat_eq (a := b) (by omega), ofNat_eq (a := c) (by omega)]

example : encode [0x4D, 0x61, 0x6E, 0x4D] = [0x54, 0x57, 0x46, 0x75, 0x54, 0x51, 0x3D, 0x3D] := by
  decide

end MaddyWeb.Library.Base64
