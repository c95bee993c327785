import MaddyWeb.Library.Json

/-!
# UTF-8

Encoding of text as a list of bytes, and strict decoding.  A byte below `0x80` stands for the
character with that number and for nothing else.
-/

namespace MaddyWeb.Library

/-- `text.encode("utf-8")` -/
def utf8 (text : List Char) : List UInt8 := (String.ofList text).toUTF8.data.toList

/-- `data.decode("utf-8", "strict")` -/
def utf8Decode (data : List UInt8) : Option (List Char) :=
  (String.fromUTF8? ⟨data.toArray⟩).map String.toList

/-- `data.decode("ascii", "strict")` -/
def asciiDecode (data : List UInt8) : Option (List Char) :=
  if data.all (· < 0x80) then some (data.map fun b => Char.ofNat b.toNat) else none

theorem utf8_eq (text : List Char) : utf8 text = text.flatMap String.utf8EncodeChar := by
  unfold utf8
  show (String.ofList text).toByteArray.data.toList = _
  rw [String.toByteArray_ofList]
  simp [List.utf8Encode]

@[simp] theorem utf8_nil : utf8 [] = [] := by
  rw [utf8_eq]
  rfl

theorem utf8_cons (c : Char) (rest : List Char) :
    utf8 (c :: rest) = String.utf8EncodeChar c ++ utf8 rest := by
  rw [utf8_eq, utf8_eq, List.flatMap_cons]

theorem utf8_ne_nil {text : List Char} (h : text ≠ []) : utf8 text ≠ [] := by
  cases text with
  | nil => exact absurd rfl h
  | cons c text =>
      rw [utf8_cons]
      simp

theorem utf8Decode_utf8 (text : List Char) : utf8Decode (utf8 text) = some text := by
  unfold utf8Decode utf8
  have harray : (⟨((String.ofList text).toUTF8.data.toList).toArray⟩ : ByteArray) =
      (String.ofList text).toByteArray := rfl
  rw [harray]
  unfold String.fromUTF8?
  rw [dif_pos (String.ofList text).isValidUTF8]
  show some (String.ofList text).toList = _
  rw [String.toList_ofList]

theorem length_utf8 (text : List Char) : (utf8 text).length = Json.utf8Length text := by
  induction text with
  | nil => rfl
  | cons c text ih =>
      rw [utf8_cons, List.length_append, String.length_utf8EncodeChar, ih]
      unfold Json.utf8Length
      rw [List.map_cons, List.sum_cons]

/-- The bytes of a character outside ASCII are not below `0x80`. -/
theorem le_of_mem_utf8EncodeChar {c : Char} {b : UInt8} (hb : b ∈ String.utf8EncodeChar c)
    (hc : 0x80 ≤ c.toNat) : 0x80 ≤ b.toNat := by
  have hvalue : c.toNat = c.val.toNat := rfl
  unfold String.utf8EncodeChar at hb
  simp only at hb
  split at hb
  · omega
  split at hb
  · simp only [List.mem_cons, List.not_mem_nil, or_false] at hb
    rcases hb with rfl | rfl <;> (simp; omega)
  split at hb
  · simp only [List.mem_cons, List.not_mem_nil, or_false] at hb
    rcases hb with rfl | rfl | rfl <;> (simp; omega)
  · simp only [List.mem_cons, List.not_mem_nil, or_false] at hb
    rcases hb with rfl | rfl | rfl | rfl <;> (simp; omega)

theorem utf8EncodeChar_ascii {c : Char} (hc : c.toNat < 0x80) :
    String.utf8EncodeChar c = [c.toNat.toUInt8] := by
  have hvalue : c.toNat = c.val.toNat := rfl
  unfold String.utf8EncodeChar
  simp only
  rw [if_pos (by omega)]
  rfl

theorem utf8_ascii {text : List Char} (h : ∀ c ∈ text, c.toNat < 0x80) :
    utf8 text = text.map fun c => c.toNat.toUInt8 := by
  induction text with
  | nil => exact utf8_nil
  | cons c text ih =>
      rw [utf8_cons, utf8EncodeChar_ascii (h c List.mem_cons_self),
        ih fun d hd => h d (List.mem_cons_of_mem c hd)]
      rfl

theorem toNat_toUInt8 {n : Nat} (h : n < 0x80) : n.toUInt8.toNat = n := by
  show n % 256 = n
  omega

/-- A byte of ASCII stands for its own character. -/
theorem mem_of_mem_utf8 {text : List Char} {b : UInt8} (hb : b ∈ utf8 text)
    (hascii : b.toNat < 0x80) :
    ∃ c ∈ text, c.toNat = b.toNat := by
  rw [utf8_eq] at hb
  obtain ⟨c, hc, hb⟩ := List.mem_flatMap.mp hb
  refine ⟨c, hc, ?_⟩
  by_cases hrange : c.toNat < 0x80
  · rw [utf8EncodeChar_ascii hrange] at hb
    rw [List.mem_singleton.mp hb, toNat_toUInt8 hrange]
  · have hle := le_of_mem_utf8EncodeChar hb (by omega)
    omega

theorem asciiDecode_utf8 {text : List Char} (h : ∀ c ∈ text, c.toNat < 0x80) :
    asciiDecode (utf8 text) = some text := by
  unfold asciiDecode
  rw [utf8_ascii h, if_pos]
  · rw [List.map_map]
    congr 1
    conv_rhs => rw [← List.map_id text]
    apply List.map_congr_left
    intro c hc
    show Char.ofNat (c.toNat.toUInt8.toNat) = c
    rw [toNat_toUInt8 (h c hc), Char.ofNat_toNat]
  · rw [List.all_eq_true]
    intro b hb
    obtain ⟨c, hc, rfl⟩ := List.mem_map.mp hb
    rw [decide_eq_true_eq, UInt8.lt_iff_toNat_lt, toNat_toUInt8 (h c hc)]
    exact h c hc

end MaddyWeb.Library
