import MaddyWeb.Library.Text
import Mathlib.Data.List.TakeWhile

/-!
# Canonical mailbox identities
-/

namespace MaddyWeb.Identity

open MaddyWeb.Library.Text

/-- `EMAIL_LOCAL_PATTERN` -/
def isLocalChar (c : Char) : Bool :=
  c.isAlphanum || "!#$%&'*+/=?^_`\x7b|\x7d~.-".toList.contains c

/-- `DOMAIN_LABEL_PATTERN` -/
def isLabelChar (c : Char) : Bool := c.isAlphanum || c == '-'

def isLocalPart (text : List Char) : Bool :=
  text ≠ [] && text.length ≤ 64 && text.head? != some '.' && text.getLast? != some '.' &&
    !hasSubstring ['.', '.'] text && text.all isLocalChar

def isLabel (text : List Char) : Bool :=
  text ≠ [] && text.length ≤ 63 && text.head? != some '-' && text.getLast? != some '-' &&
    text.all isLabelChar

def isDomain (text : List Char) : Bool :=
  text ≠ [] && text.length ≤ 253 && text.head? != some '.' && text.getLast? != some '.' &&
    (split ['.'] text).all isLabel

/-- `canonicalize_email` -/
def canonicalizeEmail (value : String) : Option String :=
  let normalized := strStrip value.toList
  if normalized = [] || 254 < normalized.length || !normalized.all (·.toNat < 0x80) then none
  else if normalized.count '@' ≠ 1 then none
  else
    let mailbox := normalized.takeWhile (· != '@')
    let domain := (normalized.dropWhile (· != '@')).drop 1
    if isLocalPart mailbox && isDomain domain then
      some (String.ofList (asciiLower mailbox ++ '@' :: asciiLower domain))
    else none

theorem canonicalizeEmail_congr {value value' : String}
    (h : strStrip value.toList = strStrip value'.toList) :
    canonicalizeEmail value = canonicalizeEmail value' := by
  unfold canonicalizeEmail
  rw [h]

example : canonicalizeEmail " Alice@Mail.Example.ORG" = some "alice@mail.example.org" := by
  decide +kernel

theorem mem_of_mem_asciiLower {c : Char} {text : List Char} (h : c ∈ asciiLower text)
    (hc : c.toNat < 0x61) : c ∈ text := by
  obtain ⟨d, hd, heq⟩ := List.mem_map.mp h
  split at heq
  · next hupper =>
      simp only [Bool.and_eq_true, decide_eq_true_eq] at hupper
      have hvalid : (d.toNat + 32).isValidChar := Or.inl (by omega)
      have hvalue : (Char.ofNat (d.toNat + 32)).toNat = d.toNat + 32 := by
        rw [Char.ofNat, dif_pos hvalid]
        rfl
      rw [← heq, hvalue] at hc
      omega
  · exact heq ▸ hd

/-- A canonical address has no zero character. -/
theorem zero_not_mem_of_canonicalizeEmail {value canonical : String}
    (h : canonicalizeEmail value = some canonical) : '\x00' ∉ canonical.toList := by
  unfold canonicalizeEmail at h
  dsimp only at h
  split at h
  · cases h
  split at h
  · cases h
  split at h
  · next hparts =>
      cases h
      rw [String.toList_ofList]
      rw [Bool.and_eq_true, isLocalPart, isDomain] at hparts
      simp only [Bool.and_eq_true, List.all_eq_true] at hparts
      intro hzero
      rcases List.mem_append.mp hzero with hzero | hzero
      · have hmem := mem_of_mem_asciiLower hzero (by decide)
        exact absurd (hparts.1.2 _ hmem) (by decide)
      · rcases List.mem_cons.mp hzero with hzero | hzero
        · cases hzero
        · have hmem := mem_of_mem_asciiLower hzero (by decide)
          obtain ⟨label, hlabel, hin⟩ :=
            @mem_splitFrom_singleton Char _ '.' '\x00' [] _ (Or.inr hmem) (by decide)
          have hvalid := hparts.2.2 label hlabel
          rw [isLabel] at hvalid
          simp only [Bool.and_eq_true, List.all_eq_true] at hvalid
          exact absurd (hvalid.2 _ hin) (by decide)
  · cases h

/-! ## Canonical addresses are canonical -/

/-- What `asciiLower` does to one character. -/
def lowerChar (c : Char) : Char :=
  if 0x41 ≤ c.toNat && c.toNat ≤ 0x5A then Char.ofNat (c.toNat + 32) else c

theorem asciiLower_eq (text : List Char) : asciiLower text = text.map lowerChar := rfl

theorem lowerChar_cases (c : Char) :
    (0x41 ≤ c.toNat ∧ c.toNat ≤ 0x5A ∧ (lowerChar c).toNat = c.toNat + 32) ∨ lowerChar c = c := by
  unfold lowerChar
  split
  · next hupper =>
      simp only [Bool.and_eq_true, decide_eq_true_eq] at hupper
      have hvalid : (c.toNat + 32).isValidChar := Or.inl (by omega)
      refine Or.inl ⟨hupper.1, hupper.2, ?_⟩
      rw [Char.ofNat, dif_pos hvalid]
      rfl
  · exact Or.inr rfl

theorem lowerChar_lowerChar (c : Char) : lowerChar (lowerChar c) = lowerChar c := by
  rcases lowerChar_cases c with ⟨hlow, hhigh, hvalue⟩ | hsame
  · rcases lowerChar_cases (lowerChar c) with ⟨-, hbound, -⟩ | hsame
    · omega
    · exact hsame
  · rw [hsame]
    exact hsame

/-- A character that is not a letter has no other character as its lower case. -/
theorem eq_lowerChar_iff {d : Char} (hd : d.toNat < 0x41) (c : Char) : d = lowerChar c ↔ d = c := by
  rcases lowerChar_cases c with ⟨hlow, hhigh, hvalue⟩ | hsame
  · constructor
    · intro heq
      rw [heq] at hd
      omega
    · intro heq
      rw [heq] at hd
      omega
  · rw [hsame]

theorem isAlphanum_lowerChar {c : Char} (h : c.isAlphanum = true) :
    (lowerChar c).isAlphanum = true := by
  rcases lowerChar_cases c with ⟨hlow, hhigh, hvalue⟩ | hsame
  · have hlower : (lowerChar c).isLower = true := by
      unfold Char.isLower
      rw [Bool.and_eq_true, decide_eq_true_eq, decide_eq_true_eq, ge_iff_le, UInt32.le_iff_toNat_le,
        UInt32.le_iff_toNat_le]
      have hval : (lowerChar c).val.toNat = (lowerChar c).toNat := rfl
      rw [hval, hvalue]
      constructor
      · show 97 ≤ _
        omega
      · show _ ≤ 122
        omega
    unfold Char.isAlphanum Char.isAlpha
    rw [hlower]
    simp
  · rw [hsame]
    exact h

/-- A list of signs, without a capital letter in it, is closed under `lowerChar`. -/
theorem contains_lowerChar {signs : List Char}
    (hsigns : ∀ d ∈ signs, d.toNat < 0x41 ∨ 0x5A < d.toNat)
    {c : Char} (h : signs.contains c = true) : signs.contains (lowerChar c) = true := by
  rcases lowerChar_cases c with ⟨hlow, hhigh, -⟩ | hsame
  · have hrange := hsigns c (List.contains_iff_mem.mp h)
    omega
  · rw [hsame]
    exact h

theorem isLocalChar_lowerChar {c : Char} (h : isLocalChar c = true) :
    isLocalChar (lowerChar c) = true := by
  unfold isLocalChar at h ⊢
  rw [Bool.or_eq_true] at h ⊢
  rcases h with h | h
  · exact Or.inl (isAlphanum_lowerChar h)
  · exact Or.inr (contains_lowerChar (List.all_iff_forall_prop.mp (by decide)) h)

theorem isLabelChar_lowerChar {c : Char} (h : isLabelChar c = true) :
    isLabelChar (lowerChar c) = true := by
  unfold isLabelChar at h ⊢
  rw [Bool.or_eq_true] at h ⊢
  rcases h with h | h
  · exact Or.inl (isAlphanum_lowerChar h)
  · right
    rw [beq_iff_eq] at h ⊢
    exact ((eq_lowerChar_iff (by decide) c).mpr h.symm).symm

theorem map_lowerChar_ne {d : Char} (hd : d.toNat < 0x41) {first : Option Char}
    (h : (first != some d) = true) : (first.map lowerChar != some d) = true := by
  rw [bne_iff_ne] at h ⊢
  intro heq
  obtain ⟨c, rfl, hc⟩ := Option.map_eq_some_iff.mp heq
  exact h (congrArg some ((eq_lowerChar_iff hd c).mp hc.symm).symm)

theorem isLocalPart_lower {text : List Char} (h : isLocalPart text = true) :
    isLocalPart (asciiLower text) = true := by
  rw [asciiLower_eq]
  unfold isLocalPart at h ⊢
  simp only [Bool.and_eq_true, List.all_eq_true, decide_eq_true_eq, Bool.not_eq_true'] at h ⊢
  obtain ⟨⟨⟨⟨⟨hne, hlength⟩, hhead⟩, hlast⟩, hdots⟩, hall⟩ := h
  refine ⟨⟨⟨⟨⟨?_, ?_⟩, ?_⟩, ?_⟩, ?_⟩, ?_⟩
  · exact fun hnil => hne (List.map_eq_nil_iff.mp hnil)
  · rwa [List.length_map]
  · rw [List.head?_map]
    exact map_lowerChar_ne (by decide) hhead
  · rw [List.getLast?_map]
    exact map_lowerChar_ne (by decide) hlast
  · rw [hasSubstring_map _ text]
    · exact hdots
    · intro d hd x
      have hdot : d = '.' := by simpa using hd
      rw [hdot]
      exact eq_lowerChar_iff (by decide) x
  · intro c hc
    obtain ⟨x, hx, rfl⟩ := List.mem_map.mp hc
    exact isLocalChar_lowerChar (hall x hx)

theorem isLabel_lower {text : List Char} (h : isLabel text = true) :
    isLabel (text.map lowerChar) = true := by
  unfold isLabel at h ⊢
  simp only [Bool.and_eq_true, List.all_eq_true, decide_eq_true_eq] at h ⊢
  obtain ⟨⟨⟨⟨hne, hlength⟩, hhead⟩, hlast⟩, hall⟩ := h
  refine ⟨⟨⟨⟨?_, ?_⟩, ?_⟩, ?_⟩, ?_⟩
  · exact fun hnil => hne (List.map_eq_nil_iff.mp hnil)
  · rwa [List.length_map]
  · rw [List.head?_map]
    exact map_lowerChar_ne (by decide) hhead
  · rw [List.getLast?_map]
    exact map_lowerChar_ne (by decide) hlast
  · intro c hc
    obtain ⟨x, hx, rfl⟩ := List.mem_map.mp hc
    exact isLabelChar_lowerChar (hall x hx)

theorem isDomain_lower {text : List Char} (h : isDomain text = true) :
    isDomain (asciiLower text) = true := by
  rw [asciiLower_eq]
  unfold isDomain at h ⊢
  simp only [Bool.and_eq_true, List.all_eq_true, decide_eq_true_eq] at h ⊢
  obtain ⟨⟨⟨⟨hne, hlength⟩, hhead⟩, hlast⟩, hall⟩ := h
  refine ⟨⟨⟨⟨?_, ?_⟩, ?_⟩, ?_⟩, ?_⟩
  · exact fun hnil => hne (List.map_eq_nil_iff.mp hnil)
  · rwa [List.length_map]
  · rw [List.head?_map]
    exact map_lowerChar_ne (by decide) hhead
  · rw [List.getLast?_map]
    exact map_lowerChar_ne (by decide) hlast
  · intro label hlabel
    have hsplit : split ['.'] (text.map lowerChar) = (split ['.'] text).map (List.map lowerChar) :=
      splitFrom_map (eq_lowerChar_iff (by decide)) [] text
    rw [hsplit] at hlabel
    obtain ⟨part, hpart, rfl⟩ := List.mem_map.mp hlabel
    exact isLabel_lower (hall part hpart)

theorem range_of_isLocalChar {c : Char} (h : isLocalChar c = true) :
    0x20 < c.toNat ∧ c.toNat < 0x7F := by
  unfold isLocalChar at h
  rw [Bool.or_eq_true] at h
  rcases h with h | h
  · have hrange := range_of_isAlphanum h
    omega
  · have hall : ∀ d ∈ "!#$%&'*+/=?^_`\x7b|\x7d~.-".toList, 0x20 < d.toNat ∧ d.toNat < 0x7F :=
      List.all_iff_forall_prop.mp (by decide)
    exact hall c (List.contains_iff_mem.mp h)

theorem isLocalChar_of_isLabelChar {c : Char} (h : isLabelChar c = true) :
    isLocalChar c = true := by
  unfold isLabelChar at h
  unfold isLocalChar
  rw [Bool.or_eq_true] at h ⊢
  rcases h with h | h
  · exact Or.inl h
  · right
    rw [beq_iff_eq.mp h]
    decide

theorem isLocalChar_of_isDomain {text : List Char} (h : isDomain text = true) {c : Char}
    (hc : c ∈ text) : isLocalChar c = true := by
  by_cases hdot : c = '.'
  · rw [hdot]
    decide
  · unfold isDomain at h
    simp only [Bool.and_eq_true, List.all_eq_true] at h
    obtain ⟨label, hlabel, hin⟩ := mem_splitFrom_singleton (Or.inr hc) hdot
    have hvalid := h.2 label hlabel
    unfold isLabel at hvalid
    simp only [Bool.and_eq_true, List.all_eq_true] at hvalid
    exact isLocalChar_of_isLabelChar (hvalid.2 c hin)

/-- What an address consists of once it has been accepted. -/
structure IsCanonical (canonical mailbox domain : List Char) : Prop where
  text : canonical = asciiLower mailbox ++ '@' :: asciiLower domain
  length : mailbox.length + domain.length + 1 ≤ 254
  isLocalPart : isLocalPart mailbox = true
  isDomain : isDomain domain = true

theorem isCanonical_of_canonicalizeEmail {value canonical : String}
    (h : canonicalizeEmail value = some canonical) :
    ∃ mailbox domain, IsCanonical canonical.toList mailbox domain := by
  unfold canonicalizeEmail at h
  dsimp only at h
  split at h
  · cases h
  next hlength =>
  split at h
  · cases h
  next hcount =>
  split at h
  · next hparts =>
      cases h
      rw [Bool.and_eq_true] at hparts
      refine ⟨_, _, String.toList_ofList, ?_, hparts.1, hparts.2⟩
      have hsplit : ((strStrip value.toList).takeWhile (· != '@')).length +
          ((strStrip value.toList).dropWhile (· != '@')).length =
            (strStrip value.toList).length := by
        rw [← List.length_append, List.takeWhile_append_dropWhile]
      have hsome : 0 < ((strStrip value.toList).dropWhile (· != '@')).length := by
        rw [List.length_pos_iff]
        intro hnil
        have hcount' : (strStrip value.toList).count '@' = 0 := by
          rw [List.count_eq_zero]
          intro hmem
          have hall := List.dropWhile_eq_nil_iff.mp hnil '@' hmem
          simp at hall
        omega
      simp only [Bool.or_eq_true, decide_eq_true_eq, not_or] at hlength
      rw [List.length_drop]
      omega
  · cases h

namespace IsCanonical

variable {canonical mailbox domain : List Char} (h : IsCanonical canonical mailbox domain)

include h

theorem mem_cases {c : Char} (hc : c ∈ canonical) : c = '@' ∨ isLocalChar c = true := by
  rw [h.text] at hc
  have hlower : ∀ part : List Char, (∀ x ∈ part, isLocalChar x = true) → c ∈ asciiLower part →
      isLocalChar c = true := by
    intro part hpart hmem
    obtain ⟨x, hx, rfl⟩ := List.mem_map.mp hmem
    exact isLocalChar_lowerChar (hpart x hx)
  rcases List.mem_append.mp hc with hc | hc
  · right
    apply hlower mailbox _ hc
    have hlocal := h.isLocalPart
    unfold Identity.isLocalPart at hlocal
    simp only [Bool.and_eq_true, List.all_eq_true] at hlocal
    exact hlocal.2
  · rcases List.mem_cons.mp hc with hc | hc
    · exact Or.inl hc
    · exact Or.inr (hlower domain (fun x hx => isLocalChar_of_isDomain h.isDomain hx) hc)

/-- A canonical address has printable ASCII characters only, and no space. -/
theorem range {c : Char} (hc : c ∈ canonical) : 0x20 < c.toNat ∧ c.toNat < 0x7F := by
  rcases h.mem_cases hc with rfl | hlocal
  · decide
  · exact range_of_isLocalChar hlocal

theorem ne_nil : canonical ≠ [] := by
  rw [h.text]
  simp

theorem length_le : canonical.length ≤ 254 := by
  have hlength := h.length
  rw [h.text, asciiLower_eq, asciiLower_eq, List.length_append, List.length_map, List.length_cons,
    List.length_map]
  omega

theorem strStrip_eq : strStrip canonical = canonical := by
  apply stripBy_of_no_blank
  intro c hc
  have hrange := h.range hc
  unfold isSpace
  simp
  omega

/-- Canonicalization changes nothing the second time. -/
theorem canonicalizeEmail_eq :
    canonicalizeEmail (String.ofList canonical) = some (String.ofList canonical) := by
  have hsign : ∀ part : List Char, (∀ x ∈ part, isLocalChar x = true) → '@' ∉ asciiLower part := by
    intro part hpart hmem
    have hin := mem_of_mem_asciiLower hmem (by decide)
    exact absurd (hpart '@' hin) (by decide)
  have hlocal : ∀ x ∈ mailbox, isLocalChar x = true := by
    have hlocal := h.isLocalPart
    unfold Identity.isLocalPart at hlocal
    simp only [Bool.and_eq_true, List.all_eq_true] at hlocal
    exact hlocal.2
  have hmailbox := hsign mailbox hlocal
  have hdomain := hsign domain fun x hx => isLocalChar_of_isDomain h.isDomain hx
  have htake : canonical.takeWhile (· != '@') = asciiLower mailbox := by
    rw [h.text, List.takeWhile_append_of_pos]
    · simp
    · intro c hc
      exact bne_iff_ne.mpr fun heq => hmailbox (heq ▸ hc)
  have hdrop : canonical.dropWhile (· != '@') = '@' :: asciiLower domain := by
    rw [h.text, List.dropWhile_append_of_pos]
    · simp
    · intro c hc
      exact bne_iff_ne.mpr fun heq => hmailbox (heq ▸ hc)
  have hlower : ∀ part : List Char, asciiLower (asciiLower part) = asciiLower part := by
    intro part
    rw [asciiLower_eq, asciiLower_eq, List.map_map]
    apply List.map_congr_left
    intro c _
    exact lowerChar_lowerChar c
  have hcount : canonical.count '@' = 1 := by
    rw [h.text, List.count_append, List.count_cons, List.count_eq_zero.mpr hmailbox,
      List.count_eq_zero.mpr hdomain]
    rfl
  have hascii : canonical.all (·.toNat < 0x80) = true := by
    rw [List.all_eq_true]
    intro c hc
    have hrange := h.range hc
    simp
    omega
  unfold canonicalizeEmail
  dsimp only
  rw [String.toList_ofList, h.strStrip_eq, hascii, htake, hdrop, hcount, List.drop_one,
    List.tail_cons,
    isLocalPart_lower h.isLocalPart, isDomain_lower h.isDomain, hlower, hlower, ← h.text]
  have hle := h.length_le
  simp [h.ne_nil]
  omega

end IsCanonical

end MaddyWeb.Identity
