import MaddyWeb.Mail.Reply
import Mathlib.Data.List.TakeWhile

/-!
# The threading headers of a reply

The chain is bounded, without duplicates, and accepted when the reply is sent.  It contains the
parent unless the parent stood in the received chain already, in another case or too far in front
to be kept.
-/

namespace MaddyWeb.Mail

open MaddyWeb.Library
open MaddyWeb.Library.Text

/-! ## Message IDs -/

/-- The form of a message ID. -/
def IsId (found : Str) : Prop :=
  ∃ name host : Str, name ≠ [] ∧ host ≠ [] ∧ (∀ c ∈ name, isIdChar c = true) ∧
    (∀ c ∈ host, isIdChar c = true) ∧ found = '<' :: (name ++ '@' :: (host ++ ['>']))

theorem matchId_eq_some {text found : Str} (h : matchId text = some found) :
    IsId found ∧ found <+: text := by
  cases text with
  | nil => cases h
  | cons c rest =>
      unfold matchId at h
      split at h
      · next rest heq =>
          cases heq
          split at h
          · next rest' hat =>
              split at h
              · next rest'' hgt =>
                  dsimp only at h
                  split at h
                  · cases h
                  · next hempty =>
                      cases h
                      rw [Bool.or_eq_true, not_or, List.isEmpty_iff, List.isEmpty_iff] at hempty
                      refine ⟨⟨_, _, hempty.1, hempty.2, fun _ => List.mem_takeWhile_imp,
                        fun _ => List.mem_takeWhile_imp, ?_⟩,
                        rest'', ?_⟩
                      · simp
                      · conv_rhs =>
                          rw [← List.takeWhile_append_dropWhile (p := isIdChar) (l := rest), hat,
                            ← List.takeWhile_append_dropWhile (p := isIdChar) (l := rest'), hgt]
                        simp
              · cases h
          · cases h
      · cases h

theorem dropWhile_word {p : Char → Bool} {word : Str} (hword : ∀ c ∈ word, p c = true) {stop : Char}
    (hstop : p stop = false) (rest : Str) :
    (word ++ stop :: rest).dropWhile p = stop :: rest := by
  rw [List.dropWhile_append_of_pos hword,
    List.dropWhile_cons_of_neg (by rw [hstop]; exact Bool.false_ne_true)]

theorem takeWhile_word {p : Char → Bool} {word : Str} (hword : ∀ c ∈ word, p c = true) {stop : Char}
    (hstop : p stop = false) (rest : Str) : (word ++ stop :: rest).takeWhile p = word := by
  rw [List.takeWhile_append_of_pos hword,
    List.takeWhile_cons_of_neg (by rw [hstop]; exact Bool.false_ne_true), List.append_nil]

theorem matchId_of_isId {found : Str} (h : IsId found) : matchId found = some found := by
  obtain ⟨name, host, hname, hhost, hnames, hhosts, rfl⟩ := h
  have hat : isIdChar '@' = false := by decide
  have hgt : isIdChar '>' = false := by decide
  unfold matchId
  simp only [dropWhile_word hnames hat, takeWhile_word hnames hat, dropWhile_word hhosts hgt,
    takeWhile_word hhosts hgt]
  simp [hname, hhost]

theorem mem_finditer {skip : Nat} {text found : Str} (h : found ∈ finditer skip text) :
    IsId found ∧ found <:+: text := by
  induction text generalizing skip with
  | nil => cases skip <;> cases h
  | cons c rest ih =>
      cases skip with
      | succ skip => exact ⟨(ih h).1, List.infix_cons (ih h).2⟩
      | zero =>
          unfold finditer at h
          split at h
          · next first hfirst =>
              rcases List.mem_cons.mp h with rfl | h
              · exact ⟨(matchId_eq_some hfirst).1, (matchId_eq_some hfirst).2.isInfix⟩
              · exact ⟨(ih h).1, List.infix_cons (ih h).2⟩
          · exact ⟨(ih h).1, List.infix_cons (ih h).2⟩

/-- A message ID that an outgoing message takes as it is. -/
structure Sendable (id : Str) : Prop where
  isId : IsId id
  ascii : isAscii id = true
  clean : ∀ c ∈ id, isControl c = false
  short : id.length ≤ 998

theorem sendable_of_mem {value id : Str} (h : id ∈ (finditer 0 (rendered value)).filter isAscii) :
    Sendable id := by
  obtain ⟨hfound, hascii⟩ := List.mem_filter.mp h
  obtain ⟨hid, hfix⟩ := mem_finditer hfound
  refine ⟨hid, hascii, ?_, ?_⟩
  · intro c hc
    have hmem := List.mem_of_mem_take (hfix.subset hc)
    simpa using (List.mem_filter.mp hmem).2
  · have hlength := List.length_take_le 998 (value.filter (!isControl ·))
    exact Nat.le_trans hfix.length_le hlength

theorem strStrip_isId {id : Str} (h : IsId id) : strStrip id = id := by
  obtain ⟨name, host, -, -, -, -, rfl⟩ := h
  apply stripBy_eq_self
  · intro c hc
    cases hc
    decide
  · intro c hc
    rw [← List.cons_append, ← List.cons_append, ← List.append_assoc,
      List.getLast?_append] at hc
    cases hc
    decide

theorem validateMessageId_eq {id : Str} (h : Sendable id) (label : String) :
    validateMessageId id label = .ok id := by
  unfold validateMessageId validateHeaderValue
  have hclean : id.any isControl = false := by
    rw [List.any_eq_false]
    intro c hc
    rw [h.clean c hc]
    exact Bool.false_ne_true
  have hshort : ¬ 998 < id.length := by
    have := h.short
    omega
  have hmatch : fullmatch id = true := by
    unfold fullmatch
    rw [matchId_of_isId h.isId]
    exact beq_self_eq_true _
  rw [strStrip_isId h.isId, hclean, decide_eq_false hshort]
  simp [bind, Except.bind, h.ascii, hmatch, pure, Except.pure]

/-! ## Chains -/

theorem lastOf_suffix {α : Type} (maximum : Nat) (found : List α) :
    lastOf maximum found <:+ found :=
  List.drop_suffix _ found

theorem length_lastOf_le {α : Type} (maximum : Nat) (found : List α) :
    (lastOf maximum found).length ≤ maximum := by
  unfold lastOf
  rw [List.length_drop]
  omega

theorem lastOf_append {α : Type} {maximum : Nat} (hmaximum : 0 < maximum) (found : List α)
    (x : α) : ∃ k, lastOf maximum (found ++ [x]) = found.drop k ++ [x] := by
  refine ⟨(found ++ [x]).length - maximum, ?_⟩
  unfold lastOf
  rw [List.drop_append_of_le_length]
  rw [List.length_append, List.length_singleton]
  omega

/-- The ids of a received chain, before any is left out. -/
def receivedIds (message : ParsedMessage) : List Str :=
  ((baseReferences message).flatMap fun value => finditer 0 (rendered value)).filter isAscii

theorem extractMessageIds_suffix (maximum : Nat) (values : List Str) :
    extractMessageIds maximum values <:+ Unique.keepNew asciiLower []
      ((values.flatMap fun value => finditer 0 (rendered value)).filter isAscii) :=
  lastOf_suffix maximum _

theorem extractMessageIds_sendable {maximum : Nat} {values : List Str} :
    ∀ id ∈ extractMessageIds maximum values, Sendable id := by
  intro id hid
  have hmem := (Unique.keepNew_sublist _ _).subset
    ((extractMessageIds_suffix maximum values).subset hid)
  obtain ⟨hfound, hascii⟩ := List.mem_filter.mp hmem
  obtain ⟨value, -, hfound⟩ := List.mem_flatMap.mp hfound
  exact sendable_of_mem (List.mem_filter.mpr ⟨hfound, hascii⟩)

theorem extractMessageIds_nodup (maximum : Nat) (values : List Str) :
    ((extractMessageIds maximum values).map asciiLower).Nodup :=
  (Unique.keepNew_nodup [] _).sublist
    ((extractMessageIds_suffix maximum values).sublist.map asciiLower)

theorem joined_singleton (value : Str) : joined [value] = value := by
  unfold joined
  exact List.intercalate_singleton

theorem length_joined_cons (value : Str) (rest : List Str) :
    (joined rest).length ≤ (joined (value :: rest)).length := by
  cases rest with
  | nil => exact Nat.zero_le _
  | cons second rest =>
      unfold joined
      rw [List.intercalate_cons_cons]
      simp only [List.length_append]
      omega

theorem length_joined_suffix {short long : List Str} (h : short <:+ long) :
    (joined short).length ≤ (joined long).length := by
  induction long with
  | nil =>
      cases List.suffix_nil.mp h
      exact Nat.le_refl _
  | cons value rest ih =>
      rcases List.suffix_cons_iff.mp h with rfl | h
      · exact Nat.le_refl _
      · exact Nat.le_trans (ih h) (length_joined_cons value rest)

theorem fit_suffix (values : List Str) : fit values <:+ values := by
  induction values with
  | nil => exact List.suffix_refl _
  | cons value rest ih =>
      unfold fit
      split
      · exact ih.trans (List.suffix_cons value rest)
      · exact List.suffix_refl _

theorem length_joined_fit (values : List Str) : (joined (fit values)).length ≤ 998 := by
  induction values with
  | nil => decide
  | cons value rest ih =>
      unfold fit
      split
      · exact ih
      · next hshort => exact Nat.not_lt.mp hshort

/-- A reference is kept when what follows it leaves room for it. -/
theorem mem_fit {values : List Str} (hnodup : values.Nodup) {x : Str} (hx : x ∈ values) :
    x ∈ fit values ↔ (joined (values.dropWhile (· != x))).length ≤ 998 := by
  induction values with
  | nil => cases hx
  | cons value rest ih =>
      have hvalue := (List.nodup_cons.mp hnodup).1
      have hrest := (List.nodup_cons.mp hnodup).2
      unfold fit
      by_cases heq : value = x
      · subst heq
        rw [List.dropWhile_cons_of_neg (by rw [bne_self_eq_false]; exact Bool.false_ne_true)]
        split
        · next hlong =>
            refine ⟨fun hmem => absurd ((fit_suffix rest).subset hmem) hvalue, fun hshort => ?_⟩
            omega
        · next hshort => exact ⟨fun _ => Nat.not_lt.mp hshort, fun _ => List.mem_cons_self⟩
      · have hmem : x ∈ rest := (List.mem_cons.mp hx).resolve_left (Ne.symm heq)
        have hdrop : (value :: rest).dropWhile (· != x) = rest.dropWhile (· != x) :=
          List.dropWhile_cons_of_pos (p := (· != x)) (bne_iff_ne.mpr heq)
        rw [hdrop]
        split
        · exact ih hrest hmem
        · next hshort =>
            have hle := length_joined_suffix
              ((List.dropWhile_suffix (p := (· != x)) (l := rest)).trans
                (List.suffix_cons value rest))
            exact ⟨fun _ => by omega, fun _ => hx⟩

/-- The ids to send are taken as they are. -/
theorem validateEach_eq {seen : List Str} {values : List Str} (hvalues : ∀ id ∈ values, Sendable id)
    (hnodup : (values.map asciiLower).Nodup) (hseen : ∀ id ∈ values, asciiLower id ∉ seen) :
    validateEach seen values = .ok values := by
  induction values generalizing seen with
  | nil => rfl
  | cons value rest ih =>
      rw [List.map_cons, List.nodup_cons] at hnodup
      unfold validateEach
      rw [validateMessageId_eq (hvalues value List.mem_cons_self)]
      dsimp only [bind, Except.bind]
      rw [if_neg (hseen value List.mem_cons_self),
        ih (fun id hid => hvalues id (List.mem_cons_of_mem value hid)) hnodup.2]
      · rfl
      · intro id hid hmem
        rcases List.mem_cons.mp hmem with heq | hmem
        · exact hnodup.1 (heq ▸ List.mem_map_of_mem hid)
        · exact hseen id (List.mem_cons_of_mem value hid) hmem

theorem validateReferences_eq {values : List Str} (hlength : values.length ≤ maxThreadMessageIds)
    (hvalues : ∀ id ∈ values, Sendable id) (hnodup : (values.map asciiLower).Nodup)
    (hjoined : (joined values).length ≤ 998) : validateReferences values = .ok values := by
  unfold validateReferences
  rw [if_neg (Nat.not_lt.mpr hlength),
    validateEach_eq hvalues hnodup (fun _ _ => List.not_mem_nil)]
  dsimp only [bind, Except.bind, pure, Except.pure]
  rw [if_neg (Nat.not_lt.mpr hjoined)]

/-! ## The headers -/

section Headers

variable (message : ParsedMessage)

def parentId : Str := ((extractMessageIds 1 [message.messageId]).head?).getD []

/-- The received chain. -/
def chain : List Str := extractMessageIds maxThreadMessageIds (baseReferences message)

/-- The chain with the parent, before it is made to fit. -/
def extended : List Str :=
  lastOf maxThreadMessageIds
    (if !(parentId message).isEmpty && !((chain message).map asciiLower).contains
        (asciiLower (parentId message)) then chain message ++ [parentId message]
    else chain message)

theorem replyThreadHeaders_eq :
    replyThreadHeaders message = (parentId message, fit (extended message)) := rfl

variable {message}

theorem parentId_eq {id : Str} (h : id ∈ extractMessageIds 1 [message.messageId]) :
    parentId message = id := by
  have hlength : (extractMessageIds 1 [message.messageId]).length ≤ 1 := length_lastOf_le 1 _
  unfold parentId
  cases hids : extractMessageIds 1 [message.messageId] with
  | nil =>
      rw [hids] at h
      cases h
  | cons first rest =>
      rw [hids, List.length_cons] at hlength
      have hrest : rest = [] := List.length_eq_zero_iff.mp (by omega)
      rw [hids, hrest, List.mem_singleton] at h
      exact h.symm

theorem mem_of_parentId_ne_nil (h : parentId message ≠ []) :
    parentId message ∈ extractMessageIds 1 [message.messageId] := by
  unfold parentId at h ⊢
  cases hids : extractMessageIds 1 [message.messageId] with
  | nil =>
      rw [hids] at h
      exact absurd rfl h
  | cons first rest => exact List.mem_cons_self

theorem isId_ne_nil {id : Str} (h : IsId id) : id ≠ [] := by
  obtain ⟨name, host, -, -, -, -, rfl⟩ := h
  exact List.cons_ne_nil _ _

theorem extended_of_mem (h : asciiLower (parentId message) ∈ (chain message).map asciiLower) :
    extended message = chain message := by
  unfold extended
  rw [List.contains_iff_mem.mpr h, Bool.not_true, Bool.and_false, if_neg Bool.false_ne_true]
  unfold lastOf
  have hlength : (chain message).length ≤ maxThreadMessageIds := length_lastOf_le _ _
  rw [Nat.sub_eq_zero_of_le hlength, List.drop_zero]

theorem extended_of_not_mem (hne : parentId message ≠ [])
    (h : asciiLower (parentId message) ∉ (chain message).map asciiLower) :
    extended message = lastOf maxThreadMessageIds (chain message ++ [parentId message]) := by
  unfold extended
  rw [if_pos]
  rw [Bool.and_eq_true, Bool.not_eq_true', Bool.not_eq_true', List.isEmpty_eq_false_iff,
    ← Bool.not_eq_true, List.contains_iff_mem]
  exact ⟨hne, h⟩

theorem extended_suffix (message : ParsedMessage) :
    extended message <:+ chain message ∨
      parentId message ≠ [] ∧ asciiLower (parentId message) ∉ (chain message).map asciiLower ∧
        extended message <:+ chain message ++ [parentId message] := by
  unfold extended
  split
  · next hnew =>
      rw [Bool.and_eq_true, Bool.not_eq_true', Bool.not_eq_true', List.isEmpty_eq_false_iff,
        ← Bool.not_eq_true, List.contains_iff_mem] at hnew
      exact Or.inr ⟨hnew.1, hnew.2, lastOf_suffix _ _⟩
  · exact Or.inl (lastOf_suffix _ _)

theorem extended_sendable : ∀ id ∈ extended message, Sendable id := by
  intro id hid
  rcases extended_suffix message with hsuffix | ⟨hne, -, hsuffix⟩
  · exact extractMessageIds_sendable id (hsuffix.subset hid)
  · rcases List.mem_append.mp (hsuffix.subset hid) with hid | hid
    · exact extractMessageIds_sendable id hid
    · rw [List.mem_singleton.mp hid]
      exact extractMessageIds_sendable _ (mem_of_parentId_ne_nil hne)

theorem extended_nodup (message : ParsedMessage) : ((extended message).map asciiLower).Nodup := by
  have hchain : ((chain message).map asciiLower).Nodup := extractMessageIds_nodup _ _
  rcases extended_suffix message with hsuffix | ⟨-, hnew, hsuffix⟩
  · exact hchain.sublist (hsuffix.sublist.map asciiLower)
  · apply List.Nodup.sublist (hsuffix.sublist.map asciiLower)
    rw [List.map_append, List.map_singleton]
    exact List.nodup_append.mpr ⟨hchain, List.nodup_singleton _,
      fun a ha b hb heq => hnew (List.mem_singleton.mp hb ▸ heq ▸ ha)⟩

theorem chain_sublist (message : ParsedMessage) : (chain message).Sublist (receivedIds message) :=
  (extractMessageIds_suffix _ _).sublist.trans (Unique.keepNew_sublist _ _)

theorem extended_others (message : ParsedMessage) :
    ((extended message).filter (· != parentId message)).Sublist (receivedIds message) := by
  rcases extended_suffix message with hsuffix | ⟨-, -, hsuffix⟩
  · exact List.filter_sublist.trans (hsuffix.sublist.trans (chain_sublist message))
  · have hothers := hsuffix.sublist.filter (· != parentId message)
    rw [List.filter_append, List.filter_singleton, bne_self_eq_false] at hothers
    have hnone : (bif false then [parentId message] else []) = ([] : List Str) := rfl
    rw [hnone, List.append_nil] at hothers
    exact hothers.trans (List.filter_sublist.trans (chain_sublist message))

/-- What threading headers are to be. -/
structure Usable (message : ParsedMessage) : Prop where
  parent : ∀ id ∈ extractMessageIds 1 [message.messageId],
    (replyThreadHeaders message).1 = id ∧ id ∈ (replyThreadHeaders message).2
  few : (replyThreadHeaders message).2.length ≤ maxThreadMessageIds
  distinct : ((replyThreadHeaders message).2.map asciiLower).Nodup
  short : (joined (replyThreadHeaders message).2).length ≤ 998
  others : ((replyThreadHeaders message).2.filter (· != (replyThreadHeaders message).1)).Sublist
    (receivedIds message)
  accepted : validateThread (replyThreadHeaders message).1 (replyThreadHeaders message).2 =
    .ok (replyThreadHeaders message)

/-- The received chain does not name the parent in any case, or it names it exactly and near enough
to its end. -/
def ParentFits (message : ParsedMessage) : Prop :=
  ∀ id ∈ extractMessageIds 1 [message.messageId],
    asciiLower id ∉ (chain message).map asciiLower ∨
      id ∈ chain message ∧ (joined ((chain message).dropWhile (· != id))).length ≤ 998

theorem mem_references_iff (h : parentId message ≠ []) :
    parentId message ∈ fit (extended message) ↔
      (asciiLower (parentId message) ∉ (chain message).map asciiLower ∨
        parentId message ∈ chain message ∧
          (joined ((chain message).dropWhile (· != parentId message))).length ≤ 998) := by
  by_cases hmem : asciiLower (parentId message) ∈ (chain message).map asciiLower
  · rw [extended_of_mem hmem, or_iff_right (not_not_intro hmem)]
    have hnodup : (chain message).Nodup := (extractMessageIds_nodup _ _).of_map
    constructor
    · intro hfit
      have hchain := (fit_suffix _).subset hfit
      exact ⟨hchain, (mem_fit hnodup hchain).mp hfit⟩
    · rintro ⟨hchain, hshort⟩
      exact (mem_fit hnodup hchain).mpr hshort
  · rw [iff_true_right (Or.inl hmem)]
    have hshort := (extractMessageIds_sendable _ (mem_of_parentId_ne_nil h)).short
    obtain ⟨k, hlast⟩ :=
      lastOf_append (by decide : 0 < maxThreadMessageIds) (chain message) (parentId message)
    have hnodup : (extended message).Nodup := (extended_nodup message).of_map
    rw [extended_of_not_mem h hmem, hlast] at hnodup ⊢
    rw [mem_fit hnodup (List.mem_append_right _ (List.mem_singleton_self _)),
      List.dropWhile_append_of_pos, List.dropWhile_cons_of_neg]
    · rw [joined_singleton]
      exact hshort
    · rw [bne_self_eq_false]
      exact Bool.false_ne_true
    · intro id hid
      apply bne_iff_ne.mpr
      rintro rfl
      exact hmem (List.mem_map_of_mem (List.mem_of_mem_drop hid))

/-- The headers of a reply are usable exactly when the parent fits. -/
theorem thread_headers_usable_iff (message : ParsedMessage) :
    Usable message ↔ ParentFits message := by
  constructor
  · intro husable id hid
    have hparent := parentId_eq hid
    subst hparent
    have hne := isId_ne_nil (extractMessageIds_sendable _ hid).isId
    exact (mem_references_iff hne).mp (husable.parent _ hid).2
  · intro hfits
    have hsuffix := fit_suffix (extended message)
    have hsendable : ∀ id ∈ fit (extended message), Sendable id :=
      fun id hid => extended_sendable id (hsuffix.subset hid)
    have hlength : (fit (extended message)).length ≤ maxThreadMessageIds :=
      Nat.le_trans hsuffix.length_le (length_lastOf_le _ _)
    have hnodup : ((fit (extended message)).map asciiLower).Nodup :=
      (extended_nodup message).sublist (hsuffix.sublist.map asciiLower)
    refine ⟨?_, hlength, hnodup, length_joined_fit _, ?_, ?_⟩
    · intro id hid
      have hparent := parentId_eq hid
      subst hparent
      have hne := isId_ne_nil (extractMessageIds_sendable _ hid).isId
      exact ⟨rfl, (mem_references_iff hne).mpr (hfits _ hid)⟩
    · exact (hsuffix.sublist.filter _).trans (extended_others message)
    · rw [replyThreadHeaders_eq]
      unfold validateThread
      dsimp only
      rw [validateReferences_eq hlength hsendable hnodup (length_joined_fit _)]
      by_cases hne : parentId message = []
      · rw [hne]
        rfl
      · have hsend := extractMessageIds_sendable _ (mem_of_parentId_ne_nil hne)
        rw [validateMessageId_eq hsend, if_pos]
        · rfl
        · rw [Bool.not_eq_true', List.isEmpty_eq_false_iff]
          exact hne

/-- A message that names itself in front of a long reference. -/
def selfReferring : ParsedMessage where
  sender := []
  toAddrs := []
  cc := []
  messageId := "<p@x>".toList
  replyTo := []
  inReplyTo := []
  references := ["<p@x>".toList, '<' :: (List.replicate 990 'a' ++ "@x>".toList)]

/-- The reply does not refer to the message it answers. -/
theorem self_reference_dropped : ¬ ∀ message, Usable message := by
  intro h
  have hparent := (h selfReferring).parent "<p@x>".toList (by decide +kernel)
  have hdropped : "<p@x>".toList ∉ (replyThreadHeaders selfReferring).2 := by decide +kernel
  exact hdropped hparent.2

end Headers

end MaddyWeb.Mail
