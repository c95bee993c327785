import Mathlib.Algebra.Group.Int.Defs
import Mathlib.Algebra.GroupWithZero.Nat
import Mathlib.Algebra.Order.BigOperators.Group.List
import MaddyWeb.Library.History
import MaddyWeb.Mail.Mime

/-!
# What there is to read in a MIME message

The parts of a message in pre-order, each with the parts above it, the texts and attachments among
them, and the limits.  The checks of headers and of the HTML body decide whether theirs are kept.
-/

namespace MaddyWeb.Mail.Mime

open MaddyWeb.Library MaddyWeb.Library.Text

abbrev Visit : Type := Part × Place

/-! ## The recursive definition -/

/-- An attachment, a named part or a forwarded message. -/
def holdsAttachment (headers : Headers) : Bool :=
  headers.disposition == some "attachment".toList || headers.filename.isSome ||
    asciiLower headers.contentType == "message/rfc822".toList

/-- The place below the given parts. -/
def placeBelow (above : List Headers) : Place := ⟨above.length, above.any holdsAttachment⟩

/-- The parts in pre-order, each with its place below those above it. -/
def visits (message : Part) : List Visit :=
  (Tree.preorder (fun above headers => headers :: above) [] message).map fun entry =>
    (entry.1, placeBelow entry.2)

theorem preorder_rootPlace (message : Part) :
    Tree.preorder Place.child rootPlace message = visits message := by
  have hroot : rootPlace = placeBelow [] := rfl
  rw [hroot, visits]
  apply Tree.preorder_map
  intro above headers
  have hunder : (headers :: above).any holdsAttachment =
      (above.any holdsAttachment || headers.disposition == some "attachment".toList ||
        headers.filename.isSome || asciiLower headers.contentType == "message/rfc822".toList) := by
    rw [List.any_cons, Bool.or_comm, holdsAttachment, Bool.or_assoc, Bool.or_assoc, Bool.or_assoc]
  rw [placeBelow, hunder]
  rfl

/-- The loop takes the parts in pre-order, whatever is done with them. -/
theorem boundedMessageParts_eq {σ : Type} (consume : σ → Part × Place → Except MailError σ)
    (message : Part) (state : σ) :
    boundedMessageParts consume message state =
      (visits message).foldlM (takePart consume) (0, state) := by
  rw [boundedMessageParts, Tree.walk_singleton, preorder_rootPlace]

/-- A text that is no attachment and has no name, and is not below an attachment, a named part or
a forwarded message. -/
structure MayBeBody (place : Place) (headers : Headers) : Prop where
  text : asciiLower headers.contentType = "text/plain".toList ∨
    asciiLower headers.contentType = "text/html".toList
  unattached : headers.disposition ≠ some "attachment".toList
  unnamed : headers.filename = none
  outside : place.underAttachment = false

theorem isBody_iff {place : Place} {headers : Headers} :
    isBody place headers = true ↔ MayBeBody place headers := by
  unfold isBody
  simp only [Bool.and_eq_true, Bool.not_eq_true', bne_iff_ne, Option.isNone_iff_eq_none,
    List.contains_iff_mem, List.mem_cons, List.not_mem_nil, or_false]
  constructor
  · rintro ⟨⟨⟨houtside, hunattached⟩, hunnamed⟩, htext⟩
    exact ⟨htext, hunattached, hunnamed, houtside⟩
  · intro h
    exact ⟨⟨⟨h.outside, h.unattached⟩, h.unnamed⟩, h.text⟩

instance (place : Place) (headers : Headers) : Decidable (MayBeBody place headers) :=
  decidable_of_iff _ isBody_iff

section Platform

variable (platform : Platform)

/-- The text of a leaf that may be a body of the given type. -/
def bodyText (contentType : String) : Visit → Option Str
  | (.leaf (headers, content), place) =>
    if MayBeBody place headers ∧ asciiLower headers.contentType = contentType.toList then
      some (decodedText platform content)
    else none
  | (.branch _ _, _) => none

/-- A leaf that may not be a body. -/
def attachedLeaf : Visit → Option (Place × Headers × Content)
  | (.leaf (headers, content), place) =>
    if MayBeBody place headers then none else some (place, headers, content)
  | (.branch _ _, _) => none

def plainTexts (seen : List Visit) : List Str := seen.filterMap (bodyText platform "text/plain")

def htmlTexts (seen : List Visit) : List Str := seen.filterMap (bodyText platform "text/html")

def attachedLeaves (seen : List Visit) : List (Place × Headers × Content) :=
  seen.filterMap attachedLeaf

def attachedBytes (seen : List Visit) : Nat :=
  ((attachedLeaves seen).map fun leaf => leaf.2.2.payload.length).sum

def headerCount (seen : List Visit) : Nat :=
  (seen.map fun visit => (headersOf visit.1).rawItems.length).sum

def headerCharacters (items : List (Filename.Text × Filename.Text)) : Nat :=
  (items.map fun item => item.1.length + item.2.length).sum

def allHeaderCharacters (seen : List Visit) : Nat :=
  (seen.map fun visit => headerCharacters (headersOf visit.1).rawItems).sum

/-- The first text that is not empty. -/
def firstText (texts : List Str) : Str := (texts.find? (· != [])).getD []

/-! ## Limits -/

/-- The values of the address headers. -/
def addressItems (items : List (Filename.Text × Filename.Text)) : List Filename.Text :=
  (items.filter fun item => isAddressHeader item.1).map (·.2)

structure HeadersFit (items : List (Filename.Text × Filename.Text)) : Prop where
  count : items.length ≤ maxHeadersPerPart
  characters : headerCharacters items ≤ maxHeaderCharactersPerPart
  addressValues : (addressItems items).length ≤ maxAddressHeaderValues
  addressCharacters : ((addressItems items).map List.length).sum ≤ maxAddressHeaderCharacters

def isElement : HtmlEvent → Bool
  | .startTag _ | .startEndTag _ => true
  | .endTag _ | .data _ => false

/-- The elements that are open after an event. -/
def nestedAfter (depth : Nat) : HtmlEvent → Nat
  | .startTag tag => if isVoidTag tag then depth else depth + 1
  | .endTag tag => if isVoidTag tag then depth else depth - 1
  | .startEndTag _ | .data _ => depth

def nesting (events : List HtmlEvent) : Nat := events.foldl nestedAfter 0

inductive Limit
  | mimeDepth
  | mimeParts
  | partHeaders
  | messageHeaders
  | bodyCharacters
  | sanitizedCharacters
  | htmlElements
  | htmlDepth
  | attachmentBytes
  | totalAttachmentBytes
  | attachments
  deriving DecidableEq

/-- The HTML body that is taken at the visit. -/
def takenHtml (seen : List Visit) (visit : Visit) : Option Str :=
  if htmlTexts platform seen = [] then bodyText platform "text/html" visit else none

/-- The limit is exceeded at the visit that follows those seen. -/
def Exceeds (seen : List Visit) (visit : Visit) : Limit → Prop
  | .mimeDepth => maxMimeDepth < visit.2.depth
  | .mimeParts => maxMimeParts < seen.length + 1
  | .partHeaders => ¬HeadersFit (headersOf visit.1).rawItems
  | .messageHeaders => maxMessageHeaders < headerCount (seen ++ [visit]) ∨
      maxMessageHeaderCharacters < allHeaderCharacters (seen ++ [visit])
  | .bodyCharacters => ∃ contentType ∈ ["text/plain", "text/html"],
      ∃ text ∈ bodyText platform contentType visit, maxBodyCharacters < text.length
  | .sanitizedCharacters => ∃ html ∈ takenHtml platform seen visit,
      maxSanitizedHtmlCharacters < (sanitized platform html).length
  | .htmlElements => ∃ html ∈ takenHtml platform seen visit,
      maxSanitizedHtmlElements < (platform.htmlEvents (sanitized platform html)).countP isElement
  | .htmlDepth => ∃ html ∈ takenHtml platform seen visit,
      ∃ events, events <+: platform.htmlEvents (sanitized platform html) ∧
        maxSanitizedHtmlDepth < nesting events
  | .attachmentBytes => ∃ leaf ∈ attachedLeaf visit, maxAttachmentBytes < leaf.2.2.payload.length
  | .totalAttachmentBytes =>
      (attachedLeaf visit).isSome ∧ maxTotalAttachmentBytes < attachedBytes (seen ++ [visit])
  | .attachments =>
      (attachedLeaf visit).isSome ∧ maxAttachments < (attachedLeaves (seen ++ [visit])).length

/-- No limit is exceeded at the visit. -/
def Fits (seen : List Visit) (visit : Visit) : Prop := ∀ limit, ¬Exceeds platform seen visit limit

end Platform

/-! ## Headers and HTML -/

def Reported (e : MailError) : Prop := ∃ message, e = .limit message

theorem reported (message : String) : Reported (.limit message) := ⟨message, rfl⟩

def headerTotals (items : List (Filename.Text × Filename.Text)) : HeaderTotals where
  count := items.length
  characters := headerCharacters items
  addressValues := (addressItems items).length
  addressCharacters := ((addressItems items).map List.length).sum

theorem headerTotals_snoc (items : List (Filename.Text × Filename.Text))
    (item : Filename.Text × Filename.Text) :
    headerTotals (items ++ [item]) =
      if isAddressHeader item.1 then
        ⟨items.length + 1, headerCharacters items + (item.1.length + item.2.length),
          (addressItems items).length + 1,
            ((addressItems items).map List.length).sum + item.2.length⟩
      else
        ⟨items.length + 1, headerCharacters items + (item.1.length + item.2.length),
          (addressItems items).length, ((addressItems items).map List.length).sum⟩ := by
  by_cases haddress : isAddressHeader item.1 = true
  · simp [headerTotals, headerCharacters, addressItems, haddress]
  · simp [headerTotals, headerCharacters, addressItems, haddress]

theorem HeadersFit.of_append {items rest : List (Filename.Text × Filename.Text)}
    (h : HeadersFit (items ++ rest)) : HeadersFit items := by
  obtain ⟨hcount, hcharacters, hvalues, haddresses⟩ := h
  simp only [headerCharacters, addressItems, List.filter_append, List.map_append,
    List.length_append, List.sum_append] at hcount hcharacters hvalues haddresses
  constructor
  · omega
  · exact (Nat.le_add_right _ _).trans hcharacters
  · rw [addressItems]
    omega
  · exact (Nat.le_add_right _ _).trans haddresses

theorem headersFit_nil : HeadersFit [] where
  count := Nat.zero_le _
  characters := Nat.zero_le _
  addressValues := Nat.zero_le _
  addressCharacters := Nat.zero_le _

theorem countHeader_decides {items : List (Filename.Text × Filename.Text)}
    (hitems : HeadersFit items)
    (item : Filename.Text × Filename.Text) :
    Fallible.Decides Reported (countHeader (headerTotals items) item) (HeadersFit (items ++ [item]))
      (headerTotals (items ++ [item])) := by
  have hfit : HeadersFit (items ++ [item]) ↔
      (headerTotals (items ++ [item])).count ≤ maxHeadersPerPart ∧
        (headerTotals (items ++ [item])).characters ≤ maxHeaderCharactersPerPart ∧
        (headerTotals (items ++ [item])).addressValues ≤ maxAddressHeaderValues ∧
        (headerTotals (items ++ [item])).addressCharacters ≤ maxAddressHeaderCharacters := by
    constructor
    · exact fun h => ⟨h.count, h.characters, h.addressValues, h.addressCharacters⟩
    · exact fun h => ⟨h.1, h.2.1, h.2.2.1, h.2.2.2⟩
  rw [headerTotals_snoc] at hfit
  rw [headerTotals_snoc]
  unfold countHeader
  by_cases haddress : isAddressHeader item.1 = true
  · rw [if_pos haddress] at hfit ⊢
    apply Fallible.Decides.congr
    · apply Fallible.Decides.bind (.ensure (reported _))
      intro _
      rw [if_pos haddress]
      exact .bind (.ensure (reported _)) fun _ => .of_ok _
    · rw [hfit, not_or, not_or, Nat.not_lt, Nat.not_lt, Nat.not_lt, Nat.not_lt, and_true, and_assoc]
      rfl
  · rw [if_neg haddress] at hfit ⊢
    apply Fallible.Decides.congr
    · apply Fallible.Decides.bind (.ensure (reported _))
      intro _
      rw [if_neg haddress]
      exact .of_ok _
    · rw [hfit, not_or, Nat.not_lt, Nat.not_lt, and_true]
      have hvalues := hitems.addressValues
      have hcharacters := hitems.addressCharacters
      constructor
      · exact fun h => ⟨h.1, h.2, hvalues, hcharacters⟩
      · exact fun h => ⟨h.1, h.2.1⟩

/-- The totals of the headers, if they fit. -/
theorem validatePartHeaders_decides (headers : Headers) :
    Fallible.Decides Reported (validatePartHeaders headers) (HeadersFit headers.rawItems)
      (headerTotals headers.rawItems) := by
  have hguarded : ∀ items, History.Guarded (fun seen item => HeadersFit (seen ++ [item])) items ↔
      HeadersFit items :=
        fun _ => History.guarded_iff headersFit_nil fun _ _ => HeadersFit.of_append
  have hloop : Fallible.Decides Reported (headers.rawItems.foldlM countHeader (headerTotals []))
      _ (headerTotals headers.rawItems) :=
    History.Guarded.decides
      (fun seen item hseen => countHeader_decides ((hguarded seen).mp hseen) item) headers.rawItems
  exact hloop.congr (hguarded _)

/-! ### The budget of the HTML body -/

structure HtmlFits (events : List HtmlEvent) : Prop where
  elements : events.countP isElement ≤ maxSanitizedHtmlElements
  depth : ∀ start, start <+: events → nesting start ≤ maxSanitizedHtmlDepth

def htmlBudget (events : List HtmlEvent) : HtmlBudget := ⟨events.countP isElement, nesting events⟩

theorem nesting_snoc (events : List HtmlEvent) (event : HtmlEvent) :
    nesting (events ++ [event]) = nestedAfter (nesting events) event := by
  rw [nesting, List.foldl_append]
  rfl

theorem htmlFits_nil : HtmlFits [] where
  elements := Nat.zero_le _
  depth start h := by
    rw [List.prefix_nil.mp h]
    exact Nat.zero_le _

theorem HtmlFits.of_append {events rest : List HtmlEvent} (h : HtmlFits (events ++ rest)) :
    HtmlFits events where
  elements := by
    have helements := h.elements
    rw [List.countP_append] at helements
    omega
  depth start hstart := h.depth start (hstart.trans (List.prefix_append _ _))

theorem htmlFits_snoc_iff {events : List HtmlEvent} (h : HtmlFits events) (event : HtmlEvent) :
    HtmlFits (events ++ [event]) ↔
      (htmlBudget (events ++ [event])).elements ≤ maxSanitizedHtmlElements ∧
        (htmlBudget (events ++ [event])).depth ≤ maxSanitizedHtmlDepth := by
  constructor
  · exact fun h => ⟨h.elements, h.depth _ (List.prefix_refl _)⟩
  · rintro ⟨helements, hdepth⟩
    refine ⟨helements, fun start hstart => ?_⟩
    rcases List.prefix_concat_iff.mp hstart with rfl | hstart
    · exact hdepth
    · exact h.depth start hstart

/-- A counted element, at the nesting that is left after it. -/
theorem element_decides {events : List HtmlEvent} (h : HtmlFits events) {event : HtmlEvent}
    {tag : Str}
    {nested : Bool} (helement : isElement event = true)
    (hnested : nestedAfter (nesting events) event =
      if nested && !isVoidTag tag then nesting events + 1 else nesting events) :
    Fallible.Decides Reported ((htmlBudget events).element tag nested)
      (HtmlFits (events ++ [event]))
      (htmlBudget (events ++ [event])) := by
  have hbudget : htmlBudget (events ++ [event]) =
      ⟨events.countP isElement + 1, nestedAfter (nesting events) event⟩ := by
    rw [htmlBudget, List.countP_append, nesting_snoc, List.countP_singleton, if_pos helement]
  have hfits := htmlFits_snoc_iff h event
  rw [hbudget, hnested] at hfits
  rw [hbudget, hnested]
  unfold HtmlBudget.element
  by_cases hdeeper : (nested && !isVoidTag tag) = true
  · rw [if_pos hdeeper] at hfits ⊢
    apply Fallible.Decides.congr
    · apply Fallible.Decides.bind (.ensure (reported _))
      intro _
      rw [if_pos hdeeper]
      exact .bind (.ensure (reported _)) fun _ => .of_ok _
    · rw [hfits, and_true]
      rfl
  · rw [if_neg hdeeper] at hfits ⊢
    apply Fallible.Decides.congr
    · apply Fallible.Decides.bind (.ensure (reported _))
      intro _
      rw [if_neg hdeeper]
      exact .of_ok _
    · have hdepth := h.depth events (List.prefix_refl _)
      rw [hfits, and_true]
      exact ⟨fun helements => ⟨helements, hdepth⟩, fun hboth => hboth.1⟩

/-- Another event is never too much. -/
theorem other_decides {events : List HtmlEvent} (h : HtmlFits events) (event : HtmlEvent)
    (hother : isElement event = false) (hle : nestedAfter (nesting events) event ≤ nesting events) :
    Fallible.Decides Reported
      (.ok ⟨events.countP isElement,
        nestedAfter (nesting events) event⟩ : Except MailError HtmlBudget)
      (HtmlFits (events ++ [event])) (htmlBudget (events ++ [event])) := by
  have hbudget : htmlBudget (events ++ [event]) =
      ⟨events.countP isElement, nestedAfter (nesting events) event⟩ := by
    rw [htmlBudget, List.countP_append, nesting_snoc, List.countP_singleton, hother,
      if_neg Bool.false_ne_true, Nat.add_zero]
  have hfits := htmlFits_snoc_iff h event
  rw [hbudget] at hfits
  rw [hbudget]
  apply (Fallible.Decides.of_ok _).congr
  rw [hfits, true_iff]
  exact ⟨h.elements, hle.trans (h.depth events (List.prefix_refl _))⟩

theorem handle_endTag (budget : HtmlBudget) (tag : Str) :
    budget.handle (.endTag tag) =
      .ok ⟨budget.elements, nestedAfter budget.depth (.endTag tag)⟩ := by
  obtain ⟨elements, depth⟩ := budget
  by_cases hvoid : isVoidTag tag = true
  · simp [HtmlBudget.handle, nestedAfter, hvoid]
  · by_cases hzero : depth = 0
    · simp [HtmlBudget.handle, nestedAfter, hvoid, hzero]
    · simp [HtmlBudget.handle, nestedAfter, hvoid, hzero]

theorem handle_decides {events : List HtmlEvent} (h : HtmlFits events) (event : HtmlEvent) :
    Fallible.Decides Reported ((htmlBudget events).handle event) (HtmlFits (events ++ [event]))
      (htmlBudget (events ++ [event])) := by
  cases event with
  | startTag tag =>
      apply element_decides h rfl
      rw [nestedAfter, Bool.true_and]
      cases isVoidTag tag <;> rfl
  | startEndTag tag => exact element_decides h rfl rfl
  | endTag tag =>
      rw [handle_endTag]
      apply other_decides h (.endTag tag) rfl
      unfold nestedAfter
      dsimp only
      split
      · exact Nat.le_refl _
      · exact Nat.sub_le _ _
  | data text => exact other_decides h (.data text) rfl (Nat.le_refl _)

section Platform

variable (platform : Platform)

theorem validateSanitizedHtml_decides (value : Str) :
    Fallible.Decides Reported (validateSanitizedHtml platform value)
      (value.length ≤ maxSanitizedHtmlCharacters ∧ HtmlFits (platform.htmlEvents value)) value := by
  have hguarded : ∀ events, History.Guarded (fun seen event => HtmlFits (seen ++ [event])) events ↔
      HtmlFits events := fun _ => History.guarded_iff htmlFits_nil fun _ _ => HtmlFits.of_append
  have hevents : Fallible.Decides Reported
      ((platform.htmlEvents value).foldlM HtmlBudget.handle (htmlBudget []))
      (HtmlFits (platform.htmlEvents value)) (htmlBudget (platform.htmlEvents value)) := by
    have hloop : Fallible.Decides Reported
        ((platform.htmlEvents value).foldlM HtmlBudget.handle (htmlBudget [])) _
        (htmlBudget (platform.htmlEvents value)) :=
      History.Guarded.decides (fun seen event hseen =>
        handle_decides ((hguarded seen).mp hseen) event)
        (platform.htmlEvents value)
    exact hloop.congr (hguarded _)
  apply Fallible.Decides.congr
  · apply Fallible.Decides.bind (.ensure (reported _))
    intro _
    exact hevents.bind fun _ => .of_ok value
  · rw [and_true]

theorem sanitizeHtmlEmail_decides {value : Str} (hvalue : value.length ≤ maxBodyCharacters) :
    Fallible.Decides Reported (sanitizeHtmlEmail platform value)
      ((sanitized platform value).length ≤ maxSanitizedHtmlCharacters ∧
        HtmlFits (platform.htmlEvents (sanitized platform value))) (sanitized platform value) := by
  apply Fallible.Decides.congr
  · exact .bind (.ensure (reported _)) fun _ => validateSanitizedHtml_decides platform _
  · exact and_iff_right hvalue

theorem decodeTextPart_decides (content : Content) :
    Fallible.Decides Reported (decodeTextPart platform content)
      ((decodedText platform content).length ≤ maxBodyCharacters)
        (decodedText platform content) := by
  apply Fallible.Decides.congr
  · exact .bind (.ensure (reported _)) fun _ => .of_ok _
  · rw [and_true]

end Platform

end MaddyWeb.Mail.Mime
