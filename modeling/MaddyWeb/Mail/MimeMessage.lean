import Mathlib.Algebra.Group.Int.Defs
import Mathlib.Algebra.GroupWithZero.Nat
import MaddyWeb.Mail.MimeReading

/-!
# The message that is read

The variables of the loop in `parse_message` after some parts are functions of these parts, and it
stops at the first part at which a limit is exceeded.
-/

namespace MaddyWeb.Mail.Mime

open MaddyWeb.Library MaddyWeb.Library.Text

section Platform

variable (platform : Platform)

/-! ## The loop -/

/-- The variables after the parts `counted`, of which the leaves `seen` have been read. -/
def readingOf (counted seen : List Visit) : Reading where
  textBody := firstText (plainTexts platform seen)
  htmlBody := (htmlTexts platform seen).head?.map (sanitized platform)
  attachments := (attachedLeaves seen).mapIdx fun index leaf =>
    parsedAttachment platform index leaf.1 leaf.2.1 leaf.2.2
  totalAttachmentBytes := attachedBytes seen
  totalHeaders := headerCount counted
  totalHeaderCharacters := allHeaderCharacters counted

theorem filterMap_snoc {β : Type} (f : Visit → Option β) (seen : List Visit) (visit : Visit) :
    (seen ++ [visit]).filterMap f = seen.filterMap f ++ (f visit).toList := by
  rw [List.filterMap_append, List.filterMap_cons, List.filterMap_nil]
  cases f visit <;> rfl

theorem filterMap_snoc_of_none {β : Type} {f : Visit → Option β} (seen : List Visit) {visit : Visit}
    (h : f visit = none) : (seen ++ [visit]).filterMap f = seen.filterMap f := by
  rw [filterMap_snoc, h, Option.toList_none, List.append_nil]

theorem filterMap_snoc_of_some {β : Type} {f : Visit → Option β} (seen : List Visit) {visit : Visit}
    {b : β}
    (h : f visit = some b) : (seen ++ [visit]).filterMap f = seen.filterMap f ++ [b] := by
  rw [filterMap_snoc, h, Option.toList_some]

theorem firstText_snoc (texts : List Str) (text : Str) :
    firstText (texts ++ [text]) = if firstText texts = [] then text else firstText texts := by
  unfold firstText
  rw [List.find?_append]
  cases hfound : texts.find? (· != []) with
  | none =>
      rw [Option.none_or, Option.getD_none, if_pos rfl]
      cases text with
      | nil => rfl
      | cons c text => rfl
  | some found =>
      have hne : found ≠ [] := by simpa using List.find?_some hfound
      rw [Option.some_or, Option.getD_some, if_neg hne]

theorem bodyText_leaf (contentType : String) (place : Place) (headers : Headers)
    (content : Content) :
    bodyText platform contentType (.leaf (headers, content), place) =
      if isBody place headers && asciiLower headers.contentType == contentType.toList then
        some (decodedText platform content)
      else none := by
  apply if_congr _ rfl rfl
  rw [Bool.and_eq_true, isBody_iff, beq_iff_eq]

theorem attachedLeaf_leaf (place : Place) (headers : Headers) (content : Content) :
    attachedLeaf (.leaf (headers, content), place) =
      if isBody place headers then none else some (place, headers, content) :=
  if_congr isBody_iff.symm rfl rfl

/-- What an attachment may exceed. -/
structure AttachmentFits (seen : List Visit) (visit : Visit) : Prop where
  bytes : ∀ leaf ∈ attachedLeaf visit, leaf.2.2.payload.length ≤ maxAttachmentBytes
  total : (attachedLeaf visit).isSome → attachedBytes (seen ++ [visit]) ≤ maxTotalAttachmentBytes
  count : (attachedLeaf visit).isSome → (attachedLeaves (seen ++ [visit])).length ≤ maxAttachments

/-- What a body may exceed. -/
structure BodyFits (seen : List Visit) (visit : Visit) : Prop where
  characters : ∀ contentType ∈ ["text/plain", "text/html"],
    ∀ text ∈ bodyText platform contentType visit, text.length ≤ maxBodyCharacters
  sanitizedCharacters : ∀ html ∈ takenHtml platform seen visit,
    (sanitized platform html).length ≤ maxSanitizedHtmlCharacters
  html : ∀ html ∈ takenHtml platform seen visit,
    HtmlFits (platform.htmlEvents (sanitized platform html))

theorem fits_iff (seen : List Visit) (visit : Visit) :
    Fits platform seen visit ↔
      (visit.2.depth ≤ maxMimeDepth ∧ seen.length + 1 ≤ maxMimeParts) ∧
      HeadersFit (headersOf visit.1).rawItems ∧
      ¬(maxMessageHeaders < headerCount (seen ++ [visit]) ∨
        maxMessageHeaderCharacters < allHeaderCharacters (seen ++ [visit])) ∧
      BodyFits platform seen visit ∧ AttachmentFits seen visit := by
  constructor
  · intro h
    refine ⟨⟨Nat.not_lt.mp (h .mimeDepth), Nat.not_lt.mp (h .mimeParts)⟩,
      not_not.mp (h .partHeaders), h .messageHeaders, ⟨?_, ?_, ?_⟩, ⟨?_, ?_, ?_⟩⟩
    · intro contentType htype text htext
      exact Nat.not_lt.mp fun hlong => h .bodyCharacters ⟨contentType, htype, text, htext, hlong⟩
    · intro html hhtml
      exact Nat.not_lt.mp fun hlong => h .sanitizedCharacters ⟨html, hhtml, hlong⟩
    · intro html hhtml
      constructor
      · exact Nat.not_lt.mp fun hmany => h .htmlElements ⟨html, hhtml, hmany⟩
      · intro start hstart
        exact Nat.not_lt.mp fun hdeep => h .htmlDepth ⟨html, hhtml, start, hstart, hdeep⟩
    · intro leaf hleaf
      exact Nat.not_lt.mp fun hlong => h .attachmentBytes ⟨leaf, hleaf, hlong⟩
    · intro hleaf
      exact Nat.not_lt.mp fun hlong => h .totalAttachmentBytes ⟨hleaf, hlong⟩
    · intro hleaf
      exact Nat.not_lt.mp fun hmany => h .attachments ⟨hleaf, hmany⟩
  · rintro ⟨⟨hdepth, hparts⟩, hheaders, hmessage, hbody, hattachment⟩ limit
    cases limit with
    | mimeDepth => exact Nat.not_lt.mpr hdepth
    | mimeParts => exact Nat.not_lt.mpr hparts
    | partHeaders => exact not_not_intro hheaders
    | messageHeaders => exact hmessage
    | bodyCharacters =>
        rintro ⟨contentType, htype, text, htext, hlong⟩
        exact Nat.not_lt.mpr (hbody.characters contentType htype text htext) hlong
    | sanitizedCharacters =>
        rintro ⟨html, hhtml, hlong⟩
        exact Nat.not_lt.mpr (hbody.sanitizedCharacters html hhtml) hlong
    | htmlElements =>
        rintro ⟨html, hhtml, hmany⟩
        exact Nat.not_lt.mpr (hbody.html html hhtml).elements hmany
    | htmlDepth =>
        rintro ⟨html, hhtml, start, hstart, hdeep⟩
        exact Nat.not_lt.mpr ((hbody.html html hhtml).depth start hstart) hdeep
    | attachmentBytes =>
        rintro ⟨leaf, hleaf, hlong⟩
        exact Nat.not_lt.mpr (hattachment.bytes leaf hleaf) hlong
    | totalAttachmentBytes =>
        rintro ⟨hleaf, hlong⟩
        exact Nat.not_lt.mpr (hattachment.total hleaf) hlong
    | attachments =>
        rintro ⟨hleaf, hmany⟩
        exact Nat.not_lt.mpr (hattachment.count hleaf) hmany

section Leaf

variable {place : Place} {headers : Headers} {content : Content} (counted seen : List Visit)

/-- A leaf that is attached. -/
theorem readLeaf_attached (hbody : isBody place headers = false) :
    Fallible.Decides Reported
      (readLeaf platform place headers content (readingOf platform counted seen))
      (BodyFits platform seen (.leaf (headers, content), place) ∧
        AttachmentFits seen (.leaf (headers, content), place))
      (readingOf platform counted (seen ++ [(.leaf (headers, content), place)])) := by
  have hnoText :
      ∀ contentType, bodyText platform contentType (.leaf (headers, content), place) = none := by
    intro contentType
    rw [bodyText_leaf, hbody, Bool.false_and, if_neg Bool.false_ne_true]
  have hleaf : attachedLeaf (.leaf (headers, content), place) = some (place, headers, content) := by
    rw [attachedLeaf_leaf, hbody, if_neg Bool.false_ne_true]
  have hleaves : attachedLeaves (seen ++ [(.leaf (headers, content), place)]) =
      attachedLeaves seen ++ [(place, headers, content)] := filterMap_snoc_of_some seen hleaf
  have hbytes : attachedBytes (seen ++ [(.leaf (headers, content), place)]) =
      attachedBytes seen + content.payload.length := by
    rw [attachedBytes, hleaves, List.map_append, List.sum_append, List.map_singleton,
      List.sum_singleton]
    rfl
  have hfits : BodyFits platform seen (.leaf (headers, content), place) ∧
      AttachmentFits seen (.leaf (headers, content), place) ↔
        content.payload.length ≤ maxAttachmentBytes ∧
        attachedBytes seen + content.payload.length ≤ maxTotalAttachmentBytes ∧
        (attachedLeaves seen).length + 1 ≤ maxAttachments := by
    have hlength : (attachedLeaves (seen ++ [(.leaf (headers, content), place)])).length =
        (attachedLeaves seen).length + 1 := by
      rw [hleaves, List.length_append, List.length_singleton]
    constructor
    · rintro ⟨-, hfits⟩
      have hsome : (attachedLeaf (.leaf (headers, content), place)).isSome = true := by
        rw [hleaf, Option.isSome_some]
      exact ⟨hfits.bytes _ hleaf, hbytes ▸ hfits.total hsome, hlength ▸ hfits.count hsome⟩
    · rintro ⟨hpayload, htotal, hcount⟩
      refine ⟨⟨?_, ?_, ?_⟩, ⟨?_, ?_, ?_⟩⟩
      · intro contentType _ text htext
        rw [hnoText] at htext
        cases htext
      · intro html hhtml
        rw [takenHtml, hnoText, ite_self] at hhtml
        cases hhtml
      · intro html hhtml
        rw [takenHtml, hnoText, ite_self] at hhtml
        cases hhtml
      · intro leaf hmem
        rw [hleaf] at hmem
        cases hmem
        exact hpayload
      · exact fun _ => hbytes.symm ▸ htotal
      · exact fun _ => hlength.symm ▸ hcount
  have hreading : readingOf platform counted (seen ++ [(.leaf (headers, content), place)]) =
      { readingOf platform counted seen with
        totalAttachmentBytes := attachedBytes seen + content.payload.length
        attachments := (readingOf platform counted seen).attachments ++
          [parsedAttachment platform
            (readingOf platform counted seen).attachments.length place headers
            content] } := by
    have hplain : plainTexts platform (seen ++ [(.leaf (headers, content), place)]) =
        plainTexts platform seen := filterMap_snoc_of_none seen (hnoText _)
    have hhtml : htmlTexts platform (seen ++ [(.leaf (headers, content), place)]) =
        htmlTexts platform seen := filterMap_snoc_of_none seen (hnoText _)
    simp only [readingOf, hplain, hhtml, hbytes, hleaves, List.mapIdx_concat, List.length_mapIdx]
  rw [hreading]
  unfold readLeaf
  rw [hbody, if_neg Bool.false_ne_true]
  apply Fallible.Decides.congr
  · exact .bind (.ensure (reported _)) fun _ => .bind (.ensure (reported _)) fun _ =>
      .bind (.ensure (reported _)) fun _ => .of_ok _
  · rw [hfits, and_true]
    simp only [readingOf, List.length_mapIdx]
    rfl

theorem contentType_of_isBody (hbody : isBody place headers = true) :
    asciiLower headers.contentType = "text/plain".toList ∨
      asciiLower headers.contentType = "text/html".toList := by
  unfold isBody at hbody
  have htype := (Bool.and_eq_true _ _ ▸ hbody).2
  simpa using htype

/-- A leaf that may be a body is not attached. -/
theorem attachedLeaf_of_isBody (hbody : isBody place headers = true) :
    attachedLeaf (.leaf (headers, content), place) = none := by
  rw [attachedLeaf_leaf, if_pos hbody]

theorem attachedLeaves_snoc_of_isBody (hbody : isBody place headers = true) :
    attachedLeaves (seen ++ [(.leaf (headers, content), place)]) = attachedLeaves seen :=
  filterMap_snoc_of_none seen (attachedLeaf_of_isBody hbody)

/-- What a leaf that may be a body can exceed. -/
theorem fits_of_isBody (hbody : isBody place headers = true) :
    BodyFits platform seen (.leaf (headers, content), place) ∧
        AttachmentFits seen (.leaf (headers, content), place) ↔
      (decodedText platform content).length ≤ maxBodyCharacters ∧
        ∀ html ∈ takenHtml platform seen (.leaf (headers, content), place),
          (sanitized platform html).length ≤ maxSanitizedHtmlCharacters ∧
            HtmlFits (platform.htmlEvents (sanitized platform html)) := by
  have hnone : attachedLeaf (.leaf (headers, content), place) = none := attachedLeaf_of_isBody hbody
  constructor
  · rintro ⟨hfits, -⟩
    refine ⟨?_, fun html hhtml => ⟨hfits.sanitizedCharacters html hhtml, hfits.html html hhtml⟩⟩
    have htext : ∀ contentType, asciiLower headers.contentType = contentType.toList →
        bodyText platform contentType (.leaf (headers, content), place) =
          some (decodedText platform content) := by
      intro contentType htype
      rw [bodyText_leaf, hbody, htype, Bool.true_and, beq_self_eq_true, if_pos rfl]
    rcases contentType_of_isBody hbody with htype | htype
    · exact hfits.characters "text/plain" List.mem_cons_self _ (htext _ htype)
    · exact hfits.characters "text/html" (List.mem_cons_of_mem _ List.mem_cons_self) _
        (htext _ htype)
  · rintro ⟨hlength, hhtml⟩
    refine ⟨⟨?_, fun html hmem => (hhtml html hmem).1, fun html hmem => (hhtml html hmem).2⟩, ?_⟩
    · intro contentType _ text htext
      rw [bodyText_leaf] at htext
      split at htext
      · cases htext
        exact hlength
      · cases htext
    · rw [← Option.not_isSome_iff_eq_none] at hnone
      exact ⟨fun leaf hleaf => absurd (Option.isSome_of_mem hleaf) hnone, fun h => absurd h hnone,
        fun h => absurd h hnone⟩

/-- The first plain text that is not empty is kept. -/
theorem readLeaf_plain (hbody : isBody place headers = true)
    (htype : asciiLower headers.contentType = "text/plain".toList) :
    Fallible.Decides Reported
      (readLeaf platform place headers content (readingOf platform counted seen))
      (BodyFits platform seen (.leaf (headers, content), place) ∧
        AttachmentFits seen (.leaf (headers, content), place))
      (readingOf platform counted (seen ++ [(.leaf (headers, content), place)])) := by
  have hnotHtml : asciiLower headers.contentType ≠ "text/html".toList := by
    rw [htype]
    decide
  have hnoHtml : bodyText platform "text/html" (.leaf (headers, content), place) = none := by
    rw [bodyText_leaf, beq_eq_false_iff_ne.mpr hnotHtml, Bool.and_false, if_neg Bool.false_ne_true]
  have hplain : bodyText platform "text/plain" (.leaf (headers, content), place) =
      some (decodedText platform content) := by
    rw [bodyText_leaf, hbody, htype, Bool.true_and, beq_self_eq_true, if_pos rfl]
  have hreading : readingOf platform counted (seen ++ [(.leaf (headers, content), place)]) =
      { readingOf platform counted seen with
        textBody := firstText (plainTexts platform seen ++ [decodedText platform content]) } := by
    have hplains : plainTexts platform (seen ++ [(.leaf (headers, content), place)]) =
        plainTexts platform seen ++ [decodedText platform content] :=
          filterMap_snoc_of_some seen hplain
    have hhtmls : htmlTexts platform (seen ++ [(.leaf (headers, content), place)]) =
        htmlTexts platform seen := filterMap_snoc_of_none seen hnoHtml
    simp only [readingOf, attachedBytes, attachedLeaves_snoc_of_isBody seen hbody, hplains, hhtmls]
  rw [hreading, firstText_snoc]
  unfold readLeaf
  rw [hbody, if_pos rfl]
  apply Fallible.Decides.congr
  · apply Fallible.Decides.bind (decodeTextPart_decides platform content)
    intro _
    by_cases hempty : firstText (plainTexts platform seen) = []
    · rw [if_pos ⟨htype, hempty⟩, if_pos hempty]
      exact .of_ok _
    · rw [if_neg (fun h => hempty h.2), if_neg (fun h => hnotHtml h.1), if_neg hempty]
      exact .of_ok _
  · rw [fits_of_isBody platform seen hbody, takenHtml, hnoHtml, ite_self]
    exact and_congr_right fun _ => ⟨fun _ => nofun, fun _ => trivial⟩

/-- The first HTML text is sanitized and kept. -/
theorem readLeaf_html (hbody : isBody place headers = true)
    (htype : asciiLower headers.contentType = "text/html".toList) :
    Fallible.Decides Reported
      (readLeaf platform place headers content (readingOf platform counted seen))
      (BodyFits platform seen (.leaf (headers, content), place) ∧
        AttachmentFits seen (.leaf (headers, content), place))
      (readingOf platform counted (seen ++ [(.leaf (headers, content), place)])) := by
  have hnotPlain : asciiLower headers.contentType ≠ "text/plain".toList := by
    rw [htype]
    decide
  have hnoPlain : bodyText platform "text/plain" (.leaf (headers, content), place) = none := by
    rw [bodyText_leaf, beq_eq_false_iff_ne.mpr hnotPlain, Bool.and_false, if_neg Bool.false_ne_true]
  have hhtml : bodyText platform "text/html" (.leaf (headers, content), place) =
      some (decodedText platform content) := by
    rw [bodyText_leaf, hbody, htype, Bool.true_and, beq_self_eq_true, if_pos rfl]
  have hreading : readingOf platform counted (seen ++ [(.leaf (headers, content), place)]) =
      { readingOf platform counted seen with
        htmlBody := (htmlTexts platform seen ++ [decodedText platform content]).head?.map
          (sanitized platform) } := by
    have hplains : plainTexts platform (seen ++ [(.leaf (headers, content), place)]) =
        plainTexts platform seen := filterMap_snoc_of_none seen hnoPlain
    have hhtmls : htmlTexts platform (seen ++ [(.leaf (headers, content), place)]) =
        htmlTexts platform seen ++ [decodedText platform content] :=
          filterMap_snoc_of_some seen hhtml
    simp only [readingOf, attachedBytes, attachedLeaves_snoc_of_isBody seen hbody, hplains, hhtmls]
  rw [hreading]
  unfold readLeaf
  rw [hbody, if_pos rfl]
  cases hseen : htmlTexts platform seen with
  | nil =>
      have hnone : (readingOf platform counted seen).htmlBody = none := by
        rw [readingOf, hseen]
        rfl
      apply Fallible.Decides.congr
      · apply Fallible.Decides.bind (decodeTextPart_decides platform content)
        intro hlength
        rw [if_neg (fun h => hnotPlain h.1), if_pos ⟨htype, hnone⟩]
        exact (sanitizeHtmlEmail_decides platform hlength).bind fun _ => .of_ok _
      · rw [fits_of_isBody platform seen hbody, takenHtml, hseen, if_pos rfl, hhtml, and_true]
        apply and_congr_right
        intro _
        constructor
        · rintro hfits html ⟨⟩
          exact hfits
        · exact fun h => h _ rfl
  | cons first rest =>
      have hsome :
          (readingOf platform counted seen).htmlBody = some (sanitized platform first) := by
        rw [readingOf, hseen]
        rfl
      apply Fallible.Decides.congr
      · apply Fallible.Decides.bind (decodeTextPart_decides platform content)
        intro _
        rw [if_neg (fun h => hnotPlain h.1), if_neg (fun h => by rw [hsome] at h; cases h.2)]
        have hkept :
            (first :: rest ++ [decodedText platform content]).head?.map (sanitized platform) =
            (readingOf platform counted seen).htmlBody := hsome.symm
        rw [hkept]
        exact .of_ok _
      · rw [fits_of_isBody platform seen hbody, takenHtml, hseen, if_neg (List.cons_ne_nil _ _)]
        exact and_congr_right fun _ => ⟨fun _ => nofun, fun _ => trivial⟩

theorem readLeaf_decides :
    Fallible.Decides Reported
      (readLeaf platform place headers content (readingOf platform counted seen))
      (BodyFits platform seen (.leaf (headers, content), place) ∧
        AttachmentFits seen (.leaf (headers, content), place))
      (readingOf platform counted (seen ++ [(.leaf (headers, content), place)])) := by
  cases hbody : isBody place headers with
  | false => exact readLeaf_attached platform counted seen hbody
  | true =>
      rcases contentType_of_isBody hbody with htype | htype
      · exact readLeaf_plain platform counted seen hbody htype
      · exact readLeaf_html platform counted seen hbody htype

end Leaf

/-- A part with children has no body and no attachment of its own. -/
theorem readingOf_branch (counted seen : List Visit) (headers : Headers) (children : List Part)
    (place : Place) :
    readingOf platform counted (seen ++ [(.branch headers children, place)]) =
      readingOf platform counted seen := by
  have hplains : plainTexts platform (seen ++ [(.branch headers children, place)]) =
      plainTexts platform seen := filterMap_snoc_of_none seen rfl
  have hhtmls : htmlTexts platform (seen ++ [(.branch headers children, place)]) =
      htmlTexts platform seen := filterMap_snoc_of_none seen rfl
  have hleaves :
      attachedLeaves (seen ++ [(.branch headers children, place)]) = attachedLeaves seen :=
    filterMap_snoc_of_none seen rfl
  simp only [readingOf, attachedBytes, hplains, hhtmls, hleaves]

theorem fits_branch (seen : List Visit) (headers : Headers) (children : List Part) (place : Place) :
    BodyFits platform seen (.branch headers children, place) ∧
      AttachmentFits seen (.branch headers children, place) := by
  have hnoHtml : takenHtml platform seen (.branch headers children, place) = none := ite_self none
  refine ⟨⟨fun _ _ => nofun, ?_, ?_⟩, ⟨nofun, nofun, nofun⟩⟩
  · rw [hnoHtml]
    nofun
  · rw [hnoHtml]
    nofun

/-- One turn of the loop in `parse_message`. -/
theorem readPart_decides (seen : List Visit) (visit : Visit) :
    Fallible.Decides Reported (readPart platform (readingOf platform seen seen) visit)
      (HeadersFit (headersOf visit.1).rawItems ∧
        ¬(maxMessageHeaders < headerCount (seen ++ [visit]) ∨
          maxMessageHeaderCharacters < allHeaderCharacters (seen ++ [visit])) ∧
        BodyFits platform seen visit ∧ AttachmentFits seen visit)
      (readingOf platform (seen ++ [visit]) (seen ++ [visit])) := by
  obtain ⟨part, place⟩ := visit
  have hcount : headerCount (seen ++ [(part, place)]) =
      headerCount seen + (headerTotals (headersOf part).rawItems).count := by
    rw [headerCount, List.map_append, List.sum_append, List.map_singleton, List.sum_singleton]
    rfl
  have hcharacters : allHeaderCharacters (seen ++ [(part, place)]) =
      allHeaderCharacters seen + (headerTotals (headersOf part).rawItems).characters := by
    rw [allHeaderCharacters, List.map_append, List.sum_append, List.map_singleton,
      List.sum_singleton]
    rfl
  have hreading : { readingOf platform seen seen with
      totalHeaders := headerCount (seen ++ [(part, place)])
      totalHeaderCharacters := allHeaderCharacters (seen ++ [(part, place)]) } =
      readingOf platform (seen ++ [(part, place)]) seen := rfl
  unfold readPart
  apply Fallible.Decides.bind (validatePartHeaders_decides (headersOf part))
  intro _
  have htotals : (readingOf platform seen seen).totalHeaders +
        (headerTotals (headersOf part).rawItems).count = headerCount (seen ++ [(part, place)]) ∧
      (readingOf platform seen seen).totalHeaderCharacters +
        (headerTotals (headersOf part).rawItems).characters =
          allHeaderCharacters (seen ++ [(part, place)]) := ⟨hcount.symm, hcharacters.symm⟩
  simp only [htotals]
  apply Fallible.Decides.bind (.ensure (reported _))
  intro _
  rw [hreading]
  cases part with
  | leaf value => exact readLeaf_decides platform (seen ++ [(.leaf value, place)]) seen
  | branch headers children =>
      rw [readingOf_branch]
      exact (Fallible.Decides.of_ok _).congr
        (iff_of_true trivial (fits_branch platform seen headers children place))

/-- One turn of the whole loop. -/
theorem takePart_decides (seen : List Visit) (visit : Visit) :
    Fallible.Decides Reported
      (takePart (readPart platform) (seen.length, readingOf platform seen seen) visit)
      (Fits platform seen visit)
      ((seen ++ [visit]).length, readingOf platform (seen ++ [visit]) (seen ++ [visit])) := by
  rw [List.length_append, List.length_singleton]
  apply Fallible.Decides.congr
  · exact .bind (.ensure (reported _)) fun _ => .bind (.ensure (reported _)) fun _ =>
      (readPart_decides platform seen visit).bind fun _ => .of_ok _
  · rw [fits_iff, and_true, and_assoc]

/-- The loop of `parse_message` over all parts. -/
theorem boundedMessageParts_decides (message : Part) :
    Fallible.Decides Reported (boundedMessageParts (readPart platform) message emptyReading)
      (History.Guarded (Fits platform) (visits message))
      ((visits message).length, readingOf platform (visits message) (visits message)) := by
  rw [boundedMessageParts_eq]
  let stateOf : List Visit → Nat × Reading :=
    fun seen => (seen.length, readingOf platform seen seen)
  have hstep : ∀ seen visit, History.Guarded (Fits platform) seen →
      Fallible.Decides Reported (takePart (readPart platform) (stateOf seen) visit)
        (Fits platform seen visit) (stateOf (seen ++ [visit])) :=
    fun seen visit _ => takePart_decides platform seen visit
  exact History.Guarded.decides hstep (visits message)

/-! ## `parse_message` -/

theorem reported_of_validateHeaderLines {headerBytes headerCount : Nat} {stream : List UInt8}
    {e : MailError} (h : validateHeaderLines headerBytes headerCount stream = .error e) :
    Reported e := by
  fun_induction validateHeaderLines headerBytes headerCount stream with
  | case1 => cases h
  | case2 =>
      cases h
      exact reported _
  | case3 => cases h
  | case4 _ _ _ _ _ _ _ _ _ ih => exact ih h
  | case5 => cases h
  | case6 =>
      cases h
      exact reported _
  | case7 _ _ _ _ _ _ _ _ _ _ _ ih => exact ih h

/-- What is checked before the message is parsed. -/
structure RawFits (raw : List UInt8) : Prop where
  length : raw.length ≤ maxRawMessageBytes
  headers : validateTopLevelHeaders raw = .ok ()

theorem parseMessage_decides {parsebytes : List UInt8 → Except ParserFailure Part}
    {raw : List UInt8}
    {message : Part} (hdelivers : parsebytes raw = .ok message) :
    Fallible.Decides Reported (parseMessage platform parsebytes raw)
      (RawFits raw ∧ History.Guarded (Fits platform) (visits message))
      (parsedMessage platform (headersOf message)
        (readingOf platform (visits message) (visits message))) := by
  have hheaders : Fallible.Decides Reported (validateTopLevelHeaders raw)
      (validateTopLevelHeaders raw = .ok ()) () := by
    constructor
    · exact id
    · intro hne
      cases hraw : validateTopLevelHeaders raw with
      | ok u => exact absurd hraw hne
      | error e => exact ⟨e, rfl, reported_of_validateHeaderLines hraw⟩
  unfold parseMessage
  apply Fallible.Decides.congr
  · apply Fallible.Decides.bind (.ensure (reported _))
    intro _
    apply hheaders.bind
    intro _
    rw [hdelivers]
    exact (boundedMessageParts_decides platform message).bind fun _ => .of_ok _
  · rw [and_true, ← and_assoc]
    exact and_congr_left' ⟨fun h => ⟨h.1, h.2⟩, fun h => ⟨h.length, h.headers⟩⟩

theorem text_eq (reading : Reading) :
    reading.text platform =
      if reading.textBody = [] then
        (reading.htmlBody.filter (· ≠ [])).elim [] (htmlToText platform)
      else reading.textBody := by
  obtain ⟨textBody, htmlBody, _, _, _, _⟩ := reading
  unfold Reading.text
  cases textBody with
  | cons c text => rfl
  | nil =>
      cases htmlBody with
      | none => rfl
      | some html =>
          cases html with
          | nil => rfl
          | cons c html => rfl

/-- The attachments are numbered from zero. -/
theorem attachmentIds_eq (leaves : List (Place × Headers × Content)) :
    (leaves.mapIdx fun index leaf => parsedAttachment platform index leaf.1 leaf.2.1 leaf.2.2).map
      (·.attachmentId) = (List.range leaves.length).map toString := by
  apply List.ext_getElem
  · simp
  · intro index _ _
    simp [parsedAttachment]

theorem attachedData_eq (leaves : List (Place × Headers × Content)) :
    (leaves.mapIdx fun index leaf => parsedAttachment platform index leaf.1 leaf.2.1 leaf.2.2).map
      (·.data) = leaves.map fun leaf => leaf.2.2.payload := by
  apply List.ext_getElem
  · simp
  · intro index _ _
    simp [parsedAttachment]

/-- The traversal takes the parts as the recursion lists them.  A limit is reported exactly when the
raw message does not fit or one is exceeded at some part, nothing else is reported, and the result
has the first HTML text, the first plain text that is not empty, or else that of the HTML body, and
the other leaves in order. -/
theorem parseMessage_preorder {parsebytes : List UInt8 → Except ParserFailure Part}
    {raw : List UInt8}
    {message : Part} (hdelivers : parsebytes raw = .ok message) :
    (∀ {σ : Type} (consume : σ → Part × Place → Except MailError σ) (state : σ),
      boundedMessageParts consume message state =
        (visits message).foldlM (takePart consume) (0, state)) ∧
    ((∃ text, parseMessage platform parsebytes raw = .error (.limit text)) ↔
      ¬RawFits raw ∨ ∃ seen visit rest limit, visits message = seen ++ visit :: rest ∧
        Exceeds platform seen visit limit) ∧
    (∀ text, parseMessage platform parsebytes raw ≠ .error (.mail text)) ∧
    ∀ result, parseMessage platform parsebytes raw = .ok result →
      result.html = (htmlTexts platform (visits message)).head?.map (sanitized platform) ∧
      result.text = (if firstText (plainTexts platform (visits message)) = [] then
          (result.html.filter (· ≠ [])).elim [] (htmlToText platform)
        else firstText (plainTexts platform (visits message))) ∧
      (result.attachments = (attachedLeaves (visits message)).mapIdx fun index leaf =>
        parsedAttachment platform index leaf.1 leaf.2.1 leaf.2.2) ∧
      result.attachments.map (·.attachmentId) =
        (List.range (attachedLeaves (visits message)).length).map toString ∧
      result.attachments.map (·.data) =
        (attachedLeaves (visits message)).map fun leaf => leaf.2.2.payload := by
  have hdecides := parseMessage_decides platform hdelivers
  refine ⟨fun consume state => boundedMessageParts_eq consume message state, ?_, ?_, ?_⟩
  · have hfails : (∃ text, parseMessage platform parsebytes raw = .error (.limit text)) ↔
        ¬(RawFits raw ∧ History.Guarded (Fits platform) (visits message)) := by
      constructor
      · rintro ⟨text, h⟩
        exact (hdecides.eq_error h).1
      · intro h
        obtain ⟨e, he, text, rfl⟩ := hdecides.error h
        exact ⟨text, he⟩
    rw [hfails, not_and_or]
    apply or_congr_right
    constructor
    · intro hguarded
      by_contra hnone
      apply hguarded
      intro seen visit rest hvisits limit hexceeds
      exact hnone ⟨seen, visit, rest, limit, hvisits, hexceeds⟩
    · rintro ⟨seen, visit, rest, limit, hvisits, hexceeds⟩ hguarded
      exact hguarded seen visit rest hvisits limit hexceeds
  · intro text h
    obtain ⟨-, limit, hlimit⟩ := hdecides.eq_error h
    cases hlimit
  · intro result h
    obtain ⟨-, rfl⟩ := hdecides.eq_ok h
    exact ⟨rfl, text_eq platform _, rfl, attachmentIds_eq platform _, attachedData_eq platform _⟩

end Platform

/-! ## Messages with one header -/

theorem readline_append {line : List UInt8} (hline : (0x0A : UInt8) ∉ line) {size : Nat}
    (hsize : line.length < size) (rest : List UInt8) :
    readline size (line ++ 0x0A :: rest) = line ++ [0x0A] := by
  obtain ⟨more, rfl⟩ : ∃ more, size = line.length + (more + 1) := ⟨size - line.length - 1, by omega⟩
  have htake :
      (line ++ 0x0A :: rest).take (line.length + (more + 1)) = line ++ 0x0A :: rest.take more := by
    rw [List.take_length_add_append, List.take_succ_cons]
  have hwhile : (line ++ 0x0A :: rest.take more).takeWhile (· != 0x0A) = line := by
    rw [List.takeWhile_append_of_pos, List.takeWhile_cons_of_neg, List.append_nil]
    · simp
    · intro b hb
      exact bne_iff_ne.mpr fun heq => hline (heq ▸ hb)
  unfold readline
  dsimp only
  rw [htake, hwhile, if_pos]
  rw [List.length_append, List.length_cons]
  omega

/-- One header line, the empty line and the body. -/
theorem validateTopLevelHeaders_single {header : List UInt8} (hlf : (0x0A : UInt8) ∉ header)
    (hcontent : ((header ++ [0x0A]).reverse.dropWhile isByteBreak).reverse = header)
    (hhead : ¬(header.head? = some 0x20 ∨ header.head? = some 0x09))
    (hcolon : header.contains 0x3A = true) (hlength : header.length + 2 ≤ maxTopLevelHeaderBytes)
    (body : List UInt8) : validateTopLevelHeaders (header ++ 0x0A :: 0x0A :: body) = .ok () := by
  have hne : header ≠ [] := by
    rintro rfl
    cases hcolon
  have hfirst : readline (maxTopLevelHeaderBytes + 2) (header ++ 0x0A :: 0x0A :: body) =
      header ++ [0x0A] := readline_append hlf (by omega) _
  have hsecond : readline (maxTopLevelHeaderBytes + 2) ([] ++ 0x0A :: body) = [] ++ [0x0A] :=
    readline_append List.not_mem_nil (Nat.succ_pos _) body
  rw [List.nil_append, List.nil_append] at hsecond
  have hdrop : (header ++ 0x0A :: 0x0A :: body).drop (header ++ [0x0A]).length = 0x0A :: body := by
    have hcons : header ++ 0x0A :: 0x0A :: body = (header ++ [0x0A]) ++ 0x0A :: body := by
      rw [List.append_assoc, List.singleton_append]
    rw [hcons]
    exact List.drop_left
  have hlines : (header ++ [(0x0A : UInt8)]).length = header.length + 1 := by
    rw [List.length_append, List.length_singleton]
  unfold validateTopLevelHeaders
  rw [validateHeaderLines, hfirst]
  dsimp only
  rw [dif_neg (by simp), if_neg (by omega), hcontent, if_neg hne, if_neg hhead, hcolon,
    if_neg (by simp), if_neg (by decide), hdrop, validateHeaderLines, hsecond]
  dsimp only
  rw [dif_neg (by simp), if_neg (by simp only [List.length_singleton]; omega), if_pos (by decide)]

/-! ## A forwarded message -/

def asciiText (data : List UInt8) : Str := data.map fun b => Char.ofNat b.toNat

/-- `HTMLParser` for texts of line breaks and plain characters. -/
def lineBreakEvents : Str → List HtmlEvent
  | '<' :: 'b' :: 'r' :: '>' :: rest => .startTag "br".toList :: lineBreakEvents rest
  | c :: rest => .data [c] :: lineBreakEvents rest
  | [] => []

/-- The packages on texts of ASCII characters and line breaks. -/
def plainPlatform : Platform where
  headerFetchParse _ value := value.map fun c => Char.ofNat c.val
  decodeReplace := asciiText
  normalizer := Filename.plainNormalizer
  clean := some id
  htmlEvents := lineBreakEvents

def typed (contentType value : String) : Headers where
  rawItems := [(Filename.ofString "Content-Type", Filename.ofString value)]
  contentType := contentType.toList
  disposition := none
  filename := none

def asciiBytes (text : String) : List UInt8 := text.toList.map fun c => UInt8.ofNat c.toNat

def plainLeaf (text : String) : Part :=
  .leaf (typed "text/plain" "text/plain", ⟨some text.toList, asciiBytes text⟩)

/-- A parser that has the message of its bytes. -/
def delivering (message : Part) : List UInt8 → Except ParserFailure Part := fun _ => .ok message

/-- A note with a message below it that is passed on. -/
def forwarded : Part :=
  .branch (typed "multipart/mixed" "multipart/mixed; boundary=b")
    [plainLeaf "note", .branch (typed "message/rfc822" "message/rfc822") [plainLeaf "old"]]

def forwardedBytes : List UInt8 :=
  asciiBytes "Content-Type: multipart/mixed; boundary=b" ++ 0x0A :: 0x0A ::
    asciiBytes ("--b\nContent-Type: text/plain\n\nnote\n--b\nContent-Type: message/rfc822\n\n" ++
      "Content-Type: text/plain\n\nold\n--b--\n")

theorem forwarded_parsed :
    ∃ result, parseMessage plainPlatform (delivering forwarded) forwardedBytes = .ok result := by
  have hheaders : validateTopLevelHeaders forwardedBytes = .ok () :=
    validateTopLevelHeaders_single (by decide) (by decide) (by decide) (by decide) (by decide) _
  have hparts : boundedMessageParts (readPart plainPlatform) forwarded emptyReading = .ok (4,
      readingOf plainPlatform (visits forwarded) (visits forwarded)) := by
    rw [boundedMessageParts_eq]
    rfl
  have hguarded := ((boundedMessageParts_decides plainPlatform forwarded).eq_ok hparts).1
  have hraw : RawFits forwardedBytes := ⟨by decide +kernel, hheaders⟩
  exact ⟨_, (parseMessage_decides plainPlatform rfl).ok ⟨hraw, hguarded⟩⟩

/-- The text of the forwarded message is an attachment and not the text of the mail. -/
theorem forwarded_read :
    ∃ result, parseMessage plainPlatform (delivering forwarded) forwardedBytes = .ok result ∧
      result.text = "note".toList ∧ result.html = none ∧
        result.attachments.map (fun attachment => (attachment.attachmentId, attachment.data)) =
          [("0", asciiBytes "old")] := by
  obtain ⟨result, h⟩ := forwarded_parsed
  have hdelivers : delivering forwarded forwardedBytes = .ok forwarded := rfl
  obtain ⟨-, -, -, hresult⟩ := parseMessage_preorder plainPlatform hdelivers
  obtain ⟨hhtml, htext, hattachments, -⟩ := hresult result h
  refine ⟨result, h, ?_⟩
  rw [htext, hhtml, hattachments]
  exact ⟨rfl, rfl, rfl⟩

/-! ## A body of line breaks -/

def lineBreaks (count : Nat) : Str := (List.replicate count "<br>".toList).flatten

theorem length_lineBreaks (count : Nat) : (lineBreaks count).length = 4 * count := by
  induction count with
  | zero => rfl
  | succ count ih =>
      have hcons : lineBreaks (count + 1) = "<br>".toList ++ lineBreaks count := rfl
      have hfour : "<br>".toList.length = 4 := rfl
      rw [hcons, List.length_append, ih, hfour]
      omega

theorem lineBreakEvents_lineBreaks (count : Nat) :
    lineBreakEvents (lineBreaks count) = List.replicate count (.startTag "br".toList) := by
  induction count with
  | zero => rfl
  | succ count ih =>
      have hcons : lineBreakEvents (lineBreaks (count + 1)) =
          .startTag "br".toList :: lineBreakEvents (lineBreaks count) := rfl
      rw [hcons, ih]
      rfl

/-- One part with as many line breaks as are too many. -/
def brokenLines : Headers × Content :=
  (typed "text/html" "text/html",
    ⟨some (lineBreaks 4097), (lineBreaks 4097).map fun c => UInt8.ofNat c.toNat⟩)

def brokenLinesBytes : List UInt8 :=
  asciiBytes "Content-Type: text/html" ++ 0x0A :: 0x0A :: brokenLines.2.payload

/-- The budget for the elements of the HTML body is a limit of its own. -/
theorem line_breaks_exceed :
    ¬∀ (platform : Platform) (parsebytes : List UInt8 → Except ParserFailure Part)
      (raw : List UInt8)
      (message : Part), parsebytes raw = .ok message →
        ((∃ text, parseMessage platform parsebytes raw = .error (.limit text)) ↔
          ¬RawFits raw ∨ ∃ seen visit rest limit, visits message = seen ++ visit :: rest ∧
            limit ≠ .htmlElements ∧ limit ≠ .htmlDepth ∧ Exceeds platform seen visit limit) := by
  intro h
  have hvisits : visits (.leaf brokenLines) = [(.leaf brokenLines, rootPlace)] := rfl
  have hraw : RawFits brokenLinesBytes := by
    constructor
    · have hheader : (asciiBytes "Content-Type: text/html").length = 23 := rfl
      rw [brokenLinesBytes, List.length_append, List.length_cons, List.length_cons, brokenLines,
        List.length_map, length_lineBreaks, hheader]
      decide
    · exact validateTopLevelHeaders_single (by decide) (by decide) (by decide) (by decide)
        (by decide) _
  have hdelivers : delivering (.leaf brokenLines) brokenLinesBytes = .ok (.leaf brokenLines) := rfl
  have hhtml :
      bodyText plainPlatform "text/html" (.leaf brokenLines, rootPlace) = some (lineBreaks 4097) :=
    rfl
  have hplain : bodyText plainPlatform "text/plain" (.leaf brokenLines, rootPlace) = none := rfl
  have helements : Exceeds plainPlatform [] (.leaf brokenLines, rootPlace) .htmlElements := by
    refine ⟨lineBreaks 4097, hhtml, ?_⟩
    show maxSanitizedHtmlElements < (lineBreakEvents (lineBreaks 4097)).countP isElement
    rw [lineBreakEvents_lineBreaks, List.countP_replicate]
    decide
  have hfails :
      ∃ text, parseMessage plainPlatform (delivering (.leaf brokenLines)) brokenLinesBytes =
      .error (.limit text) := by
    have hdecides := parseMessage_decides plainPlatform hdelivers
    obtain ⟨e, he, text, rfl⟩ := hdecides.error fun hfits =>
      hfits.2 [] (.leaf brokenLines, rootPlace) [] hvisits .htmlElements helements
    exact ⟨text, he⟩
  rcases (h _ _ _ _ hdelivers).mp hfails
    with hnot | ⟨seen, visit, rest, limit, hsplit, hne, hne', hlimit⟩
  · exact hnot hraw
  · rw [hvisits] at hsplit
    obtain ⟨rfl, hvisit⟩ : seen = [] ∧ visit = (.leaf brokenLines, rootPlace) := by
      cases seen with
      | nil => exact ⟨rfl, (List.cons.inj hsplit).1.symm⟩
      | cons first seen =>
          have hlength := congrArg List.length hsplit
          simp at hlength
    subst hvisit
    cases limit with
    | mimeDepth => exact absurd (show maxMimeDepth < 0 from hlimit) (by decide)
    | mimeParts => exact absurd (show maxMimeParts < 1 from hlimit) (by decide)
    | partHeaders => exact hlimit ⟨by decide, by decide, by decide, by decide⟩
    | messageHeaders =>
        have hfew : ¬(maxMessageHeaders < 1 ∨ maxMessageHeaderCharacters < 21) := by decide
        exact hfew hlimit
    | bodyCharacters =>
        obtain ⟨contentType, htype, text, htext, hlong⟩ := hlimit
        rw [List.mem_cons, List.mem_singleton] at htype
        rcases htype with rfl | rfl
        · rw [hplain] at htext
          cases htext
        · rw [hhtml] at htext
          cases htext
          rw [length_lineBreaks] at hlong
          revert hlong
          decide
    | sanitizedCharacters =>
        obtain ⟨html, hmem, hlong⟩ := hlimit
        have htaken :
            takenHtml plainPlatform [] (.leaf brokenLines, rootPlace) = some (lineBreaks 4097) :=
          hhtml
        rw [htaken] at hmem
        cases hmem
        have hsanitized : sanitized plainPlatform (lineBreaks 4097) = lineBreaks 4097 := rfl
        rw [hsanitized, length_lineBreaks] at hlong
        revert hlong
        decide
    | htmlElements => exact hne rfl
    | htmlDepth => exact hne' rfl
    | attachmentBytes =>
        obtain ⟨leaf, hleaf, -⟩ := hlimit
        cases hleaf
    | totalAttachmentBytes => cases hlimit.1
    | attachments => cases hlimit.1

end MaddyWeb.Mail.Mime
