import MaddyWeb.Mail.Filename

/-!
# Safe and stable attachment names

The two strips before the filter and the two after it are each made once.  They take a run of
blanks, a run of dots, a run of blanks and unsafe code points, and a run of dots and unsafe code
points off either end, and what still lies outside the ordinary code points then stays in the name.
-/

namespace MaddyWeb.Mail.Filename

open MaddyWeb.Library MaddyWeb.Library.Text

/-! ## What is promised -/

/-- The name and the headers of a download. -/
structure SafeDownload (normalizer : Normalizer) (value : Option Text) : Prop where
  name_ne_nil : safeFilename normalizer value defaultFilename ≠ []
  length_le : (safeFilename normalizer value defaultFilename).length ≤ 180
  no_separator : ∀ c ∈ safeFilename normalizer value defaultFilename,
    isSlash c = false ∧ isBackslash c = false
  no_unsafe : ∀ c ∈ safeFilename normalizer value defaultFilename,
    isControlCategory c = false ∧ isFormat c = false ∧ isSurrogate c = false
  first : ∀ c ∈ (safeFilename normalizer value defaultFilename).head?, isDot c = false ∧
    isBlank c = false
  last : ∀ c ∈ (safeFilename normalizer value defaultFilename).getLast?,
    isDot c = false ∧ isBlank c = false
  stable : safeFilename normalizer (some (safeFilename normalizer value defaultFilename))
    defaultFilename = safeFilename normalizer value defaultFilename
  headers : ∃ fields fallback encoded chars,
    attachmentDownloadHeaders normalizer value = some fields ∧
    fields.lookup "Content-Disposition" = some (String.ofList ("attachment; filename=\"".toList ++
      fallback ++ "\"; filename*=UTF-8''".toList ++ encoded)) ∧
    fallback ≠ [] ∧
    (∀ c ∈ fallback, 0x20 ≤ c.toNat ∧ c.toNat ≤ 0x7E ∧ c ≠ '"' ∧ c ≠ '\\') ∧
    (Percent.decode encoded).bind utf8Decode = some chars ∧
    chars.map ofChar = safeFilename normalizer value defaultFilename

/-! ## When the code keeps it -/

/-- What neither the strips nor the filter take away. -/
def isOrdinary (c : CodePoint) : Bool := !isUnsafe c && !isBlank c && !isDot c

def visible (text : Text) : Text := text.filter (!isUnsafe ·)

def orUnsafe (p : CodePoint → Bool) (c : CodePoint) : Bool := isUnsafe c || p c

/-- What is taken off the front of a name. -/
def frontRuns : List (CodePoint → Bool) := [isBlank, isDot, orUnsafe isBlank, orUnsafe isDot]

/-- The ASCII characters are not all quotation marks. -/
def Quotable (text : Text) : Prop :=
  (∀ c ∈ text, 0x80 ≤ c.val) ∨ ∃ c ∈ text, c.val < 0x80 ∧ isQuote c = false

def Bounded (text : Text) : Prop :=
  (∃ c ∈ text.head?, isOrdinary c = true) ∧ ∃ c ∈ text.getLast?, isOrdinary c = true

/-- A core between ordinary code points remains: what is before it goes, what is after it goes or
does not fit, and what is seen of the core is in normal form and can be quoted. -/
def Remains (normalizer : Normalizer) (name : Text) : Prop :=
  ∃ left core rest, name = left ++ core ++ rest ∧ Bounded core ∧ Runs frontRuns left ∧
    (visible core).length ≤ 180 ∧
    (Runs frontRuns.reverse rest ∨ (visible core).length = 180) ∧
    normalizer.nfc (visible core) = visible core ∧ Quotable (visible core)

/-- All of the name goes. -/
def Vanishes (name : Text) : Prop := Runs (frontRuns ++ frontRuns.reverse) name

/-! ## Front and back of a name -/

/-- What is left of the front of a name. -/
def trimFront (left : Text) : Text :=
  ((((left.dropWhile isBlank).dropWhile isDot).filter (!isUnsafe ·)).dropWhile isBlank).dropWhile
  isDot

theorem orUnsafe_eq (p : CodePoint → Bool) : (fun c => !(!isUnsafe c) || p c) = orUnsafe p := by
  ext c
  simp [orUnsafe]

theorem trimFront_eq_nil_iff (left : Text) : trimFront left = [] ↔ Runs frontRuns left := by
  have hfilter :
      Runs [isBlank, isDot] (((left.dropWhile isBlank).dropWhile isDot).filter (!isUnsafe ·)) ↔
      Runs [orUnsafe isBlank, orUnsafe isDot] ((left.dropWhile isBlank).dropWhile isDot) := by
    rw [Runs.filter_iff, List.map_cons, List.map_singleton, orUnsafe_eq, orUnsafe_eq]
  show Runs [] (trimFront left) ↔ _
  rw [trimFront, Runs.dropWhile_iff, Runs.dropWhile_iff, hfilter, Runs.dropWhile_iff,
    Runs.dropWhile_iff]
  rfl

theorem clean_eq_nil_iff (name : Text) : clean name = [] ↔ Vanishes name := by
  have hfilter : Runs [isBlank, isDot, isDot, isBlank]
        ((stripBy isDot (stripBy isBlank name)).filter (!isUnsafe ·)) ↔
      Runs [orUnsafe isBlank, orUnsafe isDot, orUnsafe isDot, orUnsafe isBlank]
        (stripBy isDot (stripBy isBlank name)) := by
    rw [Runs.filter_iff, List.map_cons, List.map_cons, List.map_cons, List.map_singleton,
      orUnsafe_eq, orUnsafe_eq]
  show Runs [] (clean name) ↔ _
  rw [clean, Runs.stripBy_iff, Runs.stripBy_iff]
  simp only [List.nil_append, List.cons_append]
  rw [hfilter, Runs.stripBy_iff, Runs.stripBy_iff]
  rfl

theorem isOrdinary_iff {c : CodePoint} :
    isOrdinary c = true ↔ isUnsafe c = false ∧ isBlank c = false ∧ isDot c = false := by
  simp [isOrdinary, and_assoc]

section Bounded

variable {core left rest text : Text}

theorem Bounded.ne_nil (h : Bounded text) : text ≠ [] := by
  obtain ⟨⟨c, hc, -⟩, -⟩ := h
  rintro rfl
  cases hc

theorem Bounded.head (h : Bounded text) {c : CodePoint} (hc : c ∈ text.head?) :
    isOrdinary c = true := by
  obtain ⟨⟨d, hd, hordinary⟩, -⟩ := h
  rwa [Option.mem_unique hc hd]

theorem Bounded.last (h : Bounded text) {c : CodePoint} (hc : c ∈ text.getLast?) :
    isOrdinary c = true := by
  obtain ⟨-, d, hd, hordinary⟩ := h
  rwa [Option.mem_unique hc hd]

theorem bounded_visible (h : Bounded core) : Bounded (visible core) := by
  obtain ⟨⟨c, hc, hfirst⟩, d, hd, hlast⟩ := h
  constructor
  · obtain ⟨tail, rfl⟩ := List.head?_eq_some_iff.mp hc
    refine ⟨c, ?_, hfirst⟩
    rw [visible, List.filter_cons_of_pos (by simp [(isOrdinary_iff.mp hfirst).1])]
    rfl
  · obtain ⟨init, rfl⟩ := List.getLast?_eq_some_iff.mp hd
    refine ⟨d, ?_, hlast⟩
    have hkeep : [d].filter (!isUnsafe ·) = [d] := by simp [(isOrdinary_iff.mp hlast).1]
    rw [visible, List.filter_append, hkeep, List.getLast?_concat]
    rfl

theorem stripBy_bounded {p : CodePoint → Bool} (hp : ∀ c, isOrdinary c = true → p c = false)
    (h : Bounded core) : stripBy p (left ++ core ++ rest) =
      left.dropWhile p ++ core ++ (rest.reverse.dropWhile p).reverse :=
  stripBy_between h.ne_nil (fun c hc => hp c (h.head hc)) fun c hc => hp c (h.last hc)

/-- The core keeps what is seen of it, and both sides are trimmed on their own. -/
theorem clean_between (h : Bounded core) : clean (left ++ core ++ rest) =
    trimFront left ++ visible core ++ (trimFront rest.reverse).reverse := by
  have hblank : ∀ c, isOrdinary c = true → isBlank c = false :=
    fun c hc => (isOrdinary_iff.mp hc).2.1
  have hdot : ∀ c, isOrdinary c = true → isDot c = false := fun c hc => (isOrdinary_iff.mp hc).2.2
  rw [clean, stripBy_bounded hblank h, stripBy_bounded hdot h, List.reverse_reverse,
    List.filter_append, List.filter_append, List.filter_reverse]
  show stripBy isDot (stripBy isBlank (_ ++ visible core ++ _)) = _
  rw [stripBy_bounded hblank (bounded_visible h), stripBy_bounded hdot (bounded_visible h),
    List.reverse_reverse, List.reverse_reverse]
  rfl

theorem clean_eq_self (h : Bounded text) (hvisible : ∀ c ∈ text, isUnsafe c = false) :
    clean text = text := by
  have hkept : visible text = text := List.filter_eq_self.mpr fun c hc => by simp [hvisible c hc]
  have hclean : clean ([] ++ text ++ []) = [] ++ visible text ++ [] := clean_between h
  rwa [List.nil_append, List.append_nil, List.nil_append, List.append_nil, hkept] at hclean

end Bounded

theorem clean_sublist (name : Text) : (clean name).Sublist name := by
  have hfront : (stripBy isDot (stripBy isBlank name)).Sublist name :=
    (stripBy_sublist _).trans (stripBy_sublist name)
  have hkept : ((stripBy isDot (stripBy isBlank name)).filter (!isUnsafe ·)).Sublist name :=
    List.filter_sublist.trans hfront
  exact ((stripBy_sublist _).trans (stripBy_sublist _)).trans hkept

theorem visible_of_mem_clean {c : CodePoint} {name : Text} (hc : c ∈ clean name) :
    isUnsafe c = false := by
  have hkept : c ∈ (stripBy isDot (stripBy isBlank name)).filter (!isUnsafe ·) :=
    ((stripBy_sublist _).trans (stripBy_sublist _)).mem hc
  simpa using (List.mem_filter.mp hkept).2

/-! ## The component -/

theorem lastComponent_eq (text : Text) :
    lastComponent text = (text.reverse.takeWhile fun c => !isSlash c &&
      !isBackslash c).reverse := by
  have hclass : (fun c => !isSlash c) ∘ (fun c => if isBackslash c then ofChar '/' else c) =
      fun c => !isSlash c && !isBackslash c := by
    ext c
    by_cases hc : isBackslash c = true
    · simp [hc]
      decide
    · simp [hc]
  rw [lastComponent, ← List.map_reverse, List.takeWhile_map, hclass]
  congr 1
  conv_rhs => rw [← List.map_id (List.takeWhile _ _)]
  apply List.map_congr_left
  intro c hc
  have hplain := List.mem_takeWhile_imp hc
  rw [Bool.and_eq_true, Bool.not_eq_true'] at hplain
  rw [id, if_neg]
  simpa using hplain.2

theorem lastComponent_sublist (text : Text) : (lastComponent text).Sublist text := by
  rw [lastComponent_eq, ← List.reverse_sublist, List.reverse_reverse]
  exact List.takeWhile_sublist _

theorem plain_of_mem_component {normalizer : Normalizer} {value : Text} {c : CodePoint}
    (hc : c ∈ component normalizer value) : isSlash c = false ∧ isBackslash c = false := by
  have hmem := List.mem_of_mem_filter hc
  rw [lastComponent_eq, List.mem_reverse] at hmem
  simpa using List.mem_takeWhile_imp hmem

theorem isUnsafe_of_isControl {c : CodePoint} (h : isControl c = true) : isUnsafe c = true := by
  have hcategory : isControlCategory c = true := by
    simp only [isControl, isControlCategory, Bool.or_eq_true, Bool.and_eq_true, decide_eq_true_eq,
      beq_iff_eq] at h ⊢
    omega
  simp [isUnsafe, hcategory]

theorem component_eq_self {normalizer : Normalizer} {text : Text}
    (hnfc : normalizer.nfc text = text)
    (hplain : ∀ c ∈ text, isSlash c = false ∧ isBackslash c = false)
    (hvisible : ∀ c ∈ text, isUnsafe c = false) : component normalizer text = text := by
  have hlast : lastComponent text = text := by
    rw [lastComponent_eq, List.takeWhile_eq_self_iff.mpr, List.reverse_reverse]
    intro c hc
    have hc := hplain c (List.mem_reverse.mp hc)
    simp [hc.1, hc.2]
  rw [component, hnfc, hlast, List.filter_eq_self]
  intro c hc
  by_contra hcontrol
  have hunsafe := isUnsafe_of_isControl (c := c) (by simpa using hcontrol)
  rw [hvisible c hc] at hunsafe
  cases hunsafe

theorem component_sublist (normalizer : Normalizer) (value : Text) :
    (component normalizer value).Sublist (normalizer.nfc value) :=
  List.filter_sublist.trans (lastComponent_sublist _)

theorem component_nil (normalizer : Normalizer) : component normalizer [] = [] := by
  rw [component, normalizer.nfc_ascii [] nofun]
  rfl

/-! ## The name -/

theorem safeFilename_some (normalizer : Normalizer) (value default : Text) :
    safeFilename normalizer (some value) default =
      if clean (component normalizer value) = [] then default
      else (clean (component normalizer value)).take maxFilename := by
  by_cases hvalue : value = []
  · have hclean : clean (component normalizer value) = [] := by
      rw [hvalue, component_nil]
      rfl
    rw [if_pos hclean, hvalue]
    simp only [safeFilename, if_true]
  · by_cases hclean : clean (component normalizer value) = []
    · simp [safeFilename, hvalue, hclean]
    · have hdots : ([ofString ".", ofString ".."] : List Text).contains
          (clean (component normalizer value)) = false := by
        rw [Bool.eq_false_iff]
        intro hmem
        have hhead : (ofChar '.') ∈ (clean (component normalizer value)).head? := by
          rcases List.mem_pair.mp (List.contains_iff_mem.mp hmem) with heq | heq <;> (rw [heq]; rfl)
        have hdot : isDot (ofChar '.') = false := of_mem_head?_stripBy hhead
        cases hdot
      simp only [safeFilename, hvalue, hclean, hdots, if_false, Bool.or_false, decide_false,
        Bool.false_eq_true]

/-- A name that every stage leaves as it is, and that can be quoted. -/
structure Settled (normalizer : Normalizer) (name : Text) : Prop where
  bounded : Bounded name
  visible : ∀ c ∈ name, isUnsafe c = false
  plain : ∀ c ∈ name, isSlash c = false ∧ isBackslash c = false
  length_le : name.length ≤ 180
  normal : normalizer.nfc name = name
  quotable : Quotable name

theorem Settled.stable {normalizer : Normalizer} {name : Text} (h : Settled normalizer name)
    (default : Text) : safeFilename normalizer (some name) default = name := by
  rw [safeFilename_some, component_eq_self h.normal h.plain h.visible,
    clean_eq_self h.bounded h.visible, if_neg h.bounded.ne_nil]
  exact List.take_of_length_le h.length_le

theorem ascii_defaultFilename : ∀ c ∈ defaultFilename, c.val < 0x80 := by
  have hall : (defaultFilename.all fun c => c.val < 0x80) = true := by decide +kernel
  simpa using hall

theorem settled_defaultFilename (normalizer : Normalizer) : Settled normalizer defaultFilename where
  bounded := ⟨⟨ofChar 'a', rfl, by decide⟩, ofChar 'n', rfl, by decide⟩
  visible := by
    have hall : (defaultFilename.all fun c => !isUnsafe c) = true := by decide +kernel
    simpa using hall
  plain := by
    have hall : (defaultFilename.all fun c => !isSlash c && !isBackslash c) = true := by
      decide +kernel
    simpa using hall
  length_le := by decide +kernel
  normal := normalizer.nfc_ascii defaultFilename ascii_defaultFilename
  quotable := Or.inr ⟨ofChar 'a', List.mem_of_mem_head? rfl, by decide, by decide⟩

theorem safeFilename_mem (normalizer : Normalizer) (value : Option Text) {c : CodePoint}
    (hc : c ∈ safeFilename normalizer value defaultFilename) :
    isUnsafe c = false ∧ isSlash c = false ∧ isBackslash c = false := by
  have hdefault := settled_defaultFilename normalizer
  cases value with
  | none => exact ⟨hdefault.visible c hc, hdefault.plain c hc⟩
  | some value =>
      rw [safeFilename_some] at hc
      split at hc
      · exact ⟨hdefault.visible c hc, hdefault.plain c hc⟩
      · have hmem := List.mem_of_mem_take hc
        exact ⟨visible_of_mem_clean hmem, plain_of_mem_component ((clean_sublist _).mem hmem)⟩

/-! ## Normal form -/

theorem length_decomposition_le (normalizer : Normalizer) {part whole : Text}
    (h : part.Sublist whole) :
    (part.flatMap normalizer.decomposition).length + (whole.length - part.length) ≤
      (whole.flatMap normalizer.decomposition).length := by
  induction h with
  | slnil => rfl
  | @cons part whole c h ih =>
      have hpos := List.length_pos_of_ne_nil (normalizer.decomposition_ne_nil c)
      have hle := h.length_le
      rw [List.flatMap_cons, List.length_append, List.length_cons]
      omega
  | @cons_cons part whole c h ih =>
      have hle := h.length_le
      rw [List.flatMap_cons, List.flatMap_cons, List.length_append, List.length_append,
        List.length_cons, List.length_cons]
      omega

/-- Nothing is lost in the normal form that leaves the text as it was. -/
theorem nfc_eq_self_of_sublist {normalizer : Normalizer} {text : Text}
    (h : text.Sublist (normalizer.nfc text)) : normalizer.nfc text = text := by
  have hlength := (normalizer.equivalent text).length_eq
  have hle := length_decomposition_le normalizer h
  exact (h.eq_of_length_le (by omega)).symm

theorem nfc_of_stable {normalizer : Normalizer} {name : Text}
    (h : safeFilename normalizer (some name) defaultFilename = name) :
    normalizer.nfc name = name := by
  rw [safeFilename_some] at h
  split at h
  · rw [← h]
    exact (settled_defaultFilename normalizer).normal
  · apply nfc_eq_self_of_sublist
    have hname := (List.take_sublist maxFilename _).trans
      ((clean_sublist (component normalizer name)).trans (component_sublist normalizer name))
    rwa [h] at hname

/-! ## The headers -/

theorem mem_asciiOnly {name : Text} {d : Char} :
    d ∈ asciiOnly name ↔ ∃ c ∈ name, c.val < 0x80 ∧ Char.ofNat c.val = d := by
  simp [asciiOnly, and_assoc]

theorem asciiOnly_eq_nil_iff {name : Text} : asciiOnly name = [] ↔ ∀ c ∈ name, 0x80 ≤ c.val := by
  simp [asciiOnly, List.filter_eq_nil_iff]

theorem isQuote_iff {c : CodePoint} (hc : c.val < 0x80) :
    isQuote c = true ↔ Char.ofNat c.val = '"' := by
  have hvalue := Percent.toNat_ofNat hc
  constructor
  · intro h
    rw [isQuote, beq_iff_eq] at h
    rw [h]
  · intro h
    rw [h] at hvalue
    rw [isQuote, ← hvalue]
    rfl

theorem asciiName_ne_nil_iff (name : Text) : asciiName name ≠ [] ↔ Quotable name := by
  by_cases hascii : asciiOnly name = []
  · have hquotable : Quotable name := Or.inl (asciiOnly_eq_nil_iff.mp hascii)
    simp [asciiName, hascii, hquotable]
  · have hname : ¬ ∀ c ∈ name, 0x80 ≤ c.val := fun h => hascii (asciiOnly_eq_nil_iff.mpr h)
    rw [Quotable, or_iff_right hname]
    simp only [asciiName, hascii, if_false, ne_eq, List.map_eq_nil_iff, List.filter_eq_nil_iff]
    push Not
    constructor
    · rintro ⟨d, hd, hquote⟩
      obtain ⟨c, hc, hrange, rfl⟩ := mem_asciiOnly.mp hd
      refine ⟨c, hc, hrange, ?_⟩
      rw [Bool.eq_false_iff, ne_eq, isQuote_iff hrange]
      simpa using hquote
    · rintro ⟨c, hc, hrange, hquote⟩
      refine ⟨Char.ofNat c.val, mem_asciiOnly.mpr ⟨c, hc, hrange, rfl⟩, ?_⟩
      rw [Bool.eq_false_iff, ne_eq, isQuote_iff hrange] at hquote
      simpa using hquote

theorem mem_asciiName {name : Text} (hname : ∀ c ∈ name, isUnsafe c = false) {d : Char}
    (hd : d ∈ asciiName name) : 0x20 ≤ d.toNat ∧ d.toNat ≤ 0x7E ∧ d ≠ '"' ∧ d ≠ '\\' := by
  have hascii : ∀ d ∈ (if asciiOnly name = [] then "attachment.bin".toList else asciiOnly name),
      0x20 ≤ d.toNat ∧ d.toNat ≤ 0x7E := by
    split
    · have hall :
          ("attachment.bin".toList.all fun d => 0x20 ≤ d.toNat && d.toNat ≤ 0x7E) = true := by
        decide
      exact fun d hd => by simpa using List.all_eq_true.mp hall d hd
    · intro d hd
      obtain ⟨c, hc, hrange, rfl⟩ := mem_asciiOnly.mp hd
      have hsafe := hname c hc
      simp only [isUnsafe, isControlCategory, Bool.or_eq_false_iff, Bool.and_eq_false_iff,
        decide_eq_false_iff_not] at hsafe
      rw [Percent.toNat_ofNat hrange]
      omega
  obtain ⟨x, hx, rfl⟩ := List.mem_map.mp hd
  have hrange := hascii x (List.mem_of_mem_filter hx)
  have hquote : x ≠ '"' := by simpa using (List.mem_filter.mp hx).2
  split
  · decide
  · next hbackslash => exact ⟨hrange.1, hrange.2, hquote, hbackslash⟩

theorem toChars_of {name : Text} (hname : ∀ c ∈ name, isSurrogate c = false) :
    ∃ chars, toChars name = some chars ∧ chars.map ofChar = name := by
  induction name with
  | nil => exact ⟨[], rfl, rfl⟩
  | cons c name ih =>
      obtain ⟨chars, hchars, hname'⟩ := ih fun d hd => hname d (List.mem_cons_of_mem c hd)
      have hc := hname c List.mem_cons_self
      have hvalid : c.val.isValidChar := by
        have hlt := c.isLt
        simp only [isSurrogate, Bool.and_eq_false_iff, decide_eq_false_iff_not] at hc
        rcases Nat.lt_or_ge c.val 0xD800 with hlow | hhigh
        · exact Or.inl hlow
        · exact Or.inr (by omega)
      unfold toChars at hchars ⊢
      refine ⟨Char.ofNatAux c.val hvalid :: chars, ?_, ?_⟩
      · rw [List.mapM_cons, hchars, dif_pos hvalid]
        rfl
      · rw [List.map_cons, hname']
        rfl

/-- The headers are there, and the name is written in the first one. -/
theorem attachmentDownloadHeaders_eq (normalizer : Normalizer) (value : Option Text) :
    ∃ chars, attachmentDownloadHeaders normalizer value =
        some (downloadHeaders (safeFilename normalizer value defaultFilename)
          (Percent.encode (utf8 chars))) ∧
      chars.map ofChar = safeFilename normalizer value defaultFilename := by
  have hsurrogate : ∀ c ∈ safeFilename normalizer value defaultFilename, isSurrogate c = false := by
    intro c hc
    have hsafe := (safeFilename_mem normalizer value hc).1
    simp only [isUnsafe, Bool.or_eq_false_iff] at hsafe
    exact hsafe.1.1.2
  obtain ⟨chars, hchars, hname⟩ := toChars_of hsurrogate
  refine ⟨chars, ?_, hname⟩
  rw [attachmentDownloadHeaders, quote, hchars]
  rfl

theorem lookup_downloadHeaders (name : Text) (encoded : List Char) :
    (downloadHeaders name encoded).lookup "Content-Disposition" =
      some (String.ofList ("attachment; filename=\"".toList ++ asciiName name ++
        "\"; filename*=UTF-8''".toList ++ encoded)) := rfl

/-- The quoted name is found again in the header. -/
theorem quoted_unique {fallback fallback' encoded encoded' : List Char}
    (h : "attachment; filename=\"".toList ++ fallback ++ "\"; filename*=UTF-8''".toList ++ encoded =
      "attachment; filename=\"".toList ++ fallback' ++ "\"; filename*=UTF-8''".toList ++ encoded')
    (hquote : '"' ∉ fallback) (hquote' : '"' ∉ fallback') : fallback = fallback' := by
  have hmark : ∀ encoded : List Char, "\"; filename*=UTF-8''".toList ++ encoded =
      '"' :: ("; filename*=UTF-8''".toList ++ encoded) := fun _ => rfl
  rw [List.append_assoc, List.append_assoc, List.append_assoc, List.append_assoc] at h
  have hrest := List.append_cancel_left h
  rw [hmark, hmark] at hrest
  have hpart := partition_singleton hquote ("; filename*=UTF-8''".toList ++ encoded)
  rw [hrest, partition_singleton hquote'] at hpart
  cases hpart
  rfl

/-! ## Exactly when the promise holds -/

theorem safeDownload_of_settled {normalizer : Normalizer} {value : Option Text}
    (h : Settled normalizer (safeFilename normalizer value defaultFilename)) :
    SafeDownload normalizer value := by
  have hends : ∀ {c}, isOrdinary c = true → isDot c = false ∧ isBlank c = false :=
    fun hc => ⟨(isOrdinary_iff.mp hc).2.2, (isOrdinary_iff.mp hc).2.1⟩
  obtain ⟨chars, hfields, hchars⟩ := attachmentDownloadHeaders_eq normalizer value
  refine ⟨h.bounded.ne_nil, h.length_le, h.plain, ?_, fun c hc => hends (h.bounded.head hc),
    fun c hc => hends (h.bounded.last hc), h.stable defaultFilename,
    ⟨_, asciiName (safeFilename normalizer value defaultFilename), Percent.encode (utf8 chars),
      chars,
      hfields, lookup_downloadHeaders _ _, (asciiName_ne_nil_iff _).mpr h.quotable, ?_, ?_, hchars⟩⟩
  · intro c hc
    have hsafe := h.visible c hc
    simp only [isUnsafe, Bool.or_eq_false_iff] at hsafe
    exact ⟨hsafe.1.1.1.1, hsafe.1.1.1.2, hsafe.1.1.2⟩
  · exact fun d hd => mem_asciiName h.visible hd
  · rw [Percent.decode_encode, Option.bind_some, utf8Decode_utf8]

theorem settled_of_safeDownload {normalizer : Normalizer} {value : Option Text}
    (h : SafeDownload normalizer value) :
    Settled normalizer (safeFilename normalizer value defaultFilename) := by
  have hvisible : ∀ c ∈ safeFilename normalizer value defaultFilename, isUnsafe c = false :=
    fun c hc => (safeFilename_mem normalizer value hc).1
  refine ⟨⟨?_, ?_⟩, hvisible, h.no_separator, h.length_le, nfc_of_stable h.stable, ?_⟩
  · have hc := List.head?_eq_some_head h.name_ne_nil
    have hclass := h.first _ hc
    exact ⟨_, hc, isOrdinary_iff.mpr ⟨hvisible _ (List.mem_of_mem_head? hc), hclass.2, hclass.1⟩⟩
  · have hc := List.getLast?_eq_some_getLast h.name_ne_nil
    have hclass := h.last _ hc
    exact ⟨_, hc, isOrdinary_iff.mpr ⟨hvisible _ (List.mem_of_mem_getLast? hc), hclass.2, hclass.1⟩⟩
  · obtain ⟨fields, fallback, encoded, chars, hfields, hlookup, hne, hfallback, -, -⟩ := h.headers
    obtain ⟨chars', hfields', -⟩ := attachmentDownloadHeaders_eq normalizer value
    rw [hfields] at hfields'
    cases hfields'
    rw [lookup_downloadHeaders] at hlookup
    have htext := String.ofList_injective (Option.some.inj hlookup)
    have hname := quoted_unique htext (fun hmem => (mem_asciiName hvisible hmem).2.2.1 rfl)
      fun hmem => (hfallback _ hmem).2.2.1 rfl
    rw [← asciiName_ne_nil_iff, hname]
    exact hne

/-- What remains of a name is settled. -/
theorem settled_of_remains {normalizer : Normalizer} {value : Text}
    (h : Remains normalizer (component normalizer value)) :
    Settled normalizer (safeFilename normalizer (some value) defaultFilename) := by
  obtain ⟨left, core, rest, hname, hcore, hleft, hlength, hrest, hnormal, hquotable⟩ := h
  have hbounded := bounded_visible hcore
  have hclean : clean (component normalizer value) =
      visible core ++ (trimFront rest.reverse).reverse := by
    rw [hname, clean_between hcore, (trimFront_eq_nil_iff left).mpr hleft, List.nil_append]
  have hsafe : safeFilename normalizer (some value) defaultFilename = visible core := by
    rw [safeFilename_some, if_neg (by rw [hclean]; simp [hbounded.ne_nil]), hclean]
    rcases hrest with hrest | hfull
    · have hback : trimFront rest.reverse = [] := by
        rw [trimFront_eq_nil_iff, ← Runs.reverse_iff, List.reverse_reverse]
        exact hrest
      rw [hback, List.reverse_nil, List.append_nil]
      exact List.take_of_length_le hlength
    · exact List.take_left' hfull
  rw [hsafe]
  refine ⟨hbounded, fun c hc => by simpa using (List.mem_filter.mp hc).2, fun c hc => ?_, hlength,
    hnormal, hquotable⟩
  apply @plain_of_mem_component normalizer value
  rw [hname]
  exact List.mem_append_left _ (List.mem_append_right _ (List.mem_of_mem_filter hc))

theorem trimFront_sublist (left : Text) : (trimFront left).Sublist left := by
  have hfront : ((left.dropWhile isBlank).dropWhile isDot).Sublist left :=
    (List.dropWhile_sublist _).trans (List.dropWhile_sublist _)
  exact ((List.dropWhile_sublist _).trans (List.dropWhile_sublist _)).trans
    (List.filter_sublist.trans hfront)

/-- A part of the core with the same beginning, up to an ordinary code point that is seen. -/
theorem exists_part {core seen rest : Text} (hcore : Bounded core) (hseen : Bounded seen)
    (hsplit : visible core = seen ++ rest) :
    ∃ part after, core = part ++ after ∧ Bounded part ∧ visible part = seen := by
  obtain ⟨x, hx, hlast⟩ := hseen.2
  obtain ⟨init, rfl⟩ := List.getLast?_eq_some_iff.mp hx
  rw [List.append_assoc] at hsplit
  obtain ⟨front, tail, rfl, hfront, htail⟩ := List.filter_eq_append_iff.mp hsplit
  obtain ⟨hidden, after, rfl, hhidden, hkept, -⟩ := List.filter_eq_cons_iff.mp htail
  have hnone : hidden.filter (!isUnsafe ·) = [] := List.filter_eq_nil_iff.mpr hhidden
  refine ⟨front ++ hidden ++ [x], after, by simp, ⟨?_, x, by simp, hlast⟩, ?_⟩
  · obtain ⟨c, hc, hfirst⟩ := hcore.1
    refine ⟨c, ?_, hfirst⟩
    have hhead : (front ++ hidden ++ [x] ++ after).head? = some c := by
      rw [← Option.mem_def.mp hc]
      simp
    rwa [List.head?_append_of_ne_nil _ (by simp)] at hhead
  · rw [visible, List.filter_append, List.filter_append, hfront, hnone, List.append_nil,
      List.filter_cons_of_pos (by simpa using hkept), List.filter_nil]

/-- The name that is settled is what remains. -/
theorem remains_of_settled {normalizer : Normalizer} {value : Text}
    (h : Settled normalizer (safeFilename normalizer (some value) defaultFilename))
    (hstays : ¬Vanishes (component normalizer value)) :
    Remains normalizer (component normalizer value) := by
  rw [← clean_eq_nil_iff] at hstays
  rw [safeFilename_some, if_neg hstays] at h
  obtain ⟨c, hc, hordinary⟩ := h.bounded.1
  have hmem : c ∈ component normalizer value :=
    (clean_sublist _).mem (List.mem_of_mem_take (List.mem_of_mem_head? hc))
  obtain ⟨left, core, rest, hname, hleft, hfirst, hlast, hrest⟩ := exists_between hmem hordinary
  have hcore : Bounded core := ⟨hfirst, hlast⟩
  have hclean := hname ▸ clean_between hcore
  have hfront : trimFront left = [] := by
    cases hfront : trimFront left with
    | nil => rfl
    | cons x tail =>
        have hx : x ∈ trimFront left := by simp [hfront]
        have hhead := h.bounded.head (c := x) (by rw [hclean, hfront]; rfl)
        rw [hleft x ((trimFront_sublist left).mem hx)] at hhead
        cases hhead
  rw [hfront, List.nil_append] at hclean
  have hruns : Runs frontRuns left := (trimFront_eq_nil_iff left).mp hfront
  have hback : ∀ x ∈ (trimFront rest.reverse).reverse, isOrdinary x = false := by
    intro x hx
    apply hrest x
    exact List.mem_reverse.mp ((trimFront_sublist rest.reverse).mem (List.mem_reverse.mp hx))
  rw [hclean, maxFilename] at h
  rcases Nat.lt_or_ge 180 (visible core).length with hlong | hshort
  · -- the cut lies within the core
    rw [List.take_append_of_le_length (Nat.le_of_lt hlong)] at h
    obtain ⟨part, after, rfl, hpart, hseen⟩ :=
      exists_part hcore h.bounded (List.take_append_drop _ _).symm
    have hlength : (visible part).length = 180 := by
      rw [hseen, List.length_take]
      omega
    rw [← hseen] at h
    refine ⟨left, part, after ++ rest, ?_, hpart, hruns, h.length_le, Or.inr hlength, h.normal,
      h.quotable⟩
    rw [hname, List.append_assoc, List.append_assoc, List.append_assoc]
  · rcases Nat.eq_or_lt_of_le hshort with hfull | hroom
    · rw [List.take_left' hfull] at h
      exact ⟨left, core, rest, hname, hcore, hruns, hshort, Or.inr hfull, h.normal, h.quotable⟩
    · -- there is room for what is behind the core, so there is nothing
      have hnone : (trimFront rest.reverse).reverse = [] := by
        by_contra hsome
        rw [List.take_append, List.take_of_length_le hshort] at h
        have hcut : ((trimFront rest.reverse).reverse.take (180 - (visible core).length)) ≠ [] := by
          rw [ne_eq, List.take_eq_nil_iff, not_or]
          exact ⟨by omega, hsome⟩
        have hmem := List.mem_of_mem_take (List.getLast_mem hcut)
        have hlast' := h.bounded.last (c := _) (by
          rw [List.getLast?_append_of_ne_nil _ hcut]
          exact List.getLast?_eq_some_getLast hcut)
        rw [hback _ hmem] at hlast'
        cases hlast'
      rw [hnone, List.append_nil, List.take_of_length_le hshort] at h
      refine ⟨left, core, rest, hname, hcore, hruns, hshort, Or.inl ?_, h.normal, h.quotable⟩
      rw [← Runs.reverse_iff, List.reverse_reverse, ← trimFront_eq_nil_iff,
        ← List.reverse_eq_nil_iff]
      exact hnone

/-- The download is safe exactly when all of the last component goes, or when what is before its
core goes, what is after it goes or does not fit, and the core is in normal form and can be
quoted. -/
theorem safe_download_iff (normalizer : Normalizer) (value : Option Text) :
    SafeDownload normalizer value ↔
      ∀ text ∈ value, Vanishes (component normalizer text) ∨
        Remains normalizer (component normalizer text) := by
  cases value with
  | none =>
      have hsafe : SafeDownload normalizer none :=
        safeDownload_of_settled (settled_defaultFilename normalizer)
      simp [hsafe]
  | some value =>
      constructor
      · rintro h _ ⟨⟩
        by_cases hvanish : Vanishes (component normalizer value)
        · exact Or.inl hvanish
        · exact Or.inr (remains_of_settled (settled_of_safeDownload h) hvanish)
      · intro h
        apply safeDownload_of_settled
        rcases h value rfl with hvanish | hremains
        · rw [safeFilename_some, if_pos ((clean_eq_nil_iff _).mpr hvanish)]
          exact settled_defaultFilename normalizer
        · exact settled_of_remains hremains

/-- The second strip of the dots uncovers a blank. -/
theorem trailing_blank_survives : ¬SafeDownload plainNormalizer (some (ofString "x . .")) := by
  intro h
  have hname :
      safeFilename plainNormalizer (some (ofString "x . .")) defaultFilename = ofString "x " := by
    decide +kernel
  have hblank := h.last (ofChar ' ') (by rw [hname]; rfl)
  cases hblank.2

end MaddyWeb.Mail.Filename
