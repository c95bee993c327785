import MaddyWeb.Rules.Kleene

/-!
# Header values and operands

A header value is unfolded, decoded, has its blanks collapsed and is folded to lower case; the
operand of a string test is only folded to lower case.
-/

namespace MaddyWeb.Rules

open MaddyWeb.Library MaddyWeb.Library.Text

/-! ## Decoding -/

/-- A fragment of `email.header.decode_header`. -/
inductive Fragment
  | text (value : List Char)
  | bytes (value : List UInt8) (charset : Option String)

/-- The parts of the standard library that read header values; nothing stands for an exception. -/
structure HeaderEnv where
  /-- `email.header.decode_header` -/
  decodeHeader : List Char → Option (List Fragment)
  /-- `fragment.decode(encoding, "strict")` -/
  decode : List UInt8 → String → Option (List Char)
  /-- The full case folding of one character. -/
  caseFolding : Char → List Char

/-- `[ \t]` -/
def isBlank (c : Char) : Bool := c == ' ' || c == '\t'

/-- What follows a match of `_FOLD_RE` at the beginning of a text. -/
def afterFold (text : List Char) : Option (List Char) :=
  let rest := match text with
    | '\r' :: '\n' :: rest => some rest
    | '\n' :: rest => some rest
    | _ => none
  match rest with
  | some (c :: rest) => if isBlank c then some (rest.dropWhile isBlank) else none
  | _ => none

/-- `_FOLD_RE.sub(" ", value)`, with a step for every character -/
def unfoldText : Nat → List Char → List Char
  | 0, text => text
  | _, [] => []
  | fuel + 1, c :: rest =>
      match afterFold (c :: rest) with
      | some after => ' ' :: unfoldText fuel after
      | none => c :: unfoldText fuel rest

/-- `re.sub(r"[ \t]+", " ", text)`; the flag says that the character before was a blank. -/
def collapseBlanks : Bool → List Char → List Char
  | _, [] => []
  | afterBlank, c :: rest =>
      if isBlank c then
        if afterBlank then collapseBlanks true rest else ' ' :: collapseBlanks true rest
      else c :: collapseBlanks false rest

/-- `_normalize_decoded_text` -/
def normalizeDecodedText (value : List Char) : Option (List Char) :=
  let unfolded := unfoldText value.length value
  if '\r' ∈ unfolded ∨ '\n' ∈ unfolded then none
  else
    let collapsed := collapseBlanks false unfolded
    if collapsed.any isUnsafe then none else some collapsed

namespace HeaderEnv

variable (env : HeaderEnv)

/-- `str.casefold` -/
def casefold (text : String) : String := String.ofList (text.toList.flatMap env.caseFolding)

/-- The rendering of one fragment. -/
def render : Fragment → Option (List Char)
  | .text value => some value
  | .bytes value charset => env.decode value (charset.getD "ascii")

/-- The joined fragments of a header value. -/
def decodedText (value : List Char) : Option (List Char) := do
  let normalized ← normalizeDecodedText value
  let fragments ← env.decodeHeader normalized
  let rendered ← fragments.mapM env.render
  return rendered.flatten

/-- A header with this text: when its encoded words are decoded, or as it stands when it has
none. -/
def HasText (raw : String) (v : List Char) : Prop :=
  env.decodedText raw.toList = some v ∨
    (raw.toList = v ∧ ∀ text, normalizeDecodedText raw.toList = some text →
      env.decodeHeader text = some [.text text])

/-- `_decode_header_value` -/
def decodeHeaderValue (value : String) : Option String := do
  let decoded ← env.decodedText value.toList
  let normalized ← normalizeDecodedText decoded
  return env.casefold (String.ofList normalized)

def maxDecodedHeaderCharacters : Nat := 128 * 1024

/-- The loop of `parse_rule_message` over `message.raw_items()`. -/
def normalizedHeaders : Nat → List (String × String) → Option (List (String × String))
  | _, [] => some []
  | decodedCharacters, (name, value) :: rest => do
      let decoded ← env.decodeHeaderValue value
      let total := decodedCharacters + decoded.toList.length
      if maxDecodedHeaderCharacters < total then none
      else
        let others ← normalizedHeaders total rest
        return (env.casefold name, decoded) :: others

end HeaderEnv

/-! ## Texts that a rule can name -/

theorem afterFold_none {text : List Char} (h : '\n' ∉ text) : afterFold text = none := by
  unfold afterFold
  split
  · exact absurd (by simp) h
  · exact absurd (by simp) h
  · rfl

theorem unfoldText_eq {fuel : Nat} {text : List Char} (h : '\n' ∉ text) :
    unfoldText fuel text = text := by
  induction fuel generalizing text with
  | zero => rfl
  | succ fuel ih =>
      cases text with
      | nil => rfl
      | cons c rest =>
          rw [unfoldText, afterFold_none h]
          dsimp only
          rw [ih fun hrest => h (List.mem_cons_of_mem _ hrest)]

section Collapse

variable {fold : Char → List Char}

/-- The characters that `_validate_text` accepts. -/
def Plain (text : List Char) : Prop := ∀ c ∈ text, isUnsafe c = false

theorem isBlank_eq {c : Char} (h : isUnsafe c = false) : isBlank c = (c == ' ') := by
  unfold isBlank
  have htab : (c == '\t') = false := by
    rw [beq_eq_false_iff_ne]
    rintro rfl
    exact absurd h (by decide)
  rw [htab, Bool.or_false]

/-- Collapsing never adds to the folded text, and changes the text only by making it shorter. -/
theorem length_collapseBlanks (hspace : fold ' ' = [' ']) {text : List Char} (htext : Plain text)
    (afterBlank : Bool) :
    ((collapseBlanks afterBlank text).flatMap fold).length ≤ (text.flatMap fold).length ∧
      (((collapseBlanks afterBlank text).flatMap fold).length = (text.flatMap fold).length →
        collapseBlanks afterBlank text = text) := by
  induction text generalizing afterBlank with
  | nil => exact ⟨Nat.le_refl _, fun _ => rfl⟩
  | cons c rest ih =>
      have hrest : Plain rest := fun d hd => htext d (List.mem_cons_of_mem _ hd)
      rw [collapseBlanks, isBlank_eq (htext c List.mem_cons_self)]
      rcases hc : (c == ' ') with - | -
      · obtain ⟨hle, heq⟩ := ih hrest false
        simp only [Bool.false_eq_true, if_false, List.flatMap_cons, List.length_append]
        refine ⟨by omega, fun h => ?_⟩
        rw [heq (by omega)]
      · rw [beq_iff_eq] at hc
        subst hc
        obtain ⟨hle, heq⟩ := ih hrest true
        cases afterBlank with
        | true =>
            simp only [if_true, List.flatMap_cons, List.length_append, hspace,
              List.length_singleton]
            exact ⟨by omega, fun h => absurd h (by omega)⟩
        | false =>
            simp only [if_true, Bool.false_eq_true, if_false, List.flatMap_cons, List.length_append,
              hspace, List.length_singleton]
            refine ⟨by omega, fun h => ?_⟩
            rw [heq (by omega)]

theorem collapseBlanks_eq_iff {text : List Char} (htext : Plain text) (afterBlank : Bool) :
    collapseBlanks afterBlank text = text ↔
      ¬ [' ', ' '] <:+: (if afterBlank then ' ' :: text else text) := by
  induction text generalizing afterBlank with
  | nil => cases afterBlank <;> simp [collapseBlanks, List.infix_cons_iff]
  | cons c rest ih =>
      have hrest : Plain rest := fun d hd => htext d (List.mem_cons_of_mem _ hd)
      have hshort := (@length_collapseBlanks (fun c => [c]) rfl rest hrest true).1
      simp only [List.flatMap_singleton'] at hshort
      rw [collapseBlanks, isBlank_eq (htext c List.mem_cons_self)]
      rcases hc : (c == ' ') with - | -
      · rw [beq_eq_false_iff_ne] at hc
        have hinfix := ih hrest false
        cases afterBlank <;>
          simp_all [List.infix_cons_iff, List.cons_prefix_cons, Ne.symm hc]
      · rw [beq_iff_eq] at hc
        subst hc
        have hinfix := ih hrest true
        cases afterBlank with
        | true =>
            refine iff_of_false ?_ (fun h => h ?_)
            · intro h
              have hlength := congrArg List.length h
              simp only [if_true, List.length_cons] at hlength
              omega
            · exact ⟨[], rest, rfl⟩
        | false => simpa using hinfix

theorem mem_collapseBlanks {text : List Char} {afterBlank : Bool} {c : Char}
    (h : c ∈ collapseBlanks afterBlank text) : c = ' ' ∨ c ∈ text := by
  induction text generalizing afterBlank with
  | nil => cases h
  | cons d rest ih =>
      rw [collapseBlanks] at h
      split at h
      · split at h
        · exact (ih h).imp id (List.mem_cons_of_mem _)
        · rcases List.mem_cons.mp h with rfl | h
          · exact .inl rfl
          · exact (ih h).imp id (List.mem_cons_of_mem _)
      · rcases List.mem_cons.mp h with rfl | h
        · exact .inr List.mem_cons_self
        · exact (ih h).imp id (List.mem_cons_of_mem _)

theorem collapseBlanks_collapseBlanks (text : List Char) (afterBlank : Bool) :
    collapseBlanks afterBlank (collapseBlanks afterBlank text) =
      collapseBlanks afterBlank text := by
  induction text generalizing afterBlank with
  | nil => rfl
  | cons c rest ih =>
      rcases hc : isBlank c with - | -
      · simp [collapseBlanks, hc, ih]
      · have hblank : isBlank ' ' = true := by decide
        cases afterBlank <;> simp [collapseBlanks, hc, hblank, ih]

theorem normalizeDecodedText_plain {text : List Char} (htext : Plain text) :
    normalizeDecodedText text = some (collapseBlanks false text) := by
  have hcr : '\r' ∉ text := fun h => absurd (htext _ h) (by decide)
  have hlf : '\n' ∉ text := fun h => absurd (htext _ h) (by decide)
  have hsafe : (collapseBlanks false text).any isUnsafe = false := by
    rw [List.any_eq_false]
    intro c hc
    rcases mem_collapseBlanks hc with rfl | hc
    · decide
    · simp [htext c hc]
  unfold normalizeDecodedText
  simp only [unfoldText_eq hlf, hcr, hlf, or_self, if_false, hsafe, Bool.false_eq_true]

theorem plain_of_validateText {label v : String} {characters bytes : Nat}
    (h : validateText label characters bytes (some (.str v)) = .ok v) : Plain v.toList := by
  rw [validateText] at h
  split at h
  · cases h
  split at h
  · cases h
  next hsafe =>
  intro c hc
  rw [Bool.not_eq_true, List.any_eq_false] at hsafe
  simpa using hsafe c hc

end Collapse

/-! ## One header -/

section OneHeader

variable {env : HeaderEnv}

/-- The values of the headers of one name, in their order. -/
theorem normalizedHeaders_filter {decodedCharacters : Nat} {items headers : List (String × String)}
    (h : env.normalizedHeaders decodedCharacters items = some headers) (key : String) :
    (items.filter fun item => env.casefold item.1 == key).mapM
    (fun item => env.decodeHeaderValue item.2) =
      some ((headers.filter (·.1 == key)).map (·.2)) := by
  induction items generalizing decodedCharacters headers with
  | nil =>
      cases h
      rfl
  | cons item rest ih =>
      obtain ⟨name, value⟩ := item
      rw [HeaderEnv.normalizedHeaders] at h
      simp only [Option.bind_eq_bind, Option.bind_eq_some_iff] at h
      obtain ⟨decoded, hdecoded, h⟩ := h
      split at h
      · cases h
      obtain ⟨others, hothers, h⟩ := Option.bind_eq_some_iff.mp h
      cases h
      have hrest := ih hothers
      rcases hkey : (env.casefold name == key) with - | -
      · rw [List.filter_cons_of_neg (by simpa using hkey),
          List.filter_cons_of_neg (by simpa using hkey), hrest]
      · rw [List.filter_cons_of_pos (by simpa using hkey),
          List.filter_cons_of_pos (by simpa using hkey), List.mapM_cons, hdecoded, hrest]
        rfl

theorem decodeHeaderValue_plain {raw : String} {v : List Char} (hv : Plain v)
    (htext : env.HasText raw v) :
    env.decodeHeaderValue raw = some (env.casefold (String.ofList (collapseBlanks false v))) := by
  unfold HeaderEnv.decodeHeaderValue
  rcases htext with hdecoded | ⟨rfl, hplain⟩
  · rw [hdecoded]
    show (normalizeDecodedText v).bind _ = _
    rw [normalizeDecodedText_plain hv]
    rfl
  · have hsafe : Plain (collapseBlanks false raw.toList) := by
      intro c hc
      rcases mem_collapseBlanks hc with rfl | hc
      · decide
      · exact hv c hc
    have hdecoded : env.decodedText raw.toList = some (collapseBlanks false raw.toList) := by
      unfold HeaderEnv.decodedText
      rw [normalizeDecodedText_plain hv]
      show (env.decodeHeader (collapseBlanks false raw.toList)).bind _ = _
      rw [hplain _ (normalizeDecodedText_plain hv)]
      show some (collapseBlanks false raw.toList ++ []) = _
      rw [List.append_nil]
    rw [hdecoded]
    show (normalizeDecodedText (collapseBlanks false raw.toList)).bind _ = _
    rw [normalizeDecodedText_plain hsafe, collapseBlanks_collapseBlanks]
    rfl

/-- A message with one header of the field and no envelope has one value to test. -/
theorem stringValues_one {items headers : List (String × String)} {field : StringField}
    {header : Option String} {name raw : String} {v : List Char}
    (hheaders : env.normalizedHeaders 0 items = some headers)
    (hone : (items.filter fun item =>
      env.casefold item.1 == env.casefold (headerName field header)) = [(name, raw)])
    (hv : Plain v) (htext : env.HasText raw v)
    (size : Nat) (hasAttachment : Bool) :
    stringValues env.casefold ⟨headers, size, hasAttachment, none, []⟩ field header =
      [env.casefold (String.ofList (collapseBlanks false v))] := by
  have hvalues := normalizedHeaders_filter hheaders (env.casefold (headerName field header))
  rw [hone, List.mapM_cons, decodeHeaderValue_plain hv htext] at hvalues
  have hvalue : (headers.filter (·.1 == env.casefold (headerName field header))).map (·.2) =
      [env.casefold (String.ofList (collapseBlanks false v))] := (Option.some.inj hvalues).symm
  show (headers.filter (·.1 == env.casefold (headerName field header))).map (·.2) ++ _ = _
  rw [hvalue]
  cases field <;> rfl

theorem evaluate_one {message : RuleMessage} {casefold : String → String} {field : StringField}
    {header : Option String} {value : String}
    (hvalues : stringValues casefold message field header = [value]) (operator : StringOperator)
    (hoperator : operator ≠ .exists) (v : String) :
    evaluate casefold message (.string field operator (some v) header) =
      .ofBool (decide (Satisfies operator (casefold v) value)) := by
  unfold evaluate
  rw [evaluateCompiled_compileCondition, meaning]
  unfold stringTest
  rw [hvalues]
  cases operator with
  | «exists» => exact absurd rfl hoperator
  | _ => simp [StringOperator.isUniversal]

/-- The six tests against the text of the header itself. -/
def MatchesItself (casefold : String → String) (message : RuleMessage) (field : StringField)
    (header : Option String) (v : String) : Prop :=
  (∀ operator ∈ [StringOperator.equals, .contains, .startsWith, .endsWith],
    evaluate casefold message (.string field operator (some v) header) = .true) ∧
  ∀ operator ∈ [StringOperator.notEquals, .notContains],
    evaluate casefold message (.string field operator (some v) header) ≠ .true

/-- A message with one header of a field satisfies the tests against the text of that header
if and only if the text has no two blanks in a row. -/
theorem operand_matches_itself_iff (env : HeaderEnv) (hspace : env.caseFolding ' ' = [' '])
    (v : String) (hv : validateText "string test value" 2048 (8 * 1024) (some (.str v)) = .ok v)
    (field : StringField) (header : Option String) (items headers : List (String × String))
    (hheaders : env.normalizedHeaders 0 items = some headers) (name raw : String)
    (hone : (items.filter fun item =>
      env.casefold item.1 == env.casefold (headerName field header)) = [(name, raw)])
    (htext : env.HasText raw v.toList) (size : Nat)
    (hasAttachment : Bool) :
    MatchesItself env.casefold ⟨headers, size, hasAttachment, none, []⟩ field header v ↔
      ¬ [' ', ' '] <:+: v.toList := by
  have hplain := plain_of_validateText hv
  have hvalues := stringValues_one hheaders hone hplain htext size hasAttachment
  have hcollapse := collapseBlanks_eq_iff hplain false
  rw [if_neg (by decide)] at hcollapse
  rw [← hcollapse]
  unfold MatchesItself
  constructor
  · rintro ⟨hmatches, -⟩
    have hequals := hmatches .equals (by decide)
    rw [evaluate_one hvalues .equals (by decide)] at hequals
    by_contra hchanged
    obtain ⟨hle, heq⟩ := length_collapseBlanks hspace hplain false
    have hdiffers :
        env.casefold (String.ofList (collapseBlanks false v.toList)) ≠ env.casefold v := by
      intro hsame
      have hlength := congrArg (fun text => text.toList.length) hsame
      unfold HeaderEnv.casefold at hlength
      simp only [String.toList_ofList] at hlength
      exact hchanged (heq hlength)
    simp [Satisfies, hdiffers, Truth.ofBool] at hequals
  · intro hsame
    rw [hsame, String.ofList_toList] at hvalues
    constructor
    · intro operator hoperator
      have hne : operator ≠ .exists := by
        rintro rfl
        exact absurd hoperator (by decide)
      rw [evaluate_one hvalues operator hne]
      simp only [List.mem_cons, List.not_mem_nil, or_false] at hoperator
      rcases hoperator with rfl | rfl | rfl | rfl <;> simp [Satisfies, Truth.ofBool]
    · intro operator hoperator
      have hne : operator ≠ .exists := by
        rintro rfl
        exact absurd hoperator (by decide)
      rw [evaluate_one hvalues operator hne]
      simp only [List.mem_cons, List.not_mem_nil, or_false] at hoperator
      rcases hoperator with rfl | rfl <;> simp [Satisfies, Truth.ofBool]

end OneHeader

/-- Headers without encoded words, and the case folding of ASCII. -/
def asciiHeaderEnv : HeaderEnv where
  decodeHeader text := some [.text text]
  decode _ _ := none
  caseFolding c := [c.toLower]

theorem operand_matches_itself_iff_sample :
    MatchesItself asciiHeaderEnv.casefold ⟨[("subject", "hi you")], 20, false, none, []⟩
        .subject none "Hi you" ↔ ¬ [' ', ' '] <:+: "Hi you".toList :=
  operand_matches_itself_iff asciiHeaderEnv rfl "Hi you" rfl .subject none [("Subject", "Hi you")] _
    rfl
    "Subject" "Hi you" rfl (.inr ⟨rfl, fun _ _ => rfl⟩) 20 false

/-- A rule with the text of a subject that has two blanks in a row does not match that subject. -/
theorem double_blank_never_matches :
    validateText "string test value" 2048 (8 * 1024) (some (.str "a  b")) = .ok "a  b" ∧
      asciiHeaderEnv.normalizedHeaders 0 [("Subject", "a  b")] = some [("subject", "a b")] ∧
      ¬ MatchesItself asciiHeaderEnv.casefold ⟨[("subject", "a b")], 20, false, none, []⟩
        .subject none "a  b" := by
  refine ⟨rfl, by decide +kernel, ?_⟩
  rintro ⟨hmatches, -⟩
  have hequals := hmatches .equals (by decide)
  rw [@evaluate_one _ asciiHeaderEnv.casefold .subject none "a b" (by decide +kernel) .equals
    (by decide)] at hequals
  exact absurd hequals (by decide +kernel)

end MaddyWeb.Rules
