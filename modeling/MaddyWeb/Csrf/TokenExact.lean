import MaddyWeb.Csrf.Token

/-!
# What `verify_csrf_token` accepts

The five parts of a token are found again, so that an accepted token has the signature of its own
payload; it need not have the spelling of that payload, because the time of issue is rendered anew.
-/

namespace MaddyWeb.Csrf.Token

open MaddyWeb.Library

variable {hmac : List UInt8 → List UInt8 → List UInt8} {tables : UnicodeTables}

/-! ## Splitting -/

theorem splitMax_append {sep : Nat} {piece : Str} (h : sep ∉ piece) (maximum : Nat) (rest : Str) :
    splitMax sep (maximum + 1) (piece ++ sep :: rest) = piece :: splitMax sep maximum rest := by
  conv_lhs => unfold splitMax
  rw [Text.partition_singleton h]

theorem splitMax_eq_cons {sep : Nat} {maximum : Nat} {text piece next : Str} {rest : List Str}
    (h : splitMax sep (maximum + 1) text = piece :: next :: rest) :
    ∃ after, text = piece ++ sep :: after ∧ sep ∉ piece ∧
      splitMax sep maximum after = next :: rest := by
  unfold splitMax at h
  split at h
  · cases h
  · next before after hpartition =>
      obtain ⟨htext, hbefore⟩ := Text.eq_of_partition_singleton hpartition
      injection h with hpiece hrest
      subst hpiece
      exact ⟨after, htext, hbefore, hrest⟩

theorem splitMax_zero {sep : Nat} {text piece : Str} (h : splitMax sep 0 text = [piece]) :
    text = piece := List.cons.inj h |>.1

/-- A text with its five parts between dots. -/
def spelling (version issuedText flowId nonce signature : Str) : Str :=
  version ++ dot :: (issuedText ++ dot :: (flowId ++ dot :: (nonce ++ dot :: signature)))

theorem splitMax_spelling {version issuedText flowId nonce : Str} (hversion : dot ∉ version)
    (hissued : dot ∉ issuedText) (hflow : dot ∉ flowId) (hnonce : dot ∉ nonce) (signature : Str) :
    splitMax dot 4 (spelling version issuedText flowId nonce signature) =
      [version, issuedText, flowId, nonce, signature] := by
  unfold spelling
  rw [splitMax_append hversion, splitMax_append hissued, splitMax_append hflow,
    splitMax_append hnonce]
  rfl

theorem eq_spelling {token version issuedText flowId nonce signature : Str}
    (h : splitMax dot 4 token = [version, issuedText, flowId, nonce, signature]) :
    token = spelling version issuedText flowId nonce signature ∧
      dot ∉ version ∧ dot ∉ issuedText ∧ dot ∉ flowId ∧ dot ∉ nonce := by
  obtain ⟨_, rfl, hversion, h⟩ := splitMax_eq_cons h
  obtain ⟨_, rfl, hissued, h⟩ := splitMax_eq_cons h
  obtain ⟨_, rfl, hflow, h⟩ := splitMax_eq_cons h
  obtain ⟨_, rfl, hnonce, h⟩ := splitMax_eq_cons h
  rw [splitMax_zero h]
  exact ⟨rfl, hversion, hissued, hflow, hnonce⟩

/-! ## Numerals -/

theorem codes_digits {n c : Nat} (h : c ∈ codes (Decimal.digits n)) : 0x30 ≤ c ∧ c ≤ 0x39 := by
  obtain ⟨d, hd, rfl⟩ := List.mem_map.mp h
  exact Decimal.toNat_of_isDigit (Decimal.isDigit_of_mem_digits hd)

theorem codes_decimal {i : Int} {c : Nat} (h : c ∈ codes (Decimal.decimal i)) :
    c = 0x2D ∨ (0x30 ≤ c ∧ c ≤ 0x39) := by
  unfold Decimal.decimal at h
  split at h
  · rcases List.mem_cons.mp h with rfl | h
    · exact Or.inl rfl
    · exact Or.inr (codes_digits h)
  · exact Or.inr (codes_digits h)

theorem dot_not_mem_decimal (i : Int) : dot ∉ codes (Decimal.decimal i) := by
  intro h
  rcases codes_decimal h with h | h
  · cases h
  · have := h.1
    contradiction

theorem natural_digits (tables : UnicodeTables) (n : Nat) :
    natural tables (codes (Decimal.digits n)) = some n := by
  have hunderscore : 0x5F ∉ codes (Decimal.digits n) := fun h => by
    have := (codes_digits h).2
    contradiction
  have hne : codes (Decimal.digits n) ≠ [] := fun h =>
    Decimal.digits_ne_nil n (List.map_eq_nil_iff.mp h)
  have hdecimal : ∀ c ∈ codes (Decimal.digits n), tables.decimal c = some (c - 0x30) := by
    intro c hc
    have hrange := codes_digits hc
    rw [tables.decimal_ascii c (by omega), if_pos hrange]
  have hsplit : Text.split [0x5F] (codes (Decimal.digits n)) = [codes (Decimal.digits n)] :=
    Text.splitFrom_singleton hunderscore []
  have hfilter : (codes (Decimal.digits n)).filter (· != 0x5F) = codes (Decimal.digits n) := by
    apply List.filter_eq_self.mpr
    intro c hc
    exact bne_iff_ne.mpr fun heq => hunderscore (heq ▸ hc)
  have hfold : ∀ (text : List Char) (v : Nat),
      (∀ c ∈ codes text, tables.decimal c = some (c - 0x30)) →
        (codes text).foldl (fun v c => 10 * v + (tables.decimal c).getD 0) v =
          text.foldl (fun v c => 10 * v + (c.toNat - 0x30)) v := by
    intro text
    induction text with
    | nil => exact fun _ _ => rfl
    | cons c text ih =>
        intro v htext
        have hc := htext c.toNat List.mem_cons_self
        show (codes text).foldl _ (10 * v + (tables.decimal c.toNat).getD 0) = _
        rw [hc]
        exact ih _ fun d hd => htext d (List.mem_cons_of_mem _ hd)
  unfold natural
  rw [hsplit, if_pos, hfilter, hfold _ _ hdecimal]
  · exact congrArg some (Decimal.value_digits n)
  · rw [List.all_cons, List.all_nil, Bool.and_true, Bool.and_eq_true, Bool.not_eq_true',
      List.isEmpty_eq_false_iff, List.all_eq_true]
    refine ⟨hne, fun c hc => ?_⟩
    rw [hdecimal c hc]
    rfl

/-- `int(str(i)) == i` -/
theorem int_decimal (tables : UnicodeTables) (i : Int) :
    int tables (codes (Decimal.decimal i)) = some i := by
  have hstrip : Text.stripBy (isIntSpace tables) (codes (Decimal.decimal i)) =
      codes (Decimal.decimal i) := by
    apply Text.stripBy_of_no_blank
    intro c hc
    have hrange : 0x2D ≤ c ∧ c ≤ 0x39 := by
      rcases codes_decimal hc with rfl | h
      · decide
      · omega
    unfold isIntSpace
    rw [beq_eq_false_iff_ne.mpr (by omega : c ≠ 0x20), decide_eq_false (by omega : ¬ c ≤ 0x0D),
      decide_eq_false (by omega : ¬ 0x80 ≤ c), Bool.and_false, Bool.false_and]
    rfl
  unfold int
  rw [hstrip]
  unfold Decimal.decimal
  by_cases hneg : i < 0
  · have hmatch : codes ('-' :: Decimal.digits i.natAbs) =
        0x2D :: codes (Decimal.digits i.natAbs) := rfl
    rw [if_pos hneg, hmatch]
    show (natural tables (codes (Decimal.digits i.natAbs))).map (fun n : Nat => -(n : Int)) = some i
    rw [natural_digits, Option.map_some]
    exact congrArg some (by omega)
  · rw [if_neg hneg]
    have hnatural := natural_digits tables i.natAbs
    split
    · next rest heq =>
        have := codes_digits (heq ▸ List.mem_cons_self : 0x2D ∈ codes (Decimal.digits i.natAbs))
        omega
    · next rest heq =>
        have := codes_digits (heq ▸ List.mem_cons_self : 0x2B ∈ codes (Decimal.digits i.natAbs))
        omega
    · rw [hnatural, Option.map_some]
      exact congrArg some (Int.natAbs_of_nonneg (Int.not_lt.mp hneg))

/-! ## Signatures -/

theorem urlsafe_lt {b : UInt8} (h : b.toNat < 0x80) : (urlsafe b).toNat < 0x80 := by
  unfold urlsafe
  split
  · decide
  · split
    · decide
    · exact h

theorem signature_ascii (key : List UInt8) (payload : Str) :
    ∀ c ∈ signature hmac key payload, c < 0x80 := by
  intro c hc
  unfold signature b64encode at hc
  obtain ⟨b, hb, rfl⟩ := List.mem_map.mp hc
  have hb := (List.dropWhile_suffix _).subset (List.mem_reverse.mp hb)
  obtain ⟨b', hb', rfl⟩ := List.mem_map.mp (List.mem_reverse.mp hb)
  exact urlsafe_lt (Base64.encode_lt b' hb')

theorem all_ascii_iff {text : Str} : text.all (· < 0x80) = true ↔ ∀ c ∈ text, c < 0x80 := by
  rw [List.all_eq_true]
  exact ⟨fun h c hc => of_decide_eq_true (h c hc), fun h c hc => decide_eq_true (h c hc)⟩

theorem payload_ascii_iff {issuedAt : Int} {flowId nonce : Str} :
    (∀ c ∈ payloadOf issuedAt flowId nonce, c < 0x80) ↔
      (∀ c ∈ flowId, c < 0x80) ∧ ∀ c ∈ nonce, c < 0x80 := by
  have hversion : ∀ c ∈ codes "v2".toList, c < 0x80 := by decide
  have hissued : ∀ c ∈ codes (Decimal.decimal issuedAt), c < 0x80 := by
    intro c hc
    rcases codes_decimal hc with rfl | h
    · decide
    · omega
  unfold payloadOf
  constructor
  · intro h
    exact ⟨fun c hc => h c (by simp [hc]), fun c hc => h c (by simp [hc])⟩
  · rintro ⟨hflow, hnonce⟩ c hc
    simp only [List.mem_append, List.mem_cons] at hc
    rcases hc with hc | rfl | hc | rfl | hc | rfl | hc
    · exact hversion c hc
    · decide
    · exact hissued c hc
    · decide
    · exact hflow c hc
    · decide
    · exact hnonce c hc

/-! ## Fields -/

theorem validFlow_iff {flowId : Str} : validFlow tables flowId = true ↔
    16 ≤ flowId.length ∧ flowId.length ≤ 32 ∧
      ∀ c ∈ flowId, (tables.isalnum c || c == 0x5F || c == 0x2D) = true := by
  unfold validFlow
  rw [Bool.and_eq_true, Bool.and_eq_true, decide_eq_true_eq, decide_eq_true_eq, List.all_eq_true,
    and_assoc]

theorem fields_eq_some {token : Str} {f : Fields} (h : fields tables token = some f) :
    token = spelling (codes "v2".toList) f.issuedText f.flowId f.nonce f.signature ∧
      splitMax dot 4 token = [codes "v2".toList, f.issuedText, f.flowId, f.nonce, f.signature] ∧
      token.length ≤ 256 ∧ containsForbiddenHeaderCharacters token = false ∧
      validFlow tables f.flowId = true ∧ f.nonce ≠ [] ∧ f.nonce.length ≤ 64 := by
  unfold fields at h
  split at h
  · cases h
  · next hshape =>
      rw [Bool.or_eq_true, not_or, decide_eq_true_eq, Bool.not_eq_true] at hshape
      split at h
      · next version issuedText flowId nonce signature hsplit =>
          split at h
          · cases h
          · next issuedAt hint =>
              split at h
              · cases h
              · next hparts =>
                  cases h
                  simp only [Bool.or_eq_true, not_or, bne_iff_ne, ne_eq, not_not,
                    Bool.not_eq_true', Bool.not_eq_false, List.isEmpty_iff,
                    decide_eq_true_eq] at hparts
                  obtain ⟨⟨⟨rfl, hflow⟩, hnonce⟩, hlength⟩ := hparts
                  exact ⟨(eq_spelling hsplit).1, hsplit, Nat.not_lt.mp hshape.1, hshape.2, hflow,
                    hnonce, Nat.not_lt.mp hlength⟩
      · cases h

/-! ## Genuine tokens -/

/-- A token in its one spelling, with the signature of its payload, in its time. -/
structure Genuine (hmac : List UInt8 → List UInt8 → List UInt8) (token : Str) (key : List UInt8)
    (maxAge now : Int) (r : Str × Int × Str) : Prop where
  spelled : token = payloadOf r.2.1 r.2.2 r.1 ++
    dot :: signature hmac key (payloadOf r.2.1 r.2.2 r.1)
  flow : 16 ≤ r.2.2.length ∧ r.2.2.length ≤ 32 ∧
    ∀ c ∈ r.2.2, (isAsciiAlnum c || c == 0x5F || c == 0x2D) = true
  nonce : r.1 ≠ [] ∧ r.1.length ≤ 64 ∧ ∀ c ∈ r.1, c < 0x80 ∧ c ≠ dot
  fresh : -60 ≤ now - r.2.1 ∧ now - r.2.1 ≤ maxAge

variable {token : Str} {key : List UInt8} {maxAge now : Int} {r : Str × Int × Str} {f : Fields}

theorem payloadOf_append (issuedAt : Int) (flowId nonce signature : Str) :
    payloadOf issuedAt flowId nonce ++ dot :: signature =
      spelling (codes "v2".toList) (codes (Decimal.decimal issuedAt)) flowId nonce signature := by
  unfold payloadOf spelling
  simp only [List.append_assoc, List.cons_append]

theorem isAsciiAlnum_lt {c : Nat} (h : (isAsciiAlnum c || c == 0x5F || c == 0x2D) = true) :
    c < 0x80 := by
  unfold isAsciiAlnum at h
  simp only [Bool.or_eq_true, Bool.and_eq_true, decide_eq_true_eq, beq_iff_eq] at h
  omega

theorem expired_eq_false_iff {issuedAt : Int} : expired issuedAt now maxAge = false ↔
    -60 ≤ now - issuedAt ∧ now - issuedAt ≤ maxAge := by
  unfold expired
  rw [Bool.or_eq_false_iff, decide_eq_false_iff_not, decide_eq_false_iff_not]
  omega

/-- The parts of a genuine token are found again, however long it is. -/
theorem Genuine.split (h : Genuine hmac token key maxAge now r) :
    splitMax dot 4 token = [codes "v2".toList, codes (Decimal.decimal r.2.1), r.2.2, r.1,
      signature hmac key (payloadOf r.2.1 r.2.2 r.1)] := by
  rw [h.spelled, payloadOf_append]
  apply splitMax_spelling (by decide) (dot_not_mem_decimal _)
  · intro hmem
    have hdot := h.flow.2.2 dot hmem
    revert hdot
    decide
  · exact fun hmem => (h.nonce.2.2 dot hmem).2 rfl

theorem Genuine.fields (h : Genuine hmac token key maxAge now r) (tables : UnicodeTables)
    (hlength : token.length ≤ 256) (hclean : containsForbiddenHeaderCharacters token = false) :
    fields tables token = some ⟨codes (Decimal.decimal r.2.1), r.2.1, r.2.2, r.1,
      signature hmac key (payloadOf r.2.1 r.2.2 r.1)⟩ := by
  have hflow : validFlow tables r.2.2 = true := by
    refine validFlow_iff.mpr ⟨h.flow.1, h.flow.2.1, fun c hc => ?_⟩
    have hc := h.flow.2.2 c hc
    rw [tables.isalnum_ascii c (isAsciiAlnum_lt hc)]
    exact hc
  unfold Token.fields
  rw [if_neg, h.split]
  · dsimp only
    rw [int_decimal]
    dsimp only
    rw [if_neg]
    simp only [Bool.or_eq_true, not_or, bne_self_eq_false, Bool.false_eq_true, not_false_eq_true,
      hflow, Bool.not_true, List.isEmpty_iff, decide_eq_true_eq, true_and]
    exact ⟨h.nonce.1, Nat.not_lt.mpr h.nonce.2.1⟩
  · rw [hclean, Bool.or_false, decide_eq_true_eq]
    omega

/-! ## Verification -/

/-- Text that neither encoding nor comparing fails on. -/
def Encodable (f : Fields) : Prop := ∀ c ∈ f.flowId ++ f.nonce ++ f.signature, c < 0x80

theorem encodable_iff : Encodable f ↔
    (∀ c ∈ payloadOf f.issuedAt f.flowId f.nonce, c < 0x80) ∧ ∀ c ∈ f.signature, c < 0x80 := by
  rw [payload_ascii_iff]
  unfold Encodable
  simp only [List.mem_append, or_imp, forall_and]

theorem csrfSignature_of_ascii {payload : Str} (h : ∀ c ∈ payload, c < 0x80) :
    csrfSignature hmac key payload = .ok (signature hmac key payload) := by
  unfold csrfSignature
  rw [if_pos (all_ascii_iff.mpr h)]

theorem compareDigest_of_ascii {a b : Str} (ha : ∀ c ∈ a, c < 0x80) (hb : ∀ c ∈ b, c < 0x80) :
    compareDigest a b = .ok (a == b) := by
  unfold compareDigest
  rw [all_ascii_iff.mpr ha, all_ascii_iff.mpr hb, Bool.and_true, if_pos rfl]

theorem verify_of_encodable (hfields : fields tables token = some f)
    (hfresh : expired f.issuedAt now maxAge = false) (h : Encodable f) :
    verifyCsrfToken hmac tables token key maxAge now =
      .ok (if f.signature = signature hmac key (payloadOf f.issuedAt f.flowId f.nonce) then
        some (f.nonce, f.issuedAt, f.flowId) else none) := by
  obtain ⟨hpayload, hsignature⟩ := encodable_iff.mp h
  unfold verifyCsrfToken
  rw [hfields]
  dsimp only
  rw [hfresh, if_neg Bool.false_ne_true, csrfSignature_of_ascii hpayload]
  dsimp only [bind, Except.bind]
  rw [compareDigest_of_ascii hsignature (signature_ascii key _)]
  dsimp only
  split
  · next heq => rw [if_pos (beq_iff_eq.mp heq)]; rfl
  · next hne => rw [if_neg fun heq => hne (beq_iff_eq.mpr heq)]; rfl

theorem encodable_of_verify (hfields : fields tables token = some f)
    (hfresh : expired f.issuedAt now maxAge = false) {result : Option (Str × Int × Str)}
    (h : verifyCsrfToken hmac tables token key maxAge now = .ok result) : Encodable f := by
  unfold verifyCsrfToken csrfSignature compareDigest at h
  rw [hfields] at h
  dsimp only at h
  rw [hfresh] at h
  apply encodable_iff.mpr
  by_cases hpayload : (payloadOf f.issuedAt f.flowId f.nonce).all (· < 0x80) = true
  · rw [hpayload] at h
    by_cases hsignature : f.signature.all (· < 0x80) = true
    · exact ⟨all_ascii_iff.mp hpayload, all_ascii_iff.mp hsignature⟩
    · rw [Bool.not_eq_true] at hsignature
      rw [hsignature] at h
      cases h
  · rw [Bool.not_eq_true] at hpayload
    rw [hpayload] at h
    cases h

theorem verify_of_none (h : fields tables token = none) :
    verifyCsrfToken hmac tables token key maxAge now = .ok none := by
  unfold verifyCsrfToken
  rw [h]

theorem verify_of_expired (hfields : fields tables token = some f)
    (hexpired : expired f.issuedAt now maxAge = true) :
    verifyCsrfToken hmac tables token key maxAge now = .ok none := by
  unfold verifyCsrfToken
  rw [hfields]
  dsimp only
  rw [hexpired]
  rfl

/-- Text of `secrets.token_urlsafe`. -/
def IsUrlsafe (length : Nat) (text : Str) : Prop :=
  text.length = length ∧ ∀ c ∈ text, (isAsciiAlnum c || c == 0x5F || c == 0x2D) = true

/-- What is to hold of a token. -/
structure Exact (hmac : List UInt8 → List UInt8 → List UInt8) (tables : UnicodeTables)
    (token : Str) (key : List UInt8) (maxAge now : Int) : Prop where
  total : ∃ result, verifyCsrfToken hmac tables token key maxAge now = .ok result
  decided : ∀ r, verifyCsrfToken hmac tables token key maxAge now = .ok (some r) ↔
    Genuine hmac token key maxAge now r
  issued : ∀ issuedAt flowId nonce, IsUrlsafe 32 nonce →
    newCsrfToken hmac tables key issuedAt flowId nonce = .ok token →
      -60 ≤ now - issuedAt → now - issuedAt ≤ maxAge →
        verifyCsrfToken hmac tables token key maxAge now = .ok (some (nonce, issuedAt, flowId))

/-- A token that is not expired has ASCII parts, and a canonical time of issue if its signature is
right; and a genuine one is short and free of control characters. -/
structure Regular (hmac : List UInt8 → List UInt8 → List UInt8) (tables : UnicodeTables)
    (token : Str) (key : List UInt8) (maxAge now : Int) : Prop where
  encodable :
    ∀ f, fields tables token = some f → expired f.issuedAt now maxAge = false → Encodable f
  canonical : ∀ f, fields tables token = some f → expired f.issuedAt now maxAge = false →
    f.signature = signature hmac key (payloadOf f.issuedAt f.flowId f.nonce) →
      f.issuedText = codes (Decimal.decimal f.issuedAt)
  plain : ∀ r, Genuine hmac token key maxAge now r →
    token.length ≤ 256 ∧ containsForbiddenHeaderCharacters token = false

theorem Exact.regular (h : Exact hmac tables token key maxAge now) :
    Regular hmac tables token key maxAge now := by
  obtain ⟨result, hresult⟩ := h.total
  have hencodable : ∀ f, fields tables token = some f →
      expired f.issuedAt now maxAge = false → Encodable f :=
    fun f hfields hfresh => encodable_of_verify hfields hfresh hresult
  refine ⟨hencodable, ?_, ?_⟩
  · intro f hfields hfresh hsignature
    have hverify : verifyCsrfToken hmac tables token key maxAge now = _ :=
      verify_of_encodable hfields hfresh (hencodable f hfields hfresh)
    rw [if_pos hsignature] at hverify
    have hsplit := ((h.decided _).mp hverify).split
    rw [(fields_eq_some hfields).2.1] at hsplit
    exact (List.cons.inj (List.cons.inj hsplit).2).1
  · intro r hr
    have hverify := (h.decided r).mpr hr
    cases hfields : fields tables token with
    | none =>
        rw [verify_of_none hfields] at hverify
        cases hverify
    | some f =>
        obtain ⟨-, -, hlength, hclean, -⟩ := fields_eq_some hfields
        exact ⟨hlength, hclean⟩

/-- The parts of a regular token that is accepted make it genuine. -/
theorem Regular.genuine (h : Regular hmac tables token key maxAge now)
    (hfields : fields tables token = some f) (hfresh : expired f.issuedAt now maxAge = false)
    (hsignature : f.signature = signature hmac key (payloadOf f.issuedAt f.flowId f.nonce)) :
    Genuine hmac token key maxAge now (f.nonce, f.issuedAt, f.flowId) := by
  obtain ⟨htoken, hsplit, -, -, hflow, hnonce, hlength⟩ := fields_eq_some hfields
  have hencodable := h.encodable f hfields hfresh
  obtain ⟨hshort, hlong, hflow⟩ := validFlow_iff.mp hflow
  refine ⟨?_, ⟨hshort, hlong, ?_⟩, ⟨hnonce, hlength, ?_⟩, expired_eq_false_iff.mp hfresh⟩
  · rw [payloadOf_append, ← hsignature, ← h.canonical f hfields hfresh hsignature]
    exact htoken
  · intro c hc
    have hc' := hflow c hc
    rw [tables.isalnum_ascii c (hencodable c (by simp [hc]))] at hc'
    exact hc'
  · intro c hc
    refine ⟨hencodable c (by simp [hc]), ?_⟩
    rintro rfl
    exact (eq_spelling hsplit).2.2.2.2 hc

theorem Regular.decided (h : Regular hmac tables token key maxAge now) (r : Str × Int × Str) :
    verifyCsrfToken hmac tables token key maxAge now = .ok (some r) ↔
      Genuine hmac token key maxAge now r := by
  constructor
  · intro hverify
    cases hfields : fields tables token with
    | none =>
        rw [verify_of_none hfields] at hverify
        cases hverify
    | some f =>
        cases hexpired : expired f.issuedAt now maxAge with
        | true =>
            rw [verify_of_expired hfields hexpired] at hverify
            cases hverify
        | false =>
            rw [verify_of_encodable hfields hexpired (h.encodable f hfields hexpired)] at hverify
            split at hverify
            · next hsignature =>
                cases hverify
                exact h.genuine hfields hexpired hsignature
            · cases hverify
  · intro hr
    obtain ⟨hlength, hclean⟩ := h.plain r hr
    have hfields := hr.fields tables hlength hclean
    have hfresh : expired r.2.1 now maxAge = false := expired_eq_false_iff.mpr hr.fresh
    rw [verify_of_encodable hfields hfresh (h.encodable _ hfields hfresh), if_pos rfl]

theorem newCsrfToken_genuine {issuedAt : Int} {flowId nonce : Str} (hnonce : IsUrlsafe 32 nonce)
    (hnew : newCsrfToken hmac tables key issuedAt flowId nonce = .ok token)
    (hfresh : -60 ≤ now - issuedAt ∧ now - issuedAt ≤ maxAge) :
    Genuine hmac token key maxAge now (nonce, issuedAt, flowId) := by
  unfold newCsrfToken csrfSignature at hnew
  split at hnew
  · cases hnew
  · next hflow =>
      rw [Bool.not_eq_true, Bool.not_eq_false'] at hflow
      obtain ⟨hshort, hlong, hflow⟩ := validFlow_iff.mp hflow
      dsimp only at hnew
      split at hnew
      · next hascii =>
          cases hnew
          obtain ⟨hflowAscii, -⟩ := payload_ascii_iff.mp (all_ascii_iff.mp hascii)
          refine ⟨rfl, ⟨hshort, hlong, ?_⟩, ⟨?_, by rw [hnonce.1]; decide, ?_⟩, hfresh⟩
          · intro c hc
            have hc' := hflow c hc
            rwa [tables.isalnum_ascii c (hflowAscii c hc)] at hc'
          · apply List.ne_nil_of_length_pos
            rw [hnonce.1]
            decide
          · intro c hc
            refine ⟨isAsciiAlnum_lt (hnonce.2 c hc), ?_⟩
            rintro rfl
            have hdot := hnonce.2 dot hc
            revert hdot
            decide
      · cases hnew

/-- Verification is exact on the regular tokens. -/
theorem verify_exact_iff (hmac : List UInt8 → List UInt8 → List UInt8) (tables : UnicodeTables)
    (token : Str) (key : List UInt8) (maxAge now : Int) :
    Exact hmac tables token key maxAge now ↔ Regular hmac tables token key maxAge now := by
  refine ⟨Exact.regular, fun h => ⟨?_, h.decided, ?_⟩⟩
  · cases hfields : fields tables token with
    | none => exact ⟨none, verify_of_none hfields⟩
    | some f =>
        cases hexpired : expired f.issuedAt now maxAge with
        | true => exact ⟨none, verify_of_expired hfields hexpired⟩
        | false => exact ⟨_, verify_of_encodable hfields hexpired (h.encodable f hfields hexpired)⟩
  · intro issuedAt flowId nonce hnonce hnew hearly hlate
    exact (h.decided _).mpr (newCsrfToken_genuine hnonce hnew ⟨hearly, hlate⟩)

/-- The tables of ASCII alone. -/
def asciiTables : UnicodeTables where
  isalnum c := c < 0x80 && isAsciiAlnum c
  decimal c := if 0x30 ≤ c ∧ c ≤ 0x39 then some (c - 0x30) else none
  isspace _ := false
  isalnum_ascii c hc := by rw [decide_eq_true hc, Bool.true_and]
  decimal_ascii _ _ := rfl

/-- A cookie whose nonce is the letter é. -/
def accented : Str := codes "v2.0.aaaaaaaaaaaaaaaa.é.s".toList

/-- The payload of such a cookie cannot be encoded, and the error is not caught. -/
theorem accented_nonce_raises :
    ¬ ∀ hmac tables token key maxAge now, Exact hmac tables token key maxAge now := by
  intro h
  obtain ⟨result, hresult⟩ := (h (fun _ _ => []) asciiTables accented [] 3600 0).total
  have hraises : verifyCsrfToken (fun _ _ => []) asciiTables accented [] 3600 0 =
      .error .unicodeEncode := by decide +kernel
  rw [hraises] at hresult
  cases hresult

end MaddyWeb.Csrf.Token
