import MaddyWeb.Mail.Reply

/-!
# Who a reply goes to

The two destinations share the keys they have seen, so that each of them is what `keepNew` keeps
of its source.  A reply goes to the addresses of the message that are valid and not the user's
own, unless the parser raises for one of them.
-/

namespace MaddyWeb.Mail

open MaddyWeb.Library
open MaddyWeb.Library.Text (isControl)

variable {parser : AddressParser}

theorem appendUnique_of_mem {collected : Collected} {item : Str × Str}
    (h : item.2 ∈ collected.2) : appendUnique collected item = (collected, false) := by
  unfold appendUnique
  rw [if_pos h]

theorem appendUnique_of_not_mem {collected : Collected} {item : Str × Str}
    (h : item.2 ∉ collected.2) :
    appendUnique collected item = ((collected.1 ++ [item.1], item.2 :: collected.2), true) := by
  unfold appendUnique
  rw [if_neg h]

/-- The destination and the keys after some items have been appended. -/
def after (collected : Collected) (items : List (Str × Str)) : Collected :=
  (collected.1 ++ items.map Prod.fst, (items.map Prod.snd).reverse ++ collected.2)

theorem after_nil (collected : Collected) : after collected [] = collected := by
  unfold after
  rw [List.map_nil, List.append_nil]
  rfl

theorem after_cons (collected : Collected) (item : Str × Str) (items : List (Str × Str)) :
    after (collected.1 ++ [item.1], item.2 :: collected.2) items =
      after collected (item :: items) := by
  unfold after
  rw [List.map_cons, List.map_cons, List.reverse_cons, List.append_assoc, List.append_assoc]
  rfl

theorem appendAll_eq (collected : Collected) (items : List (Str × Str)) :
    appendAll collected items =
      after collected (Unique.keepNew Prod.snd collected.2 items) := by
  induction items generalizing collected with
  | nil => exact (after_nil collected).symm
  | cons item items ih =>
      unfold appendAll at ih ⊢
      rw [List.foldl_cons]
      unfold Unique.keepNew
      by_cases h : item.2 ∈ collected.2
      · rw [if_pos h, appendUnique_of_mem h]
        exact ih collected
      · rw [if_neg h, appendUnique_of_not_mem h, ← after_cons]
        exact ih _

theorem appendFirst_eq (collected : Collected) (items : List (Str × Str)) :
    appendFirst collected items =
      after collected ((Unique.keepNew Prod.snd collected.2 items).take 1) := by
  induction items with
  | nil => exact (after_nil collected).symm
  | cons item items ih =>
      unfold appendFirst Unique.keepNew
      by_cases h : item.2 ∈ collected.2
      · rw [if_pos h, appendUnique_of_mem h]
        exact ih
      · rw [if_neg h, appendUnique_of_not_mem h, List.take_succ_cons, List.take_zero,
          ← after_cons, after_nil]
        rfl

/-! ## The chosen items -/

section Chosen

variable (keys : List Str) (primary original : List (Str × Str))

/-- Whom the reply is addressed to. -/
def chosenTo : List (Str × Str) :=
  let fromPrimary := Unique.keepNew Prod.snd keys primary
  if fromPrimary.isEmpty then (Unique.keepNew Prod.snd keys original).take 1 else fromPrimary

/-- Who gets a copy. -/
def chosenCc (replyAll : Bool) : List (Str × Str) :=
  if replyAll then
    Unique.keepNew Prod.snd (((chosenTo keys primary original).map Prod.snd).reverse ++ keys)
      original
  else []

theorem chosenTo_sublist :
    (chosenTo keys primary original).Sublist (Unique.keepNew Prod.snd keys primary) ∨
      (chosenTo keys primary original).Sublist (Unique.keepNew Prod.snd keys original) := by
  unfold chosenTo
  dsimp only
  split
  · exact Or.inr (List.take_sublist 1 _)
  · exact Or.inl (List.Sublist.refl _)

variable {keys primary original}

theorem mem_of_mem_chosenTo {item : Str × Str} (h : item ∈ chosenTo keys primary original) :
    item ∈ primary ++ original ∧ item.2 ∉ keys := by
  rcases chosenTo_sublist keys primary original with hsub | hsub
  · exact ⟨List.mem_append_left _ ((Unique.keepNew_sublist keys primary).subset (hsub.subset h)),
      Unique.keepNew_not_seen item (hsub.subset h)⟩
  · exact ⟨List.mem_append_right _ ((Unique.keepNew_sublist keys original).subset (hsub.subset h)),
      Unique.keepNew_not_seen item (hsub.subset h)⟩

theorem chosenTo_nodup : ((chosenTo keys primary original).map Prod.snd).Nodup := by
  rcases chosenTo_sublist keys primary original with hsub | hsub
  · exact (Unique.keepNew_nodup keys primary).sublist (hsub.map Prod.snd)
  · exact (Unique.keepNew_nodup keys original).sublist (hsub.map Prod.snd)

/-- The primary addresses are all chosen, the user's own apart. -/
theorem chosenTo_covers {item : Str × Str} (h : item ∈ primary) (hkey : item.2 ∉ keys) :
    item.2 ∈ (chosenTo keys primary original).map Prod.snd := by
  rcases Unique.keepNew_covers Prod.snd keys item h with hseen | ⟨y, hy, heq⟩
  · exact absurd hseen hkey
  · unfold chosenTo
    dsimp only
    rw [if_neg (by rw [List.isEmpty_iff]; exact List.ne_nil_of_mem hy)]
    exact List.mem_map.mpr ⟨y, hy, heq⟩

theorem chosenTo_ne_nil {item : Str × Str} (h : item ∈ primary ++ original)
    (hkey : item.2 ∉ keys) : chosenTo keys primary original ≠ [] := by
  rcases List.mem_append.mp h with h | h
  · intro hnil
    have hmem : item.2 ∈ (chosenTo keys primary original).map Prod.snd := chosenTo_covers h hkey
    rw [hnil] at hmem
    cases hmem
  · rcases Unique.keepNew_covers Prod.snd keys item h with hseen | ⟨y, hy, -⟩
    · exact absurd hseen hkey
    · unfold chosenTo
      dsimp only
      split
      · rw [Ne, List.take_eq_nil_iff, not_or]
        exact ⟨Nat.one_ne_zero, List.ne_nil_of_mem hy⟩
      · next hne => exact fun hnil => hne (List.isEmpty_iff.mpr hnil)

theorem mem_of_mem_chosenCc {replyAll : Bool} {item : Str × Str}
    (h : item ∈ chosenCc keys primary original replyAll) :
    item ∈ original ∧ item.2 ∉ keys ∧
      item.2 ∉ (chosenTo keys primary original).map Prod.snd := by
  unfold chosenCc at h
  split at h
  · have hnew := Unique.keepNew_not_seen item h
    rw [List.mem_append, List.mem_reverse, not_or] at hnew
    exact ⟨(Unique.keepNew_sublist _ original).subset h, hnew.2, hnew.1⟩
  · cases h

theorem chosen_nodup (replyAll : Bool) :
    ((chosenTo keys primary original ++ chosenCc keys primary original replyAll).map
      Prod.snd).Nodup := by
  rw [List.map_append, List.nodup_append]
  refine ⟨chosenTo_nodup, ?_, ?_⟩
  · unfold chosenCc
    split
    · exact Unique.keepNew_nodup _ original
    · exact List.nodup_nil
  · rintro a ha b hb rfl
    obtain ⟨item, hitem, rfl⟩ := List.mem_map.mp hb
    exact (mem_of_mem_chosenCc hitem).2.2 ha

theorem chosen_covers {item : Str × Str} (h : item ∈ primary ++ original) (hkey : item.2 ∉ keys) :
    item.2 ∈ (chosenTo keys primary original ++ chosenCc keys primary original true).map
      Prod.snd := by
  rw [List.map_append, List.mem_append]
  rcases List.mem_append.mp h with h | h
  · exact Or.inl (chosenTo_covers h hkey)
  · rcases Unique.keepNew_covers Prod.snd
      (((chosenTo keys primary original).map Prod.snd).reverse ++ keys) item h
        with hseen | ⟨y, hy, heq⟩
    · rcases List.mem_append.mp hseen with hseen | hseen
      · exact Or.inl (List.mem_reverse.mp hseen)
      · exact absurd hseen hkey
    · exact Or.inr (List.mem_map.mpr ⟨y, hy, heq⟩)

end Chosen

/-! ## Valid addresses -/

/-- The parser takes the entry for an address with both parts. -/
structure Valid (parser : AddressParser) (entry : Str × Str) (address : Address) : Prop where
  isAddress : entry.2 ≠ [] ∧ '@' ∈ entry.2
  constructed : parser.address entry.1 entry.2 = .address address
  parts : address.username ≠ [] ∧ address.domain ≠ []

/-- A valid address of these header values, as its text and its key. -/
def IsReceived (parser : AddressParser) (values : List Str) (item : Str × Str) : Prop :=
  ∃ entry ∈ parser.getaddresses (values.map rendered), ∃ address, Valid parser entry address ∧
    item = (address.text, parser.casefold address.addrSpec)

/-- One of the entries of these header values makes the constructor raise what nobody catches. -/
def Raises (parser : AddressParser) (values : List Str) : Prop :=
  ∃ entry ∈ parser.getaddresses (values.map rendered), (entry.2 ≠ [] ∧ '@' ∈ entry.2) ∧
    parser.address entry.1 entry.2 = .raised

section Parser

variable {entry : Str × Str} {address : Address} {values : List Str} {items : List (Str × Str)}

theorem isAddress_iff : (entry.2.isEmpty || !entry.2.contains '@') = false ↔
    entry.2 ≠ [] ∧ '@' ∈ entry.2 := by
  rw [Bool.or_eq_false_iff, List.isEmpty_eq_false_iff, Bool.not_eq_false', List.contains_iff_mem]

theorem validAddress_eq_some_iff :
    validAddress parser entry.1 entry.2 = .ok (some address) ↔ Valid parser entry address := by
  unfold validAddress
  constructor
  · intro h
    split at h
    · cases h
    next hspec =>
    split at h
    · next found hfound =>
        split at h
        · cases h
        next hparts =>
        cases h
        rw [Bool.or_eq_true, not_or, List.isEmpty_iff, List.isEmpty_iff] at hparts
        exact ⟨isAddress_iff.mp (Bool.not_eq_true _ ▸ hspec), hfound, hparts⟩
    · cases h
    · cases h
  · intro h
    rw [if_neg (by rw [isAddress_iff.mpr h.isAddress]; exact Bool.false_ne_true), h.constructed]
    dsimp only
    rw [if_neg]
    rw [Bool.or_eq_true, not_or, List.isEmpty_iff, List.isEmpty_iff]
    exact h.parts

theorem validAddress_eq_error_iff {e : ReplyError} :
    validAddress parser entry.1 entry.2 = .error e ↔
      e = .address ∧ (entry.2 ≠ [] ∧ '@' ∈ entry.2) ∧
        parser.address entry.1 entry.2 = .raised := by
  unfold validAddress
  constructor
  · intro h
    split at h
    · cases h
    next hspec =>
    split at h
    · split at h <;> cases h
    · cases h
    · next hraised =>
        cases h
        exact ⟨rfl, isAddress_iff.mp (Bool.not_eq_true _ ▸ hspec), hraised⟩
  · rintro ⟨rfl, hspec, hraised⟩
    rw [if_neg (by rw [isAddress_iff.mpr hspec]; exact Bool.false_ne_true), hraised]

theorem mem_receivedAddresses (h : receivedAddresses parser values = .ok items)
    (item : Str × Str) : item ∈ items ↔ IsReceived parser values item := by
  unfold receivedAddresses at h
  obtain ⟨found, hfound, h⟩ := Fallible.bind_eq_ok h
  cases h
  rw [List.mem_map]
  constructor
  · rintro ⟨address, haddress, rfl⟩
    obtain ⟨option, hoption, rfl⟩ := List.mem_filterMap.mp haddress
    obtain ⟨entry, hentry, hvalid⟩ := Fallible.mem_of_mapM_ok hfound hoption
    exact ⟨entry, hentry, address, validAddress_eq_some_iff.mp hvalid, rfl⟩
  · rintro ⟨entry, hentry, address, hvalid, rfl⟩
    have hmem := Fallible.mem_mapM_of_mem hfound hentry (validAddress_eq_some_iff.mpr hvalid)
    exact ⟨address, List.mem_filterMap.mpr ⟨some address, hmem, rfl⟩, rfl⟩

/-- The loop ends unless one of its entries makes the constructor raise. -/
theorem exists_receivedAddresses_iff :
    (∃ items, receivedAddresses parser values = .ok items) ↔ ¬ Raises parser values := by
  have hloop : (∃ items, receivedAddresses parser values = .ok items) ↔
      ∃ found, (parser.getaddresses (values.map rendered)).mapM
        (fun entry => validAddress parser entry.1 entry.2) = .ok found := by
    unfold receivedAddresses
    constructor
    · rintro ⟨items, h⟩
      obtain ⟨found, hfound, -⟩ := Fallible.bind_eq_ok h
      exact ⟨found, hfound⟩
    · rintro ⟨found, hfound⟩
      rw [hfound]
      exact ⟨_, rfl⟩
  rw [hloop, Fallible.exists_mapM_eq_ok_iff]
  constructor
  · rintro h ⟨entry, hentry, hspec, hraised⟩
    obtain ⟨found, hfound⟩ := h entry hentry
    rw [validAddress_eq_error_iff.mpr ⟨rfl, hspec, hraised⟩] at hfound
    cases hfound
  · intro h entry hentry
    cases hresult : validAddress parser entry.1 entry.2 with
    | ok found => exact ⟨found, rfl⟩
    | error e =>
        obtain ⟨-, hspec, hraised⟩ := validAddress_eq_error_iff.mp hresult
        exact absurd ⟨entry, hentry, hspec, hraised⟩ h

end Parser

/-! ## The user's own addresses -/

/-- The key of one of the user's own addresses. -/
def IsSelf (parser : AddressParser) (selfSource : List Str) (key : Str) : Prop :=
  ∃ value ∈ selfSource, ∃ entry ∈ parser.getaddresses [value], ∃ address,
    Valid parser entry address ∧ ∃ name addrSpec,
      parser.getaddresses [address.text] = [(name, addrSpec)] ∧ key = parser.casefold addrSpec

/-- The value is a list of at most a hundred valid addresses, whose texts are read as one each. -/
structure ValidSelf (parser : AddressParser) (value : Str) : Prop where
  clean : value.any isControl = false
  nonempty : parser.getaddresses [value] ≠ []
  few : (parser.getaddresses [value]).length ≤ 100
  each : ∀ entry ∈ parser.getaddresses [value], ∃ address, Valid parser entry address ∧
    ∃ name addrSpec, parser.getaddresses [address.text] = [(name, addrSpec)] ∧ addrSpec ≠ []

section Self

variable {value : Str} {selfSource : List Str}

theorem listedAddress_of_valid {entry : Str × Str} {address : Address}
    (h : Valid parser entry address) : listedAddress parser entry = .ok address.text := by
  unfold listedAddress
  rw [validAddress_eq_some_iff.mpr h]
  rfl

theorem parseAddressList_of_valid (h : ValidSelf parser value) :
    ∃ texts, parseAddressList parser value = .ok texts ∧
      ∀ text, text ∈ texts ↔ ∃ entry ∈ parser.getaddresses [value], ∃ address,
        Valid parser entry address ∧ text = address.text := by
  have heach : ∀ entry ∈ parser.getaddresses [value], ∃ text,
      listedAddress parser entry = .ok text := by
    intro entry hentry
    obtain ⟨address, hvalid, -⟩ := h.each entry hentry
    exact ⟨address.text, listedAddress_of_valid hvalid⟩
  obtain ⟨texts, htexts⟩ := Fallible.exists_mapM_eq_ok_iff.mpr heach
  refine ⟨texts, ?_, fun text => ⟨fun htext => ?_, ?_⟩⟩
  · unfold parseAddressList
    rw [if_neg (by rw [h.clean]; exact Bool.false_ne_true)]
    dsimp only [bind, Except.bind, pure, Except.pure]
    rw [if_neg (Nat.not_lt.mpr h.few), htexts]
    have hlength := Fallible.length_of_mapM_ok htexts
    have hne : texts.isEmpty = false := by
      rw [List.isEmpty_eq_false_iff, ← List.length_pos_iff, hlength]
      exact List.length_pos_iff.mpr h.nonempty
    dsimp only
    rw [if_neg (by rw [hne]; exact Bool.false_ne_true)]
  · obtain ⟨entry, hentry, htext⟩ := Fallible.mem_of_mapM_ok htexts htext
    obtain ⟨address, hvalid, -⟩ := h.each entry hentry
    rw [listedAddress_of_valid hvalid] at htext
    cases htext
    exact ⟨entry, hentry, address, hvalid, rfl⟩
  · rintro ⟨entry, hentry, address, hvalid, rfl⟩
    exact Fallible.mem_mapM_of_mem htexts hentry (listedAddress_of_valid hvalid)

theorem envelopeAddress_of_valid {name addrSpec : Str}
    (h : parser.getaddresses [value] = [(name, addrSpec)]) (hne : addrSpec ≠ []) :
    envelopeAddress parser value = .ok addrSpec := by
  unfold envelopeAddress
  rw [h]
  dsimp only
  rw [if_neg (by rw [List.isEmpty_iff]; exact hne)]

/-- The keys of one value of the user's own addresses. -/
theorem selfKeys_of_valid (h : ValidSelf parser value) :
    ∃ keys, (do
        let addresses ← parseAddressList parser value
        addresses.mapM fun address => parser.casefold <$> envelopeAddress parser address :
          Except ReplyError (List Str)) = .ok keys ∧
      ∀ key, key ∈ keys ↔ IsSelf parser [value] key := by
  obtain ⟨texts, htexts, hmem⟩ := parseAddressList_of_valid h
  have henvelope : ∀ text ∈ texts, ∃ name addrSpec,
      parser.getaddresses [text] = [(name, addrSpec)] ∧ addrSpec ≠ [] := by
    intro text htext
    obtain ⟨entry, hentry, address, hvalid, rfl⟩ := (hmem text).mp htext
    obtain ⟨address', hvalid', name, addrSpec, hparsed, hne⟩ := h.each entry hentry
    have hsame := hvalid.constructed.symm.trans hvalid'.constructed
    cases hsame
    exact ⟨name, addrSpec, hparsed, hne⟩
  have heach : ∀ text ∈ texts, ∃ key,
      parser.casefold <$> envelopeAddress parser text = .ok key := by
    intro text htext
    obtain ⟨name, addrSpec, hparsed, hne⟩ := henvelope text htext
    rw [envelopeAddress_of_valid hparsed hne]
    exact ⟨_, rfl⟩
  obtain ⟨keys, hkeys⟩ := Fallible.exists_mapM_eq_ok_iff.mpr heach
  refine ⟨keys, ?_, fun key => ⟨fun hkey => ?_, ?_⟩⟩
  · rw [htexts, Fallible.ok_bind, hkeys]
  · obtain ⟨text, htext, hfold⟩ := Fallible.mem_of_mapM_ok hkeys hkey
    obtain ⟨name, addrSpec, hparsed, hne⟩ := henvelope text htext
    rw [envelopeAddress_of_valid hparsed hne] at hfold
    cases hfold
    obtain ⟨entry, hentry, address, hvalid, rfl⟩ := (hmem text).mp htext
    exact ⟨value, List.mem_singleton_self value, entry, hentry, address, hvalid, name, addrSpec,
      hparsed, rfl⟩
  · rintro ⟨value', hvalue, entry, hentry, address, hvalid, name, addrSpec, hparsed, rfl⟩
    cases List.mem_singleton.mp hvalue
    have htext := (hmem address.text).mpr ⟨entry, hentry, address, hvalid, rfl⟩
    obtain ⟨name', addrSpec', hparsed', hne⟩ := henvelope address.text htext
    have hsame := hparsed.symm.trans hparsed'
    cases hsame
    refine Fallible.mem_mapM_of_mem hkeys htext ?_
    rw [envelopeAddress_of_valid hparsed hne]
    rfl

theorem selfKeys_spec (h : ∀ value ∈ selfSource, ValidSelf parser value) :
    ∃ keys, selfKeys parser selfSource = .ok keys ∧
      ∀ key, key ∈ keys ↔ IsSelf parser selfSource key := by
  obtain ⟨found, hfound⟩ := Fallible.exists_mapM_eq_ok_iff.mpr
    fun value hvalue => (selfKeys_of_valid (h value hvalue)).imp fun _ h => h.1
  refine ⟨found.flatten, ?_, fun key => ⟨fun hkey => ?_, ?_⟩⟩
  · unfold selfKeys
    rw [hfound]
    rfl
  · obtain ⟨keys, hkeys, hkey⟩ := List.mem_flatten.mp hkey
    obtain ⟨value, hvalue, hloop⟩ := Fallible.mem_of_mapM_ok hfound hkeys
    obtain ⟨keys', hkeys', hmem⟩ := selfKeys_of_valid (h value hvalue)
    have hsame := hloop.symm.trans hkeys'
    cases hsame
    obtain ⟨value', hvalue', hrest⟩ := (hmem key).mp hkey
    cases List.mem_singleton.mp hvalue'
    exact ⟨value, hvalue, hrest⟩
  · rintro ⟨value, hvalue, hrest⟩
    obtain ⟨keys, hkeys, hmem⟩ := selfKeys_of_valid (h value hvalue)
    exact List.mem_flatten.mpr ⟨keys, Fallible.mem_mapM_of_mem hfound hvalue hkeys,
      (hmem key).mpr ⟨value, List.mem_singleton_self value, hrest⟩⟩

end Self

/-! ## The result -/

/-- Reply-To if it is present, and From otherwise. -/
def IsPrimary (message : ParsedMessage) (values : List Str) : Prop :=
  (message.replyTo ≠ [] → values = message.replyTo) ∧
    (message.replyTo = [] → message.sender ≠ [] → values = [message.sender]) ∧
    (message.replyTo = [] → message.sender = [] → values = [])

/-- A valid address of the primary source, or of the original To and Cc. -/
def Available (parser : AddressParser) (message : ParsedMessage) (primary : List Str)
    (item : Str × Str) : Prop :=
  IsReceived parser primary item ∨ IsReceived parser (message.toAddrs ++ message.cc) item

/-- What the recipients of a reply are to be. -/
structure Proper (available : Str × Str → Prop) (own : Str → Prop) (replyAll : Bool)
    (toItems ccItems : List (Str × Str)) : Prop where
  taken : ∀ item ∈ toItems ++ ccItems, available item
  notSelf : ∀ item ∈ toItems ++ ccItems, ¬ own item.2
  distinct : ((toItems ++ ccItems).map Prod.snd).Nodup
  addressed : (∃ item, available item ∧ ¬ own item.2) → toItems ≠ []
  onlySender : replyAll = false → ccItems = []
  everyone : replyAll = true → ∀ item, available item → ¬ own item.2 →
    item.2 ∈ (toItems ++ ccItems).map Prod.snd

theorem chosen_proper {available : Str × Str → Prop} {own : Str → Prop} {keys : List Str}
    {primary original : List (Str × Str)}
    (havailable : ∀ item, item ∈ primary ++ original ↔ available item)
    (hown : ∀ key, key ∈ keys ↔ own key) (replyAll : Bool) :
    Proper available own replyAll (chosenTo keys primary original)
      (chosenCc keys primary original replyAll) where
  taken item h := by
    rw [← havailable]
    rcases List.mem_append.mp h with h | h
    · exact (mem_of_mem_chosenTo h).1
    · exact List.mem_append_right primary (mem_of_mem_chosenCc h).1
  notSelf item h := by
    rw [← hown]
    rcases List.mem_append.mp h with h | h
    · exact (mem_of_mem_chosenTo h).2
    · exact (mem_of_mem_chosenCc h).2.1
  distinct := chosen_nodup replyAll
  addressed := fun ⟨item, h, hkey⟩ =>
    chosenTo_ne_nil ((havailable item).mpr h) (fun hmem => hkey ((hown item.2).mp hmem))
  onlySender hreply := by
    unfold chosenCc
    rw [hreply]
    rfl
  everyone hreply item h hkey := by
    rw [hreply]
    exact chosen_covers ((havailable item).mpr h) (fun hmem => hkey ((hown item.2).mp hmem))

theorem addressed_eq (keys : List Str) (primary original : List (Str × Str)) :
    (if (appendAll ([], keys) primary).1.isEmpty then
        appendFirst (appendAll ([], keys) primary) original
      else appendAll ([], keys) primary) =
      after ([], keys) (chosenTo keys primary original) := by
  rw [appendAll_eq, appendFirst_eq]
  unfold chosenTo
  dsimp only
  cases Unique.keepNew Prod.snd keys primary with
  | nil =>
      rw [after_nil]
      rfl
  | cons item items => rfl

theorem copied_eq (keys : List Str) (primary original : List (Str × Str)) (replyAll : Bool) :
    (if replyAll then
        appendAll ([], (after ([], keys) (chosenTo keys primary original)).2) original
      else ([], (after ([], keys) (chosenTo keys primary original)).2)).1 =
      (chosenCc keys primary original replyAll).map Prod.fst := by
  unfold chosenCc
  cases replyAll with
  | false => rfl
  | true =>
      rw [if_pos rfl, if_pos rfl, appendAll_eq]
      rfl

theorem primarySource_eq {message : ParsedMessage} {primary : List Str}
    (h : IsPrimary message primary) : primarySource message = primary := by
  obtain ⟨hreply, hsender, hnobody⟩ := h
  unfold primarySource
  cases hreplyTo : message.replyTo with
  | cons value rest =>
      rw [hreply (by rw [hreplyTo]; exact List.cons_ne_nil _ _), hreplyTo]
      rfl
  | nil =>
      cases hfrom : message.sender with
      | nil =>
          rw [hnobody hreplyTo hfrom]
          rfl
      | cons c rest =>
          rw [hsender hreplyTo (by rw [hfrom]; exact List.cons_ne_nil _ _), hfrom]
          rfl

/-- The recipients of a reply are proper, whatever the address parser is, exactly if it raises for
none of the addresses that the reply goes by. -/
theorem reply_recipients_iff (parser : AddressParser) (message : ParsedMessage)
    {selfSource primary : List Str} (replyAll : Bool) (hself : selfSource ≠ [])
    (hvalid : ∀ value ∈ selfSource, ValidSelf parser value) (hprimary : IsPrimary message primary) :
    (∃ toItems ccItems : List (Str × Str),
      deriveReplyRecipients parser message selfSource replyAll =
          .ok ⟨toItems.map Prod.fst, ccItems.map Prod.fst⟩ ∧
        Proper (Available parser message primary) (IsSelf parser selfSource) replyAll toItems
          ccItems) ↔
      ¬ Raises parser primary ∧ ¬ Raises parser (message.toAddrs ++ message.cc) := by
  obtain ⟨keys, hkeys, hown⟩ := selfKeys_spec hvalid
  rw [← exists_receivedAddresses_iff, ← exists_receivedAddresses_iff]
  unfold deriveReplyRecipients
  rw [if_neg (by rw [List.isEmpty_iff]; exact hself), hkeys, primarySource_eq hprimary]
  constructor
  · rintro ⟨toItems, ccItems, h, -⟩
    obtain ⟨_, -, h⟩ := Fallible.bind_eq_ok h
    obtain ⟨found, hfound, h⟩ := Fallible.bind_eq_ok h
    obtain ⟨original, horiginal, -⟩ := Fallible.bind_eq_ok h
    exact ⟨⟨found, hfound⟩, original, horiginal⟩
  · rintro ⟨⟨found, hfound⟩, original, horiginal⟩
    refine ⟨chosenTo keys found original, chosenCc keys found original replyAll, ?_,
      chosen_proper (fun item => ?_) hown replyAll⟩
    · rw [hfound, horiginal]
      dsimp only [bind, Except.bind, pure, Except.pure]
      rw [addressed_eq, copied_eq]
      rfl
    · rw [List.mem_append, mem_receivedAddresses hfound, mem_receivedAddresses horiginal]
      rfl

/-- A parser that takes every value for an address, and raises where the domain ends in a dot. -/
def plainParser : AddressParser where
  getaddresses values := values.map fun value => ([], value)
  address _ addrSpec :=
    if addrSpec.getLast? = some '.' then .raised
    else .address
      ⟨addrSpec.takeWhile (· != '@'), (addrSpec.dropWhile (· != '@')).drop 1, addrSpec, addrSpec⟩
  casefold := Text.asciiLower

theorem validSelf_plainParser : ∀ value ∈ ["me@x".toList], ValidSelf plainParser value := by
  intro value hvalue
  cases List.mem_singleton.mp hvalue
  refine ⟨by decide, List.cons_ne_nil _ _, by decide, ?_⟩
  intro entry hentry
  cases List.mem_singleton.mp hentry
  exact ⟨⟨"me".toList, "x".toList, "me@x".toList, "me@x".toList⟩,
    ⟨⟨by decide, by decide⟩, rfl, by decide, by decide⟩, [], "me@x".toList, rfl, by decide⟩

/-- One of the user's own addresses in another case. -/
def sampleMessage : ParsedMessage := ⟨"a@x".toList, ["ME@x".toList], ["b@x".toList], [], [], [], []⟩

theorem not_raises_of_plain {values : List Str}
    (h : ∀ value ∈ values, (rendered value).getLast? ≠ some '.') : ¬ Raises plainParser values := by
  rintro ⟨entry, hentry, -, hraised⟩
  obtain ⟨value, hvalue, rfl⟩ := List.mem_map.mp hentry
  obtain ⟨source, hsource, rfl⟩ := List.mem_map.mp hvalue
  have hlast : ¬ (rendered source).getLast? = some '.' := h source hsource
  unfold plainParser at hraised
  dsimp only at hraised
  rw [if_neg hlast] at hraised
  cases hraised

theorem reply_recipients_iff_sample :
    ∃ toItems ccItems : List (Str × Str),
      deriveReplyRecipients plainParser sampleMessage ["me@x".toList] true =
          .ok ⟨toItems.map Prod.fst, ccItems.map Prod.fst⟩ ∧
        Proper (Available plainParser sampleMessage ["a@x".toList])
          (IsSelf plainParser ["me@x".toList]) true toItems ccItems :=
  (reply_recipients_iff plainParser sampleMessage true (by decide) validSelf_plainParser
    ⟨fun h => absurd rfl h, fun _ _ => rfl, fun _ h => absurd h (by decide)⟩).mpr
    ⟨not_raises_of_plain (by decide), not_raises_of_plain (by decide)⟩

/-- A reply to a sender with a dot behind the domain, and to a valid address. -/
def dottedMessage : ParsedMessage :=
  ⟨"a@x".toList, ["b@x".toList], [], [], ["news@x.test.".toList], [], []⟩

theorem dotted_reply_fails :
    (∃ item, IsReceived plainParser (dottedMessage.toAddrs ++ dottedMessage.cc) item ∧
      ¬ IsSelf plainParser ["me@x".toList] item.2) ∧
    ¬ ∃ recipients, deriveReplyRecipients plainParser dottedMessage ["me@x".toList] false =
      .ok recipients ∧ recipients.toAddrs ≠ [] := by
  constructor
  · refine ⟨("b@x".toList, "b@x".toList), ⟨([], "b@x".toList), List.mem_singleton_self _,
      ⟨"b".toList, "x".toList, "b@x".toList, "b@x".toList⟩,
      ⟨⟨by decide, by decide⟩, rfl, by decide, by decide⟩, rfl⟩, ?_⟩
    rintro ⟨value, hvalue, entry, hentry, address, hvalid, name, addrSpec, hparsed, hkey⟩
    cases List.mem_singleton.mp hvalue
    cases List.mem_singleton.mp hentry
    cases hvalid.constructed
    cases hparsed
    exact absurd hkey (by decide)
  · have hraises : deriveReplyRecipients plainParser dottedMessage ["me@x".toList] false =
        .error .address := by rfl
    rintro ⟨recipients, h, -⟩
    rw [hraises] at h
    cases h

end MaddyWeb.Mail
