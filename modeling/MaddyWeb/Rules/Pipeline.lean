import MaddyWeb.Rules.FailClosed

/-!
# From the client's input to its output

Whatever the chunks are, the client writes the target that the evaluation names.  The two
entrances of the bridge agree on every payload but the longest one.
-/

namespace MaddyWeb.Rules

open MaddyWeb.Library MaddyWeb.Library.Text MaddyWeb.Identity

variable {token account : String} {payload line message : Bytes} {env : FilterEnv} {disk : Disk}
  {c : Connection}

/-! ## The request -/

/-- The text of the control line. -/
def headerText (token canonicalAccount : String) : List Char :=
  filterProtocol.toList ++ ' ' :: token.toList ++ ' ' :: canonicalAccount.toList

section Header

variable {raw : String} (hraw : ∀ x ∈ raw.toList, x.toNat < 0x80 ∧ x ≠ ' ' ∧ x ≠ '\n')
  (hlength : raw.toList.length ≤ 429) (haccount : canonicalizeEmail raw = some account)
  (htoken : isToken token = true)

include htoken in
theorem range_of_isToken {x : Char} (hx : x ∈ token.toList) : 0x20 < x.toNat ∧ x.toNat < 0x7F := by
  unfold isToken at htoken
  rw [Bool.and_eq_true, List.all_eq_true] at htoken
  have hhex := htoken.2 x hx
  rw [Bool.or_eq_true] at hhex
  rcases hhex with hdigit | hletter
  · have hlocal : isLocalChar x = true := by
      unfold isLocalChar Char.isAlphanum
      rw [hdigit]
      simp
    exact range_of_isLocalChar hlocal
  · simp only [Bool.and_eq_true, decide_eq_true_eq] at hletter
    omega

include hraw htoken

theorem ascii_headerText {x : Char} (hx : x ∈ headerText token raw) :
    x.toNat < 0x80 ∧ x ≠ '\n' := by
  have hprotocol : ∀ y ∈ filterProtocol.toList, y.toNat < 0x80 ∧ y ≠ '\n' :=
    List.all_iff_forall_prop.mp (by decide)
  unfold headerText at hx
  rcases List.mem_append.mp hx with hx | hx
  · rcases List.mem_append.mp hx with hx | hx
    · exact hprotocol x hx
    · rcases List.mem_cons.mp hx with rfl | hx
      · decide
      · have hrange := range_of_isToken htoken hx
        refine ⟨by omega, ?_⟩
        rintro rfl
        exact absurd hrange.1 (by decide)
  · rcases List.mem_cons.mp hx with rfl | hx
    · decide
    · exact ⟨(hraw x hx).1, (hraw x hx).2.2⟩

theorem split_headerText :
    split [' '] (headerText token raw) = [filterProtocol.toList, token.toList, raw.toList] := by
  have hprotocol : ' ' ∉ filterProtocol.toList := by decide
  have htokenSpace : ' ' ∉ token.toList := by
    intro hmem
    exact absurd (range_of_isToken htoken hmem).1 (by decide)
  have hrawSpace : ' ' ∉ raw.toList := fun hmem => (hraw ' ' hmem).2.1 rfl
  unfold split headerText
  rw [List.append_assoc, List.cons_append, splitFrom_singleton_append hprotocol, List.nil_append,
    splitFrom_singleton_append htokenSpace, List.nil_append, splitFrom_singleton hrawSpace,
    List.nil_append]

theorem length_headerText :
    (utf8 (headerText token raw)).length = raw.toList.length + 83 := by
  have htokenLength : token.toList.length = 64 := by
    unfold isToken at htoken
    rw [Bool.and_eq_true, beq_iff_eq] at htoken
    exact htoken.1
  have hprotocol : filterProtocol.toList.length = 17 := by decide
  rw [utf8_ascii fun x hx => (ascii_headerText hraw htoken hx).1, List.length_map]
  unfold headerText
  simp only [List.length_append, List.length_cons]
  omega

include hlength haccount

theorem authenticatedAccount_header :
    authenticatedAccount (utf8 (headerText token raw)) token = some account := by
  have hline := length_headerText hraw htoken
  unfold authenticatedAccount
  rw [if_neg, asciiDecode_utf8 fun x hx => (ascii_headerText hraw htoken hx).1]
  · dsimp only
    rw [split_headerText hraw htoken]
    dsimp only
    rw [htoken, String.ofList_toList, haccount]
    simp
  · rintro (hnil | hlong)
    · rw [hnil, List.length_nil] at hline
      omega
    · unfold maxProtocolLineBytes at hlong
      omega

/-- A control line and a message of a size that is evaluated are a request. -/
theorem accepts_header (hnonempty : 1 ≤ message.length)
    (hbounded : message.length ≤ maxFilterMessageBytes) :
    Accepts token (requestHeader token raw ++ message) account
      (utf8 (headerText token raw)) message where
  framed := by
    unfold requestHeader headerText
    rw [List.append_assoc]
    rfl
  oneLine := by
    intro hmem
    obtain ⟨x, hx, hvalue⟩ := mem_of_mem_utf8 hmem (by decide)
    apply (ascii_headerText hraw htoken hx).2
    rw [← Char.ofNat_toNat x, hvalue]
    rfl
  authenticated := authenticatedAccount_header hraw hlength haccount htoken
  nonempty := hnonempty
  bounded := hbounded

end Header

/-! ## The answer -/

/-- What the client writes for the result of an evaluation. -/
def expectedOutput (result : Except FilterError (Option String)) : Bytes :=
  match result with
  | .ok (some target) => utf8 target.toList ++ [0x0A]
  | _ => []

theorem validatedResponse_target {target : String} (h : IsTarget target) :
    validatedResponse (utf8 target.toList ++ [0x0A]) = utf8 target.toList ++ [0x0A] := by
  have hlength : (utf8 target.toList ++ [0x0A]).length ≤ maxFilterResponseBytes := by
    have hbounded := h.bounded
    rw [List.length_append, length_utf8]
    unfold maxFilterResponseBytes
    simp
    omega
  have hcount : (utf8 target.toList ++ [0x0A]).count 0x0A = 1 := by
    rw [List.count_append, List.count_eq_zero.mpr (not_mem_utf8 h (by decide))]
    rfl
  have hreturn : 0x0D ∉ utf8 target.toList ++ [0x0A] := by
    intro hmem
    rcases List.mem_append.mp hmem with hmem | hmem
    · exact not_mem_utf8 h (by decide) hmem
    · exact absurd (List.mem_singleton.mp hmem) (by decide)
  have hsafe : target.toList.any (fun c => c.toNat < 0x20 || c.toNat == 0x7F) = false := by
    rw [List.any_eq_false]
    intro c hc
    have hunsafe := h.safe c hc
    unfold isUnsafe at hunsafe
    simp at hunsafe ⊢
    omega
  unfold validatedResponse
  rw [if_neg (by simp), if_neg, List.dropLast_concat, utf8Decode_utf8]
  · dsimp only
    rw [if_neg]
    rintro (hnil | hany)
    · exact h.nonempty hnil
    · rw [hsafe] at hany
      cases hany
  · rintro (hlong | hlast | hcount' | hmem)
    · omega
    · exact hlast (List.getLast?_concat ..)
    · exact hcount' hcount
    · exact hreturn hmem

theorem receiveResponse_eq (hc : c.Steady)
    (hlength : c.pending.length ≤ maxFilterResponseBytes + 1) :
    receiveResponse c = some c.pending := by
  obtain ⟨⟨response, atEnd⟩, c', hfill⟩ := @Source.Steady.fillUntil _ _ (fun _ => false)
    (maxFilterResponseBytes + 1) (maxFilterResponseBytes + 1) (maxFilterResponseBytes + 1) [] c hc
  have hfill' : Source.fill (maxFilterResponseBytes + 1) (maxFilterResponseBytes + 1) [] c =
      (.ok (response, atEnd), c') := hfill
  obtain ⟨hresponse, -, -⟩ := Source.fill_ok (by decide) (Nat.zero_le _) hfill'
  unfold receiveResponse
  rw [hfill', hresponse, List.nil_append, List.take_of_length_le hlength]

/-- The client reads the whole message. -/
theorem fill_message (hc : c.Steady) (hbounded : c.pending.length ≤ maxFilterMessageBytes) :
    (Source.fill (64 * 1024) (maxFilterMessageBytes + 1) [] c).1 = .ok (c.pending, true) := by
  obtain ⟨⟨collected, atEnd⟩, c', hfill⟩ :=
    @Source.Steady.fillUntil _ _ (fun _ => false) (64 * 1024)
    (maxFilterMessageBytes + 1) (maxFilterMessageBytes + 1) [] c hc
  have hfill' :
      Source.fill (64 * 1024) (maxFilterMessageBytes + 1) [] c = (.ok (collected, atEnd), c') :=
    hfill
  obtain ⟨hcollected, -, hend⟩ := Source.fill_ok (by decide) (Nat.zero_le _) hfill'
  rw [List.nil_append, List.take_of_length_le (by omega)] at hcollected
  have hatEnd : atEnd = true := hend.mpr (by rw [List.nil_append]; omega)
  rw [hfill', hcollected, hatEnd]

theorem evaluateFilterMessage_canonical {canonical : String}
    (haccount : canonicalizeEmail account = some canonical)
    (hcanonical : canonicalizeEmail canonical = some canonical) :
    evaluateFilterMessage env disk account message =
      evaluateFilterMessage env disk canonical message := by
  unfold evaluateFilterMessage
  rw [haccount, hcanonical]

theorem output_of_exchange {canonical : String}
    (hcanonical : canonicalizeEmail canonical = some canonical)
    (response : Bytes)
    (hresponse : response = match answer env disk canonical message with
      | .ok response => response
      | .error _ => []) :
    response.length ≤ maxFilterResponseBytes ∧
      validatedResponse response =
        expectedOutput (evaluateFilterMessage env disk canonical message) := by
  subst hresponse
  unfold answer
  cases hevaluate : evaluateFilterMessage env disk canonical message with
  | error e =>
      dsimp only
      cases e.isCaught with
      | true => exact ⟨Nat.zero_le _, rfl⟩
      | false => exact ⟨Nat.zero_le _, rfl⟩
  | ok target =>
      cases target with
      | none => exact ⟨Nat.zero_le _, rfl⟩
      | some target =>
          obtain ⟨htarget, -⟩ := evaluateFilterMessage_some hcanonical hevaluate
          dsimp only
          rw [renderFilterTarget_some htarget]
          refine ⟨?_, validatedResponse_target htarget⟩
          have hbounded := htarget.bounded
          rw [List.length_append, length_utf8]
          unfold maxFilterResponseBytes
          simp
          omega

/-- Whatever the chunks are, the client writes what the evaluation decides. -/
theorem runFilterClient_eq (htoken : isToken token = true) {canonical : String}
    (haccount : canonicalizeEmail account = some canonical) {source : Connection}
    (hsource : source.Steady) (hnonempty : 1 ≤ source.pending.length)
    (hbounded : source.pending.length ≤ maxFilterMessageBytes)
    {requestCuts responseCuts : Nat → Except Unit Nat}
    (hrequest : ∀ n, ∃ cut, requestCuts n = .ok cut)
    (hresponse : ∀ n, ∃ cut, responseCuts n = .ok cut) :
    runFilterClient account token source (bridgeExchange env disk token requestCuts responseCuts) =
      expectedOutput (evaluateFilterMessage env disk account source.pending) := by
  obtain ⟨mailbox, domain, hcanonical⟩ := isCanonical_of_canonicalizeEmail haccount
  have hcanonicalize := canonicalizeEmail_of_canonical hcanonical
  have hraw : ∀ x ∈ canonical.toList, x.toNat < 0x80 ∧ x ≠ ' ' ∧ x ≠ '\n' := by
    intro x hx
    have hrange := hcanonical.range hx
    refine ⟨by omega, ?_, ?_⟩
    · rintro rfl
      exact absurd hrange.1 (by decide)
    · rintro rfl
      exact absurd hrange.1 (by decide)
  have hlength := hcanonical.length_le
  have haccepts := accepts_header hraw (by omega) hcanonicalize htoken hnonempty hbounded
  have hhandle := @handle_of_accepts _ _ _ _ env disk
    ⟨requestHeader token canonical ++ source.pending, requestCuts, 0⟩ hrequest haccepts
  rw [evaluateFilterMessage_canonical haccount hcanonicalize]
  unfold runFilterClient
  rw [haccount, fill_message hsource hbounded]
  have hsome : source.pending.isEmpty = false :=
    List.isEmpty_eq_false_iff.mpr (List.length_pos_iff.mp hnonempty)
  dsimp only
  rw [hsome]
  have hexchange := @output_of_exchange source.pending env disk canonical hcanonicalize
    (bridgeExchange env disk token requestCuts responseCuts
      (requestHeader token canonical ++ source.pending)).pending (by
        unfold bridgeExchange
        dsimp only
        cases hanswer : answer env disk canonical source.pending with
        | ok response => simp only [hhandle, hanswer]
        | error e => simp only [hhandle, hanswer])
  have hreceived := @receiveResponse_eq (bridgeExchange env disk token requestCuts responseCuts
    (requestHeader token canonical ++ source.pending)) hresponse (by omega)
  rw [hreceived]
  exact hexchange.2

/-! ## The two entrances -/

/-- The control line and the message are both as long as they may be, and the evaluation has
something to say. -/
def OnlyOverSocket (env : FilterEnv) (disk : Disk) (token : String) (payload : Bytes) : Prop :=
  ∃ account line message, Accepts token payload account line message ∧
    line.length = maxProtocolLineBytes ∧ message.length = maxFilterMessageBytes ∧
    answer env disk account message ≠ .ok []

theorem handle_eq_evaluateBridgePayload_iff (hc : c.Steady) :
    handle env disk token c = evaluateBridgePayload env disk token c.pending ↔
      ¬ OnlyOverSocket env disk token c.pending := by
  by_cases haccepts : ∃ account line message, Accepts token c.pending account line message
  · obtain ⟨account, line, message, haccepts⟩ := haccepts
    have hline := length_le_of_authenticatedAccount haccepts.authenticated
    have hmessage := haccepts.bounded
    have hlength := congrArg List.length haccepts.framed
    rw [List.length_append, List.length_cons] at hlength
    rw [handle_of_accepts hc haccepts]
    by_cases hshort : c.pending.length ≤ maxProtocolLineBytes + maxFilterMessageBytes
    · rw [evaluateBridgePayload_of_accepts haccepts hshort]
      refine ⟨fun _ => ?_, fun _ => rfl⟩
      rintro ⟨account', line', message', haccepts', hline', hmessage', -⟩
      obtain ⟨rfl, rfl⟩ := haccepts'.eq_of_framed haccepts.framed haccepts.oneLine
      omega
    · rw [evaluateBridgePayload_of_long (by omega)]
      constructor
      · rintro hempty ⟨account', line', message', haccepts', -, -, hanswer⟩
        obtain ⟨rfl, rfl⟩ := haccepts'.eq_of_framed haccepts.framed haccepts.oneLine
        have hsame := haccepts'.authenticated.symm.trans haccepts.authenticated
        cases hsame
        exact hanswer hempty
      · intro hnot
        by_contra hanswer
        refine hnot ⟨account, line, message, haccepts, ?_, ?_, hanswer⟩
        · unfold maxProtocolLineBytes at hshort ⊢
          omega
        · unfold maxProtocolLineBytes at hshort
          omega
  · have hrefused : ∀ account line message, ¬ Accepts token c.pending account line message :=
      fun account line message h => haccepts ⟨account, line, message, h⟩
    have hhandle : handle env disk token c = .ok [] := by
      rcases handle_cases env disk token c with hempty | ⟨account, line, message, h, -⟩
      · exact hempty
      · exact absurd h (hrefused account line message)
    have hpayload : evaluateBridgePayload env disk token c.pending = .ok [] := by
      rcases evaluateBridgePayload_cases env disk token c.pending with hempty |
        ⟨account, line, message, h, -⟩
      · exact hempty
      · exact absurd h (hrefused account line message)
    rw [hhandle, hpayload]
    refine ⟨fun _ => ?_, fun _ => rfl⟩
    rintro ⟨account, line, message, h, -⟩
    exact hrefused account line message h

/-- For every chunking the client writes what the evaluation decides, and both entrances agree
exactly on the payloads that are not as long as possible or need no answer. -/
theorem filter_pipeline_exact (env : FilterEnv) (disk : Disk) (token : String)
    (htoken : isToken token = true) :
    (∀ (account canonical : String) (source : Connection)
      (requestCuts responseCuts : Nat → Except Unit Nat),
      canonicalizeEmail account = some canonical → source.Steady → 1 ≤ source.pending.length →
      source.pending.length ≤ maxFilterMessageBytes →
      (∀ n, ∃ cut, requestCuts n = .ok cut) → (∀ n, ∃ cut, responseCuts n = .ok cut) →
      runFilterClient account token source
        (bridgeExchange env disk token requestCuts responseCuts) =
        expectedOutput (evaluateFilterMessage env disk account source.pending)) ∧
    ∀ connection : Connection, connection.Steady →
      (handle env disk token connection = evaluateBridgePayload env disk token connection.pending ↔
        ¬ OnlyOverSocket env disk token connection.pending) := by
  constructor
  · intro account canonical source requestCuts responseCuts haccount hsource hnonempty hbounded
      hrequest hresponse
    exact runFilterClient_eq htoken haccount hsource hnonempty hbounded hrequest hresponse
  · exact fun connection hconnection => handle_eq_evaluateBridgePayload_iff hconnection

/-- One rule that files every message. -/
def everyMessageRule : Json := .obj [("rule_id", .str (String.ofList (List.replicate 32 '0'))),
  ("enabled", .bool true), ("position", .int 0), ("condition", .obj [("field", .str "size"),
    ("operator", .str "gte"), ("value", .int 1)]), ("target_mailbox", .str "Archive"),
  ("stop_processing", .bool true), ("revision", .int 1)]

def everyMessageEnv : FilterEnv where
  sha256 _ := String.ofList (List.replicate 64 'a')
  loads data := if data = [0x7B, 0x7D] then
      .value (snapshotDocument "alice@example.org" [everyMessageRule]) else .invalid
  casefold text := text
  parseRuleMessage data := some ⟨[], data.length, false, none, []⟩
  reprLimit _ _ := 1000

theorem evaluateFilterMessage_everyMessage (hnonempty : 1 ≤ message.length)
    (hbounded : message.length ≤ maxFilterMessageBytes) :
    evaluateFilterMessage everyMessageEnv emptyDocumentDisk "alice@example.org" message =
      .ok (some "Archive") := by
  have hload : loadSnapshot everyMessageEnv.toSnapshotEnv emptyDocumentDisk "alice@example.org" =
      .ok (some [everyMessageRule]) := by rfl
  have hprepare : prepareRules everyMessageEnv.reprLimit [] [everyMessageRule] =
      .ok [⟨0, true, ⟨.size .gte 1, "Archive"⟩⟩] := by rfl
  have hmatches : (⟨.size .gte 1, "Archive"⟩ : Rule).matches everyMessageEnv.casefold
      ⟨[], message.length, false, none, []⟩ = true := by
    unfold Rule.matches evaluateCondition numericResult
    simp [hnonempty, Truth.ofBool]
  unfold evaluateFilterMessage
  rw [show canonicalizeEmail "alice@example.org" = some "alice@example.org" by decide +kernel]
  dsimp only
  rw [if_pos ⟨hnonempty, hbounded⟩, hload]
  dsimp only
  unfold evaluateRules
  rw [if_neg (by decide), hprepare, Fallible.ok_bind, if_pos (by decide), List.mergeSort_singleton]
  show Except.ok (selectTarget everyMessageEnv.casefold
    ⟨[], message.length, false, none, []⟩ none _) = _
  rw [selectTarget, if_pos hmatches]
  rfl

theorem filter_pipeline_exact_sample :
    runFilterClient "Alice@Example.org" sampleToken ⟨[0x78, 0x79], fun _ => .ok 0, 0⟩
      (bridgeExchange everyMessageEnv emptyDocumentDisk sampleToken (fun n => .ok (n % 7))
        fun _ => .ok 2) = utf8 "Archive\n".toList := by
  rw [(filter_pipeline_exact everyMessageEnv emptyDocumentDisk sampleToken (by decide)).1
    "Alice@Example.org" "alice@example.org" _ _ _ (by decide +kernel) (fun _ => ⟨_, rfl⟩)
      (by decide)
    (by decide) (fun _ => ⟨_, rfl⟩) fun _ => ⟨_, rfl⟩]
  rw [@evaluateFilterMessage_canonical "Alice@Example.org" _ everyMessageEnv emptyDocumentDisk
      "alice@example.org" (by decide +kernel) (by decide +kernel),
    evaluateFilterMessage_everyMessage (by decide) (by decide)]
  decide +kernel

/-- An address that fills the control line with tabs. -/
def paddedAddress : String := String.ofList ("alice@example.org".toList ++ List.replicate 412 '\t')

theorem toList_paddedAddress :
    paddedAddress.toList = "alice@example.org".toList ++ List.replicate 412 '\t' :=
  String.toList_ofList

theorem canonicalizeEmail_paddedAddress :
    canonicalizeEmail paddedAddress = some "alice@example.org" := by
  have hstrip : strStrip paddedAddress.toList = strStrip "alice@example.org".toList := by
    rw [toList_paddedAddress]
    decide +kernel
  rw [canonicalizeEmail_congr hstrip]
  decide +kernel

theorem mem_paddedAddress {x : Char} (hx : x ∈ paddedAddress.toList) :
    x.toNat < 0x80 ∧ x ≠ ' ' ∧ x ≠ '\n' := by
  have haddress : ∀ y ∈ "alice@example.org".toList, y.toNat < 0x80 ∧ y ≠ ' ' ∧ y ≠ '\n' :=
    List.all_iff_forall_prop.mp (by decide)
  rw [toList_paddedAddress] at hx
  rcases List.mem_append.mp hx with hx | hx
  · exact haddress x hx
  · rw [(List.mem_replicate.mp hx).2]
    decide

theorem handle_ne_of_longest (hmessage : message.length = maxFilterMessageBytes) :
    handle everyMessageEnv emptyDocumentDisk sampleToken
        ⟨requestHeader sampleToken paddedAddress ++ message, fun _ => .ok 0, 0⟩ ≠
      evaluateBridgePayload everyMessageEnv emptyDocumentDisk sampleToken
        (requestHeader sampleToken paddedAddress ++ message) := by
  have hraw : ∀ x ∈ paddedAddress.toList, x.toNat < 0x80 ∧ x ≠ ' ' ∧ x ≠ '\n' :=
    fun _ hx => mem_paddedAddress hx
  have hlength : paddedAddress.toList.length = 429 := by
    rw [toList_paddedAddress, List.length_append, List.length_replicate]
    rfl
  have htoken : isToken sampleToken = true := by decide
  have hnonempty : 1 ≤ message.length := by
    rw [hmessage]
    decide
  have haccepts := accepts_header hraw (Nat.le_of_eq hlength) canonicalizeEmail_paddedAddress htoken
    hnonempty (Nat.le_of_eq hmessage)
  have hlong : maxProtocolLineBytes + maxFilterMessageBytes <
      (requestHeader sampleToken paddedAddress ++ message).length := by
    rw [haccepts.framed, List.length_append, List.length_cons, hmessage,
      length_headerText hraw htoken, hlength]
    unfold maxProtocolLineBytes
    omega
  have hhandle := @handle_of_accepts _ _ _ _ everyMessageEnv emptyDocumentDisk
    ⟨requestHeader sampleToken paddedAddress ++ message, fun _ => .ok 0, 0⟩
      (fun _ => ⟨0, rfl⟩) haccepts
  rw [hhandle, evaluateBridgePayload_of_long hlong]
  unfold answer
  rw [evaluateFilterMessage_everyMessage haccepts.nonempty haccepts.bounded]
  decide +kernel

theorem longest_payload_only_over_socket :
    handle everyMessageEnv emptyDocumentDisk sampleToken
        ⟨requestHeader sampleToken paddedAddress ++ List.replicate maxFilterMessageBytes 0x78,
          fun _ => .ok 0, 0⟩ ≠
      evaluateBridgePayload everyMessageEnv emptyDocumentDisk sampleToken
        (requestHeader sampleToken paddedAddress ++ List.replicate maxFilterMessageBytes 0x78) :=
  @handle_ne_of_longest (List.replicate maxFilterMessageBytes 0x78) List.length_replicate

end MaddyWeb.Rules
