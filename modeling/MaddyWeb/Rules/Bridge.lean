import MaddyWeb.Rules.Filter

/-!
# Both entrances of the bridge

The socket handler and the payload function frame a request in their own ways.  `Accepts`
says what a request is; the handler answers exactly the requests, whatever the chunks are.
-/

namespace MaddyWeb.Rules

open MaddyWeb.Library MaddyWeb.Library.Text MaddyWeb.Identity

variable {token account : String} {payload line message : Bytes}

/-- An authenticated control line, and a message of a size that is evaluated. -/
structure Accepts (token : String) (payload : Bytes) (account : String) (line message : Bytes) :
    Prop where
  framed : payload = line ++ 0x0A :: message
  oneLine : 0x0A ∉ line
  authenticated : authenticatedAccount line token = some account
  nonempty : 1 ≤ message.length
  bounded : message.length ≤ maxFilterMessageBytes

theorem length_le_of_authenticatedAccount (h : authenticatedAccount line token = some account) :
    line.length ≤ 512 := by
  unfold authenticatedAccount at h
  split at h
  · cases h
  · next hline =>
      have hlength : ¬ maxProtocolLineBytes < line.length := fun hlt => hline (Or.inr hlt)
      unfold maxProtocolLineBytes at hlength
      omega

theorem partition_of_framed (hline : 0x0A ∉ line) :
    partition [0x0A] (line ++ 0x0A :: message) = some (line, message) :=
  partition_singleton hline message

/-! ## Reading a request -/

section Reading

variable {c c' : Connection}

/-- The body is everything up to the end of the stream, if it is not too long. -/
theorem receiveBody_ok {initialBody : Bytes}
    (hinitial : initialBody.length ≤ maxFilterMessageBytes + 1)
    {result : Option (String × Bytes)} (h : receiveBody account initialBody c = (.ok result, c')) :
    result = if 1 ≤ (initialBody ++ c.pending).length ∧
        (initialBody ++ c.pending).length ≤ maxFilterMessageBytes then
      some (account, initialBody ++ c.pending) else none := by
  unfold receiveBody at h
  obtain ⟨⟨body, atEnd⟩, c₁, hfill, hrest⟩ := Exec.bind_eq_ok h
  obtain ⟨hbody, -, hend⟩ := Source.fill_ok (by decide) hinitial hfill
  dsimp only at hrest
  by_cases hlength : (initialBody ++ c.pending).length < maxFilterMessageBytes + 1
  · have htake : body = initialBody ++ c.pending := by
      rw [hbody, List.take_of_length_le (by omega)]
    have hatEnd : atEnd = true := hend.mpr hlength
    rw [hatEnd, htake] at hrest
    cases hempty : (initialBody ++ c.pending).isEmpty with
    | true =>
        rw [hempty] at hrest
        cases hrest
        rw [List.isEmpty_iff.mp hempty]
        rfl
    | false =>
        rw [hempty] at hrest
        cases hrest
        have hpositive := List.length_pos_iff.mpr (List.isEmpty_eq_false_iff.mp hempty)
        rw [if_pos ⟨by omega, by omega⟩]
  · have hatEnd : atEnd = false := by
      rw [← Bool.not_eq_true]
      exact fun htrue => hlength (hend.mp htrue)
    rw [hatEnd] at hrest
    cases hrest
    rw [if_neg (by omega)]

/-- The first control line of a stream is unique. -/
theorem Accepts.eq_of_framed (h : Accepts token payload account line message)
    {line' message' : Bytes}
    (hpayload : payload = line' ++ 0x0A :: message') (hline' : 0x0A ∉ line') :
    line = line' ∧ message = message' := by
  have hpartition := @partition_of_framed line message h.oneLine
  rw [← h.framed, hpayload, partition_of_framed hline'] at hpartition
  cases hpartition
  exact ⟨rfl, rfl⟩

/-- The control loop does not stop before the newline of a request. -/
theorem newline_mem_control {control : Bytes} {atEnd : Bool}
    (hfilled : Source.Filled (·.contains (0x0A : UInt8)) (maxProtocolLineBytes + 1) c c'
      [] control atEnd)
    (h : Accepts token c.pending account line message) : 0x0A ∈ control := by
  obtain ⟨more, hmore, hfollows⟩ := hfilled.collects
  rw [List.nil_append] at hmore
  subst hmore
  have hpending := hfollows.pending
  have hmem : 0x0A ∈ c.pending := by
    rw [h.framed]
    exact List.mem_append_right _ List.mem_cons_self
  cases atEnd with
  | true =>
      rw [(hfilled.ended rfl).1, List.append_nil] at hpending
      rw [← hpending]
      exact hmem
  | false =>
      rcases hfilled.stopped rfl with hstop | hlong
      · exact List.contains_iff_mem.mp hstop
      · -- the line has at most 512 bytes, so the newline is among the first 513
        have hline := length_le_of_authenticatedAccount h.authenticated
        have htake : line ++ [0x0A] = control.take (line.length + 1) := by
          calc line ++ [0x0A] = (line ++ 0x0A :: message).take (line.length + 1) := by
                rw [List.take_append]
                simp
            _ = (control ++ c'.pending).take (line.length + 1) := by rw [← h.framed, hpending]
            _ = control.take (line.length + 1) := by
                apply List.take_append_of_le_length
                unfold maxProtocolLineBytes at hlong
                omega
        have hin : 0x0A ∈ control.take (line.length + 1) := by
          rw [← htake]
          exact List.mem_append_right _ (List.mem_singleton_self _)
        exact List.mem_of_mem_take hin

/-- The handler reads exactly the requests, whatever the chunks are. -/
theorem receiveRequest_ok {result : Option (String × Bytes)}
    (h : receiveRequest token c = (.ok result, c')) (account : String) (message : Bytes) :
    result = some (account, message) ↔ ∃ line, Accepts token c.pending account line message := by
  unfold receiveRequest at h
  obtain ⟨⟨control, atEnd⟩, c₁, hfill, hrest⟩ := Exec.bind_eq_ok h
  have hfilled :
      Source.Filled (·.contains (0x0A : UInt8)) (maxProtocolLineBytes + 1) c c₁ [] control
      atEnd := Source.fillUntil_ok (by decide) (Nat.le_add_right _ _) hfill
  obtain ⟨more, hmore, hfollows⟩ := hfilled.collects
  rw [List.nil_append] at hmore
  dsimp only at hrest
  cases hpartition : partition [0x0A] control with
  | none =>
      rw [hpartition] at hrest
      cases hrest
      constructor
      · nofun
      · rintro ⟨line, haccepts⟩
        have hmem := newline_mem_control hfilled haccepts
        exact absurd hmem ((partition_singleton_eq_none_iff control).mp hpartition)
  | some parts =>
      obtain ⟨line, remainder⟩ := parts
      rw [hpartition] at hrest
      obtain ⟨hcontrol, hline⟩ := eq_of_partition_singleton hpartition
      have hlength := hfilled.length
      rw [hcontrol, List.length_append, List.length_cons, List.length_nil] at hlength
      have hpending : c.pending = line ++ 0x0A :: (remainder ++ c₁.pending) := by
        rw [hfollows.pending, ← hmore, hcontrol, List.append_assoc]
        rfl
      dsimp only at hrest
      rw [if_neg (by omega)] at hrest
      cases haccount : authenticatedAccount line token with
      | none =>
          rw [haccount] at hrest
          cases hrest
          constructor
          · nofun
          · rintro ⟨line', haccepts⟩
            obtain ⟨rfl, -⟩ := haccepts.eq_of_framed hpending hline
            rw [haccepts.authenticated] at haccount
            cases haccount
      | some found =>
          rw [haccount] at hrest
          have hbound : remainder.length ≤ maxFilterMessageBytes + 1 := by
            unfold maxFilterMessageBytes
            unfold maxProtocolLineBytes at hlength
            omega
          have hbody := receiveBody_ok hbound hrest
          rw [hbody]
          constructor
          · intro hresult
            split at hresult
            · next hbounds =>
                cases hresult
                exact ⟨line, hpending, hline, haccount, hbounds.1, hbounds.2⟩
            · cases hresult
          · rintro ⟨line', haccepts⟩
            obtain ⟨rfl, rfl⟩ := haccepts.eq_of_framed hpending hline
            rw [haccepts.authenticated] at haccount
            cases haccount
            rw [if_pos ⟨haccepts.nonempty, haccepts.bounded⟩]

/-- A transport that does not fail delivers the whole stream. -/
theorem receiveRequest_steady (hc : c.Steady) :
    ∃ result c', receiveRequest token c = (.ok result, c') := by
  unfold receiveRequest
  obtain ⟨⟨control, atEnd⟩, c₁, hfill⟩ :=
    @Source.Steady.fillUntil _ _ (·.contains (0x0A : UInt8)) 4096
    (maxProtocolLineBytes + 1) (maxProtocolLineBytes + 1) [] c hc
  have hfilled :
      Source.Filled (·.contains (0x0A : UInt8)) (maxProtocolLineBytes + 1) c c₁ [] control
      atEnd := Source.fillUntil_ok (by decide) (Nat.le_add_right _ _) hfill
  obtain ⟨more, -, hfollows⟩ := hfilled.collects
  rw [Exec.bind_of_ok hfill]
  dsimp only
  cases partition [0x0A] control with
  | none => exact ⟨_, _, rfl⟩
  | some parts =>
      dsimp only
      by_cases hline : maxProtocolLineBytes < parts.1.length
      · rw [if_pos hline]
        exact ⟨_, _, rfl⟩
      rw [if_neg hline]
      cases authenticatedAccount parts.1 token with
      | none => exact ⟨_, _, rfl⟩
      | some account =>
          obtain ⟨⟨body, bodyEnd⟩, c₂, hbody⟩ := @Source.Steady.fillUntil _ _ (fun _ => false)
            (64 * 1024) (maxFilterMessageBytes + 1) (maxFilterMessageBytes + 1) parts.2 c₁
            (hfollows.steady hc)
          dsimp only
          unfold receiveBody
          rw [Exec.bind_of_ok (show Source.fill _ _ _ c₁ = _ from hbody)]
          dsimp only
          cases bodyEnd && !body.isEmpty with
          | true => exact ⟨_, _, rfl⟩
          | false => exact ⟨_, _, rfl⟩

end Reading

/-! ## Answers -/

variable {env : FilterEnv} {disk : Disk} {c : Connection}

theorem handle_of_accepts (hc : c.Steady) (h : Accepts token c.pending account line message) :
    handle env disk token c = answer env disk account message := by
  obtain ⟨result, c', hrun⟩ := @receiveRequest_steady token c hc
  have hresult := (receiveRequest_ok hrun account message).mpr ⟨line, h⟩
  unfold handle
  rw [hrun, hresult]

theorem handle_cases (env : FilterEnv) (disk : Disk) (token : String) (c : Connection) :
    handle env disk token c = .ok [] ∨ ∃ account line message,
      Accepts token c.pending account line message ∧
        handle env disk token c = answer env disk account message := by
  unfold handle
  rcases hrun : receiveRequest token c with ⟨e | result, c'⟩
  · exact Or.inl rfl
  · cases result with
    | none => exact Or.inl rfl
    | some request =>
        obtain ⟨line, haccepts⟩ := (receiveRequest_ok hrun request.1 request.2).mp rfl
        exact Or.inr ⟨request.1, line, request.2, haccepts, rfl⟩

theorem answer_of_long (h : maxFilterMessageBytes < message.length) :
    answer env disk account message = .ok [] := by
  unfold answer evaluateFilterMessage
  cases canonicalizeEmail account with
  | none => rfl
  | some canonical =>
      dsimp only
      rw [if_neg (by omega)]
      rfl

theorem evaluateBridgePayload_of_accepts (h : Accepts token payload account line message)
    (hlength : payload.length ≤ maxProtocolLineBytes + maxFilterMessageBytes) :
    evaluateBridgePayload env disk token payload = answer env disk account message := by
  have hpayload := congrArg List.length h.framed
  rw [List.length_append, List.length_cons] at hpayload
  have hline := length_le_of_authenticatedAccount h.authenticated
  have hmessage : message ≠ [] := List.length_pos_iff.mp h.nonempty
  unfold evaluateBridgePayload
  rw [if_pos ⟨by omega, hlength⟩, h.framed, partition_of_framed h.oneLine]
  dsimp only
  rw [if_neg, h.authenticated]
  unfold maxProtocolLineBytes
  rintro (hnil | hlong)
  · exact hmessage hnil
  · omega

theorem evaluateBridgePayload_of_long
    (hlength : maxProtocolLineBytes + maxFilterMessageBytes < payload.length) :
    evaluateBridgePayload env disk token payload = .ok [] := by
  unfold evaluateBridgePayload
  rw [if_neg (by omega)]

theorem evaluateBridgePayload_cases (env : FilterEnv) (disk : Disk) (token : String)
    (payload : Bytes) :
    evaluateBridgePayload env disk token payload = .ok [] ∨ ∃ account line message,
      Accepts token payload account line message ∧
        evaluateBridgePayload env disk token payload = answer env disk account message := by
  unfold evaluateBridgePayload
  split
  swap
  · exact Or.inl rfl
  cases hpartition : partition [0x0A] payload with
  | none => exact Or.inl rfl
  | some parts =>
      obtain ⟨line, message⟩ := parts
      obtain ⟨hpayload, hline⟩ := eq_of_partition_singleton hpartition
      dsimp only
      split
      · exact Or.inl rfl
      next hshort =>
      cases haccount : authenticatedAccount line token with
      | none => exact Or.inl rfl
      | some account =>
          by_cases hlong : maxFilterMessageBytes < message.length
          · exact Or.inl (answer_of_long hlong)
          · refine Or.inr ⟨account, line, message, ⟨hpayload, hline, haccount, ?_, by omega⟩, rfl⟩
            exact List.length_pos_iff.mpr fun hnil => hshort (Or.inl hnil)

end MaddyWeb.Rules
