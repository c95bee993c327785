import MaddyWeb.Library.Fallible
import MaddyWeb.Protocol.Message

/-!
# Round trips of the protocol

What one side encodes the other side decodes: frames in every chunking of the stream, one
after the other, and requests and responses as payloads.
-/

namespace MaddyWeb.Protocol

open MaddyWeb.Library

/-! ## Bodies -/

theorem validateJsonValue_sortKeys {depth : Nat} {value : Json}
    (h : validateJsonValue depth value = .ok ()) :
    validateJsonValue depth value.sortKeys = .ok () := by
  induction depth generalizing value with
  | zero => cases h
  | succ depth ih =>
      cases value with
      | arr items =>
          rw [Json.sortKeys, Json.sortItems_eq, validateJsonValue, Fallible.forM_eq_ok_iff]
          rw [validateJsonValue, Fallible.forM_eq_ok_iff] at h
          intro item hitem
          obtain ⟨other, hother, rfl⟩ := List.mem_map.mp hitem
          exact ih (h other hother)
      | obj fields =>
          rw [Json.sortKeys, validateJsonValue, Fallible.forM_eq_ok_iff]
          rw [validateJsonValue, Fallible.forM_eq_ok_iff] at h
          intro field hfield
          obtain ⟨other, hother, rfl⟩ := Json.mem_sortFields.mp hfield
          exact ih (h other hother)
      | _ => exact h

/-- A value that passes the depth and range checks passes the hook for integers. -/
theorem intsBounded_of_validate {depth : Nat} {value : Json}
    (h : validateJsonValue depth value = .ok ()) : intsBounded value = true := by
  unfold intsBounded
  induction depth generalizing value with
  | zero => cases h
  | succ depth ih =>
      cases value with
      | arr items =>
          rw [validateJsonValue, Fallible.forM_eq_ok_iff] at h
          rw [Json.allScalars, Json.allItems_iff]
          exact fun item hitem => ih (h item hitem)
      | obj fields =>
          rw [validateJsonValue, Fallible.forM_eq_ok_iff] at h
          rw [Json.allScalars, Json.allFields_iff]
          exact fun field hfield => ih (h field hfield)
      | int number =>
          rw [validateJsonValue] at h
          split at h
          · next hbounded => exact hbounded
          · cases h
      | _ => rfl

variable {env : FrameEnv} {maxBytes : Nat} {message : Fields} {frame : Bytes}

/-- `json.loads` reads back what `json.dumps` wrote. -/
def ReadsBack (env : FrameEnv) (message : Fields) : Prop :=
  env.loads ((Json.obj message).sortKeys.render false) = some (Json.obj message).sortKeys

/-- What `encode_frame` has checked. -/
structure Encoded (maxBytes : Nat) (message : Fields) (frame : Bytes) : Prop where
  validated : validateJsonValue maxDepth (.obj message) = .ok ()
  bounded : (encodeBody message).length ≤ maxBytes
  packed : (encodeBody message).length < 2 ^ 32
  frame : frame = packLength (encodeBody message).length ++ encodeBody message

theorem encodeFrame_ok (h : encodeFrame maxBytes message = .ok frame) :
    Encoded maxBytes message frame := by
  unfold encodeFrame at h
  split at h
  · cases h
  obtain ⟨_, hvalidated, h⟩ := Fallible.bind_eq_ok h
  dsimp only at h
  split at h
  · cases h
  next hbounded =>
  split at h
  · cases h
  next hpacked =>
  cases h
  exact ⟨hvalidated, by omega, by omega, rfl⟩

theorem encodeBody_ne_nil (message : Fields) : encodeBody message ≠ [] := by
  apply utf8_ne_nil
  rw [Json.sortKeys, Json.render]
  simp

/-- Every body that can be produced is accepted. -/
theorem decodePayload_encodeBody (hvalidated : validateJsonValue maxDepth (.obj message) = .ok ())
    (hbounded : (encodeBody message).length ≤ maxBytes) (hreads : ReadsBack env message) :
    decodePayload env maxBytes (encodeBody message) = .ok (Json.sortFields message) := by
  have hsorted := validateJsonValue_sortKeys hvalidated
  have hints := intsBounded_of_validate hsorted
  have hparse : parseBody env (encodeBody message) = .ok (Json.obj message).sortKeys := by
    unfold parseBody encodeBody
    rw [utf8Decode_utf8]
    dsimp only
    rw [hreads]
    dsimp only
    rw [if_pos hints]
  unfold decodePayload
  rw [if_neg (encodeBody_ne_nil message), if_neg (by omega), hparse, Json.sortKeys]
  rw [Json.sortKeys] at hsorted
  show (validateJsonValue maxDepth (.obj (Json.sortFields message)) >>= fun _ => _) = _
  rw [hsorted]
  rfl

/-! ## Streams -/

theorem unpackLength_packLength {n : Nat} (h : n < 2 ^ 32) : unpackLength (packLength n) = n := by
  unfold unpackLength packLength
  simp
  omega

section Reading

variable {c : Peer} {front rest : Bytes} (hc : c.Steady)

include hc

theorem readExact_eq (hpending : c.pending = front ++ rest) (hsize : 0 < front.length) :
    ∃ c', readExact front.length c = (.ok front, c') ∧ c'.pending = rest ∧ c'.Steady := by
  obtain ⟨⟨chunks, atEnd⟩, c', hfill⟩ := @Source.Steady.fillUntil _ _ (fun _ => false) front.length
    front.length front.length [] c hc
  have hfill' : Source.fill front.length front.length [] c = (.ok (chunks, atEnd), c') := hfill
  obtain ⟨hchunks, hfollows, hend⟩ := Source.fill_ok hsize (Nat.zero_le _) hfill'
  rw [List.nil_append, hpending, List.take_left] at hchunks
  have hatEnd : atEnd = false := by
    rw [← Bool.not_eq_true, hend, hpending, List.nil_append, List.length_append]
    omega
  refine ⟨c', ?_, ?_, hfollows.steady hc⟩
  · unfold readExact
    rw [Exec.bind_of_ok hfill', hchunks, hatEnd]
    rfl
  · have hrest := hfollows.pending
    rw [hpending, List.length_nil, Nat.sub_zero, List.take_left] at hrest
    exact (List.append_cancel_left hrest).symm

/-- A frame is read in every chunking, and what follows it is left. -/
theorem frameFrom_eq (hencoded : Encoded maxBytes message frame) (hreads : ReadsBack env message)
    (hpending : c.pending = frame ++ rest) :
    ∃ c', frameFrom env maxBytes c = (.ok (Json.sortFields message), c') ∧ c'.pending = rest ∧
      c'.Steady := by
  rw [hencoded.frame, List.append_assoc] at hpending
  have hpositive := List.length_pos_iff.mpr (encodeBody_ne_nil message)
  obtain ⟨c₁, hheader, hpending₁, hc₁⟩ :=
    @readExact_eq c (packLength (encodeBody message).length) _ hc
    hpending (Nat.succ_pos 3)
  obtain ⟨c₂, hbody, hpending₂, hc₂⟩ := readExact_eq hc₁ hpending₁ hpositive
  refine ⟨c₂, ?_, hpending₂, hc₂⟩
  have hbounded := hencoded.bounded
  unfold frameFrom
  rw [Exec.bind_of_ok (show readExact 4 c = _ from hheader),
    unpackLength_packLength hencoded.packed, if_neg (by omega), if_neg (by omega),
    Exec.bind_of_ok hbody]
  show (decodePayload env maxBytes (encodeBody message), c₂) = _
  rw [decodePayload_encodeBody hencoded.validated hencoded.bounded hreads]

/-- A length of zero or above the limit is refused with nothing read but the header. -/
theorem frameFrom_refused {header : Bytes} (hheader : header.length = 4)
    (hlength : unpackLength header = 0 ∨ maxBytes < unpackLength header)
    (hpending : c.pending = header ++ rest) :
    ∃ e c', frameFrom env maxBytes c = (.error e, c') ∧ c'.pending = rest := by
  obtain ⟨c₁, hread, hpending₁, -⟩ := readExact_eq hc hpending (by omega)
  rw [hheader] at hread
  unfold frameFrom
  rw [Exec.bind_of_ok hread]
  by_cases hzero : unpackLength header = 0
  · rw [if_pos hzero]
    exact ⟨_, c₁, rfl, hpending₁⟩
  · rw [if_neg hzero, if_pos (hlength.resolve_left hzero)]
    exact ⟨_, c₁, rfl, hpending₁⟩

end Reading

/-- The frames of a list of messages are read one after the other. -/
theorem framesOf_eq {messages : List Fields} {frames : List Bytes}
    (hencode : messages.mapM (encodeFrame maxBytes) = .ok frames)
    (hreads : ∀ message ∈ messages, ReadsBack env message) {c : Peer} (hc : c.Steady) {rest : Bytes}
    (hpending : c.pending = frames.flatten ++ rest) :
    ∃ c', framesOf (frameFrom env maxBytes) messages.length c =
      (.ok (messages.map Json.sortFields), c') ∧ c'.pending = rest := by
  induction messages generalizing frames c with
  | nil =>
      cases hencode
      exact ⟨c, rfl, hpending⟩
  | cons message messages ih =>
      rw [List.mapM_cons] at hencode
      obtain ⟨frame, hframe, hencode⟩ := Fallible.bind_eq_ok hencode
      obtain ⟨others, hothers, hencode⟩ := Fallible.bind_eq_ok hencode
      cases hencode
      rw [List.flatten_cons, List.append_assoc] at hpending
      obtain ⟨c₁, hfirst, hpending₁, hc₁⟩ := frameFrom_eq hc (encodeFrame_ok hframe)
        (hreads message List.mem_cons_self) hpending
      obtain ⟨c₂, hrest, hpending₂⟩ := ih hothers
        (fun other hother => hreads other (List.mem_cons_of_mem _ hother)) hc₁ hpending₁
      refine ⟨c₂, ?_, hpending₂⟩
      rw [List.length_cons, framesOf, Exec.bind_of_ok hfirst, Exec.bind_of_ok hrest]
      rfl

/-! ## Requests -/

theorem checkIdentifier_of {valid : String → Bool} {name text : String} (h : valid text = true) :
    checkIdentifier valid name (some (.str text)) = .ok ⟨text, h⟩ := by
  unfold checkIdentifier
  dsimp only
  rw [dif_pos h]

theorem checkAuthToken_of {token : Option String} (h : ∀ text ∈ token, isAuthToken text = true) :
    checkAuthToken (token.map .str) = .ok ⟨token, h⟩ := by
  cases token with
  | none => rfl
  | some text =>
      unfold checkAuthToken
      rw [Option.map_some]
      dsimp only
      rw [dif_pos (h text rfl)]

theorem checkStreamLength_of {e : String} {length : Option Int} (h : ∀ n ∈ length, 0 < n) :
    checkStreamLength e (length.map .int) = .ok ⟨length, h⟩ := by
  cases length with
  | none => rfl
  | some n =>
      unfold checkStreamLength
      rw [Option.map_some]
      dsimp only
      rw [dif_pos (h n rfl)]

theorem Request.make_eq (request : Request) :
    Request.make (some (.str request.requestId)) (some (.str request.operation)) request.params
      (request.authToken.map .str) (request.streamLength.map .int) = .ok request := by
  unfold Request.make
  rw [checkIdentifier_of request.isRequestId, checkIdentifier_of request.isOperation,
    checkAuthToken_of request.isAuthToken, checkStreamLength_of request.isPositive]
  simp only [Fallible.ok_bind]
  split
  · next e h =>
      rw [request.validated] at h
      cases h
  · rfl

/-- What the receiver finds in the payload of a request. -/
structure Request.Describes (request : Request) (payload : Fields) : Prop where
  keys : checkKeys payload ["version", "id", "operation", "params", "auth_token", "stream_length"]
    ["version", "id", "operation", "params"] = .ok ()
  version : checkVersion payload = .ok ()
  params : Json.get? payload "params" = some (.obj request.params)
  requestId : Json.get? payload "id" = some (.str request.requestId)
  operation : Json.get? payload "operation" = some (.str request.operation)
  authToken : Json.get? payload "auth_token" = request.authToken.map .str
  streamLength : Json.get? payload "stream_length" = request.streamLength.map .int

theorem Request.describes_toPayload (request : Request) : request.Describes request.toPayload := by
  unfold Request.toPayload
  cases htoken : request.authToken <;> cases hlength : request.streamLength <;>
    (constructor <;>
      simp [checkKeys, checkVersion, Json.get?, Json.equalsInt, protocolVersion, htoken, hlength])

theorem Request.fromPayload_eq {request : Request} {payload : Fields}
    (h : request.Describes payload) :
    Request.fromPayload payload = .ok request := by
  unfold Request.fromPayload
  rw [h.keys, h.version, h.params, h.requestId, h.operation, h.authToken, h.streamLength]
  exact request.make_eq

/-! ## Responses -/

theorem ErrorPayload.make_eq (error : ErrorPayload) :
    ErrorPayload.make (some (.str error.code)) (some (.str error.message)) = .ok error := by
  unfold ErrorPayload.make
  rw [checkIdentifier_of error.isErrorCode]
  show (if h : Protocol.isErrorMessage error.message = true then _ else _) = _
  rw [dif_pos error.isErrorMessage]
  rfl

theorem Response.success_eq {response : Response} (hok : response.ok = true) :
    Response.success (some (.str response.requestId)) response.result
      (response.streamLength.map .int) = .ok response := by
  obtain ⟨requestId, ok, result, error, streamLength, hid, hisError, hstream, hpositive, hmarked,
    hvalid⟩ := response
  dsimp only at hok ⊢
  subst hok
  have herror : error = none := Option.isNone_iff_eq_none.mp (by simpa using hisError)
  subst herror
  unfold Response.success
  rw [checkIdentifier_of hid, checkStreamLength_of hpositive]
  show (if h : streamLength.isSome = isStreamMarker result then _ else _) = _
  rw [dif_pos (hmarked rfl)]
  split
  · next e h =>
      rw [hvalid] at h
      cases h
  · rfl

/-- A failed response as the receiver builds it. -/
def Response.failed (requestId : String) (h : Protocol.isRequestId requestId = true)
    (error : ErrorPayload) :
    Response :=
  ⟨requestId, false, .null, some error, none, h, isError_some error, isStream_none, isPositive_none,
    isMarked_null, validated_null⟩

theorem Response.fromPayload_of_ok {response : Response} (hok : response.ok = true) :
    Response.fromPayload response.toPayload = .ok response := by
  have hsuccess := response.success_eq hok
  unfold Response.fromPayload Response.toPayload
  rw [hok, if_pos rfl]
  cases hlength : response.streamLength with
  | none =>
      rw [hlength] at hsuccess
      exact hsuccess
  | some length =>
      rw [hlength] at hsuccess
      exact hsuccess

/-- The result of a failed response is not sent. -/
theorem Response.fromPayload_of_failed {response : Response} {error : ErrorPayload}
    (hok : response.ok = false) (herror : response.error = some error) :
    Response.fromPayload response.toPayload =
      .ok (Response.failed response.requestId response.isRequestId error) := by
  unfold Response.fromPayload Response.toPayload
  rw [hok, herror]
  have hfailure : Response.failure (some (.str response.requestId)) error =
      .ok (Response.failed response.requestId response.isRequestId error) := by
    unfold Response.failure
    rw [checkIdentifier_of response.isRequestId]
    rfl
  have hmake := error.make_eq
  show (ErrorPayload.make (some (.str error.code)) (some (.str error.message)) >>= fun error =>
    Response.failure (some (.str response.requestId)) error) = _
  rw [hmake]
  exact hfailure

theorem Response.fromPayload_toPayload_iff (response : Response) :
    Response.fromPayload response.toPayload = .ok response ↔
      response.ok = true ∨ response.result = .null := by
  cases hok : response.ok with
  | true => exact ⟨fun _ => Or.inl rfl, fun _ => Response.fromPayload_of_ok hok⟩
  | false =>
      have hisError := response.isError
      rw [hok] at hisError
      obtain ⟨error, herror⟩ := Option.isSome_iff_exists.mp hisError
      have hlength : response.streamLength = none := by
        cases hlength : response.streamLength with
        | none => rfl
        | some length =>
            have hstream := response.isStream (by rw [hlength]; rfl)
            rw [hok] at hstream
            cases hstream
      rw [Response.fromPayload_of_failed hok herror]
      constructor
      · intro heq
        right
        rw [← Except.ok.inj heq]
        rfl
      · rintro (hcontra | hresult)
        · cases hcontra
        · obtain ⟨requestId, ok, result, error', streamLength, _, _, _, _, _, _⟩ := response
          subst hok herror hlength hresult
          rfl

/-! ## The protocol -/

/-- Frames, requests and successful responses come back as they were sent; a failed response
does so exactly if it carries no result. -/
theorem protocol_round_trip (env : FrameEnv) (maxBytes : Nat) (messages : List Fields)
    (frames : List Bytes) (hencode : messages.mapM (encodeFrame maxBytes) = .ok frames)
    (hreads : ∀ message ∈ messages, ReadsBack env message) :
    (∀ next, next = receiveFrame env maxBytes ∨ next = readFrame env maxBytes →
      ∀ (c : Peer) (rest : Bytes), c.Steady → c.pending = frames.flatten ++ rest →
        ∃ c', framesOf next messages.length c = (.ok (messages.map Json.sortFields), c') ∧
          c'.pending = rest) ∧
    (∀ message ∈ messages, (Json.obj (Json.sortFields message)).sortKeys =
      (Json.obj message).sortKeys) ∧
    (∀ message ∈ messages,
      decodePayload env maxBytes (encodeBody message) = .ok (Json.sortFields message)) ∧
    (∀ request : Request, Request.fromPayload request.toPayload = .ok request) ∧
    (∀ response : Response, Response.fromPayload response.toPayload = .ok response ↔
      response.ok = true ∨ response.result = .null) ∧
    ∀ next, next = receiveFrame env maxBytes ∨ next = readFrame env maxBytes →
      ∀ (c : Peer) (header rest : Bytes), c.Steady → header.length = 4 →
        c.pending = header ++ rest → (unpackLength header = 0 ∨ maxBytes < unpackLength header) →
        ∃ e c', next c = (.error e, c') ∧ c'.pending = rest := by
  have hframe : ∀ next, next = receiveFrame env maxBytes ∨ next = readFrame env maxBytes →
      next = frameFrom env maxBytes := by
    rintro next (rfl | rfl)
    · rfl
    · rfl
  refine ⟨?_, ?_, ?_, ?_, Response.fromPayload_toPayload_iff, ?_⟩
  · intro next hnext c rest hc hpending
    rw [hframe next hnext]
    exact framesOf_eq hencode hreads hc hpending
  · intro message _
    have hsorted := Json.sortKeys_sortKeys (.obj message)
    rwa [Json.sortKeys] at hsorted
  · intro message hmessage
    obtain ⟨frame, hframe⟩ := Fallible.mapM_ok_of_mem hencode hmessage
    have hencoded := encodeFrame_ok hframe
    exact decodePayload_encodeBody hencoded.validated hencoded.bounded (hreads message hmessage)
  · exact fun request => Request.fromPayload_eq request.describes_toPayload
  · intro next hnext c header rest hc hheader hpending hlength
    rw [hframe next hnext]
    exact frameFrom_refused hc hheader hlength hpending

def sampleMessages : List Fields :=
  [[("version", .int 2), ("id", .str "a1")], [("items", .arr [.null, .bool true])]]

def sampleFrameEnv : FrameEnv where
  loads text := (sampleMessages.map fun message => (Json.obj message).sortKeys).find? fun value =>
    value.render false == text

theorem sampleMessages_reads : ∀ message ∈ sampleMessages, ReadsBack sampleFrameEnv message := by
  intro message hmessage
  rcases List.mem_cons.mp hmessage with rfl | hmessage
  · rfl
  · rw [List.mem_singleton.mp hmessage]
    rfl

theorem protocol_round_trip_sample :
    ∃ c', framesOf (receiveFrame sampleFrameEnv 64) 2
      ⟨(sampleMessages.flatMap fun message => packLength (encodeBody message).length ++
        encodeBody message) ++ [7], fun n => .ok (n % 3), 0⟩ =
        (.ok (sampleMessages.map Json.sortFields), c') ∧ c'.pending = [7] :=
  (protocol_round_trip sampleFrameEnv 64 sampleMessages (sampleMessages.map fun message =>
    packLength (encodeBody message).length ++ encodeBody message) (by decide +kernel)
    sampleMessages_reads).1 _ (Or.inl rfl) _ [7] (fun n => ⟨n % 3, rfl⟩) rfl

/-- A failed response that carries a result. -/
def failedWithResult : Response :=
  ⟨"a1", false, .int 1, some ⟨"denied", "No access", by decide, by decide⟩, none, by decide, rfl,
    Response.isStream_none, isPositive_none, nofun, rfl⟩

theorem failed_response_loses_result :
    Response.fromPayload failedWithResult.toPayload ≠ .ok failedWithResult := by
  intro heq
  rcases (Response.fromPayload_toPayload_iff failedWithResult).mp heq with hok | hresult
  · cases hok
  · cases hresult

end MaddyWeb.Protocol
