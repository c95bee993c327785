import MaddyWeb.Protocol.Frame

/-!
# Requests and responses

A request or a response cannot be built unless its constructor accepts it; what the
constructor checks is part of the value.
-/

namespace MaddyWeb.Protocol

open MaddyWeb.Library MaddyWeb.Library.Text

/-! ## Patterns -/

/-- `_ID_RE` -/
def isRequestId (text : String) : Bool :=
  text.toList ≠ [] && text.toList.length ≤ 64 &&
    text.toList.all fun c => c.isAlphanum || c == '_' || c == '.' || c == '-'

def isLowerName (text : List Char) : Bool :=
  match text with
  | [] => false
  | c :: rest => c.isLower && rest.all fun d => d.isLower || d.isDigit || d == '_'

/-- `_OPERATION_RE` -/
def isOperation (text : String) : Bool :=
  let parts := split ['.'] text.toList
  2 ≤ parts.length && parts.length ≤ 6 && parts.all isLowerName

/-- `_ERROR_CODE_RE` -/
def isErrorCode (text : String) : Bool := isLowerName text.toList && text.toList.length ≤ 64

/-- `_AUTH_TOKEN_RE` -/
def isAuthToken (text : String) : Bool :=
  text.toList.length == 43 && text.toList.all fun c => c.isAlphanum || c == '_' || c == '-'

/-! ## Checks -/

/-- `', '.join(sorted(names))` -/
def joinNames (names : List String) : String :=
  String.intercalate ", " (names.mergeSort fun a b => decide (a ≤ b))

/-- `_check_keys` -/
def checkKeys (payload : Fields) (allowed required : List String) : Except WireError Unit :=
  let unknown := (payload.map (·.1)).filter fun name => !allowed.contains name
  let missing := required.filter fun name => !payload.any (·.1 == name)
  if unknown ≠ [] then .error (.protocol ("unknown message field(s): " ++ joinNames unknown))
  else if missing ≠ [] then .error (.protocol ("missing message field(s): " ++ joinNames missing))
  else .ok ()

/-- `_check_identifier` -/
def checkIdentifier (valid : String → Bool) (name : String) (value : Option Json) :
    Except WireError {text : String // valid text = true} :=
  match value with
  | some (.str text) =>
      if h : valid text = true then .ok ⟨text, h⟩ else .error (.protocol ("invalid " ++ name))
  | _ => .error (.protocol ("invalid " ++ name))

theorem isAuthToken_none : ∀ text ∈ (none : Option String), isAuthToken text = true := nofun

/-- The checks of an optional authentication token. -/
def checkAuthToken (value : Option Json) :
    Except WireError {token : Option String // ∀ text ∈ token, isAuthToken text = true} :=
  match value with
  | none | some .null => .ok ⟨none, isAuthToken_none⟩
  | some (.str text) =>
      if h : isAuthToken text = true then .ok ⟨some text, by rintro _ ⟨⟩; exact h⟩
      else .error (.protocol "invalid authentication token")
  | some _ => .error (.protocol "invalid authentication token")

theorem isPositive_none : ∀ n ∈ (none : Option Int), 0 < n := nofun

/-- The checks of an optional stream length. -/
def checkStreamLength (e : String) (value : Option Json) :
    Except WireError {length : Option Int // ∀ n ∈ length, 0 < n} :=
  match value with
  | none | some .null => .ok ⟨none, isPositive_none⟩
  | some (.int n) =>
      if h : 0 < n then .ok ⟨some n, by rintro _ ⟨⟩; exact h⟩ else .error (.protocol e)
  | some _ => .error (.protocol e)

def protocolVersion : Int := 2

/-- `payload["version"] != PROTOCOL_VERSION` -/
def checkVersion (payload : Fields) : Except WireError Unit :=
  if ((Json.get? payload "version").getD .null).equalsInt protocolVersion then .ok ()
  else .error (.protocol "unsupported protocol version")

/-! ## Requests -/

/-- `Request` -/
structure Request where
  requestId : String
  operation : String
  params : Fields
  authToken : Option String
  streamLength : Option Int
  isRequestId : isRequestId requestId = true
  isOperation : isOperation operation = true
  validated : validateJsonValue maxDepth (.obj params) = .ok ()
  isAuthToken : ∀ text ∈ authToken, isAuthToken text = true
  isPositive : ∀ n ∈ streamLength, 0 < n

namespace Request

/-- `Request.__post_init__` -/
def make (requestId operation : Option Json) (params : Fields)
    (authToken streamLength : Option Json) :
    Except WireError Request := do
  let requestId ← checkIdentifier Protocol.isRequestId "request id" requestId
  let operation ← checkIdentifier Protocol.isOperation "operation" operation
  match h : validateJsonValue maxDepth (.obj params) with
  | .error e => throw e
  | .ok () =>
      let authToken ← checkAuthToken authToken
      let streamLength ← checkStreamLength "invalid stream_length" streamLength
      return ⟨requestId.1, operation.1, params, authToken.1, streamLength.1, requestId.2,
        operation.2, h, authToken.2, streamLength.2⟩

/-- `Request.from_payload` -/
def fromPayload (payload : Fields) : Except WireError Request := do
  checkKeys payload ["version", "id", "operation", "params", "auth_token", "stream_length"]
    ["version", "id", "operation", "params"]
  checkVersion payload
  match Json.get? payload "params" with
  | some (.obj params) =>
      make (Json.get? payload "id") (Json.get? payload "operation") params
        (Json.get? payload "auth_token") (Json.get? payload "stream_length")
  | _ => throw (.protocol "params must be an object")

/-- `Request.to_payload` -/
def toPayload (request : Request) : Fields :=
  [("version", .int protocolVersion), ("id", .str request.requestId),
    ("operation", .str request.operation), ("params", .obj request.params)] ++
    (request.authToken.map fun token => ("auth_token", Json.str token)).toList ++
    (request.streamLength.map fun length => ("stream_length", Json.int length)).toList

end Request

/-! ## Responses -/

/-- The checks of an error message. -/
def isErrorMessage (text : String) : Bool :=
  text.toList ≠ [] && text.toList.length ≤ 512 &&
    !text.toList.any fun c => c == '\r' || c == '\n' || c == '\x00'

/-- `ErrorPayload` -/
structure ErrorPayload where
  code : String
  message : String
  isErrorCode : isErrorCode code = true
  isErrorMessage : isErrorMessage message = true

def ErrorPayload.toPayload (error : ErrorPayload) : Fields :=
  [("code", .str error.code), ("message", .str error.message)]

/-- `ErrorPayload.__post_init__` -/
def ErrorPayload.make (code message : Option Json) : Except WireError ErrorPayload := do
  let code ← checkIdentifier Protocol.isErrorCode "error code" code
  match message with
  | some (.str text) =>
      if h : Protocol.isErrorMessage text = true then return ⟨code.1, text, code.2, h⟩
      else throw (.protocol "invalid error message")
  | _ => throw (.protocol "invalid error message")

/-- `isinstance(result, dict) and result == {"stream": True}` -/
def isStreamMarker : Json → Bool
  | .obj [(key, value)] => key == "stream" && value.equalsInt 1
  | _ => false

/-- `Response` -/
structure Response where
  requestId : String
  ok : Bool
  result : Json
  error : Option ErrorPayload
  streamLength : Option Int
  isRequestId : isRequestId requestId = true
  isError : error.isSome = !ok
  isStream : streamLength.isSome = true → ok = true
  isPositive : ∀ n ∈ streamLength, 0 < n
  isMarked : ok = true → streamLength.isSome = isStreamMarker result
  validated : validateJsonValue maxDepth result = .ok ()

namespace Response

/-- `Response.success` -/
def success (requestId : Option Json) (result : Json) (streamLength : Option Json) :
    Except WireError Response := do
  let requestId ← checkIdentifier Protocol.isRequestId "request id" requestId
  let streamLength ← checkStreamLength "invalid response stream_length" streamLength
  if hmarked : streamLength.1.isSome = isStreamMarker result then
    match h : validateJsonValue maxDepth result with
    | .error e => throw e
    | .ok () =>
        return ⟨requestId.1, true, result, none, streamLength.1, requestId.2, rfl, fun _ => rfl,
          streamLength.2, fun _ => hmarked, h⟩
  else throw (.protocol "response stream marker and stream_length do not match")

theorem isStream_none : (none : Option Int).isSome = true → false = true := nofun

theorem isMarked_null : false = true → (none : Option Int).isSome = isStreamMarker .null := nofun

theorem validated_null : validateJsonValue maxDepth .null = .ok () := rfl

theorem isError_some (error : ErrorPayload) : (some error).isSome = !false := rfl

/-- `Response.failure`, with the error that has been built. -/
def failure (requestId : Option Json) (error : ErrorPayload) : Except WireError Response := do
  let requestId ← checkIdentifier Protocol.isRequestId "request id" requestId
  return ⟨requestId.1, false, .null, some error, none, requestId.2, isError_some error,
    isStream_none, isPositive_none, isMarked_null, validated_null⟩

/-- The failed response of a payload. -/
def failureFrom (payload : Fields) : Except WireError Response :=
  if payload.any (·.1 == "result") then .error (.protocol "failed response contains a result")
  else if payload.any (·.1 == "stream_length") then
    .error (.protocol "failed response contains a stream")
  else
    match Json.get? payload "error" with
    | some (.obj raw) => do
        checkKeys raw ["code", "message"] ["code", "message"]
        let error ← ErrorPayload.make (Json.get? raw "code") (Json.get? raw "message")
        failure (Json.get? payload "id") error
    | _ => .error (.protocol "failed response is missing its error object")

/-- `Response.from_payload` -/
def fromPayload (payload : Fields) : Except WireError Response := do
  checkKeys payload ["version", "id", "ok", "result", "error", "stream_length"]
    ["version", "id", "ok"]
  checkVersion payload
  match Json.get? payload "ok" with
  | some (.bool true) =>
      if payload.any (·.1 == "error") then throw (.protocol "successful response contains an error")
      else
        success (Json.get? payload "id") ((Json.get? payload "result").getD .null)
          (Json.get? payload "stream_length")
  | some (.bool false) => failureFrom payload
  | _ => throw (.protocol "ok must be a boolean")

/-- `Response.to_payload` -/
def toPayload (response : Response) : Fields :=
  [("version", .int protocolVersion), ("id", .str response.requestId), ("ok", .bool response.ok)] ++
    if response.ok then
      ("result", response.result) ::
        (response.streamLength.map fun length => ("stream_length", Json.int length)).toList
    else (response.error.map fun error => ("error", Json.obj error.toPayload)).toList

end Response

end MaddyWeb.Protocol
