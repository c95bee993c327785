import MaddyWeb.Library.Stream
import MaddyWeb.Library.Utf8

/-!
# Frames of the local protocol

A frame is four bytes with the length of the body in network order, and the body: one JSON
object in UTF-8.
-/

namespace MaddyWeb.Protocol

open MaddyWeb.Library

/-- The exceptions of the protocol and of the operations that it calls. -/
inductive WireError
  | protocol (message : String)
  | frameTooLarge (message : String)
  | closed
  | stream (message : String)
  | streamTooLarge (message : String)
  | streamTruncated (message : String)
  | value (message : String)
  | struct
  | os
  | runtime (message : String)
  deriving DecidableEq, Repr

abbrev Peer := Source WireError UInt8

structure FrameEnv where
  /-- `json.loads` with hooks that refuse a constant or a float: nothing for a `ValueError` or
  a `RecursionError`. -/
  loads : List Char → Option Json

/-! ## Values -/

/-- `value.bit_length() <= 64` -/
def isBounded (value : Int) : Bool := decide (value.natAbs < 2 ^ 64)

/-- `_validate_json_value`, with the levels that are left. -/
def validateJsonValue : Nat → Json → Except WireError Unit
  | 0, _ => .error (.protocol "JSON nesting is too deep")
  | depth + 1, .arr items => items.forM (validateJsonValue depth)
  | depth + 1, .obj fields => fields.forM fun field => validateJsonValue depth field.2
  | _ + 1, .int value =>
      if isBounded value then .ok ()
      else .error (.protocol "JSON integer is outside the supported range")
  | _ + 1, .float text =>
      if ["nan", "inf", "-inf"].contains text then .error (.protocol "non-finite JSON number")
      else .ok ()
  | _ + 1, _ => .ok ()

def maxDepth : Nat := 33

/-- Every integer passes `_bounded_int`. -/
def intsBounded (value : Json) : Bool :=
  value.allScalars fun
    | .int number => isBounded number
    | _ => true

/-! ## Encoding and decoding -/

/-- `struct.Struct("!I").pack` -/
def packLength (n : Nat) : Bytes :=
  [(n / 2 ^ 24 % 256).toUInt8, (n / 2 ^ 16 % 256).toUInt8, (n / 2 ^ 8 % 256).toUInt8,
    (n % 256).toUInt8]

/-- `struct.Struct("!I").unpack` -/
def unpackLength (header : Bytes) : Nat := header.foldl (fun n b => n * 256 + b.toNat) 0

abbrev Fields := List (String × Json)

/-- The body of a frame. -/
def encodeBody (message : Fields) : Bytes := utf8 ((Json.obj message).sortKeys.render false)

/-- `encode_frame` -/
def encodeFrame (maxBytes : Nat) (message : Fields) : Except WireError Bytes := do
  if maxBytes = 0 then throw (.value "max_bytes must be positive")
  else
    validateJsonValue maxDepth (.obj message)
    let body := encodeBody message
    if maxBytes < body.length then
      throw (.frameTooLarge ("frame exceeds " ++ toString maxBytes ++ " bytes"))
    else if 2 ^ 32 ≤ body.length then throw .struct
    else return packLength body.length ++ body

/-- The value of a body, or what `json.loads` raises. -/
def parseBody (env : FrameEnv) (payload : Bytes) : Except WireError Json :=
  match utf8Decode payload with
  | none => .error (.protocol "frame body is not valid UTF-8")
  | some text =>
      match env.loads text with
      | some value =>
          if intsBounded value then .ok value
          else .error (.protocol "frame body is not valid JSON")
      | none => .error (.protocol "frame body is not valid JSON")

/-- `decode_payload` -/
def decodePayload (env : FrameEnv) (maxBytes : Nat) (payload : Bytes) : Except WireError Fields :=
  if payload = [] then .error (.protocol "empty JSON body")
  else if maxBytes < payload.length then
    .error (.frameTooLarge ("frame exceeds " ++ toString maxBytes ++ " bytes"))
  else do
    match ← parseBody env payload with
    | .obj fields =>
        validateJsonValue maxDepth (.obj fields)
        return fields
    | _ => throw (.protocol "a protocol message must be a JSON object")

/-- `_recv_exact` and `_read_exact_stream` -/
def readExact (size : Nat) : Exec Peer WireError Bytes := do
  let (chunks, atEnd) ← Source.fill size size []
  if atEnd then Exec.raise .closed else return chunks

/-- The common body of `receive_frame` and `read_frame`. -/
def frameFrom (env : FrameEnv) (maxBytes : Nat) : Exec Peer WireError Fields := do
  let header ← readExact 4
  let length := unpackLength header
  if length = 0 then Exec.raise (.protocol "zero-length frame")
  else if maxBytes < length then
    Exec.raise (.frameTooLarge ("peer advertised " ++ toString length ++ " bytes; limit is " ++
      toString maxBytes))
  else do
    let payload ← readExact length
    Exec.ofExcept (decodePayload env maxBytes payload)

/-- `receive_frame`, over a socket -/
def receiveFrame (env : FrameEnv) (maxBytes : Nat) : Exec Peer WireError Fields :=
  frameFrom env maxBytes

/-- `read_frame`, over a binary stream -/
def readFrame (env : FrameEnv) (maxBytes : Nat) : Exec Peer WireError Fields :=
  frameFrom env maxBytes

/-- A number of frames, one after the other. -/
def framesOf (next : Exec Peer WireError Fields) : Nat → Exec Peer WireError (List Fields)
  | 0 => return []
  | n + 1 => do
      let message ← next
      let others ← framesOf next n
      return message :: others

end MaddyWeb.Protocol
