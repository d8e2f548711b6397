import GhostText.Json.Convert

/-!
# Messages

Requests, responses and notifications, as values and read from values. A value is one of the three
by which keys it has and what stands under them; for anything else there is a reason.
-/

namespace GhostText

/-- The error codes with a name: those of JSON-RPC and those reserved for the language protocol. -/
inductive ErrorCode where
  | parseError
  | invalidRequest
  | methodNotFound
  | invalidParams
  | internalError
  | serverNotInitialized
  | unknownErrorCode
  | requestFailed
  | serverCancelled
  | contentModified
  | requestCancelled
  deriving DecidableEq, Repr

namespace ErrorCode

def all : List ErrorCode :=
  [.parseError, .invalidRequest, .methodNotFound, .invalidParams, .internalError,
    .serverNotInitialized, .unknownErrorCode, .requestFailed, .serverCancelled, .contentModified,
    .requestCancelled]

def code : ErrorCode → Int
  | .parseError => -32700
  | .invalidRequest => -32600
  | .methodNotFound => -32601
  | .invalidParams => -32602
  | .internalError => -32603
  | .serverNotInitialized => -32002
  | .unknownErrorCode => -32001
  | .requestFailed => -32803
  | .serverCancelled => -32802
  | .contentModified => -32801
  | .requestCancelled => -32800

def name : ErrorCode → String
  | .parseError => "ParseError"
  | .invalidRequest => "InvalidRequest"
  | .methodNotFound => "MethodNotFound"
  | .invalidParams => "InvalidParams"
  | .internalError => "InternalError"
  | .serverNotInitialized => "ServerNotInitialized"
  | .unknownErrorCode => "UnknownErrorCode"
  | .requestFailed => "RequestFailed"
  | .serverCancelled => "ServerCancelled"
  | .contentModified => "ContentModified"
  | .requestCancelled => "RequestCancelled"

/-- The name of a code, if it has one. -/
def nameOf? (n : Int) : Option String := (all.find? fun c => c.code == n).map name

/-- The name of the code a value stands for; a value that is no number has none. -/
def nameOfJson (v : Json) : Except Fault (Option String) :=
  match v.toInteger with
  | .ok n => .ok (nameOf? n)
  | .error f => if f.kind = .value then .ok none else .error f

end ErrorCode

namespace ResponseError

def of (code : ErrorCode) (message : String) : ResponseError := ⟨code.code, message, none⟩

/-- An error from values for its parts. -/
def ofParts (code message : Json) (data : Option Json) : Except Fault ResponseError := do
  let n ← code.toInteger
  return ⟨n, message.shown, data⟩

/-- An error from an object with a code and a message. -/
def ofJson (v : Json) : Except Fault ResponseError :=
  match v.field? "code", v.field? "message" with
  | none, _ => .error (.missingKey "code")
  | _, none => .error (.missingKey "message")
  | some code, some message => ofParts code message (v.field? "data")

/-- The name of an error ends with the word for it. -/
def name (e : ResponseError) : String :=
  let n := (ErrorCode.nameOf? e.code).getD "UnknownError"
  if "Error".toList.isSuffixOf n.toList then n else n ++ "Error"

def toJson (e : ResponseError) : Json :=
  .obj ([("code", .int e.code), ("message", .str e.message)] ++
    (e.data.map fun d => ("data", d)).toList)

def same (e f : ResponseError) : Bool := e.toJson.same f.toJson

def shown (e : ResponseError) : String :=
  "ResponseError(code=" ++ (Json.int e.code).shown ++ ", message=" ++ Text.quoted e.message ++ ")"

end ResponseError

/-- How much a log record matters. -/
inductive LogLevel where
  | debug
  | info
  | warning
  | error
  | critical
  deriving DecidableEq, Repr

namespace LogLevel

def name : LogLevel → String
  | .debug => "DEBUG"
  | .info => "INFO"
  | .warning => "WARNING"
  | .error => "ERROR"
  | .critical => "CRITICAL"

def number : LogLevel → Nat
  | .debug => 10
  | .info => 20
  | .warning => 30
  | .error => 40
  | .critical => 50

/-- The level of a message shown to the user, by its type; unknown types are information. -/
def ofMessageType (v : Json) : Except Fault LogLevel :=
  match v.toInteger with
  | .ok 1 => .ok .error
  | .ok 2 => .ok .warning
  | .ok 4 => .ok .debug
  | .ok 5 => .ok .debug
  | .ok _ => .ok .info
  | .error f => if f.kind = .value ∨ f.kind = .type then .ok .info else .error f

end LogLevel

/-- A message. The identifier of a request or a response is an integer, a text or null when it comes
from the peer. -/
inductive Message where
  | request (id : Json) (method : String) (params : Json)
  | response (id result : Json) (error : Option ResponseError)
  | notification (method : String) (params : Json)

namespace Message

/-- Parameters are left out when there are none. -/
def paramsField (params : Json) : Fields := if params.isNull then [] else [("params", params)]

def toJson : Message → Json
  | .request id method params =>
    .obj ([("jsonrpc", .str "2.0"), ("id", id), ("method", .str method)] ++ paramsField params)
  | .response id _ (some e) => .obj [("jsonrpc", .str "2.0"), ("id", id), ("error", e.toJson)]
  | .response id result none => .obj [("jsonrpc", .str "2.0"), ("id", id), ("result", result)]
  | .notification method params =>
    .obj ([("jsonrpc", .str "2.0"), ("method", .str method)] ++ paramsField params)

/-- Why a value is no message. -/
inductive Violation where
  | notObject
  | noVersion
  | badId
  | badParams
  | resultAndError
  | badError
  | noMethod
  | methodAndResult
  deriving DecidableEq, Repr

def Violation.message : Violation → String
  | .notObject => "payload is not an object"
  | .noVersion => "missing jsonrpc version tag"
  | .badId => "id must be an integer, a string or null"
  | .badParams => "params must be an array or an object"
  | .resultAndError => "response carries both result and error"
  | .badError => "malformed response error"
  | .noMethod => "missing method"
  | .methodAndResult => "message mixes method with result/error"

def isId (v : Json) : Bool := v.isNull || v.isInteger || v.isText

/-- An object with an integer code and a text for a message. -/
def isErrorObject (v : Json) : Bool :=
  v.isObject && (v.fieldD "code").isInteger && (v.fieldD "message").isText

/-- The error in an error object. -/
def errorOf? (v : Json) : Option ResponseError :=
  match v.isObject, v.field? "code", v.field? "message" with
  | true, some (.int code), some (.str message) => some ⟨code, message, v.field? "data"⟩
  | _, _, _ => none

/-- The message a value is, however deep the value is nested. -/
def classify (v : Json) : Except Violation Message :=
  let id := v.field? "id"
  let method := v.field? "method"
  let params := v.field? "params"
  let result := v.field? "result"
  let error := v.field? "error"
  if !v.isObject then .error .notObject
  else if !(v.fieldD "jsonrpc").isText then .error .noVersion
  else if id.any (!isId ·) then .error .badId
  else if params.any (!·.isStructured) then .error .badParams
  else
    match id, method, result, error with
    | some _, none, some _, some _ => .error .resultAndError
    | some id, none, none, some e =>
      match errorOf? e with
      | some e => .ok (.response id .null (some e))
      | none => .error .badError
    | some id, none, some r, none => .ok (.response id r none)
    | _, some (.str m), r, e =>
      if r.isSome || e.isSome then .error .methodAndResult
      else
        match id with
        | some id => .ok (.request id m (params.getD .null))
        | none => .ok (.notification m (params.getD .null))
    | _, _, _, _ => .error .noMethod

end Message

/-- What is handed to the transport: a message, or a value sent as it is. -/
inductive Outgoing where
  | message (m : Message)
  | value (v : Json)

def Outgoing.toJson : Outgoing → Json
  | .message m => m.toJson
  | .value v => v

end GhostText
