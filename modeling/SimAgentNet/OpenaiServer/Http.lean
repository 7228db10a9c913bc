import SimAgentNet.Data.SortedMap
import SimAgentNet.OpenaiServer.Objects

/-! # Request bodies, paths and route errors

JSON values as the routes read and write them. Parsing and printing are a parameter. -/

namespace SimAgentNet.OpenaiServer

/-- A JSON value. A number is kept as its text, the fields of an object in the order of their
names. -/
inductive Json where
  | null
  | bool (v : Bool)
  | number (text : String)
  | string (v : String)
  | array (vs : List Json)
  | object (fields : List (String × Json))

abbrev JsonObject := List (String × Json)

namespace Json

def ofNat (n : Nat) : Json := .number (toString n)

def asStr : Json → Option String
  | .string v => some v
  | _ => none

def asBool : Json → Option Bool
  | .bool v => some v
  | _ => none

/-- A number that is written in digits and fits 64 bits. -/
def asU64 : Json → Option Nat
  | .number text =>
    if text.toList ≠ [] ∧ text.toList.all Char.isDigit ∧ Nat.ofDigitChars 10 text.toList 0 < 2 ^ 64 then
      some (Nat.ofDigitChars 10 text.toList 0)
    else none
  | _ => none

def asObject : Json → Option JsonObject
  | .object fields => some fields
  | _ => none

def ofOption (f : α → Json) : Option α → Json
  | none => .null
  | some a => f a

end Json

namespace JsonObject

def get (object : JsonObject) (name : String) : Option Json := object.lookup name

def insert (object : JsonObject) (name : String) (value : Json) : JsonObject :=
  SortedMap.insertEntry name value object

def remove (object : JsonObject) (name : String) : JsonObject := object.filter (·.1 ≠ name)

end JsonObject

/-- The parser and the two printers of JSON values: canonical bytes, with every object sorted, and
the text of a value. -/
structure Serde where
  fromSlice : List UInt8 → Except String Json
  canonicalJsonBytes : Json → List UInt8
  toText : Json → String

structure OpenAiRouteError where
  status : UInt16
  message : String
  errorType : String
  param : Option String
  code : String
deriving DecidableEq

abbrev RouteResult := Except OpenAiRouteError

namespace OpenAiRouteError

def badRequest (message : String) (param : Option String) (code : String) : OpenAiRouteError :=
  ⟨400, message, "invalid_request_error", param, code⟩

def invalidJson (message : String) : OpenAiRouteError := badRequest message none "invalid_json"

def missingRequired (param : String) : OpenAiRouteError :=
  badRequest ("missing required parameter: " ++ param) (some param) "missing_required_parameter"

def badRequestFromError (error : String) : OpenAiRouteError :=
  badRequest error none "invalid_request"

def badModelFromError (error : String) : OpenAiRouteError :=
  badRequest error (some "model") "invalid_model"

/-- An error of the evaluation: a model that is not known is reported as not found. -/
def model (error model : String) : OpenAiRouteError :=
  if Text.containsBytes (Text.utf8 error) (Text.utf8 "model_not_found") ∨
      Text.containsBytes (Text.utf8 error) (Text.utf8 "only supports fixture/echo") then
    ⟨404, "model_not_found: " ++ model, "invalid_request_error", some "model", "model_not_found"⟩
  else badRequest error (some "model") "invalid_model"

def internalMessage (message : String) : OpenAiRouteError :=
  ⟨500, message, "server_error", none, "internal_error"⟩

/-- A kernel error, given by its text. -/
def internal (error : String) : OpenAiRouteError := internalMessage error

def forbidden (message code : String) : OpenAiRouteError :=
  ⟨403, message, "permission_error", none, code⟩

def notFoundKind (kind id : String) : OpenAiRouteError :=
  ⟨404, kind ++ " not found: " ++ id, "invalid_request_error", some "id", "not_found"⟩

def notFound (responseId : String) : OpenAiRouteError := notFoundKind "response" responseId

end OpenAiRouteError

namespace GatewayResponse

def jsonValue (serde : Serde) (status : UInt16) (body : Json) : GatewayResponse :=
  json status (serde.canonicalJsonBytes body)

end GatewayResponse

def OpenAiRouteError.intoResponse (serde : Serde) (e : OpenAiRouteError) : GatewayResponse :=
  .jsonValue serde e.status (.object [("error", .object
    [("code", .string e.code), ("message", .string e.message), ("param", .ofOption .string e.param),
      ("type", .string e.errorType)])])

section
variable (serde : Serde)

def requestObject (body : List UInt8) : RouteResult JsonObject :=
  match serde.fromSlice body with
  | .error err => .error (.invalidJson ("invalid JSON request body: " ++ err))
  | .ok (.object object) => .ok object
  | .ok _ => .error (.badRequest "request body must be a JSON object" none "invalid_request")

/-- An empty body and `null` stand for the empty object. -/
def requestObjectOrEmpty (body : List UInt8) : RouteResult JsonObject :=
  if body = [] then .ok []
  else match serde.fromSlice body with
    | .error err => .error (.invalidJson ("invalid JSON request body: " ++ err))
    | .ok (.object object) => .ok object
    | .ok .null => .ok []
    | .ok _ => .error (.badRequest "request body must be a JSON object" none "invalid_request")

end

def requiredString (object : JsonObject) (name : String) : RouteResult String :=
  match (object.get name).bind Json.asStr with
  | some value => .ok value
  | none => .error (.missingRequired name)

def optionalString (object : JsonObject) (name default : String) : String :=
  ((object.get name).bind Json.asStr).getD default

def optionalU64 (object : JsonObject) (name : String) (default : Nat) : RouteResult Nat :=
  match object.get name with
  | none => .ok default
  | some value =>
    match value.asU64 with
    | some n => .ok n
    | none =>
      .error (.badRequest (name ++ " must be an unsigned integer") (some name) "invalid_request")

/-- A route records its execution unless `store` is `false`. -/
def recordExecution (object : JsonObject) : Bool :=
  ((object.get "store").bind Json.asBool).getD true

/-! ## Paths -/

def stripStart (start path : List Char) : Option (List Char) :=
  if start.isPrefixOf path then some (path.drop start.length) else none

def stripEnd (ending path : List Char) : Option (List Char) :=
  if ending.isSuffixOf path then some (path.take (path.length - ending.length)) else none

/-- A segment that names an object: not empty and without `/`. -/
def segment (id : List Char) : Option String :=
  if id = [] ∨ '/' ∈ id then none else some (.ofList id)

def idFromPath (path start : String) : Option String :=
  (stripStart start.toList path.toList).bind segment

def idFromPathWithSuffix (path start ending : String) : Option String :=
  ((stripStart start.toList path.toList).bind (stripEnd ending.toList)).bind segment

example : idFromPath "/v1/x/abc" "/v1/x/" = some "abc" := by decide
example : idFromPathWithSuffix "/v1/x/abc/cancel" "/v1/x/" "/cancel" = some "abc" := by decide

end SimAgentNet.OpenaiServer
