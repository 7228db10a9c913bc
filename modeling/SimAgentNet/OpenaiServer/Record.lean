import SimAgentNet.Data.Effect
import SimAgentNet.OpenaiServer.Http
import SimAgentNet.OpenaiServer.Storage

/-! # Execution records

The content-addressed ledger that the routes share: mint a request id, record the redacted
request, open a run, append a sequence of events. -/

namespace SimAgentNet.OpenaiServer

open SimAgentNet.Expr (entry)

variable {Mode Cache Ids : Type}

/-- A hit of a vector search, with its score as it is printed. -/
structure SearchHit where
  id : String
  text : String
  score : String

/-- The packages the gateway is built on: the codec of binary frames and the content ids of the
kernel, the hexadecimal encoder and the SHA-256 digest, JSON, the text of a UTF-8 error, access to
the fields of an expression, the wall clock as the sequence of its readings, and the floating-point
embeddings with the search over them. -/
structure Host (Mode : Type) where
  encodeFrame : Expr Mode → Except String (List UInt8)
  contentId : Datum → Except String ContentId
  hexEncode : List UInt8 → String
  sha256 : List UInt8 → List UInt8
  serde : Serde
  utf8Error : List UInt8 → String
  exprField : Expr Mode → String → Option (Expr Mode)
  clock : Nat → Except String UInt64
  embeddingForText : String → List UInt64
  searchVectorStore : GatewayVectorStore → (query : String) → (limit : Nat) → List SearchHit

/-! ## Ids -/

/-- Generates ids from a fixed stem and a counter. -/
structure GatewayIdGenerator where
  stem : String
  next : Nat
deriving DecidableEq

namespace GatewayIdGenerator

def deterministic (stem : String) (start : UInt64) : GatewayIdGenerator := ⟨stem, start.toNat⟩

/-- `stem_NNNNNN`, with at least six digits. -/
def format (stem : String) (value : Nat) : String :=
  let digits := Nat.toDigits 10 value
  stem ++ "_" ++ .ofList (List.replicate (6 - digits.length) '0' ++ digits)

/-- The next id; the counter must not leave 64 bits. -/
def nextId : Effect String GatewayIdGenerator String := fun g =>
  if g.next + 1 < 2 ^ 64 then (.ok (format g.stem g.next), { g with next := g.next + 1 })
  else (.error "gateway id counter overflow", g)

theorem format_injective (stem : String) : Function.Injective (format stem) := by
  intro n m h
  have hdigits (k : Nat) :
      Nat.ofDigitChars 10 (List.replicate (6 - (Nat.toDigits 10 k).length) '0' ++ Nat.toDigits 10 k)
        0 = k := by
    simp [Nat.ofDigitChars_append, Nat.ofDigitChars_replicate_zero, Nat.ofDigitChars_ten_toDigits]
  simp only [format, String.append_right_inj, String.ofList_inj] at h
  rw [← hdigits n, ← hdigits m, h]

end GatewayIdGenerator

/-- The generators of one execution record. -/
structure GatewayRunIdGenerators where
  request : GatewayIdGenerator
  run : GatewayIdGenerator
  response : GatewayIdGenerator
  event : GatewayIdGenerator
deriving DecidableEq

abbrev ResponseIdGenerators := GatewayRunIdGenerators

def GatewayRunIdGenerators.deterministic (start : UInt64) : GatewayRunIdGenerators where
  request := .deterministic "gwreq" start
  run := .deterministic "gwrun" start
  response := .deterministic "resp" start
  event := .deterministic "gwevt" start

/-! ## Expressions and content ids -/

def optionalStringField (name : String) (value : Option String) : Expr Mode × Expr Mode :=
  entry name (match value with | some v => .string v | none => .nil)

def optionalU64Field (name : String) (value : Option UInt64) : Expr Mode × Expr Mode :=
  entry name (match value with | some v => .string (toString v.toNat) | none => .nil)

/-- Headers by their lower case name and their value. -/
def headersExpr (headers : List (String × String)) : Expr Mode :=
  let key (h : String × String) : String ×ₗ String := toLex (h.1.toLower, h.2)
  .list ((headers.insertionSort (key · ≤ key ·)).map fun h =>
    .map [entry "name" (.string h.1), entry "value" (.string h.2)])

def contentIdExpr (hexEncode : List UInt8 → String) (id : ContentId) : Expr Mode :=
  .map [entry "algorithm" (.symbol id.algorithm), entry "bytes" (.bytes id.bytes),
    entry "hex" (.string (hexEncode id.bytes))]

def GatewayRequest.toExpr (request : GatewayRequest) : Expr Mode :=
  .map [entry "object" (.string "openai-gateway/request"), optionalStringField "id" request.id,
    optionalU64Field "timestamp-ms" request.timestampMs, entry "method" (.string request.method),
    entry "path" (.string request.path), entry "headers" (headersExpr request.headers),
    entry "body" (.bytes request.body)]

def GatewayResponse.toExpr (response : GatewayResponse) : Expr Mode :=
  .map [entry "object" (.string "openai-gateway/response"),
    entry "status" (.string (toString response.status.toNat)),
    entry "headers" (headersExpr response.headers), entry "body" (.bytes response.body)]

def GatewayRun.toExpr (hexEncode : List UInt8 → String) (run : GatewayRun) : Expr Mode :=
  .map [entry "object" (.string "openai-gateway/run"), entry "id" (.string run.id),
    entry "request-content-id" (contentIdExpr hexEncode run.requestContentId),
    entry "status" (.symbol run.status),
    entry "created-at-ms" (.string (toString run.createdAtMs.toNat))]

def GatewayEvent.toExpr (event : GatewayEvent Mode) : Expr Mode :=
  .map [entry "object" (.string "openai-gateway/event"), entry "id" (.string event.id),
    entry "run-id" (.string event.runId), entry "sequence" (.string (toString event.sequence)),
    entry "event-kind" (.symbol event.kind), entry "payload" event.payload,
    entry "created-at-ms" (.string (toString event.createdAtMs.toNat))]

/-- The fields that do not count for the content of a request. -/
def volatileRequestFields : List String :=
  ["id", "timestamp", "timestamp-ms", "created-at-ms", "updated-at-ms"]

def isVolatileRequestKey : Expr Mode → Bool
  | .string name => volatileRequestFields.contains name
  | .symbol ⟨none, name⟩ => volatileRequestFields.contains name
  | _ => false

def normalizeRequestExpr : Expr Mode → Expr Mode
  | .map entries => .map (entries.filter fun e => !isVolatileRequestKey e.1)
  | expr => expr

namespace Host
variable (host : Host Mode)

def contentIdForExpr (expr : Expr Mode) : Except String ContentId := do
  let frame ← host.encodeFrame expr
  host.contentId (.bytes frame)

def requestExprContentId (expr : Expr Mode) : Except String ContentId :=
  host.contentIdForExpr (normalizeRequestExpr expr)

def requestContentId (request : GatewayRequest) : Except String ContentId :=
  host.requestExprContentId request.toExpr

end Host

/-! ## Redaction -/

def eqIgnoreAsciiCase (a b : String) : Bool := a.toLower == b.toLower

def isApiKeyHeader (name : String) : Bool :=
  eqIgnoreAsciiCase name "x-api-key" || eqIgnoreAsciiCase name "api-key" ||
    eqIgnoreAsciiCase name "openai-api-key" || eqIgnoreAsciiCase name "x-openai-api-key"

def isSensitiveHeader (name : String) : Bool :=
  eqIgnoreAsciiCase name "authorization" || eqIgnoreAsciiCase name "proxy-authorization" ||
    isApiKeyHeader name

def redactHeaders (headers : List (String × String)) : List (String × String) :=
  headers.map fun h => if isSensitiveHeader h.1 then (h.1, "[redacted]") else h

def redactedGatewayRequest (request : GatewayRequest) : GatewayRequest :=
  .new request.method request.path (redactHeaders request.headers) request.body

/-! ## The ledger -/

/-- What a route works on: the store, the plan cache, its id generators and the number of clock
readings taken so far. -/
structure Work (Mode Cache Ids : Type) where
  store : MemoryGatewayStore Mode
  cache : Cache
  ids : Ids
  ticks : Nat

abbrev Route (Mode Cache Ids : Type) := Effect OpenAiRouteError (Work Mode Cache Ids)

namespace Route

/-- A change of the store. -/
def write (f : MemoryGatewayStore Mode → MemoryGatewayStore Mode) : Route Mode Cache Ids Unit :=
  Effect.modify fun w => { w with store := f w.store }

def nowMs (host : Host Mode) : Route Mode Cache Ids UInt64 := fun w =>
  ((host.clock w.ticks).mapError .internal, { w with ticks := w.ticks + 1 })

/-- The next id of one of the generators. -/
def mint (part : Ids → GatewayIdGenerator) (put : GatewayIdGenerator → Ids → Ids) :
    Route Mode Cache Ids String := fun w =>
  let (result, g) := GatewayIdGenerator.nextId (part w.ids)
  (result.mapError .internal, { w with ids := put g w.ids })

/-- A content id, or the text of a kernel error. -/
def kernel (x : Except String α) : Route Mode Cache Ids α := Effect.ofExcept (x.mapError .internal)

/-- Runs a route on a part of the id generators. -/
def onIds (part : Ids → Ids') (put : Ids' → Ids → Ids) (x : Route Mode Cache Ids' α) :
    Route Mode Cache Ids α :=
  Effect.focus (fun w => { w with ids := part w.ids })
    (fun w' w => { w' with ids := put w'.ids w.ids }) x

end Route

namespace GatewayRunIdGenerators

def nextRequestId : Route Mode Cache GatewayRunIdGenerators String :=
  Route.mint request fun g ids => { ids with request := g }

def nextRunId : Route Mode Cache GatewayRunIdGenerators String :=
  Route.mint run fun g ids => { ids with run := g }

def nextResponseId : Route Mode Cache GatewayRunIdGenerators String :=
  Route.mint response fun g ids => { ids with response := g }

def nextEventId : Route Mode Cache GatewayRunIdGenerators String :=
  Route.mint event fun g ids => { ids with event := g }

end GatewayRunIdGenerators

structure EventInput (Mode : Type) where
  kind : Symbol
  payload : Expr Mode

structure EventLog (Mode : Type) where
  contentIds : List ContentId
  events : List (GatewayEvent Mode)

def EventLog.empty : EventLog Mode := ⟨[], []⟩

section
variable (host : Host Mode)

def appendEvent (runId : String) (sequence : Nat) (input : EventInput Mode) (storeEvent : Bool)
    (log : EventLog Mode) : Route Mode Cache GatewayRunIdGenerators (EventLog Mode) := do
  let id ← GatewayRunIdGenerators.nextEventId
  let createdAtMs ← Route.nowMs host
  let event : GatewayEvent Mode := ⟨id, runId, sequence, input.kind, input.payload, createdAtMs⟩
  let contentId ← Route.kernel (host.contentIdForExpr event.toExpr)
  if storeEvent then
    Route.write (·.putEvent contentId event)
  return ⟨log.contentIds ++ [contentId], log.events ++ [event]⟩

/-- Appends events under consecutive sequence numbers. -/
def appendEvents (runId : String) (storeEvent : Bool) :
    Nat → List (EventInput Mode) → EventLog Mode →
      Route Mode Cache GatewayRunIdGenerators (EventLog Mode)
  | _, [], log => return log
  | sequence, input :: inputs, log => do
    let log ← appendEvent host runId sequence input storeEvent log
    appendEvents runId storeEvent (sequence + 1) inputs log

structure RunPrologue where
  recordedRequest : GatewayRequest
  requestContentId : ContentId
  runId : String
  runContentId : ContentId

/-- Records the redacted request and opens a run. The request is stored under a content id that
does not depend on its id and its timestamp. -/
def beginRun (request : GatewayRequest) (runStatus : Option Symbol) (storeRecord : Bool) :
    Route Mode Cache GatewayRunIdGenerators RunPrologue := do
  let id ← GatewayRunIdGenerators.nextRequestId
  let timestampMs ← Route.nowMs host
  let recordedRequest := (redactedGatewayRequest request).withMetadata id timestampMs
  let requestContentId ← Route.kernel (host.requestContentId recordedRequest)
  if storeRecord then
    Route.write (·.putRequest requestContentId recordedRequest)
  let runId ← GatewayRunIdGenerators.nextRunId
  let createdAtMs ← Route.nowMs host
  let run := GatewayRun.new runId requestContentId createdAtMs
  let run := match runStatus with | some status => run.withStatus status | none => run
  let runContentId ← Route.kernel (host.contentIdForExpr (run.toExpr host.hexEncode))
  if storeRecord then
    Route.write (·.putRun runContentId run)
  return ⟨recordedRequest, requestContentId, runId, runContentId⟩

end

/-- The outcome of an execution. -/
structure GatewayRunExecution (Mode : Type) where
  response : GatewayResponse
  requestContentId : Option ContentId
  runContentId : Option ContentId
  eventContentIds : List ContentId
  events : List (GatewayEvent Mode)
  responseId : Option String
  responseCreatedAtMs : Option UInt64
  responseContentId : Option ContentId

abbrev ResponseExecution := GatewayRunExecution

def GatewayRunExecution.error (serde : Serde) (e : OpenAiRouteError) : GatewayRunExecution Mode :=
  ⟨e.intoResponse serde, none, none, [], [], none, none, none⟩

/-! ## Routes that record their execution -/

structure RouteRunRecord (Mode : Type) where
  response : GatewayResponse
  route : String
  routeEvents : List (EventInput Mode)
  storeRecord : Bool

def finalPayload (route : String) (response : GatewayResponse) : Expr Mode :=
  .map [entry "route" (.string route), entry "status" (.string (toString response.status.toNat)),
    entry "body-bytes" (.string (toString response.body.length))]

/-- Records a response that has been computed: its request, a completed run with its events, and
the bare response. -/
def recordRouteExecution (host : Host Mode) (request : GatewayRequest)
    (record : RouteRunRecord Mode) : Route Mode Cache GatewayRunIdGenerators GatewayResponse := do
  let prologue ← beginRun host request (some (.new "completed")) record.storeRecord
  let log ← appendEvents host prologue.runId record.storeRecord 0
    (⟨.new "request-start", prologue.recordedRequest.toExpr⟩ ::
      ⟨.new "route-start", .string record.route⟩ :: record.routeEvents) .empty
  let _ ← appendEvent host prologue.runId log.events.length
    ⟨.new "final", finalPayload record.route record.response⟩ record.storeRecord log
  if record.storeRecord then
    let id ← Route.kernel (host.contentIdForExpr record.response.toExpr)
    Route.write (·.putResponse id record.response)
  return record.response

end SimAgentNet.OpenaiServer
