import SimAgentNet.OpenaiServer.Routes

/-! # Responses and their ledger over HTTP

Creating a response, retrieving it, and the routes that show, replay and fork what was recorded
for it. -/

namespace SimAgentNet.OpenaiServer

variable {Mode Cache : Type}

section
variable (host : Host Mode) (engine : ResponseEngine Mode Cache) (keys : OpenAiKeyTable)

/-! ## Creation -/

/-- The request as the gateway's evaluation fabric builds it from the body. -/
def gatewayRequestFromBody (body : List UInt8) : GatewayRequest :=
  .new "POST" "/v1/responses" [("Content-Type", "application/json")] body

/-- Writes the key of the caller into the stored response of an execution. -/
def stampResponseOwner (ownerKeyId : Option String) (execution : ResponseExecution Mode)
    (store : MemoryGatewayStore Mode) : MemoryGatewayStore Mode :=
  match execution.responseId.bind store.responseObject with
  | none => store
  | some record => store.putResponseObject { record with ownerKeyId }

/-- The execution runs with the capabilities of the caller and is stamped afterwards. -/
def handleResponses (request : GatewayRequest) (state : GatewayState Mode Cache) :
    Handled Mode Cache ResponseIdGenerators :=
  let (execution, w) := executeResponseRequest host engine (keys.effectiveCapabilities host request)
    (gatewayRequestFromBody request.body)
    ⟨state.store, state.cache, .deterministic (seedOf host state), state.ticks + 1⟩
  let store := stampResponseOwner (keys.callerKeyId host request) execution w.store
  ⟨execution.response, ⟨store, w.cache, w.ticks⟩, w.ids⟩

/-! ## Retrieval -/

def retrieveResponse (store : MemoryGatewayStore Mode) (responseId : String) : GatewayResponse :=
  match store.responseObject responseId with
  | some record => record.response
  | none => (OpenAiRouteError.notFound responseId).intoResponse host.serde

def handleResponseRetrieval (request : GatewayRequest) (state : GatewayState Mode Cache) :
    GatewayResponse :=
  match idFromPath request.path "/v1/responses/" with
  | none => (OpenAiRouteError.notFound "response").intoResponse host.serde
  | some responseId => retrieveResponse host state.store responseId

/-! ## Access to the ledger -/

structure SimRouteAccess where
  callerKeyId : Option String
  inspect : Bool
deriving DecidableEq

def adminCapability : String := "openai-gateway.admin"

def isSimCapability (capability : String) : Bool :=
  capability == adminCapability || capability == "sim.extension" ||
    "sim.extension.".toList.isPrefixOf capability.toList

/-- Whether the capabilities let a caller inspect the responses of every key. -/
def mayInspect (capabilities : CapabilitySet) : Bool :=
  adminCapability ∈ capabilities || "sim.extension.inspect" ∈ capabilities

def simRouteAccess (request : GatewayRequest) : RouteResult SimRouteAccess :=
  let capabilities := keys.effectiveCapabilities host request
  if adminCapability ∉ capabilities ∧ ¬capabilities.elems.any isSimCapability then
    .error (.forbidden "SIM response routes require openai-gateway.admin or sim.extension"
      "capability_denied")
  else .ok ⟨keys.callerKeyId host request, mayInspect capabilities⟩

def ensureResponseOwner (record : StoredGatewayResponse) (access : SimRouteAccess) :
    RouteResult Unit :=
  if access.inspect ∨ record.ownerKeyId = access.callerKeyId then .ok ()
  else .error (.forbidden "stored response belongs to a different gateway key" "capability_denied")

/-- The record of a response with its events. -/
def storedEvents (store : MemoryGatewayStore Mode) (responseId : String) :
    RouteResult (StoredGatewayResponse × List (GatewayEvent Mode)) :=
  match store.responseObject responseId with
  | none => .error (.notFound responseId)
  | some record => do
    let events ← record.eventContentIds.mapM fun id =>
      match store.event id with
      | some event => .ok event
      | none => .error (.internalMessage ("stored event is missing for response " ++ responseId ++
          ": " ++ host.hexEncode id.bytes))
    return (record, events)

/-- Everything a caller sees of a response starts from its record and its events, after the check
of the owner. -/
def ownedEvents (store : MemoryGatewayStore Mode) (responseId : String) (access : SimRouteAccess) :
    RouteResult (StoredGatewayResponse × List (GatewayEvent Mode)) := do
  let (record, events) ← storedEvents host store responseId
  ensureResponseOwner record access
  return (record, events)

/-! ## What the routes show -/

/-- How the routes print an expression, and the packets of a replayed stream; what the caller may
not inspect is not printed. -/
structure ReplayJson (Mode : Type) where
  exprJson : Expr Mode → Json
  dataPackets : List (GatewayEvent Mode) → List (Expr Mode)

variable (print : ReplayJson Mode)

def redactedJson : Json := .string "[redacted]"

def eventJson (inspect : Bool) (contentId : ContentId) (event : GatewayEvent Mode) : Json :=
  .object [("content_id", .string (host.hexEncode contentId.bytes)),
    ("created_at", .ofNat event.createdAtMs.toNat), ("event", .string event.kind.name),
    ("id", .string event.id), ("object", .string "response.event"),
    ("payload", if inspect then print.exprJson event.payload else redactedJson),
    ("run_id", .string event.runId), ("sequence", .ofNat event.sequence),
    ("type", .string ("response." ++ event.kind.name))]

def eventsJson (inspect : Bool) (record : StoredGatewayResponse)
    (events : List (GatewayEvent Mode)) : List Json :=
  record.eventContentIds.zipWith (eventJson host print inspect) events

def eventHistoryJson (inspect : Bool) (record : StoredGatewayResponse)
    (events : List (GatewayEvent Mode)) : Json :=
  .object [("data", .array (eventsJson host print inspect record events)),
    ("object", .string "list"), ("response_id", .string record.responseId)]

def dataStreamJson (inspect : Bool) (events : List (GatewayEvent Mode)) : List Json :=
  if inspect then (print.dataPackets events).map print.exprJson else []

def replayJson (inspect : Bool) (record : StoredGatewayResponse)
    (events : List (GatewayEvent Mode)) : Json :=
  .object [("data", .array (eventsJson host print inspect record events)),
    ("object", .string "sim.replay"), ("response_id", .string record.responseId),
    ("stream", .array (dataStreamJson print inspect events))]

def requestJson (inspect : Bool) (request : GatewayRequest) : Json :=
  if inspect then print.exprJson request.toExpr
  else .object [("body", redactedJson), ("headers", redactedJson),
    ("id", .ofOption .string request.id), ("method", .string request.method),
    ("object", .string "openai-gateway/request"), ("path", .string request.path),
    ("timestamp-ms", .ofOption (fun ms => .ofNat ms.toNat) request.timestampMs)]

def eventExprJson (inspect : Bool) (event : GatewayEvent Mode) : Json :=
  if inspect then print.exprJson event.toExpr
  else .object [("created-at-ms", .ofNat event.createdAtMs.toNat),
    ("event-kind", .string event.kind.name), ("id", .string event.id),
    ("object", .string "openai-gateway/event"), ("payload", redactedJson),
    ("run-id", .string event.runId), ("sequence", .ofNat event.sequence)]

def simJson (store : MemoryGatewayStore Mode) (inspect : Bool) (record : StoredGatewayResponse)
    (events : List (GatewayEvent Mode)) : RouteResult Json := do
  let hex (id : ContentId) : Json := .string (host.hexEncode id.bytes)
  let request := record.requestContentId.bind store.request
  let run := record.runContentId.bind store.run
  let body ← responseJson host record.response
  return .object [("event_content_ids", .array (record.eventContentIds.map hex)),
    ("events", .array (events.map (eventExprJson print inspect))),
    ("object", .string "sim.gateway.response"),
    ("parent_response_id", .ofOption .string record.parentResponseId),
    ("request", .ofOption (requestJson print inspect) request),
    ("request_content_id", .ofOption hex record.requestContentId), ("response", body),
    ("response_content_id", hex record.contentId), ("response_id", .string record.responseId),
    ("run", .ofOption (fun run => print.exprJson (run.toExpr host.hexEncode)) run),
    ("run_content_id", .ofOption hex record.runContentId)]

/-! ## Reading routes -/

/-- An answer, or an error as a response of its own. -/
def respond (result : RouteResult GatewayResponse) : GatewayResponse :=
  match result with
  | .ok response => response
  | .error e => e.intoResponse host.serde

def responseEventsWithAccess (store : MemoryGatewayStore Mode) (responseId : String)
    (access : SimRouteAccess) : RouteResult GatewayResponse := do
  let (record, events) ← ownedEvents host store responseId access
  return .jsonValue host.serde 200 (eventHistoryJson host print access.inspect record events)

def responseSimWithAccess (store : MemoryGatewayStore Mode) (responseId : String)
    (access : SimRouteAccess) : RouteResult GatewayResponse := do
  let (record, events) ← ownedEvents host store responseId access
  let value ← simJson host print store access.inspect record events
  return .jsonValue host.serde 200 value

def replayResponseWithAccess (store : MemoryGatewayStore Mode) (responseId : String)
    (access : SimRouteAccess) : RouteResult GatewayResponse := do
  let (record, events) ← ownedEvents host store responseId access
  return .jsonValue host.serde 200 (replayJson host print access.inspect record events)

/-- The response a path with a suffix is about. -/
def suffixedResponseId (request : GatewayRequest) (ending : String) : RouteResult String :=
  match idFromPathWithSuffix request.path "/v1/responses/" ending with
  | some responseId => .ok responseId
  | none => .error (.notFoundKind "response" request.path)

def handleResponseEvents (request : GatewayRequest) (state : GatewayState Mode Cache) :
    GatewayResponse :=
  respond host do
    let responseId ← suffixedResponseId request "/events"
    let access ← simRouteAccess host keys request
    responseEventsWithAccess host print state.store responseId access

def handleResponseSim (request : GatewayRequest) (state : GatewayState Mode Cache) :
    GatewayResponse :=
  respond host do
    let responseId ← suffixedResponseId request "/sim"
    let access ← simRouteAccess host keys request
    responseSimWithAccess host print state.store responseId access

/-- The response a body is about. -/
def bodyResponseId (request : GatewayRequest) : RouteResult String := do
  let object ← requestObject host.serde request.body
  requiredString object "response_id"

def handleSimReplay (request : GatewayRequest) (state : GatewayState Mode Cache) :
    GatewayResponse :=
  respond host do
    let responseId ← bodyResponseId host request
    let access ← simRouteAccess host keys request
    replayResponseWithAccess host print state.store responseId access

/-! ## Forks -/

/-- The recorded request with the patched fields, to be stored and not streamed. -/
def forkedRequest (source : GatewayRequest) (patch : JsonObject) : RouteResult GatewayRequest := do
  let object ← requestObject host.serde source.body
  let object := patch.foldl (fun object e => object.insert e.1 e.2) object
  let object := (object.insert "store" (.bool true)).insert "stream" (.bool false)
  return .new source.method source.path source.headers
    (host.serde.canonicalJsonBytes (.object object))

/-- The parent and the request it was recorded with, for a caller who owns it. -/
def forkSource (store : MemoryGatewayStore Mode) (parentResponseId : String)
    (access : SimRouteAccess) : RouteResult (ContentId × GatewayRequest) :=
  match store.responseObject parentResponseId with
  | none => .error (.notFound parentResponseId)
  | some parent => do
    ensureResponseOwner parent access
    match parent.requestContentId with
    | none => throw (.badRequest "stored response has no request ledger for fork"
        (some "response_id") "missing_request_ledger")
    | some id =>
      match store.request id with
      | none => throw (.badRequest "stored response request is unavailable" (some "response_id")
          "missing_request")
      | some source => return (id, source)

/-- Links the stored response of a fork to its parent and to the caller. -/
def adoptFork (parentResponseId : String) (ownerKeyId : Option String) (responseId : String)
    (store : MemoryGatewayStore Mode) : MemoryGatewayStore Mode :=
  match store.responseObject responseId with
  | none => store
  | some record =>
    store.putResponseObject { record with parentResponseId := some parentResponseId, ownerKeyId }

def forkJson (store : MemoryGatewayStore Mode) (parentResponseId responseId : String)
    (sourceId requestContentId : ContentId) (response : GatewayResponse) :
    RouteResult GatewayResponse := do
  let body ← responseJson host response
  let requestId := (store.request requestContentId).bind (·.id)
  return .jsonValue host.serde 200 (.object [("object", .string "sim.fork"),
    ("parent_response_id", .string parentResponseId),
    ("request_content_id", .string (host.hexEncode requestContentId.bytes)),
    ("request_id", .ofOption .string requestId), ("response", body),
    ("response_id", .string responseId),
    ("source_request_content_id", .string (host.hexEncode sourceId.bytes))])

def forkResponse (parentResponseId : String) (patch : JsonObject) (capabilities : CapabilitySet)
    (access : SimRouteAccess) : Route Mode Cache ResponseIdGenerators GatewayResponse := do
  let (sourceId, source) ← Effect.observe fun w => forkSource w.store parentResponseId access
  let request ← Effect.ofExcept (forkedRequest host source patch)
  let execution ← executeRoute host engine capabilities request
  if ¬isSuccess execution.response.status then return execution.response
  else match execution.responseId with
    | none => Effect.fail (.internalMessage "fork did not produce a response id")
    | some responseId => do
      Route.write (adoptFork parentResponseId access.callerKeyId responseId)
      match execution.requestContentId with
      | none => Effect.fail (.internalMessage "fork did not produce a request content id")
      | some requestContentId =>
        Effect.observe fun w =>
          forkJson host w.store parentResponseId responseId sourceId requestContentId
            execution.response

structure ForkRequest where
  responseId : String
  patch : JsonObject
  access : SimRouteAccess

def readForkRequest (request : GatewayRequest) : RouteResult ForkRequest := do
  let object ← requestObject host.serde request.body
  let responseId ← requiredString object "response_id"
  match (object.get "patch").bind Json.asObject with
  | none => throw (.missingRequired "patch")
  | some patch =>
    let access ← simRouteAccess host keys request
    return ⟨responseId, patch, access⟩

/-- The ids of forks start a million above the clock. -/
def forkSeed (state : GatewayState Mode Cache) : UInt64 :=
  .ofNat (min ((seedOf host state).toNat + 1000000) (2 ^ 64 - 1))

/-- A fork has a cache of its own; a refused request does not read the clock. -/
def handleSimFork (emptyCache : Cache) (request : GatewayRequest)
    (state : GatewayState Mode Cache) : Handled Mode Cache ResponseIdGenerators :=
  let ids := GatewayRunIdGenerators.deterministic (forkSeed host state)
  match readForkRequest host keys request with
  | .error e => ⟨e.intoResponse host.serde, state, ids⟩
  | .ok fork =>
    let handled := runRoute host ids
      (forkResponse host engine fork.responseId fork.patch
        (keys.effectiveCapabilities host request) fork.access)
      { state with cache := emptyCache }
    { handled with state := { handled.state with cache := state.cache } }

end

/-! ## The gateway -/

/-- What a gateway is set up with. -/
structure Gateway (Mode Cache : Type) where
  host : Host Mode
  engine : ResponseEngine Mode Cache
  keys : OpenAiKeyTable
  print : ReplayJson Mode
  emptyCache : Cache

/-- The routes over the durable objects and the stored responses, named by their handlers. -/
inductive GatewayRoute where
  | responses
  | simReplay
  | simFork
  | files
  | batches
  | vectorStores
  | vectorStoreSearch
  | batchCancel
  | threads
  | threadPost
  | responseEvents
  | responseSim
  | responseRetrieval
deriving DecidableEq

def Handled.answer (handled : Handled Mode Cache Ids) : GatewayResponse × GatewayState Mode Cache :=
  (handled.response, handled.state)

/-- Handles one request; the routes that only read leave the state. -/
def Gateway.handle (gateway : Gateway Mode Cache) (request : GatewayRequest)
    (state : GatewayState Mode Cache) : GatewayRoute → GatewayResponse × GatewayState Mode Cache
  | .responses => (handleResponses gateway.host gateway.engine gateway.keys request state).answer
  | .simReplay => (handleSimReplay gateway.host gateway.keys gateway.print request state, state)
  | .simFork =>
    (handleSimFork gateway.host gateway.engine gateway.keys gateway.emptyCache request state).answer
  | .files => (handleFiles gateway.host request state).answer
  | .batches =>
    (handleBatches gateway.host gateway.engine gateway.keys gateway.emptyCache request state).answer
  | .vectorStores => (handleVectorStores gateway.host request state).answer
  | .vectorStoreSearch => (handleVectorStoreSearch gateway.host request state).answer
  | .batchCancel => (handleBatchCancel gateway.host request state).answer
  | .threads => (handleThreads gateway.host request state).answer
  | .threadPost => (handleThreadPost gateway.host request state).answer
  | .responseEvents => (handleResponseEvents gateway.host gateway.keys gateway.print request state, state)
  | .responseSim => (handleResponseSim gateway.host gateway.keys gateway.print request state, state)
  | .responseRetrieval => (handleResponseRetrieval gateway.host request state, state)

end SimAgentNet.OpenaiServer
