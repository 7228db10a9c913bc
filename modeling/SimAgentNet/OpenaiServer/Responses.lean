import SimAgentNet.OpenaiServer.Record

/-! # Response requests

The execution of `POST /v1/responses`: the request is normalized with the messages of its thread,
its plan is evaluated, and the ledger of the run is written as the execution goes. The codec of
requests and responses, the plan language and the evaluator with its tool loop are a parameter:
the ledger does not depend on what they compute. -/

namespace SimAgentNet.OpenaiServer

variable {Mode Cache : Type}

abbrev CapabilitySet := SortedSet String

/-- What the evaluation of a plan returns. -/
structure PlanEvalReport (Mode : Type) where
  response : Expr Mode
  events : List (EventInput Mode)

/-- The parts of an execution that compute the model response. -/
structure ResponseEngine (Mode Cache : Type) where
  decodeOpenaiRequest : List UInt8 → Except String (Expr Mode)
  parsePlan : String → Except String (Expr Mode)
  checkPlan : Expr Mode → Except String Unit
  evaluate : CapabilitySet → (plan request : Expr Mode) → JsonObject →
    Effect String Cache (PlanEvalReport Mode)
  encodeOpenaiResponsesResponse : Expr Mode → (responseId : String) → (createdAtMs : UInt64) →
    Except String (List UInt8)
  encodeGatewayEventsSse : List (GatewayEvent Mode) → (responseId : String) →
    (createdAtMs : UInt64) → Except String (List UInt8)

/-! ## Normalization -/

structure NormalizedResponseRequest where
  object : JsonObject
  request : GatewayRequest

def threadMessageJson (message : GatewayThreadMessage) : Json :=
  .object [("content", .string message.content), ("role", .string message.role)]

/-- The messages of the thread come before those of the request. -/
def withThreadMessages (store : MemoryGatewayStore Mode) (object : JsonObject) :
    RouteResult JsonObject :=
  match (object.get "thread_id").bind Json.asStr with
  | none => .ok object
  | some threadId =>
    if (store.thread threadId).isNone then .error (.notFoundKind "thread" threadId)
    else
      let messages := (store.threadMessagesOf threadId).map threadMessageJson
      let rest := object.remove "messages"
      if messages.isEmpty then .ok object
      else match object.get "messages" with
        | some (.array existing) => .ok (rest.insert "messages" (.array (messages ++ existing)))
        | _ =>
          -- a field `messages` that is not an array has been taken out
          match rest.get "input" with
          | none => .error (.missingRequired "input")
          | some (.string input) =>
            let message : Json := .object [("content", .string input), ("role", .string "user")]
            .ok ((rest.remove "input").insert "messages" (.array (messages ++ [message])))
          | some _ =>
            .error (.badRequest "threaded response input must be a string" (some "input")
              "invalid_input")

def normalizeResponseRequest (serde : Serde) (store : MemoryGatewayStore Mode)
    (request : GatewayRequest) : RouteResult NormalizedResponseRequest := do
  let object ← requestObject serde request.body
  let object ← withThreadMessages store object
  let body := serde.canonicalJsonBytes (.object object)
  return ⟨object, .new request.method request.path request.headers body⟩

def requireInput (object : JsonObject) : RouteResult Unit :=
  if (object.get "input").isSome ∨ (object.get "messages").isSome then .ok ()
  else .error (.missingRequired "input")

/-! ## The text of a model response -/

section
variable (host : Host Mode)

/-- The values of the entries whose key is a symbol of the given name. -/
def entriesNamed (name : String) (entries : List (Expr Mode × Expr Mode)) : List (Expr Mode) :=
  entries.filterMap fun e =>
    match e.1 with
    | .symbol s => if s.name = name then some e.2 else none
    | _ => none

def responseTextPart : Expr Mode → RouteResult String
  | .map entries =>
    let types := (entriesNamed "type" entries).filterMap fun v =>
      match v with | .symbol s => some s.name | _ => none
    let texts := (entriesNamed "text" entries).filterMap fun v =>
      match v with | .string t => some t | _ => none
    if types.head? ≠ some "text" then
      .error (.internalMessage "streaming fixture responses support only text content")
    else match texts.head? with
      | some text => .ok text
      | none => .error (.internalMessage "text content part missing text")
  | _ => .error (.internalMessage "model response content part must be a map")

def responseOutputText (response : Expr Mode) : RouteResult String :=
  match host.exprField response "content" with
  | none => .error (.internalMessage "model response missing content")
  | some (.list parts) => do
    let texts ← parts.mapM responseTextPart
    return String.join texts
  | some _ => .error (.internalMessage "model response content must be a list")

/-- The words of a text. -/
def splitWhitespace (text : List Char) : List (List Char) :=
  (text.splitOnP Char.isUnicodeWhitespace).filter (· ≠ [])

def streamTextChunks (text : String) : List String :=
  match splitWhitespace text.toList with
  | [] => []
  | word :: words => .ofList word :: words.map fun w => .ofList (' ' :: w)

def responseDeltaChunks (response : Expr Mode) (streaming : Bool) : RouteResult (List String) := do
  let outputText ← responseOutputText host response
  return if streaming then streamTextChunks outputText else [outputText]

def responseUsageExpr (response : Expr Mode) : Expr Mode :=
  (host.exprField response "usage").getD .nil

end

/-! ## Execution -/

section
variable (host : Host Mode) (engine : ResponseEngine Mode Cache)

/-- A request that has passed the checks made before anything is recorded. -/
structure ResponseRequest (Mode : Type) where
  object : JsonObject
  request : GatewayRequest
  model : String
  store : Bool
  stream : Bool
  requestExpr : Expr Mode
  plan : Expr Mode

def readResponseRequest (store : MemoryGatewayStore Mode) (request : GatewayRequest) :
    RouteResult (ResponseRequest Mode) := do
  let normalized ← normalizeResponseRequest host.serde store request
  let model ← requiredString normalized.object "model"
  requireInput normalized.object
  let requestExpr ← (engine.decodeOpenaiRequest normalized.request.body).mapError
    OpenAiRouteError.badRequestFromError
  let plan ← (engine.parsePlan model).mapError OpenAiRouteError.badModelFromError
  (engine.checkPlan plan).mapError OpenAiRouteError.badModelFromError
  return {
    object := normalized.object, request := normalized.request, model, requestExpr, plan
    store := ((normalized.object.get "store").bind Json.asBool).getD false
    stream := ((normalized.object.get "stream").bind Json.asBool).getD false }

/-- Evaluates the plan; the cache keeps what the evaluation wrote into it. -/
def evaluatePlan (capabilities : CapabilitySet) (r : ResponseRequest Mode) :
    Route Mode Cache ResponseIdGenerators (PlanEvalReport Mode) :=
  Effect.focus Work.cache (fun cache w => { w with cache })
    (Effect.mapError (OpenAiRouteError.model · r.model)
      (engine.evaluate capabilities r.plan r.requestExpr r.object))

/-- The events of a run, in the order of the source: the request, the plan and the model, what the
evaluation reports, the text of the response, its usage and the response itself. -/
def recordRun (capabilities : CapabilitySet) (r : ResponseRequest Mode) (prologue : RunPrologue) :
    Route Mode Cache ResponseIdGenerators (EventLog Mode × Expr Mode) := do
  let log ← appendEvents host prologue.runId r.store 0
    [⟨.new "request-start", prologue.recordedRequest.toExpr⟩, ⟨.new "plan-start", r.plan⟩,
      ⟨.new "model-start", .string r.model⟩] .empty
  let report ← evaluatePlan engine capabilities r
  let log ← appendEvents host prologue.runId r.store 3 report.events log
  let deltas ← Effect.ofExcept (responseDeltaChunks host report.response r.stream)
  let sequence := 3 + report.events.length
  let log ← appendEvents host prologue.runId r.store sequence
    (deltas.map fun delta => ⟨.new "delta", .string delta⟩) log
  let log ← appendEvents host prologue.runId r.store (sequence + deltas.length)
    [⟨.new "usage", responseUsageExpr host report.response⟩, ⟨.new "final", report.response⟩] log
  return (log, report.response)

/-- Stores the final response under its public id, with the ids of the ledger. -/
def storeFinalResponse (prologue : RunPrologue) (log : EventLog Mode) (responseId : String)
    (finalResponse : GatewayResponse) : Route Mode Cache ResponseIdGenerators (Option ContentId) := do
  let id ← Route.kernel (host.contentIdForExpr finalResponse.toExpr)
  let record : StoredGatewayResponse :=
    { StoredGatewayResponse.new responseId id finalResponse with
      requestContentId := some prologue.requestContentId
      runContentId := some prologue.runContentId
      eventContentIds := log.contentIds }
  Route.write (·.putResponseObject record)
  return some id

/-- A streaming request is answered with the events of its run. -/
def streamResponse (log : EventLog Mode) (responseId : String) (createdAtMs : UInt64) :
    Route Mode Cache ResponseIdGenerators GatewayResponse := do
  let body ← Route.kernel (engine.encodeGatewayEventsSse log.events responseId createdAtMs)
  return .sse 200 body

def tryExecuteResponseRequest (capabilities : CapabilitySet) (request : GatewayRequest) :
    Route Mode Cache ResponseIdGenerators (ResponseExecution Mode) := do
  let r ← Effect.observe fun w => readResponseRequest host engine w.store request
  let prologue ← beginRun host r.request none r.store
  let (log, modelResponse) ← recordRun host engine capabilities r prologue
  let responseId ← GatewayRunIdGenerators.nextResponseId
  let createdAtMs ← Route.nowMs host
  let body ← Route.kernel (engine.encodeOpenaiResponsesResponse modelResponse responseId createdAtMs)
  let finalResponse := GatewayResponse.json 200 body
  let responseContentId ← (if r.store then storeFinalResponse host prologue log responseId
    finalResponse else pure none : Route Mode Cache ResponseIdGenerators (Option ContentId))
  let response ← (if r.stream then streamResponse engine log responseId createdAtMs
    else pure finalResponse : Route Mode Cache ResponseIdGenerators GatewayResponse)
  return {
    response, requestContentId := some prologue.requestContentId
    runContentId := some prologue.runContentId, eventContentIds := log.contentIds
    events := log.events, responseId := some responseId
    responseCreatedAtMs := some createdAtMs, responseContentId }

/-- An error becomes a response of its own; the records written before it stay. -/
def executeResponseRequest (capabilities : CapabilitySet) (request : GatewayRequest)
    (w : Work Mode Cache ResponseIdGenerators) :
    ResponseExecution Mode × Work Mode Cache ResponseIdGenerators :=
  match tryExecuteResponseRequest host engine capabilities request w with
  | (.ok execution, w') => (execution, w')
  | (.error e, w') => (.error host.serde e, w')

end

end SimAgentNet.OpenaiServer
