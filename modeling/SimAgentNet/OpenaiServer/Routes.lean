import SimAgentNet.OpenaiServer.Keys

/-! # The routes of the durable state

Creating files, threads, thread messages, vector stores and batches. Every handler starts fresh id
generators from one reading of the clock. -/

namespace SimAgentNet.OpenaiServer

open SimAgentNet.Expr (entry)

variable {Mode Cache : Type}

/-- The store and the plan cache that all requests share, and the number of clock readings. -/
structure GatewayState (Mode Cache : Type) where
  store : MemoryGatewayStore Mode
  cache : Cache
  ticks : Nat

/-- What a handler answers, the state it leaves and the final state of its generators. -/
structure Handled (Mode Cache Ids : Type) where
  response : GatewayResponse
  state : GatewayState Mode Cache
  ids : Ids

/-- The first reading of a handler; a failed reading counts as 1. -/
def seedOf (host : Host Mode) (state : GatewayState Mode Cache) : UInt64 :=
  match host.clock state.ticks with
  | .ok ms => ms
  | .error _ => 1

/-- Runs a route after `ticks` clock readings, with an error as its own response. -/
def runRoute (host : Host Mode) (ids : Ids) (route : Route Mode Cache Ids GatewayResponse)
    (state : GatewayState Mode Cache) : Handled Mode Cache Ids :=
  match route ⟨state.store, state.cache, ids, state.ticks + 1⟩ with
  | (.ok response, w) => ⟨response, ⟨w.store, w.cache, w.ticks⟩, w.ids⟩
  | (.error e, w) => ⟨e.intoResponse host.serde, ⟨w.store, w.cache, w.ticks⟩, w.ids⟩

/-- The next id of a single generator. -/
def nextId : Route Mode Cache GatewayIdGenerator String := Route.mint id fun g _ => g

section
variable (host : Host Mode)

/-! ## Files -/

def uploadBytes (object : JsonObject) : RouteResult (List UInt8) :=
  match (object.get "content").bind Json.asStr with
  | some content => .ok (Text.utf8 content)
  | none => .error (.missingRequired "content")

def storageRef (object : JsonObject) (contentId : ContentId) : RouteResult GatewayFileStorageRef :=
  match object.get "storage_ref" with
  | none => .ok (.memory contentId)
  | some (.object storage) =>
    match ((JsonObject.get storage "kind").bind Json.asStr).getD "memory" with
    | "memory" => .ok (.memory contentId)
    | "table-fs" =>
      match (JsonObject.get storage "path").bind Json.asStr with
      | some path => .ok (.tableFs path)
      | none => .error (.missingRequired "path")
    | other =>
      .error (.badRequest ("unsupported file storage_ref kind: " ++ other) (some "storage_ref")
        "unsupported_storage_ref")
  | some _ =>
    .error (.badRequest "storage_ref must be an object" (some "storage_ref") "invalid_storage_ref")

def storageRefJson : GatewayFileStorageRef → Json
  | .memory contentId =>
    .object [("content_id", .string (host.hexEncode contentId.bytes)), ("kind", .string "memory")]
  | .tableFs path => .object [("kind", .string "table-fs"), ("path", .string path)]

def fileJson (file : GatewayFile) : Json :=
  .object [("bytes", .ofNat file.bytes), ("created_at", .ofNat file.createdAtMs.toNat),
    ("filename", .string file.filename), ("id", .string file.id), ("object", .string "file"),
    ("purpose", .string file.purpose), ("storage_ref", storageRefJson host file.storageRef)]

def createFile (request : GatewayRequest) :
    Route Mode Cache GatewayIdGenerator GatewayResponse := do
  let object ← Effect.ofExcept (requestObject host.serde request.body)
  let filename ← Effect.ofExcept (requiredString object "filename")
  let purpose := optionalString object "purpose" "assistants"
  let bytes ← Effect.ofExcept (uploadBytes object)
  let contentId ← Route.kernel (host.contentIdForExpr (.bytes bytes))
  let ref ← Effect.ofExcept (storageRef object contentId)
  let id ← nextId
  let createdAtMs ← Route.nowMs host
  let file : GatewayFile := ⟨id, filename, purpose, bytes.length, createdAtMs, ref⟩
  Route.write (·.putFile file bytes)
  return .jsonValue host.serde 200 (fileJson host file)

def handleFiles (request : GatewayRequest) (state : GatewayState Mode Cache) :
    Handled Mode Cache GatewayIdGenerator :=
  runRoute host (.deterministic "file" (seedOf host state)) (createFile host request) state

/-! ## Threads -/

def metadataEntry (e : String × Json) : RouteResult (String × String) :=
  match e.2.asStr with
  | some value => .ok (e.1, value)
  | none =>
    .error (.badRequest "metadata values must be strings" (some "metadata") "invalid_metadata")

def metadata : Option Json → RouteResult (List (String × String))
  | none => .ok []
  | some (.object object) => object.mapM metadataEntry
  | some _ => .error (.badRequest "metadata must be an object" (some "metadata") "invalid_metadata")

def threadJson (thread : GatewayThread) : Json :=
  .object [("created_at", .ofNat thread.createdAtMs.toNat), ("id", .string thread.id),
    ("metadata", .object (thread.metadata.map fun e => (e.1, .string e.2))),
    ("object", .string "thread")]

def messageJson (message : GatewayThreadMessage) : Json :=
  .object [("content", .string message.content), ("created_at", .ofNat message.createdAtMs.toNat),
    ("id", .string message.id), ("object", .string "thread.message"),
    ("role", .string message.role), ("thread_id", .string message.threadId)]

def createThread (request : GatewayRequest) :
    Route Mode Cache GatewayIdGenerator GatewayResponse := do
  let object ← Effect.ofExcept (requestObjectOrEmpty host.serde request.body)
  let id ← nextId
  let createdAtMs ← Route.nowMs host
  let metadata ← Effect.ofExcept (metadata (object.get "metadata"))
  let thread : GatewayThread := ⟨id, createdAtMs, metadata⟩
  Route.write (·.putThread thread)
  return .jsonValue host.serde 200 (threadJson thread)

def handleThreads (request : GatewayRequest) (state : GatewayState Mode Cache) :
    Handled Mode Cache GatewayIdGenerator :=
  runRoute host (.deterministic "thread" (seedOf host state)) (createThread host request) state

def requireThread (store : MemoryGatewayStore Mode) (threadId : String) : RouteResult Unit :=
  if (store.thread threadId).isSome then .ok () else .error (.notFoundKind "thread" threadId)

def appendMessage (threadId : String) (request : GatewayRequest) :
    Route Mode Cache GatewayIdGenerator GatewayResponse := do
  Effect.observe fun w => requireThread w.store threadId
  let object ← Effect.ofExcept (requestObjectOrEmpty host.serde request.body)
  let role ← Effect.ofExcept (requiredString object "role")
  let content ← Effect.ofExcept (requiredString object "content")
  let id ← nextId
  let createdAtMs ← Route.nowMs host
  let message : GatewayThreadMessage := ⟨id, threadId, role, content, createdAtMs⟩
  Route.write (·.putThreadMessage message)
  return .jsonValue host.serde 200 (messageJson message)

/-- A path without a thread id is answered before the clock is read. -/
def handleThreadPost (request : GatewayRequest) (state : GatewayState Mode Cache) :
    Handled Mode Cache GatewayIdGenerator :=
  let ids := GatewayIdGenerator.deterministic "msg" (seedOf host state)
  match idFromPathWithSuffix request.path "/v1/threads/" "/messages" with
  | none =>
    ⟨(OpenAiRouteError.notFoundKind "thread" request.path).intoResponse host.serde, state, ids⟩
  | some threadId => runRoute host ids (appendMessage host threadId request) state

/-! ## Vector stores -/

structure VectorStoreIdGenerators where
  vectorStore : GatewayIdGenerator
  item : GatewayIdGenerator
  run : GatewayRunIdGenerators

def VectorStoreIdGenerators.deterministic (start : UInt64) : VectorStoreIdGenerators where
  vectorStore := .deterministic "vs" start
  item := .deterministic "vsi" start
  run := .deterministic start

structure ItemSpec where
  id : Option String
  text : String

def itemSpec : Json → RouteResult ItemSpec
  | .string text => .ok ⟨none, text⟩
  | .object object => do
    let text ← requiredString object "text"
    return ⟨(JsonObject.get object "id").bind Json.asStr, text⟩
  | _ =>
    .error (.badRequest "items must contain strings or objects" (some "items") "invalid_request")

def itemSpecs (object : JsonObject) : RouteResult (List ItemSpec) :=
  match object.get "items" with
  | none => .ok []
  | some (.array items) => items.mapM itemSpec
  | some _ => .error (.badRequest "items must be an array" (some "items") "invalid_request")

def nextItemId : Route Mode Cache VectorStoreIdGenerators String :=
  Route.mint (·.item) fun g ids => { ids with item := g }

/-- The items in order; an item without an id gets the next one. -/
def createItems : List ItemSpec → Route Mode Cache VectorStoreIdGenerators
    (List GatewayVectorStoreItem)
  | [] => return []
  | spec :: specs => do
    let id ← (match spec.id with
      | some id => pure id
      | none => nextItemId : Route Mode Cache VectorStoreIdGenerators String)
    let items ← createItems specs
    return ⟨id, spec.text, host.embeddingForText spec.text⟩ :: items

def vectorStoreJson (vectorStore : GatewayVectorStore) : Json :=
  let count := Json.ofNat vectorStore.items.length
  .object [("created_at", .ofNat vectorStore.createdAtMs.toNat),
    ("file_counts", .object [("cancelled", .ofNat 0), ("completed", count), ("failed", .ofNat 0),
      ("in_progress", .ofNat 0), ("total", count)]),
    ("id", .string vectorStore.id), ("metadata", .object []), ("name", .string vectorStore.name),
    ("object", .string "vector_store")]

def embeddingModel : String := "sim/embed/tensor-f64-small"

def vectorStoreEventPayload (vectorStore : GatewayVectorStore) : Expr Mode :=
  .map [entry "id" (.string vectorStore.id), entry "name" (.string vectorStore.name),
    entry "item-count" (.string (toString vectorStore.items.length)),
    entry "embedding-model" (.string embeddingModel)]

/-- The generators of the recorded run. -/
def onRun (x : Route Mode Cache GatewayRunIdGenerators α) :
    Route Mode Cache VectorStoreIdGenerators α :=
  Route.onIds (·.run) (fun run ids => { ids with run }) x

def createVectorStore (request : GatewayRequest) :
    Route Mode Cache VectorStoreIdGenerators GatewayResponse := do
  let object ← Effect.ofExcept (requestObject host.serde request.body)
  let name := optionalString object "name" "sim-vector-store"
  let specs ← Effect.ofExcept (itemSpecs object)
  let items ← createItems host specs
  let id ← Route.mint (·.vectorStore) fun g ids => { ids with vectorStore := g }
  let createdAtMs ← Route.nowMs host
  let vectorStore : GatewayVectorStore := ⟨id, name, createdAtMs, items⟩
  Route.write (·.putVectorStore vectorStore)
  onRun (recordRouteExecution host request
    ⟨.jsonValue host.serde 200 (vectorStoreJson vectorStore), "/v1/vector_stores",
      [⟨.new "vector-store-create", vectorStoreEventPayload vectorStore⟩], recordExecution object⟩)

def handleVectorStores (request : GatewayRequest) (state : GatewayState Mode Cache) :
    Handled Mode Cache VectorStoreIdGenerators :=
  runRoute host (.deterministic (seedOf host state)) (createVectorStore host request) state

def searchJson (vectorStoreId query : String) (hits : List SearchHit) : Json :=
  .object [("data", .array (hits.map fun hit => .object [("id", .string hit.id),
      ("object", .string "vector_store.search_result"), ("score", .number hit.score),
      ("text", .string hit.text)])),
    ("model", .string embeddingModel), ("object", .string "vector_store.search_results"),
    ("query", .string query), ("vector_store_id", .string vectorStoreId)]

def requireVectorStore (store : MemoryGatewayStore Mode) (vectorStoreId : String) :
    RouteResult GatewayVectorStore :=
  match store.vectorStore vectorStoreId with
  | some vectorStore => .ok vectorStore
  | none => .error (.notFoundKind "vector_store" vectorStoreId)

def searchLimit (object : JsonObject) : RouteResult Nat := do
  let topK ← optionalU64 object "top_k" 10
  optionalU64 object "limit" topK

def searchVectorStores (vectorStoreId : String) (request : GatewayRequest) :
    Route Mode Cache GatewayRunIdGenerators GatewayResponse := do
  let object ← Effect.ofExcept (requestObject host.serde request.body)
  let query ← Effect.ofExcept (requiredString object "query")
  let limit ← Effect.ofExcept (searchLimit object)
  let vectorStore ← Effect.observe fun w => requireVectorStore w.store vectorStoreId
  let hits := host.searchVectorStore vectorStore query limit
  recordRouteExecution host request
    ⟨.jsonValue host.serde 200 (searchJson vectorStoreId query hits),
      "/v1/vector_stores/\x7bid\x7d/search",
      [⟨.new "vector-store-search", .map [entry "vector-store-id" (.string vectorStoreId),
        entry "query" (.string query), entry "result-count" (.string (toString hits.length))]⟩],
      recordExecution object⟩

def handleVectorStoreSearch (request : GatewayRequest) (state : GatewayState Mode Cache) :
    Handled Mode Cache GatewayRunIdGenerators :=
  let ids := GatewayRunIdGenerators.deterministic (seedOf host state)
  match idFromPathWithSuffix request.path "/v1/vector_stores/" "/search" with
  | none =>
    ⟨(OpenAiRouteError.notFoundKind "vector_store" request.path).intoResponse host.serde, state, ids⟩
  | some vectorStoreId => runRoute host ids (searchVectorStores host vectorStoreId request) state

/-! ## Batches -/

structure BatchIdGenerators where
  batch : GatewayIdGenerator
  file : GatewayIdGenerator
  response : ResponseIdGenerators

def BatchIdGenerators.deterministic (start : UInt64) : BatchIdGenerators where
  batch := .deterministic "batch" start
  file := .deterministic "file" start
  response := .deterministic start

structure BatchItem where
  customId : String
  method : String
  path : String
  body : JsonObject

structure BatchRunResult where
  outputRecords : List Json
  errorRecords : List Json
  completed : Nat
  failed : Nat

/-- The lines of an input file that are not blank, with their numbers from 1. -/
def jsonlLines (bytes : List UInt8) : RouteResult (List (Nat × String)) :=
  match Text.ofUtf8 bytes with
  | none =>
    .error (.badRequest ("batch input file must be UTF-8 JSONL: " ++ host.utf8Error bytes)
      (some "input_file_id") "invalid_batch_file")
  | some text =>
    let lines := (text.toList.splitOn '\n').mapIdx fun i line => (i + 1, trim line)
    .ok ((lines.filter (·.2 ≠ [])).map fun line => (line.1, .ofList line.2))

def batchItem (line endpoint : String) : RouteResult BatchItem :=
  match host.serde.fromSlice (Text.utf8 line) with
  | .error err => .error (.invalidJson ("invalid JSONL batch line: " ++ err))
  | .ok (.object object) => do
    let customId ← requiredString object "custom_id"
    let method ← requiredString object "method"
    if method ≠ "POST" then
      throw (.badRequest "batch item method must be POST" (some "method") "unsupported_method")
    let url := ((JsonObject.get object "url").or (JsonObject.get object "path")).bind Json.asStr
    match url with
    | none => throw (.missingRequired "url")
    | some path =>
      if path ≠ endpoint then
        throw (.badRequest ("batch item endpoint mismatch: " ++ path) (some "url")
          "endpoint_mismatch")
      match (JsonObject.get object "body").bind Json.asObject with
      | none => throw (.missingRequired "body")
      | some body => return ⟨customId, method, path, body⟩
  | .ok _ =>
    .error (.badRequest "batch line must be a JSON object" none "invalid_batch_line")

/-- Batched requests are always stored and never streamed. -/
def itemRequest (item : BatchItem) : GatewayRequest :=
  let body := (item.body.insert "store" (.bool true)).insert "stream" (.bool false)
  .new item.method item.path [("Content-Type", "application/json")]
    (host.serde.canonicalJsonBytes (.object body))

def responseJson (response : GatewayResponse) : RouteResult Json :=
  match host.serde.fromSlice response.body with
  | .ok value => .ok value
  | .error err => .error (.internalMessage ("gateway response body is not JSON: " ++ err))

def errorField (value : Json) : Json := ((value.asObject).bind (·.get "error")).getD .null

def outputRecord (item : BatchItem) (response : GatewayResponse) : RouteResult Json := do
  let body ← responseJson host response
  return .object [("custom_id", .string item.customId), ("id", .string item.customId),
    ("response", .object [("body", body), ("status_code", .ofNat response.status.toNat)])]

def responseErrorRecord (customId : String) (response : GatewayResponse) : RouteResult Json := do
  let body ← responseJson host response
  return .object [("custom_id", .string customId), ("error", errorField body),
    ("response", .object [("status_code", .ofNat response.status.toNat)])]

def lineErrorRecord (lineNumber : Nat) (e : OpenAiRouteError) : RouteResult Json := do
  let body ← responseJson host (e.intoResponse host.serde)
  return .object [("error", errorField body), ("line", .ofNat lineNumber)]

def isSuccess (status : UInt16) : Bool := 200 ≤ status && status < 300

/-- The generators of the batched executions. -/
def onResponse (x : Route Mode Cache ResponseIdGenerators α) : Route Mode Cache BatchIdGenerators α :=
  Route.onIds (·.response) (fun response ids => { ids with response }) x

variable (engine : ResponseEngine Mode Cache)

/-- An execution as a step of a route: it does not fail. -/
def executeRoute (capabilities : CapabilitySet) (request : GatewayRequest) :
    Route Mode Cache ResponseIdGenerators (ResponseExecution Mode) := fun w =>
  let (execution, w') := executeResponseRequest host engine capabilities request w
  (.ok execution, w')

def runBatchItem (capabilities : CapabilitySet) (endpoint : String) (result : BatchRunResult)
    (line : Nat × String) : Route Mode Cache BatchIdGenerators BatchRunResult :=
  match batchItem host line.2 endpoint with
  | .ok item => do
    let execution ← onResponse (executeRoute host engine capabilities (itemRequest host item))
    if isSuccess execution.response.status then do
      let record ← Effect.ofExcept (outputRecord host item execution.response)
      return { result with
        completed := result.completed + 1, outputRecords := result.outputRecords ++ [record] }
    else do
      let record ← Effect.ofExcept (responseErrorRecord host item.customId execution.response)
      return { result with
        failed := result.failed + 1, errorRecords := result.errorRecords ++ [record] }
  | .error e => do
    let record ← Effect.ofExcept (lineErrorRecord host line.1 e)
    return { result with
      failed := result.failed + 1, errorRecords := result.errorRecords ++ [record] }

def runBatchItems (capabilities : CapabilitySet) (endpoint : String) :
    List (Nat × String) → BatchRunResult → Route Mode Cache BatchIdGenerators BatchRunResult
  | [], result => return result
  | line :: lines, result => do
    let result ← runBatchItem host engine capabilities endpoint result line
    runBatchItems capabilities endpoint lines result

def nextBatchFileId : Route Mode Cache BatchIdGenerators String :=
  Route.mint (·.file) fun g ids => { ids with file := g }

/-- Stores records as a file of one JSON text a line; no records, no file. -/
def storeJsonlFile (batchId ending purpose : String) (records : List Json) :
    Route Mode Cache BatchIdGenerators (Option String) :=
  if records.isEmpty then pure none
  else do
    let text := "\n".intercalate (records.map host.serde.toText) ++ "\n"
    let bytes := Text.utf8 text
    let contentId ← Route.kernel (host.contentIdForExpr (.bytes bytes))
    let id ← nextBatchFileId
    let createdAtMs ← Route.nowMs host
    let file : GatewayFile :=
      ⟨id, batchId ++ "-" ++ ending ++ ".jsonl", purpose, bytes.length, createdAtMs,
        .memory contentId⟩
    Route.write (·.putFile file bytes)
    return some id

def GatewayBatchStatus.asStr : GatewayBatchStatus → String
  | .queued => "queued"
  | .inProgress => "in_progress"
  | .completed => "completed"
  | .cancelled => "cancelled"

def batchJson (batch : GatewayBatch) : Json :=
  let time : Option UInt64 → Json := .ofOption fun ms => .ofNat ms.toNat
  let counts := batch.requestCounts
  .object [("cancelled_at", time batch.cancelledAtMs), ("completed_at", time batch.completedAtMs),
    ("created_at", .ofNat batch.createdAtMs.toNat), ("endpoint", .string batch.endpoint),
    ("error_file_id", .ofOption .string batch.errorFileId), ("id", .string batch.id),
    ("input_file_id", .string batch.inputFileId), ("object", .string "batch"),
    ("output_file_id", .ofOption .string batch.outputFileId),
    ("request_counts", .object [("cancelled", .ofNat counts.cancelled),
      ("completed", .ofNat counts.completed), ("failed", .ofNat counts.failed),
      ("total", .ofNat counts.total)]),
    ("status", .string batch.status.asStr)]

/-- The input file, the endpoint and the lines of a batch request. -/
structure BatchRequest where
  object : JsonObject
  inputFileId : String
  endpoint : String
  lines : List (Nat × String)

def readBatchRequest (store : MemoryGatewayStore Mode) (request : GatewayRequest) :
    RouteResult BatchRequest := do
  let object ← requestObject host.serde request.body
  let inputFileId ← requiredString object "input_file_id"
  let endpoint ← requiredString object "endpoint"
  if endpoint ≠ "/v1/responses" then
    throw (.badRequest ("unsupported batch endpoint: " ++ endpoint) (some "endpoint")
      "unsupported_endpoint")
  match store.fileBytesOf inputFileId with
  | none => throw (.notFoundKind "file" inputFileId)
  | some bytes =>
    let lines ← jsonlLines host bytes
    return ⟨object, inputFileId, endpoint, lines⟩

def deferred (object : JsonObject) : Bool := ((object.get "defer").bind Json.asBool).getD false

/-- Runs the items of a queued batch and stores their output and their errors. -/
def completeBatch (capabilities : CapabilitySet) (batch : GatewayBatch)
    (lines : List (Nat × String)) : Route Mode Cache BatchIdGenerators GatewayResponse := do
  let result ← runBatchItems host engine capabilities batch.endpoint lines ⟨[], [], 0, 0⟩
  let outputFileId ← storeJsonlFile host batch.id "output" "batch_output" result.outputRecords
  let errorFileId ← storeJsonlFile host batch.id "errors" "batch_error" result.errorRecords
  let completedAtMs ← Route.nowMs host
  let completed := batch.complete outputFileId errorFileId completedAtMs
    ⟨result.completed + result.failed, result.completed, result.failed, 0⟩
  Route.write (·.putBatch completed)
  return .jsonValue host.serde 200 (batchJson completed)

def createBatch (capabilities : CapabilitySet) (request : GatewayRequest) :
    Route Mode Cache BatchIdGenerators GatewayResponse := do
  let r ← Effect.observe fun w => readBatchRequest host w.store request
  let createdAtMs ← Route.nowMs host
  let id ← Route.mint (·.batch) fun g ids => { ids with batch := g }
  let batch := GatewayBatch.new id r.inputFileId r.endpoint createdAtMs ⟨r.lines.length, 0, 0, 0⟩
  Route.write (·.putBatch batch)
  if deferred r.object then return .jsonValue host.serde 200 (batchJson batch)
  else completeBatch host engine capabilities batch r.lines

/-- The items of a batch share a cache of their own. -/
def handleBatches (keys : OpenAiKeyTable) (emptyCache : Cache) (request : GatewayRequest)
    (state : GatewayState Mode Cache) : Handled Mode Cache BatchIdGenerators :=
  let handled := runRoute host (.deterministic (seedOf host state))
    (createBatch host engine (keys.effectiveCapabilities host request) request)
    { state with cache := emptyCache }
  { handled with state := { handled.state with cache := state.cache } }

/-- Only a batch that is still to run is cancelled; the batch is written back in any case. -/
def cancelBatch (batchId : String) : Route Mode Cache Unit GatewayResponse := do
  let batch ← Effect.observe fun w =>
    match w.store.batch batchId with
    | some batch => .ok batch
    | none => .error (.notFoundKind "batch" batchId)
  let batch ← (match batch.status with
    | .queued | .inProgress => do
      let cancelledAtMs ← Route.nowMs host
      return batch.cancel cancelledAtMs
    | _ => return batch : Route Mode Cache Unit GatewayBatch)
  Route.write (·.putBatch batch)
  return .jsonValue host.serde 200 (batchJson batch)

def handleBatchCancel (request : GatewayRequest) (state : GatewayState Mode Cache) :
    Handled Mode Cache Unit :=
  match idFromPathWithSuffix request.path "/v1/batches/" "/cancel" with
  | none =>
    ⟨(OpenAiRouteError.notFoundKind "batch" request.path).intoResponse host.serde, state, ()⟩
  | some batchId =>
    match cancelBatch host batchId ⟨state.store, state.cache, (), state.ticks⟩ with
    | (.ok response, w) => ⟨response, ⟨w.store, w.cache, w.ticks⟩, ()⟩
    | (.error e, w) => ⟨e.intoResponse host.serde, ⟨w.store, w.cache, w.ticks⟩, ()⟩

end

end SimAgentNet.OpenaiServer
