import SimAgentNet.Kernel.Expr

/-! # Gateway objects

The records of the OpenAI-shaped gateway: the request, run, event and response of one execution,
the response object that links them, and the durable files, batches, threads and vector stores. -/

namespace SimAgentNet.OpenaiServer

variable {Mode : Type}

structure GatewayRequest where
  id : Option String
  timestampMs : Option UInt64
  method : String
  path : String
  headers : List (String × String)
  body : List UInt8
deriving DecidableEq

structure GatewayResponse where
  status : UInt16
  headers : List (String × String)
  body : List UInt8
deriving DecidableEq

structure GatewayRun where
  id : String
  requestContentId : ContentId
  status : Symbol
  createdAtMs : UInt64
deriving DecidableEq

structure GatewayEvent (Mode : Type) where
  id : String
  runId : String
  sequence : Nat
  kind : Symbol
  payload : Expr Mode
  createdAtMs : UInt64
deriving DecidableEq

/-- A stored response under its public id, with the records that produced it and the key of the
caller it belongs to. -/
structure StoredGatewayResponse where
  responseId : String
  contentId : ContentId
  response : GatewayResponse
  requestContentId : Option ContentId
  runContentId : Option ContentId
  eventContentIds : List ContentId
  parentResponseId : Option String
  ownerKeyId : Option String
deriving DecidableEq

inductive GatewayBatchStatus where
  | queued
  | inProgress
  | completed
  | cancelled
deriving DecidableEq

structure GatewayBatchCounts where
  total : Nat
  completed : Nat
  failed : Nat
  cancelled : Nat
deriving DecidableEq

structure GatewayBatch where
  id : String
  inputFileId : String
  endpoint : String
  status : GatewayBatchStatus
  outputFileId : Option String
  errorFileId : Option String
  createdAtMs : UInt64
  completedAtMs : Option UInt64
  cancelledAtMs : Option UInt64
  requestCounts : GatewayBatchCounts
deriving DecidableEq

/-- Where the bytes of a file live. -/
inductive GatewayFileStorageRef where
  | memory (contentId : ContentId)
  | tableFs (path : String)
deriving DecidableEq

structure GatewayFile where
  id : String
  filename : String
  purpose : String
  bytes : Nat
  createdAtMs : UInt64
  storageRef : GatewayFileStorageRef
deriving DecidableEq

structure GatewayThread where
  id : String
  createdAtMs : UInt64
  metadata : List (String × String)
deriving DecidableEq

structure GatewayThreadMessage where
  id : String
  threadId : String
  role : String
  content : String
  createdAtMs : UInt64
deriving DecidableEq

/-- An embedded text; a component of the embedding is given by its 64 bits. -/
structure GatewayVectorStoreItem where
  id : String
  text : String
  embedding : List UInt64
deriving DecidableEq

structure GatewayVectorStore where
  id : String
  name : String
  createdAtMs : UInt64
  items : List GatewayVectorStoreItem
deriving DecidableEq

namespace GatewayRequest

def new (method path : String) (headers : List (String × String)) (body : List UInt8) :
    GatewayRequest :=
  ⟨none, none, method, path, headers, body⟩

def withMetadata (request : GatewayRequest) (id : String) (timestampMs : UInt64) : GatewayRequest :=
  { request with id := some id, timestampMs := some timestampMs }

end GatewayRequest

namespace GatewayResponse

def new (status : UInt16) (headers : List (String × String)) (body : List UInt8) :
    GatewayResponse :=
  ⟨status, headers, body⟩

def json (status : UInt16) (body : List UInt8) : GatewayResponse :=
  new status [("Content-Type", "application/json")] body

def sse (status : UInt16) (body : List UInt8) : GatewayResponse :=
  new status [("Content-Type", "text/event-stream")] body

end GatewayResponse

namespace GatewayRun

def new (id : String) (requestContentId : ContentId) (createdAtMs : UInt64) : GatewayRun :=
  ⟨id, requestContentId, .new "created", createdAtMs⟩

def withStatus (run : GatewayRun) (status : Symbol) : GatewayRun := { run with status }

end GatewayRun

namespace StoredGatewayResponse

def new (responseId : String) (contentId : ContentId) (response : GatewayResponse) :
    StoredGatewayResponse :=
  ⟨responseId, contentId, response, none, none, [], none, none⟩

end StoredGatewayResponse

namespace GatewayBatch

def new (id inputFileId endpoint : String) (createdAtMs : UInt64)
    (requestCounts : GatewayBatchCounts) : GatewayBatch :=
  ⟨id, inputFileId, endpoint, .queued, none, none, createdAtMs, none, none, requestCounts⟩

def complete (batch : GatewayBatch) (outputFileId errorFileId : Option String)
    (completedAtMs : UInt64) (requestCounts : GatewayBatchCounts) : GatewayBatch :=
  { batch with
    status := .completed, outputFileId, errorFileId, completedAtMs := some completedAtMs
    requestCounts }

/-- A cancelled batch counts what is still queued as cancelled. -/
def cancel (batch : GatewayBatch) (cancelledAtMs : UInt64) : GatewayBatch :=
  let counts := batch.requestCounts
  let queued := counts.total - (counts.completed + counts.failed + counts.cancelled)
  { batch with
    status := .cancelled, cancelledAtMs := some cancelledAtMs
    requestCounts := { counts with cancelled := counts.cancelled + queued } }

end GatewayBatch

end SimAgentNet.OpenaiServer
