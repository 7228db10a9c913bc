import SimAgentNet.Data.Effect
import SimAgentNet.Data.SortedMap
import SimAgentNet.Mcp.Cassette

/-! # The router of requests

A session admits a request, and its router replays it or dispatches it. What the methods do is a
parameter: they read the admission state and work on the rest of the session. -/

namespace SimAgentNet.Mcp
variable {Mode Inner : Type}

inductive McpBoundaryLimit where
  | deadline
  | rate
  | activeRequests
deriving DecidableEq

def McpBoundaryLimit.auditOutcome : McpBoundaryLimit → String
  | .deadline => "deadline-denied"
  | .rate => "rate-denied"
  | .activeRequests => "active-denied"

/-- The part of a session that admits requests. -/
structure Gate where
  deadlineMs : Option Nat
  rateLimit : Option Nat
  activeRequestLimit : Option Nat
  requestsSeen : Nat
  activeRequests : SortedSet String
  cancelledRequests : SortedSet String

def requestKey (debug : Expr Mode → String) : Expr Mode → String
  | .string value => value
  | .number number => number.domain.display ++ ":" ++ number.canonical
  | .nil => "nil"
  | id => debug id

namespace Gate

def admitRequest (gate : Gate) (key : String) : Except McpBoundaryLimit Gate :=
  if gate.deadlineMs = some 0 then .error .deadline
  else if gate.activeRequestLimit.any (· ≤ gate.activeRequests.card) then .error .activeRequests
  else if gate.rateLimit.any (· ≤ gate.requestsSeen) then .error .rate
  else .ok { gate with
    requestsSeen := gate.requestsSeen + 1, activeRequests := gate.activeRequests.insert key }

def endRequest (gate : Gate) (key : String) : Gate :=
  { gate with
    activeRequests := gate.activeRequests.erase key
    cancelledRequests := gate.cancelledRequests.erase key }

def requestCancelled (gate : Gate) (key : String) : Bool := key ∈ gate.cancelledRequests

end Gate

structure DispatchReply (Mode : Type) where
  result : Expr Mode
  notifications : List (McpEnvelope Mode)

/-- What the router uses of the rest of the server: the codec, the debug text of an expression, the
data of an error that reports something as not found, and the methods. -/
structure McpServer (Mode Inner : Type) where
  codec : McpCodec Mode
  debug : Expr Mode → String
  notFoundErrorData : Error → Option (Expr Mode)
  dispatchRequest : Gate → (method : String) → (params : Expr Mode) →
    Effect Error Inner (DispatchReply Mode)

/-- A session; `inner` is the part of it, and of the kernel's context, that the methods change. -/
structure McpSession (Mode Inner : Type) where
  gate : Gate
  cassette : Option (McpCassette Mode)
  inner : Inner

/-- How a request was answered. -/
inductive Route where
  | denied
  | replayed
  | cancelled
  | dispatched
deriving DecidableEq

structure Answer (Mode : Type) where
  route : Route
  replies : List (McpEnvelope Mode)

def auditableOperation (method : String) : Option String :=
  if method = "tools/call" then some "tools/call"
  else if method = "resources/read" then some "resources/read"
  else if method = "prompts/get" then some "prompts/get"
  else if method = "sampling/createMessage" then some "sampling"
  else none

def replyOutcome (replies : List (McpEnvelope Mode)) : String :=
  if replies.any fun reply => match reply with | .error _ => true | _ => false then "error" else "ok"

section
variable (server : McpServer Mode Inner)

/-! ## Errors -/

def errorEnvelopeData (id : Expr Mode) (code : Int) (message : String) (data : Expr Mode) :
    McpEnvelope Mode := .error ⟨id, code, message, data⟩

def errorEnvelope (id : Expr Mode) (code : Int) (message detail : String) : McpEnvelope Mode :=
  errorEnvelopeData id code message (.string detail)

def methodNotFoundError (id : Expr Mode) (error : Error) : McpEnvelope Mode :=
  errorEnvelope id server.codec.methodNotFound "method not found" error.text

def errorCodeAndMessage (error : Error) : Int × String :=
  match error.kind with
  | .capabilityDenied | .trustDenied => (server.codec.capabilityDenied, "capability denied")
  | .typeMismatch | .wrongShape | .noMatchingOverload =>
    (server.codec.invalidParams, "invalid params")
  | .unknownFunction => (server.codec.methodNotFound, "method not found")
  | .hostError | .poisonedLock => (server.codec.internalError, "internal error")
  | _ => (server.codec.executionError, "execution error")

def errorResponse (id : Expr Mode) (error : Error) : McpEnvelope Mode :=
  match server.notFoundErrorData error with
  | some data => errorEnvelopeData id server.codec.invalidParams "not found" data
  | none =>
    let (code, message) := errorCodeAndMessage server error
    errorEnvelope id code message error.text

def cancelledError (id : Expr Mode) (detail : String) : McpEnvelope Mode :=
  errorEnvelope id server.codec.cancelled "cancelled" detail

def boundaryLimitError (id : Expr Mode) : McpBoundaryLimit → McpEnvelope Mode
  | .deadline =>
    errorEnvelope id server.codec.executionError "deadline exceeded" "deadline exceeded"
  | .rate => errorEnvelope id server.codec.rateLimited "rate limited" "rate limit exceeded"
  | .activeRequests =>
    errorEnvelope id server.codec.rateLimited "rate limited" "active request limit exceeded"

/-- The replies to a dispatched request. -/
def dispatchReplies (id : Expr Mode) : Except Error (DispatchReply Mode) → List (McpEnvelope Mode)
  | .ok reply => reply.notifications ++ [.response ⟨id, reply.result⟩]
  | .error error =>
    if error.kind = .unknownFunction then [methodNotFoundError server id error]
    else [errorResponse server id error]

/-! ## Requests -/

variable [DecidableEq Mode]

/-- An operation on a session. -/
abbrev Routes (Mode Inner α : Type) := Effect Error (McpSession Mode Inner) α

def replayRequest (request : McpEnvelope Mode) (method : String) :
    Routes Mode Inner (Option (List (McpEnvelope Mode))) := fun session =>
  match session.cassette with
  | none => (.ok none, session)
  | some cassette =>
    match cassette.replay server.codec request with
    | (.ok (some replies), cassette) =>
      let cassette := match auditableOperation method with
        | some operation => cassette.recordAudit method operation "replay"
        | none => cassette
      (.ok (some replies), { session with cassette := some cassette })
    | (result, cassette) => (result, { session with cassette := some cassette })

def recordRequest (request : McpEnvelope Mode) (method : String)
    (replies : List (McpEnvelope Mode)) : Routes Mode Inner Unit := fun session =>
  match session.cassette with
  | none => (.ok (), session)
  | some cassette =>
    match cassette.recordExchange server.codec request replies with
    | .error e => (.error e, session)
    | .ok cassette =>
      let cassette := match auditableOperation method with
        | some operation => cassette.recordAudit method operation (replyOutcome replies)
        | none => cassette
      (.ok (), { session with cassette := some cassette })

def auditRequest (method operation outcome : String) : Routes Mode Inner Unit :=
  .modify fun session =>
    { session with cassette := session.cassette.map (·.recordAudit method operation outcome) }

def endRequest (key : String) : Routes Mode Inner Unit :=
  .modify fun session => { session with gate := session.gate.endRequest key }

/-- Dispatches a request and ends it; the outcome of a failed dispatch is its error. -/
def dispatchRequest (request : McpRequest Mode) :
    Routes Mode Inner (Except Error (DispatchReply Mode)) := fun session =>
  let (result, inner) :=
    server.dispatchRequest session.gate request.method request.params session.inner
  (.ok result, { session with inner })

def handleRequest (request : McpRequest Mode) : Routes Mode Inner (Answer Mode) := do
  let key := requestKey server.debug request.id
  let session ← Effect.get
  match session.gate.admitRequest key with
  | .error limit =>
    auditRequest request.method "boundary" limit.auditOutcome
    return ⟨.denied, [boundaryLimitError server request.id limit]⟩
  | .ok gate =>
    Effect.modify fun session => { session with gate }
    match ← replayRequest server (.request request) request.method with
    | some replies =>
      endRequest key
      return ⟨.replayed, replies⟩
    | none =>
      if gate.requestCancelled key then
        endRequest key
        return ⟨.cancelled, [cancelledError server request.id "request cancelled"]⟩
      else
        let result ← dispatchRequest server request
        let session ← Effect.get
        endRequest key
        if session.gate.requestCancelled key then
          return ⟨.cancelled, [cancelledError server request.id "request cancelled"]⟩
        else
          let replies := dispatchReplies server request.id result
          recordRequest server (.request request) request.method replies
          return ⟨.dispatched, replies⟩

/-- The answers to a sequence of requests, and the session after them. -/
def handleAll (session : McpSession Mode Inner) :
    List (McpRequest Mode) → List (Except Error (Answer Mode)) × McpSession Mode Inner
  | [] => ([], session)
  | request :: requests =>
    let (answer, session) := handleRequest server request session
    let (answers, session) := handleAll session requests
    (answer :: answers, session)

end

end SimAgentNet.Mcp
