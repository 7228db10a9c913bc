import SimAgentNet.Mcp.Exchange

/-! # Methods and notifications

The methods that a server dispatches requests to, and what it does with notifications. A tool may
answer with a stream, which is drained into progress notifications. What the methods make of the
surface, and streams, are parameters. -/

namespace SimAgentNet.Mcp
variable {Mode Inner Value Item Media : Type}

inductive StreamPacket (Mode Media : Type) where
  | data (kind : Symbol) (payload : Expr Mode)
  | diagnostic (kind : Symbol) (message : String)
  | pcm (packet : Media)
  | midi (packet : Media)

structure McpStreamDrain (Mode Media : Type) where
  notifications : List (McpEnvelope Mode) := []
  packets : List (StreamPacket Mode Media) := []

/-- What the dispatch uses of the kernel, of the session and of the surface. A tool call fails
before the tool is called, or the tool fails. -/
structure McpMethods (Mode Inner Value Item Media : Type) where
  codec : McpCodec Mode
  debug : Expr Mode → String
  notFoundErrorData : Error → Option (Expr Mode)
  unknownFunction : String → String
  fieldAny : Expr Mode → String → Option (Expr Mode)
  packetOfExpr : Expr Mode → Except Error (StreamPacket Mode Media)
  packetToExpr : StreamPacket Mode Media → Expr Mode
  next : Value → Option (Effect Error Inner (Option Item))
  asExpr : Item → Effect Error Inner (Expr Mode)
  recordStreamPackets : List (StreamPacket Mode Media) → Inner → Inner
  coreInitialize : Expr Mode → Effect Error Inner (Expr Mode)
  coreInitialized : Inner → Inner
  coreShutdown : Inner → Inner
  resourcesList : Effect Error Inner (Expr Mode)
  resourcesRead : Gate → Expr Mode → Effect Error Inner (Expr Mode)
  promptsList : Effect Error Inner (Expr Mode)
  promptsGet : Gate → Expr Mode → Effect Error Inner (Expr Mode)
  toolsList : Effect Error Inner (Expr Mode)
  callTool : Gate → Expr Mode → Effect Error Inner (Except Error Value)
  toolSuccess : Value → Effect Error Inner (Expr Mode)
  toolError : String → Expr Mode

/-! ## Progress -/

def maxProgressChunks : Nat := 1024

def mcpProgressDataKind : Symbol := .qualified "stream/data" "mcp-progress"
def mcpCancelledDataKind : Symbol := .qualified "stream/data" "mcp-cancelled"
def mcpTruncatedDiagnosticKind : Symbol := .qualified "stream/mcp" "Truncated"
def mcpFailedDiagnosticKind : Symbol := .qualified "stream/mcp" "Failed"

def packetMessage : StreamPacket Mode Media → String
  | .data kind _ => kind.display
  | .diagnostic _ message => message
  | .pcm _ => "stream/packet/pcm"
  | .midi _ => "stream/packet/midi"

def ordinalExpr (ordinal : Nat) : Expr Mode :=
  .number ⟨.qualified "numbers" "i64", toString ordinal⟩

section
variable (methods : McpMethods Mode Inner Value Item Media)

def progressTokenFromParams (params : Expr Mode) : Option (Expr Mode) :=
  (methods.fieldAny params "_meta").bind fun fields => methods.fieldAny fields "progressToken"

def progressNotification (token : Expr Mode) (ordinal : Nat) (packet : StreamPacket Mode Media) :
    McpEnvelope Mode :=
  .notification ⟨"notifications/progress", .map [
    Expr.entry "progressToken" token,
    Expr.entry "progress" (ordinalExpr ordinal),
    Expr.entry "message" (.string (packetMessage packet)),
    Expr.entry "data" (methods.packetToExpr packet)]⟩

def pushPacket (drain : McpStreamDrain Mode Media) (progressToken : Option (Expr Mode))
    (ordinal : Nat) (packet : StreamPacket Mode Media) : McpStreamDrain Mode Media where
  notifications := drain.notifications ++
    (progressToken.map fun token => progressNotification methods token ordinal packet).toList
  packets := drain.packets ++ [packet]

def streamValueToPacket (item : Item) : Effect Error Inner (StreamPacket Mode Media) := fun inner =>
  match methods.asExpr item inner with
  | (.ok expr, inner) =>
    match methods.packetOfExpr expr with
    | .ok packet => (.ok packet, inner)
    | .error _ => (.ok (.data mcpProgressDataKind expr), inner)
  | (.error error, inner) => (.ok (.diagnostic mcpFailedDiagnosticKind error.text), inner)

/-- Takes packets until the stream ends or fails, or so many of them have been taken. -/
def drainChunks (next : Effect Error Inner (Option Item)) (progressToken : Option (Expr Mode))
    (index : Nat) (drain : McpStreamDrain Mode Media) :
    Nat → Effect Error Inner (McpStreamDrain Mode Media)
  | 0 => pure (pushPacket methods drain progressToken (index + 1) (.diagnostic
      mcpTruncatedDiagnosticKind ("MCP progress stream exceeded " ++ toString maxProgressChunks ++
        " chunks")))
  | chunks + 1 => fun inner =>
    match next inner with
    | (.ok none, inner) => (.ok drain, inner)
    | (.error error, inner) =>
      (.ok (pushPacket methods drain progressToken (index + 1)
        (.diagnostic mcpFailedDiagnosticKind error.text)), inner)
    | (.ok (some item), inner) =>
      (do
        let packet ← streamValueToPacket methods item
        drainChunks next progressToken (index + 1)
          (pushPacket methods drain progressToken (index + 1) packet) chunks) inner

def drainValueStream (value : Value) (progressToken : Option (Expr Mode)) :
    Effect Error Inner (McpStreamDrain Mode Media) :=
  match methods.next value with
  | none => pure {}
  | some next => drainChunks methods next progressToken 0 {} maxProgressChunks

/-! ## Dispatch -/

def callWithStream (gate : Gate) (params : Expr Mode) (progressToken : Option (Expr Mode)) :
    Effect Error Inner (DispatchReply Mode) := do
  match ← methods.callTool gate params with
  | .error error => return ⟨methods.toolError error.text, []⟩
  | .ok value =>
    let drain ← drainValueStream methods value progressToken
    Effect.modify (methods.recordStreamPackets drain.packets)
    return ⟨← methods.toolSuccess value, drain.notifications⟩

/-- The methods that only give a result. -/
def callPlain (gate : Gate) (method : String) (params : Expr Mode) :
    Effect Error Inner (Expr Mode) :=
  match method with
  | "initialize" => methods.coreInitialize params
  | "initialized" | "notifications/initialized" => do
    Effect.modify methods.coreInitialized
    return .map []
  | "ping" => pure (.map [])
  | "shutdown" => do
    Effect.modify methods.coreShutdown
    return .map []
  | "resources/list" => methods.resourcesList
  | "resources/read" => methods.resourcesRead gate params
  | "prompts/list" => methods.promptsList
  | "prompts/get" => methods.promptsGet gate params
  | "tools/list" => methods.toolsList
  | _ => Effect.fail ⟨.unknownFunction, methods.unknownFunction method⟩

/-- The server of the methods. -/
def McpMethods.server : McpServer Mode Inner where
  codec := methods.codec
  debug := methods.debug
  notFoundErrorData := methods.notFoundErrorData
  dispatchRequest gate method params :=
    if method = "tools/call" then
      callWithStream methods gate params (progressTokenFromParams methods params)
    else do return ⟨← callPlain methods gate method params, []⟩

/-! ## Cancelling -/

def keyName : Expr Mode → Option String
  | .symbol symbol => if symbol.ns = none then some symbol.name else none
  | .string value => some value
  | _ => none

namespace Gate

def requestIsActive (gate : Gate) (key : String) : Bool := key ∈ gate.activeRequests

def beginRequest (gate : Gate) (key : String) : Gate :=
  { gate with activeRequests := gate.activeRequests.insert key }

def markRequestCancelled (gate : Gate) (key : String) : Gate :=
  { gate with cancelledRequests := gate.cancelledRequests.insert key }

end Gate

/-- The request that is cancelled and the reason. Its errors are dropped by its caller. -/
def cancellationParams : Expr Mode → Option (Expr Mode × Option String)
  | .map fields => do
    let requestId ← fields.findSome? fun (key, value) =>
      if keyName key = some "requestId" then some value else none
    let reason := fields.findSome? fun (key, value) =>
      if keyName key = some "reason" then
        match value with
        | .string reason => some reason
        | .nil => none
        | other => some (methods.debug other)
      else none
    return (requestId, reason)
  | _ => none

def cancellationPacket (requestId : Expr Mode) (reason : Option String) :
    StreamPacket Mode Media :=
  .data mcpCancelledDataKind (.map [
    Expr.entry "requestId" requestId,
    Expr.entry "reason" ((reason.map Expr.string).getD .nil)])

def applyCancelNotification (params : Expr Mode) (session : McpSession Mode Inner) :
    McpSession Mode Inner :=
  match cancellationParams methods params with
  | none => session
  | some (requestId, reason) =>
    let key := requestKey methods.debug requestId
    if session.gate.requestIsActive key then
      { session with
        gate := session.gate.markRequestCancelled key
        inner := methods.recordStreamPackets [cancellationPacket requestId reason] session.inner }
    else session

/-! ## Envelopes -/

def handleNotification (notification : McpNotification Mode) (session : McpSession Mode Inner) :
    McpSession Mode Inner :=
  match notification.method with
  | "initialized" | "notifications/initialized" =>
    { session with inner := methods.coreInitialized session.inner }
  | "shutdown" => { session with inner := methods.coreShutdown session.inner }
  | "notifications/cancelled" => applyCancelNotification methods notification.params session
  | _ => session

/-- Every reply to an envelope, in order. -/
def handleMany [DecidableEq Mode] : McpEnvelope Mode → Routes Mode Inner (List (McpEnvelope Mode))
  | .request request => do return (← handleRequest methods.server request).replies
  | .notification notification => do
    Effect.modify (handleNotification methods notification)
    return []
  | .response _ | .error _ => pure []

end

end SimAgentNet.Mcp
