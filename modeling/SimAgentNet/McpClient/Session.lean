import SimAgentNet.Data.Effect
import SimAgentNet.McpClient.Cache

/-! # Calls of the MCP client

Discovery and the invocation of imported callables, on clients that share one result cache. The
key of a call has no place for the operation, so two callables of one method with equal parameters
share an entry. -/

namespace SimAgentNet.McpClient
open OpenaiServer (Json JsonObject Serde)

/-! ## Data -/

structure Discovery where
  era : Era
  version : String
  extensions : List String
  serverName : String
  serverVersion : String
  ttlMs : Nat

inductive BindingError where
  | timeout
  | processExited (code : Int)
  | http (status : Nat) (body : List UInt8)
  | rpc (code : Int) (message : String) (data : Option Json)
  | incompatible (message : String)
  | cancelled

inductive ClientError where
  | binding (error : BindingError)
  | policy (message : String)
  | schema (message : String)
  | unrecognizedDiscovery
  | inputRequired (message : String)
  | subscription (message : String)
  | cache (message : String)

inductive PeerReply where
  | complete (value : Json)
  | inputRequired (requestState : Json) (requested : List (String × String))
  | stream (frames : List Json)

/-- A schema contract is known by its check. -/
abbrev SchemaContract := Json → Except ClientError Unit

structure Invocation where
  method : String
  operation : String
  input : SchemaContract
  output : SchemaContract
  cacheEligible : Bool
  effecting : Bool

inductive SkillRole where
  | tool
  | resource
  | prompt
deriving DecidableEq

/-- The invocation that is imported from a card. -/
def Invocation.ofCard (name : String) (role : SkillRole) (input output : SchemaContract)
    (cacheEligible effecting : Option Bool) : Invocation where
  method := match role with
    | .tool => "tools/call"
    | .resource => "resources/read"
    | .prompt => "prompts/get"
  operation := name
  input := input
  output := output
  cacheEligible := cacheEligible.getD false
  effecting := effecting.getD (role = .tool)

/-- The facts of one call; whether it was cancelled is read from the world. -/
structure CallContext (World : Type) where
  principalScope : String
  inputCapabilities : List String
  paginationCursor : Option String
  deadlineMs : Nat
  nowMs : Nat
  isCancelled : World → Bool

structure Outcome where
  value : Json
  ttlMs : Option Nat

structure ClientPolicy where
  discoveryTtlMs : Nat
  resultTtlMs : Nat
  maximumInputRounds : Nat
  maximumInputBytes : Nat
  maximumInputs : Nat

/-- What a host injects into a client: its peer, its input broker and its ledger. -/
structure ClientHost (World : Type) where
  endpoint : World → EndpointIdentity
  bindingKind : String
  request : Era → (id : Nat) → (method : String) → (params : Json) → (deadlineMs : Nat) →
    Effect BindingError World PeerReply
  acquire : (requested : List (String × String)) → (requestState : Json) → (remainingMs : Nat) →
    Effect ClientError World (List (String × Json))
  record : EndpointIdentity → (method phase : String) → World → World

structure Client (World : Type) where
  host : ClientHost World
  policy : ClientPolicy

structure EraEntry where
  discovery : Discovery
  expiresAtMs : Nat

/-! ## Discovery -/

def u64Max : Nat := 2 ^ 64 - 1
def saturatingAdd (a b : Nat) : Nat := min (a + b) u64Max
def saturatingMul (a b : Nat) : Nat := min (a * b) u64Max

/-- A nonempty string field. -/
def string (object : JsonObject) (name : String) : Except ClientError String :=
  match (object.get name).bind Json.asStr with
  | some v => if v = "" then .error (.schema ("missing string " ++ name)) else .ok v
  | none => .error (.schema ("missing string " ++ name))

def strings : Option Json → Except ClientError (List String)
  | none => .ok []
  | some value =>
    match value.asArray with
    | none => .error (.schema "expected string array")
    | some items => items.mapM fun item =>
      match item.asStr with
      | some text => .ok text
      | none => .error (.schema "expected string array")

section Discovery
variable (serde : Serde)

def exactMethodNotFound (body : List UInt8) : Bool :=
  match serde.fromSlice body with
  | .error _ => false
  | .ok value =>
    (match (value.get "error").bind (·.get "code") with
      | some (.number text) => text == "-32601"
      | _ => false) &&
    ((value.get "error").bind (·.get "message")).bind Json.asStr == some "Method not found"

def recognizedLegacyProbe (kind : String) : BindingError → Bool
  | .rpc code _ _ => kind == "stdio" && code == -32601
  | .http status body => kind == "http" && status == 400 && exactMethodNotFound serde body
  | _ => false

def isUnrecognizedProbe : BindingError → Bool
  | .rpc .. | .http .. => true
  | _ => false

/-- The parts of a discovery that differ between the eras. -/
def discoveryParts (era : Era) (object : JsonObject) :
    Except ClientError (String × List String × Option Nat) :=
  match era with
  | .modern => do
    if (object.get "resultType").bind Json.asStr ≠ some "complete" then
      .error .unrecognizedDiscovery
    match ((object.get "supportedVersions").bind Json.asArray).bind (·.head?) |>.bind Json.asStr with
    | none => .error .unrecognizedDiscovery
    | some version =>
      let extensions ← strings (object.get "extensions")
      return (version, extensions, ((object.get "ttlMs").bind Json.asU64).or
        (((object.get "ttl").bind Json.asU64).map (saturatingMul · 1000)))
  | .legacy => do
    let version ← string object "protocolVersion"
    return (version, (strings (object.get "extensions")).toOption.getD [], some 60000)

def parseDiscovery (era : Era) (value : Json) : Except ClientError Discovery :=
  match value.asObject with
  | none => .error .unrecognizedDiscovery
  | some object => do
    let (version, extensions, ttlMs) ← discoveryParts era object
    if version = "" then
      .error (.schema "empty protocol version")
    if "" ∈ extensions ∨ ¬extensions.Nodup then
      .error (.schema "invalid duplicate extension")
    match (object.get "serverInfo").bind Json.asObject with
    | none => .error (.schema "missing serverInfo")
    | some info =>
      let serverName ← string info "name"
      let serverVersion ← string info "version"
      return ⟨era, version, extensions, serverName, serverVersion, ttlMs.getD 60000⟩

def legacyInitialize (packageVersion : String) : Json :=
  .object [("capabilities", .object []), ("clientInfo", .object [("name", .string "sim-lib-mcp-client"),
    ("version", .string packageVersion)]), ("protocolVersion", .string "2025-03-26")]

end Discovery

/-! ## Calls -/

/-- A call that returned a value: what it was called with, the endpoint and discovery it found, and
where the value came from. -/
structure Served where
  invocation : Invocation
  endpoint : EndpointIdentity
  discovery : Discovery
  parameters : Value
  principalScope : String
  paginationCursor : Option String
  nowMs : Nat
  resultTtlMs : Nat
  value : Json
  ttlMs : Option Nat
  fromCache : Bool

/-- The state of one client, the shared cache, and an account of the calls served so far, which no
operation reads. -/
structure Session (World : Type) where
  world : World
  era : Option EraEntry
  nextId : Nat
  cache : MemoryState
  served : List Served

abbrev Call (World α : Type) := Effect ClientError (Session World) α

section Calls
variable {World : Type} (serde : Serde) (packageVersion : String) (capacity : Nat)
  (client : Client World)

namespace Client

def endpoint : Call World EndpointIdentity := .observe fun s => .ok (client.host.endpoint s.world)

def record (method phase : String) : Call World Unit :=
  .modify fun s => { s with
    world := client.host.record (client.host.endpoint s.world) method phase s.world }

def invalidate : Call World Unit :=
  .modify fun s => { s with
    era := none, cache := s.cache.clearEndpoint (client.host.endpoint s.world) }

def incompatible (message : String) : Call World α := do
  client.invalidate
  .fail (.binding (.incompatible message))

/-- Sends one request under the next id. -/
def request (era : Era) (method : String) (params : Json) (deadlineMs : Nat) :
    Call World (Except BindingError PeerReply) := fun s =>
  let (reply, world) := client.host.request era s.nextId method params deadlineMs s.world
  (.ok reply, { s with world, nextId := s.nextId + 1 })

def checkCancelled (context : CallContext World) : Call World Unit :=
  .observe fun s =>
    if context.isCancelled s.world then .error (.binding .cancelled) else .ok ()

/-- Asks the server for its discovery, in the old form where the new one is not known. -/
def probe (context : CallContext World) : Call World Discovery := do
  client.record "server/discover" "probe"
  match ← client.request .modern "server/discover" (.object []) context.deadlineMs with
  | .ok (.complete value) => .ofExcept (parseDiscovery .modern value)
  | .ok _ => client.incompatible "discovery was not complete"
  | .error error =>
    if recognizedLegacyProbe serde client.host.bindingKind error then
      client.record "initialize" "legacy-probe"
      match ← client.request .legacy "initialize" (legacyInitialize packageVersion)
        context.deadlineMs with
      | .ok (.complete value) => .ofExcept (parseDiscovery .legacy value)
      | .ok _ => client.incompatible "legacy initialize was not complete"
      | .error error => .fail (.binding error)
    else match error with
      | .processExited code =>
        client.invalidate
        .fail (.binding (.processExited code))
      | error =>
        .fail (if isUnrecognizedProbe error then .unrecognizedDiscovery else .binding error)

def discover (context : CallContext World) : Call World Discovery := do
  checkCancelled context
  let s ← Effect.get
  match s.era.filter (context.nowMs < ·.expiresAtMs) with
  | some entry => return entry.discovery
  | none =>
    let discovery ← client.probe serde packageVersion context
    let expiresAtMs := saturatingAdd context.nowMs
      (min u64Max (min discovery.ttlMs client.policy.discoveryTtlMs))
    .modify fun s => { s with era := some ⟨discovery, expiresAtMs⟩ }
    return discovery

end Client

def cacheKey (endpoint : EndpointIdentity) (discovery : Discovery) (invocation : Invocation)
    (parameters : Value) (principalScope : String) (paginationCursor : Option String) : CacheKey where
  endpoint := endpoint
  era := discovery.era
  version := discovery.version
  principalScope := principalScope
  extensions := discovery.extensions
  method := invocation.method
  canonicalParameters := serde.toText (canonical parameters.1)
  paginationCursor := paginationCursor

def Invocation.mayCache (invocation : Invocation) : Bool :=
  invocation.cacheEligible && !invocation.effecting

/-- The value of a complete result and its time to live. -/
def unwrapComplete (value : Json) : Except ClientError (Json × Option Nat) :=
  match (value.get "resultType").bind Json.asStr with
  | some kind =>
    if kind ≠ "complete" then .error (.policy "only complete outcomes may publish")
    else .ok ((value.get "value").getD value, (value.get "ttlMs").bind Json.asU64)
  | none => .ok ((value.get "value").getD value, (value.get "ttlMs").bind Json.asU64)

/-- The account of a call that returns the value. -/
def Client.account (client : Client World) (invocation : Invocation) (endpoint : EndpointIdentity)
    (discovery : Discovery) (parameters : Value) (context : CallContext World) (value : Json)
    (ttlMs : Option Nat) (fromCache : Bool) : Served :=
  { invocation, endpoint, discovery, parameters, value, ttlMs, fromCache
    principalScope := context.principalScope
    paginationCursor := context.paginationCursor
    nowMs := context.nowMs
    resultTtlMs := client.policy.resultTtlMs }

def serve (r : Served) : Call World Unit := .modify fun s => { s with served := s.served ++ [r] }

/-- The time a result is kept: what the server allows, and no more than the policy. -/
def resultTtl (ttlMs : Option Nat) (resultTtlMs : Nat) : Nat :=
  min (ttlMs.getD (min u64Max resultTtlMs)) (min u64Max resultTtlMs)

/-- Validates a complete result, keeps it if it may be kept, and returns it. -/
def Client.complete (client : Client World) (invocation : Invocation) (endpoint : EndpointIdentity)
    (discovery : Discovery) (parameters : Value) (context : CallContext World) (reply : Json) :
    Call World Outcome := do
  let (value, ttlMs) ← .ofExcept (unwrapComplete reply)
  .ofExcept (invocation.output value)
  serve (client.account invocation endpoint discovery parameters context value ttlMs false)
  let ttl := resultTtl ttlMs client.policy.resultTtlMs
  if invocation.mayCache && 0 < ttl then
    .modify fun s => { s with
      cache := s.cache.put capacity (cacheKey serde endpoint discovery invocation parameters
        context.principalScope context.paginationCursor) value (saturatingAdd context.nowMs ttl) }
  client.record invocation.method "complete"
  return ⟨value, ttlMs⟩

/-- Obtains the inputs that a server requests and the parameters of the next request. -/
def Client.acquireInputs (client : Client World) (invocation : Invocation)
    (context : CallContext World) (requestState : Json) (requested : List (String × String))
    (inputs bytes : Nat) : Call World (Json × Nat × Nat) := do
  if ¬∀ request ∈ requested, request.2 ∈ context.inputCapabilities then
    .fail (.inputRequired "undeclared input capability")
  if context.deadlineMs - context.nowMs = 0 then
    .fail (.binding .timeout)
  let acquired ← .focus Session.world (fun world s => { s with world })
    (client.host.acquire requested requestState (context.deadlineMs - context.nowMs))
  let inputs := inputs + acquired.length
  let bytes := bytes + (Text.utf8 (serde.toText (.object acquired))).length
  if client.policy.maximumInputs < inputs ∨ client.policy.maximumInputBytes < bytes then
    .fail (.inputRequired "aggregate input bound exceeded")
  client.record invocation.method "input-retry"
  return (.object [("inputs", .object acquired), ("requestState", requestState)], inputs, bytes)

/-- One request of a call. A demand of the peer for input is left to `more`. -/
def Client.turn (client : Client World) (invocation : Invocation) (endpoint : EndpointIdentity)
    (discovery : Discovery) (parameters : Value) (context : CallContext World) (params : Json)
    (more : (requestState : Json) → (requested : List (String × String)) → Call World Outcome) :
    Call World Outcome := do
  Client.checkCancelled context
  match ← client.request discovery.era invocation.method params context.deadlineMs with
  | .error (.incompatible message) =>
    client.invalidate
    .fail (.binding (.incompatible message))
  | .error (.processExited code) =>
    client.invalidate
    .fail (.binding (.processExited code))
  | .error error => .fail (.binding error)
  | .ok (.complete reply) =>
    client.complete serde capacity invocation endpoint discovery parameters context reply
  | .ok (.inputRequired requestState requested) => more requestState requested
  | .ok (.stream _) => client.incompatible "ordinary invocation returned a subscription stream"

/-- Requests until the peer completes. It may demand input `left` more times. -/
def Client.exchange (client : Client World) (invocation : Invocation) (endpoint : EndpointIdentity)
    (discovery : Discovery) (parameters : Value) (context : CallContext World) :
    (left : Nat) → (params : Json) → (inputs bytes : Nat) → Call World Outcome
  | 0, params, _, _ =>
    client.turn serde capacity invocation endpoint discovery parameters context params fun _ _ =>
      .fail (.inputRequired "round limit or empty request")
  | left + 1, params, inputs, bytes =>
    client.turn serde capacity invocation endpoint discovery parameters context params
      fun requestState requested =>
        if requested.isEmpty then
          .fail (.inputRequired "round limit or empty request")
        else do
          let (params, inputs, bytes) ← client.acquireInputs serde invocation context requestState
            requested inputs bytes
          client.exchange invocation endpoint discovery parameters context left params inputs bytes

/-- The cached value of a call that may be cached. -/
def lookup (invocation : Invocation) (key : CacheKey) (nowMs : Nat) : Call World (Option Json) :=
  fun s =>
    if invocation.mayCache then
      (.ok (s.cache.get key nowMs).1, { s with cache := (s.cache.get key nowMs).2 })
    else (.ok none, s)

/-- A call on the endpoint and discovery that were found. -/
def Client.answer (client : Client World) (invocation : Invocation) (parameters : Value)
    (context : CallContext World) (endpoint : EndpointIdentity) (discovery : Discovery) :
    Call World Outcome := do
  let key := cacheKey serde endpoint discovery invocation parameters context.principalScope
    context.paginationCursor
  match ← lookup invocation key context.nowMs with
  | some value =>
    .ofExcept (invocation.output value)
    client.record invocation.method "cache-hit"
    serve (client.account invocation endpoint discovery parameters context value none true)
    return ⟨value, none⟩
  | none =>
    client.record invocation.method "call"
    client.exchange serde capacity invocation endpoint discovery parameters context
      client.policy.maximumInputRounds parameters.1 0 0

def Client.invoke (client : Client World) (invocation : Invocation) (parameters : Value)
    (context : CallContext World) : Call World Outcome := do
  .ofExcept (invocation.input parameters.1)
  let discovery ← client.discover serde packageVersion context
  let endpoint ← client.endpoint
  client.answer serde capacity invocation parameters context endpoint discovery

end Calls

/-! ## Clients that share a cache -/

/-- The clients `ι` of one process, with the state of each. -/
structure System (ι World : Type) where
  world : World
  eras : ι → Option EraEntry
  nextIds : ι → Nat
  cache : MemoryState
  served : List Served

section System
variable {ι World : Type} [DecidableEq ι] (serde : Serde) (packageVersion : String)
  (capacity : Nat) (clients : ι → Client World)

def System.session (sys : System ι World) (i : ι) : Session World :=
  ⟨sys.world, sys.eras i, sys.nextIds i, sys.cache, sys.served⟩

def System.update (sys : System ι World) (i : ι) (s : Session World) : System ι World :=
  ⟨s.world, Function.update sys.eras i s.era, Function.update sys.nextIds i s.nextId, s.cache,
    s.served⟩

def System.invoke (i : ι) (invocation : Invocation) (parameters : Value)
    (context : CallContext World) (sys : System ι World) :
    Except ClientError Outcome × System ι World :=
  let (out, s) := (clients i).invoke serde packageVersion capacity invocation parameters context
    (sys.session i)
  (out, sys.update i s)

/-- The states that calls of any principals on any of the clients reach from an empty cache. The
world changes between them as it likes. -/
inductive System.Run : System ι World → Prop
  | start (world : World) : Run ⟨world, fun _ => none, fun _ => 1, .empty, []⟩
  | elapsed (h : Run sys) (world : World) : Run { sys with world }
  | invoked (h : Run sys) (i : ι) (invocation : Invocation) (parameters : Value)
      (context : CallContext World) :
    Run (sys.invoke serde packageVersion capacity clients i invocation parameters context).2

end System

end SimAgentNet.McpClient
