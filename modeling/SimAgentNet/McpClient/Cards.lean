import SimAgentNet.McpClient.Subscription

/-! # The operations of the MCP client

Cards are imported into callables, and subscriptions are opened. With discovery and invocation these
are the operations in which a client asks its peer. How a schema is read is a parameter. -/

namespace SimAgentNet.McpClient
open OpenaiServer (Json JsonObject Serde)

/-! ## Cards -/

/-- The bounds of a policy on imported icons. -/
structure IconPolicy where
  maximumIcons : Nat
  maximumIconMetadataBytes : Nat

structure IconDescriptor where
  src : String
  mediaType : Option String

structure McpCallable where
  id : String
  title : String
  description : String
  role : SkillRole
  transport : EndpointIdentity
  invocation : Invocation
  icons : List IconDescriptor

/-- What is external to the cards: how a schema is read under bounds on its bytes and its depth. -/
structure CardApi where
  icons : IconPolicy
  schemaContract : (document : Json) → (maximumBytes maximumDepth : Nat) →
    Except ClientError SchemaContract

def validateKeys (object : JsonObject) (allowed : List String) : Except ClientError Unit :=
  match object.find? (·.1 ∉ allowed) with
  | some (key, _) => .error (.schema ("unknown Card field " ++ key))
  | none => .ok ()

def iconBytes (icon : Json) : Nat :=
  (((icon.get "src").bind Json.asStr).elim 0 fun text => (Text.utf8 text).length) +
    (((icon.get "mediaType").bind Json.asStr).elim 0 fun text => (Text.utf8 text).length)

def iconDescriptor (icon : Json) : Except ClientError IconDescriptor :=
  match icon.asObject with
  | none => .error (.schema "icon descriptor must be an object")
  | some object => do
    validateKeys object ["src", "mediaType"]
    let src ← string object "src"
    return ⟨src, (object.get "mediaType").bind Json.asStr⟩

def validateIcons (value : Option Json) (policy : IconPolicy) :
    Except ClientError (List IconDescriptor) :=
  match value with
  | none => .ok []
  | some value =>
    match value.asArray with
    | none => .error (.schema "icons must be an array")
    | some icons =>
      if policy.maximumIcons < icons.length then
        .error (.schema "icon descriptor count exceeded")
      else if policy.maximumIconMetadataBytes < (icons.map iconBytes).sum ∨
          icons.any fun icon => ((icon.get "src").bind Json.asStr).isNone then
        .error (.schema "invalid or oversized icon metadata")
      else icons.mapM iconDescriptor

def stableName (value : String) : Except ClientError String :=
  if value = "" ∨ ¬value.toList.all fun c => c.isAlphanum || c == '-' || c == '_' || c == '.' then
    .error (.schema "unsafe callable name")
  else .ok value

def readRole (text : String) : Except ClientError SkillRole :=
  match text with
  | "tool" => .ok .tool
  | "resource" => .ok .resource
  | "prompt" => .ok .prompt
  | _ => .error (.schema "unsupported Card role")

/-- The callable of a card that was read at the endpoint. -/
def importCard (api : CardApi) (endpoint : EndpointIdentity) (value : Json) :
    Except ClientError McpCallable :=
  match value.asObject with
  | none => .error (.schema "Card must be an object")
  | some object => do
    validateKeys object ["name", "title", "description", "role", "inputSchema", "outputSchema",
      "cacheEligible", "effecting", "icons"]
    let name ← string object "name"
    let title ← string object "title"
    let description ← string object "description"
    let role ← readRole (← string object "role")
    let icons ← validateIcons (object.get "icons") api.icons
    let input ← api.schemaContract ((object.get "inputSchema").getD (.object [])) (64 * 1024) 32
    let output ← api.schemaContract ((object.get "outputSchema").getD (.object [])) (64 * 1024) 32
    let id := "mcp." ++ (← stableName name)
    return {
      id
      title, description, role, icons
      transport := endpoint
      invocation := .ofCard name role input output ((object.get "cacheEligible").bind Json.asBool)
        ((object.get "effecting").bind Json.asBool) }

/-- The value of a reply that is complete. -/
def completeValue : PeerReply → Except ClientError Json
  | .complete value => .ok value
  | _ => .error (.schema "expected complete response")

def cardsOf (value : Json) : Except ClientError (List Json) :=
  match (value.get "cards").bind Json.asArray with
  | some cards => .ok cards
  | none => .error (.schema "server cards must be an array")

section
variable {World : Type} (serde : Serde) (packageVersion : String) (capacity : Nat) (api : CardApi)
  (client : Client World)

def Client.importCards (context : CallContext World) : Call World (List McpCallable) := do
  let discovery ← client.discover serde packageVersion context
  match ← client.request discovery.era "server/cards" (.object []) context.deadlineMs with
  | .error error => .fail (.binding error)
  | .ok reply =>
    let value ← .ofExcept (completeValue reply)
    let cards ← .ofExcept (cardsOf value)
    let endpoint ← client.endpoint
    .ofExcept (cards.mapM (importCard api endpoint))

/-! ## Subscriptions -/

def Client.subscribe (method : String) (parameters : Json) (context : CallContext World) :
    Call World Subscription := do
  let discovery ← client.discover serde packageVersion context
  match ← client.request discovery.era method parameters context.deadlineMs with
  | .error (.processExited code) =>
    client.invalidate
    .fail (.binding (.processExited code))
  | .error (.incompatible message) =>
    client.invalidate
    .fail (.binding (.incompatible message))
  | .error error => .fail (.binding error)
  | .ok (.stream frames) =>
    .observe fun s => validateSubscription (context.isCancelled s.world) frames
  | .ok _ => .fail (.subscription "subscription did not return a stream")

/-! ## Operations -/

inductive Operation where
  | discover
  | importCards
  | invoke (invocation : Invocation) (parameters : Value)
  | subscribe (method : String) (parameters : Json)

/-- The state after an operation, whether it failed or not. -/
def Client.after (operation : Operation) (context : CallContext World) (s : Session World) :
    Session World :=
  match operation with
  | .discover => (client.discover serde packageVersion context s).2
  | .importCards => (client.importCards serde packageVersion api context s).2
  | .invoke invocation parameters =>
    (client.invoke serde packageVersion capacity invocation parameters context s).2
  | .subscribe method parameters =>
    (client.subscribe serde packageVersion method parameters context s).2

end

end SimAgentNet.McpClient
