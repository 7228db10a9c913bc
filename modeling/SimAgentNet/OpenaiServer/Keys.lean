import SimAgentNet.OpenaiServer.Responses

/-! # Gateway keys

Which key a request presents and which capabilities it may use. -/

namespace SimAgentNet.OpenaiServer

variable {Mode : Type}

structure OpenAiGatewayKey where
  id : String
  keyHash : String
  capabilities : CapabilitySet

/-- The id of a key is made from the first twelve digits of its hash. -/
def keyId (hash : String) : String := "key_" ++ .ofList (hash.toList.take 12)

def OpenAiGatewayKey.new (keyHash : String) (capabilities : CapabilitySet) : OpenAiGatewayKey :=
  ⟨keyId keyHash, keyHash, capabilities⟩

/-- The keys by their hash, and the capabilities of a request without a known key. -/
structure OpenAiKeyTable where
  keys : SortedMap String OpenAiGatewayKey
  anonymous : CapabilitySet

def keyHash (host : Host Mode) (secret : String) : String :=
  host.hexEncode (host.sha256 (Text.utf8 secret))

def trim (text : List Char) : List Char :=
  ((text.dropWhile Char.isUnicodeWhitespace).reverse.dropWhile Char.isUnicodeWhitespace).reverse

/-- The token of an `authorization` header with the scheme `bearer`. -/
def bearerToken (value : String) : Option String :=
  match Text.splitOnce ' ' (trim value.toList) with
  | some (scheme, token) =>
    if eqIgnoreAsciiCase (.ofList scheme) "bearer" ∧ trim token ≠ [] then some (.ofList (trim token))
    else none
  | none => none

def headerKey (header : String × String) : Option String :=
  let bearer := if eqIgnoreAsciiCase header.1 "authorization" then bearerToken header.2 else none
  let apiKey :=
    if isApiKeyHeader header.1 ∧ trim header.2.toList ≠ [] then some (.ofList (trim header.2.toList))
    else none
  bearer.or apiKey

/-- The first header that presents a key. -/
def presentedKey (request : GatewayRequest) : Option String := request.headers.findSome? headerKey

/-- A name or an array of names. -/
def capabilitySetFromJson : Json → Option CapabilitySet
  | .string name => some (.ofList [name])
  | .array items => (items.mapM Json.asStr).map SortedSet.ofList
  | _ => none

/-- What the body asks for, in `capabilities` or in `sim.capabilities`. -/
def requestedCapabilities (serde : Serde) (request : GatewayRequest) : Option CapabilitySet := do
  let body ← (serde.fromSlice request.body).toOption
  let object ← body.asObject
  let sim := ((object.get "sim").bind Json.asObject).bind (·.get "capabilities")
  let value ← (object.get "capabilities").or sim
  capabilitySetFromJson value

namespace OpenAiKeyTable
variable (table : OpenAiKeyTable) (host : Host Mode)

def keyForRequest (request : GatewayRequest) : Option OpenAiGatewayKey :=
  (presentedKey request).bind fun secret => table.keys.get? (keyHash host secret)

/-- The key's capabilities bound what the body asks for. -/
def effectiveCapabilities (request : GatewayRequest) : CapabilitySet :=
  let ceiling := ((table.keyForRequest host request).map (·.capabilities)).getD table.anonymous
  match requestedCapabilities host.serde request with
  | some requested => requested ∩ ceiling
  | none => ceiling

/-- The id of the key a request presents, if it is known. -/
def callerKeyId (request : GatewayRequest) : Option String :=
  (table.keyForRequest host request).map (·.id)

end OpenAiKeyTable

end SimAgentNet.OpenaiServer
