import SimAgentNet.OpenaiServer.Keys
import SimAgentNet.OpenaiServer.Ledger

/-! # What a request may use

The capabilities of a request against the ceiling of its key and the names its body lists, and the
redaction of the headers that present a key. -/

namespace SimAgentNet.OpenaiServer

/-! ## The names that a body lists -/

/-- The member `capabilities` of a body, at top level or else under `sim`. -/
def capabilitiesMember (serde : Serde) (request : GatewayRequest) : Option Json := do
  let body ← (serde.fromSlice request.body).toOption
  let object ← body.asObject
  let sim := ((object.get "sim").bind Json.asObject).bind (·.get "capabilities")
  (object.get "capabilities").or sim

/-- The strings that a member lists, whatever else it contains. -/
def listedCapabilities : Json → List String
  | .string name => [name]
  | .array items => items.filterMap Json.asStr
  | _ => []

/-- The member is a name or a list of names. -/
def IsNameList : Json → Prop
  | .string _ => True
  | .array items => ∀ item ∈ items, ∃ name, item = .string name
  | _ => False

namespace OpenAiKeyTable
variable {Mode : Type} (table : OpenAiKeyTable) (host : Host Mode)

/-- The capabilities of the presented key, or of an anonymous request. -/
def ceiling (request : GatewayRequest) : CapabilitySet :=
  ((table.keyForRequest host request).map (·.capabilities)).getD table.anonymous

/-- The member that the body has is a list of names, or it lists the whole ceiling. -/
def Limits (request : GatewayRequest) : Prop :=
  ∀ member, capabilitiesMember host.serde request = some member →
    IsNameList member ∨ ∀ c ∈ table.ceiling host request, c ∈ listedCapabilities member

end OpenAiKeyTable

namespace Sample

end Sample

end SimAgentNet.OpenaiServer
