import SimAgentNet.Kernel.Datum

/-! # Roadmap identifiers

The text identifiers of `sim-roadmap-core`. All of them are the same wrapper around a checked
text; the kind keeps them apart. -/

namespace SimAgentNet.RoadmapCore

inductive IdKind where
  | roadmap | phase | checkpoint | «import» | output | obligation | promise | sketch | profile
  | owner | resource | effect | capability | change | schema
deriving DecidableEq

/-- The type name that a refusal reports. -/
def IdKind.typeName : IdKind → String
  | .roadmap => "RoadmapId" | .phase => "PhaseId" | .checkpoint => "CheckpointId"
  | .import => "ImportId" | .output => "OutputId" | .obligation => "ObligationId"
  | .promise => "PromiseId" | .sketch => "SketchId" | .profile => "ProfileId"
  | .owner => "OwnerId" | .resource => "ResourceId" | .effect => "EffectId"
  | .capability => "CapabilityId" | .change => "ChangeId" | .schema => "SchemaId"

/-- Byte bound on an identifier (`Limits::DEFAULT.id_bytes`). -/
def defaultIdBytes : Nat := 96

def isPathLike (value : String) : Bool :=
  value == "." || value == ".." || Text.hasChar value '/' || Text.hasChar value '\\'

/-- The texts that `validate_id` lets through. -/
def ValidId (value : String) : Prop :=
  value ≠ "" ∧ value.utf8ByteSize ≤ defaultIdBytes ∧
    value.toList.any Char.isUnicodeControl = false ∧ isPathLike value = false

instance (value : String) : Decidable (ValidId value) := by unfold ValidId; infer_instance

/-- A checked identifier text. -/
structure TextId (k : IdKind) where
  text : String
  valid : ValidId text
deriving DecidableEq

namespace TextId
variable {k : IdKind}

theorem text_injective : Function.Injective (text : TextId k → String) := by
  rintro ⟨a, _⟩ ⟨b, _⟩ h
  cases h; rfl

instance : LinearOrder (TextId k) := .lift' text text_injective

end TextId

abbrev RoadmapId := TextId .roadmap
abbrev PhaseId := TextId .phase
abbrev CheckpointId := TextId .checkpoint
abbrev ImportId := TextId .import
abbrev OutputId := TextId .output
abbrev ObligationId := TextId .obligation
abbrev PromiseId := TextId .promise
abbrev SketchId := TextId .sketch
abbrev OwnerId := TextId .owner
abbrev ResourceId := TextId .resource
abbrev EffectId := TextId .effect
abbrev CapabilityId := TextId .capability
abbrev ChangeId := TextId .change
abbrev SchemaId := TextId .schema

/-- Identity of a roadmap revision. -/
structure RoadmapRevisionId where
  content : ContentId
deriving DecidableEq

end SimAgentNet.RoadmapCore
