import SimAgentNet.RoadmapCore.Id
import SimAgentNet.SourceDeck.Model

/-! # Roadmap specifications

The value types of `sim-roadmap-core`: phases with their envelopes, acceptance contracts,
dependencies and implementation guides, and the specification that holds the tree of phases. -/

namespace SimAgentNet.RoadmapCore

open SourceDecks (SourceQuery)

structure Limits where
  idBytes : Nat
  documentBytes : Nat
  proseBytes : Nat
  phases : Nat
  imports : Nat
  outputsPerPhase : Nat
  checkpointsPerPhase : Nat
  childrenPerPhase : Nat
  treeDepth : Nat
  causalPath : Nat
  guideQueries : Nat
  guideTargets : Nat
  guidePromises : Nat
  guideSketches : Nat
  sketchBytes : Nat
  sketchBindings : Nat
deriving DecidableEq

def Limits.default : Limits where
  idBytes := 96
  documentBytes := 1000000
  proseBytes := 16384
  phases := 1024
  imports := 128
  outputsPerPhase := 128
  checkpointsPerPhase := 256
  childrenPerPhase := 256
  treeDepth := 64
  causalPath := 64
  guideQueries := 128
  guideTargets := 128
  guidePromises := 128
  guideSketches := 64
  sketchBytes := 8192
  sketchBindings := 128

/-- The phases from the root to the subject of a failure. -/
structure CausalPath where
  phases : List PhaseId
deriving DecidableEq

inductive Failure where
  | invalidText (kind reason : String)
  | overLimit (limit : String) (actual maximum : Nat)
  | duplicate (kind id : String)
  | missing (kind id : String)
  | invalidBinding (sketch : SketchId) (label : String)
  | unboundPromise (promise : PromiseId)
  | unpinnedImport («import» : ImportId)
  | claimedRevisionMismatch
  | canonical (reason : String)
  | tree (rule : String) (path : CausalPath) (phase : PhaseId) (related : Option PhaseId)
  | widening (ancestor phase : PhaseId) (field value : String) (path : CausalPath)
  | coverage (rule : String) (phase : PhaseId) (obligation : ObligationId) (path : CausalPath)
  | circularCompletion (phase dependency : PhaseId) (path : CausalPath)
deriving DecidableEq

/-- How a call ends without a result: with a failure, or in a panic (an index that is absent). -/
inductive Halt where
  | failure (f : Failure)
  | panicked
deriving DecidableEq

structure Charter where
  title : String
  intent : String
deriving DecidableEq

structure CheckpointSpec where
  id : CheckpointId
  statement : String
deriving DecidableEq

inductive PhaseBody where
  | leaf (checkpoints : List CheckpointSpec)
  | composite (children : List PhaseId)
deriving DecidableEq

inductive PhaseRef where
  | «local» (phase : PhaseId)
  | imported («import» : ImportId) (phase : PhaseId) (phaseContent : ContentId)
deriving DecidableEq

structure OutputRef where
  phase : PhaseRef
  output : OutputId
deriving DecidableEq

inductive PhaseDependency where
  | requires (phase : PhaseRef)
  | consumes (output : OutputRef)
  | prefersAfter (phase : PhaseRef)
deriving DecidableEq

structure OwnerEnvelope where
  mutable : SortedSet OwnerId
  readOnly : SortedSet OwnerId
deriving DecidableEq

structure ResourceEnvelope where
  resources : SortedSet ResourceId
deriving DecidableEq

structure EffectEnvelope where
  effects : SortedSet EffectId
deriving DecidableEq

structure CapabilityEnvelope where
  capabilities : SortedSet CapabilityId
deriving DecidableEq

structure ChangeEnvelope where
  targets : SortedSet ChangeId
deriving DecidableEq

inductive ProofPolicy where
  | all | any
deriving DecidableEq

/-- A reference of the kernel. -/
inductive Ref where
  | symbol (symbol : Symbol)
  | content (id : ContentId)
  | handle (id : Nat)
  | coord (space : Symbol) (ordinal : ContentId)
deriving DecidableEq

structure AcceptanceStatement where
  obligation : ObligationId
  subject : Ref
  predicate : Symbol
  object : Ref
  supportingRefs : List Ref
deriving DecidableEq

structure AcceptanceContract where
  policy : ProofPolicy
  statements : SortedMap ObligationId AcceptanceStatement
deriving DecidableEq

inductive ObligationCoverage where
  | contributes (parent : ObligationId) (phase : PhaseId) (child : ObligationId)
  | retainedAtParent (parent : ObligationId)
deriving DecidableEq

structure OutputContract where
  description : String
  content : Option ContentId
deriving DecidableEq

structure PinnedRoadmapRef where
  roadmap : RoadmapId
  revision : RoadmapRevisionId
  rootPhase : PhaseId
  rootContent : ContentId
deriving DecidableEq

inductive PhaseOrigin where
  | authored
  | imported («import» : ImportId) (phase : PhaseId) (phaseContent : ContentId)
deriving DecidableEq

structure ChangeTarget where
  change : ChangeId
  owner : OwnerId
  package : Option String
  description : String
deriving DecidableEq

inductive Promise where
  | publicDeclaration (id : PromiseId) (owner : OwnerId) (anchor : String)
  | sourcePostimage (id : PromiseId) (owner : OwnerId) (path : String) (content : ContentId)
  | checkedSpecimen (id : PromiseId) (owner : OwnerId) (specimen : String)
  | producedOutput (id : PromiseId) (output : OutputId)
  | acceptance (id : PromiseId) (obligation : ObligationId)
deriving DecidableEq

def Promise.id : Promise → PromiseId
  | .publicDeclaration id _ _ => id
  | .sourcePostimage id _ _ _ => id
  | .checkedSpecimen id _ _ => id
  | .producedOutput id _ => id
  | .acceptance id _ => id

inductive SketchLanguage where
  | rust | sim | text
  | other (name : String)
deriving DecidableEq

inductive SketchRole where
  | pattern | interface | «example» | «constraint»
deriving DecidableEq

inductive SketchBinding where
  | uses (label : String) (query : SourceQuery)
  | produces (label : String) (promise : PromiseId)
deriving DecidableEq

def SketchBinding.label : SketchBinding → String
  | .uses label _ => label
  | .produces label _ => label

structure AnchoredSketch where
  id : SketchId
  language : SketchLanguage
  role : SketchRole
  body : String
  bindings : List SketchBinding
deriving DecidableEq

structure ImplementationGuide where
  uses : List SourceQuery
  changeTargets : List ChangeTarget
  promises : List Promise
  sketches : List AnchoredSketch
deriving DecidableEq

structure PhaseSpec where
  id : PhaseId
  parent : Option PhaseId
  title : String
  intent : String
  body : PhaseBody
  dependencies : List PhaseDependency
  owners : OwnerEnvelope
  resources : ResourceEnvelope
  effects : EffectEnvelope
  capabilities : CapabilityEnvelope
  changes : ChangeEnvelope
  acceptance : AcceptanceContract
  coverage : List ObligationCoverage
  outputs : SortedMap OutputId OutputContract
  guide : ImplementationGuide
  origin : PhaseOrigin
deriving DecidableEq

structure RoadmapSpec where
  schema : SchemaId
  id : RoadmapId
  charter : Charter
  root : PhaseId
  phases : SortedMap PhaseId PhaseSpec
  imports : SortedMap ImportId PinnedRoadmapRef
  limits : Limits
deriving DecidableEq

structure RevisionChange where
  id : ChangeId
  rationale : String
deriving DecidableEq

structure RoadmapRevision where
  id : RoadmapRevisionId
  parent : Option RoadmapRevisionId
  spec : RoadmapSpec
  change : RevisionChange
deriving DecidableEq

/-- The children of a phase; a leaf has none. -/
def PhaseBody.children : PhaseBody → List PhaseId
  | .leaf _ => []
  | .composite children => children

/-- A map read at a key that has to be there. -/
def index {κ β : Type} [LinearOrder κ] (m : SortedMap κ β) (k : κ) : Except Halt β :=
  match m.get? k with
  | some v => .ok v
  | none => .error .panicked

theorem index_eq_ok_iff {κ β : Type} [LinearOrder κ] {m : SortedMap κ β} {k : κ} {v : β} :
    index m k = .ok v ↔ m.get? k = some v := by
  unfold index
  cases m.get? k with
  | none => simp
  | some w => simp

end SimAgentNet.RoadmapCore
