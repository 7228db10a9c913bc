import SimAgentNet.Data.StableSort
import SimAgentNet.RoadmapRefine.Model

/-! # Plans and readiness

The values of `sim-roadmap-plan`: observations, compiled phases, and what is ready. -/

namespace SimAgentNet.RoadmapPlan

open RoadmapCore
open RoadmapRefine (Grounding GroundingId WorkProfile Atomicity)
open SourceDecks (SourceQuery GroundedEvidence Limitation)

/-- Observations that have been verified; what is absent is not established. -/
structure Observations where
  completedPhases : SortedSet PhaseId
  outputs : SortedMap (PhaseId ×ₗ OutputId) String
  promises : SortedSet (PhaseId ×ₗ PromiseId)
  acceptance : SortedSet (PhaseId ×ₗ ObligationId)
deriving DecidableEq

/-- Evidence and limitations of one phase. -/
structure PhaseGrounding where
  grounding : Grounding
  evidence : List GroundedEvidence
  limitations : List Limitation
deriving DecidableEq

inductive GroundFailure where
  | unresolved (query : SourceQuery)
  | outOfOwner (query : SourceQuery)
  | canonical (reason : String)
deriving DecidableEq

inductive PromiseState where
  | clear
  | collision
  | preconditionsMet
  | deferred
deriving DecidableEq

structure CompiledPhase where
  id : PhaseId
  authoredOrder : Nat
  grounding : PhaseGrounding
  profile : WorkProfile
  atomicity : Atomicity
  atomic : Bool
  promises : SortedMap String PromiseState
deriving DecidableEq

structure CompiledPlan where
  revision : RoadmapRevisionId
  phases : List CompiledPhase
deriving DecidableEq

inductive CompileFailure where
  | structure (failure : Failure)
  | ground (phase : PhaseId) (failure : GroundFailure)
  | promiseCollision (phase : PhaseId) (promise : String)
  | dependencyCycle (path : List PhaseId)
  | outputCycle (path : List PhaseId)
  | missingOutput (phase : PhaseId) (output : String)
  | graphLimit (actual maximum : Nat)
deriving DecidableEq

inductive Blocker where
  | requiredPhase (phase : PhaseId)
  | requiredOutput (phase : PhaseId) (output : String)
  | importedPhase (phase : String)
  | promise (promise : String)
  | acceptance (obligation : String)
  | mustDescend
deriving DecidableEq

/-! ## Completion -/

/-- Completion of a phase, `fuel` levels deep. -/
def aggregateCompleteWithin (spec : RoadmapSpec) (observations : Observations) :
    Nat → PhaseId → Bool
  | 0, _ => false
  | fuel + 1, id =>
    match spec.phases.get? id with
    | none => false
    | some phase =>
      match phase.body with
      | .leaf _ => id ∈ observations.completedPhases
      | .composite children => children.all (aggregateCompleteWithin spec observations fuel)

/-- Every leaf of the phase is completed. The number of phases bounds the depth. -/
def aggregateComplete (spec : RoadmapSpec) (observations : Observations) (id : PhaseId) : Bool :=
  aggregateCompleteWithin spec observations (spec.phases.size + 1) id

/-! ## Readiness -/

/-- What a dependency waits for. -/
def dependencyBlocker (spec : RoadmapSpec) (observations : Observations) :
    PhaseDependency → Option Blocker
  | .requires (.local required) =>
    if aggregateComplete spec observations required then none else some (.requiredPhase required)
  | .consumes ⟨.local producer, output⟩ =>
    if observations.outputs.contains (toLex (producer, output)) then none
    else some (.requiredOutput producer output.text)
  | .consumes ⟨.imported «import» phase _, _⟩ | .requires (.imported «import» phase _) =>
    some (.importedPhase («import».text ++ ":" ++ phase.text))
  | .prefersAfter _ => none

def blockers (spec : RoadmapSpec) (observations : Observations) (id : PhaseId) : List Blocker :=
  match spec.phases.get? id with
  | none => [.requiredPhase id]
  | some phase =>
    phase.dependencies.filterMap (dependencyBlocker spec observations) ++
      (phase.guide.promises.filter fun promise =>
        toLex (id, promise.id) ∉ observations.promises).map (.promise ·.id.text) ++
      (phase.acceptance.statements.keys.filter fun obligation =>
        toLex (id, obligation) ∉ observations.acceptance).map (.acceptance ·.text)

/-- A phase that the phase would rather come after is not complete. -/
def preferencePending (spec : RoadmapSpec) (observations : Observations) (id : PhaseId) : Bool :=
  ((spec.phases.get? id).map (·.dependencies)).getD [] |>.any fun
    | .prefersAfter (.local other) => !aggregateComplete spec observations other
    | _ => false

/-- The atomic phases that nothing blocks. The ids of the compiled phases all have an order, and one
without blockers is in the specification. -/
def readySet (spec : RoadmapSpec) (phases : List CompiledPhase) (observations : Observations) :
    List PhaseId :=
  let authored := SortedMap.ofList (phases.map fun p => (p.id, p.authoredOrder))
  let ready := (phases.filter fun p => p.atomic && (blockers spec observations p.id).isEmpty).map
    (·.id)
  StableSort.sortBy
    (fun id => toLex (preferencePending spec observations id,
      toLex ((authored.get? id).getD 0, id))) ready

end SimAgentNet.RoadmapPlan
