import SimAgentNet.RoadmapPlan.Model

/-! # Compilation of a plan

Each phase of an admitted revision is grounded in a source deck and profiled. The verifier of
promises is a parameter. -/

namespace SimAgentNet.RoadmapPlan

open RoadmapCore
open RoadmapRefine (Grounding TractabilityPolicy Atomicity computeAtomicity deriveProfile)
open SourceDecks (SourceQuery GroundedEvidence SourceDeck ContentIdOf)

/-- How a compilation ends without a plan: with a failure, or in a panic. -/
inductive Halt where
  | failure (failure : CompileFailure)
  | panicked
deriving DecidableEq

def Halt.ofCore : RoadmapCore.Halt → Halt
  | .failure f => .failure (.structure f)
  | .panicked => .panicked

/-! ## Grounding -/

def matchesQuery (row : GroundedEvidence) (query : SourceQuery) : Bool :=
  match row, query with
  | .anchor row, .anchor id => row.id = id
  | .excerpt row, .excerpt id => row.id = id
  | .specimen row, .specimen id => row.id = id
  | _, _ => false

def evidenceOwner : GroundedEvidence → String
  | .anchor row => row.owner
  | .excerpt row => row.owner
  | .specimen row => row.owner

/-- The evidence for one query, if its owner is one that the phase authors. -/
def groundQuery (phase : PhaseSpec) (deck : SourceDeck) (query : SourceQuery) :
    Except GroundFailure GroundedEvidence :=
  match deck.evidence.find? (matchesQuery · query) with
  | none => .error (.unresolved query)
  | some witness =>
    if (phase.owners.mutable.elems ++ phase.owners.readOnly.elems).any
        (·.text = evidenceOwner witness) then .ok witness
    else .error (.outOfOwner query)

def groundPhase (contentId : ContentIdOf) (phase : PhaseSpec) (deck : SourceDeck) :
    Except GroundFailure PhaseGrounding := do
  let evidence ← phase.guide.uses.mapM (groundQuery phase deck)
  let grounding ← (Grounding.new contentId phase.guide.uses).mapError .canonical
  return { grounding, evidence, limitations := deck.limitations }

/-! ## Promises -/

structure PromiseVerifier where
  publicDeclarationExists : String → String → Bool
  sourcePathIsCurrent : String → String → Bool
  specimenExists : String → String → Bool

def checkPromise (promise : Promise) (deck : SourceDeck) (verifier : PromiseVerifier) :
    PromiseState :=
  match promise with
  | .publicDeclaration _ owner anchor =>
    if verifier.publicDeclarationExists owner.text anchor then .collision else .clear
  | .sourcePostimage _ owner path _ =>
    if deck.repositories.any (·.owner = owner.text) &&
        verifier.sourcePathIsCurrent owner.text path then .preconditionsMet
    else .deferred
  | .checkedSpecimen _ owner specimen =>
    if verifier.specimenExists owner.text specimen then .preconditionsMet else .deferred
  | .producedOutput _ _ | .acceptance _ _ => .deferred

/-- The state of one promise; a collision ends the compilation. -/
def promiseRow (id : PhaseId) (deck : SourceDeck) (verifier : PromiseVerifier)
    (promises : SortedMap String PromiseState) (promise : Promise) :
    Except Halt (SortedMap String PromiseState) :=
  let state := checkPromise promise deck verifier
  if state = .collision then .error (.failure (.promiseCollision id promise.id.text))
  else .ok (promises.insert promise.id.text state)

/-! ## Structure -/

def validateOutput (spec : RoadmapSpec) (id : PhaseId) :
    PhaseDependency → Except Halt Unit
  | .consumes ⟨.local producer, output⟩ => do
    let phase ← (index spec.phases producer).mapError .ofCore
    if phase.outputs.contains output then return
    else .error (.failure (.missingOutput id output.text))
  | _ => .ok ()

def validateOutputs (spec : RoadmapSpec) : Except Halt Unit :=
  spec.phases.entries.forM fun entry => entry.2.dependencies.forM (validateOutput spec entry.1)

/-- Visits a phase and the phases below it; `fuel` bounds the depth. -/
def visit (spec : RoadmapSpec) (fuel : Nat) (seen : SortedSet PhaseId × List PhaseId)
    (id : PhaseId) : Except Halt (SortedSet PhaseId × List PhaseId) :=
  match fuel with
  | 0 => .error .panicked
  | fuel + 1 =>
    if id ∈ seen.1 then .ok seen
    else do
      let phase ← (index spec.phases id).mapError .ofCore
      phase.body.children.foldlM (visit spec fuel) (seen.1.insert id, seen.2 ++ [id])

def authoredOrder (spec : RoadmapSpec) : Except Halt (List PhaseId) :=
  (visit spec (spec.phases.size + 1) (∅, []) spec.root).map (·.2)

/-! ## Plans -/

/-- Compiles one phase after the ones before it in the authored order. -/
def compileNext (contentId : ContentIdOf) (spec : RoadmapSpec) (admitted : AdmittedRoadmap)
    (deck : SourceDeck) (policy : TractabilityPolicy) (verifier : PromiseVerifier)
    (phases : List CompiledPhase) (id : PhaseId) : Except Halt (List CompiledPhase) := do
  let phase ← (index spec.phases id).mapError .ofCore
  let grounding ← (groundPhase contentId phase deck).mapError fun failure =>
    .failure (.ground id failure)
  let compiled ← (index admitted.phases id).mapError .ofCore
  let atomicity := computeAtomicity phase compiled grounding.grounding policy
  let profile := deriveProfile phase compiled grounding.grounding
  let promises ← phase.guide.promises.foldlM (promiseRow id deck verifier) ∅
  let atomic := match atomicity with
    | .atomic _ => true
    | _ => false
  return phases ++ [{
    id, authoredOrder := phases.length, grounding, profile, atomicity, atomic, promises }]

def compilePlan (contentId : ContentIdOf) (revision : RoadmapRevision) (deck : SourceDeck)
    (policy : TractabilityPolicy) (verifier : PromiseVerifier) : Except Halt CompiledPlan := do
  let admitted ← revision.spec.admitSpec.mapError .ofCore
  if revision.spec.phases.size > revision.spec.limits.phases then
    .error (.failure (.graphLimit revision.spec.phases.size revision.spec.limits.phases))
  else
    validateOutputs revision.spec
    let order ← authoredOrder revision.spec
    let phases ← order.foldlM
      (compileNext contentId revision.spec admitted deck policy verifier) []
    return { revision := revision.id, phases }

theorem admitted_of_compilePlan {revision : RoadmapRevision} {policy : TractabilityPolicy}
    {verifier : PromiseVerifier}
    (h : compilePlan contentId revision deck policy verifier = .ok plan) :
    ∃ roadmap, revision.spec.admitSpec = .ok roadmap := by
  simp only [compilePlan, Except.bind_eq_ok_iff, Except.mapError_eq_ok_iff] at h
  obtain ⟨roadmap, hroadmap, -⟩ := h
  exact ⟨roadmap, hroadmap⟩

end SimAgentNet.RoadmapPlan
