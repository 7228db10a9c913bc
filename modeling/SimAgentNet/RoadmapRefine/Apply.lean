import SimAgentNet.RoadmapCore.Validation
import SimAgentNet.RoadmapRefine.Model

/-! # Applying a refinement

A proposal replaces a leaf by a composite phase of lower children. The compilation hooks are
parameters. -/

namespace SimAgentNet.RoadmapRefine

open RoadmapCore
open SourceDecks (SourceQuery ContentIdOf)

structure CompilationHooks where
  compileDependencies : RoadmapRevision → Except String Unit
  compileOutputs : RoadmapRevision → Except String Unit

structure AppliedRefinement where
  successor : RoadmapRevision
  certificate : DescentCertificate

/-! ## Ceilings -/

/-- Refuses an authored set of the child that is not within the allowed one; an empty one passes. -/
def ceiling {k : IdKind} (child : PhaseId) (field : String) (authored allowed : SortedSet (TextId k)) :
    Except Refusal Unit :=
  if ¬authored.elems.isEmpty ∧ ¬authored ⊆ allowed then .error (.widenedCeiling child field)
  else .ok ()

def checkCeilings (parent child : PhaseSpec) : Except Refusal Unit := do
  ceiling child.id "owners.mutable" child.owners.mutable parent.owners.mutable
  ceiling child.id "owners.read_only" child.owners.readOnly
    (parent.owners.mutable ∪ parent.owners.readOnly)
  ceiling child.id "resources" child.resources.resources parent.resources.resources
  ceiling child.id "capabilities" child.capabilities.capabilities parent.capabilities.capabilities
  ceiling child.id "effects" child.effects.effects parent.effects.effects
  ceiling child.id "change-targets" child.changes.targets parent.changes.targets

/-! ## Coverage -/

/-- The marker of one contribution. -/
def contributionMarker (proposal : RefinementProposal) (obligation : ObligationId)
    (contribution : ChildContribution) : Except Refusal ObligationCoverage :=
  match proposal.children.find? (·.id = contribution.child) with
  | none => .error (.invalidCoverage obligation)
  | some child =>
    if child.acceptance.statements.contains contribution.obligation then
      .ok (.contributes obligation contribution.child contribution.obligation)
    else .error (.invalidCoverage obligation)

/-- The markers of one obligation of the parent. -/
def obligationMarkers (proposal : RefinementProposal) (obligation : ObligationId) :
    Except Refusal (List ObligationCoverage) :=
  match proposal.coverage.get? obligation with
  | none | some [] => .error (.incompleteCoverage obligation)
  | some contributions => contributions.mapM (contributionMarker proposal obligation)

def coverageMarkers (parent : PhaseSpec) (proposal : RefinementProposal) :
    Except Refusal (List ObligationCoverage) := do
  let markers ← parent.acceptance.statements.keys.mapM (obligationMarkers proposal)
  match proposal.coverage.keys.find? (!parent.acceptance.statements.contains ·) with
  | some extra => .error (.invalidCoverage extra)
  | none => return markers.flatten

/-! ## Application -/

/-- One proposed child; the ids seen so far are collected. -/
def checkChild (parentId : PhaseId) (parent : PhaseSpec) (grounding : Grounding)
    (ids : SortedSet PhaseId) (child : PhaseSpec) : Except Refusal (SortedSet PhaseId) := do
  if child.id ∈ ids then .error (.duplicateChild child.id)
  else if child.parent ≠ some parentId then .error (.invalidChildParent child.id)
  else
    checkCeilings parent child
    match child.guide.uses.find? (¬· ∈ grounding.resolved) with
    | some query => .error (.ungroundedGuide child.id query)
    | none => return ids.insert child.id

/-- The specification with the parent as a composite phase of the children. -/
def successorSpec (base : RoadmapSpec) (parentId : PhaseId) (parent : PhaseSpec)
    (children : List PhaseSpec) (coverage : List ObligationCoverage) : RoadmapSpec :=
  { base with
    phases := children.foldl (fun phases child => phases.insert child.id child)
      (base.phases.insert parentId
        { parent with body := .composite (children.map (·.id)), coverage }) }

structure Descent where
  profiles : SortedMap PhaseId WorkProfile
  ordering : SortedMap PhaseId RankRelation

/-- Checks that a child is lower than its parent. -/
def descend (spec : RoadmapSpec) (admitted : AdmittedRoadmap) (grounding : Grounding)
    (parent : WorkProfile) (descent : Descent) (id : PhaseId) : Except Halt Descent := do
  let phase ← (index spec.phases id).mapError (Halt.ofCore .invalidTree)
  let compiled ← (index admitted.phases id).mapError (Halt.ofCore .invalidTree)
  let profile := deriveProfile phase compiled grounding
  let relation := compareProfiles profile parent
  if !relation.isLower then .error (.refused (.nonDescending id relation))
  else return ⟨descent.profiles.insert id profile, descent.ordering.insert id relation⟩

/-- What is checked before the tree is touched. -/
def checkProposal (contentId : ContentIdOf) (base : RoadmapRevision) (grounding : Grounding)
    (policy : TractabilityPolicy) (proposal : RefinementProposal) : Except Refusal PhaseSpec := do
  if proposal.baseRevision ≠ base.id then .error .staleBase
  else
    match base.spec.phases.get? proposal.parent with
    | none => .error (.missingParent proposal.parent)
    | some parent =>
      let expected ← (phaseFingerprint contentId parent).mapError .outputCompilation
      if proposal.expectedParent ≠ expected then .error .staleParent
      else if proposal.expectedGrounding ≠ grounding.id then .error .staleGrounding
      else if unresolved parent grounding ≠ [] then
        .error (.ungrounded (unresolved parent grounding))
      else
        match parent.body with
        | .composite _ => .error .parentNotLeaf
        | .leaf _ =>
          let maximum := min policy.maximumChildren base.spec.limits.childrenPerPhase
          if proposal.children.length < 2 then
            .error (.tooFewChildren proposal.children.length 2)
          else if proposal.children.length > maximum then
            .error (.tooManyChildren proposal.children.length maximum)
          else if Text.trimIsEmpty proposal.rationale then .error .invalidRationale
          else return parent

/-- The ids of the children of a composite phase. -/
def childIds (spec : RoadmapSpec) (id : PhaseId) : Except Halt (List PhaseId) := do
  match (← (index spec.phases id).mapError (Halt.ofCore .invalidTree)).body with
  | .composite children => return children
  | .leaf _ => .error .panicked

def applyRefinement (contentId : ContentIdOf) (base : RoadmapRevision) (grounding : Grounding)
    (policy : TractabilityPolicy) (proposal : RefinementProposal) (hooks : CompilationHooks) :
    Except Halt AppliedRefinement := do
  let parent ← (checkProposal contentId base grounding policy proposal).mapError .refused
  let admitted ← base.spec.admitSpec.mapError (Halt.ofCore .invalidTree)
  let compiled ← (index admitted.phases proposal.parent).mapError (Halt.ofCore .invalidTree)
  let parentProfile := deriveProfile parent compiled grounding
  let _ ← (proposal.children.foldlM (checkChild proposal.parent parent grounding) ∅).mapError
    .refused
  let coverage ← (coverageMarkers parent proposal).mapError .refused
  let spec := successorSpec base.spec proposal.parent parent proposal.children coverage
  let successorAdmitted ← spec.admitSpec.mapError (Halt.ofCore .invalidTree)
  let ids ← childIds spec proposal.parent
  let descent ← ids.foldlM (descend spec successorAdmitted grounding parentProfile) ⟨∅, ∅⟩
  let change ← (TextId.new .change ("refine-" ++ proposal.parent.text)).mapError
    (.refused ∘ .invalidSuccessor)
  let successor ← (RoadmapRevision.new
    (fun parent spec change => contentId (Canonical.revisionDatum parent spec change))
    (some base.id) spec ⟨change, proposal.rationale⟩).mapError (Halt.ofCore .invalidSuccessor)
  (hooks.compileDependencies successor).mapError (.refused ∘ .dependencyCompilation)
  (hooks.compileOutputs successor).mapError (.refused ∘ .outputCompilation)
  return {
    successor
    certificate := {
      parent := parentProfile
      children := descent.profiles
      ordering := descent.ordering
      coverage := {
        obligations := .ofList (proposal.coverage.entries.map fun row =>
          (row.1, row.2.map (·.child)))
        complete := true } } }

end SimAgentNet.RoadmapRefine
