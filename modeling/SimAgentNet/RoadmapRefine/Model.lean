import SimAgentNet.RoadmapCore.Datum
import SimAgentNet.RoadmapCore.Admit

/-! # Refinement values

The values of `sim-roadmap-refine`: groundings, work profiles and their order, policies, proposals
and refusals. -/

namespace SimAgentNet.RoadmapRefine

open RoadmapCore
open SourceDecks (SourceQuery ContentIdOf)

/-! ## Groundings -/

structure GroundingId where
  content : ContentId
deriving DecidableEq

structure Grounding where
  id : GroundingId
  resolved : List SourceQuery
deriving DecidableEq

def sourceQueryDatum (query : SourceQuery) : Datum :=
  let (kind, id) := match query with
    | .anchor id => ("anchor", id)
    | .excerpt id => ("excerpt", id)
    | .specimen id => ("specimen", id)
  .node (.qualified "roadmap-refine" "SourceQueryV1")
    [(.new "kind", .symbol (.new kind)), (.new "id", .string id)]

def Grounding.new (contentId : ContentIdOf) (resolved : List SourceQuery) :
    Except String Grounding := do
  let id ← contentId (.node (.qualified "roadmap-refine" "grounding-v1")
    [(.new "resolved", .vector (resolved.map sourceQueryDatum))])
  return ⟨⟨id⟩, resolved⟩

def phaseFingerprint (contentId : ContentIdOf) (phase : PhaseSpec) : Except String ContentId :=
  contentId (.node (.qualified "roadmap-refine" "PhaseFingerprintV2")
    [(.new "phase", phase.canonicalDatum)])

/-! ## Profiles -/

structure WorkProfile where
  unknowns : Nat
  mutableOwners : Nat
  packages : Nat
  changeTargets : Nat
  promises : Nat
  acceptanceGroups : Nat
  checkpoints : Nat
deriving DecidableEq

/-- A count as a `u32`; a larger one is cut off. -/
def count (value : Nat) : Nat := min value (2 ^ 32 - 1)

def unresolved (phase : PhaseSpec) (grounding : Grounding) : List SourceQuery :=
  phase.guide.uses.filter (¬· ∈ grounding.resolved)

def deriveProfile (phase : PhaseSpec) (admitted : AdmittedPhase) (grounding : Grounding) :
    WorkProfile where
  unknowns := count (unresolved phase grounding).length
  mutableOwners := count admitted.effectiveOwners.mutable.card
  packages := count (SortedSet.ofList (phase.guide.changeTargets.filterMap (·.package))).card
  changeTargets := count admitted.effectiveChanges.targets.card
  promises := count phase.guide.promises.length
  acceptanceGroups := count phase.acceptance.statements.size
  checkpoints := match phase.body with
    | .leaf checkpoints => count checkpoints.length
    | .composite _ => 0

/-! ## Ranks -/

inductive RankComponent where
  | unknowns
  | mutableOwners
  | packages
  | changeTargets
  | promises
  | acceptanceGroups
  | checkpoints
deriving DecidableEq

def ordinalComponents : List RankComponent :=
  [.unknowns, .mutableOwners, .packages, .changeTargets, .promises, .acceptanceGroups, .checkpoints]

def WorkProfile.value (profile : WorkProfile) : RankComponent → Nat
  | .unknowns => profile.unknowns
  | .mutableOwners => profile.mutableOwners
  | .packages => profile.packages
  | .changeTargets => profile.changeTargets
  | .promises => profile.promises
  | .acceptanceGroups => profile.acceptanceGroups
  | .checkpoints => profile.checkpoints

inductive RankRelation where
  | equal
  | lower (firstDifference : RankComponent) (child parent : Nat)
  | higher (firstDifference : RankComponent) (child parent : Nat)
deriving DecidableEq

/-- The relation at the first of the components in which the profiles differ. -/
def compareComponents (child parent : WorkProfile) : List RankComponent → RankRelation
  | [] => .equal
  | component :: components =>
    if child.value component < parent.value component then
      .lower component (child.value component) (parent.value component)
    else if child.value component > parent.value component then
      .higher component (child.value component) (parent.value component)
    else compareComponents child parent components

def compareProfiles (child parent : WorkProfile) : RankRelation :=
  compareComponents child parent ordinalComponents

def RankRelation.isLower : RankRelation → Bool
  | .lower _ _ _ => true
  | _ => false

/-! ## Policies -/

structure TractabilityPolicy where
  revision : String
  maximum : WorkProfile
  maximumChildren : Nat
deriving DecidableEq

structure PolicyBreach where
  component : RankComponent
  actual : Nat
  maximum : Nat
deriving DecidableEq

def TractabilityPolicy.breaches (policy : TractabilityPolicy) (profile : WorkProfile) :
    List PolicyBreach :=
  ordinalComponents.filterMap fun component =>
    if profile.value component > policy.maximum.value component then
      some ⟨component, profile.value component, policy.maximum.value component⟩
    else none

inductive Atomicity where
  | atomic (profile : WorkProfile)
  | mustDescend (profile : WorkProfile) (breaches : List PolicyBreach)
  | ungrounded (unresolved : List SourceQuery)
deriving DecidableEq

def computeAtomicity (phase : PhaseSpec) (admitted : AdmittedPhase) (grounding : Grounding)
    (policy : TractabilityPolicy) : Atomicity :=
  if unresolved phase grounding ≠ [] then .ungrounded (unresolved phase grounding)
  else
    let profile := deriveProfile phase admitted grounding
    let breaches := policy.breaches profile
    if breaches.isEmpty then .atomic profile else .mustDescend profile breaches

/-! ## Proposals -/

structure ChildContribution where
  child : PhaseId
  obligation : ObligationId
deriving DecidableEq

structure RefinementProposal where
  baseRevision : RoadmapRevisionId
  parent : PhaseId
  expectedParent : ContentId
  expectedGrounding : GroundingId
  children : List PhaseSpec
  coverage : SortedMap ObligationId (List ChildContribution)
  rationale : String
deriving DecidableEq

inductive Refusal where
  | staleBase
  | missingParent (parent : PhaseId)
  | staleParent
  | staleGrounding
  | ungrounded (queries : List SourceQuery)
  | parentNotLeaf
  | tooFewChildren (actual minimum : Nat)
  | tooManyChildren (actual maximum : Nat)
  | invalidRationale
  | duplicateChild (child : PhaseId)
  | invalidChildParent (child : PhaseId)
  | widenedCeiling (child : PhaseId) (field : String)
  | ungroundedGuide (child : PhaseId) (query : SourceQuery)
  | incompleteCoverage (obligation : ObligationId)
  | invalidCoverage (obligation : ObligationId)
  | nonDescending (child : PhaseId) (relation : RankRelation)
  | invalidTree (failure : Failure)
  | dependencyCompilation (reason : String)
  | outputCompilation (reason : String)
  | invalidSuccessor (failure : Failure)
deriving DecidableEq

/-- How a refinement ends without a result: with a refusal, or in a panic of the core. -/
inductive Halt where
  | refused (refusal : Refusal)
  | panicked
deriving DecidableEq

/-- A halt of the core as one of a refinement. -/
def Halt.ofCore (refusal : Failure → Refusal) : RoadmapCore.Halt → Halt
  | .failure failure => .refused (refusal failure)
  | .panicked => .panicked

structure CoverageReport where
  obligations : SortedMap ObligationId (List PhaseId)
  complete : Bool
deriving DecidableEq

structure DescentCertificate where
  parent : WorkProfile
  children : SortedMap PhaseId WorkProfile
  ordering : SortedMap PhaseId RankRelation
  coverage : CoverageReport
deriving DecidableEq

def DescentCertificate.verify (certificate : DescentCertificate) : Bool :=
  certificate.coverage.complete && 2 ≤ certificate.children.size &&
    certificate.ordering.size = certificate.children.size &&
    certificate.children.keys.all fun id =>
      (certificate.ordering.get? id).any RankRelation.isLower

end SimAgentNet.RoadmapRefine
