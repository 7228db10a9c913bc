import SimAgentNet.RoadmapCore.Coverage
import SimAgentNet.RoadmapRefine.Successor

/-! # What a refinement changes

The passes of an accepted refinement, and its frame: the refined phase becomes the composite phase
of the children, and nothing else changes. -/

namespace SimAgentNet.RoadmapRefine

open RoadmapCore
open SourceDecks (ContentIdOf)

section
variable {contentId : ContentIdOf} {base : RoadmapRevision} {policy : TractabilityPolicy}
  {proposal : RefinementProposal} {hooks : CompilationHooks} {applied : AppliedRefinement}

theorem checkProposal_spec {parent : PhaseSpec}
    (h : checkProposal contentId base grounding policy proposal = .ok parent) :
    base.spec.phases.get? proposal.parent = some parent ∧ unresolved parent grounding = [] ∧
      (∃ checkpoints, parent.body = .leaf checkpoints) ∧ 2 ≤ proposal.children.length := by
  simp only [checkProposal, Except.guard_eq_ok_iff] at h
  obtain ⟨-, h⟩ := h
  split at h
  · cases h
  · rename_i found hfound
    simp only [Except.bind_eq_ok_iff, Except.guard_eq_ok_iff, ne_eq, not_not] at h
    obtain ⟨_, -, -, -, hresolved, h⟩ := h
    split at h
    · cases h
    · rename_i checkpoints hbody
      simp only [Except.guard_eq_ok_iff, not_lt] at h
      obtain ⟨hmany, -, -, h⟩ := h
      cases h
      exact ⟨hfound, hresolved, ⟨checkpoints, hbody⟩, hmany⟩

theorem RoadmapRevision.new_spec {revision : RoadmapRevision}
    (h : RoadmapRevision.new mint origin spec change = .ok revision) :
    revision.parent = origin ∧ revision.spec = spec ∧ spec.OwnKeys := by
  simp only [RoadmapRevision.new, validateSpec, Except.bind_eq_ok_iff,
    Except.mapError_eq_ok_iff] at h
  obtain ⟨_, ⟨_, -, _, -, _, hentries, -⟩, _, -, _, -, h⟩ := h
  cases h
  refine ⟨rfl, rfl, fun k phase hk => ?_⟩
  have hentry := Except.forM_eq_ok_iff.mp hentries (k, phase) (SortedMap.get?_eq_some_iff.mp hk)
  rw [validateEntry, Except.guard_eq_ok_iff] at hentry
  exact (not_not.mp hentry.1).symm

/-- What an accepted refinement has checked and computed. -/
structure Applies (base : RoadmapRevision) (grounding : Grounding) (proposal : RefinementProposal)
    (parent : PhaseSpec) (coverage : List ObligationCoverage) (roadmap roadmap' : AdmittedRoadmap)
    (compiled : AdmittedPhase) (successor : RoadmapRevision) : Prop where
  found : base.spec.phases.get? proposal.parent = some parent
  resolved : unresolved parent grounding = []
  leaf : ∃ checkpoints, parent.body = .leaf checkpoints
  many : 2 ≤ proposal.children.length
  admitted : base.spec.admitSpec = .ok roadmap
  lookup : roadmap.phases.get? proposal.parent = some compiled
  below : ProposedBelow proposal.parent proposal.children
  grounded : ∀ child ∈ proposal.children, unresolved child grounding = []
  covered : coverageMarkers parent proposal = .ok coverage
  admitted' : (successorSpec base.spec proposal.parent parent proposal.children coverage).admitSpec =
    .ok roadmap'
  descends : ∃ ids descent,
    childIds (successorSpec base.spec proposal.parent parent proposal.children coverage)
      proposal.parent = .ok ids ∧
    ids.foldlM (descend (successorSpec base.spec proposal.parent parent proposal.children coverage)
      roadmap' grounding (deriveProfile parent compiled grounding)) ⟨∅, ∅⟩ = .ok descent
  spec : successor.spec = successorSpec base.spec proposal.parent parent proposal.children coverage
  origin : successor.parent = some base.id
  own : successor.spec.OwnKeys

theorem applies_of_applyRefinement
    (h : applyRefinement contentId base grounding policy proposal hooks = .ok applied) :
    ∃ parent coverage roadmap roadmap' compiled, Applies base grounding proposal parent coverage
      roadmap roadmap' compiled applied.successor := by
  simp only [applyRefinement, Except.bind_eq_ok_iff, Except.mapError_eq_ok_iff,
    index_eq_ok_iff] at h
  obtain ⟨parent, hproposal, roadmap, hadmitted, compiled, hcompiled, ids', hchildren, coverage,
    hcovered, roadmap', hadmitted', ids, hids, descent, hdescent, change, -, successor, hnew, _, -,
    _, -, h⟩ := h
  cases h
  obtain ⟨hfound, hresolved, hleaf, hmany⟩ := checkProposal_spec hproposal
  obtain ⟨hbelow, hchecked⟩ := checked_children hchildren
  obtain ⟨horigin, hspec, hown⟩ := RoadmapRevision.new_spec hnew
  exact ⟨parent, coverage, roadmap, roadmap', compiled,
    { found := hfound
      resolved := hresolved
      leaf := hleaf
      many := hmany
      admitted := hadmitted
      lookup := hcompiled
      below := hbelow
      grounded := fun child hchild => (hchecked child hchild).2.2
      covered := hcovered
      admitted' := hadmitted'
      descends := ⟨ids, descent, hids, hdescent⟩
      spec := hspec
      origin := horigin
      own := hspec ▸ hown }⟩

end

section
variable {base successor : RoadmapRevision} {proposal : RefinementProposal} {parent : PhaseSpec}
  {coverage : List ObligationCoverage} {roadmap roadmap' : AdmittedRoadmap}
  {compiled : AdmittedPhase}

theorem Applies.refined
    (A : Applies base grounding proposal parent coverage roadmap roadmap' compiled successor) :
    ∃ tree tree', Admitted base.spec tree roadmap ∧
      Admitted (successorSpec base.spec proposal.parent parent proposal.children coverage) tree'
        roadmap' ∧
      Refined base.spec proposal.parent parent proposal.children coverage tree tree' := by
  obtain ⟨tree, hbase⟩ := admitted_of_compile A.admitted
  obtain ⟨tree', hsuccessor⟩ := admitted_of_compile A.admitted'
  obtain ⟨checkpoints, hbody⟩ := A.leaf
  have hown := A.own
  rw [A.spec] at hown
  exact ⟨tree, tree', hbase, hsuccessor,
    { valid := hbase.valid
      found := A.found
      leaf := by rw [hbody, PhaseBody.children]
      below := A.below
      valid' := hsuccessor.valid
      own := hown }⟩

/-! ## The frame -/

/-- The successor is the base with the refined phase as the composite phase of the new leaves. -/
structure Framed (base : RoadmapRevision) (proposal : RefinementProposal)
    (successor : RoadmapRevision) : Prop where
  fresh : ∀ child ∈ proposal.children, base.spec.phases.get? child.id = none
  leaves : ∀ child ∈ proposal.children, ∃ checkpoints, child.body = .leaf checkpoints
  keys : ∀ k, k ∈ successor.spec.phases.keys ↔
    k ∈ base.spec.phases.keys ∨ k ∈ proposal.children.map (·.id)
  children : ∀ child ∈ proposal.children, successor.spec.phases.get? child.id = some child
  others : ∀ k, k ∈ base.spec.phases.keys → k ≠ proposal.parent →
    successor.spec.phases.get? k = base.spec.phases.get? k
  parent : ∃ parent coverage, base.spec.phases.get? proposal.parent = some parent ∧
    successor.spec.phases.get? proposal.parent =
      some { parent with body := .composite (proposal.children.map (·.id)), coverage }
  spec : { successor.spec with phases := base.spec.phases } = base.spec
  origin : successor.parent = some base.id

theorem Applies.framed
    (A : Applies base grounding proposal parent coverage roadmap roadmap' compiled successor) :
    Framed base proposal successor := by
  obtain ⟨tree, tree', -, -, R⟩ := A.refined
  have hparent := R.get?_parent
  refine
    { fresh := fun child hchild => R.get?_child_base hchild
      leaves := fun child hchild => ?_
      keys := fun k => ?_
      children := fun child hchild => ?_
      others := fun k hk hne => ?_
      parent := ⟨parent, coverage, A.found, A.spec ▸ hparent⟩
      spec := by rw [A.spec]; rfl
      origin := A.origin }
  · have hnonempty := R.valid'.nonempty (get?_successor_child R.below hchild)
    have hnone := R.child_leaf hchild
    cases hbody : child.body with
    | leaf checkpoints => exact ⟨checkpoints, rfl⟩
    | composite children =>
      rw [hbody, PhaseBody.children] at hnone
      rw [hbody, hnone] at hnonempty
      exact absurd rfl hnonempty
  · rw [A.spec]
    by_cases hchild : k ∈ proposal.children.map (·.id)
    · obtain ⟨child, hmem, rfl⟩ := List.mem_map.mp hchild
      exact ⟨fun _ => .inr hchild,
        fun _ => SortedMap.mem_keys_iff.mpr ⟨child, get?_successor_child R.below hmem⟩⟩
    · rw [or_iff_left hchild, SortedMap.mem_keys_iff, SortedMap.mem_keys_iff,
        get?_successor_other hchild]
      split
      · rename_i heq
        rw [heq, A.found]
        exact ⟨fun _ => ⟨_, rfl⟩, fun _ => ⟨_, rfl⟩⟩
      · exact Iff.rfl
  · rw [A.spec]
    exact get?_successor_child R.below hchild
  · obtain ⟨phase, hphase⟩ := SortedMap.mem_keys_iff.mp hk
    rw [A.spec, get?_successor_other (R.fresh hphase), if_neg hne]

end

/-- A refinement changes nothing but the refined phase. -/
theorem refinement_framed {contentId : ContentIdOf} {base : RoadmapRevision}
    {policy : TractabilityPolicy} {proposal : RefinementProposal} {hooks : CompilationHooks}
    {applied : AppliedRefinement}
    (h : applyRefinement contentId base grounding policy proposal hooks = .ok applied) :
    Framed base proposal applied.successor := by
  obtain ⟨parent, coverage, roadmap, roadmap', compiled, A⟩ := applies_of_applyRefinement h
  exact A.framed

/-! ## The left leaf in two pieces -/

namespace Sample
open RoadmapCore.Sample

/-- An identity that tells the kinds of datums apart. -/
def digest : ContentIdOf
  | .node tag _ => .ok ⟨.new "sha256", List.replicate 32 (.ofNat tag.name.length), rfl⟩
  | _ => .error "not a node"

def mark (n : UInt8) : ContentId := ⟨.new "sha256", List.replicate 32 n, rfl⟩

theorem start_valid : ValidId "start" := by decide
theorem build_valid : ValidId "build" := by decide

def base : RoadmapRevision where
  id := ⟨mark 1⟩
  parent := none
  spec := coveredSpec
  change := ⟨textId "start" start_valid, "the first revision"⟩

def grounding : Grounding := ⟨⟨mark 2⟩, []⟩

def policy : TractabilityPolicy := ⟨"v1", ⟨0, 1, 1, 1, 1, 1, 1⟩, 4⟩

def detail : ObligationId := textId "detail"

/-- A leaf below the left one with a single checkpoint. -/
def piece (id : PhaseId) (acceptance : AcceptanceContract) : PhaseSpec :=
  { leaf id [] with
    parent := some leftId
    body := .leaf [⟨textId "build" build_valid, "it builds"⟩]
    acceptance }

def upper : PhaseSpec := piece (textId "upper") (contract detail)
def lower : PhaseSpec := piece (textId "lower") ⟨.all, ∅⟩

def proposal : RefinementProposal where
  baseRevision := base.id
  parent := leftId
  expectedParent := mark 18
  expectedGrounding := grounding.id
  children := [upper, lower]
  coverage := SortedMap.insert ∅ part [⟨upper.id, detail⟩]
  rationale := "two pieces"

def noHooks : CompilationHooks := ⟨fun _ => .ok (), fun _ => .ok ()⟩

end Sample

theorem refinement_framed_left :
    ∃ applied, applyRefinement Sample.digest Sample.base Sample.grounding Sample.policy
        Sample.proposal Sample.noHooks = .ok applied ∧
      Framed Sample.base Sample.proposal applied.successor := by
  have hrun : ((applyRefinement Sample.digest Sample.base Sample.grounding Sample.policy
      Sample.proposal Sample.noHooks).map fun _ => ()) = .ok () := by decide +kernel
  obtain ⟨applied, h, -⟩ := Except.map_eq_ok_iff.mp hrun
  exact ⟨applied, h, refinement_framed h⟩

end SimAgentNet.RoadmapRefine
