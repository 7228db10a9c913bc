import SimAgentNet.Data.Refusal
import SimAgentNet.RoadmapRefine.Framed

/-! # Contributions of proposed children

A proposal may let several children contribute to one obligation of the parent, an admitted phase
has one marker for each obligation. -/

namespace SimAgentNet.RoadmapRefine

open RoadmapCore

/-- The contributions that a proposal lists for an obligation of the parent. -/
def RefinementProposal.contributions (proposal : RefinementProposal) (obligation : ObligationId) :
    List ChildContribution :=
  (proposal.coverage.get? obligation).getD []

def ChildContribution.marker (obligation : ObligationId) (contribution : ChildContribution) :
    ObligationCoverage :=
  .contributes obligation contribution.child contribution.obligation

/-- A proposed child has the obligation that contributes. -/
def ChildContribution.Proposed (proposal : RefinementProposal) (contribution : ChildContribution) :
    Prop :=
  ∃ child ∈ proposal.children, child.id = contribution.child ∧
    child.acceptance.statements.contains contribution.obligation = true

section
variable {parent : PhaseSpec} {proposal : RefinementProposal}

theorem contributionMarker_eq_ok_iff (H : ProposedBelow parentId proposal.children)
    (contribution : ChildContribution) (marker : ObligationCoverage) :
    contributionMarker proposal obligation contribution = .ok marker ↔
      contribution.Proposed proposal ∧ marker = contribution.marker obligation := by
  rw [contributionMarker]
  split
  · rename_i hnone
    refine ⟨nofun, fun h => ?_⟩
    obtain ⟨⟨child, hchild, hid, -⟩, -⟩ := h
    exact absurd (by simpa using hid) (List.find?_eq_none.mp hnone child hchild)
  · rename_i child hfound
    have hid : child.id = contribution.child := by simpa using List.find?_some hfound
    have hchild := List.mem_of_find?_eq_some hfound
    have honly (other) (hother : other ∈ proposal.children)
        (heq : other.id = contribution.child) : other = child :=
      List.inj_on_of_nodup_map H.nodup hother hchild (heq.trans hid.symm)
    constructor
    · intro h
      split at h
      · rename_i hhas
        exact ⟨⟨child, hchild, hid, hhas⟩, (Except.ok.inj h).symm⟩
      · cases h
    · rintro ⟨⟨other, hother, heq, hhas⟩, rfl⟩
      rw [honly other hother heq] at hhas
      rw [if_pos hhas, ChildContribution.marker]

theorem obligationMarkers_eq_ok_iff (H : ProposedBelow parentId proposal.children)
    (obligation : ObligationId) (row : List ObligationCoverage) :
    obligationMarkers proposal obligation = .ok row ↔
      (proposal.contributions obligation ≠ [] ∧
        ∀ contribution ∈ proposal.contributions obligation, contribution.Proposed proposal) ∧
      row = (proposal.contributions obligation).map (·.marker obligation) := by
  rw [obligationMarkers, RefinementProposal.contributions]
  cases proposal.coverage.get? obligation with
  | none => exact ⟨nofun, fun h => absurd rfl h.1.1⟩
  | some contributions =>
    rw [Option.getD_some]
    cases contributions with
    | nil => exact ⟨nofun, fun h => absurd rfl h.1.1⟩
    | cons first rest =>
      have hrun := @Except.mapM_eq_ok_iff_map _ _ _ row _ _ _
        (fun a b => @contributionMarker_eq_ok_iff _ _ obligation H a b) (first :: rest)
      exact hrun.trans (and_congr_left fun _ => (and_iff_right (List.cons_ne_nil _ _)).symm)

/-- The markers of an accepted proposal, obligation by obligation. -/
theorem coverageMarkers_eq_ok_iff (H : ProposedBelow parentId proposal.children)
    {markers : List ObligationCoverage} :
    coverageMarkers parent proposal = .ok markers ↔
      (∀ o ∈ parent.acceptance.statements.keys, proposal.contributions o ≠ [] ∧
        ∀ contribution ∈ proposal.contributions o, contribution.Proposed proposal) ∧
      (∀ o ∈ proposal.coverage.keys, o ∈ parent.acceptance.statements.keys) ∧
      markers = parent.acceptance.statements.keys.flatMap fun o =>
        (proposal.contributions o).map (·.marker o) := by
  simp only [coverageMarkers, Except.bind_eq_ok_iff,
    Except.mapM_eq_ok_iff_map (obligationMarkers_eq_ok_iff H)]
  constructor
  · rintro ⟨_, ⟨hall, rfl⟩, h⟩
    split at h
    · cases h
    · rename_i hextra
      refine ⟨hall, fun o ho => ?_, (Except.ok.inj h).symm⟩
      have hknown := List.find?_eq_none.mp hextra o ho
      exact SortedMap.contains_iff_mem_keys.mp (by simpa using hknown)
  · rintro ⟨hall, hextra, rfl⟩
    have hnone : proposal.coverage.keys.find? (!parent.acceptance.statements.contains ·) = none := by
      refine List.find?_eq_none.mpr fun o ho => ?_
      simpa using SortedMap.contains_iff_mem_keys.mpr (hextra o ho)
    refine ⟨_, ⟨hall, rfl⟩, ?_⟩
    rw [hnone]
    rfl

end

/-- A list with a row for each of some values repeats a value when a row is long. -/
theorem nodup_flatMap_iff {rows : α → List β} {l : List α} (hl : l.Nodup) {f : α → β → α}
    (hf : ∀ a b, f a b = a) :
    (l.flatMap fun a => (rows a).map (f a)).Nodup ↔ ∀ a ∈ l, (rows a).length ≤ 1 := by
  have hrow (a) : (rows a).map (f a) = List.replicate (rows a).length a := by
    rw [List.eq_replicate_iff]
    refine ⟨List.length_map .., fun b hb => ?_⟩
    obtain ⟨c, -, rfl⟩ := List.mem_map.mp hb
    exact hf a c
  simp only [hrow, List.nodup_flatMap, List.nodup_replicate]
  refine and_iff_left ?_
  refine hl.imp fun {a b} hne => ?_
  simp only [Function.onFun, List.disjoint_left, List.mem_replicate]
  exact fun c hc hc' => hne (hc.2.symm.trans hc'.2)

/-! ## The coverage of the successor -/

/-- Each obligation of a proposed child contributes to one of the parent. -/
def RefinementProposal.Traced (proposal : RefinementProposal) : Prop :=
  ∀ child ∈ proposal.children, ∀ o ∈ child.acceptance.statements.keys,
    ∃ goal, ⟨child.id, o⟩ ∈ proposal.contributions goal

section
variable {base : RoadmapSpec} {parent : PhaseSpec} {proposal : RefinementProposal}
  {markers : List ObligationCoverage}

theorem covered_composed_iff (H : ProposedBelow proposal.parent proposal.children)
    (hmarkers : coverageMarkers parent proposal = .ok markers) (htraced : proposal.Traced) :
    Covered (successorSpec base proposal.parent parent proposal.children markers)
        (composed parent proposal.children markers) parent.acceptance ↔
      ∀ o ∈ parent.acceptance.statements.keys, (proposal.contributions o).length ≤ 1 := by
  obtain ⟨hall, hextra, rfl⟩ := (coverageMarkers_eq_ok_iff H).mp hmarkers
  have hnodup := @nodup_flatMap_iff _ _ proposal.contributions _
    parent.acceptance.statements.nodup_keys (fun o c => (c.marker o).parent) fun _ _ => rfl
  have hparents : (composed parent proposal.children
      (parent.acceptance.statements.keys.flatMap fun o =>
        (proposal.contributions o).map (·.marker o))).coverage.map (·.parent) =
      parent.acceptance.statements.keys.flatMap fun o =>
        (proposal.contributions o).map fun c => (c.marker o).parent := by
    simp [composed, List.map_flatMap, Function.comp_def]
  have hmem {marker} (hmarker : marker ∈ parent.acceptance.statements.keys.flatMap fun o =>
      (proposal.contributions o).map (·.marker o)) :
      ∃ o ∈ parent.acceptance.statements.keys, ∃ c ∈ proposal.contributions o,
        c.marker o = marker := by
    obtain ⟨o, ho, hmarker⟩ := List.mem_flatMap.mp hmarker
    exact ⟨o, ho, List.mem_map.mp hmarker⟩
  rw [← hnodup, ← hparents]
  refine ⟨Covered.nodup, fun hnodup => ⟨?_, ?_, hnodup, ?_, ?_⟩⟩
  · intro marker hmarker
    obtain ⟨o, ho, c, hc, rfl⟩ := hmem hmarker
    obtain ⟨child, hchild, hid, hhas⟩ := (hall o ho).2 c hc
    refine ⟨hid ▸ List.mem_map_of_mem hchild, child.acceptance, ?_, hhas⟩
    rw [RoadmapSpec.contract, ← hid, get?_successor_child H hchild]
    rfl
  · intro marker hmarker
    obtain ⟨o, ho, c, hc, rfl⟩ := hmem hmarker
    exact SortedMap.contains_iff_mem_keys.mpr ho
  · intro o ho
    obtain ⟨c, hc⟩ := List.exists_mem_of_ne_nil _ (hall o ho).1
    rw [hparents]
    exact List.mem_flatMap.mpr ⟨o, ho, List.mem_map.mpr ⟨c, hc, rfl⟩⟩
  · intro k contract o hk hcontract ho
    obtain ⟨child, hchild, rfl⟩ := List.mem_map.mp hk
    rw [RoadmapSpec.contract, get?_successor_child H hchild] at hcontract
    cases hcontract
    obtain ⟨goal, hgoal⟩ := htraced child hchild o (SortedMap.contains_iff_mem_keys.mp ho)
    refine ⟨goal, List.mem_flatMap.mpr ⟨goal, hextra goal ?_, List.mem_map.mpr ⟨_, hgoal, rfl⟩⟩⟩
    rw [SortedMap.mem_keys_iff]
    cases hget : proposal.coverage.get? goal with
    | some contributions => exact ⟨_, rfl⟩
    | none =>
      rw [RefinementProposal.contributions, hget] at hgoal
      cases hgoal

/-- The coverage of an accepted proposal is admitted exactly when no obligation of the parent has
several contributions. -/
theorem contributions_admitted_iff {grounding : Grounding} {ids : SortedSet PhaseId} {tree : Tree}
    (hown : base.OwnKeys) (hparent : base.phases.get? proposal.parent = some parent)
    (hchildren : proposal.children.foldlM (checkChild proposal.parent parent grounding) ∅ = .ok ids)
    (hmarkers : coverageMarkers parent proposal = .ok markers) (htraced : proposal.Traced)
    (htree : Tree.validate (successorSpec base proposal.parent parent proposal.children markers) =
      .ok tree) :
    (∃ dispositions, validateCoverage
        (successorSpec base proposal.parent parent proposal.children markers) proposal.parent
        parent.acceptance = .ok dispositions) ↔
      ∀ o ∈ parent.acceptance.statements.keys, (proposal.contributions o).length ≤ 1 := by
  have H := (checked_children hchildren).1
  have ht := Tree.complete_of_validate htree
  have hown' := @successor_ownKeys base _ parent _ markers hown hparent H
  have hget : (successorSpec base proposal.parent parent proposal.children markers).phases.get?
      proposal.parent = some (composed parent proposal.children markers) := by
    rw [get?_successor_other (parent_not_child H ht.valid hown'), if_pos rfl]
  rw [← covered_composed_iff H hmarkers htraced]
  constructor
  · rintro ⟨_, hrun⟩
    exact (covered_of_validateCoverage hget rfl hrun).1
  · exact validateCoverage_of_covered ht hget

end

/-! ## An obligation with two contributions -/

namespace Sample
open RoadmapCore.Sample

theorem base_ownKeys : base.spec.OwnKeys := by
  have hentries : ∀ e ∈ base.spec.phases.entries, e.2.id = e.1 := by decide +kernel
  exact fun k phase hk => hentries (k, phase) (SortedMap.get?_eq_some_iff.mp hk)

def leftPart : PhaseSpec := { leaf leftId [] with acceptance := contract part }

/-- Both pieces contribute to the obligation of the left leaf. -/
def shared : RefinementProposal :=
  { proposal with
    children := [upper, { lower with acceptance := contract detail }]
    coverage := SortedMap.insert ∅ part [⟨upper.id, detail⟩, ⟨lower.id, detail⟩] }

def sharedSpec : RoadmapSpec :=
  successorSpec base.spec leftId leftPart shared.children
    [.contributes part upper.id detail, .contributes part lower.id detail]

end Sample

theorem contributions_admitted_left :
    ∃ markers dispositions, coverageMarkers Sample.leftPart Sample.proposal = .ok markers ∧
      validateCoverage (successorSpec Sample.base.spec Sample.proposal.parent Sample.leftPart
        Sample.proposal.children markers) Sample.proposal.parent Sample.leftPart.acceptance =
        .ok dispositions := by
  obtain ⟨ids, hchildren⟩ := Except.exists_of_isOk (x := Sample.proposal.children.foldlM
    (checkChild Sample.proposal.parent Sample.leftPart Sample.grounding) ∅) (by decide +kernel)
  have hmarkers : coverageMarkers Sample.leftPart Sample.proposal =
      .ok [.contributes Sample.part Sample.upper.id Sample.detail] := by decide +kernel
  obtain ⟨tree, htree⟩ := Except.exists_of_isOk (x := Tree.validate (successorSpec
    Sample.base.spec Sample.proposal.parent Sample.leftPart Sample.proposal.children
    [.contributes Sample.part Sample.upper.id Sample.detail])) (by decide +kernel)
  have htraced : ∀ child ∈ Sample.proposal.children, ∀ o ∈ child.acceptance.statements.keys,
      ⟨child.id, o⟩ ∈ Sample.proposal.contributions Sample.part := by decide +kernel
  obtain ⟨dispositions, hrun⟩ := (contributions_admitted_iff Sample.base_ownKeys
    (by decide +kernel) hchildren hmarkers
    (fun child hchild o ho => ⟨_, htraced child hchild o ho⟩) htree).mpr (by decide +kernel)
  exact ⟨_, dispositions, hmarkers, hrun⟩

/-- Two children share an obligation of their parent: the proposal is accepted, its successor is
not. -/
theorem shared_obligation_refused :
    (Sample.shared.children.foldlM
      (checkChild Sample.leftId Sample.leftPart Sample.grounding) ∅).isOk = true ∧
    coverageMarkers Sample.leftPart Sample.shared = .ok
      [.contributes Sample.part Sample.upper.id Sample.detail,
        .contributes Sample.part Sample.lower.id Sample.detail] ∧
    Sample.shared.Traced ∧ (Tree.validate Sample.sharedSpec).isOk = true ∧
    validateCoverage Sample.sharedSpec Sample.leftId Sample.leftPart.acceptance =
      .error (.failure (.coverage "duplicate-parent-coverage" Sample.leftId Sample.part
        ⟨[Sample.rootId, Sample.leftId]⟩)) ∧
    (applyRefinement Sample.digest Sample.base Sample.grounding Sample.policy Sample.shared
      Sample.noHooks).map (fun _ => ()) = .error (.refused (.invalidTree
        (.coverage "duplicate-parent-coverage" Sample.leftId Sample.part
          ⟨[Sample.rootId, Sample.leftId]⟩))) := by
  have htraced : ∀ child ∈ Sample.shared.children, ∀ o ∈ child.acceptance.statements.keys,
      ⟨child.id, o⟩ ∈ Sample.shared.contributions Sample.part := by decide +kernel
  exact ⟨by decide +kernel, by decide +kernel, fun child hchild o ho => ⟨_, htraced child hchild o ho⟩,
    by decide +kernel, by decide +kernel, by decide +kernel⟩

end SimAgentNet.RoadmapRefine
