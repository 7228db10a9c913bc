import Mathlib.Data.Multiset.DershowitzManna
import Mathlib.Data.Prod.Lex
import SimAgentNet.RoadmapRefine.Framed

/-! # Refinement terminates

A refinement replaces one leaf by lower leaves and leaves the envelopes of the others as they are,
so that the ranks of the leaves decrease as a multiset. -/

namespace SimAgentNet.RoadmapRefine

open RoadmapCore Relation
open SourceDecks (ContentIdOf)

/-! ## Ranks of profiles -/

/-- The components of a profile below the unknowns, in the order of their weight. -/
def WorkProfile.rank (p : WorkProfile) : ℕ ×ₗ ℕ ×ₗ ℕ ×ₗ ℕ ×ₗ ℕ ×ₗ ℕ :=
  toLex (p.mutableOwners, toLex (p.packages, toLex (p.changeTargets, toLex (p.promises,
    toLex (p.acceptanceGroups, p.checkpoints)))))

theorem compareComponents_isLower_cons {child parent : WorkProfile} :
    (compareComponents child parent (component :: components)).isLower ↔
      child.value component < parent.value component ∨
        child.value component = parent.value component ∧
          (compareComponents child parent components).isLower := by
  rw [compareComponents]
  split
  · rename_i hlt
    exact ⟨fun _ => .inl hlt, fun _ => rfl⟩
  · rename_i hle
    split
    · rename_i hgt
      exact ⟨nofun, fun h => absurd h (by omega)⟩
    · rename_i hge
      have heq : child.value component = parent.value component := by omega
      rw [heq, or_iff_right (lt_irrefl _), and_iff_right rfl]

/-- Where the unknowns agree, the comparison is the one of the ranks. -/
theorem isLower_iff_rank_lt {child parent : WorkProfile} (h : child.unknowns = parent.unknowns) :
    (compareProfiles child parent).isLower ↔ child.rank < parent.rank := by
  have hnone : (compareComponents child parent []).isLower = false := rfl
  simp only [compareProfiles, ordinalComponents, compareComponents_isLower_cons, hnone,
    WorkProfile.value, h, lt_irrefl, false_or, true_and, WorkProfile.rank, Prod.Lex.lt_iff,
    ofLex_toLex, Bool.false_eq_true, and_false, or_false]

/-! ## Ranks of leaves -/

/-- The rank of the phase at a key, if it is a leaf. The grounding counts for the unknowns only. -/
def leafRank (grounding : Grounding) (spec : RoadmapSpec) (roadmap : AdmittedRoadmap) (k : PhaseId) :
    Option (ℕ ×ₗ ℕ ×ₗ ℕ ×ₗ ℕ ×ₗ ℕ ×ₗ ℕ) :=
  match spec.phases.get? k, roadmap.phases.get? k with
  | some phase, some a =>
    match phase.body with
    | .leaf _ => some (deriveProfile phase a grounding).rank
    | .composite _ => none
  | _, _ => none

/-- The ranks of the leaves of an admitted roadmap. -/
def leafRanks (grounding : Grounding) (spec : RoadmapSpec) (roadmap : AdmittedRoadmap) :
    Multiset (ℕ ×ₗ ℕ ×ₗ ℕ ×ₗ ℕ ×ₗ ℕ ×ₗ ℕ) :=
  spec.phases.keys.filterMap (leafRank grounding spec roadmap)

theorem leafRank_grounding (grounding grounding' : Grounding) :
    leafRank grounding = leafRank grounding' := rfl

theorem leafRank_of_leaf {spec : RoadmapSpec} {phase : PhaseSpec} {roadmap : AdmittedRoadmap}
    {a : AdmittedPhase} (hk : spec.phases.get? k = some phase)
    (ha : roadmap.phases.get? k = some a) (hbody : phase.body = .leaf checkpoints) :
    leafRank grounding spec roadmap k = some (deriveProfile phase a grounding).rank := by
  rw [leafRank, hk, ha]
  simp only [hbody]

theorem rank_congr {phase : PhaseSpec} {a a' : AdmittedPhase} (h : a.envelopes = a'.envelopes) :
    (deriveProfile phase a grounding).rank = (deriveProfile phase a' grounding').rank := by
  simp only [AdmittedPhase.envelopes, Prod.mk.injEq] at h
  simp only [WorkProfile.rank, deriveProfile, h.1, h.2.2.2.2]

/-! ## What stays -/

section
variable {base : RoadmapSpec} {parentId : PhaseId} {parent : PhaseSpec} {children : List PhaseSpec}
  {coverage : List ObligationCoverage} {tree tree' : Tree}

namespace Refined

theorem get?_base (R : Refined base parentId parent children coverage tree tree')
    (hk : base.phases.get? k = some phase) :
    (successorSpec base parentId parent children coverage).phases.get? k =
      some (if k = parentId then composed phase children coverage else phase) := by
  rw [get?_successor_other (R.fresh hk)]
  by_cases heq : k = parentId
  · rw [if_pos heq, if_pos heq]
    rw [heq, R.found] at hk
    rw [Option.some.inj hk]
  · rw [if_neg heq, if_neg heq, hk]

theorem child_base (R : Refined base parentId parent children coverage tree tree')
    (hc : base.Child q k) : (successorSpec base parentId parent children coverage).Child q k := by
  obtain ⟨above, habove, hmem⟩ := hc
  have hne : q ≠ parentId := by
    rintro rfl
    cases R.found.symm.trans habove
    rw [R.leaf] at hmem
    cases hmem
  refine ⟨above, ?_, hmem⟩
  rw [R.get?_base habove, if_neg hne]

/-- The phases of the base keep their envelopes. By induction down the tree of the base. -/
theorem envelopes (R : Refined base parentId parent children coverage tree tree')
    (h : Compiles base k a)
    (h' : Compiles (successorSpec base parentId parent children coverage) k a') :
    a.envelopes = a'.envelopes := by
  have hrooted := R.valid'.rooted
  induction h generalizing a' with
  | root hphase =>
    cases h' with
    | root hphase' =>
      cases (R.get?_base hphase).symm.trans hphase'
      split <;> rfl
    | child _ hc => exact absurd hc hrooted.top
  | child _ hc hphase hn ih =>
    obtain ⟨p', phase', hp', hphase', hn'⟩ := h'.parent hrooted (R.child_base hc)
    cases (R.get?_base hphase).symm.trans hphase'
    refine hn.envelopes_congr hn' (ih hp') ?_ ?_ ?_ ?_ ?_ <;> (split <;> rfl)

end Refined

theorem leafRank_base {roadmap roadmap' : AdmittedRoadmap}
    (R : Refined base parentId parent children coverage tree tree')
    (hb : Admitted base tree roadmap)
    (hs : Admitted (successorSpec base parentId parent children coverage) tree' roadmap')
    (hk : k ∈ base.phases.keys) (hne : k ≠ parentId) :
    leafRank grounding (successorSpec base parentId parent children coverage) roadmap' k =
      leafRank grounding' base roadmap k := by
  obtain ⟨phase, hphase⟩ := SortedMap.mem_keys_iff.mp hk
  have hphase' := R.get?_base hphase
  rw [if_neg hne] at hphase'
  obtain ⟨a, ha⟩ := SortedMap.mem_keys_iff.mp (hb.keys.mpr hk)
  obtain ⟨a', ha'⟩ := SortedMap.mem_keys_iff.mp
    (hs.keys.mpr (SortedMap.mem_keys_iff.mpr ⟨phase, hphase'⟩))
  have hsame := R.envelopes (hb.compiles ha) (hs.compiles ha')
  rw [leafRank, leafRank, hphase, hphase', ha, ha']
  dsimp only
  split
  · rw [rank_congr hsame]
  · rfl

end

/-! ## What is replaced -/

theorem descends_of_foldlM {spec : RoadmapSpec} {roadmap : AdmittedRoadmap} {ids : List PhaseId}
    {parent : WorkProfile} {descent descent' : Descent}
    (h : ids.foldlM (descend spec roadmap grounding parent) descent = .ok descent') :
    ∀ id ∈ ids, ∃ phase a, spec.phases.get? id = some phase ∧ roadmap.phases.get? id = some a ∧
      (compareProfiles (deriveProfile phase a grounding) parent).isLower := by
  induction ids generalizing descent with
  | nil => exact nofun
  | cons id ids ih =>
    obtain ⟨mid, hmid, h⟩ := Run.foldlM_cons_eq_ok_iff.mp h
    simp only [descend, Except.bind_eq_ok_iff, Except.mapError_eq_ok_iff, index_eq_ok_iff,
      Except.guard_eq_ok_iff] at hmid
    obtain ⟨phase, hphase, a, ha, hlower, -⟩ := hmid
    exact List.forall_mem_cons.mpr ⟨⟨phase, a, hphase, ha, by simpa using hlower⟩, ih h⟩

section
variable {base successor : RoadmapRevision} {proposal : RefinementProposal} {parent : PhaseSpec}
  {coverage : List ObligationCoverage} {roadmap roadmap' : AdmittedRoadmap}
  {compiled : AdmittedPhase}

/-- Each child is a leaf of lower rank. -/
theorem Applies.child_rank
    (A : Applies base grounding proposal parent coverage roadmap roadmap' compiled successor)
    {child : PhaseSpec} (hchild : child ∈ proposal.children) :
    ∃ rank, leafRank grounding' successor.spec roadmap' child.id = some rank ∧
      rank < (deriveProfile parent compiled grounding).rank := by
  obtain ⟨tree, tree', hb, hs, R⟩ := A.refined
  obtain ⟨ids, descent, hids, hdescent⟩ := A.descends
  have hmem : child.id ∈ ids := by
    simp only [childIds, Except.bind_eq_ok_iff, Except.mapError_eq_ok_iff, index_eq_ok_iff] at hids
    obtain ⟨phase, hphase, hids⟩ := hids
    cases R.get?_parent.symm.trans hphase
    cases hids
    exact List.mem_map_of_mem hchild
  obtain ⟨phase, a, hphase, ha, hlower⟩ := descends_of_foldlM hdescent child.id hmem
  cases (get?_successor_child R.below hchild).symm.trans hphase
  obtain ⟨checkpoints, hbody⟩ := A.framed.leaves child hchild
  rw [A.spec, leafRank_of_leaf hphase ha hbody]
  have hunknowns : (deriveProfile child a grounding).unknowns =
      (deriveProfile parent compiled grounding).unknowns := by
    simp only [deriveProfile, A.resolved, A.grounded child hchild]
  exact ⟨_, rfl, (isLower_iff_rank_lt hunknowns).mp hlower⟩

/-- The keys of the successor: the refined phase, the others of the base, and the children. -/
theorem Applies.keys_perm
    (A : Applies base grounding proposal parent coverage roadmap roadmap' compiled successor) :
    successor.spec.phases.keys.Perm
      (proposal.parent :: (base.spec.phases.keys.erase proposal.parent ++
        proposal.children.map (·.id))) := by
  have hparent : proposal.parent ∈ base.spec.phases.keys :=
    SortedMap.mem_keys_iff.mpr ⟨parent, A.found⟩
  have hbase := List.perm_cons_erase hparent
  rw [← List.cons_append]
  refine .trans ?_ (hbase.append_right _)
  refine (List.perm_ext_iff_of_nodup (SortedMap.nodup_keys _) ?_).mpr fun k => ?_
  · refine List.nodup_append.mpr ⟨SortedMap.nodup_keys _, A.below.nodup, fun k hk k' hk' heq => ?_⟩
    obtain ⟨child, hchild, rfl⟩ := List.mem_map.mp hk'
    obtain ⟨phase, hphase⟩ := SortedMap.mem_keys_iff.mp (heq ▸ hk)
    exact nomatch hphase.symm.trans (A.framed.fresh child hchild)
  · rw [List.mem_append]
    exact A.framed.keys k

/-- One leaf makes place for lower ones. -/
theorem Applies.leafRanks_lt
    (A : Applies base grounding proposal parent coverage roadmap roadmap' compiled successor) :
    (leafRanks grounding' successor.spec roadmap').IsDershowitzMannaLT
      (leafRanks grounding'' base.spec roadmap) := by
  obtain ⟨tree, tree', hb, hs, R⟩ := A.refined
  obtain ⟨checkpoints, hbody⟩ := A.leaf
  have hparent : proposal.parent ∈ base.spec.phases.keys :=
    SortedMap.mem_keys_iff.mpr ⟨parent, A.found⟩
  have hrest : (base.spec.phases.keys.erase proposal.parent).filterMap
      (leafRank grounding' successor.spec roadmap') =
      (base.spec.phases.keys.erase proposal.parent).filterMap
        (leafRank grounding'' base.spec roadmap) := by
    refine List.filterMap_congr fun k hk => ?_
    have hk := (SortedMap.nodup_keys base.spec.phases).mem_erase_iff.mp hk
    rw [A.spec]
    exact leafRank_base R hb hs hk.2 hk.1
  have hcomposite : leafRank grounding' successor.spec roadmap' proposal.parent = none := by
    obtain ⟨a, ha⟩ := SortedMap.mem_keys_iff.mp
      (hs.keys.mpr (SortedMap.mem_keys_iff.mpr ⟨_, R.get?_parent⟩))
    rw [A.spec, leafRank, R.get?_parent, ha]
    rfl
  have hleaf : leafRank grounding'' base.spec roadmap proposal.parent =
      some (deriveProfile parent compiled grounding).rank := leafRank_of_leaf A.found A.lookup hbody
  refine ⟨(base.spec.phases.keys.erase proposal.parent).filterMap
      (leafRank grounding'' base.spec roadmap),
    (proposal.children.map (·.id)).filterMap (leafRank grounding' successor.spec roadmap'),
    {(deriveProfile parent compiled grounding).rank}, Multiset.singleton_ne_zero _, ?_, ?_, ?_⟩
  · rw [leafRanks, Multiset.coe_add, Multiset.coe_eq_coe]
    have hperm := A.keys_perm.filterMap (leafRank grounding' successor.spec roadmap')
    rwa [List.filterMap_cons_none hcomposite, List.filterMap_append, hrest] at hperm
  · rw [leafRanks, add_comm, Multiset.singleton_add, Multiset.cons_coe, Multiset.coe_eq_coe]
    have hperm := (List.perm_cons_erase hparent).filterMap (leafRank grounding'' base.spec roadmap)
    rwa [List.filterMap_cons_some hleaf] at hperm
  · intro rank hrank
    obtain ⟨k, hk, hrank⟩ := List.mem_filterMap.mp (Multiset.mem_coe.mp hrank)
    obtain ⟨child, hchild, rfl⟩ := List.mem_map.mp hk
    obtain ⟨rank', hrank', hlt⟩ := A.child_rank hchild
    cases hrank'.symm.trans hrank
    exact ⟨_, Multiset.mem_singleton_self _, hlt⟩

end

/-! ## Runs of refinements -/

/-- A refinement of the first revision succeeds with the second. -/
def Refines (contentId : ContentIdOf) (base successor : RoadmapRevision) : Prop :=
  ∃ grounding policy proposal hooks applied,
    applyRefinement contentId base grounding policy proposal hooks = .ok applied ∧
      applied.successor = successor

/-- The ranks of the leaves of a revision; none, if it is not admitted. -/
def RoadmapRevision.leafRanks (grounding : Grounding) (revision : RoadmapRevision) :
    Multiset (ℕ ×ₗ ℕ ×ₗ ℕ ×ₗ ℕ ×ₗ ℕ ×ₗ ℕ) :=
  match revision.spec.admitSpec with
  | .ok roadmap => RoadmapRefine.leafRanks grounding revision.spec roadmap
  | .error _ => 0

theorem RoadmapRevision.leafRanks_of_admitted {revision : RoadmapRevision}
    (h : revision.spec.admitSpec = .ok roadmap) : RoadmapRevision.leafRanks grounding revision =
      RoadmapRefine.leafRanks grounding revision.spec roadmap := by
  rw [RoadmapRevision.leafRanks, h]

/-- A refinement leaves less, however the profiles are grounded, and so none goes on for ever. -/
theorem refinement_terminates (contentId : ContentIdOf) :
    (∀ base grounding policy proposal hooks applied,
      applyRefinement contentId base grounding policy proposal hooks = .ok applied →
      ∃ roadmap roadmap', base.spec.admitSpec = .ok roadmap ∧
        applied.successor.spec.admitSpec = .ok roadmap' ∧ ∀ grounding' grounding'',
          (leafRanks grounding' applied.successor.spec roadmap').IsDershowitzMannaLT
            (leafRanks grounding'' base.spec roadmap)) ∧
    (WellFounded fun successor base => Refines contentId base successor) ∧
    ¬∃ revisions : ℕ → RoadmapRevision, ∀ n,
      Refines contentId (revisions n) (revisions (n + 1)) := by
  have hlower (base grounding policy proposal hooks applied)
      (h : applyRefinement contentId base grounding policy proposal hooks = .ok applied) :
      ∃ roadmap roadmap', base.spec.admitSpec = .ok roadmap ∧
        applied.successor.spec.admitSpec = .ok roadmap' ∧ ∀ grounding' grounding'',
          (leafRanks grounding' applied.successor.spec roadmap').IsDershowitzMannaLT
            (leafRanks grounding'' base.spec roadmap) := by
    obtain ⟨parent, coverage, roadmap, roadmap', compiled, A⟩ := applies_of_applyRefinement h
    exact ⟨roadmap, roadmap', A.admitted, A.spec ▸ A.admitted', fun _ _ => A.leafRanks_lt⟩
  have hwf : WellFounded fun successor base => Refines contentId base successor := by
    let none : Grounding := ⟨⟨⟨.new "", List.replicate 32 0, rfl⟩⟩, []⟩
    refine Subrelation.wf (fun {successor base} hstep => ?_)
      (InvImage.wf (RoadmapRevision.leafRanks none) Multiset.wellFounded_isDershowitzMannaLT)
    obtain ⟨grounding, policy, proposal, hooks, applied, h, rfl⟩ := hstep
    obtain ⟨roadmap, roadmap', hbase, hsuccessor, hlt⟩ := hlower _ _ _ _ _ _ h
    have hbase := @RoadmapRevision.leafRanks_of_admitted _ none _ hbase
    have hsuccessor := @RoadmapRevision.leafRanks_of_admitted _ none _ hsuccessor
    rw [InvImage, hbase, hsuccessor]
    exact hlt none none
  refine ⟨hlower, hwf, fun ⟨revisions, hsteps⟩ => ?_⟩
  exact (wellFounded_iff_isEmpty_descending_chain.mp hwf).false ⟨revisions, hsteps⟩

theorem refinement_terminates_left :
    ∃ applied roadmap roadmap', applyRefinement Sample.digest Sample.base Sample.grounding
        Sample.policy Sample.proposal Sample.noHooks = .ok applied ∧
      Sample.base.spec.admitSpec = .ok roadmap ∧
      applied.successor.spec.admitSpec = .ok roadmap' ∧
      (leafRanks Sample.grounding applied.successor.spec roadmap').IsDershowitzMannaLT
        (leafRanks Sample.grounding Sample.base.spec roadmap) := by
  have hrun : ((applyRefinement Sample.digest Sample.base Sample.grounding Sample.policy
      Sample.proposal Sample.noHooks).map fun _ => ()) = .ok () := by decide +kernel
  obtain ⟨applied, h, -⟩ := Except.map_eq_ok_iff.mp hrun
  obtain ⟨roadmap, roadmap', hbase, hsuccessor, hlt⟩ :=
    (refinement_terminates Sample.digest).1 _ _ _ _ _ _ h
  exact ⟨applied, roadmap, roadmap', h, hbase, hsuccessor, hlt _ _⟩

end SimAgentNet.RoadmapRefine
