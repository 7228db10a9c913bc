import SimAgentNet.RoadmapRefine.Apply

/-! # Ceilings of proposed children

A proposal is checked against what the parent authors, an admitted child against what the parent
has. The two agree on the envelopes that the parent does not leave to its ancestors. -/

namespace SimAgentNet.RoadmapRefine

open RoadmapCore

/-- The envelopes that the child authors are within those that the parent authors. -/
structure AuthoredWithin (parent child : PhaseSpec) : Prop where
  mutable : child.owners.mutable ⊆ parent.owners.mutable
  readOnly : child.owners.readOnly ⊆ parent.owners.mutable ∪ parent.owners.readOnly
  resources : child.resources.resources ⊆ parent.resources.resources
  capabilities : child.capabilities.capabilities ⊆ parent.capabilities.capabilities
  effects : child.effects.effects ⊆ parent.effects.effects
  targets : child.changes.targets ⊆ parent.changes.targets

/-- The envelopes that the child authors are within the effective ones. -/
structure EffectiveWithin (a : AdmittedPhase) (child : PhaseSpec) : Prop where
  mutable : child.owners.mutable ⊆ a.effectiveOwners.mutable
  readOnly : child.owners.readOnly ⊆ a.effectiveOwners.mutable ∪ a.effectiveOwners.readOnly
  resources : child.resources.resources ⊆ a.effectiveResources.resources
  capabilities : child.capabilities.capabilities ⊆ a.effectiveCapabilities.capabilities
  effects : child.effects.effects ⊆ a.effectiveEffects.effects
  targets : child.changes.targets ⊆ a.effectiveChanges.targets

/-- The child leaves empty what the parent inherits, and reads what the parent itself authors. -/
structure LeavesInherited (parent child : PhaseSpec) : Prop where
  mutable : parent.owners.mutable = ∅ → child.owners.mutable = ∅
  readOnly : child.owners.readOnly ⊆ parent.owners.mutable ∪ parent.owners.readOnly
  resources : parent.resources.resources = ∅ → child.resources.resources = ∅
  capabilities : parent.capabilities.capabilities = ∅ → child.capabilities.capabilities = ∅
  effects : parent.effects.effects = ∅ → child.effects.effects = ∅
  targets : parent.changes.targets = ∅ → child.changes.targets = ∅

section
variable {k : IdKind} {authored allowed effective : SortedSet (TextId k)}

theorem eq_empty_iff {s : SortedSet (TextId k)} : s.elems.isEmpty = true ↔ s = ∅ := by
  rw [List.isEmpty_iff]
  refine ⟨fun h => SortedSet.ext fun a => ?_, fun h => h ▸ rfl⟩
  rw [SortedSet.mem_def, h]
  exact Iff.rfl

theorem empty_subset (s : SortedSet (TextId k)) : (∅ : SortedSet (TextId k)) ⊆ s :=
  fun _ h => nomatch h

theorem ceiling_eq_ok_iff {u : Unit} :
    ceiling child field authored allowed = .ok u ↔ authored ⊆ allowed := by
  rw [ceiling]
  split
  · rename_i hwide
    exact ⟨nofun, fun hsub => absurd hsub hwide.2⟩
  · rename_i hwide
    refine ⟨fun _ => ?_, fun _ => rfl⟩
    rcases not_and_or.mp hwide with hempty | hsub
    · rw [eq_empty_iff.mp (not_not.mp hempty)]
      exact empty_subset allowed
    · exact not_not.mp hsub

/-- The effective set of a phase: the authored one, unless that is empty. -/
def Inherits (authored effective : SortedSet (TextId k)) : Prop := authored ≠ ∅ → effective = authored

theorem inherits_patch (parent : SortedSet (TextId k)) : Inherits authored (patch parent authored) := by
  intro hne
  rw [patch, if_neg fun hempty => hne (eq_empty_iff.mp hempty)]

theorem Inherits.subset (h : Inherits authored effective) : authored ⊆ effective := by
  by_cases hempty : authored = ∅
  · rw [hempty]
    exact empty_subset effective
  · rw [h hempty]
    exact SortedSet.subset_refl authored

/-- Being within the authored set and within the effective one differ where the set is inherited. -/
theorem Inherits.within_iff (h : Inherits authored effective) {child : SortedSet (TextId k)}
    (hchild : child ⊆ effective) : child ⊆ authored ↔ (authored = ∅ → child = ∅) := by
  constructor
  · rintro hsub rfl
    exact SortedSet.ext fun a => ⟨fun ha => hsub a ha, fun ha => nomatch ha⟩
  · intro hnone
    by_cases hempty : authored = ∅
    · rw [hnone hempty]
      exact empty_subset authored
    · rw [← h hempty]
      exact hchild

end

theorem checkCeilings_eq_ok_iff {parent child : PhaseSpec} :
    checkCeilings parent child = .ok () ↔ AuthoredWithin parent child := by
  simp only [checkCeilings, Except.bind_eq_ok_iff, ceiling_eq_ok_iff]
  constructor
  · rintro ⟨_, hm, _, hro, _, hr, _, hc, _, he, ht⟩
    exact ⟨hm, hro, hr, hc, he, ht⟩
  · rintro ⟨hm, hro, hr, hc, he, ht⟩
    exact ⟨(), hm, (), hro, (), hr, (), hc, (), he, ht⟩

/-- The effective envelopes of a phase are what it authors, or inherited. -/
structure InheritsFrom (phase : PhaseSpec) (a : AdmittedPhase) : Prop where
  mutable : Inherits phase.owners.mutable a.effectiveOwners.mutable
  readOnly : Inherits phase.owners.readOnly a.effectiveOwners.readOnly
  resources : Inherits phase.resources.resources a.effectiveResources.resources
  capabilities : Inherits phase.capabilities.capabilities a.effectiveCapabilities.capabilities
  effects : Inherits phase.effects.effects a.effectiveEffects.effects
  targets : Inherits phase.changes.targets a.effectiveChanges.targets

theorem inheritsFrom_of_compiles {spec : RoadmapSpec} (h : Compiles spec k a)
    (hk : spec.phases.get? k = some phase) : InheritsFrom phase a := by
  cases h with
  | root hphase =>
    cases hphase.symm.trans hk
    exact ⟨fun _ => rfl, fun _ => rfl, fun _ => rfl, fun _ => rfl, fun _ => rfl, fun _ => rfl⟩
  | child _ _ hphase hn =>
    cases hphase.symm.trans hk
    refine ⟨?_, ?_, ?_, ?_, ?_, ?_⟩
    · rw [hn.owners]
      exact inherits_patch _
    · rw [hn.owners]
      exact inherits_patch _
    · rw [hn.resources_eq]
      exact inherits_patch _
    · rw [hn.capabilities_eq]
      exact inherits_patch _
    · rw [hn.effects_eq]
      exact inherits_patch _
    · rw [hn.targets_eq]
      exact inherits_patch _

theorem AuthoredWithin.effective {parent child : PhaseSpec} (H : AuthoredWithin parent child)
    (h : InheritsFrom parent a) : EffectiveWithin a child where
  mutable := SortedSet.subset_trans H.mutable h.mutable.subset
  readOnly := by
    intro o ho
    obtain hm | hr := SortedSet.mem_union.mp (H.readOnly o ho)
    · exact SortedSet.mem_union.mpr (.inl (h.mutable.subset o hm))
    · exact SortedSet.mem_union.mpr (.inr (h.readOnly.subset o hr))
  resources := SortedSet.subset_trans H.resources h.resources.subset
  capabilities := SortedSet.subset_trans H.capabilities h.capabilities.subset
  effects := SortedSet.subset_trans H.effects h.effects.subset
  targets := SortedSet.subset_trans H.targets h.targets.subset

theorem EffectiveWithin.authored_iff {parent child : PhaseSpec} (H : EffectiveWithin a child)
    (h : InheritsFrom parent a) : AuthoredWithin parent child ↔ LeavesInherited parent child := by
  have hm := h.mutable.within_iff H.mutable
  have hr := h.resources.within_iff H.resources
  have hc := h.capabilities.within_iff H.capabilities
  have he := h.effects.within_iff H.effects
  have ht := h.targets.within_iff H.targets
  constructor
  · intro W
    exact ⟨hm.mp W.mutable, W.readOnly, hr.mp W.resources, hc.mp W.capabilities, he.mp W.effects,
      ht.mp W.targets⟩
  · intro L
    exact ⟨hm.mpr L.mutable, L.readOnly, hr.mpr L.resources, hc.mpr L.capabilities, he.mpr L.effects,
      ht.mpr L.targets⟩

/-- The ceilings of a proposal are those of admission exactly for the children that exceed the
latter anyway or leave empty what the parent inherits. -/
theorem ceilings_effective_iff {spec : RoadmapSpec} {parent : PhaseSpec}
    (h : AdmittedRoadmap.compile spec = .ok roadmap) (hparent : spec.phases.get? k = some parent)
    (ha : roadmap.phases.get? k = some a) (child : PhaseSpec) :
    (checkCeilings parent child = .ok () ↔ EffectiveWithin a child) ↔
      (EffectiveWithin a child → LeavesInherited parent child) := by
  obtain ⟨tree, hadmitted⟩ := admitted_of_compile h
  have hinherits := inheritsFrom_of_compiles (hadmitted.compiles ha) hparent
  rw [checkCeilings_eq_ok_iff]
  constructor
  · intro heq hwithin
    exact (hwithin.authored_iff hinherits).mp (heq.mpr hwithin)
  · intro hleaves
    exact ⟨fun W => W.effective hinherits,
      fun hwithin => (hwithin.authored_iff hinherits).mpr (hleaves hwithin)⟩

/-! ## A child of a leaf that inherits its owner -/

namespace Sample
open RoadmapCore.Sample

theorem owner_valid : ValidId "owner" := by decide

/-- A child of the left leaf that works on the owner of the root. -/
def owned : PhaseSpec :=
  { leaf (textId "owned") [] with
    parent := some leftId
    owners := ⟨SortedSet.insert (textId "owner" owner_valid) ∅, ∅⟩ }

end Sample

theorem ceilings_effective_iff_root :
    ∃ roadmap a, AdmittedRoadmap.compile (RoadmapCore.Sample.spec [] []) = .ok roadmap ∧
      roadmap.phases.get? RoadmapCore.Sample.rootId = some a ∧
      (checkCeilings RoadmapCore.Sample.root Sample.owned = .ok () ↔
        EffectiveWithin a Sample.owned) := by
  have hrun : ((AdmittedRoadmap.compile (RoadmapCore.Sample.spec [] [])).map fun roadmap =>
      (roadmap.phases.get? RoadmapCore.Sample.rootId).isSome) = .ok true := by decide +kernel
  obtain ⟨roadmap, h, hget⟩ := Except.map_eq_ok_iff.mp hrun
  obtain ⟨a, ha⟩ := Option.isSome_iff_exists.mp hget
  have hroot : (RoadmapCore.Sample.spec [] []).phases.get? RoadmapCore.Sample.rootId =
      some RoadmapCore.Sample.root := by decide +kernel
  refine ⟨roadmap, a, h, ha, (ceilings_effective_iff h hroot ha Sample.owned).mpr fun _ => ?_⟩
  exact ⟨fun hempty => absurd hempty (by decide), empty_subset _, fun _ => rfl, fun _ => rfl,
    fun _ => rfl, fun _ => rfl⟩

/-- A child that works on the owner its parent inherits is refused. -/
theorem inherited_owner_refused :
    ∃ roadmap a, AdmittedRoadmap.compile (RoadmapCore.Sample.spec [] []) = .ok roadmap ∧
      (RoadmapCore.Sample.spec [] []).phases.get? RoadmapCore.Sample.leftId =
        some (RoadmapCore.Sample.leaf RoadmapCore.Sample.leftId []) ∧
      roadmap.phases.get? RoadmapCore.Sample.leftId = some a ∧ EffectiveWithin a Sample.owned ∧
      checkCeilings (RoadmapCore.Sample.leaf RoadmapCore.Sample.leftId []) Sample.owned =
        .error (.widenedCeiling Sample.owned.id "owners.mutable") := by
  have hrun : ((AdmittedRoadmap.compile (RoadmapCore.Sample.spec [] [])).map fun roadmap =>
      (roadmap.phases.get? RoadmapCore.Sample.leftId).map (·.effectiveOwners.mutable)) =
      .ok (some Sample.owned.owners.mutable) := by decide +kernel
  obtain ⟨roadmap, h, hget⟩ := Except.map_eq_ok_iff.mp hrun
  obtain ⟨a, ha, howners⟩ := Option.map_eq_some_iff.mp hget
  refine ⟨roadmap, a, h, by decide +kernel, ha, ⟨?_, ?_, ?_, ?_, ?_, ?_⟩, by decide +kernel⟩
  · rw [howners]
    exact SortedSet.subset_refl _
  · exact empty_subset _
  · exact empty_subset _
  · exact empty_subset _
  · exact empty_subset _
  · exact empty_subset _

end SimAgentNet.RoadmapRefine
