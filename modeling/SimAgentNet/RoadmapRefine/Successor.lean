import SimAgentNet.RoadmapCore.Exact
import SimAgentNet.RoadmapRefine.Apply

/-! # The successor of a refinement

The proposed children are put under their ids without a look at what is there. That nothing is
overwritten follows from the tree of the successor. -/

namespace SimAgentNet.RoadmapRefine

open RoadmapCore Relation

/-- The proposed children have different ids and name the parent. -/
structure ProposedBelow (parentId : PhaseId) (children : List PhaseSpec) : Prop where
  nodup : (children.map (·.id)).Nodup
  parent : ∀ child ∈ children, child.parent = some parentId

theorem checkChild_eq_ok_iff {parent child : PhaseSpec} {ids ids' : SortedSet PhaseId} :
    checkChild parentId parent grounding ids child = .ok ids' ↔
      child.id ∉ ids ∧ child.parent = some parentId ∧ checkCeilings parent child = .ok () ∧
        unresolved child grounding = [] ∧ ids' = ids.insert child.id := by
  simp only [checkChild, Except.guard_eq_ok_iff, Except.bind_eq_ok_iff, not_not]
  refine and_congr_right fun _ => and_congr_right fun _ => ?_
  constructor
  · rintro ⟨_, hceilings, h⟩
    split at h
    · cases h
    · rename_i hnone
      refine ⟨hceilings, List.filter_eq_nil_iff.mpr fun query hquery => ?_, (Except.ok.inj h).symm⟩
      exact List.find?_eq_none.mp hnone query hquery
  · rintro ⟨hceilings, hresolved, rfl⟩
    refine ⟨(), hceilings, ?_⟩
    have hnone : child.guide.uses.find? (¬· ∈ grounding.resolved) = none :=
      List.find?_eq_none.mpr (List.filter_eq_nil_iff.mp hresolved)
    rw [hnone]
    rfl

/-- What the checks of the children guarantee. -/
theorem checked_children {parent : PhaseSpec} {children : List PhaseSpec}
    {ids ids' : SortedSet PhaseId}
    (h : children.foldlM (checkChild parentId parent grounding) ids = .ok ids') :
    ProposedBelow parentId children ∧ ∀ child ∈ children, child.id ∉ ids ∧
      checkCeilings parent child = .ok () ∧ unresolved child grounding = [] := by
  induction children generalizing ids with
  | nil => exact ⟨⟨.nil, List.forall_mem_nil _⟩, nofun⟩
  | cons child children ih =>
    obtain ⟨mid, hmid, h⟩ := Run.foldlM_cons_eq_ok_iff.mp h
    obtain ⟨hnew, hparent, hceilings, hresolved, rfl⟩ := checkChild_eq_ok_iff.mp hmid
    obtain ⟨H, hall⟩ := ih h
    have hother (other) (hmem : other ∈ children) : other.id ≠ child.id ∧ other.id ∉ ids := by
      have hout := (hall other hmem).1
      rw [SortedSet.mem_insert, not_or] at hout
      exact hout
    refine ⟨⟨List.nodup_cons.mpr ⟨fun hmem => ?_, H.nodup⟩,
      List.forall_mem_cons.mpr ⟨hparent, H.parent⟩⟩,
      List.forall_mem_cons.mpr ⟨⟨hnew, hceilings, hresolved⟩, fun other hmem => ?_⟩⟩
    · obtain ⟨other, hin, heq⟩ := List.mem_map.mp hmem
      exact (hother other hin).1 heq
    · exact ⟨(hother other hmem).2, (hall other hmem).2⟩

/-! ## Its phases -/

section
variable {children : List PhaseSpec} {m : SortedMap PhaseId PhaseSpec}

theorem get?_insertAll_of_not_mem (h : k ∉ children.map (·.id)) :
    (children.foldl (fun phases child => phases.insert child.id child) m).get? k = m.get? k := by
  induction children generalizing m with
  | nil => rfl
  | cons child children ih =>
    rw [List.map_cons, List.mem_cons, not_or] at h
    rw [List.foldl_cons, ih h.2, SortedMap.get?_insert_ne _ _ h.1]

theorem get?_insertAll_of_mem {child : PhaseSpec} (hnodup : (children.map (·.id)).Nodup)
    (h : child ∈ children) :
    (children.foldl (fun phases child => phases.insert child.id child) m).get? child.id =
      some child := by
  induction children generalizing m with
  | nil => cases h
  | cons first children ih =>
    rw [List.map_cons, List.nodup_cons] at hnodup
    rw [List.foldl_cons]
    obtain rfl | h := List.mem_cons.mp h
    · rw [get?_insertAll_of_not_mem hnodup.1, SortedMap.get?_insert_self]
    · exact ih hnodup.2 h

end

/-- The parent as a composite phase. -/
def composed (parent : PhaseSpec) (children : List PhaseSpec) (coverage : List ObligationCoverage) :
    PhaseSpec :=
  { parent with body := .composite (children.map (·.id)), coverage }

section
variable {base : RoadmapSpec} {parentId : PhaseId} {parent : PhaseSpec} {children : List PhaseSpec}
  {coverage : List ObligationCoverage}

/-- Two keys of the successor: the proposed children, and what was there before. -/
theorem get?_successor_child (H : ProposedBelow parentId children) {child : PhaseSpec}
    (h : child ∈ children) :
    (successorSpec base parentId parent children coverage).phases.get? child.id = some child :=
  get?_insertAll_of_mem H.nodup h

theorem get?_successor_other (h : k ∉ children.map (·.id)) :
    (successorSpec base parentId parent children coverage).phases.get? k =
      if k = parentId then some (composed parent children coverage) else base.phases.get? k := by
  rw [successorSpec, get?_insertAll_of_not_mem h]
  by_cases heq : k = parentId
  · rw [if_pos heq, heq, SortedMap.get?_insert_self, composed]
  · rw [if_neg heq, SortedMap.get?_insert_ne _ _ heq]

theorem successor_ownKeys (hown : base.OwnKeys) (hparent : base.phases.get? parentId = some parent)
    (H : ProposedBelow parentId children) :
    (successorSpec base parentId parent children coverage).OwnKeys := by
  intro k phase hk
  by_cases hchild : k ∈ children.map (·.id)
  · obtain ⟨child, hmem, rfl⟩ := List.mem_map.mp hchild
    cases (get?_successor_child H hmem).symm.trans hk
    rfl
  · rw [get?_successor_other hchild] at hk
    split at hk
    · rename_i heq
      cases hk
      exact heq ▸ hown parentId parent hparent
    · exact hown k phase hk

end

/-! ## Its tree -/

/-- The parent that a phase names is the one that lists it. -/
theorem child_iff_parent {spec : RoadmapSpec} {tree : Tree} (hvalid : Tree.Valid spec tree)
    (hown : spec.OwnKeys) (hk : spec.phases.get? k = some phase) :
    spec.Child q k ↔ phase.parent = some q := by
  have hdeclared {a} (hc : spec.Child a k) : phase.parent = some a := by
    obtain ⟨above, habove, hmem⟩ := hc
    obtain ⟨below, hbelow, hparent⟩ := hvalid.child habove hmem
    cases hk.symm.trans hbelow
    rw [hparent, hown a above habove]
  refine ⟨hdeclared, fun hparent => ?_⟩
  obtain heq | ⟨a, -, hc⟩ := ReflTransGen.cases_tail (hvalid.reach hk)
  · obtain ⟨root, hroot, hnone⟩ := hvalid.root
    rw [← heq, hk] at hroot
    cases hroot
    exact nomatch hnone.symm.trans hparent
  · cases hparent.symm.trans (hdeclared hc)
    exact hc

section
variable {base : RoadmapSpec} {parentId : PhaseId} {parent : PhaseSpec} {children : List PhaseSpec}
  {coverage : List ObligationCoverage} {tree tree' : Tree}

/-- What is known when a proposal has been applied: the trees before and after are valid, and the
phase that is refined was a leaf. -/
structure Refined (base : RoadmapSpec) (parentId : PhaseId) (parent : PhaseSpec)
    (children : List PhaseSpec) (coverage : List ObligationCoverage) (tree tree' : Tree) : Prop where
  valid : Tree.Valid base tree
  found : base.phases.get? parentId = some parent
  leaf : parent.body.children = []
  below : ProposedBelow parentId children
  valid' : Tree.Valid (successorSpec base parentId parent children coverage) tree'
  own : (successorSpec base parentId parent children coverage).OwnKeys

/-- The refined phase is not one of the children. -/
theorem parent_not_child (H : ProposedBelow parentId children)
    (hvalid : Tree.Valid (successorSpec base parentId parent children coverage) tree')
    (hown : (successorSpec base parentId parent children coverage).OwnKeys) :
    parentId ∉ children.map (·.id) := by
  intro hmem
  obtain ⟨child, hchild, heq⟩ := List.mem_map.mp hmem
  have hget := @get?_successor_child base _ parent _ coverage H child hchild
  rw [heq] at hget
  have hloop := (child_iff_parent hvalid hown hget).mpr (H.parent child hchild)
  exact hvalid.rooted.not_loop (hvalid.reach hget) (.single hloop)

namespace Refined

theorem get?_parent (R : Refined base parentId parent children coverage tree tree') :
    (successorSpec base parentId parent children coverage).phases.get? parentId =
      some (composed parent children coverage) := by
  rw [get?_successor_other (parent_not_child R.below R.valid' R.own), if_pos rfl]

/-- No phase of the base is overwritten by a child. By induction along the tree of the base: the
phase that lists it is not overwritten, so that it would have two parents. -/
theorem fresh (R : Refined base parentId parent children coverage tree tree')
    (hk : base.phases.get? k = some phase) : k ∉ children.map (·.id) := by
  have hreach := R.valid.reach hk
  clear hk
  induction hreach with
  | refl =>
    intro hmem
    obtain ⟨child, hchild, heq⟩ := List.mem_map.mp hmem
    obtain ⟨root, hroot, hnone⟩ := R.valid'.root
    have hget := @get?_successor_child base _ parent _ coverage R.below child hchild
    rw [heq] at hget
    cases hroot.symm.trans hget
    exact nomatch hnone.symm.trans (R.below.parent child hchild)
  | @tail a k _ hc ih =>
    intro hmem
    obtain ⟨child, hchild, rfl⟩ := List.mem_map.mp hmem
    obtain ⟨above, habove, hlisted⟩ := hc
    have hne : a ≠ parentId := by
      rintro rfl
      cases R.found.symm.trans habove
      rw [R.leaf] at hlisted
      cases hlisted
    have hget : (successorSpec base parentId parent children coverage).phases.get? a =
        some above := by
      rw [get?_successor_other ih, if_neg hne, habove]
    have hparent := (child_iff_parent R.valid' R.own (get?_successor_child R.below hchild)).mpr
      (R.below.parent child hchild)
    exact hne (R.valid'.unique ⟨above, hget, hlisted⟩ hparent)

theorem get?_child_base (R : Refined base parentId parent children coverage tree tree')
    {child : PhaseSpec} (hchild : child ∈ children) : base.phases.get? child.id = none := by
  cases hget : base.phases.get? child.id with
  | none => rfl
  | some phase => exact absurd (List.mem_map_of_mem hchild) (R.fresh hget)

/-- A phase below a child would name the child, which nothing but another child can do. -/
theorem child_leaf (R : Refined base parentId parent children coverage tree tree')
    {child : PhaseSpec} (hchild : child ∈ children) : child.body.children = [] := by
  rw [List.eq_nil_iff_forall_not_mem]
  intro d hd
  have hget := @get?_successor_child base _ parent _ coverage R.below child hchild
  obtain ⟨below, hbelow, hparent⟩ := R.valid'.child hget hd
  have hunknown {phase q} (hphase : base.phases.get? q = some phase)
      (hnames : phase.parent = some child.id) : False := by
    have hknown := R.valid.parent hphase hnames
    obtain ⟨_, hbase⟩ := SortedMap.contains_iff.mp hknown
    exact nomatch (R.get?_child_base hchild).symm.trans hbase
  by_cases hmem : d ∈ children.map (·.id)
  · obtain ⟨other, hother, rfl⟩ := List.mem_map.mp hmem
    cases (get?_successor_child R.below hother).symm.trans hbelow
    have heq : parentId = child.id :=
      Option.some.inj ((R.below.parent below hother).symm.trans hparent)
    exact parent_not_child R.below R.valid' R.own (heq ▸ List.mem_map_of_mem hchild)
  · rw [get?_successor_other hmem] at hbelow
    split at hbelow
    · cases hbelow
      exact hunknown R.found hparent
    · exact hunknown hbelow hparent

end Refined

end

end SimAgentNet.RoadmapRefine
