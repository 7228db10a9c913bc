import SimAgentNet.Data.Keyed
import SimAgentNet.RoadmapCore.Panics

/-! # Coverage of obligations

What the loops over the coverage of a composite phase accept, and what an admitted roadmap knows
about each of its composite phases. -/

namespace SimAgentNet.RoadmapCore

/-- The obligation of the parent that a marker is about. -/
def ObligationCoverage.parent : ObligationCoverage → ObligationId
  | .retainedAtParent parent => parent
  | .contributes parent _ _ => parent

/-- What a marker says about that obligation. -/
def ObligationCoverage.disposition : ObligationCoverage → ObligationDisposition
  | .retainedAtParent _ => .retainedAtParent
  | .contributes _ phase child => .child phase child

/-- A contribution is by an obligation that the phase authors. -/
def ObligationCoverage.Authored (spec : RoadmapSpec) (children : List PhaseId) :
    ObligationCoverage → Prop
  | .retainedAtParent _ => True
  | .contributes _ phase child => phase ∈ children ∧
      ∃ contract, spec.contract phase = some contract ∧ contract.statements.contains child = true

section
variable {spec : RoadmapSpec} {acceptance : AcceptanceContract} {children : List PhaseId}
  {markers : List ObligationCoverage} {parentId : PhaseId} {path : CausalPath}
  {accepted : List (PhaseId × AcceptanceContract)}
  {m m' : SortedMap ObligationId ObligationDisposition}

theorem mem_accepted
    (h : children.mapM (fun id => do return (id, (← index spec.phases id).acceptance)) =
      Except.ok (ε := Halt) accepted) :
    ∀ row, row ∈ accepted ↔ row.1 ∈ children ∧ spec.contract row.1 = some row.2 := by
  induction children generalizing accepted with
  | nil =>
    cases h
    exact fun row => by simp
  | cons child children ih =>
    simp only [List.mapM_cons, Except.bind_eq_ok_iff, index_eq_ok_iff] at h
    obtain ⟨row, ⟨phase, hphase, hrow⟩, rest, hrest, h⟩ := h
    cases hrow
    cases h
    have hcontract : spec.contract child = some phase.acceptance := by
      rw [RoadmapSpec.contract, hphase]
      rfl
    intro row
    rw [List.mem_cons, List.mem_cons, ih hrest]
    constructor
    · rintro (rfl | ⟨hin, heq⟩)
      · exact ⟨.inl rfl, hcontract⟩
      · exact ⟨.inr hin, heq⟩
    · rintro ⟨heq | hin, hrow⟩
      · left
        rw [heq, hcontract] at hrow
        exact Prod.ext heq (Option.some.inj hrow).symm
      · exact .inr ⟨hin, hrow⟩

/-- The map of contracts has those of the children. -/
theorem get?_acceptanceMap
    (h : ∀ row, row ∈ accepted ↔ row.1 ∈ children ∧ spec.contract row.1 = some row.2)
    {contract : AcceptanceContract} : (acceptanceMap accepted).get? k = some contract ↔
      k ∈ children ∧ spec.contract k = some contract := by
  rw [acceptanceMap, Keyed.get?_ofList_iff]
  constructor
  · exact fun hl => (h _).mp hl.mem
  · intro hin
    obtain ⟨⟨k', contract'⟩, hl⟩ : ∃ row, Keyed.Latest (· = k) accepted row :=
      Keyed.exists_latest ((h (k, contract)).mpr hin) rfl
    have hk : k' = k := hl.holds
    rw [hk] at hl
    have heq : some contract = some contract' := hin.2.symm.trans ((h _).mp hl.mem).2
    cases heq
    exact hl

theorem disposition_eq_ok_iff
    (h : ∀ row, row ∈ accepted ↔ row.1 ∈ children ∧ spec.contract row.1 = some row.2)
    {marker : ObligationCoverage} :
    disposition parentId children (acceptanceMap accepted) path marker = .ok row ↔
      marker.Authored spec children ∧ row = (marker.parent, marker.disposition) := by
  cases marker with
  | retainedAtParent parent =>
    exact ⟨fun heq => ⟨trivial, (Except.ok.inj heq).symm⟩, fun ⟨_, heq⟩ => congrArg Except.ok heq.symm⟩
  | contributes parent phase child =>
    simp only [disposition, Except.guard_eq_ok_iff, Except.bind_eq_ok_iff, index_eq_ok_iff,
      get?_acceptanceMap h, not_not]
    constructor
    · rintro ⟨hin, contract, ⟨-, hcontract⟩, hchild, hrow⟩
      exact ⟨⟨hin, contract, hcontract, by simpa using hchild⟩, (Except.ok.inj hrow).symm⟩
    · rintro ⟨⟨hin, contract, hcontract, hchild⟩, rfl⟩
      exact ⟨hin, contract, ⟨hin, hcontract⟩, by simpa using hchild, rfl⟩

theorem coverMarker_eq_ok_iff
    (h : ∀ row, row ∈ accepted ↔ row.1 ∈ children ∧ spec.contract row.1 = some row.2)
    {marker : ObligationCoverage} :
    coverMarker parentId acceptance children (acceptanceMap accepted) path m marker = .ok m' ↔
      marker.Authored spec children ∧ acceptance.statements.contains marker.parent = true ∧
        m.contains marker.parent = false ∧ m' = m.insert marker.parent marker.disposition := by
  simp only [coverMarker, Except.bind_eq_ok_iff, disposition_eq_ok_iff h, Except.guard_eq_ok_iff]
  constructor
  · rintro ⟨_, ⟨hauthored, rfl⟩, hknown, hnew, heq⟩
    exact ⟨hauthored, by simpa using hknown, by simpa using hnew, (Except.ok.inj heq).symm⟩
  · rintro ⟨hauthored, hknown, hnew, rfl⟩
    exact ⟨_, ⟨hauthored, rfl⟩, by simpa using hknown, by simpa using hnew, rfl⟩

/-- What the loop over the markers accepts, and the dispositions it ends with. -/
structure Covers (spec : RoadmapSpec) (acceptance : AcceptanceContract) (children : List PhaseId)
    (m : SortedMap ObligationId ObligationDisposition) (markers : List ObligationCoverage)
    (m' : SortedMap ObligationId ObligationDisposition) : Prop where
  authored : ∀ marker ∈ markers, marker.Authored spec children
  known : ∀ marker ∈ markers, acceptance.statements.contains marker.parent = true
  new : ∀ marker ∈ markers, m.contains marker.parent = false
  nodup : (markers.map (·.parent)).Nodup
  get? : m'.get? o = some d ↔
    m.get? o = some d ∨ ∃ marker ∈ markers, marker.parent = o ∧ marker.disposition = d

theorem covers_of_foldlM
    (h : ∀ row, row ∈ accepted ↔ row.1 ∈ children ∧ spec.contract row.1 = some row.2)
    (hrun : markers.foldlM (coverMarker parentId acceptance children (acceptanceMap accepted) path)
      m = .ok m') : Covers spec acceptance children m markers m' := by
  induction markers generalizing m with
  | nil =>
    cases hrun
    exact ⟨nofun, nofun, nofun, .nil, by simp⟩
  | cons marker markers ih =>
    obtain ⟨mid, hmid, hrun⟩ := Run.foldlM_cons_eq_ok_iff.mp hrun
    obtain ⟨hauthored, hknown, hnew, rfl⟩ := (coverMarker_eq_ok_iff h).mp hmid
    have H := ih hrun
    have hother (other) (hmem : other ∈ markers) :
        other.parent ≠ marker.parent ∧ m.contains other.parent = false := by
      have hfresh := H.new other hmem
      rw [← Bool.not_eq_true, SortedMap.contains_iff] at hfresh ⊢
      simp only [SortedMap.get?_insert] at hfresh
      by_cases heq : other.parent = marker.parent
      · exact absurd ⟨_, if_pos heq⟩ hfresh
      · exact ⟨heq, by simpa [heq] using hfresh⟩
    refine ⟨List.forall_mem_cons.mpr ⟨hauthored, H.authored⟩,
      List.forall_mem_cons.mpr ⟨hknown, H.known⟩,
      List.forall_mem_cons.mpr ⟨hnew, fun other hmem => (hother other hmem).2⟩,
      List.nodup_cons.mpr ⟨fun hmem => ?_, H.nodup⟩, fun {o d} => ?_⟩
    · obtain ⟨other, hin, heq⟩ := List.mem_map.mp hmem
      exact (hother other hin).1 heq
    · rw [H.get?, SortedMap.get?_insert, List.exists_mem_cons_iff, ← or_assoc]
      refine or_congr_left ?_
      have hnone : m.get? marker.parent = none := by
        rw [← Bool.not_eq_true, SortedMap.contains_iff, not_exists] at hnew
        exact Option.eq_none_iff_forall_ne_some.mpr hnew
      by_cases heq : o = marker.parent
      · rw [if_pos heq, heq, hnone]
        simp
      · rw [if_neg heq]
        simp [Ne.symm heq]

theorem foldlM_of_covers
    (h : ∀ row, row ∈ accepted ↔ row.1 ∈ children ∧ spec.contract row.1 = some row.2)
    (hauthored : ∀ marker ∈ markers, marker.Authored spec children)
    (hknown : ∀ marker ∈ markers, acceptance.statements.contains marker.parent = true)
    (hnew : ∀ marker ∈ markers, m.contains marker.parent = false)
    (hnodup : (markers.map (·.parent)).Nodup) :
    ∃ m', markers.foldlM (coverMarker parentId acceptance children (acceptanceMap accepted) path)
      m = .ok m' := by
  induction markers generalizing m with
  | nil => exact ⟨m, rfl⟩
  | cons marker markers ih =>
    rw [List.forall_mem_cons] at hauthored hknown hnew
    rw [List.map_cons, List.nodup_cons] at hnodup
    obtain ⟨m', hrun⟩ := ih (m := m.insert marker.parent marker.disposition) hauthored.2 hknown.2
      (fun other hmem => by
        have hne : other.parent ≠ marker.parent :=
          fun heq => hnodup.1 (heq ▸ List.mem_map_of_mem hmem)
        rw [← Bool.not_eq_true, SortedMap.contains_iff, SortedMap.get?_insert_ne _ _ hne,
          ← SortedMap.contains_iff, Bool.not_eq_true]
        exact hnew.2 other hmem) hnodup.2
    exact ⟨m', Run.foldlM_cons_eq_ok_iff.mpr
      ⟨_, (coverMarker_eq_ok_iff h).mpr ⟨hauthored.1, hknown.1, hnew.1, rfl⟩, hrun⟩⟩

theorem mem_traced {c : PhaseId} {o : ObligationId} :
    (c, o) ∈ traced markers ↔ ∃ parent, ObligationCoverage.contributes parent c o ∈ markers := by
  rw [traced, List.mem_filterMap]
  constructor
  · rintro ⟨marker, hmem, heq⟩
    cases marker with
    | retainedAtParent => cases heq
    | contributes parent phase child =>
      cases heq
      exact ⟨parent, hmem⟩
  · rintro ⟨parent, hmem⟩
    exact ⟨_, hmem, rfl⟩

theorem mem_childObligations
    (h : ∀ row, row ∈ accepted ↔ row.1 ∈ children ∧ spec.contract row.1 = some row.2)
    {c : PhaseId} {o : ObligationId} : (c, o) ∈ childObligations (acceptanceMap accepted) ↔
      c ∈ children ∧ ∃ contract, spec.contract c = some contract ∧
        contract.statements.contains o = true := by
  simp only [childObligations, List.mem_flatMap, List.mem_map, Prod.mk.injEq]
  constructor
  · rintro ⟨⟨c', contract⟩, hrow, o', ho, rfl, rfl⟩
    obtain ⟨hin, hcontract⟩ := (get?_acceptanceMap h).mp (SortedMap.get?_eq_some_iff.mpr hrow)
    exact ⟨hin, contract, hcontract, SortedMap.contains_iff_mem_keys.mpr ho⟩
  · rintro ⟨hin, contract, hcontract, ho⟩
    exact ⟨(c, contract), SortedMap.get?_eq_some_iff.mp ((get?_acceptanceMap h).mpr ⟨hin, hcontract⟩),
      o, SortedMap.contains_iff_mem_keys.mp ho, rfl, rfl⟩

/-- The coverage of a composite phase is accepted. -/
structure Covered (spec : RoadmapSpec) (phase : PhaseSpec) (acceptance : AcceptanceContract) :
    Prop where
  authored : ∀ marker ∈ phase.coverage, marker.Authored spec phase.body.children
  known : ∀ marker ∈ phase.coverage, acceptance.statements.contains marker.parent = true
  nodup : (phase.coverage.map (·.parent)).Nodup
  kept : ∀ o ∈ acceptance.statements.keys, o ∈ phase.coverage.map (·.parent)
  traced : c ∈ phase.body.children → spec.contract c = some contract →
    contract.statements.contains o = true →
      ∃ parent, ObligationCoverage.contributes parent c o ∈ phase.coverage

theorem covered_of_validateCoverage {phase : PhaseSpec}
    (hphase : spec.phases.get? parentId = some phase) (hbody : phase.body = .composite children)
    (hrun : validateCoverage spec parentId acceptance = .ok m) :
    Covered spec phase acceptance ∧ ∀ o d, m.get? o = some d ↔
      ∃ marker ∈ phase.coverage, marker.parent = o ∧ marker.disposition = d := by
  simp only [validateCoverage, Except.bind_eq_ok_iff, index_eq_ok_iff] at hrun
  obtain ⟨phase', hphase', hrun⟩ := hrun
  cases hphase.symm.trans hphase'
  rw [hbody] at hrun
  simp only [Except.bind_eq_ok_iff, index_eq_ok_iff] at hrun
  obtain ⟨tree, -, path, -, accepted, haccepted, dispositions, hcover, hrun⟩ := hrun
  have h := mem_accepted (by simpa using haccepted)
  have H := covers_of_foldlM h hcover
  have hget (o d) : dispositions.get? o = some d ↔
      ∃ marker ∈ phase.coverage, marker.parent = o ∧ marker.disposition = d := by
    rw [H.get?]
    simp
  have hchildren : phase.body.children = children := by rw [hbody]; rfl
  split at hrun
  · cases hrun
  · rename_i hkept
    split at hrun
    · cases hrun
    · rename_i htraced
      cases hrun
      refine ⟨⟨hchildren ▸ H.authored, H.known, H.nodup, fun o ho => ?_, fun {c contract o} hc hcontract ho => ?_⟩, hget⟩
      · have hdisposed := List.find?_eq_none.mp hkept o ho
        rw [Bool.not_eq_true', Bool.not_eq_false, SortedMap.contains_iff] at hdisposed
        obtain ⟨d, hd⟩ := hdisposed
        obtain ⟨marker, hmem, rfl, -⟩ := (hget o d).mp hd
        exact List.mem_map_of_mem hmem
      · have hmem := (mem_childObligations h).mpr ⟨hchildren ▸ hc, contract, hcontract, ho⟩
        have hin := List.find?_eq_none.mp htraced _ hmem
        exact mem_traced.mp (by simpa using hin)

theorem validateCoverage_of_covered {phase : PhaseSpec} (ht : Tree.Complete spec tree)
    (hphase : spec.phases.get? parentId = some phase) (C : Covered spec phase acceptance) :
    ∃ m, validateCoverage spec parentId acceptance = .ok m := by
  rw [validateCoverage, index_eq_ok_iff.mpr hphase, Except.ok_bind]
  cases hbody : phase.body with
  | leaf checkpoints => exact ⟨∅, rfl⟩
  | composite children =>
    obtain ⟨path, hpath⟩ := SortedMap.mem_keys_iff.mp
      (ht.paths.mpr (SortedMap.mem_keys_iff.mpr ⟨phase, hphase⟩))
    have hchildren : phase.body.children = children := by rw [hbody, PhaseBody.children]
    obtain ⟨hauthored, hknown, hnodup, hkept, htraced⟩ := C
    rw [hchildren] at hauthored htraced
    obtain ⟨accepted, haccepted⟩ : ∃ accepted, children.mapM (fun id => do
        return (id, (← index spec.phases id).acceptance)) = Except.ok (ε := Halt) accepted := by
      cases hrun : children.mapM fun id => do
          return (id, (← index spec.phases id).acceptance) with
      | ok accepted => exact ⟨accepted, rfl⟩
      | error e =>
        obtain ⟨c, hc, hbad⟩ := Except.mapM_eq_error hrun
        obtain ⟨below, hbelow, -⟩ := ht.valid.child hphase (hchildren ▸ hc)
        rw [index_eq_ok_iff.mpr hbelow] at hbad
        cases hbad
    have h := mem_accepted haccepted
    obtain ⟨m, hm⟩ := @foldlM_of_covers spec acceptance children phase.coverage parentId path
      accepted ∅ h hauthored hknown (fun _ _ => rfl) hnodup
    have hcovers := covers_of_foldlM h hm
    have hdropped : acceptance.statements.keys.find? (!m.contains ·) = none := by
      refine List.find?_eq_none.mpr fun o ho => ?_
      obtain ⟨marker, hmem, heq⟩ := List.mem_map.mp (hkept o ho)
      rw [Bool.not_eq_true', Bool.not_eq_false, SortedMap.contains_iff]
      exact ⟨_, hcovers.get?.mpr (.inr ⟨marker, hmem, heq, rfl⟩)⟩
    have hlost : (childObligations (acceptanceMap accepted)).find? (¬· ∈ traced phase.coverage) =
        none := by
      refine List.find?_eq_none.mpr fun row hrow => ?_
      obtain ⟨hc, contract, hcontract, ho⟩ := (mem_childObligations h).mp hrow
      have hmem := mem_traced.mpr (htraced hc hcontract ho)
      simpa using hmem
    refine ⟨m, ?_⟩
    simp only [ht.validated, Except.ok_bind, index_eq_ok_iff.mpr hpath, haccepted, hm, hdropped,
      hlost]
    rfl

end

/-! ## Admitted roadmaps -/

section
variable {spec : RoadmapSpec} {tree : Tree} {parent : Option (PhaseId × AdmittedPhase)}
  {admitted admitted' : SortedMap PhaseId AdmittedPhase}

/-- The admitted form has the dispositions of the phase's coverage. -/
def Disposed (spec : RoadmapSpec) (admitted : SortedMap PhaseId AdmittedPhase) : Prop :=
  ∀ k a, admitted.get? k = some a → ∃ phase, spec.phases.get? k = some phase ∧
    validateCoverage spec k phase.acceptance = .ok a.acceptance.coverage

theorem coverage_of_admitPhase (h : admitPhase spec k phase path parent = .ok a) :
    validateCoverage spec k phase.acceptance = .ok a.acceptance.coverage := by
  cases parent with
  | none =>
    obtain ⟨coverage, hcoverage, rfl⟩ := Except.map_eq_ok_iff.mp h
    exact hcoverage
  | some above =>
    simp only [admitPhase, admitBelow, Except.bind_eq_ok_iff] at h
    obtain ⟨_, -, _, -, _, -, _, -, _, -, coverage, hcoverage, heq⟩ := h
    cases heq
    exact hcoverage

theorem compilePhase_disposed (hd : Disposed spec admitted)
    (h : compilePhase spec tree fuel k parent admitted = .ok admitted') : Disposed spec admitted' := by
  induction fuel generalizing k parent admitted admitted' with
  | zero => cases h
  | succ fuel ih =>
    simp only [compilePhase, Except.bind_eq_ok_iff, index_eq_ok_iff] at h
    obtain ⟨phase, hphase, path, -, current, hcurrent, h⟩ := h
    refine Run.keeps (P := Disposed spec) (fun child _ u u' hu hstep => ih hu hstep) ?_ h
    intro c a hc
    rw [SortedMap.get?_insert] at hc
    split at hc
    · rename_i heq
      cases hc
      exact ⟨phase, heq ▸ hphase, heq ▸ coverage_of_admitPhase hcurrent⟩
    · exact hd c a hc

theorem disposed_of_compile (h : AdmittedRoadmap.compile spec = .ok roadmap) :
    Disposed spec roadmap.phases := by
  simp only [AdmittedRoadmap.compile, Except.bind_eq_ok_iff] at h
  obtain ⟨tree, -, _, -, phases, hphases, hroadmap⟩ := h
  cases hroadmap
  exact compilePhase_disposed (fun k a hk => absurd hk (by simp)) hphases

/-- Every obligation of the phase has one marker and the disposition it gives, contributions are by
obligations that direct children author, and each of those contributes. -/
structure CompleteCoverage (spec : RoadmapSpec) (phase : PhaseSpec)
    (coverage : SortedMap ObligationId ObligationDisposition) : Prop where
  once : phase.acceptance.statements.contains o = true →
    ∃ marker, phase.coverage.filter (·.parent = o) = [marker] ∧
      coverage.get? o = some marker.disposition
  own : coverage.get? o = some d → phase.acceptance.statements.contains o = true
  authored {parent : ObligationId} : ObligationCoverage.contributes parent c o ∈ phase.coverage →
    c ∈ phase.body.children ∧ ∃ below, spec.phases.get? c = some below ∧
      below.acceptance.statements.contains o = true
  traced : c ∈ phase.body.children → spec.phases.get? c = some below →
    below.acceptance.statements.contains o = true →
      ∃ parent, phase.acceptance.statements.contains parent = true ∧
        coverage.get? parent = some (.child c o)

theorem Covered.once {phase : PhaseSpec} (H : Covered spec phase acceptance)
    (ho : acceptance.statements.contains o = true) :
    ∃ marker, phase.coverage.filter (·.parent = o) = [marker] := by
  obtain ⟨marker, hmem, heq⟩ := List.mem_map.mp (H.kept o (SortedMap.contains_iff_mem_keys.mp ho))
  refine ⟨marker, ?_⟩
  obtain ⟨before, after, hsplit⟩ := List.append_of_mem hmem
  have hnodup := H.nodup
  rw [hsplit, List.map_append, List.map_cons, List.nodup_middle, List.nodup_cons,
    List.mem_append, not_or] at hnodup
  have hnone (others : List ObligationCoverage) (hothers : marker.parent ∉ others.map (·.parent)) :
      others.filter (·.parent = o) = [] := by
    rw [List.filter_eq_nil_iff]
    intro other hin hother
    refine hothers (List.mem_map.mpr ⟨other, hin, ?_⟩)
    exact (of_decide_eq_true hother).trans heq.symm
  rw [hsplit, List.filter_append, List.filter_cons_of_pos (by simpa using heq),
    hnone before hnodup.1.1, hnone after hnodup.1.2]
  rfl

/-- In an admitted roadmap the coverage of every composite phase is complete both ways. -/
theorem coverage_complete (h : AdmittedRoadmap.compile spec = .ok roadmap)
    (hphase : spec.phases.get? k = some phase) (hbody : phase.body = .composite children) :
    ∃ a, roadmap.phases.get? k = some a ∧ CompleteCoverage spec phase a.acceptance.coverage := by
  obtain ⟨tree, hadmitted⟩ := admitted_of_compile h
  obtain ⟨a, ha⟩ := SortedMap.mem_keys_iff.mp
    (hadmitted.keys.mpr (SortedMap.mem_keys_iff.mpr ⟨phase, hphase⟩))
  obtain ⟨phase', hphase', hrun⟩ := disposed_of_compile h k a ha
  cases hphase.symm.trans hphase'
  obtain ⟨H, hget⟩ := covered_of_validateCoverage hphase hbody hrun
  refine ⟨a, ha, ?_, ?_, ?_, ?_⟩
  · intro o ho
    obtain ⟨marker, hmarker⟩ := H.once ho
    have hmem : marker ∈ phase.coverage.filter (·.parent = o) := hmarker ▸ List.mem_singleton_self _
    obtain ⟨hmem, hparent⟩ := List.mem_filter.mp hmem
    exact ⟨marker, hmarker, (hget o _).mpr ⟨marker, hmem, of_decide_eq_true hparent, rfl⟩⟩
  · intro o d hd
    obtain ⟨marker, hmem, rfl, -⟩ := (hget o d).mp hd
    exact H.known marker hmem
  · intro parent c o hmem
    obtain ⟨hc, contract, hcontract, ho⟩ := H.authored _ hmem
    obtain ⟨below, hbelow, rfl⟩ := Option.map_eq_some_iff.mp hcontract
    exact ⟨hc, below, hbelow, ho⟩
  · intro c below o hc hbelow ho
    have hcontract : spec.contract c = some below.acceptance := by
      rw [RoadmapSpec.contract, hbelow]
      rfl
    obtain ⟨parent, hmem⟩ := H.traced hc hcontract ho
    exact ⟨parent, H.known _ hmem, (hget _ _).mpr ⟨_, hmem, rfl, rfl⟩⟩

end

/-! ## An obligation that a leaf contributes to -/

namespace Sample

def statement (o : ObligationId) : AcceptanceStatement where
  obligation := o
  subject := .symbol (.new "work")
  predicate := .new "done"
  object := .symbol (.new "yes")
  supportingRefs := []

/-- A contract with one obligation. -/
def contract (o : ObligationId) : AcceptanceContract := ⟨.all, SortedMap.insert ∅ o (statement o)⟩

def goal : ObligationId := textId "goal"
def part : ObligationId := textId "part"

def coveredRoot : PhaseSpec :=
  { root with acceptance := contract goal, coverage := [.contributes goal leftId part] }

/-- The left leaf contributes to the obligation of the root. -/
def coveredSpec : RoadmapSpec :=
  { spec [] [] with
    phases := ((SortedMap.insert ∅ rootId coveredRoot).insert leftId
      { leaf leftId [] with acceptance := contract part }).insert rightId (leaf rightId []) }

end Sample

theorem coverage_complete_left :
    ∃ roadmap a, AdmittedRoadmap.compile Sample.coveredSpec = .ok roadmap ∧
      roadmap.phases.get? Sample.rootId = some a ∧
      CompleteCoverage Sample.coveredSpec Sample.coveredRoot a.acceptance.coverage := by
  have hrun : ((AdmittedRoadmap.compile Sample.coveredSpec).map fun _ => ()) = .ok () := by
    decide +kernel
  obtain ⟨roadmap, h, -⟩ := Except.map_eq_ok_iff.mp hrun
  have hroot : Sample.coveredSpec.phases.get? Sample.rootId = some Sample.coveredRoot := by
    decide +kernel
  obtain ⟨a, ha, hcoverage⟩ := coverage_complete h hroot rfl
  exact ⟨roadmap, a, h, ha, hcoverage⟩

end SimAgentNet.RoadmapCore
