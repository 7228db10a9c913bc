import SimAgentNet.RoadmapCore.Tree

/-! # Admission of a roadmap

The envelopes that a phase inherits or narrows on the way from the root, the coverage of its
obligations by its children, and the check for circular completion. -/

namespace SimAgentNet.RoadmapCore

open Relation

inductive ObligationDisposition where
  | child (phase : PhaseId) (obligation : ObligationId)
  | retainedAtParent
deriving DecidableEq

structure AggregateAcceptance where
  authored : AcceptanceContract
  inherited : List (PhaseId × AcceptanceContract)
  coverage : SortedMap ObligationId ObligationDisposition
deriving DecidableEq

structure AdmittedPhase where
  authoredOwners : OwnerEnvelope
  effectiveOwners : OwnerEnvelope
  authoredResources : ResourceEnvelope
  effectiveResources : ResourceEnvelope
  authoredCapabilities : CapabilityEnvelope
  effectiveCapabilities : CapabilityEnvelope
  authoredEffects : EffectEnvelope
  effectiveEffects : EffectEnvelope
  authoredChanges : ChangeEnvelope
  effectiveChanges : ChangeEnvelope
  acceptance : AggregateAcceptance
deriving DecidableEq

structure AdmittedRoadmap where
  phases : SortedMap PhaseId AdmittedPhase
deriving DecidableEq

/-! ## Inheritance -/

section
variable {k : IdKind}

/-- Refuses the first value of the child that the ancestor does not have. -/
def narrowed (ancestor child : SortedSet (TextId k)) (ancestorId childId : PhaseId)
    (field : String) (path : CausalPath) : Except Failure (SortedSet (TextId k)) :=
  match child.difference ancestor with
  | value :: _ => .error (.widening ancestorId childId field value.text path)
  | [] => .ok child

/-- An empty authored set inherits. -/
def patch (parent authored : SortedSet (TextId k)) : SortedSet (TextId k) :=
  if authored.elems.isEmpty then parent else authored

def narrowPatch (parent authored : SortedSet (TextId k)) (parentId id : PhaseId) (field : String)
    (path : CausalPath) : Except Failure (SortedSet (TextId k)) :=
  if authored.elems.isEmpty then .ok parent
  else narrowed parent authored parentId id field path

theorem narrowed_eq_ok_iff {ancestor child result : SortedSet (TextId k)} :
    narrowed ancestor child ancestorId childId field path = .ok result ↔
      child ⊆ ancestor ∧ result = child := by
  rw [← SortedSet.difference_eq_nil_iff]
  unfold narrowed
  cases child.difference ancestor with
  | nil => simp [eq_comm]
  | cons => simp

theorem narrowPatch_eq_ok_iff {parent authored result : SortedSet (TextId k)} :
    narrowPatch parent authored parentId childId field path = .ok result ↔
      authored ⊆ parent ∧ result = patch parent authored := by
  unfold narrowPatch patch
  split
  · rename_i hempty
    have hsub : authored ⊆ parent := by
      intro a ha
      rw [SortedSet.mem_def, List.isEmpty_iff.mp hempty] at ha
      cases ha
    constructor
    · intro h
      cases h
      exact ⟨hsub, rfl⟩
    · rintro ⟨-, rfl⟩
      rfl
  · exact narrowed_eq_ok_iff

theorem patch_subset {parent authored : SortedSet (TextId k)} (h : authored ⊆ parent) :
    patch parent authored ⊆ parent := by
  unfold patch
  split
  · exact SortedSet.subset_refl parent
  · exact h

end

def narrowedOwners (parent authored : OwnerEnvelope) (ancestorId childId : PhaseId)
    (path : CausalPath) : Except Failure Unit := do
  let _ ← narrowed parent.mutable authored.mutable ancestorId childId "owners.mutable" path
  let _ ← narrowed (parent.mutable ∪ parent.readOnly) authored.readOnly ancestorId childId
    "owners.read_only" path
  return

def acceptanceMap (items : List (PhaseId × AcceptanceContract)) :
    SortedMap PhaseId AcceptanceContract := .ofList items

/-! ## Coverage -/

/-- What a marker says about an obligation of the parent. -/
def disposition (parentId : PhaseId) (children : List PhaseId)
    (childAcceptance : SortedMap PhaseId AcceptanceContract) (path : CausalPath) :
    ObligationCoverage → Except Halt (ObligationId × ObligationDisposition)
  | .retainedAtParent parent => .ok (parent, .retainedAtParent)
  | .contributes parent phase child => do
    let invented := Halt.failure (.coverage "invented-child-obligation" parentId child path)
    if phase ∉ children then .error invented
    else
      let contract ← index childAcceptance phase
      if !contract.statements.contains child then .error invented
      else return (parent, .child phase child)

/-- One marker of the loop over the coverage. -/
def coverMarker (parentId : PhaseId) (acceptance : AcceptanceContract) (children : List PhaseId)
    (childAcceptance : SortedMap PhaseId AcceptanceContract) (path : CausalPath)
    (dispositions : SortedMap ObligationId ObligationDisposition) (marker : ObligationCoverage) :
    Except Halt (SortedMap ObligationId ObligationDisposition) := do
  let (parent, row) ← disposition parentId children childAcceptance path marker
  if !acceptance.statements.contains parent then
    .error (.failure (.coverage "unknown-parent-obligation" parentId parent path))
  else if dispositions.contains parent then
    .error (.failure (.coverage "duplicate-parent-coverage" parentId parent path))
  else return dispositions.insert parent row

/-- The child obligations that the markers name. -/
def traced (coverage : List ObligationCoverage) : List (PhaseId × ObligationId) :=
  coverage.filterMap fun
    | .contributes _ phase child => some (phase, child)
    | .retainedAtParent _ => none

/-- The obligations of the children, phase by phase. -/
def childObligations (childAcceptance : SortedMap PhaseId AcceptanceContract) :
    List (PhaseId × ObligationId) :=
  childAcceptance.entries.flatMap fun row => row.2.statements.keys.map fun o => (row.1, o)

def validateCoverage (spec : RoadmapSpec) (parentId : PhaseId) (acceptance : AcceptanceContract) :
    Except Halt (SortedMap ObligationId ObligationDisposition) := do
  let phase ← index spec.phases parentId
  match phase.body with
  | .leaf _ => return ∅
  | .composite children =>
    let tree ← Tree.validate spec
    let path ← index tree.paths parentId
    let accepted ← children.mapM fun id => return (id, (← index spec.phases id).acceptance)
    let childAcceptance := acceptanceMap accepted
    let dispositions ← phase.coverage.foldlM
      (coverMarker parentId acceptance children childAcceptance path) ∅
    match acceptance.statements.keys.find? (!dispositions.contains ·) with
    | some obligation =>
      .error (.failure (.coverage "dropped-parent-obligation" parentId obligation path))
    | none =>
      match (childObligations childAcceptance).find? (¬· ∈ traced phase.coverage) with
      | some (_, obligation) =>
        .error (.failure (.coverage "untraced-child-obligation" parentId obligation path))
      | none => return dispositions

/-! ## Compilation -/

/-- The admitted form of the root. -/
def admitRoot (phase : PhaseSpec)
    (coverage : SortedMap ObligationId ObligationDisposition) : AdmittedPhase where
  authoredOwners := phase.owners
  effectiveOwners := phase.owners
  authoredResources := phase.resources
  effectiveResources := phase.resources
  authoredCapabilities := phase.capabilities
  effectiveCapabilities := phase.capabilities
  authoredEffects := phase.effects
  effectiveEffects := phase.effects
  authoredChanges := phase.changes
  effectiveChanges := phase.changes
  acceptance := { authored := phase.acceptance, inherited := [], coverage }

/-- The admitted form of a phase below another one. -/
def admitBelow (parentId : PhaseId) (p : AdmittedPhase) (id : PhaseId) (phase : PhaseSpec)
    (path : CausalPath) (coverage : Except Halt (SortedMap ObligationId ObligationDisposition)) :
    Except Halt AdmittedPhase := do
  (narrowedOwners p.effectiveOwners phase.owners parentId id path).mapError .failure
  let resources ← (narrowPatch p.effectiveResources.resources phase.resources.resources parentId id
    "resources" path).mapError .failure
  let capabilities ← (narrowPatch p.effectiveCapabilities.capabilities
    phase.capabilities.capabilities parentId id "capabilities" path).mapError .failure
  let effects ← (narrowPatch p.effectiveEffects.effects phase.effects.effects parentId id
    "effects" path).mapError .failure
  let targets ← (narrowPatch p.effectiveChanges.targets phase.changes.targets parentId id
    "change-targets" path).mapError .failure
  let coverage ← coverage
  return {
    authoredOwners := phase.owners
    effectiveOwners := {
      mutable := patch p.effectiveOwners.mutable phase.owners.mutable
      readOnly := patch p.effectiveOwners.readOnly phase.owners.readOnly }
    authoredResources := phase.resources
    effectiveResources := ⟨resources⟩
    authoredCapabilities := phase.capabilities
    effectiveCapabilities := ⟨capabilities⟩
    authoredEffects := phase.effects
    effectiveEffects := ⟨effects⟩
    authoredChanges := phase.changes
    effectiveChanges := ⟨targets⟩
    acceptance := {
      authored := phase.acceptance
      inherited := p.acceptance.inherited ++ [(parentId, p.acceptance.authored)]
      coverage } }

/-- The admitted form of a phase, given that of its parent. -/
def admitPhase (spec : RoadmapSpec) (id : PhaseId) (phase : PhaseSpec) (path : CausalPath) :
    Option (PhaseId × AdmittedPhase) → Except Halt AdmittedPhase
  | some (parentId, p) =>
    admitBelow parentId p id phase path (validateCoverage spec id phase.acceptance)
  | none => (validateCoverage spec id phase.acceptance).map (admitRoot phase)

/-- Admits a phase and the phases below it; `fuel` bounds the depth. -/
def compilePhase (spec : RoadmapSpec) (tree : Tree) (fuel : Nat) (id : PhaseId)
    (parent : Option (PhaseId × AdmittedPhase)) (admitted : SortedMap PhaseId AdmittedPhase) :
    Except Halt (SortedMap PhaseId AdmittedPhase) :=
  match fuel with
  | 0 => .error .panicked
  | fuel + 1 => do
    let phase ← index spec.phases id
    let path ← index tree.paths id
    let current ← admitPhase spec id phase path parent
    phase.body.children.foldlM
      (fun admitted child => compilePhase spec tree fuel child (some (id, current)) admitted)
      (admitted.insert id current)

/-- The local phase that a dependency refers to. -/
def PhaseDependency.referenced : PhaseDependency → Option PhaseId
  | .requires (.local id) => some id
  | .prefersAfter (.local id) => some id
  | .consumes ⟨.local id, _⟩ => some id
  | _ => none

/-- Refuses a dependency of a phase on itself or on a phase below it. -/
def rejectCompletionCycles (spec : RoadmapSpec) (tree : Tree) : Except Halt Unit :=
  spec.phases.values.forM fun phase => phase.dependencies.forM fun dependency =>
    match dependency.referenced with
    | none => .ok ()
    | some referenced => do
      let circular ← if referenced = phase.id then .ok true
        else (index tree.descendants phase.id).map (decide <| referenced ∈ ·)
      if circular then
        let path ← index tree.paths phase.id
        .error (.failure (.circularCompletion phase.id referenced path))
      else return

def AdmittedRoadmap.compile (spec : RoadmapSpec) : Except Halt AdmittedRoadmap := do
  let tree ← Tree.validate spec
  rejectCompletionCycles spec tree
  let phases ← compilePhase spec tree (spec.phases.size + 1) spec.root none ∅
  return ⟨phases⟩

def RoadmapSpec.admitSpec (spec : RoadmapSpec) : Except Halt AdmittedRoadmap :=
  AdmittedRoadmap.compile spec

/-- The contract that a phase authors. -/
def RoadmapSpec.contract (spec : RoadmapSpec) (k : PhaseId) : Option AcceptanceContract :=
  (spec.phases.get? k).map (·.acceptance)

/-! ## What is admitted -/

theorem narrowedOwners_eq_ok_iff {parent authored : OwnerEnvelope} {u : Unit} :
    narrowedOwners parent authored ancestorId childId path = .ok u ↔
      authored.mutable ⊆ parent.mutable ∧
      authored.readOnly ⊆ parent.mutable ∪ parent.readOnly := by
  simp only [narrowedOwners, Except.bind_eq_ok_iff, narrowed_eq_ok_iff]
  constructor
  · rintro ⟨_, ⟨h, -⟩, _, ⟨h', -⟩, -⟩
    exact ⟨h, h'⟩
  · rintro ⟨h, h'⟩
    exact ⟨_, ⟨h, rfl⟩, _, ⟨h', rfl⟩, rfl⟩

/-- The phase below has the envelopes of the one above, narrowed by what it authors. -/
structure Narrows (parentId : PhaseId) (p : AdmittedPhase) (phase : PhaseSpec)
    (a : AdmittedPhase) : Prop where
  mutable : phase.owners.mutable ⊆ p.effectiveOwners.mutable
  readOnly : phase.owners.readOnly ⊆ p.effectiveOwners.mutable ∪ p.effectiveOwners.readOnly
  resources : phase.resources.resources ⊆ p.effectiveResources.resources
  capabilities : phase.capabilities.capabilities ⊆ p.effectiveCapabilities.capabilities
  effects : phase.effects.effects ⊆ p.effectiveEffects.effects
  targets : phase.changes.targets ⊆ p.effectiveChanges.targets
  owners : a.effectiveOwners = ⟨patch p.effectiveOwners.mutable phase.owners.mutable,
    patch p.effectiveOwners.readOnly phase.owners.readOnly⟩
  resources_eq : a.effectiveResources.resources =
    patch p.effectiveResources.resources phase.resources.resources
  capabilities_eq : a.effectiveCapabilities.capabilities =
    patch p.effectiveCapabilities.capabilities phase.capabilities.capabilities
  effects_eq : a.effectiveEffects.effects = patch p.effectiveEffects.effects phase.effects.effects
  targets_eq : a.effectiveChanges.targets = patch p.effectiveChanges.targets phase.changes.targets
  authored : a.acceptance.authored = phase.acceptance
  inherited : a.acceptance.inherited =
    p.acceptance.inherited ++ [(parentId, p.acceptance.authored)]

theorem narrows_of_admitBelow
    (h : admitBelow parentId p k phase path coverage = .ok a) : Narrows parentId p phase a := by
  simp only [admitBelow, Except.bind_eq_ok_iff, Except.mapError_eq_ok_iff,
    narrowPatch_eq_ok_iff, narrowedOwners_eq_ok_iff] at h
  obtain ⟨_, ⟨hm, hro⟩, _, ⟨hres, rfl⟩, _, ⟨hcap, rfl⟩, _, ⟨heff, rfl⟩, _, ⟨htar, rfl⟩, _, -, ha⟩ :=
    h
  cases ha
  exact ⟨hm, hro, hres, hcap, heff, htar, rfl, rfl, rfl, rfl, rfl, rfl, rfl⟩

/-- The effective envelopes. -/
def AdmittedPhase.envelopes (a : AdmittedPhase) : OwnerEnvelope × SortedSet ResourceId ×
    SortedSet CapabilityId × SortedSet EffectId × SortedSet ChangeId :=
  (a.effectiveOwners, a.effectiveResources.resources, a.effectiveCapabilities.capabilities,
    a.effectiveEffects.effects, a.effectiveChanges.targets)

/-- Equal envelopes above and equal authored ones give equal envelopes below. -/
theorem Narrows.envelopes_congr (h : Narrows q p phase a) (h' : Narrows q' p' phase' a')
    (hp : p.envelopes = p'.envelopes) (ho : phase.owners = phase'.owners)
    (hr : phase.resources = phase'.resources) (hc : phase.capabilities = phase'.capabilities)
    (he : phase.effects = phase'.effects) (ht : phase.changes = phase'.changes) :
    a.envelopes = a'.envelopes := by
  simp only [AdmittedPhase.envelopes, Prod.mk.injEq] at hp ⊢
  obtain ⟨h₁, h₂, h₃, h₄, h₅⟩ := hp
  refine ⟨?_, ?_, ?_, ?_, ?_⟩
  · rw [h.owners, h'.owners, h₁, ho]
  · rw [h.resources_eq, h'.resources_eq, h₂, hr]
  · rw [h.capabilities_eq, h'.capabilities_eq, h₃, hc]
  · rw [h.effects_eq, h'.effects_eq, h₄, he]
  · rw [h.targets_eq, h'.targets_eq, h₅, ht]

/-- The admitted forms of the phases, from the root down. -/
inductive Compiles (spec : RoadmapSpec) : PhaseId → AdmittedPhase → Prop
  | root : spec.phases.get? spec.root = some phase →
    Compiles spec spec.root (admitRoot phase coverage)
  | child : Compiles spec q p → spec.Child q k → spec.phases.get? k = some phase →
    Narrows q p phase a → Compiles spec k a

/-- Nothing but justified entries is added, and nothing is lost. -/
structure Extends (spec : RoadmapSpec) (admitted admitted' : SortedMap PhaseId AdmittedPhase) :
    Prop where
  sound : admitted'.get? c = some a → admitted.get? c = some a ∨ Compiles spec c a
  keeps : c ∈ admitted.keys → c ∈ admitted'.keys

theorem Extends.trans (h : Extends spec m₁ m₂) (h' : Extends spec m₂ m₃) : Extends spec m₁ m₃ where
  sound hc := (h'.sound hc).elim h.sound .inr
  keeps hc := h'.keeps (h.keeps hc)

theorem Extends.insert (h : Compiles spec k a) (m : SortedMap PhaseId AdmittedPhase) :
    Extends spec m (m.insert k a) where
  sound {c b} hc := by
    rw [SortedMap.get?_insert] at hc
    split at hc
    · rename_i heq
      cases hc
      exact .inr (heq ▸ h)
    · exact .inl hc
  keeps {c} hc := by
    obtain ⟨b, hb⟩ := SortedMap.mem_keys_iff.mp hc
    rw [SortedMap.mem_keys_iff]
    by_cases heq : c = k
    · exact ⟨a, by rw [heq, SortedMap.get?_insert_self]⟩
    · exact ⟨b, by rw [SortedMap.get?_insert_ne _ _ heq, hb]⟩

/-- A run over children, from what one child does. -/
theorem extends_of_foldlM {f : SortedMap PhaseId AdmittedPhase → PhaseId →
      Except Halt (SortedMap PhaseId AdmittedPhase)} {children : List PhaseId}
    (hf : ∀ c ∈ children, ∀ m m', f m c = .ok m' →
      Extends spec m m' ∧ ∀ x, ReflTransGen spec.Child c x → x ∈ m'.keys)
    (h : children.foldlM f m = .ok m') :
    Extends spec m m' ∧ ∀ c ∈ children, ∀ x, ReflTransGen spec.Child c x → x ∈ m'.keys := by
  induction children generalizing m with
  | nil =>
    cases h
    exact ⟨⟨.inl, fun hc => hc⟩, nofun⟩
  | cons c children ih =>
    obtain ⟨mid, hmid, h⟩ := Run.foldlM_cons_eq_ok_iff.mp h
    obtain ⟨hext, hreach⟩ := hf c List.mem_cons_self m mid hmid
    obtain ⟨hext', hreach'⟩ := ih (fun c hc => hf c (List.mem_cons_of_mem _ hc)) h
    refine ⟨hext.trans hext', fun b hb x hx => ?_⟩
    rcases List.mem_cons.mp hb with rfl | hb
    · exact hext'.keeps (hreach x hx)
    · exact hreach' b hb x hx

/-- What is compiled is justified, and no phase below is left out. -/
theorem compilePhase_spec {spec : RoadmapSpec} {parent : Option (PhaseId × AdmittedPhase)}
    (hparent : ∀ q p, parent = some (q, p) → Compiles spec q p ∧ spec.Child q k)
    (hroot : parent = none → k = spec.root)
    (h : compilePhase spec tree fuel k parent admitted = .ok admitted') :
    Extends spec admitted admitted' ∧ ∀ c, ReflTransGen spec.Child k c → c ∈ admitted'.keys := by
  induction fuel generalizing k parent admitted admitted' with
  | zero => cases h
  | succ fuel ih =>
    simp only [compilePhase, Except.bind_eq_ok_iff, index_eq_ok_iff] at h
    obtain ⟨phase, hphase, path, -, current, hcurrent, h⟩ := h
    have hcompiles : Compiles spec k current := by
      cases hp : parent with
      | none =>
        rw [hp] at hcurrent
        obtain ⟨coverage, -, rfl⟩ := Except.map_eq_ok_iff.mp hcurrent
        cases hroot hp
        exact .root hphase
      | some above =>
        rw [hp] at hcurrent
        obtain ⟨hq, hc⟩ := hparent above.1 above.2 hp
        exact .child hq hc hphase (narrows_of_admitBelow hcurrent)
    have hchild (c) (hc : c ∈ phase.body.children) (q p)
        (heq : some (k, current) = some (q, p)) : Compiles spec q p ∧ spec.Child q c := by
      cases heq
      exact ⟨hcompiles, phase, hphase, hc⟩
    obtain ⟨hext, hreach⟩ := extends_of_foldlM
      (fun c hc m m' hm => ih (hchild c hc) (fun h => nomatch h) hm) h
    refine ⟨(Extends.insert hcompiles admitted).trans hext, fun c hc => ?_⟩
    rcases ReflTransGen.cases_head hc with rfl | ⟨b, hb, hbc⟩
    · refine hext.keeps (SortedMap.mem_keys_iff.mpr ⟨current, ?_⟩)
      exact SortedMap.get?_insert_self ..
    · obtain ⟨phase', hphase', hb⟩ := hb
      cases hphase.symm.trans hphase'
      exact hreach b hb c hbc

/-- A compiled roadmap: a valid tree, and for each phase its justified admitted form. -/
structure Admitted (spec : RoadmapSpec) (tree : Tree) (roadmap : AdmittedRoadmap) : Prop where
  valid : Tree.Valid spec tree
  compiles : roadmap.phases.get? k = some a → Compiles spec k a
  keys : k ∈ roadmap.phases.keys ↔ k ∈ spec.phases.keys

theorem admitted_of_compile (h : AdmittedRoadmap.compile spec = .ok roadmap) :
    ∃ tree, Admitted spec tree roadmap := by
  simp only [AdmittedRoadmap.compile, Except.bind_eq_ok_iff] at h
  obtain ⟨tree, htree, _, -, phases, hphases, hroadmap⟩ := h
  cases hroadmap
  have hvalid := Tree.valid_of_validate htree
  obtain ⟨hext, hreach⟩ := compilePhase_spec (by intro q p hp; cases hp) (fun _ => rfl) hphases
  have hcompiles {k a} (hk : phases.get? k = some a) : Compiles spec k a :=
    (hext.sound hk).resolve_left (by simp)
  refine ⟨tree, hvalid, hcompiles, ?_, ?_⟩
  · intro hk
    obtain ⟨a, ha⟩ := SortedMap.mem_keys_iff.mp hk
    rw [SortedMap.mem_keys_iff]
    cases hcompiles ha with
    | root hphase => exact ⟨_, hphase⟩
    | child _ _ hphase => exact ⟨_, hphase⟩
  · intro hk
    obtain ⟨phase, hphase⟩ := SortedMap.mem_keys_iff.mp hk
    exact hreach _ (hvalid.reach hphase)

/-! ## Authority along the tree -/

/-- The envelopes of `a` are within those of `p`. -/
structure Within (a p : AdmittedPhase) : Prop where
  mutable : a.effectiveOwners.mutable ⊆ p.effectiveOwners.mutable
  readOnly : a.effectiveOwners.readOnly ⊆ p.effectiveOwners.mutable ∪ p.effectiveOwners.readOnly
  resources : a.effectiveResources.resources ⊆ p.effectiveResources.resources
  capabilities : a.effectiveCapabilities.capabilities ⊆ p.effectiveCapabilities.capabilities
  effects : a.effectiveEffects.effects ⊆ p.effectiveEffects.effects
  targets : a.effectiveChanges.targets ⊆ p.effectiveChanges.targets

theorem Narrows.within (h : Narrows q p phase a) : Within a p where
  mutable := h.owners ▸ patch_subset h.mutable
  readOnly := by
    have heq : a.effectiveOwners.readOnly =
        patch p.effectiveOwners.readOnly phase.owners.readOnly := by rw [h.owners]
    rw [heq, patch]
    split
    · exact fun x hx => SortedSet.mem_union.mpr (.inr hx)
    · exact h.readOnly
  resources := h.resources_eq ▸ patch_subset h.resources
  capabilities := h.capabilities_eq ▸ patch_subset h.capabilities
  effects := h.effects_eq ▸ patch_subset h.effects
  targets := h.targets_eq ▸ patch_subset h.targets

/-- Only the effective envelopes count. -/
theorem Within.congr (h : Within a p) (hp : p.envelopes = p'.envelopes) : Within a p' := by
  simp only [AdmittedPhase.envelopes, Prod.mk.injEq] at hp
  obtain ⟨h₁, h₂, h₃, h₄, h₅⟩ := hp
  exact ⟨h₁ ▸ h.mutable, h₁ ▸ h.readOnly, h₂ ▸ h.resources, h₃ ▸ h.capabilities,
    h₄ ▸ h.effects, h₅ ▸ h.targets⟩

theorem Within.trans (h : Within a b) (h' : Within b c) : Within a c where
  mutable := SortedSet.subset_trans h.mutable h'.mutable
  readOnly := by
    -- what is readable above may become readable below, mutable owners included
    intro x hx
    rcases SortedSet.mem_union.mp (h.readOnly x hx) with hm | hr
    · exact SortedSet.mem_union.mpr (.inl (h'.mutable x hm))
    · exact h'.readOnly x hr
  resources := SortedSet.subset_trans h.resources h'.resources
  capabilities := SortedSet.subset_trans h.capabilities h'.capabilities
  effects := SortedSet.subset_trans h.effects h'.effects
  targets := SortedSet.subset_trans h.targets h'.targets

namespace Compiles
variable {spec : RoadmapSpec}

theorem reach (h : Compiles spec k a) : ReflTransGen spec.Child spec.root k := by
  induction h with
  | root => exact .refl
  | child _ hc _ _ ih => exact ih.tail hc

/-- The parent of a compiled phase is compiled, with the form that the phase narrows. -/
theorem parent (hr : Rooted spec.Child spec.root) (h : Compiles spec k a) (hc : spec.Child q k) :
    ∃ p phase, Compiles spec q p ∧ spec.phases.get? k = some phase ∧ Narrows q p phase a := by
  cases h with
  | root => exact absurd hc hr.top
  | child hq hc' hphase hn =>
    cases hr.unique hc hc'
    exact ⟨_, _, hq, hphase, hn⟩

/-- A phase has one form, up to its coverage. -/
theorem functional (hr : Rooted spec.Child spec.root) (h : Compiles spec k a)
    (h' : Compiles spec k a') : a.envelopes = a'.envelopes := by
  induction h generalizing a' with
  | root hphase =>
    cases h' with
    | root hphase' =>
      cases hphase.symm.trans hphase'
      rfl
    | child _ hc => exact absurd hc hr.top
  | child _ hc hphase hn ih =>
    obtain ⟨p', phase', hp', hphase', hn'⟩ := h'.parent hr hc
    cases hphase.symm.trans hphase'
    exact hn.envelopes_congr hn' (ih hp') rfl rfl rfl rfl rfl

/-- Every proper ancestor has a form that the phase is within. -/
theorem ancestor (hr : Rooted spec.Child spec.root) (h : Compiles spec k a)
    (hq : TransGen spec.Child q k) : ∃ p, Compiles spec q p ∧ Within a p := by
  induction hq generalizing a with
  | single hc =>
    obtain ⟨p, phase, hp, -, hn⟩ := h.parent hr hc
    exact ⟨p, hp, hn.within⟩
  | tail _ hc ih =>
    obtain ⟨b, phase, hb, -, hn⟩ := h.parent hr hc
    obtain ⟨p, hp, hw⟩ := ih hb
    exact ⟨p, hp, hn.within.trans hw⟩

theorem authored (h : Compiles spec k a) (hk : spec.phases.get? k = some phase) :
    a.acceptance.authored = phase.acceptance := by
  cases h with
  | root hphase =>
    cases hphase.symm.trans hk
    rfl
  | child _ _ hphase hn =>
    cases hphase.symm.trans hk
    exact hn.authored

/-- The contracts of the proper ancestors are inherited from the root down. -/
theorem inherited (hr : Rooted spec.Child spec.root) (h : Compiles spec k a)
    (hl : Descends spec.Child spec.root l k) :
    a.acceptance.inherited.map (·.1) = l ∧
      ∀ q c, (q, c) ∈ a.acceptance.inherited → spec.contract q = some c := by
  induction hl generalizing a with
  | root =>
    cases h with
    | root => exact ⟨rfl, nofun⟩
    | child _ hc => exact absurd hc hr.top
  | @step l q k _ hc ih =>
    obtain ⟨p, phase, hp, -, hn⟩ := h.parent hr hc
    obtain ⟨hids, hcontract⟩ := ih hp
    rw [hn.inherited]
    constructor
    · rw [List.map_append, hids]
      rfl
    · intro b c hbc
      rcases List.mem_append.mp hbc with hbc | hbc
      · exact hcontract b c hbc
      · cases List.mem_singleton.mp hbc
        obtain ⟨above, habove, -⟩ := hc
        rw [RoadmapSpec.contract, habove, hp.authored habove]
        rfl

end Compiles

/-- The proper ancestors of a phase, from the root down. -/
structure Ancestors (spec : RoadmapSpec) (k : PhaseId) (l : List PhaseId) : Prop where
  mem : q ∈ l ↔ TransGen spec.Child q k
  down : l.Pairwise (TransGen spec.Child)
  nodup : l.Nodup

theorem ancestors_of_descends (hr : Rooted spec.Child spec.root)
    (hl : Descends spec.Child spec.root l k) : Ancestors spec k l where
  mem := hl.mem_iff hr
  down := hl.pairwise
  nodup := (hl.nodup_concat hr).of_append_left

/-- In a compiled roadmap every phase is admitted once, the envelopes of a phase are within those
of each of its ancestors, and the contracts it inherits are those of its ancestors from the root
down. -/
theorem authority_narrows (h : AdmittedRoadmap.compile spec = .ok roadmap) :
    roadmap.phases.keys.Nodup ∧ (∀ k, k ∈ roadmap.phases.keys ↔ k ∈ spec.phases.keys) ∧
    ∀ k a, roadmap.phases.get? k = some a →
      (∀ q, TransGen spec.Child q k → ∃ p, roadmap.phases.get? q = some p ∧ Within a p) ∧
      ∃ l, Ancestors spec k l ∧ a.acceptance.inherited.map (fun row => (row.1, some row.2)) =
        l.map fun q => (q, spec.contract q) := by
  obtain ⟨tree, ha⟩ := admitted_of_compile h
  have hr := ha.valid.rooted
  refine ⟨SortedMap.nodup_keys _, fun k => ha.keys, fun k a hk => ⟨fun q hq => ?_, ?_⟩⟩
  · obtain ⟨p', hp', hwithin⟩ := (ha.compiles hk).ancestor hr hq
    obtain ⟨phase, hphase⟩ := ha.valid.exists_phase hp'.reach
    have hkey := ha.keys.mpr (SortedMap.mem_keys_iff.mpr ⟨phase, hphase⟩)
    obtain ⟨p, hp⟩ := SortedMap.mem_keys_iff.mp hkey
    exact ⟨p, hp, hwithin.congr (hp'.functional hr (ha.compiles hp))⟩
  · obtain ⟨l, hl⟩ := Descends.exists_of_reach (ha.compiles hk).reach
    obtain ⟨hids, hcontract⟩ := (ha.compiles hk).inherited hr hl
    refine ⟨l, ancestors_of_descends hr hl, ?_⟩
    rw [← hids, List.map_map]
    refine List.map_congr_left fun row hrow => ?_
    exact congrArg (row.1, ·) (hcontract row.1 row.2 hrow).symm

/-! ## A roadmap of two leaves -/

namespace Sample

def textId (text : String) (h : ValidId text := by decide) : TextId k := ⟨text, h⟩

def rootId : PhaseId := textId "root"
def leftId : PhaseId := textId "left"
def rightId : PhaseId := textId "right"

def noGuide : ImplementationGuide := ⟨[], [], [], []⟩

def checkpoints : List CheckpointSpec := [⟨textId "build", "it builds"⟩, ⟨textId "test", "it runs"⟩]

/-- A leaf below the root that inherits every envelope. -/
def leaf (id : PhaseId) (dependencies : List PhaseDependency) : PhaseSpec where
  id := id
  parent := some rootId
  title := "leaf"
  intent := "work"
  body := .leaf checkpoints
  dependencies := dependencies
  owners := ⟨∅, ∅⟩
  resources := ⟨∅⟩
  effects := ⟨∅⟩
  capabilities := ⟨∅⟩
  changes := ⟨∅⟩
  acceptance := ⟨.all, ∅⟩
  coverage := []
  outputs := ∅
  guide := noGuide
  origin := .authored

def root : PhaseSpec :=
  { leaf rootId [] with
    parent := none
    body := .composite [leftId, rightId]
    owners := ⟨SortedSet.insert (textId "owner") ∅, ∅⟩ }

/-- A root with two leaves, which have the given dependencies. -/
def spec (left right : List PhaseDependency) : RoadmapSpec where
  schema := textId "schema"
  id := textId "roadmap"
  charter := ⟨"title", "intent"⟩
  root := rootId
  phases := ((SortedMap.insert ∅ rootId root).insert leftId (leaf leftId left)).insert rightId
    (leaf rightId right)
  imports := ∅
  limits := .default

theorem child_left : (spec left right).Child rootId leftId :=
  ⟨root, by simp [spec, rootId, leftId, rightId, textId], List.mem_cons_self⟩

end Sample

theorem authority_narrows_left :
    ∃ roadmap a p, AdmittedRoadmap.compile (Sample.spec [] []) = .ok roadmap ∧
      roadmap.phases.get? Sample.leftId = some a ∧ roadmap.phases.get? Sample.rootId = some p ∧
      Within a p ∧ a.effectiveOwners.mutable = p.effectiveOwners.mutable := by
  have hrun : ((AdmittedRoadmap.compile (Sample.spec [] [])).map fun roadmap =>
      ((roadmap.phases.get? Sample.leftId).map (·.effectiveOwners.mutable),
        (roadmap.phases.get? Sample.rootId).map (·.effectiveOwners.mutable))) =
      .ok (some (Sample.root.owners.mutable), some (Sample.root.owners.mutable)) := by
    decide +kernel
  obtain ⟨roadmap, h, hget⟩ := Except.map_eq_ok_iff.mp hrun
  rw [Prod.mk.injEq, Option.map_eq_some_iff, Option.map_eq_some_iff] at hget
  obtain ⟨⟨a, ha, hleft⟩, p, hp, hroot⟩ := hget
  obtain ⟨-, -, hall⟩ := authority_narrows h
  obtain ⟨p', hp', hwithin⟩ := (hall _ a ha).1 _ (.single Sample.child_left)
  cases hp.symm.trans hp'
  exact ⟨roadmap, a, p, h, ha, hp, hwithin, hleft.trans hroot.symm⟩

end SimAgentNet.RoadmapCore
