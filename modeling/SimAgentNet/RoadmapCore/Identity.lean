import SimAgentNet.Data.Delimited
import SimAgentNet.RoadmapCore.Datum

/-! # The identity of a revision

Equal canonical forms come from equal revisions. Of the collections that are written as sets only
the supporting references of a statement are not already sets. -/

namespace SimAgentNet.RoadmapCore

/-- The statements are equal up to the order and repetition of their supporting references. -/
structure AcceptanceStatement.Alike (s s' : AcceptanceStatement) : Prop where
  obligation : s.obligation = s'.obligation
  subject : s.subject = s'.subject
  predicate : s.predicate = s'.predicate
  object : s.object = s'.object
  supportingRefs : ∀ r, r ∈ s.supportingRefs ↔ r ∈ s'.supportingRefs

/-- The maps have the same keys, and values that are related. -/
def Matched {κ α : Type} [LinearOrder κ] (R : α → α → Prop) (m m' : SortedMap κ α) : Prop :=
  ∀ k, Option.Rel R (m.get? k) (m'.get? k)

structure AcceptanceContract.Alike (c c' : AcceptanceContract) : Prop where
  policy : c.policy = c'.policy
  statements : Matched AcceptanceStatement.Alike c.statements c'.statements

structure PhaseSpec.Alike (p p' : PhaseSpec) : Prop where
  id : p.id = p'.id
  parent : p.parent = p'.parent
  title : p.title = p'.title
  intent : p.intent = p'.intent
  body : p.body = p'.body
  dependencies : p.dependencies = p'.dependencies
  owners : p.owners = p'.owners
  resources : p.resources = p'.resources
  effects : p.effects = p'.effects
  capabilities : p.capabilities = p'.capabilities
  changes : p.changes = p'.changes
  acceptance : p.acceptance.Alike p'.acceptance
  coverage : p.coverage = p'.coverage
  outputs : p.outputs = p'.outputs
  guide : p.guide = p'.guide
  origin : p.origin = p'.origin

/-- The specifications are equal up to the order and repetition of supporting references. -/
structure RoadmapSpec.Alike (s s' : RoadmapSpec) : Prop where
  schema : s.schema = s'.schema
  id : s.id = s'.id
  charter : s.charter = s'.charter
  root : s.root = s'.root
  imports : s.imports = s'.imports
  phases : Matched PhaseSpec.Alike s.phases s'.phases
  limits : s.limits = s'.limits

namespace Canonical
open Datum (Same)

@[simp] theorem tag_inj {name name' : String} : tag name = tag name' ↔ name = name' := by
  simp [tag, Symbol.qualified]

theorem newSymbol_inj {name name' : String} : Symbol.new name = .new name' ↔ name = name' := by
  simp [Symbol.new]

/-- Nodes are the same when their names and their fields are. -/
theorem node_same {name name' : String} {fields fields' : List (String × Datum)} :
    Same (node name fields) (node name' fields') ↔ name = name' ∧
      List.Forall₂ (fun a b => a.1 = b.1 ∧ Same a.2 b.2) fields fields' := by
  rw [node, node, Datum.Same, tag_inj]
  refine and_congr_right fun _ => ?_
  induction fields generalizing fields' with
  | nil => cases fields' <;> simp [Datum.SameFields]
  | cons a fields ih => cases fields' <;> simp [Datum.SameFields, ih, newSymbol_inj, and_assoc]

section
variable {k : IdKind}

@[simp] theorem text_same {a b : TextId k} : Same (text a) (text b) ↔ a = b := by
  simp [text, TextId.text_injective.eq_iff]

@[simp] theorem stringSet_same {a b : SortedSet (TextId k)} :
    Same (stringSet a) (stringSet b) ↔ a = b := by
  rw [stringSet, stringSet, Datum.same_set_map fun _ _ => text_same]
  exact ⟨SortedSet.ext, fun h _ => h ▸ Iff.rfl⟩

@[simp] theorem list_text_same {as bs : List (TextId k)} :
    Same (.list (as.map text)) (.list (bs.map text)) ↔ as = bs :=
  Datum.same_list_map fun _ _ => text_same

/-- Maps are the same when they have the same keys and the values at them are the same. -/
theorem textMap_same {α : Type} {f : α → Datum} {a b : SortedMap (TextId k) α} :
    Same (textMap f a) (textMap f b) ↔ Matched (fun x y => Same (f x) (f y)) a b := by
  rw [textMap, textMap, Datum.same_map_map fun _ _ => text_same]
  constructor
  · rintro ⟨hab, hba⟩ key
    cases ha : a.get? key with
    | none =>
      cases hb : b.get? key with
      | none => exact .none
      | some y =>
        obtain ⟨⟨key', x⟩, hx, heq, -⟩ := hba (key, y) (SortedMap.get?_eq_some_iff.mp hb)
        cases heq
        exact nomatch ha.symm.trans (SortedMap.get?_eq_some_iff.mpr hx)
    | some x =>
      obtain ⟨⟨key', y⟩, hy, heq, hsame⟩ := hab (key, x) (SortedMap.get?_eq_some_iff.mp ha)
      cases heq
      rw [SortedMap.get?_eq_some_iff.mpr hy]
      exact .some hsame
  · intro h
    refine ⟨fun ⟨key, x⟩ hx => ?_, fun ⟨key, y⟩ hy => ?_⟩
    · have hrel := h key
      rw [SortedMap.get?_eq_some_iff.mpr hx] at hrel
      obtain ⟨y, hy, hsame⟩ : ∃ y, b.get? key = some y ∧ Same (f x) (f y) := by
        cases hb : b.get? key with
        | none => rw [hb] at hrel; cases hrel
        | some y => rw [hb] at hrel; cases hrel; exact ⟨y, rfl, ‹_›⟩
      exact ⟨(key, y), SortedMap.get?_eq_some_iff.mp hy, rfl, hsame⟩
    · have hrel := h key
      rw [SortedMap.get?_eq_some_iff.mpr hy] at hrel
      obtain ⟨x, hx, hsame⟩ : ∃ x, a.get? key = some x ∧ Same (f x) (f y) := by
        cases ha : a.get? key with
        | none => rw [ha] at hrel; cases hrel
        | some x => rw [ha] at hrel; cases hrel; exact ⟨x, rfl, ‹_›⟩
      exact ⟨(key, x), SortedMap.get?_eq_some_iff.mp hx, rfl, hsame⟩

end

theorem unsigned_same {domain : String} {a b : Nat} :
    Same (unsigned domain a.repr) (unsigned domain b.repr) ↔ a = b := by
  refine ⟨fun h => ?_, fun h => h ▸ by simp [unsigned]⟩
  have htext : toString a = toString b := by simpa [unsigned] using h
  exact (Delimited.toString_colon_inj (congrArg (fun t : String => t.toList ++ [':']) htext)).1

@[simp] theorem usizeDatum_same {a b : Nat} : Same (usizeDatum a) (usizeDatum b) ↔ a = b :=
  unsigned_same

@[simp] theorem not_same_symbol_node {s : Symbol} {name : String} {fields : List (String × Datum)} :
    ¬Same (.symbol s) (node name fields) := id

@[simp] theorem not_same_node_symbol {s : Symbol} {name : String} {fields : List (String × Datum)} :
    ¬Same (node name fields) (.symbol s) := id

@[simp] theorem content_same {a b : ContentId} : Same (content a) (content b) ↔ a = b := by
  cases a
  cases b
  simp [content, node_same]

@[simp] theorem limitsDatum_same {a b : Limits} : Same (limitsDatum a) (limitsDatum b) ↔ a = b := by
  cases a
  cases b
  simp [limitsDatum, node_same]

/-- An absent value is told apart from a present one. -/
theorem optional_same {α : Type} {f : α → Datum} (hf : ∀ a b, Same (f a) (f b) ↔ a = b)
    (hnil : ∀ a, ¬Same (f a) .nil) (hnil' : ∀ a, ¬Same .nil (f a)) {a b : Option α} :
    Same (optional f a) (optional f b) ↔ a = b := by
  cases a <;> cases b <;> simp [optional, hf, hnil, hnil']

/-! ## Guides -/

@[simp] theorem sourceQueryDatum_same {a b : SourceDecks.SourceQuery} :
    Same (sourceQueryDatum a) (sourceQueryDatum b) ↔ a = b := by
  cases a <;> cases b <;> simp [sourceQueryDatum, node_same]

@[simp] theorem optionalString_same {a b : Option String} :
    Same (optional .string a) (optional .string b) ↔ a = b :=
  optional_same (fun _ _ => Datum.same_string) (fun _ => id) (fun _ => id)

@[simp] theorem changeTargetDatum_same {a b : ChangeTarget} :
    Same (changeTargetDatum a) (changeTargetDatum b) ↔ a = b := by
  cases a
  cases b
  simp [changeTargetDatum, node_same]

@[simp] theorem promiseDatum_same {a b : Promise} :
    Same (promiseDatum a) (promiseDatum b) ↔ a = b := by
  cases a <;> cases b <;> simp [promiseDatum, node_same]

@[simp] theorem sketchLanguageDatum_same {a b : SketchLanguage} :
    Same (sketchLanguageDatum a) (sketchLanguageDatum b) ↔ a = b := by
  cases a <;> cases b <;> simp [sketchLanguageDatum, node_same]

@[simp] theorem sketchRoleDatum_same {a b : SketchRole} :
    Same (sketchRoleDatum a) (sketchRoleDatum b) ↔ a = b := by
  cases a <;> cases b <;> simp [sketchRoleDatum]

@[simp] theorem sketchBindingDatum_same {a b : SketchBinding} :
    Same (sketchBindingDatum a) (sketchBindingDatum b) ↔ a = b := by
  cases a <;> cases b <;> simp [sketchBindingDatum, node_same]

@[simp] theorem sketchDatum_same {a b : AnchoredSketch} :
    Same (sketchDatum a) (sketchDatum b) ↔ a = b := by
  cases a
  cases b
  simp [sketchDatum, node_same, Datum.same_list_map fun _ _ => sketchBindingDatum_same]

@[simp] theorem implementationGuideDatum_same {a b : ImplementationGuide} :
    Same (implementationGuideDatum a) (implementationGuideDatum b) ↔ a = b := by
  cases a
  cases b
  simp [implementationGuideDatum, node_same, Datum.same_list_map fun _ _ => sourceQueryDatum_same,
    Datum.same_list_map fun _ _ => changeTargetDatum_same,
    Datum.same_list_map fun _ _ => promiseDatum_same, Datum.same_list_map fun _ _ => sketchDatum_same]

/-! ## Phases -/

@[simp] theorem checkpointDatum_same {a b : CheckpointSpec} :
    Same (checkpointDatum a) (checkpointDatum b) ↔ a = b := by
  cases a
  cases b
  simp [checkpointDatum, node_same]

@[simp] theorem phaseBodyDatum_same {a b : PhaseBody} :
    Same (phaseBodyDatum a) (phaseBodyDatum b) ↔ a = b := by
  cases a <;> cases b <;>
    simp [phaseBodyDatum, node_same, Datum.same_list_map fun _ _ => checkpointDatum_same]

@[simp] theorem phaseRefDatum_same {a b : PhaseRef} :
    Same (phaseRefDatum a) (phaseRefDatum b) ↔ a = b := by
  cases a <;> cases b <;> simp [phaseRefDatum, node_same]

@[simp] theorem outputRefDatum_same {a b : OutputRef} :
    Same (outputRefDatum a) (outputRefDatum b) ↔ a = b := by
  cases a
  cases b
  simp [outputRefDatum, node_same]

@[simp] theorem phaseDependencyDatum_same {a b : PhaseDependency} :
    Same (phaseDependencyDatum a) (phaseDependencyDatum b) ↔ a = b := by
  cases a <;> cases b <;> simp [phaseDependencyDatum, node_same]

@[simp] theorem ownerEnvelopeDatum_same {a b : OwnerEnvelope} :
    Same (ownerEnvelopeDatum a) (ownerEnvelopeDatum b) ↔ a = b := by
  cases a
  cases b
  simp [ownerEnvelopeDatum, node_same]

@[simp] theorem resourceEnvelopeDatum_same {a b : ResourceEnvelope} :
    Same (resourceEnvelopeDatum a) (resourceEnvelopeDatum b) ↔ a = b := by
  cases a
  cases b
  simp [resourceEnvelopeDatum, node_same]

@[simp] theorem effectEnvelopeDatum_same {a b : EffectEnvelope} :
    Same (effectEnvelopeDatum a) (effectEnvelopeDatum b) ↔ a = b := by
  cases a
  cases b
  simp [effectEnvelopeDatum, node_same]

@[simp] theorem capabilityEnvelopeDatum_same {a b : CapabilityEnvelope} :
    Same (capabilityEnvelopeDatum a) (capabilityEnvelopeDatum b) ↔ a = b := by
  cases a
  cases b
  simp [capabilityEnvelopeDatum, node_same]

@[simp] theorem changeEnvelopeDatum_same {a b : ChangeEnvelope} :
    Same (changeEnvelopeDatum a) (changeEnvelopeDatum b) ↔ a = b := by
  cases a
  cases b
  simp [changeEnvelopeDatum, node_same]

@[simp] theorem referenceDatum_same {a b : Ref} :
    Same (referenceDatum a) (referenceDatum b) ↔ a = b := by
  cases a <;> cases b <;> simp [referenceDatum, node_same, unsigned_same]

@[simp] theorem proofPolicyDatum_same {a b : ProofPolicy} :
    Same (proofPolicyDatum a) (proofPolicyDatum b) ↔ a = b := by
  cases a <;> cases b <;> simp [proofPolicyDatum]

theorem acceptanceStatementDatum_same {a b : AcceptanceStatement} :
    Same (acceptanceStatementDatum a) (acceptanceStatementDatum b) ↔ a.Alike b := by
  simp only [acceptanceStatementDatum, node_same, List.forall₂_cons, List.forall₂_nil_left_iff,
    text_same, referenceDatum_same, Datum.same_symbol,
    Datum.same_set_map fun _ _ => referenceDatum_same, true_and, and_true]
  constructor
  · rintro ⟨ho, hs, hp, hb, hr⟩
    exact ⟨ho, hs, hp, hb, hr⟩
  · rintro ⟨ho, hs, hp, hb, hr⟩
    exact ⟨ho, hs, hp, hb, hr⟩

theorem acceptanceDatum_same {a b : AcceptanceContract} :
    Same (acceptanceDatum a) (acceptanceDatum b) ↔ a.Alike b := by
  simp only [acceptanceDatum, node_same, List.forall₂_cons, List.forall₂_nil_left_iff,
    proofPolicyDatum_same, textMap_same, acceptanceStatementDatum_same, true_and, and_true]
  exact ⟨fun ⟨hp, hs⟩ => ⟨hp, hs⟩, fun ⟨hp, hs⟩ => ⟨hp, hs⟩⟩

@[simp] theorem obligationCoverageDatum_same {a b : ObligationCoverage} :
    Same (obligationCoverageDatum a) (obligationCoverageDatum b) ↔ a = b := by
  cases a <;> cases b <;> simp [obligationCoverageDatum, node_same]

@[simp] theorem optionalContent_same {a b : Option ContentId} :
    Same (optional content a) (optional content b) ↔ a = b :=
  optional_same (fun _ _ => content_same) (fun _ => id) (fun _ => id)

@[simp] theorem outputContractDatum_same {a b : OutputContract} :
    Same (outputContractDatum a) (outputContractDatum b) ↔ a = b := by
  cases a
  cases b
  simp [outputContractDatum, node_same]

@[simp] theorem phaseOriginDatum_same {a b : PhaseOrigin} :
    Same (phaseOriginDatum a) (phaseOriginDatum b) ↔ a = b := by
  cases a <;> cases b <;> simp [phaseOriginDatum, node_same]

@[simp] theorem optionalText_same {k : IdKind} {a b : Option (TextId k)} :
    Same (optional text a) (optional text b) ↔ a = b :=
  optional_same (fun _ _ => text_same) (fun _ => id) (fun _ => id)

/-- Maps of values that the canonical form tells apart. -/
theorem textMap_eq {k : IdKind} {α : Type} {f : α → Datum} (hf : ∀ x y, Same (f x) (f y) ↔ x = y)
    {a b : SortedMap (TextId k) α} : Same (textMap f a) (textMap f b) ↔ a = b := by
  simp only [textMap_same, hf]
  constructor
  · intro h
    refine SortedMap.ext fun key => ?_
    have hrel := h key
    generalize a.get? key = x at hrel ⊢
    generalize b.get? key = y at hrel ⊢
    cases hrel with
    | some heq => exact congrArg some heq
    | none => rfl
  · rintro rfl key
    cases a.get? key with
    | none => exact .none
    | some x => exact .some rfl

theorem phaseDatum_same {a b : PhaseSpec} : Same (phaseDatum a) (phaseDatum b) ↔ a.Alike b := by
  simp only [phaseDatum, node_same, List.forall₂_cons, List.forall₂_nil_left_iff, text_same,
    optionalText_same, Datum.same_string, phaseBodyDatum_same, ownerEnvelopeDatum_same,
    Datum.same_list_map fun _ _ => phaseDependencyDatum_same, resourceEnvelopeDatum_same,
    effectEnvelopeDatum_same, capabilityEnvelopeDatum_same, changeEnvelopeDatum_same,
    acceptanceDatum_same, Datum.same_list_map fun _ _ => obligationCoverageDatum_same,
    textMap_eq fun _ _ => outputContractDatum_same, implementationGuideDatum_same,
    phaseOriginDatum_same, true_and, and_true]
  constructor
  · rintro ⟨h₁, h₂, h₃, h₄, h₅, h₆, h₇, h₈, h₉, h₁₀, h₁₁, h₁₂, h₁₃, h₁₄, h₁₅, h₁₆⟩
    exact ⟨h₁, h₂, h₃, h₄, h₅, h₆, h₇, h₈, h₉, h₁₀, h₁₁, h₁₂, h₁₃, h₁₄, h₁₅, h₁₆⟩
  · rintro ⟨h₁, h₂, h₃, h₄, h₅, h₆, h₇, h₈, h₉, h₁₀, h₁₁, h₁₂, h₁₃, h₁₄, h₁₅, h₁₆⟩
    exact ⟨h₁, h₂, h₃, h₄, h₅, h₆, h₇, h₈, h₉, h₁₀, h₁₁, h₁₂, h₁₃, h₁₄, h₁₅, h₁₆⟩

/-! ## Revisions -/

@[simp] theorem pinnedRoadmapDatum_same {a b : PinnedRoadmapRef} :
    Same (pinnedRoadmapDatum a) (pinnedRoadmapDatum b) ↔ a = b := by
  obtain ⟨_, ⟨_⟩, _, _⟩ := a
  obtain ⟨_, ⟨_⟩, _, _⟩ := b
  simp [pinnedRoadmapDatum, node_same]

@[simp] theorem charterDatum_same {a b : Charter} :
    Same (charterDatum a) (charterDatum b) ↔ a = b := by
  cases a
  cases b
  simp [charterDatum, node_same]

theorem specDatum_same {a b : RoadmapSpec} : Same (specDatum a) (specDatum b) ↔ a.Alike b := by
  simp only [specDatum, node_same, List.forall₂_cons, List.forall₂_nil_left_iff, text_same,
    charterDatum_same, textMap_eq fun _ _ => pinnedRoadmapDatum_same, textMap_same, phaseDatum_same,
    limitsDatum_same, true_and, and_true]
  exact ⟨fun ⟨hs, hi, hc, hr, hp, hm, hl⟩ => ⟨hs, hi, hc, hr, hp, hm, hl⟩,
    fun ⟨hs, hi, hc, hr, hp, hm, hl⟩ => ⟨hs, hi, hc, hr, hp, hm, hl⟩⟩

@[simp] theorem revisionChangeDatum_same {a b : RevisionChange} :
    Same (revisionChangeDatum a) (revisionChangeDatum b) ↔ a = b := by
  cases a
  cases b
  simp [revisionChangeDatum, node_same]

@[simp] theorem optionalRevision_same {a b : Option RoadmapRevisionId} :
    Same (optional (fun id => content id.content) a) (optional (fun id => content id.content) b) ↔
      a = b := by
  refine optional_same (fun a b => ?_) (fun _ => id) (fun _ => id)
  rw [content_same]
  exact RoadmapRevisionId.mk.injEq .. ▸ Iff.rfl

end Canonical

/-- Two revisions have the same canonical form exactly when their parents and changes are equal and
their specifications are equal up to the order and repetition of supporting references. -/
theorem revisionDatum_same_iff {parent parent' : Option RoadmapRevisionId}
    {spec spec' : RoadmapSpec} {change change' : RevisionChange} :
    (Canonical.revisionDatum parent spec change).Same (Canonical.revisionDatum parent' spec' change') ↔
      parent = parent' ∧ spec.Alike spec' ∧ change = change' := by
  simp only [Canonical.revisionDatum, Canonical.node_same, List.forall₂_cons,
    List.forall₂_nil_left_iff, Canonical.optionalRevision_same, Canonical.specDatum_same,
    Canonical.revisionChangeDatum_same, true_and, and_true]

theorem Matched.refl {κ α : Type} [LinearOrder κ] {R : α → α → Prop} (hR : ∀ a, R a a)
    (m : SortedMap κ α) : Matched R m m := by
  intro k
  cases m.get? k with
  | none => exact .none
  | some a => exact .some (hR a)

theorem RoadmapSpec.Alike.refl (s : RoadmapSpec) : s.Alike s where
  schema := rfl
  id := rfl
  charter := rfl
  root := rfl
  imports := rfl
  phases := .refl (fun _ => ⟨rfl, rfl, rfl, rfl, rfl, rfl, rfl, rfl, rfl, rfl, rfl,
    ⟨rfl, .refl (fun _ => ⟨rfl, rfl, rfl, rfl, fun _ => Iff.rfl⟩) _⟩, rfl, rfl, rfl, rfl⟩) _
  limits := rfl

/-- The canonical form of a revision gives back its parent, its change and its specification, also
where the sets and maps of datums have no order. -/
theorem revision_identity_injective (parent parent' : Option RoadmapRevisionId)
    (spec spec' : RoadmapSpec) (change change' : RevisionChange) :
    (Canonical.revisionDatum parent spec change = Canonical.revisionDatum parent' spec' change' →
      parent = parent' ∧ spec.Alike spec' ∧ change = change') ∧
    ((Canonical.revisionDatum parent spec change).Same
        (Canonical.revisionDatum parent' spec' change') ↔
      parent = parent' ∧ spec.Alike spec' ∧ change = change') := by
  refine ⟨fun h => ?_, revisionDatum_same_iff⟩
  have hself : (Canonical.revisionDatum parent spec change).Same
      (Canonical.revisionDatum parent spec change) :=
    revisionDatum_same_iff.mpr ⟨rfl, .refl spec, rfl⟩
  rw [h] at hself
  exact revisionDatum_same_iff.mp (h ▸ hself)

end SimAgentNet.RoadmapCore
