import SimAgentNet.RoadmapPlan.Compile
import SimAgentNet.RoadmapRefine.Framed

/-! # The completion order of a plan

A phase comes after the phases that it requires or consumes from, a composite phase after its
children. The compilation of a plan looks for a dependency on the phase itself or on one below it,
and for no other cycle. -/

namespace SimAgentNet.RoadmapPlan

open RoadmapCore Relation
open RoadmapRefine (TractabilityPolicy)
open SourceDecks (SourceDeck ContentIdOf)

/-- A loop is a single step, or goes through two different elements. -/
theorem transGen_loop_iff {α : Type} {r : α → α → Prop} :
    (∃ a, TransGen r a a) ↔ (∃ a, r a a) ∨ ∃ a b, a ≠ b ∧ TransGen r a b ∧ TransGen r b a := by
  constructor
  · rintro ⟨a, h⟩
    obtain ⟨b, hab, hba⟩ := TransGen.head'_iff.mp h
    obtain heq | hba := reflTransGen_iff_eq_or_transGen.mp hba
    · exact .inl ⟨a, heq ▸ hab⟩
    · by_cases heq : a = b
      · exact .inl ⟨a, heq ▸ hab⟩
      · exact .inr ⟨a, b, heq, .single hab, hba⟩
  · rintro (⟨a, h⟩ | ⟨a, b, -, hab, hba⟩)
    · exact ⟨a, .single h⟩
    · exact ⟨a, hab.trans hba⟩

/-! ## The order -/

/-- The local phase whose completion or output a dependency needs. -/
def awaited : PhaseDependency → Option PhaseId
  | .requires (.local id) => some id
  | .consumes ⟨.local id, _⟩ => some id
  | _ => none

def Depends (spec : RoadmapSpec) (a b : PhaseId) : Prop :=
  ∃ phase, spec.phases.get? a = some phase ∧ some b ∈ phase.dependencies.map awaited

/-- A phase is completed after another one. -/
def ComesAfter (spec : RoadmapSpec) (a b : PhaseId) : Prop := spec.Child a b ∨ Depends spec a b

/-- A phase depends on another one or on a phase that the other one is part of. -/
def Waits (spec : RoadmapSpec) : PhaseId → PhaseId → Prop := Under (Depends spec) spec.Child

section
variable {spec : RoadmapSpec}

theorem not_circular_of_compile (h : AdmittedRoadmap.compile spec = .ok roadmap) :
    ∀ row ∈ spec.localDependencies, ¬spec.Circular row := by
  simp only [AdmittedRoadmap.compile, Except.bind_eq_ok_iff] at h
  obtain ⟨tree, htree, _, hcycles, -⟩ := h
  rw [rejectCompletionCycles_eq, Except.forM_eq_ok_iff] at hcycles
  exact fun row hrow =>
    ((rejectCircular_eq_ok_iff (Tree.complete_of_validate htree)).mp (hcycles row hrow)).2

theorem not_depends_self (hown : spec.OwnKeys) (h : AdmittedRoadmap.compile spec = .ok roadmap) :
    ¬Depends spec a a := by
  rintro ⟨phase, hphase, hmem⟩
  obtain ⟨dependency, hdependency, hawaited⟩ := List.mem_map.mp hmem
  have hreferenced : dependency.referenced = some a := by
    rw [← hawaited]
    unfold awaited at hawaited ⊢
    split at hawaited <;> first | rfl | cases hawaited
  refine not_circular_of_compile h (phase, a) ?_ (.inl (hown a phase hphase).symm)
  refine List.mem_flatMap.mpr ⟨phase, SortedMap.mem_values_iff.mpr ⟨a, hphase⟩, ?_⟩
  exact List.mem_map.mpr ⟨a, List.mem_filterMap.mpr ⟨dependency, hdependency, hreferenced⟩, rfl⟩

theorem not_child_loop (h : AdmittedRoadmap.compile spec = .ok roadmap) (a : PhaseId) :
    ¬TransGen spec.Child a a := by
  intro hloop
  obtain ⟨tree, hadmitted⟩ := admitted_of_compile h
  obtain ⟨_, ⟨phase, hphase, -⟩, -⟩ := TransGen.head'_iff.mp hloop
  exact hadmitted.valid.rooted.not_loop (hadmitted.valid.reach hphase) hloop

end

/-- The completion order of a compiled plan has no loop exactly when no phase depends on a phase that
it is part of, and no two phases wait for each other. -/
theorem completion_acyclic_iff {contentId : ContentIdOf} {revision : RoadmapRevision}
    {deck : SourceDeck} {policy : TractabilityPolicy} {verifier : PromiseVerifier}
    (hown : revision.spec.OwnKeys)
    (h : compilePlan contentId revision deck policy verifier = .ok plan) :
    (∀ a, ¬TransGen (ComesAfter revision.spec) a a) ↔
      (∀ a c, Depends revision.spec a c → ¬TransGen revision.spec.Child c a) ∧
      ∀ a b, a ≠ b → TransGen (Waits revision.spec) a b → ¬TransGen (Waits revision.spec) b a := by
  obtain ⟨roadmap, hadmit⟩ := admitted_of_compilePlan h
  have hloops : (∃ a, TransGen (ComesAfter revision.spec) a a) ↔
      (∃ a, Waits revision.spec a a) ∨ ∃ a b, a ≠ b ∧ TransGen (Waits revision.spec) a b ∧
        TransGen (Waits revision.spec) b a :=
    (Under.loop_iff (not_child_loop hadmit)).trans transGen_loop_iff
  rw [← not_exists, hloops, not_or, not_exists]
  refine and_congr ?_ ?_
  · constructor
    · exact fun hnone a c hdepends habove => hnone a ⟨c, hdepends, habove.to_reflTransGen⟩
    · rintro hnone a ⟨c, hdepends, habove⟩
      obtain rfl | habove := reflTransGen_iff_eq_or_transGen.mp habove
      · exact not_depends_self hown hadmit hdepends
      · exact hnone a c hdepends habove
  · simp only [not_exists, not_and]

/-! ## Two leaves -/

namespace Sample
open RoadmapCore.Sample RoadmapRefine.Sample

def emptyDeck : SourceDeck where
  id := ⟨mark 3⟩
  repositories := []
  fragments := []
  files := []
  evidence := []
  limitations := []

def noVerifier : PromiseVerifier :=
  ⟨fun _ _ => false, fun _ _ => false, fun _ _ => false⟩

/-- A root with two leaves that require the given phases. -/
def requiring (left right : List PhaseId) : RoadmapRevision where
  id := ⟨mark 1⟩
  parent := none
  spec := spec (left.map (.requires <| .local ·)) (right.map (.requires <| .local ·))
  change := ⟨textId "start" start_valid, "the first revision"⟩

theorem requiring_ownKeys : (requiring [rightId] []).spec.OwnKeys := by
  have hentries : ∀ e ∈ (requiring [rightId] []).spec.phases.entries, e.2.id = e.1 := by
    decide +kernel
  exact fun k phase hk => hentries (k, phase) (SortedMap.get?_eq_some_iff.mp hk)

theorem depends_requiring (h : Depends (requiring [rightId] []).spec a b) :
    a = leftId ∧ b = rightId := by
  have hentries : ∀ e ∈ (requiring [rightId] []).spec.phases.entries,
      ∀ other ∈ e.2.dependencies.map awaited, e.1 = leftId ∧ other = some rightId := by
    decide +kernel
  obtain ⟨phase, hphase, hmem⟩ := h
  obtain ⟨ha, hb⟩ := hentries (a, phase) (SortedMap.get?_eq_some_iff.mp hphase) _ hmem
  exact ⟨ha, Option.some.inj hb⟩

theorem not_child_right : ¬(requiring [rightId] []).spec.Child rightId b := by
  rintro ⟨phase, hphase, hmem⟩
  have hright : (requiring [rightId] []).spec.phases.get? rightId = some (leaf rightId []) := by
    decide +kernel
  cases hright.symm.trans hphase
  cases hmem

theorem waits_requiring (h : Waits (requiring [rightId] []).spec a b) :
    a = leftId ∧ b = rightId := by
  obtain ⟨c, hdepends, hbelow⟩ := h
  obtain ⟨rfl, rfl⟩ := depends_requiring hdepends
  obtain rfl | ⟨_, hchild, -⟩ := ReflTransGen.cases_head hbelow
  · exact ⟨rfl, rfl⟩
  · exact absurd hchild not_child_right

end Sample

theorem completion_acyclic_requiring :
    ∃ plan, compilePlan RoadmapRefine.Sample.digest (Sample.requiring [RoadmapCore.Sample.rightId] [])
        Sample.emptyDeck RoadmapRefine.Sample.policy Sample.noVerifier = .ok plan ∧
      ∀ a, ¬TransGen (ComesAfter (Sample.requiring [RoadmapCore.Sample.rightId] []).spec) a a := by
  have hrun : ((compilePlan RoadmapRefine.Sample.digest
      (Sample.requiring [RoadmapCore.Sample.rightId] []) Sample.emptyDeck
      RoadmapRefine.Sample.policy Sample.noVerifier).map fun _ => ()) = .ok () := by decide +kernel
  obtain ⟨plan, h, -⟩ := Except.map_eq_ok_iff.mp hrun
  refine ⟨plan, h, (completion_acyclic_iff Sample.requiring_ownKeys h).mpr ⟨?_, ?_⟩⟩
  · rintro a c hdepends habove
    obtain ⟨-, rfl⟩ := Sample.depends_requiring hdepends
    obtain ⟨_, hchild, -⟩ := TransGen.head'_iff.mp habove
    exact Sample.not_child_right hchild
  · rintro a b - hab hba
    obtain ⟨_, -, hb⟩ := TransGen.tail'_iff.mp hab
    obtain ⟨_, ha, -⟩ := TransGen.head'_iff.mp hba
    exact absurd ((Sample.waits_requiring ha).1.symm.trans (Sample.waits_requiring hb).2) (by decide)

/-- Two leaves that require each other are compiled into a plan. -/
theorem mutual_requires_compiled :
    validateSpec (Sample.requiring [RoadmapCore.Sample.rightId] [RoadmapCore.Sample.leftId]).spec =
      .ok () ∧
    (∃ plan, compilePlan RoadmapRefine.Sample.digest
      (Sample.requiring [RoadmapCore.Sample.rightId] [RoadmapCore.Sample.leftId]) Sample.emptyDeck
      RoadmapRefine.Sample.policy Sample.noVerifier = .ok plan) ∧
    TransGen (ComesAfter
      (Sample.requiring [RoadmapCore.Sample.rightId] [RoadmapCore.Sample.leftId]).spec)
      RoadmapCore.Sample.leftId RoadmapCore.Sample.leftId := by
  have hrun : ((compilePlan RoadmapRefine.Sample.digest
      (Sample.requiring [RoadmapCore.Sample.rightId] [RoadmapCore.Sample.leftId]) Sample.emptyDeck
      RoadmapRefine.Sample.policy Sample.noVerifier).map fun _ => ()) = .ok () := by decide +kernel
  obtain ⟨plan, h, -⟩ := Except.map_eq_ok_iff.mp hrun
  have hleft : Depends (Sample.requiring [RoadmapCore.Sample.rightId]
      [RoadmapCore.Sample.leftId]).spec RoadmapCore.Sample.leftId RoadmapCore.Sample.rightId :=
    ⟨RoadmapCore.Sample.leaf RoadmapCore.Sample.leftId
      [.requires (.local RoadmapCore.Sample.rightId)], by decide +kernel, List.mem_singleton_self _⟩
  have hright : Depends (Sample.requiring [RoadmapCore.Sample.rightId]
      [RoadmapCore.Sample.leftId]).spec RoadmapCore.Sample.rightId RoadmapCore.Sample.leftId :=
    ⟨RoadmapCore.Sample.leaf RoadmapCore.Sample.rightId
      [.requires (.local RoadmapCore.Sample.leftId)], by decide +kernel, List.mem_singleton_self _⟩
  exact ⟨by decide +kernel, ⟨plan, h⟩, .head (.inr hleft) (.single (.inr hright))⟩

end SimAgentNet.RoadmapPlan
