import SimAgentNet.RoadmapCore.Panics
import SimAgentNet.RoadmapPlan.Schedule

/-! # Readiness

More observations leave fewer blockers, preferences only order, and completion of a phase does not
take it out of the ready set. -/

namespace SimAgentNet.RoadmapPlan

open RoadmapCore Relation
open RoadmapRefine (TractabilityPolicy)

/-- Each observation of the first is one of the second. -/
structure Observations.Within (o o' : Observations) : Prop where
  completedPhases : o.completedPhases ⊆ o'.completedPhases
  outputs : ∀ k ∈ o.outputs.keys, k ∈ o'.outputs.keys
  promises : o.promises ⊆ o'.promises
  acceptance : o.acceptance ⊆ o'.acceptance

def PhaseDependency.isPreference : PhaseDependency → Bool
  | .prefersAfter _ => true
  | _ => false

/-- The phases differ in their preferences only. -/
structure PreferenceAlike (p q : PhaseSpec) : Prop where
  others : { p with dependencies := q.dependencies } = q
  dependencies : p.dependencies.filter (!PhaseDependency.isPreference ·) =
    q.dependencies.filter (!PhaseDependency.isPreference ·)

/-- Preferences are added and removed. -/
def PreferencesOnly (spec spec' : RoadmapSpec) : Prop :=
  ∀ k, Option.Rel PreferenceAlike (spec.phases.get? k) (spec'.phases.get? k)

section
variable {spec spec' : RoadmapSpec} {o o' : Observations}

/-! ## Completion -/

theorem aggregateCompleteWithin_mono (h : o.Within o')
    (hc : aggregateCompleteWithin spec o fuel k = true) :
    aggregateCompleteWithin spec o' fuel k = true := by
  induction fuel generalizing k with
  | zero => cases hc
  | succ fuel ih =>
    rw [aggregateCompleteWithin] at hc ⊢
    cases hk : spec.phases.get? k with
    | none => simp [hk] at hc
    | some phase =>
      rw [hk] at hc
      cases hbody : phase.body with
      | leaf checkpoints =>
        simp only [hbody, decide_eq_true_iff] at hc ⊢
        exact h.completedPhases k hc
      | composite children =>
        simp only [hbody, List.all_eq_true] at hc ⊢
        exact fun c hmem => ih (hc c hmem)

/-- On the tree of a valid specification the depth is enough: more of it changes nothing. -/
theorem aggregateCompleteWithin_eq (ht : Tree.Valid spec tree)
    (hl : Descends spec.Child spec.root l k)
    (hfuel : spec.phases.size ≤ l.length + fuel) (hfuel' : spec.phases.size ≤ l.length + fuel') :
    aggregateCompleteWithin spec o fuel k = aggregateCompleteWithin spec o fuel' k := by
  induction fuel generalizing l k fuel' with
  | zero => exact absurd (length_lt_size ht hl) (Nat.not_lt.mpr hfuel)
  | succ fuel ih =>
    cases fuel' with
    | zero => exact absurd (length_lt_size ht hl) (Nat.not_lt.mpr hfuel')
    | succ fuel' =>
      rw [aggregateCompleteWithin, aggregateCompleteWithin]
      cases hk : spec.phases.get? k with
      | none => rfl
      | some phase =>
        cases hbody : phase.body with
        | leaf checkpoints => simp only [hbody]
        | composite children =>
          simp only [hbody]
          rw [Bool.eq_iff_iff, List.all_eq_true, List.all_eq_true]
          refine forall₂_congr fun c hc => ?_
          have hchild : spec.Child k c := ⟨phase, hk, by rw [hbody]; exact hc⟩
          have hlength : (l ++ [k]).length = l.length + 1 := List.length_append
          have heq := @ih _ _ fuel' (hl.step hchild) (by omega) (by omega)
          rw [heq]

/-- Completion of a composite phase is that of its children. -/
theorem aggregateComplete_eq (ht : Tree.Valid spec tree) (k : PhaseId) :
    aggregateComplete spec o k = match spec.phases.get? k with
      | none => false
      | some phase => match phase.body with
        | .leaf _ => decide (k ∈ o.completedPhases)
        | .composite children => children.all (aggregateComplete spec o) := by
  rw [aggregateComplete, aggregateCompleteWithin]
  cases hk : spec.phases.get? k with
  | none => rfl
  | some phase =>
    cases hbody : phase.body with
    | leaf checkpoints => simp only [hbody]
    | composite children =>
      simp only [hbody]
      rw [Bool.eq_iff_iff, List.all_eq_true, List.all_eq_true]
      refine forall₂_congr fun c hc => ?_
      obtain ⟨l, hl⟩ := Descends.exists_of_reach (ht.reach hk)
      have hchild : spec.Child k c := ⟨phase, hk, by rw [hbody]; exact hc⟩
      have heq := @aggregateCompleteWithin_eq spec o _ _ _ spec.phases.size (spec.phases.size + 1) ht
        (hl.step hchild) (by omega) (by omega)
      rw [aggregateComplete, heq]

/-! ## Blockers -/

theorem dependencyBlocker_mono (h : o.Within o') (hd : dependencyBlocker spec o d = none) :
    dependencyBlocker spec o' d = none := by
  unfold dependencyBlocker at hd ⊢
  split at hd
  · split at hd
    · rename_i hc
      exact if_pos (aggregateCompleteWithin_mono h hc)
    · cases hd
  · split at hd
    · rename_i hc
      refine if_pos ?_
      rw [SortedMap.contains_iff_mem_keys] at hc ⊢
      exact h.outputs _ hc
    · cases hd
  · cases hd
  · cases hd
  · rfl

theorem blockers_eq_nil_iff : blockers spec o k = [] ↔ ∃ phase, spec.phases.get? k = some phase ∧
    (∀ d ∈ phase.dependencies, dependencyBlocker spec o d = none) ∧
    (∀ promise ∈ phase.guide.promises, toLex (k, promise.id) ∈ o.promises) ∧
    ∀ obligation ∈ phase.acceptance.statements.keys, toLex (k, obligation) ∈ o.acceptance := by
  rw [blockers]
  cases hk : spec.phases.get? k with
  | none => simp
  | some phase =>
    simp only [List.append_eq_nil_iff, List.filterMap_eq_nil_iff, List.map_eq_nil_iff,
      List.filter_eq_nil_iff, decide_eq_true_iff, not_not, Option.some.injEq, exists_eq_left',
      and_assoc]

theorem blockers_mono (h : o.Within o') (hb : blockers spec o k = []) : blockers spec o' k = [] := by
  obtain ⟨phase, hphase, hd, hp, ha⟩ := blockers_eq_nil_iff.mp hb
  exact blockers_eq_nil_iff.mpr ⟨phase, hphase, fun d hmem => dependencyBlocker_mono h (hd d hmem),
    fun promise hmem => h.promises _ (hp promise hmem),
    fun obligation hmem => h.acceptance _ (ha obligation hmem)⟩

theorem mem_readySet_iff {phases : List CompiledPhase} : k ∈ readySet spec phases o ↔
    ∃ p ∈ phases, p.id = k ∧ p.atomic = true ∧ blockers spec o k = [] := by
  simp only [readySet, (StableSort.perm_sortBy _).mem_iff, List.mem_map, List.mem_filter,
    Bool.and_eq_true, List.isEmpty_iff]
  constructor
  · rintro ⟨p, ⟨hp, hatomic, hb⟩, rfl⟩
    exact ⟨p, hp, rfl, hatomic, hb⟩
  · rintro ⟨p, hp, rfl, hatomic, hb⟩
    exact ⟨p, ⟨hp, hatomic, hb⟩, rfl⟩

/-! ## Preferences -/

theorem PreferencesOnly.cases (h : PreferencesOnly spec spec') (k : PhaseId) :
    (spec.phases.get? k = none ∧ spec'.phases.get? k = none) ∨
      ∃ p q, spec.phases.get? k = some p ∧ spec'.phases.get? k = some q ∧ PreferenceAlike p q := by
  have hk := h k
  generalize spec.phases.get? k = phase, spec'.phases.get? k = phase' at hk
  cases hk with
  | some H => exact .inr ⟨_, _, rfl, rfl, H⟩
  | none => exact .inl ⟨rfl, rfl⟩

theorem PreferencesOnly.size_eq (h : PreferencesOnly spec spec') :
    spec.phases.size = spec'.phases.size := by
  have hkeys : spec.phases.keys.Perm spec'.phases.keys := by
    refine (List.perm_ext_iff_of_nodup (SortedMap.nodup_keys _) (SortedMap.nodup_keys _)).mpr
      fun k => ?_
    rw [SortedMap.mem_keys_iff, SortedMap.mem_keys_iff]
    obtain ⟨hp, hq⟩ | ⟨p, q, hp, hq, -⟩ := h.cases k
    · rw [hp, hq]
    · exact ⟨fun _ => ⟨q, hq⟩, fun _ => ⟨p, hp⟩⟩
  have hlength := hkeys.length_eq
  rwa [SortedMap.keys, SortedMap.keys, List.length_map, List.length_map] at hlength

theorem aggregateCompleteWithin_congr (h : PreferencesOnly spec spec') :
    aggregateCompleteWithin spec o fuel k = aggregateCompleteWithin spec' o fuel k := by
  induction fuel generalizing k with
  | zero => rfl
  | succ fuel ih =>
    rw [aggregateCompleteWithin, aggregateCompleteWithin]
    obtain ⟨hp, hq⟩ | ⟨p, q, hp, hq, H⟩ := h.cases k
    · rw [hp, hq]
    · rw [hp, hq]
      have hfun : aggregateCompleteWithin spec o fuel = aggregateCompleteWithin spec' o fuel :=
        funext fun k => ih
      rw [← H.others, hfun]

theorem aggregateComplete_congr (h : PreferencesOnly spec spec') :
    aggregateComplete spec o k = aggregateComplete spec' o k := by
  rw [aggregateComplete, aggregateComplete, h.size_eq, aggregateCompleteWithin_congr h]

theorem dependencyBlocker_congr (h : PreferencesOnly spec spec') (d : PhaseDependency) :
    dependencyBlocker spec o d = dependencyBlocker spec' o d := by
  unfold dependencyBlocker
  simp only [aggregateComplete_congr h]

/-- Preferences block nothing. -/
theorem filterMap_dependencyBlocker (dependencies : List PhaseDependency) :
    dependencies.filterMap (dependencyBlocker spec o) =
      (dependencies.filter (!PhaseDependency.isPreference ·)).filterMap
        (dependencyBlocker spec o) := by
  rw [List.filterMap_filter]
  refine List.filterMap_congr fun d _ => ?_
  cases d <;> rfl

theorem blockers_congr (h : PreferencesOnly spec spec') (k : PhaseId) :
    blockers spec o k = blockers spec' o k := by
  rw [blockers, blockers]
  obtain ⟨hp, hq⟩ | ⟨p, q, hp, hq, H⟩ := h.cases k
  · rw [hp, hq]
  · rw [hp, hq]
    have hguide : p.guide = q.guide := by rw [← H.others]
    have hacceptance : p.acceptance = q.acceptance := by rw [← H.others]
    simp only [hguide, hacceptance]
    rw [filterMap_dependencyBlocker, H.dependencies, ← filterMap_dependencyBlocker]
    simp only [funext (dependencyBlocker_congr h)]

end

/-! ## The ready set -/

/-- The phase is completed as well. -/
def Observations.complete (o : Observations) (k : PhaseId) : Observations :=
  { o with completedPhases := o.completedPhases.insert k }

theorem Observations.within_complete (o : Observations) (k : PhaseId) : o.Within (o.complete k) where
  completedPhases := fun _ h => SortedSet.mem_insert.mpr (.inr h)
  outputs := fun _ h => h
  promises := SortedSet.subset_refl _
  acceptance := SortedSet.subset_refl _

/-- More observations keep what is ready, and preferences do not change what it is. The ready phases
are the atomic ones without blockers, so that a phase stays ready when it is completed. -/
theorem readySet_spec (spec : RoadmapSpec) (phases : List CompiledPhase) :
    (∀ o o', Observations.Within o o' →
      ∀ k ∈ readySet spec phases o, k ∈ readySet spec phases o') ∧
    (∀ spec' o, PreferencesOnly spec spec' →
      (readySet spec phases o).Perm (readySet spec' phases o)) ∧
    (∀ o k, k ∈ readySet spec phases o ↔
      ∃ p ∈ phases, p.id = k ∧ p.atomic = true ∧ blockers spec o k = []) ∧
    ∀ o k, k ∈ readySet spec phases o → k ∈ readySet spec phases (o.complete k) := by
  have hmono (o o' : Observations) (h : o.Within o') (k) (hk : k ∈ readySet spec phases o) :
      k ∈ readySet spec phases o' := by
    obtain ⟨p, hp, heq, hatomic, hb⟩ := mem_readySet_iff.mp hk
    exact mem_readySet_iff.mpr ⟨p, hp, heq, hatomic, blockers_mono h hb⟩
  refine ⟨hmono, fun spec' o h => ?_, fun o k => mem_readySet_iff,
    fun o k hk => hmono o _ (o.within_complete k) k hk⟩
  refine (StableSort.perm_sortBy _).trans (.trans (.of_eq ?_) (StableSort.perm_sortBy _).symm)
  simp only [blockers_congr h]

/-! ## A completed leaf -/

namespace Sample
open RoadmapCore.Sample

def roomy : TractabilityPolicy := ⟨"v1", ⟨0, 1, 1, 1, 1, 1, 2⟩, 4⟩

def nothing : Observations := ⟨∅, ∅, ∅, ∅⟩

end Sample

theorem readySet_spec_right :
    ∃ plan, compilePlan RoadmapRefine.Sample.digest (Sample.requiring [RoadmapCore.Sample.rightId] [])
        Sample.emptyDeck Sample.roomy Sample.noVerifier = .ok plan ∧
      RoadmapCore.Sample.rightId ∈ readySet
        (Sample.requiring [RoadmapCore.Sample.rightId] []).spec plan.phases
        (Sample.nothing.complete RoadmapCore.Sample.rightId) := by
  have hrun : ((compilePlan RoadmapRefine.Sample.digest
      (Sample.requiring [RoadmapCore.Sample.rightId] []) Sample.emptyDeck Sample.roomy
      Sample.noVerifier).map fun plan => readySet
        (Sample.requiring [RoadmapCore.Sample.rightId] []).spec plan.phases Sample.nothing) =
      .ok [RoadmapCore.Sample.rootId, RoadmapCore.Sample.rightId] := by decide +kernel
  obtain ⟨plan, h, hready⟩ := Except.map_eq_ok_iff.mp hrun
  refine ⟨plan, h, (readySet_spec _ _).2.2.2 _ _ ?_⟩
  rw [hready]
  exact List.mem_cons_of_mem _ (List.mem_singleton_self _)

/-- A completed leaf is returned again. -/
theorem completed_phase_ready :
    ∃ plan, compilePlan RoadmapRefine.Sample.digest (Sample.requiring [RoadmapCore.Sample.rightId] [])
        Sample.emptyDeck Sample.roomy Sample.noVerifier = .ok plan ∧
      (plan.phases.map (·.id)).Nodup ∧
      RoadmapCore.Sample.rightId ∈
        (Sample.nothing.complete RoadmapCore.Sample.rightId).completedPhases ∧
      readySet (Sample.requiring [RoadmapCore.Sample.rightId] []).spec plan.phases
          (Sample.nothing.complete RoadmapCore.Sample.rightId) =
        [RoadmapCore.Sample.rootId, RoadmapCore.Sample.leftId, RoadmapCore.Sample.rightId] := by
  have hrun : ((compilePlan RoadmapRefine.Sample.digest
      (Sample.requiring [RoadmapCore.Sample.rightId] []) Sample.emptyDeck Sample.roomy
      Sample.noVerifier).map fun plan => (plan.phases.map (·.id), readySet
        (Sample.requiring [RoadmapCore.Sample.rightId] []).spec plan.phases
        (Sample.nothing.complete RoadmapCore.Sample.rightId))) =
      .ok ([RoadmapCore.Sample.rootId, RoadmapCore.Sample.leftId, RoadmapCore.Sample.rightId],
        [RoadmapCore.Sample.rootId, RoadmapCore.Sample.leftId, RoadmapCore.Sample.rightId]) := by
    decide +kernel
  obtain ⟨plan, h, heq⟩ := Except.map_eq_ok_iff.mp hrun
  obtain ⟨hids, hready⟩ := Prod.mk.inj heq
  refine ⟨plan, h, ?_, by decide, hready⟩
  rw [hids]
  decide

end SimAgentNet.RoadmapPlan
