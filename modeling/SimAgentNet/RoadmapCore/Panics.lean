import SimAgentNet.RoadmapCore.Exact
import SimAgentNet.RoadmapCore.Validation
import SimAgentNet.Data.Refusal

/-! # Panics of admission

The passes of admission index maps. Tree validation and the compilation of a validated tree find
every phase they index; the check for circular completion indexes the id that a phase carries, which
need not be the key it is stored under. -/

namespace SimAgentNet.RoadmapCore

open Relation Except

theorem treeFailure_ne_panicked {spec : RoadmapSpec} :
    treeFailure spec rule phase related path ≠ .panicked := by
  unfold treeFailure
  split <;> exact nofun

theorem mapError_failure_ne_panicked {x : Except Failure α} :
    x.mapError Halt.failure ≠ .error .panicked :=
  mapError_ne_error fun _ => nofun

theorem index_ne_panicked {m : SortedMap PhaseId β} (h : k ∈ m.keys) :
    index m k ≠ .error .panicked := by
  obtain ⟨v, hv⟩ := SortedMap.mem_keys_iff.mp h
  rw [index_eq_ok_iff.mpr hv]
  exact nofun

theorem index_eq_panicked {m : SortedMap PhaseId β} (h : k ∉ m.keys) :
    index m k = .error .panicked := by
  unfold index
  cases hk : m.get? k with
  | none => rfl
  | some v => exact absurd (SortedMap.mem_keys_iff.mpr ⟨v, hk⟩) h

/-! ## Tree validation -/

namespace Tree
variable {spec : RoadmapSpec} {links : Links} {w : Walk}

theorem checkRoot_ne_panicked : checkRoot spec ≠ .error .panicked := by
  unfold checkRoot
  split
  · exact nofun
  · exact guard_ne_error treeFailure_ne_panicked fun _ =>
      guard_ne_error treeFailure_ne_panicked fun _ => nofun

theorem linkChild_ne_panicked {phase : PhaseSpec} :
    linkChild spec phase links child ≠ .error .panicked := by
  unfold linkChild
  refine guard_ne_error nofun fun _ => guard_ne_error treeFailure_ne_panicked fun hin =>
    guard_ne_error treeFailure_ne_panicked fun _ => bind_ne_error (index_ne_panicked ?_) fun _ _ =>
      guard_ne_error treeFailure_ne_panicked fun _ => nofun
  rw [← SortedMap.contains_iff_mem_keys]
  simpa using hin

theorem linkParent_ne_panicked : linkParent spec links phase ≠ .error .panicked := by
  unfold linkParent
  split
  · exact nofun
  · exact guard_ne_error treeFailure_ne_panicked fun _ => nofun

theorem linkPhase_ne_panicked : linkPhase spec links phase ≠ .error .panicked := by
  unfold linkPhase
  refine bind_ne_error linkParent_ne_panicked fun mid _ => ?_
  split
  · exact nofun
  · refine guard_ne_error treeFailure_ne_panicked fun _ =>
      guard_ne_error treeFailure_ne_panicked fun _ => ?_
    exact Run.never (P := fun _ => True) (fun _ _ _ _ => ⟨linkChild_ne_panicked, fun _ _ => trivial⟩)
      trivial

theorem addDescendant_ne_panicked {m : SortedMap PhaseId (SortedSet PhaseId)}
    {row : PhaseId × CausalPath} (h : ∀ a ∈ row.2.phases.dropLast, Knows m a) :
    addDescendant m row ≠ .error .panicked := by
  refine Run.never (P := fun m => ∀ a ∈ row.2.phases.dropLast, Knows m a) ?_ h
  intro a ha m hm
  refine ⟨bind_ne_error (index_ne_panicked (SortedMap.mem_keys_iff.mpr (hm a ha)))
    fun _ _ => nofun, fun m' hm' b hb => ?_⟩
  obtain ⟨below, -, hm'⟩ := bind_eq_ok_iff.mp hm'
  cases hm'
  rw [Knows, SortedMap.get?_insert]
  split
  · exact ⟨_, rfl⟩
  · exact hm b hb

/-- The phases that are reached from the root are there. -/
theorem mem_keys_of_reach (hroot : checkRoot spec = .ok ())
    (hlinks : spec.phases.values.foldlM (linkPhase spec) ⟨∅, ∅⟩ = .ok links)
    (h : ReflTransGen spec.Child spec.root k) : k ∈ spec.phases.keys := by
  induction h with
  | refl =>
    unfold checkRoot at hroot
    split at hroot
    · cases hroot
    · rename_i root hget
      exact SortedMap.mem_keys_iff.mpr ⟨root, hget⟩
  | tail _ hc _ =>
    obtain ⟨phase, hphase, hc⟩ := hc
    have hall := (links_spec hlinks).1 phase (SortedMap.mem_values_iff.mpr ⟨_, hphase⟩)
    obtain ⟨below, hbelow, -⟩ := (hall.2.2.2 _ hc).2
    exact SortedMap.mem_keys_iff.mpr ⟨below, hbelow⟩

theorem validate_ne_panicked : validate spec ≠ .error .panicked := by
  unfold validate
  refine guard_ne_error treeFailure_ne_panicked fun _ =>
    bind_ne_error checkRoot_ne_panicked fun _ hroot => ?_
  refine bind_ne_error (Run.never (P := fun _ => True)
    (fun _ _ _ _ => ⟨linkPhase_ne_panicked, fun _ _ => trivial⟩) trivial) fun links hlinks => ?_
  have hchild (k phase) (hk : spec.phases.get? k = some phase) (c) (hc : c ∈ phase.body.children) :
      c ∈ spec.phases.keys := by
    have hall := (links_spec hlinks).1 phase (SortedMap.mem_values_iff.mpr ⟨k, hk⟩)
    obtain ⟨below, hbelow, -⟩ := (hall.2.2.2 c hc).2
    exact SortedMap.mem_keys_iff.mpr ⟨below, hbelow⟩
  refine bind_ne_error (walk_ne_panicked hchild (mem_keys_of_reach hroot hlinks .refl) ?_ ?_)
    fun w hw => ?_
  · intro c hc
    cases hc
  · exact Nat.lt_succ_self _
  have hpaths := walk_paths .root (by intro k path hk; cases hk) hw
  have hknown (k) (hk : k ∈ w.paths.keys) : k ∈ spec.phases.keys := by
    obtain ⟨path, hpath⟩ := SortedMap.mem_keys_iff.mp hk
    obtain ⟨l, hl, -⟩ := hpaths k path hpath
    exact mem_keys_of_reach hroot hlinks hl.reach
  split
  · rename_i hsize
    split
    · -- every phase has a path, and nothing else has one
      rename_i hfind
      rw [List.find?_eq_none] at hfind
      refine absurd ?_ hsize
      have hperm : w.paths.keys.Perm spec.phases.keys := by
        refine (List.perm_ext_iff_of_nodup (SortedMap.nodup_keys _) (SortedMap.nodup_keys _)).mpr
          fun k => ⟨hknown k, fun hk => ?_⟩
        rw [← SortedMap.contains_iff_mem_keys]
        simpa using hfind k hk
      have hlen := hperm.length_eq
      rwa [SortedMap.keys, SortedMap.keys, List.length_map, List.length_map] at hlen
    · exact fun h => treeFailure_ne_panicked (Except.error.inj h)
  · refine bind_ne_error (Run.never (P := fun m => ∀ a ∈ spec.phases.keys, Knows m a) ?_ ?_)
      fun _ _ h => by cases h
    · intro row hrow m hm
      refine ⟨addDescendant_ne_panicked fun a ha => hm a ?_, fun m' hm' a ha => ?_⟩
      · obtain ⟨l, hl, hpath, -⟩ := hpaths row.1 row.2 (SortedMap.get?_eq_some_iff.mpr hrow)
        rw [hpath, List.dropLast_concat] at ha
        obtain ⟨b, hab, -⟩ := TransGen.head'_iff.mp (hl.transGen_of_mem ha)
        obtain ⟨phase, hphase, -⟩ := hab
        exact SortedMap.mem_keys_iff.mpr ⟨phase, hphase⟩
      · exact ((below_of_ancestors hm').1 a).mpr (hm a ha)
    · intro a ha
      rw [Knows, get?_noDescendants, if_pos ha]
      exact ⟨∅, rfl⟩

end Tree

/-! ## Compilation of a validated tree -/

/-- The tree that validation returns has a path and the descendants of each phase. -/
structure Tree.Complete (spec : RoadmapSpec) (tree : Tree) : Prop where
  valid : Tree.Valid spec tree
  validated : Tree.validate spec = .ok tree
  paths : k ∈ tree.paths.keys ↔ k ∈ spec.phases.keys
  descendants : k ∈ tree.descendants.keys ↔ k ∈ spec.phases.keys
  closed : tree.descendants.get? k = some below → ∀ c, c ∈ below ↔ TransGen spec.Child k c

theorem Tree.complete_of_validate (h : Tree.validate spec = .ok tree) : Tree.Complete spec tree := by
  have hvalid := Tree.valid_of_validate h
  obtain ⟨links, w, descendants, -, -, hwalk, hsize, hdescendants, rfl⟩ := Tree.validate_cases h
  have hpaths := Tree.walk_paths .root (by intro k path hk; cases hk) hwalk
  have hsub (k) (hk : k ∈ w.paths.keys) : k ∈ spec.phases.keys := by
    obtain ⟨path, hpath⟩ := SortedMap.mem_keys_iff.mp hk
    obtain ⟨l, hl, -⟩ := hpaths k path hpath
    exact SortedMap.mem_keys_iff.mpr (hvalid.exists_phase hl.reach)
  have hkeys (k) (hk : k ∈ spec.phases.keys) : ReflTransGen spec.Child spec.root k := by
    obtain ⟨phase, hphase⟩ := SortedMap.mem_keys_iff.mp hk
    exact hvalid.reach hphase
  have hknown (k) (hk : k ∈ spec.phases.keys) : k ∈ w.paths.keys :=
    SortedMap.mem_keys_of_size_eq hsub hsize hk
  obtain ⟨hknows, hbelow⟩ := Tree.descendants_spec hvalid.rooted hpaths
    (fun k hk => SortedMap.mem_keys_iff.mp (hknown k
      (SortedMap.mem_keys_iff.mpr (hvalid.exists_phase hk)))) hkeys hdescendants
  refine ⟨hvalid, h, ⟨hsub _, hknown _⟩, SortedMap.mem_keys_iff.trans (hknows _), ?_⟩
  intro k below hk c
  rw [← hbelow k ((hknows k).mp ⟨below, hk⟩) c]
  constructor
  · exact fun hc => ⟨below, hk, hc⟩
  · rintro ⟨below', hget, hc⟩
    cases hk.symm.trans hget
    exact hc

theorem mem_keys_acceptanceMap {items : List (PhaseId × AcceptanceContract)} :
    k ∈ (acceptanceMap items).keys ↔ k ∈ items.map (·.1) := by
  have hfold : ∀ (items : List (PhaseId × AcceptanceContract)) (m : SortedMap PhaseId _),
      k ∈ (items.foldl (fun m e => m.insert e.1 e.2) m).keys ↔
        k ∈ m.keys ∨ k ∈ items.map (·.1) := by
    intro items
    induction items with
    | nil => exact fun m => by simp
    | cons e items ih =>
      intro m
      rw [List.foldl_cons, ih, SortedMap.mem_keys_iff, SortedMap.get?_insert, List.map_cons,
        List.mem_cons, SortedMap.mem_keys_iff]
      split
      · rename_i heq
        exact ⟨fun _ => .inr (.inl heq), fun _ => .inl ⟨_, rfl⟩⟩
      · rename_i hne
        simp only [hne, false_or]
  rw [acceptanceMap, SortedMap.ofList, hfold]
  simp [SortedMap.keys, EmptyCollection.emptyCollection]

/-- Reading the contracts of phases that are there keeps the phases. -/
theorem map_fst_of_mapM {f : PhaseId → Except Halt AcceptanceContract} {children : List PhaseId}
    (h : children.mapM (fun id => do return (id, (← f id))) = .ok accepted) :
    accepted.map (·.1) = children := by
  induction children generalizing accepted with
  | nil =>
    cases h
    rfl
  | cons c children ih =>
    simp only [List.mapM_cons, bind_eq_ok_iff] at h
    obtain ⟨row, ⟨a, -, hrow⟩, rest, hrest, h⟩ := h
    cases hrow
    cases h
    rw [List.map_cons, ih hrest]

theorem coverMarker_ne_panicked {accepted : List (PhaseId × AcceptanceContract)}
    (h : accepted.map (·.1) = children) {marker : ObligationCoverage} :
    coverMarker parentId acceptance children (acceptanceMap accepted) path dispositions marker ≠
      .error .panicked := by
  unfold coverMarker
  refine bind_ne_error ?_ fun _ _ => guard_ne_error nofun fun _ => guard_ne_error nofun fun _ => nofun
  cases marker with
  | retainedAtParent => exact nofun
  | contributes parent phase child =>
    refine guard_ne_error nofun fun hin => bind_ne_error (index_ne_panicked ?_) fun _ _ =>
      guard_ne_error nofun fun _ => nofun
    rw [mem_keys_acceptanceMap, h]
    exact not_not.mp hin

theorem validateCoverage_ne_panicked (ht : Tree.Complete spec tree) (hk : k ∈ spec.phases.keys) :
    validateCoverage spec k acceptance ≠ .error .panicked := by
  unfold validateCoverage
  refine bind_ne_error (index_ne_panicked hk) fun phase hphase => ?_
  split
  · exact nofun
  · rename_i children hbody
    rw [ht.validated, ok_bind]
    refine bind_ne_error (index_ne_panicked (ht.paths.mpr hk)) fun path _ =>
      bind_ne_error ?_ fun accepted haccepted => ?_
    · intro h
      obtain ⟨c, hc, hbad⟩ := mapM_eq_error h
      obtain ⟨below, hbelow, -⟩ := ht.valid.child (index_eq_ok_iff.mp hphase)
        (show c ∈ phase.body.children by rw [hbody]; exact hc)
      rw [index_eq_ok_iff.mpr hbelow] at hbad
      cases hbad
    · have hmap := map_fst_of_mapM (f := fun id => do return (← index spec.phases id).acceptance)
        (by simpa using haccepted)
      refine bind_ne_error (Run.never (P := fun _ => True)
        (fun _ _ _ _ => ⟨coverMarker_ne_panicked hmap, fun _ _ => trivial⟩) trivial) fun _ _ => ?_
      split
      · exact nofun
      · split <;> exact nofun

theorem admitPhase_ne_panicked (ht : Tree.Complete spec tree) (hk : k ∈ spec.phases.keys) :
    admitPhase spec k phase path parent ≠ .error .panicked := by
  have hcover : validateCoverage spec k phase.acceptance ≠ .error .panicked :=
    validateCoverage_ne_panicked ht hk
  unfold admitPhase
  split
  · unfold admitBelow
    exact bind_ne_error mapError_failure_ne_panicked fun _ _ =>
      bind_ne_error mapError_failure_ne_panicked fun _ _ =>
      bind_ne_error mapError_failure_ne_panicked fun _ _ =>
      bind_ne_error mapError_failure_ne_panicked fun _ _ =>
      bind_ne_error mapError_failure_ne_panicked fun _ _ =>
      bind_ne_error hcover fun _ _ => nofun
  · exact map_ne_error hcover

/-- The phases on the way down are distinct. -/
theorem length_lt_size (ht : Tree.Valid spec tree) (hl : Descends spec.Child spec.root l k) :
    l.length < spec.phases.size := by
  have hnd := hl.nodup_concat ht.rooted
  have hle : (l ++ [k]).length ≤ spec.phases.keys.length := by
    refine (hnd.subperm fun c hc => ?_).length_le
    rcases List.mem_append.mp hc with hc | hc
    · obtain ⟨b, ⟨phase, hphase, -⟩, -⟩ := TransGen.head'_iff.mp (hl.transGen_of_mem hc)
      exact SortedMap.mem_keys_iff.mpr ⟨phase, hphase⟩
    · cases List.mem_singleton.mp hc
      exact SortedMap.mem_keys_iff.mpr (ht.exists_phase hl.reach)
  rwa [SortedMap.keys, List.length_map, List.length_append, List.length_singleton] at hle

/-- The number of phases is fuel enough. -/
theorem compilePhase_ne_panicked (ht : Tree.Complete spec tree)
    (hl : Descends spec.Child spec.root l k) (hfuel : spec.phases.size < fuel + l.length) :
    compilePhase spec tree fuel k parent admitted ≠ .error .panicked := by
  have hkey {c} (hc : ReflTransGen spec.Child spec.root c) : c ∈ spec.phases.keys :=
    SortedMap.mem_keys_iff.mpr (ht.valid.exists_phase hc)
  induction fuel generalizing l k parent admitted with
  | zero =>
    have hlt := length_lt_size ht.valid hl
    omega
  | succ fuel ih =>
    unfold compilePhase
    have hk := hkey hl.reach
    refine bind_ne_error (index_ne_panicked hk) fun phase hphase =>
      bind_ne_error (index_ne_panicked (ht.paths.mpr hk)) fun path _ =>
      bind_ne_error (admitPhase_ne_panicked ht hk) fun current _ => ?_
    refine Run.never (P := fun _ => True) (fun c hc m _ => ⟨?_, fun _ _ => trivial⟩) trivial
    refine ih (hl.step ⟨phase, index_eq_ok_iff.mp hphase, hc⟩) ?_
    rw [List.length_append, List.length_singleton]
    omega

/-! ## Circular completion -/

/-- The dependencies on local phases, in the order in which they are looked at. -/
def RoadmapSpec.localDependencies (spec : RoadmapSpec) : List (PhaseSpec × PhaseId) :=
  spec.phases.values.flatMap fun phase =>
    (phase.dependencies.filterMap (·.referenced)).map (phase, ·)

/-- The phase depends on itself or on a phase below it. -/
def RoadmapSpec.Circular (spec : RoadmapSpec) (row : PhaseSpec × PhaseId) : Prop :=
  row.2 = row.1.id ∨ TransGen spec.Child row.1.id row.2

/-- A phase with a dependency on a local phase carries the key of a phase as its id, or comes after
a circular dependency. -/
def RoadmapSpec.Guarded (spec : RoadmapSpec) : Prop :=
  ∀ before row after, spec.localDependencies = before ++ row :: after →
    row.1.id ∈ spec.phases.keys ∨ ∃ earlier ∈ before, spec.Circular earlier

/-- The check of one dependency on a local phase. -/
def rejectCircular (tree : Tree) (row : PhaseSpec × PhaseId) : Except Halt Unit := do
  let circular ← if row.2 = row.1.id then .ok true
    else (index tree.descendants row.1.id).map (decide <| row.2 ∈ ·)
  if circular then
    let path ← index tree.paths row.1.id
    .error (.failure (.circularCompletion row.1.id row.2 path))
  else return

theorem rejectCompletionCycles_eq (spec : RoadmapSpec) (tree : Tree) :
    rejectCompletionCycles spec tree = spec.localDependencies.forM (rejectCircular tree) := by
  rw [RoadmapSpec.localDependencies, forM_flatMap]
  refine congrArg (List.forM spec.phases.values) (funext fun phase => ?_)
  rw [forM_map, forM_filterMap]
  refine congrArg (List.forM phase.dependencies) (funext fun dependency => ?_)
  cases dependency.referenced with
  | none => rfl
  | some referenced =>
    show _ = rejectCircular tree (phase, referenced)
    unfold rejectCircular
    rfl

section
variable {spec : RoadmapSpec} {tree : Tree} {row : PhaseSpec × PhaseId}

/-- Where the id is no key, an index into the tree is absent on either way. -/
theorem rejectCircular_of_not_mem (ht : Tree.Complete spec tree)
    (h : row.1.id ∉ spec.phases.keys) : rejectCircular tree row = .error .panicked := by
  unfold rejectCircular
  split
  · show (index tree.paths row.1.id >>= fun _ => _) = _
    rw [index_eq_panicked fun hp => h (ht.paths.mp hp)]
    rfl
  · rw [index_eq_panicked fun hd => h (ht.descendants.mp hd)]
    rfl

open Classical in
theorem rejectCircular_of_mem (ht : Tree.Complete spec tree) (h : row.1.id ∈ spec.phases.keys) :
    ∃ path, rejectCircular tree row = if spec.Circular row then
      .error (.failure (.circularCompletion row.1.id row.2 path)) else .ok () := by
  obtain ⟨path, hpath⟩ := SortedMap.mem_keys_iff.mp (ht.paths.mpr h)
  obtain ⟨below, hbelow⟩ := SortedMap.mem_keys_iff.mp (ht.descendants.mpr h)
  refine ⟨path, ?_⟩
  unfold rejectCircular
  by_cases hself : row.2 = row.1.id
  · rw [if_pos hself, if_pos (.inl hself), index_eq_ok_iff.mpr hpath]
    rfl
  · rw [if_neg hself, index_eq_ok_iff.mpr hbelow]
    by_cases hc : TransGen spec.Child row.1.id row.2
    · have hin := (ht.closed hbelow row.2).mpr hc
      rw [if_pos (.inr hc), index_eq_ok_iff.mpr hpath]
      simp only [Except.map, ok_bind, decide_eq_true hin, if_true]
    · have hout : row.2 ∉ below := fun hin => hc ((ht.closed hbelow row.2).mp hin)
      have hnot : ¬spec.Circular row := fun hcirc => hcirc.elim hself hc
      rw [if_neg hnot]
      simp only [Except.map, ok_bind, decide_eq_false hout, Bool.false_eq_true, if_false]
      rfl

/-- The check passes over a dependency that is not circular. -/
theorem rejectCircular_eq_ok_iff (ht : Tree.Complete spec tree) :
    rejectCircular tree row = .ok () ↔ row.1.id ∈ spec.phases.keys ∧ ¬spec.Circular row := by
  by_cases h : row.1.id ∈ spec.phases.keys
  · obtain ⟨path, heq⟩ := rejectCircular_of_mem ht h
    rw [heq]
    by_cases hc : spec.Circular row
    · simp [hc]
    · simp [h, hc]
  · rw [rejectCircular_of_not_mem ht h]
    exact ⟨nofun, fun hk => absurd hk.1 h⟩

theorem rejectCircular_eq_panicked_iff (ht : Tree.Complete spec tree) :
    rejectCircular tree row = .error .panicked ↔ row.1.id ∉ spec.phases.keys := by
  refine ⟨fun hp hk => ?_, rejectCircular_of_not_mem ht⟩
  obtain ⟨path, heq⟩ := rejectCircular_of_mem ht hk
  rw [heq] at hp
  split at hp <;> cases hp

/-- The loop panics at the first id that is no key, unless a circular dependency comes before. -/
theorem rejectCompletionCycles_eq_panicked_iff (ht : Tree.Complete spec tree) :
    rejectCompletionCycles spec tree = .error .panicked ↔ ¬spec.Guarded := by
  rw [rejectCompletionCycles_eq]
  constructor
  · intro h hguard
    obtain ⟨before, row, after, hrows, hbefore, hrow⟩ := forM_eq_error_iff.mp h
    rcases hguard before row after hrows with hk | ⟨earlier, hmem, hc⟩
    · exact (rejectCircular_eq_panicked_iff ht).mp hrow hk
    · exact ((rejectCircular_eq_ok_iff ht).mp (hbefore earlier hmem)).2 hc
  · intro hguard
    simp only [RoadmapSpec.Guarded, not_forall, not_or, not_exists, not_and] at hguard
    obtain ⟨before, row, after, hrows, hk, hbefore⟩ := hguard
    rw [hrows, forM_append]
    cases hrun : before.forM (rejectCircular tree) with
    | ok =>
      show (rejectCircular tree row >>= fun _ => after.forM _) = _
      rw [(rejectCircular_eq_panicked_iff ht).mpr hk]
      rfl
    | error e =>
      -- what stops the loop before that row is not circular, so it panics as well
      obtain ⟨_, earlier, _, hsplit, -, hstop⟩ := forM_eq_error_iff.mp hrun
      have hmem : earlier ∈ before := by
        rw [hsplit]
        exact List.mem_append_right _ List.mem_cons_self
      by_cases hkey : earlier.1.id ∈ spec.phases.keys
      · have hok := (rejectCircular_eq_ok_iff ht).mpr ⟨hkey, hbefore earlier hmem⟩
        exact nomatch hstop.symm.trans hok
      · cases hstop.symm.trans ((rejectCircular_eq_panicked_iff ht).mpr hkey)
        rfl

end

/-! ## Admission -/

theorem compile_eq_panicked_iff {spec : RoadmapSpec} :
    AdmittedRoadmap.compile spec = .error .panicked ↔
      (Tree.validate spec).isOk = true ∧ ¬spec.Guarded := by
  unfold AdmittedRoadmap.compile
  rw [bind_eq_error_iff Tree.validate_ne_panicked]
  constructor
  · rintro ⟨tree, htree, h⟩
    have hcomplete := Tree.complete_of_validate htree
    refine ⟨by rw [htree]; rfl, (rejectCompletionCycles_eq_panicked_iff hcomplete).mp ?_⟩
    by_contra hcycles
    refine absurd h (bind_ne_error hcycles fun _ _ => bind_ne_error ?_ fun _ _ => nofun)
    exact compilePhase_ne_panicked hcomplete .root (Nat.lt_succ_self _)
  · rintro ⟨hok, hguard⟩
    obtain ⟨tree, htree⟩ := exists_of_isOk hok
    refine ⟨tree, htree, ?_⟩
    rw [(rejectCompletionCycles_eq_panicked_iff (Tree.complete_of_validate htree)).mpr hguard]
    rfl

/-- Compiling a specification panics exactly when its tree is accepted and a phase whose id is no key
has a dependency on a local phase that is looked at before any circular one; making it a revision
panics exactly when, in addition, the bound on its imports and the texts of its charter are met. -/
theorem admission_panics_iff (spec : RoadmapSpec) :
    (AdmittedRoadmap.compile spec ≠ .error .panicked ↔
      (Tree.validate spec).isOk = false ∨ spec.Guarded) ∧
    ∀ contentId parent change,
      RoadmapRevision.new contentId parent spec change ≠ .error .panicked ↔
        (validateCharter spec).isOk = false ∨ (Tree.validate spec).isOk = false ∨ spec.Guarded := by
  have hcompile : AdmittedRoadmap.compile spec ≠ .error .panicked ↔
      (Tree.validate spec).isOk = false ∨ spec.Guarded := by
    rw [Ne, compile_eq_panicked_iff, not_and_or, not_not, Bool.not_eq_true]
  refine ⟨hcompile, fun contentId parent change => ?_⟩
  rw [← hcompile]
  have hnew : RoadmapRevision.new contentId parent spec change = .error .panicked ↔
      validateSpec spec = .error .panicked := by
    refine ⟨fun h => ?_, fun h => by rw [RoadmapRevision.new, h]; rfl⟩
    by_contra hspec
    refine absurd h (bind_ne_error hspec fun _ _ => bind_ne_error mapError_failure_ne_panicked
      fun _ _ => bind_ne_error (mapError_ne_error fun _ => nofun) fun _ _ => nofun)
  rw [Ne, hnew]
  unfold validateSpec
  cases hcharter : validateCharter spec with
  | error f => exact ⟨fun _ => .inl rfl, fun _ => nofun⟩
  | ok u =>
    show ¬(AdmittedRoadmap.compile spec >>= _) = _ ↔ _
    constructor
    · intro h
      refine .inr fun hc => h ?_
      rw [hc]
      rfl
    · rintro (h | h)
      · cases h
      · exact bind_ne_error h fun _ _ => bind_ne_error mapError_failure_ne_panicked fun _ _ =>
          mapError_failure_ne_panicked

/-! ## A phase under another key -/

namespace Sample

/-- A root whose child carries an id that is no key. -/
def misfiled : RoadmapSpec :=
  { spec [] [] with
    phases := (SortedMap.insert ∅ rootId { root with body := .composite [leftId] }).insert leftId
      (leaf rightId [.requires (.local rootId)]) }

end Sample

theorem misfiled_panics : AdmittedRoadmap.compile Sample.misfiled = .error .panicked ∧
    ∀ contentId change,
      RoadmapRevision.new contentId none Sample.misfiled change = .error .panicked := by
  have hrun : AdmittedRoadmap.compile Sample.misfiled = .error .panicked := by decide +kernel
  have hcharter : validateCharter Sample.misfiled = .ok () := by decide +kernel
  refine ⟨hrun, fun contentId change => ?_⟩
  rw [RoadmapRevision.new, validateSpec, hcharter, hrun]
  rfl

end SimAgentNet.RoadmapCore
