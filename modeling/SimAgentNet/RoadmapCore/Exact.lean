import SimAgentNet.RoadmapCore.Admit

/-! # Validated trees

Parents, children, paths and descendants of a validated tree are those of one rooted tree, when the
phases are stored under their own ids. -/

namespace SimAgentNet.RoadmapCore

open Relation

/-- The phases are stored under their own ids. -/
def RoadmapSpec.OwnKeys (spec : RoadmapSpec) : Prop :=
  ∀ k phase, spec.phases.get? k = some phase → phase.id = k

/-- The parents, children, paths and descendants are those of a tree within the limits. -/
structure ExactTree (spec : RoadmapSpec) (tree : Tree) : Prop where
  root : ∃ root, spec.phases.get? spec.root = some root ∧ root.parent = none
  parent : spec.phases.get? k = some phase → k ≠ spec.root →
    ∃ q above, spec.phases.get? q = some above ∧ above.body.children.count k = 1 ∧
      phase.parent = some q ∧ ∀ q', spec.Child q' k → q' = q
  reach : spec.phases.get? k = some phase → ReflTransGen spec.Child spec.root k
  paths : tree.paths.get? k = some path ↔
    ∃ l, Descends spec.Child spec.root l k ∧ path.phases = l ++ [k]
  known : spec.phases.get? k = some phase → ∃ path, tree.paths.get? k = some path
  descendants : spec.phases.get? k = some phase →
    ∃ below, tree.descendants.get? k = some below ∧ ∀ c, c ∈ below ↔ TransGen spec.Child k c
  keys : tree.descendants.get? k = some below → ∃ phase, spec.phases.get? k = some phase
  depth : tree.paths.get? k = some path → path.phases.length ≤ spec.limits.treeDepth
  fanOut : spec.phases.get? k = some phase →
    phase.body.children.length ≤ spec.limits.childrenPerPhase

namespace Tree
variable {spec : RoadmapSpec} {rows : List (PhaseId × CausalPath)}
  {m m' : SortedMap PhaseId (SortedSet PhaseId)}

/-- The phase `c` is noted below `a`. -/
def Below (m : SortedMap PhaseId (SortedSet PhaseId)) (a c : PhaseId) : Prop :=
  ∃ below, m.get? a = some below ∧ c ∈ below

/-- The phases that have a set of descendants. -/
def Knows (m : SortedMap PhaseId (SortedSet PhaseId)) (a : PhaseId) : Prop :=
  ∃ below, m.get? a = some below

theorem below_of_ancestors {ancestors : List PhaseId}
    (h : ancestors.foldlM (fun descendants ancestor => do
      let below ← index descendants ancestor
      return descendants.insert ancestor (below.insert c)) m = Except.ok (ε := Halt) m') :
    (∀ a, Knows m' a ↔ Knows m a) ∧
      ∀ a x, Below m' a x ↔ Below m a x ∨ a ∈ ancestors ∧ x = c := by
  induction ancestors generalizing m with
  | nil =>
    cases h
    exact ⟨fun a => .rfl, fun a x => by simp⟩
  | cons ancestor ancestors ih =>
    obtain ⟨mid, hmid, h⟩ := Run.foldlM_cons_eq_ok_iff.mp h
    obtain ⟨below, hbelow, hmid⟩ := Except.bind_eq_ok_iff.mp hmid
    cases hmid
    have hbelow := index_eq_ok_iff.mp hbelow
    obtain ⟨hknows, hall⟩ := ih h
    constructor
    · intro a
      rw [hknows, Knows, SortedMap.get?_insert]
      split
      · rename_i heq
        cases heq
        exact ⟨fun _ => ⟨below, hbelow⟩, fun _ => ⟨_, rfl⟩⟩
      · exact .rfl
    · intro a x
      rw [hall, Below, SortedMap.get?_insert, List.mem_cons]
      split
      · rename_i heq
        cases heq
        simp only [Below, hbelow, Option.some.injEq, exists_eq_left', SortedSet.mem_insert]
        tauto
      · rename_i hne
        simp only [Below, hne, false_or]

/-- A phase is noted below the phases on its path, without itself. -/
theorem below_of_rows (h : rows.foldlM addDescendant m = .ok m') :
    (∀ a, Knows m' a ↔ Knows m a) ∧ ∀ a c, Below m' a c ↔
      Below m a c ∨ ∃ path, (c, path) ∈ rows ∧ a ∈ path.phases.dropLast := by
  induction rows generalizing m with
  | nil =>
    cases h
    exact ⟨fun a => .rfl, fun a c => by simp⟩
  | cons row rows ih =>
    obtain ⟨mid, hmid, h⟩ := Run.foldlM_cons_eq_ok_iff.mp h
    obtain ⟨hknows, hall⟩ := below_of_ancestors hmid
    obtain ⟨hknows', hall'⟩ := ih h
    refine ⟨fun a => (hknows' a).trans (hknows a), fun a c => ?_⟩
    rw [hall', hall, or_assoc]
    refine or_congr_right ⟨?_, ?_⟩
    · rintro (⟨ha, rfl⟩ | ⟨path, hrow, ha⟩)
      · exact ⟨row.2, List.mem_cons_self, ha⟩
      · exact ⟨path, List.mem_cons_of_mem _ hrow, ha⟩
    · rintro ⟨path, hrow, ha⟩
      rcases List.mem_cons.mp hrow with rfl | hrow
      · exact .inl ⟨ha, rfl⟩
      · exact .inr ⟨path, hrow, ha⟩

theorem get?_noDescendants (a : PhaseId) : (noDescendants spec).get? a =
    if a ∈ spec.phases.keys then some ∅ else none := by
  have hfold : ∀ (ids : List PhaseId) (m : SortedMap PhaseId (SortedSet PhaseId)),
      (ids.foldl (fun m id => m.insert id ∅) m).get? a = if a ∈ ids then some ∅ else m.get? a := by
    intro ids
    induction ids with
    | nil => exact fun m => rfl
    | cons id ids ih =>
      intro m
      rw [List.foldl_cons, ih, SortedMap.get?_insert]
      by_cases ha : a ∈ ids
      · rw [if_pos ha, if_pos (List.mem_cons_of_mem _ ha)]
      · rw [if_neg ha]
        by_cases heq : a = id
        · rw [if_pos heq, if_pos (heq ▸ List.mem_cons_self)]
        · rw [if_neg heq, if_neg fun hm => (List.mem_cons.mp hm).elim heq ha]
  rw [noDescendants, SortedMap.ofList, List.foldl_map]
  exact hfold _ _

/-- The descendants that validation collects are the phases below. -/
theorem descendants_spec (hr : Rooted spec.Child spec.root) {w : Walk}
    (hpaths : ∀ k path, w.paths.get? k = some path → Recorded spec k path)
    (hknown : ∀ k, ReflTransGen spec.Child spec.root k → ∃ path, w.paths.get? k = some path)
    (hkeys : ∀ k, k ∈ spec.phases.keys → ReflTransGen spec.Child spec.root k)
    (h : w.paths.entries.foldlM addDescendant (noDescendants spec) = .ok m) :
    (∀ a, Knows m a ↔ a ∈ spec.phases.keys) ∧
      ∀ a ∈ spec.phases.keys, ∀ c, Below m a c ↔ TransGen spec.Child a c := by
  obtain ⟨hknows, hbelow⟩ := below_of_rows h
  constructor
  · intro a
    rw [hknows, Knows, get?_noDescendants]
    split
    · rename_i ha
      exact ⟨fun _ => ha, fun _ => ⟨∅, rfl⟩⟩
    · rename_i ha
      exact ⟨nofun, fun h => absurd h ha⟩
  · intro a ha c
    have hnone : ¬Below (noDescendants spec) a c := by
      rintro ⟨below, hget, hc⟩
      rw [get?_noDescendants, if_pos ha] at hget
      cases hget
      exact SortedSet.not_mem_empty c hc
    rw [hbelow]
    constructor
    · rintro (hc | ⟨path, hrow, hmem⟩)
      · exact absurd hc hnone
      · obtain ⟨l, hl, hpath, -⟩ := hpaths c path (SortedMap.get?_eq_some_iff.mpr hrow)
        rw [hpath, List.dropLast_concat] at hmem
        exact hl.transGen_of_mem hmem
    · intro hc
      obtain ⟨path, hget⟩ := hknown c ((hkeys a ha).trans hc.to_reflTransGen)
      obtain ⟨l, hl, hpath, -⟩ := hpaths c path hget
      refine .inr ⟨path, SortedMap.get?_eq_some_iff.mp hget, ?_⟩
      rw [hpath, List.dropLast_concat]
      exact (hl.mem_iff hr).mpr hc

end Tree

/-- What validation accepts under the phases' own ids is a tree within the limits, and the paths and
descendants it returns are those of that tree. -/
theorem validated_tree_exact (hown : spec.OwnKeys) (h : Tree.validate spec = .ok tree) :
    ExactTree spec tree := by
  have hvalid := Tree.valid_of_validate h
  have hr := hvalid.rooted
  obtain ⟨links, w, descendants, -, hlinks, hwalk, hsize, hdescendants, rfl⟩ :=
    Tree.validate_cases h
  have hall {k phase} (hk : spec.phases.get? k = some phase) :=
    (Tree.links_spec hlinks).1 phase (SortedMap.mem_values_iff.mpr ⟨k, hk⟩)
  have hpaths := Tree.walk_paths .root (by intro k path hk; cases hk) hwalk
  have hknown (k) (hk : ReflTransGen spec.Child spec.root k) : ∃ path, w.paths.get? k = some path := by
    obtain ⟨phase, hphase⟩ := hvalid.exists_phase hk
    refine SortedMap.mem_keys_iff.mp (SortedMap.mem_keys_of_size_eq (fun k hk => ?_) hsize
      (SortedMap.mem_keys_iff.mpr ⟨phase, hphase⟩))
    obtain ⟨path, hpath⟩ := SortedMap.mem_keys_iff.mp hk
    obtain ⟨l, hl, -⟩ := hpaths k path hpath
    obtain ⟨phase, hphase⟩ := hvalid.exists_phase hl.reach
    exact SortedMap.mem_keys_iff.mpr ⟨phase, hphase⟩
  have hkeys (k) (hk : k ∈ spec.phases.keys) : ReflTransGen spec.Child spec.root k := by
    obtain ⟨phase, hphase⟩ := SortedMap.mem_keys_iff.mp hk
    exact hvalid.reach hphase
  obtain ⟨hknows, hbelow⟩ := Tree.descendants_spec hr hpaths hknown hkeys hdescendants
  exact
    { root := hvalid.root
      parent := by
        intro k phase hk hne
        rcases ReflTransGen.cases_tail (hvalid.reach hk) with heq | ⟨q, -, hq⟩
        · exact absurd heq hne
        · obtain ⟨above, habove, hc⟩ := id hq
          obtain ⟨below, hget, hparent⟩ := hvalid.child habove hc
          cases hk.symm.trans hget
          rw [hown q above habove] at hparent
          refine ⟨q, above, habove, ?_, hparent, fun q' hq' => hr.unique hq' hq⟩
          exact List.count_eq_one_of_mem (hall habove).2.2.1.2 hc
      reach := hvalid.reach
      paths := by
        intro k path
        constructor
        · intro hk
          obtain ⟨l, hl, hpath, -⟩ := hpaths k path hk
          exact ⟨l, hl, hpath⟩
        · rintro ⟨l, hl, hpath⟩
          obtain ⟨path', hk⟩ := hknown k hl.reach
          obtain ⟨l', hl', hpath', -⟩ := hpaths k path' hk
          cases hl.functional hr hl'
          obtain ⟨phases⟩ := path
          obtain ⟨phases'⟩ := path'
          cases (show phases = l ++ [k] from hpath)
          cases (show phases' = l ++ [k] from hpath')
          exact hk
      known := fun hk => hknown _ (hvalid.reach hk)
      descendants := by
        intro k phase hk
        have hkey := SortedMap.mem_keys_iff.mpr ⟨phase, hk⟩
        obtain ⟨below, hget⟩ := (hknows k).mpr hkey
        refine ⟨below, hget, fun c => ?_⟩
        rw [← hbelow k hkey c]
        constructor
        · exact fun hc => ⟨below, hget, hc⟩
        · rintro ⟨below', hget', hc⟩
          cases hget.symm.trans hget'
          exact hc
      keys := fun hk => SortedMap.mem_keys_iff.mp ((hknows _).mp ⟨_, hk⟩)
      depth := by
        intro k path hk
        obtain ⟨l, -, -, hdepth⟩ := hpaths k path hk
        exact hdepth
      fanOut := fun hk => (hall hk).2.2.1.1 }

theorem validated_tree_exact_two_leaves :
    ∃ tree, Tree.validate (Sample.spec [] []) = .ok tree ∧ ExactTree (Sample.spec [] []) tree := by
  have hrun : (Tree.validate (Sample.spec [] [])).isOk = true := by decide +kernel
  obtain ⟨tree, htree⟩ := Except.exists_of_isOk hrun
  have hentries : ∀ e ∈ (Sample.spec [] []).phases.entries, e.2.id = e.1 := by decide
  exact ⟨tree, htree, validated_tree_exact
    (fun k phase hk => hentries (k, phase) (SortedMap.get?_eq_some_iff.mp hk)) htree⟩

end SimAgentNet.RoadmapCore
