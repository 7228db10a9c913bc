import SimAgentNet.RoadmapCore.Types
import SimAgentNet.Data.Rooted

/-! # The tree of phases

Validation of the parent and child links of a specification. `Tree.Valid` is what a validated tree
guarantees. -/

namespace SimAgentNet.RoadmapCore

open Relation

def CausalPath.new (parts : List PhaseId) (limits : Limits) : Except Failure CausalPath :=
  if parts.length > limits.causalPath then
    .error (.overLimit "causal_path" parts.length limits.causalPath)
  else .ok ⟨parts⟩

/-- The failure of a rule; a path that is too long is reported in its place. -/
def treeFailure (spec : RoadmapSpec) (rule : String) (phase : PhaseId) (related : Option PhaseId)
    (path : List PhaseId) : Halt :=
  match CausalPath.new path spec.limits with
  | .ok path => .failure (.tree rule path phase related)
  | .error f => .failure f

structure Tree where
  paths : SortedMap PhaseId CausalPath
  descendants : SortedMap PhaseId (SortedSet PhaseId)

/-- What the pass over the links has seen. -/
structure Links where
  declaredParent : SortedMap PhaseId PhaseId
  declaredChildren : SortedSet PhaseId

/-- What the walk from the root has seen. -/
structure Walk where
  visiting : SortedSet PhaseId
  paths : SortedMap PhaseId CausalPath

namespace Tree
variable (spec : RoadmapSpec)

def roots : List PhaseId := (spec.phases.values.filter (·.parent.isNone)).map (·.id)

def checkRoot : Except Halt Unit :=
  match spec.phases.get? spec.root with
  | none => .error (.failure (.missing "root phase" spec.root.text))
  | some root =>
    if root.parent.isSome then
      .error (treeFailure spec "root-has-parent" spec.root root.parent [spec.root])
    else if roots spec ≠ [spec.root] then
      let phase := (roots spec).head?.getD spec.root
      .error (treeFailure spec "exactly-one-root" phase none [phase])
    else .ok ()

/-- One child of a composite phase. -/
def linkChild (phase : PhaseSpec) (links : Links) (child : PhaseId) : Except Halt Links := do
  if child ∈ links.declaredChildren then .error (.failure (.duplicate "child" child.text))
  else if !spec.phases.contains child then
    .error (treeFailure spec "missing-child" phase.id (some child) [phase.id])
  else if (links.declaredParent.get? child).any (· ≠ phase.id) then
    .error (treeFailure spec "duplicate-child" child (some phase.id) [phase.id, child])
  else
    let declared ← index spec.phases child
    if declared.parent ≠ some phase.id then
      .error (treeFailure spec "parent-child-mismatch" child (some phase.id) [phase.id, child])
    else return {
      declaredParent := links.declaredParent.insert child phase.id
      declaredChildren := links.declaredChildren.insert child }

def linkParent (links : Links) (phase : PhaseSpec) : Except Halt Links :=
  match phase.parent with
  | none => .ok links
  | some parent =>
    if !spec.phases.contains parent then
      .error (treeFailure spec "missing-parent" phase.id (some parent) [phase.id])
    else .ok { links with declaredParent := links.declaredParent.insert phase.id parent }

def linkPhase (links : Links) (phase : PhaseSpec) : Except Halt Links := do
  let links ← linkParent spec links phase
  match phase.body with
  | .leaf _ => return links
  | .composite children =>
    if children.length > spec.limits.childrenPerPhase then
      .error (treeFailure spec "children-limit" phase.id none [phase.id])
    else if children.isEmpty then
      .error (treeFailure spec "empty-composite" phase.id none [phase.id])
    else children.foldlM (linkChild spec phase) links

/-- Visits a phase and the phases below it. `fuel` bounds the depth of the recursion; the number
of phases is enough. -/
def walk (fuel : Nat) (id : PhaseId) (parents : List PhaseId) (w : Walk) : Except Halt Walk :=
  match fuel with
  | 0 => .error .panicked
  | fuel + 1 =>
    let parents := parents ++ [id]
    if id ∈ w.visiting then .error (treeFailure spec "cycle" id none parents)
    else if parents.length > spec.limits.treeDepth then
      .error (treeFailure spec "tree-depth-limit" id none parents)
    else do
      let path ← (CausalPath.new parents spec.limits).mapError .failure
      let phase ← index spec.phases id
      let below ← phase.body.children.foldlM (fun w child => walk fuel child parents w)
        ⟨w.visiting.insert id, w.paths.insert id path⟩
      return { below with visiting := below.visiting.erase id }

/-- Adds a phase to the descendants of the phases above it. -/
def addDescendant (descendants : SortedMap PhaseId (SortedSet PhaseId))
    (row : PhaseId × CausalPath) : Except Halt (SortedMap PhaseId (SortedSet PhaseId)) :=
  row.2.phases.dropLast.foldlM (fun descendants ancestor => do
    let below ← index descendants ancestor
    return descendants.insert ancestor (below.insert row.1)) descendants

def noDescendants : SortedMap PhaseId (SortedSet PhaseId) :=
  SortedMap.ofList (spec.phases.keys.map fun id => (id, ∅))

def validate : Except Halt Tree := do
  if spec.phases.size > spec.limits.phases then
    .error (treeFailure spec "phase-limit" spec.root none [spec.root])
  else
    checkRoot spec
    let _ ← spec.phases.values.foldlM (linkPhase spec) ⟨∅, ∅⟩
    let w ← walk spec (spec.phases.size + 1) spec.root [] ⟨∅, ∅⟩
    if w.paths.size ≠ spec.phases.size then
      match spec.phases.keys.find? (!w.paths.contains ·) with
      | none => .error .panicked
      | some phase => .error (treeFailure spec "disconnected-phase" phase
          ((spec.phases.get? phase).bind (·.parent)) [phase])
    else
      let descendants ← w.paths.entries.foldlM addDescendant (noDescendants spec)
      return ⟨w.paths, descendants⟩

end Tree

/-! ## What validation guarantees -/

/-- The phase at `c` is listed as a child by the phase at `a`. -/
def RoadmapSpec.Child (spec : RoadmapSpec) (a c : PhaseId) : Prop :=
  ∃ phase, spec.phases.get? a = some phase ∧ c ∈ phase.body.children

namespace Tree

structure Valid (spec : RoadmapSpec) (tree : Tree) : Prop where
  root : ∃ root, spec.phases.get? spec.root = some root ∧ root.parent = none
  orphan : spec.phases.get? k = some phase → phase.parent = none → k = spec.root
  parent : spec.phases.get? k = some phase → phase.parent = some q →
    spec.phases.contains q = true
  child : spec.phases.get? k = some phase → c ∈ phase.body.children →
    ∃ below, spec.phases.get? c = some below ∧ below.parent = some phase.id
  nonempty : spec.phases.get? k = some phase → phase.body ≠ .composite []
  unique : spec.Child a c → spec.Child b c → a = b
  reach : spec.phases.get? k = some phase → ReflTransGen spec.Child spec.root k
  paths : tree.paths.get? k = some path →
    ∃ l, Descends spec.Child spec.root l k ∧ path.phases = l ++ [k]

variable {spec : RoadmapSpec} {phase : PhaseSpec} {links links' : Links} {children : List PhaseId}

theorem linkChild_eq_ok_iff : linkChild spec phase links child = .ok links' ↔
    child ∉ links.declaredChildren ∧
    (∃ below, spec.phases.get? child = some below ∧ below.parent = some phase.id) ∧
    (links.declaredParent.get? child).any (· ≠ phase.id) = false ∧
    links' = ⟨links.declaredParent.insert child phase.id, links.declaredChildren.insert child⟩ := by
  unfold linkChild
  simp only [Except.guard_eq_ok_iff, Except.bind_eq_ok_iff, index_eq_ok_iff]
  constructor
  · rintro ⟨hnew, hin, hparent, below, hbelow, hmatch, h⟩
    cases h
    exact ⟨hnew, ⟨below, hbelow, not_not.mp hmatch⟩, Bool.not_eq_true _ ▸ hparent, rfl⟩
  · rintro ⟨hnew, ⟨below, hbelow, hmatch⟩, hparent, rfl⟩
    refine ⟨hnew, ?_, by rw [hparent]; exact Bool.false_ne_true, below, hbelow, not_not.mpr hmatch, rfl⟩
    have hin := SortedMap.contains_iff.mpr ⟨below, hbelow⟩
    simp [hin]

theorem children_of_links (h : children.foldlM (linkChild spec phase) links = .ok links') :
    children.Nodup ∧ (∀ c ∈ children, c ∉ links.declaredChildren ∧
      ∃ below, spec.phases.get? c = some below ∧ below.parent = some phase.id) ∧
    ∀ c, c ∈ links'.declaredChildren ↔ c ∈ links.declaredChildren ∨ c ∈ children := by
  induction children generalizing links with
  | nil =>
    cases h
    exact ⟨.nil, nofun, fun c => by simp⟩
  | cons child children ih =>
    obtain ⟨mid, hmid, h⟩ := Run.foldlM_cons_eq_ok_iff.mp h
    obtain ⟨hnew, hbelow, -, rfl⟩ := linkChild_eq_ok_iff.mp hmid
    obtain ⟨hnd, hall, hmem⟩ := ih h
    refine ⟨List.nodup_cons.mpr ⟨fun hc => ?_, hnd⟩, ?_, ?_⟩
    · exact (hall child hc).1 (SortedSet.mem_insert.mpr (.inl rfl))
    · intro c hc
      rcases List.mem_cons.mp hc with rfl | hc
      · exact ⟨hnew, hbelow⟩
      · obtain ⟨hout, hb⟩ := hall c hc
        exact ⟨fun hin => hout (SortedSet.mem_insert.mpr (.inr hin)), hb⟩
    · intro c
      rw [hmem, SortedSet.mem_insert, List.mem_cons]
      tauto

theorem linkParent_spec (h : linkParent spec links phase = .ok links') :
    (∀ q, phase.parent = some q → spec.phases.contains q = true) ∧
      links'.declaredChildren = links.declaredChildren := by
  unfold linkParent at h
  split at h
  · rename_i hp
    cases h
    exact ⟨fun q hq => absurd (hp.symm.trans hq) nofun, rfl⟩
  · rename_i parent hp
    split at h
    · cases h
    · rename_i hin
      cases h
      refine ⟨fun q hq => ?_, rfl⟩
      cases hp.symm.trans hq
      simpa using hin

/-- What one phase adds to the links. -/
theorem linkPhase_spec (h : linkPhase spec links phase = .ok links') :
    (∀ q, phase.parent = some q → spec.phases.contains q = true) ∧
    phase.body ≠ .composite [] ∧ phase.body.children.length ≤ spec.limits.childrenPerPhase ∧
    phase.body.children.Nodup ∧
    (∀ c ∈ phase.body.children, c ∉ links.declaredChildren ∧
      ∃ below, spec.phases.get? c = some below ∧ below.parent = some phase.id) ∧
    ∀ c, c ∈ links'.declaredChildren ↔
      c ∈ links.declaredChildren ∨ c ∈ phase.body.children := by
  obtain ⟨mid, hmid, h⟩ := Except.bind_eq_ok_iff.mp h
  obtain ⟨hparent, hkeep⟩ := linkParent_spec hmid
  cases hb : phase.body with
  | leaf checkpoints =>
    rw [hb] at h
    cases h
    exact ⟨hparent, nofun, Nat.zero_le _, .nil, nofun, fun c => by simp [hkeep, PhaseBody.children]⟩
  | composite children =>
    rw [hb] at h
    simp only [Except.guard_eq_ok_iff] at h
    obtain ⟨hfan, hne, h⟩ := h
    obtain ⟨hnd, hall, hmem⟩ := children_of_links h
    rw [hkeep] at hall hmem
    refine ⟨hparent, ?_, Nat.not_lt.mp hfan, hnd, hall, hmem⟩
    rintro hnil
    cases hnil
    exact hne rfl

/-- The children of all phases are distinct, and each names its parent. -/
theorem links_spec {phases : List PhaseSpec}
    (h : phases.foldlM (linkPhase spec) links = .ok links') :
    (∀ phase ∈ phases, (∀ q, phase.parent = some q → spec.phases.contains q = true) ∧
      phase.body ≠ .composite [] ∧
      (phase.body.children.length ≤ spec.limits.childrenPerPhase ∧ phase.body.children.Nodup) ∧
      ∀ c ∈ phase.body.children, c ∉ links.declaredChildren ∧
        ∃ below, spec.phases.get? c = some below ∧ below.parent = some phase.id) ∧
    phases.Pairwise fun p q => ∀ c ∈ p.body.children, c ∉ q.body.children := by
  induction phases generalizing links with
  | nil => exact ⟨nofun, .nil⟩
  | cons phase phases ih =>
    obtain ⟨mid, hmid, h⟩ := Run.foldlM_cons_eq_ok_iff.mp h
    obtain ⟨hparent, hne, hfan, hnd, hall, hmem⟩ := linkPhase_spec hmid
    obtain ⟨hrest, hdisj⟩ := ih h
    refine ⟨?_, List.pairwise_cons.mpr ⟨?_, hdisj⟩⟩
    · intro p hp
      rcases List.mem_cons.mp hp with rfl | hp
      · exact ⟨hparent, hne, ⟨hfan, hnd⟩, hall⟩
      · obtain ⟨hp₁, hp₂, hp₄, hp₃⟩ := hrest p hp
        refine ⟨hp₁, hp₂, hp₄, fun c hc => ?_⟩
        obtain ⟨hout, hb⟩ := hp₃ c hc
        exact ⟨fun hin => hout ((hmem c).mpr (.inl hin)), hb⟩
    · intro q hq c hc hcq
      exact ((hrest q hq).2.2.2 c hcq).1 ((hmem c).mpr (.inr hc))

theorem unique_of_links (h : spec.phases.values.foldlM (linkPhase spec) links = .ok links')
    (ha : spec.Child a c) (hb : spec.Child b c) : a = b := by
  obtain ⟨p, hp, hpc⟩ := ha
  obtain ⟨q, hq, hqc⟩ := hb
  have hdisj := (links_spec h).2
  rw [SortedMap.values, List.pairwise_map] at hdisj
  have : Std.Symm fun x y : PhaseId × PhaseSpec =>
      ∀ c ∈ x.2.body.children, c ∉ y.2.body.children := ⟨fun _ _ h c hy hx => h c hx hy⟩
  by_contra hne
  refine hdisj.forall (SortedMap.get?_eq_some_iff.mp hp) (SortedMap.get?_eq_some_iff.mp hq)
    (fun heq => hne (congrArg Prod.fst heq)) c hpc hqc

/-- The path leads from the root to the phase and is not too long. -/
def Recorded (spec : RoadmapSpec) (k : PhaseId) (path : CausalPath) : Prop :=
  ∃ l, Descends spec.Child spec.root l k ∧ path.phases = l ++ [k] ∧
    path.phases.length ≤ spec.limits.treeDepth

/-- The walk records paths that lead to the phases from the root. -/
theorem walk_paths {id : PhaseId} {w w' : Walk} (hid : Descends spec.Child spec.root parents id)
    (hw : ∀ k path, w.paths.get? k = some path → Recorded spec k path)
    (h : walk spec fuel id parents w = .ok w') :
    ∀ k path, w'.paths.get? k = some path → Recorded spec k path := by
  induction fuel generalizing id parents w w' with
  | zero => cases h
  | succ fuel ih =>
    simp only [walk, Except.guard_eq_ok_iff, Except.bind_eq_ok_iff, index_eq_ok_iff,
      Except.mapError_eq_ok_iff] at h
    obtain ⟨-, hdepth, path', hpath, phase, hphase, below, hbelow, hw'⟩ := h
    cases hw'
    have hpath' : path'.phases = parents ++ [id] := by
      obtain ⟨-, hnew⟩ := Except.guard_eq_ok_iff.mp hpath
      cases hnew
      rfl
    refine Run.keeps (P := fun w => ∀ k path, w.paths.get? k = some path → Recorded spec k path)
      ?_ ?_ hbelow
    · intro child hchild u u' hu hstep
      exact ih (hid.step ⟨phase, hphase, hchild⟩) hu hstep
    · intro k path hk
      rw [SortedMap.get?_insert] at hk
      split at hk
      · rename_i heq
        cases hk
        exact ⟨parents, heq ▸ hid, heq ▸ hpath', hpath' ▸ Nat.not_lt.mp hdepth⟩
      · exact hw k path hk

theorem walk_visiting {w w' : Walk} (h : walk spec fuel k parents w = .ok w') :
    w'.visiting = w.visiting := by
  induction fuel generalizing k parents w w' with
  | zero => cases h
  | succ fuel ih =>
    simp only [walk, Except.guard_eq_ok_iff, Except.bind_eq_ok_iff] at h
    obtain ⟨hnew, -, path, -, phase, -, below, hbelow, hw'⟩ := h
    cases hw'
    have hkeep : below.visiting = w.visiting.insert k :=
      Run.keeps (P := fun u => u.visiting = w.visiting.insert k)
        (fun child _ u u' hu hstep => (ih hstep).trans hu) rfl hbelow
    refine SortedSet.ext fun c => ?_
    rw [hkeep, SortedSet.mem_erase, SortedSet.mem_insert]
    constructor
    · rintro ⟨rfl | hc, hne⟩
      · exact absurd rfl hne
      · exact hc
    · intro hc
      exact ⟨.inr hc, fun heq => hnew (heq ▸ hc)⟩

/-- The number of phases is fuel enough: the phases on the way are distinct. -/
theorem walk_ne_panicked (hchild : ∀ k phase, spec.phases.get? k = some phase →
      ∀ c ∈ phase.body.children, c ∈ spec.phases.keys)
    {w : Walk} (hk : k ∈ spec.phases.keys) (hv : ∀ c ∈ w.visiting, c ∈ spec.phases.keys)
    (hfuel : spec.phases.size < fuel + w.visiting.card) :
    walk spec fuel k parents w ≠ .error .panicked := by
  induction fuel generalizing k parents w with
  | zero =>
    have hle := (w.visiting.nodup.subperm hv).length_le
    rw [SortedMap.keys, List.length_map] at hle
    rw [Nat.zero_add] at hfuel
    exact absurd hle (Nat.not_le.mpr hfuel)
  | succ fuel ih =>
    obtain ⟨phase, hphase⟩ := SortedMap.mem_keys_iff.mp hk
    unfold walk
    simp only
    split
    · unfold treeFailure
      split <;> rintro ⟨⟩
    · rename_i hnew
      split
      · unfold treeFailure
        split <;> rintro ⟨⟩
      · cases hpath : CausalPath.new (parents ++ [k]) spec.limits with
        | error f => rintro ⟨⟩
        | ok path =>
          rw [index_eq_ok_iff.mpr hphase]
          have hcard : (w.visiting.insert k).card = w.visiting.card + 1 := by
            have hnd : (k :: w.visiting.elems).Nodup := List.nodup_cons.mpr ⟨hnew, w.visiting.nodup⟩
            refine ((List.perm_ext_iff_of_nodup (SortedSet.nodup _) hnd).mpr fun c => ?_).length_eq
            rw [← SortedSet.mem_def, SortedSet.mem_insert, List.mem_cons, SortedSet.mem_def]
          have hnever : phase.body.children.foldlM
              (fun w child => walk spec fuel child (parents ++ [k]) w)
              ⟨w.visiting.insert k, w.paths.insert k path⟩ ≠ .error .panicked := by
            refine Run.never (P := fun u => u.visiting = w.visiting.insert k) ?_ rfl
            intro child hc u hu
            refine ⟨ih (hchild k phase hphase child hc) ?_ ?_, ?_⟩
            · intro c hcu
              rw [hu, SortedSet.mem_insert] at hcu
              rcases hcu with rfl | hcu
              · exact hk
              · exact hv c hcu
            · rw [hu, hcard]
              omega
            · intro u' hu'
              rw [walk_visiting hu', hu]
          intro h
          simp only [Except.mapError, Except.ok_bind] at h
          cases hb : phase.body.children.foldlM
              (fun w child => walk spec fuel child (parents ++ [k]) w)
              ⟨w.visiting.insert k, w.paths.insert k path⟩ with
          | error e =>
            rw [hb] at h
            cases h
            exact hnever hb
          | ok below =>
            rw [hb] at h
            cases h

theorem orphan_of_roots (h : roots spec = [spec.root])
    (hroot : spec.phases.get? spec.root = some root) (hr : root.parent = none)
    (hk : spec.phases.get? k = some phase) (hp : phase.parent = none) : k = spec.root := by
  have hentries : spec.phases.entries.filter (·.2.parent.isNone) = [(spec.root, root)] := by
    have hmem : (spec.root, root) ∈ spec.phases.entries.filter (·.2.parent.isNone) :=
      List.mem_filter.mpr ⟨SortedMap.get?_eq_some_iff.mp hroot, by simp [hr]⟩
    have hlen := congrArg List.length h
    rw [roots, SortedMap.values, List.filter_map, List.map_map, List.length_map] at hlen
    obtain ⟨e, he⟩ := List.length_eq_one_iff.mp hlen
    rw [show (spec.phases.entries.filter (·.2.parent.isNone)) = [e] from he] at hmem ⊢
    rw [List.mem_singleton.mp hmem]
  have hmem : (k, phase) ∈ spec.phases.entries.filter (·.2.parent.isNone) :=
    List.mem_filter.mpr ⟨SortedMap.get?_eq_some_iff.mp hk, by simp [hp]⟩
  rw [hentries] at hmem
  exact congrArg Prod.fst (List.mem_singleton.mp hmem)

/-- The passes of an accepted validation. -/
theorem validate_cases {tree : Tree} (h : validate spec = .ok tree) :
    ∃ links w descendants, checkRoot spec = .ok () ∧
      spec.phases.values.foldlM (linkPhase spec) ⟨∅, ∅⟩ = .ok links ∧
      walk spec (spec.phases.size + 1) spec.root [] ⟨∅, ∅⟩ = .ok w ∧
      w.paths.size = spec.phases.size ∧
      w.paths.entries.foldlM addDescendant (noDescendants spec) = .ok descendants ∧
      tree = ⟨w.paths, descendants⟩ := by
  simp only [validate, Except.guard_eq_ok_iff, Except.bind_eq_ok_iff] at h
  obtain ⟨-, _, hroot, links, hlinks, w, hwalk, h⟩ := h
  split at h
  · split at h
    · cases h
    · cases h
  · rename_i hsize
    obtain ⟨descendants, hdescendants, htree⟩ := Except.bind_eq_ok_iff.mp h
    cases htree
    exact ⟨links, w, descendants, hroot, hlinks, hwalk, not_not.mp hsize, hdescendants, rfl⟩

theorem valid_of_validate {tree : Tree} (h : validate spec = .ok tree) : Valid spec tree := by
  obtain ⟨links, w, descendants, hroot, hlinks, hwalk, hsize, -, rfl⟩ := validate_cases h
  obtain ⟨root, hget, hnone, hroots⟩ : ∃ root, spec.phases.get? spec.root = some root ∧
      root.parent = none ∧ roots spec = [spec.root] := by
    unfold checkRoot at hroot
    split at hroot
    · cases hroot
    · rename_i root hget
      simp only [Except.guard_eq_ok_iff] at hroot
      exact ⟨root, hget, by simpa using hroot.1, not_not.mp hroot.2.1⟩
  have hall {k phase} (hk : spec.phases.get? k = some phase) :=
    (links_spec hlinks).1 phase (SortedMap.mem_values_iff.mpr ⟨k, hk⟩)
  have hpaths := walk_paths .root (by intro k path hk; cases hk) hwalk
  have hchild {k phase c} (hk : spec.phases.get? k = some phase)
      (hc : c ∈ phase.body.children) := ((hall hk).2.2.2 c hc).2
  have hkey {k} (hk : ReflTransGen spec.Child spec.root k) : k ∈ spec.phases.keys := by
    induction hk with
    | refl => exact SortedMap.mem_keys_iff.mpr ⟨root, hget⟩
    | tail _ hc _ =>
      obtain ⟨phase, hphase, hc⟩ := hc
      obtain ⟨below, hbelow, -⟩ := hchild hphase hc
      exact SortedMap.mem_keys_iff.mpr ⟨below, hbelow⟩
  exact
    { root := ⟨root, hget, hnone⟩
      orphan := fun hk hp => orphan_of_roots hroots hget hnone hk hp
      parent := fun hk hp => (hall hk).1 _ hp
      child := fun hk hc => hchild hk hc
      nonempty := fun hk => (hall hk).2.1
      unique := unique_of_links hlinks
      reach := by
        intro k phase hk
        have hmem : k ∈ w.paths.keys := by
          refine SortedMap.mem_keys_of_size_eq ?_ hsize
            (SortedMap.mem_keys_iff.mpr ⟨phase, hk⟩)
          intro k hk
          obtain ⟨path, hpath⟩ := SortedMap.mem_keys_iff.mp hk
          obtain ⟨l, hl, -⟩ := hpaths k path hpath
          exact hkey hl.reach
        obtain ⟨path, hpath⟩ := SortedMap.mem_keys_iff.mp hmem
        obtain ⟨l, hl, -⟩ := hpaths k path hpath
        exact hl.reach
      paths := by
        intro k path hk
        obtain ⟨l, hl, hpath, -⟩ := hpaths k path hk
        exact ⟨l, hl, hpath⟩ }

namespace Valid
variable {tree : Tree}

theorem rooted (h : Valid spec tree) : Rooted spec.Child spec.root where
  unique := h.unique
  top := by
    rintro a ⟨phase, hphase, hc⟩
    obtain ⟨root, hroot, hnone⟩ := h.root
    obtain ⟨below, hbelow, hparent⟩ := h.child hphase hc
    cases hroot.symm.trans hbelow
    exact nomatch hnone.symm.trans hparent

theorem exists_phase (h : Valid spec tree) (hk : ReflTransGen spec.Child spec.root k) :
    ∃ phase, spec.phases.get? k = some phase := by
  induction hk with
  | refl =>
    obtain ⟨root, hroot, -⟩ := h.root
    exact ⟨root, hroot⟩
  | tail _ hc _ =>
    obtain ⟨phase, hphase, hc⟩ := hc
    obtain ⟨below, hbelow, -⟩ := h.child hphase hc
    exact ⟨below, hbelow⟩

end Valid

end Tree

end SimAgentNet.RoadmapCore
