import SimAgentNet.Data.Columns
import SimAgentNet.Kernel.Datum
import Mathlib.Data.List.DropRight

/-! # Workspace leases

Missions lease files, directories, crates and IDE objects. The code compares the targets of two
leases as texts; what a lease covers is said in components of a path. -/

namespace SimAgentNet.Agent

inductive WorkspaceLeaseKind where
  | file
  | directory
  | crate
  | ideObject
deriving DecidableEq

inductive WorkspaceLeaseMode where
  | sharedRead
  | exclusiveWrite
deriving DecidableEq

structure WorkspaceLease where
  kind : WorkspaceLeaseKind
  repo : Option String
  target : String
  mode : WorkspaceLeaseMode
deriving DecidableEq

def normalizePath (path : String) : String :=
  let trimmed := (path.toList.dropWhile (· == '/')).rdropWhile (· == '/')
  let normalized := trimmed.map fun c => if c = '\\' then '/' else c
  if normalized = [] then "." else .ofList normalized

namespace WorkspaceLease

def repoTarget (kind : WorkspaceLeaseKind) (repo target : String) : WorkspaceLease where
  kind := kind
  repo := some repo
  target := normalizePath target
  mode := .exclusiveWrite

def file (repo path : String) : WorkspaceLease := .repoTarget .file repo path

def directory (repo path : String) : WorkspaceLease := .repoTarget .directory repo path

def crateName (repo crate : String) : WorkspaceLease := .repoTarget .crate repo crate

def ideObject (objectId : Symbol) : WorkspaceLease where
  kind := .ideObject
  repo := none
  target := objectId.display
  mode := .exclusiveWrite

def forRead (lease : WorkspaceLease) : WorkspaceLease := { lease with mode := .sharedRead }

def forWrite (lease : WorkspaceLease) : WorkspaceLease := { lease with mode := .exclusiveWrite }

end WorkspaceLease

def pathContains (directory path : String) : Bool :=
  directory == "." || directory == path ||
    (path.toList.dropPrefix? directory.toList).any fun rest => rest.head? == some '/'

def leasesOverlap (left right : WorkspaceLease) : Bool :=
  if left.kind = .ideObject ∨ right.kind = .ideObject then
    left.kind = right.kind && left.target == right.target
  else if left.repo ≠ right.repo then
    false
  else
    match left.kind, right.kind with
    | .crate, .crate => left.target == right.target
    | .file, .file => left.target == right.target
    | .directory, .directory =>
      pathContains left.target right.target || pathContains right.target left.target
    | .directory, .file => pathContains left.target right.target
    | .file, .directory => pathContains right.target left.target
    | _, _ => false

def WorkspaceLease.conflictsWith (lease other : WorkspaceLease) : Bool :=
  if lease.mode = .sharedRead ∧ other.mode = .sharedRead then false else leasesOverlap lease other

structure AgentMission where
  id : Symbol
  leases : List WorkspaceLease

structure WorkspaceLeaseConflict where
  leftMission : Symbol
  left : WorkspaceLease
  rightMission : Symbol
  right : WorkspaceLease
deriving DecidableEq

def missionConflicts (leftMission rightMission : AgentMission) : List WorkspaceLeaseConflict :=
  leftMission.leases.flatMap fun left => rightMission.leases.flatMap fun right =>
    if left.conflictsWith right then
      [{ leftMission := leftMission.id, left, rightMission := rightMission.id, right }]
    else
      []

def detectWorkspaceLeaseConflicts : List AgentMission → List WorkspaceLeaseConflict
  | [] => []
  | leftMission :: missions =>
    missions.flatMap (missionConflicts leftMission) ++ detectWorkspaceLeaseConflicts missions

/-! ## What a lease covers -/

def isSeparator (c : Char) : Bool := c == '/' || c == '\\'

/-- The components of a path. -/
def components (path : List Char) : List (List Char) :=
  (path.splitOnP isSeparator).filter fun component => component ≠ [] ∧ component ≠ ['.']

/-- What can be leased. -/
inductive Resource where
  | path (repo : Option String) (components : List (List Char))
  | object (id : String)

section
variable (crateDirectory : Option String → String → List (List Char))

/-- What a lease covers: a file its path, a directory and the directory of a crate all that is
under them. -/
def WorkspaceLease.covers (lease : WorkspaceLease) : Set Resource :=
  match lease.kind with
  | .file => {.path lease.repo (components lease.target.toList)}
  | .directory => {r | ∃ below, r = .path lease.repo (components lease.target.toList ++ below)}
  | .crate => {r | ∃ below, r = .path lease.repo (crateDirectory lease.repo lease.target ++ below)}
  | .ideObject => {.object lease.target}

/-- One of the leases is exclusive, and they cover something in common. -/
def Incompatible (left right : WorkspaceLease) : Prop :=
  (left.mode = .exclusiveWrite ∨ right.mode = .exclusiveWrite) ∧
    (left.covers crateDirectory ∩ right.covers crateDirectory).Nonempty

end

/-- The conflict without the roles of left and right. -/
def WorkspaceLeaseConflict.sides (conflict : WorkspaceLeaseConflict) :
    Sym2 (Symbol × WorkspaceLease) :=
  s((conflict.leftMission, conflict.left), (conflict.rightMission, conflict.right))

/-! ## Texts and components -/

theorem components_append_cons {c : Char} (hc : isSeparator c = true) (front back : List Char) :
    components (front ++ c :: back) = components front ++ components back := by
  rw [components, List.splitOnP_append_cons _ _ hc, List.filter_append]
  rfl

theorem components_nil : components [] = [] := rfl

theorem components_dropWhile (path : List Char) :
    components (path.dropWhile (· == '/')) = components path := by
  induction path with
  | nil => rfl
  | cons c path ih =>
    rw [List.dropWhile_cons]
    split
    · rename_i hc
      rw [ih, ← List.nil_append (c :: path), eq_of_beq hc, components_append_cons rfl]
      rfl
    · rfl

theorem components_rdropWhile (path : List Char) :
    components (path.rdropWhile (· == '/')) = components path := by
  induction path using List.reverseRecOn with
  | nil => rfl
  | append_singleton path c ih =>
    rw [List.rdropWhile_concat]
    split
    · rename_i hc
      rw [ih, eq_of_beq hc, components_append_cons rfl, components_nil, List.append_nil]
    · rfl

theorem components_replace (path : List Char) :
    components (path.map fun c => if c = '\\' then '/' else c) = components path := by
  suffices h : (path.map fun c => if c = '\\' then '/' else c).splitOnP isSeparator =
      path.splitOnP isSeparator from congrArg (List.filter _) h
  induction path with
  | nil => rfl
  | cons c path ih =>
    rw [List.map_cons, List.splitOnP_cons_eq_if_modifyHead, List.splitOnP_cons_eq_if_modifyHead, ih]
    by_cases hc : c = '\\'
    · rw [if_pos hc, hc]
      rfl
    · rw [if_neg hc]

/-- The target of a lease has the components of the path that it was made from. -/
theorem components_normalizePath (path : String) :
    components (normalizePath path).toList = components path.toList := by
  have htrimmed : components (((path.toList.dropWhile (· == '/')).rdropWhile (· == '/')).map
      fun c => if c = '\\' then '/' else c) = components path.toList := by
    rw [components_replace, components_rdropWhile, components_dropWhile]
  rw [normalizePath]
  split
  · rename_i hnil
    rw [← htrimmed, hnil]
    rfl
  · rw [String.toList_ofList, htrimmed]

theorem pathContains_iff {directory path : String} :
    pathContains directory path = true ↔
      directory = "." ∨ directory.toList.splitOn '/' <+: path.toList.splitOn '/' := by
  have hrest : ((path.toList.dropPrefix? directory.toList).any fun rest => rest.head? == some '/') =
      true ↔ directory.toList ++ ['/'] <+: path.toList := by
    rw [Option.any_eq_true]
    constructor
    · rintro ⟨rest, hdrop, hhead⟩
      obtain ⟨front, hpath, hfront⟩ := List.dropPrefix?_eq_some_iff.mp hdrop
      rw [← eq_of_beq hfront, hpath]
      cases rest with
      | nil => cases hhead
      | cons c rest =>
        cases eq_of_beq hhead
        exact ⟨rest, by simp⟩
    · rintro ⟨rest, hrest⟩
      refine ⟨'/' :: rest, List.dropPrefix?_eq_some_iff.mpr ⟨_, ?_, BEq.rfl⟩, BEq.rfl⟩
      rw [← hrest, List.append_assoc, List.singleton_append]
  rw [pathContains, Bool.or_eq_true, Bool.or_eq_true, beq_iff_eq, beq_iff_eq, hrest,
    Columns.splitOn_prefix_splitOn_iff, String.toList_inj, or_assoc]

/-- A text in which another is contained has its components before its own. -/
theorem components_prefix_of_pathContains {directory path : String}
    (h : pathContains directory path = true) :
    components directory.toList <+: components path.toList := by
  rcases pathContains_iff.mp h with rfl | h
  · exact List.nil_prefix
  · rw [Columns.splitOn_prefix_splitOn_iff, String.toList_inj] at h
    rcases h with rfl | ⟨rest, hrest⟩
    · exact List.prefix_refl _
    · rw [← hrest, List.append_assoc, List.singleton_append, components_append_cons rfl]
      exact List.prefix_append _ _

/-! ## Conflicts -/

/-- The common part of two leases is spelt in the same way. -/
def SpeltAlike (left right : WorkspaceLease) : Prop :=
  match left.kind, right.kind with
  | .directory, .directory => SpeltWithin left right ∨ SpeltWithin right left
  | .directory, .file => SpeltWithin left right
  | .file, .directory => SpeltWithin right left
  | left', right' => left' = right' ∧ left.target = right.target
where
  SpeltWithin (outer inner : WorkspaceLease) : Prop :=
    outer.target = "." ∨ outer.target.toList.splitOn '/' <+: inner.target.toList.splitOn '/'

theorem leasesOverlap_comm (left right : WorkspaceLease) :
    leasesOverlap left right = leasesOverlap right left := by
  obtain ⟨kind, repo, target, mode⟩ := left
  obtain ⟨kind', repo', target', mode'⟩ := right
  rw [leasesOverlap, leasesOverlap]
  by_cases hrepo : repo = repo'
  · subst hrepo
    cases kind <;> cases kind' <;> simp [Bool.or_comm, eq_comm]
  · cases kind <;> cases kind' <;> simp [hrepo, Ne.symm hrepo, eq_comm]

theorem conflictsWith_comm (left right : WorkspaceLease) :
    left.conflictsWith right = right.conflictsWith left := by
  rw [WorkspaceLease.conflictsWith, WorkspaceLease.conflictsWith, leasesOverlap_comm left right]
  simp only [and_comm]

section
variable {crateDirectory : Option String → String → List (List Char)}

/-- A path under both of two components lists, one of which begins the other. -/
theorem exists_below {repo : Option String} {outer inner : List (List Char)}
    (h : outer <+: inner) : ∃ below, Resource.path repo inner = .path repo (outer ++ below) := by
  obtain ⟨below, rfl⟩ := h
  exact ⟨below, rfl⟩

theorem covers_self (repo : Option String) (components : List (List Char)) :
    ∃ below, Resource.path repo components = .path repo (components ++ below) :=
  ⟨[], by rw [List.append_nil]⟩

/-- Leases that overlap cover something in common. -/
theorem nonempty_of_leasesOverlap {left right : WorkspaceLease}
    (h : leasesOverlap left right = true) :
    (left.covers crateDirectory ∩ right.covers crateDirectory).Nonempty := by
  obtain ⟨kind, repo, target, mode⟩ := left
  obtain ⟨kind', repo', target', mode'⟩ := right
  rw [leasesOverlap] at h
  split at h
  · obtain ⟨hkind, htarget⟩ := Bool.and_eq_true_iff.mp h
    cases of_decide_eq_true hkind
    cases eq_of_beq htarget
    rename_i hobject
    cases or_self_iff.mp hobject
    exact ⟨.object target, rfl, rfl⟩
  split at h
  · cases h
  · rename_i hrepo
    cases not_ne_iff.mp hrepo
    split at h
    · rename_i hleft hright
      cases hleft
      cases hright
      cases eq_of_beq h
      exact ⟨_, covers_self _ _, covers_self _ _⟩
    · rename_i hleft hright
      cases hleft
      cases hright
      cases eq_of_beq h
      exact ⟨_, rfl, rfl⟩
    · rename_i hleft hright
      cases hleft
      cases hright
      rcases Bool.or_eq_true_iff.mp h with h | h
      · exact ⟨_, exists_below (components_prefix_of_pathContains h), covers_self _ _⟩
      · exact ⟨_, covers_self _ _, exists_below (components_prefix_of_pathContains h)⟩
    · rename_i hleft hright
      cases hleft
      cases hright
      exact ⟨_, exists_below (components_prefix_of_pathContains h), rfl⟩
    · rename_i hleft hright
      cases hleft
      cases hright
      exact ⟨_, rfl, exists_below (components_prefix_of_pathContains h)⟩
    · cases h

theorem incompatible_of_conflictsWith {left right : WorkspaceLease}
    (h : left.conflictsWith right = true) : Incompatible crateDirectory left right := by
  rw [WorkspaceLease.conflictsWith] at h
  split at h
  · cases h
  · rename_i hshared
    refine ⟨?_, nonempty_of_leasesOverlap h⟩
    cases hleft : left.mode with
    | exclusiveWrite => exact .inl rfl
    | sharedRead =>
      cases hright : right.mode with
      | exclusiveWrite => exact .inr rfl
      | sharedRead => exact (hshared ⟨hleft, hright⟩).elim

/-- Leases with something in common are of one repository, or are both of IDE objects. -/
theorem repo_eq_of_nonempty {left right : WorkspaceLease}
    (h : (left.covers crateDirectory ∩ right.covers crateDirectory).Nonempty)
    (hleft : left.kind ≠ .ideObject) (hright : right.kind ≠ .ideObject) :
    left.repo = right.repo := by
  have hcovered : ∀ lease : WorkspaceLease, lease.kind ≠ .ideObject →
      ∀ resource ∈ lease.covers crateDirectory, ∃ path, resource = .path lease.repo path := by
    intro lease hkind resource hresource
    rw [WorkspaceLease.covers] at hresource
    split at hresource
    · exact ⟨_, hresource⟩
    · obtain ⟨below, rfl⟩ := hresource
      exact ⟨_, rfl⟩
    · obtain ⟨below, rfl⟩ := hresource
      exact ⟨_, rfl⟩
    · exact absurd ‹_› hkind
  obtain ⟨resource, hmemLeft, hmemRight⟩ := h
  obtain ⟨path, rfl⟩ := hcovered left hleft resource hmemLeft
  obtain ⟨path', hpath⟩ := hcovered right hright _ hmemRight
  exact (Resource.path.inj hpath).1

/-- Leases with something in common conflict when one is exclusive and they are spelt alike. -/
theorem conflictsWith_iff {left right : WorkspaceLease}
    (h : Incompatible crateDirectory left right) :
    left.conflictsWith right = true ↔ SpeltAlike left right := by
  obtain ⟨hexclusive, hcommon⟩ := h
  have hshared : ¬(left.mode = .sharedRead ∧ right.mode = .sharedRead) := by
    rintro ⟨hleft, hright⟩
    rw [hleft, hright] at hexclusive
    exact hexclusive.elim nofun nofun
  rw [WorkspaceLease.conflictsWith, if_neg hshared, leasesOverlap, SpeltAlike]
  split
  · rename_i hobject
    rcases hobject with hobject | hobject
    · rw [hobject]
      cases hkind : right.kind <;> simp
    · rw [hobject]
      cases hkind : left.kind <;> simp
  · rename_i hobject
    obtain ⟨hleft, hright⟩ := not_or.mp hobject
    rw [if_neg (not_not_intro (repo_eq_of_nonempty hcommon hleft hright))]
    cases hkind : left.kind <;> cases hkind' : right.kind <;>
      simp [pathContains_iff, SpeltAlike.SpeltWithin]
    exact absurd hkind hleft

end

/-! ## All pairs of missions -/

theorem mem_missionConflicts {leftMission rightMission : AgentMission}
    {conflict : WorkspaceLeaseConflict} :
    conflict ∈ missionConflicts leftMission rightMission ↔
      ∃ left ∈ leftMission.leases, ∃ right ∈ rightMission.leases,
        left.conflictsWith right = true ∧
          conflict = ⟨leftMission.id, left, rightMission.id, right⟩ := by
  simp only [missionConflicts, List.mem_flatMap, List.mem_ite_nil_right, List.mem_singleton]

theorem mem_detect {missions : List AgentMission} {conflict : WorkspaceLeaseConflict} :
    conflict ∈ detectWorkspaceLeaseConflicts missions ↔
      ∃ leftMission rightMission, [leftMission, rightMission].Sublist missions ∧
        conflict ∈ missionConflicts leftMission rightMission := by
  induction missions with
  | nil =>
    refine iff_of_false List.not_mem_nil ?_
    rintro ⟨_, _, hsub, _⟩
    cases hsub
  | cons mission missions ih =>
    rw [detectWorkspaceLeaseConflicts, List.mem_append, List.mem_flatMap, ih]
    constructor
    · rintro (⟨rightMission, hmem, hconflict⟩ | ⟨leftMission, rightMission, hsub, hconflict⟩)
      · exact ⟨mission, rightMission, (List.singleton_sublist.mpr hmem).cons_cons _, hconflict⟩
      · exact ⟨leftMission, rightMission, hsub.cons _, hconflict⟩
    · rintro ⟨leftMission, rightMission, hsub, hconflict⟩
      cases hsub with
      | cons _ hsub => exact .inr ⟨leftMission, rightMission, hsub, hconflict⟩
      | cons_cons _ hsub =>
        exact .inl ⟨rightMission, List.singleton_sublist.mp hsub, hconflict⟩

theorem flatMap_flatMap_perm (l : List α) (l' : List β) (f : α → β → List γ) :
    (l.flatMap fun a => l'.flatMap (f a)).Perm (l'.flatMap fun b => l.flatMap (f · b)) := by
  refine Multiset.coe_eq_coe.mp ?_
  have hbind := @Multiset.bind_bind _ _ _ (l : Multiset α) (l' : Multiset β)
    fun a b => (f a b : Multiset γ)
  simpa only [Multiset.coe_bind] using hbind

theorem missionConflicts_comm (leftMission rightMission : AgentMission) :
    ((missionConflicts leftMission rightMission).map (·.sides)).Perm
      ((missionConflicts rightMission leftMission).map (·.sides)) := by
  have hsides : ∀ first second : AgentMission, (missionConflicts first second).map (·.sides) =
      first.leases.flatMap fun left => second.leases.flatMap fun right =>
        if left.conflictsWith right then [s((first.id, left), (second.id, right))] else [] := by
    intro first second
    simp only [missionConflicts, List.map_flatMap, apply_ite (List.map _), List.map_cons,
      List.map_nil, WorkspaceLeaseConflict.sides]
  rw [hsides, hsides]
  refine (flatMap_flatMap_perm _ _ _).trans (.of_eq ?_)
  simp only [conflictsWith_comm, Sym2.eq_swap]

theorem detect_perm {missions missions' : List AgentMission} (h : missions.Perm missions') :
    ((detectWorkspaceLeaseConflicts missions).map (·.sides)).Perm
      ((detectWorkspaceLeaseConflicts missions').map (·.sides)) := by
  induction h with
  | nil => exact .nil
  | cons mission h ih =>
    simp only [detectWorkspaceLeaseConflicts, List.map_append]
    exact .append ((h.flatMap_right _).map _) ih
  | swap first second missions =>
    simp only [detectWorkspaceLeaseConflicts, List.map_append, List.flatMap_cons, List.append_assoc]
    refine .append (missionConflicts_comm second first) ?_
    rw [← List.append_assoc, ← List.append_assoc]
    exact .append_right _ List.perm_append_comm
  | trans _ _ ih ih' => exact ih.trans ih'

/-! ## What is reported -/

/-- The incompatible leases of different missions are reported, and nothing else is, in whatever
order the missions stand. -/
structure LeasesReported (crateDirectory : Option String → String → List (List Char))
    (missions : List AgentMission) : Prop where
  complete : ∀ leftMission rightMission, [leftMission, rightMission].Sublist missions →
    ∀ left ∈ leftMission.leases, ∀ right ∈ rightMission.leases,
      Incompatible crateDirectory left right →
        ⟨leftMission.id, left, rightMission.id, right⟩ ∈ detectWorkspaceLeaseConflicts missions
  sound : ∀ conflict ∈ detectWorkspaceLeaseConflicts missions, ∃ leftMission rightMission,
    [leftMission, rightMission].Sublist missions ∧
      conflict.left ∈ leftMission.leases ∧ conflict.leftMission = leftMission.id ∧
      conflict.right ∈ rightMission.leases ∧ conflict.rightMission = rightMission.id ∧
      Incompatible crateDirectory conflict.left conflict.right
  unordered : ∀ missions', missions.Perm missions' →
    ((detectWorkspaceLeaseConflicts missions).map (·.sides)).Perm
      ((detectWorkspaceLeaseConflicts missions').map (·.sides))

/-- Leases are reported as they should be exactly when the incompatible ones are spelt alike. -/
theorem leases_reported_iff {crateDirectory : Option String → String → List (List Char)}
    {missions : List AgentMission} :
    LeasesReported crateDirectory missions ↔
      ∀ leftMission rightMission, [leftMission, rightMission].Sublist missions →
        ∀ left ∈ leftMission.leases, ∀ right ∈ rightMission.leases,
          Incompatible crateDirectory left right → SpeltAlike left right := by
  constructor
  · intro h leftMission rightMission hsub left hleft right hright hincompatible
    have hmem := h.complete leftMission rightMission hsub left hleft right hright hincompatible
    obtain ⟨_, _, -, hconflict⟩ := mem_detect.mp hmem
    obtain ⟨_, -, _, -, hconflicts, heq⟩ := mem_missionConflicts.mp hconflict
    simp only [WorkspaceLeaseConflict.mk.injEq] at heq
    obtain ⟨-, rfl, -, rfl⟩ := heq
    exact (conflictsWith_iff hincompatible).mp hconflicts
  · intro h
    refine ⟨?_, ?_, fun missions' hperm => detect_perm hperm⟩
    · intro leftMission rightMission hsub left hleft right hright hincompatible
      have halike := h leftMission rightMission hsub left hleft right hright hincompatible
      refine mem_detect.mpr ⟨leftMission, rightMission, hsub, mem_missionConflicts.mpr ?_⟩
      exact ⟨left, hleft, right, hright, (conflictsWith_iff hincompatible).mpr halike, rfl⟩
    · intro conflict hmem
      obtain ⟨leftMission, rightMission, hsub, hconflict⟩ := mem_detect.mp hmem
      obtain ⟨left, hleft, right, hright, hconflicts, rfl⟩ := mem_missionConflicts.mp hconflict
      exact ⟨leftMission, rightMission, hsub, hleft, rfl, hright, rfl,
        incompatible_of_conflictsWith hconflicts⟩

namespace LeaseSample

def crates (_ : Option String) (name : String) : List (List Char) := ["crates".toList, name.toList]

def mission (id path : String) : AgentMission := ⟨.new id, [.file "net" path]⟩

end LeaseSample

open LeaseSample in
/-- A path with a doubled slash is another text. -/
theorem doubled_slash_not_reported :
    ¬LeasesReported crates [mission "left" "src/lib.rs", mission "right" "src//lib.rs"] := by
  intro h
  have hsame : components (normalizePath "src/lib.rs").toList =
    components (normalizePath "src//lib.rs").toList := by decide
  have hmem := h.complete _ _ (List.Sublist.refl _) _ List.mem_cons_self _ List.mem_cons_self
    ⟨.inl rfl, _, rfl, congrArg (Resource.path (some "net")) hsame⟩
  have hnone : detectWorkspaceLeaseConflicts
    [mission "left" "src/lib.rs", mission "right" "src//lib.rs"] = [] := by decide
  rw [hnone] at hmem
  exact List.not_mem_nil hmem

end SimAgentNet.Agent
