import SimAgentNet.Data.StableSort
import SimAgentNet.RoadmapCore.Exact
import SimAgentNet.RoadmapCore.Validation

/-! # Differences of revisions

A row of a diff names a phase or a field of a phase by its path. -/

namespace SimAgentNet.RoadmapRefine

open RoadmapCore

inductive EvidenceDisposition where
  | candidate
  | exactReusable
  | invalidated
deriving DecidableEq

structure RevisionDiff where
  path : String
  evidence : EvidenceDisposition
deriving DecidableEq

/-- The fields of a phase that are compared. -/
inductive PhaseField where
  | parent | title | intent | body | dependencies | owners | resources | effects | capabilities
  | changes | acceptance | coverage | outputs | guide | origin
deriving DecidableEq

namespace PhaseField

def all : List PhaseField :=
  [.parent, .title, .intent, .body, .dependencies, .owners, .resources, .effects, .capabilities,
    .changes, .acceptance, .coverage, .outputs, .guide, .origin]

def name : PhaseField → String
  | .parent => "parent"
  | .title => "title"
  | .intent => "intent"
  | .body => "body"
  | .dependencies => "dependencies"
  | .owners => "owners"
  | .resources => "resources"
  | .effects => "effects"
  | .capabilities => "capabilities"
  | .changes => "changes"
  | .acceptance => "acceptance"
  | .coverage => "coverage"
  | .outputs => "outputs"
  | .guide => "guide"
  | .origin => "origin"

def disposition : PhaseField → EvidenceDisposition
  | .title | .coverage => .candidate
  | _ => .invalidated

def changed (old new : PhaseSpec) : PhaseField → Bool
  | .parent => old.parent ≠ new.parent
  | .title => old.title ≠ new.title
  | .intent => old.intent ≠ new.intent
  | .body => old.body ≠ new.body
  | .dependencies => old.dependencies ≠ new.dependencies
  | .owners => old.owners ≠ new.owners
  | .resources => old.resources ≠ new.resources
  | .effects => old.effects ≠ new.effects
  | .capabilities => old.capabilities ≠ new.capabilities
  | .changes => old.changes ≠ new.changes
  | .acceptance => old.acceptance ≠ new.acceptance
  | .coverage => old.coverage ≠ new.coverage
  | .outputs => old.outputs ≠ new.outputs
  | .guide => old.guide ≠ new.guide
  | .origin => old.origin ≠ new.origin

end PhaseField

def phasePath (id : PhaseId) : String := "phases." ++ id.text
def fieldPath (id : PhaseId) (field : PhaseField) : String :=
  "phases." ++ id.text ++ "." ++ field.name

/-- The rows of a phase of the old revision. -/
def phaseRows (new : RoadmapRevision) (entry : PhaseId × PhaseSpec) : List RevisionDiff :=
  match new.spec.phases.get? entry.1 with
  | none => [⟨phasePath entry.1, .invalidated⟩]
  | some phase =>
    if entry.2 ≠ phase then
      (PhaseField.all.filter (·.changed entry.2 phase)).map fun field =>
        ⟨fieldPath entry.1 field, field.disposition⟩
    else [⟨phasePath entry.1, .exactReusable⟩]

/-- The rows of the phases that only the new revision has. -/
def addedRows (old new : RoadmapRevision) : List RevisionDiff :=
  (new.spec.phases.keys.filter (!old.spec.phases.contains ·)).map fun id =>
    ⟨phasePath id, .candidate⟩

def diffRevisions (old new : RoadmapRevision) : List RevisionDiff :=
  StableSort.sortBy (·.path)
    (old.spec.phases.entries.flatMap (phaseRows new) ++ addedRows old new)

/-! ## Paths -/

namespace PhaseField

theorem mem_all (field : PhaseField) : field ∈ all := by
  cases field <;> decide

theorem nodup_all : all.Nodup := by decide

theorem name_injective : Function.Injective name := by
  intro a b h
  have hinj : ∀ a ∈ all, ∀ b ∈ all, a.name = b.name → a = b := by decide
  exact hinj a (mem_all a) b (mem_all b) h

theorem dot_notMem_name (field : PhaseField) : '.' ∉ field.name.toList := by
  have hall : ∀ a ∈ all, '.' ∉ a.name.toList := by decide
  exact hall field (mem_all field)

/-- The fields and the id are all there is to a phase. -/
theorem eq_of_unchanged {old new : PhaseSpec} (hid : old.id = new.id)
    (h : ∀ field : PhaseField, field.changed old new = false) : old = new := by
  have hsame (field : PhaseField) := h field
  cases old
  cases new
  simp only [PhaseSpec.mk.injEq]
  refine ⟨hid, ?_, ?_, ?_, ?_, ?_, ?_, ?_, ?_, ?_, ?_, ?_, ?_, ?_, ?_, ?_⟩
  · simpa [changed] using h .parent
  · simpa [changed] using h .title
  · simpa [changed] using h .intent
  · simpa [changed] using h .body
  · simpa [changed] using h .dependencies
  · simpa [changed] using h .owners
  · simpa [changed] using h .resources
  · simpa [changed] using h .effects
  · simpa [changed] using h .capabilities
  · simpa [changed] using h .changes
  · simpa [changed] using h .acceptance
  · simpa [changed] using h .coverage
  · simpa [changed] using h .outputs
  · simpa [changed] using h .guide
  · simpa [changed] using h .origin

end PhaseField

theorem phasePath_injective : Function.Injective phasePath := by
  intro a b h
  rw [phasePath, phasePath, String.append_right_inj] at h
  exact TextId.text_injective h

/-- A path ends with the text of a field after the last dot. -/
theorem reverse_fieldPath (k : PhaseId) (field : PhaseField) :
    (fieldPath k field).toList.reverse =
      field.name.toList.reverse ++ '.' :: ("phases." ++ k.text).toList.reverse := by
  simp [fieldPath]

theorem fieldPath_inj {k k' : PhaseId} {field field' : PhaseField} :
    fieldPath k field = fieldPath k' field' ↔ k = k' ∧ field = field' := by
  refine ⟨fun h => ?_, fun ⟨hk, hfield⟩ => hk ▸ hfield ▸ rfl⟩
  have hdot (field : PhaseField) : '.' ∉ field.name.toList.reverse :=
    List.mem_reverse.not.mpr field.dot_notMem_name
  have hsplit := Text.splitOnce_append (b := ("phases." ++ k.text).toList.reverse) (hdot field)
  rw [← reverse_fieldPath, h, reverse_fieldPath, Text.splitOnce_append (hdot field')] at hsplit
  obtain ⟨hname, hphase⟩ := Prod.mk.inj (Option.some.inj hsplit)
  have hphase : phasePath k' = phasePath k := String.toList_inj.mp (List.reverse_injective hphase)
  have hname := String.toList_inj.mp (List.reverse_injective hname)
  exact ⟨phasePath_injective hphase.symm, PhaseField.name_injective hname.symm⟩

theorem phasePath_eq_fieldPath_iff {k k' : PhaseId} {field : PhaseField} :
    phasePath k' = fieldPath k field ↔ k'.text = k.text ++ "." ++ field.name := by
  rw [phasePath, fieldPath, String.append_assoc, String.append_assoc, String.append_right_inj,
    ← String.append_assoc]

/-! ## Subjects of rows -/

/-- The phase at the id is in both revisions and differs. -/
def Differs (old new : RoadmapRevision) (k : PhaseId) : Prop :=
  ∃ p q, old.spec.phases.get? k = some p ∧ new.spec.phases.get? k = some q ∧ p ≠ q

/-- The phase at the id is removed, added or unchanged. -/
def Whole (old new : RoadmapRevision) (k : PhaseId) : Prop :=
  (k ∈ old.spec.phases.keys ∨ k ∈ new.spec.phases.keys) ∧ ¬Differs old new k

/-- What a row is about: a phase, or a field of it. -/
abbrev Subject := PhaseId × Option PhaseField

def Subject.path : Subject → String
  | (k, none) => phasePath k
  | (k, some field) => fieldPath k field

def phaseSubjects (new : RoadmapRevision) (entry : PhaseId × PhaseSpec) : List Subject :=
  match new.spec.phases.get? entry.1 with
  | none => [(entry.1, none)]
  | some phase =>
    if entry.2 ≠ phase then
      (PhaseField.all.filter (·.changed entry.2 phase)).map fun field => (entry.1, some field)
    else [(entry.1, none)]

def subjects (old new : RoadmapRevision) : List Subject :=
  old.spec.phases.entries.flatMap (phaseSubjects new) ++
    (new.spec.phases.keys.filter (!old.spec.phases.contains ·)).map fun k => (k, none)

/-- What the row of a subject says. -/
def Subject.evidence (old new : RoadmapRevision) : Subject → EvidenceDisposition
  | (_, some field) => field.disposition
  | (k, none) =>
    match old.spec.phases.get? k, new.spec.phases.get? k with
    | none, _ => .candidate
    | some _, none => .invalidated
    | some _, some _ => .exactReusable

section
variable {old new : RoadmapRevision}

theorem rows_eq_map_subjects : old.spec.phases.entries.flatMap (phaseRows new) ++ addedRows old new =
    (subjects old new).map fun subject => ⟨subject.path, subject.evidence old new⟩ := by
  rw [subjects, List.map_append, List.map_flatMap, addedRows, List.map_map]
  congr 1
  · refine List.flatMap_congr fun entry hentry => ?_
    have hold := SortedMap.get?_eq_some_iff.mpr hentry
    rw [phaseRows, phaseSubjects]
    split
    · rename_i hnone
      simp only [List.map_cons, List.map_nil, Subject.path, Subject.evidence, hold, hnone]
    · rename_i phase hphase
      split
      · rw [List.map_map]
        rfl
      · simp only [List.map_cons, List.map_nil, Subject.path, Subject.evidence, hold, hphase]
  · refine List.map_congr_left fun k hk => ?_
    have hnone : old.spec.phases.get? k = none := by
      simpa [SortedMap.contains] using (List.mem_filter.mp hk).2
    simp only [Function.comp_apply, Subject.path, Subject.evidence, hnone]

theorem mem_diffRevisions_iff {row : RevisionDiff} : row ∈ diffRevisions old new ↔
    ∃ subject ∈ subjects old new, row = ⟨subject.path, subject.evidence old new⟩ := by
  rw [diffRevisions, rows_eq_map_subjects, (StableSort.perm_sortBy _).mem_iff, List.mem_map]
  exact ⟨fun ⟨subject, hmem, heq⟩ => ⟨subject, hmem, heq.symm⟩,
    fun ⟨subject, hmem, heq⟩ => ⟨subject, hmem, heq.symm⟩⟩

/-- Only the fields of a phase that differs have rows, those that changed. -/
theorem mem_subjects_field {k : PhaseId} {field : PhaseField} : (k, some field) ∈ subjects old new ↔
    ∃ p q, old.spec.phases.get? k = some p ∧ new.spec.phases.get? k = some q ∧ p ≠ q ∧
      field.changed p q = true := by
  simp only [subjects, List.mem_append, List.mem_flatMap, List.mem_map, Prod.mk.injEq, reduceCtorEq,
    and_false, exists_false, or_false]
  constructor
  · rintro ⟨⟨k', p⟩, hp, hmem⟩
    have hp := SortedMap.get?_eq_some_iff.mpr hp
    rw [phaseSubjects] at hmem
    split at hmem
    · simp at hmem
    · rename_i q hq
      split at hmem
      · rename_i hne
        obtain ⟨field', hfield, heq⟩ := List.mem_map.mp hmem
        cases heq
        exact ⟨p, q, hp, hq, hne, (List.mem_filter.mp hfield).2⟩
      · simp at hmem
  · rintro ⟨p, q, hp, hq, hne, hchanged⟩
    refine ⟨(k, p), SortedMap.get?_eq_some_iff.mp hp, ?_⟩
    rw [phaseSubjects, hq]
    dsimp only
    rw [if_pos hne]
    exact List.mem_map.mpr ⟨field, List.mem_filter.mpr ⟨field.mem_all, hchanged⟩, rfl⟩

/-- A phase that does not differ has one row. -/
theorem mem_subjects_phase {k : PhaseId} : (k, none) ∈ subjects old new ↔ Whole old new k := by
  simp only [subjects, List.mem_append, List.mem_flatMap, List.mem_map, Prod.mk.injEq, and_true,
    exists_eq_right, List.mem_filter]
  constructor
  · rintro (⟨⟨k', p⟩, hp, hmem⟩ | ⟨hin, hout⟩)
    · have hp := SortedMap.get?_eq_some_iff.mpr hp
      rw [phaseSubjects] at hmem
      split at hmem
      · rename_i hnone
        cases List.mem_singleton.mp hmem
        refine ⟨.inl (SortedMap.mem_keys_iff.mpr ⟨p, hp⟩), ?_⟩
        rintro ⟨_, _, -, hq, -⟩
        exact nomatch hnone.symm.trans hq
      · rename_i q hq
        split at hmem
        · simp at hmem
        · rename_i heq
          cases List.mem_singleton.mp hmem
          refine ⟨.inl (SortedMap.mem_keys_iff.mpr ⟨p, hp⟩), ?_⟩
          rintro ⟨_, _, hp', hq', hne⟩
          cases hp.symm.trans hp'
          cases hq.symm.trans hq'
          exact heq hne
    · refine ⟨.inr hin, ?_⟩
      rintro ⟨p, -, hp, -⟩
      simp [SortedMap.contains, hp] at hout
  · rintro ⟨hin, hsame⟩
    cases hp : old.spec.phases.get? k with
    | none =>
      refine .inr ⟨hin.resolve_left fun hk => ?_, by simp [SortedMap.contains, hp]⟩
      obtain ⟨p, hp'⟩ := SortedMap.mem_keys_iff.mp hk
      exact nomatch hp.symm.trans hp'
    | some p =>
      refine .inl ⟨(k, p), SortedMap.get?_eq_some_iff.mp hp, ?_⟩
      rw [phaseSubjects]
      split
      · exact List.mem_singleton_self _
      · rename_i q hq
        rw [if_neg fun hne => hsame ⟨p, q, hp, hq, hne⟩]
        exact List.mem_singleton_self _

theorem nodup_subjects : (subjects old new).Nodup := by
  have hkey {entry subject} (hmem : subject ∈ phaseSubjects new entry) : subject.1 = entry.1 := by
    rw [phaseSubjects] at hmem
    split at hmem
    · exact congrArg Prod.fst (List.mem_singleton.mp hmem)
    · split at hmem
      · obtain ⟨field, -, rfl⟩ := List.mem_map.mp hmem
        rfl
      · exact congrArg Prod.fst (List.mem_singleton.mp hmem)
  refine List.nodup_append.mpr ⟨List.nodup_flatMap.mpr ⟨fun entry _ => ?_, ?_⟩, ?_, ?_⟩
  · rw [phaseSubjects]
    split
    · exact List.nodup_singleton _
    · split
      · refine (PhaseField.nodup_all.filter _).map fun a b h => ?_
        exact Option.some.inj (Prod.mk.inj h).2
      · exact List.nodup_singleton _
  · refine old.spec.phases.sorted.imp fun {a b} hlt => ?_
    exact fun subject ha hb => hlt.ne ((hkey ha).symm.trans (hkey hb))
  · exact ((SortedMap.nodup_keys _).filter _).map fun a b h => (Prod.mk.inj h).1
  · intro a ha b hb hab
    obtain ⟨entry, hentry, ha⟩ := List.mem_flatMap.mp ha
    obtain ⟨k, hk, rfl⟩ := List.mem_map.mp hb
    have hold := SortedMap.get?_eq_some_iff.mpr hentry
    have hout := (List.mem_filter.mp hk).2
    rw [← hkey ha, hab] at hold
    simp [SortedMap.contains, hold] at hout

theorem nodup_paths_iff : ((diffRevisions old new).map (·.path)).Nodup ↔
    ∀ a ∈ subjects old new, ∀ b ∈ subjects old new, a.path = b.path → a = b := by
  have hperm : ((diffRevisions old new).map (·.path)).Perm ((subjects old new).map Subject.path) := by
    have hsort : (diffRevisions old new).Perm
        (old.spec.phases.entries.flatMap (phaseRows new) ++ addedRows old new) :=
      StableSort.perm_sortBy _
    have hpaths := hsort.map (·.path)
    rwa [rows_eq_map_subjects, List.map_map] at hpaths
  rw [hperm.nodup_iff]
  exact ⟨fun h a ha b hb => List.inj_on_of_nodup_map h ha hb, fun h => nodup_subjects.map_on h⟩

end

/-! ## Exact diffs -/

/-- The rows have different paths and say of each phase and field what became of it. -/
structure ExactDiff (old new : RoadmapRevision) : Prop where
  distinct : ((diffRevisions old new).map (·.path)).Nodup
  removed : old.spec.phases.get? k = some p → new.spec.phases.get? k = none →
    ⟨phasePath k, .invalidated⟩ ∈ diffRevisions old new
  added : old.spec.phases.get? k = none → new.spec.phases.get? k = some p →
    ⟨phasePath k, .candidate⟩ ∈ diffRevisions old new
  reusable : ⟨phasePath k, .exactReusable⟩ ∈ diffRevisions old new ↔
    ∃ p, old.spec.phases.get? k = some p ∧ new.spec.phases.get? k = some p
  fields : old.spec.phases.get? k = some p → new.spec.phases.get? k = some q → p ≠ q →
    (∃ field : PhaseField, field.changed p q = true) ∧ ∀ field : PhaseField,
      (∃ evidence, ⟨fieldPath k field, evidence⟩ ∈ diffRevisions old new) ↔
        field.changed p q = true
  same : (∀ row ∈ diffRevisions old new, row.evidence = .exactReusable) ↔
    old.spec.phases = new.spec.phases

section
variable {old new : RoadmapRevision}

theorem exists_changed (hold : old.spec.OwnKeys) (hnew : new.spec.OwnKeys)
    (hp : old.spec.phases.get? k = some p) (hq : new.spec.phases.get? k = some q) (hne : p ≠ q) :
    ∃ field : PhaseField, field.changed p q = true := by
  by_contra hnone
  refine hne (PhaseField.eq_of_unchanged ((hold k p hp).trans (hnew k q hq).symm) fun field => ?_)
  exact Bool.eq_false_iff.mpr fun hchanged => hnone ⟨field, hchanged⟩

theorem row_of_whole {k : PhaseId} (h : Whole old new k) :
    ⟨phasePath k, Subject.evidence old new (k, none)⟩ ∈ diffRevisions old new :=
  mem_diffRevisions_iff.mpr ⟨_, mem_subjects_phase.mpr h, rfl⟩

/-- The row of a phase that is removed. -/
theorem row_of_removed {k : PhaseId} {p : PhaseSpec} (hp : old.spec.phases.get? k = some p)
    (hq : new.spec.phases.get? k = none) :
    ⟨phasePath k, .invalidated⟩ ∈ diffRevisions old new := by
  have hwhole : Whole old new k := by
    refine ⟨.inl (SortedMap.mem_keys_iff.mpr ⟨p, hp⟩), ?_⟩
    rintro ⟨_, _, -, hq', -⟩
    exact nomatch hq.symm.trans hq'
  have hrow := row_of_whole hwhole
  rwa [Subject.evidence, hp, hq] at hrow

/-- The row of a phase that is added. -/
theorem row_of_added {k : PhaseId} {q : PhaseSpec} (hp : old.spec.phases.get? k = none)
    (hq : new.spec.phases.get? k = some q) :
    ⟨phasePath k, .candidate⟩ ∈ diffRevisions old new := by
  have hwhole : Whole old new k := by
    refine ⟨.inr (SortedMap.mem_keys_iff.mpr ⟨q, hq⟩), ?_⟩
    rintro ⟨_, _, hp', -⟩
    exact nomatch hp.symm.trans hp'
  have hrow := row_of_whole hwhole
  rwa [Subject.evidence, hp] at hrow

theorem row_of_changed {k : PhaseId} {field : PhaseField} {p q : PhaseSpec}
    (hp : old.spec.phases.get? k = some p) (hq : new.spec.phases.get? k = some q) (hne : p ≠ q)
    (h : field.changed p q = true) : ⟨fieldPath k field, field.disposition⟩ ∈ diffRevisions old new :=
  mem_diffRevisions_iff.mpr ⟨_, mem_subjects_field.mpr ⟨p, q, hp, hq, hne, h⟩, rfl⟩

theorem reusable_iff {k : PhaseId} : ⟨phasePath k, .exactReusable⟩ ∈ diffRevisions old new ↔
    ∃ p, old.spec.phases.get? k = some p ∧ new.spec.phases.get? k = some p := by
  constructor
  · intro hrow
    obtain ⟨⟨k', _ | field⟩, hmem, heq⟩ := mem_diffRevisions_iff.mp hrow
    · obtain ⟨hpath, hevidence⟩ := RevisionDiff.mk.inj heq
      cases phasePath_injective hpath
      obtain ⟨-, hsame⟩ := mem_subjects_phase.mp hmem
      cases hp : old.spec.phases.get? k with
      | none => simp [Subject.evidence, hp] at hevidence
      | some p =>
        cases hq : new.spec.phases.get? k with
        | none => simp [Subject.evidence, hp, hq] at hevidence
        | some q =>
          by_cases heq : p = q
          · exact ⟨p, rfl, congrArg some heq.symm⟩
          · exact absurd ⟨p, q, hp, hq, heq⟩ hsame
    · have hevidence := (RevisionDiff.mk.inj heq).2
      cases field <;> cases hevidence
  · rintro ⟨p, hp, hq⟩
    have hwhole : Whole old new k := by
      refine ⟨.inl (SortedMap.mem_keys_iff.mpr ⟨p, hp⟩), ?_⟩
      rintro ⟨p', q', hp', hq', hne⟩
      exact hne (Option.some.inj ((hp'.symm.trans hp).trans (hq.symm.trans hq')))
    have hrow := row_of_whole hwhole
    rwa [Subject.evidence, hp, hq] at hrow

theorem settled_iff (hold : old.spec.OwnKeys) (hnew : new.spec.OwnKeys) :
    (∀ row ∈ diffRevisions old new, row.evidence = .exactReusable) ↔
      old.spec.phases = new.spec.phases := by
  constructor
  · intro hall
    refine SortedMap.ext fun k => ?_
    cases hp : old.spec.phases.get? k with
    | none =>
      cases hq : new.spec.phases.get? k with
      | none => rfl
      | some q =>
        have hrow := hall _ (row_of_added hp hq)
        cases hrow
    | some p =>
      cases hq : new.spec.phases.get? k with
      | none =>
        have hrow := hall _ (row_of_removed hp hq)
        cases hrow
      | some q =>
        by_contra hne
        have hne : p ≠ q := fun heq => hne (congrArg some heq)
        obtain ⟨field, hchanged⟩ := exists_changed hold hnew hp hq hne
        have hrow := hall _ (row_of_changed hp hq hne hchanged)
        cases field <;> cases hrow
  · intro heq row hrow
    obtain ⟨⟨k, _ | field⟩, hmem, rfl⟩ := mem_diffRevisions_iff.mp hrow
    · obtain ⟨hin, -⟩ := mem_subjects_phase.mp hmem
      rw [← heq, or_self, SortedMap.mem_keys_iff] at hin
      obtain ⟨p, hp⟩ := hin
      simp [Subject.evidence, ← heq, hp]
    · obtain ⟨p, q, hp, hq, hne, -⟩ := mem_subjects_field.mp hmem
      rw [heq] at hp
      exact absurd (Option.some.inj (hp.symm.trans hq)) hne

/-- No phase with a row of its own is named like a field of a phase that differs. -/
def Apart (old new : RoadmapRevision) : Prop :=
  ∀ (k k' : PhaseId) (field : PhaseField), Differs old new k →
    k'.text = k.text ++ "." ++ field.name → ¬Whole old new k'

theorem path_inj_of_apart (h : Apart old new) {a b : Subject} (ha : a ∈ subjects old new)
    (hb : b ∈ subjects old new) (hpath : a.path = b.path) : a = b := by
  have hmixed {k k' field} (hk : (k, none) ∈ subjects old new)
      (hk' : (k', some field) ∈ subjects old new) (hpath : phasePath k = fieldPath k' field) :
      False := by
    obtain ⟨p, q, hp, hq, hne, -⟩ := mem_subjects_field.mp hk'
    exact h k' k field ⟨p, q, hp, hq, hne⟩ (phasePath_eq_fieldPath_iff.mp hpath)
      (mem_subjects_phase.mp hk)
  obtain ⟨k, _ | field⟩ := a <;> obtain ⟨k', _ | field'⟩ := b
  · rw [phasePath_injective hpath]
  · exact (hmixed ha hb hpath).elim
  · exact (hmixed hb ha hpath.symm).elim
  · obtain ⟨rfl, rfl⟩ := fieldPath_inj.mp hpath
    rfl

/-- A diff is exact if and only if no phase is named like a field of another one that differs. -/
theorem diff_exact_iff (hold : old.spec.OwnKeys) (hnew : new.spec.OwnKeys) :
    ExactDiff old new ↔ Apart old new := by
  constructor
  · rintro E k k' field ⟨p, q, hp, hq, hne⟩ htext hwhole
    have hpath := phasePath_eq_fieldPath_iff.mpr htext
    have hrow := row_of_whole hwhole
    rw [hpath] at hrow
    have hchanged := ((E.fields hp hq hne).2 field).mp ⟨_, hrow⟩
    have hsame := nodup_paths_iff.mp E.distinct _ (mem_subjects_phase.mpr hwhole) _
      (mem_subjects_field.mpr ⟨p, q, hp, hq, hne, hchanged⟩) hpath
    cases hsame
  · intro h
    refine
      { distinct := nodup_paths_iff.mpr fun a ha b hb => path_inj_of_apart h ha hb
        removed := row_of_removed
        added := row_of_added
        reusable := reusable_iff
        fields := fun {k p q} hp hq hne => ⟨exists_changed hold hnew hp hq hne, fun field => ?_⟩
        same := settled_iff hold hnew }
    refine ⟨fun ⟨evidence, hrow⟩ => ?_, fun hchanged => ⟨_, row_of_changed hp hq hne hchanged⟩⟩
    obtain ⟨⟨k', _ | field'⟩, hmem, heq⟩ := mem_diffRevisions_iff.mp hrow
    · have hpath := (RevisionDiff.mk.inj heq).1
      exact absurd (mem_subjects_phase.mp hmem)
        (h k k' field ⟨p, q, hp, hq, hne⟩ (phasePath_eq_fieldPath_iff.mp hpath.symm))
    · obtain ⟨rfl, rfl⟩ := fieldPath_inj.mp (RevisionDiff.mk.inj heq).1
      obtain ⟨p', q', hp', hq', -, hchanged⟩ := mem_subjects_field.mp hmem
      cases hp.symm.trans hp'
      cases hq.symm.trans hq'
      exact hchanged

end

/-! ## A phase named like a field of its sibling -/

namespace Sample
open RoadmapCore.Sample

/-- The left leaf with the first checkpoints, beside a leaf of the given id. -/
def cut (sibling : PhaseId) (n : Nat) : RoadmapRevision where
  id := ⟨⟨.new "sha256", List.replicate 32 1, rfl⟩⟩
  parent := none
  spec := { spec [] [] with
    phases := ((SortedMap.insert ∅ rootId { root with body := .composite [leftId, sibling] }).insert
      leftId { leaf leftId [] with body := .leaf (checkpoints.take n) }).insert sibling
        (leaf sibling []) }
  change := ⟨textId "start", "the first revision"⟩

def bodyId : PhaseId := textId "left.body"

end Sample

theorem diff_exact_cut : ExactDiff (Sample.cut Sample.rightId 2) (Sample.cut Sample.rightId 1) := by
  have hold : ∀ e ∈ (Sample.cut Sample.rightId 2).spec.phases.entries, e.2.id = e.1 := by
    decide +kernel
  have hnew : ∀ e ∈ (Sample.cut Sample.rightId 1).spec.phases.entries, e.2.id = e.1 := by
    decide +kernel
  have hkeys : (Sample.cut Sample.rightId 1).spec.phases.keys =
      (Sample.cut Sample.rightId 2).spec.phases.keys := by decide +kernel
  have hapart : ∀ k ∈ (Sample.cut Sample.rightId 2).spec.phases.keys,
      ∀ k' ∈ (Sample.cut Sample.rightId 2).spec.phases.keys, ∀ field ∈ PhaseField.all,
        k'.text ≠ k.text ++ "." ++ field.name := by decide +kernel
  refine (diff_exact_iff
    (fun k phase hk => hold (k, phase) (SortedMap.get?_eq_some_iff.mp hk))
    (fun k phase hk => hnew (k, phase) (SortedMap.get?_eq_some_iff.mp hk))).mpr ?_
  rintro k k' field ⟨p, -, hp, -⟩ htext ⟨hin, -⟩
  rw [hkeys, or_self] at hin
  exact hapart k (SortedMap.mem_keys_iff.mpr ⟨p, hp⟩) k' hin field field.mem_all htext

/-- A changed body and the unchanged phase named after it have the same path. -/
theorem named_like_field_diff :
    validateSpec (Sample.cut Sample.bodyId 2).spec = .ok () ∧
    validateSpec (Sample.cut Sample.bodyId 1).spec = .ok () ∧
    diffRevisions (Sample.cut Sample.bodyId 2) (Sample.cut Sample.bodyId 1) =
      [⟨"phases.left.body", .invalidated⟩, ⟨"phases.left.body", .exactReusable⟩,
        ⟨"phases.root", .exactReusable⟩] ∧
    ¬ExactDiff (Sample.cut Sample.bodyId 2) (Sample.cut Sample.bodyId 1) := by
  have hrows : diffRevisions (Sample.cut Sample.bodyId 2) (Sample.cut Sample.bodyId 1) =
      [⟨"phases.left.body", .invalidated⟩, ⟨"phases.left.body", .exactReusable⟩,
        ⟨"phases.root", .exactReusable⟩] := by decide +kernel
  refine ⟨by decide +kernel, by decide +kernel, hrows, fun E => ?_⟩
  have hdistinct := E.distinct
  rw [hrows] at hdistinct
  exact absurd hdistinct (by decide)

end SimAgentNet.RoadmapRefine
