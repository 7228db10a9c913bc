import SimAgentNet.RoadmapRunner.MutationRun

/-! # What sealing accepts

The sorted entries of a sealed plan, and the files that their paths address. Sealing compares the
texts of paths, a workspace acts on their components. -/

namespace SimAgentNet.RoadmapRunner

/-! ## Sealed entries -/

def PortableImage.size (image : PortableImage) : Nat := (image.bytes.map List.length).getD 0

/-- The bytes that the plan installs. -/
def postimageBytes (entries : List SealedEntry) : Nat := (entries.map (·.postimage.size)).sum

theorem foldlM_addPostimage {entries : List SealedEntry} {total total' : Nat} :
    entries.foldlM addPostimage total = .ok total' →
      total' = total + postimageBytes entries := by
  induction entries generalizing total with
  | nil =>
    intro h
    cases h
    rfl
  | cons e entries ih =>
    intro h
    obtain ⟨mid, hmid, h⟩ := Run.foldlM_cons_eq_ok_iff.mp h
    rw [addPostimage] at hmid
    split at hmid
    · cases hmid
      rw [ih h, postimageBytes, postimageBytes, List.map_cons, List.sum_cons, PortableImage.size]
      omega
    · cases hmid

theorem foldlM_addPostimage_of_lt {entries : List SealedEntry} {total : Nat}
    (h : total + postimageBytes entries < 2 ^ 64) :
    entries.foldlM addPostimage total = .ok (total + postimageBytes entries) := by
  induction entries generalizing total with
  | nil => rfl
  | cons e entries ih =>
    rw [postimageBytes, List.map_cons, List.sum_cons, ← postimageBytes] at h ⊢
    refine Run.foldlM_cons_eq_ok_iff.mpr ⟨total + e.postimage.size, if_pos ?_, ?_⟩
    · have : total + e.postimage.size < 2 ^ 64 := by omega
      exact this
    · rw [ih (by omega)]
      congr 1
      omega

/-- The sizes are summed up within the bound, or the sum exceeds it. -/
theorem total_le_iff {entries : List SealedEntry} :
    (∃ total, entries.foldlM addPostimage 0 = .ok total ∧ ¬total > defaultMaxMutationBytes) ↔
      postimageBytes entries ≤ defaultMaxMutationBytes := by
  constructor
  · rintro ⟨total, htotal, hle⟩
    rw [foldlM_addPostimage htotal] at hle
    omega
  · intro hle
    have hlt : 0 + postimageBytes entries < 2 ^ 64 := by
      unfold defaultMaxMutationBytes at hle
      omega
    exact ⟨_, foldlM_addPostimage_of_lt hlt, by omega⟩

/-- What is checked of an entry. -/
structure EntryChecked (paths : List String) (e : SealedEntry) : Prop where
  path : validateRelativePath e.path = .ok ()
  preimage : e.preimage.Valid
  postimage : e.postimage.Valid
  parents : ∀ p ∈ PathText.parents e.path, p ≠ "" → p ∉ paths

theorem checkEntry_eq_ok_iff {paths : List String} {e : SealedEntry} :
    checkEntry paths e = .ok () ↔ EntryChecked paths e := by
  simp only [checkEntry, Except.bind_eq_ok_iff, Except.guard_eq_ok_iff]
  constructor
  · rintro ⟨_, hpath, _, hpre, _, hpost, hparents, -⟩
    refine ⟨hpath, hpre, hpost, fun p hp hne hmem => hparents ?_⟩
    refine List.any_eq_true.mpr ⟨p, hp, ?_⟩
    simp [hne, hmem]
  · rintro ⟨hpath, hpre, hpost, hparents⟩
    refine ⟨(), hpath, (), hpre, (), hpost, fun hany => ?_, trivial⟩
    obtain ⟨p, hp, h⟩ := List.any_eq_true.mp hany
    simp only [Bool.and_eq_true, Bool.not_eq_true', List.contains_iff_mem] at h
    exact hparents p hp (by rintro rfl; simp at h) h.2

/-- Neighbours of a strictly sorted list differ. -/
theorem neighbours_of_pairwise_lt {f : α → String} {l : List α}
    (h : l.Pairwise fun a b => f a < f b) :
    ((l.zip l.tail).any fun w => f w.1 = f w.2) = false := by
  induction l with
  | nil => rfl
  | cons a l ih =>
    cases l with
    | nil => rfl
    | cons b l =>
      have hlt : f a < f b := (List.pairwise_cons.mp h).1 b List.mem_cons_self
      rw [List.tail_cons, List.zip_cons_cons, List.any_cons, Bool.or_eq_false_iff]
      exact ⟨decide_eq_false hlt.ne, ih (List.pairwise_cons.mp h).2⟩

/-- A plan is what sealing makes of the images. -/
structure SealedFrom (contentId : Datum → Except String ContentId) (images : List SealedEntry)
    (plan : SealedMutationPlan) : Prop where
  entries : plan.entries = images.insertionSort fun a b => a.path ≤ b.path
  sorted : plan.entries.Pairwise fun a b => a.path < b.path
  checked : ∀ e ∈ plan.entries, EntryChecked (plan.entries.map (·.path)) e
  total : plan.totalPostimageBytes = postimageBytes plan.entries
  bound : postimageBytes plan.entries ≤ defaultMaxMutationBytes
  id : planDigest contentId plan.entries = .ok plan.id

theorem fromImages_eq_ok_iff {images : List SealedEntry} {plan : SealedMutationPlan} :
    SealedMutationPlan.fromImages contentId images = .ok plan ↔
      SealedFrom contentId images plan := by
  simp only [SealedMutationPlan.fromImages, Except.guard_eq_ok_iff, Except.bind_eq_ok_iff]
  constructor
  · rintro ⟨hn, _, hchecks, total, htotal, hle, id, hid, h⟩
    cases h
    have hchecks := Except.forM_eq_ok_iff.mp hchecks
    refine ⟨rfl, ?_, fun e he => checkEntry_eq_ok_iff.mp (hchecks e he), ?_, total_le_iff.mp ⟨total, htotal, hle⟩, hid⟩
    · exact pairwise_lt_of_neighbours (images.pairwise_insertionSort fun a b => a.path ≤ b.path)
        (Bool.eq_false_iff.mpr hn)
    · rw [foldlM_addPostimage htotal, Nat.zero_add]
  · rintro ⟨hentries, hsorted, hchecks, htotal, hbound, hid⟩
    rw [hentries] at hsorted hchecks htotal hbound hid
    obtain ⟨total, hfold, hle⟩ := total_le_iff.mpr hbound
    have hchecks := Except.forM_eq_ok_iff.mpr fun e he => checkEntry_eq_ok_iff.mpr (hchecks e he)
    refine ⟨Bool.eq_false_iff.mp (neighbours_of_pairwise_lt hsorted), (), hchecks, total, hfold, hle,
      plan.id, hid, ?_⟩
    have heq : total = plan.totalPostimageBytes := by
      rw [foldlM_addPostimage hfold, Nat.zero_add, htotal]
    rw [heq, ← hentries]
    rfl

/-! ## The files of a plan -/

/-- The path is relative and stays below the root. -/
def StaysInside (path : String) : Prop :=
  ¬PathText.isAbsolute path ∧ ∀ c ∈ PathText.components path, ∃ name, c = .normal name

/-- The entries address different files, none of which is a directory of another one. -/
structure Separate (plan : SealedMutationPlan) : Prop where
  inside : ∀ e ∈ plan.entries, StaysInside e.path
  apart : plan.entries.Pairwise fun a b =>
    ¬PathText.components a.path <+: PathText.components b.path ∧
      ¬PathText.components b.path <+: PathText.components a.path

theorem staysInside_of_validate (h : validateRelativePath path = .ok ()) :
    path ≠ "" ∧ StaysInside path := by
  simp only [validateRelativePath, Except.guard_eq_ok_iff, not_or] at h
  obtain ⟨⟨hempty, -, habsolute, -⟩, hnormal, -⟩ := h
  refine ⟨by rintro rfl; exact hempty rfl, habsolute, fun c hc => ?_⟩
  have hc : ¬_ := fun hany => hnormal (List.any_eq_true.mpr ⟨c, hc, hany⟩)
  cases c with
  | normal name => exact ⟨name, rfl⟩
  | rootDir => exact absurd rfl hc
  | curDir => exact absurd rfl hc
  | parentDir => exact absurd rfl hc

/-- An entry that addresses the file or a directory of another one is spelled as the path of the
other or as one of its parents. -/
def SpelledAlike (plan : SealedMutationPlan) : Prop :=
  ∀ a ∈ plan.entries, ∀ b ∈ plan.entries,
    PathText.components a.path <+: PathText.components b.path →
      a.path = b.path ∨ a.path ∈ PathText.parents b.path

/-- The entries of a sealed plan are separate exactly when no two paths are spelled in different
ways where they meet. -/
theorem sealed_separate_iff {edits : List StructuralEdit} {plan : SealedMutationPlan}
    (h : SealedMutationPlan.seal contentId edits = .ok plan) :
    Separate plan ↔ SpelledAlike plan := by
  have S := fromImages_eq_ok_iff.mp h
  have hinside (e) (he : e ∈ plan.entries) := staysInside_of_validate (S.checked e he).path
  constructor
  · intro hseparate a ha b hb hprefix
    by_contra hne
    have hne : a ≠ b := fun heq => hne (.inl (congrArg _ heq))
    have : Std.Symm fun a b : SealedEntry =>
        ¬PathText.components a.path <+: PathText.components b.path ∧
          ¬PathText.components b.path <+: PathText.components a.path := ⟨fun _ _ h => h.symm⟩
    exact (hseparate.apart.forall ha hb hne).1 hprefix
  · intro halike
    have hapart {a b : SealedEntry} (ha : a ∈ plan.entries) (hb : b ∈ plan.entries)
        (hne : a.path ≠ b.path) :
        ¬PathText.components a.path <+: PathText.components b.path := by
      intro hprefix
      obtain heq | hparent := halike a ha b hb hprefix
      · exact hne heq
      · exact (S.checked b hb).parents a.path hparent (hinside a ha).1 (List.mem_map_of_mem ha)
    refine ⟨fun e he => (hinside e he).2, S.sorted.imp_of_mem fun {a b} ha hb hlt => ?_⟩
    exact ⟨hapart ha hb hlt.ne, hapart hb ha hlt.ne'⟩

/-! ## A file and its alias -/

namespace SealingSample

/-- Two files are created. -/
def creations (first second : String) : List StructuralEdit :=
  [⟨first, .absent, .file [0] 0o644⟩, ⟨second, .absent, .file [1] 0o644⟩]

end SealingSample

open MutationSample in
theorem sealed_separate_siblings :
    ∃ plan, SealedMutationPlan.seal contentId (SealingSample.creations "src/a" "src/b") = .ok plan ∧
      Separate plan := by
  have hrun : ((SealedMutationPlan.seal contentId (SealingSample.creations "src/a" "src/b")).map
      (·.entries.map (·.path))) = .ok ["src/a", "src/b"] := by decide +kernel
  obtain ⟨plan, h, hpaths⟩ := Except.map_eq_ok_iff.mp hrun
  refine ⟨plan, h, (sealed_separate_iff h).mpr fun a ha b hb => ?_⟩
  have halike : ∀ p ∈ ["src/a", "src/b"], ∀ q ∈ ["src/a", "src/b"],
      PathText.components p <+: PathText.components q → p = q ∨ p ∈ PathText.parents q := by
    decide +kernel
  exact halike _ (hpaths ▸ List.mem_map_of_mem ha) _ (hpaths ▸ List.mem_map_of_mem hb)

open MutationSample in
/-- One file is sealed twice, under two spellings of its path. -/
theorem doubled_slash_sealed :
    ∃ plan, SealedMutationPlan.seal contentId (SealingSample.creations "src/a" "src//a") = .ok plan ∧
      plan.entries.map (·.path) = ["src//a", "src/a"] ∧
      PathText.components "src//a" = PathText.components "src/a" ∧ ¬Separate plan := by
  have hrun : ((SealedMutationPlan.seal contentId (SealingSample.creations "src/a" "src//a")).map
      (·.entries.map (·.path))) = .ok ["src//a", "src/a"] := by decide +kernel
  obtain ⟨plan, h, hpaths⟩ := Except.map_eq_ok_iff.mp hrun
  have hsame : PathText.components "src//a" = PathText.components "src/a" := by decide +kernel
  refine ⟨plan, h, hpaths, hsame, fun S => ?_⟩
  have hapart : (plan.entries.map (·.path)).Pairwise fun p q =>
      ¬PathText.components p <+: PathText.components q :=
    List.pairwise_map.mpr (S.apart.imp And.left)
  rw [hpaths] at hapart
  exact (List.pairwise_cons.mp hapart).1 "src/a" (List.mem_singleton_self _)
    (hsame ▸ List.prefix_rfl)

end SimAgentNet.RoadmapRunner
