import SimAgentNet.RoadmapRunner.Sealing

/-! # Undoing a mutation

Rollback is another sealed plan, with the two images of each entry exchanged. Sealing bounds the
bytes that a plan installs and not those that it removes, so a sealed plan has an inverse exactly
when its preimages are within the bound. -/

namespace SimAgentNet.RoadmapRunner
open MutationEngine

/-! ## What a call leaves alone -/

section
variable {ω ι : Type}

/-- Applying an entry of the plan changes the image of no other path. -/
def MutationWorkspace.Confined (image : ω → String → PortableImage) (plan : SealedMutationPlan)
    (workspace : MutationWorkspace ω) : Prop :=
  ∀ e ∈ plan.entries, ∀ fail w past r w' past',
    workspace.apply e fail (w, past) = (r, w', past') → ∀ p ≠ e.path, image w' p = image w p

namespace MutationEngine
open Effect (Triple)

variable {image : ω → String → PortableImage} {workspace : MutationWorkspace ω}
  {journal : MutationJournal ι} {classifyTransition : ClassifyTransition}
  {plan : SealedMutationPlan} {w₀ : ω}

variable (image plan) in
/-- The paths outside the plan have the images of `w₀`. -/
def Outside (w₀ : ω) (s : MutationSession ω ι) : Prop :=
  ∀ p ∉ plan.entries.map (·.path), image s.workspace p = image w₀ p

theorem outside_steady :
    Steady image (Outside (ι := ι) image plan w₀) (Outside image plan w₀) where
  next h himg _ _ := fun p hp => (congrFun himg p).trans (h p hp)
  stop h himg _ _ := fun p hp => (congrFun himg p).trans (h p hp)

variable (hw : workspace.Lawful image plan) (hconf : workspace.Confined image plan)

include hconf in
theorem applyEntry_outside (he : e ∈ plan.entries) :
    Triple (Outside image plan w₀) (applyEntry (ι := ι) workspace e fail)
      (fun _ => Outside image plan w₀) (Outside image plan w₀) := by
  intro s hs
  simp only [applyEntry, operate, Effect.focus]
  rcases hx : workspace.apply e fail (s.workspace, s.failpoints) with ⟨r, w', past'⟩
  have hout : ∀ p ∉ plan.entries.map (·.path), image w' p = image w₀ p := by
    intro p hp
    have hne : p ≠ e.path := by
      rintro rfl
      exact hp (List.mem_map_of_mem he)
    exact (hconf e he _ _ _ _ _ _ hx p hne).trans (hs p hp)
  cases r with
  | ok u => exact hout
  | error err => exact hout

include hw hconf in
theorem applyFrom_outside (hes : ∀ e ∈ es, e ∈ plan.entries) :
    Triple (Outside image plan w₀) (applyFrom workspace journal plan paths fail index es)
      (fun _ => Outside image plan w₀) (Outside image plan w₀) := by
  induction es generalizing index with
  | nil => exact .pure fun _ hs => hs
  | cons e es ih =>
    have he := hes e List.mem_cons_self
    have ih := fun n => @ih n fun e' he' => hes e' (List.mem_cons_of_mem _ he')
    have hst : Steady image (Outside (ι := ι) image plan w₀) (Outside image plan w₀) :=
      outside_steady
    unfold applyFrom
    split
    · refine .bind hst.fence fun _ => .bind (applyEntry_outside hconf he) fun _ => ?_
      refine .bind hst.failAt fun _ => .bind (hst.observe hw e.path) fun actual => ?_
      refine .bind (hst.failAt.weaken (fun _ hs => hs.1) (fun _ _ hs => hs) fun _ hs => hs)
        fun _ => ?_
      split
      · exact .fail fun _ hs => hs
      · exact ih _
    · exact ih _

theorem receipt_outside :
    Triple (Outside image plan w₀) (receipt (ι := ι) workspace plan)
      (fun _ => Outside image plan w₀) (Outside image plan w₀) :=
  .bind (Triple.get fun _ hs => hs) fun _ =>
    .pure fun _ (hs : Outside image plan w₀ _) => hs

include hw in
theorem verify_outside :
    Triple (Outside image plan w₀) (verify workspace journal classifyTransition plan fail)
      (fun _ => Outside image plan w₀) (Outside image plan w₀) := by
  have hst : Steady image (Outside (ι := ι) image plan w₀) (Outside image plan w₀) :=
    outside_steady
  refine .bind hst.fence fun _ => .bind (hst.observeAll hw) fun observed => ?_
  cases classifyPlan classifyTransition plan observed with
  | committed =>
    refine .bind (hst.fence.weaken (fun _ hs => hs.1) (fun _ _ hs => hs) fun _ hs => hs)
      fun _ => receipt_outside
  | ambiguous ps => exact .fail fun _ hs => hs.1
  | apply ps => exact .fail fun _ hs => hs.1

include hw hconf in
theorem resumeApply_outside :
    Triple (Outside image plan w₀) (resumeApply workspace journal classifyTransition plan fail)
      (fun _ => Outside image plan w₀) (Outside image plan w₀) := by
  have hst : Steady image (Outside (ι := ι) image plan w₀) (Outside image plan w₀) :=
    outside_steady
  have happly (paths : List String) :
      Triple (Outside image plan w₀)
        (applyAndVerify workspace journal classifyTransition plan paths fail)
        (fun _ => Outside image plan w₀) (Outside image plan w₀) :=
    .bind (applyFrom_outside hw hconf fun _ he => he) fun _ => verify_outside hw
  refine .bind (hst.observeAll hw) fun observed => ?_
  cases classifyPlan classifyTransition plan observed with
  | committed => exact (happly []).weaken (fun _ hs => hs.1) (fun _ _ hs => hs) fun _ hs => hs
  | apply ps => exact (happly ps).weaken (fun _ hs => hs.1) (fun _ _ hs => hs) fun _ hs => hs
  | ambiguous ps =>
    exact .bind (hst.fence.weaken (fun _ hs => hs.1) (fun _ _ hs => hs) fun _ hs => hs)
      fun _ => .fail fun _ hs => hs

include hw in
theorem preflight_outside :
    Triple (Outside image plan w₀) (preflight (ι := ι) workspace classifyTransition plan)
      (fun _ => Outside image plan w₀) (Outside image plan w₀) := by
  have hst : Steady image (Outside (ι := ι) image plan w₀) (Outside image plan w₀) :=
    outside_steady
  refine .bind (hst.observeAll hw) fun observed => ?_
  have hscratch : Triple (fun s : MutationSession ω ι => Outside image plan w₀ s ∧
        Agrees plan observed (image s.workspace)) (onWorkspace workspace.scratchAvailable)
      (fun _ => Outside image plan w₀) (Outside image plan w₀) :=
    (hst.scratchAvailable hw).weaken (fun _ hs => hs.1) (fun _ _ hs => hs) fun _ hs => hs
  cases classifyPlan classifyTransition plan observed with
  | ambiguous ps => exact .fail fun _ hs => hs.1
  | committed | apply _ =>
    refine .bind hscratch fun scratch => ?_
    split
    · exact .fail fun _ hs => hs
    · exact .pure fun _ hs => hs

include hw hconf in
theorem executeWith_outside :
    Triple (Outside image plan w₀) (executeWith workspace journal classifyTransition plan fail)
      (fun _ => Outside image plan w₀) (Outside image plan w₀) := by
  have hst : Steady image (Outside (ι := ι) image plan w₀) (Outside image plan w₀) :=
    outside_steady
  refine .bind (preflight_outside hw) fun observed => ?_
  cases classifyPlan classifyTransition plan observed with
  | ambiguous ps => exact .fail fun _ hs => hs
  | committed => exact receipt_outside
  | apply ps =>
    exact .bind hst.failAt fun _ => .bind hst.onJournal fun _ => .bind hst.failAt fun _ =>
      .bind hst.fence fun _ => resumeApply_outside hw hconf

end MutationEngine

/-- What executing the plan `inv` does where every path of `plan` holds its postimage. The paths
outside the plan keep their images whatever happens. Each path has its preimage once a receipt is
returned, and one is returned when no operation fails. -/
def Restores (plan inv : SealedMutationPlan) : Prop :=
  ∀ {ω ι : Type} {workspace : MutationWorkspace ω} {image : ω → String → PortableImage}
    {classifyTransition : ClassifyTransition} (journal : MutationJournal ι)
    (engine : MutationEngine ω ι) (fail : FailCallback),
    classifyTransition.Lawful → workspace.Lawful image inv → workspace.Confined image inv →
    (∀ e ∈ plan.entries, image engine.workspace e.path = e.postimage) →
      let run := Call.run workspace journal classifyTransition inv engine (.executeWith fail)
      (∀ p ∉ plan.entries.map (·.path),
        image run.2.workspace p = image engine.workspace p) ∧
      (∀ receipt, run.1 = .ok receipt →
        ∀ e ∈ plan.entries, image run.2.workspace e.path = e.preimage) ∧
      (workspace.Installs image inv → Ample workspace inv → run.2.faults = [] →
        ∃ receipt, run.1 = .ok receipt)

/-- The plan has an inverse that restores its preimages, and the inverse of that one is the plan
again. -/
def Undoable (contentId : Datum → Except String ContentId) (plan : SealedMutationPlan)
    (observed : SortedMap String PortableImage) : Prop :=
  ∃ inv, inversePlan contentId plan observed = .ok inv ∧ Restores plan inv ∧
    ∀ restored : SortedMap String PortableImage,
      (∀ e ∈ plan.entries, restored.get? e.path = some e.preimage) →
        ∃ again, inversePlan contentId inv restored = .ok again ∧
          again.entries = plan.entries ∧ again.id = plan.id

end

/-! ## The exchanged entries -/

/-- The entry that takes the postimage back to the preimage. -/
def SealedEntry.inverse (e : SealedEntry) : SealedEntry := ⟨e.path, e.postimage, e.preimage⟩

@[simp] theorem SealedEntry.inverse_path (e : SealedEntry) : e.inverse.path = e.path := rfl

/-- The bytes that the plan removes. -/
def preimageBytes (plan : SealedMutationPlan) : Nat := (plan.entries.map (·.preimage.size)).sum

theorem postimageBytes_inverse (plan : SealedMutationPlan) :
    postimageBytes (plan.entries.map SealedEntry.inverse) = preimageBytes plan := by
  rw [postimageBytes, List.map_map, preimageBytes]
  rfl

theorem map_inverse_path (entries : List SealedEntry) :
    (entries.map SealedEntry.inverse).map (·.path) = entries.map (·.path) := by
  rw [List.map_map]
  rfl

theorem map_inverse_inverse (entries : List SealedEntry) :
    (entries.map SealedEntry.inverse).map SealedEntry.inverse = entries := by
  rw [List.map_map]
  exact List.map_id _

theorem EntryChecked.inverse (h : EntryChecked paths e) : EntryChecked paths e.inverse :=
  ⟨h.path, h.postimage, h.preimage, h.parents⟩

/-- The observations hold every postimage, so the inverse is what sealing makes of the exchanged
entries. -/
theorem inversePlan_of_observed (h : ∀ e ∈ plan.entries, observed.get? e.path = some e.postimage) :
    inversePlan contentId plan observed =
      SealedMutationPlan.fromImages contentId (plan.entries.map SealedEntry.inverse) := by
  have hforeign : (plan.entries.filter fun e => observed.get? e.path ≠ some e.postimage) = [] := by
    refine List.filter_eq_nil_iff.mpr fun e he => ?_
    simp [h e he]
  rw [inversePlan]
  exact if_neg (not_not_intro hforeign)

/-- Everything that sealing checks, the bound apart, holds of the exchanged entries as well. -/
theorem SealedFrom.inverse (S : SealedFrom contentId images plan)
    (hbound : preimageBytes plan ≤ defaultMaxMutationBytes)
    (hid : planDigest contentId (plan.entries.map SealedEntry.inverse) = .ok i) :
    SealedFrom contentId (plan.entries.map SealedEntry.inverse)
      ⟨i, plan.entries.map SealedEntry.inverse, preimageBytes plan⟩ := by
  have hsorted : (plan.entries.map SealedEntry.inverse).Pairwise fun a b => a.path < b.path :=
    List.pairwise_map.mpr S.sorted
  refine ⟨?_, hsorted, ?_, (postimageBytes_inverse plan).symm, ?_, hid⟩
  · exact ((hsorted.imp le_of_lt).insertionSort_eq).symm
  · intro e he
    obtain ⟨e', he', rfl⟩ := List.mem_map.mp he
    rw [map_inverse_path]
    exact (S.checked e' he').inverse
  · rw [postimageBytes_inverse]
    exact hbound

theorem restores_of_entries (hinv : inv.Sealed)
    (hentries : inv.entries = plan.entries.map SealedEntry.inverse) : Restores plan inv := by
  intro ω ι workspace image classifyTransition journal engine fail hc hw hconf hpost run
  have hheld : Held image inv engine.workspace := by
    intro e he
    rw [hentries] at he
    obtain ⟨e', he', rfl⟩ := List.mem_map.mp he
    exact .inl (hpost e' he')
  have hout : Outside image inv engine.workspace run.2 :=
    (executeWith_outside hw hconf).final fun _ _ => rfl
  have hexec : Effect.Triple (Untouched image inv engine.workspace)
      (executeWith workspace journal classifyTransition inv fail)
      (fun r s => r.planId = inv.id ∧ Finished image inv engine.workspace s)
      (Stopped image inv (workspace.Installs image inv ∧ Ample workspace inv) engine.workspace) :=
    executeWith_spec hc hinv hw fun hg => ⟨hheld, hg.1, hg.2⟩
  have hspec := hexec _ (untouched_start engine)
  rcases hrun : run with ⟨r, s⟩
  rw [hrun] at hout
  rw [show executeWith workspace journal classifyTransition inv fail (start engine) = (r, s) from
    hrun] at hspec
  refine ⟨?_, ?_, ?_⟩
  · rw [Outside, hentries, map_inverse_path] at hout
    exact hout
  · rintro receipt rfl e he
    obtain ⟨-, hfin⟩ := hspec
    have hmem : e.inverse ∈ inv.entries := hentries ▸ List.mem_map_of_mem he
    by_cases heq : e.postimage = e.preimage
    · obtain hkept | hwritten := hfin.track.last e.inverse hmem
      · exact hkept.trans ((hpost e he).trans heq)
      · exact hwritten
    · exact hfin.done e.inverse hmem heq
  · intro hi ha hf
    cases r with
    | ok receipt => exact ⟨receipt, rfl⟩
    | error err => exact absurd hf (hspec.faults ⟨hi, ha⟩)

/-- A committed mutation of a sealed plan can be undone exactly when the bytes that the plan
removes are within the bound of what a plan may install. -/
theorem undoable_iff (hseal : SealedMutationPlan.seal contentId edits = .ok plan)
    (hid : ∀ entries, ∃ id, planDigest contentId entries = .ok id)
    (hobserved : ∀ e ∈ plan.entries, observed.get? e.path = some e.postimage) :
    Undoable contentId plan observed ↔ preimageBytes plan ≤ defaultMaxMutationBytes := by
  have S := fromImages_eq_ok_iff.mp hseal
  rw [Undoable, inversePlan_of_observed hobserved]
  constructor
  · rintro ⟨inv, hinv, -⟩
    have hI := fromImages_eq_ok_iff.mp hinv
    have hentries : inv.entries.Perm (plan.entries.map SealedEntry.inverse) :=
      hI.entries ▸ List.perm_insertionSort _ _
    rw [← postimageBytes_inverse, postimageBytes, ← (hentries.map _).sum_eq]
    exact hI.bound
  · intro hbound
    obtain ⟨i, hi⟩ := hid (plan.entries.map SealedEntry.inverse)
    have hI := fromImages_eq_ok_iff.mpr (S.inverse hbound hi)
    refine ⟨_, hI, restores_of_entries (SealedMutationPlan.fromImages_ok hI).1 rfl, ?_⟩
    intro restored hrestored
    have hobserved' : ∀ e ∈ plan.entries.map SealedEntry.inverse,
        restored.get? e.path = some e.postimage := by
      intro e he
      obtain ⟨e', he', rfl⟩ := List.mem_map.mp he
      exact hrestored e' he'
    refine ⟨plan, ?_, rfl, rfl⟩
    rw [inversePlan_of_observed hobserved', map_inverse_inverse]
    refine fromImages_eq_ok_iff.mpr { S with entries := ?_ }
    exact ((S.sorted.imp le_of_lt).insertionSort_eq).symm

theorem foldlM_addPostimage_cases (entries : List SealedEntry) (total : Nat) :
    (∃ sum, entries.foldlM addPostimage total = .ok sum) ∨
      entries.foldlM addPostimage total = .error .byteLimit := by
  induction entries generalizing total with
  | nil => exact .inl ⟨total, rfl⟩
  | cons e entries ih =>
    rw [List.foldlM_cons, addPostimage]
    split
    · exact ih _
    · exact .inr rfl

/-- The inverse of a plan that removes more is refused at its size. -/
theorem inversePlan_eq_byteLimit (hseal : SealedMutationPlan.seal contentId edits = .ok plan)
    (hobserved : ∀ e ∈ plan.entries, observed.get? e.path = some e.postimage)
    (hgt : defaultMaxMutationBytes < preimageBytes plan) :
    inversePlan contentId plan observed = .error .byteLimit := by
  have S := fromImages_eq_ok_iff.mp hseal
  have hsorted : (plan.entries.map SealedEntry.inverse).Pairwise fun a b => a.path < b.path :=
    List.pairwise_map.mpr S.sorted
  have hchecks : (plan.entries.map SealedEntry.inverse).forM
      (checkEntry ((plan.entries.map SealedEntry.inverse).map (·.path))) = .ok () := by
    refine Except.forM_eq_ok_iff.mpr fun e he => checkEntry_eq_ok_iff.mpr ?_
    obtain ⟨e', he', rfl⟩ := List.mem_map.mp he
    rw [map_inverse_path]
    exact (S.checked e' he').inverse
  rw [inversePlan_of_observed hobserved, SealedMutationPlan.fromImages]
  simp only [(hsorted.imp le_of_lt).insertionSort_eq, neighbours_of_pairwise_lt hsorted, hchecks,
    Bool.false_eq_true, if_false]
  obtain ⟨total, htotal⟩ | herror := foldlM_addPostimage_cases (plan.entries.map .inverse) 0
  · have hsum := foldlM_addPostimage htotal
    rw [postimageBytes_inverse, Nat.zero_add] at hsum
    simp only [htotal, hsum]
    exact if_pos hgt
  · rw [herror]
    rfl

/-! ## A deletion that cannot be undone -/

namespace InverseSample
open MutationSample

theorem identified (entries : List SealedEntry) :
    ∃ id, planDigest contentId entries = .ok id := ⟨_, rfl⟩

/-- The postimages of the sample plan. -/
def observed : SortedMap String PortableImage :=
  .ofList [("a-create", .file [] 0o600), ("m-edit", .file [0xfe, 1] 0o755), ("z-delete", .absent)]

/-- Deletes a file. -/
def deletion (bytes : List UInt8) : List StructuralEdit := [⟨"a", .file bytes 0o644, .absent⟩]

def deleted : SortedMap String PortableImage := .ofList [("a", .absent)]

theorem seal_deletion (bytes : List UInt8) :
    ∃ plan, SealedMutationPlan.seal contentId (deletion bytes) = .ok plan ∧
      (∀ e ∈ plan.entries, deleted.get? e.path = some e.postimage) ∧
      preimageBytes plan = bytes.length := by
  have hpath : validateRelativePath "a" = .ok () := by decide +kernel
  have hparents : ∀ p ∈ PathText.parents "a", p ≠ "" → p ∉ ["a"] := by decide +kernel
  obtain ⟨id, hid⟩ := identified [⟨"a", .file bytes 0o644, .absent⟩]
  refine ⟨⟨id, [⟨"a", .file bytes 0o644, .absent⟩], 0⟩, fromImages_eq_ok_iff.mpr ?_, ?_, ?_⟩
  · refine ⟨rfl, List.pairwise_singleton _ _, ?_, rfl, Nat.zero_le _, hid⟩
    intro e he
    cases List.mem_singleton.mp he
    exact ⟨hpath, rfl, rfl, hparents⟩
  · intro e he
    cases List.mem_singleton.mp he
    rfl
  · rfl

end InverseSample

open MutationSample InverseSample in
theorem undoable_iff_sample : Undoable contentId plan InverseSample.observed :=
  (undoable_iff seal_edits identified (by decide +kernel)).mpr (by decide +kernel)

open MutationSample InverseSample in
/-- Deleting a file of one byte more than a plan may install seals and commits, and its inverse is
refused. -/
theorem deletion_not_undoable :
    ∃ plan, SealedMutationPlan.seal contentId
        (deletion (List.replicate (defaultMaxMutationBytes + 1) 0)) = .ok plan ∧
      (∀ e ∈ plan.entries, deleted.get? e.path = some e.postimage) ∧
      inversePlan contentId plan deleted = .error .byteLimit := by
  obtain ⟨plan, hseal, hobserved, hbytes⟩ :=
    seal_deletion (List.replicate (defaultMaxMutationBytes + 1) 0)
  refine ⟨plan, hseal, hobserved, inversePlan_eq_byteLimit hseal hobserved ?_⟩
  rw [hbytes, List.length_replicate]
  exact Nat.lt_succ_self _

end SimAgentNet.RoadmapRunner
