import SimAgentNet.RoadmapRunner.Memory
import SimAgentNet.RoadmapRunner.MutationSafety

/-! # Runs of the mutation engine

Sequences of calls, each of which may be interrupted, on one engine: `mutation_crash_safe` is
about every moment of such a run and every receipt it returns. The workspace in memory of the
repository's tests is an instance. -/

namespace SimAgentNet.RoadmapRunner.MutationEngine
variable {ω ι : Type}

inductive Call where
  | executeWith (fail : FailCallback)
  | resume

/-- The engine at the start of a call. -/
def start (engine : MutationEngine ω ι) : MutationSession ω ι :=
  { engine with failpoints := [], moments := [], faults := [] }

section
variable (workspace : MutationWorkspace ω) (journal : MutationJournal ι)
  (classifyTransition : ClassifyTransition) (plan : SealedMutationPlan)

def Call.effect : Call → Effect MutationError (MutationSession ω ι) MutationReceipt
  | .executeWith fail => MutationEngine.executeWith workspace journal classifyTransition plan fail
  | .resume => MutationEngine.resume workspace journal classifyTransition plan

def Call.run (engine : MutationEngine ω ι) (c : Call) :
    Except MutationError MutationReceipt × MutationSession ω ι :=
  c.effect workspace journal classifyTransition plan (start engine)

/-- The engine after some calls, and the workspaces seen during them. -/
def runCalls : List Call → MutationEngine ω ι → MutationEngine ω ι × List ω
  | [], engine => (engine, [])
  | c :: cs, engine =>
    let s := (c.run workspace journal classifyTransition plan engine).2
    let (engine', ms) := runCalls cs s.toMutationEngine
    (engine', s.moments ++ ms)

end

section
variable {workspace : MutationWorkspace ω} {journal : MutationJournal ι}
  {classifyTransition : ClassifyTransition} {plan : SealedMutationPlan}
  {image : ω → String → PortableImage}
  (hc : classifyTransition.Lawful) (hp : plan.Sealed) (hw : workspace.Lawful image plan)

theorem untouched_start (engine : MutationEngine ω ι) :
    Untouched image plan engine.workspace (start engine) where
  track := .start _
  images _ hw := List.mem_singleton.mp hw ▸ rfl
  faults := rfl

include hc hp hw

variable (journal) in
theorem resume_spec (engine : MutationEngine ω ι) :
    Effect.Triple (· = start engine) (MutationEngine.resume workspace journal classifyTransition plan)
      (fun r s => r.planId = plan.id ∧ Finished image plan engine.workspace s)
      (Stopped image plan
        (Held image plan engine.workspace ∧ workspace.Installs image plan) engine.workspace) :=
  (resumeApply_spec hc hp hw id).weaken (fun _ hs => hs ▸ untouched_start engine)
    (fun _ _ hs => hs) fun _ hs => hs

variable (journal) in
/-- What any call leaves: a receipt for a finished plan, or an error. -/
theorem run_cases (c : Call) (engine : MutationEngine ω ι) :
    (∃ r s, c.run workspace journal classifyTransition plan engine = (.ok r, s) ∧
      Finished image plan engine.workspace s) ∨
    ∃ e s, c.run workspace journal classifyTransition plan engine = (.error e, s) ∧
      Stopped image plan False engine.workspace s := by
  have hspec : Effect.Triple (Untouched image plan engine.workspace)
      (c.effect workspace journal classifyTransition plan)
      (fun r s => r.planId = plan.id ∧ Finished image plan engine.workspace s)
      (Stopped image plan False engine.workspace) := by
    cases c with
    | executeWith fail => exact executeWith_spec hc hp hw False.elim
    | resume => exact resumeApply_spec hc hp hw False.elim
  have h := hspec _ (untouched_start engine)
  split at h
  · rename_i hr
    exact .inl ⟨_, _, hr, h.2⟩
  · rename_i hr
    exact .inr ⟨_, _, hr, h⟩

theorem run_track (c : Call) (engine : MutationEngine ω ι) :
    Track image plan engine.workspace
      (c.run workspace journal classifyTransition plan engine).2.moments
      (c.run workspace journal classifyTransition plan engine).2.workspace := by
  obtain ⟨r, s, hr, hs⟩ | ⟨e, s, hr, hs⟩ := run_cases journal hc hp hw c engine
  · rw [hr]; exact hs.track
  · rw [hr]; exact hs.track

theorem runCalls_track (calls : List Call) (engine : MutationEngine ω ι) :
    Track image plan engine.workspace
      (runCalls workspace journal classifyTransition plan calls engine).2
      (runCalls workspace journal classifyTransition plan calls engine).1.workspace := by
  induction calls generalizing engine with
  | nil => exact .start _
  | cons c cs ih => exact (run_track hc hp hw c engine).append (ih _)

end

/-- In every run of calls on a sealed plan, each interrupted wherever its failpoints, its journal
or its workspace return an error: from a workspace at preimages and postimages every later one is
such a workspace and takes no postimage back, a receipt is returned only when every changed path
has its postimage, and a resume during which nothing fails returns one. A call that starts with a
foreign path returns an error and changes no path of the plan. -/
theorem mutation_crash_safe {workspace : MutationWorkspace ω} {journal : MutationJournal ι}
    {classifyTransition : ClassifyTransition} {image : ω → String → PortableImage}
    (hc : classifyTransition.Lawful) (hseal : SealedMutationPlan.seal contentId edits = .ok plan)
    (hw : workspace.Lawful image plan) (calls : List Call) (engine : MutationEngine ω ι) :
    let run := runCalls workspace journal classifyTransition plan calls engine
    let seen := engine.workspace :: run.2 ++ [run.1.workspace]
    (Held image plan engine.workspace →
      (∀ w ∈ seen, Held image plan w) ∧
      (seen.Pairwise fun w w' => ∀ e ∈ plan.entries,
        image w e.path = e.postimage → image w' e.path = e.postimage) ∧
      (∀ c receipt s, Call.run workspace journal classifyTransition plan run.1 c =
        (.ok receipt, s) → Done image plan s.workspace) ∧
      (workspace.Installs image plan → ∀ r s,
        Call.run workspace journal classifyTransition plan run.1 .resume = (r, s) →
          s.faults = [] → ∃ receipt, r = .ok receipt)) ∧
    (HasForeign image plan engine.workspace → ∀ c, ∃ err s,
      Call.run workspace journal classifyTransition plan engine c = (.error err, s) ∧
        ∀ w ∈ s.workspace :: s.moments, ∀ e ∈ plan.entries,
          image w e.path = image engine.workspace e.path) := by
  intro run seen
  have hp := (SealedMutationPlan.fromImages_ok hseal).1
  have htrack : Track image plan engine.workspace run.2 run.1.workspace :=
    runCalls_track hc hp hw calls engine
  have hseen : seen.Pairwise (Advance image plan) :=
    List.pairwise_append.mpr ⟨htrack.pairwise, List.pairwise_singleton _ _,
      fun v hv v' hv' => List.mem_singleton.mp hv' ▸ htrack.upTo v hv⟩
  constructor
  · intro hheld
    refine ⟨?_, ?_, ?_, ?_⟩
    · intro w hmem
      obtain hmem | hmem := List.mem_append.mp hmem
      · exact htrack.held hheld hmem
      · exact List.mem_singleton.mp hmem ▸ htrack.last.held hheld
    · refine hseen.imp ?_
      intro w w' ha e he hpost
      exact ha.postimage he hpost
    · intro c receipt s hr
      obtain ⟨r, s', hr', hs⟩ | ⟨err, s', hr', -⟩ :=
        run_cases journal hc hp hw c run.1
      · cases hr.symm.trans hr'
        exact hs.done
      · cases hr.symm.trans hr'
    · intro hi r s hr hf
      have h := resume_spec journal hc hp hw run.1 _ rfl
      cases r with
      | ok receipt => exact ⟨receipt, rfl⟩
      | error err =>
        rw [show MutationEngine.resume workspace journal classifyTransition plan (start run.1) =
          (.error err, s) from hr] at h
        exact absurd hf (h.faults ⟨htrack.last.held hheld, hi⟩)
  · intro hfor c
    obtain ⟨r, s, hr, hs⟩ | ⟨err, s, hr, hs⟩ :=
      run_cases journal hc hp hw c engine
    · exact absurd hfor hs.noForeign
    · exact ⟨err, s, hr, fun w hmem e _ => congrFun (hs.images hfor w hmem) e.path⟩

end SimAgentNet.RoadmapRunner.MutationEngine

namespace SimAgentNet.RoadmapRunner

/-! ## A workspace in memory -/

structure MemoryWorkspace where
  files : SortedMap String PortableImage
  scratch : Option Nat
  durability : Durability

namespace MemoryWorkspace

def image (w : MemoryWorkspace) (path : String) : PortableImage := (w.files.get? path).getD .absent

def install (entry : SealedEntry) (w : MemoryWorkspace) : MemoryWorkspace :=
  { w with files := match entry.postimage.bytes with
    | some _ => w.files.insert entry.path entry.postimage
    | none => w.files.erase entry.path }

/-- Calls the callback at each of some failpoints. -/
def failThrough (fail : FailCallback) :
    List Failpoint → Effect MutationError (MemoryWorkspace × List Failpoint) Unit
  | [] => pure ()
  | p :: ps => do
    .focus (·.2) (fun past s => (s.1, past)) (fail.call p)
    failThrough fail ps

def workspace : MutationWorkspace MemoryWorkspace where
  observe path := .observe fun w => .ok (w.image path)
  scratchAvailable := .observe fun w => .ok w.scratch
  apply entry fail := do
    failThrough fail [.beforeTempWrite, .afterTempWrite, .beforeFlush, .afterFlush, .beforeReplace]
    .modify fun s => (s.1.install entry, s.2)
    failThrough fail [.afterReplace, .beforeDirectorySync, .afterDirectorySync]
  durability w := w.durability

theorem failThrough_spec (w : MemoryWorkspace) (fail : FailCallback) (ps : List Failpoint) :
    Effect.Triple (·.1 = w) (failThrough fail ps) (fun _ s => s.1 = w) (·.1 = w) := by
  induction ps with
  | nil => exact .pure fun _ hs => hs
  | cons p ps ih =>
    refine .bind (Q := fun _ s => s.1 = w) ?_ fun _ => ih
    intro s hs
    simp only [Effect.focus, FailCallback.call]
    cases fail s.2 p with
    | ok u => exact hs
    | error e => exact hs

theorem apply_spec (w : MemoryWorkspace) (entry : SealedEntry) (fail : FailCallback) :
    Effect.Triple (·.1 = w) (workspace.apply entry fail) (fun _ s => s.1 = w.install entry)
      (fun s => s.1 = w ∨ s.1 = w.install entry) := by
  refine .bind ((failThrough_spec w fail _).weaken (fun _ hs => hs) (fun _ _ hs => hs)
    fun _ => .inl) fun _ => ?_
  refine .bind (.modify fun s hs => ?_) fun _ => (failThrough_spec (w.install entry) fail _).weaken
    (fun _ hs => hs) (fun _ _ hs => hs) fun _ => .inr
  exact hs ▸ rfl

theorem image_install_self (w : MemoryWorkspace) (h : entry.postimage.Valid) :
    (w.install entry).image entry.path = entry.postimage := by
  obtain ⟨path, pre, ⟨bytes, mode⟩⟩ := entry
  cases bytes with
  | some b => simp [image, install]
  | none =>
    cases mode with
    | some m => simp [PortableImage.Valid, PortableImage.validate] at h
    | none => simp [image, install, PortableImage.absent]

theorem image_install_ne (w : MemoryWorkspace) (h : path ≠ entry.path) :
    (w.install entry).image path = w.image path := by
  unfold image install
  cases entry.postimage.bytes with
  | some b => simp only [SortedMap.get?_insert, if_neg h]
  | none => simp only [SortedMap.get?_erase, if_neg h]

theorem apply_cases (h : workspace.apply e fail (w, past) = (r, w', past')) :
    w' = w ∨ w' = w.install e := by
  have hs := apply_spec w e fail (w, past) rfl
  rw [h] at hs
  cases r with
  | ok u => exact .inr hs
  | error err => exact hs

theorem lawful (hp : plan.Sealed) : workspace.Lawful image plan where
  observe_image h := by cases h; rfl
  observe_keeps h := by cases h; rfl
  scratch_keeps h := by cases h; rfl
  apply_own he h := by
    obtain rfl | rfl := apply_cases h
    · exact .inl rfl
    · exact .inr (image_install_self _ (hp.postimage_valid he))
  apply_other _ _ hne h := by
    obtain rfl | rfl := apply_cases h
    · rfl
    · exact image_install_ne _ hne

theorem installs (hp : plan.Sealed) : workspace.Installs image plan := by
  intro e he fail w past w' past' h
  have hs := apply_spec w e fail (w, past) rfl
  rw [h] at hs
  rw [show w' = w.install e from hs]
  exact image_install_self _ (hp.postimage_valid he)

end MemoryWorkspace

/-- The journal of the repository's tests. -/
structure FenceLog where
  plans : List ContentId
  fences : List MutationFence

def FenceLog.journal : MutationJournal FenceLog where
  putPlan plan := .modify fun j => { j with plans := j.plans ++ [plan.id] }
  appendFence _ fence := .modify fun j => { j with fences := j.fences ++ [fence] }

/-- A transition classifier: images that are not valid are refused. -/
def classifyValid : ClassifyTransition := fun pre post actual =>
  if pre.Valid ∧ post.Valid ∧ actual.Valid then
    .ok (if pre = post then .unchanged else if actual = pre then .base
      else if actual = post then .intended else .foreign)
  else .error "image is not portable"

theorem classifyValid_lawful : classifyValid.Lawful where
  state h := by
    unfold classifyValid at h
    split at h
    · exact (Except.ok.inj h).symm
    · cases h
  total hpre hpost hactual := ⟨_, if_pos ⟨hpre, hpost, hactual⟩⟩

namespace MutationSample

def edits : List StructuralEdit :=
  [⟨"z-delete", .file [111, 108, 100] 0o644, .absent⟩, ⟨"a-create", .absent, .file [] 0o600⟩,
    ⟨"m-edit", .file [0xff, 0] 0o755, .file [0xfe, 1] 0o755⟩]

def entries : List SealedEntry :=
  [⟨"a-create", .absent, .file [] 0o600⟩,
    ⟨"m-edit", .file [0xff, 0] 0o755, .file [0xfe, 1] 0o755⟩,
    ⟨"z-delete", .file [111, 108, 100] 0o644, .absent⟩]

def contentId (value : Datum) : Except String ContentId :=
  .ok (Memory.digest (Memory.serialize value))

def plan : SealedMutationPlan where
  id := Memory.digest (Memory.serialize (.node (.qualified "roadmap-runner" "MutationPlanIdentityV2")
    [(.new "entries", .list (entries.map entryDatum))]))
  entries := entries
  totalPostimageBytes := 2

def engine : MutationEngine MemoryWorkspace FenceLog where
  workspace := ⟨.ofList [("m-edit", .file [0xff, 0] 0o755), ("z-delete", .file [111, 108, 100] 0o644)],
    none, .fileAndDirectorySync⟩
  journal := ⟨[], []⟩

/-- Fails after the second file has been replaced. -/
def interrupt : FailCallback := fun past point =>
  if point = .afterReplace ∧ .afterReplace ∈ past then .error (.injected point) else .ok ()

theorem seal_edits : SealedMutationPlan.seal contentId edits = .ok plan := by decide +kernel

theorem held_engine : Held MemoryWorkspace.image plan engine.workspace := by
  unfold Held
  decide +kernel

end MutationSample

open MutationSample MutationEngine in
/-- An execution interrupted after it has replaced two files of three leaves preimages and
postimages, and the resume that follows ends with every postimage and a receipt. -/
theorem mutation_crash_safe_interrupted :
    let run := runCalls MemoryWorkspace.workspace FenceLog.journal classifyValid plan
      [.executeWith interrupt] engine
    Held MemoryWorkspace.image plan run.1.workspace ∧
      run.1.workspace.image "m-edit" = .file [0xfe, 1] 0o755 ∧
      run.1.workspace.image "z-delete" = .file [111, 108, 100] 0o644 ∧
      ∃ receipt s, Call.run MemoryWorkspace.workspace FenceLog.journal classifyValid plan run.1
        .resume = (.ok receipt, s) ∧ Done MemoryWorkspace.image plan s.workspace := by
  intro run
  have hp := (SealedMutationPlan.fromImages_ok seal_edits).1
  obtain ⟨h, -⟩ := @mutation_crash_safe _ _ _ _ _ _ FenceLog.journal _ _ classifyValid_lawful
    seal_edits (MemoryWorkspace.lawful hp) [.executeWith interrupt] engine
  obtain ⟨hseen, -, hdone, hreceipt⟩ := h held_engine
  have hm : run.1.workspace.image "m-edit" = .file [0xfe, 1] 0o755 := by decide +kernel
  have hz : run.1.workspace.image "z-delete" = .file [111, 108, 100] 0o644 := by decide +kernel
  have hfaults : (Call.run MemoryWorkspace.workspace FenceLog.journal classifyValid plan run.1
    .resume).2.faults = [] := by decide +kernel
  refine ⟨hseen _ (List.mem_append_right _ List.mem_cons_self), hm, hz, ?_⟩
  rcases hr : Call.run MemoryWorkspace.workspace FenceLog.journal classifyValid plan run.1
    .resume with ⟨r, s⟩
  rw [hr] at hfaults
  obtain ⟨receipt, rfl⟩ := hreceipt (MemoryWorkspace.installs hp) r s hr hfaults
  exact ⟨receipt, s, rfl, hdone .resume receipt s hr⟩

end SimAgentNet.RoadmapRunner
