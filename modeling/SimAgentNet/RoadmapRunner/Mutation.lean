import SimAgentNet.Data.Effect
import SimAgentNet.Data.Path
import SimAgentNet.Data.SortedMap
import SimAgentNet.Kernel.Datum

/-! # Sealed mutations

Sealing of exact multi-file mutations, the classification of observed files against a sealed
plan, and the engine that applies a plan through a workspace and a journal. The workspace and the
journal are traits of the repository and stay parameters; the transition classifier and the
content id of a datum belong to other packages. -/

namespace SimAgentNet.RoadmapRunner

def defaultMaxMutationBytes : Nat := 32 * 1024 * 1024

inductive Failpoint where
  | beforeObjectPut
  | afterObjectPut
  | beforeJournalAppend
  | afterJournalAppend
  | beforeTempWrite
  | afterTempWrite
  | beforeFlush
  | afterFlush
  | beforeReplace
  | afterReplace
  | beforeDirectorySync
  | afterDirectorySync
  | beforePostimageObservation
  | afterPostimageObservation
deriving DecidableEq

inductive MutationError where
  | invalidPath
  | duplicatePath
  | parentChildCollision
  | invalidImage
  | invalidMode
  | byteLimit
  | scratchCapacity
  | preimageMismatch (paths : List String)
  | ambiguous (foreignPaths : List String)
  | postimageMismatch (path : String)
  | incomplete
  | unsupportedFileKind (path : String)
  | io (message : String)
  | injected (point : Failpoint)
  | identity (message : String)
  | journal (message : String)
deriving DecidableEq

/-! ## Images and sealed plans -/

/-- Complete file state; no bytes is absence. -/
structure PortableImage where
  bytes : Option (List UInt8)
  mode : Option UInt32
deriving DecidableEq

namespace PortableImage

def absent : PortableImage := ⟨none, none⟩
def file (bytes : List UInt8) (mode : UInt32) : PortableImage := ⟨some bytes, some mode⟩

def validate (image : PortableImage) : Except MutationError Unit :=
  if image.bytes.isSome ≠ image.mode.isSome then .error .invalidImage
  else if image.mode.any fun m => m &&& ~~~0o777 ≠ 0 then .error .invalidMode
  else .ok ()

/-- The image passes its check. -/
def Valid (image : PortableImage) : Prop := image.validate = .ok ()

instance (image : PortableImage) : Decidable image.Valid :=
  match h : image.validate with
  | .ok () => isTrue h
  | .error _ => isFalse fun h' => nomatch h.symm.trans h'

end PortableImage

structure StructuralEdit where
  path : String
  preimage : PortableImage
  postimage : PortableImage
deriving DecidableEq

structure SealedEntry where
  path : String
  preimage : PortableImage
  postimage : PortableImage
deriving DecidableEq

structure SealedMutationPlan where
  id : ContentId
  entries : List SealedEntry
  totalPostimageBytes : Nat
deriving DecidableEq

def validateRelativePath (path : String) : Except MutationError Unit :=
  if path.isEmpty ∨ path.utf8ByteSize > 4096 ∨ PathText.isAbsolute path ∨ '\\' ∈ path.toList then
    .error .invalidPath
  else if (PathText.components path).any fun | .normal _ => false | _ => true then
    .error .invalidPath
  else .ok ()

def u64Datum (value : Nat) : Datum := .number ⟨.qualified "numbers" "u64", toString value⟩

def imageDatum (image : PortableImage) : Datum :=
  match image.bytes, image.mode with
  | some bytes, some mode =>
    .node (.qualified "roadmap-runner" "FileImageV1")
      [(.new "mode", u64Datum mode.toNat), (.new "bytes", .bytes bytes)]
  | _, _ => .node (.qualified "roadmap-runner" "AbsentImageV1") []

def entryDatum (entry : SealedEntry) : Datum :=
  .node (.qualified "roadmap-runner" "MutationEntryV1")
    [(.new "path", .string entry.path), (.new "preimage", imageDatum entry.preimage),
      (.new "postimage", imageDatum entry.postimage)]

/-- The identity of a list of entries, over the content id of a datum. -/
def planDigest (contentId : Datum → Except String ContentId) (entries : List SealedEntry) :
    Except MutationError ContentId :=
  (contentId (.node (.qualified "roadmap-runner" "MutationPlanIdentityV2")
    [(.new "entries", .list (entries.map entryDatum))])).mapError .identity

/-- The checks of one image of a plan, among all the plan's paths. -/
def checkEntry (paths : List String) (entry : SealedEntry) : Except MutationError Unit := do
  validateRelativePath entry.path
  entry.preimage.validate
  entry.postimage.validate
  if (PathText.parents entry.path).any fun p => !p.isEmpty && paths.contains p then
    .error .parentChildCollision
  else .ok ()

/-- One `checked_add` of the postimage sizes. -/
def addPostimage (total : Nat) (entry : SealedEntry) : Except MutationError Nat :=
  let total := total + (entry.postimage.bytes.map List.length).getD 0
  if total < 2 ^ 64 then .ok total else .error .byteLimit

namespace SealedMutationPlan

def fromImages (contentId : Datum → Except String ContentId) (images : List SealedEntry) :
    Except MutationError SealedMutationPlan := do
  let images := images.insertionSort fun a b => a.path ≤ b.path
  if (images.zip images.tail).any fun w => w.1.path = w.2.path then .error .duplicatePath
  else
    images.forM (checkEntry (images.map (·.path)))
    let total ← images.foldlM addPostimage 0
    if total > defaultMaxMutationBytes then .error .byteLimit
    else
      let id ← planDigest contentId images
      return { id, entries := images, totalPostimageBytes := total }

def «seal» (contentId : Datum → Except String ContentId) (edits : List StructuralEdit) :
    Except MutationError SealedMutationPlan :=
  fromImages contentId (edits.map fun e => ⟨e.path, e.preimage, e.postimage⟩)

end SealedMutationPlan

/-! ## Classification -/

/-- The states of the transition classifier's package. -/
inductive TransitionState where
  | unchanged
  | base
  | intended
  | foreign
deriving DecidableEq

inductive PathState where
  | preimage
  | postimage
  | unchanged
  | foreign
deriving DecidableEq

inductive ResumeDecision where
  | committed
  | apply (paths : List String)
  | ambiguous (foreignPaths : List String)
deriving DecidableEq

/-- The transition classifier of the artifact package, of a base, an intended and an actual image.
That package's image has the same two fields. -/
abbrev ClassifyTransition :=
  PortableImage → PortableImage → PortableImage → Except String TransitionState

section
variable (classifyTransition : ClassifyTransition)

def classifyImage (pre post actual : PortableImage) : PathState :=
  match classifyTransition pre post actual with
  | .ok .unchanged => .unchanged
  | .ok .base => .preimage
  | .ok .intended => .postimage
  | .ok .foreign | .error _ => .foreign

/-- The state of an entry's path in a map of observations; a path that is not in the map is
foreign. -/
def entryState (observed : SortedMap String PortableImage) (entry : SealedEntry) : PathState :=
  match observed.get? entry.path with
  | none => .foreign
  | some actual => classifyImage classifyTransition entry.preimage entry.postimage actual

/-- The paths of the entries in one state, in plan order. -/
def pathsIn (state : PathState) (plan : SealedMutationPlan)
    (observed : SortedMap String PortableImage) : List String :=
  (plan.entries.filter fun e => entryState classifyTransition observed e = state).map (·.path)

def classifyPlan (plan : SealedMutationPlan) (observed : SortedMap String PortableImage) :
    ResumeDecision :=
  let apply := pathsIn classifyTransition .preimage plan observed
  let foreign := pathsIn classifyTransition .foreign plan observed
  if foreign ≠ [] then .ambiguous foreign
  else if apply = [] then .committed
  else .apply apply

end

/-- Rollback as another sealed plan, from the exact postimages only. -/
def inversePlan (contentId : Datum → Except String ContentId) (plan : SealedMutationPlan)
    (observed : SortedMap String PortableImage) : Except MutationError SealedMutationPlan :=
  let foreign := plan.entries.filter fun e => observed.get? e.path ≠ some e.postimage
  if foreign ≠ [] then .error (.ambiguous (foreign.map (·.path)))
  else
    SealedMutationPlan.fromImages contentId
      (plan.entries.map fun e => ⟨e.path, e.postimage, e.preimage⟩)

/-! ## Workspace and journal -/

inductive MutationFence where
  | prepared
  | applying (index : Nat)
  | verifying
  | committed
  | ambiguous
deriving DecidableEq

inductive Durability where
  | replace
  | fileAndDirectorySync
deriving DecidableEq

structure MutationReceipt where
  planId : ContentId
  durability : Durability
deriving DecidableEq

/-- A caller's failpoint callback. The callback has a state of its own, so its answer may depend
on the failpoints it has been called with before. -/
abbrev FailCallback := List Failpoint → Failpoint → Except MutationError Unit

/-- One call of the callback. The state is the failpoints it has been called with. -/
def FailCallback.call (fail : FailCallback) (point : Failpoint) :
    Effect MutationError (List Failpoint) Unit := fun past => (fail past point, past ++ [point])

/-- The callback of `execute` and `resume`. -/
def FailCallback.never : FailCallback := fun _ _ => .ok ()

structure MutationWorkspace (ω : Type) where
  observe : String → Effect MutationError ω PortableImage
  scratchAvailable : Effect MutationError ω (Option Nat)
  apply : SealedEntry → FailCallback → Effect MutationError (ω × List Failpoint) Unit
  durability : ω → Durability

structure MutationJournal (ι : Type) where
  putPlan : SealedMutationPlan → Effect MutationError ι Unit
  appendFence : ContentId → MutationFence → Effect MutationError ι Unit

/-! ## The engine -/

structure MutationEngine (ω ι : Type) where
  workspace : ω
  journal : ι

/-- One call of the engine as it runs: the engine, the failpoints reached so far, the workspace
after each operation that the call has made, and the errors that these operations returned. The
last two are not in the source; no definition below reads them. -/
structure MutationSession (ω ι : Type) extends MutationEngine ω ι where
  failpoints : List Failpoint
  moments : List ω
  faults : List MutationError

namespace MutationEngine
variable {ω ι α : Type}

/-- Runs an operation on the parts of a session and records what became of them. -/
def operate (x : Effect MutationError (MutationEngine ω ι × List Failpoint) α) :
    Effect MutationError (MutationSession ω ι) α := fun s =>
  let (r, engine, failpoints) := x (s.toMutationEngine, s.failpoints)
  (r, { engine with
    failpoints
    moments := s.moments ++ [engine.workspace]
    faults := s.faults ++ match r with | .ok _ => [] | .error e => [e] })

def failAt (fail : FailCallback) (point : Failpoint) :
    Effect MutationError (MutationSession ω ι) Unit :=
  operate (.focus (·.2) (fun past s => (s.1, past)) (fail.call point))

def onJournal (x : Effect MutationError ι α) : Effect MutationError (MutationSession ω ι) α :=
  operate (.focus (·.1.journal) (fun j s => ({ s.1 with journal := j }, s.2)) x)

def onWorkspace (x : Effect MutationError ω α) : Effect MutationError (MutationSession ω ι) α :=
  operate (.focus (·.1.workspace) (fun w s => ({ s.1 with workspace := w }, s.2)) x)

variable (workspace : MutationWorkspace ω) (journal : MutationJournal ι)
  (classifyTransition : ClassifyTransition) (plan : SealedMutationPlan)

def applyEntry (entry : SealedEntry) (fail : FailCallback) :
    Effect MutationError (MutationSession ω ι) Unit :=
  operate (.focus (fun s => (s.1.workspace, s.2))
    (fun t s => ({ s.1 with workspace := t.1 }, t.2)) (workspace.apply entry fail))

def fence (fence : MutationFence) (fail : FailCallback) :
    Effect MutationError (MutationSession ω ι) Unit := do
  failAt fail .beforeJournalAppend
  onJournal (journal.appendFence plan.id fence)
  failAt fail .afterJournalAppend

/-- The observations of some entries, added to a map. -/
def observeEntries (observed : SortedMap String PortableImage) :
    List SealedEntry → Effect MutationError (MutationSession ω ι) (SortedMap String PortableImage)
  | [] => pure observed
  | e :: es => do
    let image ← onWorkspace (workspace.observe e.path)
    observeEntries (observed.insert e.path image) es

def observeAll : Effect MutationError (MutationSession ω ι) (SortedMap String PortableImage) :=
  observeEntries workspace ∅ plan.entries

def preflight : Effect MutationError (MutationSession ω ι) (SortedMap String PortableImage) := do
  let observed ← observeAll workspace plan
  match classifyPlan classifyTransition plan observed with
  | .ambiguous foreignPaths => .fail (.preimageMismatch foreignPaths)
  | _ => do
    let scratch ← onWorkspace workspace.scratchAvailable
    if scratch.any fun n => n < plan.totalPostimageBytes then .fail .scratchCapacity
    else pure observed

def receipt : Effect MutationError (MutationSession ω ι) MutationReceipt := do
  let s ← .get
  return { planId := plan.id, durability := workspace.durability s.workspace }

/-- The loop over the entries from an index on. -/
def applyFrom (paths : List String) (fail : FailCallback) (index : Nat) :
    List SealedEntry → Effect MutationError (MutationSession ω ι) Unit
  | [] => pure ()
  | entry :: rest => do
    if paths.contains entry.path then
      fence journal plan (.applying index) fail
      applyEntry workspace entry fail
      failAt fail .beforePostimageObservation
      let actual ← onWorkspace (workspace.observe entry.path)
      failAt fail .afterPostimageObservation
      if actual ≠ entry.postimage then .fail (.postimageMismatch entry.path)
      else applyFrom paths fail (index + 1) rest
    else applyFrom paths fail (index + 1) rest

/-- The verification after the loop. -/
def verify (fail : FailCallback) : Effect MutationError (MutationSession ω ι) MutationReceipt := do
  fence journal plan .verifying fail
  let observed ← observeAll workspace plan
  match classifyPlan classifyTransition plan observed with
  | .committed => do
    fence journal plan .committed fail
    receipt workspace plan
  | .ambiguous foreignPaths => .fail (.ambiguous foreignPaths)
  | .apply _ => .fail .incomplete

def applyAndVerify (paths : List String) (fail : FailCallback) :
    Effect MutationError (MutationSession ω ι) MutationReceipt := do
  applyFrom workspace journal plan paths fail 0 plan.entries
  verify workspace journal classifyTransition plan fail

def resumeApply (fail : FailCallback) :
    Effect MutationError (MutationSession ω ι) MutationReceipt := do
  let observed ← observeAll workspace plan
  match classifyPlan classifyTransition plan observed with
  | .committed => applyAndVerify workspace journal classifyTransition plan [] fail
  | .apply paths => applyAndVerify workspace journal classifyTransition plan paths fail
  | .ambiguous foreignPaths => do
    fence journal plan .ambiguous fail
    .fail (.ambiguous foreignPaths)

def executeWith (fail : FailCallback) :
    Effect MutationError (MutationSession ω ι) MutationReceipt := do
  let observed ← preflight workspace classifyTransition plan
  match classifyPlan classifyTransition plan observed with
  | .ambiguous foreignPaths => .fail (.ambiguous foreignPaths)
  | .committed => receipt workspace plan
  | .apply _ => do
    failAt fail .beforeObjectPut
    onJournal (journal.putPlan plan)
    failAt fail .afterObjectPut
    fence journal plan .prepared fail
    resumeApply workspace journal classifyTransition plan fail

def resume : Effect MutationError (MutationSession ω ι) MutationReceipt :=
  resumeApply workspace journal classifyTransition plan .never

/-- `execute` is `execute_with` and a callback that lets every failpoint pass. -/
def execute : Effect MutationError (MutationSession ω ι) MutationReceipt :=
  executeWith workspace journal classifyTransition plan .never

end MutationEngine

end SimAgentNet.RoadmapRunner
