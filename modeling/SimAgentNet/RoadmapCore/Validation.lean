import SimAgentNet.RoadmapCore.Admit

/-! # Validation of a roadmap

The bounds and texts that a specification has to meet before it becomes a revision. -/

namespace SimAgentNet.RoadmapCore

/-- A checked identifier. -/
def TextId.new (k : IdKind) (value : String) : Except Failure (TextId k) :=
  if hempty : value = "" then .error (.invalidText k.typeName "empty")
  else if hsize : defaultIdBytes < value.utf8ByteSize then
    .error (.overLimit "id_bytes" value.utf8ByteSize defaultIdBytes)
  else if hcontrol : value.toList.any Char.isUnicodeControl then
    .error (.invalidText k.typeName "control character")
  else if hpath : isPathLike value then .error (.invalidText k.typeName "path-like")
  else .ok ⟨value, hempty, Nat.not_lt.mp hsize, Bool.eq_false_iff.mpr hcontrol,
    Bool.eq_false_iff.mpr hpath⟩

def bounded (limit : String) (actual maximum : Nat) : Except Failure Unit :=
  if actual > maximum then .error (.overLimit limit actual maximum) else .ok ()

def validateProse (kind s : String) (max : Nat) : Except Failure Unit :=
  if Text.trimIsEmpty s then .error (.invalidText kind "empty")
  else if Text.hasChar s '\x00' then .error (.invalidText kind "NUL")
  else bounded kind s.utf8ByteSize max

def unique (items : List String) (kind : String) : Except Failure Unit := do
  let _ ← items.foldlM (fun seen item =>
    if item ∈ seen then .error (.duplicate kind item) else .ok (item :: seen)) []
  return

/-- One binding of a sketch; the promises that sketches produce are collected. -/
def validateBinding (g : ImplementationGuide) (s : AnchoredSketch) (bound : List PromiseId) :
    SketchBinding → Except Failure (List PromiseId)
  | .uses label query =>
    if query ∈ g.uses then .ok bound else .error (.invalidBinding s.id label)
  | .produces label promise =>
    if promise ∈ g.promises.map (·.id) then .ok (promise :: bound)
    else .error (.invalidBinding s.id label)

def validateSketch (g : ImplementationGuide) (l : Limits) (bound : List PromiseId)
    (s : AnchoredSketch) : Except Failure (List PromiseId) := do
  validateProse "sketch" s.body l.sketchBytes
  bounded "sketch_bindings" s.bindings.length l.sketchBindings
  unique (s.bindings.map (·.label)) "binding label"
  s.bindings.foldlM (validateBinding g s) bound

def validateGuide (g : ImplementationGuide) (l : Limits) : Except Failure Unit := do
  bounded "guide_queries" g.uses.length l.guideQueries
  bounded "guide_targets" g.changeTargets.length l.guideTargets
  bounded "guide_promises" g.promises.length l.guidePromises
  bounded "guide_sketches" g.sketches.length l.guideSketches
  unique (g.promises.map (·.id.text)) "promise"
  unique (g.sketches.map (·.id.text)) "sketch"
  let bound ← g.sketches.foldlM (validateSketch g l) []
  -- the promises are looked at in the order of their ids
  match (SortedSet.ofList (g.promises.map (·.id))).elems.find? (¬· ∈ bound) with
  | some promise => .error (.unboundPromise promise)
  | none => return

/-- The phase that a dependency refers to. -/
def PhaseDependency.phase : PhaseDependency → PhaseRef
  | .requires r => r
  | .prefersAfter r => r
  | .consumes o => o.phase

def validateDependency (dep : PhaseDependency) (spec : RoadmapSpec) : Except Failure Unit :=
  match dep.phase with
  | .local id =>
    if spec.phases.contains id then .ok () else .error (.missing "local phase" id.text)
  | .imported «import» _ _ =>
    if spec.imports.contains «import» then .ok () else .error (.unpinnedImport «import»)

def Ref.isHandle : Ref → Bool
  | .handle _ => true
  | _ => false

def validateStatement (statement : AcceptanceStatement) : Except Failure Unit :=
  if (statement.subject :: statement.object :: statement.supportingRefs).any Ref.isHandle then
    .error (.invalidText "acceptance reference" "process-local handle")
  else .ok ()

def validateBody (body : PhaseBody) (l : Limits) : Except Failure Unit :=
  match body with
  | .leaf checkpoints => do
    bounded "checkpoints_per_phase" checkpoints.length l.checkpointsPerPhase
    unique (checkpoints.map (·.id.text)) "checkpoint"
    checkpoints.forM fun c => validateProse "checkpoint" c.statement l.proseBytes
  | .composite children => do
    bounded "children_per_phase" children.length l.childrenPerPhase
    unique (children.map (·.text)) "child"

def validateOrigin (origin : PhaseOrigin) (spec : RoadmapSpec) : Except Failure Unit :=
  match origin with
  | .imported «import» _ _ =>
    if spec.imports.contains «import» then .ok () else .error (.unpinnedImport «import»)
  | .authored => .ok ()

def validatePhase (phase : PhaseSpec) (spec : RoadmapSpec) : Except Failure Unit := do
  let l := spec.limits
  validateProse "phase title" phase.title l.proseBytes
  validateProse "phase intent" phase.intent l.proseBytes
  bounded "outputs_per_phase" phase.outputs.size l.outputsPerPhase
  validateBody phase.body l
  validateGuide phase.guide l
  phase.acceptance.statements.values.forM validateStatement
  phase.dependencies.forM (validateDependency · spec)
  validateOrigin phase.origin spec

/-- An entry of the map of phases. -/
def validateEntry (spec : RoadmapSpec) (entry : PhaseId × PhaseSpec) : Except Failure Unit :=
  if entry.1 ≠ entry.2.id then .error (.duplicate "phase id" entry.2.id.text)
  else validatePhase entry.2 spec

def validatePin (entry : ImportId × PinnedRoadmapRef) : Except Failure Unit :=
  let zero := List.replicate 32 0
  if entry.2.revision.content.bytes = zero ∨ entry.2.rootContent.bytes = zero then
    .error (.unpinnedImport entry.1)
  else .ok ()

/-- What is checked before the roadmap is compiled. -/
def validateCharter (spec : RoadmapSpec) : Except Failure Unit := do
  let l := spec.limits
  bounded "imports" spec.imports.size l.imports
  validateProse "charter title" spec.charter.title l.proseBytes
  validateProse "charter intent" spec.charter.intent l.documentBytes
  if spec.phases.contains spec.root then .ok ()
  else .error (.missing "root phase" spec.root.text)

def validateSpec (spec : RoadmapSpec) : Except Halt Unit := do
  (validateCharter spec).mapError .failure
  let _ ← AdmittedRoadmap.compile spec
  (spec.phases.entries.forM (validateEntry spec)).mapError .failure
  (spec.imports.entries.forM validatePin).mapError .failure

/-- A new revision; `contentId` is the identity of its canonical form, or why there is none. -/
def RoadmapRevision.new
    (contentId : Option RoadmapRevisionId → RoadmapSpec → RevisionChange → Except String ContentId)
    (parent : Option RoadmapRevisionId) (spec : RoadmapSpec) (change : RevisionChange) :
    Except Halt RoadmapRevision := do
  validateSpec spec
  (validateProse "change rationale" change.rationale spec.limits.proseBytes).mapError .failure
  let id ← (contentId parent spec change).mapError (.failure ∘ .canonical)
  return { id := ⟨id⟩, parent, spec, change }

end SimAgentNet.RoadmapCore
