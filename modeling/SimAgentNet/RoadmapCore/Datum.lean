import SimAgentNet.Kernel.Same
import SimAgentNet.RoadmapCore.Types

/-! # The canonical form of a revision

The datum whose content id is the identity of a roadmap revision. -/

namespace SimAgentNet.RoadmapCore
namespace Canonical

open SourceDecks (SourceQuery)

def tag (name : String) : Symbol := .qualified "roadmap" name

def node (name : String) (fields : List (String × Datum)) : Datum :=
  .node (tag name) (fields.map fun field => (.new field.1, field.2))

def unsigned (domain canonical : String) : Datum := .number ⟨.qualified "numbers" domain, canonical⟩

def usizeDatum (value : Nat) : Datum := unsigned "usize" (toString value)

def text {k : IdKind} (value : TextId k) : Datum := .string value.text

def stringSet {k : IdKind} (values : SortedSet (TextId k)) : Datum := .set (values.elems.map text)

def content (id : ContentId) : Datum :=
  node "ContentIdV1" [("algorithm", .symbol id.algorithm), ("bytes", .bytes id.bytes)]

/-- A value that may be absent. -/
def optional (f : α → Datum) (value : Option α) : Datum := (value.map f).getD .nil

/-- A map whose keys are identifiers. -/
def textMap {k : IdKind} (f : α → Datum) (values : SortedMap (TextId k) α) : Datum :=
  .map (values.entries.map fun entry => (text entry.1, f entry.2))

def limitsDatum (limits : Limits) : Datum :=
  node "LimitsV1" [
    ("id-bytes", usizeDatum limits.idBytes),
    ("document-bytes", usizeDatum limits.documentBytes),
    ("prose-bytes", usizeDatum limits.proseBytes),
    ("phases", usizeDatum limits.phases),
    ("imports", usizeDatum limits.imports),
    ("outputs-per-phase", usizeDatum limits.outputsPerPhase),
    ("checkpoints-per-phase", usizeDatum limits.checkpointsPerPhase),
    ("children-per-phase", usizeDatum limits.childrenPerPhase),
    ("tree-depth", usizeDatum limits.treeDepth),
    ("causal-path", usizeDatum limits.causalPath),
    ("guide-queries", usizeDatum limits.guideQueries),
    ("guide-targets", usizeDatum limits.guideTargets),
    ("guide-promises", usizeDatum limits.guidePromises),
    ("guide-sketches", usizeDatum limits.guideSketches),
    ("sketch-bytes", usizeDatum limits.sketchBytes),
    ("sketch-bindings", usizeDatum limits.sketchBindings)]

/-! ## Guides -/

def sourceQueryDatum : SourceQuery → Datum
  | .anchor id => node "AnchorQueryV1" [("id", .string id)]
  | .excerpt id => node "ExcerptQueryV1" [("id", .string id)]
  | .specimen id => node "SpecimenQueryV1" [("id", .string id)]

def changeTargetDatum (target : ChangeTarget) : Datum :=
  node "ChangeTargetV1" [
    ("change", text target.change),
    ("owner", text target.owner),
    ("package", optional .string target.package),
    ("description", .string target.description)]

def promiseDatum : Promise → Datum
  | .publicDeclaration id owner anchor => node "PublicDeclarationPromiseV1" [
      ("id", text id), ("owner", text owner), ("anchor", .string anchor)]
  | .sourcePostimage id owner path idContent => node "SourcePostimagePromiseV1" [
      ("id", text id), ("owner", text owner), ("path", .string path), ("content", content idContent)]
  | .checkedSpecimen id owner specimen => node "CheckedSpecimenPromiseV1" [
      ("id", text id), ("owner", text owner), ("specimen", .string specimen)]
  | .producedOutput id output => node "ProducedOutputPromiseV1" [
      ("id", text id), ("output", text output)]
  | .acceptance id obligation => node "AcceptancePromiseV1" [
      ("id", text id), ("obligation", text obligation)]

def sketchLanguageDatum : SketchLanguage → Datum
  | .rust => .symbol (tag "rust")
  | .sim => .symbol (tag "sim")
  | .text => .symbol (tag "text")
  | .other name => node "OtherSketchLanguageV1" [("name", .string name)]

def sketchRoleDatum : SketchRole → Datum
  | .pattern => .symbol (tag "pattern")
  | .interface => .symbol (tag "interface")
  | .example => .symbol (tag "example")
  | .constraint => .symbol (tag "constraint")

def sketchBindingDatum : SketchBinding → Datum
  | .uses label query => node "UsesBindingV1" [
      ("label", .string label), ("query", sourceQueryDatum query)]
  | .produces label promise => node "ProducesBindingV1" [
      ("label", .string label), ("promise", text promise)]

def sketchDatum (sketch : AnchoredSketch) : Datum :=
  node "AnchoredSketchV1" [
    ("id", text sketch.id),
    ("language", sketchLanguageDatum sketch.language),
    ("role", sketchRoleDatum sketch.role),
    ("body", .string sketch.body),
    ("bindings", .list (sketch.bindings.map sketchBindingDatum))]

def implementationGuideDatum (guide : ImplementationGuide) : Datum :=
  node "ImplementationGuideV1" [
    ("uses", .list (guide.uses.map sourceQueryDatum)),
    ("change-targets", .list (guide.changeTargets.map changeTargetDatum)),
    ("promises", .list (guide.promises.map promiseDatum)),
    ("sketches", .list (guide.sketches.map sketchDatum))]

/-! ## Phases -/

def checkpointDatum (checkpoint : CheckpointSpec) : Datum :=
  node "CheckpointV1" [("id", text checkpoint.id), ("statement", .string checkpoint.statement)]

def phaseBodyDatum : PhaseBody → Datum
  | .leaf checkpoints => node "LeafBodyV1" [("checkpoints", .list (checkpoints.map checkpointDatum))]
  | .composite children => node "CompositeBodyV1" [("children", .list (children.map text))]

def phaseRefDatum : PhaseRef → Datum
  | .local phase => node "LocalPhaseV1" [("phase", text phase)]
  | .imported «import» phase phaseContent => node "ImportedPhaseV1" [
      ("import", text «import»), ("phase", text phase), ("content", content phaseContent)]

def outputRefDatum (output : OutputRef) : Datum :=
  node "OutputRefV1" [("phase", phaseRefDatum output.phase), ("output", text output.output)]

def phaseDependencyDatum : PhaseDependency → Datum
  | .requires phase => node "RequiresV1" [("phase", phaseRefDatum phase)]
  | .consumes output => node "ConsumesV1" [("output", outputRefDatum output)]
  | .prefersAfter phase => node "PrefersAfterV1" [("phase", phaseRefDatum phase)]

def ownerEnvelopeDatum (envelope : OwnerEnvelope) : Datum :=
  node "OwnerEnvelopeV1" [
    ("mutable", stringSet envelope.mutable), ("read-only", stringSet envelope.readOnly)]

def resourceEnvelopeDatum (envelope : ResourceEnvelope) : Datum :=
  node "ResourceEnvelopeV1" [("resources", stringSet envelope.resources)]

def effectEnvelopeDatum (envelope : EffectEnvelope) : Datum :=
  node "EffectEnvelopeV1" [("effects", stringSet envelope.effects)]

def capabilityEnvelopeDatum (envelope : CapabilityEnvelope) : Datum :=
  node "CapabilityEnvelopeV1" [("capabilities", stringSet envelope.capabilities)]

def changeEnvelopeDatum (envelope : ChangeEnvelope) : Datum :=
  node "ChangeEnvelopeV1" [("targets", stringSet envelope.targets)]

def referenceDatum : Ref → Datum
  | .symbol symbol => node "SymbolRefV1" [("symbol", .symbol symbol)]
  | .content id => node "ContentRefV1" [("content", content id)]
  | .handle id => node "HandleRefV1" [("handle", unsigned "u128" (toString id))]
  | .coord space ordinal => node "CoordinateRefV1" [
      ("space", .symbol space), ("ordinal", content ordinal)]

def proofPolicyDatum : ProofPolicy → Datum
  | .all => .symbol (tag "all")
  | .any => .symbol (tag "any")

def acceptanceStatementDatum (statement : AcceptanceStatement) : Datum :=
  node "AcceptanceStatementV1" [
    ("obligation", text statement.obligation),
    ("subject", referenceDatum statement.subject),
    ("predicate", .symbol statement.predicate),
    ("object", referenceDatum statement.object),
    ("supporting-refs", .set (statement.supportingRefs.map referenceDatum))]

def acceptanceDatum (acceptance : AcceptanceContract) : Datum :=
  node "AcceptanceContractV1" [
    ("policy", proofPolicyDatum acceptance.policy),
    ("statements", textMap acceptanceStatementDatum acceptance.statements)]

def obligationCoverageDatum : ObligationCoverage → Datum
  | .contributes parent phase child => node "ContributesV1" [
      ("parent", text parent), ("phase", text phase), ("child", text child)]
  | .retainedAtParent parent => node "RetainedAtParentV1" [("parent", text parent)]

def outputContractDatum (output : OutputContract) : Datum :=
  node "OutputContractV1" [
    ("description", .string output.description), ("content", optional content output.content)]

def phaseOriginDatum : PhaseOrigin → Datum
  | .authored => .symbol (tag "authored")
  | .imported «import» phase phaseContent => node "ImportedOriginV1" [
      ("import", text «import»), ("phase", text phase), ("content", content phaseContent)]

def phaseDatum (phase : PhaseSpec) : Datum :=
  node "PhaseSpecV2" [
    ("id", text phase.id),
    ("parent", optional text phase.parent),
    ("title", .string phase.title),
    ("intent", .string phase.intent),
    ("body", phaseBodyDatum phase.body),
    ("dependencies", .list (phase.dependencies.map phaseDependencyDatum)),
    ("owners", ownerEnvelopeDatum phase.owners),
    ("resources", resourceEnvelopeDatum phase.resources),
    ("effects", effectEnvelopeDatum phase.effects),
    ("capabilities", capabilityEnvelopeDatum phase.capabilities),
    ("changes", changeEnvelopeDatum phase.changes),
    ("acceptance", acceptanceDatum phase.acceptance),
    ("coverage", .list (phase.coverage.map obligationCoverageDatum)),
    ("outputs", textMap outputContractDatum phase.outputs),
    ("guide", implementationGuideDatum phase.guide),
    ("origin", phaseOriginDatum phase.origin)]

/-! ## Revisions -/

def pinnedRoadmapDatum (pin : PinnedRoadmapRef) : Datum :=
  node "PinnedRoadmapRefV1" [
    ("roadmap", text pin.roadmap),
    ("revision", content pin.revision.content),
    ("root-phase", text pin.rootPhase),
    ("root-content", content pin.rootContent)]

def charterDatum (charter : Charter) : Datum :=
  node "CharterV1" [("title", .string charter.title), ("intent", .string charter.intent)]

def specDatum (spec : RoadmapSpec) : Datum :=
  node "RoadmapSpecV2" [
    ("schema", text spec.schema),
    ("id", text spec.id),
    ("charter", charterDatum spec.charter),
    ("root", text spec.root),
    ("imports", textMap pinnedRoadmapDatum spec.imports),
    ("phases", textMap phaseDatum spec.phases),
    ("limits", limitsDatum spec.limits)]

def revisionChangeDatum (change : RevisionChange) : Datum :=
  node "RevisionChangeV1" [("id", text change.id), ("rationale", .string change.rationale)]

def revisionDatum (parent : Option RoadmapRevisionId) (spec : RoadmapSpec)
    (change : RevisionChange) : Datum :=
  node "RevisionIdentityV2" [
    ("parent", optional (fun id => content id.content) parent),
    ("roadmap", specDatum spec),
    ("change", revisionChangeDatum change)]

end Canonical

/-- The complete canonical form of a phase. -/
def PhaseSpec.canonicalDatum (phase : PhaseSpec) : Datum := Canonical.phaseDatum phase

end SimAgentNet.RoadmapCore
