import SimAgentNet.Agent.Leases
import SimAgentNet.Data.Location
import SimAgentNet.Data.Run
import SimAgentNet.Kernel.Expr

/-! # Guarded actions

The guard holds an action against hard denials and the capabilities of the mission. Paths are
looked at as texts; where they lead is said in components. Events and cassettes are those of the
stream library, a parameter. -/

namespace SimAgentNet.Agent

inductive GuardCapability where
  | editRepo (repo : String)
  | regenDocs (repo : String)
  | planPin
  | runValidation (repo : String)
  | evalGated
deriving DecidableEq

inductive AtelierAction where
  | editFile (repo path : String)
  | regenDocs (repo : String)
  | planPin (repo : String)
  | runValidation (repo : String)
  | eval (label : String)
  | addGithubRemote (remote : String)
  | flipPublishToGithub (repo : String)
  | pushMirrorRemote
deriving DecidableEq

def AtelierAction.label : AtelierAction → String
  | .editFile repo path => "edit " ++ repo ++ ":" ++ path
  | .regenDocs repo => "regen-docs " ++ repo
  | .planPin repo => "plan-pin " ++ repo
  | .runValidation repo => "run-validation " ++ repo
  | .eval label => "eval " ++ label
  | .addGithubRemote remote => "add-github-remote " ++ remote
  | .flipPublishToGithub repo => "flip-publish-to-github " ++ repo
  | .pushMirrorRemote => "push-mirror-remote"

/-- A mission with what the guard reads of it. -/
structure GuardedMission extends AgentMission where
  primaryRepo : String
  deniedPaths : List String
  codeFreeRepos : List String
  capabilities : List GuardCapability

namespace GuardedMission

def pushUnique [DecidableEq α] (items : List α) (item : α) : List α :=
  if item ∈ items then items else items ++ [item]

def new (id : Symbol) (leasedRepo : String) : GuardedMission where
  id := id
  leases := []
  primaryRepo := leasedRepo
  deniedPaths := [".meta-workspace/"]
  codeFreeRepos := []
  capabilities := []

def withCapability (mission : GuardedMission) (capability : GuardCapability) : GuardedMission :=
  { mission with capabilities := pushUnique mission.capabilities capability }

def withDeniedPath (mission : GuardedMission) (path : String) : GuardedMission :=
  { mission with deniedPaths := pushUnique mission.deniedPaths path }

def withCodeFreeRepo (mission : GuardedMission) (repo : String) : GuardedMission :=
  { mission with codeFreeRepos := pushUnique mission.codeFreeRepos repo }

end GuardedMission

structure GuardRefusal where
  action : AtelierAction
  reason : String
deriving DecidableEq

inductive GuardDecision where
  | granted
  | refused (refusal : GuardRefusal)
deriving DecidableEq

/-- The pieces of a path between separators. -/
def pieces (path : List Char) : List (List Char) := path.splitOnP isSeparator

def metaWorkspace : List Char := ".meta-workspace".toList

def pathHasMetaWorkspace (path : String) : Bool := (pieces path.toList).contains metaWorkspace

def isRust (name : List Char) : Bool := ".rs".toList.isSuffixOf name

def hardDenialReason (mission : GuardedMission) : AtelierAction → Option String
  | .editFile repo path =>
    if pathHasMetaWorkspace path then some "edits under .meta-workspace are denied"
    else if repo ≠ mission.primaryRepo then
      some ("mission lease is " ++ mission.primaryRepo ++ ", not " ++ repo)
    else if mission.codeFreeRepos.contains repo && isRust path.toList then
      some ("Rust source is denied in " ++ repo)
    else none
  | .addGithubRemote _ => some "adding a GitHub remote is denied"
  | .flipPublishToGithub _ => some "changing publish_to_github is denied"
  | .pushMirrorRemote => some "pushing to a mirror remote is denied"
  | .regenDocs _ | .planPin _ | .runValidation _ | .eval _ => none

def requiredCapability : AtelierAction → Option GuardCapability
  | .editFile repo _ => some (.editRepo repo)
  | .regenDocs repo => some (.regenDocs repo)
  | .planPin _ => some .planPin
  | .runValidation repo => some (.runValidation repo)
  | .eval _ => some .evalGated
  | .addGithubRemote _ | .flipPublishToGithub _ | .pushMirrorRemote => none

def capabilityLabel : GuardCapability → String
  | .editRepo repo => "EditRepo(" ++ repo ++ ")"
  | .regenDocs repo => "RegenDocs(" ++ repo ++ ")"
  | .planPin => "PlanPin"
  | .runValidation repo => "RunValidation(" ++ repo ++ ")"
  | .evalGated => "EvalGated"

def guardAction (mission : GuardedMission) (action : AtelierAction) : GuardDecision :=
  match hardDenialReason mission action with
  | some reason => .refused ⟨action, reason⟩
  | none =>
    match requiredCapability action with
    | none => .granted
    | some required =>
      if mission.capabilities.contains required then .granted
      else .refused ⟨action, "missing guard capability " ++ capabilityLabel required⟩

/-! ## Tools -/

structure AtelierToolDescriptor where
  id : String
  title : String
  command : String
  requiredCapability : GuardCapability
  evidenceKind : String
  repo : Option String

structure PinUpdateRequest where
  repo : String
  currentCommit : String
  newCommit : String
  pushedCommitExists : Bool

inductive DocsOperation where
  | regenerate
  | handEdit
deriving DecidableEq

structure DocsRegenerationRequest where
  repo : String
  path : String
  docsCommand : String
  generatedPublicDoc : Bool
  operation : DocsOperation

structure ToolRunEvidence where
  descriptor : AtelierToolDescriptor
  exitStatus : Int
  logPath : String

inductive AtelierToolAction where
  | simctl (descriptor : AtelierToolDescriptor)
  | validation (evidence : ToolRunEvidence)
  | docs (evidence : ToolRunEvidence)
  | pinUpdate (request : PinUpdateRequest)
  | docsRegeneration (request : DocsRegenerationRequest)

structure AtelierToolEvaluation (Cassette : Type) where
  descriptor : AtelierToolDescriptor
  decision : GuardDecision
  cassette : Cassette

def repoDocsDescriptor (repo docsCommand : String) : AtelierToolDescriptor where
  id := "docs/" ++ repo
  title := "Regenerate docs for " ++ repo
  command := docsCommand
  requiredCapability := .regenDocs repo
  evidenceKind := "docs"
  repo := some repo

def guardActionForDescriptor (descriptor : AtelierToolDescriptor) : AtelierAction :=
  match descriptor.requiredCapability with
  | .regenDocs repo => .regenDocs repo
  | .runValidation repo => .runValidation repo
  | .planPin => .planPin (descriptor.repo.getD "")
  | .evalGated => .eval descriptor.id
  | .editRepo repo => .editFile repo descriptor.command

namespace AtelierToolAction

def descriptor : AtelierToolAction → AtelierToolDescriptor
  | simctl descriptor => descriptor
  | validation evidence | docs evidence => evidence.descriptor
  | pinUpdate request =>
    { id := "pin/" ++ request.repo
      title := "Update " ++ request.repo ++ " pin"
      command := "set repos.toml " ++ request.repo ++ " commit " ++ request.newCommit
      requiredCapability := .planPin
      evidenceKind := "pin"
      repo := some request.repo }
  | docsRegeneration request => repoDocsDescriptor request.repo request.docsCommand

def guardAction : AtelierToolAction → AtelierAction
  | simctl descriptor => guardActionForDescriptor descriptor
  | validation evidence | docs evidence => guardActionForDescriptor evidence.descriptor
  | pinUpdate request => .planPin request.repo
  | docsRegeneration request => .regenDocs request.repo

def postGuardDecision (action : AtelierToolAction) (guard : AtelierAction) : GuardDecision :=
  match action with
  | pinUpdate request =>
    if !request.pushedCommitExists then
      .refused ⟨guard, "pin update requires an existing pushed upstream commit"⟩
    else .granted
  | docsRegeneration request =>
    if request.generatedPublicDoc ∧ request.operation = .handEdit then
      .refused ⟨guard, "generated public docs must be regenerated, not hand-edited"⟩
    else .granted
  | _ => .granted

def payloadExpr {Mode : Type} (action : AtelierToolAction) (descriptor : AtelierToolDescriptor) :
    Expr Mode :=
  .map ([Expr.entry "tool" (.string descriptor.id),
    Expr.entry "command" (.string descriptor.command),
    Expr.entry "capability" (.string (capabilityLabel descriptor.requiredCapability))] ++
    match action with
    | validation evidence | docs evidence =>
      [Expr.entry "exit-status" (.string (toString evidence.exitStatus)),
        Expr.entry "log-path" (.string evidence.logPath)]
    | pinUpdate request =>
      [Expr.entry "current-commit" (.string request.currentCommit),
        Expr.entry "new-commit" (.string request.newCommit)]
    | docsRegeneration request =>
      [Expr.entry "path" (.string request.path),
        Expr.entry "generated-public-doc" (.bool request.generatedPublicDoc)]
    | simctl _ => [])

end AtelierToolAction

/-- The events of the stream library: one of a kind from a node with a payload, a refusal, and a
cassette of events. -/
structure DevEvents (Mode Event Cassette ε : Type) where
  event : String → Symbol → Expr Mode → Except ε Event
  refusal : Symbol → Expr Mode → Except ε Event
  fromEvents : Symbol → List Event → Except ε Cassette

def GuardRefusal.payloadExpr {Mode : Type} (refusal : GuardRefusal) : Expr Mode :=
  .map [Expr.entry "refusal" (.symbol (.qualified "atelier/refusal" "guard")),
    Expr.entry "action" (.string refusal.action.label),
    Expr.entry "reason" (.string refusal.reason)]

section
variable {Mode Event Cassette ε : Type} (events : DevEvents Mode Event Cassette ε)

def evaluateAtelierTool (mission : GuardedMission) (action : AtelierToolAction)
    (atelierNode streamId : Symbol) : Except ε (AtelierToolEvaluation Cassette) := do
  let descriptor := action.descriptor
  let guard := action.guardAction
  let decision := match Agent.guardAction mission guard with
    | .granted => action.postGuardDecision guard
    | .refused refusal => .refused refusal
  let event ← match decision with
    | .granted =>
      events.event descriptor.evidenceKind atelierNode (action.payloadExpr descriptor)
    | .refused refusal => events.refusal atelierNode refusal.payloadExpr
  let cassette ← events.fromEvents streamId [event]
  return { descriptor, decision, cassette }

end

/-! ## What is asked of an edit -/

def parentDir : List Char := "..".toList

/-- Where a path leads, from the root of the repository. -/
def location (path : String) : Location (List Char) := .walk parentDir (components path.toList)

/-- An edit stays where its mission allows it. -/
structure LawfulEdit (mission : GuardedMission) (repo path : String) : Prop where
  leased : repo = mission.primaryRepo
  held : .editRepo repo ∈ mission.capabilities
  inside : (location path).ups = 0
  noMetaWorkspace : metaWorkspace ∉ (location path).below
  allowed : ∀ denied ∈ mission.deniedPaths, ¬(location path).Under (location denied)
  notRust : repo ∈ mission.codeFreeRepos →
    ∀ name ∈ (location path).below.getLast?, isRust name = false

/-- What the guard looks at. -/
structure Permitted (mission : GuardedMission) (repo path : String) : Prop where
  leased : repo = mission.primaryRepo
  held : .editRepo repo ∈ mission.capabilities
  noMetaWorkspace : metaWorkspace ∉ pieces path.toList
  notRust : repo ∈ mission.codeFreeRepos → isRust path.toList = false

/-- The text after the last separator. -/
def lastPiece (path : List Char) : List Char := path.rtakeWhile fun c => !isSeparator c

/-- What the guard overlooks: a path goes up no more often than down at any point, leads under no
denied path, and does not lead to a Rust source by a text that ends otherwise. -/
structure InBounds (mission : GuardedMission) (repo path : String) : Prop where
  balanced : ∀ steps, steps <+: components path.toList →
    Location.climbs parentDir steps ≤ Location.downs parentDir steps
  allowed : ∀ denied ∈ mission.deniedPaths, ¬(location path).Under (location denied)
  rustAtEnd : repo ∈ mission.codeFreeRepos →
    lastPiece path.toList ∈ [[], ['.'], parentDir] →
    ∀ name ∈ (location path).below.getLast?, isRust name = false

theorem isRust_iff : isRust name = true ↔ ".rs".toList <:+ name := List.isSuffixOf_iff_suffix

/-- A text without separators ends a path exactly when it ends the last piece. -/
theorem suffix_lastPiece_iff {name : List Char} (h : ∀ c ∈ name, isSeparator c = false) :
    name <:+ lastPiece path ↔ name <:+ path := by
  refine ⟨fun hsuffix => hsuffix.trans (List.rtakeWhile_suffix _ _), ?_⟩
  rintro ⟨before, rfl⟩
  induction name using List.reverseRecOn with
  | nil => exact List.nil_suffix
  | append_singleton name c ih =>
    have hc : isSeparator c = false := h c (List.mem_append_right _ List.mem_cons_self)
    unfold lastPiece at ih ⊢
    rw [← List.append_assoc, List.rtakeWhile_concat_pos _ _ _ (by simpa using hc)]
    obtain ⟨rest, hrest⟩ := ih fun d hd => h d (List.mem_append_left _ hd)
    exact ⟨rest, by rw [← hrest, List.append_assoc]⟩

theorem isRust_lastPiece : isRust (lastPiece path) = isRust path := by
  rw [Bool.eq_iff_iff, isRust_iff, isRust_iff]
  refine suffix_lastPiece_iff ?_
  simp [isSeparator]

/-- The last piece of a path is its last component, unless it is empty or a dot. -/
theorem components_eq_concat {path : List Char} (hempty : lastPiece path ≠ [])
    (hdot : lastPiece path ≠ ['.']) :
    ∃ before, components path = before ++ [lastPiece path] := by
  obtain ⟨before, hbefore⟩ := Columns.splitOnP_eq_concat isSeparator path
  refine ⟨before.filter fun component => component ≠ [] ∧ component ≠ ['.'], ?_⟩
  unfold components
  rw [hbefore, List.filter_append]
  congr 1
  exact List.filter_cons_of_pos (decide_eq_true ⟨hempty, hdot⟩)

/-- A path whose text ends in a name leads to a place of that name. -/
theorem getLast?_location (h : lastPiece path.toList ∉ [[], ['.'], parentDir]) :
    (location path).below.getLast? = some (lastPiece path.toList) := by
  simp only [List.mem_cons, List.not_mem_nil, or_false, not_or] at h
  obtain ⟨hempty, hdot, hparent⟩ := h
  obtain ⟨before, hbefore⟩ := components_eq_concat hempty hdot
  unfold location
  rw [hbefore, Location.walk_concat_of_ne hparent]
  exact List.getLast?_concat

/-- A component below is a piece of the text. -/
theorem mem_pieces_of_mem_below (h : name ∈ (location path).below) : name ∈ pieces path.toList :=
  List.mem_of_mem_filter (Location.below_subset h)

/-! ## What the guard grants -/

theorem guardAction_editFile_iff :
    guardAction mission (.editFile repo path) = .granted ↔ Permitted mission repo path := by
  unfold guardAction hardDenialReason
  dsimp only
  by_cases hmeta : pathHasMetaWorkspace path = true
  · rw [if_pos hmeta]
    refine iff_of_false nofun fun h => h.noMetaWorkspace ?_
    simpa [pathHasMetaWorkspace] using hmeta
  rw [if_neg hmeta]
  by_cases hleased : repo = mission.primaryRepo
  case neg =>
    rw [if_pos hleased]
    exact iff_of_false nofun fun h => hleased h.leased
  rw [if_neg (not_not.mpr hleased)]
  by_cases hrust : (mission.codeFreeRepos.contains repo && isRust path.toList) = true
  · rw [if_pos hrust]
    refine iff_of_false nofun fun h => ?_
    obtain ⟨hfree, hend⟩ := Bool.and_eq_true_iff.mp hrust
    rw [h.notRust (by simpa using hfree)] at hend
    cases hend
  rw [if_neg hrust]
  simp only [requiredCapability]
  by_cases hheld : mission.capabilities.contains (.editRepo repo) = true
  · rw [if_pos hheld]
    refine iff_of_true rfl ⟨hleased, by simpa using hheld, ?_, ?_⟩
    · simpa [pathHasMetaWorkspace] using hmeta
    · intro hfree
      simpa [hfree] using hrust
  · rw [if_neg hheld]
    exact iff_of_false nofun fun h => hheld (by simpa using h.held)

section
variable {Mode Event Cassette ε : Type} (events : DevEvents Mode Event Cassette ε)

/-- The edit is granted by the guard, or to a tool that asks for it. -/
def Grants (mission : GuardedMission) (repo path : String) : Prop :=
  guardAction mission (.editFile repo path) = .granted ∨
    ∃ action atelierNode streamId evaluation,
      AtelierToolAction.guardAction action = .editFile repo path ∧
      evaluateAtelierTool events mission action atelierNode streamId = .ok evaluation ∧
      evaluation.decision = .granted

/-- A tool is granted nothing that the guard refuses. -/
theorem guardAction_of_evaluate {evaluation : AtelierToolEvaluation Cassette}
    (h : evaluateAtelierTool events mission action atelierNode streamId = .ok evaluation)
    (hgranted : evaluation.decision = .granted) :
    guardAction mission action.guardAction = .granted := by
  cases hguard : guardAction mission action.guardAction with
  | granted => rfl
  | refused refusal =>
    unfold evaluateAtelierTool at h
    dsimp only at h
    rw [hguard] at h
    obtain ⟨event, -, h⟩ := Except.bind_eq_ok_iff.mp h
    obtain ⟨cassette, -, h⟩ := Except.bind_eq_ok_iff.mp h
    cases h
    cases hgranted

theorem grants_iff : Grants events mission repo path ↔ Permitted mission repo path := by
  rw [← guardAction_editFile_iff]
  constructor
  · rintro (h | ⟨action, atelierNode, streamId, evaluation, haction, h, hgranted⟩)
    · exact h
    · exact haction ▸ guardAction_of_evaluate events h hgranted
  · exact .inl

theorem lawfulEdit_iff (h : Permitted mission repo path) :
    LawfulEdit mission repo path ↔ InBounds mission repo path := by
  constructor
  · intro hlawful
    exact ⟨Location.ups_walk_eq_zero_iff.mp hlawful.inside, hlawful.allowed,
      fun hfree _ => hlawful.notRust hfree⟩
  · intro hbounds
    refine ⟨h.leased, h.held, Location.ups_walk_eq_zero_iff.mpr hbounds.balanced,
      fun hmem => h.noMetaWorkspace (mem_pieces_of_mem_below hmem), hbounds.allowed,
      fun hfree => ?_⟩
    by_cases hlast : lastPiece path.toList ∈ [[], ['.'], parentDir]
    · exact hbounds.rustAtEnd hfree hlast
    · rw [getLast?_location hlast]
      rintro name ⟨⟩
      rw [isRust_lastPiece]
      exact h.notRust hfree

/-- A granted edit stays where its mission allows it exactly when its path, if the guard has
nothing to say against it, is in bounds. -/
theorem granted_lawful_iff (mission : GuardedMission) (repo path : String) :
    (Grants events mission repo path → LawfulEdit mission repo path) ↔
      (Permitted mission repo path → InBounds mission repo path) := by
  rw [grants_iff]
  exact forall_congr' lawfulEdit_iff

end

namespace GuardSample

/-- A mission on a code-free repository with a denied directory. -/
def mission : GuardedMission :=
  ((GuardedMission.new (.new "tidy") "docs").withCapability (.editRepo "docs")
    |>.withDeniedPath "secrets/").withCodeFreeRepo "docs"

/-- Out of the repository, into the denied directory, and to a Rust source. -/
theorem edits_granted :
    (guardAction mission (.editFile "docs" "../net/README.md") = .granted ∧
      ¬LawfulEdit mission "docs" "../net/README.md") ∧
    (guardAction mission (.editFile "docs" "secrets/key") = .granted ∧
      ¬LawfulEdit mission "docs" "secrets/key") ∧
    guardAction mission (.editFile "docs" "src/lib.rs/.") = .granted ∧
      ¬LawfulEdit mission "docs" "src/lib.rs/." := by
  refine ⟨⟨by decide +kernel, fun h => ?_⟩, ⟨by decide +kernel, fun h => ?_⟩,
    by decide +kernel, fun h => ?_⟩
  · exact absurd h.inside (by decide +kernel)
  · exact absurd (h.allowed "secrets/" (by decide +kernel)) (by decide +kernel)
  · exact absurd (h.notRust (by decide +kernel)) (by decide +kernel)

end GuardSample

end SimAgentNet.Agent
