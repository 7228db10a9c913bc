import SimAgentNet.RoadmapRunner.Model

/-! # Proof leaves

The proof catalog of a grounded phase and the execution of one leaf. The sandbox package is not
part of the repository: its limits, requests and control reports are the types `L`, `R` and `P`,
and what the leaves call is in `SandboxApi`. -/

namespace SimAgentNet.RoadmapRunner

def SOURCE_ROOT : String := "/source"
def SCRATCH_ROOT : String := "/scratch"

/-! ## The sandbox -/

inductive SandboxControl where
  | network | mounts | root | environment | identity | cpu | memory | wallTime | processCount
  | fileCount | fileBytes | output | stdin | processTree
deriving DecidableEq

inductive MountAccess where
  | readOnly | writable
deriving DecidableEq

structure SandboxMount where
  source : String
  guestPath : String
  access : MountAccess
deriving DecidableEq

/-- What a request is made of. Every listed control is required, and the input is empty. -/
structure SandboxDraft (L : Type) where
  program : String
  argv : List String
  environment : SortedMap String String
  required : List SandboxControl
  mounts : List SandboxMount
  limits : L

structure SandboxReport (P : Type) where
  launcher : String
  cleanup : String
  /-- Whether `limit_hits` has an element. -/
  limitHit : Bool
  controls : P

structure SandboxResult (P : Type) where
  exitCode : Int32
  stdout : List UInt8
  stderr : List UInt8
  report : SandboxReport P

inductive SandboxAttempt (P : Type) where
  | completed (result : SandboxResult P)
  | stopped (report : SandboxReport P)
  | refused (launcher reason : String)
  | unknown (launcher reason : String)

structure SandboxApi (L R P : Type) where
  /-- Builds a request with its policy, or reports why a part of it is not admitted. -/
  request : SandboxDraft L → Except String R
  /-- Whether a report proves every control that the policy of the request requires. -/
  provesRequired : P → R → Bool
  sha256 : List UInt8 → ContentId

/-! ## Leaves -/

inductive ProofDisposition where
  | passed | failed | ambiguous
deriving DecidableEq

/-- The lower case name under which a disposition is journaled. -/
def ProofDisposition.outcome : ProofDisposition → String
  | .passed => "passed"
  | .failed => "failed"
  | .ambiguous => "ambiguous"

/-- Identity of exact output bytes. -/
structure ProofOutputId where
  contentId : ContentId
deriving DecidableEq

structure TypedProofReceipt where
  proof : String
  effectId : Option String
  disposition : ProofDisposition
  exitCode : Option Int32
  timeout : Bool
  signal : Option Int32
  truncated : Bool
  launcherIdentity : Option String
  sandboxIdentity : Option String
  stdoutObject : Option ProofOutputId
  stderrObject : Option ProofOutputId
  observedAt : String
  semanticDetail : String
deriving DecidableEq

inductive ProofError where
  | notCatalogued (name : String)
  | invalid (reason : String)
  | journal (error : ExecutionJournalError)
  | ambiguousEffect
deriving DecidableEq

structure StructuredExpectation where
  stdout : ProofOutputId
  exitCode : Int32
deriving DecidableEq

structure CommandProof (L : Type) where
  name : String
  effectId : String
  program : String
  argv : List String
  workingDirectory : String
  environment : SortedMap String String
  allowedEnvironmentKeys : SortedSet String
  sourceMount : String
  scratchMount : Option String
  sourceReadOnly : Bool
  limits : L
  expected : StructuredExpectation

inductive ProofLeaf (L : Type) where
  | command (proof : CommandProof L)
  | artifactEquality (name : String) (left right : List UInt8)
  | sourceDeckPredicate (name actualDeck expectedDeck : String)
      (requiredClaims presentClaims : SortedSet String)

variable {L R P : Type}

def hasWhitespace (s : String) : Bool := s.toList.any Char.isUnicodeWhitespace

def startsWithSlash (s : String) : Bool := s.toList.head? == some '/'

def credentialMarks : List String := ["SECRET", "TOKEN", "PASSWORD", "KEY"]

def credentialShaped (key : String) : Bool :=
  credentialMarks.any fun mark =>
    Text.containsBytes ((Text.utf8 key).map Text.asciiUpper) (Text.utf8 mark)

namespace CommandProof

def validate (c : CommandProof L) : Except ProofError Unit :=
  if c.effectId.isEmpty ∨ c.program.isEmpty ∨ hasWhitespace c.program then
    .error (.invalid "program must be an opaque tool id, not a shell string")
  else if c.argv.any (Text.hasChar · '\x00') then .error (.invalid "argv contains NUL")
  else if c.workingDirectory ≠ SOURCE_ROOT ∧ c.workingDirectory ≠ SCRATCH_ROOT then
    .error (.invalid "cwd is not a declared guest root")
  else if c.sourceMount.isEmpty ∨ startsWithSlash c.sourceMount then
    .error (.invalid "source mount must be an opaque identity")
  else if !c.sourceReadOnly then .error (.invalid "proof source must be read-only")
  else if c.environment.keys.any (¬· ∈ c.allowedEnvironmentKeys) then
    .error (.invalid "environment key is not declared")
  else if c.environment.keys.any credentialShaped then
    .error (.invalid "credential-shaped environment key")
  else if c.expected.stdout.contentId.algorithm ≠ .qualified "core" "sha256" then
    .error (.invalid "expected result uses a non-byte digest algorithm")
  else .ok ()

def requiredControls : List SandboxControl :=
  [.network, .mounts, .root, .environment, .identity, .cpu, .memory, .wallTime, .processCount,
    .fileCount, .fileBytes, .output, .stdin, .processTree]

def scratchMounts (c : CommandProof L) : Except ProofError (List SandboxMount) :=
  match c.scratchMount with
  | none => .ok []
  | some source =>
    if source.isEmpty ∨ startsWithSlash source then
      .error (.invalid "scratch mount must be an opaque identity")
    else .ok [⟨source, SCRATCH_ROOT, .writable⟩]

def sandboxRequest (api : SandboxApi L R P) (c : CommandProof L) : Except ProofError R := do
  let scratch ← c.scratchMounts
  (api.request {
    program := c.program
    argv := c.argv
    environment := c.environment.insert "SIM_PROOF_CWD" c.workingDirectory
    required := requiredControls
    mounts := ⟨c.sourceMount, SOURCE_ROOT, .readOnly⟩ :: scratch
    limits := c.limits }).mapError .invalid

end CommandProof

namespace ProofLeaf

def name : ProofLeaf L → String
  | .command proof => proof.name
  | .artifactEquality name _ _ => name
  | .sourceDeckPredicate name _ _ _ _ => name

def validate (leaf : ProofLeaf L) : Except ProofError Unit :=
  if leaf.name.isEmpty ∨ hasWhitespace leaf.name then
    .error (.invalid "proof name must be one non-empty token")
  else match leaf with
    | .command proof => proof.validate
    | .artifactEquality .. => .ok ()
    | .sourceDeckPredicate _ actualDeck expectedDeck requiredClaims _ =>
      if actualDeck.isEmpty ∨ expectedDeck.isEmpty ∨ requiredClaims.elems.isEmpty then
        .error (.invalid "source-deck predicate is ungrounded")
      else .ok ()

end ProofLeaf

/-- A catalog holds valid leaves under their names. -/
structure ProofCatalog (L : Type) where
  leaves : SortedMap String (ProofLeaf L)
  valid : leaves.get? k = some leaf → leaf.name = k ∧ leaf.validate = .ok ()

namespace ProofCatalog

/-- One leaf of the loop of `new`. -/
def insert (catalog : ProofCatalog L) (leaf : ProofLeaf L) :
    Except ProofError (ProofCatalog L) :=
  match hleaf : leaf.validate with
  | .error e => .error e
  | .ok () =>
    if catalog.leaves.contains leaf.name then
      .error (.invalid ("duplicate proof leaf " ++ leaf.name))
    else .ok {
      leaves := catalog.leaves.insert leaf.name leaf
      valid := by
        intro k leaf' h
        rw [SortedMap.get?_insert] at h
        split at h
        · cases h
          exact ⟨Eq.symm ‹_›, hleaf⟩
        · exact catalog.valid h }

def new (leaves : List (ProofLeaf L)) : Except ProofError (ProofCatalog L) := do
  let catalog ← leaves.foldlM insert ⟨∅, nofun⟩
  if catalog.leaves.entries.isEmpty then .error (.invalid "empty proof catalog")
  else return catalog

def leaf (catalog : ProofCatalog L) (name : String) : Except ProofError (ProofLeaf L) :=
  match catalog.leaves.get? name with
  | some leaf => .ok leaf
  | none => .error (.notCatalogued name)

end ProofCatalog

/-! ## Execution of one leaf -/

def pureReceipt (name : String) (passed : Bool) (observedAt detail : String) :
    TypedProofReceipt where
  proof := name
  effectId := none
  disposition := if passed then .passed else .failed
  exitCode := none
  timeout := false
  signal := none
  truncated := false
  launcherIdentity := none
  sandboxIdentity := none
  stdoutObject := none
  stderrObject := none
  observedAt := observedAt
  semanticDetail := detail

/-- The receipt of an attempt that has not completed. -/
def baseReceipt (command : CommandProof L) (disposition : ProofDisposition)
    (launcher observedAt detail : String) : TypedProofReceipt where
  proof := command.name
  effectId := some command.effectId
  disposition := disposition
  exitCode := none
  timeout := false
  signal := none
  truncated := false
  launcherIdentity := some launcher
  sandboxIdentity := none
  stdoutObject := none
  stderrObject := none
  observedAt := observedAt
  semanticDetail := detail

/-- The receipt of an attempt on `request`, which is the request of the command. -/
def normalize (api : SandboxApi L R P) (command : CommandProof L) (request : R)
    (attempt : SandboxAttempt P) (observedAt : String) : TypedProofReceipt :=
  match attempt with
  | .completed result =>
    let digest : ProofOutputId := ⟨api.sha256 result.stdout⟩
    let passed := api.provesRequired result.report.controls request && !result.report.limitHit &&
      result.exitCode == command.expected.exitCode && digest == command.expected.stdout
    { proof := command.name
      effectId := some command.effectId
      disposition := if passed then .passed else .failed
      exitCode := some result.exitCode
      timeout := false
      signal := if result.exitCode < 0 then some (-result.exitCode) else none
      truncated := result.report.limitHit
      launcherIdentity := some result.report.launcher
      sandboxIdentity := some result.report.cleanup
      stdoutObject := some digest
      stderrObject := some ⟨api.sha256 result.stderr⟩
      observedAt := observedAt
      semanticDetail :=
        if passed then "structured expectation matched"
        else "operational exit was not semantic proof" }
  | .stopped report =>
    { baseReceipt command .failed report.launcher observedAt "bounded stop" with
      timeout := true
      sandboxIdentity := some report.cleanup }
  | .refused launcher reason => baseReceipt command .failed launcher observedAt reason
  | .unknown launcher reason => baseReceipt command .ambiguous launcher observedAt reason

end SimAgentNet.RoadmapRunner
