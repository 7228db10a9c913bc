import SimAgentNet.Data.SortedMap
import SimAgentNet.RoadmapCore.Id

/-! # Execution values

The values of `sim-roadmap-exec-core`: lifecycle states, execution policy, mutation plan,
observations and the reducer state. -/

namespace SimAgentNet.RoadmapExecCore
open RoadmapCore

inductive ExecIdKind where
  | execution | executionPolicy | attempt | mutation
deriving DecidableEq

/-- The texts that the identifiers accept: 1 to 128 bytes without white space. -/
def ValidExecId (value : String) : Prop :=
  value ≠ "" ∧ value.utf8ByteSize ≤ 128 ∧ value.toList.any Char.isUnicodeWhitespace = false

instance (value : String) : Decidable (ValidExecId value) := by unfold ValidExecId; infer_instance

/-- A checked identifier, displayed in the namespace `roadmap-exec`. -/
structure ExecTextId (k : ExecIdKind) where
  text : String
  valid : ValidExecId text
deriving DecidableEq

def ExecTextId.display (id : ExecTextId k) : String :=
  (Symbol.qualified "roadmap-exec" id.text).display

abbrev ExecutionId := ExecTextId .execution
abbrev ExecutionPolicyId := ExecTextId .executionPolicy
abbrev AttemptId := ExecTextId .attempt
abbrev MutationId := ExecTextId .mutation

/-- Closed lifecycle state. -/
inductive PhaseRunState where
  | planned | running | reconciling | succeeded | failed | cancelled
deriving DecidableEq

/-- The states that no observation leaves. -/
def PhaseRunState.Terminal : PhaseRunState → Prop
  | .succeeded | .failed | .cancelled => True
  | .planned | .running | .reconciling => False

structure ExecutionPolicy where
  id : ExecutionPolicyId
  sourceDeck : ContentId
  requiredPromises : List PromiseId
  requiredProofs : List Symbol
deriving DecidableEq

/-- Bytes-free file image. -/
structure FileImage where
  path : String
  content : Option ContentId
deriving DecidableEq

namespace FileImage

def orderKey (i : FileImage) : String ×ₗ WithBot ContentId := toLex (i.path, i.content)

theorem orderKey_injective : Function.Injective orderKey := by
  rintro ⟨p, c⟩ ⟨q, d⟩ h
  obtain ⟨h₁, h₂⟩ := Prod.mk.inj (toLex.injective h)
  cases h₁; cases h₂; rfl

instance : LinearOrder FileImage := .lift' orderKey orderKey_injective

end FileImage

structure ProofCursor where
  sequence : Nat
  journalHead : ContentId
  proof : Symbol
deriving DecidableEq

structure PromiseDischarge where
  promise : PromiseId
  status : Symbol
  evidence : Option ContentId
deriving DecidableEq

def PromiseDischarge.proven (d : PromiseDischarge) : Bool :=
  d.status == Symbol.new "proven" && d.evidence.isSome

structure UnresolvedProof where
  proof : Symbol
  mandatory : Bool
  reason : Symbol
deriving DecidableEq

namespace UnresolvedProof

def orderKey (u : UnresolvedProof) : Symbol ×ₗ Bool ×ₗ Symbol :=
  toLex (u.proof, toLex (u.mandatory, u.reason))

theorem orderKey_injective : Function.Injective orderKey := by
  rintro ⟨p, m, r⟩ ⟨p', m', r'⟩ h
  obtain ⟨h₁, h₂⟩ := Prod.mk.inj (toLex.injective h)
  obtain ⟨h₂, h₃⟩ := Prod.mk.inj (toLex.injective h₂)
  cases h₁; cases h₂; cases h₃; rfl

instance : LinearOrder UnresolvedProof := .lift' orderKey orderKey_injective

end UnresolvedProof

/-- Open observation category with its correlation and evidence fields. -/
structure Observation where
  kind : Symbol
  journalHead : ContentId
  mutation : Option MutationId := none
  proofCursor : Option ProofCursor := none
  image : Option FileImage := none
  discharge : Option PromiseDischarge := none
  unresolved : Option UnresolvedProof := none
  sourceDeck : Option ContentId := none
deriving DecidableEq

structure ExecutionEvent where
  execution : ExecutionId
  phase : PhaseId
  attempt : AttemptId
  observation : Observation
deriving DecidableEq

structure EffectRequest where
  kind : Symbol
  execution : ExecutionId
  phase : PhaseId
  mutation : Option MutationId
  proofCursor : Option ProofCursor
deriving DecidableEq

structure PhaseReceipt where
  execution : ExecutionId
  phase : PhaseId
  sourceDeck : ContentId
  journalHead : ContentId
  committedPostimages : List FileImage
  discharges : List PromiseDischarge
  parentAcceptanceRetained : Bool
deriving DecidableEq

structure Transition where
  state : PhaseRunState
  journalHead : ContentId
  committedPostimages : List FileImage
  discharges : List PromiseDischarge
  parentAcceptanceRetained : Bool
  currentSourceDeck : Option ContentId
  unresolved : List UnresolvedProof
  requestedEffects : List EffectRequest
  receipt : Option PhaseReceipt
deriving DecidableEq

/-- The initial reducer state at a persisted journal head. -/
def Transition.planned (journalHead : ContentId) : Transition where
  state := .planned
  journalHead := journalHead
  committedPostimages := []
  discharges := []
  parentAcceptanceRetained := false
  currentSourceDeck := none
  unresolved := []
  requestedEffects := []
  receipt := none

inductive ExecutionFailure where
  | wrongExecution | wrongPhase | wrongAttempt | wrongJournalHead | wrongMutation
  | wrongProofCursor | invalidState
  | invalidObservation (kind : Symbol)
  | duplicatePath | invalidPath | foreignImage
  | successInvariant (reason : String)
deriving DecidableEq

/-- The members of a list in increasing order, each once. -/
def sortedUnique [LinearOrder α] (values : List α) : List α := (SortedSet.ofList values).elems

@[simp] theorem mem_sortedUnique [LinearOrder α] {a : α} {values : List α} :
    a ∈ sortedUnique values ↔ a ∈ values := SortedSet.mem_elems_ofList

/-! ## Mutation plans -/

structure MutationPlan where
  id : MutationId
  preimages : List FileImage
  postimages : List FileImage
deriving DecidableEq

inductive ImageClass where
  | preimage | postimage | preAndPost | foreign
deriving DecidableEq

def validPath (p : String) : Bool :=
  p != "" && p.utf8ByteSize ≤ 4096 && p.toList.head? != some '/' &&
    !(p.toList.splitOn '/').any fun s => s == [] || s == ['.'] || s == ['.', '.']

namespace MutationPlan

/-- Sorts one image list and checks that its paths are distinct and relative. -/
def checkImages (images : List FileImage) : Except ExecutionFailure (List FileImage) :=
  let images := images.insertionSort (· ≤ ·)
  if (images.zip images.tail).any fun w => w.1.path == w.2.path then .error .duplicatePath
  else if images.any fun i => !validPath i.path then .error .invalidPath
  else .ok images

def new (id : MutationId) (preimages postimages : List FileImage) :
    Except ExecutionFailure MutationPlan := do
  let preimages ← checkImages preimages
  let postimages ← checkImages postimages
  return ⟨id, preimages, postimages⟩

def classify (plan : MutationPlan) (image : FileImage) : ImageClass :=
  match plan.preimages.any (· == image), plan.postimages.any (· == image) with
  | true, false => .preimage
  | false, true => .postimage
  | true, true => .preAndPost
  | false, false => .foreign

end MutationPlan

end SimAgentNet.RoadmapExecCore
