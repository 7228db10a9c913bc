import SimAgentNet.Data.Run
import SimAgentNet.Data.SortedMap
import SimAgentNet.Kernel.Datum

/-! # Runner records

The records of the execution journal of `sim-lib-roadmap-runner`, its errors, and the values of
the generic journal package `sim-lib-journal` that it reads and writes. -/

namespace SimAgentNet.RoadmapRunner

def RECORD_VERSION : Nat := 2

structure ExecutionPins where
  conduct : String
  policy : String
  sourceDeck : ContentId
  modelPick : String
  runnerGeneration : String
deriving DecidableEq

inductive ObjectKind where
  | packet | deck | processOutput | fileBytes | evidenceSet | snapshot
deriving DecidableEq

structure ObjectRef where
  kind : ObjectKind
  content : ContentId
  bytes : UInt64
  summary : String
deriving DecidableEq

/-- One compare-and-set fact change. -/
structure SemanticChange where
  key : String
  before : Option ContentId
  after : Option ContentId
deriving DecidableEq

inductive ExecutionRecord where
  | executionOpened (pins : ExecutionPins) (parent : Option String)
  | stateTransition (source target : String)
  | effectRequested (effectId kind : String) (input : Option ObjectRef)
  | effectReceipt (effectId outcome : String) (output : Option ObjectRef)
  | mutationFence (mutationId expected : String)
  | proofResult (proof : String) (passed : Bool) (evidence : Option ObjectRef)
  | discharge (obligation : String)
  | ambiguity (reason : String)
  | terminalReceipt (outcome : String)
  | semanticDelta (cause : String) (changes : List SemanticChange) (evidenceSet : ContentId)
  | snapshot (covers state evidenceSet : ContentId)
deriving DecidableEq

def ExecutionRecord.tag : ExecutionRecord → String
  | .executionOpened .. => "execution-opened"
  | .stateTransition .. => "state-transition"
  | .effectRequested .. => "effect-requested"
  | .effectReceipt .. => "effect-receipt"
  | .mutationFence .. => "mutation-fence"
  | .proofResult .. => "proof-result"
  | .discharge .. => "discharge"
  | .ambiguity .. => "ambiguity"
  | .terminalReceipt .. => "terminal-receipt"
  | .semanticDelta .. => "semantic-delta"
  | .snapshot .. => "snapshot"

/-- Reducer state reconstructed from cause records. -/
structure CausalState where
  facts : SortedMap String ContentId
  evidence : SortedSet ContentId
deriving DecidableEq

def CausalState.default : CausalState := ⟨∅, ∅⟩

structure VerifiedSnapshot where
  covers : ContentId
  state : ContentId
  evidenceSet : ContentId
deriving DecidableEq

structure RetentionRoots where
  entries : SortedSet ContentId
  objects : SortedSet ContentId
deriving DecidableEq

structure Limits where
  maxRecordBytes : Nat
  maxObjectBytes : Nat
  maxStreamBytes : Nat
  maxExecutionBytes : Nat
deriving DecidableEq

def Limits.default : Limits where
  maxRecordBytes := 64 * 1024
  maxObjectBytes := 8 * 1024 * 1024
  maxStreamBytes := 32 * 1024 * 1024
  maxExecutionBytes := 128 * 1024 * 1024

/-! ## Values of the generic journal -/

structure JournalHead where
  sequence : Nat
  entry : ContentId
deriving DecidableEq

structure JournalEntry where
  id : ContentId
  sequence : Nat
  previous : Option ContentId
  kind : Symbol
  payloads : List ContentId
deriving DecidableEq

/-- A content-addressed object: its identity, stored bytes and canonical datum. -/
structure JournalObject where
  id : ContentId
  bytes : List UInt8
  datum : Datum
deriving DecidableEq

/-- The objects and datums a backend holds. -/
structure StoredState where
  objects : SortedMap ContentId (List UInt8)
  datums : SortedMap ContentId Datum
deriving DecidableEq

/-- The verified hash chain. -/
structure Verification where
  entries : List JournalEntry
  head : Option JournalHead
deriving DecidableEq

inductive JournalError where
  | wrongHead
  | other (message : String)
deriving DecidableEq

/-! ## Errors and results -/

inductive ExecutionJournalError where
  | journal (error : JournalError)
  | codec (reason : String)
  | budget (what : String)
  | secret
  | executionIdentity
  | illegal (sequence : Nat) (reason : String)
  | missingObject
  | semantic (what : String)
  | childRequired (childExecutionId : String)
  | empty
deriving DecidableEq

structure PreparedObject where
  reference : ObjectRef
  object : JournalObject
deriving DecidableEq

inductive DeltaAppend where
  | appended (head : JournalHead)
  | unchanged (head : JournalHead)
deriving DecidableEq

structure RebuiltExecution where
  executionId : String
  pins : ExecutionPins
  records : List ExecutionRecord
  openingHead : JournalHead
  head : JournalHead
  totalBytes : Nat
  causal : CausalState
  snapshots : List VerifiedSnapshot
  retention : RetentionRoots
deriving DecidableEq

end SimAgentNet.RoadmapRunner
