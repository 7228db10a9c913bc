import SimAgentNet.Data.Effect
import SimAgentNet.Data.SortedMap
import SimAgentNet.AgentConductCore.Journal

/-! # The durable lifecycle of an agent run

A run commits its steps to the agent journal in memory and to a store. The store is a trait of
the repository; the store in memory is one of its instances. The expression encodings of events,
frames and usage are made by the kernel's derive macro and are parameters. -/

namespace SimAgentNet.AgentConductCore
variable {Mode σ : Type}

/-! ## Records of a step -/

structure UsageQuantity where
  unit : Symbol
  amount : UInt64
deriving DecidableEq

structure AgentUsage where
  quantities : List UsageQuantity
deriving DecidableEq

structure AgentRunState (Mode : Type) where
  entries : List (Symbol × Expr Mode)
deriving DecidableEq

structure AgentJournalHead where
  sequence : UInt64
  hash : Option String
deriving DecidableEq

structure AgentRunFrame (Mode : Type) where
  runId : Symbol
  input : Expr Mode
  working : Expr Mode
  outcome : Symbol
  state : AgentRunState Mode
  usage : AgentUsage
  journal : AgentJournalHead
deriving DecidableEq

structure AgentEvent (Mode : Type) where
  kind : Symbol
  redacted : Expr Mode
deriving DecidableEq

/-- The expression encodings. -/
structure Citizens (Mode : Type) where
  event : AgentEvent Mode → Except String (Expr Mode)
  frame : AgentRunFrame Mode → Except String (Expr Mode)
  usage : AgentUsage → Except String (Expr Mode)

/-- The arguments of one `commit_step`. -/
structure Step (Mode : Type) where
  frame : AgentRunFrame Mode
  event : AgentEvent Mode
  effectReceipts : List (Expr Mode)
  continuation : Expr Mode
deriving DecidableEq

/-! ## Stores -/

inductive LifecycleError where
  | journal (error : JournalError)
  | runAlreadyExists (runId : Symbol)
  | emptyJournal
  | graphDrift
  | bindingDrift
  | runIdentityDrift
  | staleHandle
  | store (message : String)
deriving DecidableEq

structure AgentJournalStore (Mode σ : Type) where
  load : σ → Symbol → Except LifecycleError (List (AgentJournalRecord Mode))
  append : Symbol → AgentJournalRecord Mode → Effect LifecycleError σ Unit

structure InMemoryJournalStore (Mode : Type) where
  runs : SortedMap Symbol (List (AgentJournalRecord Mode))

namespace InMemoryJournalStore

def records (store : InMemoryJournalStore Mode) (runId : Symbol) :
    List (AgentJournalRecord Mode) :=
  (store.runs.get? runId).getD []

def put (store : InMemoryJournalStore Mode) (runId : Symbol)
    (records : List (AgentJournalRecord Mode)) : InMemoryJournalStore Mode :=
  ⟨store.runs.insert runId records⟩

variable [DecidableEq Mode] (debug : Mode → String) (digestHex : List UInt8 → String)

def append (runId : Symbol) (record : AgentJournalRecord Mode) :
    Effect LifecycleError (InMemoryJournalStore Mode) Unit := fun store =>
  let records := store.records runId
  -- The entry of the run is created before the record is looked at.
  let store := store.put runId records
  match records[record.sequence]? with
  | some existing =>
    if existing = record then (.ok (), store)
    else (.error (.journal (.divergentDuplicate record.sequence)), store)
  | none =>
    match AgentJournal.fromRecords debug digestHex record.graphFingerprint
        record.bindingFingerprint records with
    | .error e => (.error (.journal e), store)
    | .ok checked =>
      match checked.insert debug digestHex record with
      | .error e => (.error (.journal e), store)
      | .ok _ => (.ok (), store.put runId (records ++ [record]))

def api : AgentJournalStore Mode (InMemoryJournalStore Mode) where
  load store runId := .ok (store.records runId)
  append := append debug digestHex

end InMemoryJournalStore

/-! ## Runs -/

structure DurableRunHandle where
  runId : Symbol
  sequence : Nat
  journalHash : String
  graphFingerprint : String
  bindingFingerprint : String
deriving DecidableEq

/-- A run and the store it has borrowed. -/
structure DurableAgentRun (Mode σ : Type) where
  store : σ
  journal : AgentJournal Mode
  frame : AgentRunFrame Mode
  continuation : Expr Mode

/-- The handle that names a record of a run. -/
def handleOf (runId : Symbol) (record : AgentJournalRecord Mode) : DurableRunHandle :=
  { runId
    sequence := record.sequence + 1
    journalHash := record.hash
    graphFingerprint := record.graphFingerprint
    bindingFingerprint := record.bindingFingerprint }

namespace DurableAgentRun

def handle (run : DurableAgentRun Mode σ) : Except LifecycleError DurableRunHandle :=
  match run.journal.records.getLast? with
  | none => .error .emptyJournal
  | some record => .ok (handleOf run.frame.runId record)

/-- Suspending returns the handle, whatever the reason. -/
def suspend (run : DurableAgentRun Mode σ) : Except LifecycleError DurableRunHandle := run.handle

def start (api : AgentJournalStore Mode σ) (store : σ) (frame : AgentRunFrame Mode)
    (graphFingerprint bindingFingerprint : String) :
    Except LifecycleError (DurableAgentRun Mode σ) := do
  let records ← api.load store frame.runId
  if !records.isEmpty then .error (.runAlreadyExists frame.runId)
  else
    return { store, journal := .new graphFingerprint bindingFingerprint, frame
             continuation := .nil }

variable [DecidableEq Mode] (debug : Mode → String) (digestHex : List UInt8 → String)
  (citizens : Citizens Mode) (api : AgentJournalStore Mode σ)

def resume (store : σ) (handle : DurableRunHandle) (currentGraph currentBindings : String)
    (frame : AgentRunFrame Mode) : Except LifecycleError (DurableAgentRun Mode σ) := do
  if handle.graphFingerprint ≠ currentGraph then .error .graphDrift
  else if handle.bindingFingerprint ≠ currentBindings then .error .bindingDrift
  else
    let records ← api.load store handle.runId
    let journal ← (AgentJournal.fromRecords debug digestHex currentGraph currentBindings
      records).mapError .journal
    match journal.records.getLast? with
    | none => .error .emptyJournal
    | some last =>
      if handle.sequence ≠ last.sequence + 1 ∨ handle.journalHash ≠ last.hash then
        .error .staleHandle
      else if frame.runId ≠ handle.runId then .error .runIdentityDrift
      else .ok { store, journal, frame, continuation := last.continuation }

/-- The journal in memory with the step appended to it. -/
def appendStep (journal : AgentJournal Mode) (step : Step Mode) :
    Except JournalError (AgentJournal Mode) :=
  journal.append debug digestHex (citizens.event step.event) (citizens.frame step.frame)
    (citizens.usage step.frame.usage) step.effectReceipts step.continuation

def commitStep (step : Step Mode) :
    Effect LifecycleError (DurableAgentRun Mode σ) DurableRunHandle := do
  let run ← .get
  if step.frame.runId ≠ run.frame.runId then .fail .runIdentityDrift
  else do
    let journal ← .ofExcept ((appendStep debug digestHex citizens run.journal step).mapError
      .journal)
    .modify fun run => { run with journal }
    match journal.records.getLast? with
    -- The journal has a last record once one has been appended.
    | none => .fail .emptyJournal
    | some record => do
      .focus (·.store) (fun store run => { run with store })
        (api.append step.frame.runId record)
      .modify fun run => { run with frame := step.frame, continuation := step.continuation }
      .observe handle

def advance (productionStep : AgentRunFrame Mode → Option (Expr Mode) →
      Except LifecycleError (Step Mode)) :
    Effect LifecycleError (DurableAgentRun Mode σ) DurableRunHandle := do
  let run ← .get
  let continuation := if run.continuation = .nil then none else some run.continuation
  let step ← .ofExcept (productionStep run.frame continuation)
  commitStep debug digestHex citizens api step

end DurableAgentRun

end SimAgentNet.AgentConductCore
