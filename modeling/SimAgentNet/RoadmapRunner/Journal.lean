import SimAgentNet.Data.Effect
import SimAgentNet.RoadmapRunner.Causal
import SimAgentNet.RoadmapRunner.Codec
import SimAgentNet.RoadmapRunner.RecordLaw

/-! # The execution journal

The writers and the reader of the execution journal over the generic journal package. That
package is not part of the repository: its operations are the fields of `JournalApi`, and what
the journal relies on is stated in `JournalApi.Faithful`. -/

namespace SimAgentNet.RoadmapRunner

/-- The operations of the generic journal on a backend in state `σ`. -/
structure JournalApi (σ : Type) where
  readState : σ → Except JournalError StoredState
  verify : σ → Except JournalError Verification
  /-- Acquires a lease and publishes objects and entries at the expected head. -/
  publish : Option JournalHead → List JournalObject → List JournalEntry →
    Effect JournalError σ JournalHead
  /-- Stores one datum and returns its identity. -/
  put : Datum → Effect JournalError σ ContentId
  entryId : Nat → Option ContentId → Symbol → List ContentId → ContentId
  /-- Identity and stored bytes of a datum. -/
  datumObject : Datum → Except JournalError (ContentId × List UInt8)
  objectFromBytes : List UInt8 → JournalObject
  contentId : Datum → Option ContentId

/-- Every object and datum of `st` is in `st'`. -/
structure StoredState.Le (st st' : StoredState) : Prop where
  objects : st.objects.get? k = some b → st'.objects.get? k = some b
  datums : st.datums.get? k = some d → st'.datums.get? k = some d

/-- The object is stored under its identity. -/
structure StoredState.Holds (st : StoredState) (o : JournalObject) : Prop where
  objects : st.objects.get? o.id = some o.bytes
  datums : st.datums.get? o.id = some o.datum

namespace JournalApi
variable {σ : Type} (api : JournalApi σ)

def newEntry (sequence : Nat) (previous : Option ContentId) (kind : Symbol)
    (payloads : List ContentId) : JournalEntry :=
  { id := api.entryId sequence previous kind payloads, sequence, previous, kind, payloads }

def objectFromDatum (value : Datum) : Except JournalError JournalObject := do
  let (id, bytes) ← api.datumObject value
  return { id, bytes, datum := value }

/-- A backend that stores what it accepts: publishing is a compare-and-set on the head that
appends the entries and stores the objects or changes nothing, storing a datum does not touch the
chain, and identities are those of the content. -/
structure Faithful : Prop where
  verify_head : api.verify s = .ok v →
    v.head = v.entries.getLast?.map fun e => ⟨e.sequence, e.id⟩
  publish_head : api.publish expected objects entries s = (.ok head, s') →
    api.verify s = .ok v → v.head = expected
  publish_verify : api.publish expected objects entries s = (.ok head, s') →
    api.verify s = .ok v → api.verify s' = .ok ⟨v.entries ++ entries, some head⟩
  publish_read : api.publish expected objects entries s = (.ok head, s') →
    api.readState s = .ok st →
      ∃ st', api.readState s' = .ok st' ∧ st.Le st' ∧ ∀ o ∈ objects, st'.Holds o
  publish_refused : api.publish expected objects entries s = (.error e, s') →
    api.verify s' = api.verify s ∧ api.readState s' = api.readState s
  put_verify : (api.put d s).2 = s' → api.verify s' = api.verify s
  put_read : (api.put d s).2 = s' → api.readState s = .ok st →
    ∃ st', api.readState s' = .ok st' ∧ st.Le st'
  datum_id : api.datumObject d = .ok (i, bytes) → api.contentId d = some i

/-- Identities that the codec gives back. -/
structure PlainIds : Prop where
  content : api.contentId d = some i → FitsId i
  entry : FitsId (api.entryId n previous kind payloads)

end JournalApi

structure ExecutionJournal where
  executionId : String
  limits : Limits
deriving DecidableEq

abbrev JournalEffect (σ α : Type) := Effect ExecutionJournalError σ α

def checkedAdd (a b : Nat) : Option Nat := if a + b < 2 ^ 64 then some (a + b) else none

def budgeted (n : Option Nat) : Except ExecutionJournalError Nat :=
  match n with
  | some n => .ok n
  | none => .error (.budget "execution")

def present (v : Option α) : Except ExecutionJournalError α :=
  match v with
  | some v => .ok v
  | none => .error .missingObject

def secretMarks : List String :=
  ["api_key=", "api-key:", "authorization: bearer ", "password=", "private key-----", "secret="]

/-- The marks are ASCII, so looking for them in the bytes is looking for them in the text that a
lossy decoding gives. -/
def containsSecret (bytes : List UInt8) : Bool :=
  secretMarks.any fun mark => Text.containsBytes (bytes.map Text.asciiLower) (Text.utf8 mark)

def boundedSummary (value : String) : String := .ofList (value.toList.take 240)

def contentIdText (id : ContentId) : String := id.algorithm.display ++ ":" ++ Text.hex id.bytes

/-! ## Reading -/

/-- The causal variables of the loop over entries. -/
structure CausalReplay where
  causal : CausalState
  snapshots : List VerifiedSnapshot
  evidenceSet : ContentId
deriving DecidableEq

/-- The variables of the loop over entries. -/
structure Replay where
  records : List ExecutionRecord
  pins : Option ExecutionPins
  total : Nat
  cause : CausalReplay
  retention : RetentionRoots
deriving DecidableEq

def Replay.init (emptySet : ContentId) : Replay where
  records := []
  pins := none
  total := 0
  cause := { causal := .default, snapshots := [], evidenceSet := emptySet }
  retention := ⟨∅, ∅⟩

section
variable {σ : Type} (api : JournalApi σ) (state : StoredState)

def replaySnapshot (c : CausalReplay) (previous : Option ContentId)
    (covers stateId evidenceSet : ContentId) : Except ExecutionJournalError CausalReplay :=
  if previous ≠ some covers ∨ evidenceSet ≠ c.evidenceSet then .error (.semantic "snapshot prefix")
  else do
    let value ← present (state.datums.get? stateId)
    let expected := causalStateDatum c.causal evidenceSet
    if value ≠ expected then .error (.semantic "snapshot state")
    else match api.contentId expected with
      | none => .error (.semantic "snapshot identity")
      | some id =>
        if id ≠ stateId then .error (.semantic "snapshot state")
        else .ok { c with snapshots := c.snapshots ++ [⟨covers, stateId, evidenceSet⟩] }

def replayDelta (c : CausalReplay) (sequence : Nat) (changes : List SemanticChange)
    (evidenceSet : ContentId) : Except ExecutionJournalError CausalReplay := do
  let (facts, changed) ← applyChanges c.causal.facts changes sequence
  let value ← present (state.datums.get? evidenceSet)
  let evidence ← parseEvidenceSet value
  if ¬c.causal.evidence ⊆ evidence then
    .error (.semantic "evidence set dropped a retained member")
  else if ¬changed ∧ evidence = c.causal.evidence then
    .error (.illegal sequence "carry-state semantic delta")
  else .ok { c with causal := ⟨facts, evidence⟩, evidenceSet }

/-- The causal effect of a record. -/
def replayCause (c : CausalReplay) (entry : JournalEntry) (record : ExecutionRecord) :
    Except ExecutionJournalError CausalReplay :=
  match record with
  | .semanticDelta _ changes evidenceSet =>
    replayDelta state c entry.sequence changes evidenceSet
  | .snapshot covers stateId evidenceSet =>
    replaySnapshot api state c entry.previous covers stateId evidenceSet
  | _ => .ok c

def addObject (total : Nat) (id : ContentId) : Except ExecutionJournalError Nat := do
  let bytes ← present (state.objects.get? id)
  budgeted (checkedAdd total bytes.length)

def openedPins (pins : Option ExecutionPins) : ExecutionRecord → Option ExecutionPins
  | .executionOpened opened _ => some opened
  | _ => pins

/-- One entry of the loop of `rebuild`. -/
def Replay.step (executionId : String) (r : Replay) (entry : JournalEntry) :
    Except ExecutionJournalError Replay :=
  match entry.payloads with
  | [] => .error (.illegal entry.sequence "foreign entry")
  | first :: rest =>
    if entry.kind.ns ≠ some "roadmap-execution" then
      .error (.illegal entry.sequence "foreign entry")
    else do
      let value ← present (state.datums.get? first)
      let bytes ← present (state.objects.get? first)
      let total ← budgeted (checkedAdd r.total bytes.length)
      let (execution, record) ← decodeDatum value
      if execution ≠ executionId then .error .executionIdentity
      else if recordRefs record ≠ SortedSet.ofList rest then .error .missingObject
      else do
        let total ← (recordRefs record).elems.foldlM (addObject state) total
        validateNext r.pins.isSome r.records record entry.sequence
        let cause ← replayCause api state r.cause entry record
        return {
          records := r.records ++ [record]
          pins := openedPins r.pins record
          total, cause
          retention := {
            entries := r.retention.entries.insert entry.id
            objects := r.retention.objects ∪ .ofList entry.payloads } }

end

namespace ExecutionJournal
variable {σ : Type} (api : JournalApi σ) (j : ExecutionJournal)

/-- The end of `rebuild`, after the loop over the entries. -/
def finish (head : JournalHead) (entries : List JournalEntry) (r : Replay) :
    Except ExecutionJournalError RebuiltExecution :=
  if r.total > j.limits.maxExecutionBytes then .error (.budget "execution")
  else match entries.head? with
    | none => .error .empty
    | some opening =>
      match r.pins with
      | none => .error .executionIdentity
      | some pins => .ok {
          executionId := j.executionId
          pins
          records := r.records
          openingHead := ⟨opening.sequence, opening.id⟩
          head
          totalBytes := r.total
          causal := r.cause.causal
          snapshots := r.cause.snapshots
          retention := r.retention }

def rebuild (s : σ) : Except ExecutionJournalError RebuiltExecution := do
  let state ← (api.readState s).mapError .journal
  let verification ← (api.verify s).mapError .journal
  match verification.head with
  | none => .error .empty
  | some head =>
    match api.contentId (evidenceSetDatum ∅) with
    | none => .error (.semantic "evidence set")
    | some emptySet => do
      let r ← verification.entries.foldlM (Replay.step api state j.executionId) (.init emptySet)
      finish j head verification.entries r

/-! ## Preparing objects -/

def prepareObject (kind : ObjectKind) (bytes : List UInt8) (summary : String) :
    Except ExecutionJournalError PreparedObject :=
  if bytes.length > j.limits.maxObjectBytes then .error (.budget "object")
  else if kind = .processOutput ∧ bytes.length > j.limits.maxStreamBytes then
    .error (.budget "stream")
  else if containsSecret bytes || containsSecret (Text.utf8 summary) then .error .secret
  else
    let object := api.objectFromBytes bytes
    .ok {
      reference := {
        kind
        content := object.id
        bytes := UInt64.ofNat object.bytes.length
        summary := boundedSummary summary }
      object }

def prepareDatum (kind : ObjectKind) (value : Datum) (summary : String) :
    JournalEffect σ PreparedObject := do
  let object ← .ofExcept ((api.objectFromDatum value).mapError .journal)
  if object.bytes.length > j.limits.maxObjectBytes then .fail (.budget "object") else
  let stored ← .mapError .journal (api.put value)
  if stored ≠ object.id then .fail .missingObject else
  return {
    reference := {
      kind
      content := object.id
      bytes := UInt64.ofNat object.bytes.length
      summary := boundedSummary summary }
    object }

/-! ## Writing -/

/-- What is read before an append; an empty journal has no state yet. -/
def current (s : σ) : Except ExecutionJournalError (Option RebuiltExecution) :=
  match rebuild api j s with
  | .ok state => .ok (some state)
  | .error .empty => .ok none
  | .error e => .error e

def objectMatches (referenced : SortedSet ContentId) (o : PreparedObject) : Prop :=
  o.reference.content ∈ referenced ∧ o.reference.content = o.object.id ∧
    o.reference.bytes = UInt64.ofNat o.object.bytes.length

instance (referenced : SortedSet ContentId) (o : PreparedObject) :
    Decidable (objectMatches referenced o) := inferInstanceAs (Decidable (_ ∧ _ ∧ _))

/-- The checks of an append, and the objects and the entry it publishes. -/
def admitRecord (expected : Option JournalHead) (record : ExecutionRecord)
    (objects : List PreparedObject) (s : σ) :
    Except ExecutionJournalError (List JournalObject × JournalEntry) := do
  let current ← current api j s
  let records := (current.map (·.records)).getD []
  validateNext (!records.isEmpty) records record records.length
  let recordObject ← (api.objectFromDatum (encodeDatum j.executionId record)).mapError .journal
  if recordObject.bytes.length > j.limits.maxRecordBytes then .error (.budget "record") else
  let before := (current.map (·.totalBytes)).getD 0
  let added ← budgeted
    (checkedAdd recordObject.bytes.length (objects.map (·.object.bytes.length)).sum)
  let total ← budgeted (checkedAdd before added)
  if total > j.limits.maxExecutionBytes then .error (.budget "execution") else
  let referenced := recordRefs record
  let supplied := SortedSet.ofList (objects.map (·.reference.content))
  let retained := (current.map (·.retention.objects)).getD ∅
  if ¬referenced ⊆ supplied ∪ retained then .error .missingObject
  else if ¬∀ o ∈ objects, objectMatches referenced o then .error .missingObject
  else
    let sequence := (expected.map (·.sequence + 1)).getD 0
    let payloads := recordObject.id :: objects.map (·.object.id)
    return (recordObject :: objects.map (·.object),
      api.newEntry sequence (expected.map (·.entry)) (.qualified "roadmap-execution" record.tag)
        payloads)

def append (expected : Option JournalHead) (record : ExecutionRecord)
    (objects : List PreparedObject) : JournalEffect σ JournalHead := do
  let (admitted, entry) ← .observe (admitRecord api j expected record objects)
  .mapError .journal (api.publish expected admitted [entry])

def appendDelta (expected : JournalHead) (cause : String) (changes : List SemanticChange)
    (evidence : SortedSet ContentId) : JournalEffect σ DeltaAppend := do
  if cause.isEmpty then
    .fail (.illegal (expected.sequence + 1) "semantic delta cause is empty") else
  let current ← .observe (rebuild api j)
  if current.head ≠ expected then .fail (.journal .wrongHead) else
  let (_, changed) ←
    .ofExcept (applyChanges current.causal.facts changes (expected.sequence + 1))
  let prospective := current.causal.evidence ∪ evidence
  if !changed ∧ prospective.card = current.causal.evidence.card then
    return .unchanged current.head else
  let evidenceObject ←
    prepareDatum api j .evidenceSet (evidenceSetDatum prospective) "persistent evidence set root"
  let head ← append api j (some expected)
    (.semanticDelta cause changes evidenceObject.reference.content) [evidenceObject]
  return .appended head

def rootOf (evidence : SortedSet ContentId) : Except ExecutionJournalError ContentId :=
  match api.contentId (evidenceSetDatum evidence) with
  | some root => .ok root
  | none => .error (.semantic "evidence set")

def snapshot (expected : JournalHead) : JournalEffect σ VerifiedSnapshot := do
  let current ← .observe (rebuild api j)
  if current.head ≠ expected then .fail (.journal .wrongHead) else
  let evidenceSet ← .ofExcept (rootOf api current.causal.evidence)
  let snapshotObject ← prepareDatum api j .snapshot
    (causalStateDatum current.causal evidenceSet) "verified causal snapshot"
  let state := snapshotObject.reference.content
  let _ ← append api j (some expected) (.snapshot expected.entry state evidenceSet)
    [snapshotObject]
  return ⟨expected.entry, state, evidenceSet⟩

def childIdentity (parent : String) (pins : ExecutionPins) : Datum :=
  .node (.qualified "roadmap-runner" "ChildExecutionIdentityV2") [
    (.new "parent", .string parent),
    (.new "conduct", .string pins.conduct),
    (.new "policy", .string pins.policy),
    (.new "model-pick", .string pins.modelPick),
    (.new "runner-generation", .string pins.runnerGeneration),
    (.new "source-deck", .node (.qualified "core" "ContentId") [
      (.new "algorithm", .symbol pins.sourceDeck.algorithm),
      (.new "bytes", .bytes pins.sourceDeck.bytes)])]

/-- The name of the child execution; the identity has a fixed shape that always has an id. -/
def childId (parent : String) (pins : ExecutionPins) : String :=
  parent ++ "-child-" ++ ((api.contentId (childIdentity parent pins)).map contentIdText).getD ""

def «open» (pins : ExecutionPins) (expected : Option JournalHead) :
    JournalEffect σ RebuiltExecution := do
  match ← .observe fun s => .ok (rebuild api j s) with
  | .error .empty =>
    let _ ← append api j expected (.executionOpened pins none) []
    .observe (rebuild api j)
  | .ok existing =>
    if existing.pins = pins then return existing
    else .fail (.childRequired (childId api j.executionId pins))
  | .error e => .fail e

end ExecutionJournal

end SimAgentNet.RoadmapRunner
