import SimAgentNet.RoadmapRunner.Model

/-! # The record law

Which objects a record references and which record may follow a history. `validateNext_ok_iff`
puts the sequence of checks in one proposition, `Follows`. -/

namespace SimAgentNet.RoadmapRunner

def refsOf (v : Option ObjectRef) : SortedSet ContentId :=
  match v with
  | some v => (∅ : SortedSet ContentId).insert v.content
  | none => ∅

def recordRefs : ExecutionRecord → SortedSet ContentId
  | .effectRequested _ _ input => refsOf input
  | .effectReceipt _ _ output => refsOf output
  | .proofResult _ _ evidence => refsOf evidence
  | .semanticDelta _ _ evidenceSet => (∅ : SortedSet ContentId).insert evidenceSet
  | .snapshot _ state _ => (∅ : SortedSet ContentId).insert state
  | _ => ∅

namespace ExecutionRecord

def isOpened : ExecutionRecord → Bool
  | .executionOpened .. => true
  | _ => false

def isTerminal : ExecutionRecord → Bool
  | .terminalReceipt .. => true
  | _ => false

def requests (effectId : String) : ExecutionRecord → Bool
  | .effectRequested id _ _ => id == effectId
  | _ => false

def receives (effectId : String) : ExecutionRecord → Bool
  | .effectReceipt id _ _ => id == effectId
  | _ => false

def target? : ExecutionRecord → Option String
  | .stateTransition _ target => some target
  | _ => none

end ExecutionRecord

/-- The state the last transition of a history entered. -/
def currentState (records : List ExecutionRecord) : String :=
  (records.reverse.findSome? ExecutionRecord.target?).getD "planned"

def allowedTransition (source target : String) : Bool :=
  match source, target with
  | "planned", "running" => true
  | "running", "reconciling" => true
  | "running", "failed" => true
  | "reconciling", "succeeded" => true
  | "reconciling", "failed" => true
  | _, _ => false

/-- Whether some key occurs twice. -/
def repeatsKey (changes : List SemanticChange) : Bool := !(changes.map (·.key)).Nodup

def validateNext (opened : Bool) (records : List ExecutionRecord) (record : ExecutionRecord)
    (sequence : Nat) : Except ExecutionJournalError Unit :=
  if !opened then
    if record.isOpened then .ok () else .error (.illegal sequence "genesis must open execution")
  else if record.isOpened then .error (.illegal sequence "execution may only open once")
  else if records.getLast?.any (·.isTerminal) then
    .error (.illegal sequence "terminal execution is sealed")
  else
    match record with
    | .effectReceipt effectId _ _ =>
      if !records.any (·.requests effectId) || records.any (·.receives effectId) then
        .error (.illegal sequence "receipt must match one unresolved request")
      else .ok ()
    | .stateTransition source target =>
      if currentState records ≠ source || !allowedTransition source target then
        .error (.illegal sequence "invalid state transition")
      else .ok ()
    | .semanticDelta cause changes _ =>
      if cause.isEmpty then
        .error (.illegal sequence "semantic delta must contain a cause")
      else if repeatsKey changes then
        .error (.illegal sequence "semantic delta repeats a key")
      else .ok ()
    | _ => .ok ()

/-- What the law asks of a record by its own kind, given the history. -/
def ExecutionRecord.Admissible (records : List ExecutionRecord) : ExecutionRecord → Prop
  | .executionOpened .. => False
  | .effectReceipt effectId _ _ =>
    (∃ r ∈ records, r.requests effectId) ∧ ∀ r ∈ records, ¬r.receives effectId
  | .stateTransition source target =>
    currentState records = source ∧ allowedTransition source target
  | .semanticDelta cause changes _ => cause ≠ "" ∧ (changes.map (·.key)).Nodup
  | _ => True

/-- The record law: the genesis opens, and every later record is admissible in a history that is
not sealed. -/
def Follows (opened : Bool) (records : List ExecutionRecord) (record : ExecutionRecord) : Prop :=
  if opened then
    (∀ r ∈ records.getLast?, ¬r.isTerminal) ∧ record.Admissible records
  else record.isOpened

theorem validateNext_ok_iff :
    validateNext opened records record n = .ok () ↔ Follows opened records record := by
  unfold validateNext Follows
  cases opened with
  | false => cases record <;> simp [ExecutionRecord.isOpened]
  | true =>
    simp only [Bool.not_true, Bool.false_eq_true, ↓reduceIte, Except.guard_eq_ok_iff]
    have hsealed : records.getLast?.any (·.isTerminal) ≠ true ↔
        ∀ r ∈ records.getLast?, ¬r.isTerminal := by
      cases records.getLast? <;> simp
    rw [← hsealed]
    cases record <;>
      simp [ExecutionRecord.isOpened, ExecutionRecord.Admissible, Except.guard_eq_ok_iff,
        repeatsKey]

/-- The check does not depend on the sequence number, which only labels its error. -/
theorem validateNext_ok_congr (h : validateNext opened records record n = .ok ()) (m : Nat) :
    validateNext opened records record m = .ok () :=
  validateNext_ok_iff.mpr (validateNext_ok_iff.mp h)

theorem Follows.isOpened_eq (h : Follows opened records record) :
    record.isOpened = !opened := by
  cases opened with
  | false => simpa [Follows] using h
  | true =>
    obtain ⟨-, h⟩ := (by simpa [Follows] using h :
      (∀ r ∈ records.getLast?, ¬r.isTerminal) ∧ record.Admissible records)
    cases record with
    | executionOpened => exact h.elim
    | _ => rfl

/-- The tag tells whether a record is a state transition. -/
theorem target?_eq_none_of_tag {r r' : ExecutionRecord} (ht : r'.tag = r.tag)
    (h : r.target? = none) : r'.target? = none := by
  cases r' with
  | stateTransition source target =>
    cases r with
    | stateTransition => cases h
    | _ => simp [ExecutionRecord.tag] at ht
  | _ => rfl

theorem currentState_append_of_target {r : ExecutionRecord} (h : r.target? = some t) :
    currentState (records ++ [r]) = t := by
  simp [currentState, h]

theorem currentState_append_of_none {r : ExecutionRecord} (h : r.target? = none) :
    currentState (records ++ [r]) = currentState records := by
  simp [currentState, h]

end SimAgentNet.RoadmapRunner
