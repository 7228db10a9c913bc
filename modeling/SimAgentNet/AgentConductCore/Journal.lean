import SimAgentNet.Data.Wire
import SimAgentNet.Kernel.Expr

/-! # The agent journal

Hash-linked records of an agent run: the canonical text of an expression, the bytes that a record's
hash is taken of, and the journal that accepts records in order. The hash function over bytes and
the printed names of the kernel's quote modes are parameters. -/

namespace SimAgentNet.AgentConductCore
variable {Mode : Type}

/-! ## Canonical text -/

section
variable (debug : Mode → String)

/-- A tag, the number of parts and the parts. -/
def sequence (tag : String) (values : List String) : String :=
  tag ++ toString values.length ++ ":" ++ String.join values

/-- Texts in their order as texts. -/
def sortRows (rows : List String) : List String := rows.insertionSort (· ≤ ·)

mutual
def canonicalExpr : Expr Mode → String
  | .nil => "n"
  | .bool v => "b" ++ toString v
  | .number v => "d" ++ v.domain.display ++ ":" ++ v.canonical
  | .symbol v => "y" ++ v.display
  | .local v => "o" ++ v.display
  | .string v => "s" ++ toString v.utf8ByteSize ++ ":" ++ v
  | .bytes v => "x" ++ Text.hex v
  | .list vs => sequence "l" (canonicalExprs vs)
  | .vector vs => sequence "v" (canonicalExprs vs)
  | .map vs => sequence "m" (sortRows (canonicalRows vs))
  | .set vs => sequence "e" (sortRows (canonicalExprs vs))
  | .call operator args => "c" ++ canonicalExpr operator ++ sequence "a" (canonicalExprs args)
  | .infixOp operator left right =>
    "i" ++ operator.display ++ canonicalExpr left ++ canonicalExpr right
  | .prefixOp operator arg => "p" ++ operator.display ++ canonicalExpr arg
  | .postfixOp operator arg => "f" ++ operator.display ++ canonicalExpr arg
  | .block vs => sequence "k" (canonicalExprs vs)
  | .quote mode expr => "q" ++ debug mode ++ canonicalExpr expr
  | .annotated expr annotations =>
    "a" ++ canonicalExpr expr ++ String.join (sortRows (canonicalAnnotations annotations))
  | .extension tag payload => "z" ++ tag.display ++ canonicalExpr payload
termination_by structural e => e

def canonicalExprs : List (Expr Mode) → List String
  | [] => []
  | v :: vs => canonicalExpr v :: canonicalExprs vs
termination_by structural vs => vs

/-- The rows of a map. -/
def canonicalRows : List (Expr Mode × Expr Mode) → List String
  | [] => []
  | (k, v) :: vs => (canonicalExpr k ++ "=" ++ canonicalExpr v) :: canonicalRows vs
termination_by structural vs => vs

def canonicalAnnotations : List (Symbol × Expr Mode) → List String
  | [] => []
  | (k, v) :: vs => (k.display ++ "=" ++ canonicalExpr v) :: canonicalAnnotations vs
termination_by structural vs => vs
end

end

/-! ## Records -/

structure AgentJournalRecord (Mode : Type) where
  sequence : Nat
  priorHash : Option String
  graphFingerprint : String
  bindingFingerprint : String
  event : Expr Mode
  frame : Expr Mode
  usage : Expr Mode
  effectReceipts : List (Expr Mode)
  continuation : Expr Mode
  hash : String
deriving DecidableEq

def field (value : String) : List UInt8 :=
  BigEndian.bytes 8 value.utf8ByteSize ++ Text.utf8 value

section
variable (debug : Mode → String) (digestHex : List UInt8 → String)

def exprField (value : Expr Mode) : List UInt8 := field (canonicalExpr debug value)

/-- The bytes that the hash of a record is taken of. -/
def hashedBytes (record : AgentJournalRecord Mode) : List UInt8 :=
  field (record.priorHash.getD "") ++ BigEndian.bytes 8 record.sequence ++
    field record.graphFingerprint ++ field record.bindingFingerprint ++
    exprField debug record.event ++ exprField debug record.frame ++ exprField debug record.usage ++
    BigEndian.bytes 8 record.effectReceipts.length ++
    record.effectReceipts.flatMap (exprField debug) ++ exprField debug record.continuation

def recordHash (record : AgentJournalRecord Mode) : String :=
  "sha256:" ++ digestHex (hashedBytes debug record)

end

/-! ## The journal -/

inductive JournalError where
  | fingerprint (sequence : Nat)
  | sequence (expected actual : Nat)
  | priorHash (sequence : Nat)
  | hash (sequence : Nat)
  | divergentDuplicate (sequence : Nat)
  | encode (message : String)
deriving DecidableEq

structure AgentJournal (Mode : Type) where
  graphFingerprint : String
  bindingFingerprint : String
  records : List (AgentJournalRecord Mode)
deriving DecidableEq

namespace AgentJournal

def new (graphFingerprint bindingFingerprint : String) : AgentJournal Mode :=
  { graphFingerprint, bindingFingerprint, records := [] }

variable [DecidableEq Mode] (debug : Mode → String) (digestHex : List UInt8 → String)

/-- Accepts an identical duplicate and the next record of the chain. -/
def insert (journal : AgentJournal Mode) (record : AgentJournalRecord Mode) :
    Except JournalError (AgentJournal Mode) :=
  match journal.records[record.sequence]? with
  | some existing =>
    if existing = record then .ok journal else .error (.divergentDuplicate record.sequence)
  | none =>
    if record.sequence ≠ journal.records.length then
      .error (.sequence journal.records.length record.sequence)
    else if record.priorHash ≠ journal.records.getLast?.map (·.hash) then
      .error (.priorHash record.sequence)
    else if record.hash ≠ recordHash debug digestHex record then .error (.hash record.sequence)
    else .ok { journal with records := journal.records ++ [record] }

/-- A journal loaded from stored records. -/
def fromRecords (graphFingerprint bindingFingerprint : String)
    (records : List (AgentJournalRecord Mode)) : Except JournalError (AgentJournal Mode) :=
  records.foldlM (fun journal record =>
    if record.graphFingerprint ≠ journal.graphFingerprint ∨
        record.bindingFingerprint ≠ journal.bindingFingerprint then
      .error (.fingerprint record.sequence)
    else journal.insert debug digestHex record) (new graphFingerprint bindingFingerprint)

/-- Appends a record of an event, a frame and a usage, each given by its encoding. -/
def append (journal : AgentJournal Mode) (event frame usage : Except String (Expr Mode))
    (effectReceipts : List (Expr Mode)) (continuation : Expr Mode) :
    Except JournalError (AgentJournal Mode) := do
  let event ← event.mapError .encode
  let frame ← frame.mapError .encode
  let usage ← usage.mapError .encode
  let record : AgentJournalRecord Mode :=
    { sequence := journal.records.length
      priorHash := journal.records.getLast?.map (·.hash)
      graphFingerprint := journal.graphFingerprint
      bindingFingerprint := journal.bindingFingerprint
      event, frame, usage, effectReceipts, continuation, hash := "" }
  journal.insert debug digestHex { record with hash := recordHash debug digestHex record }

def verify (journal : AgentJournal Mode) : Except JournalError Unit := do
  let _ ← journal.records.foldlM (insert debug digestHex)
    (new journal.graphFingerprint journal.bindingFingerprint)

end AgentJournal

end SimAgentNet.AgentConductCore
