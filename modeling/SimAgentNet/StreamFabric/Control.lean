import SimAgentNet.Data.Number
import SimAgentNet.Data.Run
import SimAgentNet.Kernel.Expr

/-! # Control messages of remote streams

A control message travels as a data packet: the operation is the kind of the packet, the payload a
map of fields. The codecs of packets, envelopes, metadata and faults are parameters, and so is the
width `w` of `usize`. -/

namespace SimAgentNet.StreamFabric

inductive Error where
  | typeMismatch (expected found : String)
  | eval (message : String)
  | other (text : String)
deriving DecidableEq

/-- A packet of a stream: data, or what the control plane does not read. -/
inductive StreamPacket (Mode Other : Type) where
  | data (kind : Symbol) (payload : Expr Mode)
  | other (packet : Other)

/-- What the messages use of the stream core, and the required symbol field of a map. -/
structure StreamCore (Mode Other Metadata Envelope FaultKind FaultSpec : Type) (w : Nat) where
  packetToExpr : StreamPacket Mode Other → Expr Mode
  packetOfExpr : Expr Mode → Except Error (StreamPacket Mode Other)
  tableExpr : Metadata → Expr Mode
  fromTableExpr : Expr Mode → Except Error Metadata
  envelopeToExpr : Envelope → Expr Mode
  envelopeOfExpr : Expr Mode → Except Error Envelope
  faultSymbol : FaultKind → Symbol
  faultOfSymbol : Symbol → Except Error FaultKind
  faultSpec : FaultKind → BitVec w → FaultSpec
  faultKind : FaultSpec → FaultKind
  faultCount : FaultSpec → BitVec w
  entryRequiredSym : List (Expr Mode × Expr Mode) → String → String → Except Error Symbol
  exprKind : Expr Mode → String

inductive StreamControl (Metadata Envelope FaultSpec : Type) where
  | «open» (streamId : Symbol) (metadata : Metadata)
  | next (streamId : Symbol) (limit : Option (BitVec 64))
  | push (streamId : Symbol) (envelope : Envelope)
  | close (streamId : Symbol)
  | cancel (streamId : Symbol)
  | stats (streamId : Symbol)
  | metadata (streamId : Symbol)
  | fault (streamId : Symbol) (fault : FaultSpec)
deriving DecidableEq

namespace StreamControl

def openSymbol : Symbol := .qualified "stream/fabric" "open"
def nextSymbol : Symbol := .qualified "stream/fabric" "next"
def pushSymbol : Symbol := .qualified "stream/fabric" "push"
def closeSymbol : Symbol := .qualified "stream/fabric" "close"
def cancelSymbol : Symbol := .qualified "stream/fabric" "cancel"
def statsSymbol : Symbol := .qualified "stream/fabric" "stats"
def metadataSymbol : Symbol := .qualified "stream/fabric" "metadata"
def faultSymbol : Symbol := .qualified "stream/fabric" "fault"
def tagSymbol : Symbol := .qualified "stream/fabric-control" "v1"

section
variable {Mode Other Metadata Envelope FaultKind FaultSpec : Type} {w : Nat}
  (core : StreamCore Mode Other Metadata Envelope FaultKind FaultSpec w)

def operation : StreamControl Metadata Envelope FaultSpec → Symbol
  | .open _ _ => openSymbol
  | .next _ _ => nextSymbol
  | .push _ _ => pushSymbol
  | .close _ => closeSymbol
  | .cancel _ => cancelSymbol
  | .stats _ => statsSymbol
  | .metadata _ => metadataSymbol
  | .fault _ _ => faultSymbol

def streamId : StreamControl Metadata Envelope FaultSpec → Symbol
  | .open streamId _ | .next streamId _ | .push streamId _ | .close streamId | .cancel streamId
  | .stats streamId | .metadata streamId | .fault streamId _ => streamId

/-! ## Writing -/

/-- The fields after the tag and the stream. -/
def ownFields : StreamControl Metadata Envelope FaultSpec → List (Expr Mode × Expr Mode)
  | .open _ table => [Expr.entry "metadata" (core.tableExpr table)]
  | .next _ limit =>
    [Expr.entry "limit" ((limit.map fun limit => .string (toString limit.toNat)).getD .nil)]
  | .push _ envelope => [Expr.entry "envelope" (core.envelopeToExpr envelope)]
  | .close _ | .cancel _ | .stats _ | .metadata _ => []
  | .fault _ spec =>
    [Expr.entry "fault" (.symbol (core.faultSymbol (core.faultKind spec))),
      Expr.entry "count" (.string (toString (core.faultCount spec).toNat))]

def payloadExpr (control : StreamControl Metadata Envelope FaultSpec) : Expr Mode :=
  .map (Expr.entry "control" (.symbol tagSymbol) :: Expr.entry "stream-id" (.symbol control.streamId) ::
    control.ownFields core)

def toExpr (control : StreamControl Metadata Envelope FaultSpec) : Expr Mode :=
  core.packetToExpr (.data control.operation (control.payloadExpr core))

/-! ## Reading -/

def mapEntries : Expr Mode → Except Error (List (Expr Mode × Expr Mode))
  | .map entries => .ok entries
  | other => .error (.typeMismatch "stream fabric control map" (core.exprKind other))

/-- Why a text is no unsigned number below the bound. -/
def parseIntError (bound : Nat) (text : List Char) : String :=
  if text = [] then "cannot parse integer from empty string"
  else if bound ≤ Nat.ofDigitChars 10 ((Number.unsigned text).takeWhile Char.isDigit) 0 then
    "number too large to fit in target type"
  else "invalid digit found in string"

def readU64 (what value : String) : Except Error (BitVec 64) :=
  match Number.parse (2 ^ 64) value.toList with
  | some n => .ok (.ofNat 64 n)
  | none => .error (.eval ("invalid stream fabric control " ++ what ++ ": " ++
      parseIntError (2 ^ 64) value.toList))

def optionalU64 : Expr Mode → Except Error (Option (BitVec 64))
  | .nil => .ok none
  | .string value => (readU64 "limit" value).map some
  | other => .error (.typeMismatch "optional u64 string" (core.exprKind other))

def parseU64 : Expr Mode → Except Error (BitVec 64)
  | .string value => readU64 "count" value
  | other => .error (.typeMismatch "u64 string" (core.exprKind other))

def symbolField (entries : List (Expr Mode × Expr Mode)) (name : String) : Except Error Symbol :=
  core.entryRequiredSym entries name "symbol field"

/-- The value of the first field of a bare name. -/
def field (entries : List (Expr Mode × Expr Mode)) (name : String) : Except Error (Expr Mode) :=
  match entries.find? fun (key, _) =>
      match key with
      | .symbol symbol => symbol = .new name
      | _ => false with
  | some (_, value) => .ok value
  | none => .error (.eval ("stream fabric control missing " ++ name ++ " field"))

def ensureFields (allowed : List String) : List (Expr Mode × Expr Mode) → Except Error Unit
  | [] => .ok ()
  | (.symbol symbol, _) :: entries =>
    if symbol.ns = none ∧ symbol.name ∈ allowed then ensureFields allowed entries
    else .error (.eval ("unknown stream fabric control field " ++ symbol.display))
  | (key, _) :: _ =>
    .error (.typeMismatch "symbol stream fabric control field" (core.exprKind key))

/-- The message of an operation, from the fields of its payload. -/
def readOwn (entries : List (Expr Mode × Expr Mode)) (streamId : Symbol) (operation : String) :
    Except Error (StreamControl Metadata Envelope FaultSpec) :=
  if operation = "stream/fabric/open" then do
    ensureFields core ["control", "stream-id", "metadata"] entries
    return .open streamId (← core.fromTableExpr (← field entries "metadata"))
  else if operation = "stream/fabric/next" then do
    ensureFields core ["control", "stream-id", "limit"] entries
    return .next streamId (← optionalU64 core (← field entries "limit"))
  else if operation = "stream/fabric/push" then do
    ensureFields core ["control", "stream-id", "envelope"] entries
    return .push streamId (← core.envelopeOfExpr (← field entries "envelope"))
  else if operation = "stream/fabric/close" then do
    ensureFields core ["control", "stream-id"] entries
    return .close streamId
  else if operation = "stream/fabric/cancel" then do
    ensureFields core ["control", "stream-id"] entries
    return .cancel streamId
  else if operation = "stream/fabric/stats" then do
    ensureFields core ["control", "stream-id"] entries
    return .stats streamId
  else if operation = "stream/fabric/metadata" then do
    ensureFields core ["control", "stream-id"] entries
    return .metadata streamId
  else if operation = "stream/fabric/fault" then do
    ensureFields core ["control", "stream-id", "fault", "count"] entries
    let kind ← core.faultOfSymbol (← symbolField core entries "fault")
    let count ← parseU64 core (← field entries "count")
    return .fault streamId (core.faultSpec kind (count.setWidth w))
  else .error (.eval ("unknown stream fabric control operation " ++ operation))

def tryFrom (expr : Expr Mode) : Except Error (StreamControl Metadata Envelope FaultSpec) := do
  match ← core.packetOfExpr expr with
  | .other _ => .error (.typeMismatch "stream fabric control data packet" "stream packet")
  | .data kind payload =>
    let entries ← mapEntries core payload
    let tag ← symbolField core entries "control"
    if tag ≠ tagSymbol then
      .error (.eval ("unknown stream fabric control tag " ++ tag.display))
    else do
      let streamId ← symbolField core entries "stream-id"
      readOwn core entries streamId kind.display

/-! ## What is written is read back -/

theorem readU64_toString {n : Nat} (what : String) (h : n < 2 ^ 64) :
    readU64 what (toString n) = .ok (.ofNat 64 n) := by
  rw [readU64, Number.parse_toString h]

theorem optionalU64_limit (limit : Option (BitVec 64)) :
    optionalU64 core ((limit.map fun limit => .string (toString limit.toNat)).getD .nil) =
      .ok limit := by
  cases limit with
  | none => rfl
  | some limit =>
    rw [Option.map_some, Option.getD_some, optionalU64, readU64_toString _ limit.isLt,
      BitVec.ofNat_toNat, BitVec.setWidth_eq]
    rfl

theorem parseU64_count (hw : w ≤ 64) (count : BitVec w) :
    parseU64 core (.string (toString count.toNat)) = .ok (count.setWidth 64) := by
  have hlt : count.toNat < 2 ^ 64 :=
    count.isLt.trans_le (Nat.pow_le_pow_right (by decide) hw)
  rw [parseU64, readU64_toString _ hlt, BitVec.ofNat_toNat]

theorem field_entry (before after : List (Expr Mode × Expr Mode)) {name : String}
    (value : Expr Mode)
    (h : ∀ e ∈ before, ∃ other, other ≠ name ∧ e.1 = .symbol (.new other)) :
    field (before ++ Expr.entry name value :: after) name = .ok value := by
  induction before with
  | nil => simp [field, Expr.entry]
  | cons e before ih =>
    obtain ⟨key, first⟩ := e
    obtain ⟨other, hne, hkey⟩ := h (key, first) List.mem_cons_self
    have hrest := ih fun e he => h e (List.mem_cons_of_mem _ he)
    simp only at hkey
    subst hkey
    simp only [field, List.cons_append, Symbol.new] at hrest ⊢
    rw [List.find?_cons_of_neg (by simpa using hne)]
    exact hrest

end

end StreamControl

/-- The codecs of packets, envelopes, metadata and fault kinds read back what they write, a fault
is made of its kind and count, and the required symbol is that of the first field of its name. -/
structure StreamCore.Inverse
    (core : StreamCore Mode Other Metadata Envelope FaultKind FaultSpec w) : Prop where
  packet : ∀ packet, core.packetOfExpr (core.packetToExpr packet) = .ok packet
  metadata : ∀ metadata, core.fromTableExpr (core.tableExpr metadata) = .ok metadata
  envelope : ∀ envelope, core.envelopeOfExpr (core.envelopeToExpr envelope) = .ok envelope
  faultKind : ∀ kind, core.faultOfSymbol (core.faultSymbol kind) = .ok kind
  faultSpec : ∀ fault, core.faultSpec (core.faultKind fault) (core.faultCount fault) = fault
  requiredSym : ∀ before symbol after name what,
    (∀ e ∈ before, ∃ other, other ≠ name ∧ Prod.fst e = Expr.symbol (.new other)) →
      core.entryRequiredSym (before ++ Expr.entry name (.symbol symbol) :: after) name what =
        .ok symbol

namespace StreamControl

section
variable {Mode Other Metadata Envelope FaultKind FaultSpec : Type} {w : Nat}
  {core : StreamCore Mode Other Metadata Envelope FaultKind FaultSpec w}

theorem symbolField_entry (hcore : core.Inverse) (before after : List (Expr Mode × Expr Mode))
    {name : String} (symbol : Symbol)
    (h : ∀ e ∈ before, ∃ other, other ≠ name ∧ e.1 = .symbol (.new other)) :
    symbolField core (before ++ Expr.entry name (.symbol symbol) :: after) name = .ok symbol :=
  hcore.requiredSym before symbol after name "symbol field" h

/-- The tag and the stream, which come first in every payload. -/
def heading (streamId : Symbol) : List (Expr Mode × Expr Mode) :=
  [Expr.entry "control" (.symbol tagSymbol), Expr.entry "stream-id" (.symbol streamId)]

theorem heading_bare (streamId : Symbol) {name : String} (hcontrol : name ≠ "control")
    (hstream : name ≠ "stream-id") : ∀ e ∈ (heading streamId : List (Expr Mode × Expr Mode)),
      ∃ other, other ≠ name ∧ e.1 = .symbol (.new other) := by
  intro e he
  rcases List.mem_cons.mp he with rfl | he
  · exact ⟨"control", hcontrol.symm, rfl⟩
  · cases List.mem_singleton.mp he
    exact ⟨"stream-id", hstream.symm, rfl⟩

/-- The own fields of a message are read back, after the tag and the stream. -/
theorem readOwn_ownFields (hw : w ≤ 64) (hcore : core.Inverse)
    (control : StreamControl Metadata Envelope FaultSpec) :
    readOwn core (heading control.streamId ++ control.ownFields core) control.streamId
      control.operation.display = .ok control := by
  have hnone : ensureFields core ["control", "stream-id"] (heading control.streamId ++ []) =
      .ok () := rfl
  have hone (name : String) (value : Expr Mode) :
      ensureFields core ["control", "stream-id", name]
        (heading control.streamId ++ [Expr.entry name value]) = .ok () := by
    simp [ensureFields, heading, Expr.entry, Symbol.new]
  have hfirst (name : String) (value : Expr Mode) (after : List (Expr Mode × Expr Mode))
      (hcontrol : name ≠ "control") (hstream : name ≠ "stream-id") :
      field (heading control.streamId ++ Expr.entry name value :: after) name = .ok value :=
    field_entry _ after value (heading_bare _ hcontrol hstream)
  cases control with
  | «open» streamId metadata =>
    have hop : (Symbol.qualified "stream/fabric" "open").display =
      "stream/fabric/open" := rfl
    have hvalue := hfirst "metadata" (core.tableExpr metadata) [] (by simp) (by simp)
    simp only [readOwn, operation, openSymbol, hop, String.reduceEq, if_false, if_true]
    rw [ownFields, hone, hvalue, Except.ok_bind, Except.ok_bind, hcore.metadata]
    rfl
  | next streamId limit =>
    have hop : (Symbol.qualified "stream/fabric" "next").display =
      "stream/fabric/next" := rfl
    have hvalue := hfirst "limit" ((limit.map fun limit => .string (toString limit.toNat)).getD .nil) [] (by simp) (by simp)
    simp only [readOwn, operation, nextSymbol, hop, String.reduceEq, if_false, if_true]
    rw [ownFields, hone, hvalue, Except.ok_bind, Except.ok_bind, optionalU64_limit]
    rfl
  | push streamId envelope =>
    have hop : (Symbol.qualified "stream/fabric" "push").display =
      "stream/fabric/push" := rfl
    have hvalue := hfirst "envelope" (core.envelopeToExpr envelope) [] (by simp) (by simp)
    simp only [readOwn, operation, pushSymbol, hop, String.reduceEq, if_false, if_true]
    rw [ownFields, hone, hvalue, Except.ok_bind, Except.ok_bind, hcore.envelope]
    rfl
  | close streamId =>
    have hop : (Symbol.qualified "stream/fabric" "close").display = "stream/fabric/close" := rfl
    simp only [readOwn, operation, closeSymbol, hop, String.reduceEq, if_false, if_true]
    rw [ownFields, hnone]
    rfl
  | cancel streamId =>
    have hop : (Symbol.qualified "stream/fabric" "cancel").display = "stream/fabric/cancel" := rfl
    simp only [readOwn, operation, cancelSymbol, hop, String.reduceEq, if_false, if_true]
    rw [ownFields, hnone]
    rfl
  | stats streamId =>
    have hop : (Symbol.qualified "stream/fabric" "stats").display = "stream/fabric/stats" := rfl
    simp only [readOwn, operation, statsSymbol, hop, String.reduceEq, if_false, if_true]
    rw [ownFields, hnone]
    rfl
  | metadata streamId =>
    have hop : (Symbol.qualified "stream/fabric" "metadata").display = "stream/fabric/metadata" := rfl
    simp only [readOwn, operation, metadataSymbol, hop, String.reduceEq, if_false, if_true]
    rw [ownFields, hnone]
    rfl
  | fault streamId spec =>
    have hop : (Symbol.qualified "stream/fabric" "fault").display = "stream/fabric/fault" := rfl
    let kind : Expr Mode × Expr Mode :=
      Expr.entry "fault" (.symbol (core.faultSymbol (core.faultKind spec)))
    let count : Expr Mode × Expr Mode :=
      Expr.entry "count" (.string (toString (core.faultCount spec).toNat))
    have hfields : ensureFields core ["control", "stream-id", "fault", "count"]
        (heading streamId ++ [kind, count]) = .ok () := by
      simp [kind, count, ensureFields, heading, Expr.entry, Symbol.new]
    have hkind : symbolField core (heading streamId ++ [kind, count]) "fault" =
        .ok (core.faultSymbol (core.faultKind spec)) :=
      symbolField_entry hcore _ _ _ (heading_bare streamId (by simp) (by simp))
    have hcount : field (heading streamId ++ [kind, count]) "count" =
        .ok (.string (toString (core.faultCount spec).toNat)) := by
      refine field_entry (heading streamId ++ [kind]) [] _ ?_
      rw [List.forall_mem_append, List.forall_mem_singleton]
      exact ⟨heading_bare streamId (by simp) (by simp), "fault", by simp, rfl⟩
    simp only [readOwn, operation, faultSymbol, hop, String.reduceEq, if_false, if_true]
    rw [ownFields, StreamControl.streamId, hfields, hkind, hcount, Except.ok_bind, Except.ok_bind,
      hcore.faultKind, Except.ok_bind, Except.ok_bind, parseU64_count core hw, Except.ok_bind,
      BitVec.setWidth_setWidth_of_le _ hw, BitVec.setWidth_eq, hcore.faultSpec]
    rfl

/-- A control message is read back from its expression, and so is every message that has been
read. -/
theorem control_round_trip (hw : w ≤ 64) (hcore : core.Inverse) :
    (∀ control, tryFrom core (toExpr core control) = .ok control) ∧
    ∀ expr control, tryFrom core expr = .ok control →
      tryFrom core (toExpr core control) = .ok control := by
  have htrip : ∀ control, tryFrom core (toExpr core control) = .ok control := by
    intro control
    have htag : symbolField core (heading control.streamId ++ control.ownFields core) "control" =
        .ok tagSymbol := symbolField_entry hcore [] _ tagSymbol (List.forall_mem_nil _)
    have hstream : symbolField core (heading control.streamId ++ control.ownFields core)
        "stream-id" = .ok control.streamId := by
      refine symbolField_entry hcore [Expr.entry "control" (.symbol tagSymbol)] _ _ ?_
      rw [List.forall_mem_singleton]
      exact ⟨"control", by simp, rfl⟩
    have hown := readOwn_ownFields hw hcore control
    rw [tryFrom, toExpr, hcore.packet, Except.ok_bind]
    show (do
      let tag ← symbolField core (heading control.streamId ++ control.ownFields core) "control"
      if tag ≠ tagSymbol then
        .error (.eval ("unknown stream fabric control tag " ++ tag.display))
      else do
        let streamId ← symbolField core (heading control.streamId ++ control.ownFields core)
          "stream-id"
        readOwn core (heading control.streamId ++ control.ownFields core) streamId
          control.operation.display) = Except.ok control
    rw [htag, Except.ok_bind, if_neg (not_not.mpr rfl), hstream, Except.ok_bind, hown]
  exact ⟨htrip, fun expr control _ => htrip control⟩

end

/-! ## A fault on the wire -/

namespace ControlSample

/-- Packets are lists of their kind and payload, envelopes and metadata are symbols, and there is
one kind of fault. -/
def core : StreamCore Unit Unit Symbol Symbol Unit (BitVec 64) 64 where
  packetToExpr
    | .data kind payload => .list [.symbol kind, payload]
    | .other _ => .nil
  packetOfExpr
    | .list [.symbol kind, payload] => .ok (.data kind payload)
    | .nil => .ok (.other ())
    | _ => .error (.typeMismatch "stream packet" "expression")
  tableExpr := .symbol
  fromTableExpr
    | .symbol table => .ok table
    | _ => .error (.typeMismatch "metadata" "expression")
  envelopeToExpr := .symbol
  envelopeOfExpr
    | .symbol envelope => .ok envelope
    | _ => .error (.typeMismatch "envelope" "expression")
  faultSymbol _ := .qualified "stream/fault" "timeout"
  faultOfSymbol _ := .ok ()
  faultSpec _ count := count
  faultKind _ := ()
  faultCount count := count
  entryRequiredSym entries name what := do
    match ← field entries name with
    | .symbol symbol => return symbol
    | _ => .error (.typeMismatch what "expression")
  exprKind _ := "expression"

theorem inverse : core.Inverse where
  packet packet := by cases packet <;> rfl
  metadata _ := rfl
  envelope _ := rfl
  faultKind _ := rfl
  faultSpec _ := rfl
  requiredSym before symbol after name what h := by
    show (do
      match ← field (before ++ Expr.entry name (.symbol symbol) :: after) name with
      | .symbol symbol => return symbol
      | _ => .error (.typeMismatch what "expression")) = Except.ok symbol
    rw [field_entry before after (.symbol symbol) h]
    rfl

end ControlSample

theorem fault_round_trip : (64 : Nat) ≤ 64 ∧
    tryFrom ControlSample.core (toExpr ControlSample.core (.fault (.new "s") 2)) =
      .ok (.fault (.new "s") 2) :=
  ⟨le_refl 64, (control_round_trip (le_refl 64) ControlSample.inverse).1 (.fault (.new "s") 2)⟩

end StreamControl

end SimAgentNet.StreamFabric
