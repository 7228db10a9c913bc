import SimAgentNet.Bridge.Loom
import SimAgentNet.Data.Effect

/-! # Receiving packets

The check of a packet against the local book, and against the packet that it replies to. Every
obligation found is reported; a packet is accepted when there is none. -/

namespace SimAgentNet.Bridge
variable {Mode Warrant Cx Shape : Type}

/-- What a shape says about a value, with the texts of its diagnostics. -/
structure ShapeMatch where
  accepted : Bool
  diagnostics : List String
deriving DecidableEq

/-- What the check takes from other packages: the books, the reading of payloads, and the shapes,
which a kernel context checks. -/
structure ReceiveBook (Mode Warrant Cx Shape : Type) extends LoomBook Mode where
  packetContentId : BridgePacket Mode Warrant → Except Error String
  /-- Whether a move may follow the parents' moves with the given kinds of parts. -/
  checkMove : Symbol → List Symbol → List Symbol → Except String Unit
  /-- The kind under which the book has a kind of parts. -/
  partSpec : Symbol → Option Symbol
  verifyWarrant : BridgePacket Mode Warrant → Except Error (List BridgeObligation)
  validateWeavePayload : Expr Mode → Except String (List (BridgeWeaveRow Mode))
  anyShape : Shape
  mapShape : Shape
  shapeFromContractExpr : Expr Mode → Option Shape
  checkValueReport : String → Shape → Expr Mode → Effect Error Cx ShapeMatch
  debugStrings : List String → String
  debugObligations : List BridgeObligation → String

def callKind : Symbol := .qualified "bridge" "Call"
def returnKind : Symbol := .qualified "bridge" "Return"
def extensionKind : Symbol := .qualified "bridge" "Extension"

section Check
variable (book : ReceiveBook Mode Warrant Cx Shape)

def packetReportCid (packet : BridgePacket Mode Warrant) : String :=
  match packet.header.cid with
  | some cid => cid
  | none =>
    match book.packetContentId packet with
    | .ok cid => cid
    | .error _ => "unhashable"

/-! ## The header -/

def duplicatePart (report : BridgeReport) (id : Symbol) : BridgeReport :=
  (report.reject id).obligate
    (.repairPacket ("body/" ++ id.display) "duplicate part id" "unique part id" id.display)

def checkPartIds (seen : List Symbol) (report : BridgeReport) :
    List (BridgePart Mode) → BridgeReport
  | [] => report
  | part :: parts =>
    checkPartIds (part.id :: seen)
      (if part.id ∈ seen then duplicatePart report part.id else report) parts

def requirePartId (packet : BridgePacket Mode Warrant) (path : String) (report : BridgeReport)
    (id : Symbol) : BridgeReport :=
  if packet.body.any (·.id = id) then report
  else
    report.obligate (.repairPacket path "header references a missing part" id.display "missing")

def checkReplySender (packet parent : BridgePacket Mode Warrant) (report : BridgeReport) :
    BridgeReport :=
  if packet.header.from ∈ parent.header.to then report
  else
    report.obligate (.repairPacket "header/from" "reply sender is not a parent recipient"
      (if parent.header.to.isEmpty then "one parent header/to recipient"
        else book.debugStrings parent.header.to) packet.header.from)

def checkReplyRecipient (packet parent : BridgePacket Mode Warrant) (report : BridgeReport) :
    BridgeReport :=
  if packet.header.to = [parent.header.from] then report
  else
    report.obligate (.repairPacket "header/to" "reply recipient does not mirror parent sender"
      (book.debugStrings [parent.header.from]) (book.debugStrings packet.header.to))

def checkReplyActorLinkage (packet parent : BridgePacket Mode Warrant) (report : BridgeReport) :
    BridgeReport :=
  checkReplyRecipient book packet parent (checkReplySender book packet parent report)

def checkParentLinkage (packet parent : BridgePacket Mode Warrant) (report : BridgeReport) :
    BridgeReport :=
  match parent.header.cid with
  | none =>
    report.obligate (.repairPacket "header/parents" "parent packet is missing a cid"
      "stamped parent cid" "none")
  | some parentCid =>
    checkReplyActorLinkage book packet parent
      (if packet.Cites parentCid then report
      else
        report.obligate (.repairPacket "header/parents" "reply does not cite parent packet"
          parentCid (book.debugStrings packet.header.parents)))

def checkHeaderLinkage (packet : BridgePacket Mode Warrant)
    (replyTo : Option (BridgePacket Mode Warrant)) (report : BridgeReport) : BridgeReport :=
  let report := checkPartIds [] report packet.body
  let report := requirePartId packet "header/task" report packet.header.task
  let report := requirePartId packet "header/output" report packet.header.output
  let report := packet.header.context.foldl (requirePartId packet "header/context") report
  match replyTo with
  | none => report
  | some parent => checkParentLinkage book packet parent report

def checkMove (packet : BridgePacket Mode Warrant) (replyTo : Option (BridgePacket Mode Warrant))
    (report : BridgeReport) : BridgeReport :=
  match book.checkMove packet.header.moveKind (replyTo.map (·.header.moveKind)).toList
      (packet.body.map (·.kind)) with
  | .ok () => report
  | .error message =>
    report.obligate (.repairPacket "header/move" "illegal BRIDGE move"
      "move book accepts intent, parent, and required parts" message)

/-! ## The parts -/

/-- The report behind the check of a payload, and whether the payload has the shape. -/
def checkPayloadShape (path expected : String) (shape : Shape) (payload : Expr Mode)
    (report : BridgeReport) : Effect Error Cx (BridgeReport × Bool) := do
  let matched ← book.checkValueReport expected shape payload
  if matched.accepted then pure (report, true)
  else
    pure (report.obligate (.repairPacket path "payload failed Shape check" expected
      (if matched.diagnostics.isEmpty then book.debugExpr payload
        else "; ".intercalate matched.diagnostics)), false)

def expectedPartPayloadShape (kind : Symbol) : Shape :=
  if kind = extensionKind ∨ kind = returnKind then book.anyShape else book.mapShape

def unknownPart (report : BridgeReport) (part : BridgePart Mode) : BridgeReport :=
  (report.reject part.id).obligate (.repairPacket ("body/" ++ part.id.display)
    "unknown BRIDGE part kind" "registered part kind" part.kind.display)

def checkPart (report : BridgeReport) (part : BridgePart Mode) : Effect Error Cx BridgeReport :=
  match book.partSpec part.kind with
  | none => pure (unknownPart report part)
  | some kind => do
    let checked ← checkPayloadShape book ("body/" ++ part.id.display ++ "/payload")
      (kind.display ++ " payload") (expectedPartPayloadShape book kind) part.payload report
    pure (if checked.2 then checked.1.accept part.id else checked.1.reject part.id)

def checkParts (report : BridgeReport) : List (BridgePart Mode) → Effect Error Cx BridgeReport
  | [] => pure report
  | part :: parts => do
    let report ← checkPart book report part
    checkParts report parts

def rejectWeave (report : BridgeReport) (part : BridgePart Mode)
    (obligations : List BridgeObligation) : BridgeReport :=
  obligations.foldl BridgeReport.obligate (report.reject part.id)

def validatePacketWeave (packet : BridgePacket Mode Warrant) (report : BridgeReport)
    (part : BridgePart Mode) : Except Error BridgeReport :=
  match book.validateWeavePayload part.payload with
  | .error message =>
    .ok (rejectWeave report part [.repairPacket ("body/" ++ part.id.display ++ "/payload")
      "invalid LOOM weave payload" "derived result-shape agrees with rows" message])
  | .ok rows => do
    let weaveReport ← validateWeave book.toLoomBook packet rows
    return if weaveReport.accepted then report
      else rejectWeave report part weaveReport.obligations

def validatePacketWeaves (packet : BridgePacket Mode Warrant) (report : BridgeReport) :
    Except Error BridgeReport :=
  (packet.body.filter (·.kind = weaveKind)).foldlM (validatePacketWeave book packet) report

/-! ## The answer to the parent -/

def partById (packet : BridgePacket Mode Warrant) (id : Symbol) : Option (BridgePart Mode) :=
  packet.body.find? (·.id = id)

/-- The payload that answers the parent, against the shape that the parent asks for. -/
def checkReplyOutput (packet : BridgePacket Mode Warrant) (shapeExpr : Expr Mode)
    (report : BridgeReport) : Effect Error Cx BridgeReport :=
  match partById packet packet.header.output with
  | none =>
    pure (report.obligate (.repairPacket "header/output" "reply output part is missing"
      packet.header.output.display "missing"))
  | some replyOutput =>
    match book.shapeFromContractExpr shapeExpr with
    | none =>
      pure (report.obligate (.repairPacket "reply-to/return/shape"
        "unsupported Return shape expression"
        "core primitives, bridge/Answer, bridge/Refusal, or shape/OneOf"
        (book.debugExpr shapeExpr)))
    | some shape => do
      let checked ← checkPayloadShape book ("body/" ++ replyOutput.id.display ++ "/payload")
        "parent Return contract" shape replyOutput.payload report
      pure checked.1

def checkParentReturn (packet parent : BridgePacket Mode Warrant) (report : BridgeReport) :
    Effect Error Cx BridgeReport :=
  match partById parent parent.header.output with
  | none =>
    pure (report.obligate (.repairPacket "reply-to/header/output" "parent output part is missing"
      parent.header.output.display "missing"))
  | some contract =>
    if contract.kind = returnKind then
      match book.field contract.payload "shape" with
      | none => pure report
      | some shapeExpr => checkReplyOutput book packet shapeExpr report
    else
      pure (report.obligate (.repairPacket "reply-to/header/output"
        "parent output part is not a Return contract" "bridge/Return" contract.kind.display))

def rxCheck (packet : BridgePacket Mode Warrant) (replyTo : Option (BridgePacket Mode Warrant)) :
    Effect Error Cx BridgeReport := do
  let linked := checkHeaderLinkage book packet replyTo (.new (packetReportCid book packet))
  let parts ← checkParts book (checkMove book packet replyTo linked) packet.body
  let obligations ← .ofExcept (book.verifyWarrant packet)
  let weaves ← .ofExcept (validatePacketWeaves book packet
    (obligations.foldl BridgeReport.obligate parts))
  match replyTo with
  | none => pure weaves
  | some parent => checkParentReturn book packet parent weaves

end Check

/-! ## No check takes an obligation back -/

/-- The later report is accepted only where the earlier one is. -/
def BridgeReport.LeadsTo (report report' : BridgeReport) : Prop :=
  report'.accepted = true → report.accepted = true

namespace BridgeReport.LeadsTo
variable {report report' report'' : BridgeReport}

theorem refl : report.LeadsTo report := id

theorem trans (h : report.LeadsTo report') (h' : report'.LeadsTo report'') :
    report.LeadsTo report'' := h ∘ h'

theorem reject {id : Symbol} : report.LeadsTo (report.reject id) := by
  intro h
  rwa [accepted_reject] at h

theorem obligate {obligation : BridgeObligation} : report.LeadsTo (report.obligate obligation) := by
  intro h
  rw [accepted_obligate] at h
  cases h

theorem ite {p : Prop} [Decidable p] (h : report.LeadsTo report')
    (h' : report.LeadsTo report'') : report.LeadsTo (if p then report' else report'') := by
  split
  · exact h
  · exact h'

theorem foldl {step : BridgeReport → α → BridgeReport}
    (hstep : ∀ (report : BridgeReport) (a : α), report.LeadsTo (step report a)) (l : List α) :
    report.LeadsTo (l.foldl step report) := by
  induction l generalizing report with
  | nil => exact refl
  | cons a l ih => exact (hstep report a).trans ih

theorem foldlM {step : BridgeReport → α → Except Error BridgeReport}
    (hstep : ∀ (report : BridgeReport) (a : α) (report' : BridgeReport),
      step report a = .ok report' → report.LeadsTo report')
    {l : List α} (h : l.foldlM step report = .ok report') : report.LeadsTo report' := by
  induction l generalizing report with
  | nil =>
    cases h
    exact refl
  | cons a l ih =>
    rw [List.foldlM_cons] at h
    obtain ⟨next, hnext, hrest⟩ := Except.bind_eq_ok_iff.mp h
    exact (hstep report a next hnext).trans (ih hrest)

end BridgeReport.LeadsTo

section Linkage
variable {book : ReceiveBook Mode Warrant Cx Shape} {packet parent : BridgePacket Mode Warrant}
  {report report' : BridgeReport}
open BridgeReport

theorem checkMove_leadsTo {replyTo : Option (BridgePacket Mode Warrant)} :
    report.LeadsTo (checkMove book packet replyTo report) := by
  unfold checkMove
  split
  · exact .refl
  · exact .obligate

theorem checkPayloadShape_leadsTo {path expected : String} {shape : Shape} {payload : Expr Mode}
    (h : checkPayloadShape book path expected shape payload report cx = (.ok checked, cx')) :
    report.LeadsTo checked.1 := by
  obtain ⟨matched, cx₁, -, hmatched⟩ := Effect.bind_eq_ok_iff.mp h
  split at hmatched
  · cases hmatched
    exact .refl
  · cases hmatched
    exact .obligate

theorem checkPart_leadsTo {part : BridgePart Mode}
    (h : checkPart book report part cx = (.ok report', cx')) : report.LeadsTo report' := by
  unfold checkPart at h
  cases hspec : book.partSpec part.kind with
  | none =>
    rw [hspec] at h
    cases h
    exact LeadsTo.reject.trans .obligate
  | some kind =>
    rw [hspec] at h
    obtain ⟨checked, cx₁, hchecked, hreport⟩ := Effect.bind_eq_ok_iff.mp h
    cases hreport
    refine (checkPayloadShape_leadsTo hchecked).trans (.ite ?_ .reject)
    intro haccepted
    rwa [accepted_accept] at haccepted

theorem checkParts_leadsTo {parts : List (BridgePart Mode)}
    (h : checkParts book report parts cx = (.ok report', cx')) : report.LeadsTo report' := by
  induction parts generalizing report cx with
  | nil =>
    cases h
    exact .refl
  | cons part parts ih =>
    obtain ⟨next, cx₁, hnext, hrest⟩ := Effect.bind_eq_ok_iff.mp h
    exact (checkPart_leadsTo hnext).trans (ih hrest)

theorem validatePacketWeaves_leadsTo (h : validatePacketWeaves book packet report = .ok report') :
    report.LeadsTo report' := by
  refine LeadsTo.foldlM (fun report part report' hpart => ?_) h
  have hreject (obligations) : report.LeadsTo (rejectWeave report part obligations) :=
    LeadsTo.reject.trans (.foldl (fun _ _ => .obligate) obligations)
  unfold validatePacketWeave at hpart
  split at hpart
  · cases hpart
    exact hreject _
  · obtain ⟨weaveReport, -, hreport⟩ := Except.bind_eq_ok_iff.mp hpart
    cases hreport
    exact .ite .refl (hreject _)

theorem checkReplyOutput_leadsTo {shapeExpr : Expr Mode}
    (h : checkReplyOutput book packet shapeExpr report cx = (.ok report', cx')) :
    report.LeadsTo report' := by
  unfold checkReplyOutput at h
  cases houtput : partById packet packet.header.output with
  | none =>
    rw [houtput] at h
    cases h
    exact .obligate
  | some replyOutput =>
    cases hshape : book.shapeFromContractExpr shapeExpr with
    | none =>
      rw [houtput, hshape] at h
      cases h
      exact .obligate
    | some shape =>
      rw [houtput, hshape] at h
      obtain ⟨checked, cx₁, hchecked, hreport⟩ := Effect.bind_eq_ok_iff.mp h
      cases hreport
      exact checkPayloadShape_leadsTo hchecked

theorem checkParentReturn_leadsTo
    (h : checkParentReturn book packet parent report cx = (.ok report', cx')) :
    report.LeadsTo report' := by
  unfold checkParentReturn at h
  cases hcontract : partById parent parent.header.output with
  | none =>
    rw [hcontract] at h
    cases h
    exact .obligate
  | some contract =>
    rw [hcontract] at h
    dsimp only at h
    split at h
    · cases hshape : book.field contract.payload "shape" with
      | none =>
        rw [hshape] at h
        cases h
        exact .refl
      | some shapeExpr =>
        rw [hshape] at h
        exact checkReplyOutput_leadsTo h
    · cases h
      exact .obligate

/-- A reply that passes for linked to a parent cites the parent's id, which has to be there. -/
theorem checkParentLinkage_accepted
    (h : (checkParentLinkage book packet parent report).accepted = true) :
    ∃ cid, parent.header.cid = some cid ∧ packet.Cites cid := by
  unfold checkParentLinkage at h
  split at h
  · rw [accepted_obligate] at h
    cases h
  · next cid hcid =>
    have hactor (report : BridgeReport) :
        report.LeadsTo (checkReplyActorLinkage book packet parent report) :=
      LeadsTo.trans (.ite .refl .obligate) (.ite .refl .obligate)
    have haccepted := hactor _ h
    split at haccepted
    · next hcites => exact ⟨cid, hcid, hcites⟩
    · rw [accepted_obligate] at haccepted
      cases haccepted

/-- The check of a reply accepts only what cites the packet that it replies to. -/
theorem rxCheck_cites (h : rxCheck book packet (some parent) cx = (.ok report, cx'))
    (haccepted : report.accepted = true) :
    ∃ cid, parent.header.cid = some cid ∧ packet.Cites cid := by
  obtain ⟨parts, cx₁, hparts, h₁⟩ := Effect.bind_eq_ok_iff.mp h
  obtain ⟨obligations, cx₂, -, h₂⟩ := Effect.bind_eq_ok_iff.mp h₁
  obtain ⟨weaves, cx₃, hweaves, hreturn⟩ := Effect.bind_eq_ok_iff.mp h₂
  obtain ⟨hweaves, -⟩ := Effect.ofExcept_eq_ok_iff.mp hweaves
  have hwarranted : parts.LeadsTo (obligations.foldl BridgeReport.obligate parts) :=
    .foldl (fun _ _ => .obligate) obligations
  have hlinked := checkMove_leadsTo.trans ((checkParts_leadsTo hparts).trans
    (hwarranted.trans ((validatePacketWeaves_leadsTo hweaves).trans
      (checkParentReturn_leadsTo hreturn))))
  exact checkParentLinkage_accepted (hlinked haccepted)

end Linkage

end SimAgentNet.Bridge
