import SimAgentNet.Bridge.Receive
import SimAgentNet.Data.Rounds

/-! # Asking a model

An ASK packet is checked and sent to a model, and the model's answer is decoded into a reply to it.
Where the answer cannot be decoded or has not the shape asked for, the failure is put into the call
and the packet is sent again, a bounded number of times. -/

namespace SimAgentNet.Bridge
variable {Mode Warrant Cx Shape Request Response Call : Type}

/-! ## Failures and policies -/

/-- Failure data that can be fed back to a model as repair context. -/
inductive AskFailure where
  | decode (codec : Symbol) (message : String)
  | shape (expected : String) (diagnostics : List String)
deriving DecidableEq

namespace AskFailure

def toExpr : AskFailure → Expr Mode
  | .decode codec message => .map [
      Expr.entry "kind" (.symbol (.qualified "bridge" "DecodeFailure")),
      Expr.entry "codec" (.symbol codec),
      Expr.entry "message" (.string message)]
  | .shape expected diagnostics => .map [
      Expr.entry "kind" (.symbol (.qualified "bridge" "ShapeFailure")),
      Expr.entry "expected" (.string expected),
      Expr.entry "diagnostics" (.vector (diagnostics.map .string))]

def message : AskFailure → String
  | .decode codec message => "decode with " ++ codec.display ++ " failed: " ++ message
  | .shape expected diagnostics =>
    let actual := if diagnostics.isEmpty then "no diagnostics" else "; ".intercalate diagnostics
    "shape " ++ expected ++ " rejected answer: " ++ actual

end AskFailure

structure RepairPolicy where
  maxRetries : Nat
deriving DecidableEq

def RepairPolicy.retries (policy : RepairPolicy) : Nat := min policy.maxRetries 2

/-- Text or bytes, as codecs read and write them. -/
inductive Content where
  | text (text : String)
  | bytes (bytes : List UInt8)
deriving DecidableEq

/-- The contract of an answer; `grammar` tells whether it has a grammar in any form. -/
structure OutputContract (Mode : Type) where
  codec : Symbol
  shapeExpr : Expr Mode
  grammar : Bool

structure BridgeCallArgument where
  name : Symbol
  codec : Symbol
  content : Content
  contentId : String
  fenced : String

/-- What an exchange takes from other packages, the model among them. -/
structure Exchange (Mode Warrant Cx Shape Request Response Call : Type) extends
    ReceiveBook Mode Warrant Cx Shape, Codec Mode Warrant where
  warrantForPacket : BridgePacket Mode Warrant → Except Error Warrant
  assertRoundtrip : BridgePacket Mode Warrant → Except Error Unit
  /-- Renders what the model will see, and checks that every piece of it is owned. -/
  assertModelFace : BridgePacket Mode Warrant → Except Error Unit
  evalRequest : BridgePacket Mode Warrant → Effect Error Cx Request
  effectiveCaps : Cx → BridgePacket Mode Warrant → Except Error (SortedSet String)
  /-- One call of the model under the given capabilities. -/
  realize : SortedSet String → Request → Effect Error Cx (Expr Mode)
  modelResponse : Expr Mode → Except Error Response
  terminalModelContent : Response → Except String (Expr Mode)
  contractGrammar : Symbol → Expr Mode → Shape → Bool → Bool
  decodeWithCodec : Symbol → Content → Effect String Cx (Expr Mode)
  encodeWithCodec : Symbol → Expr Mode → Effect Error Cx Content
  contentId : Content → Except Error String
  fence : String → String → String → String
  checkExpr : Shape → Expr Mode → Effect Error Cx ShapeMatch
  callFromExpr : Expr Mode → Except Error Call
  callToExpr : Call → Expr Mode
  callWithArg : Call → BridgeCallArgument → Call
  catalogEdge : String → String → String → Except Error Unit

def hexText (bytes : List UInt8) : String :=
  .ofList (bytes.flatMap fun byte =>
    [Nat.digitChar (byte.toNat / 16), Nat.digitChar (byte.toNat % 16)])

def Content.body : Content → String
  | .text s => s
  | .bytes b => hexText b

def askDefaultCodec : Symbol := .qualified "codec" "json"

/-- The symbol of a name; a slash with text on both sides of it ends the namespace. -/
def symbolFromName (name : String) : Symbol :=
  let before := beforeText ['/'] name.toList
  let after := name.toList.drop (before.length + 1)
  if before = [] ∨ after = [] then .new name else .qualified (.ofList before) (.ofList after)

section Run
variable (kit : Exchange Mode Warrant Cx Shape Request Response Call)

/-! ## Before the call -/

/-- Canonicalizes, stamps, and locally validates a packet before transmission. -/
def preparePacket (packet : BridgePacket Mode Warrant) :
    Effect Error Cx (BridgePacket Mode Warrant) := do
  let packet := kit.canonicalized packet
  let warrant ← .ofExcept (kit.warrantForPacket packet)
  let packet ← .ofExcept (kit.stampPacketCid { packet with warrant := some warrant })
  let report ← rxCheck kit.toReceiveBook packet none
  if report.accepted then do
    Effect.ofExcept (kit.assertRoundtrip packet)
    Effect.ofExcept (kit.assertModelFace packet)
    pure packet
  else
    .fail (.eval ("bridge tx self-check failed: " ++ kit.debugObligations report.obligations))

/-! ## The answer -/

def outputContractForPacket (packet : BridgePacket Mode Warrant) :
    Except Error (OutputContract Mode) :=
  match partById packet packet.header.output with
  | none =>
    .error (.eval ("BRIDGE packet output part " ++ packet.header.output.display ++ " is missing"))
  | some output => do
    let codec ← match kit.field output.payload "codec" with
      | some (.symbol symbol) => .ok symbol
      | none => .ok (.qualified "codec" "bridge")
      | some other =>
        .error (.eval ("BRIDGE Return codec must be a symbol, found " ++ kit.debugExpr other))
    let shapeExpr := (kit.field output.payload "shape").getD (.symbol (.qualified "core" "Any"))
    let required := match kit.field output.payload "strict" with
      | some (.bool false) => false
      | _ => true
    let grammar := match kit.shapeFromContractExpr shapeExpr with
      | none => false
      | some shape => kit.contractGrammar codec shapeExpr shape required
    return { codec, shapeExpr, grammar }

def unsupportedShape (contract : OutputContract Mode) : AskFailure :=
  .shape (kit.debugExpr contract.shapeExpr) ["unsupported return Shape expression"]

def shapeVerdict (contract : OutputContract Mode) (matched : ShapeMatch) :
    Except AskFailure Unit :=
  if matched.accepted then .ok ()
  else .error (.shape (kit.debugExpr contract.shapeExpr) matched.diagnostics)

def terminalInput (response : Response) (contract : OutputContract Mode) :
    Except AskFailure Content :=
  match kit.terminalModelContent response with
  | .ok (.string text) => .ok (.text text)
  | .ok (.bytes bytes) => .ok (.bytes bytes)
  | .ok (.map entries) =>
    match kit.field (.map entries) "text" with
    | some (.string text) => .ok (.text text)
    | _ => .error (.decode contract.codec "terminal content map must carry text")
  | .ok other =>
    .error (.decode contract.codec
      ("terminal content must be text or bytes, found " ++ kit.debugExpr other))
  | .error message => .error (.decode contract.codec message)

def decodeAnswer (contract : OutputContract Mode) (input : Content) :
    Effect Error Cx (Except AskFailure (Expr Mode)) := do
  let decoded ← Effect.attempt (kit.decodeWithCodec contract.codec input)
  pure (decoded.mapError (.decode contract.codec))

/-- A text is held against the shape before it is decoded for good. -/
def grammarCheckFailure (contract : OutputContract Mode) (text : String) :
    Effect Error Cx (Except AskFailure Unit) :=
  if contract.grammar then
    match kit.shapeFromContractExpr contract.shapeExpr with
    | none => pure (.error (unsupportedShape kit contract))
    | some shape => do
      match ← decodeAnswer kit contract (.text text) with
      | .error failure => pure (.error failure)
      | .ok decoded => do
        let matched ← kit.checkExpr shape decoded
        pure (shapeVerdict kit contract matched)
  else pure (.ok ())

def checkInput (contract : OutputContract Mode) :
    Content → Effect Error Cx (Except AskFailure Unit)
  | .text text => grammarCheckFailure kit contract text
  | .bytes _ => pure (.ok ())

def decodeTerminalAnswer (response : Response) (contract : OutputContract Mode) :
    Effect Error Cx (Except AskFailure (Expr Mode)) :=
  match terminalInput kit response contract with
  | .error failure => pure (.error failure)
  | .ok input => do
    match ← checkInput kit contract input with
    | .error failure => pure (.error failure)
    | .ok () => decodeAnswer kit contract input

def validateAnswer (contract : OutputContract Mode) (answer : Expr Mode) :
    Effect Error Cx (Except AskFailure Unit) :=
  match kit.shapeFromContractExpr contract.shapeExpr with
  | none => pure (.error (unsupportedShape kit contract))
  | some shape => do
    let matched ← kit.checkValueReport "AskReturn" shape answer
    pure (shapeVerdict kit contract matched)

def replyPacket (parent : BridgePacket Mode Warrant) (answer : Expr Mode) :
    BridgePacket Mode Warrant where
  header := {
    cid := none
    moveKind := .new "reply"
    «from» := parent.header.to.head?.getD "model"
    «to» := [parent.header.from]
    role := .new "implementer"
    parents := (parentToken parent).toList
    task := .new "A1"
    output := .new "A1"
    ceiling := []
    context := [] }
  body := [{ id := .new "A1", kind := returnKind, payload := answer }]
  warrant := none

/-- The reply to a checked packet, stamped and checked as such. -/
def checkedReply (parent : BridgePacket Mode Warrant) (answer : Expr Mode) :
    Effect Error Cx (BridgePacket Mode Warrant) := do
  let packet ← .ofExcept (kit.stampPacketCid (replyPacket parent answer))
  let report ← rxCheck kit.toReceiveBook packet (some parent)
  if report.accepted then pure packet
  else
    .fail (.eval ("bridge ask reply failed rx check: " ++ kit.debugObligations report.obligations))

def answerPacket (parent : BridgePacket Mode Warrant) (response : Response) :
    Effect Error Cx (Except AskFailure (BridgePacket Mode Warrant)) := do
  let contract ← .ofExcept (outputContractForPacket kit parent)
  match ← decodeTerminalAnswer kit response contract with
  | .error failure => pure (.error failure)
  | .ok answer =>
    match ← validateAnswer kit contract answer with
    | .error failure => pure (.error failure)
    | .ok () => do
      let packet ← checkedReply kit parent answer
      pure (.ok packet)

/-! ## One exchange -/

/-- Result of one checked exchange, with repair kept as typed control flow. -/
inductive AskAttempt (Mode Warrant : Type) where
  | answer (reply : BridgePacket Mode Warrant)
  | repairNeeded (checked : BridgePacket Mode Warrant) (failure : AskFailure)

/-- A kernel context, with the packets sent to the model so far: an account that no step reads. -/
structure Asking (Mode Warrant Cx : Type) where
  cx : Cx
  sent : List (BridgePacket Mode Warrant)

def onCx (x : Effect Error Cx α) : Effect Error (Asking Mode Warrant Cx) α :=
  x.focus Asking.cx fun cx state => { state with cx := cx }

def noteSent (checked : BridgePacket Mode Warrant) : Effect Error (Asking Mode Warrant Cx) Unit :=
  .modify fun state => { state with sent := state.sent ++ [checked] }

def attemptOf (checked : BridgePacket Mode Warrant) :
    Except AskFailure (BridgePacket Mode Warrant) → AskAttempt Mode Warrant
  | .ok answer => .answer answer
  | .error failure => .repairNeeded checked failure

/-- Performs exactly one exchange. -/
def runAskOnce (packet : BridgePacket Mode Warrant) :
    Effect Error (Asking Mode Warrant Cx) (AskAttempt Mode Warrant) := do
  let checked ← onCx (preparePacket kit packet)
  let request ← onCx (kit.evalRequest checked)
  let caps ← onCx (.observe fun cx => kit.effectiveCaps cx checked)
  noteSent checked
  let reply ← onCx (kit.realize caps request)
  let response ← .ofExcept (kit.modelResponse reply)
  let answer ← onCx (answerPacket kit checked response)
  pure (attemptOf checked answer)

/-! ## Repair -/

def packArgument (name : String) (codec : Symbol) (value : Expr Mode) :
    Effect Error Cx BridgeCallArgument := do
  let content ← kit.encodeWithCodec codec value
  let contentId ← .ofExcept (kit.contentId content)
  pure { name := symbolFromName name, codec, content, contentId
         fenced := kit.fence contentId name content.body }

/-- The parts of a packet with a further argument for the first call. -/
def repairParts (failure : AskFailure) (attempt : Nat) :
    List (BridgePart Mode) → Effect Error Cx (List (BridgePart Mode))
  | [] => .fail (.eval "bridge ask repair requires a Call part")
  | part :: parts =>
    if part.kind = callKind then do
      let call ← .ofExcept (kit.callFromExpr part.payload)
      let argument ← packArgument kit ("repair-" ++ toString attempt) askDefaultCodec failure.toExpr
      pure ({ part with payload := kit.callToExpr (kit.callWithArg call argument) } :: parts)
    else do
      let parts ← repairParts failure attempt parts
      pure (part :: parts)

def repairPacketForFailure (packet : BridgePacket Mode Warrant) (failure : AskFailure)
    (attempt : Nat) : Effect Error Cx (BridgePacket Mode Warrant) := do
  let repaired := kit.canonicalized packet
  let body ← repairParts kit failure attempt repaired.body
  pure { repaired with body := body }

/-- The result of a domain step on a catalog edge. -/
abbrev BoundedEdgeStep (α : Type) := Round α α

/-- Domain steps under a bounded edge of a shipped conduct. -/
def runCatalogBoundedEdge {α σ : Type} (catalogId source target : String) (maxVisits : Nat)
    (initial : α) (step : α → Nat → Effect Error σ (BoundedEdgeStep α)) : Effect Error σ α := do
  Effect.ofExcept (kit.catalogEdge catalogId source target)
  match ← Effect.rounds step (maxVisits + 1) 0 initial with
  | .complete done => pure done
  | .again _ =>
    .fail (.eval ("agent conduct: " ++ catalogId ++ " edge " ++ source ++ " -> " ++ target ++
      " exhausted after " ++ toString maxVisits ++ " visit(s)"))

def afterAttempt (maxRetries attempt : Nat) : AskAttempt Mode Warrant →
    Effect Error (Asking Mode Warrant Cx) (BoundedEdgeStep (BridgePacket Mode Warrant))
  | .answer answer => pure (.complete answer)
  | .repairNeeded checked failure =>
    if attempt < maxRetries then do
      let repaired ← onCx (repairPacketForFailure kit checked failure (min (attempt + 1) 255))
      pure (.again repaired)
    else
      .fail (.eval ("bridge ask failed after " ++ toString (attempt + 1) ++ " attempt(s): " ++
        failure.message))

def askStep (maxRetries : Nat) (packet : BridgePacket Mode Warrant) (attempt : Nat) :
    Effect Error (Asking Mode Warrant Cx) (BoundedEdgeStep (BridgePacket Mode Warrant)) := do
  let result ← runAskOnce kit packet
  afterAttempt kit maxRetries attempt result

/-- Runs an ASK packet with an explicit bounded repair policy. -/
def runAskWithPolicy (packet : BridgePacket Mode Warrant) (policy : RepairPolicy) :
    Effect Error (Asking Mode Warrant Cx) (BridgePacket Mode Warrant) :=
  runCatalogBoundedEdge kit "agent/verify-retry-v1" "verify" "act" policy.retries packet
    (askStep kit policy.retries)

end Run

/-! ## What an exchange leaves behind -/

/-- The packet lists the id of the other one among its parents. -/
def BridgePacket.CitesPacket (packet cited : BridgePacket Mode Warrant) : Prop :=
  ∃ cid, cited.header.cid = some cid ∧ packet.Cites cid

instance (packet cited : BridgePacket Mode Warrant) : Decidable (packet.CitesPacket cited) :=
  match h : cited.header.cid with
  | none => isFalse fun ⟨_, hcid, _⟩ => nomatch h.symm.trans hcid
  | some cid => decidable_of_iff (packet.Cites cid)
    ⟨fun hcites => ⟨cid, h, hcites⟩, fun ⟨_, hcid, hcites⟩ =>
      Option.some.inj (h.symm.trans hcid) ▸ hcites⟩

section Exchange
variable {kit : Exchange Mode Warrant Cx Shape Request Response Call}
  {packet checked reply parent : BridgePacket Mode Warrant}

theorem onCx_eq_ok_iff {x : Effect Error Cx α} {s s' : Asking Mode Warrant Cx} :
    onCx x s = (.ok a, s') ↔ ∃ cx', x s.cx = (.ok a, cx') ∧ s' = { s with cx := cx' } := by
  rw [onCx, Effect.focus, Prod.ext_iff]
  constructor
  · rintro ⟨hok, hs⟩
    exact ⟨_, Prod.ext hok rfl, hs.symm⟩
  · rintro ⟨cx', hx, rfl⟩
    rw [hx]
    exact ⟨rfl, rfl⟩

theorem onCx_sent (x : Effect Error Cx α) (s : Asking Mode Warrant Cx) :
    (onCx x s).2.sent = s.sent := rfl

theorem checkedReply_cites {answer : Expr Mode}
    (h : checkedReply kit parent answer cx = (.ok reply, cx')) : reply.CitesPacket parent := by
  obtain ⟨packet, cx₁, -, hcheck⟩ := Effect.bind_eq_ok_iff.mp h
  obtain ⟨report, cx₂, hreport, hreply⟩ := Effect.bind_eq_ok_iff.mp hcheck
  split at hreply
  · next haccepted =>
    cases hreply
    exact rxCheck_cites hreport haccepted
  · cases hreply

theorem answerPacket_cites {response : Response}
    (h : answerPacket kit parent response cx = (.ok (.ok reply), cx')) :
    reply.CitesPacket parent := by
  obtain ⟨contract, cx₁, -, hdecode⟩ := Effect.bind_eq_ok_iff.mp h
  obtain ⟨decoded, cx₂, -, hvalidate⟩ := Effect.bind_eq_ok_iff.mp hdecode
  cases decoded with
  | error failure => cases hvalidate
  | ok answer =>
    obtain ⟨valid, cx₃, -, hreply⟩ := Effect.bind_eq_ok_iff.mp hvalidate
    cases valid with
    | error failure => cases hreply
    | ok _ =>
      obtain ⟨packet, cx₄, hpacket, hpure⟩ := Effect.bind_eq_ok_iff.mp hreply
      cases hpure
      exact checkedReply_cites hpacket

/-- What comes out of an exchange over a checked packet: an answer that cites the packet, or the
packet itself with a failure. -/
def AttemptOn (checked : BridgePacket Mode Warrant) : AskAttempt Mode Warrant → Prop
  | .answer reply => reply.CitesPacket checked
  | .repairNeeded repaired _ => repaired = checked

theorem runAskOnce_eq_ok {s s' : Asking Mode Warrant Cx} {attempt : AskAttempt Mode Warrant}
    (h : runAskOnce kit packet s = (.ok attempt, s')) :
    ∃ checked cx', preparePacket kit packet s.cx = (.ok checked, cx') ∧
      s'.sent = s.sent ++ [checked] ∧ AttemptOn checked attempt := by
  obtain ⟨checked, s₁, hprepare, h₁⟩ := Effect.bind_eq_ok_iff.mp h
  obtain ⟨request, s₂, hrequest, h₂⟩ := Effect.bind_eq_ok_iff.mp h₁
  obtain ⟨caps, s₃, hcaps, h₃⟩ := Effect.bind_eq_ok_iff.mp h₂
  obtain ⟨_, s₄, hnote, h₄⟩ := Effect.bind_eq_ok_iff.mp h₃
  obtain ⟨reply, s₅, hreply, h₅⟩ := Effect.bind_eq_ok_iff.mp h₄
  obtain ⟨response, s₆, hresponse, h₆⟩ := Effect.bind_eq_ok_iff.mp h₅
  obtain ⟨answer, s₇, hanswer, hattempt⟩ := Effect.bind_eq_ok_iff.mp h₆
  obtain ⟨cx₁, hchecked, rfl⟩ := onCx_eq_ok_iff.mp hprepare
  obtain ⟨cx₂, -, rfl⟩ := onCx_eq_ok_iff.mp hrequest
  obtain ⟨cx₃, -, rfl⟩ := onCx_eq_ok_iff.mp hcaps
  cases hnote
  obtain ⟨cx₅, -, rfl⟩ := onCx_eq_ok_iff.mp hreply
  obtain ⟨-, rfl⟩ := Effect.ofExcept_eq_ok_iff.mp hresponse
  obtain ⟨cx₇, hpacket, rfl⟩ := onCx_eq_ok_iff.mp hanswer
  cases hattempt
  refine ⟨checked, cx₁, hchecked, rfl, ?_⟩
  cases answer with
  | ok answer => exact answerPacket_cites hpacket
  | error failure => rfl

/-! ## How often the model is called -/

theorem onCx_calls {n m : Nat} (x : Effect Error Cx α) (hnm : n ≤ m) :
    Effect.Triple (fun s : Asking Mode Warrant Cx => s.sent.length ≤ n) (onCx x)
      (fun _ s => s.sent.length ≤ n) (fun s => s.sent.length ≤ m) := by
  intro s hs
  have hsent : (onCx x s).2.sent.length ≤ n := by
    rw [onCx_sent]
    exact hs
  split
  · next hx =>
    rw [hx] at hsent
    exact hsent
  · next hx =>
    rw [hx] at hsent
    exact hsent.trans hnm

theorem runAskOnce_calls {n : Nat} :
    Effect.Triple (fun s : Asking Mode Warrant Cx => s.sent.length ≤ n) (runAskOnce kit packet)
      (fun _ s => s.sent.length ≤ n + 1) (fun s => s.sent.length ≤ n + 1) := by
  refine .bind (onCx_calls _ n.le_succ) fun checked => ?_
  refine .bind (onCx_calls _ n.le_succ) fun request => ?_
  refine .bind (onCx_calls _ n.le_succ) fun caps => ?_
  refine .bind (Q := fun _ s => s.sent.length ≤ n + 1) (.modify fun s hs => ?_) fun _ => ?_
  · rw [List.length_append]
    exact Nat.add_le_add_right hs 1
  · refine .bind (onCx_calls _ (le_refl _)) fun reply => ?_
    refine .bind (.ofExcept (fun _ _ hs _ => hs) fun _ hs => hs) fun response => ?_
    exact .bind (onCx_calls _ (le_refl _)) fun answer => .pure fun _ hs => hs

theorem askStep_calls (maxRetries attempt : Nat) (packet : BridgePacket Mode Warrant) (n : Nat) :
    Effect.Triple (fun s : Asking Mode Warrant Cx => s.sent.length ≤ n)
      (askStep kit maxRetries packet attempt)
      (fun _ s => s.sent.length ≤ n + 1) (fun s => s.sent.length ≤ n + 1) := by
  refine .bind runAskOnce_calls fun result => ?_
  unfold afterAttempt
  cases result with
  | answer reply => exact .pure fun _ hs => hs
  | repairNeeded checked failure =>
    dsimp only
    split
    · exact .bind (onCx_calls _ (le_refl _)) fun _ => .pure fun _ hs => hs
    · exact .fail fun _ hs => hs

theorem runAskWithPolicy_calls {n : Nat} {policy : RepairPolicy} :
    Effect.Triple (fun s : Asking Mode Warrant Cx => s.sent.length ≤ n)
      (runAskWithPolicy kit packet policy)
      (fun _ s => s.sent.length ≤ n + (policy.retries + 1))
      (fun s => s.sent.length ≤ n + (policy.retries + 1)) := by
  have hrounds := Effect.Triple.rounds_count (askStep kit policy.retries) (·.sent.length)
    (fun packet attempt => askStep_calls policy.retries attempt packet) (policy.retries + 1) 0
    packet n
  rw [Nat.mul_one] at hrounds
  refine .bind (.ofExcept (fun _ _ hs _ => hs) fun _ hs => Nat.le_add_right_of_le hs) fun _ => ?_
  refine .bind hrounds fun result => ?_
  cases result with
  | complete reply => exact .pure fun _ hs => hs
  | again packet => exact .fail fun _ hs => hs

/-! ## What the packets of a run cite -/

/-- What is relied on of the codec: a packet's canonical form cites what the packet cites, and a
stamp leaves the parents alone. -/
structure Codec.KeepsParents (codec : Codec Mode Warrant) : Prop where
  canonicalized : ∀ packet cid, (codec.canonicalized packet).Cites cid ↔ packet.Cites cid
  stamped : ∀ packet stamped, codec.stampPacketCid packet = .ok stamped →
    stamped.header.parents = packet.header.parents

theorem cites_congr {packet packet' : BridgePacket Mode Warrant} {cid : String}
    (h : packet.header.parents = packet'.header.parents) :
    packet.Cites cid ↔ packet'.Cites cid := by
  rw [BridgePacket.Cites, BridgePacket.Cites, h]

theorem preparePacket_cites (hcodec : kit.toCodec.KeepsParents)
    (h : preparePacket kit packet cx = (.ok checked, cx')) (cid : String) :
    checked.Cites cid ↔ packet.Cites cid := by
  obtain ⟨warrant, cx₁, -, h₁⟩ := Effect.bind_eq_ok_iff.mp h
  obtain ⟨stamped, cx₂, hstamp, h₂⟩ := Effect.bind_eq_ok_iff.mp h₁
  obtain ⟨hstamp, -⟩ := Effect.ofExcept_eq_ok_iff.mp hstamp
  obtain ⟨report, cx₃, -, h₃⟩ := Effect.bind_eq_ok_iff.mp h₂
  split at h₃
  · obtain ⟨_, cx₄, -, h₄⟩ := Effect.bind_eq_ok_iff.mp h₃
    obtain ⟨_, cx₅, -, h₅⟩ := Effect.bind_eq_ok_iff.mp h₄
    cases h₅
    have hparents := hcodec.stamped _ _ hstamp
    calc checked.Cites cid
      _ ↔ (kit.canonicalized packet).Cites cid := cites_congr hparents
      _ ↔ packet.Cites cid := hcodec.canonicalized packet cid
  · cases h₃

/-- A repair does not touch the parents. -/
theorem repairPacketForFailure_cites {repaired : BridgePacket Mode Warrant} {failure : AskFailure}
    {attempt : Nat} (hcodec : kit.toCodec.KeepsParents)
    (h : repairPacketForFailure kit checked failure attempt cx = (.ok repaired, cx'))
    (cid : String) : repaired.Cites cid ↔ checked.Cites cid := by
  obtain ⟨body, cx₁, -, hrepaired⟩ := Effect.bind_eq_ok_iff.mp h
  cases hrepaired
  exact hcodec.canonicalized checked cid

/-- What holds of a run before an exchange over `value`: all packets cite what the caller's packet
cites, and the first packet sent was prepared from it. -/
structure Asked (kit : Exchange Mode Warrant Cx Shape Request Response Call)
    (packet : BridgePacket Mode Warrant) (cx : Cx) (value : BridgePacket Mode Warrant)
    (s : Asking Mode Warrant Cx) : Prop where
  cites : ∀ cid, value.Cites cid ↔ packet.Cites cid
  sent : ∀ checked ∈ s.sent, ∀ cid, checked.Cites cid ↔ packet.Cites cid
  first : (s.sent = [] ∧ value = packet ∧ s.cx = cx) ∨ ∃ checked cx',
    preparePacket kit packet cx = (.ok checked, cx') ∧ s.sent.head? = some checked

theorem Asked.prepared {cx : Cx} {value : BridgePacket Mode Warrant} {s s' : Asking Mode Warrant Cx}
    (h : Asked kit packet cx value s) (hcodec : kit.toCodec.KeepsParents)
    (hprepare : preparePacket kit value s.cx = (.ok checked, cx'))
    (hsent : s'.sent = s.sent ++ [checked]) :
    (∀ c ∈ s'.sent, ∀ cid, c.Cites cid ↔ packet.Cites cid) ∧
      ∃ first cx', preparePacket kit packet cx = (.ok first, cx') ∧ s'.sent.head? = some first := by
  have hchecked (cid : String) : checked.Cites cid ↔ packet.Cites cid :=
    (preparePacket_cites hcodec hprepare cid).trans (h.cites cid)
  constructor
  · rw [hsent]
    exact List.forall_mem_append.mpr ⟨h.sent, List.forall_mem_singleton.mpr hchecked⟩
  · obtain ⟨hnil, rfl, rfl⟩ | ⟨first, cx₁, hfirst, hhead⟩ := h.first
    · exact ⟨checked, cx', hprepare, by rw [hsent, hnil]; rfl⟩
    · exact ⟨first, cx₁, hfirst, by rw [hsent, List.head?_append, hhead]; rfl⟩

theorem Asked.step (hcodec : kit.toCodec.KeepsParents) {maxRetries k : Nat} {cx : Cx}
    {value value' : BridgePacket Mode Warrant} {s s' : Asking Mode Warrant Cx}
    (h : Asked kit packet cx value s)
    (hstep : askStep kit maxRetries value k s = (.ok (.again value'), s')) :
    Asked kit packet cx value' s' := by
  obtain ⟨attempt, s₁, honce, hafter⟩ := Effect.bind_eq_ok_iff.mp hstep
  obtain ⟨checked, cx₁, hprepare, hsent, hattempt⟩ := runAskOnce_eq_ok honce
  cases attempt with
  | answer reply => cases hafter
  | repairNeeded repaired failure =>
    cases hattempt
    dsimp only [afterAttempt] at hafter
    split at hafter
    · obtain ⟨next, s₂, hrepair, hnext⟩ := Effect.bind_eq_ok_iff.mp hafter
      obtain ⟨cx₂, hrepaired, rfl⟩ := onCx_eq_ok_iff.mp hrepair
      cases hnext
      obtain ⟨hall, hfirst⟩ := h.prepared hcodec hprepare hsent
      refine ⟨fun cid => ?_, hall, .inr hfirst⟩
      calc value'.Cites cid
        _ ↔ checked.Cites cid := repairPacketForFailure_cites hcodec hrepaired cid
        _ ↔ value.Cites cid := preparePacket_cites hcodec hprepare cid
        _ ↔ packet.Cites cid := h.cites cid
    · cases hafter

/-! ## Linked runs -/

/-- The reply leads back to the packet prepared from the caller's: it cites the last packet sent,
each packet sent cites the one before it, the first one is the prepared packet, and there were no
more calls than the policy allows. -/
structure Linked (kit : Exchange Mode Warrant Cx Shape Request Response Call)
    (packet : BridgePacket Mode Warrant) (policy : RepairPolicy) (cx : Cx)
    (reply : BridgePacket Mode Warrant) (sent : List (BridgePacket Mode Warrant)) : Prop where
  first : ∃ checked cx', preparePacket kit packet cx = (.ok checked, cx') ∧
    sent.head? = some checked
  chain : sent.IsChain fun repaired next => next.CitesPacket repaired
  reply : ∃ last, sent.getLast? = some last ∧ reply.CitesPacket last
  calls : sent.length ≤ policy.retries + 1

/-- Where all elements of a list stand alike to a property of pairs, a chain is about the elements
that have a next one. -/
theorem isChain_iff_forall_dropLast {R : α → α → Prop} {P : α → Prop} {l : List α}
    (h : ∀ a, ∀ b ∈ l, R a b ↔ P a) : l.IsChain R ↔ ∀ a ∈ l.dropLast, P a := by
  induction l with
  | nil => exact iff_of_true .nil nofun
  | cons a l ih =>
    cases l with
    | nil => exact iff_of_true (.singleton a) nofun
    | cons b l =>
      rw [List.isChain_cons_cons, List.dropLast_cons_cons, List.forall_mem_cons,
        h a b (.tail a (.head l)), ih fun a' b' hb => h a' b' (.tail a hb)]

/-- A run that returns is linked when the caller's packet has every packet that was repaired among
its parents already: in particular when nothing was repaired. -/
theorem runAskWithPolicy_linked_iff {policy : RepairPolicy} {cx : Cx} {s' : Asking Mode Warrant Cx}
    (hcodec : kit.toCodec.KeepsParents)
    (h : runAskWithPolicy kit packet policy ⟨cx, []⟩ = (.ok reply, s')) :
    Linked kit packet policy cx reply s'.sent ↔
      ∀ repaired ∈ s'.sent.dropLast, packet.CitesPacket repaired := by
  have hcalls : s'.sent.length ≤ 0 + (policy.retries + 1) :=
    runAskWithPolicy_calls.ok (le_refl 0) h
  obtain ⟨_, s₁, hedge, hrun⟩ := Effect.bind_eq_ok_iff.mp h
  obtain ⟨-, rfl⟩ := Effect.ofExcept_eq_ok_iff.mp hedge
  obtain ⟨result, s₂, hrounds, hdone⟩ := Effect.bind_eq_ok_iff.mp hrun
  cases result with
  | again value => cases hdone
  | complete done =>
    cases hdone
    obtain ⟨k, value, s₀, hasked, hstep⟩ := Effect.rounds_complete
      (I := fun _ value s => Asked kit packet cx value s)
      (fun k value s value' s' hI hstep => hI.step hcodec hstep)
      ⟨fun _ => Iff.rfl, fun _ hmem => absurd hmem List.not_mem_nil, .inl ⟨rfl, rfl, rfl⟩⟩ hrounds
    obtain ⟨attempt, s₃, honce, hafter⟩ := Effect.bind_eq_ok_iff.mp hstep
    obtain ⟨checked, cx₁, hprepare, hsent, hattempt⟩ := runAskOnce_eq_ok honce
    cases attempt with
    | repairNeeded repaired failure =>
      dsimp only [afterAttempt] at hafter
      split at hafter
      · obtain ⟨next, s₄, -, hnext⟩ := Effect.bind_eq_ok_iff.mp hafter
        cases hnext
      · cases hafter
    | answer answer =>
      cases hafter
      obtain ⟨hall, hfirst⟩ := hasked.prepared hcodec hprepare hsent
      have hchain : s'.sent.IsChain (fun repaired next => next.CitesPacket repaired) ↔
          ∀ repaired ∈ s'.sent.dropLast, packet.CitesPacket repaired :=
        isChain_iff_forall_dropLast fun repaired next hnext =>
          exists_congr fun cid => and_congr_right fun _ => hall next hnext cid
      constructor
      · intro hlinked
        exact hchain.mp hlinked.chain
      · intro hcited
        exact ⟨hfirst, hchain.mpr hcited, ⟨checked, by rw [hsent, List.getLast?_concat], hattempt⟩,
          by simpa using hcalls⟩

end Exchange

namespace AskSample

deriving instance DecidableEq for BridgePart
deriving instance DecidableEq for BridgePacket

def requestHeader : BridgeHeader :=
  ⟨none, .new "request", "sim", ["model"], .new "implementer", [], .new "C1", .new "O1", [], []⟩

/-- A request, with what its call carries. -/
def request (payload : Expr Unit) : BridgePacket Unit Unit where
  header := requestHeader
  body := [⟨.new "C1", callKind, payload⟩, ⟨.new "O1", returnKind, .nil⟩]
  warrant := some ()

def unstamped (packet : BridgePacket Unit Unit) : BridgePacket Unit Unit :=
  { packet with header := { packet.header with cid := none } }

def stamped (packet : BridgePacket Unit Unit) (cid : String) : BridgePacket Unit Unit :=
  { packet with header := { packet.header with cid := some cid } }

/-- The packets that come up, with their ids. -/
def ids : List (BridgePacket Unit Unit × String) := [
  (request .nil, "a"),
  (request (.string "repair"), "b"),
  (replyPacket (stamped (request .nil) "a") .nil, "c"),
  (replyPacket (stamped (request .nil) "b") .nil, "d")]

def stampPacketCid (packet : BridgePacket Unit Unit) : Except Error (BridgePacket Unit Unit) :=
  match ids.find? (·.1 = unstamped packet) with
  | some entry => .ok (stamped packet entry.2)
  | none => .error (.kernel "unknown packet")

/-- The kernel context is the list of what the model will say. -/
def kit : Exchange Unit Unit (List (Expr Unit)) Unit String (Expr Unit) (Option String) where
  legalReplyIntents _ := []
  frame _ := .error (.kernel "no frame")
  requireSpec _ := .ok []
  oneOfGrammar _ := .ok ""
  weaveToExpr _ := .nil
  field _ _ := none
  debugExpr _ := ""
  debugSymbols _ := ""
  packetContentId _ := .ok ""
  checkMove _ _ _ := .ok ()
  partSpec kind := some kind
  verifyWarrant _ := .ok []
  validateWeavePayload _ := .error ""
  anyShape := ()
  mapShape := ()
  shapeFromContractExpr _ := some ()
  checkValueReport _ _ _ := pure ⟨true, []⟩
  debugStrings _ := ""
  debugObligations _ := ""
  canonicalized packet := packet
  stampPacketCid := stampPacketCid
  warrantForPacket _ := .ok ()
  assertRoundtrip _ := .ok ()
  assertModelFace _ := .ok ()
  evalRequest packet := pure (packet.header.cid.getD "")
  effectiveCaps _ _ := .ok ∅
  realize _ _
    | [] => (.error (.kernel "sequence fabric is exhausted"), [])
    | said :: rest => (.ok said, rest)
  modelResponse said := .ok said
  terminalModelContent said := .ok said
  contractGrammar _ _ _ _ := false
  decodeWithCodec _ _ := pure .nil
  encodeWithCodec _ _ := pure (.text "")
  contentId _ := .ok ""
  fence _ _ _ := "repair"
  checkExpr _ _ := pure ⟨true, []⟩
  callFromExpr
    | .string text => .ok (some text)
    | _ => .ok none
  callToExpr
    | some text => .string text
    | none => .nil
  callWithArg _ argument := some argument.fenced
  catalogEdge _ _ _ := .ok ()

theorem stampPacketCid_eq_ok {packet packet' : BridgePacket Unit Unit}
    (h : stampPacketCid packet = .ok packet') :
    ∃ cid, (unstamped packet, cid) ∈ ids ∧ packet' = stamped packet cid := by
  unfold stampPacketCid at h
  split at h
  · next entry hfind =>
    cases h
    have hentry : entry.1 = unstamped packet := by simpa using List.find?_some hfind
    exact ⟨entry.2, hentry ▸ List.mem_of_find?_eq_some hfind, rfl⟩
  · cases h

theorem stampPacketCid_injective {p q p' q' : BridgePacket Unit Unit}
    (hp : stampPacketCid p = .ok p') (hq : stampPacketCid q = .ok q')
    (h : p'.header.cid = q'.header.cid) : unstamped p = unstamped q := by
  obtain ⟨cid, hmem, rfl⟩ := stampPacketCid_eq_ok hp
  obtain ⟨cid', hmem', rfl⟩ := stampPacketCid_eq_ok hq
  have hids : ∀ e ∈ ids, ∀ e' ∈ ids, e.2 = e'.2 → e.1 = e'.1 := by decide +kernel
  exact hids _ hmem _ hmem' (Option.some.inj h)

theorem keepsParents : kit.toCodec.KeepsParents where
  canonicalized _ _ := Iff.rfl
  stamped _ _ h := by
    obtain ⟨cid, -, rfl⟩ := stampPacketCid_eq_ok h
    rfl

def ask (said : List (Expr Unit)) :=
  runAskWithPolicy kit (request .nil) ⟨1⟩ ⟨said, []⟩

theorem ask_ok {said : List (Expr Unit)} (h : (ask said).1.isOk = true) :
    ∃ reply, ask said = (.ok reply, (ask said).2) := by
  obtain ⟨reply, hreply⟩ := Except.exists_of_isOk h
  exact ⟨reply, Prod.ext hreply rfl⟩

/-- The model's first answer will do. -/
theorem answered_linked : ∃ reply s', ask [.string "fine"] = (.ok reply, s') ∧
    Linked kit (request .nil) ⟨1⟩ [.string "fine"] reply s'.sent := by
  have heval : (ask [.string "fine"]).1.isOk = true ∧
      ∀ repaired ∈ (ask [.string "fine"]).2.sent.dropLast, (request .nil).CitesPacket repaired := by
    decide +kernel
  obtain ⟨reply, hask⟩ := ask_ok heval.1
  exact ⟨reply, _, hask, (runAskWithPolicy_linked_iff keepsParents hask).mpr heval.2⟩

/-- The model's first answer is no text, the second one will do: the ids are those of different
packets, and the repaired request does not cite the first one. -/
theorem repaired_unlinked :
    (∀ p q p' q', kit.stampPacketCid p = .ok p' → kit.stampPacketCid q = .ok q' →
      p'.header.cid = q'.header.cid → unstamped p = unstamped q) ∧
    ∃ reply s', ask [.nil, .string "fine"] = (.ok reply, s') ∧
      ¬Linked kit (request .nil) ⟨1⟩ [.nil, .string "fine"] reply s'.sent := by
  have heval : (ask [.nil, .string "fine"]).1.isOk = true ∧
      ¬(ask [.nil, .string "fine"]).2.sent.IsChain fun repaired next =>
        next.CitesPacket repaired := by
    decide +kernel
  obtain ⟨reply, hask⟩ := ask_ok heval.1
  exact ⟨fun _ _ _ _ => stampPacketCid_injective, reply, _, hask,
    fun hlinked => heval.2 hlinked.chain⟩

end AskSample

end SimAgentNet.Bridge
