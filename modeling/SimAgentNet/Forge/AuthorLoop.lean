import SimAgentNet.Bridge.Ask
import SimAgentNet.Forge.Ceiling

/-! # The author loop

A task is authored by the targets of a ladder, cheapest first. A target's answer is decoded into a
form, the form is held against the capabilities of the contract cards shown to the model, realized
under no more than these, and verified. -/

namespace SimAgentNet.Forge
open Bridge (Error Content ShapeMatch)

variable {Mode Shape Cx Value Response Verifier Event Cassette : Type}

/-! ## Tasks and policies -/

structure Diagnostic where
  info : Bool
  message : String
deriving DecidableEq

structure ContractCard (Mode : Type) where
  symbol : Symbol
  capabilitySymbols : List Symbol
  example? : Option (Expr Mode)

structure ContractProjectionCaps where
  tokenBudget : Nat
  includeExamples : Bool

structure AuthorTask (Mode Shape : Type) where
  name : Symbol
  targetCodec : Symbol
  contractCards : List (ContractCard Mode)
  projectionCaps : ContractProjectionCaps
  returnShape : Shape
  verifiers : List Symbol

/-- A request; the other fields have their defaults in every request of the loop. -/
structure EvalRequest (Mode : Type) where
  expr : Expr Mode
  requiredCapabilities : List String

structure EvalReply (Value : Type) where
  value : Value
  diagnostics : List Diagnostic

structure RouteTarget (Mode Cx Value : Type) where
  id : String
  realize : EvalRequest Mode → Effect Error Cx (EvalReply Value)
  requiredCapabilities : List Symbol

structure RoutePolicy (Mode Cx Value Verifier : Type) where
  ladder : List (RouteTarget Mode Cx Value)
  escalateAfter : Nat
  verifiers : Symbol → Option Verifier

inductive RouteAttemptStatus where
  | skipped
  | failed
  | accepted
deriving DecidableEq

structure RouteAttempt where
  target : String
  status : RouteAttemptStatus
  reason : Option String
deriving DecidableEq

structure AuthorOutcome (Mode Cassette : Type) where
  checkedForm : Option (Expr Mode)
  realized : Option (Expr Mode)
  attempts : List RouteAttempt
  diagnostics : List Diagnostic
  cassette : Cassette

inductive CassetteKind where
  | validate
  | refusal
deriving DecidableEq

inductive ProjectionDetail where
  | fullWithExample
  | shapeSummary
  | summaryOnly
deriving DecidableEq

structure ContractProjection where
  text : String
  diagnostics : List Diagnostic

/-- What the loop takes from other packages and from other modules of the crate. -/
structure Workshop (Mode Shape Cx Value Response Verifier Event Cassette : Type) where
  displayError : Error → String
  debugExpr : Expr Mode → String
  field : Expr Mode → String → Option (Expr Mode)
  estimatePromptTokens : String → Nat
  renderRankedCard : ContractCard Mode → ProjectionDetail → String
  /-- The expression of the model request for a task. -/
  authorModelRequest : AuthorTask Mode Shape → ContractProjection → Except Error (Expr Mode)
  capabilities : Cx → SortedSet String
  /-- Runs an operation under the given capabilities in place of the context's own. -/
  withCapabilities : SortedSet String → Effect Error Cx (EvalReply Value) →
    Effect Error Cx (EvalReply Value)
  asExpr : Value → Effect Error Cx (Expr Mode)
  modelResponse : Expr Mode → Except Error Response
  terminalModelContent : Response → Except Error (Expr Mode)
  decodeWithCodec : Symbol → Content → Effect Error Cx (Expr Mode)
  checkExpr : Shape → Expr Mode → Effect Error Cx ShapeMatch
  runVerifier : Verifier → Expr Mode → Effect Error Cx (Except String Unit)
  devEvent : CassetteKind → Symbol → Expr Mode → Except Error Event
  fromEvents : Symbol → List Event → Except Error Cassette

section Projection
variable (shop : Workshop Mode Shape Cx Value Response Verifier Event Cassette)

/-! ## The contract cards shown to the model -/

def ProjectionDetail.candidates (card : ContractCard Mode) (includeExamples : Bool) :
    List ProjectionDetail :=
  (if includeExamples && card.example?.isSome then [ProjectionDetail.fullWithExample] else []) ++
    [ProjectionDetail.shapeSummary, .summaryOnly]

/-- The most detailed rendering of a card that fits behind the parts within the budget. -/
def chooseDetail (caps : ContractProjectionCaps) (parts : List String) (card : ContractCard Mode) :
    Option ProjectionDetail :=
  (ProjectionDetail.candidates card caps.includeExamples).find? fun detail =>
    shop.estimatePromptTokens ("\n\n".intercalate (parts ++ [shop.renderRankedCard card detail]))
      ≤ caps.tokenBudget

structure Projecting (Mode : Type) where
  parts : List String
  cards : List (ContractCard Mode)
  diagnostics : List Diagnostic

def projectCard (caps : ContractProjectionCaps) (state : Projecting Mode)
    (card : ContractCard Mode) : Projecting Mode :=
  match chooseDetail shop caps state.parts card with
  | some detail => {
    parts := state.parts ++ [shop.renderRankedCard card detail]
    cards := state.cards ++ [card]
    diagnostics := state.diagnostics ++
      if detail = .summaryOnly then
        [⟨true, "contract projection reduced " ++ card.symbol.display ++
          " to summary only under token budget"⟩]
      else [] }
  | none => { state with
    diagnostics := state.diagnostics ++
      [⟨true, "contract projection dropped " ++ card.symbol.display ++ " under token budget"⟩] }

def projectContractsWithCards (cards : List (ContractCard Mode)) (caps : ContractProjectionCaps) :
    ContractProjection × List (ContractCard Mode) :=
  let state := cards.foldl (projectCard shop caps) ⟨[], [], []⟩
  (⟨"\n\n".intercalate state.parts, state.diagnostics⟩, state.cards)

end Projection

def authorizedCapabilities (projectionCards : List (ContractCard Mode)) : List Symbol :=
  (SortedSet.ofList (projectionCards.flatMap (·.capabilitySymbols))).elems

def targetSkipReason (target : RouteTarget Mode Cx Value) (ceiling : List Symbol) :
    Option String :=
  (outsideCeiling target.requiredCapabilities ceiling).map fun required =>
    "target requires capability " ++ required.display ++ " outside projection ceiling"

/-! ## One attempt -/

/-- A call of a target: for a form, or to realize one. A realization notes the capabilities of the
context and those that it runs under. -/
inductive Invocation (Mode : Type) where
  | author (place : Nat)
  | realize (place : Nat) (form : Expr Mode) (current granted : SortedSet String)

def Invocation.place : Invocation Mode → Nat
  | .author place | .realize place _ _ _ => place

def Invocation.authors (place : Nat) : Invocation Mode → Bool
  | .author place' => place' = place
  | .realize .. => false

/-- A kernel context, with the calls of targets so far: an account that no step reads. -/
structure Authoring (Mode Cx : Type) where
  cx : Cx
  log : List (Invocation Mode)

def note (invocation : Invocation Mode) : Effect ε (Authoring Mode Cx) Unit :=
  .modify fun state => { state with log := state.log ++ [invocation] }

structure AcceptedAuthorRun (Mode : Type) where
  checkedForm : Expr Mode
  realized : Expr Mode
  diagnostics : List Diagnostic

def modelEvalRequest (modelRequest : Expr Mode) : EvalRequest Mode := ⟨modelRequest, []⟩

def realizeEvalRequest (expr : Expr Mode) (required : List Symbol) : EvalRequest Mode :=
  ⟨expr, required.map capabilityName⟩

def shapeDiagnostics (diagnostics : List String) : String :=
  if diagnostics.isEmpty then "no diagnostics" else "; ".intercalate diagnostics

structure VerifyFailure where
  id : Symbol
  reason : String

structure VerifyReport where
  passed : List Symbol
  failed : List VerifyFailure

def VerifyReport.accepted (report : VerifyReport) : Bool := report.failed.isEmpty

section Attempt
variable (shop : Workshop Mode Shape Cx Value Response Verifier Event Cassette)

/-- A step on the kernel context, whose failure becomes a reason with the given beginning. -/
def onCx (failing : String) (x : Effect Error Cx α) : Effect String (Authoring Mode Cx) α :=
  (x.focus Authoring.cx fun cx state => { state with cx := cx }).mapError fun e =>
    failing ++ " failed: " ++ shop.displayError e

def decodeModelResponse (reply : EvalReply Value) : Effect Error Cx Response := do
  let expr ← shop.asExpr reply.value
  .ofExcept (shop.modelResponse expr)

def terminalInput (response : Response) : Except Error Content :=
  match shop.terminalModelContent response with
  | .ok (.string text) => .ok (.text text)
  | .ok (.bytes bytes) => .ok (.bytes bytes)
  | .ok (.map entries) =>
    match shop.field (.map entries) "text" with
    | some (.string text) => .ok (.text text)
    | _ => .error (.eval "terminal content map must carry text")
  | .ok other =>
    .error (.eval ("terminal content must be text or bytes, found " ++ shop.debugExpr other))
  | .error e => .error e

def decodeTerminalForm (task : AuthorTask Mode Shape) (response : Response) :
    Effect Error Cx (Expr Mode) := do
  let input ← .ofExcept (terminalInput shop response)
  let decoded ← shop.decodeWithCodec task.targetCodec input
  let matched ← shop.checkExpr task.returnShape decoded
  if matched.accepted then pure decoded
  else
    .fail (.eval ("decoded form failed return Shape: " ++ shapeDiagnostics matched.diagnostics))

/-- One verifier of a task. -/
def verifyOne (verifiers : Symbol → Option Verifier) (answer : Expr Mode) (id : Symbol) :
    Effect Error Cx (Except String Unit) :=
  match verifiers id with
  | some verifier => shop.runVerifier verifier answer
  | none => pure (.error "semantic verifier is not registered")

def VerifyReport.add (report : VerifyReport) (id : Symbol) : Except String Unit → VerifyReport
  | .ok () => { report with passed := report.passed ++ [id] }
  | .error reason => { report with failed := report.failed ++ [⟨id, reason⟩] }

def verifyVerifiers (verifiers : Symbol → Option Verifier) (answer : Expr Mode)
    (report : VerifyReport) : List Symbol → Effect Error Cx VerifyReport
  | [] => pure report
  | id :: ids => do
    let verdict ← verifyOne shop verifiers answer id
    verifyVerifiers verifiers answer (report.add id verdict) ids

variable (task : AuthorTask Mode Shape) (policy : RoutePolicy Mode Cx Value Verifier)

def checkRealized (realized : Expr Mode) : Effect String (Authoring Mode Cx) Unit := do
  let matched ← onCx shop "realized shape check" (shop.checkExpr task.returnShape realized)
  if matched.accepted then do
    let report ← onCx shop "verifier check"
      (verifyVerifiers shop policy.verifiers realized ⟨[], []⟩ task.verifiers)
    if report.accepted then pure ()
    else
      .fail ("verifier check failed: " ++ "; ".intercalate (report.failed.map fun failure =>
        failure.id.display ++ ": " ++ failure.reason))
  else
    .fail ("realized form failed return Shape: " ++ shapeDiagnostics matched.diagnostics)

/-- Realizes a form that the guard has let pass. -/
def realizeForm (target : RouteTarget Mode Cx Value) (place : Nat) (ceiling : List Symbol)
    (form : Expr Mode) : Effect String (Authoring Mode Cx) (AcceptedAuthorRun Mode) := do
  let state ← .get
  let current := shop.capabilities state.cx
  let narrowed := diminishedCapabilities current ceiling
  note (.realize place form current narrowed)
  let reply ← onCx shop "realize" (shop.withCapabilities narrowed
    (target.realize (realizeEvalRequest form (requiredCapabilitiesForForm form))))
  let realized ← onCx shop "realize value" (shop.asExpr reply.value)
  checkRealized shop task policy realized
  pure ⟨form, realized, reply.diagnostics⟩

def guardForm (target : RouteTarget Mode Cx Value) (place : Nat) (ceiling : List Symbol)
    (form : Expr Mode) : Effect String (Authoring Mode Cx) (AcceptedAuthorRun Mode) :=
  match outsideCeilingReason (requiredCapabilitiesForForm form) ceiling with
  | some reason => .fail reason
  | none => realizeForm shop task policy target place ceiling form

def runTargetOnce (target : RouteTarget Mode Cx Value) (place : Nat) (modelRequest : Expr Mode)
    (ceiling : List Symbol) : Effect String (Authoring Mode Cx) (AcceptedAuthorRun Mode) := do
  note (.author place)
  let reply ← onCx shop "model request" (target.realize (modelEvalRequest modelRequest))
  let response ← onCx shop "model response" (decodeModelResponse shop reply)
  let form ← onCx shop "terminal output" (decodeTerminalForm shop task response)
  guardForm shop task policy target place ceiling form

/-! ## The ladder -/

/-- An attempt ends the loop with an accepted run, or adds a failure to the attempts. -/
def authorStep (target : RouteTarget Mode Cx Value) (place : Nat) (modelRequest : Expr Mode)
    (ceiling : List Symbol) (attempts : List RouteAttempt) (_ : Nat) :
    Effect Error (Authoring Mode Cx)
      (Round (List RouteAttempt) (AcceptedAuthorRun Mode × List RouteAttempt)) := do
  match ← Effect.attempt (runTargetOnce shop task policy target place modelRequest ceiling) with
  | .ok accepted => pure (.complete (accepted, attempts ++ [⟨target.id, .accepted, none⟩]))
  | .error reason => pure (.again (attempts ++ [⟨target.id, .failed, some reason⟩]))

/-- The targets from a place of the ladder on. -/
def runLadder (modelRequest : Expr Mode) (ceiling : List Symbol) :
    List (RouteTarget Mode Cx Value) → Nat → List RouteAttempt →
    Effect Error (Authoring Mode Cx)
      (Round (List RouteAttempt) (AcceptedAuthorRun Mode × List RouteAttempt))
  | [], _, attempts => pure (.again attempts)
  | target :: targets, place, attempts =>
    match targetSkipReason target ceiling with
    | some reason =>
      runLadder modelRequest ceiling targets (place + 1)
        (attempts ++ [⟨target.id, .skipped, some reason⟩])
    | none => do
      match ← Effect.rounds (authorStep shop task policy target place modelRequest ceiling)
        policy.escalateAfter 0 attempts with
      | .complete accepted => pure (.complete accepted)
      | .again attempts => runLadder modelRequest ceiling targets (place + 1) attempts

/-! ## The outcome -/

def routeStatusSymbol : RouteAttemptStatus → Symbol
  | .skipped => .qualified "forge-route" "skipped"
  | .failed => .qualified "forge-route" "failed"
  | .accepted => .qualified "forge-route" "accepted"

def cassetteEvent (attempt : RouteAttempt) : Except Error Event :=
  shop.devEvent (if attempt.status = .accepted then .validate else .refusal) task.name (.map [
    Expr.entry "target" (.string attempt.target),
    Expr.entry "status" (.symbol (routeStatusSymbol attempt.status)),
    Expr.entry "reason" (match attempt.reason with | some reason => .string reason | none => .nil)])

def noAttemptEvent (diagnostics : List Diagnostic) : Except Error Event :=
  shop.devEvent .refusal task.name (.map [
    Expr.entry "target" (.string "none"),
    Expr.entry "reason" (.string ((diagnostics.head?.map (·.message)).getD "no route attempt"))])

def authorCassette (attempts : List RouteAttempt) (diagnostics : List Diagnostic) :
    Except Error Cassette := do
  let events ← if attempts.isEmpty then (do return [← noAttemptEvent shop task diagnostics])
    else attempts.mapM (cassetteEvent shop task)
  shop.fromEvents (.qualified "forge-author" task.name.display) events

def authorOutcome (accepted : Option (AcceptedAuthorRun Mode)) (attempts : List RouteAttempt)
    (diagnostics : List Diagnostic) : Except Error (AuthorOutcome Mode Cassette) := do
  let cassette ← authorCassette shop task attempts diagnostics
  return { checkedForm := accepted.map (·.checkedForm), realized := accepted.map (·.realized)
           attempts, diagnostics, cassette }

/-- Routes a task that could be asked for. -/
def routeTask (modelRequest : Expr Mode) (ceiling : List Symbol) (diagnostics : List Diagnostic) :
    Effect Error (Authoring Mode Cx) (AuthorOutcome Mode Cassette) := do
  match ← runLadder shop task policy modelRequest ceiling policy.ladder 0 [] with
  | .complete (accepted, attempts) =>
    .ofExcept (authorOutcome shop task (some accepted) attempts
      (diagnostics ++ accepted.diagnostics))
  | .again attempts =>
    .ofExcept (authorOutcome shop task none attempts (diagnostics ++
      [⟨true, "author task " ++ task.name.display ++
        " exhausted route policy without a checked form"⟩]))

def runAuthorTask : Effect Error (Authoring Mode Cx) (AuthorOutcome Mode Cassette) :=
  let projected := projectContractsWithCards shop task.contractCards task.projectionCaps
  let ceiling := authorizedCapabilities projected.2
  match shop.authorModelRequest task projected.1 with
  | .error e =>
    .ofExcept (authorOutcome shop task none []
      (projected.1.diagnostics ++ [⟨true, shop.displayError e⟩]))
  | .ok modelRequest =>
    if policy.ladder.isEmpty then
      .ofExcept (authorOutcome shop task none [] (projected.1.diagnostics ++
        [⟨true, "author task " ++ task.name.display ++ " has no route targets"⟩]))
    else routeTask shop task policy modelRequest ceiling projected.1.diagnostics

end Attempt

end SimAgentNet.Forge
