import SimAgentNet.OpenaiServer.Plan

/-! # Evaluation of plans

The evaluator passes a state along: the current request, the plan cache, the events recorded so far
and the number of the next branch. An evaluation nests by a call of `eval` for each plan it
reaches, and `eval` is given the number of nested calls there is room for. -/

open SimAgentNet.Expr (entry)

namespace SimAgentNet.OpenaiServer
variable {Mode World : Type}

/-! ## Model requests and responses -/

structure ModelRequest (Mode : Type) where
  task : Expr Mode
  messages : List (Expr Mode)
  extra : List (Expr Mode × Expr Mode)
deriving DecidableEq

namespace ModelRequest

def new (task : Expr Mode) (messages : List (Expr Mode)) : ModelRequest Mode := ⟨task, messages, []⟩

def toExpr (request : ModelRequest Mode) : Expr Mode :=
  .map ([entry "model-request" (.bool true), entry "task" request.task,
    entry "messages" (.list request.messages)] ++ request.extra)

end ModelRequest

/-- Usage of a response; the cost is kept as its text. -/
structure ModelUsage where
  inputTokens : Option Nat
  outputTokens : Option Nat
  latencyMs : Option Nat
  costUsd : Option String
deriving DecidableEq

structure ModelResponse (Mode : Type) where
  runner : Symbol
  model : String
  content : List (Expr Mode)
  stopReason : Symbol
  usage : Option ModelUsage
  extra : List (Expr Mode × Expr Mode)
deriving DecidableEq

def ModelResponse.new (runner : Symbol) (model : String) (content : List (Expr Mode))
    (stopReason : Symbol) : ModelResponse Mode := ⟨runner, model, content, stopReason, none, []⟩

/-- The texts that start a request: those of its task and of its messages. -/
def requestText (request : ModelRequest Mode) : String :=
  match collectText request.task ++ collectTexts request.messages with
  | [] => "fixture echo"
  | parts => " ".intercalate parts

def responseText (response : ModelResponse Mode) : String :=
  " ".intercalate (collectTexts response.content)

def responseSummary (response : ModelResponse Mode) : Expr Mode :=
  .map [entry "runner" (.symbol response.runner), entry "model" (.string response.model),
    entry "text" (.string (responseText response))]

/-! ## Contexts -/

inductive PlanPrivacy where
  | localOnly
  | allowRemote
deriving DecidableEq

structure EvalContext (Mode : Type) where
  privacy : PlanPrivacy
  privacyLabel : Option String
  budget : List (String × Expr Mode)
  trace : Bool

/-- What a federated request carries along. -/
structure FederationPolicy (Mode : Type) where
  privacy : Option String
  budget : List (String × Expr Mode)

/-- The packages the evaluator uses: the chat codec, JSON, and the texts of errors. -/
structure PlanApi (Mode : Type) where
  textPart : String → Expr Mode
  requestFromExpr : Expr Mode → PlanResult (ModelRequest Mode)
  responseFromExpr : Expr Mode → PlanResult (ModelResponse Mode)
  responseToExpr : ModelResponse Mode → Expr Mode
  isJsonObject : String → Bool
  textObject : String → String
  errorText : KernelError → String

namespace EvalContext
variable (host : Host Mode)

def keyName : Expr Mode → Option String
  | .symbol symbol => if symbol.ns.isNone then some symbol.name else none
  | .string value => some value
  | _ => none

def requestFieldText (request : Expr Mode) (name : String) : Option String :=
  match host.exprField request name with
  | some (.string value) => some value
  | some (.symbol value) => some value.name
  | _ => none

def requestBudgetEntries (request : Expr Mode) : List (String × Expr Mode) :=
  let fields :=
    match host.exprField request "budget" with
    | some (.map fields) => fields.filterMap fun e => (keyName e.1).map (·, e.2)
    | _ => []
  fields ++ ["max-tokens", "max-output-tokens", "max-cost", "max-latency-ms"].filterMap fun name =>
    (host.exprField request name).map (name, ·)

def fromRequest (request : Expr Mode) : EvalContext Mode :=
  let privacyLabel := requestFieldText host request "privacy"
  { privacy := if privacyLabel = some "local-only" then .localOnly else .allowRemote
    privacyLabel, budget := requestBudgetEntries host request, trace := false }

def «local» (self : EvalContext Mode) : EvalContext Mode :=
  { self with privacy := .localOnly, privacyLabel := some "local-only" }

def traced (self : EvalContext Mode) : EvalContext Mode := { self with trace := true }

def budgeted (self : EvalContext Mode) (args : List (Expr Mode)) : EvalContext Mode :=
  { self with
    budget := self.budget ++ ["max-tokens", "max-cost", "max-latency-ms"].filterMap fun name =>
      (keywordValue args name).map (name, ·) }

def federationPolicy (self : EvalContext Mode) : FederationPolicy Mode :=
  ⟨self.privacyLabel, self.budget⟩

end EvalContext

/-! ## Atoms -/

/-- Registered runners: the locality on the card of a model, and its inference. -/
structure RunnerRegistry (Mode World : Type) where
  locality : String → Option Symbol
  infer : String → ModelRequest Mode → Effect KernelError World (ModelResponse Mode)

/-- Inference over the federated gateways, behind the check of the capability. -/
structure Federation (Mode World : Type) where
  infer : String → ModelRequest Mode → FederationPolicy Mode →
    Effect KernelError World (ModelResponse Mode)

/-- Where a plan is evaluated: the packages, the capabilities of the caller and the targets. -/
structure PlanEnv (Mode World : Type) where
  host : Host Mode
  api : PlanApi Mode
  capabilities : CapabilitySet
  runners : Option (RunnerRegistry Mode World)
  federation : Option (Federation Mode World)

def planCapability : String := "openai-gateway.plan"
def planRemoteCapability : String := "openai-gateway.plan.remote"
def federateCapability : String := "openai-gateway.federate"

def PlanEnv.require (env : PlanEnv Mode World) (capability : String) : PlanResult Unit :=
  if capability ∈ env.capabilities then .ok () else .error (.capabilityDenied capability)

def knownProviderPrefixes : List String :=
  ["openai", "anthropic", "ollama", "lm-studio", "lemonade", "process", "runner", "agent", "skill",
    "sim", "fixture", "gateway"]

def modelNotFound (address : String) : KernelError := .eval ("model_not_found: " ++ address)

/-- The head of an atom address: the part before its first `/`, if it is a known provider. -/
def resolveAtomAddress (address : String) : PlanResult String :=
  match Text.splitOnce '/' address.toList with
  | none => .error (modelNotFound address)
  | some (head, _) =>
    if String.ofList head ∈ knownProviderPrefixes then .ok (.ofList head)
    else .error (modelNotFound address)

def localityIsAllowedForLocalOnly (locality : Symbol) : Bool :=
  ["local", "agent", "agent-backed", "fabric", "in-process", "process"].contains locality.name

section Fixtures
variable (api : PlanApi Mode)

def fixtureStaticResponse (model text : String) : ModelResponse Mode :=
  let tokens := (splitWhitespace text.toList).length
  { ModelResponse.new (.new model) model [api.textPart text] (.new "stop") with
    usage := some ⟨some tokens, some tokens,
      some (if model = "fixture/slow-echo" then 1000 else 0), some "0"⟩ }

def hasRoleTool : Expr Mode → Bool
  | .map entries =>
    entries.findSome? (fun e =>
      match e.2 with
      | .symbol value => if isBare "role" e.1 then some value.name else none
      | _ => none) == some "tool"
  | _ => false

def toolResultTexts (request : ModelRequest Mode) : List String :=
  (request.messages.filter hasRoleTool).map fun message => " ".intercalate (collectText message)

/-- The first entry whose key is a symbol of that name. -/
def entryNamed (entries : List (Expr Mode × Expr Mode)) (name : String) : Option (Expr Mode) :=
  (entriesNamed name entries).head?

/-- A field under a bare symbol that holds a string. -/
def stringField (entries : List (Expr Mode × Expr Mode)) (name : String) : Option String :=
  let value : Option (Expr Mode) :=
    entries.findSome? fun e => if isBare name e.1 then some e.2 else none
  match value with
  | some (.string text) => some text
  | _ => none

/-- The name in the first entry `function` that is a map with a name. -/
def functionName (entries : List (Expr Mode × Expr Mode)) : Option String :=
  (entriesNamed "function" entries).findSome? fun value =>
    match value with
    | .map function => stringField function "name"
    | _ => none

def toolChoiceName : Expr Mode → Option String
  | .string name => if name = "auto" ∨ name = "none" ∨ name = "required" then none else some name
  | .map entries => functionName entries
  | _ => none

def firstToolName : Expr Mode → Option String
  | .list tools => tools.findSome? fun tool =>
    match tool with
    | .map entries => functionName entries
    | _ => none
  | _ => none

def selectedToolName (request : ModelRequest Mode) : String :=
  (((entryNamed request.extra "tool-choice").bind toolChoiceName).or
    ((entryNamed request.extra "tools").bind firstToolName)).getD "tool_echo"

def fixtureArgumentsJson (request : ModelRequest Mode) : String :=
  let text :=
    match request.task with
    | .string text => text
    | _ => requestText request
  if api.isJsonObject text then text else api.textObject text

def toolCallPart (name arguments : String) : Expr Mode :=
  .map [entry "type" (.symbol (.new "tool-call")),
    entry "id" (.string ("call_" ++ name ++ "_000001")), entry "name" (.string name),
    entry "arguments" (.string arguments)]

def fixtureToolCallResponse (model : String) (request : ModelRequest Mode) (again : Bool) :
    ModelResponse Mode :=
  let results := toolResultTexts request
  if !again && !results.isEmpty then fixtureStaticResponse api model ("\n".intercalate results)
  else .new (.new model) model
    [toolCallPart (selectedToolName request) (fixtureArgumentsJson api request)] (.new "tool-call")

/-- The answer of a fixture. -/
def fixtureResponse (address : String) (request : ModelRequest Mode) :
    PlanResult (ModelResponse Mode) :=
  match address with
  | "fixture/echo" | "fixture/slow-echo" =>
    .ok (fixtureStaticResponse api address (requestText request))
  | "fixture/a" => .ok (fixtureStaticResponse api address "fixture a transcript")
  | "fixture/b" => .ok (fixtureStaticResponse api address "fixture b transcript")
  | "fixture/judge" => .ok (fixtureStaticResponse api address ("judged: " ++ requestText request))
  | "fixture/tool-call" => .ok (fixtureToolCallResponse api address request false)
  | "fixture/repeat-tool-call" => .ok (fixtureToolCallResponse api address request true)
  | "fixture/always-ok" => .ok (fixtureStaticResponse api address "ok")
  | "fixture/always-fail" => .ok (fixtureStaticResponse api address "fail")
  | "fixture/fail" => .error (.eval "fixture/fail failed")
  | _ => .ok (fixtureStaticResponse api address (requestText request))

end Fixtures

/-! ## The cache -/

structure PlanCacheKey where
  requestContentId : ContentId
  planContentId : ContentId
deriving DecidableEq

namespace PlanCacheKey

def orderKey (key : PlanCacheKey) : ContentId ×ₗ ContentId :=
  toLex (key.requestContentId, key.planContentId)

theorem orderKey_injective : Function.Injective orderKey := by
  rintro ⟨a, b⟩ ⟨c, d⟩ h
  obtain ⟨rfl, rfl⟩ := Prod.mk.inj (toLex.injective h)
  rfl

instance : LinearOrder PlanCacheKey := .lift' orderKey orderKey_injective

/-- The key of a request and of the plan that is evaluated on it. -/
def forRequestPlan (host : Host Mode) (request plan : Expr Mode) : PlanResult PlanCacheKey := do
  let requestId ← (host.requestExprContentId request).mapError .eval
  let planId ← (host.contentIdForExpr plan).mapError .eval
  return ⟨requestId, planId⟩

def toExpr (hexEncode : List UInt8 → String) (key : PlanCacheKey) : Expr Mode :=
  .map [entry "request-content-id" (contentIdExpr hexEncode key.requestContentId),
    entry "plan-content-id" (contentIdExpr hexEncode key.planContentId)]

end PlanCacheKey

inductive PlanCacheMode where
  | disabled
  | readThrough
  | readOnly
  | writeOnly
  | refresh
deriving DecidableEq

namespace PlanCacheMode

def fromName : String → PlanResult PlanCacheMode
  | "off" | "none" | "disabled" => .ok .disabled
  | "read-through" | "read-write" | "default" => .ok .readThrough
  | "read" | "read-only" => .ok .readOnly
  | "write" | "write-only" => .ok .writeOnly
  | "refresh" => .ok .refresh
  | other => .error (.eval ("unsupported plan/cache mode " ++ other))

def fromExpr : Expr Mode → PlanResult PlanCacheMode
  | .string name => fromName name
  | .symbol symbol =>
    if symbol.ns.isNone then fromName symbol.name
    else .error (.eval "plan/cache mode must be a symbol, string, or atom")
  | .list [.symbol head, .string name] =>
    if head = .new "plan/atom" then fromName name
    else .error (.eval "plan/cache mode must be a symbol, string, or atom")
  | _ => .error (.eval "plan/cache mode must be a symbol, string, or atom")

def reads : PlanCacheMode → Bool
  | readThrough | readOnly => true
  | _ => false

def writes : PlanCacheMode → Bool
  | readThrough | writeOnly | refresh => true
  | _ => false

end PlanCacheMode

/-- A backend that an evaluation makes use of. -/
inductive Use where
  | gateway (address : String)
  | runner (address : String) (locality : Symbol)
  | remote
deriving DecidableEq

/-- A cached response. The other fields say where it came from; no operation reads them: what was
used to compute it, under which privacy and with which capabilities. -/
structure CachedResponse (Mode : Type) where
  response : Expr Mode
  uses : List Use
  privacy : PlanPrivacy
  capabilities : CapabilitySet

abbrev PlanCache (Mode : Type) := SortedMap PlanCacheKey (CachedResponse Mode)

/-! ## The evaluator -/

/-- How an evaluation ends without a response: with an error, in a panic (a child that the code
indexes is absent), or because no nested call is left. -/
inductive Stop where
  | failure (error : KernelError)
  | panicked
  | exhausted
deriving DecidableEq

/-- The state of the evaluator. `uses` and `hits` only keep account of the backends used and of the
cache entries answered from, with the privacy they were used under. -/
structure PlanEvaluator (Mode World : Type) where
  world : World
  request : ModelRequest Mode
  cache : Option (PlanCache Mode)
  events : List (EventInput Mode)
  nextBranch : Nat
  uses : List (PlanPrivacy × Use)
  hits : List (PlanPrivacy × CachedResponse Mode)

abbrev Eval (Mode World α : Type) := Effect Stop (PlanEvaluator Mode World) α

abbrev Outcome (Mode : Type) := Except Stop (ModelResponse Mode)

namespace PlanEvaluator

def branchId (branch : Nat) : Expr Mode := .string ("branch-" ++ toString branch)

def startEvent (branch : Nat) (combinator : String) (child : Expr Mode) : EventInput Mode :=
  ⟨.new "branch-start", .map [entry "branch-id" (branchId branch),
    entry "combinator" (.symbol (.new combinator)), entry "plan" child]⟩

def endEvent (branch : Nat) (status : String) (result : Expr Mode) : EventInput Mode :=
  ⟨.new "branch-end", .map [entry "branch-id" (branchId branch),
    entry "status" (.symbol (.new status)), entry "result" result]⟩

/-- Starts a branch, whose number is that of the next one. -/
def start (s : PlanEvaluator Mode World) (combinator : String) (child : Expr Mode) :
    PlanEvaluator Mode World :=
  { s with nextBranch := s.nextBranch + 1
           events := s.events ++ [startEvent s.nextBranch combinator child] }

def finish (s : PlanEvaluator Mode World) (branch : Nat) (status : String) (result : Expr Mode) :
    PlanEvaluator Mode World :=
  { s with events := s.events ++ [endEvent branch status result] }

def «using» (s : PlanEvaluator Mode World) (privacy : PlanPrivacy) (use : Use) :
    PlanEvaluator Mode World :=
  { s with uses := s.uses ++ [(privacy, use)] }

end PlanEvaluator

namespace Eval
variable (env : PlanEnv Mode World)

def failure (error : KernelError) : Eval Mode World α := .fail (.failure error)

def ofResult (x : PlanResult α) : Eval Mode World α := .ofExcept (x.mapError .failure)

/-- A computation on the world. -/
def onWorld (x : Effect KernelError World α) : Eval Mode World α :=
  .focus PlanEvaluator.world (fun world s => { s with world }) (.mapError .failure x)

def branchStart (combinator : String) (child : Expr Mode) : Eval Mode World Nat := fun s =>
  (.ok s.nextBranch, s.start combinator child)

def branchEnd (branch : Nat) (status : String) (result : Expr Mode) : Eval Mode World Unit :=
  .modify (·.finish branch status result)

/-- The child at a position, which the code indexes without a check. -/
def childAt (children : List (Expr Mode)) (i : Nat) : Eval Mode World (Expr Mode) :=
  match children[i]? with
  | some child => pure child
  | none => .fail .panicked

/-- Runs `x` and returns its error, if it fails with one. -/
def attempt (x : Eval Mode World α) : Eval Mode World (PlanResult α) := fun s =>
  match x s with
  | (.ok a, s') => (.ok (.ok a), s')
  | (.error (.failure e), s') => (.ok (.error e), s')
  | (.error stop, s') => (.error stop, s')

def evalAtom (address : String) (context : EvalContext Mode) :
    Eval Mode World (ModelResponse Mode) := do
  let head ← ofResult (resolveAtomAddress address)
  let s ← Effect.get
  let refused := KernelError.eval ("local-only privacy rejects remote model " ++ address)
  if head = "gateway" then
    if context.privacy = .localOnly then failure refused
    else match env.federation with
      | none => failure (modelNotFound address)
      | some federation =>
        ofResult (env.require federateCapability)
        .modify (·.using context.privacy (.gateway address))
        onWorld (federation.infer address s.request context.federationPolicy)
  else if head ≠ "fixture" then
    match env.runners with
    | none => failure (modelNotFound address)
    | some runners =>
      match runners.locality address with
      | none => failure (modelNotFound address)
      | some locality =>
        if context.privacy = .localOnly ∧ ¬localityIsAllowedForLocalOnly locality then
          failure refused
        else
          .modify (·.using context.privacy (.runner address locality))
          onWorld (runners.infer address s.request)
  else ofResult (fixtureResponse env.api address s.request)

section Combinators
variable (eval : Expr Mode → EvalContext Mode → Eval Mode World (ModelResponse Mode))

def isSlowFixture (plan : Expr Mode) : Bool := atomAddress plan == some "fixture/slow-echo"

/-- The loop of a race. `many` says that the race has more than one child. -/
def raceLoop (many : Bool) (context : EvalContext Mode) :
    List (Expr Mode) → (winner : Option (ModelResponse Mode)) → (firstError : Option KernelError) →
      Eval Mode World (ModelResponse Mode)
  | [], winner, firstError =>
    match winner with
    | some response => pure response
    | none => failure (firstError.getD (.eval "plan/race had no winning branch"))
  | child :: children, winner, firstError => do
    let branch ← branchStart "race" child
    if many && isSlowFixture child then
      branchEnd branch "cancelled" (.string "cancelled by faster branch")
      raceLoop many context children winner firstError
    else
      match ← attempt (eval child context), winner with
      | .ok response, none =>
        branchEnd branch "winner" (responseSummary response)
        raceLoop many context children (some response) firstError
      | .ok response, some first =>
        branchEnd branch "cancelled" (responseSummary response)
        raceLoop many context children (some first) firstError
      | .error e, winner =>
        branchEnd branch "error" (.string (env.api.errorText e))
        raceLoop many context children winner (firstError.or (some e))

def evalRace (children : List (Expr Mode)) (context : EvalContext Mode) :
    Eval Mode World (ModelResponse Mode) :=
  raceLoop env eval (1 < children.length) context children none none

def fallbackLoop (context : EvalContext Mode) :
    List (Expr Mode) → (firstError : Option KernelError) → Eval Mode World (ModelResponse Mode)
  | [], firstError => failure (firstError.getD (.eval "plan/fallback had no children"))
  | child :: children, firstError => do
    let branch ← branchStart "fallback" child
    match ← attempt (eval child context) with
    | .ok response =>
      branchEnd branch "accepted" (responseSummary response)
      return response
    | .error e =>
      branchEnd branch "error" (.string (env.api.errorText e))
      fallbackLoop context children (firstError.or (some e))

def evalFallback (children : List (Expr Mode)) (context : EvalContext Mode) :
    Eval Mode World (ModelResponse Mode) :=
  fallbackLoop env eval context children none

def evalChild (combinator : String) (child : Expr Mode) (context : EvalContext Mode) :
    Eval Mode World (ModelResponse Mode) := do
  let branch ← branchStart combinator child
  match ← attempt (eval child context) with
  | .ok response =>
    branchEnd branch "completed" (responseSummary response)
    return response
  | .error e =>
    branchEnd branch "error" (.string (env.api.errorText e))
    failure e

/-- The loop of a chain: each response is the request of the next child. -/
def chainLoop (context : EvalContext Mode) :
    List (Expr Mode) → (last : Option (ModelResponse Mode)) →
      Eval Mode World (Option (ModelResponse Mode))
  | [], last => pure last
  | child :: children, _ => do
    let response ← evalChild env eval "chain" child context
    .modify fun s => { s with request := .new (.string (responseText response)) [] }
    chainLoop context children (some response)

/-- A chain. An error of a child leaves before the request is put back. -/
def evalChain (children : List (Expr Mode)) (context : EvalContext Mode) :
    Eval Mode World (ModelResponse Mode) := do
  let saved ← .observe fun s => .ok s.request
  let last ← chainLoop env eval context children none
  .modify fun s => { s with request := saved }
  match last with
  | some response => return response
  | none => failure (.eval "plan/chain had no children")

def evalRemote (child : Expr Mode) (context : EvalContext Mode) :
    Eval Mode World (ModelResponse Mode) := do
  if context.privacy = .localOnly then
    failure (.eval "local-only privacy rejects plan/remote")
  ofResult (env.require planRemoteCapability)
  .modify (·.using context.privacy .remote)
  evalChild env eval "remote" child context

def readThroughDefault (args : List (Expr Mode)) : PlanResult PlanCacheMode :=
  match keywordValue args "mode" with
  | some mode => PlanCacheMode.fromExpr mode
  | none => .ok .readThrough

/-- Stores a response that was computed since the state `before`. -/
def putCache (before : PlanEvaluator Mode World) (privacy : PlanPrivacy) (key : PlanCacheKey)
    (response : ModelResponse Mode) : Eval Mode World Unit :=
  .modify fun s => { s with
    cache := s.cache.map (·.insert key
      { response := env.api.responseToExpr response
        uses := (s.uses.drop before.uses.length).map (·.2)
        privacy, capabilities := env.capabilities }) }

def evalCache (args : List (Expr Mode)) (child : Expr Mode) (context : EvalContext Mode) :
    Eval Mode World (ModelResponse Mode) := do
  let mode ← ofResult (readThroughDefault args)
  if mode = .disabled then
    evalChild env eval "cache" child context
  else
    let s ← Effect.get
    let key ← ofResult (PlanCacheKey.forRequestPlan env.host s.request.toExpr child)
    match if mode.reads then s.cache.bind (·.get? key) else none with
    | some cached =>
      .modify fun s => { s with
        events := s.events ++ [⟨.new "cache-hit", key.toExpr env.host.hexEncode⟩]
        uses := s.uses ++ cached.uses.map (context.privacy, ·)
        hits := s.hits ++ [(context.privacy, cached)] }
      ofResult (env.api.responseFromExpr cached.response)
    | none =>
      let response ← evalChild env eval "cache" child context
      if mode.writes then
        putCache env s context.privacy key response
      return response

def verifierAccepts (response : ModelResponse Mode) : Bool :=
  let text := Text.utf8 (responseText response)
  Text.containsBytes text (Text.utf8 "ok") || Text.containsBytes text (Text.utf8 "accept")

/-- What a rejected output becomes. -/
def onRejected (args : List (Expr Mode)) (generated : ModelResponse Mode) :
    PlanResult (ModelResponse Mode) :=
  match (keywordAtom args "on-fail").getD "error" with
  | "accept" => .ok generated
  | "error" | "escalate" => .error (.eval "plan/verify checker rejected output")
  | other => .error (.eval ("unsupported plan/verify on-fail behavior " ++ other))

def evalVerify (args children : List (Expr Mode)) (context : EvalContext Mode) :
    Eval Mode World (ModelResponse Mode) := do
  let generated ← evalChild env eval "verify/generator" (← childAt children 0) context
  let verifier ← evalChild env eval "verify/checker" (← childAt children 1) context
  if verifierAccepts verifier then
    return generated
  ofResult (onRejected args generated)

def sidesLoop (context : EvalContext Mode) :
    List (Expr Mode) → (transcripts : List String) → Eval Mode World (List String)
  | [], transcripts => pure transcripts
  | child :: children, transcripts => do
    let response ← evalChild env eval "debate/side" child context
    sidesLoop context children (transcripts ++ [responseText response])

def defaultJudge : Expr Mode := .list [.symbol (.new "plan/atom"), .string "fixture/judge"]

/-- The plan that judges a debate: the value of the keyword, as it is. -/
def judgePlan (args : List (Expr Mode)) : Expr Mode := (keywordValue args "judge").getD defaultJudge

/-- Runs `x` on another request and puts the request back, however it ends. -/
def withRequest (request : ModelRequest Mode) (x : Eval Mode World α) : Eval Mode World α := fun s =>
  match x { s with request } with
  | (result, s') => (result, { s' with request := s.request })

def evalDebate (args children : List (Expr Mode)) (context : EvalContext Mode) :
    Eval Mode World (ModelResponse Mode) := do
  let transcripts ← sidesLoop env eval context children []
  withRequest (.new (.string (" | ".intercalate transcripts)) [])
    (evalChild env eval "debate/judge" (judgePlan args) context)

/-- One call of the evaluator; the plans it reaches are evaluated by `eval`. -/
def step (plan : Expr Mode) (context : EvalContext Mode) : Eval Mode World (ModelResponse Mode) := do
  let (name, args) ← ofResult (planParts plan)
  if name = "atom" then
    match args with
    | [.string address] => evalAtom env address context
    | _ => failure (.eval "plan/atom expects one address")
  else
    let children := childArgs args
    match combinatorByName name with
    | some .race => evalRace env eval children context
    | some .fallback => evalFallback env eval children context
    | some .chain => evalChain env eval children context
    | some .budget => evalChild env eval name (← childAt children 0) (context.budgeted args)
    | some .market => evalChild env eval name (← childAt children 0) context
    | some .local => evalChild env eval name (← childAt children 0) context.local
    | some .remote => evalRemote env eval (← childAt children 0) context
    | some .trace => evalChild env eval name (← childAt children 0) context.traced
    | some .verify => evalVerify env eval args children context
    | some .debate => evalDebate env eval args children context
    | some .cache => evalCache env eval args (← childAt children 0) context
    | none => failure (.eval ("unknown plan combinator " ++ name))

end Combinators

/-- The evaluator, with room for `depth` nested calls. -/
def eval : (depth : Nat) → Expr Mode → EvalContext Mode → Eval Mode World (ModelResponse Mode)
  | 0, _, _ => .fail .exhausted
  | depth + 1, plan, context => step env (eval depth) plan context

end Eval

/-! ## Reports -/

/-- What is checked before a plan is evaluated on a request. -/
def admitPlan (env : PlanEnv Mode World) (plan request : Expr Mode) :
    PlanResult (ModelRequest Mode) := do
  checkPlan plan
  let (name, _) ← planParts plan
  if name ≠ "atom" then
    env.require planCapability
  env.api.requestFromExpr request

def PlanEvaluator.new (world : World) (cache : Option (PlanCache Mode))
    (request : ModelRequest Mode) : PlanEvaluator Mode World := ⟨world, request, cache, [], 0, [], []⟩

/-- Evaluates a plan on a request and returns the response with the events. The nesting of the
expression bounds the nesting of the calls. -/
def evalPlanReport (env : PlanEnv Mode World) (plan request : Expr Mode) :
    Effect Stop (World × Option (PlanCache Mode)) (PlanEvalReport Mode) := fun (world, cache) =>
  match admitPlan env plan request with
  | .error e => (.error (.failure e), (world, cache))
  | .ok model =>
    match Eval.eval env (nesting plan + 1) plan (.fromRequest env.host request)
        (.new world cache model) with
    | (.ok response, s) => (.ok ⟨env.api.responseToExpr response, s.events⟩, (s.world, s.cache))
    | (.error stop, s) => (.error stop, (s.world, s.cache))

end SimAgentNet.OpenaiServer
