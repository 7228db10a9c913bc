import SimAgentNet.OpenaiServer.JsonText
import SimAgentNet.OpenaiServer.PlanDepth
import SimAgentNet.OpenaiServer.Tools

/-! # The tool loop

A response that asks for tools has them executed, their results are appended to the request, and
the plan is evaluated again. The loop looks at a response at the head of a round, so the response
that the last permitted round obtains is never looked at. -/

open SimAgentNet.Expr (entry)

namespace SimAgentNet.OpenaiServer
variable {Mode World : Type}

/-! ## Calls and results -/

/-- A JSON value as a parser builds it. -/
abbrev JsonValue := { json : Json // json.Numeric }

/-- The packages that the translation of tool calls uses. -/
structure ToolApi (Mode : Type) where
  entryField : List (Expr Mode × Expr Mode) → String → Option (Expr Mode)
  fromStr : String → Except String JsonValue
  projectExprToJson : Expr Mode → JsonValue
  jsonToExpr : Json → Expr Mode
  debugText : Expr Mode → String
  fencedDataText : (label body : String) → (content : Expr Mode) → PlanResult String
  schema : SchemaApi

structure OpenAiToolCall where
  id : String
  name : String
  arguments : JsonValue

structure OpenAiToolResult (Mode : Type) where
  callId : String
  name : String
  status : Symbol
  output : Expr Mode

section Calls
variable (api : ToolApi Mode)

def argumentsJson : Expr Mode → PlanResult JsonValue
  | .string text => (api.fromStr text).mapError fun e =>
    .eval ("tool-call arguments must be JSON: " ++ e)
  | other => .ok (api.projectExprToJson other)

def exprText : Expr Mode → String
  | .string text => text
  | .number number => number.canonical
  | .bool value => toString value
  | .nil => "nil"
  | other => api.debugText other

namespace OpenAiToolCall

def symbolField (entries : List (Expr Mode × Expr Mode)) (name : String) : Option String :=
  match api.entryField entries name with
  | some (.symbol value) => some value.name
  | _ => none

def stringField (entries : List (Expr Mode × Expr Mode)) (name : String) : Option String :=
  match api.entryField entries name with
  | some (.string value) => some value
  | _ => none

/-- The call in a part of a response. Other parts than maps of the type `tool-call` hold none. -/
def fromContentPart : Expr Mode → PlanResult (Option OpenAiToolCall)
  | .map entries => do
    if symbolField api entries "type" ≠ some "tool-call" then
      return none
    let name ← match stringField api entries "name" with
      | some name => pure name
      | none => .error (.eval "tool-call missing string name")
    let id := (stringField api entries "id").getD ("call_" ++ name)
    let arguments ← match entries.find? (fun e => isBare "arguments" e.1) with
      | some (_, value) => argumentsJson api value
      | none => pure ⟨.object [], trivial⟩
    return some ⟨id, name, arguments⟩
  | _ => .ok none

def toExpr (call : OpenAiToolCall) : Expr Mode :=
  .map [entry "id" (.string call.id), entry "name" (.string call.name),
    entry "arguments" (api.jsonToExpr call.arguments.1)]

/-- The text by which repeated calls are told. -/
def fingerprint (serde : Serde) (call : OpenAiToolCall) : String :=
  call.name ++ ":" ++ serde.toText call.arguments.1

end OpenAiToolCall

namespace OpenAiToolResult

def success (call : OpenAiToolCall) (output : Expr Mode) : OpenAiToolResult Mode :=
  ⟨call.id, call.name, .new "ok", output⟩

def failure (call : OpenAiToolCall) (status message : String) : OpenAiToolResult Mode :=
  ⟨call.id, call.name, .new status, .string message⟩

def invalidArguments (call : OpenAiToolCall) (message : String) : OpenAiToolResult Mode :=
  failure call "invalid-arguments" message

def capabilityDenied (call : OpenAiToolCall) (message : String) : OpenAiToolResult Mode :=
  failure call "capability-denied" message

def unknownTool (call : OpenAiToolCall) : OpenAiToolResult Mode :=
  failure call "unknown-tool" ("unknown tool " ++ call.name)

def toExpr (result : OpenAiToolResult Mode) : Expr Mode :=
  .map [entry "tool-call-id" (.string result.callId), entry "name" (.string result.name),
    entry "status" (.symbol result.status), entry "output" result.output]

def messageText (result : OpenAiToolResult Mode) : String :=
  "tool " ++ result.name ++ " " ++ result.status.name ++ ": " ++ exprText api result.output

end OpenAiToolResult

def toolResultMessage (result : OpenAiToolResult Mode) : PlanResult (Expr Mode) := do
  let text ← api.fencedDataText "openai-tool-result" (result.messageText api) result.toExpr
  return .map [entry "role" (.symbol (.new "tool")), entry "tool-call-id" (.string result.callId),
    entry "content" (.list [.map [entry "type" (.symbol (.new "text")),
      entry "text" (.string text)]])]

/-- Appends a message to the first `messages` entry. When there is none, or it is not a list, an
entry is added at the end. -/
def pushMessage (message : Expr Mode) (entries : List (Expr Mode × Expr Mode)) :
    List (Expr Mode × Expr Mode) :=
  match entries.findIdx? (fun e => isBare "messages" e.1) with
  | some i =>
    match entries[i]? with
    | some (key, .list messages) => entries.set i (key, .list (messages ++ [message]))
    | _ => entries ++ [entry "messages" (.list [message])]
  | none => entries ++ [entry "messages" (.list [message])]

def appendToolResult (request : Expr Mode) (result : OpenAiToolResult Mode) :
    PlanResult (Expr Mode) :=
  match request with
  | .map entries => do
    let message ← toolResultMessage api result
    return .map (pushMessage message entries)
  | _ => .ok request

def toolCalls (response : ModelResponse Mode) : PlanResult (List OpenAiToolCall) := do
  let calls ← response.content.mapM (OpenAiToolCall.fromContentPart api)
  return calls.filterMap id

end Calls

/-! ## Execution of one call -/

/-- The functions of the kernel that run a callable. -/
structure ToolKernel (Mode World : Type) where
  Value : Type
  Object : Type
  Callable : Type
  Shape : Type
  factory : Factory Value
  resolveFunction : Symbol → Effect KernelError World Object
  asCallable : Object → Option Callable
  browseArgsShape : Callable → Effect KernelError World (Option Object)
  asShape : Object → Option Shape
  checkValue : Shape → Value → Effect KernelError World (Bool × List String)
  callFunction : Symbol → List Value → Effect KernelError World Value
  asExpr : Value → Effect KernelError World (Expr Mode)

structure OpenAiToolRegistry where
  tools : List (String × OpenAiTool)

namespace OpenAiToolRegistry

def isEmpty (registry : OpenAiToolRegistry) : Bool := registry.tools.isEmpty

def get (registry : OpenAiToolRegistry) (name : String) : Option OpenAiTool :=
  registry.tools.lookup name

end OpenAiToolRegistry

def toolsCapability : String := "openai-gateway.tools"

def PlanEnv.requireAll (env : PlanEnv Mode World) (capabilities : List String) : PlanResult Unit :=
  capabilities.forM env.require

section Execution
variable (env : PlanEnv Mode World) (api : ToolApi Mode) (kernel : ToolKernel Mode World)

def shapeErrorMessage (diagnostics : List String) : String :=
  diagnostics.head?.getD "callable args shape rejected tool arguments"

/-- The message of a rejection by the shape of the callable, if it has one. -/
def validateCallableArgsShape (symbol : Symbol) (args : List kernel.Value) :
    Effect KernelError World (Option String) := do
  let function ← kernel.resolveFunction symbol
  match kernel.asCallable function with
  | none => .fail (.other "expected callable, found non-callable")
  | some callable =>
    match ← kernel.browseArgsShape callable with
    | none => return none
    | some shape =>
      match kernel.asShape shape with
      | none => .fail (.other "expected shape, found non-shape")
      | some shape =>
        let list ← .ofExcept ((kernel.factory.list args).mapError .other)
        let (accepted, diagnostics) ← kernel.checkValue shape list
        return if accepted then none else some (shapeErrorMessage diagnostics)

/-- Runs `x` and returns its error, if it fails. -/
def tryCall (x : Effect KernelError World α) : Effect KernelError World (PlanResult α) := fun w =>
  (.ok (x w).1, (x w).2)

def executeToolCall (registry : OpenAiToolRegistry) (call : OpenAiToolCall) :
    Effect KernelError World (OpenAiToolResult Mode) :=
  match registry.get call.name with
  | none => pure (.unknownTool call)
  | some tool =>
    match env.require toolsCapability >>= fun _ => env.requireAll tool.capabilities with
    | .error e => pure (.capabilityDenied call (env.api.errorText e))
    | .ok () =>
      match tool.argumentValues api.schema kernel.factory call.arguments.1 with
      | .error message => pure (.invalidArguments call message)
      | .ok args => do
        match ← validateCallableArgsShape kernel tool.symbol args with
        | some message => return .invalidArguments call message
        | none =>
          match ← tryCall (kernel.callFunction tool.symbol args) with
          | .ok value => return .success call (← kernel.asExpr value)
          | .error (.capabilityDenied capability) =>
            return .capabilityDenied call ("capability denied: " ++ capability)
          | .error e => .fail e

end Execution

/-! ## The loop -/

structure ToolLoopConfig where
  maxToolRounds : Nat
  maxToolCallsPerRound : Nat

def ToolLoopConfig.default : ToolLoopConfig := ⟨4, 8⟩

/-- The variables of the loop. -/
structure ToolLoop (Mode : Type) where
  events : List (EventInput Mode)
  request : Expr Mode
  response : ModelResponse Mode
  seenCalls : List String

/-- What a run of the loop has changed, with the calls it has executed and the rounds it has begun
since its start. -/
structure ToolRun (Mode World : Type) where
  world : World
  cache : Option (PlanCache Mode)
  executed : List OpenAiToolCall
  rounds : Nat

/-- An evaluation of the plan on a request. -/
abbrev EvaluatesRequest (Mode World : Type) :=
  Expr Mode → Effect Stop (World × Option (PlanCache Mode)) (PlanEvalReport Mode)

section Loop
variable (env : PlanEnv Mode World) (api : ToolApi Mode) (kernel : ToolKernel Mode World)
  (registry : OpenAiToolRegistry) (evaluate : EvaluatesRequest Mode World) (config : ToolLoopConfig)

namespace ToolLoop

abbrev M (Mode World α : Type) := Effect Stop (ToolRun Mode World) α

def ofResult (x : PlanResult α) : M Mode World α := .ofExcept (x.mapError .failure)

def execute (call : OpenAiToolCall) : M Mode World (OpenAiToolResult Mode) := do
  .modify fun run => { run with executed := run.executed ++ [call] }
  .focus ToolRun.world (fun world run => { run with world })
    (.mapError .failure (executeToolCall env api kernel registry call))

/-- Executes a call and appends its result to the request. -/
def perform (loop : ToolLoop Mode) (call : OpenAiToolCall) : M Mode World (ToolLoop Mode) := do
  let result ← execute env api kernel registry call
  let request ← ofResult (appendToolResult api loop.request result)
  return { loop with
    events := loop.events ++ [⟨.new "tool-call", call.toExpr api⟩, ⟨.new "tool-result", result.toExpr⟩]
    request
    seenCalls := call.fingerprint env.host.serde :: loop.seenCalls }

def performNew (loop : ToolLoop Mode) (call : OpenAiToolCall) : M Mode World (ToolLoop Mode) :=
  if call.fingerprint env.host.serde ∈ loop.seenCalls then
    .fail (.failure (.eval ("repeated identical tool call rejected: " ++ call.name)))
  else perform env api kernel registry loop call

/-- Evaluates the plan on the current request. -/
def nextResponse (loop : ToolLoop Mode) : M Mode World (ToolLoop Mode) := do
  let next ← .focus (fun run => (run.world, run.cache))
    (fun (world, cache) run => { run with world, cache }) (evaluate loop.request)
  let response ← ofResult (env.api.responseFromExpr next.response)
  return { loop with events := loop.events ++ next.events, response }

def report (loop : ToolLoop Mode) : PlanEvalReport Mode :=
  ⟨env.api.responseToExpr loop.response, loop.events⟩

/-- The rounds of the loop, of which `n` are left. -/
def rounds : (n : Nat) → ToolLoop Mode → M Mode World (PlanEvalReport Mode)
  | 0, _ => .fail (.failure (.eval
      ("tool loop exceeded maximum rounds " ++ toString config.maxToolRounds)))
  | n + 1, loop => do
    let calls ← ofResult (toolCalls api loop.response)
    if calls.isEmpty then
      return loop.report env
    if config.maxToolCallsPerRound < calls.length then
      .fail (.failure (.eval ("tool round requested " ++ toString calls.length ++
        " calls, maximum is " ++ toString config.maxToolCallsPerRound)))
    .modify fun run => { run with rounds := run.rounds + 1 }
    let loop ← calls.foldlM (performNew env api kernel registry) loop
    let loop ← nextResponse env evaluate loop
    rounds n loop

end ToolLoop

/-- The variables at the start of the loop. -/
def toolLoopStart (request : Expr Mode) (initial : PlanEvalReport Mode) :
    PlanResult (ToolLoop Mode) := do
  let response ← env.api.responseFromExpr initial.response
  return ⟨initial.events, request, response, []⟩

def ToolLoop.run (request : Expr Mode) (initial : PlanEvalReport Mode) :
    ToolLoop.M Mode World (PlanEvalReport Mode) := do
  let loop ← ToolLoop.ofResult (toolLoopStart env request initial)
  loop.rounds env api kernel registry evaluate config config.maxToolRounds

end Loop

/-- The environment with other runners and another federation. -/
def PlanEnv.targeting (env : PlanEnv Mode World) (runners : Option (RunnerRegistry Mode World))
    (federation : Option (Federation Mode World)) : PlanEnv Mode World :=
  { env with runners, federation }

def evalPlanReportWithCache (env : PlanEnv Mode World) (plan : Expr Mode) :
    EvaluatesRequest Mode World := evalPlanReport (env.targeting none none) plan

/-- The loop. Its evaluations of the plan have the plan cache, but no runners and no federation. -/
def runToolLoopWithRegistry (env : PlanEnv Mode World) (api : ToolApi Mode)
    (kernel : ToolKernel Mode World) (plan request : Expr Mode) (registry : OpenAiToolRegistry)
    (initial : PlanEvalReport Mode) (config : ToolLoopConfig) :
    ToolLoop.M Mode World (PlanEvalReport Mode) :=
  ToolLoop.run env api kernel registry (evalPlanReportWithCache env plan) config request initial

/-! ## What the loop is to do -/

/-- The same tool with equal arguments. -/
def OpenAiToolCall.Identical (a b : OpenAiToolCall) : Prop :=
  a.name = b.name ∧ a.arguments = b.arguments

/-- No call is repeated. -/
def AllNew (calls : List OpenAiToolCall) : Prop := calls.Pairwise fun a b => ¬a.Identical b

/-- The variables of the loop and what the run has changed. -/
abbrev LoopState (Mode World : Type) := ToolLoop Mode × ToolRun Mode World

section Rounds
variable (env : PlanEnv Mode World) (api : ToolApi Mode) (kernel : ToolKernel Mode World)
  (registry : OpenAiToolRegistry) (evaluate : EvaluatesRequest Mode World) (config : ToolLoopConfig)

/-- One round of tool execution: the calls that the response asks for are within the limit and
repeat none, they are executed, and the plan is evaluated on their results. -/
def Round (s s' : LoopState Mode World) : Prop :=
  ∃ calls loop run, toolCalls api s.1.response = .ok calls ∧ calls ≠ [] ∧
    calls.length ≤ config.maxToolCallsPerRound ∧ AllNew (s.2.executed ++ calls) ∧
    calls.foldlM (ToolLoop.perform env api kernel registry) s.1
      { s.2 with rounds := s.2.rounds + 1 } = (.ok loop, run) ∧
    loop.nextResponse env evaluate run = (.ok s'.1, s'.2)

inductive Rounds : Nat → LoopState Mode World → LoopState Mode World → Prop
  | none : Rounds 0 s s
  | next (h : Round env api kernel registry evaluate config s s₁) (h' : Rounds k s₁ s') :
    Rounds (k + 1) s s'

/-- The response asks for no tools, and is the one of the report. -/
def Final (s : LoopState Mode World) (report : PlanEvalReport Mode) : Prop :=
  toolCalls api s.1.response = .ok [] ∧ report = s.1.report env

/-- The first response without tool calls comes after `k` rounds. -/
def StopsAfter (request : Expr Mode) (initial : PlanEvalReport Mode) (run : ToolRun Mode World)
    (k : Nat) (report : PlanEvalReport Mode) : Prop :=
  ∃ loop s, toolLoopStart env request initial = .ok loop ∧
    Rounds env api kernel registry evaluate config k (loop, run) s ∧ Final env api s report

end Rounds

/-- The package prints the compact text of a value. -/
def Serde.Compact (serde : Serde) : Prop := ∀ json, serde.toText json = String.ofList json.text

theorem OpenAiToolCall.Identical.fingerprint_eq {a b : OpenAiToolCall} (h : a.Identical b)
    (serde : Serde) : a.fingerprint serde = b.fingerprint serde := by
  rw [fingerprint, fingerprint, h.1, h.2]

/-- Calls of one fingerprint are the same. -/
theorem OpenAiToolCall.identical_of_fingerprint {serde : Serde} (hserde : serde.Compact)
    {a b : OpenAiToolCall} (h : a.fingerprint serde = b.fingerprint serde) : a.Identical b := by
  rw [fingerprint, fingerprint, hserde, hserde] at h
  have hchars := congrArg String.toList h
  simp only [String.toList_append, String.toList_ofList, List.append_assoc] at hchars
  obtain ⟨hname, hjson⟩ := Json.colon_text_inj a.arguments.2 b.arguments.2 hchars
  exact ⟨String.toList_inj.mp hname, Subtype.ext hjson⟩

namespace ToolLoop
variable {env : PlanEnv Mode World} {api : ToolApi Mode} {kernel : ToolKernel Mode World}
  {registry : OpenAiToolRegistry} {evaluate : EvaluatesRequest Mode World} {config : ToolLoopConfig}
  {loop loop' : ToolLoop Mode} {run run' : ToolRun Mode World}

/-- The fingerprints that were seen are those of the executed calls. -/
def Seen (env : PlanEnv Mode World) (s : LoopState Mode World) : Prop :=
  s.1.seenCalls = (s.2.executed.map (OpenAiToolCall.fingerprint env.host.serde)).reverse

theorem Seen.mem_iff (h : Seen env (loop, run)) (hserde : env.host.serde.Compact)
    {call : OpenAiToolCall} :
    call.fingerprint env.host.serde ∈ loop.seenCalls ↔ ∃ c ∈ run.executed, c.Identical call := by
  rw [show loop.seenCalls = _ from h, List.mem_reverse, List.mem_map]
  constructor
  · rintro ⟨c, hc, hfp⟩
    exact ⟨c, hc, OpenAiToolCall.identical_of_fingerprint hserde hfp⟩
  · rintro ⟨c, hc, hid⟩
    exact ⟨c, hc, hid.fingerprint_eq _⟩

theorem perform_spec {call : OpenAiToolCall}
    (h : perform env api kernel registry loop call run = (out, run')) :
    run'.executed = run.executed ++ [call] ∧ run'.rounds = run.rounds ∧
      ∀ loop', out = .ok loop' →
        loop'.seenCalls = call.fingerprint env.host.serde :: loop.seenCalls := by
  simp only [perform, execute, Effect.bind_apply, Effect.modify_apply, Effect.focus,
    Effect.mapError] at h
  generalize executeToolCall env api kernel registry call run.world = result at h
  obtain ⟨result, world⟩ := result
  cases result with
  | error e =>
    cases h
    exact ⟨rfl, rfl, fun _ h => by cases h⟩
  | ok result =>
    simp only [Except.mapError, ofResult, Effect.ofExcept_apply] at h
    cases happend : appendToolResult api loop.request result with
    | error e =>
      simp only [happend] at h
      cases h
      exact ⟨rfl, rfl, fun _ h => by cases h⟩
    | ok request =>
      simp only [happend] at h
      cases h
      refine ⟨rfl, rfl, ?_⟩
      rintro loop' ⟨⟩
      rfl

theorem nextResponse_spec (h : loop.nextResponse env evaluate run = (out, run')) :
    run'.executed = run.executed ∧ run'.rounds = run.rounds ∧
      ∀ loop', out = .ok loop' → loop'.seenCalls = loop.seenCalls := by
  simp only [nextResponse, Effect.bind_apply, Effect.focus] at h
  generalize evaluate loop.request (run.world, run.cache) = result at h
  obtain ⟨result, world, cache⟩ := result
  cases result with
  | error e =>
    cases h
    exact ⟨rfl, rfl, fun _ h => by cases h⟩
  | ok next =>
    simp only [ofResult, Effect.ofExcept_apply] at h
    cases hresponse : env.api.responseFromExpr next.response with
    | error e =>
      simp only [hresponse] at h
      cases h
      exact ⟨rfl, rfl, fun _ h => by cases h⟩
    | ok response =>
      simp only [hresponse] at h
      cases h
      refine ⟨rfl, rfl, ?_⟩
      rintro loop' ⟨⟩
      rfl

theorem AllNew.concat {calls : List OpenAiToolCall} (h : AllNew calls)
    (hnew : ¬∃ c ∈ calls, c.Identical call) : AllNew (calls ++ [call]) := by
  refine List.pairwise_append.mpr ⟨h, List.pairwise_singleton _ _, ?_⟩
  intro c hc d hd
  cases List.mem_singleton.mp hd
  exact fun hid => hnew ⟨c, hc, hid⟩

/-- Performing a call keeps the fingerprints those of the executed calls. -/
theorem Seen.perform (h : Seen env (loop, run)) {call : OpenAiToolCall}
    (hp : loop.perform env api kernel registry call run = (.ok loop', run')) :
    Seen env (loop', run') := by
  obtain ⟨hexecuted, -, hseen⟩ := perform_spec hp
  show loop'.seenCalls = _
  rw [hseen loop' rfl, hexecuted, show loop.seenCalls = _ from h]
  simp

/-- Calls that repeat none are all performed. -/
theorem performAll_of_allNew (hserde : env.host.serde.Compact) {calls : List OpenAiToolCall}
    (hseen : Seen env (loop, run)) (hnew : AllNew (run.executed ++ calls)) :
    calls.foldlM (performNew env api kernel registry) loop run =
      calls.foldlM (perform env api kernel registry) loop run := by
  induction calls generalizing loop run with
  | nil => rfl
  | cons call calls ih =>
    have hfresh : ¬call.fingerprint env.host.serde ∈ loop.seenCalls := by
      rw [hseen.mem_iff hserde]
      rintro ⟨c, hc, hid⟩
      exact (List.pairwise_append.mp hnew).2.2 c hc call List.mem_cons_self hid
    rw [List.foldlM_cons, List.foldlM_cons, Effect.bind_apply, Effect.bind_apply, performNew,
      if_neg hfresh]
    generalize hp : perform env api kernel registry loop call run = result
    obtain ⟨result, run₁⟩ := result
    cases result with
    | error stop => rfl
    | ok loop₁ =>
      refine ih (hseen.perform hp) ?_
      rw [(perform_spec hp).1, List.append_assoc]
      exact hnew

/-- Whatever becomes of the calls, none is executed twice. -/
theorem performNew_executed (hserde : env.host.serde.Compact) {calls : List OpenAiToolCall}
    (hseen : Seen env (loop, run)) (hnew : AllNew run.executed)
    (h : calls.foldlM (performNew env api kernel registry) loop run = (out, run')) :
    AllNew run'.executed ∧ run'.rounds = run.rounds ∧ ∀ loop', out = .ok loop' →
      Seen env (loop', run') ∧ AllNew (run.executed ++ calls) := by
  induction calls generalizing loop run with
  | nil =>
    cases h
    refine ⟨hnew, rfl, ?_⟩
    rintro loop' ⟨⟩
    exact ⟨hseen, by simpa using hnew⟩
  | cons call calls ih =>
    rw [List.foldlM_cons, Effect.bind_apply, performNew] at h
    by_cases hrepeated : call.fingerprint env.host.serde ∈ loop.seenCalls
    · rw [if_pos hrepeated] at h
      cases h
      exact ⟨hnew, rfl, nofun⟩
    · rw [if_neg hrepeated] at h
      have hconcat : AllNew (run.executed ++ [call]) :=
        AllNew.concat hnew fun hc => hrepeated ((hseen.mem_iff hserde).mpr hc)
      generalize hp : perform env api kernel registry loop call run = result at h
      obtain ⟨result, run₁⟩ := result
      obtain ⟨hexecuted, hrounds, -⟩ := perform_spec hp
      cases result with
      | error stop =>
        cases h
        exact ⟨hexecuted ▸ hconcat, hrounds, nofun⟩
      | ok loop₁ =>
        obtain ⟨hnew', hrounds', hok⟩ := ih (hseen.perform hp) (hexecuted ▸ hconcat) h
        refine ⟨hnew', hrounds'.trans hrounds, fun loop' hl => ?_⟩
        obtain ⟨hseen', hall⟩ := hok loop' hl
        rw [hexecuted, List.append_assoc] at hall
        exact ⟨hseen', hall⟩

end ToolLoop

section Bounds
variable {env : PlanEnv Mode World} {api : ToolApi Mode} {kernel : ToolKernel Mode World}
  {registry : OpenAiToolRegistry} {evaluate : EvaluatesRequest Mode World} {config : ToolLoopConfig}
  {loop : ToolLoop Mode} {run : ToolRun Mode World}

/-- A round determines its calls and what they and the evaluation do. -/
theorem Round.eq_fold (hserde : env.host.serde.Compact) (hseen : ToolLoop.Seen env (loop, run))
    (hcalls : toolCalls api loop.response = .ok calls)
    (h : Round env api kernel registry evaluate config (loop, run) s') :
    calls ≠ [] ∧ calls.length ≤ config.maxToolCallsPerRound ∧ ∃ loop₁ run₁,
      calls.foldlM (ToolLoop.performNew env api kernel registry) loop
        { run with rounds := run.rounds + 1 } = (.ok loop₁, run₁) ∧
      loop₁.nextResponse env evaluate run₁ = (.ok s'.1, s'.2) := by
  obtain ⟨calls', loop₁, run₁, hcalls', hne, hlimit, hall, hfold, hnext⟩ := h
  rw [hcalls] at hcalls'
  cases hcalls'
  have hseen' : ToolLoop.Seen env (loop, { run with rounds := run.rounds + 1 }) := hseen
  exact ⟨hne, hlimit, loop₁, run₁,
    (ToolLoop.performAll_of_allNew hserde hseen' hall).trans hfold, hnext⟩

/-- The round of the loop after its calls are known. -/
theorem ToolLoop.rounds_calls (hcalls : toolCalls api loop.response = .ok (call :: calls))
    (hlimit : (call :: calls).length ≤ config.maxToolCallsPerRound) (n : Nat) :
    loop.rounds env api kernel registry evaluate config (n + 1) run =
      ((call :: calls).foldlM (performNew env api kernel registry) loop >>= fun loop₁ =>
        loop₁.nextResponse env evaluate >>= fun loop₂ =>
          loop₂.rounds env api kernel registry evaluate config n)
        { run with rounds := run.rounds + 1 } := by
  rw [rounds, Effect.bind_apply, ofResult, Effect.ofExcept_apply, hcalls]
  simp only [Except.mapError, List.isEmpty_cons, Bool.false_eq_true, if_false]
  rw [if_neg (Nat.not_lt.mpr hlimit)]
  rfl

/-- One round of the loop: it ends with the response that asks for no tools, makes a round of tool
execution and goes on, or fails. -/
theorem ToolLoop.rounds_succ (hserde : env.host.serde.Compact) (hseen : Seen env (loop, run))
    (hnew : AllNew run.executed) (n : Nat) :
    (toolCalls api loop.response = .ok [] ∧
      loop.rounds env api kernel registry evaluate config (n + 1) run =
        (.ok (loop.report env), run)) ∨
    (toolCalls api loop.response ≠ .ok [] ∧ ∃ loop' run',
      Round env api kernel registry evaluate config (loop, run) (loop', run') ∧
      Seen env (loop', run') ∧ AllNew run'.executed ∧ run'.rounds = run.rounds + 1 ∧
      loop.rounds env api kernel registry evaluate config (n + 1) run =
        loop'.rounds env api kernel registry evaluate config n run') ∨
    (toolCalls api loop.response ≠ .ok [] ∧
      (¬∃ s, Round env api kernel registry evaluate config (loop, run) s) ∧ ∃ stop run',
      loop.rounds env api kernel registry evaluate config (n + 1) run = (.error stop, run') ∧
      AllNew run'.executed ∧ run'.rounds ≤ run.rounds + 1) := by
  cases hcalls : toolCalls api loop.response with
  | error e =>
    refine .inr (.inr ⟨nofun, ?_, .failure e, run, ?_, hnew, Nat.le_succ _⟩)
    · rintro ⟨s, calls, _, _, hcalls', _⟩
      rw [hcalls] at hcalls'
      cases hcalls'
    · rw [rounds, Effect.bind_apply, ofResult, Effect.ofExcept_apply, hcalls]
      rfl
  | ok calls =>
    cases calls with
    | nil =>
      refine .inl ⟨rfl, ?_⟩
      rw [rounds, Effect.bind_apply, ofResult, Effect.ofExcept_apply, hcalls]
      rfl
    | cons call calls =>
      by_cases hlimit : (call :: calls).length ≤ config.maxToolCallsPerRound
      · rw [rounds_calls hcalls hlimit, Effect.bind_apply]
        have hseen' : Seen env (loop, { run with rounds := run.rounds + 1 }) := hseen
        generalize hfold : (call :: calls).foldlM (performNew env api kernel registry) loop
          { run with rounds := run.rounds + 1 } = result
        obtain ⟨result, run₁⟩ := result
        obtain ⟨hnew₁, hrounds₁, hok₁⟩ := performNew_executed hserde hseen' hnew hfold
        cases result with
        | error stop =>
          refine .inr (.inr ⟨nofun, ?_, stop, run₁, rfl, hnew₁, hrounds₁.le⟩)
          rintro ⟨s, hround⟩
          obtain ⟨-, -, _, _, hfold', -⟩ := hround.eq_fold hserde hseen hcalls
          rw [hfold] at hfold'
          cases hfold'
        | ok loop₁ =>
          obtain ⟨hseen₁, hall⟩ := hok₁ loop₁ rfl
          simp only [Effect.bind_apply]
          generalize hnext : loop₁.nextResponse env evaluate run₁ = result
          obtain ⟨result, run₂⟩ := result
          obtain ⟨hexecuted₂, hrounds₂, hok₂⟩ := nextResponse_spec hnext
          cases result with
          | error stop =>
            refine .inr (.inr ⟨nofun, ?_, stop, run₂, rfl, hexecuted₂ ▸ hnew₁,
              (hrounds₂.trans hrounds₁).le⟩)
            rintro ⟨s, hround⟩
            obtain ⟨-, -, _, _, hfold', hnext'⟩ := hround.eq_fold hserde hseen hcalls
            rw [hfold] at hfold'
            cases hfold'
            rw [hnext] at hnext'
            cases hnext'
          | ok loop₂ =>
            refine .inr (.inl ⟨nofun, loop₂, run₂, ?_, ?_, hexecuted₂ ▸ hnew₁,
              hrounds₂.trans hrounds₁, rfl⟩)
            · refine ⟨call :: calls, loop₁, run₁, hcalls, nofun, hlimit, hall, ?_, hnext⟩
              exact (performAll_of_allNew hserde hseen' hall).symm.trans hfold
            · show loop₂.seenCalls = _
              rw [hok₂ loop₂ rfl, hexecuted₂]
              exact hseen₁
      · have hnone : ¬∃ s, Round env api kernel registry evaluate config (loop, run) s := by
          rintro ⟨s, hround⟩
          exact hlimit (hround.eq_fold hserde hseen hcalls).2.1
        have hfails : ∃ stop, loop.rounds env api kernel registry evaluate config (n + 1) run =
            (.error stop, run) := by
          rw [rounds, Effect.bind_apply, ofResult, Effect.ofExcept_apply, hcalls]
          simp only [Except.mapError, List.isEmpty_cons, Bool.false_eq_true, if_false]
          rw [if_pos (Nat.lt_of_not_le hlimit)]
          exact ⟨_, rfl⟩
        obtain ⟨stop, hstop⟩ := hfails
        exact .inr (.inr ⟨nofun, hnone, stop, run, hstop, hnew, Nat.le_succ _⟩)

theorem Round.unique (h : Round env api kernel registry evaluate config s s₁)
    (h' : Round env api kernel registry evaluate config s s₂) : s₁ = s₂ := by
  obtain ⟨calls, _, _, hcalls, -, -, -, hfold, hnext⟩ := h
  obtain ⟨calls', _, _, hcalls', -, -, -, hfold', hnext'⟩ := h'
  rw [hcalls] at hcalls'
  cases hcalls'
  rw [hfold] at hfold'
  cases hfold'
  rw [hnext] at hnext'
  obtain ⟨hloop, hrun⟩ := Prod.mk.inj hnext'
  exact Prod.ext (Except.ok.inj hloop) hrun

/-- With `n` rounds left the loop returns exactly a response without tool calls that comes after
fewer than `n` rounds. -/
theorem ToolLoop.rounds_ok_iff (hserde : env.host.serde.Compact) (hseen : Seen env (loop, run))
    (hnew : AllNew run.executed) {n : Nat} {report : PlanEvalReport Mode} :
    (loop.rounds env api kernel registry evaluate config n run).1 = .ok report ↔
      ∃ k < n, ∃ s, Rounds env api kernel registry evaluate config k (loop, run) s ∧
        Final env api s report := by
  induction n generalizing loop run with
  | zero =>
    constructor
    · nofun
    · rintro ⟨k, hk, -⟩
      cases hk
  | succ n ih =>
    rcases rounds_succ hserde hseen hnew n with ⟨hcalls, heq⟩ |
      ⟨hcalls, loop', run', hround, hseen', hnew', -, heq⟩ | ⟨hcalls, hnone, stop, run', heq, -⟩
    · rw [heq]
      constructor
      · intro h
        exact ⟨0, Nat.succ_pos n, _, .none, hcalls, (Except.ok.inj h).symm⟩
      · rintro ⟨k, -, s, hrounds, -, rfl⟩
        cases hrounds with
        | none => rfl
        | next h _ =>
          obtain ⟨calls, _, _, hcalls', hne, _⟩ := h
          rw [hcalls] at hcalls'
          cases hcalls'
          exact absurd rfl hne
    · rw [heq, ih hseen' hnew']
      constructor
      · rintro ⟨k, hk, s, hrounds, hfinal⟩
        exact ⟨k + 1, Nat.succ_lt_succ hk, s, .next hround hrounds, hfinal⟩
      · rintro ⟨k, hk, s, hrounds, hfinal⟩
        cases hrounds with
        | none => exact absurd hfinal.1 hcalls
        | next h h' =>
          cases h.unique hround
          exact ⟨_, Nat.lt_of_succ_lt_succ hk, s, h', hfinal⟩
    · rw [heq]
      constructor
      · nofun
      · rintro ⟨k, -, s, hrounds, hfinal⟩
        cases hrounds with
        | none => exact absurd hfinal.1 hcalls
        | next h _ => exact absurd ⟨_, h⟩ hnone

/-- However the loop ends, it has begun at most `n` rounds and executed no call twice. -/
theorem ToolLoop.rounds_executed (hserde : env.host.serde.Compact) (hseen : Seen env (loop, run))
    (hnew : AllNew run.executed) (n : Nat) :
    (loop.rounds env api kernel registry evaluate config n run).2.rounds ≤ run.rounds + n ∧
      AllNew (loop.rounds env api kernel registry evaluate config n run).2.executed := by
  induction n generalizing loop run with
  | zero => exact ⟨Nat.le_refl _, hnew⟩
  | succ n ih =>
    rcases rounds_succ hserde hseen hnew n with ⟨-, heq⟩ |
      ⟨-, loop', run', -, hseen', hnew', hrounds, heq⟩ | ⟨-, -, stop, run', heq, hnew', hrounds⟩
    · rw [heq]
      exact ⟨Nat.le_add_right _ _, hnew⟩
    · rw [heq]
      obtain ⟨hle, hall⟩ := ih hseen' hnew'
      exact ⟨by omega, hall⟩
    · rw [heq]
      exact ⟨hrounds.trans (by omega), hnew'⟩

/-- A run of the loop before anything is executed. -/
def ToolRun.start (world : World) (cache : Option (PlanCache Mode)) : ToolRun Mode World :=
  ⟨world, cache, [], 0⟩

theorem ToolLoop.run_ok_iff (hserde : env.host.serde.Compact) {request : Expr Mode}
    {initial report : PlanEvalReport Mode} {world : World} {cache : Option (PlanCache Mode)} :
    (ToolLoop.run env api kernel registry evaluate config request initial
        (.start world cache)).1 = .ok report ↔
      ∃ k < config.maxToolRounds, StopsAfter env api kernel registry evaluate config request initial
        (.start world cache) k report := by
  rw [ToolLoop.run, Effect.bind_apply, ToolLoop.ofResult, Effect.ofExcept_apply]
  cases hstart : toolLoopStart env request initial with
  | error e =>
    constructor
    · nofun
    · rintro ⟨k, -, loop, s, hloop, -⟩
      rw [hstart] at hloop
      cases hloop
  | ok loop =>
    have hseen : ToolLoop.Seen env (loop, .start world cache) := by
      obtain ⟨response, -, hloop⟩ := Except.bind_eq_ok_iff.mp hstart
      cases hloop
      rfl
    refine (ToolLoop.rounds_ok_iff hserde hseen .nil).trans ?_
    constructor
    · rintro ⟨k, hk, s, hrounds, hfinal⟩
      exact ⟨k, hk, loop, s, hstart, hrounds, hfinal⟩
    · rintro ⟨k, hk, loop', s, hloop, hrounds, hfinal⟩
      rw [hstart] at hloop
      cases hloop
      exact ⟨k, hk, s, hrounds, hfinal⟩

/-- A response without tool calls is followed by no round. -/
theorem Rounds.unique (h : Rounds env api kernel registry evaluate config k s s₁)
    (h' : Rounds env api kernel registry evaluate config k' s s₂)
    (hfinal : Final env api s₁ report) (hfinal' : Final env api s₂ report') : k = k' := by
  have hstop : ∀ {s s' : LoopState Mode World} {report : PlanEvalReport Mode},
      Final env api s report → ¬Round env api kernel registry evaluate config s s' := by
    rintro s s' report ⟨hcalls, -⟩ ⟨calls, _, _, hcalls', hne, _⟩
    rw [hcalls] at hcalls'
    cases hcalls'
    exact hne rfl
  induction h generalizing k' with
  | none =>
    cases h' with
    | none => rfl
    | next h _ => exact absurd h (hstop hfinal)
  | next h _ ih =>
    cases h' with
    | none => exact absurd h (hstop hfinal')
    | next h' hrest =>
      cases h.unique h'
      rw [ih hrest hfinal]

theorem StopsAfter.unique {request : Expr Mode} {initial report report' : PlanEvalReport Mode}
    (h : StopsAfter env api kernel registry evaluate config request initial run k report)
    (h' : StopsAfter env api kernel registry evaluate config request initial run k' report') :
    k = k' := by
  obtain ⟨loop, s, hloop, hrounds, hfinal⟩ := h
  obtain ⟨loop', s', hloop', hrounds', hfinal'⟩ := h'
  rw [hloop] at hloop'
  cases hloop'
  exact hrounds.unique hrounds' hfinal hfinal'

theorem ToolLoop.run_executed (hserde : env.host.serde.Compact) (request : Expr Mode)
    (initial : PlanEvalReport Mode) (world : World) (cache : Option (PlanCache Mode)) :
    (ToolLoop.run env api kernel registry evaluate config request initial
        (.start world cache)).2.rounds ≤ config.maxToolRounds ∧
      AllNew (ToolLoop.run env api kernel registry evaluate config request initial
        (.start world cache)).2.executed := by
  rw [ToolLoop.run, Effect.bind_apply, ToolLoop.ofResult, Effect.ofExcept_apply]
  cases hstart : toolLoopStart env request initial with
  | error e => exact ⟨Nat.zero_le _, .nil⟩
  | ok loop =>
    have hseen : ToolLoop.Seen env (loop, .start world cache) := by
      obtain ⟨response, -, hloop⟩ := Except.bind_eq_ok_iff.mp hstart
      cases hloop
      rfl
    obtain ⟨hrounds, hnew⟩ := ToolLoop.rounds_executed hserde hseen .nil _
    exact ⟨hrounds.trans (Nat.zero_add _).le, hnew⟩

end Bounds

section Honours
variable (env : PlanEnv Mode World) (api : ToolApi Mode) (kernel : ToolKernel Mode World)
  (plan request : Expr Mode) (registry : OpenAiToolRegistry) (initial : PlanEvalReport Mode)
  (config : ToolLoopConfig) (world : World) (cache : Option (PlanCache Mode))

/-- The first response without tool calls comes after `k` rounds in which the plan is evaluated as
the loop evaluates it. -/
def RespondsAfter (k : Nat) (report : PlanEvalReport Mode) : Prop :=
  StopsAfter env api kernel registry (evalPlanReportWithCache env plan) config request initial
    (.start world cache) k report

/-- The loop returns the first response without tool calls when it comes after at most the
permitted number of rounds and fails otherwise; it begins no more rounds than that and executes no
call twice. -/
structure HonoursBounds : Prop where
  returns : ∀ k ≤ config.maxToolRounds, ∀ report,
    RespondsAfter env api kernel plan request registry initial config world cache k report →
    (runToolLoopWithRegistry env api kernel plan request registry initial config
      (.start world cache)).1 = .ok report
  fails : (¬∃ k ≤ config.maxToolRounds, ∃ report,
      RespondsAfter env api kernel plan request registry initial config world cache k report) →
    ∃ stop, (runToolLoopWithRegistry env api kernel plan request registry initial config
      (.start world cache)).1 = .error stop
  rounds : (runToolLoopWithRegistry env api kernel plan request registry initial config
    (.start world cache)).2.rounds ≤ config.maxToolRounds
  allNew : AllNew (runToolLoopWithRegistry env api kernel plan request registry initial config
    (.start world cache)).2.executed

end Honours

/-- The loop honours its bounds exactly when the first response without tool calls does not come
right after the last permitted round. -/
theorem runToolLoopWithRegistry_honours_iff {env : PlanEnv Mode World} {api : ToolApi Mode}
    {kernel : ToolKernel Mode World} {plan request : Expr Mode} {registry : OpenAiToolRegistry}
    {initial : PlanEvalReport Mode} {config : ToolLoopConfig} {world : World}
    {cache : Option (PlanCache Mode)} (hserde : env.host.serde.Compact) :
    HonoursBounds env api kernel plan request registry initial config world cache ↔
      ¬∃ report, RespondsAfter env api kernel plan request registry initial config world cache
        config.maxToolRounds report := by
  constructor
  · rintro h ⟨report, hlast⟩
    have hok := h.returns _ (Nat.le_refl _) report hlast
    obtain ⟨k, hk, hstops⟩ := (ToolLoop.run_ok_iff hserde).mp hok
    exact absurd (hstops.unique hlast) hk.ne
  · intro hlast
    obtain ⟨hrounds, hnew⟩ := ToolLoop.run_executed hserde request initial world cache
    refine ⟨?_, ?_, hrounds, hnew⟩
    · intro k hk report hstops
      have hlt : k < config.maxToolRounds := by
        rcases Nat.lt_or_eq_of_le hk with hlt | rfl
        · exact hlt
        · exact absurd ⟨report, hstops⟩ hlast
      exact (ToolLoop.run_ok_iff hserde).mpr ⟨k, hlt, hstops⟩
    · intro hnone
      cases hresult : (runToolLoopWithRegistry env api kernel plan request registry initial config
        (.start world cache)).1 with
      | error stop => exact ⟨stop, rfl⟩
      | ok report =>
        obtain ⟨k, hk, hstops⟩ := (ToolLoop.run_ok_iff hserde).mp hresult
        exact absurd ⟨k, hk.le, report, hstops⟩ hnone

namespace ToolSample

/-- The host of the plan samples, with the printer of JSON values. -/
def env : PlanEnv Unit Unit :=
  { PlanSample.env with
    host := { PlanSample.host with
      serde := { PlanSample.host.serde with toText := fun json => String.ofList json.text } } }

/-- Arguments are always the empty object. -/
def api : ToolApi Unit where
  entryField entries name := entries.findSome? fun e => if isBare name e.1 then some e.2 else none
  fromStr _ := .ok ⟨.object [], trivial⟩
  projectExprToJson _ := ⟨.object [], trivial⟩
  jsonToExpr _ := .map []
  debugText _ := ""
  fencedDataText _ body _ := .ok body
  schema := Sample.schema

/-- A kernel without functions. -/
def kernel : ToolKernel Unit Unit where
  Value := String
  Object := Unit
  Callable := Unit
  Shape := Unit
  factory := Sample.factory
  resolveFunction _ := .fail (.other "no function")
  asCallable _ := none
  browseArgsShape _ := pure none
  asShape _ := none
  checkValue _ _ := pure (true, [])
  callFunction _ _ := .fail (.other "no function")
  asExpr _ := pure .nil

/-- A response that asks for one tool. -/
def initial : PlanEvalReport Unit := ⟨toolCallPart "search" "\x7b\x7d", []⟩

def registry : OpenAiToolRegistry := ⟨[]⟩

def plan : Expr Unit := PlanSample.atom "fixture/echo"

def config : ToolLoopConfig := ⟨1, 8⟩

def call : OpenAiToolCall := ⟨"call_search_000001", "search", ⟨.object [], trivial⟩⟩

def start : ToolLoop Unit :=
  ⟨[], .map [], .new (.new "runner") "model" [initial.response] (.new "stop"), []⟩

/-- The loop after the call and the evaluation that follows it. -/
def answered : LoopState Unit Unit :=
  match ([call].foldlM (ToolLoop.perform env api kernel registry) >=>
      ToolLoop.nextResponse env (evalPlanReportWithCache env plan)) start ⟨(), none, [], 1⟩ with
  | (.ok loop, run) => (loop, run)
  | (.error _, run) => (start, run)

theorem compact : env.host.serde.Compact := fun _ => rfl

/-- The response after one round asks for no tools. -/
theorem responds : RespondsAfter env api kernel plan (.map []) registry initial config () none 1
    (answered.1.report env) := by
  have hround : Round env api kernel registry (evalPlanReportWithCache env plan) config
      (start, .start () none) answered :=
    ⟨[call], _, _, rfl, nofun, by decide, List.pairwise_singleton _ _, rfl, rfl⟩
  exact ⟨start, answered, rfl, .next hround .none, rfl, rfl⟩

end ToolSample

/-- One round is permitted and the response after it asks for no tools, but the loop fails. -/
theorem last_response_ignored :
    (runToolLoopWithRegistry ToolSample.env ToolSample.api ToolSample.kernel ToolSample.plan
      (.map []) ToolSample.registry ToolSample.initial ToolSample.config (.start () none)).1 =
      .error (.failure (.eval "tool loop exceeded maximum rounds 1")) ∧
    ¬HonoursBounds ToolSample.env ToolSample.api ToolSample.kernel ToolSample.plan (.map [])
      ToolSample.registry ToolSample.initial ToolSample.config () none := by
  have hfails : (runToolLoopWithRegistry ToolSample.env ToolSample.api ToolSample.kernel
      ToolSample.plan (.map []) ToolSample.registry ToolSample.initial ToolSample.config
      (.start () none)).1 = .error (.failure (.eval "tool loop exceeded maximum rounds 1")) := rfl
  refine ⟨hfails, fun h => ?_⟩
  have hok := h.returns 1 (Nat.le_refl 1) _ ToolSample.responds
  rw [hfails] at hok
  cases hok

theorem runToolLoopWithRegistry_honours_sample :
    ToolSample.env.host.serde.Compact ∧
    (HonoursBounds ToolSample.env ToolSample.api ToolSample.kernel ToolSample.plan (.map [])
        ToolSample.registry ToolSample.initial ToolSample.config () none ↔
      ¬∃ report, RespondsAfter ToolSample.env ToolSample.api ToolSample.kernel ToolSample.plan
        (.map []) ToolSample.registry ToolSample.initial ToolSample.config () none
        ToolSample.config.maxToolRounds report) :=
  ⟨ToolSample.compact, runToolLoopWithRegistry_honours_iff ToolSample.compact⟩

end SimAgentNet.OpenaiServer
