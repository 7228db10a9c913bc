import SimAgentNet.OpenaiServer.JsonText
import SimAgentNet.OpenaiServer.Keys
import SimAgentNet.OpenaiServer.PlanDepth
import SimAgentNet.Server.Frame

/-! # Federated requests

The body that is sent to a federated gateway, with the privacy label and the budget of the context
the gateway is reached in. -/

namespace SimAgentNet.OpenaiServer
variable {Mode World : Type}

/-- The packages the federation uses: debug texts, floating point numbers, and the reading of a
JSON number. -/
structure FederationApi (Mode : Type) where
  debugText : Expr Mode → String
  parseFloat : String → Option Json
  jsonNumberToU64 : Json → Option Nat

/-! ## Expressions as JSON -/

section
variable (host : Host Mode) (api : FederationApi Mode)

def numberLiteralJson (value : String) : Json :=
  match Server.parseU64 value with
  | some unsigned => .ofNat unsigned.toNat
  | none => (api.parseFloat value).getD (.string value)

def atomLiteralJson (value : String) : Json :=
  match value with
  | "true" => .bool true
  | "false" => .bool false
  | _ => numberLiteralJson api value

def jsonKey : Expr Mode → String
  | .string value => value
  | .symbol value =>
    match value.ns with
    | none => value.name
    | some ns => ns ++ "/" ++ value.name
  | expr => api.debugText expr

mutual
def exprToJson : Expr Mode → Json
  | .nil => .null
  | .bool value => .bool value
  | .string value => .string value
  | .symbol value =>
    match value.ns with
    | none => .string value.name
    | some _ => .string (api.debugText (.symbol value))
  | .number value => numberLiteralJson api value.canonical
  | .list items =>
    match items with
    | [head, .string value] =>
      if isBare "plan/atom" head then atomLiteralJson api value
      else .array (exprsToJson [head, .string value])
    | items => .array (exprsToJson items)
  | .map entries => .object (entriesToJson entries [])
  | .bytes bytes => .string (host.hexEncode bytes)
  | expr => .string (api.debugText expr)
termination_by structural expr => expr

def exprsToJson : List (Expr Mode) → List Json
  | [] => []
  | item :: items => exprToJson item :: exprsToJson items
termination_by structural items => items

/-- A later entry replaces an earlier one under the same key. -/
def entriesToJson : List (Expr Mode × Expr Mode) → JsonObject → JsonObject
  | [], object => object
  | (key, value) :: entries, object =>
    entriesToJson entries (object.insert (jsonKey api key) (exprToJson value))
termination_by structural entries => entries
end

def budgetJson (entries : List (String × Expr Mode)) : JsonObject :=
  entries.foldl (fun object e => object.insert e.1 (exprToJson host api e.2)) []

/-! ## The request -/

def federatedRequestObject (model : String) (request : ModelRequest Mode)
    (policy : FederationPolicy Mode) : JsonObject :=
  let object : JsonObject := JsonObject.insert (JsonObject.insert (JsonObject.insert []
    "model" (.string model)) "input" (.string (requestText request))) "store" (.bool false)
  let object :=
    match policy.privacy with
    | some privacy => object.insert "privacy" (.string privacy)
    | none => object
  let budget := budgetJson host api policy.budget
  if budget = [] then object else object.insert "budget" (.object budget)

def federatedRequestBody (model : String) (request : ModelRequest Mode)
    (policy : FederationPolicy Mode) : List UInt8 :=
  host.serde.canonicalJsonBytes (.object (federatedRequestObject host api model request policy))

/-! ## The gateways -/

/-- A remote gateway: its default model and what it answers to the body of a request, `none` where
the value is no response. -/
structure OpenAiFederatedGateway (World : Type) where
  defaultModel : String
  realize : List UInt8 → Effect KernelError World (Option GatewayResponse)

/-- The gateways by their address. -/
abbrev OpenAiFederation (World : Type) := SortedMap String (OpenAiFederatedGateway World)

def normalizeGatewayAddress (address : String) : PlanResult String :=
  match stripStart "gateway/".toList (trim address.toList) with
  | none => .error (.eval ("federated gateway address must start with gateway/, found " ++ address))
  | some [] => .error (.eval "federated gateway address is empty")
  | some target => .ok ("gateway/" ++ .ofList target)

def OpenAiFederation.gateway (federation : OpenAiFederation World) (address : String) :
    PlanResult (OpenAiFederatedGateway World) := do
  let address ← normalizeGatewayAddress address
  match federation.get? address with
  | some gateway => .ok gateway
  | none => .error (modelNotFound address)

def usageFromJson (value : Json) : PlanResult ModelUsage :=
  match value.asObject with
  | none => .error (.eval "federated gateway usage must be an object")
  | some object => .ok
    { inputTokens := (JsonObject.get object "prompt_tokens").bind api.jsonNumberToU64
      outputTokens := (JsonObject.get object "completion_tokens").bind api.jsonNumberToU64
      latencyMs := none
      costUsd := none }

def responsesBodyToModelResponse (planApi : PlanApi Mode) (address : String) (body : List UInt8) :
    PlanResult (ModelResponse Mode) := do
  let value ← (host.serde.fromSlice body).mapError fun err =>
    .eval ("federated gateway returned invalid json: " ++ err)
  match value.asObject with
  | none => .error (.eval "federated gateway response must be an object")
  | some object =>
    match (JsonObject.get object "output_text").bind Json.asStr with
    | none => .error (.eval "federated gateway response missing output_text")
    | some outputText =>
      let usage ← (JsonObject.get object "usage").mapM (usageFromJson api)
      let extra :=
        match (JsonObject.get object "model").bind Json.asStr with
        | some model => [Expr.entry "federated-model" (.string model)]
        | none => []
      return { ModelResponse.new (.new address) address [planApi.textPart outputText] (.new "stop")
               with usage, extra }

/-- What a gateway's answer is worth. -/
def readReply (planApi : PlanApi Mode) (address : String) :
    Option GatewayResponse → PlanResult (ModelResponse Mode)
  | none => .error (.eval ("federated gateway " ++ address ++ " returned a non-response value"))
  | some response =>
    if response.status ≠ 200 then
      .error (.eval ("federated gateway " ++ address ++ " returned status " ++
        toString response.status.toNat))
    else responsesBodyToModelResponse host api planApi address response.body

/-- Inference over the gateways; the capability is checked before. -/
def OpenAiFederation.federation (federation : OpenAiFederation World) (planApi : PlanApi Mode) :
    Federation Mode World where
  infer address request policy := do
    let gateway ← .ofExcept (federation.gateway address)
    let reply ← gateway.realize (federatedRequestBody host api gateway.defaultModel request policy)
    .ofExcept (readReply host api planApi address reply)

end

/-! ## Nested budgets -/

/-- A nesting of `plan/budget` around an atom, with the arguments from the outside in. -/
inductive Budgeted : Expr Mode → List (List (Expr Mode)) → String → Prop
  | atom : planParts plan = .ok ("atom", [.string address]) → Budgeted plan [] address
  | budget : planParts plan = .ok ("budget", args) → (childArgs args)[0]? = some child →
    Budgeted child layers address → Budgeted plan (args :: layers) address

/-- The entries that a `plan/budget` node gives. -/
def budgetKeywordEntries (args : List (Expr Mode)) : List (String × Expr Mode) :=
  ["max-tokens", "max-cost", "max-latency-ms"].filterMap fun name =>
    (keywordValue args name).map (name, ·)

/-- The values given for a key: by the request, and by the nodes from the outside in. -/
def givenValues (host : Host Mode) (request : Expr Mode) (layers : List (List (Expr Mode)))
    (key : String) : List (Expr Mode) :=
  ((EvalContext.requestBudgetEntries host request ++ layers.flatMap budgetKeywordEntries).filter
    (·.1 = key)).map (·.2)

/-- The unsigned integer that a value is written as: a number, or an atom of a parsed plan. -/
def unsignedValue : Expr Mode → Option Nat
  | .number value => (Server.parseU64 value.canonical).map (·.toNat)
  | .list [head, .string value] =>
    if isBare "plan/atom" head then (Server.parseU64 value).map (·.toNat) else none
  | _ => none

theorem budget_foldl_budgeted (context : EvalContext Mode) (layers : List (List (Expr Mode))) :
    layers.foldl .budgeted context =
      { context with budget := context.budget ++ layers.flatMap budgetKeywordEntries } := by
  induction layers generalizing context with
  | nil => simp
  | cons args layers ih =>
    rw [List.foldl_cons, ih, List.flatMap_cons, ← List.append_assoc]
    rfl

section
variable {host : Host Mode} {api : FederationApi Mode}

theorem exprToJson_of_unsigned {value : Expr Mode} (h : unsignedValue value = some n) :
    exprToJson host api value = .ofNat n := by
  unfold unsignedValue at h
  split at h
  · rename_i literal
    obtain ⟨u, hu, rfl⟩ := Option.map_eq_some_iff.mp h
    rw [exprToJson, numberLiteralJson, hu]
  · rename_i head text
    split at h
    · rename_i hatom
      obtain ⟨u, hu, rfl⟩ := Option.map_eq_some_iff.mp h
      rw [exprToJson]
      show (if isBare "plan/atom" head then atomLiteralJson api text else _) = _
      rw [if_pos hatom, atomLiteralJson, numberLiteralJson, hu]
      · rintro rfl
        exact nomatch (by decide : Server.parseU64 "true" = none).symm.trans hu
      · rintro rfl
        exact nomatch (by decide : Server.parseU64 "false" = none).symm.trans hu
    · cases h
  · cases h

/-- The last value of a key is the one in the body. -/
theorem get_budgetJson (entries : List (String × Expr Mode)) (key : String) :
    (budgetJson host api entries).get key =
      ((entries.filter (·.1 = key)).map (·.2)).getLast?.map (exprToJson host api) := by
  induction entries using List.reverseRecOn with
  | nil => rfl
  | append_singleton entries e ih =>
    rw [budgetJson, List.foldl_concat, JsonObject.insert, JsonObject.get,
      SortedMap.lookup_insertEntry, List.filter_append, List.map_append]
    by_cases heq : e.1 = key
    · simp [heq]
    · rw [if_neg (Ne.symm heq), List.filter_cons_of_neg (by simpa using heq), List.filter_nil,
        List.map_nil, List.append_nil]
      exact ih

/-- The body has the budget, unless it is empty. -/
theorem get_federatedRequestObject {model : String} {request : ModelRequest Mode}
    {policy : FederationPolicy Mode} (h : budgetJson host api policy.budget ≠ []) :
    (federatedRequestObject host api model request policy).get "budget" =
      some (.object (budgetJson host api policy.budget)) := by
  rw [federatedRequestObject, if_neg h, JsonObject.insert, JsonObject.get,
    SortedMap.lookup_insertEntry, if_pos rfl]

end

/-! ## The evaluation -/

section
variable {env : PlanEnv Mode World} {plan : Expr Mode} {layers : List (List (Expr Mode))}
  {address : String}

/-- The world after a child is the one its evaluation leaves. -/
theorem evalChild_world (eval : Expr Mode → EvalContext Mode → Eval Mode World (ModelResponse Mode))
    (combinator : String) (child : Expr Mode) (context : EvalContext Mode)
    (s : PlanEvaluator Mode World) :
    (Eval.evalChild env eval combinator child context s).2.world =
      (eval child context (s.start combinator child)).2.world := by
  show ((Eval.attempt (eval child context) >>= _) (s.start combinator child)).2.world = _
  rw [Effect.bind_apply, Eval.attempt]
  rcases eval child context (s.start combinator child) with ⟨out, s'⟩
  cases out with
  | ok response => rfl
  | error stop => cases stop <;> rfl

theorem step_budget (eval : Expr Mode → EvalContext Mode → Eval Mode World (ModelResponse Mode))
    (hparts : planParts plan = .ok ("budget", args)) (hchild : (childArgs args)[0]? = some child)
    (context : EvalContext Mode) :
    Eval.step env eval plan context =
      Eval.evalChild env eval "budget" child (context.budgeted args) := by
  have hname : combinatorByName "budget" = some .budget := by decide
  have hbind {α β : Type} (a : α) (f : α → Eval Mode World β) :
      (Eval.ofResult (.ok a) >>= f) = f a := rfl
  rw [Eval.step, hparts, hbind]
  dsimp only
  rw [if_neg (by decide), hname, Eval.childAt]
  dsimp only
  rw [hchild]
  rfl

/-- Nested budgets lead to the atom, in the context that has all of their entries. -/
theorem eval_budgeted (env : PlanEnv Mode World) {depth : Nat} (h : Budgeted plan layers address) (hdepth : layers.length < depth)
    (context : EvalContext Mode) (s : PlanEvaluator Mode World) :
    ∃ s', s'.world = s.world ∧ s'.request = s.request ∧
      (Eval.eval env depth plan context s).2.world =
        (Eval.evalAtom env address (layers.foldl .budgeted context) s').2.world := by
  induction h generalizing depth context s with
  | @atom plan address hparts =>
    obtain ⟨depth, rfl⟩ : ∃ d, depth = d + 1 := ⟨depth - 1, by omega⟩
    refine ⟨s, rfl, rfl, ?_⟩
    rw [Eval.eval, Eval.step, hparts]
    rfl
  | @budget plan args child layers address hparts hchild _ ih =>
    obtain ⟨depth, rfl⟩ : ∃ d, depth = d + 1 := ⟨depth - 1, by omega⟩
    have hlt : layers.length < depth := by simpa using hdepth
    obtain ⟨s', hworld, hrequest, hrun⟩ := ih hlt (context.budgeted args) (s.start "budget" child)
    refine ⟨s', hworld, hrequest, ?_⟩
    rw [List.foldl_cons, ← hrun, Eval.eval, step_budget _ hparts hchild]
    exact evalChild_world _ _ _ _ s

/-- Reading the answer does not touch the world. -/
theorem federation_infer_world {federation : OpenAiFederation World} {host : Host Mode}
    {api : FederationApi Mode} {planApi : PlanApi Mode} {gateway : OpenAiFederatedGateway World}
    (hgateway : federation.gateway address = .ok gateway) (request : ModelRequest Mode)
    (policy : FederationPolicy Mode) (world : World) :
    ((federation.federation host api planApi).infer address request policy world).2 =
      (gateway.realize (federatedRequestBody host api gateway.defaultModel request policy) world).2 := by
  show ((Effect.ofExcept (federation.gateway address) >>= _ : Effect _ _ _) world).2 = _
  rw [hgateway]
  show ((gateway.realize _ >>= _) world).2 = _
  rw [Effect.bind_apply]
  rcases gateway.realize (federatedRequestBody host api gateway.defaultModel request policy) world
    with ⟨out, world'⟩
  cases out <;> rfl

/-- A gateway that is reached gets the request with the policy of the context. -/
theorem evalAtom_gateway {federation : OpenAiFederation World} {api : FederationApi Mode}
    {gateway : OpenAiFederatedGateway World} {context : EvalContext Mode}
    {s : PlanEvaluator Mode World} (hhead : resolveAtomAddress address = .ok "gateway")
    (hprivacy : context.privacy ≠ .localOnly)
    (henv : env.federation = some (federation.federation env.host api env.api))
    (hcapability : federateCapability ∈ env.capabilities)
    (hgateway : federation.gateway address = .ok gateway) :
    (Eval.evalAtom env address context s).2.world =
      (gateway.realize (federatedRequestBody env.host api gateway.defaultModel s.request
        context.federationPolicy) s.world).2 := by
  have hrequire : env.require federateCapability = .ok () := by rw [PlanEnv.require, if_pos hcapability]
  have hbind {α β : Type} (a : α) (f : α → Eval Mode World β) :
      (Eval.ofResult (.ok a) >>= f) = f a := rfl
  have hatom : Eval.evalAtom env address context = (do
      let s ← Effect.get
      Eval.ofResult (env.require federateCapability)
      Effect.modify (·.using context.privacy (.gateway address))
      Eval.onWorld ((federation.federation env.host api env.api).infer address s.request
        context.federationPolicy)) := by
    rw [Eval.evalAtom, hhead, hbind]
    dsimp only
    simp only [if_true, if_neg hprivacy, henv]
  rw [hatom, hrequire, ← federation_infer_world hgateway]
  rfl

end

/-! ## Budgets in the body -/

/-- The least of some values is the last one exactly when none of them is smaller. -/
theorem min?_eq_getLast_iff {values : List Nat} (hne : values ≠ []) :
    values.min? = some (values.getLast hne) ↔ ∀ v ∈ values, values.getLast hne ≤ v := by
  rw [List.min?_eq_some_iff]
  exact ⟨fun h => h.2, fun h => ⟨List.getLast_mem hne, h⟩⟩

/-- The policy that nested budgets hand to a federated gateway: all their entries, from the outside
in, after those of the request. -/
def nestedPolicy (host : Host Mode) (request : Expr Mode) (layers : List (List (Expr Mode))) :
    FederationPolicy Mode where
  privacy := EvalContext.requestFieldText host request "privacy"
  budget := EvalContext.requestBudgetEntries host request ++ layers.flatMap budgetKeywordEntries

/-- A plan of nested budgets around a gateway, evaluated on a request: the gateway is sent the
request under the nested policy, and under a key whose values are all unsigned integers the body has
the last of the values given for it, which is the least of them exactly when none is smaller. -/
theorem federated_budget_last {env : PlanEnv Mode World} {federation : OpenAiFederation World}
    {api : FederationApi Mode} {gateway : OpenAiFederatedGateway World}
    (hplan : Budgeted plan layers address) (hchecked : admitPlan env plan request = .ok model)
    (hhead : resolveAtomAddress address = .ok "gateway")
    (hprivacy : EvalContext.requestFieldText env.host request "privacy" ≠ some "local-only")
    (henv : env.federation = some (federation.federation env.host api env.api))
    (hcapability : federateCapability ∈ env.capabilities)
    (hgateway : federation.gateway address = .ok gateway)
    (hvalues : (givenValues env.host request layers key).map unsignedValue = values.map some)
    (hne : values ≠ []) (world : World) (cache : Option (PlanCache Mode)) :
    (evalPlanReport env plan request (world, cache)).2.1 =
      (gateway.realize (federatedRequestBody env.host api gateway.defaultModel model
        (nestedPolicy env.host request layers)) world).2 ∧
    ∃ budget, JsonObject.get (federatedRequestObject env.host api gateway.defaultModel model
        (nestedPolicy env.host request layers)) "budget" = some (.object budget) ∧
      JsonObject.get budget key = some (.ofNat (values.getLast hne)) ∧
      (values.min? = some (values.getLast hne) ↔ ∀ v ∈ values, values.getLast hne ≤ v) := by
  constructor
  · have hdepth : layers.length < nesting plan + 1 := by
      have hnest : layers.length ≤ nesting plan := by
        clear hvalues hchecked
        induction hplan with
        | atom => exact Nat.zero_le _
        | budget hparts hchild _ ih =>
          have hlt := nesting_child_lt hparts (List.mem_of_getElem? hchild)
          have hle := ih hhead hgateway
          rw [List.length_cons]
          omega
      omega
    have hcontext : (layers.foldl EvalContext.budgeted
        (EvalContext.fromRequest env.host request)).privacy ≠ .localOnly := by
      rw [budget_foldl_budgeted]
      show (if _ then PlanPrivacy.localOnly else .allowRemote) ≠ .localOnly
      rw [if_neg hprivacy]
      exact nofun
    obtain ⟨s', hworld, hrequest, hrun⟩ := eval_budgeted env hplan hdepth
      (.fromRequest env.host request) (.new world cache model)
    have hsent := evalAtom_gateway (s := s') hhead hcontext henv hcapability hgateway
    rw [hworld, hrequest, budget_foldl_budgeted] at hsent
    rw [budget_foldl_budgeted, hsent] at hrun
    rw [evalPlanReport, hchecked]
    dsimp only
    rcases heval : Eval.eval env (nesting plan + 1) plan (.fromRequest env.host request)
      (.new world cache model) with ⟨out, s''⟩
    rw [heval] at hrun
    cases out <;> exact hrun
  · have hlast : (budgetJson env.host api (nestedPolicy env.host request layers).budget).get key =
        some (.ofNat (values.getLast hne)) := by
      have hgiven := congrArg List.getLast? hvalues
      rw [List.getLast?_map, List.getLast?_map, List.getLast?_eq_some_getLast hne] at hgiven
      obtain ⟨value, hvalue, hunsigned⟩ := Option.map_eq_some_iff.mp hgiven
      rw [get_budgetJson]
      show (givenValues env.host request layers key).getLast?.map _ = _
      rw [hvalue, Option.map_some, exprToJson_of_unsigned hunsigned]
    refine ⟨_, get_federatedRequestObject fun hnil => ?_, hlast, min?_eq_getLast_iff hne⟩
    rw [hnil] at hlast
    cases hlast

namespace BudgetSample
open PlanSample (atom combine keyword)

def host : Host Unit :=
  { PlanSample.host with
    exprField := fun
      | .map entries, name => (entriesNamed name entries).head?
      | _, _ => none
    serde := { PlanSample.host.serde with
      canonicalJsonBytes := fun json => Text.utf8 (.ofList json.text) } }

def api : FederationApi Unit := ⟨fun _ => "", fun _ => none, Json.asU64⟩

/-- A gateway that notes the bodies it gets. -/
def gateway : OpenAiFederatedGateway (List (List UInt8)) where
  defaultModel := "model"
  realize body := fun bodies => (.ok none, bodies ++ [body])

def federation : OpenAiFederation (List (List UInt8)) := SortedMap.insert ∅ "gateway/a" gateway

def env : PlanEnv Unit (List (List UInt8)) :=
  ⟨host, PlanSample.api, .ofList [planCapability, federateCapability], none,
    some (federation.federation host api PlanSample.api)⟩

def number (text : String) : Expr Unit := .number ⟨.new "int", text⟩

def request (maxTokens : String) : Expr Unit := .map [Expr.entry "max-tokens" (number maxTokens)]

/-- A budget around the gateway. -/
def plan (maxTokens : String) : Expr Unit :=
  combine "budget" [atom "gateway/a", keyword "max-tokens" (number maxTokens)]

def args (maxTokens : String) : List (Expr Unit) :=
  [atom "gateway/a", keyword "max-tokens" (number maxTokens)]

theorem budgeted (maxTokens : String) : Budgeted (plan maxTokens) [args maxTokens] "gateway/a" :=
  .budget rfl rfl (.atom rfl)

end BudgetSample

theorem federated_budget_nine_seven :
    ∃ budget, JsonObject.get (federatedRequestObject BudgetSample.host BudgetSample.api "model"
        (.new (BudgetSample.request "9") [])
        (nestedPolicy BudgetSample.host (BudgetSample.request "9") [BudgetSample.args "7"]))
        "budget" = some (.object budget) ∧
      JsonObject.get budget "max-tokens" = some (.ofNat 7) ∧ [9, 7].min? = some 7 := by
  obtain ⟨-, budget, hobject, hbudget, hmin⟩ := federated_budget_last (BudgetSample.budgeted "7")
    (rfl : admitPlan BudgetSample.env _ (BudgetSample.request "9") = _) (by decide) (by decide) rfl
    (by decide) (rfl : BudgetSample.federation.gateway _ = .ok BudgetSample.gateway)
    (rfl : (givenValues _ _ _ "max-tokens").map _ = [9, 7].map some) (by decide) [] none
  exact ⟨budget, hobject, hbudget, hmin.mpr (by decide)⟩

/-- A budget of ten in a request with a budget of five: the gateway is sent ten. -/
theorem inner_budget_widens :
    (evalPlanReport BudgetSample.env (BudgetSample.plan "10") (BudgetSample.request "5")
      ([], none)).2.1 = [Text.utf8 ("\x7b\"budget\":\x7b\"max-tokens\":10\x7d," ++
        "\"input\":\"fixture echo\",\"model\":\"model\",\"store\":false\x7d")] ∧
    [5, 10].min? = some 5 := by
  refine ⟨?_, rfl⟩
  decide +kernel

end SimAgentNet.OpenaiServer
