import SimAgentNet.OpenaiServer.ToolLoop

/-! # The targets of the tool rounds

The first evaluation of a response request has the runners and the federation of its targets. The
evaluations of the tool rounds have none, so they agree with the first exactly on plans that reach
no atom of these targets. -/

namespace SimAgentNet.OpenaiServer
variable {Mode World : Type}

/-- The runners, and the federation if there is one, on which a response is computed. -/
structure ResponseRuntimeTargets (Mode World : Type) where
  runners : RunnerRegistry Mode World
  federation : Option (Federation Mode World)

/-- The environment of an evaluation on the targets. -/
def PlanEnv.aiming (env : PlanEnv Mode World)
    (targets : Option (ResponseRuntimeTargets Mode World)) : PlanEnv Mode World :=
  env.targeting (targets.map (·.runners)) (targets.bind (·.federation))

section Execution
variable (env : PlanEnv Mode World) (api : ToolApi Mode) (kernel : ToolKernel Mode World)
  (plan request : Expr Mode) (fromRequest : Effect KernelError World OpenAiToolRegistry)

/-- Runs the loop when the request declares tools. -/
def runToolLoopWithCache (initial : PlanEvalReport Mode) :
    ToolLoop.M Mode World (PlanEvalReport Mode) := do
  let registry ← .focus ToolRun.world (fun world run => { run with world })
    (.mapError .failure fromRequest)
  if registry.isEmpty then
    return initial
  runToolLoopWithRegistry env api kernel plan request registry initial .default

def evaluateFirst (targets : Option (ResponseRuntimeTargets Mode World)) :
    ToolLoop.M Mode World (PlanEvalReport Mode) :=
  .focus (fun run => (run.world, run.cache)) (fun (world, cache) run => { run with world, cache })
    (evalPlanReport (env.aiming targets) plan request)

/-- The evaluation and the tool loop of a response request. -/
def executePlan (targets : Option (ResponseRuntimeTargets Mode World)) :
    ToolLoop.M Mode World (PlanEvalReport Mode) := do
  let initial ← evaluateFirst env plan request targets
  runToolLoopWithCache env api kernel plan request fromRequest initial

/-- The same with the evaluations of all rounds on the targets. -/
def executeUniformly (targets : Option (ResponseRuntimeTargets Mode World)) :
    ToolLoop.M Mode World (PlanEvalReport Mode) := do
  let initial ← evaluateFirst env plan request targets
  let registry ← .focus ToolRun.world (fun world run => { run with world })
    (.mapError .failure fromRequest)
  if registry.isEmpty then
    return initial
  ToolLoop.run env api kernel registry (evalPlanReport (env.aiming targets) plan) .default request
    initial

end Execution

/-- A model is found under the address. -/
def Resolves (env : PlanEnv Mode World) (address : String) : Prop :=
  match resolveAtomAddress address with
  | .error _ => False
  | .ok head =>
    if head = "gateway" then env.federation.isSome = true
    else head = "fixture" ∨ (env.runners.bind (·.locality address)).isSome = true

/-- The address is that of a federated gateway of the targets, or of one of their runners. -/
def Targeted (targets : Option (ResponseRuntimeTargets Mode World)) (address : String) : Prop :=
  match resolveAtomAddress address with
  | .error _ => False
  | .ok head =>
    if head = "gateway" then (targets.bind (·.federation)).isSome = true
    else head ≠ "fixture" ∧ (targets.bind (·.runners.locality address)).isSome = true

/-- An atom of the targets is among the plans that the plan reaches. -/
def ReachesTarget (targets : Option (ResponseRuntimeTargets Mode World)) (plan : Expr Mode) : Prop :=
  ∃ d p address, Reaches plan d p ∧ planParts p = .ok ("atom", [.string address]) ∧
    Targeted targets address

variable {env : PlanEnv Mode World} {targets : Option (ResponseRuntimeTargets Mode World)}

/-- Without targets an address resolves as with them exactly when it is not one of theirs. -/
theorem resolves_iff_not_targeted {address : String} :
    (Resolves (env.targeting none none) address ↔ Resolves (env.aiming targets) address) ↔
      ¬Targeted targets address := by
  unfold Resolves Targeted
  cases resolveAtomAddress address with
  | error e => simp
  | ok head =>
    by_cases hgateway : head = "gateway"
    · simp [hgateway, PlanEnv.aiming, PlanEnv.targeting]
    · by_cases hfixture : head = "fixture"
      · simp [hfixture]
      · cases targets <;> simp [hgateway, hfixture, PlanEnv.aiming, PlanEnv.targeting]

namespace Eval
variable {r : Option (RunnerRegistry Mode World)} {f : Option (Federation Mode World)}
  {ev ev' : Expr Mode → EvalContext Mode → Eval Mode World (ModelResponse Mode)}

/-- An atom that is not of the targets does the same without them. -/
theorem evalAtom_eq {address : String} (h : ¬Targeted targets address)
    (context : EvalContext Mode) :
    evalAtom (env.targeting none none) address context =
      evalAtom (env.aiming targets) address context := by
  funext s
  unfold evalAtom
  unfold Targeted at h
  cases haddress : resolveAtomAddress address with
  | error e => rfl
  | ok head =>
    simp only [haddress] at h
    simp only [Effect.bind_apply, ofResult_ok rfl, Effect.get_apply]
    by_cases hgateway : head = "gateway"
    · rw [if_pos hgateway, Option.not_isSome_iff_eq_none] at h
      have hfederation : (env.aiming targets).federation = none := h
      simp only [if_pos hgateway, hfederation]
      rfl
    · rw [if_neg hgateway] at h
      by_cases hfixture : head = "fixture"
      · simp only [hfixture, ne_eq, not_true, if_false]
        rfl
      · have hlocality : (env.aiming targets).runners.bind (·.locality address) = none := by
          have hnone : targets.bind (·.runners.locality address) = none :=
            Option.not_isSome_iff_eq_none.mp fun hs => h ⟨hfixture, hs⟩
          cases targets with
          | none => rfl
          | some targets => exact hnone
        simp only [hgateway, hfixture, ne_eq, not_false_eq_true, if_true, if_false]
        cases hrunners : (env.aiming targets).runners with
        | none => rfl
        | some runners =>
          rw [hrunners, Option.bind_some] at hlocality
          simp only [hlocality]
          rfl

/-! ## Evaluations on other targets -/

theorem evalChild_eq {child : Expr Mode} (h : ev child = ev' child) (combinator : String)
    (context : EvalContext Mode) :
    evalChild (env.targeting r f) ev combinator child context =
      evalChild env ev' combinator child context := by
  unfold evalChild
  rw [h]
  rfl

theorem raceLoop_eq {children : List (Expr Mode)} (h : ∀ child ∈ children, ev child = ev' child)
    (many : Bool) (context : EvalContext Mode) (winner : Option (ModelResponse Mode))
    (firstError : Option KernelError) :
    raceLoop (env.targeting r f) ev many context children winner firstError =
      raceLoop env ev' many context children winner firstError := by
  induction children generalizing winner firstError with
  | nil => rfl
  | cons child children ih =>
    have ih := ih fun c hc => h c (List.mem_cons_of_mem _ hc)
    simp only [raceLoop, ih, h child List.mem_cons_self]
    rfl

theorem fallbackLoop_eq {children : List (Expr Mode)} (h : ∀ child ∈ children, ev child = ev' child)
    (context : EvalContext Mode) (firstError : Option KernelError) :
    fallbackLoop (env.targeting r f) ev context children firstError =
      fallbackLoop env ev' context children firstError := by
  induction children generalizing firstError with
  | nil => rfl
  | cons child children ih =>
    have ih := ih fun c hc => h c (List.mem_cons_of_mem _ hc)
    simp only [fallbackLoop, ih, h child List.mem_cons_self]
    rfl

theorem chainLoop_eq {children : List (Expr Mode)} (h : ∀ child ∈ children, ev child = ev' child)
    (context : EvalContext Mode) (last : Option (ModelResponse Mode)) :
    chainLoop (env.targeting r f) ev context children last =
      chainLoop env ev' context children last := by
  induction children generalizing last with
  | nil => rfl
  | cons child children ih =>
    have ih := ih fun c hc => h c (List.mem_cons_of_mem _ hc)
    simp only [chainLoop, ih, evalChild_eq (h child List.mem_cons_self)]

theorem sidesLoop_eq {children : List (Expr Mode)} (h : ∀ child ∈ children, ev child = ev' child)
    (context : EvalContext Mode) (transcripts : List String) :
    sidesLoop (env.targeting r f) ev context children transcripts =
      sidesLoop env ev' context children transcripts := by
  induction children generalizing transcripts with
  | nil => rfl
  | cons child children ih =>
    have ih := ih fun c hc => h c (List.mem_cons_of_mem _ hc)
    simp only [sidesLoop, ih, evalChild_eq (h child List.mem_cons_self)]

/-- Indexing a child reaches only children. -/
theorem childAt_bind_eq {children : List (Expr Mode)} {i : Nat}
    {g g' : Expr Mode → Eval Mode World α} (h : ∀ child ∈ children, g child = g' child) :
    childAt children i >>= g = childAt children i >>= g' := by
  funext s
  cases hchild : children[i]? with
  | none => rw [Effect.bind_apply, Effect.bind_apply, childAt_of_none hchild]
  | some child =>
    rw [Effect.bind_apply, Effect.bind_apply, childAt_of_some hchild]
    exact congrFun (h child (List.mem_of_getElem? hchild)) s

theorem evalChain_eq {children : List (Expr Mode)} (h : ∀ child ∈ children, ev child = ev' child)
    (context : EvalContext Mode) :
    evalChain (env.targeting r f) ev children context = evalChain env ev' children context := by
  unfold evalChain
  rw [chainLoop_eq h]

theorem evalRemote_eq {child : Expr Mode} (h : ev child = ev' child) (context : EvalContext Mode) :
    evalRemote (env.targeting r f) ev child context = evalRemote env ev' child context := by
  unfold evalRemote
  rw [evalChild_eq h]
  rfl

theorem evalCache_eq {child : Expr Mode} (h : ev child = ev' child) (args : List (Expr Mode))
    (context : EvalContext Mode) :
    evalCache (env.targeting r f) ev args child context = evalCache env ev' args child context := by
  unfold evalCache
  simp only [evalChild_eq h]
  rfl

theorem evalVerify_eq {children : List (Expr Mode)} (h : ∀ child ∈ children, ev child = ev' child)
    (args : List (Expr Mode)) (context : EvalContext Mode) :
    evalVerify (env.targeting r f) ev args children context =
      evalVerify env ev' args children context := by
  unfold evalVerify
  refine childAt_bind_eq fun generator hg => ?_
  rw [evalChild_eq (h generator hg)]
  refine congrArg _ (funext fun generated => ?_)
  refine childAt_bind_eq fun checker hc => ?_
  rw [evalChild_eq (h checker hc)]

theorem evalDebate_eq {args : List (Expr Mode)}
    (h : ∀ child ∈ childArgs args, ev child = ev' child)
    (hjudge : ev (judgePlan args) = ev' (judgePlan args)) (context : EvalContext Mode) :
    evalDebate (env.targeting r f) ev args (childArgs args) context =
      evalDebate env ev' args (childArgs args) context := by
  unfold evalDebate
  rw [sidesLoop_eq h]
  simp only [evalChild_eq hjudge]

/-- A call does the same on other targets when the plans below it do, and it is no atom of
either. -/
theorem step_eq {plan : Expr Mode} (h : ∀ p, Below plan p → ev p = ev' p)
    (hatom : ∀ address, planParts plan = .ok ("atom", [.string address]) → ∀ context,
      evalAtom (env.targeting r f) address context = evalAtom env address context)
    (context : EvalContext Mode) :
    step (env.targeting r f) ev plan context = step env ev' plan context := by
  unfold step
  cases hp : planParts plan with
  | error e => rfl
  | ok parts =>
    obtain ⟨name, args⟩ := parts
    funext s
    rw [Effect.bind_apply, Effect.bind_apply, ofResult_ok rfl]
    dsimp only
    refine congrFun ?_ s
    by_cases hname : name = "atom"
    · rw [if_pos hname, if_pos hname]
      subst hname
      split
      · exact hatom _ hp context
      · rfl
    · rw [if_neg hname, if_neg hname]
      cases hc : combinatorByName name with
      | none => rfl
      | some c =>
        cases name_of_combinatorByName hc
        have hchild : ∀ child ∈ childArgs args, ev child = ev' child :=
          fun child hmem => h child ⟨c, args, hp, .inl hmem⟩
        cases c with
        | race => exact raceLoop_eq hchild _ context none none
        | fallback => exact fallbackLoop_eq hchild context none
        | chain => exact evalChain_eq hchild context
        | budget => exact childAt_bind_eq fun child hmem => evalChild_eq (hchild child hmem) _ _
        | market => exact childAt_bind_eq fun child hmem => evalChild_eq (hchild child hmem) _ _
        | «local» => exact childAt_bind_eq fun child hmem => evalChild_eq (hchild child hmem) _ _
        | remote => exact childAt_bind_eq fun child hmem => evalRemote_eq (hchild child hmem) _
        | trace => exact childAt_bind_eq fun child hmem => evalChild_eq (hchild child hmem) _ _
        | verify => exact evalVerify_eq hchild args context
        | debate =>
          exact evalDebate_eq hchild (h _ ⟨.debate, args, hp, .inr ⟨rfl, rfl⟩⟩) context
        | cache => exact childAt_bind_eq fun child hmem => evalCache_eq (hchild child hmem) args _

/-- On a plan that reaches no atom of the targets, an evaluation without them does the same. -/
theorem eval_eq {plan : Expr Mode} (h : ¬ReachesTarget targets plan) (depth : Nat) :
    Eval.eval (env.targeting none none) depth plan = Eval.eval (env.aiming targets) depth plan := by
  induction depth generalizing plan with
  | zero => rfl
  | succ depth ih =>
    funext context
    symm
    show step ((env.targeting none none).targeting (targets.map (·.runners))
      (targets.bind (·.federation))) (Eval.eval (env.aiming targets) depth) plan context =
        step (env.targeting none none) (Eval.eval (env.targeting none none) depth) plan context
    refine step_eq (fun p hbelow => ?_) (fun address hp context => ?_) context
    · refine (ih ?_).symm
      rintro ⟨d, q, address, hr, hq, ht⟩
      exact h ⟨d + 1, q, address, hr.cons hbelow, hq, ht⟩
    · exact (evalAtom_eq (fun ht => h ⟨1, plan, address, .self, hp, ht⟩) context).symm

end Eval

theorem evalPlanReportWithCache_eq {plan : Expr Mode} (h : ¬ReachesTarget targets plan) :
    evalPlanReportWithCache env plan = evalPlanReport (env.aiming targets) plan := by
  funext request w
  show evalPlanReport (env.targeting none none) plan request w = _
  unfold evalPlanReport
  rw [Eval.eval_eq h]
  rfl

/-- The atoms that a plan reaches resolve in the later rounds as in the first evaluation exactly
when none of them is one of the targets; then all rounds evaluate the plan as on the targets. -/
theorem executePlan_uniform_iff (env : PlanEnv Mode World)
    (targets : Option (ResponseRuntimeTargets Mode World)) (plan : Expr Mode) :
    ((∀ d p address, Reaches plan d p → planParts p = .ok ("atom", [.string address]) →
        (Resolves (env.targeting none none) address ↔ Resolves (env.aiming targets) address)) ↔
      ¬ReachesTarget targets plan) ∧
    (¬ReachesTarget targets plan → ∀ api kernel request fromRequest,
      evalPlanReportWithCache env plan = evalPlanReport (env.aiming targets) plan ∧
      executePlan env api kernel plan request fromRequest targets =
        executeUniformly env api kernel plan request fromRequest targets) := by
  constructor
  · constructor
    · rintro h ⟨d, p, address, hr, hp, ht⟩
      exact resolves_iff_not_targeted.mp (h d p address hr hp) ht
    · intro h d p address hr hp
      exact resolves_iff_not_targeted.mpr fun ht => h ⟨d, p, address, hr, hp, ht⟩
  · intro h api kernel request fromRequest
    have heval : evalPlanReportWithCache env plan = evalPlanReport (env.aiming targets) plan :=
      evalPlanReportWithCache_eq h
    refine ⟨heval, ?_⟩
    unfold executePlan executeUniformly runToolLoopWithCache runToolLoopWithRegistry
    rw [heval]

namespace ToolSample

/-- One local runner. -/
def smallRunner : ResponseRuntimeTargets Unit Unit where
  runners := {
    locality := fun address => if address = "runner/small" then some (.new "local") else none
    infer := fun address _ => pure (.new (.new "runner") address [.string "hi"] (.new "stop")) }
  federation := none

def runnerPlan : Expr Unit := PlanSample.atom "runner/small"

end ToolSample

/-- The runner answers the first evaluation; in the tool rounds its model is not found. -/
theorem runner_lost_in_tool_rounds :
    (∃ report, (evalPlanReport (ToolSample.env.aiming (some ToolSample.smallRunner))
      ToolSample.runnerPlan (.map []) ((), none)).1 = .ok report) ∧
    (evalPlanReportWithCache ToolSample.env ToolSample.runnerPlan (.map []) ((), none)).1 =
      .error (.failure (.eval "model_not_found: runner/small")) ∧
    ¬∀ d p address, Reaches ToolSample.runnerPlan d p →
      planParts p = .ok ("atom", [.string address]) →
      (Resolves (ToolSample.env.targeting none none) address ↔
        Resolves (ToolSample.env.aiming (some ToolSample.smallRunner)) address) := by
  refine ⟨⟨_, rfl⟩, rfl, fun h => ?_⟩
  have hresolves := h 1 _ "runner/small" .self rfl
  have htargeted : Targeted (some ToolSample.smallRunner) "runner/small" := ⟨by decide, rfl⟩
  exact resolves_iff_not_targeted.mp hresolves htargeted

end SimAgentNet.OpenaiServer
