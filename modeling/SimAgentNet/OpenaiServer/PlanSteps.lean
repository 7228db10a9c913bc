import SimAgentNet.OpenaiServer.PlanEval

/-! # What one call of the plan evaluator does

Said once, as a relation over any way of evaluating the plans that the call reaches. The facts
about whole evaluations are inductions on the number of nested calls with one case for each
constructor. -/

namespace SimAgentNet.OpenaiServer
variable {Mode World : Type}

/-- A stop that no combinator catches. -/
def Stop.Abrupt : Stop → Prop
  | .failure _ => False
  | _ => True

/-- A way of evaluating plans, as a relation. -/
abbrev Evaluates (Mode World : Type) :=
  Expr Mode → EvalContext Mode → PlanEvaluator Mode World → Outcome Mode →
    PlanEvaluator Mode World → Prop

section Steps
variable (env : PlanEnv Mode World) (E : Evaluates Mode World)

/-- The outcome is a response or an error. -/
def Settled (out : Outcome Mode) : Prop :=
  (∃ response, out = .ok response) ∨ ∃ e, out = .error (.failure e)

/-- What an atom does: it answers or refuses by itself, or asks a gateway or a runner. -/
inductive AtomRun (address : String) (context : EvalContext Mode)
    (s : PlanEvaluator Mode World) : Outcome Mode → PlanEvaluator Mode World → Prop
  | answered (hout : Settled out) : AtomRun address context s out s
  | gateway (hprivacy : context.privacy ≠ .localOnly) (hcap : federateCapability ∈ env.capabilities)
      (hout : Settled out) (world : World) :
    AtomRun address context s out { s.using context.privacy (.gateway address) with world }
  | runner (locality : Symbol)
      (hlocality : context.privacy = .localOnly → localityIsAllowedForLocalOnly locality = true)
      (hout : Settled out) (world : World) :
    AtomRun address context s out { s.using context.privacy (.runner address locality) with world }

/-- A child in a branch of its own. -/
inductive ChildRun (combinator : String) (child : Expr Mode) (context : EvalContext Mode)
    (s : PlanEvaluator Mode World) : Outcome Mode → PlanEvaluator Mode World → Prop
  | completed (h : E child context (s.start combinator child) (.ok response) s') :
    ChildRun combinator child context s (.ok response)
      (s'.finish s.nextBranch "completed" (responseSummary response))
  | failed (h : E child context (s.start combinator child) (.error (.failure e)) s') :
    ChildRun combinator child context s (.error (.failure e))
      (s'.finish s.nextBranch "error" (.string (env.api.errorText e)))
  | stopped (h : E child context (s.start combinator child) (.error stop) s')
      (hstop : stop.Abrupt) :
    ChildRun combinator child context s (.error stop) s'

inductive RaceRun (many : Bool) (context : EvalContext Mode) :
    List (Expr Mode) → Option (ModelResponse Mode) → Option KernelError →
      PlanEvaluator Mode World → Outcome Mode → PlanEvaluator Mode World → Prop
  | won : RaceRun many context [] (some response) firstError s (.ok response) s
  | lost : RaceRun many context [] none firstError s (.error (.failure e)) s
  | skip (hslow : many = true ∧ Eval.isSlowFixture child = true)
      (h : RaceRun many context children winner firstError
        ((s.start "race" child).finish s.nextBranch "cancelled" (.string "cancelled by faster branch"))
        out s') :
    RaceRun many context (child :: children) winner firstError s out s'
  | winner (h : E child context (s.start "race" child) (.ok response) s₁)
      (h' : RaceRun many context children (some response) firstError
        (s₁.finish s.nextBranch "winner" (responseSummary response)) out s') :
    RaceRun many context (child :: children) none firstError s out s'
  | later (h : E child context (s.start "race" child) (.ok response) s₁)
      (h' : RaceRun many context children (some first) firstError
        (s₁.finish s.nextBranch "cancelled" (responseSummary response)) out s') :
    RaceRun many context (child :: children) (some first) firstError s out s'
  | failed (h : E child context (s.start "race" child) (.error (.failure e)) s₁)
      (h' : RaceRun many context children winner (firstError.or (some e))
        (s₁.finish s.nextBranch "error" (.string (env.api.errorText e))) out s') :
    RaceRun many context (child :: children) winner firstError s out s'
  | stopped (h : E child context (s.start "race" child) (.error stop) s₁) (hstop : stop.Abrupt) :
    RaceRun many context (child :: children) winner firstError s (.error stop) s₁

inductive FallbackRun (context : EvalContext Mode) :
    List (Expr Mode) → Option KernelError →
      PlanEvaluator Mode World → Outcome Mode → PlanEvaluator Mode World → Prop
  | none : FallbackRun context [] firstError s (.error (.failure e)) s
  | accepted (h : E child context (s.start "fallback" child) (.ok response) s₁) :
    FallbackRun context (child :: children) firstError s (.ok response)
      (s₁.finish s.nextBranch "accepted" (responseSummary response))
  | failed (h : E child context (s.start "fallback" child) (.error (.failure e)) s₁)
      (h' : FallbackRun context children (firstError.or (some e))
        (s₁.finish s.nextBranch "error" (.string (env.api.errorText e))) out s') :
    FallbackRun context (child :: children) firstError s out s'
  | stopped (h : E child context (s.start "fallback" child) (.error stop) s₁)
      (hstop : stop.Abrupt) :
    FallbackRun context (child :: children) firstError s (.error stop) s₁

/-- The children of a chain. The response of one is the request of the next. -/
inductive ChainRun (context : EvalContext Mode) :
    List (Expr Mode) → Option (ModelResponse Mode) → PlanEvaluator Mode World →
      Except Stop (Option (ModelResponse Mode)) → PlanEvaluator Mode World → Prop
  | done : ChainRun context [] last s (.ok last) s
  | next (h : ChildRun env E "chain" child context s (.ok response) s₁)
      (h' : ChainRun context children (some response)
        { s₁ with request := .new (.string (responseText response)) [] } out s') :
    ChainRun context (child :: children) last s out s'
  | stopped (h : ChildRun env E "chain" child context s (.error stop) s₁) :
    ChainRun context (child :: children) last s (.error stop) s₁

inductive SidesRun (context : EvalContext Mode) :
    List (Expr Mode) → List String → PlanEvaluator Mode World →
      Except Stop (List String) → PlanEvaluator Mode World → Prop
  | done : SidesRun context [] transcripts s (.ok transcripts) s
  | next (h : ChildRun env E "debate/side" child context s (.ok response) s₁)
      (h' : SidesRun context children (transcripts ++ [responseText response]) s₁ out s') :
    SidesRun context (child :: children) transcripts s out s'
  | stopped (h : ChildRun env E "debate/side" child context s (.error stop) s₁) :
    SidesRun context (child :: children) transcripts s (.error stop) s₁

/-- The context in which a combinator that only wraps its child evaluates it. -/
def Combinator.wraps (args : List (Expr Mode)) (context : EvalContext Mode) :
    Combinator → Option (EvalContext Mode)
  | .budget => some (context.budgeted args)
  | .market => some context
  | .local => some context.local
  | .trace => some context.traced
  | _ => none

/-- The combinators whose only child is indexed. -/
def Combinator.Single : Combinator → Prop
  | .budget | .market | .local | .trace | .remote | .cache => True
  | _ => False

/-- Everything one call of the evaluator can do. -/
inductive Steps (plan : Expr Mode) (context : EvalContext Mode) (s : PlanEvaluator Mode World) :
    Outcome Mode → PlanEvaluator Mode World → Prop
  /-- An error before anything was done. -/
  | refused : Steps plan context s (.error (.failure e)) s
  | atom (hp : planParts plan = .ok ("atom", [.string address]))
      (h : AtomRun env address context s out s') : Steps plan context s out s'
  | race (hp : planParts plan = .ok (Combinator.race.name, args))
      (h : RaceRun env E (1 < (childArgs args).length) context (childArgs args) none none s out s') :
    Steps plan context s out s'
  | fallback (hp : planParts plan = .ok (Combinator.fallback.name, args))
      (h : FallbackRun env E context (childArgs args) none s out s') :
    Steps plan context s out s'
  | chain (hp : planParts plan = .ok (Combinator.chain.name, args))
      (h : ChainRun env E context (childArgs args) none s (.ok (some response)) s') :
    Steps plan context s (.ok response) { s' with request := s.request }
  | emptyChain (hp : planParts plan = .ok (Combinator.chain.name, args))
      (h : ChainRun env E context (childArgs args) none s (.ok none) s') :
    Steps plan context s (.error (.failure e)) { s' with request := s.request }
  | brokenChain (hp : planParts plan = .ok (Combinator.chain.name, args))
      (h : ChainRun env E context (childArgs args) none s (.error stop) s') :
    Steps plan context s (.error stop) s'
  | wrapped (c : Combinator) (hp : planParts plan = .ok (c.name, args))
      (hwraps : c.wraps args context = some context') (hchild : (childArgs args)[0]? = some child)
      (h : ChildRun env E c.name child context' s out s') : Steps plan context s out s'
  | remote (hp : planParts plan = .ok (Combinator.remote.name, args))
      (hchild : (childArgs args)[0]? = some child) (hprivacy : context.privacy ≠ .localOnly)
      (hcap : planRemoteCapability ∈ env.capabilities)
      (h : ChildRun env E "remote" child context (s.using context.privacy .remote) out s') :
    Steps plan context s out s'
  | childless (c : Combinator) (hc : c.Single) (hp : planParts plan = .ok (c.name, args))
      (hchild : (childArgs args)[0]? = none) : Steps plan context s (.error .panicked) s
  | uncached (hp : planParts plan = .ok (Combinator.cache.name, args))
      (hchild : (childArgs args)[0]? = some child)
      (h : ChildRun env E "cache" child context s out s') : Steps plan context s out s'
  | hit (hp : planParts plan = .ok (Combinator.cache.name, args))
      (hchild : (childArgs args)[0]? = some child)
      (hkey : PlanCacheKey.forRequestPlan env.host s.request.toExpr child = .ok key)
      (hget : s.cache.bind (·.get? key) = some cached)
      (hout : (env.api.responseFromExpr cached.response).mapError Stop.failure = out) :
    Steps plan context s out { s with
      events := s.events ++ [⟨.new "cache-hit", key.toExpr env.host.hexEncode⟩]
      uses := s.uses ++ cached.uses.map (context.privacy, ·)
      hits := s.hits ++ [(context.privacy, cached)] }
  | cached (hp : planParts plan = .ok (Combinator.cache.name, args))
      (hchild : (childArgs args)[0]? = some child)
      (hkey : PlanCacheKey.forRequestPlan env.host s.request.toExpr child = .ok key)
      (h : ChildRun env E "cache" child context s (.ok response) s') :
    Steps plan context s (.ok response) { s' with
      cache := s'.cache.map (·.insert key
        { response := env.api.responseToExpr response
          uses := (s'.uses.drop s.uses.length).map (·.2)
          privacy := context.privacy, capabilities := env.capabilities }) }
  | unverified (hp : planParts plan = .ok (Combinator.verify.name, args))
      (hchild : (childArgs args)[0]? = none) : Steps plan context s (.error .panicked) s
  | ungenerated (hp : planParts plan = .ok (Combinator.verify.name, args))
      (hchild : (childArgs args)[0]? = some generator)
      (h : ChildRun env E "verify/generator" generator context s (.error stop) s') :
    Steps plan context s (.error stop) s'
  | checkerless (hp : planParts plan = .ok (Combinator.verify.name, args))
      (hchild : (childArgs args)[0]? = some generator)
      (h : ChildRun env E "verify/generator" generator context s (.ok generated) s')
      (hchild' : (childArgs args)[1]? = none) : Steps plan context s (.error .panicked) s'
  | unchecked (hp : planParts plan = .ok (Combinator.verify.name, args))
      (hchild : (childArgs args)[0]? = some generator)
      (h : ChildRun env E "verify/generator" generator context s (.ok generated) s₁)
      (hchild' : (childArgs args)[1]? = some checker)
      (h' : ChildRun env E "verify/checker" checker context s₁ (.error stop) s') :
    Steps plan context s (.error stop) s'
  | checked (hp : planParts plan = .ok (Combinator.verify.name, args))
      (hchild : (childArgs args)[0]? = some generator)
      (h : ChildRun env E "verify/generator" generator context s (.ok generated) s₁)
      (hchild' : (childArgs args)[1]? = some checker)
      (h' : ChildRun env E "verify/checker" checker context s₁ (.ok verdict) s')
      (hout : out = .ok generated ∨ ∃ e, out = .error (.failure e)) :
    Steps plan context s out s'
  | undebated (hp : planParts plan = .ok (Combinator.debate.name, args))
      (h : SidesRun env E context (childArgs args) [] s (.error stop) s') :
    Steps plan context s (.error stop) s'
  | judged (hp : planParts plan = .ok (Combinator.debate.name, args))
      (h : SidesRun env E context (childArgs args) [] s (.ok transcripts) s₁)
      (h' : ChildRun env E "debate/judge" (Eval.judgePlan args) context
        { s₁ with request := .new (.string (" | ".intercalate transcripts)) [] } out s') :
    Steps plan context s out { s' with request := s₁.request }

end Steps

namespace Eval
variable {env : PlanEnv Mode World}
  {ev : Expr Mode → EvalContext Mode → Eval Mode World (ModelResponse Mode)}

/-- The relation of an evaluator function. -/
def Ran (ev : Expr Mode → EvalContext Mode → Eval Mode World (ModelResponse Mode)) :
    Evaluates Mode World := fun plan context s out s' => ev plan context s = (out, s')

variable {s s' : PlanEvaluator Mode World} {context : EvalContext Mode}

theorem attempt_ok {x : Eval Mode World α} (h : x s = (.ok a, s')) :
    attempt x s = (.ok (.ok a), s') := by simp only [attempt, h]

theorem attempt_failure {x : Eval Mode World α} (h : x s = (.error (.failure e), s')) :
    attempt x s = (.ok (.error e), s') := by simp only [attempt, h]

theorem attempt_abrupt {x : Eval Mode World α} (h : x s = (.error stop, s')) (hs : stop.Abrupt) :
    attempt x s = (.error stop, s') := by
  cases stop with
  | failure e => cases hs
  | panicked => simp only [attempt, h]
  | exhausted => simp only [attempt, h]

/-- The ways a plan evaluation ends: with a response, with an error, or abruptly. -/
theorem outcome_cases (out : Outcome Mode) :
    (∃ response, out = .ok response) ∨ (∃ e, out = .error (.failure e)) ∨
      ∃ stop, out = .error stop ∧ stop.Abrupt := by
  match out with
  | .ok response => exact .inl ⟨response, rfl⟩
  | .error (.failure e) => exact .inr (.inl ⟨e, rfl⟩)
  | .error .panicked => exact .inr (.inr ⟨_, rfl, trivial⟩)
  | .error .exhausted => exact .inr (.inr ⟨_, rfl, trivial⟩)

theorem evalChild_run (combinator : String) (child : Expr Mode)
    (h : evalChild env ev combinator child context s = (out, s')) :
    ChildRun env (Ran ev) combinator child context s out s' := by
  simp only [evalChild, Effect.bind_apply, branchStart] at h
  generalize hev : ev child context (s.start combinator child) = result at h
  obtain ⟨o, s₁⟩ := result
  rcases outcome_cases o with ⟨response, rfl⟩ | ⟨e, rfl⟩ | ⟨stop, rfl, hstop⟩
  · rw [attempt_ok hev] at h
    cases h
    exact .completed hev
  · rw [attempt_failure hev] at h
    cases h
    exact .failed hev
  · rw [attempt_abrupt hev hstop] at h
    cases h
    exact .stopped hev hstop

theorem raceLoop_run {many : Bool} {children : List (Expr Mode)}
    (h : raceLoop env ev many context children winner firstError s = (out, s')) :
    RaceRun env (Ran ev) many context children winner firstError s out s' := by
  induction children generalizing winner firstError s with
  | nil =>
    cases winner with
    | some response => cases h; exact .won
    | none => cases h; exact .lost
  | cons child children ih =>
    simp only [raceLoop, Effect.bind_apply, branchStart] at h
    split at h
    · rename_i hslow
      exact .skip (by simpa using hslow) (ih h)
    · generalize hev : ev child context (s.start "race" child) = result at h
      obtain ⟨o, s₁⟩ := result
      rcases outcome_cases o with ⟨response, rfl⟩ | ⟨e, rfl⟩ | ⟨stop, rfl, hstop⟩
      · rw [Effect.bind_apply, attempt_ok hev] at h
        cases winner with
        | none => exact .winner hev (ih h)
        | some first => exact .later hev (ih h)
      · rw [Effect.bind_apply, attempt_failure hev] at h
        exact .failed hev (ih h)
      · rw [Effect.bind_apply, attempt_abrupt hev hstop] at h
        cases h
        exact .stopped hev hstop

theorem fallbackLoop_run {children : List (Expr Mode)}
    (h : fallbackLoop env ev context children firstError s = (out, s')) :
    FallbackRun env (Ran ev) context children firstError s out s' := by
  induction children generalizing firstError s with
  | nil => cases h; exact .none
  | cons child children ih =>
    simp only [fallbackLoop, Effect.bind_apply, branchStart] at h
    generalize hev : ev child context (s.start "fallback" child) = result at h
    obtain ⟨o, s₁⟩ := result
    rcases outcome_cases o with ⟨response, rfl⟩ | ⟨e, rfl⟩ | ⟨stop, rfl, hstop⟩
    · rw [attempt_ok hev] at h
      cases h
      exact .accepted hev
    · rw [attempt_failure hev] at h
      exact .failed hev (ih h)
    · rw [attempt_abrupt hev hstop] at h
      cases h
      exact .stopped hev hstop

theorem chainLoop_run {children : List (Expr Mode)}
    (h : chainLoop env ev context children last s = (out, s')) :
    ChainRun env (Ran ev) context children last s out s' := by
  induction children generalizing last s with
  | nil => cases h; exact .done
  | cons child children ih =>
    simp only [chainLoop, Effect.bind_apply] at h
    generalize hchild : evalChild env ev "chain" child context s = result at h
    obtain ⟨o, s₁⟩ := result
    cases o with
    | error stop => cases h; exact .stopped (evalChild_run _ _ hchild)
    | ok response => exact .next (evalChild_run _ _ hchild) (ih h)

theorem sidesLoop_run {children : List (Expr Mode)}
    (h : sidesLoop env ev context children transcripts s = (out, s')) :
    SidesRun env (Ran ev) context children transcripts s out s' := by
  induction children generalizing transcripts s with
  | nil => cases h; exact .done
  | cons child children ih =>
    simp only [sidesLoop, Effect.bind_apply] at h
    generalize hchild : evalChild env ev "debate/side" child context s = result at h
    obtain ⟨o, s₁⟩ := result
    cases o with
    | error stop => cases h; exact .stopped (evalChild_run _ _ hchild)
    | ok response => exact .next (evalChild_run _ _ hchild) (ih h)

theorem childAt_of_some {children : List (Expr Mode)} (h : children[i]? = some child) :
    childAt children i s = (.ok child, s) := by
  simp only [childAt, h]
  rfl

theorem childAt_of_none {children : List (Expr Mode)} (h : children[i]? = none) :
    childAt children i s = (.error .panicked, s) := by
  simp only [childAt, h]
  rfl

theorem ofResult_error {x : PlanResult α} (h : x = .error e) :
    (ofResult x : Eval Mode World α) s = (.error (.failure e), s) := by rw [h]; rfl

theorem ofResult_ok {x : PlanResult α} (h : x = .ok a) :
    (ofResult x : Eval Mode World α) s = (.ok a, s) := by rw [h]; rfl

theorem settled_onWorld {x : Effect KernelError World (ModelResponse Mode)}
    (h : onWorld x s = (out, s')) : Settled out ∧ ∃ world, s' = { s with world } := by
  obtain ⟨rfl, rfl⟩ := Prod.mk.inj h
  refine ⟨?_, _, rfl⟩
  simp only [Effect.mapError]
  cases (x s.world).1 with
  | ok response => exact .inl ⟨response, rfl⟩
  | error e => exact .inr ⟨e, rfl⟩

theorem settled_ofResult (x : PlanResult (ModelResponse Mode)) :
    Settled (x.mapError Stop.failure) := by
  cases x with
  | ok response => exact .inl ⟨response, rfl⟩
  | error e => exact .inr ⟨e, rfl⟩

theorem evalAtom_run {address : String} (h : evalAtom env address context s = (out, s')) :
    AtomRun env address context s out s' := by
  rw [evalAtom, Effect.bind_apply] at h
  cases haddress : resolveAtomAddress address with
  | error e =>
    rw [ofResult_error haddress] at h
    cases h
    exact .answered (.inr ⟨e, rfl⟩)
  | ok head =>
    rw [ofResult_ok haddress] at h
    simp only [Effect.bind_apply, Effect.get_apply] at h
    by_cases hgateway : head = "gateway"
    · rw [if_pos hgateway] at h
      by_cases hprivacy : context.privacy = .localOnly
      · rw [if_pos hprivacy] at h
        cases h
        exact .answered (.inr ⟨_, rfl⟩)
      · rw [if_neg hprivacy] at h
        cases hf : env.federation with
        | none =>
          simp only [hf] at h
          cases h
          exact .answered (.inr ⟨_, rfl⟩)
        | some federation =>
          simp only [hf, PlanEnv.require] at h
          by_cases hcap : federateCapability ∈ env.capabilities
          · simp only [hcap, if_true] at h
            obtain ⟨hout, world, rfl⟩ := settled_onWorld h
            exact .gateway hprivacy hcap hout world
          · simp only [hcap, if_false] at h
            cases h
            exact .answered (.inr ⟨_, rfl⟩)
    · rw [if_neg hgateway] at h
      by_cases hfixture : head = "fixture"
      · simp only [hfixture, ne_eq, not_true_eq_false, if_false] at h
        cases h
        exact .answered (settled_ofResult _)
      · simp only [ne_eq, hfixture, not_false_eq_true, if_true] at h
        cases hr : env.runners with
        | none =>
          simp only [hr] at h
          cases h
          exact .answered (.inr ⟨_, rfl⟩)
        | some runners =>
          cases hl : runners.locality address with
          | none =>
            simp only [hr, hl] at h
            cases h
            exact .answered (.inr ⟨_, rfl⟩)
          | some locality =>
            simp only [hr, hl] at h
            by_cases hrefused :
                context.privacy = .localOnly ∧ ¬localityIsAllowedForLocalOnly locality = true
            · rw [if_pos hrefused] at h
              cases h
              exact .answered (.inr ⟨_, rfl⟩)
            · rw [if_neg hrefused] at h
              obtain ⟨hout, world, rfl⟩ := settled_onWorld h
              refine .runner locality (fun hlocal => ?_) hout world
              by_contra hnot
              exact hrefused ⟨hlocal, hnot⟩

variable {plan : Expr Mode} {args : List (Expr Mode)}

theorem evalChain_steps (hp : planParts plan = .ok (Combinator.chain.name, args))
    (h : evalChain env ev (childArgs args) context s = (out, s')) :
    Steps env (Ran ev) plan context s out s' := by
  simp only [evalChain, Effect.bind_apply, Effect.observe_apply] at h
  generalize hloop : chainLoop env ev context (childArgs args) none s = result at h
  obtain ⟨o, s₁⟩ := result
  have hrun := chainLoop_run hloop
  cases o with
  | error stop => cases h; exact .brokenChain hp hrun
  | ok last =>
    cases last with
    | none => cases h; exact .emptyChain hp hrun
    | some response => cases h; exact .chain hp hrun

theorem evalRemote_steps {child : Expr Mode}
    (hp : planParts plan = .ok (Combinator.remote.name, args))
    (hchild : (childArgs args)[0]? = some child)
    (h : evalRemote env ev child context s = (out, s')) :
    Steps env (Ran ev) plan context s out s' := by
  unfold evalRemote at h
  split at h
  · cases h; exact .refused
  · rename_i hprivacy
    by_cases hcap : planRemoteCapability ∈ env.capabilities
    · simp only [PlanEnv.require, hcap, if_true] at h
      exact .remote hp hchild hprivacy hcap (evalChild_run _ _ h)
    · simp only [PlanEnv.require, hcap, if_false] at h
      cases h
      exact .refused

theorem evalCache_steps {child : Expr Mode}
    (hp : planParts plan = .ok (Combinator.cache.name, args))
    (hchild : (childArgs args)[0]? = some child)
    (h : evalCache env ev args child context s = (out, s')) :
    Steps env (Ran ev) plan context s out s' := by
  rw [evalCache, Effect.bind_apply] at h
  cases hmode : readThroughDefault args with
  | error e =>
    rw [ofResult_error hmode] at h
    cases h
    exact .refused
  | ok mode =>
    rw [ofResult_ok hmode] at h
    dsimp only at h
    split at h
    · exact .uncached hp hchild (evalChild_run _ _ h)
    · simp only [Effect.bind_apply, Effect.get_apply] at h
      cases hkey : PlanCacheKey.forRequestPlan env.host s.request.toExpr child with
      | error e =>
        rw [ofResult_error hkey] at h
        cases h
        exact .refused
      | ok key =>
        rw [ofResult_ok hkey] at h
        dsimp only at h
        generalize hget : (if mode.reads then s.cache.bind (·.get? key) else none) = found at h
        cases found with
        | some cached =>
          split at hget
          · cases h
            exact .hit hp hchild hkey hget rfl
          · cases hget
        | none =>
          dsimp only at h
          rw [Effect.bind_apply] at h
          generalize hrun : evalChild env ev "cache" child context s = result at h
          obtain ⟨o, s₁⟩ := result
          cases o with
          | error stop => cases h; exact .uncached hp hchild (evalChild_run _ _ hrun)
          | ok response =>
            dsimp only at h
            split at h
            · cases h; exact .cached hp hchild hkey (evalChild_run _ _ hrun)
            · cases h; exact .uncached hp hchild (evalChild_run _ _ hrun)

theorem evalVerify_steps (hp : planParts plan = .ok (Combinator.verify.name, args))
    (h : evalVerify env ev args (childArgs args) context s = (out, s')) :
    Steps env (Ran ev) plan context s out s' := by
  rw [evalVerify, Effect.bind_apply] at h
  cases hchild : (childArgs args)[0]? with
  | none =>
    rw [childAt_of_none hchild] at h
    cases h
    exact .unverified hp hchild
  | some generator =>
    rw [childAt_of_some hchild] at h
    dsimp only at h
    rw [Effect.bind_apply] at h
    generalize hrun : evalChild env ev "verify/generator" generator context s = result at h
    obtain ⟨o, s₁⟩ := result
    cases o with
    | error stop => cases h; exact .ungenerated hp hchild (evalChild_run _ _ hrun)
    | ok generated =>
      dsimp only at h
      rw [Effect.bind_apply] at h
      cases hchild' : (childArgs args)[1]? with
      | none =>
        rw [childAt_of_none hchild'] at h
        cases h
        exact .checkerless hp hchild (evalChild_run _ _ hrun) hchild'
      | some checker =>
        rw [childAt_of_some hchild'] at h
        dsimp only at h
        rw [Effect.bind_apply] at h
        generalize hrun' : evalChild env ev "verify/checker" checker context s₁ = result at h
        obtain ⟨o, s₂⟩ := result
        cases o with
        | error stop =>
          cases h
          exact .unchecked hp hchild (evalChild_run _ _ hrun) hchild' (evalChild_run _ _ hrun')
        | ok verdict =>
          dsimp only at h
          have hrun₂ := evalChild_run _ _ hrun'
          split at h
          · cases h
            exact .checked hp hchild (evalChild_run _ _ hrun) hchild' hrun₂ (.inl rfl)
          · cases hrejected : onRejected args generated with
            | error e =>
              rw [ofResult_error hrejected] at h
              cases h
              exact .checked hp hchild (evalChild_run _ _ hrun) hchild' hrun₂ (.inr ⟨e, rfl⟩)
            | ok response =>
              have hsame : response = generated := by
                simp only [onRejected] at hrejected
                split at hrejected
                · exact (Except.ok.inj hrejected).symm
                · cases hrejected
                · cases hrejected
                · cases hrejected
              rw [ofResult_ok hrejected] at h
              cases h
              exact .checked hp hchild (evalChild_run _ _ hrun) hchild' hrun₂ (.inl (hsame ▸ rfl))

theorem evalDebate_steps (hp : planParts plan = .ok (Combinator.debate.name, args))
    (h : evalDebate env ev args (childArgs args) context s = (out, s')) :
    Steps env (Ran ev) plan context s out s' := by
  simp only [evalDebate, Effect.bind_apply] at h
  generalize hloop : sidesLoop env ev context (childArgs args) [] s = result at h
  obtain ⟨o, s₁⟩ := result
  have hrun := sidesLoop_run hloop
  cases o with
  | error stop => cases h; exact .undebated hp hrun
  | ok transcripts =>
    simp only [withRequest] at h
    cases h
    exact .judged hp hrun (evalChild_run _ _ rfl)

theorem single_steps {c : Combinator} (hc : c.Single)
    (hp : planParts plan = .ok (c.name, args))
    {f : Expr Mode → Eval Mode World (ModelResponse Mode)}
    (hf : ∀ child, (childArgs args)[0]? = some child → f child s = (out, s') →
      Steps env (Ran ev) plan context s out s')
    (h : (childAt (childArgs args) 0 >>= f) s = (out, s')) :
    Steps env (Ran ev) plan context s out s' := by
  rw [Effect.bind_apply] at h
  cases hchild : (childArgs args)[0]? with
  | none =>
    rw [childAt_of_none hchild] at h
    cases h
    exact .childless c hc hp hchild
  | some child =>
    rw [childAt_of_some hchild] at h
    exact hf child hchild h

/-- Everything a call does is a step over the evaluator it is given. -/
theorem step_steps (plan : Expr Mode) (context : EvalContext Mode) (s : PlanEvaluator Mode World)
    (h : step env ev plan context s = (out, s')) : Steps env (Ran ev) plan context s out s' := by
  rw [step, Effect.bind_apply] at h
  cases hp : planParts plan with
  | error e =>
    rw [ofResult_error hp] at h
    cases h
    exact .refused
  | ok parts =>
    obtain ⟨name, args⟩ := parts
    rw [ofResult_ok hp] at h
    dsimp only at h
    split at h
    · rename_i hatom
      subst hatom
      split at h
      · exact .atom hp (evalAtom_run h)
      · cases h; exact .refused
    · cases hc : combinatorByName name with
      | none => rw [hc] at h; cases h; exact .refused
      | some c =>
        rw [hc] at h
        rw [name_of_combinatorByName hc] at hp h
        cases c with
        | race => exact .race hp (raceLoop_run h)
        | fallback => exact .fallback hp (fallbackLoop_run h)
        | chain => exact evalChain_steps hp h
        | verify => exact evalVerify_steps hp h
        | debate => exact evalDebate_steps hp h
        | remote =>
          exact single_steps (c := .remote) trivial hp (fun _ hchild => evalRemote_steps hp hchild) h
        | cache =>
          exact single_steps (c := .cache) trivial hp (fun _ hchild => evalCache_steps hp hchild) h
        | budget =>
          exact single_steps (c := .budget) trivial hp
            (fun _ hchild hr => .wrapped .budget hp rfl hchild (evalChild_run _ _ hr)) h
        | market =>
          exact single_steps (c := .market) trivial hp
            (fun _ hchild hr => .wrapped .market hp rfl hchild (evalChild_run _ _ hr)) h
        | «local» =>
          exact single_steps (c := .local) trivial hp
            (fun _ hchild hr => .wrapped .local hp rfl hchild (evalChild_run _ _ hr)) h
        | trace =>
          exact single_steps (c := .trace) trivial hp
            (fun _ hchild hr => .wrapped .trace hp rfl hchild (evalChild_run _ _ hr)) h

/-- A call with room for nested calls is a step over the calls it makes. -/
theorem eval_steps {depth : Nat} (h : eval env (depth + 1) plan context s = (out, s')) :
    Steps env (Ran (eval env depth)) plan context s out s' := step_steps plan context s h

end Eval

end SimAgentNet.OpenaiServer
