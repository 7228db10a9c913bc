import SimAgentNet.OpenaiServer.PlanDepth

/-! # The request of a plan evaluation

A chain and a debate evaluate some of their plans on another request than their own. A debate puts
the request back however its judge ends; a chain only does when all its children have responded. So
evaluations leave the current request as it was exactly when no chain fails midway. -/

namespace SimAgentNet.OpenaiServer
variable {Mode World : Type} {plan : Expr Mode} {env : PlanEnv Mode World}
  {E : Evaluates Mode World} {context : EvalContext Mode} {s s' : PlanEvaluator Mode World}

/-- Evaluations of `p` that respond or fail leave the request as it was. -/
def Keeps (E : Evaluates Mode World) (p : Expr Mode) : Prop :=
  ∀ context s out s', E p context s out s' → Settled out → s'.request = s.request

/-- The chain gives some of its first children the request of the last response, one that differs
from its own, and the next child fails. -/
def FailsMidway (env : PlanEnv Mode World) (E : Evaluates Mode World) (children : List (Expr Mode))
    (context : EvalContext Mode) (s : PlanEvaluator Mode World) : Prop :=
  ∃ before child after response s₁ e s₂, children = before ++ child :: after ∧
    ChainRun env E context before none s (.ok (some response)) s₁ ∧ s₁.request ≠ s.request ∧
    ChildRun env E "chain" child context s₁ (.error (.failure e)) s₂

/-! ## Runs that keep the request -/

/-- Starting and ending a branch does not touch the request. -/
theorem Keeps.branch (hE : Keeps E child) {branch : Nat} {status : String} {result : Expr Mode}
    (h : E child context (s.start combinator child) out s₁) (hout : Settled out) :
    (s₁.finish branch status result).request = s.request :=
  hE context (s.start combinator child) out s₁ h hout

theorem not_settled_of_abrupt (h : stop.Abrupt) : ¬Settled (.error stop : Outcome Mode) := by
  rintro (⟨response, hr⟩ | ⟨e, he⟩)
  · cases hr
  · cases he
    exact h

theorem settled_ok (response : ModelResponse Mode) : Settled (.ok response : Outcome Mode) :=
  .inl ⟨response, rfl⟩

theorem settled_failure (e : KernelError) : Settled (.error (.failure e) : Outcome Mode) :=
  .inr ⟨e, rfl⟩

theorem ChildRun.request_eq (hE : Keeps E child)
    (h : ChildRun env E combinator child context s out s') (hout : Settled out) :
    s'.request = s.request := by
  cases h with
  | completed h => exact hE.branch h hout
  | failed h => exact hE.branch h hout
  | stopped _ hstop => exact absurd hout (not_settled_of_abrupt hstop)

theorem RaceRun.request_eq (hE : ∀ child ∈ children, Keeps E child)
    (h : RaceRun env E many context children first firstError s out s') (hout : Settled out) :
    s'.request = s.request := by
  induction h with
  | won => rfl
  | lost => rfl
  | skip _ _ ih => exact ih (fun c hc => hE c (List.mem_cons_of_mem _ hc)) hout
  | winner h _ ih =>
    rw [ih (fun c hc => hE c (List.mem_cons_of_mem _ hc)) hout]
    exact (hE _ List.mem_cons_self).branch h (settled_ok _)
  | later h _ ih =>
    rw [ih (fun c hc => hE c (List.mem_cons_of_mem _ hc)) hout]
    exact (hE _ List.mem_cons_self).branch h (settled_ok _)
  | failed h _ ih =>
    rw [ih (fun c hc => hE c (List.mem_cons_of_mem _ hc)) hout]
    exact (hE _ List.mem_cons_self).branch h (settled_failure _)
  | stopped _ hstop => exact absurd hout (not_settled_of_abrupt hstop)

theorem FallbackRun.request_eq (hE : ∀ child ∈ children, Keeps E child)
    (h : FallbackRun env E context children firstError s out s') (hout : Settled out) :
    s'.request = s.request := by
  induction h with
  | none => rfl
  | accepted h => exact (hE _ List.mem_cons_self).branch h (settled_ok _)
  | failed h _ ih =>
    rw [ih (fun c hc => hE c (List.mem_cons_of_mem _ hc)) hout]
    exact (hE _ List.mem_cons_self).branch h (settled_failure _)
  | stopped _ hstop => exact absurd hout (not_settled_of_abrupt hstop)

theorem SidesRun.request_eq (hE : ∀ child ∈ children, Keeps E child)
    (h : SidesRun env E context children transcripts s out s')
    (hout : (∃ texts, out = .ok texts) ∨ ∃ e, out = .error (.failure e)) :
    s'.request = s.request := by
  induction h with
  | done => rfl
  | next h _ ih =>
    rw [ih (fun c hc => hE c (List.mem_cons_of_mem _ hc)) hout]
    exact h.request_eq (hE _ List.mem_cons_self) (settled_ok _)
  | stopped h =>
    rcases hout with ⟨texts, ht⟩ | ⟨e, he⟩
    · cases ht
    · cases he
      exact h.request_eq (hE _ List.mem_cons_self) (settled_failure _)

/-! ## Chains -/

theorem ChainRun.append (h : ChainRun env E context before last s (.ok last') s₁)
    (h' : ChainRun env E context after last' s₁ out s') :
    ChainRun env E context (before ++ after) last s out s' := by
  generalize hmid : (.ok last' : Except Stop (Option (ModelResponse Mode))) = mid at h
  induction h with
  | done => cases hmid; exact h'
  | next hchild _ ih => exact .next hchild (ih h' hmid)
  | stopped => cases hmid

/-- A chain that fails does so at one of its children, after the ones before it have responded. -/
theorem ChainRun.exists_failed
    (h : ChainRun env E context children last s (.error (.failure e)) s') :
    ∃ before child after last' s₁, children = before ++ child :: after ∧
      ChainRun env E context before last s (.ok last') s₁ ∧ (before = [] ∨ ∃ r, last' = some r) ∧
      ChildRun env E "chain" child context s₁ (.error (.failure e)) s' := by
  generalize hout : (.error (.failure e) : Except Stop (Option (ModelResponse Mode))) = out at h
  induction h with
  | done => cases hout
  | @next child s response s₁ children out s' last hchild _ ih =>
    obtain ⟨before, failing, after, last', s₂, rfl, hbefore, hlast, hfails⟩ := ih hout
    refine ⟨child :: before, failing, after, last', s₂, rfl, .next hchild hbefore, .inr ?_, hfails⟩
    rcases hlast with rfl | hlast
    · cases hbefore
      exact ⟨response, rfl⟩
    · exact hlast
  | @stopped child s stop s₁ children last hchild =>
    cases hout
    exact ⟨[], child, children, last, s, rfl, .done, .inl rfl, hchild⟩

theorem ChainRun.request_eq_of_failed (hE : ∀ child ∈ children, Keeps E child)
    (hmid : ¬FailsMidway env E children context s)
    (h : ChainRun env E context children none s (.error (.failure e)) s') :
    s'.request = s.request := by
  obtain ⟨before, child, after, last, s₁, rfl, hbefore, hlast, hfails⟩ := h.exists_failed
  have hchild := hfails.request_eq (hE child (by simp)) (settled_failure e)
  rw [hchild]
  rcases hlast with rfl | ⟨response, rfl⟩
  · cases hbefore
    rfl
  · by_contra hne
    exact hmid ⟨before, child, after, response, s₁, e, s', rfl, hbefore, hne, hfails⟩

namespace Eval
variable {ev : Expr Mode → EvalContext Mode → Eval Mode World (ModelResponse Mode)}

theorem evalChild_of_run (h : ChildRun env (Ran ev) combinator child context s out s') :
    evalChild env ev combinator child context s = (out, s') := by
  simp only [evalChild, Effect.bind_apply, branchStart]
  cases h with
  | completed h => rw [attempt_ok h]; rfl
  | failed h => rw [attempt_failure h]; rfl
  | stopped h hstop => rw [attempt_abrupt h hstop]

theorem chainLoop_of_run (h : ChainRun env (Ran ev) context children last s out s') :
    chainLoop env ev context children last s = (out, s') := by
  induction h with
  | done => rfl
  | next hchild _ ih =>
    rw [chainLoop, Effect.bind_apply, evalChild_of_run hchild]
    exact ih
  | stopped hchild => rw [chainLoop, Effect.bind_apply, evalChild_of_run hchild]

/-- A chain with a failing child fails, in the state that the child leaves. -/
theorem eval_brokenChain (hp : planParts plan = .ok (Combinator.chain.name, args))
    (h : ChainRun env (Ran (eval env depth)) context (childArgs args) none s (.error stop) s') :
    eval env (depth + 1) plan context s = (.error stop, s') := by
  rw [eval, step, Effect.bind_apply, ofResult_ok hp]
  dsimp only
  rw [if_neg (name_ne_atom .chain), combinatorByName_name]
  simp only [evalChain, Effect.bind_apply, Effect.observe_apply, chainLoop_of_run h]

end Eval

/-! ## Scoped evaluation -/

theorem AtomRun.request_eq (h : AtomRun env address context s out s') : s'.request = s.request := by
  cases h <;> rfl

/-- A call keeps the request if the calls for the plans below do and it is not a chain that fails
midway. -/
theorem Steps.request_eq (hE : ∀ p, Below plan p → Keeps E p)
    (hmid : ∀ args, planParts plan = .ok (Combinator.chain.name, args) →
      ¬FailsMidway env E (childArgs args) context s)
    (h : Steps env E plan context s out s') (hout : Settled out) : s'.request = s.request := by
  cases h with
  | refused => rfl
  | atom _ h => exact h.request_eq
  | race hp h => exact h.request_eq (fun c hc => hE c ⟨_, _, hp, .inl hc⟩) hout
  | fallback hp h => exact h.request_eq (fun c hc => hE c ⟨_, _, hp, .inl hc⟩) hout
  | chain _ _ => rfl
  | emptyChain _ _ => rfl
  | brokenChain hp h =>
    rcases hout with ⟨r, hr⟩ | ⟨e, he⟩
    · cases hr
    · cases he
      exact h.request_eq_of_failed (fun c hc => hE c ⟨_, _, hp, .inl hc⟩) (hmid _ hp)
  | wrapped c hp _ hchild h =>
    exact h.request_eq (hE _ ⟨c, _, hp, .inl (List.mem_of_getElem? hchild)⟩) hout
  | remote hp hchild _ _ h =>
    have hkeeps := h.request_eq (hE _ ⟨_, _, hp, .inl (List.mem_of_getElem? hchild)⟩) hout
    exact hkeeps
  | childless => rfl
  | uncached hp hchild h =>
    exact h.request_eq (hE _ ⟨_, _, hp, .inl (List.mem_of_getElem? hchild)⟩) hout
  | hit => rfl
  | cached hp hchild _ h =>
    have hkeeps := h.request_eq (hE _ ⟨_, _, hp, .inl (List.mem_of_getElem? hchild)⟩) (settled_ok _)
    exact hkeeps
  | unverified => rfl
  | ungenerated hp hchild h =>
    exact h.request_eq (hE _ ⟨_, _, hp, .inl (List.mem_of_getElem? hchild)⟩) hout
  | checkerless => exact absurd hout (not_settled_of_abrupt trivial)
  | unchecked hp hchild h hchild' h' =>
    rw [h'.request_eq (hE _ ⟨_, _, hp, .inl (List.mem_of_getElem? hchild')⟩) hout]
    exact h.request_eq (hE _ ⟨_, _, hp, .inl (List.mem_of_getElem? hchild)⟩) (settled_ok _)
  | checked hp hchild h hchild' h' _ =>
    rw [h'.request_eq (hE _ ⟨_, _, hp, .inl (List.mem_of_getElem? hchild')⟩) (settled_ok _)]
    exact h.request_eq (hE _ ⟨_, _, hp, .inl (List.mem_of_getElem? hchild)⟩) (settled_ok _)
  | undebated hp h =>
    rcases hout with ⟨r, hr⟩ | ⟨e, he⟩
    · cases hr
    · cases he
      exact h.request_eq (fun c hc => hE c ⟨_, _, hp, .inl hc⟩) (.inr ⟨e, rfl⟩)
  | judged hp h _ =>
    have hkeeps := h.request_eq (fun c hc => hE c ⟨_, _, hp, .inl hc⟩) (.inl ⟨_, rfl⟩)
    exact hkeeps

/-- The alternatives of a race or of a fallback are evaluated on one request: whatever the ones
before did, the state they leave has the request of the whole. -/
def AlternativesShare (env : PlanEnv Mode World) (depth : Nat) (p : Expr Mode) : Prop :=
  ∀ args before alternative after, childArgs args = before ++ alternative :: after →
    (planParts p = .ok (Combinator.race.name, args) → ∀ context s out s',
      Eval.raceLoop env (Eval.eval env depth) (1 < (childArgs args).length) context before none none
        s = (out, s') → Settled out → s'.request = s.request) ∧
    (planParts p = .ok (Combinator.fallback.name, args) → ∀ context s e s',
      Eval.fallbackLoop env (Eval.eval env depth) context before none s =
        (.error (.failure e), s') → s'.request = s.request)

theorem alternativesShare_of_keeps
    (h : ∀ q, Below plan q → Keeps (Eval.Ran (Eval.eval env depth)) q) :
    AlternativesShare env depth plan := by
  intro args before alternative after hsplit
  have hmem : ∀ c ∈ before, c ∈ childArgs args := fun c hc =>
    hsplit ▸ List.mem_append_left _ hc
  refine ⟨fun hp context s out s' hr hout => ?_, fun hp context s e s' hr => ?_⟩
  · exact (Eval.raceLoop_run hr).request_eq (fun c hc => h c ⟨_, _, hp, .inl (hmem c hc)⟩) hout
  · exact (Eval.fallbackLoop_run hr).request_eq (fun c hc => h c ⟨_, _, hp, .inl (hmem c hc)⟩)
      (settled_failure e)

/-- No chain that the plan reaches fails midway, in any state. -/
def NoChainFailsMidway (env : PlanEnv Mode World) (plan : Expr Mode) : Prop :=
  ∀ d p args, Reaches plan d p → planParts p = .ok (Combinator.chain.name, args) →
    ∀ depth context s, ¬FailsMidway env (Eval.Ran (Eval.eval env depth)) (childArgs args) context s

theorem NoChainFailsMidway.keeps (h : NoChainFailsMidway env plan) (depth : Nat)
    (hr : Reaches plan d p) : Keeps (Eval.Ran (Eval.eval env depth)) p := by
  induction depth generalizing d p with
  | zero =>
    intro context s out s' he hout
    cases he
    exact absurd hout (not_settled_of_abrupt trivial)
  | succ depth ih =>
    intro context s out s' he hout
    exact (Eval.eval_steps he).request_eq (fun q hq => ih (.next hr hq))
      (fun args hp => h d p args hr hp depth context s) hout

/-- Every evaluation that a plan leads to leaves the current request as it was, so that all
alternatives see the same request, exactly when none of its chains fails midway. -/
theorem scoped_iff_noChainFailsMidway (env : PlanEnv Mode World) (plan : Expr Mode) :
    (∀ d p, Reaches plan d p → ∀ depth,
      Keeps (Eval.Ran (Eval.eval env depth)) p ∧ AlternativesShare env depth p) ↔
      NoChainFailsMidway env plan := by
  constructor
  · rintro h d p args hr hp depth context s
      ⟨before, child, after, response, s₁, e, s₂, hsplit, hbefore, hne, hfails⟩
    have hmem : child ∈ childArgs args := by rw [hsplit]; simp
    have hbroken : ChainRun env (Eval.Ran (Eval.eval env depth)) context (childArgs args) none s
        (.error (.failure e)) s₂ := by
      rw [hsplit]
      exact hbefore.append (.stopped hfails)
    -- both the chain and its failing child keep the request they started with
    have hchain := (h d p hr (depth + 1)).1 context s _ s₂ (Eval.eval_brokenChain hp hbroken)
      (settled_failure e)
    have hchild := hfails.request_eq (h (d + 1) child (.next hr ⟨_, _, hp, .inl hmem⟩) depth).1
      (settled_failure e)
    exact hne (hchild.symm.trans hchain)
  · intro h d p hr depth
    exact ⟨h.keeps depth hr, alternativesShare_of_keeps fun q hq => h.keeps depth (.next hr hq)⟩

namespace PlanSample

/-- The first alternative is a chain that fails at its second child. -/
def leakingFallback : Expr Unit :=
  combine "fallback" [combine "chain" [atom "fixture/a", atom "fixture/fail"], atom "fixture/echo"]

def leaked : Outcome Unit × PlanEvaluator Unit Unit :=
  Eval.eval PlanSample.env 3 leakingFallback PlanSample.context evaluator

end PlanSample

/-- The second alternative of a checked fallback echoes what the first one left, and the request is
not put back. -/
theorem fallback_sees_failed_chain :
    checkPlan PlanSample.leakingFallback = .ok () ∧
    PlanSample.evaluator.request = .new (.string "hello") [] ∧
    PlanSample.leaked.1.map responseText = .ok "fixture a transcript" ∧
    PlanSample.leaked.2.request = .new (.string "fixture a transcript") [] ∧
    ¬∀ d p, Reaches PlanSample.leakingFallback d p → ∀ depth,
      Keeps (Eval.Ran (Eval.eval PlanSample.env depth)) p ∧
        AlternativesShare PlanSample.env depth p := by
  have hrequest : PlanSample.leaked.2.request = .new (.string "fixture a transcript") [] := by
    decide +kernel
  have htext : PlanSample.leaked.1.map responseText = .ok "fixture a transcript" := by
    decide +kernel
  refine ⟨by decide +kernel, rfl, htext, hrequest, fun h => ?_⟩
  have hsettled : Settled PlanSample.leaked.1 := by
    cases hout : PlanSample.leaked.1 with
    | ok response => exact settled_ok response
    | error stop =>
      rw [hout] at htext
      cases htext
  have hkeeps := (h 1 _ .self 3).1 PlanSample.context PlanSample.evaluator PlanSample.leaked.1
    PlanSample.leaked.2 rfl hsettled
  rw [hrequest] at hkeeps
  exact absurd hkeeps (by decide)

end SimAgentNet.OpenaiServer
