import SimAgentNet.OpenaiServer.PlanSteps

/-! # Limits of a plan evaluation

The check of a plan walks its children; the evaluator also follows the judge of a debate, which the
check does not look at. A checked plan is evaluated within its limits when the judges that it can
reach are within them too. -/

namespace SimAgentNet.OpenaiServer
variable {Mode World : Type} {plan : Expr Mode}

/-! ## Reached plans -/

/-- The plans that a call for `plan` can evaluate: its children, and the judge of a debate. -/
def Below (plan p : Expr Mode) : Prop :=
  ∃ (c : Combinator) (args : List (Expr Mode)), planParts plan = .ok (c.name, args) ∧
    (p ∈ childArgs args ∨ c = .debate ∧ p = Eval.judgePlan args)

/-- The plans that an evaluation can reach, with the number of nested calls it takes. -/
inductive Reaches (plan : Expr Mode) : Nat → Expr Mode → Prop
  | self : Reaches plan 1 plan
  | next (h : Reaches plan d p) (hb : Below p q) : Reaches plan (d + 1) q

/-- The number of children is in the range of the combinator, and an atom has one address. -/
def FitsArity (plan : Expr Mode) : Prop :=
  (∀ args, planParts plan = .ok ("atom", args) → args.length = 1) ∧
  ∀ (c : Combinator) args, planParts plan = .ok (c.name, args) →
    c.minChildren ≤ (childArgs args).length ∧ (childArgs args).length ≤ c.maxChildren

/-- The plan and the plans below it, its judges included, fit within `levels` levels. -/
def FitsLimits : (levels : Nat) → Expr Mode → Prop
  | 0, _ => False
  | levels + 1, plan => FitsArity plan ∧ ∀ p, Below plan p → FitsLimits levels p

/-- The judges that can be reached through the children fit within the levels left for them. -/
def JudgesFit : (levels : Nat) → Expr Mode → Prop
  | 0, _ => True
  | levels + 1, plan => ∀ (c : Combinator) args, planParts plan = .ok (c.name, args) →
      (∀ child ∈ childArgs args, JudgesFit levels child) ∧
      (c = .debate → FitsLimits levels (Eval.judgePlan args))

theorem Reaches.pos (h : Reaches plan d p) : 1 ≤ d := by
  cases h with
  | self => exact Nat.le_refl 1
  | next => exact Nat.succ_pos _

theorem Reaches.cons (hb : Below plan p) (h : Reaches p d q) : Reaches plan (d + 1) q := by
  induction h with
  | self => exact .next .self hb
  | next _ hb' ih => exact .next ih hb'

theorem Reaches.cases_below (h : Reaches plan d q) :
    d = 1 ∧ q = plan ∨ ∃ p, Below plan p ∧ ∃ d', d = d' + 1 ∧ Reaches p d' q := by
  induction h with
  | self => exact .inl ⟨rfl, rfl⟩
  | next _ hb ih =>
    rcases ih with ⟨rfl, rfl⟩ | ⟨p, hp, d', rfl, hr⟩
    · exact .inr ⟨_, hb, 1, rfl, .self⟩
    · exact .inr ⟨p, hp, d' + 1, rfl, .next hr hb⟩

/-- A plan fits when every plan it reaches has the right arity and is not too deep. -/
theorem fitsLimits_iff {levels : Nat} :
    FitsLimits levels plan ↔ ∀ d q, Reaches plan d q → FitsArity q ∧ d ≤ levels := by
  induction levels generalizing plan with
  | zero =>
    constructor
    · exact False.elim
    · intro h
      exact absurd (h 1 plan .self).2 (by decide)
  | succ levels ih =>
    constructor
    · rintro ⟨harity, hbelow⟩ d q hr
      rcases hr.cases_below with ⟨rfl, rfl⟩ | ⟨p, hp, d', rfl, hr'⟩
      · exact ⟨harity, Nat.succ_pos _⟩
      · obtain ⟨hq, hd⟩ := ih.mp (hbelow p hp) d' q hr'
        exact ⟨hq, Nat.succ_le_succ hd⟩
    · intro h
      refine ⟨(h 1 plan .self).1, fun p hp => ih.mpr fun d q hr => ?_⟩
      obtain ⟨hq, hd⟩ := h (d + 1) q (hr.cons hp)
      exact ⟨hq, Nat.le_of_succ_le_succ hd⟩

/-! ## What the check establishes -/

theorem checkAtom_eq_ok {args : List (Expr Mode)} (h : checkAtom args = .ok ()) :
    ∃ address, args = [.string address] := by
  unfold checkAtom at h
  split at h
  · exact ⟨_, rfl⟩
  · cases h
  · cases h

theorem checkChildren_eq_ok {limits : PlanLimits} {c : Combinator}
    (h : checkChildren limits c n = .ok ()) : c.minChildren ≤ n ∧ n ≤ c.maxChildren := by
  unfold checkChildren at h
  split at h
  · cases h
  · rename_i hrange
    exact ⟨Nat.le_of_not_lt fun hlt => hrange (.inl hlt),
      Nat.le_of_not_lt fun hlt => hrange (.inr hlt)⟩

theorem Combinator.minChildren_pos (c : Combinator) : 0 < c.minChildren := by cases c <;> decide

theorem name_ne_atom (c : Combinator) : c.name ≠ "atom" := by cases c <;> decide

theorem combinatorByName_name (c : Combinator) : combinatorByName c.name = some c := by
  cases c <;> decide

theorem name_injective {c c' : Combinator} (h : c.name = c'.name) : c = c' := by
  have := combinatorByName_name c
  rw [h, combinatorByName_name] at this
  exact (Option.some.inj this).symm

/-- A plan that is accepted has the right arity, and its children are accepted one level below. -/
theorem checkPlanAt_eq_ok {limits : PlanLimits} {levels : Nat}
    (h : checkPlanAt limits (levels + 1) plan = .ok ()) :
    FitsArity plan ∧ ∀ (c : Combinator) args, planParts plan = .ok (c.name, args) →
      ∀ child ∈ childArgs args, checkPlanAt limits levels child = .ok () := by
  rw [checkPlanAt, Except.bind_eq_ok_iff] at h
  obtain ⟨⟨name, args⟩, hp, h⟩ := h
  dsimp only at h
  split at h
  · rename_i hatom
    subst hatom
    obtain ⟨address, rfl⟩ := checkAtom_eq_ok h
    refine ⟨⟨?_, ?_⟩, ?_⟩
    · intro args' hp'
      rw [hp] at hp'
      cases hp'
      rfl
    · intro c args' hp'
      rw [hp] at hp'
      exact absurd (Prod.mk.inj (Except.ok.inj hp')).1.symm (name_ne_atom c)
    · intro c args' hp'
      rw [hp] at hp'
      exact absurd (Prod.mk.inj (Except.ok.inj hp')).1.symm (name_ne_atom c)
  · rename_i hatom
    split at h
    · cases h
    · rename_i combinator hc
      cases name_of_combinatorByName hc
      obtain ⟨⟨⟩, hchildren, h⟩ := Except.bind_eq_ok_iff.mp h
      have hall := Except.forM_eq_ok_iff.mp h
      refine ⟨⟨?_, ?_⟩, ?_⟩
      · intro args' hp'
        rw [hp] at hp'
        exact absurd (Prod.mk.inj (Except.ok.inj hp')).1 (name_ne_atom combinator)
      · intro c args' hp'
        rw [hp] at hp'
        obtain ⟨hname, rfl⟩ := Prod.mk.inj (Except.ok.inj hp')
        cases name_injective hname
        exact checkChildren_eq_ok hchildren
      · intro c args' hp' child hmem
        rw [hp] at hp'
        obtain ⟨-, rfl⟩ := Prod.mk.inj (Except.ok.inj hp')
        obtain ⟨hmem, hkeyword⟩ := List.mem_filter.mp hmem
        have hchild := hall child hmem
        rwa [Option.isNone_iff_eq_none.mp hkeyword] at hchild

/-- A checked plan fits exactly when the judges it reaches do. -/
theorem fitsLimits_iff_judgesFit {limits : PlanLimits} {levels : Nat}
    (h : checkPlanAt limits levels plan = .ok ()) : FitsLimits levels plan ↔ JudgesFit levels plan := by
  induction levels generalizing plan with
  | zero => cases h
  | succ levels ih =>
    obtain ⟨harity, hchildren⟩ := checkPlanAt_eq_ok h
    constructor
    · rintro ⟨-, hbelow⟩ c args hp
      refine ⟨fun child hmem => ?_, ?_⟩
      · exact (ih (hchildren c args hp child hmem)).mp (hbelow child ⟨c, args, hp, .inl hmem⟩)
      · rintro rfl
        exact hbelow _ ⟨.debate, args, hp, .inr ⟨rfl, rfl⟩⟩
    · intro hj
      refine ⟨harity, ?_⟩
      rintro p ⟨c, args, hp, hmem | ⟨rfl, rfl⟩⟩
      · exact (ih (hchildren c args hp p hmem)).mpr ((hj c args hp).1 p hmem)
      · exact (hj .debate args hp).2 rfl

/-! ## How evaluations stop -/

/-- The outcome is not a stop of the kind `B`. -/
def Avoids (B : Stop → Prop) (out : Except Stop α) : Prop := ∀ stop, out = .error stop → ¬B stop

section Stops
variable {B : Stop → Prop} {env : PlanEnv Mode World} {E : Evaluates Mode World}
  {context : EvalContext Mode} {s s' : PlanEvaluator Mode World}

theorem avoids_ok (a : α) : Avoids B (.ok a) := nofun

theorem avoids_failure (hB : ∀ e, ¬B (.failure e)) (e : KernelError) :
    Avoids B (.error (.failure e) : Except Stop α) := by
  rintro stop h
  cases h
  exact hB e

/-- Every evaluation of `p` avoids `B`. -/
def Clear (B : Stop → Prop) (E : Evaluates Mode World) (p : Expr Mode) : Prop :=
  ∀ context s out s', E p context s out s' → Avoids B out

theorem ChildRun.avoids (hE : Clear B E child)
    (h : ChildRun env E combinator child context s out s') : Avoids B out := by
  cases h with
  | completed h => exact hE _ _ _ _ h
  | failed h => exact hE _ _ _ _ h
  | stopped h _ => exact hE _ _ _ _ h

theorem RaceRun.avoids (hB : ∀ e, ¬B (.failure e)) (hE : ∀ child ∈ children, Clear B E child)
    (h : RaceRun env E many context children first firstError s out s') : Avoids B out := by
  induction h with
  | won => exact avoids_ok _
  | lost => exact avoids_failure hB _
  | skip _ _ ih => exact ih fun c hc => hE c (List.mem_cons_of_mem _ hc)
  | winner _ _ ih => exact ih fun c hc => hE c (List.mem_cons_of_mem _ hc)
  | later _ _ ih => exact ih fun c hc => hE c (List.mem_cons_of_mem _ hc)
  | failed _ _ ih => exact ih fun c hc => hE c (List.mem_cons_of_mem _ hc)
  | stopped h _ => exact hE _ List.mem_cons_self _ _ _ _ h

theorem FallbackRun.avoids (hB : ∀ e, ¬B (.failure e)) (hE : ∀ child ∈ children, Clear B E child)
    (h : FallbackRun env E context children firstError s out s') : Avoids B out := by
  induction h with
  | none => exact avoids_failure hB _
  | accepted h => exact avoids_ok _
  | failed _ _ ih => exact ih fun c hc => hE c (List.mem_cons_of_mem _ hc)
  | stopped h _ => exact hE _ List.mem_cons_self _ _ _ _ h

theorem ChainRun.avoids (hE : ∀ child ∈ children, Clear B E child)
    (h : ChainRun env E context children last s out s') : Avoids B out := by
  induction h with
  | done => exact avoids_ok _
  | next _ _ ih => exact ih fun c hc => hE c (List.mem_cons_of_mem _ hc)
  | stopped h =>
    have hchild := h.avoids (hE _ List.mem_cons_self)
    intro stop hstop
    cases hstop
    exact hchild _ rfl

theorem SidesRun.avoids (hE : ∀ child ∈ children, Clear B E child)
    (h : SidesRun env E context children transcripts s out s') : Avoids B out := by
  induction h with
  | done => exact avoids_ok _
  | next _ _ ih => exact ih fun c hc => hE c (List.mem_cons_of_mem _ hc)
  | stopped h =>
    have hchild := h.avoids (hE _ List.mem_cons_self)
    intro stop hstop
    cases hstop
    exact hchild _ rfl

theorem avoids_settled (hB : ∀ e, ¬B (.failure e)) {out : Outcome Mode} (h : Settled out) :
    Avoids B out := by
  rcases h with ⟨response, rfl⟩ | ⟨e, rfl⟩
  · exact avoids_ok response
  · exact avoids_failure hB e

theorem AtomRun.avoids (hB : ∀ e, ¬B (.failure e)) (h : AtomRun env address context s out s') :
    Avoids B out := by
  cases h with
  | answered hout => exact avoids_settled hB hout
  | gateway _ _ hout => exact avoids_settled hB hout
  | runner _ _ hout => exact avoids_settled hB hout

/-- A call stops with `B` only if a plan below it does, or if `B` is the panic and a child that the
code indexes is missing. -/
theorem Steps.avoids (hB : ∀ e, ¬B (.failure e)) (hfits : B .panicked → FitsArity plan)
    (hE : ∀ p, Below plan p → Clear B E p) (h : Steps env E plan context s out s') :
    Avoids B out := by
  have hpanic {c : Combinator} {args : List (Expr Mode)} {i : Nat} {α : Type}
      (hp : planParts plan = .ok (c.name, args)) (hmin : i < c.minChildren)
      (hnone : (childArgs args)[i]? = none) : Avoids B (.error .panicked : Except Stop α) := by
    intro stop hstop hb
    cases hstop
    have harity := ((hfits hb).2 c args hp).1
    have hlength := List.getElem?_eq_none_iff.mp hnone
    omega
  cases h with
  | refused => exact avoids_failure hB _
  | atom _ h => exact h.avoids hB
  | race hp h => exact h.avoids hB fun c hc => hE c ⟨_, _, hp, .inl hc⟩
  | fallback hp h => exact h.avoids hB fun c hc => hE c ⟨_, _, hp, .inl hc⟩
  | chain _ _ => exact avoids_ok _
  | emptyChain _ _ => exact avoids_failure hB _
  | brokenChain hp h =>
    have hchain := h.avoids fun c hc => hE c ⟨_, _, hp, .inl hc⟩
    intro stop hstop
    cases hstop
    exact hchain _ rfl
  | wrapped c hp _ hchild h => exact h.avoids (hE _ ⟨c, _, hp, .inl (List.mem_of_getElem? hchild)⟩)
  | remote hp hchild _ _ h => exact h.avoids (hE _ ⟨_, _, hp, .inl (List.mem_of_getElem? hchild)⟩)
  | childless c _ hp hnone => exact hpanic hp c.minChildren_pos hnone
  | uncached hp hchild h => exact h.avoids (hE _ ⟨_, _, hp, .inl (List.mem_of_getElem? hchild)⟩)
  | hit _ _ _ _ hout =>
    subst hout
    exact avoids_settled hB (Eval.settled_ofResult _)
  | cached _ _ _ _ => exact avoids_ok _
  | unverified hp hnone => exact hpanic hp (by decide) hnone
  | ungenerated hp hchild h =>
    exact h.avoids (hE _ ⟨_, _, hp, .inl (List.mem_of_getElem? hchild)⟩)
  | checkerless hp _ _ hnone => exact hpanic hp (by decide) hnone
  | unchecked hp _ _ hchild h => exact h.avoids (hE _ ⟨_, _, hp, .inl (List.mem_of_getElem? hchild)⟩)
  | checked _ _ _ _ _ hout =>
    rcases hout with rfl | ⟨e, rfl⟩
    · exact avoids_ok _
    · exact avoids_failure hB e
  | undebated hp h =>
    have hsides := h.avoids fun c hc => hE c ⟨_, _, hp, .inl hc⟩
    intro stop hstop
    cases hstop
    exact hsides _ rfl
  | judged hp _ h => exact h.avoids (hE _ ⟨_, _, hp, .inr ⟨rfl, rfl⟩⟩)

end Stops

/-- Within its limits, a plan is evaluated without a panic and without running out of levels. -/
theorem FitsLimits.avoids (env : PlanEnv Mode World) {levels : Nat} (h : FitsLimits levels plan) :
    Clear Stop.Abrupt (Eval.Ran (Eval.eval env levels)) plan := by
  induction levels generalizing plan with
  | zero => cases h
  | succ levels ih =>
    intro context s out s' hr
    exact Steps.avoids (fun _ => id) (fun _ => h.1) (fun p hp => ih (h.2 p hp)) (Eval.eval_steps hr)

theorem planParts_defaultJudge :
    planParts (Eval.defaultJudge : Expr Mode) = .ok ("atom", [.string "fixture/judge"]) := rfl

theorem not_below_defaultJudge : ¬Below (Eval.defaultJudge : Expr Mode) p := by
  rintro ⟨c, args, hp, -⟩
  rw [planParts_defaultJudge] at hp
  exact name_ne_atom c (Prod.mk.inj (Except.ok.inj hp)).1.symm

/-- A judge that is written in the plan is nested in it. -/
theorem Below.nesting_lt (h : Below plan p) : nesting p < nesting plan ∨ p = Eval.defaultJudge := by
  obtain ⟨c, args, hp, hmem | ⟨-, rfl⟩⟩ := h
  · exact .inl (nesting_child_lt hp hmem)
  · rw [Eval.judgePlan]
    cases hv : keywordValue args "judge" with
    | none => exact .inr rfl
    | some judge => exact .inl (nesting_keywordValue_lt hp hv)

theorem Below.nesting_pos (h : Below plan p) : 0 < nesting plan := by
  obtain ⟨c, args, hp, -⟩ := h
  exact Nat.zero_lt_of_lt (nestings_lt_of_planParts hp)

/-- With more room than the plan is nested, an evaluation never runs out of it. -/
theorem eval_ne_exhausted (env : PlanEnv Mode World) {depth : Nat} (h : nesting plan < depth) :
    Clear (· = .exhausted) (Eval.Ran (Eval.eval env depth)) plan := by
  induction depth generalizing plan with
  | zero => cases h
  | succ depth ih =>
    intro context s out s' hr
    refine Steps.avoids nofun nofun (fun p hp => ?_) (Eval.eval_steps hr)
    rcases hp.nesting_lt with hlt | rfl
    · exact ih (by omega)
    · -- the default judge is an atom: it needs one call
      obtain ⟨depth, rfl⟩ : ∃ d, depth = d + 1 := ⟨depth - 1, by have := hp.nesting_pos; omega⟩
      intro context s out s' hr
      exact Steps.avoids nofun nofun (fun q hq => absurd hq not_below_defaultJudge)
        (Eval.eval_steps hr)

/-! ## Checked plans -/

/-- The plans that the evaluation of a checked plan reaches have the arity of their combinator and
are within the maximal depth exactly when the judges among them are; then no evaluation of the plan
panics or nests deeper than that. -/
theorem checkPlan_limits_iff (h : checkPlan plan = .ok ()) :
    ((∀ d p, Reaches plan d p → FitsArity p ∧ d ≤ PlanLimits.default.maxDepth) ↔
      JudgesFit PlanLimits.default.maxDepth plan) ∧
    (JudgesFit PlanLimits.default.maxDepth plan →
      ∀ (World : Type) (env : PlanEnv Mode World) (context : EvalContext Mode)
        (s : PlanEvaluator Mode World),
        (Eval.eval env PlanLimits.default.maxDepth plan context s).1 ≠ .error .panicked ∧
        (Eval.eval env PlanLimits.default.maxDepth plan context s).1 ≠ .error .exhausted) := by
  have hiff : FitsLimits PlanLimits.default.maxDepth plan ↔
      JudgesFit PlanLimits.default.maxDepth plan := fitsLimits_iff_judgesFit h
  refine ⟨fitsLimits_iff.symm.trans hiff, fun hj World env context s => ?_⟩
  have havoids := (hiff.mpr hj).avoids env context s _ _ rfl
  exact ⟨fun hp => havoids _ hp trivial, fun he => havoids _ he trivial⟩

namespace PlanSample

def atom (address : String) : Expr Unit := .list [.symbol (.new "plan/atom"), .string address]

def combine (name : String) (args : List (Expr Unit)) : Expr Unit :=
  .list (.symbol (.new ("plan/" ++ name)) :: args)

def keyword (name : String) (value : Expr Unit) : Expr Unit :=
  .map [(.symbol (.new "keyword"), .symbol (.new name)), (.symbol (.new "value"), value)]

/-- A debate of two fixtures whose judge has no child. -/
def childlessJudge : Expr Unit :=
  combine "debate" [atom "fixture/a", atom "fixture/b", keyword "judge" (combine "local" [])]

/-- A host that gives every expression one content id and reads no fields. -/
def host : Host Unit where
  encodeFrame _ := .ok []
  contentId _ := .ok (.ofByte (.qualified "core" "sha256") 0)
  hexEncode _ := "00"
  sha256 _ := List.replicate 32 0
  serde := ⟨fun _ => .error "", fun _ => [], fun _ => ""⟩
  utf8Error _ := ""
  exprField _ _ := none
  clock _ := .ok 0
  embeddingForText _ := []
  searchVectorStore _ _ _ := []

/-- Text parts are the texts themselves. -/
def api : PlanApi Unit where
  textPart text := .string text
  requestFromExpr expr := .ok (.new expr [])
  responseFromExpr expr := .ok (.new (.new "runner") "model" [expr] (.new "stop"))
  responseToExpr response := .list response.content
  isJsonObject _ := false
  textObject text := text
  errorText
    | .eval message | .other message => message
    | .capabilityDenied capability => capability

/-- All capabilities of plans, no runners and no federation. -/
def env : PlanEnv Unit Unit :=
  ⟨host, api, .ofList [planCapability, planRemoteCapability, federateCapability], none, none⟩

def context : EvalContext Unit := ⟨.allowRemote, none, [], false⟩

def evaluator : PlanEvaluator Unit Unit := .new () none (.new (.string "hello") [])

end PlanSample

/-- The check accepts the debate, and its evaluation panics at the judge. -/
theorem childless_judge_panics :
    checkPlan PlanSample.childlessJudge = .ok () ∧
    (Eval.eval PlanSample.env PlanLimits.default.maxDepth PlanSample.childlessJudge
      PlanSample.context PlanSample.evaluator).1 = .error .panicked ∧
    ¬∀ d p, Reaches PlanSample.childlessJudge d p →
      FitsArity p ∧ d ≤ PlanLimits.default.maxDepth := by
  refine ⟨by decide +kernel, by decide +kernel, fun h => ?_⟩
  have hbelow : Below PlanSample.childlessJudge (PlanSample.combine "local" []) :=
    ⟨.debate, _, rfl, .inr ⟨rfl, rfl⟩⟩
  have harity := (h 2 _ (.next .self hbelow)).1.2 .local [] rfl
  exact absurd harity.1 (by decide)

theorem checkPlan_limits_childless_judge :
    checkPlan PlanSample.childlessJudge = .ok () ∧
    ((∀ d p, Reaches PlanSample.childlessJudge d p →
        FitsArity p ∧ d ≤ PlanLimits.default.maxDepth) ↔
      JudgesFit PlanLimits.default.maxDepth PlanSample.childlessJudge) := by
  have hcheck : checkPlan PlanSample.childlessJudge = .ok () := by decide +kernel
  exact ⟨hcheck, (checkPlan_limits_iff hcheck).1⟩

end SimAgentNet.OpenaiServer
