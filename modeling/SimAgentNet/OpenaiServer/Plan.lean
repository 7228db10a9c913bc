import SimAgentNet.OpenaiServer.Responses

/-! # Plans

The shape of plan expressions: a list with a `plan/*` head, whose keyword arguments are maps and
whose other arguments are child plans. The check of a plan walks its children and only looks at the
names of its keywords. -/

namespace SimAgentNet.OpenaiServer
variable {Mode : Type}

/-- An error of the kernel. -/
inductive KernelError where
  | eval (message : String)
  | capabilityDenied (capability : String)
  | other (message : String)
deriving DecidableEq

abbrev PlanResult := Except KernelError

/-! ## Combinators -/

inductive Combinator where
  | race
  | market
  | verify
  | debate
  | chain
  | fallback
  | cache
  | budget
  | «local»
  | remote
  | trace
deriving DecidableEq

namespace Combinator

def all : List Combinator :=
  [race, market, verify, debate, chain, fallback, cache, budget, .local, remote, trace]

def name : Combinator → String
  | race => "race"
  | market => "market"
  | verify => "verify"
  | debate => "debate"
  | chain => "chain"
  | fallback => "fallback"
  | cache => "cache"
  | budget => "budget"
  | .local => "local"
  | remote => "remote"
  | trace => "trace"

def minChildren : Combinator → Nat
  | verify | debate => 2
  | _ => 1

def maxChildren : Combinator → Nat
  | race | debate | chain | fallback => 4
  | verify => 2
  | _ => 1

def keywords : Combinator → List String
  | race => ["deadline"]
  | verify => ["on-fail"]
  | debate => ["judge", "rounds"]
  | cache => ["mode", "ttl"]
  | budget => ["max-cost", "max-latency-ms", "max-tokens"]
  | _ => []

end Combinator

/-- The combinator of a name. The name `atom` is not among them: atoms are handled before. -/
def combinatorByName (name : String) : Option Combinator :=
  Combinator.all.find? (·.name = name)

theorem name_of_combinatorByName (h : combinatorByName name = some c) : name = c.name := by
  have hname := List.find?_some h
  simpa [eq_comm] using hname

/-! ## Parts of a plan -/

def planName (symbol : Symbol) : PlanResult String :=
  match stripStart "plan/".toList symbol.name.toList with
  | some name => .ok (.ofList name)
  | none => .error (.eval ("plan head must use plan/*, found " ++ symbol.name))

/-- The name of the head and the arguments. -/
def planParts : Expr Mode → PlanResult (String × List (Expr Mode))
  | .list (.symbol symbol :: args) => (planName symbol).map (·, args)
  | .list _ => .error (.eval "plan must have a symbolic head")
  | _ => .error (.eval "plan must be a list expression")

/-- Tests for a bare symbol of the given name. -/
def isBare (name : String) : Expr Mode → Bool
  | .symbol symbol => symbol.ns.isNone && symbol.name == name
  | _ => false

/-- The name in the first `keyword` entry whose value is a symbol. -/
def keywordOf (entries : List (Expr Mode × Expr Mode)) : Option String :=
  entries.findSome? fun e =>
    match e.2 with
    | .symbol name => if isBare "keyword" e.1 then some name.name else none
    | _ => none

def keywordName : Expr Mode → Option String
  | .map entries => keywordOf entries
  | _ => none

def childArgs (args : List (Expr Mode)) : List (Expr Mode) :=
  args.filter fun arg => (keywordName arg).isNone

/-- The value of the first keyword argument of that name that has one. -/
def keywordValue (args : List (Expr Mode)) (name : String) : Option (Expr Mode) :=
  args.findSome? fun arg =>
    match arg with
    | .map entries =>
      if keywordOf entries = some name then
        entries.findSome? fun e => if isBare "value" e.1 then some e.2 else none
      else none
    | _ => none

def atomAddress (plan : Expr Mode) : Option String :=
  match planParts plan with
  | .ok ("atom", [.string address]) => some address
  | _ => none

def keywordAtom (args : List (Expr Mode)) (name : String) : Option String :=
  (keywordValue args name).bind atomAddress

/-! ## The check -/

structure PlanLimits where
  maxDepth : Nat
  maxFanOut : Nat

def PlanLimits.default : PlanLimits := ⟨4, 4⟩

def checkAtom : List (Expr Mode) → PlanResult Unit
  | [.string address] =>
    if Text.trimIsEmpty address then .error (.eval "plan/atom address must be a string") else .ok ()
  | [_] => .error (.eval "plan/atom address must be a string")
  | _ => .error (.eval "plan/atom expects one address")

/-- The check of a combinator's own arguments: the number of its children. -/
def checkChildren (limits : PlanLimits) (combinator : Combinator) (children : Nat) :
    PlanResult Unit :=
  if children < combinator.minChildren ∨ children > combinator.maxChildren then
    .error (.eval ("plan/" ++ combinator.name ++ " expects " ++ toString combinator.minChildren ++
      ".." ++ toString combinator.maxChildren ++ " children, found " ++ toString children))
  else if children > limits.maxFanOut then
    .error (.eval ("plan/" ++ combinator.name ++ " fan-out " ++ toString children ++
      " exceeds maximum " ++ toString limits.maxFanOut))
  else .ok ()

/-- The check of a plan below which `levels` levels are left, the plan's own included: the source
counts the depth up to its maximum. -/
def checkPlanAt (limits : PlanLimits) : (levels : Nat) → Expr Mode → PlanResult Unit
  | 0, _ =>
    .error (.eval ("plan nesting exceeds maximum depth " ++ toString limits.maxDepth))
  | levels + 1, plan => do
    let (name, args) ← planParts plan
    if name = "atom" then
      checkAtom args
    else match combinatorByName name with
      | none => .error (.eval ("unknown plan combinator " ++ name))
      | some combinator =>
        checkChildren limits combinator (childArgs args).length
        args.forM fun arg =>
          match keywordName arg with
          | some keyword =>
            if keyword ∈ combinator.keywords then .ok ()
            else .error (.eval ("unknown keyword " ++ keyword ++ " for plan/" ++ name))
          | none => checkPlanAt limits levels arg

def checkPlanWithLimits (limits : PlanLimits) (plan : Expr Mode) : PlanResult Unit :=
  checkPlanAt limits limits.maxDepth plan

def checkPlan (plan : Expr Mode) : PlanResult Unit := checkPlanWithLimits .default plan

/-! ## Nesting -/

mutual
/-- How deep lists and maps are nested in an expression, along elements and values. -/
def nesting : Expr Mode → Nat
  | .list items => nestings items + 1
  | .map entries => nestingValues entries + 1
  | _ => 0
termination_by structural expr => expr

def nestings : List (Expr Mode) → Nat
  | [] => 0
  | item :: items => max (nesting item) (nestings items)
termination_by structural items => items

def nestingValues : List (Expr Mode × Expr Mode) → Nat
  | [] => 0
  | (_, value) :: entries => max (nesting value) (nestingValues entries)
termination_by structural entries => entries
end

theorem nesting_le_of_mem {items : List (Expr Mode)} (h : item ∈ items) :
    nesting item ≤ nestings items := by
  induction items with
  | nil => cases h
  | cons first items ih =>
    rw [nestings]
    rcases List.mem_cons.mp h with rfl | h
    · exact Nat.le_max_left _ _
    · exact (ih h).trans (Nat.le_max_right _ _)

theorem nesting_le_of_mem_values {entries : List (Expr Mode × Expr Mode)} (h : e ∈ entries) :
    nesting e.2 ≤ nestingValues entries := by
  induction entries with
  | nil => cases h
  | cons first entries ih =>
    rw [nestingValues]
    rcases List.mem_cons.mp h with rfl | h
    · exact Nat.le_max_left _ _
    · exact (ih h).trans (Nat.le_max_right _ _)

theorem nestings_lt_of_planParts {plan : Expr Mode} (h : planParts plan = .ok (name, args)) :
    nestings args < nesting plan := by
  unfold planParts at h
  split at h
  · rename_i symbol args'
    cases hn : planName symbol with
    | error e =>
      rw [hn] at h
      cases h
    | ok n =>
      rw [hn] at h
      cases h
      rw [nesting, nestings]
      exact Nat.lt_succ_of_le (Nat.le_max_right _ _)
  · cases h
  · cases h

theorem nesting_child_lt {plan : Expr Mode} (h : planParts plan = .ok (name, args))
    (hc : child ∈ childArgs args) : nesting child < nesting plan :=
  (nesting_le_of_mem (List.mem_of_mem_filter hc)).trans_lt (nestings_lt_of_planParts h)

theorem nesting_keywordValue_lt {plan : Expr Mode} (h : planParts plan = .ok (name, args))
    (hv : keywordValue args keyword = some value) : nesting value < nesting plan := by
  obtain ⟨arg, harg, hfound⟩ := List.exists_of_findSome?_eq_some hv
  split at hfound
  · rename_i entries
    split at hfound
    · obtain ⟨e, he, hvalue⟩ := List.exists_of_findSome?_eq_some hfound
      split at hvalue
      · cases hvalue
        calc nesting e.2 ≤ nestingValues entries := nesting_le_of_mem_values he
          _ ≤ nesting (.map entries) := by rw [nesting]; exact Nat.le_succ _
          _ ≤ nestings args := nesting_le_of_mem harg
          _ < nesting plan := nestings_lt_of_planParts h
      · cases hvalue
    · cases hfound
  · cases hfound

/-! ## Texts -/

section Texts

mutual
/-- The texts in an expression, from left to right. -/
def collectText : Expr Mode → List String
  | .string text => [text]
  | .list items | .vector items | .set items | .block items => collectTexts items
  | .map entries => collectValues entries
  | .call operator args => collectText operator ++ collectTexts args
  | .infixOp _ left right => collectText left ++ collectText right
  | .prefixOp _ arg | .postfixOp _ arg | .quote _ arg => collectText arg
  | .annotated expr annotations => collectText expr ++ collectAnnotations annotations
  | .extension _ payload => collectText payload
  | .nil | .bool _ | .number _ | .symbol _ | .local _ | .bytes _ => []
termination_by structural expr => expr

def collectTexts : List (Expr Mode) → List String
  | [] => []
  | item :: items => collectText item ++ collectTexts items
termination_by structural items => items

def collectValues : List (Expr Mode × Expr Mode) → List String
  | [] => []
  | (_, value) :: entries => collectText value ++ collectValues entries
termination_by structural entries => entries

def collectAnnotations : List (Symbol × Expr Mode) → List String
  | [] => []
  | (_, value) :: entries => collectText value ++ collectAnnotations entries
termination_by structural entries => entries
end

end Texts

end SimAgentNet.OpenaiServer
