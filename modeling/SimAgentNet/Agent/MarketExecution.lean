import SimAgentNet.Agent.Market
import SimAgentNet.Data.Effect

/-! # Execution of a market

A market executes a request with the runners that it accepts, in one of several modes, and attaches
its decision to the response. The decision is to name the runner that answered: `names_author_iff`
says exactly when it does. -/

namespace SimAgentNet.Agent
open Provider (FanoutMode FanoutStatus FanoutRow)
open StableSort (sortBy leastBy)

variable {Mode Score Runner : Type} [LinearOrder Score]

/-- The realizations of an execution. A runner may answer differently each time it is asked. -/
inductive Phase where
  | select
  | fallback
  | fallbackAgain
  | race
  | speculateExpensive
  | speculateCheap
  | debate
  | judge
  | escalate
  | verify
deriving DecidableEq

def Phase.text : Phase → String
  | .select => "select"
  | .fallback | .fallbackAgain => "fallback"
  | .race => "race"
  | .speculateExpensive => "speculate-expensive"
  | .speculateCheap => "speculate-cheap"
  | .debate => "debate"
  | .judge => "judge"
  | .escalate => "escalate"
  | .verify => "verify"

/-- A market with what its runners say of themselves and how they answer. The capabilities that
every realization requires are left out. -/
structure MarketExecutor (Mode Score Runner : Type) where
  runners : List Runner
  policy : MarketPolicy Score
  numbers : Numbers Mode Score
  runnerCard : Runner → Except Error (ModelCard Mode)
  externalBid : Runner → ModelRequest Mode → Option (ModelBid Score)
  realizeRunner : Phase → Runner → ModelRequest Mode → Option Nanos →
    Except Error (ModelResponse Mode)
  /-- The rows of a fan-out over seats, each with its id and its runner. -/
  fanout : FanoutMode → List (String × Runner) → Option Nanos → ModelRequest Mode →
    List (FanoutRow (ModelResponse Mode))
  parseDuration : Expr Mode → Except Error Nanos
  requestExpr : ModelRequest Mode → Expr Mode
  responseExpr : ModelResponse Mode → Expr Mode
  debugText : Expr Mode → String
  errorText : Error → String

/-- A response and the runner whose realization gave it. The code does not keep the author. -/
structure Answer (Mode : Type) where
  response : ModelResponse Mode
  author : Symbol

/-- Puts an entry behind the extras of a response. -/
def Answer.push (answer : Answer Mode) (name : String) (value : Expr Mode) : Answer Mode :=
  { answer with response := { answer.response with
    extra := answer.response.extra ++ [Expr.entry name value] } }

abbrev Deciding (Mode Score Runner α : Type) :=
  Effect Error (MarketDecision Mode Score Runner) α

def localityIsAllowedForLocalOnly (locality : Symbol) : Bool :=
  ["local", "agent", "agent-backed", "fabric", "in-process", "process"].contains locality.name

def cardDenial (privacy : PrivacyPolicy) (card : ModelCard Mode) : Option String :=
  if !privacy.localOnly then none
  else if !localityIsAllowedForLocalOnly card.locality then
    some ("privacy local-only rejected runner " ++ card.runner.display ++ ": locality " ++
      card.locality.display)
  else none

namespace MarketExecutor
variable (exec : MarketExecutor Mode Score Runner) (request : ModelRequest Mode)

/-! ## Candidates -/

def executionMode : String :=
  let mode := (exec.policy.execution.getD exec.policy.prefer).name
  if ["race", "speculate", "debate", "escalate", "parallel-all", "parallel-first-good",
    "parallel-quorum"].contains mode then mode else "select"

def verifySymbol : Option Symbol := exec.policy.verifyWith.or exec.policy.judge
def judgeSymbol : Option Symbol := exec.policy.judge.or exec.policy.verifyWith

def policyDeadline : Except Error (Option Nanos) :=
  match exec.policy.deadline with
  | none => .ok none
  | some deadline => some <$> exec.parseDuration (.string deadline)

def cardTimeout (card : ModelCard Mode) : Except Error (Option Nanos) :=
  match extraField card.extra "timeout" with
  | none => .ok none
  | some timeout => some <$> exec.parseDuration timeout

def deadlineFor (card : ModelCard Mode) : Except Error (Option Nanos) := do
  let policy ← exec.policyDeadline
  let runner ← exec.cardTimeout card
  return match policy, runner with
    | some left, some right => some (min left right)
    | some value, none | none, some value => some value
    | none, none => none

/-- A runner with its card, its bid and its score. -/
def candidateOf (runner : Runner) (card : ModelCard Mode) : MarketCandidate Mode Score Runner :=
  let bid := runnerBid exec.numbers (exec.externalBid runner request) card
  ⟨runner, card, bid, candidateScore exec.numbers exec.policy card bid⟩

def accepts (candidate : MarketCandidate Mode Score Runner) : Bool :=
  candidateAccepted exec.numbers exec.policy candidate.card candidate.bid

/-- Records what a runner bids, and takes it as a candidate when it is accepted. -/
def consider (runner : Runner) (card : ModelCard Mode) :
    Deciding Mode Score Runner (Option (MarketCandidate Mode Score Runner)) := do
  let candidate := exec.candidateOf request runner card
  let accepted := exec.accepts candidate
  Effect.modify (·.addBid exec.numbers card candidate.bid candidate.score accepted)
  if accepted then
    Effect.modify (·.addCandidate candidate)
    return some candidate
  else return none

def offer (runner : Runner) :
    Deciding Mode Score Runner (Option (MarketCandidate Mode Score Runner)) := do
  let card ← Effect.ofExcept (exec.runnerCard runner)
  let decision ← Effect.get
  match cardDenial decision.privacy card with
  | some reason => do
    Effect.modify (·.addPrivacyRejected exec.numbers.max card reason)
    return none
  | none => exec.consider request runner card

def candidatesFrom : List Runner →
    Deciding Mode Score Runner (List (MarketCandidate Mode Score Runner))
  | [] => return []
  | runner :: later => do
    let offered ← exec.offer request runner
    let candidates ← candidatesFrom later
    return offered.toList ++ candidates

def candidates : Deciding Mode Score Runner (List (MarketCandidate Mode Score Runner)) :=
  exec.candidatesFrom request exec.runners

def isBranch (candidate : MarketCandidate Mode Score Runner) : Bool :=
  exec.verifySymbol ≠ some candidate.symbol ∧ exec.judgeSymbol ≠ some candidate.symbol

def branchCandidates : Deciding Mode Score Runner (List (MarketCandidate Mode Score Runner)) := do
  let candidates ← exec.candidates request
  return candidates.filter exec.isBranch

def acceptedRunnerBySymbol (symbol : Symbol) : Deciding Mode Score Runner (Option Runner) := do
  let candidates ← exec.candidates request
  return (candidates.find? (·.symbol = symbol)).map (·.runner)

/-! ## Realizations -/

/-- What a candidate answers. -/
def answer (phase : Phase) (candidate : MarketCandidate Mode Score Runner) :
    Except Error (ModelResponse Mode) := do
  let deadline ← exec.deadlineFor candidate.card
  exec.realizeRunner phase candidate.runner request deadline

def escalates (response : ModelResponse Mode) : Bool := responseShouldEscalate exec.numbers response

def select (candidate : MarketCandidate Mode Score Runner) (response : ModelResponse Mode)
    (decision : MarketDecision Mode Score Runner) : MarketDecision Mode Score Runner :=
  if exec.escalates response then decision
  else { decision with selected := some candidate.symbol }

def realizeCandidate (phase : Phase) (candidate : MarketCandidate Mode Score Runner) :
    Deciding Mode Score Runner (Answer Mode) := do
  Effect.modify (·.addRun candidate.symbol phase.text)
  let response ← Effect.ofExcept (exec.answer request phase candidate)
  Effect.modify (·.addResponse candidate.symbol phase.text response)
  Effect.modify (exec.select candidate response)
  return ⟨response, candidate.symbol⟩

def fail (runner : Symbol) (error : Error) : Deciding Mode Score Runner Unit :=
  Effect.modify (·.addFailure runner (exec.errorText error))

def reject (candidate : MarketCandidate Mode Score Runner) (response : ModelResponse Mode)
    (otherwise : String) : Deciding Mode Score Runner Unit :=
  Effect.modify (·.addFailure candidate.symbol
    ((responseFailureReason exec.numbers response).getD otherwise))

def realizeFallback (phase : Phase) (candidates : List (MarketCandidate Mode Score Runner))
    (skip : Option Symbol) : Deciding Mode Score Runner (Option (Answer Mode)) :=
  match exec.policy.fallback with
  | none => return none
  | some fallback =>
    if skip = some fallback then return none
    else
      match candidates.find? (·.symbol = fallback) with
      | none => do
        Effect.modify (·.addFailure fallback "fallback runner not accepted")
        return none
      | some candidate => do
        Effect.modify ({ · with fallbackUsed := some fallback })
        let answer ← exec.realizeCandidate request phase candidate
        return some answer

/-! ## Verification -/

def verificationRequest (response : ModelResponse Mode) : ModelRequest Mode where
  task := .map [Expr.entry "verify-market-response" (.bool true),
    Expr.entry "request" (exec.requestExpr request),
    Expr.entry "response" (exec.responseExpr response)]
  messages := []
  extra := []

def verifySelected (answer : Answer Mode) : Deciding Mode Score Runner (Answer Mode) :=
  match exec.policy.verifyWith with
  | none => return answer
  | some verifier => do
    match ← exec.acceptedRunnerBySymbol request verifier with
    | none => do
      Effect.modify (·.addFailure verifier "verifier runner not found")
      return answer
    | some runner => do
      let deadline ← Effect.ofExcept exec.policyDeadline
      match exec.realizeRunner .verify runner (exec.verificationRequest request answer.response)
        deadline with
      | .ok check => do
        Effect.modify ({ · with verifiedBy := some check.runner })
        return answer.push "market-verification" (exec.responseExpr check)
      | .error e => do
        exec.fail verifier e
        return answer

/-- What the verifier answers. -/
def check (runner : Runner) (response : ModelResponse Mode) :
    Except Error (ModelResponse Mode) := do
  let deadline ← exec.policyDeadline
  exec.realizeRunner .verify runner (exec.verificationRequest request response) deadline

def verifyCandidate (response : ModelResponse Mode) : Deciding Mode Score Runner Bool :=
  match exec.verifySymbol with
  | none => return !exec.escalates response
  | some verifier => do
    match ← exec.acceptedRunnerBySymbol request verifier with
    | none => do
      Effect.modify (·.addFailure verifier "verifier runner not found")
      return false
    | some runner => do
      let check ← Effect.ofExcept (exec.check request runner response)
      Effect.modify ({ · with verifiedBy := some check.runner })
      Effect.modify (·.addResponse verifier "verify" check)
      return verifierAccepts exec.numbers exec.debugText check

/-! ## Select -/

/-- The answer of the selected runner, or that of the fallback when it fails. -/
def orFallback (candidates : List (MarketCandidate Mode Score Runner))
    (selected : MarketCandidate Mode Score Runner) :
    Except Error (Answer Mode) → Deciding Mode Score Runner (Answer Mode)
  | .ok answer => return answer
  | .error e => do
    exec.fail selected.symbol e
    match ← exec.realizeFallback request .fallback candidates (some selected.symbol) with
    | some answer => return answer
    | none => Effect.fail e

/-- The answer of the fallback in place of one that may be asked for again. -/
def orRetried (candidates : List (MarketCandidate Mode Score Runner))
    (selected : MarketCandidate Mode Score Runner) (answer : Answer Mode) :
    Deciding Mode Score Runner (Answer Mode) :=
  if isRetryableError answer.response then do
    match ← exec.realizeFallback request .fallbackAgain candidates (some selected.symbol) with
    | some fallback => return fallback
    | none => return answer
  else return answer

def executeSelect : Deciding Mode Score Runner (Answer Mode) := do
  let candidates ← exec.candidates request
  match leastBy (·.score) candidates with
  | none => Effect.fail (.eval "runner/market found no valid runner")
  | some selected => do
    let first ← Effect.attempt (exec.realizeCandidate request .select selected)
    let answer ← exec.orFallback request candidates selected first
    let answer ← exec.orRetried request candidates selected answer
    exec.verifySelected request answer

/-- Execution in several branches, unless the request goes on after a tool call that must not be
made twice. -/
def ifBranching (execution : Deciding Mode Score Runner (Answer Mode)) :
    Deciding Mode Score Runner (Answer Mode) :=
  if requestAllowsBranching request then execution
  else do
    Effect.modify (·.addFailure (.qualified "runner" "market")
      "non-idempotent tool continuation used select execution")
    exec.executeSelect request

/-! ## Race and escalation -/

/-- Asks one candidate after the other, until an answer does not escalate. -/
def raceFrom : List (MarketCandidate Mode Score Runner) → Option Error →
    Deciding Mode Score Runner (Answer Mode ⊕ Option Error)
  | [], lastError => return .inr lastError
  | candidate :: later, _ => do
    match ← Effect.attempt (exec.realizeCandidate request .race candidate) with
    | .ok answer =>
      if exec.escalates answer.response then do
        exec.reject candidate answer.response "response rejected"
        raceFrom later (some (.eval "race candidate response rejected"))
      else do
        Effect.modify fun decision => later.foldl
          (fun decision cancelled => decision.addCancelled cancelled.symbol "race winner selected")
          decision
        return .inl answer
    | .error e => do
      exec.fail candidate.symbol e
      raceFrom later (some e)

def executeRace : Deciding Mode Score Runner (Answer Mode) := exec.ifBranching request do
  let candidates ← exec.candidates request
  let candidates := sortBy (fun candidate => toLex (candidate.latencyMs exec.numbers,
    candidate.score)) candidates
  match ← exec.raceFrom request candidates none with
  | .inl answer => return answer
  | .inr lastError => do
    match ← exec.realizeFallback request .fallback candidates none with
    | some answer => return answer
    | none =>
      Effect.fail (lastError.getD (.eval "runner/market race found no valid runner"))

def markFallback (candidate : MarketCandidate Mode Score Runner)
    (decision : MarketDecision Mode Score Runner) : MarketDecision Mode Score Runner :=
  if exec.policy.fallback = some candidate.symbol then
    { decision with fallbackUsed := some candidate.symbol }
  else decision

/-- Asks one candidate after the other; what is left is the last answer and the last error. -/
def escalateFrom : List (MarketCandidate Mode Score Runner) → Option (Answer Mode) → Option Error →
    Deciding Mode Score Runner (Answer Mode ⊕ Option (Answer Mode) × Option Error)
  | [], lastResponse, lastError => return .inr (lastResponse, lastError)
  | candidate :: later, lastResponse, lastError => do
    Effect.modify (exec.markFallback candidate)
    match ← Effect.attempt (exec.realizeCandidate request .escalate candidate) with
    | .ok answer =>
      if exec.escalates answer.response then do
        exec.reject candidate answer.response "escalation condition matched"
        escalateFrom later (some answer) lastError
      else return .inl answer
    | .error e => do
      exec.fail candidate.symbol e
      escalateFrom later lastResponse (some e)

def executeEscalate : Deciding Mode Score Runner (Answer Mode) := do
  let candidates ← exec.candidates request
  let candidates := sortBy (·.score) candidates
  match ← exec.escalateFrom request candidates none none with
  | .inl answer => return answer
  | .inr (lastResponse, lastError) => do
    match ← exec.realizeFallback request .fallback candidates none with
    | some answer => return answer
    | none =>
      match lastResponse with
      | some answer => return answer
      | none =>
        Effect.fail (lastError.getD (.eval "runner/market escalate found no valid runner"))

/-! ## Speculation -/

/-- The answer of the expensive branch, where it was asked. -/
def expensiveOr (expensive : Option (Except Error (Answer Mode))) (error : Error) :
    Except Error (Answer Mode) :=
  expensive.getD (.error error)

/-- What becomes of the answer of the cheap branch. -/
def settleCheap (cheap expensive : MarketCandidate Mode Score Runner)
    (other : Option (Except Error (Answer Mode))) :
    Except Error (Answer Mode) → Deciding Mode Score Runner (Answer Mode)
  | .error e => do
    exec.fail cheap.symbol e
    Effect.ofExcept (expensiveOr other e)
  | .ok answer =>
    if exec.escalates answer.response then do
      exec.reject cheap answer.response "cheap branch rejected"
      Effect.ofExcept (expensiveOr other (.eval "speculate cheap branch rejected"))
    else do
      if ← exec.verifyCandidate request answer.response then do
        Effect.modify ({ · with selected := some cheap.symbol })
        Effect.modify fun decision => if expensive.symbol = cheap.symbol then decision
          else decision.addCancelled expensive.symbol "cheap branch verified"
        return answer
      else do
        Effect.modify (·.addFailure cheap.symbol "cheap branch failed verification")
        Effect.ofExcept (expensiveOr other
          (.eval "speculate verifier rejected the only branch"))

/-- Asks the expensive branch, unless it is the cheap one. -/
def askExpensive (cheap expensive : MarketCandidate Mode Score Runner) :
    Deciding Mode Score Runner (Option (Except Error (Answer Mode))) :=
  if expensive.symbol = cheap.symbol then return none
  else some <$> Effect.attempt (exec.realizeCandidate request .speculateExpensive expensive)

def executeSpeculate : Deciding Mode Score Runner (Answer Mode) := exec.ifBranching request do
  let candidates ← exec.branchCandidates request
  match sortBy (·.score) candidates with
  | [] => Effect.fail (.eval "runner/market speculate found no valid runner")
  | cheap :: later => do
    let expensive := later.headD cheap
    let other ← exec.askExpensive request cheap expensive
    let first ← Effect.attempt (exec.realizeCandidate request .speculateCheap cheap)
    exec.settleCheap request cheap expensive other first

/-! ## Debate -/

def debateJudgeRequest (answers : List (ModelResponse Mode)) : ModelRequest Mode :=
  { request with task := .map [Expr.entry "debate" (.bool true), Expr.entry "task" request.task,
    Expr.entry "answers" (.list (answers.map exec.responseExpr))] }

def debateFrom : List (MarketCandidate Mode Score Runner) →
    Deciding Mode Score Runner (List (ModelResponse Mode))
  | [] => return []
  | candidate :: later => do
    match ← Effect.attempt (exec.realizeCandidate request .debate candidate) with
    | .ok answer =>
      if isErrorResponse answer.response then do
        exec.reject candidate answer.response "debate answer rejected"
        debateFrom later
      else do
        let answers ← debateFrom later
        return answer.response :: answers
    | .error e => do
      exec.fail candidate.symbol e
      debateFrom later

/-- What the judge answers. -/
def judgement (runner : Runner) (answers : List (ModelResponse Mode)) :
    Except Error (ModelResponse Mode) := do
  let deadline ← exec.policyDeadline
  exec.realizeRunner .judge runner (exec.debateJudgeRequest request answers) deadline

def executeDebate : Deciding Mode Score Runner (Answer Mode) := exec.ifBranching request do
  match exec.judgeSymbol with
  | none => Effect.fail (.eval "runner/market debate requires :judge or :verify-with")
  | some judge => do
    let candidates ← exec.candidates request
    match candidates.find? (·.symbol = judge) with
    | none => Effect.fail (.eval ("debate judge " ++ judge.display ++ " not accepted"))
    | some judgeCandidate => do
      let answers ← exec.debateFrom request (candidates.filter (·.symbol ≠ judge))
      if answers.isEmpty then
        Effect.fail (.eval "runner/market debate produced no candidate answers")
      else do
        let response ← Effect.ofExcept (exec.judgement request judgeCandidate.runner answers)
        Effect.modify ({ · with selected := some judge })
        return ((⟨response, judge⟩ : Answer Mode).push "debate-answers"
          (.list (answers.map exec.responseExpr))).push "debate-judge" (.symbol judge)

/-! ## Parallel execution -/

def fanoutMode : FanoutMode :=
  match exec.executionMode with
  | "parallel-all" => .all
  | "parallel-quorum" => .quorum (exec.policy.quorum.getD 2)
  | _ => .firstGood

def statusText : FanoutStatus → String
  | .parallel => "parallel"
  | .serialized => "serialized"
  | .unavailable => "unavailable"

def rowExpr (row : FanoutRow (ModelResponse Mode)) : Expr Mode :=
  .map [Expr.entry "seat" (.string row.seat),
    Expr.entry "status" (.symbol (.new (statusText row.status))),
    match row.result with
    | .ok response => Expr.entry "response" (exec.responseExpr response)
    | .error message => Expr.entry "error" (.string message)]

def recordRow (entry : MarketCandidate Mode Score Runner × FanoutRow (ModelResponse Mode))
    (decision : MarketDecision Mode Score Runner) : MarketDecision Mode Score Runner :=
  match entry.2.result with
  | .ok response => decision.addResponse entry.1.symbol "parallel" response
  | .error message => decision.addFailure entry.1.symbol message

/-- The answer of a row; its author is the candidate of the seat. -/
def rowAnswer (entry : MarketCandidate Mode Score Runner × FanoutRow (ModelResponse Mode)) :
    Option (Answer Mode) :=
  match entry.2.result with
  | .ok response => some ⟨response, entry.1.symbol⟩
  | .error _ => none

/-- How many candidates of a mode must answer. -/
def requiredAnswers (candidates : List (MarketCandidate Mode Score Runner)) : Nat :=
  match exec.fanoutMode with
  | .all => candidates.length
  | .firstGood => 1
  | .quorum required => required

def executeParallel : Deciding Mode Score Runner (Answer Mode) := exec.ifBranching request do
  let candidates ← exec.branchCandidates request
  let deadline ← Effect.ofExcept exec.policyDeadline
  Effect.modify fun decision => candidates.foldl
    (fun decision candidate => decision.addRun candidate.symbol "parallel") decision
  let seats := candidates.map fun candidate => (candidate.symbol.display, candidate.runner)
  let rows := candidates.zip (exec.fanout exec.fanoutMode seats deadline request)
  Effect.modify fun decision => rows.foldl (fun decision row => recordRow row decision) decision
  let answers := rows.filterMap rowAnswer
  let required := exec.requiredAnswers candidates
  if answers.length < required then
    Effect.fail (.eval ("runner/market parallel mode required " ++ toString required ++
      " successes, got " ++ toString answers.length))
  else
    match answers with
    | [] => Effect.fail (.eval "runner/market parallel mode found no valid runner")
    | answer :: _ => do
      Effect.modify ({ · with selected := some answer.response.runner })
      return answer.push "fan-out" (.list (rows.map fun row => exec.rowExpr row.2))

/-! ## The market -/

def execute : Deciding Mode Score Runner (Answer Mode) :=
  match exec.executionMode with
  | "race" => exec.executeRace request
  | "speculate" => exec.executeSpeculate request
  | "debate" => exec.executeDebate request
  | "escalate" => exec.executeEscalate request
  | "parallel-all" | "parallel-first-good" | "parallel-quorum" => exec.executeParallel request
  | _ => exec.executeSelect request

/-- The decision comes beside the response that the code attaches it to. -/
def executeMarket (privacy : PrivacyPolicy) :
    Except Error (Answer Mode × MarketDecision Mode Score Runner) :=
  match exec.execute request { privacy } with
  | (.ok answer, decision) =>
    .ok (answer, { decision with selectedResponse := some answer.response })
  | (.error e, _) => .error e

/-! ## What a survey finds -/

section Survey
variable (privacy : PrivacyPolicy)

/-- The candidate that a runner is, if it is one. -/
def offered (runner : Runner) : Except Error (Option (MarketCandidate Mode Score Runner)) := do
  let card ← exec.runnerCard runner
  let candidate := exec.candidateOf request runner card
  return if cardDenial privacy card = none ∧ exec.accepts candidate then some candidate else none

def foundFrom : List Runner → Except Error (List (MarketCandidate Mode Score Runner))
  | [] => .ok []
  | runner :: later => do
    let offered ← exec.offered request privacy runner
    let candidates ← foundFrom later
    return offered.toList ++ candidates

/-- The runners that the market accepts. -/
def found : Except Error (List (MarketCandidate Mode Score Runner)) :=
  exec.foundFrom request privacy exec.runners

end Survey

def offers (decision : MarketDecision Mode Score Runner) : List (Score × Symbol) :=
  (decision.bids.filter (·.accepted)).map fun bid => (bid.score, bid.runner)

def offerOf (candidate : MarketCandidate Mode Score Runner) : Score × Symbol :=
  (candidate.score, candidate.symbol)

/-- What is left of a decision for the naming of the author: whom it has selected, whether the
fallback is marked as used, and the lowest offer that it has recorded. -/
def Stands (privacy : PrivacyPolicy) (lowest : Option (Score × Symbol)) (selected : Option Symbol)
    (fallbackUsed : Option Symbol) (decision : MarketDecision Mode Score Runner) : Prop :=
  decision.privacy = privacy ∧ decision.selected = selected ∧
    decision.fallbackUsed = fallbackUsed ∧ leastBy Prod.fst (offers decision) = lowest

section Spec
variable {exec} {request} {privacy : PrivacyPolicy} {lowest : Option (Score × Symbol)}
  {selected fallbackUsed : Option Symbol} {d d' : MarketDecision Mode Score Runner}

theorem selectedRunner_of_stands (h : Stands privacy lowest selected fallbackUsed d) :
    d.selectedRunner = selected.or (lowest.map Prod.snd) := by
  obtain ⟨-, rfl, -, rfl⟩ := h
  rw [MarketDecision.selectedRunner, selectedFromBids, offers, StableSort.leastBy_map,
    Option.map_map]
  rfl

/-- What a survey does to a decision: it records offers, and nothing else that matters. -/
structure Surveys (d d' : MarketDecision Mode Score Runner)
    (new : List (MarketCandidate Mode Score Runner)) : Prop where
  privacy : d'.privacy = d.privacy
  selected : d'.selected = d.selected
  fallbackUsed : d'.fallbackUsed = d.fallbackUsed
  offers : offers d' = offers d ++ new.map offerOf

theorem offer_spec {runner : Runner} (h : exec.offer request runner d = (.ok o, d')) :
    exec.offered request d.privacy runner = .ok o ∧ Surveys d d' o.toList := by
  unfold offer at h
  obtain ⟨card, t, hread, hrest⟩ := Effect.bind_eq_ok_iff.mp h
  obtain ⟨hcard, ht⟩ := Effect.ofExcept_eq_ok_iff.mp hread
  clear h hread
  rw [ht, Effect.bind_apply, Effect.get_apply] at hrest
  rename' hrest => h
  dsimp only at h
  unfold offered
  rw [hcard, Except.ok_bind]
  cases hdenial : cardDenial d.privacy card with
  | some reason =>
    rw [hdenial] at h
    cases h
    refine ⟨rfl, rfl, rfl, rfl, ?_⟩
    simp [offers, MarketDecision.addPrivacyRejected]
  | none =>
    rw [hdenial] at h
    dsimp only [consider] at h
    rw [Effect.bind_apply, Effect.modify_apply] at h
    dsimp only at h
    cases haccepts : exec.accepts (exec.candidateOf request runner card) with
    | true =>
      rw [haccepts, if_pos rfl] at h
      cases h
      refine ⟨by simp [pure, Except.pure, haccepts], rfl, rfl, rfl, ?_⟩
      simp [offers, MarketDecision.addBid, MarketDecision.addCandidate, offerOf, candidateOf,
        MarketCandidate.symbol]
    | false =>
      rw [haccepts, if_neg Bool.false_ne_true] at h
      cases h
      refine ⟨by simp [pure, Except.pure, haccepts], rfl, rfl, rfl, ?_⟩
      simp [offers, MarketDecision.addBid]

theorem candidatesFrom_spec {runners : List Runner}
    (h : exec.candidatesFrom request runners d = (.ok cs, d')) :
    exec.foundFrom request d.privacy runners = .ok cs ∧ Surveys d d' cs := by
  induction runners generalizing d cs with
  | nil =>
    cases h
    exact ⟨rfl, rfl, rfl, rfl, by simp⟩
  | cons runner later ih =>
    rw [candidatesFrom] at h
    obtain ⟨o, t, ho, h⟩ := Effect.bind_eq_ok_iff.mp h
    obtain ⟨cs', t', hcs, h⟩ := Effect.bind_eq_ok_iff.mp h
    cases h
    obtain ⟨hoffered, hfirst⟩ := offer_spec ho
    obtain ⟨hfound, hlater⟩ := ih hcs
    constructor
    · rw [foundFrom, hoffered, Except.ok_bind, ← hfirst.privacy, hfound]
      rfl
    · refine ⟨hlater.privacy.trans hfirst.privacy, hlater.selected.trans hfirst.selected,
        hlater.fallbackUsed.trans hfirst.fallbackUsed, ?_⟩
      rw [hlater.offers, hfirst.offers, List.append_assoc, ← List.map_append]

/-- The lowest offer of the runners that the market accepts. -/
def lowestOffer (cs : List (MarketCandidate Mode Score Runner)) : Option (Score × Symbol) :=
  leastBy Prod.fst (cs.map offerOf)

theorem lowestOffer_eq (cs : List (MarketCandidate Mode Score Runner)) :
    lowestOffer cs = (leastBy (·.score) cs).map offerOf :=
  StableSort.leastBy_map offerOf cs

/-- A decision before the first survey. -/
def Fresh (privacy : PrivacyPolicy) (decision : MarketDecision Mode Score Runner) : Prop :=
  decision.privacy = privacy ∧ decision.selected = none ∧ decision.fallbackUsed = none ∧
    offers decision = []

/-- The first survey of a run. -/
theorem candidates_first (hd : Fresh privacy d) (h : exec.candidates request d = (.ok cs, d')) :
    exec.found request privacy = .ok cs ∧ Stands privacy (lowestOffer cs) none none d' := by
  obtain ⟨rfl, hselected, hused, hoffers⟩ := hd
  obtain ⟨hfound, hsurvey⟩ := candidatesFrom_spec h
  refine ⟨hfound, hsurvey.privacy, hsurvey.selected.trans hselected,
    hsurvey.fallbackUsed.trans hused, ?_⟩
  rw [hsurvey.offers, hoffers]
  rfl

/-- A survey that is made again finds what the first one has found. -/
theorem candidates_again (hfound : exec.found request privacy = .ok cs)
    (hd : Stands privacy (lowestOffer cs) selected fallbackUsed d)
    (h : exec.candidates request d = (.ok cs', d')) :
    cs' = cs ∧ Stands privacy (lowestOffer cs) selected fallbackUsed d' := by
  obtain ⟨hprivacy, hselected, hused, hlowest⟩ := hd
  obtain ⟨hagain, hsurvey⟩ := candidatesFrom_spec h
  rw [hprivacy] at hagain
  cases hagain.symm.trans hfound
  refine ⟨rfl, hsurvey.privacy.trans hprivacy, hsurvey.selected.trans hselected,
    hsurvey.fallbackUsed.trans hused, ?_⟩
  rw [hsurvey.offers, StableSort.leastBy_append, hlowest]
  exact StableSort.lesser_self _

/-- What a realization leaves selected. -/
def selectedBy (exec : MarketExecutor Mode Score Runner)
    (candidate : MarketCandidate Mode Score Runner) (response : ModelResponse Mode)
    (selected : Option Symbol) : Option Symbol :=
  if exec.escalates response then selected else some candidate.symbol

theorem stands_select {candidate : MarketCandidate Mode Score Runner}
    {response : ModelResponse Mode} (hd : Stands privacy lowest selected fallbackUsed d) :
    Stands privacy lowest (selectedBy exec candidate response selected) fallbackUsed
      (exec.select candidate response d) := by
  unfold select selectedBy
  split
  · exact hd
  · exact ⟨hd.1, rfl, hd.2.2⟩

/-- How a realization ends. -/
theorem realizeCandidate_spec (exec : MarketExecutor Mode Score Runner)
    (request : ModelRequest Mode) (phase : Phase) (candidate : MarketCandidate Mode Score Runner)
    (hd : Stands privacy lowest selected fallbackUsed d) :
    (∃ e, exec.answer request phase candidate = .error e ∧
        (exec.realizeCandidate request phase candidate d).1 = .error e ∧
        Stands privacy lowest selected fallbackUsed
          (exec.realizeCandidate request phase candidate d).2) ∨
      ∃ response, exec.answer request phase candidate = .ok response ∧
        (exec.realizeCandidate request phase candidate d).1 = .ok ⟨response, candidate.symbol⟩ ∧
        Stands privacy lowest (selectedBy exec candidate response selected) fallbackUsed
          (exec.realizeCandidate request phase candidate d).2 := by
  unfold realizeCandidate
  rw [Effect.bind_apply, Effect.modify_apply]
  dsimp only
  rw [Effect.bind_apply, Effect.ofExcept_apply]
  cases hanswer : exec.answer request phase candidate with
  | error e => exact .inl ⟨e, rfl, rfl, hd⟩
  | ok response =>
    refine .inr ⟨response, rfl, rfl, ?_⟩
    have hrecorded : Stands privacy lowest selected fallbackUsed
        ((d.addRun candidate.symbol phase.text).addResponse candidate.symbol phase.text response) :=
      hd
    exact stands_select hrecorded

theorem attempt_spec {phase : Phase} {candidate : MarketCandidate Mode Score Runner}
    (hd : Stands privacy lowest selected fallbackUsed d)
    (h : Effect.attempt (exec.realizeCandidate request phase candidate) d =
      ((.ok x, d') : Except Error (Except Error (Answer Mode)) × _)) :
    (∃ e, exec.answer request phase candidate = .error e ∧ x = .error e ∧
        Stands privacy lowest selected fallbackUsed d') ∨
      ∃ response, exec.answer request phase candidate = .ok response ∧
        x = .ok ⟨response, candidate.symbol⟩ ∧
        Stands privacy lowest (selectedBy exec candidate response selected) fallbackUsed d' := by
  rw [Effect.attempt_apply] at h
  obtain ⟨hx, hd'⟩ := Prod.mk.inj h
  cases hx
  cases hd'
  exact realizeCandidate_spec exec request phase candidate hd

/-- The candidate that a fallback is made with. -/
def fallbackOf (exec : MarketExecutor Mode Score Runner)
    (cs : List (MarketCandidate Mode Score Runner)) (skip : Option Symbol) :
    Option (MarketCandidate Mode Score Runner) :=
  exec.policy.fallback.bind fun fallback =>
    if skip = some fallback then none else cs.find? (·.symbol = fallback)

omit [LinearOrder Score] in
theorem fallbackOf_symbol {candidate : MarketCandidate Mode Score Runner}
    (h : exec.fallbackOf cs skip = some candidate) :
    exec.policy.fallback = some candidate.symbol := by
  obtain ⟨fallback, hfallback, h⟩ := Option.bind_eq_some_iff.mp h
  split at h
  · cases h
  · rw [hfallback, show candidate.symbol = fallback by simpa using List.find?_some h]

/-- Without a fallback nothing happens; with one, it is marked and asked. -/
theorem realizeFallback_spec {phase : Phase} {skip : Option Symbol}
    {cs : List (MarketCandidate Mode Score Runner)} {result : Option (Answer Mode)}
    (hd : Stands privacy lowest selected fallbackUsed d)
    (h : exec.realizeFallback request phase cs skip d = (.ok result, d')) :
    (exec.fallbackOf cs skip = none ∧ result = none ∧
        Stands privacy lowest selected fallbackUsed d') ∨
      ∃ candidate response, exec.fallbackOf cs skip = some candidate ∧
        exec.answer request phase candidate = .ok response ∧
        result = some ⟨response, candidate.symbol⟩ ∧
        Stands privacy lowest (selectedBy exec candidate response selected)
          (some candidate.symbol) d' := by
  unfold realizeFallback at h
  unfold fallbackOf
  cases hfallback : exec.policy.fallback with
  | none =>
    rw [hfallback] at h
    cases h
    exact .inl ⟨rfl, rfl, hd⟩
  | some fallback =>
    rw [hfallback] at h
    dsimp only [Option.bind_some] at h ⊢
    split at h
    · next hskip =>
      cases h
      exact .inl ⟨if_pos hskip, rfl, hd⟩
    · next hskip =>
      rw [if_neg hskip]
      cases hfind : cs.find? (·.symbol = fallback) with
      | none =>
        rw [hfind] at h
        cases h
        exact .inl ⟨rfl, rfl, hd⟩
      | some candidate =>
        rw [hfind] at h
        dsimp only at h
        rw [Effect.bind_apply, Effect.modify_apply] at h
        dsimp only at h
        obtain ⟨answer, t, hrealize, h⟩ := Effect.bind_eq_ok_iff.mp h
        cases h
        have hsymbol : candidate.symbol = fallback := by simpa using List.find?_some hfind
        have hmarked : Stands privacy lowest selected (some fallback)
            { d with fallbackUsed := some fallback } := ⟨hd.1, hd.2.1, rfl, hd.2.2.2⟩
        obtain ⟨e, -, he, -⟩ | ⟨response, hanswer, hresponse, hstands⟩ :=
          realizeCandidate_spec exec request phase candidate hmarked
        · rw [hrealize] at he
          cases he
        · rw [hrealize] at hresponse hstands
          cases hresponse
          exact .inr ⟨candidate, response, rfl, hanswer, rfl, hsymbol ▸ hstands⟩

theorem acceptedRunnerBySymbol_spec {symbol : Symbol} {result : Option Runner}
    (hfound : exec.found request privacy = .ok cs)
    (hd : Stands privacy (lowestOffer cs) selected fallbackUsed d)
    (h : exec.acceptedRunnerBySymbol request symbol d = (.ok result, d')) :
    result = (cs.find? (·.symbol = symbol)).map (·.runner) ∧
      Stands privacy (lowestOffer cs) selected fallbackUsed d' := by
  obtain ⟨cs', t, hcs, h⟩ := Effect.bind_eq_ok_iff.mp h
  obtain ⟨rfl, hstands⟩ := candidates_again hfound hd hcs
  cases h
  exact ⟨rfl, hstands⟩

/-- Verification may put something behind the response, and changes nothing else that matters. -/
theorem verifySelected_spec {answer answer' : Answer Mode}
    (hfound : exec.found request privacy = .ok cs)
    (hd : Stands privacy (lowestOffer cs) selected fallbackUsed d)
    (h : exec.verifySelected request answer d = (.ok answer', d')) :
    answer'.author = answer.author ∧
      Stands privacy (lowestOffer cs) selected fallbackUsed d' := by
  unfold verifySelected at h
  cases hverifier : exec.policy.verifyWith with
  | none =>
    rw [hverifier] at h
    cases h
    exact ⟨rfl, hd⟩
  | some verifier =>
    rw [hverifier] at h
    obtain ⟨runner, t, hrunner, h⟩ := Effect.bind_eq_ok_iff.mp h
    obtain ⟨-, ht⟩ := acceptedRunnerBySymbol_spec hfound hd hrunner
    cases runner with
    | none =>
      cases h
      exact ⟨rfl, ht⟩
    | some runner =>
      obtain ⟨deadline, t', hdeadline, hcheck⟩ := Effect.bind_eq_ok_iff.mp h
      obtain ⟨-, rfl⟩ := Effect.ofExcept_eq_ok_iff.mp hdeadline
      generalize exec.realizeRunner .verify runner _ deadline = check at hcheck
      cases check with
      | ok check =>
        cases hcheck
        exact ⟨rfl, ht⟩
      | error e =>
        cases hcheck
        exact ⟨rfl, ht⟩

/-- Whether the verifier is for a response. -/
def verdict (exec : MarketExecutor Mode Score Runner) (request : ModelRequest Mode)
    (cs : List (MarketCandidate Mode Score Runner)) (response : ModelResponse Mode) :
    Except Error Bool :=
  match exec.verifySymbol with
  | none => .ok !exec.escalates response
  | some verifier =>
    match cs.find? (·.symbol = verifier) with
    | none => .ok false
    | some candidate =>
      verifierAccepts exec.numbers exec.debugText <$> exec.check request candidate.runner response

theorem verifyCandidate_spec {response : ModelResponse Mode} {verified : Bool}
    (hfound : exec.found request privacy = .ok cs)
    (hd : Stands privacy (lowestOffer cs) selected fallbackUsed d)
    (h : exec.verifyCandidate request response d = (.ok verified, d')) :
    exec.verdict request cs response = .ok verified ∧
      Stands privacy (lowestOffer cs) selected fallbackUsed d' := by
  unfold verifyCandidate at h
  unfold verdict
  cases hverifier : exec.verifySymbol with
  | none =>
    rw [hverifier] at h
    cases h
    exact ⟨rfl, hd⟩
  | some verifier =>
    rw [hverifier] at h
    obtain ⟨runner, t, hrunner, h⟩ := Effect.bind_eq_ok_iff.mp h
    obtain ⟨rfl, ht⟩ := acceptedRunnerBySymbol_spec hfound hd hrunner
    dsimp only
    cases hfind : cs.find? (·.symbol = verifier) with
    | none =>
      rw [hfind] at h
      cases h
      exact ⟨rfl, ht⟩
    | some candidate =>
      rw [hfind] at h
      obtain ⟨check, t', hasked, hlast⟩ := Effect.bind_eq_ok_iff.mp h
      obtain ⟨hcheck, rfl⟩ := Effect.ofExcept_eq_ok_iff.mp hasked
      cases hlast
      dsimp only at hcheck ⊢
      rw [hcheck]
      exact ⟨rfl, ht⟩

/-! ## Names -/

/-- The decision names the author of the answer, and marks the fallback as used exactly when the
author is the policy's fallback. -/
def Names (exec : MarketExecutor Mode Score Runner) (answer : Answer Mode)
    (decision : MarketDecision Mode Score Runner) : Prop :=
  decision.selectedRunner = some answer.author ∧
    (decision.fallbackUsed.isSome ↔ exec.policy.fallback = some answer.author)

/-- The response of the author does not escalate, or the author has made the lowest offer. -/
def Credited (exec : MarketExecutor Mode Score Runner)
    (cs : List (MarketCandidate Mode Score Runner)) (author : Symbol)
    (response : ModelResponse Mode) : Prop :=
  exec.escalates response = false ∨ (leastBy (·.score) cs).map (·.symbol) = some author

theorem names_iff {answer : Answer Mode} (hd : Stands privacy lowest selected fallbackUsed d) :
    exec.Names answer d ↔ selected.or (lowest.map Prod.snd) = some answer.author ∧
      (fallbackUsed.isSome ↔ exec.policy.fallback = some answer.author) := by
  rw [Names, selectedRunner_of_stands hd, hd.2.2.1]

theorem lowestOffer_symbol (cs : List (MarketCandidate Mode Score Runner)) :
    (lowestOffer cs).map Prod.snd = (leastBy (·.score) cs).map (·.symbol) := by
  rw [lowestOffer_eq, Option.map_map]
  rfl

/-- What a first realization leaves selected names its candidate when it is credited. -/
theorem selectedBy_eq_iff {candidate : MarketCandidate Mode Score Runner}
    {response : ModelResponse Mode} :
    (selectedBy exec candidate response none).or ((lowestOffer cs).map Prod.snd) =
        some candidate.symbol ↔
      exec.Credited cs candidate.symbol response := by
  rw [selectedBy, Credited, lowestOffer_symbol]
  cases exec.escalates response with
  | true => simp
  | false => simp

end Spec

/-! ## When the author is named -/

section When
variable (cs : List (MarketCandidate Mode Score Runner))

/-- The fallback is credited when it is asked again. -/
def AgainCredited (fallback : MarketCandidate Mode Score Runner) : Prop :=
  ∀ response, exec.answer request .fallbackAgain fallback = .ok response →
    exec.Credited cs fallback.symbol response

/-- The selected runner is not the fallback; and where a fallback steps in for it, the last answer
of the fallback is credited. -/
def SelectNames : Prop :=
  ∀ selected, leastBy (·.score) cs = some selected →
    match exec.fallbackOf cs (some selected.symbol), exec.answer request .select selected with
    | none, _ => exec.policy.fallback ≠ some selected.symbol
    | some fallback, .ok response =>
      isRetryableError response = true → exec.AgainCredited request cs fallback
    | some fallback, .error _ =>
      ∀ response, exec.answer request .fallback fallback = .ok response →
        if isRetryableError response then exec.AgainCredited request cs fallback
        else exec.Credited cs fallback.symbol response

/-- The candidate answers, and its answer does not escalate. -/
def settles (phase : Phase) (candidate : MarketCandidate Mode Score Runner) : Bool :=
  match exec.answer request phase candidate with
  | .ok response => !exec.escalates response
  | .error _ => false

def raceOrder : List (MarketCandidate Mode Score Runner) :=
  sortBy (fun candidate => toLex (candidate.latencyMs exec.numbers, candidate.score)) cs

/-- What the fallback answers at the end is credited. -/
def FallbackCredited (order : List (MarketCandidate Mode Score Runner)) : Prop :=
  ∀ fallback response, exec.fallbackOf order none = some fallback →
    exec.answer request .fallback fallback = .ok response →
    exec.Credited cs fallback.symbol response

/-- The winner is not the fallback; without a winner, the fallback is credited. -/
def RaceNames : Prop :=
  match (exec.raceOrder cs).find? (exec.settles request .race) with
  | some winner => exec.policy.fallback ≠ some winner.symbol
  | none => exec.FallbackCredited request cs (exec.raceOrder cs)

def answers (phase : Phase) (candidate : MarketCandidate Mode Score Runner) : Bool :=
  (exec.answer request phase candidate).isOk

/-- The fallback is not asked in vain before another one settles; without one that settles, the
fallback is credited, or without a fallback the last that answers has made the lowest offer. -/
def EscalateNames : Prop :=
  let order := sortBy (·.score) cs
  match order.find? (exec.settles request .escalate) with
  | some winner =>
    (∃ earlier ∈ order.takeWhile fun candidate => !exec.settles request .escalate candidate,
      exec.policy.fallback = some earlier.symbol) → exec.policy.fallback = some winner.symbol
  | none =>
    match exec.fallbackOf order none with
    | some _ => exec.FallbackCredited request cs order
    | none => ∀ last, (order.filter (exec.answers request .escalate)).getLast? = some last →
      (leastBy (·.score) cs).map (·.symbol) = some last.symbol

/-- The answer of the expensive branch is credited, and the branch is not the fallback. -/
def ExpensiveNames (expensive : MarketCandidate Mode Score Runner) : Prop :=
  ∀ response, exec.answer request .speculateExpensive expensive = .ok response →
    exec.Credited cs expensive.symbol response ∧ exec.policy.fallback ≠ some expensive.symbol

/-- The cheap branch is verified and not the fallback; or its answer escalates or fails, and the
expensive branch is credited and not the fallback. -/
def SpeculateNames : Prop :=
  match sortBy (·.score) (cs.filter exec.isBranch) with
  | [] => True
  | cheap :: later =>
    match exec.answer request .speculateCheap cheap with
    | .ok response =>
      if exec.escalates response then exec.ExpensiveNames request cs (later.headD cheap)
      else exec.verdict request cs response = .ok true ∧
        exec.policy.fallback ≠ some cheap.symbol
    | .error _ => exec.ExpensiveNames request cs (later.headD cheap)

/-- The judge is not the fallback. -/
def DebateNames : Prop := exec.policy.fallback ≠ exec.judgeSymbol

def parallelRows (deadline : Option Nanos) :
    List (MarketCandidate Mode Score Runner × FanoutRow (ModelResponse Mode)) :=
  let candidates := cs.filter exec.isBranch
  let seats := candidates.map fun candidate => (candidate.symbol.display, candidate.runner)
  candidates.zip (exec.fanout exec.fanoutMode seats deadline request)

/-- The first response names the runner of its seat, and that is not the fallback. -/
def ParallelNames : Prop :=
  ∀ deadline first, exec.policyDeadline = .ok deadline →
    ((exec.parallelRows request cs deadline).filterMap rowAnswer).head? = some first →
    first.response.runner = first.author ∧ exec.policy.fallback ≠ some first.author

def IfBranching (names : Prop) : Prop :=
  if requestAllowsBranching request then names else exec.SelectNames request cs

def ModeNames : String → Prop
  | "race" => exec.IfBranching request cs (exec.RaceNames request cs)
  | "speculate" => exec.IfBranching request cs (exec.SpeculateNames request cs)
  | "debate" => exec.IfBranching request cs exec.DebateNames
  | "escalate" => exec.EscalateNames request cs
  | "parallel-all" | "parallel-first-good" | "parallel-quorum" =>
    exec.IfBranching request cs (exec.ParallelNames request cs)
  | _ => exec.SelectNames request cs

/-- What makes the decision name the author of the answer. -/
def NamesAuthor (privacy : PrivacyPolicy) : Prop :=
  ∀ cs, exec.found request privacy = .ok cs → exec.ModeNames request cs exec.executionMode

end When

/-! ## The modes -/

section Modes
variable {exec} {request} {privacy : PrivacyPolicy} {cs : List (MarketCandidate Mode Score Runner)}
  {d d' : MarketDecision Mode Score Runner} {answer : Answer Mode}

omit [LinearOrder Score] in
theorem fallbackOf_ne {candidate : MarketCandidate Mode Score Runner} {symbol : Symbol}
    (h : exec.fallbackOf cs (some symbol) = some candidate) :
    exec.policy.fallback ≠ some symbol := by
  obtain ⟨fallback, hfallback, h⟩ := Option.bind_eq_some_iff.mp h
  rw [hfallback]
  split at h
  · cases h
  · next hne => exact fun heq => hne heq.symm

theorem escalates_of_retryable {response : ModelResponse Mode}
    (h : isRetryableError response = true) : exec.escalates response = true := by
  simp [escalates, responseShouldEscalate, h]

/-- An answer of the fallback, when nothing was selected before it. -/
theorem names_fallback {fallback : MarketCandidate Mode Score Runner}
    {response : ModelResponse Mode} (hfallback : exec.policy.fallback = some fallback.symbol)
    (hauthor : answer.author = fallback.symbol)
    (hd : Stands privacy (lowestOffer cs) (exec.selectedBy fallback response none)
      (some fallback.symbol) d) :
    exec.Names answer d ↔ exec.Credited cs fallback.symbol response := by
  rw [names_iff hd, hauthor, selectedBy_eq_iff, hfallback]
  simp

/-- An answer of another candidate, when nothing was selected before it. -/
theorem names_candidate {candidate : MarketCandidate Mode Score Runner}
    {response : ModelResponse Mode} (hauthor : answer.author = candidate.symbol)
    (hd : Stands privacy (lowestOffer cs) (exec.selectedBy candidate response none) none d) :
    exec.Names answer d ↔ exec.Credited cs candidate.symbol response ∧
      exec.policy.fallback ≠ some candidate.symbol := by
  rw [names_iff hd, hauthor, selectedBy_eq_iff]
  simp

theorem fallbackCredited_iff {order : List (MarketCandidate Mode Score Runner)}
    {fallback : MarketCandidate Mode Score Runner} {response : ModelResponse Mode}
    (hfallback : exec.fallbackOf order none = some fallback)
    (hanswer : exec.answer request .fallback fallback = .ok response) :
    exec.FallbackCredited request cs order ↔ exec.Credited cs fallback.symbol response := by
  constructor
  · intro h
    exact h fallback response hfallback hanswer
  · intro h fallback' response' hfallback' hanswer'
    cases hfallback.symm.trans hfallback'
    cases hanswer.symm.trans hanswer'
    exact h

/-! ### Select -/

theorem orRetried_spec {selected : MarketCandidate Mode Score Runner}
    {lowest : Option (Score × Symbol)} {chosen used : Option Symbol} {answer' : Answer Mode}
    (hd : Stands privacy lowest chosen used d)
    (h : exec.orRetried request cs selected answer d = (.ok answer', d')) :
    ((isRetryableError answer.response = false ∨
          exec.fallbackOf cs (some selected.symbol) = none) ∧
        answer' = answer ∧ Stands privacy lowest chosen used d') ∨
      isRetryableError answer.response = true ∧
        ∃ fallback response, exec.fallbackOf cs (some selected.symbol) = some fallback ∧
          exec.answer request .fallbackAgain fallback = .ok response ∧
          answer' = ⟨response, fallback.symbol⟩ ∧
          Stands privacy lowest (exec.selectedBy fallback response chosen)
            (some fallback.symbol) d' := by
  unfold orRetried at h
  split at h
  · next hretryable =>
    obtain ⟨result, t, hresult, hlast⟩ := Effect.bind_eq_ok_iff.mp h
    obtain ⟨hnone, rfl, ht⟩ | ⟨fallback, response, hfallback, hanswer, rfl, ht⟩ :=
      realizeFallback_spec hd hresult
    · cases hlast
      exact .inl ⟨.inr hnone, rfl, ht⟩
    · cases hlast
      exact .inr ⟨hretryable, fallback, response, hfallback, hanswer, rfl, ht⟩
  · next hretryable =>
    cases h
    exact .inl ⟨.inl (by simpa using hretryable), rfl, hd⟩

/-- What the last answer of a fallback that has stepped in comes to. -/
theorem orFallback_spec {selected : MarketCandidate Mode Score Runner} {e : Error}
    {lowest : Option (Score × Symbol)} (hd : Stands privacy lowest none none d)
    (h : exec.orFallback request cs selected (.error e) d = (.ok answer, d')) :
    ∃ fallback response, exec.fallbackOf cs (some selected.symbol) = some fallback ∧
      exec.answer request .fallback fallback = .ok response ∧
      answer = ⟨response, fallback.symbol⟩ ∧
      Stands privacy lowest (exec.selectedBy fallback response none)
        (some fallback.symbol) d' := by
  obtain ⟨_, t, hfail, hrest⟩ := Effect.bind_eq_ok_iff.mp h
  cases hfail
  obtain ⟨result, t', hresult, hlast⟩ := Effect.bind_eq_ok_iff.mp hrest
  have hfailed : Stands privacy lowest none none
      (d.addFailure selected.symbol (exec.errorText e)) := hd
  obtain ⟨-, rfl, -⟩ | ⟨fallback, response, hfallback, hanswer, rfl, ht⟩ :=
    realizeFallback_spec hfailed hresult
  · cases hlast
  · cases hlast
    exact ⟨fallback, response, hfallback, hanswer, rfl, ht⟩

theorem executeSelect_names (hd : Fresh privacy d)
    (h : exec.executeSelect request d = (.ok answer, d')) :
    ∃ cs, exec.found request privacy = .ok cs ∧
      (exec.Names answer d' ↔ exec.SelectNames request cs) := by
  obtain ⟨cs, t, hcs, h⟩ := Effect.bind_eq_ok_iff.mp h
  obtain ⟨hfound, ht⟩ := candidates_first hd hcs
  refine ⟨cs, hfound, ?_⟩
  unfold SelectNames
  cases hleast : leastBy (·.score) cs with
  | none =>
    rw [hleast] at h
    cases h
  | some selected =>
    rw [hleast] at h
    dsimp only at h
    obtain ⟨first, t₁, hfirst, h⟩ := Effect.bind_eq_ok_iff.mp h
    obtain ⟨second, t₂, hsecond, h⟩ := Effect.bind_eq_ok_iff.mp h
    obtain ⟨third, t₃, hthird, h⟩ := Effect.bind_eq_ok_iff.mp h
    simp only [Option.some.injEq, forall_eq']
    obtain ⟨e, hanswer, rfl, ht₁⟩ | ⟨response, hanswer, rfl, ht₁⟩ := attempt_spec ht hfirst
    · obtain ⟨fallback, response, hfallback, hanswer', rfl, ht₂⟩ := orFallback_spec ht₁ hsecond
      have hpolicy := fallbackOf_symbol hfallback
      rw [hfallback, hanswer]
      simp only [hanswer', Except.ok.injEq, forall_eq']
      obtain ⟨hkept, rfl, ht₃⟩ | ⟨hretryable, f, again, hf, hagain, rfl, ht₃⟩ :=
        orRetried_spec ht₂ hthird
      · obtain hretryable | hnone := hkept
        · obtain ⟨hauthor, hd'⟩ := verifySelected_spec hfound ht₃ h
          rw [names_fallback hpolicy hauthor hd', if_neg (by simpa using hretryable)]
        · cases hnone.symm.trans hfallback
      · cases hf.symm.trans hfallback
        rw [selectedBy, selectedBy, escalates_of_retryable hretryable, if_pos rfl] at ht₃
        obtain ⟨hauthor, hd'⟩ := verifySelected_spec hfound ht₃ h
        rw [names_fallback hpolicy hauthor hd', if_pos hretryable]
        simp [AgainCredited, hagain]
    · cases hsecond
      rw [hanswer]
      have hlowest : exec.Credited cs selected.symbol response := by
        right
        rw [hleast]
        rfl
      obtain ⟨hkept, rfl, ht₃⟩ | ⟨hretryable, f, again, hf, hagain, rfl, ht₃⟩ :=
        orRetried_spec ht₁ hthird
      · obtain ⟨hauthor, hd'⟩ := verifySelected_spec hfound ht₃ h
        rw [names_candidate hauthor hd', and_iff_right hlowest]
        cases hfallback : exec.fallbackOf cs (some selected.symbol) with
        | none => rfl
        | some fallback =>
          obtain hretryable | hnone := hkept
          · exact iff_of_true (fallbackOf_ne hfallback)
              (fun hretryable' => by rw [hretryable] at hretryable'; cases hretryable')
          · cases hnone.symm.trans hfallback
      · rw [selectedBy, selectedBy, escalates_of_retryable hretryable, if_pos rfl] at ht₃
        obtain ⟨hauthor, hd'⟩ := verifySelected_spec hfound ht₃ h
        rw [names_fallback (fallbackOf_symbol hf) hauthor hd', hf]
        simp [AgainCredited, hagain, hretryable]

/-- A mode that is left for select, or entered with a fresh decision. -/
theorem ifBranching_names {execution : Deciding Mode Score Runner (Answer Mode)}
    {names : List (MarketCandidate Mode Score Runner) → Prop} (hd : Fresh privacy d)
    (hexecution : execution d = (.ok answer, d') →
      ∃ cs, exec.found request privacy = .ok cs ∧ (exec.Names answer d' ↔ names cs))
    (h : exec.ifBranching request execution d = (.ok answer, d')) :
    ∃ cs, exec.found request privacy = .ok cs ∧
      (exec.Names answer d' ↔ exec.IfBranching request cs (names cs)) := by
  unfold ifBranching at h
  unfold IfBranching
  split at h
  · next hbranching =>
    simp only [if_pos hbranching]
    exact hexecution h
  · next hbranching =>
    simp only [if_neg hbranching]
    obtain ⟨_, t, hfailure, hselect⟩ := Effect.bind_eq_ok_iff.mp h
    cases hfailure
    have hfresh : Fresh privacy (d.addFailure (.qualified "runner" "market")
        "non-idempotent tool continuation used select execution") := hd
    exact executeSelect_names hfresh hselect

/-! ### Race -/

theorem settles_ok {phase : Phase} {candidate : MarketCandidate Mode Score Runner}
    {response : ModelResponse Mode}
    (h : exec.answer request phase candidate = .ok response) :
    exec.settles request phase candidate = !exec.escalates response := by
  rw [settles, h]

theorem settles_error {phase : Phase} {candidate : MarketCandidate Mode Score Runner} {e : Error}
    (h : exec.answer request phase candidate = .error e) :
    exec.settles request phase candidate = false := by
  rw [settles, h]

/-- Recording that others were cancelled changes nothing that matters. -/
theorem stands_cancelled {lowest : Option (Score × Symbol)} {chosen used : Option Symbol}
    (later : List (MarketCandidate Mode Score Runner)) (reason : String)
    (hd : Stands privacy lowest chosen used d) :
    Stands privacy lowest chosen used (later.foldl
      (fun decision cancelled => decision.addCancelled cancelled.symbol reason) d) := by
  induction later generalizing d with
  | nil => exact hd
  | cons cancelled later ih => exact ih hd

/-- The race ends at the first candidate that settles. -/
theorem raceFrom_spec {order : List (MarketCandidate Mode Score Runner)} {lastError : Option Error}
    {lowest : Option (Score × Symbol)} {result : Answer Mode ⊕ Option Error}
    (hd : Stands privacy lowest none none d)
    (h : exec.raceFrom request order lastError d = (.ok result, d')) :
    match order.find? (exec.settles request .race) with
    | some winner => ∃ response, result = .inl ⟨response, winner.symbol⟩ ∧
        exec.escalates response = false ∧
        Stands privacy lowest (exec.selectedBy winner response none) none d'
    | none => (∃ lastError, result = .inr lastError) ∧ Stands privacy lowest none none d' := by
  induction order generalizing d lastError with
  | nil =>
    cases h
    exact ⟨⟨lastError, rfl⟩, hd⟩
  | cons candidate later ih =>
    rw [raceFrom] at h
    obtain ⟨first, t, hfirst, hrest⟩ := Effect.bind_eq_ok_iff.mp h
    obtain ⟨e, hanswer, rfl, ht⟩ | ⟨response, hanswer, rfl, ht⟩ := attempt_spec hd hfirst
    · rw [List.find?_cons_of_neg (by simp [settles_error hanswer])]
      obtain ⟨_, t', hfail, hlater⟩ := Effect.bind_eq_ok_iff.mp hrest
      cases hfail
      have hfailed : Stands privacy lowest none none
          (t.addFailure candidate.symbol (exec.errorText e)) := ht
      exact ih hfailed hlater
    · dsimp only at hrest
      rw [selectedBy] at ht
      split at hrest
      · next hescalates =>
        rw [if_pos hescalates] at ht
        rw [List.find?_cons_of_neg (by simp [settles_ok hanswer, hescalates])]
        obtain ⟨_, t', hreject, hlater⟩ := Effect.bind_eq_ok_iff.mp hrest
        cases hreject
        have hrejected : Stands privacy lowest none none (t.addFailure candidate.symbol
            ((responseFailureReason exec.numbers response).getD "response rejected")) := ht
        exact ih hrejected hlater
      · next hescalates =>
        rw [List.find?_cons_of_pos (by simp [settles_ok hanswer, hescalates])]
        obtain ⟨_, t', hcancelled, hlast⟩ := Effect.bind_eq_ok_iff.mp hrest
        cases hcancelled
        cases hlast
        exact ⟨response, rfl, by simpa using hescalates, stands_cancelled later _ ht⟩

theorem executeRace_names (hd : Fresh privacy d)
    (h : exec.executeRace request d = (.ok answer, d')) :
    ∃ cs, exec.found request privacy = .ok cs ∧
      (exec.Names answer d' ↔ exec.IfBranching request cs (exec.RaceNames request cs)) := by
  refine ifBranching_names hd (fun h => ?_) h
  obtain ⟨cs, t, hcs, h⟩ := Effect.bind_eq_ok_iff.mp h
  obtain ⟨hfound, ht⟩ := candidates_first hd hcs
  refine ⟨cs, hfound, ?_⟩
  obtain ⟨result, t', hrace, hrest⟩ := Effect.bind_eq_ok_iff.mp h
  have hrun : exec.raceFrom request (exec.raceOrder cs) none t = (.ok result, t') := hrace
  have hspec := raceFrom_spec ht hrun
  unfold RaceNames
  cases hfind : (exec.raceOrder cs).find? (exec.settles request .race) with
  | some winner =>
    rw [hfind] at hspec
    obtain ⟨response, rfl, hescalates, ht'⟩ := hspec
    cases hrest
    exact (names_candidate rfl ht').trans (and_iff_right (.inl hescalates))
  | none =>
    rw [hfind] at hspec
    obtain ⟨⟨lastError, rfl⟩, ht'⟩ := hspec
    obtain ⟨result', t'', hasked, hlast⟩ := Effect.bind_eq_ok_iff.mp hrest
    obtain ⟨-, rfl, -⟩ | ⟨fallback, response, hfallback, hanswer, rfl, ht''⟩ :=
      realizeFallback_spec ht' hasked
    · cases hlast
    · cases hlast
      have hfallback' : exec.fallbackOf (exec.raceOrder cs) none = some fallback := hfallback
      rw [names_fallback (fallbackOf_symbol hfallback) rfl ht'',
        fallbackCredited_iff hfallback' hanswer]

/-! ### Escalation -/

/-- The fallback is among the candidates. -/
def Marked (exec : MarketExecutor Mode Score Runner)
    (asked : List (MarketCandidate Mode Score Runner)) : Prop :=
  ∃ candidate ∈ asked, exec.policy.fallback = some candidate.symbol

omit [LinearOrder Score] in
theorem not_marked {order : List (MarketCandidate Mode Score Runner)}
    (h : exec.fallbackOf order none = none) : ¬exec.Marked order := by
  rintro ⟨candidate, hmem, hfallback⟩
  rw [fallbackOf, hfallback] at h
  have hnone : order.find? (·.symbol = candidate.symbol) = none := h
  have hall := List.find?_eq_none.mp hnone candidate hmem
  simp at hall

theorem stands_marked (exec : MarketExecutor Mode Score Runner)
    (candidate : MarketCandidate Mode Score Runner) {lowest : Option (Score × Symbol)}
    {chosen used : Option Symbol} (hd : Stands privacy lowest chosen used d) :
    ∃ used', (used'.isSome ↔ used.isSome ∨ exec.policy.fallback = some candidate.symbol) ∧
      Stands privacy lowest chosen used' (exec.markFallback candidate d) := by
  unfold markFallback
  split
  · next hfallback =>
    exact ⟨some candidate.symbol, by simp [hfallback], hd.1, hd.2.1, rfl, hd.2.2.2⟩
  · next hfallback => exact ⟨used, by simp [hfallback], hd⟩

/-- The last answer of candidates that all fail or escalate. -/
def lastAnswer (exec : MarketExecutor Mode Score Runner) (request : ModelRequest Mode)
    (order : List (MarketCandidate Mode Score Runner)) (before : Option Symbol) : Option Symbol :=
  ((order.filter (exec.answers request .escalate)).getLast?.map (·.symbol)).or before

omit [LinearOrder Score] in
theorem lastAnswer_cons (order : List (MarketCandidate Mode Score Runner))
    (candidate : MarketCandidate Mode Score Runner) (before : Option Symbol) :
    exec.lastAnswer request (candidate :: order) before = exec.lastAnswer request order
      (if exec.answers request .escalate candidate then some candidate.symbol else before) := by
  unfold lastAnswer
  cases hanswers : exec.answers request .escalate candidate with
  | true =>
    rw [List.filter_cons_of_pos hanswers, List.getLast?_cons]
    cases (order.filter (exec.answers request .escalate)).getLast? with
    | none => rfl
    | some last => rfl
  | false =>
    rw [List.filter_cons_of_neg (by simp [hanswers])]
    rfl

omit [LinearOrder Score] in
theorem marked_cons {candidate : MarketCandidate Mode Score Runner}
    {asked : List (MarketCandidate Mode Score Runner)} :
    exec.Marked (candidate :: asked) ↔
      exec.policy.fallback = some candidate.symbol ∨ exec.Marked asked := by
  simp [Marked]

/-- How an escalation ends: with the first candidate that settles, or when all were asked. -/
def Escalated (exec : MarketExecutor Mode Score Runner) (request : ModelRequest Mode)
    (privacy : PrivacyPolicy) (lowest : Option (Score × Symbol))
    (order : List (MarketCandidate Mode Score Runner)) (before used : Option Symbol)
    (result : Answer Mode ⊕ Option (Answer Mode) × Option Error)
    (d : MarketDecision Mode Score Runner) : Prop :=
  match order.find? (exec.settles request .escalate) with
  | some winner => ∃ response used', result = .inl ⟨response, winner.symbol⟩ ∧
      exec.escalates response = false ∧
      (used'.isSome ↔ used.isSome ∨ exec.policy.fallback = some winner.symbol ∨
        exec.Marked (order.takeWhile fun candidate =>
          !exec.settles request .escalate candidate)) ∧
      Stands privacy lowest (exec.selectedBy winner response none) used' d
  | none => ∃ last error used', result = .inr (last, error) ∧
      last.map (·.author) = exec.lastAnswer request order before ∧
      (used'.isSome ↔ used.isSome ∨ exec.Marked order) ∧
      Stands privacy lowest none used' d

theorem Escalated.cons {candidate : MarketCandidate Mode Score Runner}
    {later : List (MarketCandidate Mode Score Runner)} {lowest : Option (Score × Symbol)}
    {before used used₀ : Option Symbol}
    {result : Answer Mode ⊕ Option (Answer Mode) × Option Error}
    (hsettles : exec.settles request .escalate candidate = false)
    (hused : used₀.isSome ↔ used.isSome ∨ exec.policy.fallback = some candidate.symbol)
    (h : Escalated exec request privacy lowest later
      (if exec.answers request .escalate candidate then some candidate.symbol else before) used₀
      result d) :
    Escalated exec request privacy lowest (candidate :: later) before used result d := by
  unfold Escalated at h ⊢
  rw [List.find?_cons_of_neg (by simp [hsettles])]
  cases hfind : later.find? (exec.settles request .escalate) with
  | some winner =>
    rw [hfind] at h
    obtain ⟨response, used', hresult, hescalates, hused', hd⟩ := h
    refine ⟨response, used', hresult, hescalates, ?_, hd⟩
    rw [hused', hused, List.takeWhile_cons_of_pos (by simp [hsettles]), marked_cons, or_assoc]
    exact or_congr_right or_left_comm
  | none =>
    rw [hfind] at h
    obtain ⟨last, error, used', hresult, hlast, hused', hd⟩ := h
    refine ⟨last, error, used', hresult, hlast.trans (lastAnswer_cons _ _ _).symm, ?_, hd⟩
    rw [hused', hused, marked_cons, or_assoc]

theorem escalateFrom_spec {order : List (MarketCandidate Mode Score Runner)}
    {lastResponse : Option (Answer Mode)} {lastError : Option Error}
    {lowest : Option (Score × Symbol)} {used : Option Symbol}
    {result : Answer Mode ⊕ Option (Answer Mode) × Option Error}
    (hd : Stands privacy lowest none used d)
    (h : exec.escalateFrom request order lastResponse lastError d = (.ok result, d')) :
    Escalated exec request privacy lowest order (lastResponse.map (·.author)) used result d' := by
  induction order generalizing d lastResponse lastError used with
  | nil =>
    cases h
    exact ⟨lastResponse, lastError, used, rfl, rfl, by simp [Marked], hd⟩
  | cons candidate later ih =>
    rw [escalateFrom] at h
    obtain ⟨_, t₀, hmark, h⟩ := Effect.bind_eq_ok_iff.mp h
    cases hmark
    obtain ⟨used₀, hused₀, ht₀⟩ := stands_marked exec candidate hd
    obtain ⟨first, t, hfirst, hrest⟩ := Effect.bind_eq_ok_iff.mp h
    obtain ⟨e, hanswer, rfl, ht⟩ | ⟨response, hanswer, rfl, ht⟩ := attempt_spec ht₀ hfirst
    · obtain ⟨_, t', hfail, hlater⟩ := Effect.bind_eq_ok_iff.mp hrest
      cases hfail
      have hfailed : Stands privacy lowest none used₀
          (t.addFailure candidate.symbol (exec.errorText e)) := ht
      refine .cons (settles_error hanswer) hused₀ ?_
      rw [answers, hanswer]
      exact ih hfailed hlater
    · dsimp only at hrest
      rw [selectedBy] at ht
      split at hrest
      · next hescalates =>
        rw [if_pos hescalates] at ht
        obtain ⟨_, t', hreject, hlater⟩ := Effect.bind_eq_ok_iff.mp hrest
        cases hreject
        have hrejected : Stands privacy lowest none used₀ (t.addFailure candidate.symbol
            ((responseFailureReason exec.numbers response).getD
              "escalation condition matched")) := ht
        refine .cons (by simp [settles_ok hanswer, hescalates]) hused₀ ?_
        rw [answers, hanswer]
        exact ih hrejected hlater
      · next hescalates =>
        cases hrest
        have hsettles : exec.settles request .escalate candidate = true := by
          simp [settles_ok hanswer, hescalates]
        unfold Escalated
        rw [List.find?_cons_of_pos hsettles]
        refine ⟨response, used₀, rfl, by simpa using hescalates, ?_, ?_⟩
        · rw [hused₀, List.takeWhile_cons_of_neg (by simp [hsettles])]
          simp [Marked]
        · rwa [selectedBy]

theorem executeEscalate_names (hd : Fresh privacy d)
    (h : exec.executeEscalate request d = (.ok answer, d')) :
    ∃ cs, exec.found request privacy = .ok cs ∧
      (exec.Names answer d' ↔ exec.EscalateNames request cs) := by
  obtain ⟨cs, t, hcs, h⟩ := Effect.bind_eq_ok_iff.mp h
  obtain ⟨hfound, ht⟩ := candidates_first hd hcs
  refine ⟨cs, hfound, ?_⟩
  obtain ⟨result, t', hrun, hrest⟩ := Effect.bind_eq_ok_iff.mp h
  have hspec := escalateFrom_spec ht hrun
  unfold EscalateNames
  unfold Escalated at hspec
  dsimp only
  cases hfind : (sortBy (·.score) cs).find? (exec.settles request .escalate) with
  | some winner =>
    rw [hfind] at hspec
    obtain ⟨response, used, rfl, hescalates, hused, ht'⟩ := hspec
    cases hrest
    rw [names_iff ht', selectedBy_eq_iff, and_iff_right (.inl hescalates), hused]
    simp only [Option.isSome_none, Bool.false_eq_true, false_or, Marked]
    exact or_iff_left_iff_imp
  | none =>
    rw [hfind] at hspec
    obtain ⟨last, error, used, rfl, hlast, hused, ht'⟩ := hspec
    obtain ⟨result', t'', hasked, hrest⟩ := Effect.bind_eq_ok_iff.mp hrest
    obtain ⟨hnone, rfl, ht''⟩ | ⟨fallback, response, hfallback, hanswer, rfl, ht''⟩ :=
      realizeFallback_spec ht' hasked
    · rw [hnone]
      cases last with
      | none => cases hrest
      | some lastAnswered =>
        cases hrest
        have hunmarked := not_marked hnone
        obtain ⟨last, hlast', hauthor⟩ : ∃ last,
            ((sortBy (·.score) cs).filter (exec.answers request .escalate)).getLast? = some last ∧
              last.symbol = answer.author := by
          rw [lastAnswer, Option.map_none, Option.or_none] at hlast
          exact Option.map_eq_some_iff.mp hlast.symm
        have hmem : last ∈ sortBy (·.score) cs :=
          List.mem_of_mem_filter (List.mem_of_getLast? hlast')
        have hnot : exec.policy.fallback ≠ some answer.author := by
          intro hfallback
          exact hunmarked ⟨last, hmem, hauthor ▸ hfallback⟩
        rw [names_iff ht'', lowestOffer_symbol, hused, hlast']
        simp only [Option.none_or, Option.isSome_none, Bool.false_eq_true, false_or, hunmarked,
          hnot, and_true, Option.some.injEq, forall_eq', hauthor]
    · cases hrest
      rw [hfallback, names_fallback (fallbackOf_symbol hfallback) rfl ht'',
        fallbackCredited_iff hfallback hanswer]

/-! ### Speculation -/

/-- What the expensive branch leaves behind. -/
theorem askExpensive_spec {cheap expensive : MarketCandidate Mode Score Runner}
    {lowest : Option (Score × Symbol)} {other : Option (Except Error (Answer Mode))}
    (hd : Stands privacy lowest none none d)
    (h : exec.askExpensive request cheap expensive d = (.ok other, d')) :
    ∃ chosen, Stands privacy lowest chosen none d' ∧ ∀ answer, other = some (.ok answer) →
      expensive.symbol ≠ cheap.symbol ∧ ∃ response,
        exec.answer request .speculateExpensive expensive = .ok response ∧
        answer = ⟨response, expensive.symbol⟩ ∧
        chosen = exec.selectedBy expensive response none := by
  unfold askExpensive at h
  split at h
  · cases h
    exact ⟨none, hd, nofun⟩
  · next hne =>
    obtain ⟨x, t, hx, hlast⟩ := Effect.bind_eq_ok_iff.mp h
    cases hlast
    obtain ⟨e, -, rfl, ht⟩ | ⟨response, hanswer, rfl, ht⟩ := attempt_spec hd hx
    · exact ⟨none, ht, nofun⟩
    · refine ⟨_, ht, ?_⟩
      rintro _ hgiven
      cases hgiven
      exact ⟨hne, response, hanswer, rfl, rfl⟩

/-- Where the expensive branch answers in place of the cheap one. -/
theorem expensive_names {expensive : MarketCandidate Mode Score Runner}
    {response : ModelResponse Mode}
    (hanswer : exec.answer request .speculateExpensive expensive = .ok response)
    (hd : Stands privacy (lowestOffer cs) (exec.selectedBy expensive response none) none d) :
    exec.Names ⟨response, expensive.symbol⟩ d ↔ exec.ExpensiveNames request cs expensive := by
  rw [names_candidate rfl hd, ExpensiveNames]
  simp [hanswer]

omit [LinearOrder Score] in
theorem expensiveOr_eq_ok {other : Option (Except Error (Answer Mode))} {e : Error}
    (h : (Effect.ofExcept (expensiveOr other e) : Deciding Mode Score Runner (Answer Mode)) d =
      (.ok answer, d')) : other = some (.ok answer) ∧ d' = d := by
  obtain ⟨hother, rfl⟩ := Effect.ofExcept_eq_ok_iff.mp h
  cases other with
  | none => cases hother
  | some x => exact ⟨congrArg some hother, rfl⟩

/-- How a speculation ends once both branches have been asked: with the cheap branch, verified, or
with the expensive one in its place. -/
theorem settleCheap_spec {cheap expensive : MarketCandidate Mode Score Runner}
    {other : Option (Except Error (Answer Mode))} {chosen : Option Symbol}
    {first : Except Error (Answer Mode)} (hfound : exec.found request privacy = .ok cs)
    (hd : Stands privacy (lowestOffer cs) chosen none d)
    (h : exec.settleCheap request cheap expensive other first d = (.ok answer, d')) :
    (first = .ok answer ∧ exec.escalates answer.response = false ∧
        exec.verdict request cs answer.response = .ok true ∧
        Stands privacy (lowestOffer cs) (some cheap.symbol) none d') ∨
      other = some (.ok answer) ∧ Stands privacy (lowestOffer cs) chosen none d' ∧
        ∀ cheapAnswer, first = .ok cheapAnswer →
          exec.escalates cheapAnswer.response = false →
          exec.verdict request cs cheapAnswer.response = .ok false := by
  cases first with
  | error e =>
    obtain ⟨_, t, hfail, hlast⟩ := Effect.bind_eq_ok_iff.mp h
    cases hfail
    obtain ⟨hother, rfl⟩ := expensiveOr_eq_ok hlast
    exact .inr ⟨hother, hd, nofun⟩
  | ok cheapAnswer =>
    rw [settleCheap] at h
    split at h
    · next hescalates =>
      obtain ⟨_, t, hreject, hlast⟩ := Effect.bind_eq_ok_iff.mp h
      cases hreject
      obtain ⟨hother, rfl⟩ := expensiveOr_eq_ok hlast
      refine .inr ⟨hother, hd, ?_⟩
      rintro _ hcheap hsettles
      cases hcheap
      rw [hescalates] at hsettles
      cases hsettles
    · next hescalates =>
      obtain ⟨verified, t, hverified, hrest⟩ := Effect.bind_eq_ok_iff.mp h
      obtain ⟨hverdict, ht⟩ := verifyCandidate_spec hfound hd hverified
      cases verified with
      | true =>
        rw [if_pos rfl] at hrest
        obtain ⟨_, t₁, hselected, hrest⟩ := Effect.bind_eq_ok_iff.mp hrest
        cases hselected
        obtain ⟨_, t₂, hcancelled, hlast⟩ := Effect.bind_eq_ok_iff.mp hrest
        cases hcancelled
        cases hlast
        refine .inl ⟨rfl, by simpa using hescalates, hverdict, ?_⟩
        split
        · exact ⟨ht.1, rfl, ht.2.2⟩
        · exact ⟨ht.1, rfl, ht.2.2⟩
      | false =>
        rw [if_neg Bool.false_ne_true] at hrest
        obtain ⟨_, t₁, hfailed, hlast⟩ := Effect.bind_eq_ok_iff.mp hrest
        cases hfailed
        obtain ⟨hother, rfl⟩ := expensiveOr_eq_ok hlast
        refine .inr ⟨hother, ht, ?_⟩
        rintro _ hcheap -
        cases hcheap
        exact hverdict

theorem executeSpeculate_names (hd : Fresh privacy d)
    (h : exec.executeSpeculate request d = (.ok answer, d')) :
    ∃ cs, exec.found request privacy = .ok cs ∧
      (exec.Names answer d' ↔ exec.IfBranching request cs (exec.SpeculateNames request cs)) := by
  refine ifBranching_names hd (fun h => ?_) h
  obtain ⟨branch, t, hbranch, h⟩ := Effect.bind_eq_ok_iff.mp h
  obtain ⟨cs, t', hcs, hfilter⟩ := Effect.bind_eq_ok_iff.mp hbranch
  cases hfilter
  obtain ⟨hfound, ht⟩ := candidates_first hd hcs
  refine ⟨cs, hfound, ?_⟩
  unfold SpeculateNames
  cases horder : sortBy (·.score) (cs.filter exec.isBranch) with
  | nil =>
    rw [horder] at h
    cases h
  | cons cheap later =>
    rw [horder] at h
    dsimp only at h ⊢
    obtain ⟨other, t₁, hother, h⟩ := Effect.bind_eq_ok_iff.mp h
    obtain ⟨first, t₂, hfirst, h⟩ := Effect.bind_eq_ok_iff.mp h
    obtain ⟨chosen, ht₁, hexpensive⟩ := askExpensive_spec ht hother
    have hreplaced {t : MarketDecision Mode Score Runner} (hgiven : other = some (.ok answer))
        (hd' : Stands privacy (lowestOffer cs) chosen none t) :
        exec.Names answer t ↔ exec.ExpensiveNames request cs (later.headD cheap) := by
      obtain ⟨-, response, hanswer, rfl, rfl⟩ := hexpensive answer hgiven
      exact expensive_names hanswer hd'
    obtain ⟨e, hanswer, rfl, ht₂⟩ | ⟨response, hanswer, rfl, ht₂⟩ := attempt_spec ht₁ hfirst
    · rw [hanswer]
      obtain ⟨hcheap, -⟩ | ⟨hgiven, hd', -⟩ := settleCheap_spec hfound ht₂ h
      · cases hcheap
      · exact hreplaced hgiven hd'
    · rw [hanswer]
      dsimp only
      cases hescalates : exec.escalates response with
      | true =>
        rw [selectedBy, if_pos hescalates] at ht₂
        rw [if_pos rfl]
        obtain ⟨hcheap, hsettles, -⟩ | ⟨hgiven, hd', -⟩ := settleCheap_spec hfound ht₂ h
        · cases hcheap
          cases hescalates.symm.trans hsettles
        · exact hreplaced hgiven hd'
      | false =>
        rw [selectedBy, if_neg (by simp [hescalates])] at ht₂
        rw [if_neg Bool.false_ne_true]
        obtain ⟨hcheap, -, hverdict, hd'⟩ | ⟨hgiven, hd', hverdict⟩ :=
          settleCheap_spec hfound ht₂ h
        · cases hcheap
          rw [names_iff hd', and_iff_right hverdict]
          simp
        · -- the cheap branch was selected, and the expensive one answers
          obtain ⟨hne, given, -, rfl, -⟩ := hexpensive answer hgiven
          rw [names_iff hd', hverdict _ rfl hescalates]
          exact iff_of_false (fun hnamed => hne (Option.some.inj hnamed.1).symm)
            (fun hverified => nomatch hverified.1)

/-! ### Debate and parallel execution -/

theorem debateFrom_spec {order : List (MarketCandidate Mode Score Runner)}
    {lowest : Option (Score × Symbol)} {chosen used : Option Symbol}
    {answers : List (ModelResponse Mode)} (hd : Stands privacy lowest chosen used d)
    (h : exec.debateFrom request order d = (.ok answers, d')) :
    ∃ chosen, Stands privacy lowest chosen used d' := by
  induction order generalizing d chosen answers with
  | nil =>
    cases h
    exact ⟨chosen, hd⟩
  | cons candidate later ih =>
    rw [debateFrom] at h
    obtain ⟨first, t, hfirst, hrest⟩ := Effect.bind_eq_ok_iff.mp h
    obtain ⟨e, -, rfl, ht⟩ | ⟨response, -, rfl, ht⟩ := attempt_spec hd hfirst
    · obtain ⟨_, t', hfail, hlater⟩ := Effect.bind_eq_ok_iff.mp hrest
      cases hfail
      have hfailed : Stands privacy lowest chosen used
          (t.addFailure candidate.symbol (exec.errorText e)) := ht
      exact ih hfailed hlater
    · dsimp only at hrest
      split at hrest
      · obtain ⟨_, t', hreject, hlater⟩ := Effect.bind_eq_ok_iff.mp hrest
        cases hreject
        have hrejected : Stands privacy lowest (exec.selectedBy candidate response chosen) used
            (t.addFailure candidate.symbol
              ((responseFailureReason exec.numbers response).getD "debate answer rejected")) := ht
        exact ih hrejected hlater
      · obtain ⟨answers', t', hlater, hlast⟩ := Effect.bind_eq_ok_iff.mp hrest
        cases hlast
        exact ih ht hlater

/-- A decision that has selected somebody, with no fallback used. -/
theorem names_selected {lowest : Option (Score × Symbol)} {chosen : Option Symbol}
    {symbol : Symbol} (hd : Stands privacy lowest chosen none d) :
    exec.Names answer { d with selected := some symbol } ↔
      symbol = answer.author ∧ exec.policy.fallback ≠ some answer.author := by
  have hselected : Stands privacy lowest (some symbol) none { d with selected := some symbol } :=
    ⟨hd.1, rfl, hd.2.2⟩
  rw [names_iff hselected]
  simp

theorem executeDebate_names (hd : Fresh privacy d)
    (h : exec.executeDebate request d = (.ok answer, d')) :
    ∃ cs, exec.found request privacy = .ok cs ∧
      (exec.Names answer d' ↔ exec.IfBranching request cs exec.DebateNames) := by
  refine ifBranching_names hd (fun h => ?_) h
  unfold DebateNames
  cases hjudge : exec.judgeSymbol with
  | none =>
    rw [hjudge] at h
    cases h
  | some judge =>
    rw [hjudge] at h
    obtain ⟨cs, t, hcs, hrest⟩ := Effect.bind_eq_ok_iff.mp h
    obtain ⟨hfound, ht⟩ := candidates_first hd hcs
    refine ⟨cs, hfound, ?_⟩
    cases hfind : cs.find? (·.symbol = judge) with
    | none =>
      rw [hfind] at hrest
      cases hrest
    | some candidate =>
      rw [hfind] at hrest
      obtain ⟨answers, t₁, hanswers, hjudged⟩ := Effect.bind_eq_ok_iff.mp hrest
      obtain ⟨chosen, ht₁⟩ := debateFrom_spec ht hanswers
      split at hjudged
      · cases hjudged
      · obtain ⟨response, t₂, hresponse, hlast⟩ := Effect.bind_eq_ok_iff.mp hjudged
        obtain ⟨-, rfl⟩ := Effect.ofExcept_eq_ok_iff.mp hresponse
        cases hlast
        exact (names_selected ht₁).trans (and_iff_right rfl)

theorem stands_recordRow {lowest : Option (Score × Symbol)} {chosen used : Option Symbol}
    (row : MarketCandidate Mode Score Runner × FanoutRow (ModelResponse Mode))
    (hd : Stands privacy lowest chosen used d) :
    Stands privacy lowest chosen used (recordRow row d) := by
  unfold recordRow
  split
  · exact hd
  · exact hd

theorem stands_parallel {lowest : Option (Score × Symbol)} {chosen used : Option Symbol}
    (candidates : List (MarketCandidate Mode Score Runner))
    (rows : List (MarketCandidate Mode Score Runner × FanoutRow (ModelResponse Mode)))
    (hd : Stands privacy lowest chosen used d) :
    Stands privacy lowest chosen used (rows.foldl (fun decision row => recordRow row decision)
      (candidates.foldl (fun decision candidate => decision.addRun candidate.symbol "parallel")
        d)) := by
  induction candidates generalizing d with
  | cons candidate candidates ih => exact ih hd
  | nil =>
    rw [List.foldl_nil]
    induction rows generalizing d with
    | nil => exact hd
    | cons row rows ih => exact ih (stands_recordRow row hd)

theorem executeParallel_names (hd : Fresh privacy d)
    (h : exec.executeParallel request d = (.ok answer, d')) :
    ∃ cs, exec.found request privacy = .ok cs ∧
      (exec.Names answer d' ↔ exec.IfBranching request cs (exec.ParallelNames request cs)) := by
  refine ifBranching_names hd (fun h => ?_) h
  obtain ⟨branch, t, hbranch, h⟩ := Effect.bind_eq_ok_iff.mp h
  obtain ⟨cs, t', hcs, hfilter⟩ := Effect.bind_eq_ok_iff.mp hbranch
  cases hfilter
  obtain ⟨hfound, ht⟩ := candidates_first hd hcs
  refine ⟨cs, hfound, ?_⟩
  obtain ⟨deadline, t₁, hread, hplanned⟩ := Effect.bind_eq_ok_iff.mp h
  obtain ⟨hdeadline, rfl⟩ := Effect.ofExcept_eq_ok_iff.mp hread
  obtain ⟨_, t₂, hruns, hran⟩ := Effect.bind_eq_ok_iff.mp hplanned
  obtain ⟨_, t₃, hrows, hlast⟩ := Effect.bind_eq_ok_iff.mp hran
  cases hruns
  cases hrows
  have ht₃ := stands_parallel (cs.filter exec.isBranch)
    (exec.parallelRows request cs deadline) ht
  unfold ParallelNames
  simp only [hdeadline, Except.ok.injEq]
  split at hlast
  · cases hlast
  · generalize hanswers : List.filterMap rowAnswer _ = answers at hlast
    have hanswers' : (exec.parallelRows request cs deadline).filterMap rowAnswer = answers :=
      hanswers
    cases answers with
    | nil => cases hlast
    | cons first others =>
      obtain ⟨_, t₄, hselected, hpushed⟩ := Effect.bind_eq_ok_iff.mp hlast
      cases hselected
      cases hpushed
      refine (names_selected ht₃).trans ⟨?_, ?_⟩
      · rintro hnamed _ first' rfl hfirst
        rw [hanswers'] at hfirst
        cases hfirst
        exact hnamed
      · intro hall
        exact hall deadline first rfl (congrArg List.head? hanswers')

theorem execute_names (hd : Fresh privacy d) (h : exec.execute request d = (.ok answer, d')) :
    exec.Names answer d' ↔ exec.NamesAuthor request privacy := by
  have hmode : ∃ cs, exec.found request privacy = .ok cs ∧
      (exec.Names answer d' ↔ exec.ModeNames request cs exec.executionMode) := by
    unfold execute at h
    generalize exec.executionMode = mode at h ⊢
    unfold ModeNames
    split at h
    · exact executeRace_names hd h
    · exact executeSpeculate_names hd h
    · exact executeDebate_names hd h
    · exact executeEscalate_names hd h
    · exact executeParallel_names hd h
    · exact executeParallel_names hd h
    · exact executeParallel_names hd h
    · exact executeSelect_names hd h
  obtain ⟨cs, hfound, hnames⟩ := hmode
  rw [hnames]
  constructor
  · intro hmode cs' hcs'
    cases hfound.symm.trans hcs'
    exact hmode
  · intro hall
    exact hall cs hfound

/-- The decision of a market names the author of the answer, and marks the fallback exactly when it
is the author, just when `NamesAuthor` holds. -/
theorem names_author_iff {decision : MarketDecision Mode Score Runner}
    (h : exec.executeMarket request privacy = .ok (answer, decision)) :
    exec.Names answer decision ↔ exec.NamesAuthor request privacy := by
  unfold executeMarket at h
  split at h
  · next answer' d hexecute =>
    cases h
    have hfresh : Fresh privacy ({ privacy } : MarketDecision Mode Score Runner) :=
      ⟨rfl, rfl, rfl, rfl⟩
    have hnames : exec.Names answer d ↔ exec.NamesAuthor request privacy :=
      execute_names hfresh hexecute
    exact hnames
  · cases h

end Modes

end MarketExecutor

/-! ## Example -/

namespace MarketSample

def numbers : Numbers Unit Nat where
  exprF64
    | .number n => if n.canonical = "1" then some 1 else some 2
    | _ => none
  exprU64 _ := none
  add := (· + ·)
  zero := 0
  half := 1
  hundred := 100
  thousand := 1000
  max := 1000000

def reply (runner text : String) (stopReason : String) : Except Error (ModelResponse Unit) :=
  .ok ⟨.new runner, "sample", [.string text], .new stopReason, []⟩

/-- A market of a cheap and a costly runner and a checker. The checker says `verdict`, and the cheap
runner stops with the given reason. -/
def market (execution : String) (fallback : Option Symbol) (verdict stopReason : String) :
    MarketExecutor Unit Nat String where
  runners := ["cheap", "costly", "checker"]
  policy :=
    { prefer := .new "auction"
      execution := some (.new execution)
      fallback := fallback
      verifyWith := some (.new "checker") }
  numbers := numbers
  runnerCard runner := .ok ⟨.new runner, "sample", .new "sample", .new "local",
    [Expr.entry "cost-usd" (.number ⟨.new "f64", if runner = "cheap" then "1" else "2"⟩)]⟩
  externalBid _ _ := none
  realizeRunner _ runner _ _ :=
    if runner = "checker" then reply runner verdict "stop"
    else if runner = "cheap" then reply runner "done" stopReason
    else reply runner "done" "stop"
  fanout _ _ _ _ := []
  parseDuration _ := .ok 0
  requestExpr _ := .nil
  responseExpr _ := .nil
  debugText _ := ""
  errorText _ := ""

def request : ModelRequest Unit := ⟨.nil, [], []⟩

/-- Who answers, whom the decision names, and whether it marks the fallback as used. -/
def outcome (exec : MarketExecutor Unit Nat String) :
    Except Error (Symbol × Option Symbol × Bool) :=
  (exec.executeMarket request {}).map fun result =>
    (result.1.author, result.2.selectedRunner, result.2.fallbackUsed.isSome)

/-- The outcomes with a rejected, a failed and an accepted cheap branch. -/
theorem outcomes :
    outcome (market "speculate" none "reject" "stop") =
        .ok (.new "costly", some (.new "cheap"), false) ∧
      outcome (market "escalate" (some (.new "cheap")) "accept" "error") =
        .ok (.new "costly", some (.new "costly"), true) ∧
      outcome (market "speculate" none "accept" "stop") =
        .ok (.new "cheap", some (.new "cheap"), false) := by
  decide +kernel

/-- The costly branch answers when the checker rejects the cheap one, and the cheap one is named. A
fallback that was asked in vain is marked as used where another runner answers. -/
theorem author_not_named :
    outcome (market "speculate" none "reject" "stop") =
        .ok (.new "costly", some (.new "cheap"), false) ∧
      outcome (market "escalate" (some (.new "cheap")) "accept" "error") =
        .ok (.new "costly", some (.new "costly"), true) := ⟨outcomes.1, outcomes.2.1⟩

/-- A verified cheap branch is named. -/
theorem verified_names :
    (market "speculate" none "accept" "stop").NamesAuthor request {} := by
  obtain ⟨⟨answer, decision⟩, h, houtcome⟩ := Except.map_eq_ok_iff.mp outcomes.2.2
  simp only [Prod.mk.injEq] at houtcome
  obtain ⟨hauthor, hselected, hused⟩ := houtcome
  refine (MarketExecutor.names_author_iff h).mp ⟨?_, ?_⟩
  · rw [hselected, hauthor]
  · rw [hused]
    exact iff_of_false Bool.false_ne_true nofun

end MarketSample

end SimAgentNet.Agent
