import SimAgentNet.Agent.Privacy
import SimAgentNet.Data.StableSort
import SimAgentNet.Provider.Fanout

/-! # Runner markets

What a market of model runners knows of a runner, how it scores and accepts one, and the decision
that it records while it executes a request. Floating point numbers are a parameter `Score`. -/

namespace SimAgentNet.Agent
open Provider (FanoutMode FanoutStatus FanoutRow)

/-- A duration in nanoseconds. -/
abbrev Nanos := Nat

structure ModelCard (Mode : Type) where
  runner : Symbol
  model : String
  provider : Symbol
  locality : Symbol
  extra : List (Expr Mode × Expr Mode)

structure ModelBid (Score : Type) where
  available : Bool
  reason : Option String
  score : Option Score
  model : Option String

structure ModelRequest (Mode : Type) where
  task : Expr Mode
  messages : List (Expr Mode)
  extra : List (Expr Mode × Expr Mode)

/-- A response without its usage data, which no market reads. -/
structure ModelResponse (Mode : Type) where
  runner : Symbol
  model : String
  content : List (Expr Mode)
  stopReason : Symbol
  extra : List (Expr Mode × Expr Mode)

structure MarketPolicy (Score : Type) where
  prefer : Symbol := .new "local-first"
  execution : Option Symbol := none
  quorum : Option Nat := none
  maxCostUsd : Option Score := none
  deadline : Option String := none
  minContextTokens : Option Nat := none
  requires : List Symbol := []
  fallback : Option Symbol := none
  verifyWith : Option Symbol := none
  judge : Option Symbol := none

/-- How numbers are read and scores reckoned. -/
structure Numbers (Mode Score : Type) where
  exprF64 : Expr Mode → Option Score
  exprU64 : Expr Mode → Option Nat
  add : Score → Score → Score
  zero : Score
  half : Score
  hundred : Score
  thousand : Score
  max : Score

variable {Mode Score Runner : Type}

/-! ## Cards and bids -/

/-- The value under a symbol of the name, whatever its namespace. -/
def extraField (extra : List (Expr Mode × Expr Mode)) (name : String) : Option (Expr Mode) :=
  extra.findSome? fun entry =>
    match entry.1 with
    | .symbol symbol => if symbol.name = name then some entry.2 else none
    | _ => none

def isBool (value : Bool) : Option (Expr Mode) → Bool
  | some (.bool b) => b = value
  | _ => false

def cardIsHealthy (card : ModelCard Mode) : Bool :=
  !isBool false (extraField card.extra "healthy") &&
    !(match extraField card.extra "health" with
      | some (.symbol symbol) => symbol.name = "unhealthy"
      | _ => false)

def healthStatus (card : ModelCard Mode) : Expr Mode :=
  (extraField card.extra "health").getD
    (.symbol (.new (if cardIsHealthy card then "healthy" else "unhealthy")))

def symbolItemName : Expr Mode → Option String
  | .symbol symbol => some symbol.name
  | .string text => some text
  | _ => none

/-- The names of a list of symbols, or of one symbol. -/
def exprSymbolNames : Expr Mode → Option (List String)
  | .nil => some []
  | .symbol symbol => some [symbol.name]
  | .string text => some [text]
  | .list items | .vector items => items.mapM symbolItemName
  | _ => none

def listFieldContains (card : ModelCard Mode) (key : String) (wanted : Symbol) : Bool :=
  match (extraField card.extra key).bind exprSymbolNames with
  | some names => names.contains wanted.name
  | none => false

def cardSupports (card : ModelCard Mode) (requirement : Symbol) : Bool :=
  match requirement.name with
  | "text" => true
  | "tools" => isBool true (extraField card.extra "supports-tools")
  | "stream" => isBool true (extraField card.extra "supports-stream")
  | "json" => isBool true (extraField card.extra "supports-json")
  | "shape" => isBool true (extraField card.extra "supports-shape")
  | _ => listFieldContains card "requires" requirement ||
      listFieldContains card "modalities" requirement

section Scores
variable [LinearOrder Score] (numbers : Numbers Mode Score)

def cardCost (card : ModelCard Mode) : Option Score :=
  (extraField card.extra "cost-usd").bind numbers.exprF64

def cardContextTokens (card : ModelCard Mode) : Option Nat :=
  (extraField card.extra "context-tokens").bind numbers.exprU64

def cardReason (card : ModelCard Mode) : Option String :=
  match extraField card.extra "health-reason" with
  | some (.string text) => some text
  | some (.symbol symbol) => some symbol.display
  | _ => none

def derivedBid (card : ModelCard Mode) : ModelBid Score where
  available := cardIsHealthy card
  reason := if cardIsHealthy card then none
    else some ((cardReason card).getD "runner reported unhealthy")
  score := cardCost numbers card
  model := some card.model

/-- The bid of a runner, or one derived from its card when the runner does not bid. -/
def runnerBid (externalBid : Option (ModelBid Score)) (card : ModelCard Mode) : ModelBid Score :=
  match externalBid with
  | some bid =>
    if bid.available || bid.reason ≠ some "runner did not implement bidding" then bid
    else derivedBid numbers card
  | none => derivedBid numbers card

def candidateAccepted (policy : MarketPolicy Score) (card : ModelCard Mode)
    (bid : ModelBid Score) : Bool :=
  if !bid.available || !cardIsHealthy card then false
  else if policy.maxCostUsd.any fun max => (cardCost numbers card).any (max < ·) then false
  else if policy.minContextTokens.any fun min => (cardContextTokens numbers card).all (· < min) then
    false
  else policy.requires.all (cardSupports card)

def candidateScore (policy : MarketPolicy Score) (card : ModelCard Mode) (bid : ModelBid Score) :
    Score :=
  let cost := (cardCost numbers card).getD numbers.zero
  let base := bid.score.getD cost
  let isLocal : Bool := card.locality.name = "local"
  match policy.prefer.name with
  | "auction" | "escalate" => cost
  | "local-first" => if isLocal then base else numbers.add base numbers.thousand
  | "carbon-aware" => if isLocal then base else numbers.add base numbers.hundred
  | _ => base

/-! ## Requests and responses -/

def requestAllowsBranching (request : ModelRequest Mode) : Bool :=
  isBool true (extraField request.extra "idempotent") ||
    ["tool-calls", "tool-results", "tool-continuation"].all fun field =>
      (extraField request.extra field).isNone

def isErrorResponse (response : ModelResponse Mode) : Bool := response.stopReason.name = "error"

def isRetryableError (response : ModelResponse Mode) : Bool :=
  isErrorResponse response && response.extra.any fun entry =>
    match entry.1, entry.2 with
    | .symbol symbol, .bool true => symbol.name = "retryable"
    | _, _ => false

def shapeFailed (response : ModelResponse Mode) : Bool :=
  isBool false (extraField response.extra "shape-ok")

def lowConfidence (response : ModelResponse Mode) : Bool :=
  ((extraField response.extra "confidence").bind numbers.exprF64).any (· < numbers.half)

def responseShouldEscalate (response : ModelResponse Mode) : Bool :=
  isErrorResponse response || isRetryableError response || shapeFailed response ||
    lowConfidence numbers response

def responseFailureReason (response : ModelResponse Mode) : Option String :=
  if isErrorResponse response then some "model response stop-reason was error"
  else if shapeFailed response then some "model response failed output-shape"
  else if lowConfidence numbers response then
    some "model response confidence below threshold"
  else none

def exprText (debugText : Expr Mode → String) : Expr Mode → String
  | .nil => "nil"
  | .bool value => if value then "true" else "false"
  | .symbol symbol => symbol.display
  | .string text => text
  | expr => debugText expr

def responseText (debugText : Expr Mode → String) (response : ModelResponse Mode) : List Char :=
  (" ".intercalate (response.content.map (exprText debugText))).toList

def contains (text : List Char) (needle : String) : Bool := decide (needle.toList <:+: text)

/-- A verifier accepts unless its response should escalate or speaks against it. -/
def verifierAccepts (debugText : Expr Mode → String) (response : ModelResponse Mode) : Bool :=
  if responseShouldEscalate numbers response then false
  else
    let text := (responseText debugText response).map Char.toLower
    if ["false", "reject", "fail", "mismatch", "no"].any (contains text) then false
    else if ["true", "accept", "ok", "verified", "pass"].any (contains text) then true
    else true

end Scores

/-! ## The decision -/

structure MarketCandidate (Mode Score Runner : Type) where
  runner : Runner
  card : ModelCard Mode
  bid : ModelBid Score
  score : Score

def MarketCandidate.symbol (candidate : MarketCandidate Mode Score Runner) : Symbol :=
  candidate.card.runner

def MarketCandidate.latencyMs (numbers : Numbers Mode Score)
    (candidate : MarketCandidate Mode Score Runner) : Nat :=
  let field name := extraField candidate.card.extra name
  (((field "latency-ms").or (field "delay-ms")).bind numbers.exprU64).getD 0

/-- What is recorded of a bid. -/
structure BidRecord (Mode Score : Type) where
  runner : Symbol
  model : String
  available : Bool
  accepted : Bool
  score : Score
  health : Expr Mode
  privacy : Symbol
  costUsd : Option Score
  reason : Option String

inductive RunStatus (Mode : Type) where
  | started
  | response (response : ModelResponse Mode)

structure RunRecord (Mode : Type) where
  runner : Symbol
  phase : String
  status : RunStatus Mode

/-- The decision of a market. The code keeps its lists as expressions; here they are records. -/
structure MarketDecision (Mode Score Runner : Type) where
  privacy : PrivacyPolicy
  bids : List (BidRecord Mode Score) := []
  candidates : List (MarketCandidate Mode Score Runner) := []
  runs : List (RunRecord Mode) := []
  cancellations : List (Symbol × String) := []
  fallbackUsed : Option Symbol := none
  verifiedBy : Option Symbol := none
  selected : Option Symbol := none
  selectedResponse : Option (ModelResponse Mode) := none
  failures : List (Symbol × String) := []

namespace MarketDecision
variable (decision : MarketDecision Mode Score Runner)

def addPrivacyRejected (max : Score) (card : ModelCard Mode) (reason : String) :
    MarketDecision Mode Score Runner :=
  { decision with bids := decision.bids ++ [⟨card.runner, card.model, false, false, max,
    healthStatus card, .new "rejected", none, some reason⟩] }

def addBid (numbers : Numbers Mode Score) (card : ModelCard Mode) (bid : ModelBid Score)
    (score : Score) (accepted : Bool) : MarketDecision Mode Score Runner :=
  { decision with bids := decision.bids ++ [⟨card.runner, card.model, bid.available, accepted,
    score, healthStatus card, .new "accepted", cardCost numbers card, bid.reason⟩] }

def addCandidate (candidate : MarketCandidate Mode Score Runner) :
    MarketDecision Mode Score Runner :=
  { decision with candidates := decision.candidates ++ [candidate] }

def addRun (runner : Symbol) (phase : String) : MarketDecision Mode Score Runner :=
  { decision with runs := decision.runs ++ [⟨runner, phase, .started⟩] }

def addResponse (runner : Symbol) (phase : String) (response : ModelResponse Mode) :
    MarketDecision Mode Score Runner :=
  { decision with runs := decision.runs ++ [⟨runner, phase, .response response⟩] }

def addCancelled (runner : Symbol) (reason : String) : MarketDecision Mode Score Runner :=
  { decision with cancellations := decision.cancellations ++ [(runner, reason)] }

def addFailure (runner : Symbol) (message : String) : MarketDecision Mode Score Runner :=
  { decision with failures := decision.failures ++ [(runner, message)] }

end MarketDecision

section Lowest
variable [LinearOrder Score]

/-- The runner of the lowest accepted bid, the first of several. -/
def selectedFromBids (bids : List (BidRecord Mode Score)) : Option Symbol :=
  (StableSort.leastBy (·.score) (bids.filter (·.accepted))).map (·.runner)

/-- The runner that the decision names when it is written down. -/
def MarketDecision.selectedRunner (decision : MarketDecision Mode Score Runner) : Option Symbol :=
  decision.selected.or (selectedFromBids decision.bids)

end Lowest

end SimAgentNet.Agent
