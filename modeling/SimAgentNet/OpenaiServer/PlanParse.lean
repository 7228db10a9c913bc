import SimAgentNet.Data.Cursor
import SimAgentNet.OpenaiServer.Keys
import SimAgentNet.OpenaiServer.PlanEval

/-! # The parser of plans

The parser moves a byte position over its input. `debug` prints a text the way error messages quote
it. The nesting of the calls and the loop over the arguments are bounded by `fuel`; the length of
the input is enough. -/

namespace SimAgentNet.OpenaiServer
variable {Mode : Type}

/-- The white space that may stand around a token. -/
def isAsciiWhitespace (c : Char) : Bool :=
  c == ' ' || c == '\t' || c == '\n' || c == '\x0c' || c == '\r'

def isIdentChar (c : Char) : Bool := c.isAlphanum || c == '_' || c == '-'

def planSymbol (name : String) : Symbol := .new ("plan/" ++ name)

def keywordExpr (name : String) (value : Expr Mode) : Expr Mode :=
  .map [(.symbol (.new "keyword"), .symbol (.new name)), (.symbol (.new "value"), value)]

namespace PlanParser
open Cursor

/-- A parser over an input: what it does to the position. -/
abbrev Parser (α : Type) := Effect Stop Nat α

section
variable (debug : String → String) (input : List Char)

def failure (message : String) : Parser α := .fail (.failure (.eval message))

def skipWs : Parser Unit := bumpWhile input .panicked isAsciiWhitespace

def peekChar : Parser (Option Char) := peek input .panicked

def bumpChar : Parser Unit := bump input .panicked

def sliceFrom (start : Nat) : Parser (List Char) := do
  let stop ← mark
  .ofExcept (slice input .panicked start stop)

def parseIdent : Parser String := do
  skipWs input
  match ← peekChar input with
  | none => failure "expected plan identifier"
  | some first =>
    if !first.isAlpha then
      failure "expected plan identifier"
    else
      let start ← mark
      bumpWhile input .panicked isIdentChar
      return .ofList (← sliceFrom input start)

/-- Runs `x` and returns its failure, if it fails with one; a panic is not caught. -/
def attempt (x : Parser α) : Parser (Except KernelError α) := fun pos =>
  match x pos with
  | (.ok a, pos') => (.ok (.ok a), pos')
  | (.error (.failure e), pos') => (.ok (.error e), pos')
  | (.error stop, pos') => (.error stop, pos')

def endsAtom (c : Char) : Bool := c == ',' || c == ')'

def parseAtom : Parser (Expr Mode) := do
  skipWs input
  let start ← mark
  bumpWhile input .panicked (!endsAtom ·)
  let atom := trim (← sliceFrom input start)
  if atom = [] then
    failure "plan atom cannot be empty"
  else if '(' ∈ atom then
    failure ("invalid plan atom " ++ debug (.ofList atom))
  else
    return .list [.symbol (planSymbol "atom"), .string (.ofList atom)]

/-- What the parser does after an argument. -/
def afterArg : Parser Bool := do
  skipWs input
  match ← peekChar input with
  | some ',' =>
    bumpChar input
    skipWs input
    return true
  | some ')' =>
    bumpChar input
    return false
  | _ =>
    let rest ← remaining input .panicked
    failure ("expected ',' or ')' in plan combinator near " ++ debug (.ofList rest))

section
variable (plan : Parser (Expr Mode))

/-- The value of a keyword: a plan, or an atom that may be any literal. -/
def parsePlanOrLiteral : Parser (Expr Mode) := do
  skipWs input
  let start ← mark
  match ← attempt (parseIdent input) with
  | .ok _ =>
    skipWs input
    if (← peekChar input) = some '(' then
      reset start
      plan
    else
      reset start
      parseAtom debug input
  | .error _ =>
    reset start
    parseAtom debug input

def parseArg : Parser (Expr Mode) := do
  skipWs input
  let start ← mark
  match ← attempt (parseIdent input) with
  | .ok name =>
    skipWs input
    if (← peekChar input) = some ':' then
      bumpChar input
      let value ← parsePlanOrLiteral debug input plan
      return keywordExpr name value
    else
      reset start
      plan
  | .error _ =>
    reset start
    plan

/-- The loop over the arguments. -/
def parseArgs : (fuel : Nat) → List (Expr Mode) → Parser (List (Expr Mode))
  | 0, _ => .fail .exhausted
  | fuel + 1, args => do
    let arg ← parseArg debug input plan
    if ← afterArg debug input then
      parseArgs fuel (args ++ [arg])
    else
      return args ++ [arg]

def parseCombinator (fuel : Nat) (name : String) : Parser (Expr Mode) := do
  skipWs input
  if (← peekChar input) = some ')' then
    bumpChar input
    return .list [.symbol (planSymbol name)]
  else
    let args ← parseArgs debug input plan fuel []
    return .list (.symbol (planSymbol name) :: args)

end

def parsePlan : (fuel : Nat) → Parser (Expr Mode)
  | 0 => .fail .exhausted
  | fuel + 1 => do
    skipWs input
    let start ← mark
    let name ← parseIdent input
    skipWs input
    if (← peekChar input) = some '(' then
      bumpChar input
      parseCombinator debug input (parsePlan fuel) fuel name
    else
      reset start
      parseAtom debug input

/-- The whole input as a plan, from its start. -/
def parseInput : Parser (Expr Mode) := do
  let plan ← parsePlan debug input (input.length + 1)
  skipWs input
  let pos ← mark
  if bytes input ≤ pos then
    return plan
  else
    let rest ← remaining input .panicked
    failure ("unexpected trailing plan input near " ++ debug (.ofList rest))

end

end PlanParser

/-- Parses the text of a plan; the position reached is returned as well. -/
def parsePlan (debug : String → String) (input : String) : Except Stop (Expr Mode) × Nat :=
  PlanParser.parseInput debug input.toList 0

end SimAgentNet.OpenaiServer
