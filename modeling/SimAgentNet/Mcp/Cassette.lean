import SimAgentNet.Data.Run
import SimAgentNet.Kernel.Expr

/-! # Cassettes

A cassette records MCP exchanges as expressions from which secrets have been taken out, and replays
them in order. The codec of envelopes is a parameter. -/

namespace SimAgentNet.Mcp
variable {Mode : Type}

structure McpRequest (Mode : Type) where
  id : Expr Mode
  method : String
  params : Expr Mode

structure McpNotification (Mode : Type) where
  method : String
  params : Expr Mode

structure McpResponse (Mode : Type) where
  id : Expr Mode
  result : Expr Mode

structure McpErrorEnvelope (Mode : Type) where
  id : Expr Mode
  code : Int
  message : String
  data : Expr Mode

inductive McpEnvelope (Mode : Type) where
  | request (request : McpRequest Mode)
  | notification (notification : McpNotification Mode)
  | response (response : McpResponse Mode)
  | error (error : McpErrorEnvelope Mode)

/-- What a kernel error is about, as far as the router tells errors apart. -/
inductive ErrorKind where
  | capabilityDenied
  | trustDenied
  | typeMismatch
  | wrongShape
  | noMatchingOverload
  | unknownFunction
  | hostError
  | poisonedLock
  | eval (message : String)
  | other
deriving DecidableEq

/-- A kernel error with the text it is shown as. -/
structure Error where
  kind : ErrorKind
  text : String
deriving DecidableEq

/-- The codec of envelopes, and the codes of its errors. -/
structure McpCodec (Mode : Type) where
  envelopeToExpr : McpEnvelope Mode → Expr Mode
  exprToEnvelope : Expr Mode → Except Error (McpEnvelope Mode)
  cancelled : Int
  capabilityDenied : Int
  executionError : Int
  internalError : Int
  invalidParams : Int
  methodNotFound : Int
  rateLimited : Int

/-! ## Secrets -/

def looksSecret (text : String) : Bool :=
  let text := text.toList.map Char.toLower
  ["api-key", "apikey", "authorization", "bearer", "password", "secret", "token"].any
    fun needle => decide (needle.toList <:+: text)

def symbolIsSensitive (symbol : Symbol) : Bool := looksSecret symbol.display

def sensitiveKey : Expr Mode → Bool
  | .symbol symbol | .local symbol => symbolIsSensitive symbol
  | .string text => looksSecret text
  | _ => false

mutual
def redactExpr (e : Expr Mode) (sensitive : Bool) : Expr Mode :=
  if sensitive then .string "[redacted]"
  else match e with
    | .string text => if looksSecret text then .string "[redacted]" else .string text
    | .list items => .list (redactItems items)
    | .vector items => .vector (redactItems items)
    | .set items => .set (redactItems items)
    | .map fields => .map (redactEntries fields)
    | .call operator args => .call (redactExpr operator false) (redactItems args)
    | .infixOp operator left right =>
      .infixOp operator (redactExpr left false) (redactExpr right false)
    | .prefixOp operator arg => .prefixOp operator (redactExpr arg false)
    | .postfixOp operator arg => .postfixOp operator (redactExpr arg false)
    | .block items => .block (redactItems items)
    | .quote mode expr => .quote mode (redactExpr expr false)
    | .annotated expr annotations => .annotated (redactExpr expr false) (redactAnnotations annotations)
    | .extension tag payload => .extension tag (redactExpr payload (symbolIsSensitive tag))
    | other => other
termination_by structural e

def redactItems : List (Expr Mode) → List (Expr Mode)
  | [] => []
  | item :: items => redactExpr item false :: redactItems items
termination_by structural items => items

def redactEntries : List (Expr Mode × Expr Mode) → List (Expr Mode × Expr Mode)
  | [] => []
  | (key, value) :: fields =>
    (redactExpr key false, redactExpr value (sensitiveKey key)) :: redactEntries fields
termination_by structural fields => fields

def redactAnnotations : List (Symbol × Expr Mode) → List (Symbol × Expr Mode)
  | [] => []
  | (key, value) :: annotations =>
    (key, redactExpr value (symbolIsSensitive key)) :: redactAnnotations annotations
termination_by structural annotations => annotations
end

mutual
/-- Nothing in the expression looks secret. -/
def secretFree : Expr Mode → Bool
  | .string text => !looksSecret text
  | .list items | .vector items | .set items | .block items => secretFreeItems items
  | .map fields => secretFreeEntries fields
  | .call operator args => secretFree operator && secretFreeItems args
  | .infixOp _ left right => secretFree left && secretFree right
  | .prefixOp _ arg | .postfixOp _ arg => secretFree arg
  | .quote _ expr => secretFree expr
  | .annotated expr annotations => secretFree expr && secretFreeAnnotations annotations
  | .extension tag payload => !symbolIsSensitive tag && secretFree payload
  | _ => true
termination_by structural e => e

def secretFreeItems : List (Expr Mode) → Bool
  | [] => true
  | item :: items => secretFree item && secretFreeItems items
termination_by structural items => items

def secretFreeEntries : List (Expr Mode × Expr Mode) → Bool
  | [] => true
  | (key, value) :: fields =>
    secretFree key && !sensitiveKey key && secretFree value && secretFreeEntries fields
termination_by structural fields => fields

def secretFreeAnnotations : List (Symbol × Expr Mode) → Bool
  | [] => true
  | (key, value) :: annotations =>
    !symbolIsSensitive key && secretFree value && secretFreeAnnotations annotations
termination_by structural annotations => annotations
end

mutual
/-- What does not look secret is left as it is. -/
theorem redactExpr_of_secretFree : ∀ e : Expr Mode, secretFree e = true → redactExpr e false = e
  | .nil, _ | .bool _, _ | .number _, _ | .symbol _, _ | .local _, _ | .bytes _, _ => rfl
  | .string text, h => by
    simp only [secretFree, Bool.not_eq_true'] at h
    simp [redactExpr, h]
  | .list items, h | .vector items, h | .set items, h | .block items, h => by
    simp only [secretFree] at h
    simp [redactExpr, redactItems_of_secretFree items h]
  | .map fields, h => by
    simp only [secretFree] at h
    simp [redactExpr, redactEntries_of_secretFree fields h]
  | .call operator args, h => by
    simp only [secretFree, Bool.and_eq_true] at h
    simp [redactExpr, redactExpr_of_secretFree operator h.1, redactItems_of_secretFree args h.2]
  | .infixOp operator left right, h => by
    simp only [secretFree, Bool.and_eq_true] at h
    simp [redactExpr, redactExpr_of_secretFree left h.1, redactExpr_of_secretFree right h.2]
  | .prefixOp operator arg, h | .postfixOp operator arg, h => by
    simp only [secretFree] at h
    simp [redactExpr, redactExpr_of_secretFree arg h]
  | .quote mode expr, h => by
    simp only [secretFree] at h
    simp [redactExpr, redactExpr_of_secretFree expr h]
  | .annotated expr annotations, h => by
    simp only [secretFree, Bool.and_eq_true] at h
    simp [redactExpr, redactExpr_of_secretFree expr h.1,
      redactAnnotations_of_secretFree annotations h.2]
  | .extension tag payload, h => by
    simp only [secretFree, Bool.and_eq_true, Bool.not_eq_true'] at h
    simp [redactExpr, h.1, redactExpr_of_secretFree payload h.2]

theorem redactItems_of_secretFree :
    ∀ items : List (Expr Mode), secretFreeItems items = true → redactItems items = items
  | [], _ => rfl
  | item :: items, h => by
    simp only [secretFreeItems, Bool.and_eq_true] at h
    simp [redactItems, redactExpr_of_secretFree item h.1, redactItems_of_secretFree items h.2]

theorem redactEntries_of_secretFree :
    ∀ fields : List (Expr Mode × Expr Mode), secretFreeEntries fields = true →
      redactEntries fields = fields
  | [], _ => rfl
  | (key, value) :: fields, h => by
    simp only [secretFreeEntries, Bool.and_eq_true, Bool.not_eq_true'] at h
    simp [redactEntries, redactExpr_of_secretFree key h.1.1.1, h.1.1.2,
      redactExpr_of_secretFree value h.1.2, redactEntries_of_secretFree fields h.2]

theorem redactAnnotations_of_secretFree :
    ∀ annotations : List (Symbol × Expr Mode), secretFreeAnnotations annotations = true →
      redactAnnotations annotations = annotations
  | [], _ => rfl
  | (key, value) :: annotations, h => by
    simp only [secretFreeAnnotations, Bool.and_eq_true, Bool.not_eq_true'] at h
    simp [redactAnnotations, h.1.1, redactExpr_of_secretFree value h.1.2,
      redactAnnotations_of_secretFree annotations h.2]
end

/-! ## The log -/

/-- One recorded request and its replies. -/
structure McpCassetteEntry (Mode : Type) where
  request : Expr Mode
  replies : List (Expr Mode)

structure McpAuditEntry where
  method : String
  operation : String
  outcome : String
deriving DecidableEq

structure McpCassette (Mode : Type) where
  entries : List (McpCassetteEntry Mode)
  replayIndex : Nat
  audit : List McpAuditEntry

section
variable (codec : McpCodec Mode)

def canonicalEnvelope (envelope : McpEnvelope Mode) : Except Error (Expr Mode) := do
  let expr := redactExpr (codec.envelopeToExpr envelope) false
  let envelope ← codec.exprToEnvelope expr
  return codec.envelopeToExpr envelope

namespace McpCassette

def new : McpCassette Mode := ⟨[], 0, []⟩

def fromEntries (entries : List (McpCassetteEntry Mode)) : McpCassette Mode := ⟨entries, 0, []⟩

def recordExchange (cassette : McpCassette Mode) (request : McpEnvelope Mode)
    (replies : List (McpEnvelope Mode)) : Except Error (McpCassette Mode) := do
  let request ← canonicalEnvelope codec request
  let replies ← replies.mapM (canonicalEnvelope codec)
  return { cassette with entries := cassette.entries ++ [⟨request, replies⟩] }

variable [DecidableEq Mode]

/-- The replies of the next recorded exchange, if it is one of this request. The cassette moves on
before the replies are decoded. -/
def replay (cassette : McpCassette Mode) (request : McpEnvelope Mode) :
    Except Error (Option (List (McpEnvelope Mode))) × McpCassette Mode :=
  match canonicalEnvelope codec request with
  | .error e => (.error e, cassette)
  | .ok request =>
    match cassette.entries[cassette.replayIndex]? with
    | none => (.ok none, cassette)
    | some entry =>
      if entry.request ≠ request then (.ok none, cassette)
      else
        ((entry.replies.mapM codec.exprToEnvelope).map some,
          { cassette with replayIndex := cassette.replayIndex + 1 })

end McpCassette

end

namespace McpCassette

def recordAudit (cassette : McpCassette Mode) (method operation outcome : String) :
    McpCassette Mode :=
  { cassette with audit := cassette.audit ++ [⟨method, operation, outcome⟩] }

end McpCassette

end SimAgentNet.Mcp
