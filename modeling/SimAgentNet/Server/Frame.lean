import SimAgentNet.Data.Number
import SimAgentNet.Data.Run
import SimAgentNet.Kernel.Expr

/-! # Server frames and their headers

The frame of the server's wire protocol, the expression its header is written as, and the reader of
that expression. The symbol of a consistency policy is the kernel's and a parameter.

`frameFromHeaderExpr_frameHeaderExpr` is the round trip: it loses only what a deadline has besides
whole milliseconds. -/

namespace SimAgentNet.Server
variable {Mode : Type}

/-! ## Frames -/

/-- Kernel errors; `codec` are those of the binary codec. -/
inductive Error where
  | hostError (message : String)
  | eval (message : String)
  | typeMismatch (expected found : String)
  | codec (message : String)
deriving DecidableEq

inductive LifecycleCommand where
  | start
  | stop
  | suspend
  | resume
  | health
deriving DecidableEq

inductive FrameKind where
  | request
  | response
  | error
  | notify
  | streamStart
  | streamChunk
  | streamEnd
  | negotiate (codecs : List Symbol)
  | ping
  | pong
  | lifecycle (command : LifecycleCommand)
  | trigger (source : Symbol) (whenMs : UInt64)
  | role (role : Symbol) (hop : UInt32)
deriving DecidableEq

inductive Consistency where
  | localFirst
  | remoteOnly
  | localOnly
deriving DecidableEq

structure CapabilityName where
  text : String
deriving DecidableEq

/-- A span of time in nanoseconds. -/
structure Duration where
  nanos : Nat
  bound : nanos < 2 ^ 64 * 10 ^ 9
deriving DecidableEq

namespace Duration

def asMillis (d : Duration) : Nat := d.nanos / 10 ^ 6

def fromMillis (ms : UInt64) : Duration where
  nanos := ms.toNat * 10 ^ 6
  bound := by have := ms.toNat_lt; omega

/-- A whole number of milliseconds below `2 ^ 64`. -/
def Whole (d : Duration) : Prop := d.nanos % 10 ^ 6 = 0 ∧ d.asMillis < 2 ^ 64

instance (d : Duration) : Decidable d.Whole := inferInstanceAs (Decidable (_ ∧ _))

theorem fromMillis_asMillis {d : Duration} (h : d.Whole) :
    fromMillis (UInt64.ofNat d.asMillis) = d := by
  obtain ⟨nanos, bound⟩ := d
  obtain ⟨hw, hlt⟩ := h
  simp only [asMillis] at hw hlt
  simp only [fromMillis, asMillis, mk.injEq, UInt64.toNat_ofNat_of_lt' hlt]
  omega

end Duration

structure FrameEnvelope where
  deadline : Option Duration
  consistency : Consistency
  trace : Bool
  requiredCapabilities : List CapabilityName
  replyCodecHint : Option Symbol
  role : Option Symbol
  hop : UInt32
  triggerSource : Option Symbol
deriving DecidableEq

structure ServerFrame where
  version : UInt16
  codec : Symbol
  msgId : Option UInt64
  correlate : Option UInt64
  kind : FrameKind
  envelope : FrameEnvelope
  payload : List UInt8
deriving DecidableEq

/-! ## Writing headers -/

def field (name : String) (value : Expr Mode) : Expr Mode × Expr Mode := (.symbol (.new name), value)

def optionalU64Expr : Option UInt64 → Expr Mode
  | some value => .string (toString value.toNat)
  | none => .nil

def optionalSymbolExpr : Option Symbol → Expr Mode
  | some value => .symbol value
  | none => .nil

def LifecycleCommand.name : LifecycleCommand → String
  | .start => "start"
  | .stop => "stop"
  | .suspend => "suspend"
  | .resume => "resume"
  | .health => "health"

def frameKindExpr : FrameKind → Expr Mode
  | .request => .symbol (.new "request")
  | .response => .symbol (.new "response")
  | .error => .symbol (.new "error")
  | .notify => .symbol (.new "notify")
  | .streamStart => .symbol (.new "stream-start")
  | .streamChunk => .symbol (.new "stream-chunk")
  | .streamEnd => .symbol (.new "stream-end")
  | .negotiate codecs => .map [
      field "kind" (.symbol (.new "negotiate")),
      field "codecs" (.list (codecs.map .symbol))]
  | .ping => .symbol (.new "ping")
  | .pong => .symbol (.new "pong")
  | .lifecycle command => .map [
      field "kind" (.symbol (.new "lifecycle")),
      field "command" (.symbol (.new command.name))]
  | .trigger source whenMs => .map [
      field "kind" (.symbol (.new "trigger")),
      field "source" (.symbol source),
      field "when-ms" (.string (toString whenMs.toNat))]
  | .role role hop => .map [
      field "kind" (.symbol (.new "role")),
      field "role" (.symbol role),
      field "hop" (.string (toString hop.toNat))]

section
variable (asSymbol : Consistency → Symbol)

def envelopeExpr (envelope : FrameEnvelope) : Expr Mode :=
  .map [
    field "deadline-ms" (match envelope.deadline with
      | some duration => .string (toString duration.asMillis)
      | none => .nil),
    field "consistency" (.symbol (asSymbol envelope.consistency)),
    field "trace" (.bool envelope.trace),
    field "requires" (.list (envelope.requiredCapabilities.map fun c => .string c.text)),
    field "reply-codec-hint" (optionalSymbolExpr envelope.replyCodecHint),
    field "role" (optionalSymbolExpr envelope.role),
    field "hop" (.string (toString envelope.hop.toNat)),
    field "trigger-source" (optionalSymbolExpr envelope.triggerSource)]

def frameHeaderExpr (frame : ServerFrame) : Expr Mode :=
  .map [
    field "version" (.string (toString frame.version.toNat)),
    field "codec" (.symbol frame.codec),
    field "msg-id" (optionalU64Expr frame.msgId),
    field "correlate" (optionalU64Expr frame.correlate),
    field "kind" (frameKindExpr frame.kind),
    field "envelope" (envelopeExpr asSymbol frame.envelope)]

end

/-! ## Reading headers -/

/-- The digits of a number, after an optional plus sign. -/
def unsigned : List Char → List Char
  | '+' :: digits => digits
  | digits => digits

/-- The number that a text writes, if it is below `2 ^ 64`. -/
def parseU64 (text : String) : Option UInt64 :=
  let digits := unsigned text.toList
  if digits ≠ [] ∧ digits.all Char.isDigit ∧ Nat.ofDigitChars 10 digits 0 < 2 ^ 64 then
    some (.ofNat (Nat.ofDigitChars 10 digits 0))
  else none

/-- The value of the first entry whose key is a symbol of that name. -/
def lookupField (key : String) (entries : List (Expr Mode × Expr Mode)) : Option (Expr Mode) :=
  entries.findSome? fun e => match e.1 with
    | .symbol s => if s.name = key then some e.2 else none
    | _ => none

def requiredField (expr : Expr Mode) (key : String) : Except Error (Expr Mode) :=
  match expr with
  | .map entries =>
    match lookupField key entries with
    | some value => .ok value
    | none => .error (.eval ("missing transport field " ++ key))
  | _ => .error (.typeMismatch "table expression" "non-table")

def requiredSymbolField (expr : Expr Mode) (key : String) : Except Error Symbol := do
  match ← requiredField expr key with
  | .symbol s => .ok s
  | _ => .error (.typeMismatch "symbol" "non-symbol")

def optionalSymbolField (expr : Expr Mode) (key : String) : Except Error (Option Symbol) := do
  match ← requiredField expr key with
  | .nil => .ok none
  | .symbol s => .ok (some s)
  | _ => .error (.typeMismatch "symbol or nil" "non-symbol")

def requiredBoolField (expr : Expr Mode) (key : String) : Except Error Bool := do
  match ← requiredField expr key with
  | .bool v => .ok v
  | _ => .error (.typeMismatch "bool" "non-bool")

def notInteger (key : String) : Error := .eval ("transport field " ++ key ++ " must be an integer")

def parseIntegerField (expr : Expr Mode) (key : String) : Except Error UInt64 := do
  match ← requiredField expr key with
  | .string text =>
    match parseU64 text with
    | some n => .ok n
    | none => .error (notInteger key)
  | _ => .error (.typeMismatch "integer string" "non-string")

def optionalU64Field (expr : Expr Mode) (key : String) : Except Error (Option UInt64) := do
  match ← requiredField expr key with
  | .nil => .ok none
  | .string text =>
    match parseU64 text with
    | some n => .ok (some n)
    | none => .error (notInteger key)
  | _ => .error (.typeMismatch "integer string or nil" "non-integer")

def requiredU16Field (expr : Expr Mode) (key : String) : Except Error UInt16 := do
  let n ← parseIntegerField expr key
  if n.toNat < 2 ^ 16 then .ok (.ofNat n.toNat)
  else .error (.eval ("transport field " ++ key ++ " exceeds u16"))

def requiredU32Field (expr : Expr Mode) (key : String) : Except Error UInt32 := do
  let n ← parseIntegerField expr key
  if n.toNat < 2 ^ 32 then .ok (.ofNat n.toNat)
  else .error (.eval ("transport field " ++ key ++ " exceeds u32"))

def requiredU64Field (expr : Expr Mode) (key : String) : Except Error UInt64 :=
  parseIntegerField expr key

/-- The items of a list or vector. -/
def items? : Expr Mode → Option (List (Expr Mode))
  | .list items => some items
  | .vector items => some items
  | _ => none

def symbolItem : Expr Mode → Except Error Symbol
  | .symbol s => .ok s
  | _ => .error (.typeMismatch "symbol" "non-symbol")

def parseSymbolList (expr : Expr Mode) : Except Error (List Symbol) :=
  match items? expr with
  | none => .error (.typeMismatch "symbol list" "non-list")
  | some items => items.mapM symbolItem

def capabilityItem : Expr Mode → Except Error CapabilityName
  | .string text => .ok ⟨text⟩
  | .symbol s => .ok ⟨s.display⟩
  | _ => .error (.typeMismatch "capability name" "non-name")

def parseCapabilities (expr : Expr Mode) : Except Error (List CapabilityName) :=
  match items? expr with
  | none => .error (.typeMismatch "capability list" "non-list")
  | some items => items.mapM capabilityItem

def parseConsistency (expr : Expr Mode) : Except Error Consistency :=
  match expr with
  | .symbol s =>
    match s.name with
    | "local-first" => .ok .localFirst
    | "remote-only" => .ok .remoteOnly
    | "local-only" => .ok .localOnly
    | other => .error (.eval ("unsupported consistency " ++ other))
  | _ => .error (.typeMismatch "consistency symbol" "non-symbol")

def parseCommand (s : Symbol) : Except Error LifecycleCommand :=
  match s.name with
  | "start" => .ok .start
  | "stop" => .ok .stop
  | "suspend" => .ok .suspend
  | "resume" => .ok .resume
  | "health" => .ok .health
  | other => .error (.eval ("unsupported lifecycle command " ++ other))

/-- A kind written as a symbol. -/
def parsePlainKind (s : Symbol) : Except Error FrameKind :=
  match s.name with
  | "request" => .ok .request
  | "response" => .ok .response
  | "error" => .ok .error
  | "notify" => .ok .notify
  | "stream-start" => .ok .streamStart
  | "stream-chunk" => .ok .streamChunk
  | "stream-end" => .ok .streamEnd
  | "ping" => .ok .ping
  | "pong" => .ok .pong
  | other => .error (.eval ("unsupported frame kind " ++ other))

/-- A kind written as a map with its fields. -/
def parseKindOf (expr : Expr Mode) (kind : Symbol) : Except Error FrameKind :=
  match kind.name with
  | "negotiate" => do return .negotiate (← parseSymbolList (← requiredField expr "codecs"))
  | "lifecycle" => do
    return .lifecycle (← parseCommand (← requiredSymbolField expr "command"))
  | "trigger" => do
    let source ← requiredSymbolField expr "source"
    let whenMs ← requiredU64Field expr "when-ms"
    return .trigger source whenMs
  | "role" => do
    let role ← requiredSymbolField expr "role"
    let hop ← requiredU32Field expr "hop"
    return .role role hop
  | other => .error (.eval ("unsupported frame kind " ++ other))

def parseFrameKind (expr : Expr Mode) : Except Error FrameKind :=
  match expr with
  | .symbol s => parsePlainKind s
  | .map _ => do parseKindOf expr (← requiredSymbolField expr "kind")
  | _ => .error (.typeMismatch "frame kind expression" "non-kind")

def parseEnvelope (expr : Expr Mode) : Except Error FrameEnvelope := do
  let deadline ← optionalU64Field expr "deadline-ms"
  let consistency ← parseConsistency (← requiredField expr "consistency")
  let trace ← requiredBoolField expr "trace"
  let requiredCapabilities ← parseCapabilities (← requiredField expr "requires")
  let replyCodecHint ← optionalSymbolField expr "reply-codec-hint"
  let role ← optionalSymbolField expr "role"
  let hop ← requiredU32Field expr "hop"
  let triggerSource ← optionalSymbolField expr "trigger-source"
  return {
    deadline := deadline.map Duration.fromMillis
    consistency, trace, requiredCapabilities, replyCodecHint, role, hop, triggerSource }

def frameFromHeaderExpr (expr : Expr Mode) (payload : List UInt8) : Except Error ServerFrame := do
  let version ← requiredU16Field expr "version"
  let codec ← requiredSymbolField expr "codec"
  let msgId ← optionalU64Field expr "msg-id"
  let correlate ← optionalU64Field expr "correlate"
  let kind ← parseFrameKind (← requiredField expr "kind")
  let envelope ← parseEnvelope (← requiredField expr "envelope")
  return { version, codec, msgId, correlate, kind, envelope, payload }

/-! ## The round trip of a header -/

theorem parseU64_eq (text : String) :
    parseU64 text = (Number.parse (2 ^ 64) text.toList).map .ofNat := by
  have hunsigned : unsigned text.toList = Number.unsigned text.toList := rfl
  simp only [parseU64, Number.parse, hunsigned]
  split
  · rfl
  · rfl

theorem parseU64_toString {n : Nat} (h : n < 2 ^ 64) : parseU64 (toString n) = some (.ofNat n) := by
  rw [parseU64_eq, Number.parse_toString h, Option.map_some]

theorem parseU64_toNat (n : UInt64) : parseU64 (toString n.toNat) = some n := by
  rw [parseU64_toString n.toNat_lt, UInt64.ofNat_toNat]

section Fields
variable {expr : Expr Mode} {key : String}

theorem parseIntegerField_of (h : requiredField expr key = .ok (.string (toString n)))
    (hn : n < 2 ^ 64) : parseIntegerField expr key = .ok (.ofNat n) := by
  simp only [parseIntegerField, h, Except.ok_bind, parseU64_toString hn]

theorem requiredU64Field_of {n : UInt64}
    (h : requiredField expr key = .ok (.string (toString n.toNat))) :
    requiredU64Field expr key = .ok n := by
  rw [requiredU64Field, parseIntegerField_of h n.toNat_lt, UInt64.ofNat_toNat]

theorem requiredU32Field_of {n : UInt32}
    (h : requiredField expr key = .ok (.string (toString n.toNat))) :
    requiredU32Field expr key = .ok n := by
  have hlt : n.toNat < 2 ^ 64 := lt_trans n.toNat_lt (by decide)
  rw [requiredU32Field, parseIntegerField_of h hlt, Except.ok_bind,
    UInt64.toNat_ofNat_of_lt' hlt, if_pos n.toNat_lt, UInt32.ofNat_toNat]

theorem requiredU16Field_of {n : UInt16}
    (h : requiredField expr key = .ok (.string (toString n.toNat))) :
    requiredU16Field expr key = .ok n := by
  have hlt : n.toNat < 2 ^ 64 := lt_trans n.toNat_lt (by decide)
  rw [requiredU16Field, parseIntegerField_of h hlt, Except.ok_bind,
    UInt64.toNat_ofNat_of_lt' hlt, if_pos n.toNat_lt, UInt16.ofNat_toNat]

theorem optionalU64Field_of {v : Option UInt64}
    (h : requiredField expr key = .ok (optionalU64Expr v)) :
    optionalU64Field expr key = .ok v := by
  cases v with
  | none => simp [optionalU64Field, h, Except.ok_bind, optionalU64Expr]
  | some n => simp only [optionalU64Field, h, Except.ok_bind, optionalU64Expr, parseU64_toNat]

theorem optionalSymbolField_of {v : Option Symbol}
    (h : requiredField expr key = .ok (optionalSymbolExpr v)) :
    optionalSymbolField expr key = .ok v := by
  cases v <;> simp [optionalSymbolField, h, Except.ok_bind, optionalSymbolExpr]

theorem requiredSymbolField_of (h : requiredField expr key = .ok (.symbol v)) :
    requiredSymbolField expr key = .ok v := by
  simp [requiredSymbolField, h, Except.ok_bind]

end Fields

theorem mapM_of_forall {f : α → Except ε β} {g : β → α} (h : ∀ b, f (g b) = .ok b) (bs : List β) :
    (bs.map g).mapM f = .ok bs := by
  induction bs with
  | nil => rfl
  | cons b bs ih => rw [List.map_cons, List.mapM_cons, h, ih]; rfl

theorem parseSymbolList_list (codecs : List Symbol) :
    parseSymbolList (.list (codecs.map .symbol) : Expr Mode) = .ok codecs :=
  mapM_of_forall (f := @symbolItem Mode) (g := .symbol) (fun _ => rfl) codecs

theorem parseCapabilities_list (names : List CapabilityName) :
    parseCapabilities (.list (names.map fun c => .string c.text) : Expr Mode) = .ok names :=
  mapM_of_forall (f := @capabilityItem Mode) (g := fun c => .string c.text)
    (fun _ => rfl) names

theorem parseFrameKind_frameKindExpr (kind : FrameKind) :
    parseFrameKind (frameKindExpr kind : Expr Mode) = .ok kind := by
  cases kind with
  | negotiate codecs =>
    exact Except.bind_eq_ok_iff.mpr ⟨.new "negotiate", rfl, Except.bind_eq_ok_iff.mpr
      ⟨_, rfl, Except.bind_eq_ok_iff.mpr ⟨codecs, parseSymbolList_list codecs, rfl⟩⟩⟩
  | lifecycle command => cases command <;> rfl
  | trigger source whenMs =>
    exact Except.bind_eq_ok_iff.mpr ⟨.new "trigger", rfl, Except.bind_eq_ok_iff.mpr
      ⟨source, rfl, Except.bind_eq_ok_iff.mpr ⟨whenMs, requiredU64Field_of rfl, rfl⟩⟩⟩
  | role role hop =>
    exact Except.bind_eq_ok_iff.mpr ⟨.new "role", rfl, Except.bind_eq_ok_iff.mpr
      ⟨role, rfl, Except.bind_eq_ok_iff.mpr ⟨hop, requiredU32Field_of rfl, rfl⟩⟩⟩
  | _ => rfl

/-- The kernel writes the policies by the names the reader knows. -/
structure ConsistencyNames (asSymbol : Consistency → Symbol) : Prop where
  localFirst : (asSymbol .localFirst).name = "local-first"
  remoteOnly : (asSymbol .remoteOnly).name = "remote-only"
  localOnly : (asSymbol .localOnly).name = "local-only"

section RoundTrip
variable {asSymbol : Consistency → Symbol} (hn : ConsistencyNames asSymbol)
include hn

theorem parseConsistency_asSymbol (c : Consistency) :
    parseConsistency (.symbol (asSymbol c) : Expr Mode) = .ok c := by
  cases c <;> simp [parseConsistency, hn.localFirst, hn.remoteOnly, hn.localOnly]

theorem parseEnvelope_envelopeExpr {envelope : FrameEnvelope}
    (hd : ∀ d ∈ envelope.deadline, d.Whole) :
    parseEnvelope (envelopeExpr asSymbol envelope : Expr Mode) = .ok envelope := by
  obtain ⟨deadline, consistency, trace, capabilities, hint, role, hop, source⟩ := envelope
  have hdeadline : ∃ ms, optionalU64Field (envelopeExpr asSymbol ⟨deadline, consistency, trace,
      capabilities, hint, role, hop, source⟩ : Expr Mode) "deadline-ms" = .ok ms ∧
      ms.map Duration.fromMillis = deadline := by
    cases deadline with
    | none => exact ⟨none, rfl, rfl⟩
    | some d =>
      have hw := hd d rfl
      refine ⟨some (.ofNat d.asMillis), ?_, congrArg some (Duration.fromMillis_asMillis hw)⟩
      refine Except.bind_eq_ok_iff.mpr ⟨.string (toString d.asMillis), rfl, ?_⟩
      simp only [parseU64_toString hw.2]
  obtain ⟨ms, hms, hmap⟩ := hdeadline
  refine Except.bind_eq_ok_iff.mpr ⟨ms, hms, Except.bind_eq_ok_iff.mpr ⟨_, rfl,
    Except.bind_eq_ok_iff.mpr ⟨consistency, parseConsistency_asSymbol hn consistency,
    Except.bind_eq_ok_iff.mpr ⟨trace, rfl, Except.bind_eq_ok_iff.mpr ⟨_, rfl,
    Except.bind_eq_ok_iff.mpr ⟨capabilities, parseCapabilities_list capabilities,
    Except.bind_eq_ok_iff.mpr ⟨hint, optionalSymbolField_of rfl,
    Except.bind_eq_ok_iff.mpr ⟨role, optionalSymbolField_of rfl,
    Except.bind_eq_ok_iff.mpr ⟨hop, requiredU32Field_of rfl,
    Except.bind_eq_ok_iff.mpr ⟨source, optionalSymbolField_of rfl, ?_⟩⟩⟩⟩⟩⟩⟩⟩⟩⟩
  rw [← hmap]
  rfl

/-- A frame is read back from its header and its payload. -/
theorem frameFromHeaderExpr_frameHeaderExpr {frame : ServerFrame}
    (hd : ∀ d ∈ frame.envelope.deadline, d.Whole) :
    frameFromHeaderExpr (frameHeaderExpr asSymbol frame : Expr Mode) frame.payload = .ok frame :=
  Except.bind_eq_ok_iff.mpr ⟨frame.version, requiredU16Field_of rfl,
    Except.bind_eq_ok_iff.mpr ⟨frame.codec, requiredSymbolField_of rfl,
    Except.bind_eq_ok_iff.mpr ⟨frame.msgId, optionalU64Field_of rfl,
    Except.bind_eq_ok_iff.mpr ⟨frame.correlate, optionalU64Field_of rfl,
    Except.bind_eq_ok_iff.mpr ⟨_, rfl,
    Except.bind_eq_ok_iff.mpr ⟨frame.kind, parseFrameKind_frameKindExpr frame.kind,
    Except.bind_eq_ok_iff.mpr ⟨_, rfl,
    Except.bind_eq_ok_iff.mpr ⟨frame.envelope, parseEnvelope_envelopeExpr hn hd, rfl⟩⟩⟩⟩⟩⟩⟩⟩

end RoundTrip

end SimAgentNet.Server
