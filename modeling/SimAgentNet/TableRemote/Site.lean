import SimAgentNet.Data.Effect
import SimAgentNet.Server.Frame

/-! # Remote table sites

A site that answers table operations itself and passes other frames on to an inner site. The
kernel's tables, the codecs of frames and the decoder of table operations are parameters. -/

namespace SimAgentNet.TableRemote
open Server (Error ServerFrame Consistency CapabilityName Duration lookupField)

variable {Mode Cx Value Address : Type}

inductive CompareExpected (Mode : Type) where
  | absent
  | value (expr : Expr Mode)

inductive CompareReplacement (Mode : Type) where
  | delete
  | value (expr : Expr Mode)

inductive TableOp (Mode : Type) where
  | get (key : Symbol)
  | set (key : Symbol) (value : Expr Mode)
  | compareExchange (key : Symbol) (expected : CompareExpected Mode)
      (replacement : CompareReplacement Mode)
  | has (key : Symbol)
  | delete (key : Symbol)
  | keys
  | entries
  | len
  | clear
  | mkdir (name : Symbol)
  | opendir (name : Symbol)
  | rmdir (name : Symbol)
  | isDir (name : Symbol)

inductive TableOpError where
  | unknownOp (name : String)
  | notATableCall
  | badArity (name : String)
  | badArg (name : String)
deriving DecidableEq

inductive TableReplacement (Value : Type) where
  | delete
  | value (value : Value)

/-- What a compare-and-exchange saw, and whether it has exchanged; `none` is an absent value. -/
structure CompareOutcome (Mode : Type) where
  exchanged : Bool
  observed : Option (Expr Mode)

/-- An effect on the evaluation context. -/
abbrev Eval (Cx α : Type) := Effect Error Cx α

/-- How the kernel makes values. -/
structure Factory (Mode Cx Value : Type) where
  expr : Expr Mode → Eval Cx Value
  nil : Eval Cx Value
  bool : Bool → Eval Cx Value
  symbol : Symbol → Eval Cx Value
  string : String → Eval Cx Value
  numberLiteral : Symbol → String → Eval Cx Value
  list : List Value → Eval Cx Value
  table : List (Symbol × Value) → Eval Cx Value

/-- What the kernel does with the values that are directories and tables. -/
structure Tables (Mode Cx Value : Type) where
  isDirectory : Value → Bool
  isTable : Value → Bool
  opendir : Value → Symbol → Eval Cx (Option Value)
  mkdir : Value → Symbol → Eval Cx Unit
  rmdir : Value → Symbol → Eval Cx Value
  isDir : Value → Symbol → Eval Cx Bool
  get : Value → Symbol → Eval Cx Value
  set : Value → Symbol → Value → Eval Cx Unit
  compareExchange : Value → Symbol → CompareExpected Mode → TableReplacement Value →
    Eval Cx (CompareOutcome Mode)
  has : Value → Symbol → Eval Cx Bool
  del : Value → Symbol → Eval Cx Value
  keys : Value → Eval Cx (List Symbol)
  entries : Value → Eval Cx (List (Symbol × Value))
  len : Value → Eval Cx Nat
  clear : Value → Eval Cx Unit
  factory : Factory Mode Cx Value

/-- The reading of requests from frames and the writing of replies to them. `requestRest` reads
the fields of a request besides its expression, and may evaluate its result shape; a reply carries
the diagnostics of the context. -/
structure Frames (Mode Cx Value : Type) where
  decodeExpr : ServerFrame → Eval Cx (Expr Mode)
  requestRest : Expr Mode → Eval Cx Unit
  frameFromReply : Symbol → Value → Consistency → Eval Cx ServerFrame

structure EvalSite (Cx Address : Type) where
  siteKind : String
  address : Address
  codecs : List Symbol
  answer : ServerFrame → Eval Cx ServerFrame
  answerWithTimeout : ServerFrame → Option Duration → Eval Cx ServerFrame
  closeConnection : Eval Cx Unit

def requiredTableField (expr : Expr Mode) (key : String) : Except Error (Expr Mode) :=
  match expr with
  | .map entries =>
    match lookupField key entries with
    | some value => .ok value
    | none => .error (.eval ("missing frame field " ++ key))
  | _ => .error (.typeMismatch "table expression" "non-table")

/-- The expression that a frame asks for. The code checks here too that the frame is a request. -/
def evalRequestFromFrame (frames : Frames Mode Cx Value) (frame : ServerFrame) :
    Eval Cx (Expr Mode) := do
  let expr ← frames.decodeExpr frame
  let requestExpr ← Effect.ofExcept (requiredTableField expr "expr")
  frames.requestRest expr
  return requestExpr

def parseCall : Expr Mode → Except Error (Symbol × List (Expr Mode))
  | .call (.symbol symbol) args => .ok (symbol, args)
  | .call _ _ => .error (.typeMismatch "symbol operator" "non-symbol")
  | _ => .error (.typeMismatch "call" "non-call")

def pathSymbol : Expr Mode → Except Error Symbol
  | .symbol symbol => .ok symbol
  | _ => .error (.typeMismatch "path symbol" "non-symbol")

def parsePath : Expr Mode → Except Error (List Symbol)
  | .list items => items.mapM pathSymbol
  | _ => .error (.typeMismatch "path list" "non-list")

def arityMessage (name : String) : String :=
  match name with
  | "get" => "table/get expects path and key"
  | "set" => "table/set expects path, key, and value"
  | "cas" => "table/cas expects path, key, expected, and replacement"
  | "has" => "table/has expects path and key"
  | "del" => "table/del expects path and key"
  | "keys" => "table/keys expects only a path"
  | "entries" => "table/entries expects only a path"
  | "len" => "table/len expects only a path"
  | "clear" => "table/clear expects only a path"
  | "mkdir" => "table/mkdir expects path and name"
  | "opendir" => "table/opendir expects path and name"
  | "rmdir" => "table/rmdir expects path and name"
  | "dir?" => "table/dir? expects path and name"
  | other => "table/" ++ other ++ ": malformed request"

def childToken (path : List Symbol) (name : Symbol) : String :=
  "/" ++ "/".intercalate ((path ++ [name]).map Symbol.display)

section
variable (tables : Tables Mode Cx Value)

def notDirectory : Error := .typeMismatch "directory table" "non-directory"

def requireDirectory (value : Value) : Eval Cx Unit :=
  if tables.isDirectory value then pure () else Effect.fail notDirectory

def currentDir (current : Value) : List Symbol → Eval Cx Value
  | [] => pure current
  | segment :: path => do
    requireDirectory tables current
    match ← tables.opendir current segment with
    | some next => currentDir next path
    | none => Effect.fail (.eval ("table/remote: missing path segment " ++ segment.display))

def tableReplacement : CompareReplacement Mode → Eval Cx (TableReplacement Value)
  | .delete => pure .delete
  | .value expr => do return .value (← tables.factory.expr expr)

def observedExpr : Option (Expr Mode) → Expr Mode
  | none => .call (.symbol (.qualified "table" "absent")) []
  | some expr => .call (.symbol (.qualified "table" "value")) [expr]

/-- What a table operation does at the place it is asked of. -/
def runTableOp (path : List Symbol) (current : Value) : TableOp Mode → Eval Cx Value
  | .get key => tables.get current key
  | .set key value => do
    tables.set current key (← tables.factory.expr value)
    tables.factory.nil
  | .compareExchange key expected replacement => do
    let replacement ← tableReplacement tables replacement
    let outcome ← tables.compareExchange current key expected replacement
    tables.factory.expr (.call (.symbol (.qualified "table" "cas-result"))
      [.bool outcome.exchanged, observedExpr outcome.observed])
  | .has key => do tables.factory.bool (← tables.has current key)
  | .delete key => tables.del current key
  | .keys => do
    let keys ← tables.keys current
    tables.factory.list (← keys.mapM tables.factory.symbol)
  | .entries => do tables.factory.table (← tables.entries current)
  | .len => do
    let len ← tables.len current
    tables.factory.numberLiteral (.qualified "numbers" "f64") (toString len)
  | .clear => do
    tables.clear current
    tables.factory.nil
  | .mkdir name => do
    requireDirectory tables current
    tables.mkdir current name
    tables.factory.string (childToken path name)
  | .opendir name => do
    requireDirectory tables current
    match ← tables.opendir current name with
    | some _ => tables.factory.string (childToken path name)
    | none => tables.factory.nil
  | .rmdir name => do
    requireDirectory tables current
    tables.rmdir current name
  | .isDir name => do
    requireDirectory tables current
    tables.factory.bool (← tables.isDir current name)

end

section
variable (tables : Tables Mode Cx Value) (frames : Frames Mode Cx Value)
  (decodeTableOp : Expr Mode → Except TableOpError (TableOp Mode))

/-- The codec of a reply: the one hinted at, if the inner site has it. -/
def replyCodec (inner : EvalSite Cx Address) (frame : ServerFrame) : Symbol :=
  match frame.envelope.replyCodecHint with
  | some hint => if hint ∈ inner.codecs then hint else frame.codec
  | none => frame.codec

/-- A decoded operation; `none` where the operation is for the inner site. -/
def knownOp (operator : Symbol) (rest : List (Expr Mode)) :
    Except Error (Option (TableOp Mode)) :=
  match decodeTableOp (.call (.symbol operator) rest) with
  | .ok op => .ok (some op)
  | .error (.unknownOp _) | .error .notATableCall => .ok none
  | .error (.badArity name) => .error (.eval (arityMessage name))
  | .error (.badArg _) => .error (.typeMismatch "symbol" "non-symbol")

/-- Answers a table request; `none` where the frame is for the inner site. -/
def answerTableRequest (inner : EvalSite Cx Address) (root : Value) (frame : ServerFrame) :
    Eval Cx (Option ServerFrame) := do
  if frame.kind ≠ .request then return none
  else do
    let expr ← evalRequestFromFrame frames frame
    let (operator, args) ← Effect.ofExcept (parseCall expr)
    if operator.ns ≠ some "table" then return none
    else
      match args with
      | [] => Effect.fail (.eval "table/remote: missing path argument")
      | pathExpr :: rest => do
        let path ← Effect.ofExcept (parsePath pathExpr)
        match ← Effect.ofExcept (knownOp decodeTableOp operator rest) with
        | none => return none
        | some op => do
          let current ← currentDir tables root path
          if !tables.isTable current then Effect.fail (.typeMismatch "table" "non-table")
          else do
            let value ← runTableOp tables path current op
            return some (← frames.frameFromReply (replyCodec inner frame) value
              frame.envelope.consistency)

/-- The site that serves tables under `root` in front of an inner site. -/
def remoteTableSite (inner : EvalSite Cx Address) (root : Value) : EvalSite Cx Address where
  siteKind := "remote-table"
  address := inner.address
  codecs := inner.codecs
  answer frame := do
    match ← answerTableRequest tables frames decodeTableOp inner root frame with
    | some reply => return reply
    | none => inner.answer frame
  answerWithTimeout frame timeout := do
    match ← answerTableRequest tables frames decodeTableOp inner root frame with
    | some reply => return reply
    | none => inner.answerWithTimeout frame timeout
  closeConnection := inner.closeConnection

/-! ## What is passed on -/

def tableOps : List String :=
  ["get", "set", "cas", "has", "del", "keys", "entries", "len", "clear", "mkdir", "opendir",
    "rmdir", "dir?"]

/-- A call of one of the table operations, whatever its arguments. -/
def IsTableOp (expr : Expr Mode) : Prop :=
  ∃ name ∈ tableOps, ∃ args, expr = .call (.symbol (.qualified "table" name)) args

/-- The decoder takes the calls of the table operations for such, and no others. -/
def Recognises (decodeTableOp : Expr Mode → Except TableOpError (TableOp Mode)) : Prop :=
  ∀ name args, ((∃ unknown, decodeTableOp (.call (.symbol (.qualified "table" name)) args) =
      .error (.unknownOp unknown)) ∨
    decodeTableOp (.call (.symbol (.qualified "table" name)) args) = .error .notATableCall) ↔
      name ∉ tableOps

/-- The call names its operator, and with an operator under `table` it has a path. -/
def PassedOn (expr : Expr Mode) : Prop :=
  ∃ operator args, expr = .call (.symbol operator) args ∧
    (operator.ns = some "table" → ∃ path rest symbols,
      args = path :: rest ∧ parsePath path = .ok symbols)

variable {tables frames decodeTableOp} {inner : EvalSite Cx Address} {root : Value}

theorem knownOp_of_unknown (hdecode : Recognises decodeTableOp) (h : name ∉ tableOps) :
    knownOp decodeTableOp (.qualified "table" name) rest = .ok none := by
  unfold knownOp
  obtain ⟨unknown, hunknown⟩ | hcall := (hdecode name rest).mpr h
  · rw [hunknown]
  · rw [hcall]

theorem answerTableRequest_of_not_request (h : frame.kind ≠ .request) (cx : Cx) :
    answerTableRequest tables frames decodeTableOp inner root frame cx = (.ok none, cx) := by
  unfold answerTableRequest
  rw [if_pos h]
  rfl

theorem parseCall_eq_ok_iff {expr : Expr Mode} :
    parseCall expr = .ok (operator, args) ↔ expr = .call (.symbol operator) args := by
  constructor
  · intro h
    unfold parseCall at h
    split at h
    · cases h
      rfl
    · cases h
    · cases h
  · rintro rfl
    rfl

/-- What is done with a request that has been read. -/
theorem answerTableRequest_apply (hkind : frame.kind = .request)
    (hread : evalRequestFromFrame frames frame cx = (.ok expr, cx')) :
    answerTableRequest tables frames decodeTableOp inner root frame cx =
      (Effect.ofExcept (parseCall expr) >>= fun call =>
        if call.1.ns ≠ some "table" then pure none
        else
          match call.2 with
          | [] => Effect.fail (.eval "table/remote: missing path argument")
          | pathExpr :: rest => do
            let path ← Effect.ofExcept (parsePath pathExpr)
            match ← Effect.ofExcept (knownOp decodeTableOp call.1 rest) with
            | none => return none
            | some op => do
              let current ← currentDir tables root path
              if !tables.isTable current then Effect.fail (.typeMismatch "table" "non-table")
              else do
                let value ← runTableOp tables path current op
                return some (← frames.frameFromReply (replyCodec inner frame) value
                  frame.envelope.consistency)) cx' := by
  unfold answerTableRequest
  rw [if_neg (not_not.mpr hkind), Effect.bind_apply, hread]

theorem PassedOn.passes (h : PassedOn expr) (hdecode : Recognises decodeTableOp)
    (hkind : frame.kind = .request)
    (hread : evalRequestFromFrame frames frame cx = (.ok expr, cx')) (hop : ¬IsTableOp expr) :
    answerTableRequest tables frames decodeTableOp inner root frame cx = (.ok none, cx') := by
  obtain ⟨⟨ns, name⟩, args, rfl, hpath⟩ := h
  rw [answerTableRequest_apply hkind hread, Effect.bind_apply]
  dsimp only [Effect.ofExcept_apply, parseCall]
  by_cases hns : ns = some "table"
  · subst hns
    obtain ⟨path, rest, symbols, rfl, hsymbols⟩ := hpath rfl
    have hname : name ∉ tableOps := fun hmem => hop ⟨name, hmem, path :: rest, rfl⟩
    rw [if_neg (not_not.mpr rfl)]
    dsimp only
    rw [Effect.bind_apply, Effect.ofExcept_apply, hsymbols]
    dsimp only
    rw [Effect.bind_apply, Effect.ofExcept_apply, show knownOp decodeTableOp ⟨some "table", name⟩ rest = .ok none from
      knownOp_of_unknown hdecode hname]
    rfl
  · rw [if_pos hns]
    rfl

/-- What names no operator, or an operator under `table` without a path, is refused. -/
theorem refused_of_not_passedOn (h : ¬PassedOn expr) (hkind : frame.kind = .request)
    (hread : evalRequestFromFrame frames frame cx = (.ok expr, cx')) :
    ∃ e, ∀ (inner : EvalSite Cx Address) (root : Value),
      answerTableRequest tables frames decodeTableOp inner root frame cx = (.error e, cx') := by
  cases hcall : parseCall expr with
  | error e =>
    refine ⟨e, fun inner root => ?_⟩
    rw [answerTableRequest_apply hkind hread, Effect.bind_apply, Effect.ofExcept_apply, hcall]
  | ok call =>
    obtain ⟨operator, args⟩ := call
    have hexpr := parseCall_eq_ok_iff.mp hcall
    have hns : operator.ns = some "table" := by
      by_contra hns
      exact h ⟨operator, args, hexpr, fun htable => absurd htable hns⟩
    cases args with
    | nil =>
      refine ⟨.eval "table/remote: missing path argument", fun inner root => ?_⟩
      rw [answerTableRequest_apply hkind hread, Effect.bind_apply, Effect.ofExcept_apply, hcall]
      dsimp only
      rw [if_neg (not_not.mpr hns)]
      rfl
    | cons pathExpr rest =>
      cases hpath : parsePath pathExpr with
      | ok symbols =>
        exact absurd ⟨operator, _, hexpr, fun _ => ⟨pathExpr, rest, symbols, rfl, hpath⟩⟩ h
      | error e =>
        refine ⟨e, fun inner root => ?_⟩
        rw [answerTableRequest_apply hkind hread, Effect.bind_apply, Effect.ofExcept_apply, hcall]
        dsimp only
        rw [if_neg (not_not.mpr hns), Effect.bind_apply, Effect.ofExcept_apply, hpath]

/-- Both ways of asking a site give what the inner site gives. -/
def Transparent (tables : Tables Mode Cx Value) (frames : Frames Mode Cx Value)
    (decodeTableOp : Expr Mode → Except TableOpError (TableOp Mode)) (frame : ServerFrame)
    (cx : Cx) (inner : EvalSite Cx Address) (root : Value) : Prop :=
  (remoteTableSite tables frames decodeTableOp inner root).answer frame cx =
      inner.answer frame cx ∧
    ∀ timeout, (remoteTableSite tables frames decodeTableOp inner root).answerWithTimeout frame
      timeout cx = inner.answerWithTimeout frame timeout cx

theorem transparent_of_passed
    (h : answerTableRequest tables frames decodeTableOp inner root frame cx = (.ok none, cx)) :
    Transparent tables frames decodeTableOp frame cx inner root := by
  constructor
  · show (answerTableRequest tables frames decodeTableOp inner root frame >>= _) cx = _
    rw [Effect.bind_apply, h]
  · intro timeout
    show (answerTableRequest tables frames decodeTableOp inner root frame >>= _) cx = _
    rw [Effect.bind_apply, h]

/-- A frame that is no request is passed on. -/
theorem transparent_of_not_request (h : frame.kind ≠ .request) (cx : Cx)
    (inner : EvalSite Cx Address) (root : Value) :
    Transparent tables frames decodeTableOp frame cx inner root :=
  transparent_of_passed (answerTableRequest_of_not_request h cx)

/-- A site that gives a frame back. -/
def echo (address : Address) : EvalSite Cx Address where
  siteKind := "echo"
  address := address
  codecs := []
  answer frame := pure frame
  answerWithTimeout frame _ := pure frame
  closeConnection := pure ()

/-- A request that is no table operation is left to every inner site exactly when it is passed on,
and reading it leaves the context as it was. -/
theorem transparent_iff [Nonempty Value] [Nonempty Address] (hdecode : Recognises decodeTableOp)
    (hkind : frame.kind = .request)
    (hread : evalRequestFromFrame frames frame cx = (.ok expr, cx')) (hop : ¬IsTableOp expr) :
    (∀ (inner : EvalSite Cx Address) (root : Value),
      Transparent tables frames decodeTableOp frame cx inner root) ↔ PassedOn expr ∧ cx' = cx := by
  constructor
  · intro h
    obtain ⟨root⟩ := ‹Nonempty Value›
    obtain ⟨address⟩ := ‹Nonempty Address›
    have hecho := (h (echo address) root).1
    change (answerTableRequest tables frames decodeTableOp (echo address) root frame >>= _) cx =
      (.ok frame, cx) at hecho
    rw [Effect.bind_apply] at hecho
    by_cases hpassed : PassedOn expr
    · rw [hpassed.passes hdecode hkind hread hop] at hecho
      exact ⟨hpassed, congrArg Prod.snd hecho⟩
    · obtain ⟨e, he⟩ := refused_of_not_passedOn hpassed hkind hread
      rw [he] at hecho
      cases hecho
  · rintro ⟨hpassed, rfl⟩ inner root
    exact transparent_of_passed (hpassed.passes hdecode hkind hread hop)

end

namespace SiteSample

/-- No tables: every operation gives the one value there is. -/
def tables : Tables Unit Unit Unit where
  isDirectory _ := false
  isTable _ := false
  opendir _ _ := pure none
  mkdir _ _ := pure ()
  rmdir _ _ := pure ()
  isDir _ _ := pure false
  get _ _ := pure ()
  set _ _ _ := pure ()
  compareExchange _ _ _ _ := pure ⟨false, none⟩
  has _ _ := pure false
  del _ _ := pure ()
  keys _ := pure []
  entries _ := pure []
  len _ := pure 0
  clear _ := pure ()
  factory :=
    { expr := fun _ => pure ()
      nil := pure ()
      bool := fun _ => pure ()
      symbol := fun _ => pure ()
      string := fun _ => pure ()
      numberLiteral := fun _ _ => pure ()
      list := fun _ => pure ()
      table := fun _ => pure () }

def frame : ServerFrame where
  version := 1
  codec := .qualified "codec" "binary"
  msgId := none
  correlate := none
  kind := .request
  envelope :=
    { deadline := none
      consistency := .remoteOnly
      trace := false
      requiredCapabilities := []
      replyCodecHint := none
      role := none
      hop := 0
      triggerSource := none }
  payload := []

/-- Every frame asks for the same expression. -/
def frames (expr : Expr Unit) : Frames Unit Unit Unit where
  decodeExpr _ := pure (.map [Expr.entry "expr" expr])
  requestRest _ := pure ()
  frameFromReply _ _ _ := pure frame

def decodeTableOp : Expr Unit → Except TableOpError (TableOp Unit)
  | .call (.symbol ⟨some "table", name⟩) _ =>
    if name ∈ tableOps then .error (.badArity name) else .error (.unknownOp name)
  | _ => .error .notATableCall

theorem decodeTableOp_recognises : Recognises decodeTableOp := by
  intro name args
  unfold decodeTableOp Symbol.qualified
  by_cases h : name ∈ tableOps
  · simp [h]
  · simp [h]

/-- A request for the value of a name, and one for an operation that tables do not have. -/
def name : Expr Unit := .symbol (.new "x")
def bogus : Expr Unit := .call (.symbol (.qualified "table" "bogus")) []

theorem read (expr : Expr Unit) : evalRequestFromFrame (frames expr) frame () = (.ok expr, ()) := by
  unfold evalRequestFromFrame
  rfl

theorem not_isTableOp_name : ¬IsTableOp name := by
  rintro ⟨_, -, _, h⟩
  cases h

theorem not_isTableOp_bogus : ¬IsTableOp bogus := by
  rintro ⟨op, hop, args, h⟩
  cases h
  revert hop
  decide

/-- The inner site would give the frames back; both requests are refused. -/
theorem requests_refused :
    Recognises decodeTableOp ∧
    ¬IsTableOp name ∧ ¬Transparent tables (frames name) decodeTableOp frame () (echo ()) () ∧
    ¬IsTableOp bogus ∧ ¬Transparent tables (frames bogus) decodeTableOp frame () (echo ()) () := by
  refine ⟨decodeTableOp_recognises, not_isTableOp_name, fun h => ?_, not_isTableOp_bogus,
    fun h => ?_⟩
  · cases h.1
  · cases h.1

def fetch : Expr Unit := .call (.symbol (.new "fetch")) []

theorem not_isTableOp_fetch : ¬IsTableOp fetch := by
  rintro ⟨_, -, _, h⟩
  cases h

theorem fetch_transparent : PassedOn fetch ∧ ∀ (inner : EvalSite Unit Unit) (root : Unit),
    Transparent tables (frames fetch) decodeTableOp frame () inner root := by
  have hpassed : PassedOn fetch := ⟨.new "fetch", [], rfl, nofun⟩
  refine ⟨hpassed, ?_⟩
  exact (transparent_iff decodeTableOp_recognises rfl (read fetch) not_isTableOp_fetch).mpr
    ⟨hpassed, rfl⟩

end SiteSample

end SimAgentNet.TableRemote
