import SimAgentNet.Data.Effect
import SimAgentNet.OpenaiServer.Http

/-! # Tools and their arguments

The argument order of a function tool, and the positional arguments that its callable receives for
the named JSON arguments of a call. Names that were not supplied are skipped, so the positions are
kept exactly when no name is omitted before one that was supplied. -/

namespace SimAgentNet.OpenaiServer

/-! ## Values of the kernel -/

/-- The kernel's constructors of runtime values. -/
structure Factory (Value : Type) where
  nil : Except String Value
  bool : Bool → Except String Value
  numberLiteral : Symbol → String → Except String Value
  string : String → Except String Value
  list : List Value → Except String Value
  table : List (Symbol × Value) → Except String Value

section Values
variable {Value : Type} (factory : Factory Value)

mutual
def jsonToValue : Json → Except String Value
  | .null => factory.nil
  | .bool value => factory.bool value
  | .number text => factory.numberLiteral (.qualified "numbers" "f64") text
  | .string value => factory.string value
  | .array items => jsonsToValues items >>= factory.list
  | .object entries => entriesToValues entries >>= factory.table
termination_by structural json => json

def jsonsToValues : List Json → Except String (List Value)
  | [] => .ok []
  | item :: items => do
    let value ← jsonToValue item
    let values ← jsonsToValues items
    return value :: values
termination_by structural items => items

def entriesToValues : List (String × Json) → Except String (List (Symbol × Value))
  | [] => .ok []
  | (key, json) :: entries => do
    let value ← jsonToValue json
    let values ← entriesToValues entries
    return (.new key, value) :: values
termination_by structural entries => entries
end

end Values

/-! ## Tools -/

/-- The JSON Schema package: whether a schema is supported, and whether it accepts a value. -/
structure SchemaApi where
  validateSupportedSchema : (schema : Json) → (path : String) → Except String Unit
  validateSchema : (schema value : Json) → (path : String) → Except String Unit

def defaultParameters : Json :=
  .object [("properties", .object []), ("required", .array []), ("type", .string "object")]

/-- A field of a JSON value; only objects have any. -/
def Json.get (json : Json) (name : String) : Option Json := json.asObject.bind (·.get name)

def Json.asArray : Json → Option (List Json)
  | .array items => some items
  | _ => none

/-- Adds the names that are not in the order yet. -/
def pushNew (order names : List String) : List String :=
  names.foldl (fun order name => if name ∈ order then order else order ++ [name]) order

/-- The required names, then the other properties. -/
def argumentOrder (parameters : Json) : List String :=
  let required := ((parameters.get "required").bind Json.asArray).getD []
  let properties := ((parameters.get "properties").bind Json.asObject).getD []
  pushNew (pushNew [] (required.filterMap Json.asStr)) (properties.map (·.1))

/-- A function tool bound to a callable. -/
structure OpenAiTool where
  openaiName : String
  symbol : Symbol
  parameters : Json
  argOrder : List String
  capabilities : List String

namespace OpenAiTool
variable (schema : SchemaApi)

def new (openaiName : String) (symbol : Symbol) (parameters : Json) (capabilities : List String) :
    Except String OpenAiTool := do
  schema.validateSupportedSchema parameters "function.parameters"
  return ⟨openaiName, symbol, parameters, argumentOrder parameters, capabilities⟩

def validateArguments (self : OpenAiTool) (arguments : Json) : Except String Unit :=
  schema.validateSchema self.parameters arguments "arguments"

/-- The values passed to the callable: those of the supplied names, in the argument order. -/
def argumentValues {Value : Type} (factory : Factory Value) (self : OpenAiTool)
    (arguments : Json) : Except String (List Value) := do
  self.validateArguments schema arguments
  match arguments.asObject with
  | none => .error "tool arguments must be an object"
  | some object => (self.argOrder.filterMap object.get).mapM (jsonToValue factory)

end OpenAiTool

/-! ## Positions -/

section Positions

/-- The kept elements of a list keep their positions exactly when nothing is dropped before
something that is kept. -/
theorem filterMap_positions_iff {g : α → Option β} {l : List α} :
    (∀ (i : Nat) b, (l.filterMap g)[i]? = some b → ∃ a, l[i]? = some a ∧ g a = some b) ↔
      l.Pairwise fun a a' => (g a').isSome → (g a).isSome := by
  induction l with
  | nil => simp
  | cons a l ih =>
    cases hg : g a with
    | some b =>
      rw [List.filterMap_cons_some hg, List.pairwise_cons, ← ih]
      constructor
      · intro h
        exact ⟨fun _ _ _ => by rw [hg]; rfl, fun i c hc => h (i + 1) c hc⟩
      · rintro ⟨-, h⟩ i c hc
        cases i with
        | zero =>
          cases hc
          exact ⟨a, rfl, hg⟩
        | succ i => exact h i c hc
    | none =>
      rw [List.filterMap_cons_none hg, List.pairwise_cons]
      constructor
      · intro h
        have hdropped : ∀ a' ∈ l, g a' = none := by
          -- a kept element would stand first, in the position of `a`
          by_contra hkept
          have hne : l.filterMap g ≠ [] := fun hnil => hkept (List.filterMap_eq_nil_iff.mp hnil)
          obtain ⟨b, rest, hb⟩ := List.exists_cons_of_ne_nil hne
          obtain ⟨a', ha, hga⟩ := h 0 b (by rw [hb]; rfl)
          cases ha
          rw [hg] at hga
          cases hga
        refine ⟨fun a' ha hs => ?_, ?_⟩
        · rw [hdropped a' ha] at hs
          cases hs
        · refine List.pairwise_iff_forall_sublist.mpr fun hsub hs => ?_
          rw [hdropped _ (hsub.subset (by simp))] at hs
          cases hs
      · rintro ⟨hfirst, -⟩ i b hb
        obtain ⟨a', ha, hga⟩ := List.mem_filterMap.mp (List.mem_of_getElem? hb)
        have hsome := hfirst a' ha (by rw [hga]; rfl)
        rw [hg] at hsome
        cases hsome

/-- Converting what a list supplies, when every conversion succeeds. -/
theorem filterMap_mapM_eq_ok {get : α → Option β} {f : β → Except ε γ} {l : List α}
    (h : (l.filterMap get).mapM f = .ok values) :
    values = l.filterMap (fun a => (get a).bind fun b => (f b).toOption) ∧
      ∀ a ∈ l, ((get a).bind fun b => (f b).toOption).isSome = (get a).isSome := by
  induction l generalizing values with
  | nil =>
    cases h
    exact ⟨rfl, nofun⟩
  | cons a l ih =>
    cases hg : get a with
    | none =>
      rw [List.filterMap_cons_none hg] at h
      obtain ⟨hvalues, hall⟩ := ih h
      rw [List.filterMap_cons_none (by rw [hg]; rfl)]
      exact ⟨hvalues, List.forall_mem_cons.mpr ⟨by rw [hg]; rfl, hall⟩⟩
    | some b =>
      rw [List.filterMap_cons_some hg, List.mapM_cons] at h
      obtain ⟨v, hv, h⟩ := Except.bind_eq_ok_iff.mp h
      obtain ⟨vs, hvs, h⟩ := Except.bind_eq_ok_iff.mp h
      cases h
      obtain ⟨hvalues, hall⟩ := ih hvs
      have hgv : ((get a).bind fun b => (f b).toOption) = some v := by
        rw [hg, Option.bind_some, hv]
        rfl
      refine ⟨?_, List.forall_mem_cons.mpr ⟨by rw [hgv, hg]; rfl, hall⟩⟩
      rw [List.filterMap_cons, hgv, ← hvalues]

end Positions

namespace OpenAiTool
variable {Value : Type}

/-- The `i`-th value is the one supplied for the `i`-th name of the argument order. -/
def Positional (factory : Factory Value) (tool : OpenAiTool) (object : JsonObject)
    (values : List Value) : Prop :=
  ∀ (i : Nat) v, values[i]? = some v → ∃ name json, tool.argOrder[i]? = some name ∧
    object.get name = some json ∧ jsonToValue factory json = .ok v

/-- No name of the argument order is omitted before one that is supplied. -/
def Gapless (tool : OpenAiTool) (object : JsonObject) : Prop :=
  tool.argOrder.Pairwise fun earlier later => (object.get later).isSome → (object.get earlier).isSome

variable {schema : SchemaApi} {factory : Factory Value} {parameters : Json} {tool : OpenAiTool}
  {object : JsonObject} {values : List Value} {name : String} {target : Symbol}
  {capabilities : List String}

/-- The arguments that a callable receives keep their positions exactly when no name of the
argument order is omitted before a supplied one. -/
theorem argumentValues_positional_iff
    (htool : new schema name target parameters capabilities = .ok tool)
    (h : tool.argumentValues schema factory (.object object) = .ok values) :
    tool.argOrder = argumentOrder parameters ∧
      (tool.Positional factory object values ↔ tool.Gapless object) := by
  obtain ⟨-, -, htool⟩ := Except.bind_eq_ok_iff.mp htool
  cases htool
  obtain ⟨-, -, h⟩ := Except.bind_eq_ok_iff.mp h
  obtain ⟨hvalues, hall⟩ := filterMap_mapM_eq_ok h
  refine ⟨rfl, ?_⟩
  have hconverted : ∀ name v, ((object.get name).bind fun json =>
      (jsonToValue factory json).toOption) = some v ↔
        ∃ json, object.get name = some json ∧ jsonToValue factory json = .ok v := by
    intro name v
    rw [Option.bind_eq_some_iff]
    refine exists_congr fun json => and_congr_right fun _ => ?_
    cases jsonToValue factory json <;> simp [Except.toOption]
  have hpositions := filterMap_positions_iff
    (g := fun name => (object.get name).bind fun json => (jsonToValue factory json).toOption)
    (l := argumentOrder parameters)
  rw [← hvalues] at hpositions
  simp only [hconverted] at hpositions
  refine Iff.trans ?_ (hpositions.trans ?_)
  · exact forall_congr' fun i => forall_congr' fun v => imp_congr_right fun _ =>
      exists_congr fun name => exists_and_left
  · refine List.Pairwise.iff_of_mem fun {earlier later} he hl => ?_
    rw [hall earlier he, hall later hl]

end OpenAiTool

namespace Sample

/-- Values are the JSON texts they were built from. -/
def factory : Factory String where
  nil := .ok "null"
  bool b := .ok (toString b)
  numberLiteral _ text := .ok text
  string text := .ok text
  list items := .ok (String.join items)
  table entries := .ok (String.join (entries.map (·.2)))

/-- A schema package that accepts every schema and every value. -/
def schema : SchemaApi := ⟨fun _ _ => .ok (), fun _ _ _ => .ok ()⟩

/-- Three names, of which `path` is required. -/
def parameters : Json :=
  .object [("properties", .object [("limit", .object []), ("path", .object []), ("query", .object [])]),
    ("required", .array [.string "path"])]

def searchTool : OpenAiTool :=
  ⟨"search", .new "search", parameters, argumentOrder parameters, []⟩

/-- `limit` is omitted. -/
def searchArguments : JsonObject := [("path", .string "/tmp"), ("query", .string "x")]

end Sample

/-- The optional `limit` comes before `query`; without it, the query is passed as the limit. -/
theorem query_passed_as_limit :
    Sample.searchTool.argOrder = ["path", "limit", "query"] ∧
    Sample.searchTool.argumentValues Sample.schema Sample.factory
      (.object Sample.searchArguments) = .ok ["/tmp", "x"] ∧
    ¬Sample.searchTool.Positional Sample.factory Sample.searchArguments ["/tmp", "x"] := by
  refine ⟨by decide, by decide, fun h => ?_⟩
  obtain ⟨name, json, hname, hget, -⟩ := h 1 "x" rfl
  cases hname
  cases hget

theorem argumentValues_positional_query :
    OpenAiTool.new Sample.schema "search" (.new "search") Sample.parameters [] =
      .ok Sample.searchTool ∧
    Sample.searchTool.argumentValues Sample.schema Sample.factory
      (.object Sample.searchArguments) = .ok ["/tmp", "x"] ∧
    (Sample.searchTool.Positional Sample.factory Sample.searchArguments ["/tmp", "x"] ↔
      Sample.searchTool.Gapless Sample.searchArguments) := by
  have htool : OpenAiTool.new Sample.schema "search" (.new "search") Sample.parameters [] =
      .ok Sample.searchTool := rfl
  have hvalues : Sample.searchTool.argumentValues Sample.schema Sample.factory
      (.object Sample.searchArguments) = .ok ["/tmp", "x"] := rfl
  exact ⟨htool, hvalues, (OpenAiTool.argumentValues_positional_iff htool hvalues).2⟩

end SimAgentNet.OpenaiServer
