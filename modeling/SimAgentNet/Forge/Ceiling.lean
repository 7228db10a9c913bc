import SimAgentNet.Data.SortedMap
import SimAgentNet.Kernel.Expr

/-! # The capability ceiling

Which capabilities a form asks for, and which of them a ceiling allows. The guard looks for
capability symbols that stand as expressions of their own; a symbol can occur in an expression in
other places too. -/

namespace SimAgentNet.Forge
variable {Mode : Type}

/-! ## Capability names -/

def capabilityName (symbol : Symbol) : String :=
  if symbol.ns = some "capability" then symbol.name else symbol.display

def capabilityAllowed (required : Symbol) (ceiling : List Symbol) : Bool :=
  (ceiling.map capabilityName).any (· = capabilityName required)

/-- The first required capability that the ceiling does not allow. -/
def outsideCeiling (required ceiling : List Symbol) : Option Symbol :=
  required.find? fun symbol => !capabilityAllowed symbol ceiling

def outsideCeilingReason (required ceiling : List Symbol) : Option String :=
  (outsideCeiling required ceiling).map fun symbol =>
    "form requires capability " ++ symbol.display ++ " outside projection ceiling"

def ceilingNames (ceiling : List Symbol) : SortedSet String := .ofList (ceiling.map capabilityName)

def diminishedCapabilities (current : SortedSet String) (ceiling : List Symbol) :
    SortedSet String :=
  current ∩ ceilingNames ceiling

theorem outsideCeiling_eq_none {required ceiling : List Symbol} :
    outsideCeiling required ceiling = none ↔
      ∀ symbol ∈ required, capabilityAllowed symbol ceiling = true := by
  simp [outsideCeiling]

theorem diminishedCapabilities_subset {current : SortedSet String} {ceiling : List Symbol} :
    diminishedCapabilities current ceiling ⊆ current ∧
      diminishedCapabilities current ceiling ⊆ ceilingNames ceiling :=
  ⟨fun _ h => (SortedSet.mem_inter.mp h).1, fun _ h => (SortedSet.mem_inter.mp h).2⟩

/-! ## What a form requires -/

def isCapability (symbol : Symbol) : Bool := symbol.ns = some "capability"

mutual
def collectRequiredCapabilities :
    Expr Mode → SortedSet Symbol → SortedSet Symbol
  | .symbol symbol, required => if isCapability symbol then required.insert symbol else required
  | .list items, required | .vector items, required | .set items, required
  | .block items, required => collectFromItems items required
  | .map entries, required => collectFromEntries entries required
  | .call operator args, required =>
    collectFromItems args (collectRequiredCapabilities operator required)
  | .infixOp _ left right, required =>
    collectRequiredCapabilities right (collectRequiredCapabilities left required)
  | .prefixOp _ arg, required | .postfixOp _ arg, required =>
    collectRequiredCapabilities arg required
  | .quote _ expr, required | .annotated expr _, required =>
    collectRequiredCapabilities expr required
  | .extension _ payload, required => collectRequiredCapabilities payload required
  | .nil, required | .bool _, required | .number _, required | .local _, required
  | .string _, required | .bytes _, required => required
termination_by structural e => e

def collectFromItems : List (Expr Mode) → SortedSet Symbol → SortedSet Symbol
  | [], required => required
  | item :: items, required =>
    collectFromItems items (collectRequiredCapabilities item required)
termination_by structural items => items

def collectFromEntries :
    List (Expr Mode × Expr Mode) → SortedSet Symbol → SortedSet Symbol
  | [], required => required
  | (key, value) :: entries, required =>
    collectFromEntries entries
      (collectRequiredCapabilities value (collectRequiredCapabilities key required))
termination_by structural entries => entries
end

def requiredCapabilitiesForForm (expr : Expr Mode) : List Symbol :=
  (collectRequiredCapabilities expr ∅).elems

/-! ## Every symbol of a form -/

/-- Where a symbol stands in an expression: as an expression of its own, or as a part of another
node. All that is in an annotation stands in the annotation. -/
inductive Place where
  | value
  | «local»
  | domain
  | operator
  | annotated
  | tag
deriving DecidableEq

mutual
/-- All symbols of an expression, with the places where they stand. -/
def occurrences : Expr Mode → List (Place × Symbol)
  | .nil | .bool _ | .string _ | .bytes _ => []
  | .number literal => [(.domain, literal.domain)]
  | .symbol symbol => [(.value, symbol)]
  | .local symbol => [(.local, symbol)]
  | .list items | .vector items | .set items | .block items => itemOccurrences items
  | .map entries => entryOccurrences entries
  | .call operator args => occurrences operator ++ itemOccurrences args
  | .infixOp operator left right =>
    (.operator, operator) :: (occurrences left ++ occurrences right)
  | .prefixOp operator arg | .postfixOp operator arg => (.operator, operator) :: occurrences arg
  | .quote _ expr => occurrences expr
  | .annotated expr annotations => occurrences expr ++ annotationOccurrences annotations
  | .extension tag payload => (.tag, tag) :: occurrences payload
termination_by structural e => e

def itemOccurrences : List (Expr Mode) → List (Place × Symbol)
  | [] => []
  | item :: items => occurrences item ++ itemOccurrences items
termination_by structural items => items

def entryOccurrences : List (Expr Mode × Expr Mode) → List (Place × Symbol)
  | [] => []
  | (key, value) :: entries => occurrences key ++ occurrences value ++ entryOccurrences entries
termination_by structural entries => entries

def annotationOccurrences : List (Symbol × Expr Mode) → List (Place × Symbol)
  | [] => []
  | (name, value) :: annotations =>
    (.annotated, name) :: ((occurrences value).map fun occurrence =>
      (.annotated, occurrence.2)) ++ annotationOccurrences annotations
termination_by structural annotations => annotations
end

theorem not_value_mem_annotationOccurrences {symbol : Symbol}
    {annotations : List (Symbol × Expr Mode)} :
    (.value, symbol) ∉ annotationOccurrences annotations := by
  induction annotations with
  | nil => exact List.not_mem_nil
  | cons annotation annotations ih =>
    obtain ⟨name, value⟩ := annotation
    simp [annotationOccurrences, ih]

/-- The collected symbols are those found so far and the capability symbols that stand as
expressions of their own. -/
def Collects (found : SortedSet Symbol → SortedSet Symbol) (all : List (Place × Symbol)) : Prop :=
  ∀ required symbol, symbol ∈ found required ↔
    symbol ∈ required ∨ isCapability symbol = true ∧ (.value, symbol) ∈ all

theorem Collects.id {all : List (Place × Symbol)} (h : ∀ symbol, (.value, symbol) ∉ all) :
    Collects id all := by
  intro required symbol
  simp [h symbol]

theorem Collects.comp {found found' : SortedSet Symbol → SortedSet Symbol}
    {all all' : List (Place × Symbol)} (h : Collects found all) (h' : Collects found' all') :
    Collects (found' ∘ found) (all ++ all') := by
  intro required symbol
  rw [Function.comp_apply, h', h, List.mem_append, and_or_left, or_assoc]

/-- What stands in another place is not collected. -/
theorem Collects.cons {found : SortedSet Symbol → SortedSet Symbol} {all : List (Place × Symbol)}
    {place : Place} {symbol : Symbol} (h : Collects found all) (hplace : place ≠ .value) :
    Collects found ((place, symbol) :: all) := by
  intro required other
  rw [h, List.mem_cons]
  simp [hplace.symm]

theorem Collects.symbol {symbol : Symbol} :
    Collects (fun required => collectRequiredCapabilities (.symbol symbol : Expr Mode) required)
      [(.value, symbol)] := by
  intro required other
  show other ∈ (if isCapability symbol = true then required.insert symbol else required) ↔ _
  split
  · next h =>
    rw [SortedSet.mem_insert, List.mem_singleton, Prod.mk.injEq]
    constructor
    · rintro (rfl | hmem)
      · exact .inr ⟨h, rfl, rfl⟩
      · exact .inl hmem
    · rintro (hmem | ⟨-, -, rfl⟩)
      · exact .inr hmem
      · exact .inl rfl
  · next h =>
    constructor
    · exact .inl
    · rintro (hmem | ⟨hcapability, hother⟩)
      · exact hmem
      · cases List.mem_singleton.mp hother
        exact absurd hcapability h

mutual
theorem collectRequiredCapabilities_collects : ∀ expr : Expr Mode,
    Collects (collectRequiredCapabilities expr) (occurrences expr)
  | .nil | .bool _ | .string _ | .bytes _ => .id fun _ => List.not_mem_nil
  | .number _ | .local _ => .id fun _ => by simp [occurrences]
  | .symbol _ => .symbol
  | .list items | .vector items | .set items | .block items => collectFromItems_collects items
  | .map entries => collectFromEntries_collects entries
  | .call operator args =>
    (collectRequiredCapabilities_collects operator).comp (collectFromItems_collects args)
  | .infixOp _ left right =>
    ((collectRequiredCapabilities_collects left).comp
      (collectRequiredCapabilities_collects right)).cons nofun
  | .prefixOp _ arg | .postfixOp _ arg => (collectRequiredCapabilities_collects arg).cons nofun
  | .quote _ expr => collectRequiredCapabilities_collects expr
  | .annotated expr annotations =>
    (collectRequiredCapabilities_collects expr).comp
      (.id fun _ => not_value_mem_annotationOccurrences)
  | .extension _ payload => (collectRequiredCapabilities_collects payload).cons nofun
termination_by structural e => e

theorem collectFromItems_collects : ∀ items : List (Expr Mode),
    Collects (collectFromItems items) (itemOccurrences items)
  | [] => .id fun _ => List.not_mem_nil
  | item :: items =>
    (collectRequiredCapabilities_collects item).comp (collectFromItems_collects items)
termination_by structural items => items

theorem collectFromEntries_collects : ∀ entries : List (Expr Mode × Expr Mode),
    Collects (collectFromEntries entries) (entryOccurrences entries)
  | [] => .id fun _ => List.not_mem_nil
  | (key, value) :: entries =>
    ((collectRequiredCapabilities_collects key).comp
      (collectRequiredCapabilities_collects value)).comp (collectFromEntries_collects entries)
termination_by structural entries => entries
end

/-- What a form is held to: the capability symbols that stand as expressions of their own. -/
theorem mem_requiredCapabilitiesForForm {form : Expr Mode} {symbol : Symbol} :
    symbol ∈ requiredCapabilitiesForForm form ↔
      isCapability symbol = true ∧ (.value, symbol) ∈ occurrences form := by
  refine (collectRequiredCapabilities_collects form ∅ symbol).trans ?_
  simp

/-- The capability symbols of a form in the given places are all allowed. -/
def Authorised (allowed : Symbol → Prop) (places : Place → Prop) (form : Expr Mode) : Prop :=
  ∀ place symbol, (place, symbol) ∈ occurrences form → places place →
    isCapability symbol = true → allowed symbol

/-- A form that is allowed what it is held to is allowed all that it names when it is allowed what
it names where the guard does not look. -/
theorem authorised_iff {allowed : Symbol → Prop} {form : Expr Mode}
    (h : ∀ symbol ∈ requiredCapabilitiesForForm form, allowed symbol) :
    Authorised allowed (fun _ => True) form ↔ Authorised allowed (· ≠ .value) form := by
  constructor
  · intro hall place symbol hmem _ hcapability
    exact hall place symbol hmem trivial hcapability
  · intro hother place symbol hmem _ hcapability
    by_cases hplace : place = .value
    · subst hplace
      exact h symbol (mem_requiredCapabilitiesForForm.mpr ⟨hcapability, hmem⟩)
    · exact hother place symbol hmem hplace hcapability

end SimAgentNet.Forge
