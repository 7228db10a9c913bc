import SimAgentNet.Agent.Privacy

/-! # Raw references in a request

What `no-raw` looks for. A symbol stands in an expression as a value, as a bare map key, or in one
of the places that the search passes over. -/

namespace SimAgentNet.Agent
variable {Mode : Type}

def isField (expr : Expr Mode) (name : String) : Bool := keyName expr == some name

mutual
def containsRawRef : Expr Mode → Bool
  | .symbol symbol => symbol.name == "raw-ref"
  | .list items | .vector items | .set items | .block items => anyRawRef items
  | .map entries => anyEntryRawRef entries
  | .call operator args => containsRawRef operator || anyRawRef args
  | .infixOp _ left right => containsRawRef left || containsRawRef right
  | .prefixOp _ arg | .postfixOp _ arg => containsRawRef arg
  | .quote _ expr | .annotated expr _ => containsRawRef expr
  | .extension _ payload => containsRawRef payload
  | _ => false
termination_by structural e => e

def anyRawRef : List (Expr Mode) → Bool
  | [] => false
  | item :: items => containsRawRef item || anyRawRef items
termination_by structural items => items

def anyEntryRawRef : List (Expr Mode × Expr Mode) → Bool
  | [] => false
  | (key, value) :: entries =>
    (isField key "raw-ref" || containsRawRef value) || anyEntryRawRef entries
termination_by structural entries => entries
end

def PrivacyPolicy.ensureNoRawRefs (policy : PrivacyPolicy) (expr : Expr Mode) : Except Error Unit :=
  if policy.noRaw && containsRawRef expr then
    .error (.eval "privacy no-raw rejected raw-ref in model request")
  else
    .ok ()

/-- Where a symbol stands. What is inside a key or an annotation stands there too. -/
inductive Place where
  | value
  | bareKey
  | key
  | local
  | operator
  | annotated
  | tag
deriving DecidableEq

/-- The places that the search looks at. -/
def Place.Searched : Place → Prop
  | .value | .bareKey => True
  | _ => False

def placed (place : Place) (symbol : Symbol) : List Place :=
  if symbol.name = "raw-ref" then [place] else []

/-- What is found in a part of an expression, at the place of the part. -/
def within (place : Place) (places : List Place) : List Place := places.map fun _ => place

mutual
/-- The places at which `raw-ref` stands in an expression. -/
def mentions : Expr Mode → List Place
  | .symbol symbol => placed .value symbol
  | .local symbol => placed .local symbol
  | .list items | .vector items | .set items | .block items => itemMentions items
  | .map entries => entryMentions entries
  | .call operator args => mentions operator ++ itemMentions args
  | .infixOp operator left right => placed .operator operator ++ (mentions left ++ mentions right)
  | .prefixOp operator arg | .postfixOp operator arg => placed .operator operator ++ mentions arg
  | .quote _ expr => mentions expr
  | .annotated expr annotations => mentions expr ++ annotationMentions annotations
  | .extension tag payload => placed .tag tag ++ mentions payload
  | _ => []
termination_by structural e => e

def itemMentions : List (Expr Mode) → List Place
  | [] => []
  | item :: items => mentions item ++ itemMentions items
termination_by structural items => items

def entryMentions : List (Expr Mode × Expr Mode) → List Place
  | [] => []
  | (key, value) :: entries =>
    within (if isField key "raw-ref" then .bareKey else .key) (mentions key) ++
      (mentions value ++ entryMentions entries)
termination_by structural entries => entries

def annotationMentions : List (Symbol × Expr Mode) → List Place
  | [] => []
  | (name, value) :: annotations =>
    placed .annotated name ++
      (within .annotated (mentions value) ++ annotationMentions annotations)
termination_by structural annotations => annotations
end

/-- A mention of `raw-ref` stands where the search looks. -/
def InSight (places : List Place) : Prop := ∃ place ∈ places, place.Searched

@[simp] theorem inSight_nil : ¬InSight [] := fun ⟨_, h, _⟩ => List.not_mem_nil h

@[simp] theorem inSight_append {places places' : List Place} :
    InSight (places ++ places') ↔ InSight places ∨ InSight places' := by
  simp only [InSight, List.mem_append, or_and_right, exists_or]

theorem inSight_placed {place : Place} {symbol : Symbol} :
    InSight (placed place symbol) ↔ symbol.name = "raw-ref" ∧ place.Searched := by
  rw [placed]
  split
  · simp [InSight, *]
  · simp [*]

theorem inSight_within {place : Place} {places : List Place} :
    InSight (within place places) ↔ places ≠ [] ∧ place.Searched := by
  cases places with
  | nil => simp [within]
  | cons first places =>
    constructor
    · rintro ⟨_, hmem, hsearched⟩
      obtain ⟨_, -, rfl⟩ := List.mem_map.mp hmem
      exact ⟨List.cons_ne_nil _ _, hsearched⟩
    · intro h
      exact ⟨place, List.mem_cons_self, h.2⟩

theorem isField_iff {expr : Expr Mode} {name : String} :
    isField expr name = true ↔ expr = .symbol (.new name) := by
  cases expr with
  | symbol symbol =>
    obtain ⟨ns, text⟩ := symbol
    simp only [isField, keyName, beq_iff_eq, Symbol.new, Expr.symbol.injEq, Symbol.mk.injEq]
    split
    · simp [*]
    · simp [*]
  | _ => simp [isField, keyName]

theorem inSight_key {key : Expr Mode} :
    InSight (within (if isField key "raw-ref" then Place.bareKey else .key) (mentions key)) ↔
      isField key "raw-ref" = true := by
  rw [inSight_within]
  by_cases hkey : isField key "raw-ref" = true
  · rw [if_pos hkey, isField_iff.mp hkey]
    exact iff_of_true ⟨List.cons_ne_nil _ _, trivial⟩ (isField_iff.mpr rfl)
  · rw [if_neg hkey]
    exact iff_of_false (fun h => h.2) hkey

mutual
/-- The search finds the mentions that are in its sight. -/
theorem containsRawRef_iff :
    ∀ expr : Expr Mode, containsRawRef expr = true ↔ InSight (mentions expr)
  | .symbol symbol => by
    rw [containsRawRef, mentions, inSight_placed, beq_iff_eq]
    exact (and_iff_left trivial).symm
  | .local symbol => by
    rw [containsRawRef, mentions, inSight_placed]
    · exact iff_of_false Bool.false_ne_true fun h => h.2
    all_goals nofun
  | .list items | .vector items | .set items | .block items => anyRawRef_iff items
  | .map entries => anyEntryRawRef_iff entries
  | .call operator args => by
    rw [containsRawRef, mentions, Bool.or_eq_true, inSight_append, containsRawRef_iff operator,
      anyRawRef_iff args]
  | .infixOp operator left right => by
    rw [containsRawRef, mentions, Bool.or_eq_true, inSight_append, inSight_append,
      containsRawRef_iff left, containsRawRef_iff right, inSight_placed]
    exact (or_iff_right fun h => h.2).symm
  | .prefixOp operator arg | .postfixOp operator arg => by
    rw [containsRawRef, mentions, inSight_append, containsRawRef_iff arg, inSight_placed]
    exact (or_iff_right fun h => h.2).symm
  | .quote mode expr => containsRawRef_iff expr
  | .annotated expr annotations => by
    rw [containsRawRef, mentions, inSight_append, containsRawRef_iff expr]
    exact (or_iff_left (not_inSight_annotations annotations)).symm
  | .extension tag payload => by
    rw [containsRawRef, mentions, inSight_append, containsRawRef_iff payload, inSight_placed]
    exact (or_iff_right fun h => h.2).symm
  | .nil | .bool _ | .number _ | .string _ | .bytes _ =>
    iff_of_false Bool.false_ne_true inSight_nil

theorem anyRawRef_iff : ∀ items : List (Expr Mode), anyRawRef items = true ↔
    InSight (itemMentions items)
  | [] => iff_of_false Bool.false_ne_true inSight_nil
  | item :: items => by
    rw [anyRawRef, itemMentions, Bool.or_eq_true, inSight_append, containsRawRef_iff item,
      anyRawRef_iff items]

theorem anyEntryRawRef_iff : ∀ entries : List (Expr Mode × Expr Mode),
    anyEntryRawRef entries = true ↔ InSight (entryMentions entries)
  | [] => iff_of_false Bool.false_ne_true inSight_nil
  | (key, value) :: entries => by
    rw [anyEntryRawRef, entryMentions, Bool.or_eq_true, Bool.or_eq_true, inSight_append,
      inSight_append, containsRawRef_iff value, anyEntryRawRef_iff entries, inSight_key, or_assoc]

theorem not_inSight_annotations : ∀ annotations : List (Symbol × Expr Mode),
    ¬InSight (annotationMentions annotations)
  | [] => inSight_nil
  | (name, value) :: annotations => by
    rw [annotationMentions, inSight_append, inSight_append, inSight_placed, inSight_within]
    rintro (h | h | h)
    · exact h.2
    · exact h.2
    · exact not_inSight_annotations annotations h
end

/-- A request that mentions `raw-ref` is refused under `no-raw` exactly when a mention of it is in
sight. -/
theorem ensureNoRawRefs_iff {policy : PrivacyPolicy} (hraw : policy.noRaw = true)
    {expr : Expr Mode} :
    (∃ error, policy.ensureNoRawRefs expr = .error error) ↔ InSight (mentions expr) := by
  rw [← containsRawRef_iff, PrivacyPolicy.ensureNoRawRefs, hraw, Bool.true_and]
  split
  · exact iff_of_true ⟨_, rfl⟩ ‹_›
  · exact iff_of_false nofun ‹_›

end SimAgentNet.Agent
