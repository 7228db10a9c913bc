import SimAgentNet.Mcp.Cassette

/-! # What redaction leaves

Redaction takes every secret text out of an expression, changes nothing more when it is done again,
and its result does not depend on what stands under a sensitive key, annotation or tag. -/

namespace SimAgentNet.Mcp
variable {Mode : Type}

mutual
/-- Every text in the expression. -/
def strings : Expr Mode → List String
  | .string text => [text]
  | .list items | .vector items | .set items | .block items => itemStrings items
  | .map fields => entryStrings fields
  | .call operator args => strings operator ++ itemStrings args
  | .infixOp _ left right => strings left ++ strings right
  | .prefixOp _ arg | .postfixOp _ arg => strings arg
  | .quote _ expr => strings expr
  | .annotated expr annotations => strings expr ++ annotationStrings annotations
  | .extension _ payload => strings payload
  | _ => []
termination_by structural e => e

def itemStrings : List (Expr Mode) → List String
  | [] => []
  | item :: items => strings item ++ itemStrings items
termination_by structural items => items

def entryStrings : List (Expr Mode × Expr Mode) → List String
  | [] => []
  | (key, value) :: fields => strings key ++ strings value ++ entryStrings fields
termination_by structural fields => fields

def annotationStrings : List (Symbol × Expr Mode) → List String
  | [] => []
  | (_, value) :: annotations => strings value ++ annotationStrings annotations
termination_by structural annotations => annotations
end

mutual
/-- The expressions differ at most in what stands under sensitive keys, annotations and tags. -/
inductive Alike : Expr Mode → Expr Mode → Prop
  | refl (e : Expr Mode) : Alike e e
  | list (h : AlikeItems items items') : Alike (.list items) (.list items')
  | vector (h : AlikeItems items items') : Alike (.vector items) (.vector items')
  | set (h : AlikeItems items items') : Alike (.set items) (.set items')
  | block (h : AlikeItems items items') : Alike (.block items) (.block items')
  | map (h : AlikeEntries fields fields') : Alike (.map fields) (.map fields')
  | call (h : Alike operator operator') (hs : AlikeItems args args') :
    Alike (.call operator args) (.call operator' args')
  | infixOp (h : Alike left left') (h' : Alike right right') :
    Alike (.infixOp operator left right) (.infixOp operator left' right')
  | prefixOp (h : Alike arg arg') : Alike (.prefixOp operator arg) (.prefixOp operator arg')
  | postfixOp (h : Alike arg arg') : Alike (.postfixOp operator arg) (.postfixOp operator arg')
  | quote (h : Alike expr expr') : Alike (.quote mode expr) (.quote mode expr')
  | annotated (h : Alike expr expr') (hs : AlikeAnnotations annotations annotations') :
    Alike (.annotated expr annotations) (.annotated expr' annotations')
  | extension (h : Alike payload payload') :
    Alike (.extension tag payload) (.extension tag payload')
  /-- What stands under a sensitive tag may be anything. -/
  | hidden (h : symbolIsSensitive tag = true) (payload payload' : Expr Mode) :
    Alike (.extension tag payload) (.extension tag payload')

inductive AlikeItems : List (Expr Mode) → List (Expr Mode) → Prop
  | nil : AlikeItems [] []
  | cons (h : Alike item item') (hs : AlikeItems items items') :
    AlikeItems (item :: items) (item' :: items')

inductive AlikeEntries : List (Expr Mode × Expr Mode) → List (Expr Mode × Expr Mode) → Prop
  | nil : AlikeEntries [] []
  | cons (hkey : Alike key key') (h : Alike value value') (hs : AlikeEntries fields fields') :
    AlikeEntries ((key, value) :: fields) ((key', value') :: fields')
  | hidden {key : Expr Mode} (h : sensitiveKey key = true) (value value' : Expr Mode)
    (hs : AlikeEntries fields fields') :
    AlikeEntries ((key, value) :: fields) ((key, value') :: fields')

inductive AlikeAnnotations : List (Symbol × Expr Mode) → List (Symbol × Expr Mode) → Prop
  | nil : AlikeAnnotations [] []
  | cons (h : Alike value value') (hs : AlikeAnnotations annotations annotations') :
    AlikeAnnotations ((key, value) :: annotations) ((key, value') :: annotations')
  | hidden (h : symbolIsSensitive key = true) (value value' : Expr Mode)
    (hs : AlikeAnnotations annotations annotations') :
    AlikeAnnotations ((key, value) :: annotations) ((key, value') :: annotations')
end

@[simp] theorem redactExpr_true (e : Expr Mode) : redactExpr e true = .string "[redacted]" := by
  cases e <;> rfl

theorem looksSecret_redacted : looksSecret "[redacted]" = false := by
  decide +kernel

/-- What a text is redacted to. -/
theorem redactExpr_string (text : String) : ∃ text', looksSecret text' = false ∧
    redactExpr (.string text) false = (.string text' : Expr Mode) := by
  cases h : looksSecret text with
  | true => exact ⟨"[redacted]", looksSecret_redacted, by simp [redactExpr, h]⟩
  | false => exact ⟨text, h, by simp [redactExpr, h]⟩

theorem redactExpr_of_not_secret {text : String} (h : looksSecret text = false) :
    redactExpr (.string text) false = (.string text : Expr Mode) := by
  simp [redactExpr, h]

/-- Redaction makes no key sensitive. -/
theorem sensitiveKey_of_redactExpr {key : Expr Mode}
    (h : sensitiveKey (redactExpr key false) = true) : sensitiveKey key = true := by
  cases key with
  | string text =>
    obtain ⟨text', hsafe, heq⟩ : ∃ text', looksSecret text' = false ∧
        redactExpr (.string text) false = (.string text' : Expr Mode) := redactExpr_string text
    rw [heq, sensitiveKey, hsafe] at h
    cases h
  | symbol | «local» => exact h
  | _ => simp [redactExpr, sensitiveKey] at h

/-- A value is redacted once and for all, whatever its key has become. -/
theorem redactExpr_again {value : Expr Mode} {sensitive again : Bool}
    (hvalue : redactExpr (redactExpr value false) false = redactExpr value false)
    (h : again = true → sensitive = true) :
    redactExpr (redactExpr value sensitive) again = redactExpr value sensitive := by
  cases sensitive with
  | true =>
    rw [redactExpr_true]
    cases again with
    | true => exact redactExpr_true _
    | false => exact redactExpr_of_not_secret looksSecret_redacted
  | false =>
    cases again with
    | true => exact nomatch h rfl
    | false => exact hvalue

mutual
/-- Redaction changes nothing more when it is done again. -/
theorem redactExpr_idem : ∀ e : Expr Mode, redactExpr (redactExpr e false) false = redactExpr e false
  | .nil | .bool _ | .number _ | .symbol _ | .local _ | .bytes _ => rfl
  | .string text => by
    obtain ⟨text', hsafe, heq⟩ := redactExpr_string text
    rw [heq, redactExpr_of_not_secret hsafe]
  | .list items | .vector items | .set items | .block items => by
    simp [redactExpr, redactItems_idem items]
  | .map fields => by
    simp [redactExpr, redactEntries_idem fields]
  | .call operator args => by
    simp [redactExpr, redactExpr_idem operator, redactItems_idem args]
  | .infixOp _ left right => by
    simp [redactExpr, redactExpr_idem left, redactExpr_idem right]
  | .prefixOp _ arg | .postfixOp _ arg => by
    simp [redactExpr, redactExpr_idem arg]
  | .quote _ expr => by
    simp [redactExpr, redactExpr_idem expr]
  | .annotated expr annotations => by
    simp [redactExpr, redactExpr_idem expr, redactAnnotations_idem annotations]
  | .extension tag payload => by
    simp [redactExpr, redactExpr_again (redactExpr_idem payload) fun h => h]
termination_by structural e => e

theorem redactItems_idem : ∀ items : List (Expr Mode),
    redactItems (redactItems items) = redactItems items
  | [] => rfl
  | item :: items => by
    rw [redactItems, redactItems, redactExpr_idem item, redactItems_idem items]
termination_by structural items => items

theorem redactEntries_idem : ∀ fields : List (Expr Mode × Expr Mode),
    redactEntries (redactEntries fields) = redactEntries fields
  | [] => rfl
  | (key, value) :: fields => by
    rw [redactEntries, redactEntries, redactExpr_idem key, redactEntries_idem fields,
      redactExpr_again (redactExpr_idem value) sensitiveKey_of_redactExpr]
termination_by structural fields => fields

theorem redactAnnotations_idem : ∀ annotations : List (Symbol × Expr Mode),
    redactAnnotations (redactAnnotations annotations) = redactAnnotations annotations
  | [] => rfl
  | (key, value) :: annotations => by
    rw [redactAnnotations, redactAnnotations, redactAnnotations_idem annotations,
      redactExpr_again (redactExpr_idem value) fun h => h]
termination_by structural annotations => annotations
end

/-- No text in the list looks secret. -/
def Safe (texts : List String) : Prop := ∀ text ∈ texts, looksSecret text = false

theorem safe_append {texts texts' : List String} (h : Safe texts) (h' : Safe texts') :
    Safe (texts ++ texts') := List.forall_mem_append.mpr ⟨h, h'⟩

theorem safe_value {value : Expr Mode} (h : Safe (strings (redactExpr value false)))
    (sensitive : Bool) : Safe (strings (redactExpr value sensitive)) := by
  cases sensitive with
  | false => exact h
  | true =>
    rw [redactExpr_true]
    intro text ht
    cases List.mem_singleton.mp ht
    exact looksSecret_redacted

mutual
/-- No text that is left looks secret. -/
theorem safe_redactExpr : ∀ e : Expr Mode, Safe (strings (redactExpr e false))
  | .nil | .bool _ | .number _ | .symbol _ | .local _ | .bytes _ => nofun
  | .string text => by
    obtain ⟨text', hsafe, heq⟩ := redactExpr_string text
    rw [heq]
    intro t ht
    cases List.mem_singleton.mp ht
    exact hsafe
  | .list items | .vector items | .set items | .block items => safe_redactItems items
  | .map fields => safe_redactEntries fields
  | .call operator args => safe_append (safe_redactExpr operator) (safe_redactItems args)
  | .infixOp _ left right => safe_append (safe_redactExpr left) (safe_redactExpr right)
  | .prefixOp _ arg | .postfixOp _ arg => safe_redactExpr arg
  | .quote _ expr => safe_redactExpr expr
  | .annotated expr annotations =>
    safe_append (safe_redactExpr expr) (safe_redactAnnotations annotations)
  | .extension tag payload => safe_value (safe_redactExpr payload) (symbolIsSensitive tag)
termination_by structural e => e

theorem safe_redactItems : ∀ items : List (Expr Mode), Safe (itemStrings (redactItems items))
  | [] => nofun
  | item :: items => safe_append (safe_redactExpr item) (safe_redactItems items)
termination_by structural items => items

theorem safe_redactEntries : ∀ fields : List (Expr Mode × Expr Mode),
    Safe (entryStrings (redactEntries fields))
  | [] => nofun
  | (key, value) :: fields =>
    safe_append (safe_append (safe_redactExpr key) (safe_value (safe_redactExpr value) _))
      (safe_redactEntries fields)
termination_by structural fields => fields

theorem safe_redactAnnotations : ∀ annotations : List (Symbol × Expr Mode),
    Safe (annotationStrings (redactAnnotations annotations))
  | [] => nofun
  | (_, value) :: annotations =>
    safe_append (safe_value (safe_redactExpr value) _) (safe_redactAnnotations annotations)
termination_by structural annotations => annotations
end

/-- A sensitive key is the same in expressions that are alike. -/
theorem Alike.sensitiveKey_eq {key key' : Expr Mode} (h : Alike key key') :
    sensitiveKey key = sensitiveKey key' := by
  cases h <;> rfl

mutual
/-- Expressions that are alike are redacted to the same. -/
theorem Alike.redactExpr_eq : ∀ {e e' : Expr Mode}, Alike e e' →
    ∀ sensitive, redactExpr e sensitive = redactExpr e' sensitive
  | _, _, _, true => by rw [redactExpr_true, redactExpr_true]
  | _, _, .refl e, false => rfl
  | _, _, .list h, false | _, _, .vector h, false | _, _, .set h, false
  | _, _, .block h, false => by
    simp [redactExpr, h.redactItems_eq]
  | _, _, .map h, false => by
    simp [redactExpr, h.redactEntries_eq]
  | _, _, .call h hs, false => by
    simp [redactExpr, h.redactExpr_eq, hs.redactItems_eq]
  | _, _, .infixOp h h', false => by
    simp [redactExpr, h.redactExpr_eq, h'.redactExpr_eq]
  | _, _, .prefixOp h, false | _, _, .postfixOp h, false | _, _, .quote h, false => by
    simp [redactExpr, h.redactExpr_eq]
  | _, _, .annotated h hs, false => by
    simp [redactExpr, h.redactExpr_eq, hs.redactAnnotations_eq]
  | _, _, .extension h, false => by
    simp [redactExpr, h.redactExpr_eq]
  | _, _, .hidden h payload payload', false => by
    simp [redactExpr, h]

theorem AlikeItems.redactItems_eq : ∀ {items items' : List (Expr Mode)}, AlikeItems items items' →
    redactItems items = redactItems items'
  | _, _, .nil => rfl
  | _, _, .cons h hs => by
    rw [redactItems, redactItems, h.redactExpr_eq, hs.redactItems_eq]

theorem AlikeEntries.redactEntries_eq : ∀ {fields fields' : List (Expr Mode × Expr Mode)},
    AlikeEntries fields fields' → redactEntries fields = redactEntries fields'
  | _, _, .nil => rfl
  | _, _, .cons hkey h hs => by
    rw [redactEntries, redactEntries, hkey.sensitiveKey_eq, hkey.redactExpr_eq, h.redactExpr_eq,
      hs.redactEntries_eq]
  | _, _, .hidden h value value' hs => by
    rw [redactEntries, redactEntries, h, redactExpr_true, redactExpr_true, hs.redactEntries_eq]

theorem AlikeAnnotations.redactAnnotations_eq :
    ∀ {annotations annotations' : List (Symbol × Expr Mode)},
      AlikeAnnotations annotations annotations' →
        redactAnnotations annotations = redactAnnotations annotations'
  | _, _, .nil => rfl
  | _, _, .cons h hs => by
    rw [redactAnnotations, redactAnnotations, h.redactExpr_eq, hs.redactAnnotations_eq]
  | _, _, .hidden h value value' hs => by
    rw [redactAnnotations, redactAnnotations, h, redactExpr_true, redactExpr_true,
      hs.redactAnnotations_eq]
end

/-- Redaction is stable, leaves no text that looks secret, hides what stands under sensitive keys,
annotations and tags, and leaves alone what has nothing to hide. -/
theorem redaction_complete :
    (∀ e : Expr Mode, redactExpr (redactExpr e false) false = redactExpr e false) ∧
    (∀ e : Expr Mode, ∀ text ∈ strings (redactExpr e false), looksSecret text = false) ∧
    (∀ e e' : Expr Mode, Alike e e' → redactExpr e false = redactExpr e' false) ∧
    ∀ e : Expr Mode, secretFree e = true → redactExpr e false = e :=
  ⟨redactExpr_idem, safe_redactExpr, fun _ _ h => h.redactExpr_eq false, redactExpr_of_secretFree⟩

end SimAgentNet.Mcp
