import SimAgentNet.Data.Number
import SimAgentNet.Data.Run
import SimAgentNet.AgentConductCore.Budget

/-! # The field codecs of a run frame

How usage, state and the journal head of a frame are written as expressions and read back. Two
codecs write usage alike; the one of `quantity_field` sorts what it reads. What the derive macro
makes of a record is a parameter. `field_codecs_iff` says when all of them agree. -/

namespace SimAgentNet.AgentConductCore
variable {Mode : Type}

/-! ## Quantities -/

def integer (value : UInt64) : Expr Mode :=
  .number ⟨.qualified "citizen" "int", toString value.toNat⟩

def encodeQuantities (values : List UsageQuantity) : Expr Mode :=
  .list (values.map fun q => .list [.symbol q.unit, integer q.amount])

/-- A row of a unit and an amount; the texts are those of its refusals. -/
def readRow (notList notPair notAmount : String) : Expr Mode → Except String UsageQuantity
  | .list parts =>
    match parts with
    | [.symbol unit, .number number] =>
      match Number.parse (2 ^ 64) number.canonical.toList with
      | some n => .ok ⟨unit, .ofNat n⟩
      | none => .error notAmount
    | _ => .error notPair
  | _ => .error notList

namespace QuantityField

def decode : Expr Mode → Except String (List UsageQuantity)
  | .list rows => do
    let values ← rows.mapM (readRow "usage quantity must be (unit amount)"
      "usage quantity must contain a symbol and integer"
      "usage amount must be a non-negative u64 integer")
    (unique values).mapError UsageError.message
    return StableSort.sortBy (·.unit.display) values
  | _ => .error "usage quantities must be a list"

end QuantityField

namespace UsageField

def encode (usage : AgentUsage) : Expr Mode := encodeQuantities usage.quantities

def decode : Expr Mode → Except String AgentUsage
  | .list rows => do
    let values ← rows.mapM (readRow "usage row must be a list" "usage row must be (unit amount)"
      "usage amount must be a non-negative u64")
    (AgentUsage.new values).mapError UsageError.message
  | _ => .error "usage must be a list"

end UsageField

/-! ## State -/

namespace StateEntries

def standard : List String := ["history", "pending-tools", "plan", "phase", "candidate"]

def encode (entries : List (Symbol × Expr Mode)) : Expr Mode :=
  .map (entries.map fun e => (.symbol e.1, e.2))

/-- Standard keys are bare, extension keys have a namespace, and no two keys have one text. -/
def checkKey (seen : SortedSet String) (e : Symbol × Expr Mode) :
    Except String (SortedSet String) := do
  let seen ← Keyed.addFresh (·.1.display) (fun e => "duplicate run-state entry " ++ e.1.display)
    seen e
  if e.1.ns = none ∧ e.1.name ∉ standard then
    .error ("extension run-state key " ++ e.1.display ++ " must be namespaced")
  else return seen

def validate (entries : List (Symbol × Expr Mode)) : Except String Unit := do
  let _ ← entries.foldlM checkKey ∅
  standard.forM fun required =>
    if entries.any fun e => e.1.ns = none ∧ e.1.name = required then .ok ()
    else .error ("run state is missing standard entry " ++ required)

def readEntry (row : Expr Mode × Expr Mode) : Except String (Symbol × Expr Mode) :=
  match row.1 with
  | .symbol key => .ok (key, row.2)
  | _ => .error "run state keys must be symbols"

def decode : Expr Mode → Except String (List (Symbol × Expr Mode))
  | .map rows => do
    let entries ← rows.mapM readEntry
    validate entries
    return entries
  | _ => .error "run state must be a map"

end StateEntries

namespace AgentRunState

def new (entries : List (Symbol × Expr Mode)) : Except String (AgentRunState Mode) := do
  StateEntries.validate entries
  return ⟨entries⟩

/-- Inserts or replaces one entry. -/
def upsert (key : Symbol) (value : Expr Mode) : Effect String (AgentRunState Mode) Unit := do
  let state ← .get
  let entries := state.entries.filter (·.1 ≠ key) ++ [(key, value)]
  .ofExcept (StateEntries.validate entries)
  .modify fun _ => ⟨StableSort.sortBy (·.1.display) entries⟩

/-- The states that `new` and `upsert` lead to. -/
inductive Built : AgentRunState Mode → Prop
  | new {entries : List (Symbol × Expr Mode)} (h : AgentRunState.new entries = .ok state) :
    Built state
  | upsert (h : Built state) (key : Symbol) (value : Expr Mode) :
    Built (AgentRunState.upsert key value state).2

end AgentRunState

namespace RunStateField

def encode (state : AgentRunState Mode) : Expr Mode := StateEntries.encode state.entries

def decode (e : Expr Mode) : Except String (AgentRunState Mode) := do
  AgentRunState.new (← StateEntries.decode e)

end RunStateField

/-! ## The journal head -/

/-- The text of a canonical hash. -/
def IsHash (hash : String) : Prop :=
  "sha256:".toList <+: hash.toList ∧ hash.utf8ByteSize = 71

instance (hash : String) : Decidable (IsHash hash) := inferInstanceAs (Decidable (_ ∧ _))

namespace HeadField

def encode (head : AgentJournalHead) : Expr Mode :=
  .list [integer head.sequence, head.hash.elim .nil .string]

def decode : Expr Mode → Except String AgentJournalHead
  | .list [.number sequence, hash] => do
    let sequence ← match Number.parse (2 ^ 64) sequence.canonical.toList with
      | some n => .ok (.ofNat n)
      | none => .error "journal sequence must be a u64"
    let hash ← match hash with
      | .nil => .ok none
      | .string value =>
        if IsHash value then .ok (some value)
        else .error "journal hash must be canonical sha256"
      | _ => .error "journal hash must be string or nil"
    return ⟨sequence, hash⟩
  | .list _ => .error "journal head must be (sequence hash)"
  | _ => .error "journal head must be a list"

end HeadField

/-! ## Frames -/

/-- What the derive macro makes of a symbol field and of a record. -/
structure RecordCodec (Mode : Type) where
  symbol : Symbol → Expr Mode
  readSymbol : Expr Mode → Except String Symbol
  record : String → List (String × Expr Mode) → Expr Mode
  fields : String → List String → Expr Mode → Except String (List (Expr Mode))

/-- What is written is read back. -/
structure RecordCodec.Lawful (derive : RecordCodec Mode) : Prop where
  readSymbol_symbol : ∀ s, derive.readSymbol (derive.symbol s) = .ok s
  fields_record : ∀ name fields,
    derive.fields name (fields.map (·.1)) (derive.record name fields) = .ok (fields.map (·.2))

namespace AgentRunFrame
variable (derive : RecordCodec Mode)

def fieldNames : List String := ["run_id", "input", "working", "outcome", "state", "usage", "journal"]

def encode (frame : AgentRunFrame Mode) : Expr Mode :=
  derive.record "agent/RunFrame" (fieldNames.zip
    [derive.symbol frame.runId, frame.input, frame.working, derive.symbol frame.outcome,
      RunStateField.encode frame.state, UsageField.encode frame.usage,
      HeadField.encode frame.journal])

def decode (e : Expr Mode) : Except String (AgentRunFrame Mode) := do
  match ← derive.fields "agent/RunFrame" fieldNames e with
  | [runId, input, working, outcome, state, usage, journal] =>
    return { runId := ← derive.readSymbol runId
             input
             working
             outcome := ← derive.readSymbol outcome
             state := ← RunStateField.decode state
             usage := ← UsageField.decode usage
             journal := ← HeadField.decode journal }
  | _ => .error "malformed record"

end AgentRunFrame

/-! ## What the usage codecs read -/

theorem toOption_mapM (f : α → Except ε β) (l : List α) :
    (l.mapM f).toOption = l.mapM fun a => (f a).toOption := by
  induction l with
  | nil => rfl
  | cons a l ih =>
    rw [List.mapM_cons, List.mapM_cons, ← ih]
    cases f a with
    | error e => rfl
    | ok b => cases l.mapM f <;> rfl

/-- The quantity that a row writes. -/
def quantity? : Expr Mode → Option UsageQuantity
  | .list [.symbol unit, .number number] =>
    (Number.parse (2 ^ 64) number.canonical.toList).map fun n => ⟨unit, .ofNat n⟩
  | _ => none

/-- The quantities that an expression writes, in their order. -/
def quantities? : Expr Mode → Option (List UsageQuantity)
  | .list rows => rows.mapM quantity?
  | _ => none

theorem toOption_readRow (notList notPair notAmount : String) (e : Expr Mode) :
    (readRow notList notPair notAmount e).toOption = quantity? e := by
  unfold readRow
  split
  · split
    · rename_i unit number
      rw [quantity?]
      cases Number.parse (2 ^ 64) number.canonical.toList <;> rfl
    · rename_i parts hparts
      unfold quantity?
      split
      · rename_i unit number heq
        exact absurd (Expr.list.inj heq) (hparts unit number)
      · rfl
  · rename_i hlist
    unfold quantity?
    split
    · exact absurd rfl (hlist _)
    · rfl

/-- No two units have one text. -/
def Distinct (values : List UsageQuantity) : Prop := (values.map (·.unit.display)).Nodup

instance (values : List UsageQuantity) : Decidable (Distinct values) :=
  inferInstanceAs (Decidable (List.Nodup _))

theorem unique_cases (values : List UsageQuantity) :
    Distinct values ∧ unique values = .ok () ∨
      ¬Distinct values ∧ ∃ e, unique values = .error e := by
  by_cases h : Distinct values
  · exact .inl ⟨h, unique_eq_ok_iff.mpr h⟩
  · refine .inr ⟨h, ?_⟩
    cases hunique : unique values with
    | ok u => exact absurd (unique_eq_ok_iff.mp hunique) h
    | error e => exact ⟨e, rfl⟩

theorem toOption_decode_quantities (e : Expr Mode) :
    (QuantityField.decode e).toOption = (quantities? e).bind fun values =>
      if Distinct values then some (StableSort.sortBy (·.unit.display) values) else none := by
  cases e with
  | list rows =>
    have hrows := toOption_mapM (readRow "usage quantity must be (unit amount)"
      "usage quantity must contain a symbol and integer"
      "usage amount must be a non-negative u64 integer") rows
    simp only [toOption_readRow] at hrows
    rw [quantities?, ← hrows, QuantityField.decode]
    cases rows.mapM (readRow "usage quantity must be (unit amount)"
        "usage quantity must contain a symbol and integer"
        "usage amount must be a non-negative u64 integer") with
    | error e => rfl
    | ok values =>
      obtain ⟨hd, hunique⟩ | ⟨hd, e, hunique⟩ := unique_cases values
      · simp only [Except.ok_bind, hunique, Except.toOption, Option.bind_some, if_pos hd]
        rfl
      · simp only [Except.ok_bind, hunique, Except.toOption, Option.bind_some, if_neg hd]
        rfl
  | _ => rfl

theorem toOption_decode_usage (e : Expr Mode) :
    (UsageField.decode e).toOption = (quantities? e).bind fun values =>
      if Distinct values then some ⟨values⟩ else none := by
  cases e with
  | list rows =>
    have hrows := toOption_mapM (readRow "usage row must be a list" "usage row must be (unit amount)"
      "usage amount must be a non-negative u64") rows
    simp only [toOption_readRow] at hrows
    rw [quantities?, ← hrows, UsageField.decode]
    cases rows.mapM (readRow "usage row must be a list" "usage row must be (unit amount)"
        "usage amount must be a non-negative u64") with
    | error e => rfl
    | ok values =>
      obtain ⟨hd, hunique⟩ | ⟨hd, e, hunique⟩ := unique_cases values
      · simp only [Except.ok_bind, AgentUsage.new, hunique, Except.toOption, Option.bind_some,
          if_pos hd]
        rfl
      · simp only [Except.ok_bind, AgentUsage.new, hunique, Except.toOption, Option.bind_some,
          if_neg hd]
        rfl
  | _ => rfl

theorem quantities?_encode (values : List UsageQuantity) :
    quantities? (encodeQuantities values : Expr Mode) = some values := by
  rw [encodeQuantities, quantities?]
  induction values with
  | nil => rfl
  | cons q values ih =>
    have hrow : quantity? (.list [.symbol q.unit, integer q.amount] : Expr Mode) = some q := by
      rw [integer, quantity?, Number.parse_toString q.amount.toNat_lt, Option.map_some,
        UInt64.ofNat_toNat]
    rw [List.map_cons, List.mapM_cons, hrow, ih]
    rfl

/-! ## Canonical order -/

/-- The units are in the order of their texts, and no two have one text. -/
def InOrder (values : List UsageQuantity) : Prop :=
  values.Pairwise fun p q => p.unit.display < q.unit.display

instance (values : List UsageQuantity) : Decidable (InOrder values) :=
  inferInstanceAs (Decidable (List.Pairwise _ _))

theorem inOrder_iff {values : List UsageQuantity} :
    InOrder values ↔
      Distinct values ∧ StableSort.sortBy (·.unit.display) values = values := by
  constructor
  · intro h
    refine ⟨List.pairwise_map.mpr (h.imp fun hlt => hlt.ne), ?_⟩
    exact List.Pairwise.insertionSort_eq (h.imp fun hlt => hlt.le)
  · rintro ⟨hd, hsort⟩
    have hle : (StableSort.sortBy (·.unit.display) values).Pairwise
        fun p q => p.unit.display ≤ q.unit.display := StableSort.pairwise_sortBy values
    rw [hsort] at hle
    exact (hle.and (List.pairwise_map.mp hd)).imp fun h => lt_of_le_of_ne h.1 h.2

/-- The codec of `quantity_field` gives back exactly the quantities that are in order. -/
theorem decode_encode_quantities_iff {values : List UsageQuantity} :
    QuantityField.decode (encodeQuantities values : Expr Mode) = .ok values ↔ InOrder values := by
  rw [← Except.toOption_eq_some_iff, toOption_decode_quantities, quantities?_encode, Option.bind_some,
    inOrder_iff]
  by_cases hd : Distinct values
  · rw [if_pos hd, Option.some.injEq, and_iff_right hd]
  · rw [if_neg hd]
    exact iff_of_false nofun fun h => hd h.1

theorem decode_encode_usage_iff {usage : AgentUsage} :
    UsageField.decode (UsageField.encode usage : Expr Mode) = .ok usage ↔
      Distinct usage.quantities := by
  rw [← Except.toOption_eq_some_iff, toOption_decode_usage, UsageField.encode, quantities?_encode,
    Option.bind_some]
  by_cases hd : Distinct usage.quantities
  · rw [if_pos hd]
    exact iff_of_true rfl hd
  · rw [if_neg hd]
    exact iff_of_false nofun hd

/-- The two usage codecs read the same value from the expression, or neither reads one. -/
def Agree (e : Expr Mode) : Prop :=
  (QuantityField.decode e).toOption = (UsageField.decode e).toOption.map (·.quantities)

theorem agree_iff {e : Expr Mode} :
    Agree e ↔ ∀ values, quantities? e = some values → Distinct values → InOrder values := by
  rw [Agree, toOption_decode_quantities, toOption_decode_usage]
  cases quantities? e with
  | none => simp
  | some values =>
    simp only [Option.bind_some, Option.some.injEq, forall_eq', inOrder_iff]
    by_cases hd : Distinct values
    · simp [hd]
    · simp [hd]

/-! ## State -/

namespace StateEntries
variable {entries : List (Symbol × Expr Mode)}

/-- The key is a standard one or has a namespace. -/
def Known (e : Symbol × Expr Mode) : Prop := e.1.ns = none → e.1.name ∈ standard

theorem checkKey_eq_ok_iff {seen seen' : SortedSet String} {e : Symbol × Expr Mode} :
    checkKey seen e = .ok seen' ↔
      e.1.display ∉ seen ∧ Known e ∧ seen' = seen.insert e.1.display := by
  rw [checkKey, Except.bind_eq_ok_iff]
  unfold Keyed.addFresh
  constructor
  · rintro ⟨seen'', hseen, h⟩
    obtain ⟨hnew, hseen⟩ := Except.guard_eq_ok_iff.mp hseen
    obtain ⟨hknown, h⟩ := Except.guard_eq_ok_iff.mp h
    cases hseen
    cases h
    exact ⟨hnew, fun hns => not_not.mp fun hname => hknown ⟨hns, hname⟩, rfl⟩
  · rintro ⟨hnew, hknown, rfl⟩
    exact ⟨_, if_neg hnew, if_neg fun h => h.2 (hknown h.1)⟩

theorem foldlM_checkKey_isOk_iff {seen : SortedSet String} :
    (entries.foldlM checkKey seen).isOk = true ↔
      (entries.map (·.1.display)).Nodup ∧ (∀ e ∈ entries, e.1.display ∉ seen) ∧
        ∀ e ∈ entries, Known e := by
  induction entries generalizing seen with
  | nil => simp [Except.isOk, Except.toBool, pure, Except.pure]
  | cons e entries ih =>
    rw [List.foldlM_cons, List.map_cons, List.nodup_cons, List.forall_mem_cons,
      List.forall_mem_cons]
    by_cases hok : e.1.display ∉ seen ∧ Known e
    · rw [checkKey_eq_ok_iff.mpr ⟨hok.1, hok.2, rfl⟩, Except.ok_bind, ih]
      simp only [SortedSet.mem_insert, not_or]
      constructor
      · rintro ⟨hnodup, hnew, hknown⟩
        refine ⟨⟨fun hmem => ?_, hnodup⟩, ⟨hok.1, fun e' he' => (hnew e' he').2⟩, hok.2, hknown⟩
        obtain ⟨e', he', hkey⟩ := List.mem_map.mp hmem
        exact (hnew e' he').1 hkey
      · rintro ⟨⟨hfirst, hnodup⟩, ⟨-, hnew⟩, -, hknown⟩
        refine ⟨hnodup, fun e' he' => ⟨fun hkey => hfirst ?_, hnew e' he'⟩, hknown⟩
        exact List.mem_map.mpr ⟨e', he', hkey⟩
    · refine iff_of_false (fun h => ?_) fun h => hok ⟨h.2.1.1, h.2.2.1⟩
      obtain ⟨seen', hseen⟩ := Except.exists_of_isOk h
      obtain ⟨seen'', hfirst, -⟩ := Except.bind_eq_ok_iff.mp hseen
      obtain ⟨hnew, hknown, -⟩ := checkKey_eq_ok_iff.mp hfirst
      exact hok ⟨hnew, hknown⟩

/-- The keys have different texts, are known, and the standard ones are there. -/
theorem validate_eq_ok_iff :
    validate entries = .ok () ↔ (entries.map (·.1.display)).Nodup ∧ (∀ e ∈ entries, Known e) ∧
      ∀ required ∈ standard, ∃ e ∈ entries, e.1.ns = none ∧ e.1.name = required := by
  have hfold : (entries.foldlM checkKey ∅).isOk = true ↔ _ := foldlM_checkKey_isOk_iff
  rw [validate, Except.bind_eq_ok_iff]
  simp only [Except.forM_eq_ok_iff]
  constructor
  · rintro ⟨seen, hseen, hrequired⟩
    rw [hseen] at hfold
    obtain ⟨hnodup, -, hknown⟩ := hfold.mp rfl
    refine ⟨hnodup, hknown, fun required hmem => ?_⟩
    have h := hrequired required hmem
    split at h
    · rename_i hany
      obtain ⟨e, he, hkey⟩ := List.any_eq_true.mp hany
      exact ⟨e, he, of_decide_eq_true hkey⟩
    · cases h
  · rintro ⟨hnodup, hknown, hrequired⟩
    obtain ⟨seen, hseen⟩ := Except.exists_of_isOk
      (hfold.mpr ⟨hnodup, fun _ _ => SortedSet.not_mem_empty _, hknown⟩)
    refine ⟨seen, hseen, fun required hmem => ?_⟩
    obtain ⟨e, he, hkey⟩ := hrequired required hmem
    exact if_pos (List.any_eq_true.mpr ⟨e, he, decide_eq_true hkey⟩)

theorem validate_perm {entries' : List (Symbol × Expr Mode)} (hperm : entries.Perm entries')
    (h : validate entries = .ok ()) : validate entries' = .ok () := by
  obtain ⟨hnodup, hknown, hrequired⟩ := validate_eq_ok_iff.mp h
  refine validate_eq_ok_iff.mpr ⟨(hperm.map _).nodup_iff.mp hnodup, ?_, ?_⟩
  · intro e he
    exact hknown e (hperm.symm.subset he)
  · intro required hmem
    obtain ⟨e, he, hkey⟩ := hrequired required hmem
    exact ⟨e, hperm.subset he, hkey⟩

theorem mapM_readEntry (entries : List (Symbol × Expr Mode)) :
    (entries.map fun e => (Expr.symbol e.1, e.2)).mapM readEntry = .ok entries := by
  induction entries with
  | nil => rfl
  | cons e entries ih =>
    rw [List.map_cons, List.mapM_cons, ih]
    rfl

theorem decode_encode (h : validate entries = .ok ()) : decode (encode entries) = .ok entries := by
  rw [encode, decode, mapM_readEntry, Except.ok_bind, h]
  rfl

end StateEntries

namespace AgentRunState
variable {state : AgentRunState Mode}

theorem upsert_cases (key : Symbol) (value : Expr Mode) (state : AgentRunState Mode) :
    (upsert key value state).2 = state ∨
      StateEntries.validate (state.entries.filter (·.1 ≠ key) ++ [(key, value)]) = .ok () ∧
        (upsert key value state).2 = ⟨StableSort.sortBy (·.1.display)
          (state.entries.filter (·.1 ≠ key) ++ [(key, value)])⟩ := by
  cases hvalid : StateEntries.validate (state.entries.filter (·.1 ≠ key) ++ [(key, value)]) with
  | error e =>
    refine .inl ?_
    simp only [upsert, Bind.bind, Effect.bind, Effect.get, Effect.observe, Effect.ofExcept, hvalid]
  | ok u =>
    refine .inr ⟨rfl, ?_⟩
    simp only [upsert, Bind.bind, Effect.bind, Effect.get, Effect.observe, Effect.ofExcept, hvalid,
      Effect.modify]

theorem Built.valid (h : state.Built) : StateEntries.validate state.entries = .ok () := by
  induction h with
  | new h =>
    obtain ⟨_, hvalid, h⟩ := Except.bind_eq_ok_iff.mp h
    cases h
    exact hvalid
  | @upsert state _ key value ih =>
    obtain heq | ⟨hvalid, heq⟩ := upsert_cases key value state
    · rw [heq]
      exact ih
    · rw [heq]
      exact StateEntries.validate_perm (StableSort.perm_sortBy _).symm hvalid

/-- The codec of the state gives back the entries of every state, in their order. -/
theorem Built.decode_encode (h : state.Built) :
    RunStateField.decode (RunStateField.encode state) = .ok state := by
  rw [RunStateField.encode, RunStateField.decode, StateEntries.decode_encode h.valid, Except.ok_bind,
    AgentRunState.new, h.valid]
  rfl

end AgentRunState

/-! ## Frames -/

/-- The head is that of an empty journal or has a canonical hash. -/
def AgentJournalHead.Canonical (head : AgentJournalHead) : Prop := ∀ hash ∈ head.hash, IsHash hash

theorem HeadField.decode_encode_iff {head : AgentJournalHead} :
    decode (encode head : Expr Mode) = .ok head ↔ head.Canonical := by
  obtain ⟨sequence, hash⟩ := head
  have hsequence := Number.parse_toString sequence.toNat_lt
  rw [encode, integer, decode]
  simp only [hsequence, UInt64.ofNat_toNat]
  cases hash with
  | none => exact iff_of_true rfl nofun
  | some hash =>
    rw [Option.elim_some]
    by_cases hhash : IsHash hash
    · simp only [Except.ok_bind, if_pos hhash]
      refine iff_of_true rfl fun hash' hmem => ?_
      cases hmem
      exact hhash
    · simp only [Except.ok_bind, if_neg hhash]
      exact iff_of_false nofun fun h => hhash (h hash rfl)

namespace AgentRunFrame
variable {derive : RecordCodec Mode} {frame : AgentRunFrame Mode}

theorem decode_encode_eq (hderive : derive.Lawful) (hstate : frame.state.Built) :
    decode derive (encode derive frame) = (do
      let usage ← UsageField.decode (UsageField.encode frame.usage : Expr Mode)
      let journal ← HeadField.decode (HeadField.encode frame.journal : Expr Mode)
      return { frame with usage, journal }) := by
  have hfields := hderive.fields_record "agent/RunFrame" (fieldNames.zip
    [derive.symbol frame.runId, frame.input, frame.working, derive.symbol frame.outcome,
      RunStateField.encode frame.state, UsageField.encode frame.usage,
      HeadField.encode frame.journal])
  rw [List.map_fst_zip (by rfl), List.map_snd_zip (by rfl)] at hfields
  rw [decode, encode, hfields]
  simp only [Except.ok_bind, hderive.readSymbol_symbol, hstate.decode_encode]

theorem decode_encode_iff (hderive : derive.Lawful) (hstate : frame.state.Built) :
    decode derive (encode derive frame) = .ok frame ↔
      Distinct frame.usage.quantities ∧ frame.journal.Canonical := by
  rw [decode_encode_eq hderive hstate, ← @decode_encode_usage_iff Mode, ← @HeadField.decode_encode_iff Mode]
  constructor
  · intro h
    obtain ⟨usage, husage, h⟩ := Except.bind_eq_ok_iff.mp h
    obtain ⟨journal, hjournal, h⟩ := Except.bind_eq_ok_iff.mp h
    have hframe := Except.ok.inj h
    rw [husage, hjournal, ← hframe]
    exact ⟨rfl, rfl⟩
  · intro h
    rw [h.1, h.2]
    rfl

end AgentRunFrame

/-- The codecs give back a frame and its parts, and the two of usage agree, exactly when units
stand in the order of their texts and the head is canonical. -/
theorem field_codecs_iff {derive : RecordCodec Mode} (hderive : derive.Lawful)
    (frame : AgentRunFrame Mode) (hstate : frame.state.Built) (budget : AgentUsageBudget)
    (e : Expr Mode) :
    (QuantityField.decode (encodeQuantities frame.usage.quantities : Expr Mode) =
          .ok frame.usage.quantities ∧
        UsageField.decode (UsageField.encode frame.usage : Expr Mode) = .ok frame.usage ∧
        QuantityField.decode (encodeQuantities budget.limits : Expr Mode) = .ok budget.limits ∧
        Agree e ∧
        RunStateField.decode (RunStateField.encode frame.state) = .ok frame.state ∧
        AgentRunFrame.decode derive (AgentRunFrame.encode derive frame) = .ok frame) ↔
      InOrder frame.usage.quantities ∧ InOrder budget.limits ∧
        (∀ values, quantities? e = some values → Distinct values → InOrder values) ∧
        frame.journal.Canonical := by
  rw [decode_encode_quantities_iff, decode_encode_quantities_iff, decode_encode_usage_iff,
    agree_iff, AgentRunFrame.decode_encode_iff hderive hstate]
  constructor
  · rintro ⟨husage, -, hbudget, hrows, -, -, hjournal⟩
    exact ⟨husage, hbudget, hrows, hjournal⟩
  · rintro ⟨husage, hbudget, hrows, hjournal⟩
    have hd := (inOrder_iff.mp husage).1
    exact ⟨husage, hd, hbudget, hrows, hstate.decode_encode, hd, hjournal⟩

namespace Sample

def tokens (amount : UInt64) : UsageQuantity := ⟨.new "tokens", amount⟩

/-- A record as a list of its name and its fields. -/
def listDerive : RecordCodec Mode where
  symbol := .symbol
  readSymbol
    | .symbol s => .ok s
    | _ => .error "expected a symbol"
  record name fields := .list (.string name :: fields.map (·.2))
  fields name names
    | .list (.string name' :: values) =>
      if name' = name ∧ values.length = names.length then .ok values
      else .error "malformed record"
    | _ => .error "malformed record"

theorem listDerive_lawful : (listDerive : RecordCodec Mode).Lawful where
  readSymbol_symbol _ := rfl
  fields_record _ _ := if_pos ⟨rfl, by rw [List.length_map, List.length_map]⟩

def standardState : AgentRunState Unit :=
  ⟨[(.new "history", .list []), (.new "pending-tools", .list []), (.new "plan", .nil),
    (.new "phase", .nil), (.new "candidate", .nil)]⟩

theorem standardState_built : standardState.Built :=
  .new (show AgentRunState.new standardState.entries = .ok standardState by decide +kernel)

def callsFrame : AgentRunFrame Unit where
  runId := .qualified "run" "one"
  input := .nil
  working := .nil
  outcome := .new "continue"
  state := standardState
  usage := ⟨[⟨.new "calls", 1⟩, tokens 2]⟩
  journal := ⟨0, none⟩

/-- The units are in the order of the caller. -/
def unsorted : List UsageQuantity := [tokens 2, ⟨.new "calls", 1⟩]

end Sample

/-- Two units that are accepted by `new` in the order of the caller: the codec of `quantity_field`
gives them back in another order, and the two codecs read different usage. -/
theorem quantity_field_reorders :
    AgentUsage.new Sample.unsorted = .ok ⟨Sample.unsorted⟩ ∧
      AgentUsageBudget.new Sample.unsorted = .ok ⟨Sample.unsorted⟩ ∧
      QuantityField.decode (encodeQuantities Sample.unsorted : Expr Unit) =
        .ok Sample.unsorted.reverse ∧
      Sample.unsorted.reverse ≠ Sample.unsorted ∧
      UsageField.decode (encodeQuantities Sample.unsorted : Expr Unit) =
        .ok ⟨Sample.unsorted⟩ ∧
      ¬Agree (encodeQuantities Sample.unsorted : Expr Unit) := by
  refine ⟨by decide +kernel, by decide +kernel, by decide +kernel, by decide +kernel,
    by decide +kernel, fun h => ?_⟩
  have horder := agree_iff.mp h Sample.unsorted (quantities?_encode _) (by decide +kernel)
  exact absurd horder (by decide +kernel)

theorem field_codecs_iff_calls :
    AgentRunFrame.decode Sample.listDerive
      (AgentRunFrame.encode Sample.listDerive Sample.callsFrame) = .ok Sample.callsFrame := by
  have hagree : ∀ values,
      quantities? (encodeQuantities Sample.callsFrame.usage.quantities : Expr Unit) = some values →
        Distinct values → InOrder values := by
    rintro values hvalues -
    cases (quantities?_encode _).symm.trans hvalues
    decide +kernel
  obtain ⟨-, -, -, -, -, hframe⟩ :=
    (field_codecs_iff Sample.listDerive_lawful Sample.callsFrame Sample.standardState_built
      ⟨[Sample.tokens 2]⟩ _).mpr ⟨by decide +kernel, by decide +kernel, hagree, by rintro _ ⟨⟩⟩
  exact hframe

end SimAgentNet.AgentConductCore
