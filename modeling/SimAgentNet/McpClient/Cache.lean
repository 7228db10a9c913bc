import SimAgentNet.OpenaiServer.JsonText
import SimAgentNet.OpenaiServer.Tools

/-! # The result cache of the MCP client

The key of a call, and a bounded cache in memory that drops the entry used least recently. The key
holds the canonical text of the parameters, in which objects are sorted. -/

namespace SimAgentNet.McpClient
open OpenaiServer (Json JsonObject Serde)

/-! ## Canonical parameters -/

/-- The values agree up to the order of the fields of their objects. -/
inductive SameUpToOrder : Json → Json → Prop
  | refl (a : Json) : SameUpToOrder a a
  | symm (h : SameUpToOrder a b) : SameUpToOrder b a
  | trans (h : SameUpToOrder a b) (h' : SameUpToOrder b c) : SameUpToOrder a c
  | item (before after : List Json) (h : SameUpToOrder a b) :
    SameUpToOrder (.array (before ++ a :: after)) (.array (before ++ b :: after))
  | field (before after : List (String × Json)) (name : String) (h : SameUpToOrder a b) :
    SameUpToOrder (.object (before ++ (name, a) :: after)) (.object (before ++ (name, b) :: after))
  | perm {fields fields' : List (String × Json)} (h : fields.Perm fields') :
    SameUpToOrder (.object fields) (.object fields')

mutual
/-- Every object of the value has distinct names. -/
def Distinct : Json → Prop
  | .array vs => DistinctItems vs
  | .object fields => (fields.map (·.1)).Nodup ∧ DistinctFields fields
  | _ => True
termination_by structural json => json

def DistinctItems : List Json → Prop
  | [] => True
  | v :: vs => Distinct v ∧ DistinctItems vs
termination_by structural vs => vs

def DistinctFields : List (String × Json) → Prop
  | [] => True
  | (_, v) :: fields => Distinct v ∧ DistinctFields fields
termination_by structural fields => fields
end

/-- A JSON value as the package holds it: numbers are written as such, and the names in an object
are distinct. -/
abbrev Value := { json : Json // json.Numeric ∧ Distinct json }

/-- Fields in the order of their names; a later field replaces an earlier one of its name. -/
def sortFields (fields : List (String × Json)) : List (String × Json) :=
  fields.foldl (fun sorted field => SortedMap.insertEntry field.1 field.2 sorted) []

mutual
def canonical : Json → Json
  | .object fields => .object (sortFields (canonicalFields fields))
  | .array vs => .array (canonicalItems vs)
  | other => other
termination_by structural json => json

def canonicalItems : List Json → List Json
  | [] => []
  | v :: vs => canonical v :: canonicalItems vs
termination_by structural vs => vs

def canonicalFields : List (String × Json) → List (String × Json)
  | [] => []
  | (name, v) :: fields => (name, canonical v) :: canonicalFields fields
termination_by structural fields => fields
end

theorem insertEntry_perm {name : String} {v : Json} {fields : List (String × Json)}
    (h : name ∉ fields.map (·.1)) :
    (SortedMap.insertEntry name v fields).Perm ((name, v) :: fields) := by
  induction fields with
  | nil => exact .refl _
  | cons field fields ih =>
    have hname : name ≠ field.1 := fun he => h (he ▸ List.mem_cons_self)
    have hrest : name ∉ fields.map (·.1) := fun hm => h (List.mem_cons_of_mem _ hm)
    simp only [SortedMap.insertEntry, if_neg hname]
    split
    · exact .refl _
    · exact ((ih hrest).cons field).trans (.swap _ _ _)

theorem foldl_insertEntry_perm {fields sorted : List (String × Json)}
    (h : ((sorted ++ fields).map (·.1)).Nodup) :
    (fields.foldl (fun sorted field => SortedMap.insertEntry field.1 field.2 sorted) sorted).Perm
      (sorted ++ fields) := by
  induction fields generalizing sorted with
  | nil =>
    rw [List.append_nil]
    exact .refl _
  | cons field fields ih =>
    have hmid : (sorted ++ field :: fields).Perm (field :: sorted ++ fields) := List.perm_middle
    have hnodup := (hmid.map (·.1)).nodup_iff.mp h
    have hfield : field.1 ∉ sorted.map (·.1) := by
      intro hm
      obtain ⟨e, he, hname⟩ := List.mem_map.mp hm
      exact (List.nodup_cons.mp hnodup).1
        (List.mem_map.mpr ⟨e, List.mem_append_left _ he, hname⟩)
    have hinsert := insertEntry_perm (v := field.2) hfield
    have hstep := (hinsert.append_right fields).trans hmid.symm
    rw [List.foldl_cons]
    exact (ih ((hstep.map (·.1)).nodup_iff.mpr h)).trans hstep

/-- Sorting fields of distinct names only changes their order. -/
theorem sortFields_perm {fields : List (String × Json)} (h : (fields.map (·.1)).Nodup) :
    (sortFields fields).Perm fields := @foldl_insertEntry_perm fields [] h

theorem map_fst_canonicalFields (fields : List (String × Json)) :
    (canonicalFields fields).map (·.1) = fields.map (·.1) := by
  induction fields with
  | nil => rfl
  | cons field fields ih => rw [canonicalFields, List.map_cons, List.map_cons, ih]

mutual
/-- A value agrees with its canonical form up to the order of fields. -/
theorem same_canonical : ∀ {json : Json}, Distinct json → SameUpToOrder json (canonical json)
  | .null, _ => .refl _
  | .bool _, _ => .refl _
  | .number _, _ => .refl _
  | .string _, _ => .refl _
  | .array vs, h => by
    rw [canonical]
    exact same_canonicalItems [] h
  | .object fields, h => by
    have hnodup : ((canonicalFields fields).map (·.1)).Nodup := by
      rw [map_fst_canonicalFields]
      exact h.1
    rw [canonical]
    exact .trans (same_canonicalFields [] h.2) (.perm (sortFields_perm hnodup).symm)

theorem same_canonicalItems : ∀ {vs : List Json} (before : List Json), DistinctItems vs →
    SameUpToOrder (.array (before ++ vs)) (.array (before ++ canonicalItems vs))
  | [], before, _ => .refl _
  | v :: vs, before, h => by
    rw [canonicalItems]
    refine .trans (.item before vs (same_canonical h.1)) ?_
    have hrest := same_canonicalItems (before ++ [canonical v]) h.2
    rwa [List.append_assoc, List.append_assoc] at hrest

theorem same_canonicalFields : ∀ {fields : List (String × Json)} (before : List (String × Json)),
    DistinctFields fields →
    SameUpToOrder (.object (before ++ fields)) (.object (before ++ canonicalFields fields))
  | [], before, _ => .refl _
  | (name, v) :: fields, before, h => by
    rw [canonicalFields]
    refine .trans (.field before fields name (same_canonical h.1)) ?_
    have hrest := same_canonicalFields (before ++ [(name, canonical v)]) h.2
    rwa [List.append_assoc, List.append_assoc] at hrest
end

theorem numericFields_iff {fields : List (String × Json)} :
    Json.NumericFields fields ↔ ∀ field ∈ fields, field.2.Numeric := by
  induction fields with
  | nil => exact ⟨nofun, fun _ => trivial⟩
  | cons field fields ih =>
    rw [Json.NumericFields, ih, List.forall_mem_cons]

theorem mem_foldl_insertEntry {fields sorted : List (String × Json)} {e : String × Json}
    (h : e ∈ fields.foldl (fun sorted field => SortedMap.insertEntry field.1 field.2 sorted)
      sorted) : e ∈ sorted ∨ e ∈ fields := by
  induction fields generalizing sorted with
  | nil => exact .inl h
  | cons field fields ih =>
    rcases ih h with h | h
    · rcases SortedMap.mem_insertEntry h with rfl | h
      · exact .inr List.mem_cons_self
      · exact .inl h
    · exact .inr (List.mem_cons_of_mem _ h)

mutual
theorem numeric_canonical : ∀ {json : Json}, json.Numeric → (canonical json).Numeric
  | .null, h => h
  | .bool _, h => h
  | .number _, h => h
  | .string _, h => h
  | .array vs, h => by
    rw [canonical]
    exact numeric_canonicalItems h
  | .object fields, h => by
    rw [canonical]
    have hfields := numericFields_iff.mp (numeric_canonicalFields h)
    refine numericFields_iff.mpr fun field hm => ?_
    rcases mem_foldl_insertEntry hm with hm | hm
    · cases hm
    · exact hfields field hm

theorem numeric_canonicalItems : ∀ {vs : List Json}, Json.NumericItems vs →
    Json.NumericItems (canonicalItems vs)
  | [], h => h
  | v :: vs, h => by
    rw [canonicalItems]
    exact ⟨numeric_canonical h.1, numeric_canonicalItems h.2⟩

theorem numeric_canonicalFields : ∀ {fields : List (String × Json)}, Json.NumericFields fields →
    Json.NumericFields (canonicalFields fields)
  | [], h => h
  | (name, v) :: fields, h => by
    rw [canonicalFields]
    exact ⟨numeric_canonical h.1, numeric_canonicalFields h.2⟩
end

/-! ## The key -/

/-- An HTTP origin and resource, or one lifetime of a child process. -/
inductive EndpointIdentity where
  | http (scheme authority resource : String)
  | processInstance (id : String)
deriving DecidableEq

inductive Era where
  | modern
  | legacy
deriving DecidableEq

structure CacheKey where
  endpoint : EndpointIdentity
  era : Era
  version : String
  principalScope : String
  extensions : List String
  method : String
  canonicalParameters : String
  paginationCursor : Option String
deriving DecidableEq

/-- The text of the canonical parameters determines the parameters up to the order of fields. -/
theorem same_of_canonical_text {serde : Serde}
    (hserde : ∀ json, serde.toText json = String.ofList json.text) {a b : Value}
    (h : serde.toText (canonical a.1) = serde.toText (canonical b.1)) : SameUpToOrder a.1 b.1 := by
  rw [hserde, hserde] at h
  have htext : (canonical a.1).text = (canonical b.1).text := by
    simpa using congrArg String.toList h
  have heq := Json.text_inj (numeric_canonical a.2.1) (numeric_canonical b.2.1) htext
  have hb := (same_canonical b.2.2).symm
  rw [← heq] at hb
  exact (same_canonical a.2.2).trans hb

/-! ## The cache in memory -/

structure Entry where
  value : Json
  expiresAtMs : Nat

/-- The rows of the cache and its keys in the order of their last use. -/
structure MemoryState where
  rows : List (CacheKey × Entry)
  order : List CacheKey

namespace MemoryState

def empty : MemoryState := ⟨[], []⟩

def remove (rows : List (CacheKey × Entry)) (key : CacheKey) : List (CacheKey × Entry) :=
  rows.filter (·.1 ≠ key)

/-- Reads a value that has not expired. A row that has is removed, its key stays in the order. -/
def get (state : MemoryState) (key : CacheKey) (nowMs : Nat) : Option Json × MemoryState :=
  let rows := if (state.rows.lookup key).any (·.expiresAtMs ≤ nowMs) then remove state.rows key
    else state.rows
  match rows.lookup key with
  | some entry => (some entry.value, ⟨rows, state.order.filter (· ≠ key) ++ [key]⟩)
  | none => (none, ⟨rows, state.order⟩)

/-- Drops rows from the front of the order while there are more than the capacity. -/
def evict (capacity : Nat) (rows : List (CacheKey × Entry)) : List CacheKey → MemoryState
  | [] => ⟨rows, []⟩
  | oldest :: order =>
    if capacity < rows.length then evict capacity (remove rows oldest) order
    else ⟨rows, oldest :: order⟩

def put (capacity : Nat) (state : MemoryState) (key : CacheKey) (value : Json)
    (expiresAtMs : Nat) : MemoryState :=
  evict capacity ((key, ⟨value, expiresAtMs⟩) :: remove state.rows key)
    (state.order.filter (· ≠ key) ++ [key])

def clearEndpoint (state : MemoryState) (endpoint : EndpointIdentity) : MemoryState :=
  ⟨state.rows.filter (·.1.endpoint ≠ endpoint), state.order.filter (·.endpoint ≠ endpoint)⟩

/-- A row in the cache. -/
def Has (state : MemoryState) (key : CacheKey) (entry : Entry) : Prop := (key, entry) ∈ state.rows

/-- A value is read from a row that has not expired, and reading adds no row. -/
theorem get_spec {state : MemoryState} {key : CacheKey} {nowMs : Nat} :
    (∀ value, (state.get key nowMs).1 = some value →
      ∃ entry, state.Has key entry ∧ entry.value = value ∧ nowMs < entry.expiresAtMs) ∧
    ∀ k e, (state.get key nowMs).2.Has k e → state.Has k e := by
  unfold get
  by_cases hexpired : (state.rows.lookup key).any (·.expiresAtMs ≤ nowMs) = true
  · have hgone : (remove state.rows key).lookup key = none := by
      refine List.lookup_eq_none_iff.mpr fun row hrow => ?_
      have hne : row.1 ≠ key := by simpa using (List.mem_filter.mp hrow).2
      exact bne_iff_ne.mpr hne.symm
    simp only [if_pos hexpired, hgone]
    exact ⟨nofun, fun k e h => (List.mem_filter.mp h).1⟩
  · simp only [if_neg hexpired]
    cases hrow : state.rows.lookup key with
    | none => exact ⟨nofun, fun k e h => h⟩
    | some entry =>
      rw [hrow] at hexpired
      refine ⟨?_, fun k e h => h⟩
      rintro value ⟨⟩
      obtain ⟨before, after, hrows, -⟩ := List.lookup_eq_some_iff.mp hrow
      refine ⟨entry, ?_, rfl, by simpa using hexpired⟩
      rw [Has, hrows]
      exact List.mem_append_right _ List.mem_cons_self

theorem mem_evict {capacity : Nat} {rows : List (CacheKey × Entry)} {order : List CacheKey}
    (h : (evict capacity rows order).Has key entry) : (key, entry) ∈ rows := by
  induction order generalizing rows with
  | nil => exact h
  | cons oldest order ih =>
    rw [evict] at h
    split at h
    · exact (List.mem_filter.mp (ih h)).1
    · exact h

/-- The rows after a put are the new one and old ones. -/
theorem put_spec {capacity : Nat} {state : MemoryState} {key : CacheKey} {value : Json}
    {expiresAtMs : Nat} (h : (state.put capacity key value expiresAtMs).Has k e) :
    k = key ∧ e = ⟨value, expiresAtMs⟩ ∨ state.Has k e := by
  rcases List.mem_cons.mp (mem_evict h) with h | h
  · exact .inl (Prod.mk.inj h)
  · exact .inr (List.mem_filter.mp h).1

theorem clearEndpoint_spec {state : MemoryState} {endpoint : EndpointIdentity}
    (h : (state.clearEndpoint endpoint).Has k e) : state.Has k e := (List.mem_filter.mp h).1

end MemoryState

end SimAgentNet.McpClient
