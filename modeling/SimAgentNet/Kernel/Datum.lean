import SimAgentNet.Data.Text

/-! # Kernel values

The value types of the SIM kernel that the modelled crates build on: symbols, content ids and
datums. The kernel itself is a separate package. Its one operation the model needs, the content
id of a datum, is a parameter wherever it is used. -/

namespace SimAgentNet

/-- A name with an optional namespace. -/
structure Symbol where
  ns : Option String
  name : String
deriving DecidableEq, Inhabited

namespace Symbol

def new (name : String) : Symbol := ⟨none, name⟩
def qualified (ns name : String) : Symbol := ⟨some ns, name⟩

/-- The display text, `ns/name` or `name`; `as_qualified_str` is the same text. -/
def display (s : Symbol) : String :=
  match s.ns with
  | none => s.name
  | some ns => ns ++ "/" ++ s.name

/-- The display text determines the symbol: no `/` in the namespace, nor in a bare name. -/
def Plain (s : Symbol) : Prop :=
  match s.ns with
  | none => '/' ∉ s.name.toList
  | some ns => '/' ∉ ns.toList

instance (s : Symbol) : Decidable s.Plain := by
  unfold Plain; split <;> infer_instance

theorem display_new (name : String) : (new name).display = name := rfl

/-- Absent namespaces come first, then namespaces and names in text order. -/
def orderKey (s : Symbol) : WithBot String ×ₗ String := toLex (s.ns, s.name)

theorem orderKey_injective : Function.Injective orderKey := by
  rintro ⟨n, a⟩ ⟨m, b⟩ h
  obtain ⟨h₁, h₂⟩ := Prod.mk.inj (toLex.injective h)
  cases h₁; cases h₂; rfl

instance : LinearOrder Symbol := .lift' orderKey orderKey_injective

end Symbol

/-- Content identity: an algorithm name and a 32-byte digest. -/
structure ContentId where
  algorithm : Symbol
  bytes : List UInt8
  size_bytes : bytes.length = 32
deriving DecidableEq

namespace ContentId

def orderKey (id : ContentId) : Symbol ×ₗ List Nat :=
  toLex (id.algorithm, id.bytes.map UInt8.toNat)

theorem orderKey_injective : Function.Injective orderKey := by
  rintro ⟨a, bs, _⟩ ⟨a', bs', _⟩ h
  obtain ⟨h₁, h₂⟩ := Prod.mk.inj (toLex.injective h)
  cases h₁
  cases List.map_injective_iff.mpr (fun _ _ => UInt8.toNat.inj) h₂
  rfl

instance : LinearOrder ContentId := .lift' orderKey orderKey_injective

/-- The digest that repeats one byte. -/
def ofByte (algorithm : Symbol) (b : UInt8) : ContentId :=
  ⟨algorithm, List.replicate 32 b, List.length_replicate⟩

end ContentId

structure NumberLiteral where
  domain : Symbol
  canonical : String
deriving DecidableEq

/-- Canonical data. -/
inductive Datum where
  | nil
  | bool (v : Bool)
  | number (v : NumberLiteral)
  | symbol (v : Symbol)
  | string (v : String)
  | bytes (v : List UInt8)
  | list (vs : List Datum)
  | vector (vs : List Datum)
  | map (vs : List (Datum × Datum))
  | set (vs : List Datum)
  | node (tag : Symbol) (fields : List (Symbol × Datum))

namespace Datum

mutual
/-- Structural equality test. -/
def beq : Datum → Datum → Bool
  | .nil, .nil => true
  | .bool a, .bool b => a == b
  | .number a, .number b => a == b
  | .symbol a, .symbol b => a == b
  | .string a, .string b => a == b
  | .bytes a, .bytes b => a == b
  | .list a, .list b => beqList a b
  | .vector a, .vector b => beqList a b
  | .map a, .map b => beqPairs a b
  | .set a, .set b => beqList a b
  | .node t a, .node t' b => t == t' && beqFields a b
  | _, _ => false
termination_by structural a => a

def beqList : List Datum → List Datum → Bool
  | [], [] => true
  | a :: as, b :: bs => beq a b && beqList as bs
  | _, _ => false
termination_by structural a => a

def beqPairs : List (Datum × Datum) → List (Datum × Datum) → Bool
  | [], [] => true
  | (a, a') :: as, (b, b') :: bs => beq a b && beq a' b' && beqPairs as bs
  | _, _ => false
termination_by structural a => a

def beqFields : List (Symbol × Datum) → List (Symbol × Datum) → Bool
  | [], [] => true
  | (n, a) :: as, (m, b) :: bs => n == m && beq a b && beqFields as bs
  | _, _ => false
termination_by structural a => a
end

mutual
theorem beq_iff : ∀ a b : Datum, beq a b = true ↔ a = b
  | .nil, b => by cases b <;> simp [beq]
  | .bool _, b => by cases b <;> simp [beq]
  | .number _, b => by cases b <;> simp [beq]
  | .symbol _, b => by cases b <;> simp [beq]
  | .string _, b => by cases b <;> simp [beq]
  | .bytes _, b => by cases b <;> simp [beq]
  | .list a, b => by cases b <;> simp [beq, beqList_iff a]
  | .vector a, b => by cases b <;> simp [beq, beqList_iff a]
  | .map a, b => by cases b <;> simp [beq, beqPairs_iff a]
  | .set a, b => by cases b <;> simp [beq, beqList_iff a]
  | .node _ a, b => by cases b <;> simp [beq, beqFields_iff a]
termination_by structural a => a

theorem beqList_iff : ∀ a b : List Datum, beqList a b = true ↔ a = b
  | [], b => by cases b <;> simp [beqList]
  | a :: as, b => by cases b <;> simp [beqList, beq_iff a, beqList_iff as]
termination_by structural a => a

theorem beqPairs_iff : ∀ a b : List (Datum × Datum), beqPairs a b = true ↔ a = b
  | [], b => by cases b <;> simp [beqPairs]
  | (a, a') :: as, b => by
    cases b with
    | nil => simp [beqPairs]
    | cons e _ =>
      obtain ⟨_, _⟩ := e
      simp [beqPairs, beq_iff a, beq_iff a', beqPairs_iff as]
termination_by structural a => a

theorem beqFields_iff : ∀ a b : List (Symbol × Datum), beqFields a b = true ↔ a = b
  | [], b => by cases b <;> simp [beqFields]
  | (_, a) :: as, b => by
    cases b with
    | nil => simp [beqFields]
    | cons e _ => obtain ⟨_, _⟩ := e; simp [beqFields, beq_iff a, beqFields_iff as]
termination_by structural a => a
end

instance : DecidableEq Datum := fun a b => decidable_of_iff _ (beq_iff a b)

end Datum

end SimAgentNet
