import Mathlib.Data.List.Forall2
import SimAgentNet.Kernel.Datum

/-! # Datums that are the same data

The elements of a set and the entries of a map have no order and no multiplicity. -/

namespace SimAgentNet
namespace Datum

mutual
/-- Two datums are the same up to the order and the repetition of set elements and map entries, at
every depth. -/
def Same : Datum → Datum → Prop
  | .nil, .nil => True
  | .bool a, .bool b => a = b
  | .number a, .number b => a = b
  | .symbol a, .symbol b => a = b
  | .string a, .string b => a = b
  | .bytes a, .bytes b => a = b
  | .list as, .list bs => SameList as bs
  | .vector as, .vector bs => SameList as bs
  | .map as, .map bs => CoveredEntries as bs ∧ ∀ b ∈ bs, HasEntry as b
  | .set as, .set bs => Covered as bs ∧ ∀ b ∈ bs, Has as b
  | .node t as, .node t' bs => t = t' ∧ SameFields as bs
  | _, _ => False
termination_by structural a => a

def SameList : List Datum → List Datum → Prop
  | [], [] => True
  | a :: as, b :: bs => Same a b ∧ SameList as bs
  | _, _ => False
termination_by structural as => as

def SameFields : List (Symbol × Datum) → List (Symbol × Datum) → Prop
  | [], [] => True
  | (n, a) :: as, (m, b) :: bs => n = m ∧ Same a b ∧ SameFields as bs
  | _, _ => False
termination_by structural as => as

/-- Every element of the first list is the same as one of the second. -/
def Covered : List Datum → List Datum → Prop
  | [], _ => True
  | a :: as, bs => (∃ b ∈ bs, Same a b) ∧ Covered as bs
termination_by structural as => as

/-- One of the elements is the same as the given one. -/
def Has : List Datum → Datum → Prop
  | [], _ => False
  | a :: as, b => Same a b ∨ Has as b
termination_by structural as => as

def CoveredEntries : List (Datum × Datum) → List (Datum × Datum) → Prop
  | [], _ => True
  | (k, a) :: as, bs => (∃ b ∈ bs, Same k b.1 ∧ Same a b.2) ∧ CoveredEntries as bs
termination_by structural as => as

def HasEntry : List (Datum × Datum) → Datum × Datum → Prop
  | [], _ => False
  | (k, a) :: as, b => (Same k b.1 ∧ Same a b.2) ∨ HasEntry as b
termination_by structural as => as
end

section
variable {a b : String} {s s' : Symbol}

@[simp] theorem same_nil : Same .nil .nil := trivial
@[simp] theorem same_number {v w : NumberLiteral} : Same (.number v) (.number w) ↔ v = w := Iff.rfl
@[simp] theorem same_symbol : Same (.symbol s) (.symbol s') ↔ s = s' := Iff.rfl
@[simp] theorem same_string : Same (.string a) (.string b) ↔ a = b := Iff.rfl
@[simp] theorem same_bytes {v w : List UInt8} : Same (.bytes v) (.bytes w) ↔ v = w := Iff.rfl

end

theorem covered_iff {as bs : List Datum} : Covered as bs ↔ ∀ a ∈ as, ∃ b ∈ bs, Same a b := by
  induction as with
  | nil => simp [Covered]
  | cons a as ih => simp [Covered, ih]

theorem has_iff {as : List Datum} {b : Datum} : Has as b ↔ ∃ a ∈ as, Same a b := by
  induction as with
  | nil => simp [Has]
  | cons a as ih => simp [Has, ih]

theorem coveredEntries_iff {as bs : List (Datum × Datum)} :
    CoveredEntries as bs ↔ ∀ a ∈ as, ∃ b ∈ bs, Same a.1 b.1 ∧ Same a.2 b.2 := by
  induction as with
  | nil => simp [CoveredEntries]
  | cons a as ih => simp [CoveredEntries, ih]

theorem hasEntry_iff {as : List (Datum × Datum)} {b : Datum × Datum} :
    HasEntry as b ↔ ∃ a ∈ as, Same a.1 b.1 ∧ Same a.2 b.2 := by
  induction as with
  | nil => simp [HasEntry]
  | cons a as ih => simp [HasEntry, ih]

section
variable {α β κ : Type} {f : α → Datum} {key : κ → Datum}

/-- A list of encodings that tell their values apart. -/
theorem same_list_map (hf : ∀ a b, Same (f a) (f b) ↔ a = b) {as bs : List α} :
    Same (.list (as.map f)) (.list (bs.map f)) ↔ as = bs := by
  rw [Same]
  induction as generalizing bs with
  | nil => cases bs <;> simp [SameList]
  | cons a as ih => cases bs <;> simp [SameList, hf, ih]

theorem same_set_map (hf : ∀ a b, Same (f a) (f b) ↔ a = b) {as bs : List α} :
    Same (.set (as.map f)) (.set (bs.map f)) ↔ ∀ a, a ∈ as ↔ a ∈ bs := by
  rw [Same, covered_iff]
  simp only [has_iff, List.mem_map, exists_exists_and_eq_and, forall_exists_index, and_imp,
    forall_apply_eq_imp_iff₂, hf, exists_eq_right, exists_eq_right']
  exact ⟨fun h a => ⟨h.1 a, h.2 a⟩, fun h => ⟨fun a => (h a).mp, fun a => (h a).mpr⟩⟩

/-- A map of encodings that tell its keys apart. -/
theorem same_map_map (hkey : ∀ a b, Same (key a) (key b) ↔ a = b) {as bs : List (κ × α)} :
    Same (.map (as.map fun e => (key e.1, f e.2))) (.map (bs.map fun e => (key e.1, f e.2))) ↔
      (∀ e ∈ as, ∃ e' ∈ bs, e.1 = e'.1 ∧ Same (f e.2) (f e'.2)) ∧
      ∀ e' ∈ bs, ∃ e ∈ as, e.1 = e'.1 ∧ Same (f e.2) (f e'.2) := by
  rw [Same, coveredEntries_iff]
  simp only [hasEntry_iff, List.mem_map, exists_exists_and_eq_and, forall_exists_index, and_imp,
    forall_apply_eq_imp_iff₂, hkey]

end

end Datum

end SimAgentNet
