import Mathlib

/-! # Lines

A text that arrives in parts is split at a separator: the lines that have ended, and the line that
has begun. -/

namespace Lines

variable {α : Type*} [DecidableEq α] (sep : α)

/-- The lines that end in the text, after the line that has begun, and the line it leaves begun. -/
def split (begun : List α) : List α → List (List α) × List α
  | [] => ([], begun)
  | a :: text =>
    if a = sep then (begun :: (split [] text).1, (split [] text).2) else split (begun ++ [a]) text

/-- No line is longer than the limit. -/
def Bounded (limit : Nat) (lines : List (List α) × List α) : Prop :=
  (∀ line ∈ lines.1, line.length ≤ limit) ∧ lines.2.length ≤ limit

/-- Splitting a text goes on where it stopped. -/
theorem split_append (begun text rest : List α) : split sep begun (text ++ rest) =
    ((split sep begun text).1 ++ (split sep (split sep begun text).2 rest).1,
      (split sep (split sep begun text).2 rest).2) := by
  induction text generalizing begun with
  | nil => rfl
  | cons a text ih =>
    rw [List.cons_append, split, split]
    split
    · rw [ih]
      rfl
    · exact ih (begun ++ [a])

/-- The lines and the line begun are the pieces of the text. -/
theorem split_eq_splitOn {begun : List α} (h : sep ∉ begun) (text : List α) :
    (split sep begun text).1 ++ [(split sep begun text).2] = (begun ++ text).splitOn sep := by
  induction text generalizing begun with
  | nil => rw [List.append_nil, List.splitOn_eq_singleton h, split, List.nil_append]
  | cons a text ih =>
    rw [split]
    split
    · rename_i ha
      rw [ha, List.splitOn_append_cons_self, List.splitOn_eq_singleton h, List.cons_append,
        ih List.not_mem_nil]
      rfl
    · rename_i ha
      have hbegun : sep ∉ begun ++ [a] := by
        simp [h, Ne.symm ha]
      rw [ih hbegun, List.append_assoc]
      rfl

/-- The line that has begun holds no separator. -/
theorem not_mem_begun {begun : List α} (h : sep ∉ begun) (text : List α) :
    sep ∉ (split sep begun text).2 := by
  induction text generalizing begun with
  | nil => exact h
  | cons a text ih =>
    rw [split]
    split
    · exact ih List.not_mem_nil
    · rename_i ha
      exact ih (by simpa [h] using Ne.symm ha)

/-- A line that has begun is read again as it was. -/
theorem split_append_of_not_mem {text : List α} (h : sep ∉ text) (begun rest : List α) :
    split sep begun (text ++ rest) = split sep (begun ++ text) rest := by
  induction text generalizing begun with
  | nil => rw [List.nil_append, List.append_nil]
  | cons a text ih =>
    rw [List.mem_cons, not_or] at h
    rw [List.cons_append, split, if_neg (Ne.symm h.1), ih h.2, List.append_assoc,
      List.singleton_append]

variable {sep}

/-- The line that has begun is not longer than the one that it becomes. -/
theorem begun_le_of_bounded {limit : Nat} {begun text : List α}
    (h : Bounded limit (split sep begun text)) : begun.length ≤ limit := by
  induction text generalizing begun with
  | nil => exact h.2
  | cons a text ih =>
    rw [split] at h
    split at h
    · exact h.1 begun List.mem_cons_self
    · have hlonger := ih h
      rw [List.length_append] at hlonger
      exact (Nat.le_add_right _ _).trans hlonger

theorem bounded_cons_sep {limit : Nat} {begun text : List α} :
    Bounded limit (split sep begun (sep :: text)) ↔
      begun.length ≤ limit ∧ Bounded limit (split sep [] text) := by
  rw [split, if_pos rfl, Bounded, Bounded, List.forall_mem_cons, and_assoc]

theorem bounded_cons_of_ne {limit : Nat} {begun text : List α} {a : α} (h : a ≠ sep) :
    Bounded limit (split sep begun (a :: text)) ↔
      Bounded limit (split sep (begun ++ [a]) text) := by
  rw [split, if_neg h]

theorem bounded_append {limit : Nat} {begun text rest : List α} :
    Bounded limit (split sep begun (text ++ rest)) ↔ Bounded limit (split sep begun text) ∧
      Bounded limit (split sep (split sep begun text).2 rest) := by
  rw [split_append]
  constructor
  · rintro ⟨hlines, hbegun⟩
    obtain ⟨hfirst, hrest⟩ := List.forall_mem_append.mp hlines
    have hbounded : Bounded limit (split sep (split sep begun text).2 rest) := ⟨hrest, hbegun⟩
    exact ⟨⟨hfirst, begun_le_of_bounded hbounded⟩, hbounded⟩
  · rintro ⟨⟨hfirst, -⟩, hrest, hbegun⟩
    exact ⟨List.forall_mem_append.mpr ⟨hfirst, hrest⟩, hbegun⟩

end Lines
