import Mathlib

/-! # Places reached by components

A list of components is walked from a start. One component, `parent`, goes up, the others go
down. The place reached is so many levels above the start, and then down some components. -/

/-- A place seen from a start: levels above it, and the components down from there. -/
structure Location (α : Type u) where
  ups : Nat
  below : List α
deriving DecidableEq

namespace Location
variable {α : Type u} [DecidableEq α] {parent : α} {cs : List α}

/-- The place one component further. -/
def enter (parent : α) (place : Location α) (c : α) : Location α :=
  if c = parent then
    if place.below = [] then ⟨place.ups + 1, []⟩ else ⟨place.ups, place.below.dropLast⟩
  else ⟨place.ups, place.below ++ [c]⟩

/-- The place that components lead to. -/
def walk (parent : α) (cs : List α) : Location α := cs.foldl (enter parent) ⟨0, []⟩

/-- A place is another one or under it. What lies between a place above the start and the start is
not known, so only a place straight above the start has the start under it. -/
def Under (place outer : Location α) : Prop :=
  (outer.ups = place.ups ∧ outer.below <+: place.below) ∨
    (place.ups < outer.ups ∧ outer.below = [])

instance (place outer : Location α) : Decidable (Under place outer) := by
  unfold Under; infer_instance

theorem walk_nil : walk parent [] = ⟨0, []⟩ := rfl

theorem walk_concat (c : α) : walk parent (cs ++ [c]) = enter parent (walk parent cs) c :=
  List.foldl_concat ..

theorem walk_concat_of_ne {c : α} (h : c ≠ parent) :
    walk parent (cs ++ [c]) = ⟨(walk parent cs).ups, (walk parent cs).below ++ [c]⟩ := by
  rw [walk_concat, enter, if_neg h]

/-- Steps up. -/
def climbs (parent : α) (cs : List α) : Nat := cs.countP (· = parent)

/-- Steps down. -/
def downs (parent : α) (cs : List α) : Nat := cs.countP (· ≠ parent)

/-- As long as the start is not left, what is below is what was entered and not gone up from. -/
theorem length_below (h : (walk parent cs).ups = 0) :
    (walk parent cs).below.length + climbs parent cs = downs parent cs := by
  induction cs using List.reverseRecOn with
  | nil => rfl
  | append_singleton cs c ih =>
    unfold climbs downs at ih ⊢
    rw [walk_concat, enter] at h ⊢
    rw [List.countP_append, List.countP_singleton, List.countP_append, List.countP_singleton]
    by_cases hc : c = parent
    · rw [if_pos hc] at h ⊢
      by_cases hb : (walk parent cs).below = []
      · rw [if_pos hb] at h
        cases h
      · rw [if_neg hb] at h ⊢
        have hpos := List.length_pos_iff.mpr hb
        have hlen := ih h
        simp only [hc, decide_true, if_true, ne_eq, not_true_eq_false, decide_false,
          List.length_dropLast, Bool.false_eq_true, if_false] at hlen ⊢
        omega
    · rw [if_neg hc] at h ⊢
      have hlen := ih h
      simp only [decide_false, ne_eq, hc, not_false_eq_true, decide_true, if_true,
        List.length_append, List.length_singleton, Bool.false_eq_true, if_false] at hlen ⊢
      omega

theorem ups_le_concat (c : α) : (walk parent cs).ups ≤ (walk parent (cs ++ [c])).ups := by
  rw [walk_concat, enter]
  split
  · split
    · exact Nat.le_succ _
    · exact le_rfl
  · exact le_rfl

/-- The start is not left exactly when no beginning goes up more often than down. -/
theorem ups_walk_eq_zero_iff :
    (walk parent cs).ups = 0 ↔ ∀ pre, pre <+: cs → climbs parent pre ≤ downs parent pre := by
  induction cs using List.reverseRecOn with
  | nil =>
    refine iff_of_true rfl fun pre hpre => ?_
    rw [List.prefix_nil.mp hpre]
    exact Nat.zero_le _
  | append_singleton cs c ih =>
    constructor
    · intro h pre hpre
      obtain rfl | hpre := List.prefix_concat_iff.mp hpre
      · have hlen := length_below h
        omega
      · exact ih.mp (Nat.le_zero.mp (h ▸ ups_le_concat c)) pre hpre
    · intro h
      have hbefore : (walk parent cs).ups = 0 :=
        ih.mpr fun pre hpre => h pre (hpre.trans (List.prefix_append _ _))
      have hlen := length_below hbefore
      have hlast := h _ List.prefix_rfl
      rw [walk_concat, enter]
      split
      · rename_i hc
        rw [if_neg, hbefore]
        intro hb
        unfold climbs downs at hlen hlast
        rw [List.countP_append, List.countP_singleton, List.countP_append, List.countP_singleton, hc,
          ← hlen, hb] at hlast
        simp at hlast
      · exact hbefore

/-- Every component below the place is one of those walked. -/
theorem below_subset : (walk parent cs).below ⊆ cs := by
  induction cs using List.reverseRecOn with
  | nil => exact List.Subset.refl _
  | append_singleton cs c ih =>
    intro a ha
    rw [walk_concat, enter] at ha
    split at ha
    · split at ha
      · cases ha
      · exact List.mem_append_left _ (ih (List.mem_of_mem_dropLast ha))
    · obtain ha | ha := List.mem_append.mp ha
      · exact List.mem_append_left _ (ih ha)
      · exact List.mem_append_right _ ha

end Location
