import Mathlib

/-! # Post-orders

A list that has each element after all that its edges lead to, as a depth-first walk finishes
them. Such a list is closed under the edges and there is no cycle in it. -/

/-- Each element stands after all that its edges lead to. -/
inductive PostOrder (edge : α → α → Prop) : List α → Prop
  | nil : PostOrder edge []
  | concat (h : PostOrder edge l) (hnew : a ∉ l) (hedges : ∀ b, edge a b → b ∈ l) :
    PostOrder edge (l ++ [a])

namespace PostOrder
variable {edge : α → α → Prop} {l : List α}

theorem nodup (h : PostOrder edge l) : l.Nodup := by
  induction h with
  | nil => exact .nil
  | concat h hnew _ ih =>
    rw [← List.concat_eq_append]
    exact ih.concat hnew

theorem of_concat (h : PostOrder edge (l ++ [a])) :
    PostOrder edge l ∧ a ∉ l ∧ ∀ b, edge a b → b ∈ l := by
  generalize hl : l ++ [a] = l' at h
  cases h with
  | nil => exact absurd hl (by simp)
  | concat h hnew hedges =>
    obtain ⟨rfl, ha⟩ := List.append_inj' hl rfl
    cases ha
    exact ⟨h, hnew, hedges⟩

theorem of_append {l' : List α} (h : PostOrder edge (l ++ l')) : PostOrder edge l := by
  induction l' using List.reverseRecOn with
  | nil => rwa [List.append_nil] at h
  | append_singleton l' a ih =>
    rw [← List.append_assoc] at h
    exact ih h.of_concat.1

/-- What the edges of an element lead to stands before it. -/
theorem before (h : PostOrder edge (front ++ a :: rest)) (hab : edge a b) : b ∈ front := by
  rw [← List.singleton_append, ← List.append_assoc] at h
  exact h.of_append.of_concat.2.2 b hab

theorem closed (h : PostOrder edge l) (ha : a ∈ l) (hab : edge a b) : b ∈ l := by
  obtain ⟨front, rest, hl⟩ := List.append_of_mem ha
  rw [hl] at h ⊢
  exact List.mem_append_left _ (h.before hab)

theorem mem_of_reaches (h : PostOrder edge l) (ha : a ∈ l) (hab : Relation.ReflTransGen edge a b) :
    b ∈ l := by
  induction hab with
  | refl => exact ha
  | tail _ hstep ih => exact h.closed ih hstep

theorem acyclic (h : PostOrder edge l) (ha : a ∈ l) : ¬Relation.TransGen edge a a := by
  induction h with
  | nil => cases ha
  | @concat l c h hnew hedges ih =>
    intro hcycle
    obtain hl | hc := List.mem_append.mp ha
    · exact ih hl hcycle
    · cases List.mem_singleton.mp hc
      obtain ⟨b, hab, hba⟩ := Relation.TransGen.head'_iff.mp hcycle
      exact hnew (h.mem_of_reaches (hedges b hab) hba)

/-- An element from which all are reached is the last one. -/
theorem getLast?_eq (h : PostOrder edge l) (ha : a ∈ l)
    (hall : ∀ b ∈ l, Relation.ReflTransGen edge a b) : l.getLast? = some a := by
  obtain ⟨front, rest, rfl⟩ := List.append_of_mem ha
  cases rest with
  | nil => exact List.getLast?_concat
  | cons b rest =>
    have hdisjoint := List.disjoint_of_nodup_append h.nodup
    have hb : b ∈ a :: b :: rest := List.mem_cons_of_mem _ List.mem_cons_self
    obtain rfl | ⟨c, hac, hcb⟩ := (hall b (List.mem_append_right _ hb)).cases_head
    · have hnodup := (List.nodup_append.mp h.nodup).2.1
      exact absurd List.mem_cons_self (List.nodup_cons.mp hnodup).1
    · exact absurd hb (hdisjoint (h.of_append.mem_of_reaches (h.before hac) hcb))

end PostOrder
