import Mathlib

/-! # The order of last use

The uses of keys, newest first, and lists that have the keys in the order of their last uses. -/

namespace Recency

variable {α : Type*} [DecidableEq α]

/-- The uses since the last one of the key. -/
def since (uses : List α) (a : α) : List α := uses.takeWhile (· ≠ a)

/-- How many other keys have been used since the last use of the key. -/
def others (uses : List α) (a : α) : Nat := (since uses a).dedup.length

/-- The key goes to the end of the order. -/
abbrev touch (a : α) (order : List α) : List α := order.filter (· ≠ a) ++ [a]

/-- Every key in the order has been used since those before it. -/
def Recent (uses order : List α) : Prop := order.Pairwise fun a b => b ∈ since uses a

theorem since_cons_of_ne {uses : List α} {a b : α} (h : b ≠ a) :
    since (b :: uses) a = b :: since uses a := List.takeWhile_cons_of_pos (by simpa using h)

theorem since_subset_cons {uses : List α} {a b : α} (h : b ≠ a) :
    since uses a ⊆ since (b :: uses) a := by
  rw [since_cons_of_ne h]
  exact List.subset_cons_self _ _

theorem others_le_of_subset {uses uses' : List α} {a : α} (h : since uses a ⊆ since uses' a) :
    others uses a ≤ others uses' a := by
  apply (List.nodup_dedup _).subperm _ |>.length_le
  intro b hb
  exact List.mem_dedup.mpr (h (List.mem_dedup.mp hb))

theorem nodup_touch {a : α} {order : List α} (h : order.Nodup) : (touch a order).Nodup := by
  refine List.nodup_append.mpr ⟨h.filter _, List.nodup_singleton a, ?_⟩
  rintro b hb c hc rfl
  cases List.mem_singleton.mp hc
  simp at hb

theorem mem_touch {a b : α} {order : List α} : b ∈ touch a order ↔ b = a ∨ b ∈ order := by
  rw [touch, List.mem_append, List.mem_singleton, List.mem_filter]
  by_cases h : b = a <;> simp [h]

theorem Recent.touch {uses order : List α} (h : Recent uses order) (a : α) :
    Recent (a :: uses) (touch a order) := by
  refine List.pairwise_append.mpr ⟨?_, List.pairwise_singleton _ a, ?_⟩
  · refine (h.filter _).imp_of_mem fun {b c} hb _ hc => ?_
    exact since_subset_cons (by simpa using (List.mem_filter.mp hb).2 : b ≠ a).symm hc
  · intro b hb c hc
    cases List.mem_singleton.mp hc
    rw [since_cons_of_ne (by simpa using (List.mem_filter.mp hb).2 : b ≠ a).symm]
    exact List.mem_cons_self

/-- All keys in an order but the first have been used since the first. -/
theorem Recent.length_le {uses order keys : List α} {a : α} (h : Recent uses (a :: order))
    (hkeys : keys.Nodup) (hsub : keys ⊆ a :: order) : keys.length ≤ others uses a + 1 := by
  have hsince : keys ⊆ a :: (since uses a).dedup := by
    intro b hb
    rcases List.mem_cons.mp (hsub hb) with rfl | hb
    · exact List.mem_cons_self
    · exact List.mem_cons_of_mem _ (List.mem_dedup.mpr ((List.pairwise_cons.mp h).1 b hb))
  exact (hkeys.subperm hsince).length_le

end Recency
