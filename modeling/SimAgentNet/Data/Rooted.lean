import Mathlib

/-! # Rooted relations

A relation in which every element has at most one predecessor and the root has none, the chain of
ancestors of an element, and the loops of a union of two relations. -/

namespace SimAgentNet

open Relation

variable {α : Type*} {edge : α → α → Prop} {root : α}

/-- Predecessors are unique, and the root has none. -/
structure Rooted (edge : α → α → Prop) (root : α) : Prop where
  unique : edge a c → edge b c → a = b
  top : ¬edge a root

namespace Rooted

theorem not_loop (h : Rooted edge root) (hx : ReflTransGen edge root x) : ¬TransGen edge x x := by
  induction hx with
  | refl =>
    intro hl
    obtain ⟨b, -, hb⟩ := TransGen.tail'_iff.mp hl
    exact h.top hb
  | @tail b x _ hbx ih =>
    -- a loop through `x` enters it from its only predecessor, which then has a loop too
    intro hl
    obtain ⟨c, hxc, hcx⟩ := TransGen.tail'_iff.mp hl
    cases h.unique hbx hcx
    exact ih (TransGen.head' hbx hxc)

end Rooted

/-- The elements on the way from the root down to an element, without the element. -/
inductive Descends (edge : α → α → Prop) (root : α) : List α → α → Prop
  | root : Descends edge root [] root
  | step : Descends edge root l a → edge a c → Descends edge root (l ++ [a]) c

namespace Descends

theorem exists_of_reach (hx : ReflTransGen edge root x) : ∃ l, Descends edge root l x := by
  induction hx with
  | refl => exact ⟨[], .root⟩
  | tail _ hbx ih =>
    obtain ⟨l, hl⟩ := ih
    exact ⟨_, hl.step hbx⟩

theorem reach (h : Descends edge root l x) : ReflTransGen edge root x := by
  induction h with
  | root => exact .refl
  | step _ he ih => exact ih.tail he

theorem transGen_of_mem (h : Descends edge root l x) (ha : a ∈ l) : TransGen edge a x := by
  induction h with
  | root => cases ha
  | step _ he ih =>
    rcases List.mem_append.mp ha with ha | ha
    · exact (ih ha).tail he
    · cases List.mem_singleton.mp ha
      exact .single he

theorem mem_iff (hr : Rooted edge root) (h : Descends edge root l x) :
    a ∈ l ↔ TransGen edge a x := by
  refine ⟨h.transGen_of_mem, fun ha => ?_⟩
  induction h with
  | root =>
    obtain ⟨b, -, hb⟩ := TransGen.tail'_iff.mp ha
    exact absurd hb hr.top
  | @step l b c _ he ih =>
    obtain ⟨b', hab, hbc⟩ := TransGen.tail'_iff.mp ha
    cases hr.unique he hbc
    rcases reflTransGen_iff_eq_or_transGen.mp hab with heq | hab
    · cases heq
      exact List.mem_append_right _ List.mem_cons_self
    · exact List.mem_append_left _ (ih hab)

/-- There is one way down to an element. -/
theorem functional (hr : Rooted edge root) (h : Descends edge root l x)
    (h' : Descends edge root l' x) : l = l' := by
  induction h generalizing l' with
  | root =>
    cases h' with
    | root => rfl
    | step _ he => exact absurd he hr.top
  | step _ he ih =>
    cases h' with
    | root => exact absurd he hr.top
    | step h' he' =>
      cases hr.unique he he'
      rw [ih h']

theorem pairwise (h : Descends edge root l x) : l.Pairwise (TransGen edge) := by
  induction h with
  | root => exact .nil
  | step hl he ih =>
    refine List.pairwise_append.mpr ⟨ih, List.pairwise_singleton _ _, ?_⟩
    intro a ha b hb
    cases List.mem_singleton.mp hb
    exact hl.transGen_of_mem ha

theorem nodup_concat (hr : Rooted edge root) (h : Descends edge root l x) :
    (l ++ [x]).Nodup := by
  have hpair : (l ++ [x]).Pairwise (TransGen edge) := by
    refine List.pairwise_append.mpr ⟨h.pairwise, List.pairwise_singleton _ _, ?_⟩
    intro a ha b hb
    cases List.mem_singleton.mp hb
    exact h.transGen_of_mem ha
  have hreach {a} (ha : a ∈ l ++ [x]) : ReflTransGen edge root a := by
    clear hpair
    induction h with
    | root => cases List.mem_singleton.mp ha; exact .refl
    | step hl he ih =>
      rcases List.mem_append.mp ha with ha | ha
      · exact ih ha
      · cases List.mem_singleton.mp ha
        exact hl.reach.tail he
  refine hpair.imp_of_mem ?_
  intro a b ha _ hab heq
  cases heq
  exact hr.not_loop (hreach ha) hab

end Descends

/-! ## Loops of a union -/

/-- A step of `d` followed by any number of steps of `t`. -/
def Under (d t : α → α → Prop) (a b : α) : Prop := ∃ c, d a c ∧ ReflTransGen t c b

variable {d t : α → α → Prop}

theorem Under.transGen_tail (h : TransGen (Under d t) a b) (hb : ReflTransGen t b c) :
    TransGen (Under d t) a c := by
  obtain ⟨m, hm, x, hx, hxb⟩ := TransGen.tail'_iff.mp h
  exact TransGen.tail'_iff.mpr ⟨m, hm, x, hx, hxb.trans hb⟩

/-- A path of the union runs along `t`, or along `t` to a path that begins with `d`. -/
theorem Under.of_union (h : TransGen (fun a b => t a b ∨ d a b) a c) :
    TransGen t a c ∨ ∃ b, ReflTransGen t a b ∧ TransGen (Under d t) b c := by
  induction h with
  | single h =>
    rcases h with h | h
    · exact .inl (.single h)
    · exact .inr ⟨a, .refl, .single ⟨_, h, .refl⟩⟩
  | tail _ h ih =>
    rcases ih with hac | ⟨b, hab, hbc⟩
    · rcases h with h | h
      · exact .inl (hac.tail h)
      · exact .inr ⟨_, hac.to_reflTransGen, .single ⟨_, h, .refl⟩⟩
    · rcases h with h | h
      · exact .inr ⟨b, hab, transGen_tail hbc (.single h)⟩
      · exact .inr ⟨b, hab, hbc.tail ⟨_, h, .refl⟩⟩

theorem Under.to_union (h : TransGen (Under d t) a b) :
    TransGen (fun a b => t a b ∨ d a b) a b := by
  have hstep {x y} (h : Under d t x y) : TransGen (fun a b => t a b ∨ d a b) x y := by
    obtain ⟨z, hz, hzy⟩ := h
    exact TransGen.head' (.inr hz) (hzy.lift id fun _ _ => .inl)
  induction h with
  | single h => exact hstep h
  | tail _ h ih => exact ih.trans (hstep h)

/-- Where `t` has no loops, the loops of the union are the loops of `Under`. -/
theorem Under.loop_iff (ht : ∀ a, ¬TransGen t a a) :
    (∃ a, TransGen (fun a b => t a b ∨ d a b) a a) ↔ ∃ a, TransGen (Under d t) a a := by
  constructor
  · rintro ⟨a, h⟩
    rcases of_union h with h | ⟨b, hab, hba⟩
    · exact absurd h (ht a)
    · exact ⟨b, transGen_tail hba hab⟩
  · rintro ⟨a, h⟩
    exact ⟨a, to_union h⟩

end SimAgentNet
