import Mathlib

/-! # Ordered paths in a graph

Paths from a root through a graph whose edges out of a node are listed in order and narrow a value
carried along. A path is the list of the edge numbers taken. `First` paths are those that no path
to the same node turns off before, and `Arrives` are the paths that take the first path to the
last but one node: those on which a depth-first walk with a set of finished nodes comes to a node. -/

namespace SimAgentNet.Walk
variable {α : Type u} {κ : Type v} {γ : Type w} (next : α → List (α × κ)) (narrow : γ → κ → γ)
  (root : α) (start : γ)

/-- The path leads to the node, with the value narrowed along it. -/
inductive Reaches : List Nat → α → γ → Prop
  | root : Reaches [] root start
  | step : Reaches π a c → (next a)[i]? = some (b, k) → Reaches (π ++ [i]) b (narrow c k)

/-- `ρ` leaves the common way before `π`. -/
def Earlier (ρ π : List Nat) : Prop :=
  ∃ τ a b ρ' π', a < b ∧ ρ = τ ++ a :: ρ' ∧ π = τ ++ b :: π'

/-- No path to the node leaves the way of this one before it. -/
def First (π : List Nat) (a : α) (c : γ) : Prop :=
  Reaches next narrow root start π a c ∧ ∀ ρ d, Reaches next narrow root start ρ a d → ¬Earlier ρ π

inductive Arrives : List Nat → α → γ → Prop
  | root : Arrives [] root start
  | edge : First next narrow root start π a c → (next a)[i]? = some (b, k) →
      Arrives (π ++ [i]) b (narrow c k)

/-! ## The order of paths -/

theorem not_earlier_nil : ¬Earlier ρ [] := by
  rintro ⟨τ, a, b, ρ', π', -, -, h⟩
  simp at h

theorem Earlier.append (h : Earlier ρ π) (σ σ' : List Nat) : Earlier (ρ ++ σ) (π ++ σ') := by
  obtain ⟨τ, a, b, ρ', π', hab, rfl, rfl⟩ := h
  exact ⟨τ, a, b, ρ' ++ σ, π' ++ σ', hab, by simp, by simp⟩

/-- What turns off before the last step of a path turned off before or took an earlier step. -/
theorem earlier_concat_iff :
    Earlier ρ (π ++ [j]) ↔ Earlier ρ π ∨ ∃ i < j, π ++ [i] <+: ρ := by
  constructor
  · rintro ⟨τ, a, b, ρ', π', hab, rfl, h⟩
    rcases List.eq_nil_or_concat π' with rfl | ⟨π'', c, rfl⟩
    · obtain ⟨rfl, hj⟩ := List.append_inj' h rfl
      obtain rfl := (List.cons.inj hj).1
      exact .inr ⟨a, hab, ρ', by simp⟩
    · rw [List.concat_eq_append, ← List.cons_append, ← List.append_assoc] at h
      obtain ⟨rfl, -⟩ := List.append_inj' h rfl
      exact .inl ⟨τ, a, b, ρ', π'', hab, rfl, rfl⟩
  · rintro (h | ⟨i, hij, σ, rfl⟩)
    · simpa using h.append [] [j]
    · exact ⟨π, i, j, σ, [], hij, by simp, rfl⟩

theorem earlier_zero_iff : Earlier ρ (π ++ [0]) ↔ Earlier ρ π := by
  simp [earlier_concat_iff]

theorem earlier_succ_iff :
    Earlier ρ (π ++ [j + 1]) ↔ Earlier ρ (π ++ [j]) ∨ π ++ [j] <+: ρ := by
  rw [earlier_concat_iff, earlier_concat_iff, or_assoc]
  refine or_congr .rfl ?_
  constructor
  · rintro ⟨i, hi, hp⟩
    rcases Nat.lt_succ_iff_lt_or_eq.mp hi with hi | rfl
    · exact .inl ⟨i, hi, hp⟩
    · exact .inr hp
  · rintro (⟨i, hi, hp⟩ | hp)
    · exact ⟨i, Nat.lt_succ_of_lt hi, hp⟩
    · exact ⟨j, Nat.lt_succ_self j, hp⟩

/-! ## Paths -/

section Paths
variable {next : α → List (α × κ)} {narrow : γ → κ → γ} {root : α} {start : γ}

theorem Reaches.of_concat (h : Reaches next narrow root start (π ++ [i]) b d) :
    ∃ a c k, Reaches next narrow root start π a c ∧ (next a)[i]? = some (b, k) ∧ d = narrow c k := by
  generalize hρ : π ++ [i] = ρ at h
  cases h with
  | root => simp at hρ
  | step h he =>
    obtain ⟨rfl, hi⟩ := List.append_inj' hρ rfl
    obtain rfl := (List.cons.inj hi).1
    exact ⟨_, _, _, h, he, rfl⟩

theorem Reaches.functional (h : Reaches next narrow root start π a c)
    (h' : Reaches next narrow root start π a' c') : a = a' ∧ c = c' := by
  induction h generalizing a' c' with
  | root =>
    generalize hρ : [] = ρ at h'
    cases h' with
    | root => exact ⟨rfl, rfl⟩
    | step => simp at hρ
  | step _ he ih =>
    obtain ⟨a₂, c₂, k₂, h₂, he₂, rfl⟩ := h'.of_concat
    obtain ⟨rfl, rfl⟩ := ih h₂
    cases he.symm.trans he₂
    exact ⟨rfl, rfl⟩

/-- The way on from a node can be taken after every path to it. -/
theorem Reaches.detour (h : Reaches next narrow root start (π ++ σ) b d)
    (ha : Reaches next narrow root start π a c) (hρ : Reaches next narrow root start ρ a c') :
    ∃ d', Reaches next narrow root start (ρ ++ σ) b d' := by
  induction σ using List.reverseRecOn generalizing b d with
  | nil =>
    rw [List.append_nil] at h ⊢
    obtain ⟨rfl, -⟩ := ha.functional h
    exact ⟨c', hρ⟩
  | append_singleton σ i ih =>
    rw [← List.append_assoc] at h ⊢
    obtain ⟨b', d', k, h', he, -⟩ := h.of_concat
    obtain ⟨d'', h''⟩ := ih h'
    exact ⟨_, h''.step he⟩

/-- A path that goes on from a node goes on along one of its edges. -/
theorem Reaches.lt_length (h : Reaches next narrow root start (π ++ i :: σ) b d)
    (ha : Reaches next narrow root start π a c) : i < (next a).length := by
  induction σ using List.reverseRecOn generalizing b d with
  | nil =>
    obtain ⟨a', c', k, h', he, -⟩ := h.of_concat
    obtain ⟨rfl, -⟩ := ha.functional h'
    exact (List.getElem?_eq_some_iff.mp he).1
  | append_singleton σ j ih =>
    rw [← List.cons_append, ← List.append_assoc] at h
    obtain ⟨_, _, _, h', -, -⟩ := h.of_concat
    exact ih h'

theorem Arrives.of_concat (h : Arrives next narrow root start (π ++ [i]) b d) :
    ∃ a c k, First next narrow root start π a c ∧ (next a)[i]? = some (b, k) ∧ d = narrow c k := by
  generalize hρ : π ++ [i] = ρ at h
  cases h with
  | root => simp at hρ
  | edge h he =>
    obtain ⟨rfl, hi⟩ := List.append_inj' hρ rfl
    obtain rfl := (List.cons.inj hi).1
    exact ⟨_, _, _, h, he, rfl⟩

theorem Arrives.reaches (h : Arrives next narrow root start π a c) :
    Reaches next narrow root start π a c := by
  cases h with
  | root => exact .root
  | edge hf he => exact hf.1.step he

end Paths

end SimAgentNet.Walk
