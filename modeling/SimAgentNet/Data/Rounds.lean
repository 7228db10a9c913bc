import SimAgentNet.Data.Effect

/-! # Rounds

A loop that runs for a bounded number of rounds. A round ends the loop with a result, or hands a
value to the next one. -/

inductive Round (α β : Type) where
  | complete (b : β)
  | again (a : α)
deriving DecidableEq

/-- A round that ends the loop ends it with a result that satisfies `Q`. -/
def Round.Completes {α β : Type} (Q : β → Prop) : Round α β → Prop
  | .complete b => Q b
  | .again _ => True

namespace Effect
variable {α β ε σ : Type} {step : α → Nat → Effect ε σ (Round α β)}

/-- At most `n` rounds, of which the first one has the number `k`. -/
def rounds (step : α → Nat → Effect ε σ (Round α β)) :
    Nat → Nat → α → Effect ε σ (Round α β)
  | 0, _, a => pure (.again a)
  | n + 1, k, a => do
    match ← step a k with
    | .complete b => pure (.complete b)
    | .again a => rounds step n (k + 1) a

theorem rounds_succ (n k : Nat) (a : α) (s : σ) :
    rounds step (n + 1) k a s = match step a k s with
      | (.ok (.complete b), s') => (.ok (.complete b), s')
      | (.ok (.again a'), s') => rounds step n (k + 1) a' s'
      | (.error e, s') => (.error e, s') := by
  rw [rounds, bind_apply]
  rcases step a k s with ⟨e | b | a', s'⟩ <;> rfl

/-- A result comes from a round that was reached with what the rounds before it keep. -/
theorem rounds_complete {I : Nat → α → σ → Prop}
    (hstep : ∀ k a s a' s', I k a s → step a k s = (.ok (.again a'), s') → I (k + 1) a' s')
    (h0 : I k a s) (hrun : rounds step n k a s = (.ok (.complete b), s')) :
    ∃ i a₁ s₁, I i a₁ s₁ ∧ step a₁ i s₁ = (.ok (.complete b), s') := by
  induction n generalizing k a s with
  | zero => cases hrun
  | succ n ih =>
    rw [rounds_succ] at hrun
    split at hrun
    · next b' s₁ hdone =>
      cases hrun
      exact ⟨k, a, s, h0, hdone⟩
    · next a' s₁ hagain => exact ih (hstep k a s a' s₁ h0 hagain) hrun
    · cases hrun

/-- The loop keeps what its rounds keep. -/
theorem Triple.rounds {I : σ → Prop} {Q : β → Prop}
    (hstep : ∀ a k, Triple I (step a k) (fun r s => I s ∧ r.Completes Q) I) (n k : Nat) (a : α) :
    Triple I (rounds step n k a) (fun r s => I s ∧ r.Completes Q) I := by
  induction n generalizing k a with
  | zero => exact .pure fun _ hs => ⟨hs, trivial⟩
  | succ n ih =>
    refine .bind (hstep a k) fun r => ?_
    cases r with
    | complete b => exact .pure fun _ hs => hs
    | again a' => exact (ih (k + 1) a').weaken (fun _ hs => hs.1) (fun _ _ hs => hs) fun _ hs => hs

/-- Where every round adds at most `d` to a count, the loop adds at most `d` for each round. -/
theorem Triple.rounds_count (step : α → Nat → Effect ε σ (Round α β)) (count : σ → Nat) {d : Nat}
    (hstep : ∀ a k m, Triple (fun s => count s ≤ m) (step a k) (fun _ s => count s ≤ m + d)
      fun s => count s ≤ m + d) (n k : Nat) (a : α) (m : Nat) :
    Triple (fun s => count s ≤ m) (Effect.rounds step n k a) (fun _ s => count s ≤ m + n * d)
      fun s => count s ≤ m + n * d := by
  induction n generalizing k a m with
  | zero => exact .pure fun s hs => by simpa using hs
  | succ n ih =>
    have htotal : m + (n + 1) * d = m + d + n * d := by rw [Nat.add_one_mul]; omega
    rw [htotal]
    refine .bind ((hstep a k m).weaken (fun _ hs => hs) (fun _ _ hs => hs) fun _ hs =>
      Nat.le_add_right_of_le hs) fun r => ?_
    cases r with
    | complete b => exact .pure fun _ hs => Nat.le_add_right_of_le hs
    | again a' => exact ih (k + 1) a' (m + d)

end Effect
