import SimAgentNet.Data.Run

/-! # Effects

A fallible operation on a state. A failure does not undo what was done before it: the state the
operation reached is returned in both cases. -/

/-- How a call ends without a result: with a failure, or in a panic (a value that the code takes to
be present is absent). -/
inductive Halt (ε : Type) where
  | failure (e : ε)
  | panicked
deriving DecidableEq

/-- An operation on a state `σ` that may fail with an `ε`. -/
def Effect (ε σ α : Type) := σ → Except ε α × σ

namespace Effect
variable {ε σ α β : Type}

protected def bind (x : Effect ε σ α) (f : α → Effect ε σ β) : Effect ε σ β := fun s =>
  match x s with
  | (.ok a, s') => f a s'
  | (.error e, s') => (.error e, s')

instance : Monad (Effect ε σ) where
  pure a := fun s => (.ok a, s)
  bind := Effect.bind

def fail (e : ε) : Effect ε σ α := fun s => (.error e, s)

/-- A computation that reads the state. -/
def observe (f : σ → Except ε α) : Effect ε σ α := fun s => (f s, s)

/-- A computation on values alone. -/
def ofExcept (x : Except ε α) : Effect ε σ α := observe fun _ => x

/-- The state as it is. -/
def get : Effect ε σ σ := observe .ok

def modify (f : σ → σ) : Effect ε σ Unit := fun s => (.ok (), f s)

/-- Runs an operation on a part of the state. -/
def focus (part : τ → σ) (put : σ → τ → τ) (x : Effect ε σ α) : Effect ε τ α := fun t =>
  ((x (part t)).1, put (x (part t)).2 t)

/-- Runs an operation and takes its failure as a result. -/
def attempt (x : Effect ε' σ α) : Effect ε σ (Except ε' α) := fun s => (.ok (x s).1, (x s).2)

def mapError (f : ε' → ε) (x : Effect ε' σ α) : Effect ε σ α := fun s =>
  ((x s).1.mapError f, (x s).2)

@[simp] theorem pure_apply (a : α) (s : σ) : (pure a : Effect ε σ α) s = (.ok a, s) := rfl
@[simp] theorem fail_apply (e : ε) (s : σ) : (fail e : Effect ε σ α) s = (.error e, s) := rfl
@[simp] theorem observe_apply (f : σ → Except ε α) (s : σ) : observe f s = (f s, s) := rfl
@[simp] theorem ofExcept_apply (x : Except ε α) (s : σ) : ofExcept x s = (x, s) := rfl

theorem get_apply (s : σ) : (get : Effect ε σ σ) s = (.ok s, s) := rfl
theorem attempt_apply (x : Effect ε' σ α) (s : σ) :
    (attempt x : Effect ε σ (Except ε' α)) s = (.ok (x s).1, (x s).2) := rfl
theorem modify_apply (f : σ → σ) (s : σ) : (modify f : Effect ε σ Unit) s = (.ok (), f s) := rfl

theorem bind_apply (x : Effect ε σ α) (f : α → Effect ε σ β) (s : σ) :
    (x >>= f) s = match x s with
      | (.ok a, s') => f a s'
      | (.error e, s') => (.error e, s') := rfl

theorem bind_eq_ok_iff {x : Effect ε σ α} {f : α → Effect ε σ β} :
    (x >>= f) s = (.ok b, s'') ↔ ∃ a s', x s = (.ok a, s') ∧ f a s' = (.ok b, s'') := by
  show Effect.bind x f s = _ ↔ _
  unfold Effect.bind
  split
  · rename_i a s' h
    simp only [h, Prod.mk.injEq, Except.ok.injEq]
    exact ⟨fun hf => ⟨a, s', ⟨rfl, rfl⟩, hf⟩, fun ⟨_, _, ⟨ha, hs⟩, hf⟩ => ha ▸ hs ▸ hf⟩
  · rename_i e s' h
    simp [h]

theorem bind_eq_error_iff {x : Effect ε σ α} {f : α → Effect ε σ β} :
    (x >>= f) s = (.error e, s'') ↔
      x s = (.error e, s'') ∨ ∃ a s', x s = (.ok a, s') ∧ f a s' = (.error e, s'') := by
  show Effect.bind x f s = _ ↔ _
  unfold Effect.bind
  split
  · rename_i a s' h
    simp only [h, Prod.mk.injEq, Except.ok.injEq]
    refine ⟨fun hf => .inr ⟨a, s', ⟨rfl, rfl⟩, hf⟩, ?_⟩
    intro hor
    obtain ⟨he, -⟩ | ⟨_, _, ⟨ha, hs⟩, hf⟩ := hor
    · cases he
    · exact ha ▸ hs ▸ hf
  · rename_i e s' h
    simp [h]

theorem observe_eq_error_iff {f : σ → Except ε α} :
    observe f s = (.error e, s') ↔ f s = .error e ∧ s' = s := by
  simp [eq_comm]

theorem mapError_eq_error {f : ε' → ε} {x : Effect ε' σ α}
    (h : mapError f x s = (.error e, s')) : ∃ e', x s = (.error e', s') := by
  obtain ⟨he, hs⟩ := Prod.mk.inj h
  cases hx : (x s).1 with
  | ok a => rw [hx] at he; cases he
  | error e' => exact ⟨e', Prod.ext hx hs⟩

theorem observe_eq_ok_iff {f : σ → Except ε α} :
    observe f s = (.ok a, s') ↔ f s = .ok a ∧ s' = s := by
  simp [eq_comm]

theorem ofExcept_eq_ok_iff {x : Except ε α} {s s' : σ} :
    ofExcept x s = (.ok a, s') ↔ x = .ok a ∧ s' = s := observe_eq_ok_iff

theorem mapError_eq_ok_iff {f : ε' → ε} {x : Effect ε' σ α} :
    mapError f x s = (.ok a, s') ↔ x s = (.ok a, s') := by
  rw [mapError, Prod.ext_iff, Prod.ext_iff, Except.mapError_eq_ok_iff]

/-! ## Pre- and postconditions -/

/-- Started in a state that satisfies `P`, the operation ends with `Q` when it returns and with
`E` when it fails. -/
def Triple (P : σ → Prop) (x : Effect ε σ α) (Q : α → σ → Prop) (E : σ → Prop) : Prop :=
  ∀ s, P s → match x s with
    | (.ok a, s') => Q a s'
    | (.error _, s') => E s'

namespace Triple
variable {P : σ → Prop} {Q : α → σ → Prop} {E : σ → Prop}

theorem pure (h : ∀ s, P s → Q a s) : Triple P (pure a : Effect ε σ α) Q E := h

theorem fail (h : ∀ s, P s → E s) : Triple P (fail e : Effect ε σ α) Q E := h

theorem bind {x : Effect ε σ α} {f : α → Effect ε σ β} {R : β → σ → Prop}
    (hx : Triple P x Q E) (hf : ∀ a, Triple (Q a) (f a) R E) : Triple P (x >>= f) R E := by
  intro s hs
  have h := hx s hs
  show match Effect.bind x f s with
    | (.ok b, s') => R b s'
    | (.error _, s') => E s'
  unfold Effect.bind
  split at h
  · exact hf _ _ h
  · exact h

theorem observe {f : σ → Except ε α} (hok : ∀ s a, P s → f s = .ok a → Q a s)
    (he : ∀ s, P s → E s) : Triple P (observe f) Q E := by
  intro s hs
  rw [observe_apply]
  cases h : f s with
  | ok a => exact hok s a hs h
  | error e => exact he s hs

theorem ofExcept {x : Except ε α} (hok : ∀ s a, P s → x = .ok a → Q a s)
    (he : ∀ s, P s → E s) : Triple P (ofExcept x) Q E :=
  observe hok he

theorem get (h : ∀ s, P s → Q' s s) : Triple P (get : Effect ε σ σ) Q' E := h

theorem modify {f : σ → σ} (h : ∀ s, P s → Q' () (f s)) :
    Triple P (modify f : Effect ε σ Unit) Q' E := h

theorem weaken {P' : σ → Prop} {Q' : α → σ → Prop} {E' : σ → Prop} {x : Effect ε σ α}
    (h : Triple P x Q E) (hp : ∀ s, P' s → P s) (hq : ∀ a s, Q a s → Q' a s)
    (he : ∀ s, E s → E' s) : Triple P' x Q' E' := by
  intro s hs
  have h := h s (hp s hs)
  split at h
  · exact hq _ _ h
  · exact he _ h

/-- What does not depend on the state is kept by every operation. -/
theorem const {p : Prop} (x : Effect ε σ α) :
    Triple (fun _ => p) x (fun _ _ => p) fun _ => True := by
  intro s hp
  split
  · exact hp
  · trivial

theorem ok (h : Triple P x Q E) (hs : P s) (hx : x s = (.ok a, s')) : Q a s' := by
  have := h s hs
  rwa [hx] at this

theorem mapError {f : ε' → ε} {x : Effect ε' σ α} (h : Triple P x Q E) :
    Triple P (mapError f x) Q E := by
  intro s hs
  have hx := h s hs
  rcases hrun : x s with ⟨e | a, s'⟩
  all_goals
    rw [hrun] at hx
    rw [Effect.mapError, hrun]
    exact hx

theorem attempt {x : Effect ε' σ α} {E' : σ → Prop} (h : Triple P x Q E) :
    Triple P (attempt x : Effect ε σ (Except ε' α))
      (fun r s => match r with | .ok a => Q a s | .error _ => E s) E' := by
  intro s hs
  have hx := h s hs
  rcases hrun : x s with ⟨e | a, s'⟩
  all_goals
    rw [hrun] at hx
    rw [attempt_apply, hrun]
    exact hx

/-- What is known of the results of an operation holds afterwards. -/
theorem returns {R : α → Prop} {x : Effect ε σ α} (h : Triple P x Q E)
    (hr : ∀ s a s', x s = (.ok a, s') → R a) : Triple P x (fun a s => Q a s ∧ R a) E := by
  intro s hs
  have hx := h s hs
  rcases hrun : x s with ⟨e | a, s'⟩
  · rw [hrun] at hx
    exact hx
  · rw [hrun] at hx
    exact ⟨hx, hr s a s' hrun⟩

/-- When both outcomes keep `I`, the state reached satisfies it. -/
theorem final {I : σ → Prop} {x : Effect ε σ α} (h : Triple P x (fun _ => I) I) (hs : P s) :
    I (x s).2 := by
  have := h s hs
  split at this
  · rename_i hx; rw [hx]; exact this
  · rename_i hx; rw [hx]; exact this

end Triple

/-! ## States with a part that is not read -/

/-- The operation `y` does what `x` does on the part of the state that `x` knows. -/
def Lifts {τ : Type} (part : τ → σ) (x : Effect ε σ α) (y : Effect ε τ α) : Prop :=
  ∀ t, x (part t) = ((y t).1, part (y t).2)

namespace Lifts
variable {τ : Type} {part : τ → σ}

theorem pure (a : α) : Lifts part (pure a : Effect ε σ α) (pure a) := fun _ => rfl

theorem fail (e : ε) : Lifts part (fail e : Effect ε σ α) (fail e) := fun _ => rfl

theorem ofExcept (x : Except ε α) : Lifts part (ofExcept x) (ofExcept x) := fun _ => rfl

theorem observe {f : σ → Except ε α} {g : τ → Except ε α} (h : ∀ t, f (part t) = g t) :
    Lifts part (observe f) (observe g) := fun t => Prod.ext (h t) rfl

theorem modify {f : σ → σ} {g : τ → τ} (h : ∀ t, f (part t) = part (g t)) :
    Lifts part (modify f : Effect ε σ Unit) (modify g) := fun t => Prod.ext rfl (h t)

theorem bind {x : Effect ε σ α} {y : Effect ε τ α} {f : α → Effect ε σ β} {g : α → Effect ε τ β}
    (h : Lifts part x y) (hnext : ∀ a, Lifts part (f a) (g a)) :
    Lifts part (x >>= f) (y >>= g) := by
  intro t
  rw [bind_apply, bind_apply, h t]
  rcases y t with ⟨e | a, t'⟩
  · rfl
  · exact hnext a t'

theorem fail_bind (e : ε) {f : α → Effect ε σ β} {g : α → Effect ε τ β} :
    Lifts part (Effect.fail e >>= f) (Effect.fail e >>= g) := fun _ => rfl

theorem ite {p : Prop} [Decidable p] {x x' : Effect ε σ α} {y y' : Effect ε τ α}
    (h : Lifts part x y) (h' : Lifts part x' y') :
    Lifts part (if p then x else x') (if p then y else y') := by
  split
  · exact h
  · exact h'

/-- The whole state is read. -/
theorem get_bind {f : σ → Effect ε σ β} {g : τ → Effect ε τ β}
    (h : ∀ t, Lifts part (f (part t)) (g t)) : Lifts part (get >>= f) (get >>= g) :=
  fun t => h t t

end Lifts

end Effect
