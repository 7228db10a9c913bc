import Mathlib

/-! # Fallible runs

Inversion of `Except` computations and the run rule for a fallible step function: a property of
the events seen so far and the state reached, true initially and kept by every accepted step,
holds after every accepted run. -/

namespace Except

theorem ok_bind (a : α) (f : α → Except ε β) : (ok a >>= f) = f a := rfl

theorem bind_eq_ok_iff {x : Except ε α} {f : α → Except ε β} :
    (x >>= f) = .ok b ↔ ∃ a, x = .ok a ∧ f a = .ok b := by
  cases x with
  | error e => exact ⟨nofun, fun ⟨_, h, _⟩ => nomatch h⟩
  | ok a => exact ⟨fun h => ⟨a, rfl, h⟩, fun ⟨_, rfl, h⟩ => h⟩

theorem map_eq_ok_iff {x : Except ε α} {f : α → β} :
    (f <$> x) = .ok b ↔ ∃ a, x = .ok a ∧ f a = b := by
  cases x with
  | error e => exact ⟨nofun, fun ⟨_, h, _⟩ => nomatch h⟩
  | ok a => exact ⟨fun h => ⟨a, rfl, Except.ok.inj h⟩, fun ⟨_, rfl, h⟩ => congrArg _ h⟩

theorem mapError_eq_ok_iff {x : Except ε α} {f : ε → ε'} :
    x.mapError f = .ok a ↔ x = .ok a := by
  cases x with
  | error e => exact ⟨nofun, nofun⟩
  | ok b => exact ⟨fun h => congrArg _ (Except.ok.inj h), fun h => congrArg _ (Except.ok.inj h)⟩

theorem exists_of_isOk {x : Except ε α} (h : x.isOk) : ∃ a, x = .ok a := by
  cases x with
  | error e => cases h
  | ok a => exact ⟨a, rfl⟩

/-- A guard lets the computation go on exactly when its refusal condition is false. -/
theorem guard_eq_ok_iff {c : Prop} [Decidable c] {e : ε} {x : Except ε α} :
    (if c then .error e else x) = .ok a ↔ ¬c ∧ x = .ok a := by
  split
  · exact ⟨nofun, fun h => absurd ‹c› h.1⟩
  · exact ⟨fun h => ⟨‹_›, h⟩, fun h => h.2⟩

/-- A loop of checks succeeds exactly when each check does. -/
theorem forM_eq_ok_iff {f : α → Except ε PUnit} {l : List α} :
    l.forM f = .ok () ↔ ∀ a ∈ l, f a = .ok () := by
  induction l with
  | nil => exact ⟨nofun, fun _ => rfl⟩
  | cons a l ih =>
    show (f a >>= fun _ => l.forM f) = .ok () ↔ _
    rw [bind_eq_ok_iff]
    simp only [List.forall_mem_cons, ← ih]
    exact ⟨fun ⟨_, h, h'⟩ => ⟨h, h'⟩, fun ⟨h, h'⟩ => ⟨(), h, h'⟩⟩

/-- A list that is not read through has an element that is in error. -/
theorem mapM_eq_error {f : α → Except ε β} {xs : List α} {e : ε} (h : xs.mapM f = .error e) :
    ∃ x ∈ xs, f x = .error e := by
  induction xs with
  | nil => cases h
  | cons x xs ih =>
    rw [List.mapM_cons] at h
    cases hx : f x with
    | error e' =>
      rw [hx] at h
      cases h
      exact ⟨x, List.mem_cons_self, hx⟩
    | ok y =>
      rw [hx] at h
      cases hxs : xs.mapM f with
      | ok ys =>
        rw [hxs] at h
        cases h
      | error e' =>
        rw [hxs] at h
        cases h
        obtain ⟨x', hmem, he⟩ := ih hxs
        exact ⟨x', List.mem_cons_of_mem _ hmem, he⟩

theorem mapM_ok_congr {f g : α → Except ε β} (h : ∀ a b, f a = .ok b ↔ g a = .ok b) {xs : List α}
    {ys : List β} : xs.mapM f = .ok ys ↔ xs.mapM g = .ok ys := by
  induction xs generalizing ys with
  | nil => rfl
  | cons x xs ih => simp only [List.mapM_cons, bind_eq_ok_iff, h, ih]

theorem toOption_eq_some_iff {x : Except ε α} {a : α} : x.toOption = some a ↔ x = .ok a := by
  cases x with
  | error e => simp [Except.toOption]
  | ok b => simp [Except.toOption]

end Except

namespace Run
variable {ε : Type u} {σ : Type v} {ι : Type w} {step : σ → ι → Except ε σ}

theorem foldlM_concat_eq_ok_iff {es : List ι} {e : ι} {s t : σ} :
    (es ++ [e]).foldlM step s = .ok t ↔ ∃ u, es.foldlM step s = .ok u ∧ step u e = .ok t := by
  rw [List.foldlM_append, Except.bind_eq_ok_iff]
  simp only [List.foldlM_cons, List.foldlM_nil, Except.bind_eq_ok_iff]
  constructor
  · rintro ⟨u, hu, v, hv, h⟩; cases h; exact ⟨u, hu, hv⟩
  · rintro ⟨u, hu, hv⟩; exact ⟨u, hu, t, hv, rfl⟩

theorem foldlM_cons_eq_ok_iff {es : List ι} {e : ι} {s t : σ} :
    (e :: es).foldlM step s = .ok t ↔ ∃ u, step s e = .ok u ∧ es.foldlM step u = .ok t := by
  rw [List.foldlM_cons, Except.bind_eq_ok_iff]

/-- The run rule. `P es t` relates the events of an accepted run with the state it reached. -/
theorem induct {P : List ι → σ → Prop} {s : σ} (init : P [] s)
    (next : ∀ es t e t', P es t → step t e = .ok t' → P (es ++ [e]) t')
    {es : List ι} {t : σ} (h : es.foldlM step s = .ok t) : P es t := by
  induction es using List.reverseRecOn generalizing t with
  | nil => cases h; exact init
  | append_singleton es e ih =>
    obtain ⟨u, hu, he⟩ := foldlM_concat_eq_ok_iff.mp h
    exact next _ _ _ _ (ih hu) he

/-- What every step keeps is kept by the run. -/
theorem keeps {f : σ → ι → Except ε σ} {P : σ → Prop} {es : List ι} {s t : σ}
    (step : ∀ e ∈ es, ∀ s t, P s → f s e = .ok t → P t) (hs : P s)
    (h : es.foldlM f s = .ok t) : P t := by
  induction es generalizing s with
  | nil =>
    cases h
    exact hs
  | cons e es ih =>
    obtain ⟨u, hu, h⟩ := foldlM_cons_eq_ok_iff.mp h
    have hkeep := step e List.mem_cons_self s u hs hu
    exact ih (fun e' he' => step e' (List.mem_cons_of_mem _ he')) hkeep h

/-- A run in which every step keeps `P` and does not end with `x` does not end with `x`. -/
theorem never {f : σ → ι → Except ε σ} {P : σ → Prop} {es : List ι} {s : σ}
    (step : ∀ e ∈ es, ∀ s, P s → f s e ≠ .error x ∧ ∀ t, f s e = .ok t → P t) (hs : P s) :
    es.foldlM f s ≠ .error x := by
  induction es generalizing s with
  | nil => exact nofun
  | cons e es ih =>
    intro h
    obtain ⟨hne, hkeep⟩ := step e List.mem_cons_self s hs
    cases hf : f s e with
    | error y =>
      rw [List.foldlM_cons, hf] at h
      cases h
      exact hne hf
    | ok t =>
      rw [List.foldlM_cons, hf] at h
      exact ih (fun e' he' => step e' (List.mem_cons_of_mem _ he')) (hkeep t hf) h

/-- Two runs are the same when their steps are, wherever `P` holds. -/
theorem congr {f g : σ → ι → Except ε σ} {P : σ → Prop} {es : List ι} {s : σ}
    (step : ∀ e ∈ es, ∀ s, P s → f s e = g s e ∧ ∀ t, f s e = .ok t → P t) (hs : P s) :
    es.foldlM f s = es.foldlM g s := by
  induction es generalizing s with
  | nil => rfl
  | cons e es ih =>
    obtain ⟨heq, hkeep⟩ := step e List.mem_cons_self s hs
    rw [List.foldlM_cons, List.foldlM_cons, ← heq]
    cases hf : f s e with
    | error y => rfl
    | ok t => exact ih (fun e' he' => step e' (List.mem_cons_of_mem _ he')) (hkeep t hf)

/-- What also holds without the last event holds of all prefixes when it holds of the whole. -/
theorem forall_prefix_iff {P : List ι → Prop} (nil : P []) (concat : ∀ es e, P (es ++ [e]) → P es)
    {es : List ι} : (∀ i < es.length, P (es.take (i + 1))) ↔ P es := by
  constructor
  · intro h
    cases es with
    | nil => exact nil
    | cons e es =>
      have hlast := h es.length (Nat.lt_succ_self _)
      exact @List.take_length _ (e :: es) ▸ hlast
  · intro h i
    induction es using List.reverseRecOn with
    | nil => exact nofun
    | append_singleton es e ih =>
      intro hi
      obtain hlt | rfl := Nat.lt_succ_iff_lt_or_eq.mp (by simpa using hi)
      · rw [List.take_append_of_le_length hlt]
        exact ih (concat es e h) hlt
      · rwa [List.take_of_length_le (by simp)]

/-! ## Runs that go on after a failure -/

/-- Every event of a run finds a state that it has `P` with. -/
def Along (next : σ → ι → σ) (P : σ → ι → Prop) : σ → List ι → Prop
  | _, [] => True
  | s, e :: es => P s e ∧ Along next P (next s e) es

/-- When an event of kind `H` keeps `I` exactly when `C` holds of it, then `I` is kept all along a
run exactly when `C` holds all along it. -/
theorem along_iff {next : σ → ι → σ} {I : σ → Prop} {H C : σ → ι → Prop}
    (step : ∀ s e, I s → H s e → (I (next s e) ↔ C s e)) {es : List ι} {s : σ} (hs : I s)
    (h : Along next H s es) : Along next (fun s e => I (next s e)) s es ↔ Along next C s es := by
  induction es generalizing s with
  | nil => exact Iff.rfl
  | cons e es ih =>
    constructor
    · intro hkept
      exact ⟨(step s e hs h.1).mp hkept.1, (ih hkept.1 h.2).mp hkept.2⟩
    · intro hc
      have hnext := (step s e hs h.1).mpr hc.1
      exact ⟨hnext, (ih hnext h.2).mpr hc.2⟩

end Run
