import SimAgentNet.Data.Run

/-! # Refusals

Which errors a computation may end with, where a loop of checks stops, and what a traversal that
meets none returns. -/

namespace Except

theorem bind_ne_error {x : Except ε α} {f : α → Except ε β} (hx : x ≠ .error e)
    (hf : ∀ a, x = .ok a → f a ≠ .error e) : (x >>= f) ≠ .error e := by
  cases hxe : x with
  | error e' => exact fun h => hx (hxe.trans (congrArg _ (Except.error.inj h)))
  | ok a => exact hf a hxe

theorem map_ne_error {x : Except ε α} {f : α → β} (hx : x ≠ .error e) :
    x.map f ≠ .error e := by
  cases hxe : x with
  | error e' => exact fun h => hx (hxe.trans (congrArg _ (Except.error.inj h)))
  | ok a => exact nofun

/-- An error that no error of the computation is turned into. -/
theorem mapError_ne_error {x : Except ε α} {f : ε → ε'} (hf : ∀ e', f e' ≠ e) :
    x.mapError f ≠ .error e := by
  cases x with
  | error e' => exact fun h => hf e' (Except.error.inj h)
  | ok a => exact nofun

theorem guard_ne_error {c : Prop} [Decidable c] {x : Except ε α} (he : e' ≠ e)
    (hx : ¬c → x ≠ .error e) : (if c then .error e' else x) ≠ .error e := by
  split
  · exact fun h => he (Except.error.inj h)
  · exact hx ‹_›

/-- A computation that comes second is reached when the first succeeds. -/
theorem bind_eq_error_iff {x : Except ε α} {f : α → Except ε β} (hx : x ≠ .error e) :
    (x >>= f) = .error e ↔ ∃ a, x = .ok a ∧ f a = .error e := by
  cases hxe : x with
  | error e' =>
    refine ⟨fun h => absurd (hxe.trans (congrArg _ (Except.error.inj h))) hx, ?_⟩
    rintro ⟨a, ha, -⟩
    cases ha
  | ok a => exact ⟨fun h => ⟨a, rfl, h⟩, fun ⟨_, rfl, h⟩ => h⟩

/-- A loop of checks ends at the first check that refuses. -/
theorem forM_eq_error_iff {f : α → Except ε PUnit} {l : List α} :
    l.forM f = .error e ↔ ∃ before a after, l = before ++ a :: after ∧
      (∀ b ∈ before, f b = .ok ()) ∧ f a = .error e := by
  induction l with
  | nil =>
    refine ⟨nofun, ?_⟩
    rintro ⟨before, a, after, h, -⟩
    cases before <;> cases h
  | cons x l ih =>
    show (f x >>= fun _ => l.forM f) = .error e ↔ _
    cases hx : f x with
    | error e' =>
      constructor
      · intro h
        cases h
        exact ⟨[], x, l, rfl, nofun, hx⟩
      · rintro ⟨before, a, after, h, hb, ha⟩
        cases before with
        | nil =>
          cases h
          exact hx.symm.trans ha
        | cons y before =>
          cases h
          exact nomatch hx.symm.trans (hb x List.mem_cons_self)
    | ok u =>
      rw [ok_bind, ih]
      constructor
      · rintro ⟨before, a, after, rfl, hb, ha⟩
        refine ⟨x :: before, a, after, rfl, ?_, ha⟩
        exact List.forall_mem_cons.mpr ⟨hx, hb⟩
      · rintro ⟨before, a, after, h, hb, ha⟩
        cases before with
        | nil =>
          cases h
          exact nomatch hx.symm.trans ha
        | cons y before =>
          cases h
          exact ⟨before, a, after, rfl, fun b hm => hb b (List.mem_cons_of_mem _ hm), ha⟩

/-- A traversal by a function that is total where a condition holds. -/
theorem mapM_eq_ok_iff_map {f : α → Except ε β} {P : α → Prop} {g : α → β}
    (hf : ∀ a b, f a = .ok b ↔ P a ∧ b = g a) {l : List α} :
    l.mapM f = .ok l' ↔ (∀ a ∈ l, P a) ∧ l' = l.map g := by
  induction l generalizing l' with
  | nil => exact ⟨fun h => ⟨nofun, (Except.ok.inj h).symm⟩, fun h => congrArg Except.ok h.2.symm⟩
  | cons a l ih =>
    simp only [List.mapM_cons, bind_eq_ok_iff, hf, ih, List.forall_mem_cons, List.map_cons]
    constructor
    · rintro ⟨_, ⟨ha, rfl⟩, _, ⟨hl, rfl⟩, h⟩
      exact ⟨⟨ha, hl⟩, (Except.ok.inj h).symm⟩
    · rintro ⟨⟨ha, hl⟩, rfl⟩
      exact ⟨_, ⟨ha, rfl⟩, _, ⟨hl, rfl⟩, rfl⟩

theorem mapM_isOk_iff {f : α → Except ε β} {l : List α} :
    (∃ rows, l.mapM f = .ok rows) ↔ ∀ a ∈ l, ∃ b, f a = .ok b := by
  induction l with
  | nil => exact ⟨fun _ => nofun, fun _ => ⟨[], rfl⟩⟩
  | cons a l ih =>
    simp only [List.mapM_cons, bind_eq_ok_iff, List.forall_mem_cons, ← ih]
    constructor
    · rintro ⟨_, b, hb, rows, hrows, -⟩
      exact ⟨⟨b, hb⟩, rows, hrows⟩
    · rintro ⟨⟨b, hb⟩, rows, hrows⟩
      exact ⟨b :: rows, b, hb, rows, hrows, rfl⟩

theorem forM_append {f : α → Except ε PUnit} {l l' : List α} :
    (l ++ l').forM f = (do l.forM f; l'.forM f) := by
  induction l with
  | nil => rfl
  | cons x l ih =>
    show (f x >>= fun _ => (l ++ l').forM f) = (f x >>= fun _ => l.forM f) >>= _
    rw [ih]
    cases f x <;> rfl

/-- A loop in a loop is one loop over the rows of the table. -/
theorem forM_flatMap {f : β → Except ε PUnit} {g : α → List β} {l : List α} :
    (l.flatMap g).forM f = l.forM fun a => (g a).forM f := by
  induction l with
  | nil => rfl
  | cons x l ih =>
    rw [List.flatMap_cons, forM_append, ih]
    rfl

theorem forM_map {f : β → Except ε PUnit} {g : α → β} {l : List α} :
    (l.map g).forM f = l.forM (f ∘ g) := by
  induction l with
  | nil => rfl
  | cons x l ih =>
    show (f (g x) >>= fun _ => (l.map g).forM f) = _
    rw [ih]
    rfl

/-- A loop that passes over elements. -/
theorem forM_filterMap {f : β → Except ε PUnit} {g : α → Option β} {l : List α} :
    (l.filterMap g).forM f = l.forM fun a => ((g a).map f).getD (.ok ()) := by
  induction l with
  | nil => rfl
  | cons x l ih =>
    show _ = (((g x).map f).getD (.ok ()) >>= fun _ => l.forM _)
    rw [← ih, List.filterMap_cons]
    cases g x <;> rfl

end Except
