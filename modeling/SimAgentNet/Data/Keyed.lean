import SimAgentNet.Data.SortedMap

/-! # Maps keyed through a function

A list of writes into a map, and the same writes under the image of their keys by a function that
may confuse keys. -/

namespace Keyed
variable {α : Type u} {β : Type v} {κ : Type w} {γ : Type x}

/-- The last write of a list whose key satisfies `p`. -/
def Latest (p : α → Prop) (ws : List (α × β)) (w : α × β) : Prop :=
  ∃ before after, ws = before ++ w :: after ∧ p w.1 ∧ ∀ w' ∈ after, ¬p w'.1

/-- The last write under the image of `k` is under another key, and it is not the value that `k`
itself was last given. -/
def Shadowed (g : α → γ) (k : α) (ws : List (α × β)) : Prop :=
  ∃ k' v, Latest (g · = g k) ws (k', v) ∧ k' ≠ k ∧ ¬Latest (· = k) ws (k, v)

variable {p : α → Prop} {ws : List (α × β)} {w w' : α × β}

theorem not_latest_nil : ¬Latest p ([] : List (α × β)) w := by
  rintro ⟨before, after, h, -, -⟩
  exact absurd h (by simp)

theorem latest_snoc_iff : Latest p (ws ++ [w']) w ↔ p w'.1 ∧ w = w' ∨ ¬p w'.1 ∧ Latest p ws w := by
  constructor
  · rintro ⟨before, after, he, hp, hafter⟩
    rcases List.eq_nil_or_concat after with rfl | ⟨after, last, rfl⟩
    · obtain ⟨-, hw⟩ := List.append_inj' he rfl
      cases hw
      exact .inl ⟨hp, rfl⟩
    · rw [List.concat_eq_append, ← List.cons_append, ← List.append_assoc] at he
      obtain ⟨rfl, hw⟩ := List.append_inj' he rfl
      cases hw
      have hafter' := List.forall_mem_append.mp (List.concat_eq_append ▸ hafter)
      exact .inr ⟨hafter'.2 _ List.mem_cons_self, before, after, rfl, hp, hafter'.1⟩
  · rintro (⟨hp, rfl⟩ | ⟨hp, before, after, rfl, hpw, hafter⟩)
    · exact ⟨ws, [], rfl, hp, nofun⟩
    · refine ⟨before, after ++ [w'], by simp, hpw, ?_⟩
      exact List.forall_mem_append.mpr ⟨hafter, by simpa using hp⟩

theorem Latest.unique (h : Latest p ws w) (h' : Latest p ws w') : w = w' := by
  induction ws using List.reverseRecOn with
  | nil => exact absurd h not_latest_nil
  | append_singleton ws last ih =>
    rcases latest_snoc_iff.mp h with ⟨hp, rfl⟩ | ⟨hp, h⟩
    · rcases latest_snoc_iff.mp h' with ⟨-, rfl⟩ | ⟨hp', -⟩
      · rfl
      · exact absurd hp hp'
    · rcases latest_snoc_iff.mp h' with ⟨hp', -⟩ | ⟨-, h'⟩
      · exact absurd hp' hp
      · exact ih h h'

theorem exists_latest (hw : w ∈ ws) (hp : p w.1) : ∃ w', Latest p ws w' := by
  induction ws using List.reverseRecOn with
  | nil => cases hw
  | append_singleton ws last ih =>
    by_cases hlast : p last.1
    · exact ⟨last, latest_snoc_iff.mpr (.inl ⟨hlast, rfl⟩)⟩
    · rcases List.mem_append.mp hw with hw | hw
      · obtain ⟨w', hl⟩ := ih hw
        exact ⟨w', latest_snoc_iff.mpr (.inr ⟨hlast, hl⟩)⟩
      · cases List.mem_singleton.mp hw
        exact absurd hp hlast

theorem Latest.mem (h : Latest p ws w) : w ∈ ws := by
  obtain ⟨before, after, rfl, -, -⟩ := h
  simp

theorem Latest.holds (h : Latest p ws w) : p w.1 := h.choose_spec.choose_spec.2.1

/-- The last write of a larger class is the last one of a smaller class it belongs to. -/
theorem Latest.of_imp {q : α → Prop} (h : Latest p ws w) (hpq : ∀ a, q a → p a) (hq : q w.1) :
    Latest q ws w := by
  obtain ⟨before, after, he, -, hafter⟩ := h
  exact ⟨before, after, he, hq, fun w' hw' hq' => hafter w' hw' (hpq _ hq')⟩

variable [LinearOrder α] [LinearOrder κ]

theorem ofList_snoc (ws : List (α × β)) (w : α × β) :
    SortedMap.ofList (ws ++ [w]) = (SortedMap.ofList ws).insert w.1 w.2 := by
  simp [SortedMap.ofList]

omit [LinearOrder α] in
/-- A lookup in the written map finds the last write under an equal key. -/
theorem get?_ofList_map_iff {f : α → κ} {key : κ} :
    (SortedMap.ofList (ws.map fun w => (f w.1, w.2))).get? key = some v ↔
      ∃ k, Latest (f · = key) ws (k, v) := by
  induction ws using List.reverseRecOn with
  | nil => simp [SortedMap.ofList, not_latest_nil]
  | append_singleton ws last ih =>
    rw [List.map_append, List.map_singleton, ofList_snoc, SortedMap.get?_insert]
    simp only [latest_snoc_iff]
    split
    · rename_i hk
      subst hk
      constructor
      · rintro h
        cases h
        exact ⟨last.1, .inl ⟨rfl, rfl⟩⟩
      · rintro ⟨k, ⟨-, h⟩ | ⟨hne, -⟩⟩
        · rw [← h]
        · exact absurd rfl hne
    · rename_i hk
      rw [ih]
      constructor
      · rintro ⟨k, h⟩
        exact ⟨k, .inr ⟨fun e => hk e.symm, h⟩⟩
      · rintro ⟨k, ⟨e, -⟩ | ⟨-, h⟩⟩
        · exact absurd e.symm hk
        · exact ⟨k, h⟩

theorem get?_ofList_iff {k : α} :
    (SortedMap.ofList ws).get? k = some v ↔ Latest (· = k) ws (k, v) := by
  have h : (SortedMap.ofList (ws.map fun w => (id w.1, w.2))).get? k = some v ↔
      ∃ k', Latest (id · = k) ws (k', v) := get?_ofList_map_iff
  simp only [id, Prod.mk.eta, List.map_id'] at h
  rw [h]
  constructor
  · rintro ⟨k', hl⟩
    have hk : k' = k := hl.holds
    exact hk ▸ hl
  · exact fun hl => ⟨k, hl⟩

/-- The map keyed through `f` answers as the map keyed by the whole key does, exactly when no
other key with the same image covers the key that is read. -/
theorem get?_map_eq_iff {f : α → κ} {g : α → γ} (hfg : ∀ a b, f a = f b ↔ g a = g b) (k : α) :
    (SortedMap.ofList (ws.map fun w => (f w.1, w.2))).get? (f k) = (SortedMap.ofList ws).get? k ↔
      ¬Shadowed g k ws := by
  have hcoarse (v : β) : (SortedMap.ofList (ws.map fun w => (f w.1, w.2))).get? (f k) = some v ↔
      ∃ k', Latest (g · = g k) ws (k', v) := by
    rw [get?_ofList_map_iff]
    simp only [hfg]
  constructor
  · rintro heq ⟨k', v, hl, -, hnot⟩
    have hsome := (hcoarse v).mpr ⟨k', hl⟩
    rw [heq] at hsome
    exact hnot (get?_ofList_iff.mp hsome)
  · intro hsh
    refine Option.ext fun v => (hcoarse v).trans (Iff.trans ?_ get?_ofList_iff.symm)
    constructor
    · rintro ⟨k', hl⟩
      by_cases hk : k' = k
      · subst hk
        exact hl.of_imp (fun a (ha : a = k') => ha ▸ rfl) rfl
      · by_contra hnot
        exact hsh ⟨k', v, hl, hk, hnot⟩
    · intro hl
      -- some write is the last one under the image; unless it agrees, it covers `k`
      obtain ⟨⟨k', u⟩, hl'⟩ := exists_latest (p := (g · = g k)) hl.mem rfl
      by_cases hk : k' = k
      · subst hk
        cases (hl'.of_imp (fun a (ha : a = k') => ha ▸ rfl) rfl).unique hl
        exact ⟨k', hl'⟩
      · by_contra hnot
        refine hsh ⟨k', u, hl', hk, fun hlu => ?_⟩
        cases hlu.unique hl
        exact hnot ⟨k', hl'⟩

/-- A map keyed through `f` that answers for every key as the map keyed by the key itself. -/
def Mirrors (f : α → κ) (t : SortedMap κ β) (m : SortedMap α β) : Prop :=
  ∀ k, t.get? (f k) = m.get? k

theorem mirrors_empty (f : α → κ) : Mirrors f (∅ : SortedMap κ β) ∅ := fun _ => rfl

theorem Mirrors.insert {f : α → κ} (hf : Function.Injective f) {t : SortedMap κ β}
    {m : SortedMap α β} (h : Mirrors f t m) (k : α) (v : β) :
    Mirrors f (t.insert (f k) v) (m.insert k v) := by
  intro k'
  rw [SortedMap.get?_insert, SortedMap.get?_insert, h k']
  simp only [hf.eq_iff]

end Keyed
