import SimAgentNet.Data.Index
import SimAgentNet.Data.Keyed

/-! # Merging maps

The entries of one map written into another, combined where both have a value, and lists in which no
two members have one key. -/

namespace SortedMap
variable {α : Type u} {β : Type v} [LinearOrder α] {m m' : SortedMap α β} {k : α}

/-- Writes a value, combined with the one that is there. -/
def upsert (f : β → β → β) (m : SortedMap α β) (e : α × β) : SortedMap α β :=
  m.insert e.1 (match m.get? e.1 with | some old => f old e.2 | none => e.2)

/-- Writes every entry of the second map into the first. -/
def merge (f : β → β → β) (m m' : SortedMap α β) : SortedMap α β := m'.entries.foldl (upsert f) m

theorem get?_upsert (f : β → β → β) (m : SortedMap α β) (e : α × β) (k : α) :
    (m.upsert f e).get? k =
      if k = e.1 then Option.merge f (m.get? k) (some e.2) else m.get? k := by
  rw [upsert, get?_insert]
  by_cases hk : k = e.1
  · rw [if_pos hk, if_pos hk, hk]
    cases m.get? e.1 <;> rfl
  · rw [if_neg hk, if_neg hk]

theorem get?_foldl_upsert (f : β → β → β) {l : List (α × β)} (hl : l.Pairwise (·.1 < ·.1))
    (m : SortedMap α β) :
    (l.foldl (upsert f) m).get? k = Option.merge f (m.get? k) (l.lookup k) := by
  induction l generalizing m with
  | nil => cases h : m.get? k <;> simp [h]
  | cons e l ih =>
    obtain ⟨hfirst, hrest⟩ := List.pairwise_cons.mp hl
    rw [List.foldl_cons, ih hrest, get?_upsert, lookup_cons_eq]
    by_cases hk : k = e.1
    · have hnone : l.lookup k = none := by
        refine Option.eq_none_iff_forall_ne_some.mpr fun v hv => ?_
        exact absurd (hfirst _ (mem_of_lookup hv)) (hk ▸ lt_irrefl _)
      rw [if_pos hk, if_pos hk, hnone]
      cases m.get? k <;> rfl
    · rw [if_neg hk, if_neg hk]

theorem get?_merge (f : β → β → β) (m m' : SortedMap α β) (k : α) :
    (m.merge f m').get? k = Option.merge f (m.get? k) (m'.get? k) :=
  get?_foldl_upsert f m'.sorted m

end SortedMap

namespace Keyed
variable {α β κ ε : Type} [LinearOrder κ]

/-- Without a key twice, the map of a list has what the list has. -/
theorem get?_ofList_of_nodup {ws : List (κ × β)} (h : (ws.map (·.1)).Nodup) :
    (SortedMap.ofList ws).get? k = some v ↔ (k, v) ∈ ws := by
  rw [get?_ofList_iff]
  constructor
  · exact Latest.mem
  · intro hmem
    obtain ⟨w, hw⟩ := exists_latest hmem (p := (· = k)) rfl
    have heq : w = (k, v) := List.inj_on_of_nodup_map h hw.mem hmem hw.holds
    rwa [heq] at hw

/-- Adds the key of a value, which must be new. -/
def addFresh (key : α → κ) (twice : α → ε) (seen : SortedSet κ) (a : α) :
    Except ε (SortedSet κ) :=
  if key a ∈ seen then .error (twice a) else .ok (seen.insert (key a))

theorem isOk_foldlM_addFresh_iff {key : α → κ} {twice : α → ε} {l : List α} {seen : SortedSet κ} :
    (l.foldlM (addFresh key twice) seen).isOk = true ↔
      (l.map key).Nodup ∧ ∀ a ∈ l, key a ∉ seen := by
  induction l generalizing seen with
  | nil => simp [Except.isOk, Except.toBool, pure, Except.pure]
  | cons a l ih =>
    rw [List.foldlM_cons, addFresh]
    by_cases ha : key a ∈ seen
    · simp [ha, Except.isOk, Except.toBool, Bind.bind, Except.bind]
    · rw [if_neg ha, Except.ok_bind, ih, List.map_cons, List.nodup_cons, List.mem_map]
      constructor
      · rintro ⟨hnodup, hnew⟩
        refine ⟨⟨?_, hnodup⟩, ?_⟩
        · rintro ⟨b, hb, hkey⟩
          exact hnew b hb (SortedSet.mem_insert.mpr (.inl hkey))
        · intro b hb
          obtain rfl | hb := List.mem_cons.mp hb
          · exact ha
          · exact fun hmem => hnew b hb (SortedSet.mem_insert.mpr (.inr hmem))
      · rintro ⟨⟨hfirst, hnodup⟩, hnew⟩
        refine ⟨hnodup, fun b hb hmem => ?_⟩
        obtain hkey | hmem := SortedSet.mem_insert.mp hmem
        · exact hfirst ⟨b, hb, hkey⟩
        · exact hnew b (List.mem_cons_of_mem _ hb) hmem

/-- A fold that adds fresh keys succeeds when no key comes twice. -/
theorem isOk_addFresh_iff (key : α → κ) (twice : α → ε) (l : List α) :
    (l.foldlM (addFresh key twice) ∅).isOk = true ↔ (l.map key).Nodup := by
  rw [isOk_foldlM_addFresh_iff, and_iff_left fun a _ => SortedSet.not_mem_empty _]

end Keyed
