import SimAgentNet.Data.Run
import SimAgentNet.Data.SortedMap

/-! # Indexes of a list

Maps from a key to the members of a list that have it: all of them in order, or the only one. -/

namespace Index
variable {ε α β κ : Type} [LinearOrder κ] {key : α → κ} {l : List α} {a : α}

/-! ## Groups -/

/-- Adds a value to the group of its key. -/
def push (key : α → κ) (m : SortedMap κ (List α)) (a : α) : SortedMap κ (List α) :=
  m.insert (key a) ((m.get? (key a)).getD [] ++ [a])

/-- The map has the group of each key that occurs in the list. -/
structure Groups (key : α → κ) (l : List α) (m : SortedMap κ (List α)) : Prop where
  rows : ∀ k, l.filter (fun a => key a = k) = (m.get? k).getD []
  nonempty : ∀ k g, m.get? k = some g → g ≠ []

theorem Groups.nil : Groups key [] ∅ := ⟨fun _ => rfl, nofun⟩

theorem Groups.push {m : SortedMap κ (List α)} (h : Groups key l m) :
    Groups key (l ++ [a]) (push key m a) := by
  constructor
  · intro k
    rw [List.filter_append, h.rows, Index.push, SortedMap.get?_insert]
    by_cases hk : k = key a
    · simp [hk]
    · simp [hk, Ne.symm hk]
  · intro k g hg
    rw [Index.push, SortedMap.get?_insert] at hg
    split at hg
    · cases hg
      simp
    · exact h.nonempty k g hg

theorem Groups.ofList (key : α → κ) (l : List α) : Groups key l (l.foldl (Index.push key) ∅) := by
  induction l using List.reverseRecOn with
  | nil => exact .nil
  | append_singleton l a ih =>
    rw [List.foldl_concat]
    exact ih.push

theorem Groups.eq_of_get? {m : SortedMap κ (List α)} (h : Groups key l m) (hg : m.get? k = some g) :
    l.filter (fun a => key a = k) = g := by
  rw [h.rows, hg, Option.getD_some]

theorem Groups.contains_iff {m : SortedMap κ (List α)} (h : Groups key l m) :
    m.contains k = true ↔ ∃ a ∈ l, key a = k := by
  have hrows := h.rows k
  rw [SortedMap.contains_iff]
  constructor
  · rintro ⟨g, hg⟩
    obtain ⟨a, g', rfl⟩ := List.exists_cons_of_ne_nil (h.nonempty k g hg)
    have ha : a ∈ l.filter fun a => key a = k := by
      rw [h.eq_of_get? hg]
      exact List.mem_cons_self
    obtain ⟨ha, hk⟩ := List.mem_filter.mp ha
    exact ⟨a, ha, of_decide_eq_true hk⟩
  · rintro ⟨a, ha, hk⟩
    cases hg : m.get? k with
    | some g => exact ⟨g, rfl⟩
    | none =>
      rw [hg, Option.getD_none, List.filter_eq_nil_iff] at hrows
      exact absurd (decide_eq_true hk) (hrows a ha)

/-! ## Single members -/

/-- The map has the member of each key that occurs in the list, and no key occurs twice. -/
def Single (key : α → κ) (l : List α) (m : SortedMap κ α) : Prop :=
  ∀ k, l.filter (fun a => key a = k) = (m.get? k).toList

theorem Single.nil : Single key [] ∅ := fun _ => rfl

theorem Single.insert {m : SortedMap κ α} (h : Single key l m) (hnew : m.contains (key a) = false) :
    Single key (l ++ [a]) (m.insert (key a) a) := by
  intro k
  rw [List.filter_append, h k, SortedMap.get?_insert]
  by_cases hk : k = key a
  · have hnone : m.get? (key a) = none := by
      rwa [SortedMap.contains, Option.isSome_eq_false_iff, Option.isNone_iff_eq_none] at hnew
    simp only [hk, hnone, if_true, Option.toList_none, Option.toList_some, List.nil_append,
      List.filter_cons, List.filter_nil, decide_true]
  · rw [if_neg hk, List.filter_cons_of_neg (by simpa using Ne.symm hk), List.filter_nil,
      List.append_nil]

theorem Single.eq_of_get? {m : SortedMap κ α} (h : Single key l m) (hg : m.get? k = some a) :
    l.filter (fun a => key a = k) = [a] := by
  rw [h k, hg, Option.toList_some]

theorem Single.contains_iff {m : SortedMap κ α} (h : Single key l m) :
    m.contains k = true ↔ ∃ a ∈ l, key a = k := by
  rw [SortedMap.contains_iff]
  constructor
  · rintro ⟨a, hg⟩
    have ha : a ∈ l.filter fun a => key a = k := by
      rw [h.eq_of_get? hg]
      exact List.mem_cons_self
    obtain ⟨ha, hk⟩ := List.mem_filter.mp ha
    exact ⟨a, ha, of_decide_eq_true hk⟩
  · rintro ⟨a, ha, hk⟩
    cases hg : m.get? k with
    | some b => exact ⟨b, rfl⟩
    | none =>
      have hrows := h k
      rw [hg, Option.toList_none, List.filter_eq_nil_iff] at hrows
      exact absurd (decide_eq_true hk) (hrows a ha)

/-- No key occurs twice. -/
theorem Single.only {m : SortedMap κ α} (h : Single key l m) (ha : a ∈ l) (hb : b ∈ l)
    (hkey : key a = key b) : a = b := by
  obtain ⟨c, hc⟩ := SortedMap.contains_iff.mp (h.contains_iff.mpr ⟨b, hb, rfl⟩)
  have honly := h.eq_of_get? hc
  have heq : a ∈ l.filter fun x => key x = key b := List.mem_filter.mpr ⟨ha, decide_eq_true hkey⟩
  have heq' : b ∈ l.filter fun x => key x = key b := List.mem_filter.mpr ⟨hb, decide_eq_true rfl⟩
  rw [honly, List.mem_singleton] at heq heq'
  exact heq.trans heq'.symm

/-- Checks a member and inserts it under its key, which must be new. -/
def insertNew (key : α → κ) (check : α → Except ε Unit) (twice : α → ε) (m : SortedMap κ α)
    (a : α) : Except ε (SortedMap κ α) := do
  check a
  if m.contains (key a) then .error (twice a) else .ok (m.insert (key a) a)

theorem single_of_foldlM {check : α → Except ε Unit} {twice : α → ε} {m : SortedMap κ α}
    (h : l.foldlM (insertNew key check twice) ∅ = .ok m) :
    (∀ a ∈ l, check a = .ok ()) ∧ Single key l m := by
  refine Run.induct (P := fun l m => (∀ a ∈ l, check a = .ok ()) ∧ Single key l m)
    ⟨nofun, .nil⟩ (fun es m a m' ih hstep => ?_) h
  obtain ⟨u, hcheck, hstep⟩ := Except.bind_eq_ok_iff.mp hstep
  obtain ⟨hnew, hstep⟩ := Except.guard_eq_ok_iff.mp hstep
  cases hstep
  refine ⟨?_, ih.2.insert (Bool.eq_false_iff.mpr hnew)⟩
  intro b hb
  obtain hb | hb := List.mem_append.mp hb
  · exact ih.1 b hb
  · rw [List.mem_singleton.mp hb]
    exact hcheck

/-- A list whose keys differ finds each of its members by its key. -/
theorem find?_of_nodup {κ : Type} [DecidableEq κ] {key : α → κ} (h : (l.map key).Nodup)
    (ha : a ∈ l) : l.find? (key · = key a) = some a := by
  cases hfind : l.find? (key · = key a) with
  | none =>
    have hnone := List.find?_eq_none.mp hfind a ha
    exact absurd (decide_eq_true rfl) hnone
  | some b =>
    have hkey : key b = key a := by simpa using List.find?_some hfind
    rw [List.inj_on_of_nodup_map h (List.mem_of_find?_eq_some hfind) ha hkey]

/-! ## Members of members -/

/-- One value of all the lists satisfies `p`: one list has it, and has it once. -/
theorem exists_of_flatMap_filter {f : β → List α} {p : α → Bool} {bs : List β}
    (h : (bs.flatMap f).filter p = [a]) :
    ∃ b, bs.filter (fun b => (f b).any p) = [b] ∧ (f b).filter p = [a] := by
  induction bs with
  | nil => cases h
  | cons b bs ih =>
    rw [List.flatMap_cons, List.filter_append] at h
    cases hb : (f b).filter p with
    | nil =>
      rw [hb, List.nil_append] at h
      obtain ⟨b', hfilter, hb'⟩ := ih h
      have hany : (f b).any p = false := by
        rw [List.any_eq_false]
        exact List.filter_eq_nil_iff.mp hb
      refine ⟨b', ?_, hb'⟩
      rw [List.filter_cons, if_neg (by simp [hany]), hfilter]
    | cons a' as =>
      rw [hb, List.cons_append] at h
      obtain ⟨rfl, hrest⟩ := List.cons.inj h
      obtain ⟨rfl, hnone⟩ := List.append_eq_nil_iff.mp hrest
      have hany : (f b).any p = true := by
        have hmem : a' ∈ (f b).filter p := hb ▸ List.mem_cons_self
        exact List.any_eq_true.mpr ⟨a', (List.mem_filter.mp hmem).1, (List.mem_filter.mp hmem).2⟩
      have hothers : bs.filter (fun b => (f b).any p) = [] := by
        refine List.filter_eq_nil_iff.mpr fun c hc hany' => ?_
        obtain ⟨x, hx, hp⟩ := List.any_eq_true.mp hany'
        exact List.filter_eq_nil_iff.mp hnone x (List.mem_flatMap.mpr ⟨c, hc, hx⟩) hp
      refine ⟨b, ?_, hb⟩
      rw [List.filter_cons, if_pos hany, hothers]

end Index
