import Mathlib

/-! # Stable sorting

Insertion sort by a key keeps the elements of one key in their order, and a list that is sorted by
its keys is determined by its elements of each key. -/

namespace StableSort
variable {α κ : Type} [LinearOrder κ] {key : α → κ}

/-- The elements of the list in the order of their keys; those of one key stay in their order. -/
def sortBy (key : α → κ) (l : List α) : List α := l.insertionSort fun a b => key a ≤ key b

theorem perm_sortBy (l : List α) : (sortBy key l).Perm l := List.perm_insertionSort _ l

theorem pairwise_sortBy (l : List α) : (sortBy key l).Pairwise fun a b => key a ≤ key b := by
  have : Std.Total fun a b : α => key a ≤ key b := ⟨fun a b => le_total (key a) (key b)⟩
  have : IsTrans α fun a b => key a ≤ key b := ⟨fun _ _ _ => le_trans⟩
  exact List.pairwise_insertionSort _ l

/-- Sorting keeps the elements of each key as they are. -/
theorem filter_sortBy (l : List α) (k : κ) :
    (sortBy key l).filter (key · = k) = l.filter (key · = k) := by
  have : Std.Total fun a b : α => key a ≤ key b := ⟨fun a b => le_total (key a) (key b)⟩
  have : IsTrans α fun a b => key a ≤ key b := ⟨fun _ _ _ => le_trans⟩
  have hone : (l.filter (key · = k)).Pairwise fun a b => key a ≤ key b := by
    refine List.pairwise_of_forall_mem_list fun a ha b hb => ?_
    have ha : key a = k := by simpa using (List.mem_filter.mp ha).2
    have hb : key b = k := by simpa using (List.mem_filter.mp hb).2
    exact (ha.trans hb.symm).le
  have hsub := (List.sublist_insertionSort hone List.filter_sublist).filter (key · = k)
  rw [List.filter_filter] at hsub
  simp only [Bool.and_self] at hsub
  exact (hsub.eq_of_length ((perm_sortBy l).filter _).length_eq.symm).symm

/-- The first of the elements of one key stays the first. -/
theorem find?_sortBy {p : α → Bool} {k : κ} (hp : ∀ a, p a = true → key a = k) (l : List α) :
    (sortBy key l).find? p = l.find? p := by
  have hfilter (l : List α) : (l.filter (key · = k)).filter p = l.filter p := by
    rw [List.filter_filter]
    refine List.filter_congr fun a _ => ?_
    cases ha : p a with
    | false => rfl
    | true => simp [hp a ha]
  rw [← List.head?_filter, ← List.head?_filter, ← hfilter, filter_sortBy, hfilter]

theorem mem_of_filter_eq {l l' : List α}
    (h : ∀ k, l.filter (key · = k) = l'.filter (key · = k)) {a : α} (ha : a ∈ l) : a ∈ l' := by
  have hmem : a ∈ l.filter (key · = key a) := List.mem_filter.mpr ⟨ha, by simp⟩
  rw [h] at hmem
  exact (List.mem_filter.mp hmem).1

/-- Sorted lists with the same elements of each key are the same. -/
theorem eq_of_filter_eq {l l' : List α} (hl : l.Pairwise fun a b => key a ≤ key b)
    (hl' : l'.Pairwise fun a b => key a ≤ key b)
    (h : ∀ k, l.filter (key · = k) = l'.filter (key · = k)) : l = l' := by
  induction l generalizing l' with
  | nil =>
    cases l' with
    | nil => rfl
    | cons b l' => exact absurd (mem_of_filter_eq (fun k => (h k).symm) List.mem_cons_self) nofun
  | cons a l ih =>
    cases l' with
    | nil => exact absurd (mem_of_filter_eq h List.mem_cons_self) nofun
    | cons b l' =>
      obtain ⟨hal, htail⟩ := List.pairwise_cons.mp hl
      obtain ⟨hbl', htail'⟩ := List.pairwise_cons.mp hl'
      have hle : key a ≤ key b := by
        rcases List.mem_cons.mp (mem_of_filter_eq (fun k => (h k).symm) List.mem_cons_self) with
          rfl | hb
        · exact le_rfl
        · exact hal b hb
      have hge : key b ≤ key a := by
        rcases List.mem_cons.mp (mem_of_filter_eq h List.mem_cons_self) with rfl | ha
        · exact le_rfl
        · exact hbl' a ha
      have hkey := le_antisymm hle hge
      have hhead := h (key a)
      simp only [List.filter_cons, decide_true, if_true, hkey] at hhead
      obtain ⟨rfl, -⟩ := List.cons.inj hhead
      refine congrArg (a :: ·) (ih htail htail' fun k => ?_)
      have hk := h k
      simp only [List.filter_cons] at hk
      split at hk
      · exact (List.cons.inj hk).2
      · exact hk

/-- Sorting again after an element was added gives the same as adding it before the first sort. -/
theorem sortBy_congr {l l' : List α}
    (h : ∀ k, l.filter (key · = k) = l'.filter (key · = k)) : sortBy key l = sortBy key l' := by
  refine eq_of_filter_eq (pairwise_sortBy l) (pairwise_sortBy l') fun k => ?_
  rw [filter_sortBy, filter_sortBy, h]

/-- Replaces the elements of one key by an element of it, in a sorted list. -/
def replace (key : α → κ) (l : List α) (a : α) : List α :=
  sortBy key (l.filter (key · ≠ key a) ++ [a])

theorem filter_replace (l : List α) (a : α) (k : κ) :
    (replace key l a).filter (key · = k) =
      if key a = k then [a] else l.filter (key · = k) := by
  rw [replace, filter_sortBy, List.filter_append, List.filter_filter]
  split
  · rename_i hk
    simp [hk]
  · rename_i hk
    rw [List.filter_cons_of_neg (by simpa using hk), List.filter_nil, List.append_nil]
    refine List.filter_congr fun b _ => ?_
    by_cases hb : key b = k
    · simp [hb, Ne.symm hk]
    · simp [hb]

/-- Replacements at two keys commute. -/
theorem replace_comm (l : List α) {a b : α} (h : key a ≠ key b) :
    replace key (replace key l a) b = replace key (replace key l b) a := by
  refine eq_of_filter_eq (pairwise_sortBy _) (pairwise_sortBy _) fun k => ?_
  rw [filter_replace, filter_replace, filter_replace, filter_replace]
  by_cases ha : key a = k
  · rw [if_pos ha, if_pos ha, if_neg fun hb => h (ha.trans hb.symm)]
  · rw [if_neg ha, if_neg ha]

/-! ## The least element -/

/-- The one of the lesser key, and the first of two that have the same. -/
def lesser (key : α → κ) : Option α → Option α → Option α
  | none, y => y
  | some a, none => some a
  | some a, some b => if key b < key a then some b else some a

/-- The element of the least key, the first of several. -/
def leastBy (key : α → κ) : List α → Option α
  | [] => none
  | a :: l => lesser key (some a) (leastBy key l)

theorem lesser_self (x : Option α) : lesser key x x = x := by
  cases x with
  | none => rfl
  | some a => exact if_neg (lt_irrefl _)

theorem lesser_assoc (x y z : Option α) :
    lesser key (lesser key x y) z = lesser key x (lesser key y z) := by
  cases x with
  | none => rfl
  | some a =>
    cases y with
    | none => rfl
    | some b =>
      cases z with
      | none =>
        unfold lesser
        split <;> simp_all
      | some c =>
        obtain hba | hba := lt_or_ge (key b) (key a)
        · obtain hcb | hcb := lt_or_ge (key c) (key b)
          · simp [lesser, hba, hcb, hcb.trans hba]
          · simp [lesser, hba, hcb.not_gt]
        · obtain hcb | hcb := lt_or_ge (key c) (key b)
          · simp [lesser, hba.not_gt, hcb]
          · simp [lesser, hba.not_gt, hcb.not_gt, (hba.trans hcb).not_gt]

theorem leastBy_append (l l' : List α) :
    leastBy key (l ++ l') = lesser key (leastBy key l) (leastBy key l') := by
  induction l with
  | nil => rfl
  | cons a l ih => rw [List.cons_append, leastBy, leastBy, ih, lesser_assoc]

theorem leastBy_map {β : Type} {key : β → κ} (f : α → β) (l : List α) :
    leastBy key (l.map f) = (leastBy (fun a => key (f a)) l).map f := by
  induction l with
  | nil => rfl
  | cons a l ih =>
    rw [List.map_cons, leastBy, leastBy, ih]
    cases leastBy (fun a => key (f a)) l with
    | none => rfl
    | some b =>
      unfold lesser
      dsimp only [Option.map_some]
      split <;> rfl

end StableSort
