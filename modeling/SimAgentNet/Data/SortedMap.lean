import Mathlib

/-! # Ordered finite sets and maps

Finite sets and maps over a linear order, stored as strictly increasing lists. The order is a
field of the structure, so two values with the same members are equal (`SortedSet.ext`,
`SortedMap.ext`) and the list of members is the iteration order. Every operation is structural
on that list, so closed terms evaluate in the kernel. -/

/-- A finite set as the strictly increasing list of its members. -/
structure SortedSet (α : Type u) [LT α] where
  elems : List α
  sorted : elems.Pairwise (· < ·)
deriving DecidableEq

/-- A finite map as the list of its entries, strictly increasing in the key. -/
structure SortedMap (α : Type u) (β : Type v) [LT α] where
  entries : List (α × β)
  sorted : entries.Pairwise (·.1 < ·.1)
deriving DecidableEq

namespace SortedSet
variable {α : Type u} [LinearOrder α]

instance : Membership α (SortedSet α) := ⟨fun s a => a ∈ s.elems⟩
instance : HasSubset (SortedSet α) := ⟨fun s t => ∀ a ∈ s, a ∈ t⟩
instance : EmptyCollection (SortedSet α) := ⟨⟨[], .nil⟩⟩
instance : Inhabited (SortedSet α) := ⟨∅⟩

instance (a : α) (s : SortedSet α) : Decidable (a ∈ s) := inferInstanceAs (Decidable (a ∈ s.elems))
instance (s t : SortedSet α) : Decidable (s ⊆ t) :=
  inferInstanceAs (Decidable (∀ a ∈ s.elems, a ∈ t))

theorem mem_def {a : α} {s : SortedSet α} : a ∈ s ↔ a ∈ s.elems := .rfl
theorem subset_def {s t : SortedSet α} : s ⊆ t ↔ ∀ a ∈ s, a ∈ t := .rfl

theorem subset_refl (s : SortedSet α) : s ⊆ s := fun _ h => h

theorem subset_trans {s t u : SortedSet α} (h : s ⊆ t) (h' : t ⊆ u) : s ⊆ u :=
  fun a ha => h' a (h a ha)

@[simp] theorem not_mem_empty (a : α) : ¬a ∈ (∅ : SortedSet α) := nofun

/-- Two strictly increasing lists with the same members are equal. -/
theorem ext {s t : SortedSet α} (h : ∀ a, a ∈ s ↔ a ∈ t) : s = t := by
  obtain ⟨xs, hx⟩ := s
  obtain ⟨ys, hy⟩ := t
  have hp : xs.Perm ys :=
    (List.perm_ext_iff_of_nodup (hx.imp ne_of_lt) (hy.imp ne_of_lt)).mpr h
  have : xs = ys :=
    hp.eq_of_pairwise (fun a b _ _ hab hba => absurd hab (not_lt.mpr hba.le)) hx hy
  subst this; rfl

/-- Insertion into an increasing list; an element already present stays once. -/
def insertElem (a : α) : List α → List α
  | [] => [a]
  | b :: bs => if a < b then a :: b :: bs else if a = b then b :: bs else b :: insertElem a bs

theorem mem_insertElem {a c : α} {l : List α} : c ∈ insertElem a l ↔ c = a ∨ c ∈ l := by
  induction l with
  | nil => simp [insertElem]
  | cons b bs ih =>
    simp only [insertElem]
    split
    · simp
    · split
      · rename_i h; subst h; simp
      · simp only [List.mem_cons, ih]; tauto

theorem pairwise_insertElem (a : α) {l : List α} (h : l.Pairwise (· < ·)) :
    (insertElem a l).Pairwise (· < ·) := by
  induction l with
  | nil => simp [insertElem]
  | cons b bs ih =>
    simp only [insertElem]
    obtain ⟨hb, hbs⟩ := List.pairwise_cons.mp h
    split
    · rename_i hlt
      refine List.pairwise_cons.mpr ⟨fun c hc => ?_, h⟩
      rcases List.mem_cons.mp hc with rfl | hc
      · exact hlt
      · exact hlt.trans (hb c hc)
    · split
      · exact h
      · rename_i hge hne
        refine List.pairwise_cons.mpr ⟨fun c hc => ?_, ih hbs⟩
        rcases mem_insertElem.mp hc with rfl | hc
        · exact lt_of_le_of_ne (not_lt.mp hge) (Ne.symm hne)
        · exact hb c hc

def insert (a : α) (s : SortedSet α) : SortedSet α :=
  ⟨insertElem a s.elems, pairwise_insertElem a s.sorted⟩

@[simp] theorem mem_insert {a c : α} {s : SortedSet α} : c ∈ s.insert a ↔ c = a ∨ c ∈ s :=
  mem_insertElem

/-- Collects a list into a set. -/
def ofList : List α → SortedSet α
  | [] => ∅
  | a :: as => (ofList as).insert a

@[simp] theorem mem_ofList {a : α} {l : List α} : a ∈ ofList l ↔ a ∈ l := by
  induction l with
  | nil => simp [ofList]
  | cons b bs ih => simp [ofList, ih]

theorem mem_elems_ofList {a : α} {l : List α} : a ∈ (ofList l).elems ↔ a ∈ l := mem_ofList

/-- The members of `t` are added to `s`. -/
def union (s t : SortedSet α) : SortedSet α := ofList (s.elems ++ t.elems)

instance : Union (SortedSet α) := ⟨union⟩

@[simp] theorem mem_union {a : α} {s t : SortedSet α} : a ∈ s ∪ t ↔ a ∈ s ∨ a ∈ t := by
  show a ∈ ofList (s.elems ++ t.elems) ↔ _
  rw [mem_ofList, List.mem_append]; rfl

/-- The members of `s` outside `t`, in order. -/
def difference (s t : SortedSet α) : List α := s.elems.filter fun a => ¬a ∈ t

theorem difference_eq_nil_iff {s t : SortedSet α} : s.difference t = [] ↔ s ⊆ t := by
  simp [difference, subset_def, mem_def]

/-- Number of members. -/
def card (s : SortedSet α) : Nat := s.elems.length

theorem subset_union_left (s t : SortedSet α) : s ⊆ s ∪ t := fun _ h => mem_union.mpr (.inl h)

theorem nodup (s : SortedSet α) : s.elems.Nodup := s.sorted.imp ne_of_lt

theorem card_insert_of_mem {a : α} {s : SortedSet α} (h : a ∈ s) : s.insert a = s :=
  ext fun c => by
    rw [mem_insert]
    exact ⟨fun hc => hc.elim (fun e => e ▸ h) id, .inr⟩

/-- A union that adds no member has the size of its first argument, and only then. -/
theorem card_union_eq_iff {s t : SortedSet α} : (s ∪ t).card = s.card ↔ t ⊆ s := by
  constructor
  · intro h a ha
    have hsub : s.elems.Subperm (s ∪ t).elems :=
      s.nodup.subperm fun b hb => subset_union_left s t b hb
    have hp := hsub.perm_of_length_le (le_of_eq h)
    exact hp.mem_iff.mpr (mem_union.mpr (.inr ha))
  · intro h
    congr 1
    exact ext fun a => by rw [mem_union]; exact ⟨fun ha => ha.elim id (h a), .inl⟩

def erase (s : SortedSet α) (a : α) : SortedSet α :=
  ⟨s.elems.filter (· ≠ a), s.sorted.filter _⟩

@[simp] theorem mem_erase {a c : α} {s : SortedSet α} : c ∈ s.erase a ↔ c ∈ s ∧ c ≠ a := by
  simp [erase, mem_def]

/-- The common members. -/
def inter (s t : SortedSet α) : SortedSet α :=
  ⟨s.elems.filter (· ∈ t), s.sorted.filter _⟩

instance : Inter (SortedSet α) := ⟨inter⟩

@[simp] theorem mem_inter {a : α} {s t : SortedSet α} : a ∈ s ∩ t ↔ a ∈ s ∧ a ∈ t := by
  show a ∈ s.inter t ↔ _
  simp [inter, mem_def]

/-- The first members of `s` are all those of `u`: `u` is the whole of `s`, or it is full and the
other members of `s` come after it. -/
theorem take_eq_iff {s u : SortedSet α} :
    s.elems.take n = u.elems ↔
      u ⊆ s ∧ u.card ≤ n ∧ ∀ a ∈ s, a ∈ u ∨ n ≤ u.card ∧ ∀ b ∈ u, b < a := by
  constructor
  · intro h
    refine ⟨?_, ?_, ?_⟩
    · intro a ha
      rw [mem_def, ← h] at ha
      exact List.mem_of_mem_take ha
    · rw [card, ← h]
      exact List.length_take_le n s.elems
    · intro a ha
      have hsorted := s.sorted
      rw [← List.take_append_drop n s.elems] at hsorted
      rw [mem_def, ← List.take_append_drop n s.elems, List.mem_append] at ha
      obtain ha | ha := ha
      · exact .inl (mem_def.mpr (h ▸ ha))
      · refine .inr ⟨?_, fun b hb => ?_⟩
        · have hlt : n < s.elems.length := by
            by_contra hge
            rw [List.drop_eq_nil_of_le (Nat.not_lt.mp hge)] at ha
            cases ha
          rw [card, ← h, List.length_take]
          omega
        · exact (List.pairwise_append.mp hsorted).2.2 b (h ▸ hb) a ha
  · rintro ⟨hsub, hcard, hall⟩
    by_cases hn : n ≤ u.card
    · have hafter : ∀ a ∈ s.difference u, a ∈ s ∧ ∀ b ∈ u, b < a := by
        intro a ha
        obtain ⟨hs, hu⟩ := List.mem_filter.mp ha
        have hu : a ∉ u := by simpa using hu
        exact ⟨hs, ((hall a hs).resolve_left hu).2⟩
      have hsorted : (u.elems ++ s.difference u).Pairwise (· < ·) :=
        List.pairwise_append.mpr ⟨u.sorted, s.sorted.filter _, fun b hb a ha =>
          (hafter a ha).2 b hb⟩
      have hs : s = ⟨u.elems ++ s.difference u, hsorted⟩ := by
        refine ext fun a => ⟨fun ha => ?_, fun ha => ?_⟩
        · by_cases hu : a ∈ u
          · exact List.mem_append_left _ hu
          · exact List.mem_append_right _ (List.mem_filter.mpr ⟨ha, by simpa using hu⟩)
        · obtain hu | ha := List.mem_append.mp ha
          · exact hsub a hu
          · exact (hafter a ha).1
      rw [hs]
      exact List.take_left' (le_antisymm hcard hn)
    · have hs : s = u := ext fun a => ⟨fun ha => (hall a ha).resolve_right fun h => hn h.1, hsub a⟩
      rw [hs]
      exact List.take_of_length_le hcard

end SortedSet

namespace SortedMap
variable {α : Type u} {β : Type v} [LinearOrder α]

instance : EmptyCollection (SortedMap α β) := ⟨⟨[], .nil⟩⟩
instance : Inhabited (SortedMap α β) := ⟨∅⟩

/-- The value stored under a key. -/
def get? (m : SortedMap α β) (k : α) : Option β := m.entries.lookup k

def contains (m : SortedMap α β) (k : α) : Bool := (m.get? k).isSome
def keys (m : SortedMap α β) : List α := m.entries.map (·.1)
def values (m : SortedMap α β) : List β := m.entries.map (·.2)
def size (m : SortedMap α β) : Nat := m.entries.length

theorem nodup_keys (m : SortedMap α β) : m.keys.Nodup :=
  List.pairwise_map.mpr (m.sorted.imp ne_of_lt)

@[simp] theorem get?_empty (k : α) : (∅ : SortedMap α β).get? k = none := rfl

theorem lookup_cons_eq (k k' : α) (v : β) (l : List (α × β)) :
    ((k', v) :: l).lookup k = if k = k' then some v else l.lookup k := by
  rw [List.lookup_cons]
  by_cases h : k = k'
  · subst h; simp
  · rw [beq_eq_false_iff_ne.mpr h, if_neg h]

theorem mem_of_lookup {l : List (α × β)} (h : l.lookup k = some v) : (k, v) ∈ l := by
  induction l with
  | nil => simp at h
  | cons e es ih =>
    obtain ⟨k', v'⟩ := e
    rw [lookup_cons_eq] at h
    split at h
    · rename_i hk; cases h; subst hk; exact List.mem_cons_self
    · exact List.mem_cons_of_mem _ (ih h)

theorem lookup_of_mem {l : List (α × β)} (hl : l.Pairwise (·.1 < ·.1)) (h : (k, v) ∈ l) :
    l.lookup k = some v := by
  induction l with
  | nil => simp at h
  | cons e es ih =>
    obtain ⟨hlt, hes⟩ := List.pairwise_cons.mp hl
    obtain ⟨k', v'⟩ := e
    rw [lookup_cons_eq]
    rcases List.mem_cons.mp h with h | h
    · cases h; simp
    · have : k' < k := hlt _ h
      rw [if_neg this.ne', ih hes h]

theorem get?_eq_some_iff {m : SortedMap α β} : m.get? k = some v ↔ (k, v) ∈ m.entries :=
  ⟨mem_of_lookup, lookup_of_mem m.sorted⟩

theorem mem_keys_iff {m : SortedMap α β} : k ∈ m.keys ↔ ∃ v, m.get? k = some v := by
  simp only [keys, List.mem_map, get?_eq_some_iff]
  constructor
  · rintro ⟨⟨_, v⟩, h, rfl⟩; exact ⟨v, h⟩
  · rintro ⟨v, h⟩; exact ⟨_, h, rfl⟩

theorem contains_iff {m : SortedMap α β} : m.contains k = true ↔ ∃ v, m.get? k = some v :=
  Option.isSome_iff_exists

theorem contains_iff_mem_keys {m : SortedMap α β} : m.contains k = true ↔ k ∈ m.keys :=
  contains_iff.trans mem_keys_iff.symm

theorem mem_values_iff {m : SortedMap α β} : v ∈ m.values ↔ ∃ k, m.get? k = some v := by
  simp only [values, List.mem_map, get?_eq_some_iff]
  constructor
  · rintro ⟨⟨k, _⟩, h, rfl⟩; exact ⟨k, h⟩
  · rintro ⟨k, h⟩; exact ⟨_, h, rfl⟩

/-- Two maps with the same lookups are equal. -/
theorem ext {m m' : SortedMap α β} (h : ∀ k, m.get? k = m'.get? k) : m = m' := by
  have hmem : ∀ e : α × β, e ∈ m.entries ↔ e ∈ m'.entries := fun e => by
    rw [← get?_eq_some_iff (k := e.1) (v := e.2), ← get?_eq_some_iff (k := e.1) (v := e.2), h]
  obtain ⟨xs, hx⟩ := m
  obtain ⟨ys, hy⟩ := m'
  have hne {l : List (α × β)} (hl : l.Pairwise (·.1 < ·.1)) : l.Nodup :=
    hl.imp fun hab he => hab.ne (congrArg Prod.fst he)
  have hp : xs.Perm ys := (List.perm_ext_iff_of_nodup (hne hx) (hne hy)).mpr hmem
  have : xs = ys :=
    hp.eq_of_pairwise (fun a b _ _ hab hba => absurd hab (not_lt.mpr hba.le)) hx hy
  subst this; rfl

/-- Insertion into an entry list increasing in the key; an entry with the same key is replaced. -/
def insertEntry (k : α) (v : β) : List (α × β) → List (α × β)
  | [] => [(k, v)]
  | e :: es =>
    if k < e.1 then (k, v) :: e :: es
    else if k = e.1 then (k, v) :: es
    else e :: insertEntry k v es

theorem mem_insertEntry {e : α × β} {l : List (α × β)} (h : e ∈ insertEntry k v l) :
    e = (k, v) ∨ e ∈ l := by
  induction l with
  | nil => simpa [insertEntry] using h
  | cons e' es ih =>
    simp only [insertEntry] at h
    split at h
    · simpa using h
    · split at h
      · rcases List.mem_cons.mp h with h | h
        · exact .inl h
        · exact .inr (List.mem_cons_of_mem _ h)
      · rcases List.mem_cons.mp h with h | h
        · exact .inr (h ▸ List.mem_cons_self)
        · exact (ih h).imp id (List.mem_cons_of_mem _)

theorem pairwise_insertEntry (k : α) (v : β) {l : List (α × β)} (h : l.Pairwise (·.1 < ·.1)) :
    (insertEntry k v l).Pairwise (·.1 < ·.1) := by
  induction l with
  | nil => simp [insertEntry]
  | cons e es ih =>
    obtain ⟨he, hes⟩ := List.pairwise_cons.mp h
    simp only [insertEntry]
    split
    · rename_i hlt
      refine List.pairwise_cons.mpr ⟨fun c hc => ?_, h⟩
      rcases List.mem_cons.mp hc with rfl | hc
      · exact hlt
      · exact hlt.trans (he c hc)
    · split
      · rename_i hk
        exact List.pairwise_cons.mpr ⟨fun c hc => hk ▸ he c hc, hes⟩
      · rename_i hge hne
        refine List.pairwise_cons.mpr ⟨fun c hc => ?_, ih hes⟩
        rcases mem_insertEntry hc with rfl | hc
        · exact lt_of_le_of_ne (not_lt.mp hge) (Ne.symm hne)
        · exact he c hc

theorem lookup_insertEntry (k k' : α) (v : β) (l : List (α × β)) :
    (insertEntry k v l).lookup k' = if k' = k then some v else l.lookup k' := by
  induction l with
  | nil => rw [insertEntry, lookup_cons_eq]
  | cons e es ih =>
    obtain ⟨k₁, v₁⟩ := e
    simp only [insertEntry]
    split
    · rw [lookup_cons_eq]
    · split
      · rename_i hk; cases hk
        simp only [lookup_cons_eq]
        split <;> rfl
      · rename_i hne
        simp only [lookup_cons_eq, ih]
        by_cases h : k' = k₁
        · subst h; simp [Ne.symm hne]
        · simp [h]

def insert (m : SortedMap α β) (k : α) (v : β) : SortedMap α β :=
  ⟨insertEntry k v m.entries, pairwise_insertEntry k v m.sorted⟩

@[simp] theorem get?_insert (m : SortedMap α β) (k k' : α) (v : β) :
    (m.insert k v).get? k' = if k' = k then some v else m.get? k' :=
  lookup_insertEntry k k' v m.entries

theorem get?_insert_self (m : SortedMap α β) (k : α) (v : β) : (m.insert k v).get? k = some v := by
  simp

theorem get?_insert_ne (m : SortedMap α β) (v : β) (h : k' ≠ k) :
    (m.insert k v).get? k' = m.get? k' := by simp [h]

theorem lookup_filter_ne (k k' : α) (l : List (α × β)) :
    (l.filter (·.1 ≠ k)).lookup k' = if k' = k then none else l.lookup k' := by
  induction l with
  | nil => simp
  | cons e es ih =>
    obtain ⟨k₁, v₁⟩ := e
    by_cases h₁ : k₁ = k
    · subst h₁
      rw [List.filter_cons_of_neg (by simp), ih, lookup_cons_eq]
      split <;> rfl
    · rw [List.filter_cons_of_pos (by simpa using h₁), lookup_cons_eq, lookup_cons_eq, ih]
      by_cases h : k' = k₁
      · subst h; simp [h₁]
      · simp [h]

def erase (m : SortedMap α β) (k : α) : SortedMap α β :=
  ⟨m.entries.filter (·.1 ≠ k), m.sorted.filter _⟩

@[simp] theorem get?_erase (m : SortedMap α β) (k k' : α) :
    (m.erase k).get? k' = if k' = k then none else m.get? k' :=
  lookup_filter_ne k k' m.entries

/-- A map of the same size with keys among those of another has all of them. -/
theorem mem_keys_of_size_eq {m : SortedMap α β} {m' : SortedMap α γ}
    (h : ∀ k ∈ m.keys, k ∈ m'.keys) (hs : m.size = m'.size) (hk : k ∈ m'.keys) : k ∈ m.keys := by
  have hsub : m.keys.Subperm m'.keys := m.nodup_keys.subperm h
  have hlen : m'.keys.length ≤ m.keys.length := by
    rw [keys, keys, List.length_map, List.length_map]
    exact hs.ge
  exact (hsub.perm_of_length_le hlen).mem_iff.mpr hk

/-- Collects entries into a map; a later entry replaces an earlier one with the same key. -/
def ofList (l : List (α × β)) : SortedMap α β := l.foldl (fun m e => m.insert e.1 e.2) ∅

end SortedMap
