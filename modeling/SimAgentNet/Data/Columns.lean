import Mathlib

/-! # Columns after a head

Texts made of a head and columns, each after a separator. Columns without the separator are read
back from the text, unless the head of another text ends earlier. -/

namespace Columns

variable {α : Type*} {sep : α}

/-- Two or more columns one of which has the separator are the columns of no text alone. -/
theorem exists_other {cols : List (List α)} (hlen : 2 ≤ cols.length)
    (h : ∃ col ∈ cols, sep ∈ col) :
    ∃ cols', cols' ≠ cols ∧ cols'.length = cols.length ∧
      cols'.flatMap (sep :: ·) = cols.flatMap (sep :: ·) := by
  induction cols with
  | nil => cases hlen
  | cons first cols ih =>
    cases cols with
    | nil => simp at hlen
    | cons second cols =>
      obtain ⟨col, hmem, hcol⟩ := h
      rcases List.mem_cons.mp hmem with rfl | hmem
      · obtain ⟨a, b, rfl⟩ := List.append_of_mem hcol
        refine ⟨a :: (b ++ sep :: second) :: cols, ?_, rfl, by simp⟩
        intro heq
        have hself := congrArg List.length (List.cons.inj heq).1
        simp at hself
      · rcases List.mem_cons.mp hmem with rfl | hrest
        · obtain ⟨a, b, rfl⟩ := List.append_of_mem hcol
          refine ⟨(first ++ sep :: a) :: b :: cols, ?_, rfl, by simp⟩
          intro heq
          have hself := congrArg List.length (List.cons.inj heq).1
          simp at hself
        · have htwo : 2 ≤ (second :: cols).length :=
            Nat.succ_le_succ (List.length_pos_of_mem hrest)
          obtain ⟨cols', hne, hlen', heq⟩ := ih htwo ⟨col, hmem, hcol⟩
          refine ⟨first :: cols', fun he => hne (List.cons.inj he).2, congrArg (· + 1) hlen', ?_⟩
          rw [List.flatMap_cons, heq, ← List.flatMap_cons]

/-- The last piece is what stands after the last separator. -/
theorem splitOnP_eq_concat (p : α → Bool) (l : List α) :
    ∃ before, l.splitOnP p = before ++ [l.rtakeWhile fun a => !p a] := by
  have hlast : ∀ a ∈ l.rtakeWhile fun a => !p a, p a = false := by
    intro a ha
    simpa using List.mem_rtakeWhile_imp ha
  have hl := List.rdropWhile_append_rtakeWhile (l := l) (p := fun a => !p a)
  obtain hnone | ⟨before, sep, hbefore⟩ := List.eq_nil_or_concat (l.rdropWhile fun a => !p a)
  · refine ⟨[], ?_⟩
    rw [hnone, List.nil_append] at hl
    rw [hl] at hlast ⊢
    exact List.splitOnP_eq_singleton hlast
  · have hsep : p sep = true := by
      have hstop := List.rdropWhile_last_not (fun a => !p a) l (by simp [hbefore])
      simpa [hbefore] using hstop
    refine ⟨before.splitOnP p, ?_⟩
    rw [hbefore, List.concat_eq_append, List.append_assoc, List.singleton_append] at hl
    conv_lhs => rw [← hl]
    rw [List.splitOnP_append_cons _ _ hsep, List.splitOnP_eq_singleton hlast]

variable [DecidableEq α]

theorem splitOn_flatMap (head : List α) (cols : List (List α)) :
    (head ++ cols.flatMap (sep :: ·)).splitOn sep =
      head.splitOn sep ++ cols.flatMap (·.splitOn sep) := by
  induction cols generalizing head with
  | nil => simp
  | cons col cols ih =>
    rw [List.flatMap_cons, List.flatMap_cons, List.cons_append, List.splitOn_append_cons_self, ih]

/-- The pieces of a text, each closed with the separator, are the text closed with it. -/
theorem flatMap_splitOn (sep : α) (text : List α) :
    (text.splitOn sep).flatMap (· ++ [sep]) = text ++ [sep] := by
  induction text with
  | nil => rfl
  | cons a text ih =>
    rw [List.splitOn_cons_eq_if_modifyHead]
    split
    · rename_i ha
      rw [List.flatMap_cons, ih, eq_of_beq ha]
      rfl
    · cases hpieces : text.splitOn sep with
      | nil => exact absurd hpieces (List.splitOn_ne_nil sep text)
      | cons piece pieces =>
        rw [hpieces, List.flatMap_cons] at ih
        rw [List.modifyHead_cons, List.flatMap_cons, List.cons_append, List.cons_append, ih,
          List.cons_append]

theorem length_pos_splitOn (sep : α) (text : List α) : 0 < (text.splitOn sep).length :=
  List.length_pos_of_ne_nil (List.splitOn_ne_nil sep text)

theorem length_le_flatMap_splitOn (sep : α) (cols : List (List α)) :
    cols.length ≤ (cols.flatMap (·.splitOn sep)).length := by
  induction cols with
  | nil => exact Nat.zero_le _
  | cons col cols ih =>
    have hcol := length_pos_splitOn sep col
    rw [List.flatMap_cons, List.length_append, List.length_cons]
    omega

theorem eq_of_splitOn_eq (sep : α) {text text' : List α} (h : text.splitOn sep = text'.splitOn sep) :
    text = text' := by
  have hends : text ++ [sep] = text' ++ [sep] := by
    rw [← flatMap_splitOn, h, flatMap_splitOn]
  exact List.append_cancel_right hends

/-- As many columns as there are pieces are the pieces. -/
theorem eq_of_flatMap_splitOn {cols pieces : List (List α)}
    (h : cols.flatMap (·.splitOn sep) = pieces) (hlen : cols.length = pieces.length)
    (hpieces : ∀ piece ∈ pieces, sep ∉ piece) : cols = pieces := by
  induction cols generalizing pieces with
  | nil => exact h
  | cons col cols ih =>
    obtain ⟨first, rest, hcol⟩ := List.exists_cons_of_ne_nil (List.splitOn_ne_nil sep col)
    rw [List.flatMap_cons, hcol] at h
    have hrest : rest = [] := by
      have hle := length_le_flatMap_splitOn sep cols
      have htotal := congrArg List.length h
      rw [List.length_append, List.length_cons] at htotal
      rw [List.length_cons] at hlen
      exact List.length_eq_zero_iff.mp (by omega)
    subst hrest
    subst h
    have hfirst : sep ∉ first := hpieces first List.mem_cons_self
    have heq : col = first := by
      apply eq_of_splitOn_eq sep
      rw [hcol, List.splitOn_eq_singleton hfirst]
    rw [heq, List.singleton_append, List.cons.injEq]
    refine ⟨rfl, ih rfl (Nat.succ.inj hlen) fun piece hp => ?_⟩
    exact hpieces piece (List.mem_cons_of_mem _ hp)

/-- The text determines its head and its columns, unless the first column of the other text ends
inside the head. -/
theorem eq_or_prefix {head head' col' : List α} {cols cols' : List (List α)}
    (h : head ++ cols.flatMap (sep :: ·) = head' ++ (col' :: cols').flatMap (sep :: ·))
    (hlen : cols.length = (col' :: cols').length) (hcols : ∀ col ∈ cols, sep ∉ col)
    (hcol' : sep ∉ col') :
    head = head' ∧ cols = col' :: cols' ∨ head' ++ sep :: col' ++ [sep] <+: head ++ [sep] := by
  have hpieces : cols.flatMap (·.splitOn sep) = cols := by
    clear h hlen
    induction cols with
    | nil => rfl
    | cons col cols ih =>
      rw [List.flatMap_cons, List.splitOn_eq_singleton (hcols col List.mem_cons_self),
        ih fun c hc => hcols c (List.mem_cons_of_mem _ hc)]
      rfl
  have hsplit := congrArg (List.splitOn sep) h
  rw [splitOn_flatMap, splitOn_flatMap, hpieces] at hsplit
  have hle := length_le_flatMap_splitOn sep (col' :: cols')
  have htotal := congrArg List.length hsplit
  rw [List.length_append, List.length_append] at htotal
  rcases Nat.lt_or_ge (head'.splitOn sep).length (head.splitOn sep).length with hlt | hge
  · right
    rw [List.flatMap_cons, List.splitOn_eq_singleton hcol', ← List.append_assoc] at hsplit
    have hprefix : head'.splitOn sep ++ [col'] <+: head.splitOn sep := by
      refine List.prefix_of_prefix_length_le ⟨_, hsplit.symm⟩ (List.prefix_append _ _) ?_
      rw [List.length_append]
      exact hlt
    obtain ⟨rest, hrest⟩ := hprefix
    refine ⟨rest.flatMap (· ++ [sep]), ?_⟩
    rw [← flatMap_splitOn sep head, ← hrest, List.flatMap_append, List.flatMap_append,
      flatMap_splitOn]
    simp
  · left
    obtain ⟨hhead, hrest⟩ := List.append_inj hsplit (by omega)
    exact ⟨eq_of_splitOn_eq sep hhead, (eq_of_flatMap_splitOn hrest.symm hlen.symm hcols).symm⟩

/-- The pieces of a text begin those of another when the text is the other, or ends in it at a
separator. -/
theorem splitOn_prefix_splitOn_iff (sep : α) {text text' : List α} :
    text.splitOn sep <+: text'.splitOn sep ↔ text = text' ∨ text ++ [sep] <+: text' := by
  constructor
  · rintro ⟨more, hmore⟩
    have hends := flatMap_splitOn sep text'
    rw [← hmore, List.flatMap_append, flatMap_splitOn] at hends
    rcases List.eq_nil_or_concat (more.flatMap (· ++ [sep])) with hnil | ⟨rest, last, hrest⟩
    · rw [hnil, List.append_nil] at hends
      exact .inl (List.append_cancel_right hends)
    · rw [hrest, List.concat_eq_append, ← List.append_assoc] at hends
      exact .inr ⟨rest, (List.append_inj' hends rfl).1⟩
  · rintro (rfl | ⟨rest, rfl⟩)
    · exact List.prefix_refl _
    · rw [List.append_assoc, List.singleton_append, List.splitOn_append_cons_self]
      exact List.prefix_append _ _

omit [DecidableEq α] in
theorem intercalate_cons (sep : α) (col : List α) (cols : List (List α)) :
    [sep].intercalate (col :: cols) = col ++ cols.flatMap (sep :: ·) := by
  induction cols generalizing col with
  | nil => simp
  | cons next cols ih => rw [List.intercalate_cons_cons, ih]; simp

/-- The pieces of joined texts are the pieces of each. -/
theorem splitOn_intercalate (sep : α) {cols : List (List α)} (h : cols ≠ []) :
    ([sep].intercalate cols).splitOn sep = cols.flatMap (·.splitOn sep) := by
  obtain ⟨col, cols, rfl⟩ := List.exists_cons_of_ne_nil h
  rw [intercalate_cons, splitOn_flatMap, List.flatMap_cons]

theorem not_mem_of_mem_splitOn {text piece : List α} (h : piece ∈ text.splitOn sep) :
    sep ∉ piece := by
  induction text generalizing piece with
  | nil =>
    cases List.mem_singleton.mp h
    exact List.not_mem_nil
  | cons a text ih =>
    rw [List.splitOn_cons_eq_if_modifyHead] at h
    split at h
    · rcases List.mem_cons.mp h with rfl | h
      · exact List.not_mem_nil
      · exact ih h
    · rename_i ha
      obtain ⟨first, rest, hpieces⟩ := List.exists_cons_of_ne_nil (List.splitOn_ne_nil sep text)
      rw [hpieces, List.modifyHead_cons] at h
      rw [hpieces] at ih
      rcases List.mem_cons.mp h with rfl | h
      · rw [List.mem_cons, not_or]
        exact ⟨fun hsame => ha (beq_iff_eq.mpr hsame.symm), ih List.mem_cons_self⟩
      · exact ih (List.mem_cons_of_mem _ h)

end Columns
