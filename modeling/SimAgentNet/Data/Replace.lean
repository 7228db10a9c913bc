import Mathlib

/-! # Replacing a pattern in a text

Every occurrence of a pattern is replaced, from the left and without overlaps. A mark is a pattern
whose first character does not come again in it. -/

namespace Replace

variable {α : Type*} [DecidableEq α]

/-- The text after the first `skip` characters, with each occurrence of the pattern replaced. -/
def replaceFrom (pattern new : List α) : (skip : Nat) → List α → List α
  | _, [] => []
  | skip + 1, _ :: text => replaceFrom pattern new skip text
  | 0, a :: text =>
    if pattern <+: a :: text then new ++ replaceFrom pattern new (pattern.length - 1) text
    else a :: replaceFrom pattern new 0 text

def replace (pattern new text : List α) : List α := replaceFrom pattern new 0 text

/-- How many times the pattern begins in the text. -/
def occurrences (pattern : List α) : List α → Nat
  | [] => 0
  | a :: text => (if pattern <+: a :: text then 1 else 0) + occurrences pattern text

variable {pattern new text : List α} {a c d : α}

theorem replaceFrom_eq_drop (skip : Nat) :
    replaceFrom pattern new skip text = replace pattern new (text.drop skip) := by
  induction text generalizing skip with
  | nil =>
    rw [List.drop_nil]
    cases skip with
    | zero => rfl
    | succ skip => rfl
  | cons a text ih =>
    cases skip with
    | zero => rfl
    | succ skip => exact ih skip

theorem replace_of_prefix (h : c :: pattern <+: text) :
    replace (c :: pattern) new text =
      new ++ replace (c :: pattern) new (text.drop (pattern.length + 1)) := by
  cases text with
  | nil => cases h.length_le
  | cons a text =>
    rw [replace, replaceFrom, if_pos h, replaceFrom_eq_drop]
    rfl

theorem replace_cons_of_not_prefix (h : ¬pattern <+: a :: text) :
    replace pattern new (a :: text) = a :: replace pattern new text := by
  rw [replace, replaceFrom, if_neg h]
  rfl

/-! ## What a replacement leaves of a mark -/

theorem isPrefix_of_isPrefix_replace {l : List α} (hl : c ∉ l)
    (h : l <+: replace (c :: pattern) (c :: new) text) : l <+: text := by
  induction text generalizing l with
  | nil => exact h
  | cons a text ih =>
    cases l with
    | nil => exact List.nil_prefix
    | cons b l =>
      by_cases hit : c :: pattern <+: a :: text
      · rw [ replace_of_prefix hit] at h
        have hb : b = c := (List.cons_prefix_cons.mp h).1
        exact absurd (hb ▸ List.mem_cons_self) hl
      · rw [ replace_cons_of_not_prefix hit] at h
        obtain ⟨rfl, hrest⟩ := List.cons_prefix_cons.mp h
        have hrest := ih (fun hmem => hl (List.mem_cons_of_mem _ hmem)) hrest
        exact List.cons_prefix_cons.mpr ⟨rfl, hrest⟩

omit [DecidableEq α] in
/-- A mark that begins in a text does not begin in what comes before it. -/
theorem infix_of_infix_append {l mark : List α} (hl : c ∉ l) (h : c :: mark <:+: l ++ text) :
    c :: mark <:+: text := by
  induction l with
  | nil => exact h
  | cons b l ih =>
    obtain h | h := List.infix_cons_iff.mp h
    · have hb : c = b := (List.cons_prefix_cons.mp h).1
      exact absurd (hb ▸ List.mem_cons_self) hl
    · exact ih (fun hmem => hl (List.mem_cons_of_mem _ hmem)) h

/-- A mark that a replacement leaves was in the text, where the pattern was not. -/
theorem exists_of_infix_replace {mark : List α} {x y : α} (hmark : c ∉ y :: mark)
    (hnew : c ∉ x :: new) (hxy : x ≠ y)
    (h : c :: y :: mark <:+: replace (c :: pattern) (c :: x :: new) text) :
    ∃ rest, rest <:+ text ∧ c :: y :: mark <+: rest ∧ ¬c :: pattern <+: rest := by
  induction hlen : text.length using Nat.strong_induction_on generalizing text with
  | _ n ih =>
    cases text with
    | nil => cases h.length_le
    | cons a text =>
      by_cases hit : c :: pattern <+: a :: text
      · rw [ replace_of_prefix hit, List.cons_append, List.infix_cons_iff] at h
        obtain h | h := h
        · have hy := (List.cons_prefix_cons.mp (List.cons_prefix_cons.mp h).2).1
          exact absurd hy.symm hxy
        · have h := infix_of_infix_append hnew h
          obtain ⟨rest, hrest, hfound⟩ := ih _ (by simp [← hlen]) h rfl
          exact ⟨rest, hrest.trans (List.drop_suffix _ _), hfound⟩
      · rw [ replace_cons_of_not_prefix hit, List.infix_cons_iff] at h
        obtain h | h := h
        · obtain ⟨rfl, hleft⟩ := List.cons_prefix_cons.mp h
          have hbegins := isPrefix_of_isPrefix_replace hmark hleft
          exact ⟨_, List.suffix_rfl, List.cons_prefix_cons.mpr ⟨rfl, hbegins⟩, hit⟩
        · obtain ⟨rest, hrest, hfound⟩ := ih _ (by simp [← hlen]) h rfl
          exact ⟨rest, hrest.trans (List.suffix_cons _ _), hfound⟩

/-- What is replaced does not come back. -/
theorem not_infix_replace {x y : α} (hpattern : c ∉ y :: pattern) (hnew : c ∉ x :: new)
    (hxy : x ≠ y) : ¬c :: y :: pattern <:+: replace (c :: y :: pattern) (c :: x :: new) text := by
  intro h
  obtain ⟨rest, -, hbegins, hnot⟩ := exists_of_infix_replace hpattern hnew hxy h
  exact hnot hbegins

/-- A mark that is not in a text is not in what is made of it. -/
theorem not_infix_replace_of_not_infix {mark : List α} {x y : α} (hmark : c ∉ y :: mark)
    (hnew : c ∉ x :: new) (hxy : x ≠ y) (h : ¬c :: y :: mark <:+: text) :
    ¬c :: y :: mark <:+: replace (c :: pattern) (c :: x :: new) text := by
  intro hinfix
  obtain ⟨rest, hrest, hbegins, -⟩ := exists_of_infix_replace hmark hnew hxy hinfix
  exact h (hbegins.isInfix.trans hrest.isInfix)

/-! ## Counting -/

theorem occurrences_append_of_not_mem {l mark : List α} (hl : c ∉ l) :
    occurrences (c :: mark) (l ++ text) = occurrences (c :: mark) text := by
  induction l with
  | nil => rfl
  | cons b l ih =>
    have hb : ¬c :: mark <+: b :: (l ++ text) := by
      intro h
      have hb : c = b := (List.cons_prefix_cons.mp h).1
      exact hl (hb ▸ List.mem_cons_self)
    rw [List.cons_append, occurrences, if_neg hb, Nat.zero_add]
    exact ih fun hmem => hl (List.mem_cons_of_mem _ hmem)

omit [DecidableEq α] in
/-- A mark does not reach over a character that it does not have. -/
theorem isPrefix_of_isPrefix_append_cons {l mark : List α} (hd : d ∉ mark)
    (h : mark <+: l ++ d :: text) : mark <+: l := by
  induction mark generalizing l with
  | nil => exact List.nil_prefix
  | cons b mark ih =>
    cases l with
    | nil =>
      have hb : b = d := (List.cons_prefix_cons.mp h).1
      exact absurd (hb ▸ List.mem_cons_self) hd
    | cons a l =>
      obtain ⟨rfl, hleft⟩ := List.cons_prefix_cons.mp h
      have hbegins := ih (fun hmem => hd (List.mem_cons_of_mem _ hmem)) hleft
      exact List.cons_prefix_cons.mpr ⟨rfl, hbegins⟩

theorem occurrences_append_cons {l mark : List α} (hd : d ∉ c :: mark) (h : ¬c :: mark <:+: l) :
    occurrences (c :: mark) (l ++ d :: text) = occurrences (c :: mark) text := by
  induction l with
  | nil =>
    have hc : c ∉ [d] := fun hmem => hd (List.mem_singleton.mp hmem ▸ List.mem_cons_self)
    exact occurrences_append_of_not_mem hc
  | cons b l ih =>
    have hb : ¬c :: mark <+: b :: l ++ d :: text := fun hbegins =>
      h (isPrefix_of_isPrefix_append_cons hd hbegins).isInfix
    rw [List.cons_append] at hb ⊢
    rw [occurrences, if_neg hb, Nat.zero_add]
    exact ih fun hinfix => h (List.infix_cons hinfix)

theorem occurrences_of_prefix {mark rest : List α} :
    occurrences (c :: mark) (c :: mark ++ rest) = 1 + occurrences (c :: mark) (mark ++ rest) := by
  have hbegins : c :: mark <+: c :: (mark ++ rest) := List.prefix_append (c :: mark) rest
  rw [List.cons_append, occurrences, if_pos hbegins]

end Replace
