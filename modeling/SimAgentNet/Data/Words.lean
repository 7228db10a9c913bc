import Mathlib

/-! # Words

A list is cut into words at the elements that separate. The words, put together again with a
single separator between them, are the list exactly when it is spaced like that. -/

namespace Words
variable {α : Type} (p : α → Bool) (sep : α)

/-- The maximal parts without a separating element. -/
def words [DecidableEq α] (text : List α) : List (List α) := (text.splitOnP p).filter (· ≠ [])

/-- The words with the separator between them. -/
def joined (sep : α) : List (List α) → List α
  | [] => []
  | word :: rest => word ++ rest.flatMap (sep :: ·)

/-- A word is not empty, and no element of it separates. -/
def IsWord (word : List α) : Prop := word ≠ [] ∧ ∀ c ∈ word, p c = false

/-- A separating element is the separator, and stands between two elements that do not separate. -/
def SingleSpaced (text : List α) : Prop :=
  ∀ before c after, text = before ++ c :: after → p c = true →
    c = sep ∧ (∃ l a, before = l ++ [a] ∧ p a = false) ∧ ∃ a r, after = a :: r ∧ p a = false

variable {p} {sep}

theorem joined_cons_cons (word next : List α) (rest : List (List α)) :
    joined sep (word :: next :: rest) = word ++ sep :: joined sep (next :: rest) := by
  simp [joined]

theorem isWord_of_mem_words [DecidableEq α] {text word : List α} (h : word ∈ words p text) :
    IsWord p word := by
  have hpieces : ∀ text : List α, ∀ piece ∈ text.splitOnP p, ∀ c ∈ piece, p c = false := by
    intro text
    induction text with
    | nil =>
      intro piece hp
      cases List.mem_singleton.mp hp
      exact nofun
    | cons x text ih =>
      intro piece hp
      rw [List.splitOnP_cons_eq_if_modifyHead] at hp
      split at hp
      · rcases List.mem_cons.mp hp with rfl | hp
        · exact nofun
        · exact ih piece hp
      · rename_i hx
        cases hrest : text.splitOnP p with
        | nil =>
          rw [hrest] at hp
          cases hp
        | cons first pieces =>
          rw [hrest, List.modifyHead_cons] at hp
          rcases List.mem_cons.mp hp with rfl | hp
          · intro c hc
            rcases List.mem_cons.mp hc with rfl | hc
            · simpa using hx
            · exact ih first (hrest ▸ List.mem_cons_self) c hc
          · exact ih piece (hrest ▸ List.mem_cons_of_mem _ hp)
  obtain ⟨hmem, hne⟩ := List.mem_filter.mp h
  exact ⟨by simpa using hne, hpieces text word hmem⟩

/-- Words put together are cut at the same places. -/
theorem words_joined [DecidableEq α] (hsep : p sep = true) {ws : List (List α)}
    (h : ∀ w ∈ ws, IsWord p w) : words p (joined sep ws) = ws := by
  induction ws with
  | nil => simp [words, joined]
  | cons word ws ih =>
    obtain ⟨hne, hword⟩ := h word List.mem_cons_self
    have ih := ih fun w hw => h w (List.mem_cons_of_mem _ hw)
    cases ws with
    | nil => simp [words, joined, List.splitOnP_eq_singleton hword, hne]
    | cons next ws =>
      rw [joined_cons_cons, words, List.splitOnP_append_cons_of_forall_mem hword sep hsep,
        List.filter_cons_of_pos (by simpa using hne)]
      exact congrArg _ ih

/-- After a word comes a separator, and after it an element that does not separate. -/
theorem singleSpaced_append_cons (hsep : p sep = true) {word : List α} (hword : IsWord p word)
    {rest : List α} : SingleSpaced p sep (word ++ sep :: rest) ↔
      (∃ a r, rest = a :: r ∧ p a = false) ∧ SingleSpaced p sep rest := by
  obtain ⟨hne, hall⟩ := hword
  constructor
  · intro h
    refine ⟨(h word sep rest rfl hsep).2.2, fun before c after heq hc => ?_⟩
    obtain ⟨hcs, ⟨l, a, hl, ha⟩, hafter⟩ :=
      h (word ++ sep :: before) c after (by rw [heq]; simp) hc
    refine ⟨hcs, ?_, hafter⟩
    rcases List.eq_nil_or_concat before with rfl | ⟨l', a', rfl⟩
    · -- the separator does not stand between two elements that do not separate
      obtain ⟨-, heq⟩ := List.append_inj' hl rfl
      cases heq
      exact nomatch ha.symm.trans hsep
    · refine ⟨l', a', List.concat_eq_append, ?_⟩
      rw [List.concat_eq_append, ← List.cons_append, ← List.append_assoc] at hl
      obtain ⟨-, heq⟩ := List.append_inj' hl rfl
      cases heq
      exact ha
  · rintro ⟨hrest, h⟩ before c after heq hc
    have hfirst : before = word → c :: after = sep :: rest → c = sep ∧
        (∃ l a, before = l ++ [a] ∧ p a = false) ∧ ∃ a r, after = a :: r ∧ p a = false := by
      rintro rfl heq
      cases heq
      obtain ⟨l, a, hl⟩ := (List.eq_nil_or_concat before).resolve_left hne
      rw [List.concat_eq_append] at hl
      exact ⟨rfl, ⟨l, a, hl, hall a (hl ▸ List.mem_append_right _ List.mem_cons_self)⟩, hrest⟩
    rcases List.append_eq_append_iff.mp heq with ⟨mid, rfl, hmid⟩ | ⟨mid, rfl, hmid⟩
    · cases mid with
      | nil => exact hfirst (List.append_nil word) hmid.symm
      | cons x mid =>
        obtain ⟨rfl, htail⟩ := List.cons.inj hmid
        obtain ⟨hcs, ⟨l, a, rfl, ha⟩, hafter⟩ := h mid c after htail hc
        exact ⟨hcs, ⟨word ++ sep :: l, a, by simp, ha⟩, hafter⟩
    · cases mid with
      | nil => exact hfirst (List.append_nil before).symm hmid
      | cons x mid =>
        obtain ⟨rfl, -⟩ := List.cons.inj hmid
        have hmem : c ∈ before ++ c :: mid := List.mem_append_right _ List.mem_cons_self
        exact nomatch (hall c hmem).symm.trans hc

theorem singleSpaced_of_isWord {word : List α} (hword : IsWord p word) :
    SingleSpaced p sep word := by
  rintro before c after rfl hc
  exact nomatch (hword.2 c (List.mem_append_right _ List.mem_cons_self)).symm.trans hc

theorem singleSpaced_nil : SingleSpaced p sep [] := fun _ _ _ h => by simp at h

/-- Words put together begin with an element that does not separate. -/
theorem exists_cons_joined {word : List α} {ws : List (List α)} (hword : IsWord p word) :
    ∃ a r, joined sep (word :: ws) = a :: r ∧ p a = false := by
  obtain ⟨a, r, rfl⟩ := List.exists_cons_of_ne_nil hword.1
  exact ⟨a, r ++ ws.flatMap (sep :: ·), rfl, hword.2 a List.mem_cons_self⟩

/-- Words put together are single spaced. -/
theorem singleSpaced_joined (hsep : p sep = true) {ws : List (List α)}
    (h : ∀ w ∈ ws, IsWord p w) : SingleSpaced p sep (joined sep ws) := by
  induction ws with
  | nil => exact singleSpaced_nil
  | cons word ws ih =>
    have hword := h word List.mem_cons_self
    have ih := ih fun w hw => h w (List.mem_cons_of_mem _ hw)
    cases ws with
    | nil =>
      rw [show joined sep [word] = word from List.append_nil word]
      exact singleSpaced_of_isWord hword
    | cons next ws =>
      have hnext := h next (List.mem_cons_of_mem _ List.mem_cons_self)
      rw [joined_cons_cons, singleSpaced_append_cons hsep hword]
      exact ⟨exists_cons_joined hnext, ih⟩

/-- A single spaced list is its words, put together. -/
theorem exists_words (hsep : p sep = true) {text : List α} (h : SingleSpaced p sep text) :
    ∃ ws, (∀ w ∈ ws, IsWord p w) ∧ text = joined sep ws := by
  induction hn : text.length using Nat.strong_induction_on generalizing text with | _ n ih
  cases text with
  | nil => exact ⟨[], nofun, rfl⟩
  | cons x tail =>
    have hx : p x = false := by
      by_contra hx
      obtain ⟨-, ⟨l, a, hl, -⟩, -⟩ := h [] x tail rfl (by simpa using hx)
      simp at hl
    have hword : IsWord p (x :: tail.takeWhile (!p ·)) := by
      refine ⟨nofun, fun c hc => ?_⟩
      rcases List.mem_cons.mp hc with rfl | hc
      · exact hx
      · simpa using List.mem_takeWhile_imp hc
    have hsplit := List.takeWhile_append_dropWhile (p := (!p ·)) (l := tail)
    cases hd : tail.dropWhile (!p ·) with
    | nil =>
      rw [hd, List.append_nil] at hsplit
      rw [hsplit] at hword
      refine ⟨[x :: tail], ?_, (List.append_nil _).symm⟩
      intro w hw
      cases List.mem_singleton.mp hw
      exact hword
    | cons c rest =>
      rw [hd] at hsplit
      have hc : p c = true := by
        have := List.dropWhile_get_zero_not (!p ·) tail (by rw [hd]; exact Nat.zero_lt_succ _)
        simpa [hd] using this
      obtain ⟨rfl, -, -⟩ := h (x :: tail.takeWhile (!p ·)) c rest (by rw [List.cons_append, hsplit]) hc
      rw [← hsplit, ← List.cons_append, singleSpaced_append_cons hsep hword] at h
      obtain ⟨⟨a, r, hrest, -⟩, h⟩ := h
      have hlt : rest.length < n := by
        have hlen := congrArg List.length hsplit
        simp only [List.length_append, List.length_cons] at hlen hn
        omega
      obtain ⟨ws, hws, heq⟩ := ih rest.length hlt h rfl
      refine ⟨(x :: tail.takeWhile (!p ·)) :: ws, List.forall_mem_cons.mpr ⟨hword, hws⟩, ?_⟩
      cases ws with
      | nil => exact nomatch hrest.symm.trans heq
      | cons next ws => rw [joined_cons_cons, ← heq, List.cons_append, hsplit]

theorem joined_words_iff [DecidableEq α] (hsep : p sep = true) {text : List α} :
    joined sep (words p text) = text ↔ SingleSpaced p sep text := by
  constructor
  · intro h
    rw [← h]
    exact singleSpaced_joined hsep fun w hw => isWord_of_mem_words hw
  · intro h
    obtain ⟨ws, hws, rfl⟩ := exists_words hsep h
    rw [words_joined hsep hws]

end Words
