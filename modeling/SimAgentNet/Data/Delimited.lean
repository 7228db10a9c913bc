import SimAgentNet.Data.Text

/-! # Self-delimiting texts

Texts of values that are written one after another. `Ends` says that the end of a text can be
told whatever follows it, `Whole` that a text determines its value when nothing follows. The
relation `R` says which values are to be told apart. -/

namespace Delimited
variable {α β : Type} {text : α → List Char} {R : α → α → Prop}

variable (text R) in
def Ends (a : α) : Prop := ∀ b r r', text a ++ r = text b ++ r' → R a b ∧ r = r'

variable (text R) in
def Whole (a : α) : Prop := ∀ b, text a = text b → R a b

theorem Ends.whole (h : Ends text R a) : Whole text R a := by
  intro b hb
  exact (h b [] [] (by simpa using hb)).1

/-- As many texts on both sides, each with an end, are the texts of related values. -/
theorem Ends.flatMap {as bs : List α} (h : ∀ a ∈ as, Ends text R a)
    (hlen : as.length = bs.length) (ht : as.flatMap text ++ r = bs.flatMap text ++ r') :
    List.Forall₂ R as bs ∧ r = r' := by
  induction as generalizing bs with
  | nil =>
    cases List.length_eq_zero_iff.mp hlen.symm
    exact ⟨.nil, ht⟩
  | cons a as ih =>
    cases bs with
    | nil => cases hlen
    | cons b bs =>
      rw [List.flatMap_cons, List.flatMap_cons, List.append_assoc, List.append_assoc] at ht
      obtain ⟨hab, ht⟩ := h a List.mem_cons_self b _ _ ht
      obtain ⟨has, hr⟩ := ih (fun a ha => h a (List.mem_cons_of_mem _ ha)) (Nat.succ.inj hlen) ht
      exact ⟨.cons hab has, hr⟩

/-- Only the last of the texts may lack an end. -/
theorem Whole.flatMap_concat {as bs : List α} (h : ∀ a ∈ as, Ends text R a)
    (hz : Whole text R z) (hlen : (as ++ [z]).length = bs.length)
    (ht : (as ++ [z]).flatMap text = bs.flatMap text) : List.Forall₂ R (as ++ [z]) bs := by
  induction as generalizing bs with
  | nil =>
    obtain ⟨b, rfl⟩ := List.length_eq_one_iff.mp hlen.symm
    exact .cons (hz b (by simpa using ht)) .nil
  | cons a as ih =>
    cases bs with
    | nil => cases hlen
    | cons b bs =>
      rw [List.cons_append, List.flatMap_cons, List.flatMap_cons] at ht
      obtain ⟨hab, ht⟩ := h a List.mem_cons_self b _ _ ht
      exact .cons hab (ih (fun a ha => h a (List.mem_cons_of_mem _ ha)) (Nat.succ.inj hlen) ht)

/-- Two texts with a separator between them: the end of the first is told by its own text. -/
theorem Ends.pair {text' : β → List Char} {S : β → β → Prop} {sep : List Char}
    (ha : Ends text R a) (hb : Ends text' S b) :
    Ends (fun p : α × β => text p.1 ++ sep ++ text' p.2) (fun p q => R p.1 q.1 ∧ S p.2 q.2)
      (a, b) := by
  intro q r r' h
  simp only [List.append_assoc] at h
  obtain ⟨h₁, h⟩ := ha q.1 _ _ h
  obtain ⟨h₂, h⟩ := hb q.2 _ _ (List.append_cancel_left h)
  exact ⟨⟨h₁, h₂⟩, h⟩

theorem Whole.pair {text' : β → List Char} {S : β → β → Prop} {sep : List Char}
    (ha : Ends text R a) (hb : Whole text' S b) :
    Whole (fun p : α × β => text p.1 ++ sep ++ text' p.2) (fun p q => R p.1 q.1 ∧ S p.2 q.2)
      (a, b) := by
  intro q h
  simp only [List.append_assoc] at h
  obtain ⟨h₁, h⟩ := ha q.1 _ _ h
  exact ⟨h₁, hb q.2 (List.append_cancel_left h)⟩

/-! ## Numbers and sized texts -/

/-- A text ends before the first character that it cannot have. -/
theorem append_stop_inj {p : α → Bool} {s t r r' : List α} {x y : α} (hs : ∀ a ∈ s, p a = true)
    (ht : ∀ a ∈ t, p a = true) (hx : ¬p x = true) (hy : ¬p y = true)
    (h : s ++ x :: r = t ++ y :: r') : s = t ∧ x :: r = y :: r' := by
  have htake {u v : List α} {z : α} (hu : ∀ a ∈ u, p a = true) (hz : ¬p z = true) :
      (u ++ z :: v).takeWhile p = u := by
    rw [List.takeWhile_append_of_pos hu, List.takeWhile_cons_of_neg hz, List.append_nil]
  have hst : s = t := by rw [← htake (v := r) hs hx, h, htake ht hy]
  rw [hst] at h
  exact ⟨hst, List.append_cancel_left h⟩

theorem isDigit_of_mem_toString {n : Nat} (h : c ∈ (toString n : String).toList) : c.isDigit := by
  have : (toString n : String).toList = Nat.toDigits 10 n := by simp [toString, Nat.repr]
  exact Nat.isDigit_of_mem_toDigits (by decide) (by decide) (this ▸ h)

/-- A number in front of a colon is read up to the colon. -/
theorem toString_colon_inj {n m : Nat} {r r' : List Char}
    (h : (toString n : String).toList ++ ':' :: r = (toString m : String).toList ++ ':' :: r') :
    n = m ∧ r = r' := by
  obtain ⟨hd, hr⟩ := append_stop_inj (fun c hc => isDigit_of_mem_toString hc)
    (fun c hc => isDigit_of_mem_toString hc) (by decide) (by decide) h
  have hvalue := congrArg (Nat.ofDigitChars 10 · 0) hd
  exact ⟨by simpa [toString, Nat.repr] using hvalue, (List.cons.inj hr).2⟩

/-- Of two texts of one size that start the same text, each is the other. -/
theorem append_inj_of_utf8ByteSize {s t : String} {r r' : List Char}
    (hsize : s.utf8ByteSize = t.utf8ByteSize) (h : s.toList ++ r = t.toList ++ r') :
    s = t ∧ r = r' := by
  have hs : s ++ .ofList r = t ++ .ofList r' := by
    apply String.ext
    simpa using h
  have hb := congrArg Text.utf8 hs
  rw [Text.utf8_append, Text.utf8_append] at hb
  have hst := Text.utf8_injective (List.append_inj_left hb (by simpa using hsize))
  exact ⟨hst, by simpa [hst] using h⟩

theorem exists_of_mem_toDigits {b n : Nat} (hb : 1 < b) (h : c ∈ Nat.toDigits b n) :
    ∃ k < b, c = k.digitChar := by
  induction n using Nat.strongRecOn with
  | ind n ih =>
    rw [Nat.toDigits_eq_if hb] at h
    split at h
    · exact ⟨n, ‹_›, List.mem_singleton.mp h⟩
    · rename_i hn
      obtain h | h := List.mem_append.mp h
      · exact ih (n / b) (Nat.div_lt_self (by omega) hb) h
      · exact ⟨n % b, Nat.mod_lt _ (by omega), List.mem_singleton.mp h⟩

theorem digitChar_injective {k m : Nat} (hk : k < 16) (hm : m < 16)
    (h : k.digitChar = m.digitChar) : k = m := by
  have hall : ∀ k < 16, ∀ m < 16, Nat.digitChar k = Nat.digitChar m → k = m := by decide
  exact hall k hk m hm h

theorem toDigits_injective {b n m : Nat} (hb : 1 < b) (hle : b ≤ 16)
    (h : Nat.toDigits b n = Nat.toDigits b m) : n = m := by
  induction n using Nat.strongRecOn generalizing m with
  | ind n ih =>
    rw [Nat.toDigits_eq_if (n := n) hb, Nat.toDigits_eq_if (n := m) hb] at h
    split at h
    · split at h
      · exact digitChar_injective (by omega) (by omega) (List.singleton_inj.mp h)
      · have hnil : Nat.toDigits b (m / b) = [] := by simpa using congrArg List.length h
        exact absurd hnil Nat.toDigits_ne_nil
    · split at h
      · have hnil : Nat.toDigits b (n / b) = [] := by simpa using congrArg List.length h
        exact absurd hnil Nat.toDigits_ne_nil
      · obtain ⟨hdiv, hmod⟩ := List.append_inj' h rfl
        have hdiv := ih (n / b) (Nat.div_lt_self (by omega) hb) hdiv
        have hmod := digitChar_injective ((Nat.mod_lt _ (by omega)).trans_le hle)
          ((Nat.mod_lt _ (by omega)).trans_le hle) (List.singleton_inj.mp hmod)
        rw [← Nat.div_add_mod n b, hdiv, hmod, Nat.div_add_mod]

/-- Digits up to a character that is none. -/
theorem toDigits_append_inj {b n m : Nat} {x y : Char} {r r' : List Char} (hb : 1 < b)
    (hle : b ≤ 16) (hx : ∀ k < 16, x ≠ Nat.digitChar k) (hy : ∀ k < 16, y ≠ Nat.digitChar k)
    (h : Nat.toDigits b n ++ x :: r = Nat.toDigits b m ++ y :: r') : n = m ∧ x :: r = y :: r' := by
  let p : Char → Bool := fun c => (List.range 16).any fun k => c == Nat.digitChar k
  have hdigit : ∀ k, ∀ c ∈ Nat.toDigits b k, p c = true := by
    intro k c hc
    obtain ⟨i, hi, rfl⟩ := exists_of_mem_toDigits hb hc
    exact List.any_eq_true.mpr ⟨i, List.mem_range.mpr (hi.trans_le hle), beq_self_eq_true _⟩
  have hstop : ∀ z : Char, (∀ i < 16, z ≠ Nat.digitChar i) → ¬p z = true := by
    intro z hz hp
    obtain ⟨i, hi, heq⟩ := List.any_eq_true.mp hp
    exact hz i (List.mem_range.mp hi) (beq_iff_eq.mp heq)
  obtain ⟨hd, hrest⟩ := append_stop_inj (hdigit n) (hdigit m) (hstop x hx) (hstop y hy) h
  exact ⟨toDigits_injective hb hle hd, hrest⟩

end Delimited
