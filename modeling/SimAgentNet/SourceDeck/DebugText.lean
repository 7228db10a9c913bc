import SimAgentNet.Data.Delimited
import SimAgentNet.SourceDeck.Build

/-! # Debugging texts

The debugging text of evidence and of a limitation determines it: each part ends itself or ends
before a character that it cannot have. -/

namespace SimAgentNet.SourceDecks
open Delimited

/-! ## Escaped texts -/

namespace DebugText

/-- The letter that stands for a character behind a backslash. -/
def short (c : Char) : Option Char :=
  if c = '\x00' then some '0'
  else if c = '\t' then some 't'
  else if c = '\r' then some 'r'
  else if c = '\n' then some 'n'
  else if c = '"' then some '"'
  else if c = '\\' then some '\\'
  else none

theorem short_cases (c : Char) :
    c = '\x00' ∧ short c = some '0' ∨ c = '\t' ∧ short c = some 't' ∨
      c = '\r' ∧ short c = some 'r' ∨ c = '\n' ∧ short c = some 'n' ∨
      c = '"' ∧ short c = some '"' ∨ c = '\\' ∧ short c = some '\\' ∨
      short c = none ∧ c ≠ '"' ∧ c ≠ '\\' := by
  unfold short
  split_ifs <;> simp_all

/-- The character that a letter stands for. -/
def long (m : Char) : Char :=
  if m = '0' then '\x00'
  else if m = 't' then '\t'
  else if m = 'r' then '\r'
  else if m = 'n' then '\n'
  else m

theorem short_spec (h : short c = some m) : long m = c ∧ m ≠ 'u' := by
  obtain ⟨rfl, hc⟩ | ⟨rfl, hc⟩ | ⟨rfl, hc⟩ | ⟨rfl, hc⟩ | ⟨rfl, hc⟩ | ⟨rfl, hc⟩ | ⟨hc, -⟩ :=
      short_cases c <;>
    rw [h] at hc <;> cases hc <;> decide

variable (d : DebugText)

/-- How a character is written. -/
theorem escape_cases (c : Char) :
    (∃ m, short c = some m ∧ d.escape c = ['\\', m]) ∨
      (c ≠ '"' ∧ c ≠ '\\' ∧ d.escape c = [c]) ∨
      d.escape c = ['\\', 'u', '\x7b'] ++ Nat.toDigits 16 c.toNat ++ ['\x7d'] := by
  unfold escape short
  split_ifs <;> simp_all

theorem escape_ends (c : Char) : Ends d.escape Eq c := by
  intro c' r r' h
  obtain ⟨m, hm, hc⟩ | ⟨-, hslash, hc⟩ | hc := d.escape_cases c
  · obtain ⟨m', hm', hc'⟩ | ⟨-, hslash', hc'⟩ | hc' := d.escape_cases c'
    · rw [hc, hc'] at h
      cases h
      exact ⟨(short_spec hm).1.symm.trans (short_spec hm').1, rfl⟩
    · rw [hc, hc'] at h
      exact absurd (List.cons.inj h).1.symm hslash'
    · rw [hc, hc'] at h
      exact absurd (List.cons.inj (List.cons.inj h).2).1 (short_spec hm).2
  · obtain ⟨m', hm', hc'⟩ | ⟨-, hslash', hc'⟩ | hc' := d.escape_cases c'
    · rw [hc, hc'] at h
      exact absurd (List.cons.inj h).1 hslash
    · rw [hc, hc'] at h
      exact List.cons.inj h
    · rw [hc, hc'] at h
      exact absurd (List.cons.inj h).1 hslash
  · obtain ⟨m', hm', hc'⟩ | ⟨-, hslash', hc'⟩ | hc' := d.escape_cases c'
    · rw [hc, hc'] at h
      exact absurd (List.cons.inj (List.cons.inj h).2).1.symm (short_spec hm').2
    · rw [hc, hc'] at h
      exact absurd (List.cons.inj h).1.symm hslash'
    · rw [hc, hc'] at h
      simp only [List.append_assoc, List.singleton_append] at h
      obtain ⟨hn, hr⟩ := toDigits_append_inj (by decide) (by decide) (by decide) (by decide)
        (List.append_cancel_left h)
      exact ⟨Char.toNat_inj.mp hn, (List.cons.inj hr).2⟩

/-- No escape begins with the quote that ends a string. -/
theorem escape_append_ne (c : Char) (r r' : List Char) : d.escape c ++ r ≠ '"' :: r' := by
  intro h
  obtain ⟨m, -, hc⟩ | ⟨hquote, -, hc⟩ | hc := d.escape_cases c
  · rw [hc] at h
    exact absurd (List.cons.inj h).1 (by decide)
  · rw [hc] at h
    exact hquote (List.cons.inj h).1
  · rw [hc] at h
    exact absurd (List.cons.inj h).1 (by decide)

theorem escaped_inj {s t r r' : List Char}
    (h : s.flatMap d.escape ++ '"' :: r = t.flatMap d.escape ++ '"' :: r') : s = t ∧ r = r' := by
  induction s generalizing t with
  | nil =>
    cases t with
    | nil => exact ⟨rfl, (List.cons.inj h).2⟩
    | cons c t =>
      rw [List.flatMap_cons, List.append_assoc] at h
      exact absurd h.symm (d.escape_append_ne c _ _)
  | cons c s ih =>
    cases t with
    | nil =>
      rw [List.flatMap_cons, List.append_assoc] at h
      exact absurd h (d.escape_append_ne c _ _)
    | cons c' t =>
      rw [List.flatMap_cons, List.flatMap_cons, List.append_assoc, List.append_assoc] at h
      obtain ⟨hc, hrest⟩ := d.escape_ends c c' _ _ h
      obtain ⟨hs, hr⟩ := ih hrest
      exact ⟨by rw [hc, hs], hr⟩

theorem string_ends (s : String) : Ends d.string Eq s := by
  intro t r r' h
  simp only [string, List.cons_append, List.append_assoc, List.nil_append] at h
  obtain ⟨hst, hr⟩ := d.escaped_inj (List.cons.inj h).2
  exact ⟨String.toList_injective hst, hr⟩

theorem option_none : d.option none = ['N', 'o', 'n', 'e'] := String.toList_ofList

theorem option_some (s : String) :
    d.option (some s) = ['S', 'o', 'm', 'e', '('] ++ d.string s ++ [')'] := by
  rw [show ['S', 'o', 'm', 'e', '('] = "Some(".toList from String.toList_ofList.symm]
  rfl

theorem option_ends (s : Option String) : Ends d.option Eq s := by
  intro t r r' h
  cases s with
  | none =>
    cases t with
    | none => exact ⟨rfl, List.append_cancel_left h⟩
    | some t =>
      rw [option_none, option_some] at h
      exact absurd (List.cons.inj h).1 (by decide)
  | some s =>
    cases t with
    | none =>
      rw [option_none, option_some] at h
      exact absurd (List.cons.inj h).1 (by decide)
    | some t =>
      simp only [option_some, List.append_assoc] at h
      obtain ⟨hst, hrest⟩ := d.string_ends s t _ _ (List.append_cancel_left h)
      exact ⟨congrArg some hst, List.append_cancel_left hrest⟩

/-! ## Numbers and bytes -/

/-- A character that ends a number. -/
def Stop (c : Char) : Prop := ∀ k < 16, c ≠ Nat.digitChar k

theorem nat_inj {n m : Nat} {r r' : List Char} (hx : Stop x) (hy : Stop y)
    (h : nat n ++ x :: r = nat m ++ y :: r') : n = m ∧ x :: r = y :: r' := by
  have hdigits (k : Nat) : nat k = Nat.toDigits 10 k := Nat.toList_repr
  rw [hdigits, hdigits] at h
  exact toDigits_append_inj (by decide) (by decide) hx hy h

/-- A number begins with a digit. -/
theorem nat_append_ne {n : Nat} {r r' : List Char} (hx : Stop x) : nat n ++ r ≠ x :: r' := by
  have hdigits : nat n = Nat.toDigits 10 n := Nat.toList_repr
  intro h
  obtain ⟨c, cs, hc⟩ := List.exists_cons_of_ne_nil (Nat.toDigits_ne_nil (b := 10) (n := n))
  obtain ⟨k, hk, hck⟩ := exists_of_mem_toDigits (by decide : 1 < 10) (hc ▸ List.mem_cons_self)
  rw [hdigits, hc] at h
  exact hx k (by omega) ((List.cons.inj h).1.symm.trans hck)

theorem stop_comma : Stop ',' := by unfold Stop; decide
theorem stop_blank : Stop ' ' := by unfold Stop; decide
theorem stop_bracket : Stop ']' := by unfold Stop; decide

/-- A number behind the one before it. -/
def item (b : UInt8) : List Char := ", ".toList ++ nat b.toNat

theorem items_stop (bs : List UInt8) (r : List Char) :
    ∃ x s, bs.flatMap item ++ ']' :: r = x :: s ∧ Stop x := by
  cases bs with
  | nil => exact ⟨']', r, rfl, stop_bracket⟩
  | cons b bs => exact ⟨',', _, rfl, stop_comma⟩

theorem items_inj {as bs : List UInt8} {r r' : List Char}
    (h : as.flatMap item ++ ']' :: r = bs.flatMap item ++ ']' :: r') : as = bs ∧ r = r' := by
  induction as generalizing bs with
  | nil =>
    cases bs with
    | nil => exact ⟨rfl, (List.cons.inj h).2⟩
    | cons b bs => exact absurd (List.cons.inj h).1 (by decide)
  | cons a as ih =>
    cases bs with
    | nil => exact absurd (List.cons.inj h).1 (by decide)
    | cons b bs =>
      obtain ⟨x, s, hs, hx⟩ := items_stop as r
      obtain ⟨y, t, ht, hy⟩ := items_stop bs r'
      rw [List.flatMap_cons, List.flatMap_cons, List.append_assoc, List.append_assoc, hs, ht, item,
        item, List.append_assoc, List.append_assoc] at h
      obtain ⟨hab, hrest⟩ := nat_inj hx hy (List.append_cancel_left h)
      obtain ⟨hasbs, hr⟩ := ih (by rw [hs, ht, hrest])
      exact ⟨by rw [UInt8.toNat_inj.mp hab, hasbs], hr⟩

theorem intercalate_map_cons (sep : List Char) (g : α → List Char) (a : α) (as : List α) :
    sep.intercalate ((a :: as).map g) = g a ++ as.flatMap fun a => sep ++ g a := by
  induction as generalizing a with
  | nil => simp [List.intercalate]
  | cons b as ih =>
    have := ih b
    simp only [List.intercalate, List.map_cons, List.intersperse_cons_cons, List.flatten_cons,
      List.flatMap_cons, List.append_assoc] at this ⊢
    rw [this]

theorem bytes_cons (b : UInt8) (bs : List UInt8) :
    bytes (b :: bs) = '[' :: (nat b.toNat ++ bs.flatMap item) ++ [']'] := by
  rw [bytes, intercalate_map_cons]
  rfl

theorem bytes_ends (bs : List UInt8) : Ends bytes Eq bs := by
  intro cs r r' h
  cases bs with
  | nil =>
    cases cs with
    | nil => exact ⟨rfl, List.append_cancel_left h⟩
    | cons c cs =>
      rw [bytes_cons] at h
      simp only [List.cons_append, List.append_assoc] at h
      exact absurd (List.cons.inj h).2.symm (nat_append_ne stop_bracket)
  | cons b bs =>
    cases cs with
    | nil =>
      rw [bytes_cons] at h
      simp only [List.cons_append, List.append_assoc] at h
      exact absurd (List.cons.inj h).2 (nat_append_ne stop_bracket)
    | cons c cs =>
      rw [bytes_cons, bytes_cons] at h
      simp only [List.cons_append, List.append_assoc, List.nil_append] at h
      obtain ⟨x, s, hs, hx⟩ := items_stop bs r
      obtain ⟨y, t, ht, hy⟩ := items_stop cs r'
      rw [hs, ht] at h
      obtain ⟨hbc, hrest⟩ := nat_inj hx hy (List.cons.inj h).2
      obtain ⟨hbs, hr⟩ := items_inj (hs.trans (hrest.trans ht.symm))
      exact ⟨by rw [UInt8.toNat_inj.mp hbc, hbs], hr⟩

/-! ## Evidence and limitations -/

theorem record_cons (name : String) (f : String × List Char) (fs : List (String × List Char)) :
    record name (f :: fs) = name.toList ++ (" \x7b ".toList ++ (f.1.toList ++ (": ".toList ++ (f.2 ++
      ((fs.flatMap fun f => ", ".toList ++ (f.1.toList ++ (": ".toList ++ f.2))) ++
        " \x7d".toList))))) := by
  rw [record, intercalate_map_cons]
  simp only [List.append_assoc]

/-- The text of a content id ends itself, as a derived one does. -/
def Lawful : Prop := ∀ id, Ends d.contentId Eq id

variable {d}

theorem anchor_inj {a b : IndexAnchor} (h : d.evidence (.anchor a) = d.evidence (.anchor b)) :
    a = b := by
  simp only [evidence, tuple, record_cons, List.flatMap_cons, List.flatMap_nil, List.append_assoc,
    List.append_nil, List.cons_append, List.append_cancel_left_eq, List.cons.injEq, true_and] at h
  obtain ⟨hid, h⟩ := d.string_ends _ _ _ _ h
  simp only [List.append_cancel_left_eq] at h
  obtain ⟨howner, h⟩ := d.string_ends _ _ _ _ h
  simp only [List.append_cancel_left_eq] at h
  obtain ⟨hpath, -⟩ := d.option_ends _ _ _ _ h
  cases a
  cases b
  simp_all

theorem excerpt_inj {a b : Excerpt} (h : d.evidence (.excerpt a) = d.evidence (.excerpt b)) :
    a = b := by
  simp only [evidence, tuple, record_cons, List.flatMap_cons, List.flatMap_nil, List.append_assoc,
    List.append_nil, List.cons_append, List.append_cancel_left_eq, List.cons.injEq, true_and] at h
  obtain ⟨hid, h⟩ := d.string_ends _ _ _ _ h
  simp only [List.append_cancel_left_eq] at h
  obtain ⟨howner, h⟩ := d.string_ends _ _ _ _ h
  simp only [List.append_cancel_left_eq] at h
  obtain ⟨hpath, h⟩ := d.string_ends _ _ _ _ h
  simp only [List.append_cancel_left_eq] at h
  obtain ⟨hstart, h⟩ := nat_inj stop_comma stop_comma h
  have h := @List.append_cancel_left _ ", ".toList _ _ h
  simp only [List.append_cancel_left_eq] at h
  obtain ⟨hend, h⟩ := nat_inj stop_comma stop_comma h
  have h := @List.append_cancel_left _ ", ".toList _ _ h
  simp only [List.append_cancel_left_eq] at h
  obtain ⟨hbytes, -⟩ := bytes_ends _ _ _ _ h
  cases a
  cases b
  simp_all

theorem specimen_inj (hd : d.Lawful) {a b : SpecimenPin}
    (h : d.evidence (.specimen a) = d.evidence (.specimen b)) : a = b := by
  simp only [evidence, tuple, record_cons, List.flatMap_cons, List.flatMap_nil, List.append_assoc,
    List.append_nil, List.cons_append, List.append_cancel_left_eq, List.cons.injEq, true_and] at h
  obtain ⟨hid, h⟩ := d.string_ends _ _ _ _ h
  simp only [List.append_cancel_left_eq] at h
  obtain ⟨howner, h⟩ := d.string_ends _ _ _ _ h
  simp only [List.append_cancel_left_eq] at h
  obtain ⟨hbytes, h⟩ := bytes_ends _ _ _ _ h
  simp only [List.append_cancel_left_eq, List.cons.injEq, true_and] at h
  obtain ⟨hcontent, -⟩ := hd _ _ _ _ h
  obtain ⟨_, _, _, ⟨_⟩⟩ := a
  obtain ⟨_, _, _, ⟨_⟩⟩ := b
  simp_all

theorem evidence_injective (hd : d.Lawful) : Function.Injective d.evidence := by
  intro a b h
  cases a with
  | anchor a =>
    cases b with
    | anchor b => rw [anchor_inj h]
    | excerpt b => exact absurd (List.cons.inj h).1 (by decide)
    | specimen b => exact absurd (List.cons.inj h).1 (by decide)
  | excerpt a =>
    cases b with
    | anchor b => exact absurd (List.cons.inj h).1 (by decide)
    | excerpt b => rw [excerpt_inj h]
    | specimen b => exact absurd (List.cons.inj h).1 (by decide)
  | specimen a =>
    cases b with
    | anchor b => exact absurd (List.cons.inj h).1 (by decide)
    | excerpt b => exact absurd (List.cons.inj h).1 (by decide)
    | specimen b => rw [specimen_inj hd h]

theorem limitation_injective : Function.Injective d.limitation := by
  intro a b h
  cases a with
  | syntaxBound language detail =>
    cases b with
    | syntaxBound language' detail' =>
      simp only [limitation, record_cons, List.flatMap_cons, List.flatMap_nil, List.append_assoc,
        List.append_nil, List.append_cancel_left_eq] at h
      obtain ⟨hlanguage, h⟩ := d.string_ends _ _ _ _ h
      simp only [List.append_cancel_left_eq] at h
      obtain ⟨hdetail, -⟩ := d.string_ends _ _ _ _ h
      rw [hlanguage, hdetail]
    | scannerEvidence scanner detail' =>
      exact absurd (List.cons.inj (List.cons.inj h).2).1 (by decide)
    | truncated subject available required => exact absurd (List.cons.inj h).1 (by decide)
  | scannerEvidence scanner detail =>
    cases b with
    | syntaxBound language detail' =>
      exact absurd (List.cons.inj (List.cons.inj h).2).1 (by decide)
    | scannerEvidence scanner' detail' =>
      simp only [limitation, record_cons, List.flatMap_cons, List.flatMap_nil, List.append_assoc,
        List.append_nil, List.append_cancel_left_eq] at h
      obtain ⟨hscanner, h⟩ := d.string_ends _ _ _ _ h
      simp only [List.append_cancel_left_eq] at h
      obtain ⟨hdetail, -⟩ := d.string_ends _ _ _ _ h
      rw [hscanner, hdetail]
    | truncated subject available required => exact absurd (List.cons.inj h).1 (by decide)
  | truncated subject available required =>
    cases b with
    | syntaxBound language detail' => exact absurd (List.cons.inj h).1 (by decide)
    | scannerEvidence scanner detail' => exact absurd (List.cons.inj h).1 (by decide)
    | truncated subject' available' required' =>
      simp only [limitation, record_cons, List.flatMap_cons, List.flatMap_nil, List.append_assoc,
        List.append_nil, List.append_cancel_left_eq] at h
      obtain ⟨hsubject, h⟩ := d.string_ends _ _ _ _ h
      simp only [List.append_cancel_left_eq] at h
      obtain ⟨havailable, h⟩ := nat_inj stop_comma stop_comma h
      have h := @List.append_cancel_left _ ", ".toList _ _ h
      simp only [List.append_cancel_left_eq] at h
      obtain ⟨hrequired, -⟩ := nat_inj stop_blank stop_blank h
      rw [hsubject, havailable, hrequired]

end DebugText

end SimAgentNet.SourceDecks
