import Mathlib

/-! # Characters and texts

Character classes and text operations as the Unicode standard and the standard library of the
modelled language define them. -/

/-- The Unicode property `White_Space`. -/
def Char.isUnicodeWhitespace (c : Char) : Bool :=
  let n := c.toNat
  (9 ≤ n && n ≤ 13) || n == 0x20 || n == 0x85 || n == 0xA0 || n == 0x1680 ||
    (0x2000 ≤ n && n ≤ 0x200A) || n == 0x2028 || n == 0x2029 || n == 0x202F || n == 0x205F ||
    n == 0x3000

/-- The Unicode general category `Cc`. -/
def Char.isUnicodeControl (c : Char) : Bool :=
  let n := c.toNat
  n ≤ 0x1F || (0x7F ≤ n && n ≤ 0x9F)

namespace Text

/-- Whether trimming white space leaves nothing. -/
def trimIsEmpty (s : String) : Bool := s.toList.all Char.isUnicodeWhitespace

def hasChar (s : String) (c : Char) : Bool := s.toList.contains c

/-- The UTF-8 bytes of a text. -/
def utf8 (s : String) : List UInt8 := s.toUTF8.data.toList

/-- The text that some bytes encode. -/
def ofUtf8 (bytes : List UInt8) : Option String := String.fromUTF8? ⟨⟨bytes⟩⟩

@[simp] theorem ofUtf8_utf8 (s : String) : ofUtf8 (utf8 s) = some s := by
  show String.fromUTF8? s.toByteArray = some s
  simp only [String.fromUTF8?, s.isValidUTF8, ↓reduceDIte]
  rfl

theorem utf8_of_ofUtf8 (h : ofUtf8 bytes = some s) : utf8 s = bytes := by
  simp only [ofUtf8, String.fromUTF8?] at h
  split at h
  · cases h; rfl
  · cases h

@[simp] theorem length_utf8 (s : String) : (utf8 s).length = s.utf8ByteSize := rfl

theorem utf8_append (s t : String) : utf8 (s ++ t) = utf8 s ++ utf8 t := by
  simp [utf8]

theorem utf8_injective : Function.Injective utf8 := fun s t h =>
  Option.some.inj (by rw [← ofUtf8_utf8 s, h, ofUtf8_utf8])

def hexDigit (n : Nat) : Char := "0123456789abcdef".toList.getD n '0'

/-- Two lower case hexadecimal digits for each byte. -/
def hex (bytes : List UInt8) : String :=
  .ofList (bytes.flatMap fun b => [hexDigit (b.toNat / 16), hexDigit (b.toNat % 16)])

theorem hexDigit_inj (hn : n < 16) (hm : m < 16) (h : hexDigit n = hexDigit m) : n = m := by
  have hfin : ∀ i j : Fin 16, hexDigit i = hexDigit j → i = j := by decide
  exact congrArg Fin.val (hfin ⟨n, hn⟩ ⟨m, hm⟩ h)

theorem hex_injective : Function.Injective hex := by
  intro as bs h
  replace h := congrArg String.toList h
  simp only [hex, String.toList_ofList] at h
  induction as generalizing bs with
  | nil =>
    cases bs with
    | nil => rfl
    | cons b bs => simp at h
  | cons a as ih =>
    cases bs with
    | nil => simp at h
    | cons b bs =>
      simp only [List.flatMap_cons, List.cons_append, List.nil_append, List.cons.injEq] at h
      obtain ⟨hhi, hlo, hrest⟩ := h
      have ha := a.toNat_lt
      have hb := b.toNat_lt
      have hhi := hexDigit_inj (by omega) (by omega) hhi
      have hlo := hexDigit_inj (by omega) (by omega) hlo
      have hab : a = b := UInt8.toNat_inj.mp (by omega)
      rw [hab, ih hrest]

def asciiLower (b : UInt8) : UInt8 := if 65 ≤ b ∧ b ≤ 90 then b + 32 else b

def asciiUpper (b : UInt8) : UInt8 := if 97 ≤ b ∧ b ≤ 122 then b - 32 else b

/-- Whether the bytes of `pattern` occur in `bytes` without a gap. -/
def containsBytes (bytes pattern : List UInt8) : Bool :=
  bytes.tails.any (pattern.isPrefixOf ·)

/-- The text before and after the first occurrence of a separator. -/
def splitOnce (c : Char) : List Char → Option (List Char × List Char)
  | [] => none
  | d :: ds =>
    if d = c then some ([], ds) else (splitOnce c ds).map fun (a, b) => (d :: a, b)

theorem splitOnce_append {c : Char} {a b : List Char} (h : c ∉ a) :
    splitOnce c (a ++ c :: b) = some (a, b) := by
  induction a with
  | nil => simp [splitOnce]
  | cons d ds ih =>
    have hd : d ≠ c := fun e => h (e ▸ List.mem_cons_self)
    have := ih fun hc => h (List.mem_cons_of_mem _ hc)
    simp [splitOnce, hd, this]

theorem splitOnce_eq_none_iff {c : Char} {a : List Char} : splitOnce c a = none ↔ c ∉ a := by
  induction a with
  | nil => simp [splitOnce]
  | cons d ds ih =>
    simp only [splitOnce]
    split
    · rename_i hd; simp [hd]
    · rename_i hd; simp [ih, Ne.symm hd]

/-- A successful split puts the text back together. -/
theorem eq_of_splitOnce {c : Char} {l a b : List Char} (h : splitOnce c l = some (a, b)) :
    l = a ++ c :: b ∧ c ∉ a := by
  induction l generalizing a with
  | nil => cases h
  | cons d ds ih =>
    simp only [splitOnce] at h
    split at h
    · rename_i hd; cases h; simp [hd]
    · rename_i hd
      obtain ⟨⟨a', b'⟩, hs, he⟩ := Option.map_eq_some_iff.mp h
      cases he
      obtain ⟨rfl, hc⟩ := ih hs
      exact ⟨rfl, by simp [Ne.symm hd, hc]⟩

end Text
