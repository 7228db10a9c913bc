import SimAgentNet.OpenaiServer.Http

/-! # The text of a JSON value

The compact text of a value determines the value, and no part of the text that follows a colon is
itself the text of a value. -/

namespace SimAgentNet.OpenaiServer.Json

def isNumberChar (c : Char) : Bool :=
  c.isDigit || c == '-' || c == '+' || c == '.' || c == 'e' || c == 'E'

mutual
/-- The numbers of the value are written as numbers. -/
def Numeric : Json → Prop
  | .number text => text.toList ≠ [] ∧ ∀ c ∈ text.toList, isNumberChar c = true
  | .array vs => NumericItems vs
  | .object fields => NumericFields fields
  | _ => True
termination_by structural json => json

def NumericItems : List Json → Prop
  | [] => True
  | v :: vs => v.Numeric ∧ NumericItems vs
termination_by structural vs => vs

def NumericFields : List (String × Json) → Prop
  | [] => True
  | (_, v) :: fields => v.Numeric ∧ NumericFields fields
termination_by structural fields => fields
end

/-! ## Strings -/

/-- A character of a string literal. -/
def escapeChar (c : Char) : List Char :=
  if c = '"' then ['\\', '"']
  else if c = '\\' then ['\\', '\\']
  else if c = '\x08' then ['\\', 'b']
  else if c = '\x0c' then ['\\', 'f']
  else if c = '\n' then ['\\', 'n']
  else if c = '\r' then ['\\', 'r']
  else if c = '\t' then ['\\', 't']
  else if c.toNat < 32 then
    ['\\', 'u', '0', '0', Text.hexDigit (c.toNat / 16), Text.hexDigit (c.toNat % 16)]
  else [c]

def stringText (s : String) : List Char := '"' :: (s.toList.flatMap escapeChar ++ ['"'])

/-- The start of a character in a string literal: no quote, and a backslash only for an escape. -/
theorem escapeChar_cons (c : Char) :
    (escapeChar c = [c] ∧ c ≠ '"' ∧ c ≠ '\\') ∨
      ∃ d ds, escapeChar c = '\\' :: d :: ds ∧ ∀ e ∈ ds, e ≠ '"' ∧ e ≠ '\\' := by
  unfold escapeChar
  have hhex : ∀ n, Text.hexDigit n ≠ '"' ∧ Text.hexDigit n ≠ '\\' := by
    intro n
    have hmem : Text.hexDigit n ∈ '0' :: "0123456789abcdef".toList := by
      unfold Text.hexDigit
      rw [List.getD_eq_getElem?_getD]
      cases h : "0123456789abcdef".toList[n]? with
      | none => exact List.mem_cons_self
      | some d => exact List.mem_cons_of_mem _ (List.mem_of_getElem? h)
    revert hmem
    generalize Text.hexDigit n = d
    intro hmem
    constructor
    · rintro rfl
      exact absurd hmem (by decide)
    · rintro rfl
      exact absurd hmem (by decide)
  split_ifs with h₁ h₂ h₃ h₄ h₅ h₆ h₇ h₈
  all_goals first
    | exact .inr ⟨_, _, rfl, by simp [hhex]⟩
    | exact .inl ⟨rfl, h₁, h₂⟩

/-- The characters that are escaped. -/
def escaped : List Char := '"' :: '\\' :: (List.range 32).map Char.ofNat

theorem escapeChar_of_not_mem {c : Char} (h : c ∉ escaped) : escapeChar c = [c] := by
  have hquote : c ≠ '"' := fun hc => h (hc ▸ List.mem_cons_self)
  have hslash : c ≠ '\\' := fun hc => h (hc ▸ List.mem_cons_of_mem _ List.mem_cons_self)
  have hlow : ¬c.toNat < 32 := by
    intro hc
    refine h (List.mem_cons_of_mem _ (List.mem_cons_of_mem _ (List.mem_map.mpr ⟨c.toNat, ?_, ?_⟩)))
    · exact List.mem_range.mpr hc
    · exact Char.ofNat_toNat c
  have hne : ∀ d : Char, d.toNat < 32 → c ≠ d := fun d hd hc => hlow (hc ▸ hd)
  unfold escapeChar
  rw [if_neg hquote, if_neg hslash, if_neg (hne _ (by decide)), if_neg (hne _ (by decide)),
    if_neg (hne _ (by decide)), if_neg (hne _ (by decide)), if_neg (hne _ (by decide)), if_neg hlow]

theorem escaped_prefix : ∀ c ∈ escaped, ∀ d ∈ escaped,
    (escapeChar c).isPrefixOf (escapeChar d) = true → c = d := by
  have hall : escaped.all (fun c => escaped.all fun d =>
      !(escapeChar c).isPrefixOf (escapeChar d) || c == d) = true := by decide +kernel
  simpa [List.all_eq_true, or_iff_not_imp_left] using hall

/-- Two characters of string literals at the start of one text are the same. -/
theorem escapeChar_append_inj {c d : Char} {r r' : List Char}
    (h : escapeChar c ++ r = escapeChar d ++ r') : c = d ∧ r = r' := by
  have hcd : c = d := by
    by_cases hc : c ∈ escaped
    · by_cases hd : d ∈ escaped
      · have hpc : escapeChar c <+: escapeChar d ++ r' := h ▸ List.prefix_append _ _
        rcases List.prefix_or_prefix_of_prefix hpc (List.prefix_append _ _) with hp | hp
        · exact escaped_prefix c hc d hd (List.isPrefixOf_iff_prefix.mpr hp)
        · exact ( escaped_prefix d hd c hc (List.isPrefixOf_iff_prefix.mpr hp)).symm
      · rw [escapeChar_of_not_mem hd] at h
        rcases escapeChar_cons c with ⟨hplain, -⟩ | ⟨e, es, hesc, -⟩
        · rw [hplain] at h
          exact (List.cons.inj h).1
        · rw [hesc] at h
          cases (List.cons.inj h).1
          exact absurd (by decide) hd
    · rw [escapeChar_of_not_mem hc] at h
      rcases escapeChar_cons d with ⟨hplain, -⟩ | ⟨e, es, hesc, -⟩
      · rw [hplain] at h
        exact (List.cons.inj h).1
      · rw [hesc] at h
        cases (List.cons.inj h).1
        exact absurd (by decide) hc
  subst hcd
  exact ⟨rfl, List.append_cancel_left h⟩

theorem quote_not_head {c : Char} {r r' : List Char} (h : '"' :: r = escapeChar c ++ r') :
    False := by
  rcases escapeChar_cons c with ⟨hplain, hquote, -⟩ | ⟨d, ds, hesc, -⟩
  · rw [hplain] at h
    exact hquote (List.cons.inj h).1.symm
  · rw [hesc] at h
    cases (List.cons.inj h).1

theorem escaped_body_inj {s t r r' : List Char}
    (h : s.flatMap escapeChar ++ '"' :: r = t.flatMap escapeChar ++ '"' :: r') :
    s = t ∧ r = r' := by
  induction s generalizing t with
  | nil =>
    cases t with
    | nil => exact ⟨rfl, (List.cons.inj h).2⟩
    | cons d t =>
      rw [List.flatMap_cons, List.append_assoc] at h
      exact (quote_not_head h).elim
  | cons c s ih =>
    cases t with
    | nil =>
      rw [List.flatMap_cons, List.append_assoc] at h
      exact (quote_not_head h.symm).elim
    | cons d t =>
      rw [List.flatMap_cons, List.flatMap_cons, List.append_assoc, List.append_assoc] at h
      obtain ⟨rfl, hrest⟩ := escapeChar_append_inj h
      obtain ⟨rfl, hr⟩ := ih hrest
      exact ⟨rfl, hr⟩

theorem stringText_append_inj {s t : String} {r r' : List Char}
    (h : stringText s ++ r = stringText t ++ r') : s = t ∧ r = r' := by
  simp only [stringText, List.cons_append, List.append_assoc, List.nil_append] at h
  obtain ⟨hst, hr⟩ := escaped_body_inj (List.cons.inj h).2
  exact ⟨String.toList_inj.mp hst, hr⟩

/-! ## Values -/

mutual
/-- The compact text of a value. -/
def text : Json → List Char
  | .null => "null".toList
  | .bool true => "true".toList
  | .bool false => "false".toList
  | .number text => text.toList
  | .string v => stringText v
  | .array [] => "[]".toList
  | .array (v :: vs) => '[' :: (text v ++ itemsText vs)
  | .object [] => "\x7b\x7d".toList
  | .object ((name, v) :: fields) =>
    '{' :: (stringText name ++ ':' :: (text v ++ fieldsText fields))
termination_by structural json => json

/-- The items after the first, and the end of the array. -/
def itemsText : List Json → List Char
  | [] => [']']
  | v :: vs => ',' :: (text v ++ itemsText vs)
termination_by structural vs => vs

def fieldsText : List (String × Json) → List Char
  | [] => ['}']
  | (name, v) :: fields => ',' :: (stringText name ++ ':' :: (text v ++ fieldsText fields))
termination_by structural fields => fields
end

/-- What follows does not continue a number. -/
def Stops : List Char → Prop
  | [] => True
  | c :: _ => isNumberChar c = false

/-- Which constructor a text starts. -/
def startKind (c : Char) : Nat :=
  if c = 'n' then 0 else if c = 't' then 1 else if c = 'f' then 2 else if c = '"' then 3
  else if c = '[' then 4 else if c = '{' then 5 else if isNumberChar c then 6 else 7

def kind : Json → Nat
  | .null => 0
  | .bool true => 1
  | .bool false => 2
  | .string _ => 3
  | .array _ => 4
  | .object _ => 5
  | .number _ => 6

theorem startKind_number {c : Char} (h : isNumberChar c = true) : startKind c = 6 := by
  have hne : ∀ d : Char, isNumberChar d = false → c ≠ d := by
    rintro d hd rfl
    rw [h] at hd
    cases hd
  unfold startKind
  rw [if_neg (hne _ (by decide)), if_neg (hne _ (by decide)), if_neg (hne _ (by decide)),
    if_neg (hne _ (by decide)), if_neg (hne _ (by decide)), if_neg (hne _ (by decide)), if_pos h]

theorem text_eq_cons {json : Json} (h : json.Numeric) :
    ∃ c rest, json.text = c :: rest ∧ startKind c = json.kind := by
  match json with
  | .null => exact ⟨'n', _, rfl, rfl⟩
  | .bool true => exact ⟨'t', _, rfl, rfl⟩
  | .bool false => exact ⟨'f', _, rfl, rfl⟩
  | .number text =>
    obtain ⟨hne, hall⟩ := h
    cases ht : text.toList with
    | nil => exact absurd ht hne
    | cons c rest =>
      rw [Json.text]
      exact ⟨c, rest, ht, startKind_number (hall c (ht ▸ List.mem_cons_self))⟩
  | .string v => exact ⟨'"', _, by rw [Json.text]; rfl, rfl⟩
  | .array [] => exact ⟨'[', _, by rw [Json.text]; rfl, rfl⟩
  | .array (v :: vs) => exact ⟨'[', _, by rw [Json.text], rfl⟩
  | .object [] => exact ⟨'{', _, by rw [Json.text]; rfl, rfl⟩
  | .object ((name, v) :: fields) => exact ⟨'{', _, by rw [Json.text], rfl⟩

theorem kind_eq_of_text {json json' : Json} {r r' : List Char} (hn : json.Numeric)
    (hn' : json'.Numeric) (h : json.text ++ r = json'.text ++ r') : json.kind = json'.kind := by
  obtain ⟨c, rest, ht, hc⟩ := text_eq_cons hn
  obtain ⟨c', rest', ht', hc'⟩ := text_eq_cons hn'
  rw [ht, ht'] at h
  rw [← hc, ← hc', (List.cons.inj h).1]

theorem number_append_inj {s t r r' : List Char} (hs : ∀ c ∈ s, isNumberChar c = true)
    (ht : ∀ c ∈ t, isNumberChar c = true) (hr : Stops r) (hr' : Stops r')
    (h : s ++ r = t ++ r') : s = t ∧ r = r' := by
  have htake : ∀ {s r : List Char}, (∀ c ∈ s, isNumberChar c = true) → Stops r →
      (s ++ r).takeWhile isNumberChar = s := by
    intro s r hs hr
    rw [List.takeWhile_append_of_pos hs]
    cases r with
    | nil => simp
    | cons c r => rw [List.takeWhile_cons_of_neg (by rw [hr]; decide), List.append_nil]
  have hst : s = t := by rw [← htake hs hr, h, htake ht hr']
  subst hst
  exact ⟨rfl, List.append_cancel_left h⟩

theorem stops_items (vs : List Json) (r : List Char) : Stops (itemsText vs ++ r) := by
  cases vs with
  | nil => rw [itemsText]; exact rfl
  | cons v vs => rw [itemsText]; exact rfl

theorem stops_fields (fields : List (String × Json)) (r : List Char) :
    Stops (fieldsText fields ++ r) := by
  cases fields with
  | nil => rw [fieldsText]; exact rfl
  | cons field fields => rw [fieldsText]; exact rfl

/-- No text of a value starts with the end of an array. -/
theorem text_ne_close {json : Json} {r r' : List Char} (h : json.Numeric) :
    ']' :: r ≠ json.text ++ r' := by
  intro heq
  obtain ⟨c, rest, ht, hc⟩ := text_eq_cons h
  rw [ht] at heq
  obtain ⟨rfl, -⟩ := List.cons.inj heq
  have hkind : json.kind = 7 := hc.symm.trans (by decide)
  match json with
  | .bool true => cases hkind
  | .bool false => cases hkind

mutual
/-- The text of a value ends where a number cannot be continued. -/
theorem text_append_inj : ∀ {json json' : Json} {r r' : List Char}, json.Numeric → json'.Numeric →
    Stops r → Stops r' → json.text ++ r = json'.text ++ r' → json = json' ∧ r = r'
  | json, json', r, r', hn, hn', hr, hr', h => by
    have hkind := kind_eq_of_text hn hn' h
    match json, json' with
    | .null, .null => exact ⟨rfl, List.append_cancel_left h⟩
    | .bool true, .bool true => exact ⟨rfl, List.append_cancel_left h⟩
    | .bool false, .bool false => exact ⟨rfl, List.append_cancel_left h⟩
    | .number text, .number text' =>
      rw [Json.text, Json.text] at h
      obtain ⟨ht, hrest⟩ := number_append_inj hn.2 hn'.2 hr hr' h
      exact ⟨by rw [String.toList_inj.mp ht], hrest⟩
    | .string v, .string v' =>
      rw [Json.text, Json.text] at h
      obtain ⟨rfl, hrest⟩ := stringText_append_inj h
      exact ⟨rfl, hrest⟩
    | .array [], .array [] => exact ⟨rfl, List.append_cancel_left h⟩
    | .array [], .array (v' :: vs') =>
      rw [Json.text, Json.text, List.cons_append, List.append_assoc] at h
      exact absurd (List.cons.inj h).2 (text_ne_close hn'.1)
    | .array (v :: vs), .array [] =>
      rw [Json.text, Json.text, List.cons_append, List.append_assoc] at h
      exact absurd (List.cons.inj h).2.symm (text_ne_close hn.1)
    | .array (v :: vs), .array (v' :: vs') =>
      rw [Json.text, Json.text, List.cons_append, List.cons_append, List.append_assoc,
        List.append_assoc] at h
      obtain ⟨rfl, hvs⟩ := text_append_inj hn.1 hn'.1 (stops_items vs r) (stops_items vs' r')
        (List.cons.inj h).2
      obtain ⟨rfl, hrest⟩ := items_append_inj hn.2 hn'.2 hvs
      exact ⟨rfl, hrest⟩
    | .object [], .object [] => exact ⟨rfl, List.append_cancel_left h⟩
    | .object [], .object ((name', v') :: fields') =>
      rw [Json.text, Json.text, List.cons_append] at h
      cases (List.cons.inj (List.cons.inj h).2).1
    | .object ((name, v) :: fields), .object [] =>
      rw [Json.text, Json.text, List.cons_append] at h
      cases (List.cons.inj (List.cons.inj h).2).1
    | .object ((name, v) :: fields), .object ((name', v') :: fields') =>
      rw [Json.text, Json.text, List.cons_append, List.cons_append, List.append_assoc,
        List.append_assoc] at h
      obtain ⟨rfl, hv⟩ := stringText_append_inj (List.cons.inj h).2
      rw [List.cons_append, List.cons_append, List.append_assoc, List.append_assoc] at hv
      obtain ⟨rfl, hfields⟩ := text_append_inj hn.1 hn'.1 (stops_fields fields r)
        (stops_fields fields' r') (List.cons.inj hv).2
      obtain ⟨rfl, hrest⟩ := fields_append_inj hn.2 hn'.2 hfields
      exact ⟨rfl, hrest⟩

theorem items_append_inj : ∀ {vs vs' : List Json} {r r' : List Char}, NumericItems vs →
    NumericItems vs' → itemsText vs ++ r = itemsText vs' ++ r' → vs = vs' ∧ r = r'
  | [], [], r, r', _, _, h => ⟨rfl, List.append_cancel_left h⟩
  | [], v' :: vs', r, r', _, _, h => by
    rw [itemsText, itemsText, List.cons_append] at h
    cases (List.cons.inj h).1
  | v :: vs, [], r, r', _, _, h => by
    rw [itemsText, itemsText, List.cons_append] at h
    cases (List.cons.inj h).1
  | v :: vs, v' :: vs', r, r', hn, hn', h => by
    rw [itemsText, itemsText, List.cons_append, List.cons_append, List.append_assoc,
      List.append_assoc] at h
    obtain ⟨rfl, hvs⟩ := text_append_inj hn.1 hn'.1 (stops_items vs r) (stops_items vs' r')
      (List.cons.inj h).2
    obtain ⟨rfl, hrest⟩ := items_append_inj hn.2 hn'.2 hvs
    exact ⟨rfl, hrest⟩

theorem fields_append_inj : ∀ {fields fields' : List (String × Json)} {r r' : List Char},
    NumericFields fields → NumericFields fields' →
    fieldsText fields ++ r = fieldsText fields' ++ r' → fields = fields' ∧ r = r'
  | [], [], r, r', _, _, h => ⟨rfl, List.append_cancel_left h⟩
  | [], (name', v') :: fields', r, r', _, _, h => by
    rw [fieldsText, fieldsText, List.cons_append] at h
    cases (List.cons.inj h).1
  | (name, v) :: fields, [], r, r', _, _, h => by
    rw [fieldsText, fieldsText, List.cons_append] at h
    cases (List.cons.inj h).1
  | (name, v) :: fields, (name', v') :: fields', r, r', hn, hn', h => by
    rw [fieldsText, fieldsText, List.cons_append, List.cons_append, List.append_assoc,
      List.append_assoc] at h
    obtain ⟨rfl, hv⟩ := stringText_append_inj (List.cons.inj h).2
    rw [List.cons_append, List.cons_append, List.append_assoc, List.append_assoc] at hv
    obtain ⟨rfl, hfields⟩ := text_append_inj hn.1 hn'.1 (stops_fields fields r)
      (stops_fields fields' r') (List.cons.inj hv).2
    obtain ⟨rfl, hrest⟩ := fields_append_inj hn.2 hn'.2 hfields
    exact ⟨rfl, hrest⟩
end

/-- The text of a value determines it. -/
theorem text_inj {json json' : Json} (hn : json.Numeric) (hn' : json'.Numeric)
    (h : json.text = json'.text) : json = json' :=
  (@text_append_inj json json' [] [] hn hn' trivial trivial (by rw [h])).1

/-! ## Parts of a text -/

/-- Where a reader of a text stands: outside of string literals, in one, or after its backslash. -/
inductive Place where
  | outside
  | inside
  | escape
deriving DecidableEq

/-- Reads a character, given how many arrays and objects are open. Outside of string literals there
is no backslash, and a colon stands in an object. -/
def scanChar (c : Char) : Nat × Place → Option (Nat × Place)
  | (depth, .outside) =>
    if c = '"' then some (depth, .inside)
    else if c = '[' ∨ c = '{' then some (depth + 1, .outside)
    else if c = ']' ∨ c = '}' then some (depth - 1, .outside)
    else if c = '\\' ∨ c = ':' ∧ depth = 0 then none
    else some (depth, .outside)
  | (depth, .inside) =>
    if c = '"' then some (depth, .outside)
    else if c = '\\' then some (depth, .escape)
    else some (depth, .inside)
  | (depth, .escape) => some (depth, .inside)

def scan (cs : List Char) (start : Nat × Place) : Option (Nat × Place) :=
  cs.foldlM (fun place c => scanChar c place) start

theorem scan_cons (c : Char) (cs : List Char) (start : Nat × Place) :
    scan (c :: cs) start = (scanChar c start).bind (scan cs) := rfl

theorem scan_append (cs ds : List Char) (start : Nat × Place) :
    scan (cs ++ ds) start = (scan cs start).bind (scan ds) := List.foldlM_append

theorem scan_plain {cs : List Char} (h : ∀ c ∈ cs, c ≠ '"' ∧ c ≠ '\\') :
    scan cs (depth, .inside) = some (depth, .inside) := by
  induction cs with
  | nil => rfl
  | cons c cs ih =>
    obtain ⟨hquote, hslash⟩ := h c List.mem_cons_self
    rw [scan_cons, scanChar, if_neg hquote, if_neg hslash, Option.bind_some]
    exact ih fun d hd => h d (List.mem_cons_of_mem _ hd)

theorem scan_escapeChar (c : Char) (depth : Nat) :
    scan (escapeChar c) (depth, .inside) = some (depth, .inside) := by
  rcases escapeChar_cons c with ⟨hplain, hquote, hslash⟩ | ⟨d, ds, hesc, hplain⟩
  · rw [hplain]
    exact scan_plain fun d hd => List.mem_singleton.mp hd ▸ ⟨hquote, hslash⟩
  · rw [hesc, scan_cons]
    show scan (d :: ds) (depth, .escape) = _
    rw [scan_cons]
    exact scan_plain hplain

theorem scan_body (cs : List Char) (depth : Nat) :
    scan (cs.flatMap escapeChar) (depth, .inside) = some (depth, .inside) := by
  induction cs with
  | nil => rfl
  | cons c cs ih => rw [List.flatMap_cons, scan_append, scan_escapeChar, Option.bind_some, ih]

theorem scan_stringText (s : String) (depth : Nat) :
    scan (stringText s) (depth, .outside) = some (depth, .outside) := by
  rw [stringText, scan_cons]
  show scan _ (depth, .inside) = _
  rw [scan_append, scan_body]
  rfl

theorem scan_number {cs : List Char} (h : ∀ c ∈ cs, isNumberChar c = true) (depth : Nat) :
    scan cs (depth, .outside) = some (depth, .outside) := by
  induction cs with
  | nil => rfl
  | cons c cs ih =>
    have hne : ∀ d : Char, isNumberChar d = false → c ≠ d := by
      rintro d hd rfl
      rw [h c List.mem_cons_self] at hd
      cases hd
    have hstep : scanChar c (depth, .outside) = some (depth, .outside) := by
      simp [scanChar, hne '"' (by decide), hne '[' (by decide), hne '{' (by decide),
        hne ']' (by decide), hne '}' (by decide), hne '\\' (by decide), hne ':' (by decide)]
    rw [scan_cons, hstep, Option.bind_some]
    exact ih fun d hd => h d (List.mem_cons_of_mem _ hd)

mutual
/-- Reading the text of a value ends where it started. -/
theorem scan_text : ∀ {json : Json} (depth : Nat), json.Numeric →
    scan json.text (depth, .outside) = some (depth, .outside)
  | .null, depth, _ => rfl
  | .bool true, depth, _ => rfl
  | .bool false, depth, _ => rfl
  | .number text, depth, h => by rw [Json.text]; exact scan_number h.2 depth
  | .string v, depth, _ => by rw [Json.text]; exact scan_stringText v depth
  | .array [], depth, _ => rfl
  | .array (v :: vs), depth, h => by
    rw [Json.text, scan_cons]
    show scan _ (depth + 1, .outside) = _
    rw [scan_append, scan_text (depth + 1) h.1, Option.bind_some, scan_items depth h.2]
  | .object [], depth, _ => rfl
  | .object ((name, v) :: fields), depth, h => by
    rw [Json.text, scan_cons]
    show scan _ (depth + 1, .outside) = _
    rw [scan_append, scan_stringText, Option.bind_some, scan_cons]
    show scan _ (depth + 1, .outside) = _
    rw [scan_append, scan_text (depth + 1) h.1, Option.bind_some, scan_fields depth h.2]

theorem scan_items : ∀ {vs : List Json} (depth : Nat), NumericItems vs →
    scan (itemsText vs) (depth + 1, .outside) = some (depth, .outside)
  | [], depth, _ => rfl
  | v :: vs, depth, h => by
    rw [itemsText, scan_cons]
    show scan _ (depth + 1, .outside) = _
    rw [scan_append, scan_text (depth + 1) h.1, Option.bind_some, scan_items depth h.2]

theorem scan_fields : ∀ {fields : List (String × Json)} (depth : Nat), NumericFields fields →
    scan (fieldsText fields) (depth + 1, .outside) = some (depth, .outside)
  | [], depth, _ => rfl
  | (name, v) :: fields, depth, h => by
    rw [fieldsText, scan_cons]
    show scan _ (depth + 1, .outside) = _
    rw [scan_append, scan_stringText, Option.bind_some, scan_cons]
    show scan _ (depth + 1, .outside) = _
    rw [scan_append, scan_text (depth + 1) h.1, Option.bind_some, scan_fields depth h.2]
end

/-- One reader is in a string literal, the other outside of them. -/
def Opposite (p q : Nat × Place) : Prop :=
  p.2 = .outside ∧ q.2 = .inside ∨ p.2 = .inside ∧ q.2 = .outside

/-- Readers in opposite places stay so: one of them refuses a backslash, and a quote moves both. -/
theorem scanChar_opposite {p q p' q' : Nat × Place} (hpq : Opposite p q)
    (hp : scanChar c p = some p') (hq : scanChar c q = some q') : Opposite p' q' := by
  obtain ⟨depth, place⟩ := p
  obtain ⟨depth', place'⟩ := q
  by_cases hquote : c = '"'
  · subst hquote
    rcases hpq with ⟨rfl, rfl⟩ | ⟨rfl, rfl⟩
    · cases hp
      cases hq
      exact .inr ⟨rfl, rfl⟩
    · cases hp
      cases hq
      exact .inl ⟨rfl, rfl⟩
  · have houtside : ∀ {d} {r : Nat × Place}, scanChar c (d, .outside) = some r →
        c ≠ '\\' ∧ r.2 = .outside := by
      intro d r h
      rw [scanChar, if_neg hquote] at h
      split_ifs at h with h₁ h₂ h₃
      · cases h
        exact ⟨by rintro rfl; revert h₁; decide, rfl⟩
      · cases h
        exact ⟨by rintro rfl; revert h₂; decide, rfl⟩
      · cases h
        exact ⟨fun hc => h₃ (.inl hc), rfl⟩
    have hinside : ∀ {d} {r : Nat × Place}, c ≠ '\\' → scanChar c (d, .inside) = some r →
        r.2 = .inside := by
      intro d r hslash h
      rw [scanChar, if_neg hquote, if_neg hslash] at h
      cases h
      rfl
    rcases hpq with ⟨rfl, rfl⟩ | ⟨rfl, rfl⟩
    · obtain ⟨hslash, hp'⟩ := houtside hp
      exact .inl ⟨hp', hinside hslash hq⟩
    · obtain ⟨hslash, hq'⟩ := houtside hq
      exact .inr ⟨hinside hslash hp, hq'⟩

theorem scan_opposite {cs : List Char} {p q p' q' : Nat × Place} (hpq : Opposite p q)
    (hp : scan cs p = some p') (hq : scan cs q = some q') : Opposite p' q' := by
  induction cs generalizing p q with
  | nil =>
    cases hp
    cases hq
    exact hpq
  | cons c cs ih =>
    rw [scan_cons, Option.bind_eq_some_iff] at hp hq
    obtain ⟨p₁, hp₁, hp⟩ := hp
    obtain ⟨q₁, hq₁, hq⟩ := hq
    exact ih (scanChar_opposite hpq hp₁ hq₁) hp hq

/-- No text of a value follows a colon in the text of a value. -/
theorem text_ne_append_colon {json json' : Json} (hn : json.Numeric) (hn' : json'.Numeric)
    (cs : List Char) : json.text ≠ cs ++ ':' :: json'.text := by
  intro h
  have hwhole := scan_text 0 hn
  rw [h, scan_append, Option.bind_eq_some_iff] at hwhole
  obtain ⟨⟨depth, place⟩, -, hrest⟩ := hwhole
  rw [scan_cons, Option.bind_eq_some_iff] at hrest
  obtain ⟨start, hcolon, hrest⟩ := hrest
  have hinside : start.2 = .inside → False := by
    intro hstart
    have hopposite := scan_opposite (.inl ⟨rfl, hstart⟩) (scan_text 0 hn') hrest
    rcases hopposite with ⟨-, hi⟩ | ⟨ho, -⟩
    · cases hi
    · cases ho
  cases place with
  | outside =>
    -- the colon stands in an object that is still open at the end of the text
    cases depth with
    | zero => cases hcolon
    | succ depth =>
      cases hcolon
      rw [scan_text (depth + 1) hn'] at hrest
      cases hrest
  | inside =>
    cases hcolon
    exact hinside rfl
  | escape =>
    cases hcolon
    exact hinside rfl

/-- A name, a colon and the text of a value determine the name and the value. -/
theorem colon_text_inj {name name' : List Char} {json json' : Json} (hn : json.Numeric)
    (hn' : json'.Numeric) (h : name ++ ':' :: json.text = name' ++ ':' :: json'.text) :
    name = name' ∧ json = json' := by
  rcases List.append_eq_append_iff.mp h with ⟨cs, rfl, hcs⟩ | ⟨cs, rfl, hcs⟩
  · cases cs with
    | nil => exact ⟨(List.append_nil name).symm, text_inj hn hn' (List.cons.inj hcs).2⟩
    | cons c cs => exact absurd (List.cons.inj hcs).2 (text_ne_append_colon hn hn' cs)
  · cases cs with
    | nil => exact ⟨List.append_nil name', text_inj hn hn' (List.cons.inj hcs).2.symm⟩
    | cons c cs => exact absurd (List.cons.inj hcs).2 (text_ne_append_colon hn' hn cs)

end SimAgentNet.OpenaiServer.Json
