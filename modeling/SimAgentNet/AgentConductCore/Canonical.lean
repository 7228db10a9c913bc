import SimAgentNet.Data.Delimited
import SimAgentNet.AgentConductCore.Journal

/-! # What a canonical text determines

The canonical text of an expression is a concatenation in which only some parts carry their
length. An expression all of whose parts show where they end, up to the last one, is determined
by its text up to the order of entries (`readable_whole`), and so is a record made of such
expressions by the bytes that are hashed. -/

namespace SimAgentNet.AgentConductCore
open Delimited

variable {Mode : Type}

/-! ## Texts as characters -/

section
variable (debug : Mode → String)

def chars (e : Expr Mode) : List Char := (canonicalExpr debug e).toList

def rowChars (p : Expr Mode × Expr Mode) : List Char := chars debug p.1 ++ ['='] ++ chars debug p.2

/-- A number of parts and the parts. -/
def counted (n : Nat) (body : List Char) : List Char := (toString n : String).toList ++ ':' :: body

/-- The elements of a set in the order of their texts. -/
def sortElems (vs : List (Expr Mode)) : List (Expr Mode) :=
  vs.insertionSort fun a b => canonicalExpr debug a ≤ canonicalExpr debug b

def rowText (p : Expr Mode × Expr Mode) : String :=
  canonicalExpr debug p.1 ++ "=" ++ canonicalExpr debug p.2

/-- The entries of a map in the order of their rows. -/
def sortEntries (vs : List (Expr Mode × Expr Mode)) : List (Expr Mode × Expr Mode) :=
  vs.insertionSort fun a b => rowText debug a ≤ rowText debug b

end

section
variable {debug : Mode → String}

theorem canonicalExprs_eq_map (vs : List (Expr Mode)) :
    canonicalExprs debug vs = vs.map (canonicalExpr debug) := by
  induction vs with
  | nil => rfl
  | cons v vs ih => rw [canonicalExprs, ih, List.map_cons]

theorem canonicalRows_eq_map (vs : List (Expr Mode × Expr Mode)) :
    canonicalRows debug vs = vs.map (rowText debug) := by
  induction vs with
  | nil => rfl
  | cons v vs ih => rw [canonicalRows, ih, List.map_cons, rowText]

theorem toList_sequence (tag : String) (values : List String) :
    (sequence tag values).toList =
      tag.toList ++ counted values.length (values.flatMap String.toList) := by
  simp [sequence, counted]

theorem toList_sequence_map (tag : String) (vs : List α) (f : α → String) :
    (sequence tag (vs.map f)).toList =
      tag.toList ++ counted vs.length (vs.flatMap fun v => (f v).toList) := by
  rw [toList_sequence, List.length_map, List.flatMap_map]

theorem counted_append (n : Nat) (body r : List Char) :
    counted n body ++ r = counted n (body ++ r) := by
  simp [counted]

theorem counted_inj (h : counted n x = counted m y) : n = m ∧ x = y := toString_colon_inj h

theorem chars_sequence (hc : canonicalExpr debug e = sequence tag (canonicalExprs debug vs)) :
    chars debug e = tag.toList ++ counted vs.length (vs.flatMap (chars debug)) := by
  rw [chars, hc, canonicalExprs_eq_map, toList_sequence_map]
  rfl

theorem sortRows_map (f : α → String) (vs : List α) :
    sortRows (vs.map f) = (vs.insertionSort fun a b => f a ≤ f b).map f :=
  (List.map_insertionSort _ _ f vs fun _ _ _ _ => Iff.rfl).symm

theorem chars_set (vs : List (Expr Mode)) :
    chars debug (.set vs) =
      'e' :: counted (sortElems debug vs).length ((sortElems debug vs).flatMap (chars debug)) := by
  rw [chars, canonicalExpr, canonicalExprs_eq_map, sortRows_map, toList_sequence_map]
  rfl

theorem chars_map (vs : List (Expr Mode × Expr Mode)) :
    chars debug (.map vs) =
      'm' :: counted (sortEntries debug vs).length
        ((sortEntries debug vs).flatMap (rowChars debug)) := by
  rw [chars, canonicalExpr, canonicalRows_eq_map, sortRows_map, toList_sequence_map]
  simp only [rowText, String.toList_append]
  rfl

theorem chars_call (f : Expr Mode) (as : List (Expr Mode)) :
    chars debug (.call f as) =
      'c' :: (chars debug f ++ 'a' :: counted as.length (as.flatMap (chars debug))) := by
  rw [chars, canonicalExpr, String.toList_append, canonicalExprs_eq_map, toList_sequence_map]
  simp only [String.toList_append, chars]
  rfl

/-- The first character of a canonical text. -/
def tag : Expr Mode → Char
  | .nil => 'n'
  | .bool _ => 'b'
  | .number _ => 'd'
  | .symbol _ => 'y'
  | .local _ => 'o'
  | .string _ => 's'
  | .bytes _ => 'x'
  | .list _ => 'l'
  | .vector _ => 'v'
  | .map _ => 'm'
  | .set _ => 'e'
  | .call .. => 'c'
  | .infixOp .. => 'i'
  | .prefixOp .. => 'p'
  | .postfixOp .. => 'f'
  | .block _ => 'k'
  | .quote .. => 'q'
  | .annotated .. => 'a'
  | .extension .. => 'z'

variable (debug) in
theorem head_chars (e : Expr Mode) : ∃ cs, chars debug e = tag e :: cs := by
  cases e <;> simp [chars, canonicalExpr, sequence, tag]

/-- Texts that start alike are texts of one kind of expression. -/
theorem tag_eq (h : chars debug e ++ r = chars debug e' ++ r') : tag e = tag e' := by
  obtain ⟨cs, hcs⟩ := head_chars debug e
  obtain ⟨cs', hcs'⟩ := head_chars debug e'
  rw [hcs, hcs'] at h
  exact (List.cons.inj h).1

theorem tag_eq_of_chars_eq (h : chars debug e = chars debug e') : tag e = tag e' := by
  have happ : chars debug e ++ [] = chars debug e' ++ [] := by rw [h]
  exact tag_eq happ

/-! ## Expressions whose parts show where they end -/

end

mutual
/-- The text shows where it ends: the expression is built from nil, truth values, strings,
lists, vectors, blocks, sets, maps and calls alone. -/
def marked : Expr Mode → Bool
  | .nil | .bool _ | .string _ => true
  | .list vs | .vector vs | .block vs | .set vs => markedAll vs
  | .map vs => markedRows vs
  | .call operator args => marked operator && markedAll args
  | _ => false
termination_by structural e => e

def markedAll : List (Expr Mode) → Bool
  | [] => true
  | v :: vs => marked v && markedAll vs
termination_by structural vs => vs

def markedRows : List (Expr Mode × Expr Mode) → Bool
  | [] => true
  | (k, v) :: vs => marked k && marked v && markedRows vs
termination_by structural vs => vs
end

/-- A symbol without a namespace whose name has no `/`. -/
def bare (s : Symbol) : Bool := s.ns.isNone && !('/' ∈ s.name.toList)

mutual
/-- Every part of the text but the last shows where it ends, and the last is a part whose text
alone determines it. -/
def readable : Expr Mode → Bool
  | .symbol v | .local v => bare v
  | .bytes _ => true
  | .number v => bare v.domain && !(':' ∈ v.domain.name.toList) && !(':' ∈ v.canonical.toList)
  | .nil | .bool _ | .string _ => true
  | .list vs | .vector vs | .block vs => readableAll vs
  | .set vs => readableOne vs
  | .map vs => readableRow vs
  | .call operator args => marked operator && readableAll args
  | .annotated expr annotations => marked expr && annotations.isEmpty
  | _ => false
termination_by structural e => e

def readableAll : List (Expr Mode) → Bool
  | [] => true
  | v :: vs => if vs.isEmpty then readable v else marked v && readableAll vs
termination_by structural vs => vs

/-- The order of several elements is that of their texts, so that all of them are marked. -/
def readableOne : List (Expr Mode) → Bool
  | [] => true
  | v :: vs => if vs.isEmpty then readable v else marked v && markedAll vs
termination_by structural vs => vs

def readableRow : List (Expr Mode × Expr Mode) → Bool
  | [] => true
  | (k, v) :: vs =>
    if vs.isEmpty then marked k && readable v else marked k && marked v && markedRows vs
termination_by structural vs => vs
end

/-! ## Parts in sequence -/

section
variable {debug : Mode → String}

theorem counted_ends {as bs : List (Expr Mode)}
    (h : ∀ a ∈ as, Ends (chars debug) Expr.Same a)
    (ht : counted as.length (as.flatMap (chars debug)) ++ r =
      counted bs.length (bs.flatMap (chars debug)) ++ r') :
    List.Forall₂ Expr.Same as bs ∧ r = r' := by
  rw [counted_append, counted_append] at ht
  obtain ⟨hlen, ht⟩ := counted_inj ht
  exact Ends.flatMap h hlen ht

/-- All parts but the last have an end. -/
def LastWhole (debug : Mode → String) (as : List (Expr Mode)) : Prop :=
  as = [] ∨ ∃ init z, as = init ++ [z] ∧ (∀ a ∈ init, Ends (chars debug) Expr.Same a) ∧
    Whole (chars debug) Expr.Same z

theorem counted_whole {as bs : List (Expr Mode)} (h : LastWhole debug as)
    (ht : counted as.length (as.flatMap (chars debug)) =
      counted bs.length (bs.flatMap (chars debug))) :
    List.Forall₂ Expr.Same as bs := by
  obtain ⟨hlen, ht⟩ := counted_inj ht
  obtain rfl | ⟨init, z, rfl, hinit, hz⟩ := h
  · cases List.length_eq_zero_iff.mp hlen.symm
    exact .nil
  · exact Whole.flatMap_concat hinit hz hlen ht

theorem lastWhole_singleton (h : Whole (chars debug) Expr.Same v) : LastWhole debug [v] :=
  .inr ⟨[], v, rfl, nofun, h⟩

theorem lastWhole_cons (h : Ends (chars debug) Expr.Same v) (hne : vs ≠ [])
    (hvs : LastWhole debug vs) : LastWhole debug (v :: vs) := by
  obtain rfl | ⟨init, z, rfl, hinit, hz⟩ := hvs
  · exact absurd rfl hne
  · exact .inr ⟨v :: init, z, rfl, List.forall_mem_cons.mpr ⟨h, hinit⟩, hz⟩

theorem lastWhole_of_ends (h : ∀ v ∈ vs, Ends (chars debug) Expr.Same v) :
    LastWhole debug vs := by
  obtain rfl | hne := eq_or_ne vs []
  · exact .inl rfl
  · refine .inr ⟨vs.dropLast, vs.getLast hne, (List.dropLast_append_getLast hne).symm, ?_, ?_⟩
    · exact fun a ha => h a (List.dropLast_subset vs ha)
    · exact (h _ (List.getLast_mem hne)).whole

/-- A constructor whose text is a tag, the number of parts and the parts. -/
structure Sequenced (debug : Mode → String) (mk : List (Expr Mode) → Expr Mode) (c : Char) :
    Prop where
  chars_eq : chars debug (mk vs) = c :: counted vs.length (vs.flatMap (chars debug))
  of_tag : tag e = c → ∃ vs, e = mk vs
  same : List.Forall₂ Expr.Same as bs → Expr.Same (mk as) (mk bs)

theorem sequenced_list : Sequenced debug .list 'l' where
  chars_eq {vs} := by rw [chars_sequence (e := .list vs) (by rw [canonicalExpr])]; rfl
  of_tag {e} h := by cases e <;> simp [tag] at h ⊢
  same := .list

theorem sequenced_vector : Sequenced debug .vector 'v' where
  chars_eq {vs} := by rw [chars_sequence (e := .vector vs) (by rw [canonicalExpr])]; rfl
  of_tag {e} h := by cases e <;> simp [tag] at h ⊢
  same := .vector

theorem sequenced_block : Sequenced debug .block 'k' where
  chars_eq {vs} := by rw [chars_sequence (e := .block vs) (by rw [canonicalExpr])]; rfl
  of_tag {e} h := by cases e <;> simp [tag] at h ⊢
  same := .block

namespace Sequenced
variable {mk : List (Expr Mode) → Expr Mode}

theorem tag_mk (hs : Sequenced debug mk c) (vs : List (Expr Mode)) : tag (mk vs) = c := by
  obtain ⟨cs, hcs⟩ := head_chars debug (mk vs)
  rw [hs.chars_eq] at hcs
  exact (List.cons.inj hcs).1.symm

theorem ends (hs : Sequenced debug mk c) (h : ∀ v ∈ vs, Ends (chars debug) Expr.Same v) :
    Ends (chars debug) Expr.Same (mk vs) := by
  intro e r r' ht
  obtain ⟨bs, rfl⟩ := hs.of_tag ((tag_eq ht).symm.trans (hs.tag_mk vs))
  rw [hs.chars_eq, hs.chars_eq] at ht
  obtain ⟨hsame, hr⟩ := counted_ends h (List.cons.inj ht).2
  exact ⟨hs.same hsame, hr⟩

theorem whole (hs : Sequenced debug mk c) (h : LastWhole debug vs) :
    Whole (chars debug) Expr.Same (mk vs) := by
  intro e ht
  obtain ⟨bs, rfl⟩ := hs.of_tag ((tag_eq_of_chars_eq ht).symm.trans (hs.tag_mk vs))
  rw [hs.chars_eq, hs.chars_eq] at ht
  exact hs.same (counted_whole h (List.cons.inj ht).2)

end Sequenced

/-! ## Sets, maps and calls -/

theorem exists_set_of_tag {e : Expr Mode} (h : tag e = 'e') : ∃ vs, e = .set vs := by
  cases e <;> simp [tag] at h ⊢

theorem exists_map_of_tag {e : Expr Mode} (h : tag e = 'm') : ∃ vs, e = .map vs := by
  cases e <;> simp [tag] at h ⊢

theorem exists_call_of_tag {e : Expr Mode} (h : tag e = 'c') : ∃ f as, e = .call f as := by
  cases e <;> simp [tag] at h ⊢

theorem sortElems_perm (vs : List (Expr Mode)) : (sortElems debug vs).Perm vs :=
  List.perm_insertionSort _ vs

theorem sortEntries_perm (vs : List (Expr Mode × Expr Mode)) : (sortEntries debug vs).Perm vs :=
  List.perm_insertionSort _ vs

theorem set_ends (h : ∀ v ∈ vs, Ends (chars debug) Expr.Same v) :
    Ends (chars debug) Expr.Same (.set vs) := by
  intro e r r' ht
  obtain ⟨bs, rfl⟩ := exists_set_of_tag (tag_eq ht).symm
  rw [chars_set, chars_set] at ht
  obtain ⟨hsame, hr⟩ := counted_ends (fun v hv => h v ((sortElems_perm vs).mem_iff.mp hv))
    (List.cons.inj ht).2
  exact ⟨.set (sortElems_perm vs) (sortElems_perm bs) hsame, hr⟩

theorem set_whole (h : Whole (chars debug) Expr.Same v) :
    Whole (chars debug) Expr.Same (.set [v]) := by
  intro e ht
  obtain ⟨bs, rfl⟩ := exists_set_of_tag (tag_eq_of_chars_eq ht).symm
  rw [chars_set, chars_set] at ht
  have hsame := counted_whole (lastWhole_singleton h) (List.cons.inj ht).2
  exact .set (.refl _) (sortElems_perm bs) hsame

/-- Rows are the same when their keys and their values are. -/
def SameRow (p q : Expr Mode × Expr Mode) : Prop := p.1.Same q.1 ∧ p.2.Same q.2

theorem same_map {as bs as' bs' : List (Expr Mode × Expr Mode)} (ha : as'.Perm as)
    (hb : bs'.Perm bs) (h : List.Forall₂ SameRow as' bs') :
    Expr.Same (.map as) (.map bs) := by
  refine .map ha hb ?_ ?_
  · exact List.forall₂_map_left_iff.mpr (List.forall₂_map_right_iff.mpr (h.imp fun _ _ h => h.1))
  · exact List.forall₂_map_left_iff.mpr (List.forall₂_map_right_iff.mpr (h.imp fun _ _ h => h.2))

theorem map_ends {vs : List (Expr Mode × Expr Mode)}
    (h : ∀ p ∈ vs, Ends (chars debug) Expr.Same p.1 ∧ Ends (chars debug) Expr.Same p.2) :
    Ends (chars debug) Expr.Same (.map vs) := by
  intro e r r' ht
  obtain ⟨bs, rfl⟩ := exists_map_of_tag (tag_eq ht).symm
  rw [chars_map, chars_map, List.cons_append, List.cons_append] at ht
  have ht := (List.cons.inj ht).2
  rw [counted_append, counted_append] at ht
  obtain ⟨hlen, ht⟩ := counted_inj ht
  have hrows : ∀ p ∈ sortEntries debug vs, Ends (rowChars debug) SameRow p := by
    intro p hp
    obtain ⟨hk, hv⟩ := h p ((sortEntries_perm vs).mem_iff.mp hp)
    exact hk.pair hv
  obtain ⟨hsame, hr⟩ := Ends.flatMap hrows hlen ht
  exact ⟨same_map (sortEntries_perm vs) (sortEntries_perm bs) hsame, hr⟩

theorem map_whole (hk : Ends (chars debug) Expr.Same k) (hv : Whole (chars debug) Expr.Same v) :
    Whole (chars debug) Expr.Same (.map [(k, v)]) := by
  intro e ht
  obtain ⟨bs, rfl⟩ := exists_map_of_tag (tag_eq_of_chars_eq ht).symm
  rw [chars_map, chars_map] at ht
  obtain ⟨hlen, ht⟩ := counted_inj (List.cons.inj ht).2
  have hrow : Whole (rowChars debug) SameRow (k, v) := Whole.pair hk hv
  have hsame := @Whole.flatMap_concat _ _ _ _ [] _ nofun hrow hlen ht
  exact same_map (.refl _) (sortEntries_perm bs) hsame

theorem call_ends (hf : Ends (chars debug) Expr.Same f)
    (h : ∀ v ∈ as, Ends (chars debug) Expr.Same v) :
    Ends (chars debug) Expr.Same (.call f as) := by
  intro e r r' ht
  obtain ⟨g, bs, rfl⟩ := exists_call_of_tag (tag_eq ht).symm
  rw [chars_call, chars_call, List.cons_append, List.cons_append] at ht
  have ht := (List.cons.inj ht).2
  rw [List.append_assoc, List.append_assoc] at ht
  obtain ⟨hfg, ht⟩ := hf g _ _ ht
  obtain ⟨hsame, hr⟩ := counted_ends h (List.cons.inj ht).2
  exact ⟨.call hfg hsame, hr⟩

theorem call_whole (hf : Ends (chars debug) Expr.Same f) (h : LastWhole debug as) :
    Whole (chars debug) Expr.Same (.call f as) := by
  intro e ht
  obtain ⟨g, bs, rfl⟩ := exists_call_of_tag (tag_eq_of_chars_eq ht).symm
  rw [chars_call, chars_call] at ht
  obtain ⟨hfg, ht⟩ := hf g _ _ (List.cons.inj ht).2
  exact .call hfg (counted_whole h (List.cons.inj ht).2)

/-! ## Atoms -/

theorem nil_ends : Ends (chars debug) Expr.Same .nil := by
  intro e r r' ht
  have htag := tag_eq ht
  cases e <;> simp [tag] at htag
  exact ⟨.nil, List.append_cancel_left ht⟩

theorem bool_ends (v : Bool) : Ends (chars debug) Expr.Same (.bool v) := by
  intro e r r' ht
  have htag := tag_eq ht
  cases e <;> simp [tag] at htag
  rename_i w
  have hvw : v = w := by
    cases v <;> cases w <;> simp [chars, canonicalExpr, toString] at ht ⊢
  subst hvw
  exact ⟨.bool, List.append_cancel_left ht⟩

theorem string_ends (v : String) : Ends (chars debug) Expr.Same (.string v) := by
  intro e r r' ht
  have htag := tag_eq ht
  cases e <;> simp [tag] at htag
  rename_i w
  have hchars : ∀ u : String, chars debug (.string u) =
      's' :: counted u.utf8ByteSize u.toList := by
    intro u
    simp [chars, canonicalExpr, counted]
  rw [hchars, hchars, List.cons_append, List.cons_append] at ht
  have ht := (List.cons.inj ht).2
  rw [counted_append, counted_append] at ht
  obtain ⟨hsize, ht⟩ := counted_inj ht
  obtain ⟨rfl, hr⟩ := append_inj_of_utf8ByteSize hsize ht
  exact ⟨.string, hr⟩

/-- A bare symbol is determined by its text. -/
theorem eq_of_display (hs : bare s = true) (h : s.display = t.display) : s = t := by
  obtain ⟨ns, name⟩ := s
  simp only [bare, Bool.and_eq_true, Option.isNone_iff_eq_none, Bool.not_eq_true',
    decide_eq_false_iff_not] at hs
  obtain ⟨rfl, hname⟩ := hs
  obtain ⟨ns', name'⟩ := t
  cases ns' with
  | none => exact congrArg _ h
  | some n =>
    have h : name = n ++ "/" ++ name' := h
    rw [h] at hname
    simp at hname

theorem symbol_whole (h : bare v = true) : Whole (chars debug) Expr.Same (.symbol v) := by
  intro e ht
  have htag := tag_eq_of_chars_eq ht
  cases e <;> simp [tag] at htag
  rename_i w
  have hd : v.display = w.display := String.ext (by simpa [chars, canonicalExpr] using ht)
  exact eq_of_display h hd ▸ .symbol

theorem local_whole (h : bare v = true) : Whole (chars debug) Expr.Same (.local v) := by
  intro e ht
  have htag := tag_eq_of_chars_eq ht
  cases e <;> simp [tag] at htag
  rename_i w
  have hd : v.display = w.display := String.ext (by simpa [chars, canonicalExpr] using ht)
  exact eq_of_display h hd ▸ .local

/-- Of two splits of one text at a colon, one of which is at the only colon, each is the other. -/
theorem colon_split_inj {a b c d : List Char} (ha : ':' ∉ a) (hb : ':' ∉ b)
    (h : a ++ ':' :: b = c ++ ':' :: d) : a = c ∧ b = d := by
  have hc : ':' ∉ c := by
    intro hc
    have hcount := congrArg (List.count ':') h
    have hpos := List.count_pos_iff.mpr hc
    simp only [List.count_append, List.count_cons_self, List.count_eq_zero_of_not_mem ha,
      List.count_eq_zero_of_not_mem hb] at hcount
    omega
  have := (Text.splitOnce_append (b := b) ha).symm.trans
    ((congrArg _ h).trans (Text.splitOnce_append hc))
  exact Prod.mk.inj (Option.some.inj this)

theorem number_whole (hv : bare v.domain = true) (hd : ':' ∉ v.domain.name.toList)
    (hc : ':' ∉ v.canonical.toList) : Whole (chars debug) Expr.Same (.number v) := by
  intro e ht
  have htag := tag_eq_of_chars_eq ht
  cases e <;> simp [tag] at htag
  rename_i w
  have hdisplay : v.domain.display = v.domain.name := by
    obtain ⟨⟨ns, name⟩, canonical⟩ := v
    simp only [bare, Bool.and_eq_true, Option.isNone_iff_eq_none] at hv
    obtain ⟨rfl, -⟩ := hv
    rfl
  have ht : v.domain.display.toList ++ ':' :: v.canonical.toList =
      w.domain.display.toList ++ ':' :: w.canonical.toList := by
    simpa [chars, canonicalExpr] using ht
  obtain ⟨h₁, h₂⟩ := colon_split_inj (hdisplay ▸ hd) hc ht
  have hvw : v = w := by
    obtain ⟨domain, canonical⟩ := v
    obtain ⟨domain', canonical'⟩ := w
    cases eq_of_display hv (String.ext h₁)
    cases String.ext h₂
    rfl
  exact hvw ▸ .number

theorem bytes_whole (v : List UInt8) : Whole (chars debug) Expr.Same (.bytes v) := by
  intro e ht
  have htag := tag_eq_of_chars_eq ht
  cases e <;> simp [tag] at htag
  rename_i w
  have hh : Text.hex v = Text.hex w := String.ext (by simpa [chars, canonicalExpr] using ht)
  exact Text.hex_injective hh ▸ .bytes

/-- Without annotations nothing follows the annotated expression. -/
theorem annotated_whole (h : Ends (chars debug) Expr.Same a) :
    Whole (chars debug) Expr.Same (.annotated a []) := by
  intro e ht
  have htag := tag_eq_of_chars_eq ht
  cases e <;> simp [tag] at htag
  rename_i b annotations
  have ht : chars debug a ++ [] = chars debug b ++
      (String.join (sortRows (canonicalAnnotations debug annotations))).toList := by
    simpa [chars, canonicalExpr, canonicalAnnotations, sortRows] using ht
  obtain ⟨hab, hrows⟩ := h b _ _ ht
  have hnil : annotations = [] := by
    cases annotations with
    | nil => rfl
    | cons p ps =>
      obtain ⟨k, v⟩ := p
      have hmem : k.display ++ "=" ++ canonicalExpr debug v ∈
          sortRows (canonicalAnnotations debug ((k, v) :: ps)) := by
        rw [sortRows, List.mem_insertionSort, canonicalAnnotations]
        exact List.mem_cons_self
      have heq : '=' ∈ (String.join (sortRows (canonicalAnnotations debug ((k, v) :: ps)))).toList := by
        simp only [String.toList_join, List.mem_flatMap]
        exact ⟨_, hmem, by simp⟩
      rw [← hrows] at heq
      cases heq
  subst hnil
  exact .annotated hab (.refl _) (.refl _) rfl .nil

/-! ## The induction over expressions -/

mutual
theorem marked_ends : ∀ e : Expr Mode, marked e = true → Ends (chars debug) Expr.Same e
  | .nil, _ => nil_ends
  | .bool v, _ => bool_ends v
  | .string v, _ => string_ends v
  | .list vs, h => sequenced_list.ends (markedAll_ends vs h)
  | .vector vs, h => sequenced_vector.ends (markedAll_ends vs h)
  | .block vs, h => sequenced_block.ends (markedAll_ends vs h)
  | .set vs, h => set_ends (markedAll_ends vs h)
  | .map vs, h => map_ends (markedRows_ends vs h)
  | .call f as, h => by
    obtain ⟨hf, has⟩ := Bool.and_eq_true_iff.mp h
    exact call_ends (marked_ends f hf) (markedAll_ends as has)
  | .number _, h | .symbol _, h | .local _, h | .bytes _, h | .infixOp .., h | .prefixOp .., h
  | .postfixOp .., h | .quote .., h | .annotated .., h | .extension .., h => nomatch h
termination_by structural e => e

theorem markedAll_ends : ∀ vs : List (Expr Mode), markedAll vs = true →
    ∀ v ∈ vs, Ends (chars debug) Expr.Same v
  | [], _ => nofun
  | v :: vs, h => by
    obtain ⟨hv, hvs⟩ := Bool.and_eq_true_iff.mp h
    exact List.forall_mem_cons.mpr ⟨marked_ends v hv, markedAll_ends vs hvs⟩
termination_by structural vs => vs

theorem markedRows_ends : ∀ vs : List (Expr Mode × Expr Mode), markedRows vs = true →
    ∀ p ∈ vs, Ends (chars debug) Expr.Same p.1 ∧ Ends (chars debug) Expr.Same p.2
  | [], _ => nofun
  | (k, v) :: vs, h => by
    obtain ⟨hkv, hvs⟩ := Bool.and_eq_true_iff.mp h
    obtain ⟨hk, hv⟩ := Bool.and_eq_true_iff.mp hkv
    exact List.forall_mem_cons.mpr ⟨⟨marked_ends k hk, marked_ends v hv⟩, markedRows_ends vs hvs⟩
termination_by structural vs => vs
end

mutual
/-- A readable expression is determined by its canonical text up to the order of entries. -/
theorem readable_whole : ∀ e : Expr Mode, readable e = true → Whole (chars debug) Expr.Same e
  | .nil, _ => nil_ends.whole
  | .bool v, _ => (bool_ends v).whole
  | .string v, _ => (string_ends v).whole
  | .symbol _, h => symbol_whole h
  | .local _, h => local_whole h
  | .bytes v, _ => bytes_whole v
  | .number v, h => by
    simp only [readable, Bool.and_eq_true, Bool.not_eq_true', decide_eq_false_iff_not] at h
    exact number_whole h.1.1 h.1.2 h.2
  | .list vs, h => sequenced_list.whole (readableAll_lastWhole vs h)
  | .vector vs, h => sequenced_vector.whole (readableAll_lastWhole vs h)
  | .block vs, h => sequenced_block.whole (readableAll_lastWhole vs h)
  | .set vs, h => readableOne_whole vs h
  | .map vs, h => readableRow_whole vs h
  | .call f as, h => by
    obtain ⟨hf, has⟩ := Bool.and_eq_true_iff.mp h
    exact call_whole (marked_ends f hf) (readableAll_lastWhole as has)
  | .annotated a annotations, h => by
    obtain ⟨ha, hnil⟩ := Bool.and_eq_true_iff.mp h
    cases List.isEmpty_iff.mp hnil
    exact annotated_whole (marked_ends a ha)
  | .infixOp .., h | .prefixOp .., h | .postfixOp .., h | .quote .., h | .extension .., h =>
    nomatch h
termination_by structural e => e

theorem readableAll_lastWhole : ∀ vs : List (Expr Mode), readableAll vs = true →
    LastWhole debug vs
  | [], _ => .inl rfl
  | v :: vs, h => by
    rw [readableAll] at h
    split at h
    · rename_i hnil
      cases List.isEmpty_iff.mp hnil
      exact lastWhole_singleton (readable_whole v h)
    · rename_i hne
      obtain ⟨hv, hvs⟩ := Bool.and_eq_true_iff.mp h
      exact lastWhole_cons (marked_ends v hv) (fun e => hne (List.isEmpty_iff.mpr e))
        (readableAll_lastWhole vs hvs)
termination_by structural vs => vs

theorem readableOne_whole : ∀ vs : List (Expr Mode), readableOne vs = true →
    Whole (chars debug) Expr.Same (.set vs)
  | [], _ => (set_ends (markedAll_ends [] rfl)).whole
  | v :: vs, h => by
    rw [readableOne] at h
    split at h
    · rename_i hnil
      cases List.isEmpty_iff.mp hnil
      exact set_whole (readable_whole v h)
    · exact (set_ends (markedAll_ends (v :: vs) h)).whole
termination_by structural vs => vs

theorem readableRow_whole : ∀ vs : List (Expr Mode × Expr Mode), readableRow vs = true →
    Whole (chars debug) Expr.Same (.map vs)
  | [], _ => (map_ends (markedRows_ends [] rfl)).whole
  | (k, v) :: vs, h => by
    rw [readableRow] at h
    split at h
    · rename_i hnil
      cases List.isEmpty_iff.mp hnil
      obtain ⟨hk, hv⟩ := Bool.and_eq_true_iff.mp h
      exact map_whole (marked_ends k hk) (readable_whole v hv)
    · exact (map_ends (markedRows_ends ((k, v) :: vs) h)).whole
termination_by structural vs => vs
end

end

/-! ## Records -/

theorem bytes_append_inj {n m : Nat} {x y : List UInt8} (hn : n < 2 ^ 64) (hm : m < 2 ^ 64)
    (h : BigEndian.bytes 8 n ++ x = BigEndian.bytes 8 m ++ y) : n = m ∧ x = y := by
  obtain ⟨hnm, hxy⟩ := List.append_inj h (by simp)
  have hmod := congrArg BigEndian.toNat hnm
  rw [BigEndian.toNat_bytes, BigEndian.toNat_bytes] at hmod
  rw [Nat.mod_eq_of_lt (by omega), Nat.mod_eq_of_lt (by omega)] at hmod
  exact ⟨hmod, hxy⟩

theorem field_append_inj {a b : String} {x y : List UInt8} (ha : a.utf8ByteSize < 2 ^ 64)
    (hb : b.utf8ByteSize < 2 ^ 64) (h : field a ++ x = field b ++ y) : a = b ∧ x = y := by
  simp only [field, List.append_assoc] at h
  obtain ⟨hsize, h⟩ := bytes_append_inj ha hb h
  obtain ⟨hab, hxy⟩ := List.append_inj h (by simpa using hsize)
  exact ⟨Text.utf8_injective hab, hxy⟩

section
variable (debug : Mode → String)

/-- The canonical text has fewer than `2 ^ 64` bytes. -/
def FitsExpr (e : Expr Mode) : Prop := (canonicalExpr debug e).utf8ByteSize < 2 ^ 64

/-- No text of the record has `2 ^ 64` bytes or more, as no text in memory has. -/
structure FitsRecord (r : AgentJournalRecord Mode) : Prop where
  priorHash : (r.priorHash.getD "").utf8ByteSize < 2 ^ 64
  graphFingerprint : r.graphFingerprint.utf8ByteSize < 2 ^ 64
  bindingFingerprint : r.bindingFingerprint.utf8ByteSize < 2 ^ 64
  event : FitsExpr debug r.event
  frame : FitsExpr debug r.frame
  usage : FitsExpr debug r.usage
  effectReceipts : r.effectReceipts.length < 2 ^ 64
  effectReceipt : ∀ e ∈ r.effectReceipts, FitsExpr debug e
  continuation : FitsExpr debug r.continuation

end

/-- Two records agree on everything that is hashed, up to the order of entries. -/
structure AgentJournalRecord.Agrees (r r' : AgentJournalRecord Mode) : Prop where
  priorHash : r.priorHash.getD "" = r'.priorHash.getD ""
  graphFingerprint : r.graphFingerprint = r'.graphFingerprint
  bindingFingerprint : r.bindingFingerprint = r'.bindingFingerprint
  event : r.event.Same r'.event
  frame : r.frame.Same r'.frame
  usage : r.usage.Same r'.usage
  effectReceipts : List.Forall₂ Expr.Same r.effectReceipts r'.effectReceipts
  continuation : r.continuation.Same r'.continuation

/-- Every expression of the record is readable. -/
def AgentJournalRecord.readable (r : AgentJournalRecord Mode) : Bool :=
  AgentConductCore.readable r.event && AgentConductCore.readable r.frame &&
    AgentConductCore.readable r.usage && r.effectReceipts.all AgentConductCore.readable &&
    AgentConductCore.readable r.continuation

section
variable {debug : Mode → String}

theorem exprField_append_inj (hr : readable e = true) (he : FitsExpr debug e)
    (he' : FitsExpr debug e') (h : exprField debug e ++ x = exprField debug e' ++ y) :
    e.Same e' ∧ x = y := by
  obtain ⟨heq, hxy⟩ := field_append_inj he he' h
  exact ⟨readable_whole e hr e' (congrArg String.toList heq), hxy⟩

theorem receipts_append_inj {as bs : List (Expr Mode)} (hr : ∀ e ∈ as, readable e = true)
    (ha : ∀ e ∈ as, FitsExpr debug e) (hb : ∀ e ∈ bs, FitsExpr debug e)
    (hlen : as.length = bs.length)
    (h : as.flatMap (exprField debug) ++ x = bs.flatMap (exprField debug) ++ y) :
    List.Forall₂ Expr.Same as bs ∧ x = y := by
  induction as generalizing bs with
  | nil =>
    cases List.length_eq_zero_iff.mp hlen.symm
    exact ⟨.nil, h⟩
  | cons a as ih =>
    cases bs with
    | nil => cases hlen
    | cons b bs =>
      rw [List.forall_mem_cons] at hr ha hb
      rw [List.flatMap_cons, List.flatMap_cons, List.append_assoc, List.append_assoc] at h
      obtain ⟨hab, h⟩ := exprField_append_inj hr.1 ha.1 hb.1 h
      obtain ⟨has, hxy⟩ := ih hr.2 ha.2 hb.2 (Nat.succ.inj hlen) h
      exact ⟨.cons hab has, hxy⟩

end

/-- A first record with the given event and nothing else. -/
def eventRecord (event : Expr Mode) : AgentJournalRecord Mode :=
  { sequence := 0, priorHash := none, graphFingerprint := "graph", bindingFingerprint := "bindings"
    event, frame := .nil, usage := .nil, effectReceipts := [], continuation := .nil, hash := "" }

theorem fitsRecord_eventRecord {debug : Mode → String} (h : FitsExpr debug e) :
    FitsRecord debug (eventRecord e) := by
  have hnil : FitsExpr debug .nil := by
    unfold FitsExpr
    rw [canonicalExpr]
    decide
  exact
    { priorHash := show "".utf8ByteSize < 2 ^ 64 by decide
      graphFingerprint := show "graph".utf8ByteSize < 2 ^ 64 by decide
      bindingFingerprint := show "bindings".utf8ByteSize < 2 ^ 64 by decide
      event := h
      frame := hnil
      usage := hnil
      effectReceipts := show 0 < 2 ^ 64 by decide
      effectReceipt := nofun
      continuation := hnil }

/-- A record of readable expressions shares the bytes that are hashed only with records that
agree with it. -/
theorem agrees_of_hashedBytes_eq {debug : Mode → String} {r r' : AgentJournalRecord Mode}
    (hseq : r.sequence = r'.sequence) (hr : r.readable = true) (hf : FitsRecord debug r)
    (hf' : FitsRecord debug r') (h : hashedBytes debug r = hashedBytes debug r') :
    r.Agrees r' := by
  simp only [AgentJournalRecord.readable, Bool.and_eq_true, List.all_eq_true] at hr
  obtain ⟨⟨⟨⟨hevent, hframe⟩, husage⟩, hreceipts⟩, hcontinuation⟩ := hr
  rw [hashedBytes, hashedBytes, hseq] at h
  simp only [List.append_assoc] at h
  obtain ⟨h₁, h⟩ := field_append_inj hf.priorHash hf'.priorHash h
  have h := List.append_cancel_left h
  obtain ⟨h₂, h⟩ := field_append_inj hf.graphFingerprint hf'.graphFingerprint h
  obtain ⟨h₃, h⟩ := field_append_inj hf.bindingFingerprint hf'.bindingFingerprint h
  obtain ⟨h₄, h⟩ := exprField_append_inj hevent hf.event hf'.event h
  obtain ⟨h₅, h⟩ := exprField_append_inj hframe hf.frame hf'.frame h
  obtain ⟨h₆, h⟩ := exprField_append_inj husage hf.usage hf'.usage h
  obtain ⟨hlen, h⟩ := bytes_append_inj hf.effectReceipts hf'.effectReceipts h
  obtain ⟨h₇, h⟩ := receipts_append_inj hreceipts hf.effectReceipt hf'.effectReceipt hlen h
  obtain ⟨h₈, -⟩ := exprField_append_inj (x := []) (y := []) hcontinuation hf.continuation
    hf'.continuation (by rw [h])
  exact ⟨h₁, h₂, h₃, h₄, h₅, h₆, h₇, h₈⟩

/-- The event is a list that ends with a symbol, and a map whose entries are written in the other
order has the same bytes. -/
theorem agrees_of_hashedBytes_eq_reordered :
    let event : Expr Unit := .list [.map [(.string "a", .nil), (.string "b", .bool true)],
      .symbol (.new "done")]
    let event' : Expr Unit := .list [.map [(.string "b", .bool true), (.string "a", .nil)],
      .symbol (.new "done")]
    event ≠ event' ∧ (eventRecord event).Agrees (eventRecord event') := by
  refine ⟨by decide, ?_⟩
  exact agrees_of_hashedBytes_eq rfl (by decide)
    (fitsRecord_eventRecord (by unfold FitsExpr; decide +kernel))
    (fitsRecord_eventRecord (by unfold FitsExpr; decide +kernel))
    (show hashedBytes (fun _ => "Quote") _ = _ by decide +kernel)

/-! ## A text read in two ways -/

/-- The end of a symbol is not in the text: what follows it may belong to it. -/
theorem symbols_share_text (debug : Mode → String) (s t : String) :
    canonicalExpr debug (.list [.symbol (.new s), .symbol (.new ("y" ++ t))]) =
      canonicalExpr debug (.list [.symbol (.new (s ++ "y")), .symbol (.new t)]) := by
  simp [canonicalExpr, canonicalExprs, sequence, Symbol.display, Symbol.new, String.append_assoc]

theorem eventRecord_hashedBytes {debug : Mode → String}
    (h : canonicalExpr debug e = canonicalExpr debug e') :
    hashedBytes debug (eventRecord e) = hashedBytes debug (eventRecord e') := by
  simp only [hashedBytes, eventRecord, exprField, h]

/-- Two records of one sequence number with the same bytes under the hash and different events:
the symbols `x` and `yy`, and the symbols `xy` and `y`. -/
theorem different_events_share_bytes :
    let event : Expr Unit := .list [.symbol (.new "x"), .symbol (.new "yy")]
    let event' : Expr Unit := .list [.symbol (.new "xy"), .symbol (.new "y")]
    (eventRecord event).sequence = (eventRecord event').sequence ∧
      hashedBytes (fun _ => "Quote") (eventRecord event) =
        hashedBytes (fun _ => "Quote") (eventRecord event') ∧
      ¬(eventRecord event).Agrees (eventRecord event') := by
  refine ⟨rfl, eventRecord_hashedBytes (symbols_share_text _ "x" "y"), ?_⟩
  intro h
  have hs := h.event
  simp only [eventRecord] at hs
  cases hs with
  | list hs =>
    cases hs with
    | cons hx _ =>
      generalize hv : Symbol.new "xy" = v at hx
      cases hx
      exact absurd hv (by decide)

end SimAgentNet.AgentConductCore
