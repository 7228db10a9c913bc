import SimAgentNet.Data.Columns
import SimAgentNet.Data.Run
import SimAgentNet.Data.SortedMap
import SimAgentNet.OpenaiServer.Keys

/-! # Bearer challenges

The parameters of a `WWW-Authenticate` header. The text is split at commas before the quotes of a
value are looked at. How a URL is validated is a parameter. -/

namespace SimAgentNet.OauthCore
open OpenaiServer (trim)

structure OAuthError where
  message : String
deriving DecidableEq

abbrev ScopeSet := SortedSet String

structure BearerChallenge (SecureUrl : Type) where
  resourceMetadata : Option SecureUrl
  scope : ScopeSet
  error : Option String

def isAsciiWhitespace (c : Char) : Bool :=
  c == ' ' || c == '\t' || c == '\n' || c == '\x0C' || c == '\r'

/-- The pieces between white space. -/
def splitAsciiWhitespace (text : List Char) : List (List Char) :=
  (text.splitOnP isAsciiWhitespace).filter (· ≠ [])

def scopeChar (c : Char) : Bool := 0x21 ≤ c.toNat && c.toNat ≤ 0x7e && c != '"' && c != '\\'

def ScopeSet.parse (value : String) : Except OAuthError ScopeSet :=
  (splitAsciiWhitespace value.toList).foldlM (fun out item =>
    if 128 < (Text.utf8 (.ofList item)).length ∨ item = [] ∨ ¬item.all scopeChar then
      .error ⟨"invalid OAuth scope"⟩
    else
      .ok (out.insert (.ofList item))) ∅

/-- The text between two quotes. -/
def unquote : List Char → Option (List Char)
  | '"' :: text => if text.getLast? = some '"' then some text.dropLast else none
  | _ => none

def insertField (fields : SortedMap String String) (part : List Char) :
    Except OAuthError (SortedMap String String) :=
  match Text.splitOnce '=' (trim part) with
  | none => .error ⟨"malformed authentication challenge"⟩
  | some (k, raw) =>
    match unquote raw with
    | none => .error ⟨"challenge values must be quoted"⟩
    | some v =>
      if fields.contains (.ofList k) then .error ⟨"duplicate challenge parameter"⟩
      else .ok (fields.insert (.ofList k) (.ofList v))

def scheme : List Char := ['B', 'e', 'a', 'r', 'e', 'r', ' ']

section
variable {SecureUrl : Type} (parseUrl : (value : String) → (allowLoopbackHttp : Bool) →
  Except OAuthError SecureUrl)

def readUrl : Option String → Except OAuthError (Option SecureUrl)
  | some value => some <$> parseUrl value false
  | none => .ok none

def BearerChallenge.parse (value : String) : Except OAuthError (BearerChallenge SecureUrl) :=
  if 4096 < (Text.utf8 value).length ∨ value.toList.any Char.isUnicodeControl then
    .error ⟨"malformed authentication challenge"⟩
  else
    match value.toList.dropPrefix? scheme with
    | none => .error ⟨"unsupported authentication scheme"⟩
    | some rest => do
      let fields ← (rest.splitOn ',').foldlM insertField ∅
      let resourceMetadata ← readUrl parseUrl (fields.get? "resource_metadata")
      let scope ← ScopeSet.parse ((fields.get? "scope").getD "")
      return { resourceMetadata, scope, error := fields.get? "error" }

end

/-! ## What is sent -/

def delimiters : List Char := "\"(),/:;<=>?@[\\]\x7b\x7d".toList

/-- A visible character that is no delimiter. -/
def tokenChar (c : Char) : Bool := 0x21 ≤ c.toNat && c.toNat ≤ 0x7e && !delimiters.contains c

def plainChar (c : Char) : Bool := c != '"' && c != '\\' && !c.isUnicodeControl

/-- A parameter of a challenge, and the spaces around it. -/
structure Param where
  name : String
  value : String
  before : Nat
  after : Nat
  name_ne : name.toList ≠ []
  name_token : ∀ c ∈ name.toList, tokenChar c = true
  value_plain : ∀ c ∈ value.toList, plainChar c = true

/-- What stands before the value of a parameter. -/
def Param.opening (param : Param) : List Char := param.name.toList ++ ['=', '"']

def Param.write (param : Param) : List Char :=
  List.replicate param.before ' ' ++
    (param.opening ++ (param.value.toList ++ '"' :: List.replicate param.after ' '))

def challengeText (params : List Param) : String :=
  .ofList (scheme ++ [','].intercalate (params.map (·.write)))

/-- The value that is sent under a name. -/
def sent (params : List Param) (name : String) : Option String :=
  (params.find? (·.name == name)).map (·.value)

/-- The name in a part of a challenge. -/
def partName (part : List Char) : Option String :=
  (Text.splitOnce '=' (trim part)).map fun split => .ofList split.1

/-- The names in a challenge. -/
def paramNames (value : String) : List (Option String) :=
  (((value.toList.dropPrefix? scheme).getD []).splitOn ',').map partName

/-! ## One part -/

theorem tokenChar_plain {c : Char} (h : tokenChar c = true) :
    c.isUnicodeWhitespace = false ∧ c.isUnicodeControl = false ∧ c ≠ '=' ∧ c ≠ ',' := by
  simp only [tokenChar, Bool.and_eq_true, decide_eq_true_eq, Bool.not_eq_true'] at h
  obtain ⟨⟨hlow, hhigh⟩, hdelimiter⟩ := h
  refine ⟨?_, ?_, ?_, ?_⟩
  · simp only [Char.isUnicodeWhitespace, Bool.or_eq_false_iff, Bool.and_eq_false_iff,
      decide_eq_false_iff_not, beq_eq_false_iff_ne]
    omega
  · simp only [Char.isUnicodeControl, Bool.or_eq_false_iff, Bool.and_eq_false_iff,
      decide_eq_false_iff_not]
    omega
  · rintro rfl
    cases hdelimiter
  · rintro rfl
    cases hdelimiter

theorem dropWhile_blanks {p : Char → Bool} {blanks text : List Char} {first : Char}
    (hblanks : ∀ c ∈ blanks, p c = true) (hfirst : p first = false)
    (hhead : text.head? = some first) : (blanks ++ text).dropWhile p = text := by
  obtain ⟨rest, rfl⟩ := List.head?_eq_some_iff.mp hhead
  rw [List.dropWhile_append_of_pos hblanks, List.dropWhile_cons_of_neg (by simp [hfirst])]

theorem trim_core {blanks core tail : List Char} {first last : Char}
    (hblanks : ∀ c ∈ blanks, c.isUnicodeWhitespace = true)
    (hfirst : first.isUnicodeWhitespace = false) (hlast : last.isUnicodeWhitespace = false)
    (hhead : core.head? = some first) (hend : core.getLast? = some last) :
    trim (blanks ++ (core ++ tail)) = core ++ tail.rdropWhile Char.isUnicodeWhitespace := by
  have hfront : (core ++ tail).head? = some first := by
    rw [List.head?_append, hhead]
    rfl
  have hback : core.reverse.head? = some last := by rw [List.head?_reverse, hend]
  rw [trim, dropWhile_blanks hblanks hfirst hfront, List.rdropWhile, List.reverse_append]
  rw [List.dropWhile_append]
  have hstop : core.reverse.dropWhile Char.isUnicodeWhitespace = core.reverse := by
    obtain ⟨rest, hrest⟩ := List.head?_eq_some_iff.mp hback
    rw [hrest, List.dropWhile_cons_of_neg (by simp [hlast])]
  split
  · rename_i hempty
    rw [hstop, List.isEmpty_iff.mp hempty, List.reverse_reverse, List.reverse_nil, List.append_nil]
  · rw [List.reverse_append, List.reverse_reverse]

theorem opening_head (param : Param) : ∃ first, param.opening.head? = some first ∧
    first.isUnicodeWhitespace = false := by
  obtain ⟨first, rest, hname⟩ := List.exists_cons_of_ne_nil param.name_ne
  refine ⟨first, by rw [Param.opening, hname]; rfl, ?_⟩
  exact (tokenChar_plain (param.name_token first (hname ▸ List.mem_cons_self))).1

theorem not_mem_name {param : Param} {c : Char} (hc : tokenChar c = false) :
    c ∉ param.name.toList := by
  intro hmem
  rw [param.name_token c hmem] at hc
  cases hc

theorem splitOnce_opening (param : Param) (text : List Char) :
    Text.splitOnce '=' (param.opening ++ text) = some (param.name.toList, '"' :: text) := by
  rw [Param.opening, List.append_assoc]
  exact Text.splitOnce_append (not_mem_name rfl)

theorem unquote_quoted (text : List Char) : unquote ('"' :: (text ++ ['"'])) = some text := by
  rw [unquote, List.getLast?_concat, if_pos rfl, List.dropLast_concat]

theorem unquote_unquoted {text : List Char} (h : '"' ∉ text) : unquote ('"' :: text) = none := by
  rw [unquote, if_neg]
  exact fun hlast => h (List.mem_of_getLast? hlast)

theorem blanks_replicate (n : Nat) : ∀ c ∈ List.replicate n ' ', c.isUnicodeWhitespace = true :=
  fun _ hc => List.eq_of_mem_replicate hc ▸ rfl

theorem insertField_write {param : Param} {fields : SortedMap String String}
    (h : fields.get? param.name = none) :
    insertField fields param.write = .ok (fields.insert param.name param.value) := by
  obtain ⟨first, hfirst, hplain⟩ := opening_head param
  have htrim : trim param.write = param.opening ++ (param.value.toList ++ ['"']) := by
    have hcore : param.opening ++ (param.value.toList ++ '"' :: List.replicate param.after ' ') =
        (param.opening ++ (param.value.toList ++ ['"'])) ++ List.replicate param.after ' ' := by
      simp
    have hhead : (param.opening ++ (param.value.toList ++ ['"'])).head? = some first := by
      rw [List.head?_append, hfirst]
      rfl
    have hend : (param.opening ++ (param.value.toList ++ ['"'])).getLast? = some '"' := by
      rw [← List.append_assoc, List.getLast?_concat]
    rw [Param.write, hcore, trim_core (blanks_replicate _) hplain rfl hhead hend,
      List.rdropWhile_eq_nil_iff.mpr (blanks_replicate _), List.append_nil]
  have hnew : fields.contains param.name = false := by
    rw [SortedMap.contains, h]
    rfl
  rw [insertField, htrim, splitOnce_opening]
  simp only [unquote_quoted, String.ofList_toList, hnew]
  rfl

/-- A part that breaks off inside a value is refused. -/
theorem insertField_broken {param : Param} {text : List Char} (h : '"' ∉ text)
    (fields : SortedMap String String) :
    ∃ error, insertField fields
      (List.replicate param.before ' ' ++ (param.opening ++ text)) = .error error := by
  obtain ⟨first, hfirst, hplain⟩ := opening_head param
  have hquote : param.opening.getLast? = some '"' := by
    rw [Param.opening, List.getLast?_append]
    rfl
  have hclosed : '"' ∉ text.rdropWhile Char.isUnicodeWhitespace :=
    fun hmem => h ((List.rdropWhile_prefix _ _).subset hmem)
  rw [insertField, trim_core (blanks_replicate _) hplain rfl hfirst hquote, splitOnce_opening]
  simp only [unquote_unquoted hclosed]
  exact ⟨_, rfl⟩

/-! ## All parts -/

theorem comma_not_mem_opening (param : Param) :
    ',' ∉ List.replicate param.before ' ' ++ param.opening := by
  have hblanks : ',' ∉ List.replicate param.before ' ' :=
    fun hmem => nomatch List.eq_of_mem_replicate hmem
  have hname : ',' ∉ param.name.toList := not_mem_name rfl
  simp [Param.opening, hblanks, hname]

theorem splitOn_write {param : Param} (h : ',' ∉ param.value.toList) :
    param.write.splitOn ',' = [param.write] := by
  have hopening := comma_not_mem_opening param
  have hblanks : ',' ∉ List.replicate param.after ' ' :=
    fun hmem => nomatch List.eq_of_mem_replicate hmem
  refine List.splitOn_eq_singleton ?_
  rw [Param.write, ← List.append_assoc]
  intro hmem
  rcases List.mem_append.mp hmem with hmem | hmem
  · exact hopening hmem
  rcases List.mem_append.mp hmem with hmem | hmem
  · exact h hmem
  rcases List.mem_cons.mp hmem with hmem | hmem
  · cases hmem
  · exact hblanks hmem

/-- A comma in a value leaves a part that is broken off. -/
theorem broken_mem_splitOn_write {param : Param} (h : ',' ∈ param.value.toList) :
    ∃ text, '"' ∉ text ∧
      List.replicate param.before ' ' ++ (param.opening ++ text) ∈ param.write.splitOn ',' := by
  obtain ⟨front, back, hvalue, hfront⟩ := List.eq_append_cons_of_mem h
  refine ⟨front, fun hmem => ?_, ?_⟩
  · exact Bool.false_ne_true (param.value_plain '"' (hvalue ▸ List.mem_append_left _ hmem))
  · have hbroken : ',' ∉ List.replicate param.before ' ' ++ (param.opening ++ front) := by
      rw [← List.append_assoc, List.mem_append, not_or]
      exact ⟨comma_not_mem_opening param, hfront⟩
    have hwrite : param.write = (List.replicate param.before ' ' ++ (param.opening ++ front)) ++
        ',' :: (back ++ '"' :: List.replicate param.after ' ') := by
      simp [Param.write, hvalue]
    rw [hwrite, List.splitOn_append_cons_self, List.splitOn_eq_singleton hbroken]
    exact List.mem_append_left _ List.mem_cons_self

theorem foldlM_eq_error {f : β → α → Except ε β} {l : List α} {a : α} (ha : a ∈ l)
    (h : ∀ b, ∃ e, f b a = .error e) : ∀ b, ∃ e, l.foldlM f b = .error e := by
  induction l with
  | nil => cases ha
  | cons first l ih =>
    intro b
    rw [List.foldlM_cons]
    cases hfirst : f b first with
    | error e => exact ⟨e, rfl⟩
    | ok b' =>
      rcases List.mem_cons.mp ha with rfl | ha
      · obtain ⟨e, he⟩ := h b
        cases he.symm.trans hfirst
      · exact ih ha b'

theorem sent_eq_none_iff {params : List Param} {name : String} :
    sent params name = none ↔ name ∉ params.map (·.name) := by
  simp [sent]

/-- Parameters of different names are all kept. -/
theorem foldlM_insertField : ∀ {params : List Param} {fields : SortedMap String String},
    (params.map (·.name)).Nodup → (∀ param ∈ params, fields.get? param.name = none) →
      ∃ fields', (params.map (·.write)).foldlM insertField fields = .ok fields' ∧
        ∀ name, fields'.get? name = (sent params name).or (fields.get? name)
  | [], fields, _, _ => ⟨fields, rfl, fun _ => rfl⟩
  | param :: params, fields, hnodup, hnew => by
    obtain ⟨hname, hrest⟩ := List.nodup_cons.mp hnodup
    obtain ⟨hparam, hparams⟩ := List.forall_mem_cons.mp hnew
    have hnew' : ∀ other ∈ params,
        (fields.insert param.name param.value).get? other.name = none := by
      intro other hother
      have hne : other.name ≠ param.name :=
        fun hsame => hname (List.mem_map.mpr ⟨other, hother, hsame⟩)
      rw [SortedMap.get?_insert_ne _ _ hne]
      exact hparams other hother
    obtain ⟨fields', hfields', hget⟩ := foldlM_insertField hrest hnew'
    refine ⟨fields', ?_, fun name => ?_⟩
    · rw [List.map_cons, List.foldlM_cons, insertField_write hparam]
      exact hfields'
    · rw [hget]
      by_cases hsame : name = param.name
      · subst hsame
        rw [sent_eq_none_iff.mpr hname, SortedMap.get?_insert_self]
        simp [sent]
      · rw [SortedMap.get?_insert_ne _ _ hsame]
        simp [sent, Ne.symm hsame]

/-- The parts of accepted text have names that are all different. -/
theorem names_of_foldlM : ∀ {parts : List (List Char)} {fields fields' : SortedMap String String},
    parts.foldlM insertField fields = .ok fields' →
      (parts.map partName).Nodup ∧
        ∀ part ∈ parts, ∃ name, partName part = some name ∧ fields.contains name = false
  | [], _, _, _ => ⟨.nil, nofun⟩
  | part :: parts, fields, _, h => by
    rw [List.foldlM_cons] at h
    obtain ⟨next, hpart, hparts⟩ := Except.bind_eq_ok_iff.mp h
    obtain ⟨hnodup, hnames⟩ := names_of_foldlM hparts
    rw [insertField] at hpart
    cases hsplit : Text.splitOnce '=' (trim part) with
    | none =>
      rw [hsplit] at hpart
      cases hpart
    | some split =>
      obtain ⟨k, raw⟩ := split
      simp only [hsplit] at hpart
      cases hvalue : unquote raw with
      | none =>
        rw [hvalue] at hpart
        cases hpart
      | some v =>
        simp only [hvalue] at hpart
        split at hpart
        · cases hpart
        · rename_i hcontains
          cases hpart
          have hname : partName part = some (.ofList k) := by rw [partName, hsplit]; rfl
          have hother : ∀ other ∈ parts, ∃ name, partName other = some name ∧
              name ≠ .ofList k ∧ fields.contains name = false := by
            intro other hother
            obtain ⟨name, hsome, hnone⟩ := hnames other hother
            have hne : name ≠ .ofList k := by
              rintro rfl
              rw [SortedMap.contains, SortedMap.get?_insert_self] at hnone
              cases hnone
            refine ⟨name, hsome, hne, ?_⟩
            rw [SortedMap.contains, SortedMap.get?_insert_ne _ _ hne] at hnone
            exact hnone
          constructor
          · rw [List.map_cons, List.nodup_cons]
            refine ⟨fun hmem => ?_, hnodup⟩
            obtain ⟨other, hmem, hsame⟩ := List.mem_map.mp hmem
            obtain ⟨name, hsome, hne, -⟩ := hother other hmem
            rw [hname, hsome] at hsame
            exact hne (Option.some.inj hsame)
          · refine List.forall_mem_cons.mpr ⟨⟨_, hname, by simpa using hcontains⟩, ?_⟩
            intro other hmem
            obtain ⟨name, hsome, -, hnone⟩ := hother other hmem
            exact ⟨name, hsome, hnone⟩

/-! ## The challenge -/

theorem write_plain (param : Param) : ∀ c ∈ param.write, c.isUnicodeControl = false := by
  intro c hc
  simp only [Param.write, Param.opening, List.mem_append, List.mem_cons, List.not_mem_nil,
    or_false] at hc
  rcases hc with hc | (hc | rfl | rfl) | hc | rfl | hc
  · exact List.eq_of_mem_replicate hc ▸ rfl
  · exact (tokenChar_plain (param.name_token c hc)).2.1
  · rfl
  · rfl
  · have hplain := param.value_plain c hc
    rw [plainChar, Bool.and_eq_true, Bool.not_eq_true'] at hplain
    exact hplain.2
  · rfl
  · exact List.eq_of_mem_replicate hc ▸ rfl

theorem challengeText_plain (params : List Param) :
    (challengeText params).toList.any Char.isUnicodeControl = false := by
  have hscheme : scheme.any Char.isUnicodeControl = false := rfl
  have hparams : ∀ params : List Param, ∀ c ∈ [','].intercalate (params.map (·.write)),
      c.isUnicodeControl = false := by
    intro params c hc
    cases params with
    | nil => cases hc
    | cons param params =>
      rw [List.map_cons, Columns.intercalate_cons, List.mem_append, List.mem_flatMap] at hc
      rcases hc with hc | ⟨written, hwritten, hc⟩
      · exact write_plain param c hc
      · obtain ⟨other, -, rfl⟩ := List.mem_map.mp hwritten
        rcases List.mem_cons.mp hc with rfl | hc
        · rfl
        · exact write_plain other c hc
  rw [challengeText, String.toList_ofList, List.any_append, hscheme, Bool.false_or,
    List.any_eq_false]
  intro c hc
  rw [hparams params c hc]
  exact Bool.false_ne_true

theorem dropPrefix_challengeText (params : List Param) :
    (challengeText params).toList.dropPrefix? scheme =
      some ([','].intercalate (params.map (·.write))) := by
  rw [challengeText, String.toList_ofList]
  exact List.dropPrefix?_append_of_beq _ BEq.rfl

theorem splitOn_challenge {params : List Param} (hne : params ≠ []) :
    ([','].intercalate (params.map (·.write))).splitOn ',' =
      params.flatMap fun param => param.write.splitOn ',' := by
  rw [Columns.splitOn_intercalate ',' fun hnil => hne (List.map_eq_nil_iff.mp hnil),
    List.flatMap_map]

section
variable {SecureUrl : Type} {parseUrl : String → Bool → Except OAuthError SecureUrl}

/-- A challenge of so many bytes is read from its parts. -/
theorem parse_challengeText {params : List Param}
    (hbytes : (Text.utf8 (challengeText params)).length ≤ 4096) :
    BearerChallenge.parse parseUrl (challengeText params) = (do
      let fields ← (([','].intercalate (params.map (·.write))).splitOn ',').foldlM insertField ∅
      let resourceMetadata ← readUrl parseUrl (fields.get? "resource_metadata")
      let scope ← ScopeSet.parse ((fields.get? "scope").getD "")
      return { resourceMetadata, scope, error := fields.get? "error" }) := by
  have hplain : ¬(4096 < (Text.utf8 (challengeText params)).length ∨
      (challengeText params).toList.any Char.isUnicodeControl = true) := by
    rw [challengeText_plain]
    rintro (hlong | hcontrol)
    · exact hlong.not_ge hbytes
    · cases hcontrol
  rw [BearerChallenge.parse, if_neg hplain, dropPrefix_challengeText]

/-- A challenge is read as it was sent exactly when it has a parameter and no value has a comma;
no challenge with a repeated name is accepted. -/
theorem challenge_parses_iff :
    (∀ (params : List Param) (resourceMetadata : Option SecureUrl) (scope : ScopeSet),
      (params.map (·.name)).Nodup → (Text.utf8 (challengeText params)).length ≤ 4096 →
      readUrl parseUrl (sent params "resource_metadata") = .ok resourceMetadata →
      ScopeSet.parse ((sent params "scope").getD "") = .ok scope →
      (BearerChallenge.parse parseUrl (challengeText params) =
          .ok { resourceMetadata, scope, error := sent params "error" } ↔
        params ≠ [] ∧ ∀ param ∈ params, ',' ∉ param.value.toList)) ∧
    ∀ value challenge, BearerChallenge.parse parseUrl value = .ok challenge →
      (paramNames value).Nodup := by
  constructor
  · intro params resourceMetadata scope hnodup hbytes hurl hscope
    rw [parse_challengeText hbytes]
    constructor
    · intro h
      obtain ⟨fields, hfields, -⟩ := Except.bind_eq_ok_iff.mp h
      have hne : params ≠ [] := by
        rintro rfl
        cases hfields
      refine ⟨hne, fun param hparam hcomma => ?_⟩
      obtain ⟨text, htext, hmem⟩ := broken_mem_splitOn_write hcomma
      rw [splitOn_challenge hne] at hfields
      have hpart : List.replicate param.before ' ' ++ (param.opening ++ text) ∈
          params.flatMap fun param => param.write.splitOn ',' :=
        List.mem_flatMap.mpr ⟨param, hparam, hmem⟩
      obtain ⟨error, herror⟩ := foldlM_eq_error hpart (insertField_broken htext) ∅
      cases herror.symm.trans hfields
    · rintro ⟨hne, hcomma⟩
      have hparts : (params.flatMap fun param => param.write.splitOn ',') =
          params.map (·.write) := by
        rw [List.map_eq_flatMap]
        exact List.flatMap_congr fun param hparam => splitOn_write (hcomma param hparam)
      have hempty : ∀ param ∈ params, (∅ : SortedMap String String).get? param.name = none :=
        fun _ _ => rfl
      obtain ⟨fields, hfields, hget⟩ := foldlM_insertField hnodup hempty
      have hsent : ∀ name, fields.get? name = sent params name := by
        intro name
        rw [hget]
        exact Option.or_none
      rw [splitOn_challenge hne, hparts]
      refine Except.bind_eq_ok_iff.mpr ⟨fields, hfields, ?_⟩
      rw [hsent, hsent, hsent, hurl, hscope]
      rfl
  · intro value challenge h
    rw [BearerChallenge.parse] at h
    split at h
    · cases h
    cases hrest : value.toList.dropPrefix? scheme with
    | none =>
      rw [hrest] at h
      cases h
    | some rest =>
      rw [hrest] at h
      obtain ⟨fields, hfields, -⟩ := Except.bind_eq_ok_iff.mp h
      rw [paramNames, hrest]
      exact (names_of_foldlM hfields).1

end

namespace ChallengeSample

def anyUrl (value : String) (_ : Bool) : Except OAuthError String := .ok value

def readWrite : Param where
  name := "scope"
  value := "read write"
  before := 0
  after := 0
  name_ne := List.cons_ne_nil _ _
  name_token := List.all_eq_true.mp rfl
  value_plain := List.all_eq_true.mp rfl

def described : Param where
  name := "error_description"
  value := "expired, renew"
  before := 0
  after := 0
  name_ne := List.cons_ne_nil _ _
  name_token := List.all_eq_true.mp rfl
  value_plain := List.all_eq_true.mp rfl

end ChallengeSample

open ChallengeSample in
theorem challenge_parses_read_write :
    BearerChallenge.parse anyUrl (challengeText [readWrite]) =
      .ok { resourceMetadata := none, scope := .ofList ["read", "write"], error := none } :=
  (challenge_parses_iff.1 [readWrite] none _ (List.nodup_singleton _) (by decide +kernel) rfl
    (by decide +kernel)).mpr ⟨List.cons_ne_nil _ _, by decide +kernel⟩

open ChallengeSample in
/-- A comma inside the quotes of a value is taken for the end of the parameter. -/
theorem comma_in_value_refused :
    ([described].map (·.name)).Nodup ∧ (Text.utf8 (challengeText [described])).length ≤ 4096 ∧
    readUrl anyUrl (sent [described] "resource_metadata") = .ok none ∧
    ScopeSet.parse ((sent [described] "scope").getD "") = .ok ∅ ∧
    ∀ challenge, BearerChallenge.parse anyUrl (challengeText [described]) ≠ .ok challenge := by
  have hbytes : (Text.utf8 (challengeText [described])).length ≤ 4096 := by decide +kernel
  refine ⟨List.nodup_singleton _, hbytes, rfl, rfl, fun challenge h => ?_⟩
  rw [parse_challengeText hbytes] at h
  cases h

end SimAgentNet.OauthCore
