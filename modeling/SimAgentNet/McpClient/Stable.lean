import SimAgentNet.Data.Columns
import SimAgentNet.Data.Delimited
import SimAgentNet.McpClient.Session

/-! # The text of a cache key

The text under which a persistent store keeps an entry joins the parts of the key with `|`, which
the parts may contain. -/

namespace SimAgentNet.McpClient

/-! ## Endpoints -/

/-- A normalized HTTP origin and resource path. -/
structure HttpEndpoint where
  scheme : String
  authority : String
  resource : String

/-- The text before and after the first occurrence of another. -/
def splitOnceText (sep : List Char) : List Char → Option (List Char × List Char)
  | [] => if sep = [] then some ([], []) else none
  | c :: cs =>
    if sep.isPrefixOf (c :: cs) then some ([], (c :: cs).drop sep.length)
    else (splitOnceText sep cs).map fun (before, after) => (c :: before, after)

/-- The text before the last occurrence of a character. -/
def beforeLast (c : Char) (cs : List Char) : List Char :=
  if c ∈ cs then ((cs.reverse.dropWhile (· ≠ c)).drop 1).reverse else cs

namespace HttpEndpoint

/-- The authority without the port that its scheme stands for. -/
def withoutPort (scheme authority : List Char) : List Char :=
  if scheme = "http".toList ∧ ":80".toList <:+ authority ∨
      scheme = "https".toList ∧ ":443".toList <:+ authority then
    beforeLast ':' authority
  else authority

def components (rawPath : List Char) : List (List Char) :=
  (rawPath.splitOn '/').filter fun component => component ≠ [] ∧ component ≠ ['.']

/-- Parses an absolute HTTP URL without its fragment, its query, the default port and empty or `.`
components of the path. -/
def parse (value : String) : Except ClientError HttpEndpoint :=
  match splitOnceText "://".toList value.toList with
  | none => .error (.policy "endpoint URL must be absolute")
  | some (scheme, rest) =>
    let scheme := scheme.map Char.toLower
    if scheme ≠ "http".toList ∧ scheme ≠ "https".toList then
      .error (.policy "endpoint URL must use HTTP(S)")
    else
      let withoutQuery := (rest.takeWhile (· ≠ '#')).takeWhile (· ≠ '?')
      let (authority, rawPath) := (Text.splitOnce '/' withoutQuery).getD (withoutQuery, [])
      if authority = [] ∨ '@' ∈ authority then
        .error (.policy "endpoint identity excludes credentials and requires a host")
      else if "..".toList ∈ components rawPath then
        .error (.policy "endpoint resource cannot contain parent traversal")
      else
        .ok {
          scheme := .ofList scheme
          authority := .ofList (withoutPort scheme (authority.map Char.toLower))
          resource := .ofList ('/' :: ['/'].intercalate (components rawPath)) }

end HttpEndpoint

namespace EndpointIdentity

def display : EndpointIdentity → String
  | .http scheme authority resource => scheme ++ "://" ++ authority ++ resource
  | .processInstance instanceId => "process:" ++ instanceId

/-- An HTTP endpoint has been parsed; the identity of a process is any text. -/
def Valid : EndpointIdentity → Prop
  | .http scheme authority resource =>
    ∃ value, HttpEndpoint.parse value = .ok ⟨scheme, authority, resource⟩
  | .processInstance _ => True

end EndpointIdentity

def Era.debug : Era → String
  | .modern => "Modern"
  | .legacy => "Legacy"

/-- The text of the key for stores. -/
def CacheKey.stable (key : CacheKey) : String :=
  key.endpoint.display ++ "|" ++ key.era.debug ++ "|" ++ key.version ++ "|" ++
    key.principalScope ++ "|" ++ String.intercalate "," key.extensions ++ "|" ++ key.method ++
    "|" ++ key.canonicalParameters ++ "|" ++ key.paginationCursor.getD ""

/-! ## Endpoints by their texts -/

theorem mem_of_mem_beforeLast {c d : Char} {cs : List Char} (h : d ∈ beforeLast c cs) : d ∈ cs := by
  rw [beforeLast] at h
  split at h
  · have hdrop := List.mem_of_mem_drop (List.mem_reverse.mp h)
    exact List.mem_reverse.mp ((List.dropWhile_sublist _).subset hdrop)
  · exact h

theorem mem_of_mem_withoutPort {scheme authority : List Char} {c : Char}
    (h : c ∈ HttpEndpoint.withoutPort scheme authority) : c ∈ authority := by
  rw [HttpEndpoint.withoutPort] at h
  split at h
  · exact mem_of_mem_beforeLast h
  · exact h

theorem slash_of_toLower {c : Char} (h : c.toLower = '/') : c = '/' := by
  rw [Char.toLower] at h
  split at h
  · rename_i hupper
    have hval := congrArg (fun c : Char => c.val.toNat) h
    simp at hval
    have hA : 65 ≤ c.toNat := hupper.1
    have hZ : c.toNat ≤ 90 := hupper.2
    omega
  · exact h

theorem HttpEndpoint.parse_spec {value scheme authority resource : String}
    (h : parse value = .ok ⟨scheme, authority, resource⟩) :
    (scheme = "http" ∨ scheme = "https") ∧ '/' ∉ authority.toList ∧
      ∃ path, resource.toList = '/' :: path := by
  rw [parse] at h
  cases hsplit : splitOnceText "://".toList value.toList with
  | none =>
    rw [hsplit] at h
    cases h
  | some parts =>
    obtain ⟨scheme, rest⟩ := parts
    simp only [hsplit] at h
    split at h
    · cases h
    · rename_i hscheme
      split at h
      · cases h
      · split at h
        · cases h
        · cases h
          refine ⟨?_, ?_, _, String.toList_ofList⟩
          · rcases Classical.not_and_iff_not_or_not.mp hscheme with hhttp | hhttps
            · exact .inl (congrArg String.ofList (Classical.not_not.mp hhttp))
            · exact .inr (congrArg String.ofList (Classical.not_not.mp hhttps))
          · rw [String.toList_ofList]
            intro hslash
            obtain ⟨c, hc, hlower⟩ := List.mem_map.mp (mem_of_mem_withoutPort hslash)
            rw [slash_of_toLower hlower] at hc
            revert hc
            cases hpath : Text.splitOnce '/' ((rest.takeWhile (· ≠ '#')).takeWhile (· ≠ '?')) with
            | none => exact Text.splitOnce_eq_none_iff.mp hpath
            | some parts => exact (Text.eq_of_splitOnce hpath).2

theorem append_text_inj {sep : Char} {s t r r' : List Char} (hs : sep ∉ s) (ht : sep ∉ t)
    (h : s ++ sep :: r = t ++ sep :: r') : s = t ∧ r = r' := by
  have hsep (u : List Char) (hu : sep ∉ u) : ∀ a ∈ u, decide (a ≠ sep) = true := by
    intro a ha
    exact decide_eq_true fun he => hu (he ▸ ha)
  obtain ⟨heq, hrest⟩ := Delimited.append_stop_inj (hsep s hs) (hsep t ht) (by simp) (by simp) h
  exact ⟨heq, (List.cons.inj hrest).2⟩

theorem toList_display_http {scheme : String} (authority resource : String)
    (h : scheme = "http" ∨ scheme = "https") :
    ∃ rest, (EndpointIdentity.http scheme authority resource).display.toList = 'h' :: rest := by
  rcases h with rfl | rfl <;> simp [EndpointIdentity.display]

theorem toList_display_process (instanceId : String) :
    ∃ rest, (EndpointIdentity.processInstance instanceId).display.toList = 'p' :: rest := by
  simp [EndpointIdentity.display]

/-- Valid endpoints are told apart by their texts. -/
theorem display_inj {endpoint endpoint' : EndpointIdentity} (h : endpoint.Valid)
    (h' : endpoint'.Valid) (heq : endpoint.display = endpoint'.display) : endpoint = endpoint' := by
  have hchars := congrArg String.toList heq
  cases endpoint with
  | processInstance instanceId =>
    cases endpoint' with
    | processInstance instanceId' =>
      simp only [EndpointIdentity.display, String.toList_append, List.append_cancel_left_eq] at hchars
      rw [String.toList_inj.mp hchars]
    | http scheme' authority' resource' =>
      obtain ⟨value', hparse'⟩ := h'
      obtain ⟨rest, hrest⟩ := toList_display_process instanceId
      obtain ⟨rest', hrest'⟩ :=
        toList_display_http authority' resource' (HttpEndpoint.parse_spec hparse').1
      rw [hrest, hrest'] at hchars
      cases hchars
  | http scheme authority resource =>
    obtain ⟨value, hparse⟩ := h
    obtain ⟨hscheme, hauthority, path, hresource⟩ := HttpEndpoint.parse_spec hparse
    cases endpoint' with
    | processInstance instanceId' =>
      obtain ⟨rest, hrest⟩ := toList_display_http authority resource hscheme
      obtain ⟨rest', hrest'⟩ := toList_display_process instanceId'
      rw [hrest, hrest'] at hchars
      cases hchars
    | http scheme' authority' resource' =>
      obtain ⟨value', hparse'⟩ := h'
      obtain ⟨hscheme', hauthority', path', hresource'⟩ := HttpEndpoint.parse_spec hparse'
      have hcolon {s : String} (hs : s = "http" ∨ s = "https") : ':' ∉ s.toList := by
        rcases hs with rfl | rfl <;> simp
      simp only [EndpointIdentity.display, String.toList_append, List.append_assoc] at hchars
      obtain ⟨hs, hrest⟩ := append_text_inj (hcolon hscheme) (hcolon hscheme') hchars
      have hrest : authority.toList ++ resource.toList = authority'.toList ++ resource'.toList :=
        (List.cons.inj (List.cons.inj hrest).2).2
      rw [hresource, hresource'] at hrest
      obtain ⟨ha, hp⟩ := append_text_inj hauthority hauthority' hrest
      have hr : resource.toList = resource'.toList := by
        rw [hresource, hresource', hp]
      rw [String.toList_inj.mp hs, String.toList_inj.mp ha, String.toList_inj.mp hr]

/-! ## Keys by their texts -/

namespace CacheKey

/-- The parts of the key after its era. -/
def columns (key : CacheKey) : List (List Char) :=
  [key.version.toList, key.principalScope.toList, (String.intercalate "," key.extensions).toList,
    key.method.toList, key.canonicalParameters.toList, (key.paginationCursor.getD "").toList]

/-- No part after the era has a `|`, there is one extension and it is not empty and has no comma,
there is a cursor and it is not empty, and the endpoint does not begin with another one and an era,
each before a `|`. -/
structure Unambiguous (key : CacheKey) : Prop where
  columns : ∀ column ∈ key.columns, '|' ∉ column
  extensions : ∃ extension, key.extensions = [extension] ∧ extension ≠ "" ∧ ',' ∉ extension.toList
  cursor : ∃ cursor, key.paginationCursor = some cursor ∧ cursor ≠ ""
  endpoint : ∀ (endpoint : EndpointIdentity) (era : Era), endpoint.Valid →
    ¬(endpoint.display ++ "|" ++ era.debug ++ "|").toList <+: (key.endpoint.display ++ "|").toList

/-- No part after the era has a `|`, no extension is empty or has a comma, and the cursor is not
empty. -/
structure Plain (key : CacheKey) : Prop where
  columns : ∀ column ∈ key.columns, '|' ∉ column
  extensions : ∀ extension ∈ key.extensions, extension ≠ "" ∧ ',' ∉ extension.toList
  cursor : key.paginationCursor ≠ some ""

theorem toList_stable (key : CacheKey) : key.stable.toList = key.endpoint.display.toList ++
    (key.era.debug.toList :: key.columns).flatMap ('|' :: ·) := by
  simp [stable, columns]

theorem bar_not_mem_debug (era : Era) : '|' ∉ era.debug.toList := by
  cases era <;> simp [Era.debug]

theorem era_debug_inj {era era' : Era} (h : era.debug = era'.debug) : era = era' := by
  cases era <;> cases era' <;> simp [Era.debug] at h ⊢

/-- Where the parts after the era have no `|`, an equal text has the same endpoint, era and parts,
or the endpoint begins with the other one. -/
theorem parts_of_stable_eq {key key' : CacheKey} (hcols : ∀ column ∈ key.columns, '|' ∉ column)
    (hvalid : key.endpoint.Valid) (hvalid' : key'.endpoint.Valid) (h : key.stable = key'.stable) :
    key.endpoint = key'.endpoint ∧ key.era = key'.era ∧ key.columns = key'.columns ∨
      (key'.endpoint.display ++ "|" ++ key'.era.debug ++ "|").toList <+:
        (key.endpoint.display ++ "|").toList := by
  have hchars := congrArg String.toList h
  rw [toList_stable, toList_stable] at hchars
  have hbars : ∀ column ∈ key.era.debug.toList :: key.columns, '|' ∉ column := by
    rw [List.forall_mem_cons]
    exact ⟨bar_not_mem_debug _, hcols⟩
  rcases Columns.eq_or_prefix hchars rfl hbars (bar_not_mem_debug _) with ⟨hhead, htail⟩ | hprefix
  · obtain ⟨hera, hcolumns⟩ := List.cons.inj htail
    exact .inl ⟨display_inj hvalid hvalid' (String.toList_inj.mp hhead),
      era_debug_inj (String.toList_inj.mp hera), hcolumns⟩
  · right
    simpa using hprefix

theorem toList_join (extensions : List String) :
    (String.intercalate "," extensions).toList = [','].intercalate (extensions.map String.toList) :=
  String.toList_intercalate

/-- An extension without commas that is not empty is joined from itself alone. -/
theorem extensions_eq_singleton {extensions : List String} {extension : String}
    (h : String.intercalate "," extensions = extension) (hne : extension ≠ "")
    (hcomma : ',' ∉ extension.toList) : extensions = [extension] := by
  match extensions with
  | [] => exact absurd h.symm hne
  | [x] => exact congrArg (fun x => [x]) h
  | x :: y :: rest =>
    rw [← h, toList_join] at hcomma
    simp at hcomma

/-- Extensions without commas that are not empty are the pieces of their text. -/
theorem pieces_join {extensions : List String}
    (h : ∀ x ∈ extensions, x ≠ "" ∧ ',' ∉ x.toList) :
    ((String.intercalate "," extensions).toList.splitOn ',').filter (· ≠ []) =
      extensions.map String.toList := by
  rw [toList_join]
  cases extensions with
  | nil => rfl
  | cons x rest =>
    rw [List.splitOn_intercalate ',' (List.forall_mem_map.mpr fun x hx => (h x hx).2) (by simp),
      List.filter_eq_self]
    intro piece hp
    obtain ⟨y, hy, rfl⟩ := List.mem_map.mp hp
    exact decide_eq_true fun he => (h y hy).1 (String.toList_eq_nil_iff.mp he)

theorem extensions_inj {extensions extensions' : List String}
    (h : ∀ x ∈ extensions, x ≠ "" ∧ ',' ∉ x.toList)
    (h' : ∀ x ∈ extensions', x ≠ "" ∧ ',' ∉ x.toList)
    (heq : String.intercalate "," extensions = String.intercalate "," extensions') :
    extensions = extensions' := by
  have hpieces := pieces_join h
  rw [heq, pieces_join h'] at hpieces
  exact (List.map_injective_iff.mpr (fun _ _ => String.toList_inj.mp) hpieces).symm

theorem cursor_inj {cursor cursor' : Option String} (h : cursor ≠ some "") (h' : cursor' ≠ some "")
    (heq : cursor.getD "" = cursor'.getD "") : cursor = cursor' := by
  cases cursor with
  | none =>
    cases cursor' with
    | none => rfl
    | some text' => exact absurd (congrArg some heq.symm) h'
  | some text =>
    cases cursor' with
    | none => exact absurd (congrArg some heq) h
    | some text' => exact congrArg some heq

/-- Keys agree that agree in all but the extensions and the cursor, and in the texts of these. -/
theorem eq_of_columns {key key' : CacheKey} (hendpoint : key.endpoint = key'.endpoint)
    (hera : key.era = key'.era) (hcolumns : key.columns = key'.columns)
    (hextensions : String.intercalate "," key.extensions = String.intercalate "," key'.extensions →
      key.extensions = key'.extensions)
    (hcursor : key.paginationCursor.getD "" = key'.paginationCursor.getD "" →
      key.paginationCursor = key'.paginationCursor) : key = key' := by
  simp only [columns, List.cons.injEq, String.toList_inj, and_true] at hcolumns
  obtain ⟨hversion, hscope, hjoin, hmethod, hparameters, htext⟩ := hcolumns
  have hextensions := hextensions hjoin
  have hcursor := hcursor htext
  cases key
  cases key'
  simp only at hendpoint hera hversion hscope hextensions hmethod hparameters hcursor
  rw [hendpoint, hera, hversion, hscope, hextensions, hmethod, hparameters, hcursor]

theorem Unambiguous.eq_of_stable_eq {key key' : CacheKey} (hk : key.Unambiguous)
    (hvalid : key.endpoint.Valid) (hvalid' : key'.endpoint.Valid)
    (h : key'.stable = key.stable) : key' = key := by
  rcases parts_of_stable_eq hk.columns hvalid hvalid' h.symm with
    ⟨hendpoint, hera, hcolumns⟩ | hprefix
  · apply Eq.symm
    apply eq_of_columns hendpoint hera hcolumns
    · intro hjoin
      obtain ⟨extension, hext, hne, hcomma⟩ := hk.extensions
      rw [hext] at hjoin ⊢
      exact (extensions_eq_singleton hjoin.symm hne hcomma).symm
    · intro htext
      obtain ⟨cursor, hcursor, hne⟩ := hk.cursor
      rw [hcursor] at htext ⊢
      cases hcursor' : key'.paginationCursor with
      | none =>
        rw [hcursor'] at htext
        exact absurd htext hne
      | some cursor' =>
        rw [hcursor'] at htext
        exact congrArg some htext
  · exact absurd hprefix (hk.endpoint _ _ hvalid')

theorem Plain.eq_of_stable_eq {key key' : CacheKey} (hk : key.Plain) (hk' : key'.Plain)
    (hvalid : key.endpoint.Valid) (hvalid' : key'.endpoint.Valid)
    (h : key.stable = key'.stable) : key = key' := by
  rcases parts_of_stable_eq hk.columns hvalid hvalid' h with
    ⟨hendpoint, hera, hcolumns⟩ | hprefix
  · apply eq_of_columns hendpoint hera hcolumns (extensions_inj hk.extensions hk'.extensions)
    exact cursor_inj hk.cursor hk'.cursor
  · rcases parts_of_stable_eq hk'.columns hvalid' hvalid h.symm with
      ⟨hendpoint, -⟩ | hprefix'
    · have hlen := hprefix.length_le
      simp [hendpoint] at hlen
    · have hlen := hprefix.length_le
      have hlen' := hprefix'.length_le
      have hbar : "|".toList.length = 1 := rfl
      simp only [String.toList_append, List.length_append, hbar] at hlen hlen'
      omega

/-- Six parts are those of a key with one extension and a cursor. -/
theorem exists_key (endpoint : EndpointIdentity) (era : Era) (cols : List (List Char))
    (h : cols.length = 6) : ∃ key : CacheKey, key.endpoint = endpoint ∧ key.era = era ∧
      key.columns = cols ∧ (∃ extension, key.extensions = [extension]) ∧
        ∃ cursor, key.paginationCursor = some cursor := by
  match cols, h with
  | [version, scope, extension, method, parameters, cursor], _ =>
    refine ⟨{
      endpoint, era
      version := .ofList version
      principalScope := .ofList scope
      extensions := [.ofList extension]
      method := .ofList method
      canonicalParameters := .ofList parameters
      paginationCursor := some (.ofList cursor) }, rfl, rfl, ?_, ⟨_, rfl⟩, _, rfl⟩
    simp [columns]

theorem columns_of_unique {key : CacheKey}
    (hunique : ∀ key' : CacheKey, key'.endpoint.Valid → key'.stable = key.stable → key' = key)
    (hvalid : key.endpoint.Valid) : ∀ column ∈ key.columns, '|' ∉ column := by
  intro column hmem hbar
  obtain ⟨cols, hne, hlen, hcols⟩ :=
    Columns.exists_other (show 2 ≤ key.columns.length from Nat.le_add_left 2 4) ⟨column, hmem, hbar⟩
  obtain ⟨key', hendpoint, hera, hcolumns, -⟩ := exists_key key.endpoint key.era cols hlen
  have hkey : key' = key := by
    apply hunique key' (hendpoint ▸ hvalid)
    apply String.toList_inj.mp
    rw [toList_stable, toList_stable, hendpoint, hera, hcolumns, List.flatMap_cons,
      List.flatMap_cons, hcols]
  rw [hkey] at hcolumns
  exact hne hcolumns.symm

theorem endpoint_of_unique {key : CacheKey}
    (hunique : ∀ key' : CacheKey, key'.endpoint.Valid → key'.stable = key.stable → key' = key)
    {endpoint : EndpointIdentity} {era : Era} (hvalid : endpoint.Valid) :
    ¬(endpoint.display ++ "|" ++ era.debug ++ "|").toList <+:
      (key.endpoint.display ++ "|").toList := by
  rintro ⟨rest, hrest⟩
  -- the rest of the endpoint and the era become the first part of another key
  obtain ⟨key', hendpoint, hera, hcolumns, -⟩ := exists_key endpoint era
    ((rest ++ key.era.debug.toList ++ '|' :: key.version.toList) :: key.columns.tail) rfl
  have hkey : key' = key := by
    apply hunique key' (hendpoint ▸ hvalid)
    apply String.toList_inj.mp
    rw [toList_stable, toList_stable, hendpoint, hera, hcolumns]
    have hhead (tail : List Char) : key.endpoint.display.toList ++ '|' :: tail =
        endpoint.display.toList ++ '|' :: (era.debug.toList ++ '|' :: (rest ++ tail)) := by
      have happend := congrArg (· ++ tail) hrest
      simpa using happend.symm
    simp only [columns, List.tail_cons, List.flatMap_cons, List.cons_append, hhead,
      List.append_assoc]
  rw [hkey] at hendpoint
  have hlen := congrArg List.length hrest
  simp [hendpoint] at hlen

theorem unambiguous_of_unique {key : CacheKey}
    (hunique : ∀ key' : CacheKey, key'.endpoint.Valid → key'.stable = key.stable → key' = key)
    (hvalid : key.endpoint.Valid) : key.Unambiguous := by
  have hcolumns := columns_of_unique hunique hvalid
  -- the key is the one with its own parts, so it has one extension and a cursor
  obtain ⟨own, hendpoint, hera, hown, ⟨extension, hext⟩, cursor, hcursor⟩ :=
    exists_key key.endpoint key.era key.columns rfl
  have heq : own = key := by
    apply hunique own (hendpoint ▸ hvalid)
    apply String.toList_inj.mp
    rw [toList_stable, toList_stable, hendpoint, hera, hown]
  rw [heq] at hext hcursor
  refine ⟨hcolumns, ⟨extension, hext, ?_, ?_⟩, ⟨cursor, hcursor, ?_⟩,
    fun endpoint era => endpoint_of_unique hunique⟩
  · rintro rfl
    have hnone := hunique { key with extensions := [] } hvalid (by simp [stable, hext])
    have hlen := congrArg (·.extensions.length) hnone
    simp [hext] at hlen
  · intro hcomma
    obtain ⟨a, b, hab⟩ := List.append_of_mem hcomma
    have htwo := hunique { key with extensions := [.ofList a, .ofList b] } hvalid (by
      apply String.toList_inj.mp
      simp [stable, hext, hab])
    have hlen := congrArg (·.extensions.length) htwo
    simp [hext] at hlen
  · rintro rfl
    have hnone := hunique { key with paginationCursor := none } hvalid (by simp [stable, hcursor])
    have hsome := congrArg (·.paginationCursor) hnone
    simp [hcursor] at hsome

/-- The text of a key names that key alone exactly when the key is unambiguous, and no two plain
keys have one text. -/
theorem stable_names_one_iff (key : CacheKey) (hvalid : key.endpoint.Valid) :
    ((∀ key' : CacheKey, key'.endpoint.Valid → key'.stable = key.stable → key' = key) ↔
      key.Unambiguous) ∧
    ∀ key' : CacheKey, key'.endpoint.Valid → key.Plain → key'.Plain →
      key.stable = key'.stable → key = key' := by
  refine ⟨⟨fun h => unambiguous_of_unique h hvalid, ?_⟩, ?_⟩
  · intro hk key' hvalid' h
    exact hk.eq_of_stable_eq hvalid hvalid' h
  · intro key' hvalid' hk hk' h
    exact hk.eq_of_stable_eq hk' hvalid hvalid' h

namespace StableSample

def key (cursor : Option String) : CacheKey where
  endpoint := .processInstance "1"
  era := .modern
  version := "1"
  principalScope := "a"
  extensions := []
  method := "tools/list"
  canonicalParameters := "\x7b\x7d"
  paginationCursor := cursor

theorem cursorless_shares_text : (key none).endpoint.Valid ∧
    ¬∀ key' : CacheKey, key'.endpoint.Valid → key'.stable = (key none).stable → key' = key none := by
  refine ⟨trivial, fun h => ?_⟩
  obtain ⟨cursor, hcursor, -⟩ := ((stable_names_one_iff (key none) trivial).1.mp h).cursor
  cases hcursor

end StableSample

/-- A key without a cursor and one with an empty cursor have one text. -/
theorem stable_of_empty_cursor : ¬∀ key key' : CacheKey, key.endpoint.Valid →
    key'.endpoint.Valid → key.stable = key'.stable → key = key' := by
  intro h
  have heq := h (StableSample.key none) (StableSample.key (some "")) trivial trivial rfl
  cases congrArg (·.paginationCursor) heq

end CacheKey

end SimAgentNet.McpClient
