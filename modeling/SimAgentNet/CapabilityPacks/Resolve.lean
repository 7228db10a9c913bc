import SimAgentNet.Data.SortedMap
import SimAgentNet.Data.Effect
import SimAgentNet.Data.Walk
import SimAgentNet.Kernel.Expr

/-! # Resolving capability packs

The import closure of a pack with the effective ceiling of each pack in it. How fields are read
from kernel expressions is a parameter, as is the directory of packs. `visit` calls itself along
the imports; `depth` is the number of nested calls there is room for.

`resolve_ceilings` says which ceiling the walk records: what is left on the paths that take the
first path to the last importer. Other paths do not narrow below a finished pack. -/

namespace SimAgentNet.CapabilityPacks

/-! ## Packs -/

def hexDigit (c : Char) : Bool := ('0' ≤ c && c ≤ '9') || ('a' ≤ c && c ≤ 'f')

def Digest (digits : List Char) : Prop := digits.length = 64 ∧ digits.all hexDigit

instance (digits : List Char) : Decidable (Digest digits) := inferInstanceAs (Decidable (_ ∧ _))

/-- A canonical content id, `sha256:` and 64 lowercase hexadecimal digits. -/
structure ContentId where
  text : String
  scheme : text.toList.take 7 = "sha256:".toList
  digest : Digest (text.toList.drop 7)
deriving DecidableEq

namespace ContentId

theorem text_injective : Function.Injective text := by
  intro ⟨a, _, _⟩ ⟨b, _, _⟩ h
  cases h
  rfl

instance : LinearOrder ContentId := .lift' text text_injective

def parse (value : String) : Except String ContentId :=
  if hs : value.toList.take 7 = "sha256:".toList then
    if hd : Digest (value.toList.drop 7) then .ok ⟨value, hs, hd⟩
    else .error "content id must contain 64 lowercase hexadecimal digits"
  else .error "mutable locator: expected sha256 content id"

theorem parse_text (id : ContentId) : parse id.text = .ok id := by
  rw [parse, dif_pos id.scheme, dif_pos id.digest]

end ContentId

structure Import where
  aliasName : Symbol
  content : ContentId
  ceiling : SortedSet Symbol
deriving DecidableEq

def currentPackVersion : Nat := 1

structure CapabilityPack (Mode : Type) where
  version : Nat
  content : String
  imports : List (Expr Mode)
  libraries : List (Expr Mode)
  claims : List (Expr Mode)
  outputs : List (Expr Mode)
  surfaces : List (Expr Mode)
  specimens : List (Expr Mode)
  fallbacks : List (Expr Mode)
deriving DecidableEq

/-- Reading a field of a record from an expression; the text is the name of the field. -/
structure Fields (Mode : Type) where
  symbol : Expr Mode → String → Except String Symbol
  text : Expr Mode → String → Except String String
  symbols : Expr Mode → String → Except String (List Symbol)

variable {Mode : Type}

def list (e : Expr Mode) (n : Nat) (kind : String) : Except String (List (Expr Mode)) :=
  match e with
  | .list v => if v.length = n then .ok v
    else .error (kind ++ " must be a " ++ toString n ++ "-field list")
  | _ => .error (kind ++ " must be a " ++ toString n ++ "-field list")

section
variable (fields : Fields Mode)

def parseImport (e : Expr Mode) : Except String Import := do
  match ← list e 3 "import" with
  | [a, b, c] =>
    let aliasName ← fields.symbol a "alias"
    let content ← ContentId.parse (← fields.text b "content")
    let ceiling ← fields.symbols c "ceiling"
    return ⟨aliasName, content, .ofList ceiling⟩
  | _ => .error "import must be a 3-field list"

def CapabilityPack.typedImports (pack : CapabilityPack Mode) : Except String (List Import) :=
  pack.imports.mapM (parseImport fields)

end

/-! ## Resolving -/

/-- An immutable directory of packs, each with its verified id. -/
abbrev PackDir (Mode : Type) := ContentId → Option (ContentId × CapabilityPack Mode)

inductive ResolveError where
  | missing (id : ContentId)
  | contentMismatch (requested actual : ContentId)
  | cycle (path : List ContentId)
  | aliasConflict (aliasName : Symbol)
  | malformed (message : String)
  | unsupportedVersion (version : Nat)
deriving DecidableEq

structure ResolvedPack (Mode : Type) where
  root : ContentId
  packs : List (ContentId × CapabilityPack Mode)
  ceilings : SortedMap ContentId (SortedSet Symbol)
deriving DecidableEq

/-- What the walk carries from pack to pack. -/
structure Progress (Mode : Type) where
  done : SortedSet ContentId
  aliases : SortedMap Symbol ContentId
  packs : List (ContentId × CapabilityPack Mode)
  ceilings : SortedMap ContentId (SortedSet Symbol)

def Progress.init : Progress Mode := ⟨∅, ∅, [], ∅⟩

abbrev Visit := Except (Halt ResolveError)

/-- The object of an id, checked against it. -/
def lookupPack (dir : PackDir Mode) (id : ContentId) : Except ResolveError (CapabilityPack Mode) :=
  match dir id with
  | none => .error (.missing id)
  | some (actual, pack) =>
    if actual ≠ id then .error (.contentMismatch id actual)
    else match ContentId.parse pack.content with
      | .error e => .error (.malformed e)
      | .ok content =>
        if content ≠ id then .error (.contentMismatch id content)
        else if pack.version ≠ currentPackVersion then .error (.unsupportedVersion pack.version)
        else .ok pack

/-- A pack that is finished already: its own ceiling is narrowed. -/
def revisit (id : ContentId) (ceiling : SortedSet Symbol) (p : Progress Mode) : Visit (Progress Mode) :=
  match p.ceilings.get? id with
  | none => .error .panicked
  | some prior => .ok { p with ceilings := p.ceilings.insert id (prior ∩ ceiling) }

/-- One import of the loop of `visit`. -/
def visitImport (visit : ContentId → SortedSet Symbol → Progress Mode → Visit (Progress Mode))
    (ceiling : SortedSet Symbol) (p : Progress Mode) (imp : Import) : Visit (Progress Mode) :=
  if (p.aliases.get? imp.aliasName).any (· ≠ imp.content) then
    .error (.failure (.aliasConflict imp.aliasName))
  else visit imp.content (ceiling ∩ imp.ceiling)
    { p with aliases := p.aliases.insert imp.aliasName imp.content }

section
variable (fields : Fields Mode) (dir : PackDir Mode)

def visit : Nat → ContentId → SortedSet Symbol → List ContentId → Progress Mode → Visit (Progress Mode)
  | 0, _, _, _, _ => .error .panicked
  | depth + 1, id, ceiling, stack, p =>
    if id ∈ stack then .error (.failure (.cycle (stack.dropWhile (· ≠ id) ++ [id])))
    else if id ∈ p.done then revisit id ceiling p
    else do
      let pack ← (lookupPack dir id).mapError .failure
      let imports ← (pack.typedImports fields).mapError (.failure ∘ .malformed)
      let q ← imports.foldlM (visitImport (fun i c p => visit depth i c (stack ++ [id]) p) ceiling) p
      return { q with
        done := q.done.insert id
        ceilings := q.ceilings.insert id ceiling
        packs := q.packs ++ [(id, pack)] }

def resolve (depth : Nat) (root : ContentId) (ceiling : SortedSet Symbol) :
    Visit (ResolvedPack Mode) := do
  let p ← visit fields dir depth root ceiling [] .init
  return ⟨root, p.packs, p.ceilings⟩

end

/-! ## The walk and the import paths -/

section
variable (fields : Fields Mode) (dir : PackDir Mode)

/-- The imports a pack of the directory declares, with their ceilings. -/
def declared (id : ContentId) : List (ContentId × SortedSet Symbol) :=
  (((dir id).bind fun e => (e.2.typedImports fields).toOption).getD []).map fun i =>
    (i.content, i.ceiling)

/-- The import path leads from the root to the pack and leaves it this ceiling. -/
abbrev ImportPath (root : ContentId) (ceiling : SortedSet Symbol) :=
  Walk.Reaches (declared fields dir) (· ∩ ·) root ceiling

/-- An import path along the first path to the last importer. -/
abbrev WalkedPath (root : ContentId) (ceiling : SortedSet Symbol) :=
  Walk.Arrives (declared fields dir) (· ∩ ·) root ceiling

end

section Invariant
variable {fields : Fields Mode} {dir : PackDir Mode} {root id : ContentId}
  {ceiling c : SortedSet Symbol} {p p' : Progress Mode}

theorem lookupPack_spec (h : lookupPack dir id = .ok pack)
    (hi : pack.typedImports fields = .ok imports) :
    declared fields dir id = imports.map fun i => (i.content, i.ceiling) := by
  unfold lookupPack at h
  cases hd : dir id with
  | none => simp [hd] at h
  | some e =>
    obtain ⟨actual, found⟩ := e
    simp only [hd, Except.guard_eq_ok_iff] at h
    obtain ⟨-, h⟩ := h
    split at h
    · cases h
    · simp only [Except.guard_eq_ok_iff] at h
      obtain ⟨-, -, h⟩ := h
      cases h
      simp [declared, hd, hi, Except.toOption]

variable (fields dir root ceiling) in
/-- The walk has come along the paths of `S`: their ends are finished, with the ceilings that the
walked ones among them leave. -/
structure Walked (S : List Nat → Prop) (p : Progress Mode) : Prop where
  done : ∀ a, a ∈ p.done ↔ ∃ ρ d, S ρ ∧ ImportPath fields dir root ceiling ρ a d
  recorded : ∀ a, a ∈ p.done ↔ ∃ c, p.ceilings.get? a = some c
  ceilings : ∀ a c, p.ceilings.get? a = some c → ∀ s, s ∈ c ↔
    ∀ ρ d, S ρ → WalkedPath fields dir root ceiling ρ a d → s ∈ d

theorem Walked.init : Walked fields dir root ceiling (Walk.Earlier · []) .init where
  done a := by simp [Progress.init, Walk.not_earlier_nil]
  recorded a := by simp [Progress.init]
  ceilings a c h := by simp [Progress.init] at h

theorem Walked.congr {S S' : List Nat → Prop} (h : Walked fields dir root ceiling S p)
    (hS : ∀ ρ, S ρ ↔ S' ρ) : Walked fields dir root ceiling S' p := by
  obtain rfl : S = S' := funext fun ρ => propext (hS ρ)
  exact h

/-- Coming again to a finished pack narrows its own ceiling; what lies below is finished too, and
no first path leads there through this one. -/
theorem Walked.revisit (h : Walked fields dir root ceiling (Walk.Earlier · π) p)
    (ha : WalkedPath fields dir root ceiling π id c) (hdone : id ∈ p.done)
    (hr : CapabilityPacks.revisit id c p = .ok p') :
    Walked fields dir root ceiling (fun ρ => Walk.Earlier ρ π ∨ π <+: ρ) p' ∧
      p'.done = p.done := by
  obtain ⟨prior, hprior⟩ := (h.recorded id).mp hdone
  simp only [CapabilityPacks.revisit, hprior, Except.ok.injEq] at hr
  subst hr
  obtain ⟨ρ₀, d₀, hearlier, hreach⟩ := (h.done id).mp hdone
  -- a path on from here can be taken from the earlier path
  have hdetour : ∀ σ a d, ImportPath fields dir root ceiling (π ++ σ) a d →
      ∃ ρ d', Walk.Earlier ρ (π ++ σ) ∧ Walk.Earlier ρ π ∧ ImportPath fields dir root ceiling ρ a d' := by
    intro σ a d hσ
    obtain ⟨d', hd'⟩ := hσ.detour ha.reaches hreach
    exact ⟨_, d', hearlier.append σ σ, by simpa using hearlier.append σ [], hd'⟩
  have hnew : ∀ ρ a d, π <+: ρ → WalkedPath fields dir root ceiling ρ a d → a = id ∧ d = c := by
    rintro _ a d ⟨σ, rfl⟩ hw
    rcases List.eq_nil_or_concat σ with rfl | ⟨σ, i, rfl⟩
    · rw [List.append_nil] at hw
      exact hw.reaches.functional ha.reaches
    · rw [List.concat_eq_append, ← List.append_assoc] at hw
      obtain ⟨b, e, k, hfirst, -, -⟩ := hw.of_concat
      obtain ⟨ρ, d', hρ, -, hd'⟩ := hdetour σ b e hfirst.1
      exact absurd hρ (hfirst.2 ρ d' hd')
  refine ⟨⟨?_, ?_, ?_⟩, rfl⟩
  · intro a
    rw [h.done]
    constructor
    · rintro ⟨ρ, d, hρ, hd⟩
      exact ⟨ρ, d, .inl hρ, hd⟩
    · rintro ⟨ρ, d, hρ | ⟨σ, rfl⟩, hd⟩
      · exact ⟨ρ, d, hρ, hd⟩
      · obtain ⟨ρ, d', -, hρ, hd'⟩ := hdetour σ a d hd
        exact ⟨ρ, d', hρ, hd'⟩
  · intro a
    rw [h.recorded]
    by_cases hai : a = id
    · subst hai
      simp [hprior]
    · simp [hai]
  · intro a c' hc' s
    rw [SortedMap.get?_insert] at hc'
    split at hc'
    · rename_i hai
      cases hc'
      subst hai
      rw [SortedSet.mem_inter, h.ceilings _ _ hprior]
      constructor
      · rintro ⟨hp, hc⟩ ρ d (hρ | hρ) hw
        · exact hp ρ d hρ hw
        · rw [(hnew ρ _ d hρ hw).2]
          exact hc
      · intro hall
        exact ⟨fun ρ d hρ hw => hall ρ d (.inl hρ) hw, hall π c (.inr (List.prefix_refl π)) ha⟩
    · rename_i hai
      rw [h.ceilings a c' hc']
      constructor
      · rintro hall ρ d (hρ | hρ) hw
        · exact hall ρ d hρ hw
        · exact absurd (hnew ρ a d hρ hw).1 hai
      · intro hall ρ d hρ hw
        exact hall ρ d (.inl hρ) hw

/-- A finished pack: the packs below it were finished before, with none of the stack. -/
theorem Walked.finish (ha : WalkedPath fields dir root ceiling π id c)
    (hq : Walked fields dir root ceiling
      (Walk.Earlier · (π ++ [(declared fields dir id).length])) q) (hqd : id ∉ q.done) :
    Walked fields dir root ceiling (fun ρ => Walk.Earlier ρ π ∨ π <+: ρ)
      { q with
        done := q.done.insert id
        ceilings := q.ceilings.insert id c
        packs } := by
  -- every path through the pack goes on along one of its imports
  have hon : ∀ ρ a d, π <+: ρ → ImportPath fields dir root ceiling ρ a d →
      (a = id ∧ d = c) ∨ Walk.Earlier ρ (π ++ [(declared fields dir id).length]) := by
    rintro _ a d ⟨σ, rfl⟩ hd
    cases σ with
    | nil =>
      rw [List.append_nil] at hd
      exact .inl (hd.functional ha.reaches)
    | cons i σ =>
      refine .inr (Walk.earlier_concat_iff.mpr (.inr ⟨i, hd.lt_length ha.reaches, σ, by simp⟩))
  have hback : ∀ ρ, Walk.Earlier ρ (π ++ [(declared fields dir id).length]) →
      Walk.Earlier ρ π ∨ π <+: ρ := by
    intro ρ hρ
    rcases Walk.earlier_concat_iff.mp hρ with hρ | ⟨i, -, σ, rfl⟩
    · exact .inl hρ
    · exact .inr ⟨[i] ++ σ, by simp⟩
  have hforth : ∀ ρ a d, Walk.Earlier ρ π ∨ π <+: ρ → ImportPath fields dir root ceiling ρ a d →
      (a = id ∧ d = c) ∨ Walk.Earlier ρ (π ++ [(declared fields dir id).length]) := by
    rintro ρ a d (hρ | hρ) hd
    · exact .inr (Walk.earlier_concat_iff.mpr (.inl hρ))
    · exact hon ρ a d hρ hd
  refine ⟨?_, ?_, ?_⟩
  · intro a
    rw [SortedSet.mem_insert, hq.done]
    constructor
    · rintro (rfl | ⟨ρ, d, hρ, hd⟩)
      · exact ⟨π, c, .inr (List.prefix_refl π), ha.reaches⟩
      · exact ⟨ρ, d, hback ρ hρ, hd⟩
    · rintro ⟨ρ, d, hρ, hd⟩
      rcases hforth ρ a d hρ hd with ⟨rfl, -⟩ | hρ
      · exact .inl rfl
      · exact .inr ⟨ρ, d, hρ, hd⟩
  · intro a
    rw [SortedSet.mem_insert, hq.recorded]
    by_cases hai : a = id
    · simp [hai]
    · simp [hai]
  · intro a c' hc' s
    rw [SortedMap.get?_insert] at hc'
    split at hc'
    · rename_i hai
      cases hc'
      subst hai
      constructor
      · intro hs ρ d hρ hw
        rcases hforth ρ _ d hρ hw.reaches with ⟨-, rfl⟩ | hρ
        · exact hs
        · exact absurd ((hq.done _).mpr ⟨ρ, d, hρ, hw.reaches⟩) hqd
      · intro hall
        exact hall π c (.inr (List.prefix_refl π)) ha
    · rename_i hai
      rw [hq.ceilings a c' hc']
      constructor
      · intro hall ρ d hρ hw
        rcases hforth ρ a d hρ hw.reaches with ⟨rfl, -⟩ | hρ
        · exact absurd rfl hai
        · exact hall ρ d hρ hw
      · intro hall ρ d hρ hw
        exact hall ρ d (hback ρ hρ) hw

variable (fields dir root ceiling) in
/-- What a call does to the walk when it comes along a walked path. -/
def Advances (visit : ContentId → SortedSet Symbol → Progress Mode → Visit (Progress Mode))
    (stack : List ContentId) : Prop :=
  ∀ π id c p p', Walked fields dir root ceiling (Walk.Earlier · π) p →
    WalkedPath fields dir root ceiling π id c → (∀ a ∈ stack, a ∉ p.done) →
    visit id c p = .ok p' →
      Walked fields dir root ceiling (fun ρ => Walk.Earlier ρ π ∨ π <+: ρ) p' ∧
        ∀ a ∈ stack, a ∉ p'.done

theorem Walked.with_aliases {S : List Nat → Prop} (h : Walked fields dir root ceiling S p)
    (aliases : SortedMap Symbol ContentId) :
    Walked fields dir root ceiling S { p with aliases := aliases } :=
  ⟨h.done, h.recorded, h.ceilings⟩

/-- The loop over the imports of a pack on its first path. -/
theorem Advances.loop
    {visit : ContentId → SortedSet Symbol → Progress Mode → Visit (Progress Mode)}
    {imports : List Import} (before : List Import)
    (hv : Advances fields dir root ceiling visit stack)
    (hf : Walk.First (declared fields dir) (· ∩ ·) root ceiling π id c)
    (hd : declared fields dir id = (before ++ imports).map fun i => (i.content, i.ceiling))
    (hp : Walked fields dir root ceiling (Walk.Earlier · (π ++ [before.length])) p)
    (hs : ∀ a ∈ stack, a ∉ p.done) (h : imports.foldlM (visitImport visit c) p = .ok q) :
    Walked fields dir root ceiling (Walk.Earlier · (π ++ [(declared fields dir id).length])) q ∧
      ∀ a ∈ stack, a ∉ q.done := by
  induction imports generalizing before p with
  | nil =>
    cases h
    rw [hd]
    simpa using ⟨hp, hs⟩
  | cons imp imports ih =>
    obtain ⟨u, hu, h⟩ := Run.foldlM_cons_eq_ok_iff.mp h
    obtain ⟨-, hu⟩ := Except.guard_eq_ok_iff.mp hu
    have harr : WalkedPath fields dir root ceiling (π ++ [before.length]) imp.content
        (c ∩ imp.ceiling) := .edge hf (by simp [hd])
    obtain ⟨hw, hs'⟩ := hv _ _ _ _ _ (hp.with_aliases (p.aliases.insert imp.aliasName imp.content))
      harr hs hu
    refine ih (before ++ [imp]) (by simpa using hd) ?_ hs' h
    rw [List.length_append, List.length_singleton]
    exact hw.congr fun ρ => Walk.earlier_succ_iff.symm

theorem visit_advances (depth : Nat) (stack : List ContentId) :
    Advances fields dir root ceiling (fun id c p => visit fields dir depth id c stack p) stack := by
  induction depth generalizing stack with
  | zero =>
    intro π id c p p' _ _ _ h
    cases h
  | succ depth ih =>
    intro π id c p p' hp ha hs h
    simp only [visit, Except.guard_eq_ok_iff] at h
    obtain ⟨hstack, h⟩ := h
    split at h
    · rename_i hdone
      obtain ⟨hw, he⟩ := hp.revisit ha hdone h
      exact ⟨hw, he ▸ hs⟩
    · rename_i hdone
      simp only [Except.bind_eq_ok_iff, Except.mapError_eq_ok_iff] at h
      obtain ⟨pack, hpack, imports, himports, q, hq, h⟩ := h
      cases h
      have hf : Walk.First (declared fields dir) (· ∩ ·) root ceiling π id c := by
        refine ⟨ha.reaches, ?_⟩
        intro ρ d hd hρ
        exact hdone ((hp.done id).mpr ⟨ρ, d, hρ, hd⟩)
      have hs' : ∀ a ∈ stack ++ [id], a ∉ p.done := by
        intro a hmem
        rcases List.mem_append.mp hmem with hmem | hmem
        · exact hs a hmem
        · rwa [List.mem_singleton.mp hmem]
      obtain ⟨hw, hsq⟩ := Advances.loop [] (ih (stack ++ [id])) hf
        (lookupPack_spec hpack himports) (hp.congr fun ρ => Walk.earlier_zero_iff.symm) hs' hq
      refine ⟨.finish ha hw (hsq id (by simp)), ?_⟩
      intro a hmem hin
      rcases SortedSet.mem_insert.mp hin with rfl | hin
      · exact hstack hmem
      · exact hsq a (List.mem_append_left _ hmem) hin

/-- The ceiling recorded for a pack is what the walked paths to it leave, and every pack with
an import path has one. -/
theorem resolve_ceilings (h : resolve fields dir depth root ceiling = .ok out) :
    (∀ a, (∃ ρ d, ImportPath fields dir root ceiling ρ a d) ↔ ∃ c, out.ceilings.get? a = some c) ∧
    ∀ a c, out.ceilings.get? a = some c → ∀ s, s ∈ c ↔
      ∀ ρ d, WalkedPath fields dir root ceiling ρ a d → s ∈ d := by
  obtain ⟨p, hp, h⟩ := Except.bind_eq_ok_iff.mp h
  cases h
  obtain ⟨hw, -⟩ := visit_advances depth [] [] root ceiling _ _ .init .root nofun hp
  refine ⟨fun a => ?_, fun a c hc s => ?_⟩
  · rw [← hw.recorded, hw.done]
    simp
  · rw [hw.ceilings a c hc]
    simp

/-- The ceilings recorded are within those of all import paths exactly when a capability that the
walked paths to a pack leave is left by every path to it. -/
theorem resolve_within_iff (h : resolve fields dir depth root ceiling = .ok out) :
    (∀ a c, out.ceilings.get? a = some c →
      ∀ ρ d, ImportPath fields dir root ceiling ρ a d → c ⊆ d) ↔
    ∀ a s, (∀ ρ d, WalkedPath fields dir root ceiling ρ a d → s ∈ d) →
      ∀ ρ d, ImportPath fields dir root ceiling ρ a d → s ∈ d := by
  obtain ⟨hall, hc⟩ := resolve_ceilings h
  constructor
  · intro hin a s hwalked ρ d hd
    obtain ⟨c, hac⟩ := (hall a).mp ⟨ρ, d, hd⟩
    exact hin a c hac ρ d hd s ((hc a c hac s).mpr hwalked)
  · intro hwalked a c hac ρ d hd s hs
    exact hwalked a s ((hc a c hac s).mp hs) ρ d hd

end Invariant

namespace Sample

/-- Records are lists of symbols, strings and vectors of symbols. -/
def fields : Fields Unit where
  symbol
    | .symbol v, _ => .ok v
    | _, field => .error (field ++ " must be a symbol")
  text
    | .string v, _ => .ok v
    | _, field => .error (field ++ " must be a string")
  symbols
    | .list vs, field => vs.mapM fun
      | .symbol v => .ok v
      | _ => .error (field ++ " must be symbols")
    | _, field => .error (field ++ " must be symbols")

/-- The id of a repeated digit. -/
def idText (digit : Char) : String := "sha256:" ++ String.ofList (List.replicate 64 digit)

def rootId : ContentId := ⟨idText '0', by decide +kernel, by decide +kernel⟩
def leftId : ContentId := ⟨idText '1', by decide +kernel, by decide +kernel⟩
def rightId : ContentId := ⟨idText '2', by decide +kernel, by decide +kernel⟩
def sharedId : ContentId := ⟨idText '3', by decide +kernel, by decide +kernel⟩
def leafId : ContentId := ⟨idText '4', by decide +kernel, by decide +kernel⟩

def importOf (name : String) (content : ContentId) (ceiling : List String) : Expr Unit :=
  .list [.symbol (.new name), .string content.text, .list (ceiling.map fun c => .symbol (.new c))]

def pack (content : ContentId) (imports : List (Expr Unit)) : CapabilityPack Unit :=
  ⟨1, content.text, imports, [], [], [], [], [], []⟩

/-- Two importers of one pack, which imports another: the second one only allows reading. -/
def packs : List (ContentId × CapabilityPack Unit) :=
  [(rootId, pack rootId [importOf "left" leftId ["read", "write"],
    importOf "right" rightId ["read", "write"]]),
   (leftId, pack leftId [importOf "shared" sharedId ["read", "write"]]),
   (rightId, pack rightId [importOf "shared" sharedId ["read"]]),
   (sharedId, pack sharedId [importOf "leaf" leafId ["read", "write"]]),
   (leafId, pack leafId [])]

def dir : PackDir Unit := fun id => (packs.lookup id).map fun p => (id, p)

def authority : SortedSet Symbol := .ofList [.new "read", .new "write"]

theorem idText_injective : Function.Injective idText := by
  intro a b h
  have hlist := String.append_right_inj _ |>.mp h
  have hdigits := String.ofList_injective hlist
  rw [List.replicate_inj] at hdigits
  exact hdigits.2.resolve_left (by decide)

theorem parseImport_importOf (name : String) (content : ContentId) (ceiling : List String) :
    parseImport fields (importOf name content ceiling) =
      .ok ⟨.new name, content, .ofList (ceiling.map .new)⟩ := by
  have hsymbols : fields.symbols (.list (ceiling.map fun c => .symbol (.new c))) "ceiling" =
      .ok (ceiling.map .new) := by
    show List.mapM _ _ = _
    induction ceiling with
    | nil => rfl
    | cons c ceiling ih =>
      rw [List.map_cons, List.mapM_cons, ih]
      rfl
  show (do
    let content ← ContentId.parse content.text
    let ceiling ← fields.symbols (.list (ceiling.map fun c => .symbol (.new c))) "ceiling"
    return (⟨.new name, content, .ofList ceiling⟩ : Import)) = _
  rw [ContentId.parse_text, hsymbols]
  rfl

theorem ids_nodup : [rootId, leftId, rightId, sharedId, leafId].Nodup := by
  have hdigits : (['0', '1', '2', '3', '4'].map idText).Nodup :=
    List.Nodup.map idText_injective (by decide)
  exact List.Nodup.of_map ContentId.text hdigits

theorem lookup_packs {id : ContentId} {p : CapabilityPack Unit} (h : (id, p) ∈ packs) :
    packs.lookup id = some p := by
  have hnodup : (packs.map (·.1)).Nodup := ids_nodup
  generalize packs = l at h hnodup ⊢
  induction l with
  | nil => cases h
  | cons row l ih =>
    rw [List.map_cons, List.nodup_cons] at hnodup
    rw [List.lookup_cons]
    rcases List.mem_cons.mp h with rfl | h
    · rw [beq_self_eq_true]
    · have hne : id ≠ row.1 := fun heq => hnodup.1 (heq ▸ List.mem_map_of_mem h)
      rw [beq_false_of_ne hne]
      exact ih h hnodup.2

theorem lookupPack_packs {id : ContentId} {imports : List (Expr Unit)}
    (h : (id, pack id imports) ∈ packs) : lookupPack dir id = .ok (pack id imports) := by
  rw [lookupPack, dir, lookup_packs h]
  dsimp only [Option.map]
  rw [if_neg (not_not.mpr rfl), show (pack id imports).content = id.text from rfl,
    ContentId.parse_text]
  dsimp only
  rw [if_neg (not_not.mpr rfl)]
  exact if_neg (not_not.mpr (show (pack id imports).version = currentPackVersion from rfl))

theorem visit_pack (depth : Nat) {id : ContentId} (ceiling : SortedSet Symbol)
    {stack : List ContentId} {p q : Progress Unit} {imports : List (Expr Unit)}
    {parsed : List Import} (hmem : (id, pack id imports) ∈ packs)
    (hparsed : imports.mapM (parseImport fields) = .ok parsed) (hstack : id ∉ stack)
    (hdone : id ∉ p.done)
    (hfold : parsed.foldlM (visitImport (fun i c p => visit fields dir depth i c (stack ++ [id]) p)
      ceiling) p = .ok q) :
    visit fields dir (depth + 1) id ceiling stack p = .ok { q with
      done := q.done.insert id
      ceilings := q.ceilings.insert id ceiling
      packs := q.packs ++ [(id, pack id imports)] } := by
  have htyped : ((pack id imports).typedImports fields).mapError
      (Halt.failure ∘ ResolveError.malformed) = .ok parsed := Except.mapError_eq_ok_iff.mpr hparsed
  rw [visit, if_neg hstack, if_neg hdone, lookupPack_packs hmem]
  exact Except.bind_eq_ok_iff.mpr ⟨_, rfl, Except.bind_eq_ok_iff.mpr ⟨parsed, htyped,
    Except.bind_eq_ok_iff.mpr ⟨q, hfold, rfl⟩⟩⟩

theorem visitImport_packs {visit : ContentId → SortedSet Symbol → Progress Unit → Visit (Progress Unit)}
    {ceiling : SortedSet Symbol} {p q : Progress Unit} {imp : Import}
    (halias : ∀ content, p.aliases.get? imp.aliasName = some content → content = imp.content)
    (h : visit imp.content (ceiling ∩ imp.ceiling)
      { p with aliases := p.aliases.insert imp.aliasName imp.content } = .ok q) :
    visitImport visit ceiling p imp = .ok q := by
  have hnone : ¬(p.aliases.get? imp.aliasName).any (· ≠ imp.content) := by
    cases hget : p.aliases.get? imp.aliasName with
    | none => exact Bool.false_ne_true
    | some content => simp [halias content hget]
  rw [visitImport, if_neg hnone, h]

theorem fold_cons {visit : ContentId → SortedSet Symbol → Progress Unit → Visit (Progress Unit)}
    {ceiling : SortedSet Symbol} {p q r : Progress Unit} {imp : Import} {imports : List Import}
    (halias : ∀ content, p.aliases.get? imp.aliasName = some content → content = imp.content)
    (h : visit imp.content (ceiling ∩ imp.ceiling)
      { p with aliases := p.aliases.insert imp.aliasName imp.content } = .ok q)
    (hrest : imports.foldlM (visitImport visit ceiling) q = .ok r) :
    (imp :: imports).foldlM (visitImport visit ceiling) p = .ok r :=
  Except.bind_eq_ok_iff.mpr ⟨q, visitImport_packs halias h, hrest⟩

theorem visit_again (depth : Nat) {id : ContentId} {ceiling prior : SortedSet Symbol}
    {stack : List ContentId} {p : Progress Unit} (hstack : id ∉ stack) (hdone : id ∈ p.done)
    (hprior : p.ceilings.get? id = some prior) :
    visit fields dir (depth + 1) id ceiling stack p =
      .ok { p with ceilings := p.ceilings.insert id (prior ∩ ceiling) } := by
  rw [visit, if_neg hstack, if_pos hdone, revisit, hprior]

theorem parse_one (name : String) (content : ContentId) (ceiling : List String) :
    [importOf name content ceiling].mapM (parseImport fields) =
      .ok [⟨.new name, content, .ofList (ceiling.map .new)⟩] := by
  rw [List.mapM_cons, parseImport_importOf]
  rfl

theorem parse_two (name name' : String) (content content' : ContentId)
    (ceiling ceiling' : List String) :
    [importOf name content ceiling, importOf name' content' ceiling'].mapM (parseImport fields) =
      .ok [⟨.new name, content, .ofList (ceiling.map .new)⟩,
        ⟨.new name', content', .ofList (ceiling'.map .new)⟩] := by
  rw [List.mapM_cons, parseImport_importOf, parse_one]
  rfl

theorem root_mem : (rootId, pack rootId [importOf "left" leftId ["read", "write"],
    importOf "right" rightId ["read", "write"]]) ∈ packs := List.mem_cons_self
theorem left_mem : (leftId, pack leftId [importOf "shared" sharedId ["read", "write"]]) ∈ packs :=
  List.mem_cons_of_mem _ List.mem_cons_self
theorem right_mem : (rightId, pack rightId [importOf "shared" sharedId ["read"]]) ∈ packs :=
  List.mem_cons_of_mem _ (List.mem_cons_of_mem _ List.mem_cons_self)
theorem shared_mem : (sharedId, pack sharedId [importOf "leaf" leafId ["read", "write"]]) ∈ packs :=
  List.mem_append_right (packs.take 3) List.mem_cons_self
theorem leaf_mem : (leafId, pack leafId []) ∈ packs :=
  List.mem_append_right (packs.take 4) List.mem_cons_self

theorem path_right : ImportPath fields dir rootId authority [1, 0, 0] leafId
    (((authority ∩ authority) ∩ .ofList [.new "read"]) ∩ authority) := by
  have hdeclared : ∀ {id : ContentId} {imports : List (Expr Unit)} {parsed : List Import},
      (id, pack id imports) ∈ packs → imports.mapM (parseImport fields) = .ok parsed →
      declared fields dir id = parsed.map fun i => (i.content, i.ceiling) :=
    fun hmem hparsed => lookupPack_spec (lookupPack_packs hmem) hparsed
  have hroot : (declared fields dir rootId)[1]? = some (rightId, authority) := by
    rw [hdeclared root_mem (parse_two ..)]
    rfl
  have hright : (declared fields dir rightId)[0]? = some (sharedId, .ofList [.new "read"]) := by
    rw [hdeclared right_mem (parse_one ..)]
    rfl
  have hshared : (declared fields dir sharedId)[0]? = some (leafId, authority) := by
    rw [hdeclared shared_mem (parse_one ..)]
    rfl
  exact ((Walk.Reaches.root.step hroot).step hright).step hshared

theorem inter_self (s : SortedSet Symbol) : s ∩ s = s := SortedSet.ext fun a => by
  rw [SortedSet.mem_inter, and_self_iff]

theorem leaf_authority : ∃ out, resolve fields dir 8 rootId authority = .ok out ∧
    out.ceilings.get? leafId = some authority := by
  have hids := ids_nodup
  simp only [List.nodup_cons, List.mem_cons, not_or, List.not_mem_nil, not_false_eq_true,
    and_true] at hids
  obtain ⟨⟨h01, h02, h03, h04⟩, ⟨h12, h13, h14⟩, ⟨h23, h24⟩, h34, -⟩ := hids
  -- The left importer is walked down to the leaf, and the right one meets `shared` again.
  refine ⟨_, Except.bind_eq_ok_iff.mpr ⟨_, visit_pack 7 authority root_mem (parse_two ..) ?_ ?_
    (fold_cons ?_ (visit_pack 6 _ left_mem (parse_one ..) ?_ ?_
      (fold_cons ?_ (visit_pack 5 _ shared_mem (parse_one ..) ?_ ?_
        (fold_cons ?_ (visit_pack 4 _ leaf_mem rfl ?_ ?_ rfl) rfl)) rfl))
      (fold_cons ?_ (visit_pack 6 _ right_mem (parse_one ..) ?_ ?_
        (fold_cons ?_ (@visit_again 5 _ _ (authority ∩ authority ∩ authority) _ _ ?_ ?_ ?_)
          rfl)) rfl)), rfl⟩, ?_⟩
  all_goals simp [Progress.init, authority, inter_self, h23, h24, h34, Ne.symm h01, Ne.symm h02,
    Ne.symm h03, Ne.symm h04, Ne.symm h12, Ne.symm h13, Ne.symm h14, Ne.symm h23, Ne.symm h24,
    Ne.symm h34, Symbol.new]

end Sample

theorem resolve_within_iff_diamond :
    ∃ out, resolve Sample.fields Sample.dir 8 Sample.rootId Sample.authority = .ok out ∧
      ((∀ a c, out.ceilings.get? a = some c → ∀ ρ d,
        ImportPath Sample.fields Sample.dir Sample.rootId Sample.authority ρ a d → c ⊆ d) ↔
      ∀ a s, (∀ ρ d,
          WalkedPath Sample.fields Sample.dir Sample.rootId Sample.authority ρ a d → s ∈ d) →
        ∀ ρ d, ImportPath Sample.fields Sample.dir Sample.rootId Sample.authority ρ a d →
          s ∈ d) := by
  obtain ⟨out, h, -⟩ := Sample.leaf_authority
  exact ⟨out, h, resolve_within_iff h⟩

/-- The leaf keeps `write`, which the path through the right importer does not leave. -/
theorem diamond_leaf_widened :
    ∃ out, resolve Sample.fields Sample.dir 8 Sample.rootId Sample.authority = .ok out ∧
      ∃ c ρ d, out.ceilings.get? Sample.leafId = some c ∧
        ImportPath Sample.fields Sample.dir Sample.rootId Sample.authority ρ Sample.leafId d ∧
        ¬c ⊆ d := by
  obtain ⟨out, h, hleaf⟩ := Sample.leaf_authority
  refine ⟨out, h, Sample.authority, _, _, hleaf, Sample.path_right, fun hsub => ?_⟩
  have hwrite := hsub (.new "write") (by simp [Sample.authority])
  simp [Symbol.new] at hwrite

end SimAgentNet.CapabilityPacks
