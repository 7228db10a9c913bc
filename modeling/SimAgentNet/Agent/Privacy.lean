import SimAgentNet.Data.Run
import SimAgentNet.Data.SortedMap
import SimAgentNet.Data.Text
import SimAgentNet.Kernel.Expr

/-! # Privacy policies

How the policy of a model request is read. The entries of a policy are read in order, and a later
one is put in place of an earlier one. How a field is looked up is a parameter. -/

namespace SimAgentNet.Agent
variable {Mode : Type}

inductive Error where
  | eval (message : String)
deriving DecidableEq

structure PrivacyPolicy where
  localOnly : Bool := false
  metadataOnly : Bool := false
  noRaw : Bool := false
  allowTools : Option (SortedSet Symbol) := none

/-- What `sim_value` looks up: a field of an expression, and one of the entries of a map. -/
structure Access (Mode : Type) where
  field : Expr Mode → String → Option (Expr Mode)
  entryField : List (Expr Mode × Expr Mode) → String → Option (Expr Mode)

def truthy : Expr Mode → Bool
  | .bool false | .nil => false
  | _ => true

def keyName : Expr Mode → Option String
  | .symbol symbol => if symbol.ns = none then some symbol.name else none
  | _ => none

def symbolFromText (text : String) : Symbol :=
  match Text.splitOnce '/' text.toList with
  | some (ns, name) => .qualified (.ofList ns) (.ofList name)
  | none => .new text

def symbolFromExpr (label : String) : Expr Mode → Except Error Symbol
  | .symbol symbol => .ok symbol
  | .string text => .ok (symbolFromText text)
  | _ => .error (.eval (label ++ " expects symbols or strings"))

def symbolSet (expr : Expr Mode) (label : String) : Except Error (SortedSet Symbol) := do
  let items := match expr with
    | .nil => []
    | .list items | .vector items | .set items => items
    | other => [other]
  return .ofList (← items.mapM (symbolFromExpr label))

namespace PrivacyPolicy

def isEmpty (policy : PrivacyPolicy) : Bool :=
  !policy.localOnly && !policy.metadataOnly && !policy.noRaw && policy.allowTools.isNone

def applyPolicyAtom (policy : PrivacyPolicy) (symbol : Symbol) : Except Error PrivacyPolicy :=
  match symbol.name with
  | "local-only" => .ok { policy with localOnly := true }
  | "metadata-only" => .ok { policy with metadataOnly := true }
  | "no-raw" => .ok { policy with noRaw := true }
  | other => .error (.eval ("unknown privacy policy " ++ other))

mutual
def applyPolicyExpr (policy : PrivacyPolicy) : Expr Mode → Except Error PrivacyPolicy
  | .nil => .ok policy
  | .symbol symbol => policy.applyPolicyAtom symbol
  | .string text => policy.applyPolicyAtom (symbolFromText text)
  | .list items | .vector items | .set items => applyPolicyItems policy items
  | .map entries => applyPolicyEntries policy entries
  | _ => .error (.eval "privacy policy expects symbols, strings, lists, or maps")
termination_by structural e => e

def applyPolicyItems (policy : PrivacyPolicy) : List (Expr Mode) → Except Error PrivacyPolicy
  | [] => .ok policy
  | item :: items => do
    let policy ← applyPolicyExpr policy item
    applyPolicyItems policy items
termination_by structural items => items

def applyPolicyEntries (policy : PrivacyPolicy) :
    List (Expr Mode × Expr Mode) → Except Error PrivacyPolicy
  | [] => .ok policy
  | (key, value) :: entries =>
    match keyName key with
    | some "local-only" => applyPolicyEntries { policy with localOnly := truthy value } entries
    | some "metadata-only" =>
      applyPolicyEntries { policy with metadataOnly := truthy value } entries
    | some "no-raw" => applyPolicyEntries { policy with noRaw := truthy value } entries
    | some "allow-tools" => do
      let tools ← symbolSet value "privacy allow-tools"
      applyPolicyEntries { policy with allowTools := some tools } entries
    | some "policies" | some "policy" => do
      let policy ← applyPolicyExpr policy value
      applyPolicyEntries policy entries
    | _ => applyPolicyEntries policy entries
termination_by structural entries => entries
end

def fromPolicyExpr (expr : Expr Mode) : Except Error PrivacyPolicy := applyPolicyExpr {} expr

def fromRequestExpr (access : Access Mode) (expr : Expr Mode) : Except Error PrivacyPolicy := do
  let policy ← ((access.field expr "privacy").map fromPolicyExpr).getD (.ok {})
  match access.field expr "allow-tools" with
  | some allowTools =>
    return { policy with allowTools := some (← symbolSet allowTools "allow-tools") }
  | none => return policy

end PrivacyPolicy

/-! ## What a policy says -/

inductive Flag where
  | localOnly
  | metadataOnly
  | noRaw
deriving DecidableEq

/-- One thing that a policy says. -/
inductive Setting where
  | flag (flag : Flag) (value : Bool)
  | tools (allowed : SortedSet Symbol)

def Flag.ofName : String → Option Flag
  | "local-only" => some .localOnly
  | "metadata-only" => some .metadataOnly
  | "no-raw" => some .noRaw
  | _ => none

def PrivacyPolicy.has (policy : PrivacyPolicy) : Flag → Bool
  | .localOnly => policy.localOnly
  | .metadataOnly => policy.metadataOnly
  | .noRaw => policy.noRaw

def atomSettings (symbol : Symbol) : List Setting :=
  ((Flag.ofName symbol.name).map (Setting.flag · true)).toList

mutual
/-- What an expression says as a policy, in the order in which it is read. -/
def settings : Expr Mode → List Setting
  | .symbol symbol => atomSettings symbol
  | .string text => atomSettings (symbolFromText text)
  | .list items | .vector items | .set items => itemSettings items
  | .map entries => entrySettings entries
  | _ => []
termination_by structural e => e

def itemSettings : List (Expr Mode) → List Setting
  | [] => []
  | item :: items => settings item ++ itemSettings items
termination_by structural items => items

def entrySettings : List (Expr Mode × Expr Mode) → List Setting
  | [] => []
  | (key, value) :: entries =>
    (match keyName key with
      | some "allow-tools" => ((symbolSet value "").toOption.map Setting.tools).toList
      | some "policies" | some "policy" => settings value
      | some name => ((Flag.ofName name).map (Setting.flag · (truthy value))).toList
      | none => []) ++ entrySettings entries
termination_by structural entries => entries
end

/-- What a request says about privacy; the tools that it allows at the top are said last. -/
def requestSettings (access : Access Mode) (expr : Expr Mode) : List Setting :=
  ((access.field expr "privacy").map settings).getD [] ++
    (((access.field expr "allow-tools").bind fun tools => (symbolSet tools "").toOption).map
      Setting.tools).toList

/-- What a setting makes of a policy. -/
def Setting.apply (policy : PrivacyPolicy) : Setting → PrivacyPolicy
  | .flag .localOnly value => { policy with localOnly := value }
  | .flag .metadataOnly value => { policy with metadataOnly := value }
  | .flag .noRaw value => { policy with noRaw := value }
  | .tools allowed => { policy with allowTools := some allowed }

/-! ## Reading -/

theorem symbolFromExpr_ok (label label' : String) {expr : Expr Mode} {symbol : Symbol} :
    symbolFromExpr label expr = .ok symbol ↔ symbolFromExpr label' expr = .ok symbol := by
  cases expr with
  | symbol | string => rfl
  | _ => exact iff_of_false nofun nofun

theorem symbolSet_ok (label label' : String) {expr : Expr Mode} {set : SortedSet Symbol} :
    symbolSet expr label = .ok set ↔ symbolSet expr label' = .ok set := by
  simp only [symbolSet, Except.bind_eq_ok_iff,
    Except.mapM_ok_congr (fun _ _ => symbolFromExpr_ok label label')]

theorem applyPolicyAtom_eq {policy policy' : PrivacyPolicy} {symbol : Symbol}
    (h : policy.applyPolicyAtom symbol = .ok policy') :
    policy' = (atomSettings symbol).foldl Setting.apply policy := by
  rw [PrivacyPolicy.applyPolicyAtom] at h
  split at h
  · rename_i hname
    cases h
    rw [atomSettings, hname]
    rfl
  · rename_i hname
    cases h
    rw [atomSettings, hname]
    rfl
  · rename_i hname
    cases h
    rw [atomSettings, hname]
    rfl
  · cases h

theorem toOption_symbolSet {label : String} {expr : Expr Mode} {set : SortedSet Symbol}
    (h : symbolSet expr label = .ok set) : (symbolSet expr "").toOption = some set := by
  rw [(symbolSet_ok label "").mp h]
  rfl

theorem ofName_eq_none {name : String} (hlocal : name ≠ "local-only")
    (hmetadata : name ≠ "metadata-only") (hraw : name ≠ "no-raw") : Flag.ofName name = none := by
  rw [Flag.ofName]
  · exact hlocal
  · exact hmetadata
  · exact hraw

mutual
/-- A policy that is read is what its settings make, in their order. -/
theorem applyPolicyExpr_eq : ∀ (expr : Expr Mode) {policy policy' : PrivacyPolicy},
    policy.applyPolicyExpr expr = .ok policy' → policy' = (settings expr).foldl Setting.apply policy
  | .nil, _, _, h => (Except.ok.inj h).symm
  | .symbol symbol, _, _, h => applyPolicyAtom_eq h
  | .string text, _, _, h => applyPolicyAtom_eq h
  | .list items, _, _, h | .vector items, _, _, h | .set items, _, _, h =>
    applyPolicyItems_eq items h
  | .map entries, _, _, h => applyPolicyEntries_eq entries h
  | .bool _, _, _, h | .number _, _, _, h | .local _, _, _, h | .bytes _, _, _, h
  | .call .., _, _, h | .infixOp .., _, _, h | .prefixOp .., _, _, h | .postfixOp .., _, _, h
  | .block _, _, _, h | .quote .., _, _, h | .annotated .., _, _, h | .extension .., _, _, h => by
    cases h

theorem applyPolicyItems_eq : ∀ (items : List (Expr Mode)) {policy policy' : PrivacyPolicy},
    policy.applyPolicyItems items = .ok policy' →
      policy' = (itemSettings items).foldl Setting.apply policy
  | [], _, _, h => (Except.ok.inj h).symm
  | item :: items, _, _, h => by
    obtain ⟨middle, hitem, hitems⟩ := Except.bind_eq_ok_iff.mp h
    rw [itemSettings, List.foldl_append, ← applyPolicyExpr_eq item hitem]
    exact applyPolicyItems_eq items hitems

theorem applyPolicyEntries_eq :
    ∀ (entries : List (Expr Mode × Expr Mode)) {policy policy' : PrivacyPolicy},
      policy.applyPolicyEntries entries = .ok policy' →
        policy' = (entrySettings entries).foldl Setting.apply policy
  | [], _, _, h => (Except.ok.inj h).symm
  | (key, value) :: entries, policy, _, h => by
    rw [PrivacyPolicy.applyPolicyEntries] at h
    rw [entrySettings, List.foldl_append]
    split at h
    · rename_i hkey
      rw [hkey]
      exact applyPolicyEntries_eq entries h
    · rename_i hkey
      rw [hkey]
      exact applyPolicyEntries_eq entries h
    · rename_i hkey
      rw [hkey]
      exact applyPolicyEntries_eq entries h
    · rename_i hkey
      obtain ⟨tools, htools, hrest⟩ := Except.bind_eq_ok_iff.mp h
      rw [hkey]
      simp only [toOption_symbolSet htools]
      exact applyPolicyEntries_eq entries hrest
    · rename_i hkey
      obtain ⟨middle, hvalue, hrest⟩ := Except.bind_eq_ok_iff.mp h
      rw [hkey]
      simp only
      rw [← applyPolicyExpr_eq value hvalue]
      exact applyPolicyEntries_eq entries hrest
    · rename_i hkey
      obtain ⟨middle, hvalue, hrest⟩ := Except.bind_eq_ok_iff.mp h
      rw [hkey]
      simp only
      rw [← applyPolicyExpr_eq value hvalue]
      exact applyPolicyEntries_eq entries hrest
    · rename_i hlocal hmetadata hraw htools hpolicies hpolicy
      have hnothing : (match keyName key with
          | some "allow-tools" => ((symbolSet value "").toOption.map Setting.tools).toList
          | some "policies" | some "policy" => settings value
          | some name => ((Flag.ofName name).map (Setting.flag · (truthy value))).toList
          | none => []) = [] := by
        split
        · rename_i hkey
          exact (htools hkey).elim
        · rename_i hkey
          exact (hpolicies hkey).elim
        · rename_i hkey
          exact (hpolicy hkey).elim
        · rename_i name _ _ _ hkey
          rw [ofName_eq_none (fun h => hlocal (h ▸ hkey)) (fun h => hmetadata (h ▸ hkey))
            (fun h => hraw (h ▸ hkey))]
          rfl
        · rfl
      rw [hnothing]
      exact applyPolicyEntries_eq entries h
end

theorem fromRequestExpr_eq {access : Access Mode} {expr : Expr Mode} {policy : PrivacyPolicy}
    (h : PrivacyPolicy.fromRequestExpr access expr = .ok policy) :
    policy = (requestSettings access expr).foldl Setting.apply {} := by
  obtain ⟨inner, hinner, hrest⟩ := Except.bind_eq_ok_iff.mp h
  have hsaid : inner = (((access.field expr "privacy").map settings).getD []).foldl
      Setting.apply {} := by
    cases hprivacy : access.field expr "privacy" with
    | none =>
      rw [hprivacy] at hinner
      exact (Except.ok.inj hinner).symm
    | some privacy =>
      rw [hprivacy] at hinner
      exact applyPolicyExpr_eq privacy hinner
  rw [requestSettings, List.foldl_append, ← hsaid]
  cases htools : access.field expr "allow-tools" with
  | none =>
    rw [htools] at hrest
    exact (Except.ok.inj hrest).symm
  | some allowTools =>
    rw [htools] at hrest
    obtain ⟨tools, hset, hpolicy⟩ := Except.bind_eq_ok_iff.mp hrest
    simp only [Option.bind_some, toOption_symbolSet hset]
    exact (Except.ok.inj hpolicy).symm

/-! ## Tightening -/

/-- The policy is at least as strict as everything that is said. -/
structure AsStrict (policy : PrivacyPolicy) (said : List Setting) : Prop where
  flags : ∀ flag, .flag flag true ∈ said → policy.has flag = true
  tools : ∀ allowed, .tools allowed ∈ said → ∃ kept, policy.allowTools = some kept ∧ kept ⊆ allowed

/-- The word is said, and nothing after it goes against it. -/
def LastWord (against : α → Prop) (word : α) (said : List α) : Prop :=
  ∃ before after, said = before ++ word :: after ∧ ∀ later ∈ after, ¬against later

/-- The setting gives a set of tools. -/
def Setting.GivesTools (setting : Setting) : Prop := ∃ allowed, setting = .tools allowed

/-- What is asked for is not taken back: after the last time that a flag is asked for it is not
withdrawn, and the last set of tools is within each. -/
structure Tightens (said : List Setting) : Prop where
  flags : ∀ flag, .flag flag true ∈ said →
    LastWord (· = .flag flag false) (.flag flag true) said
  tools : ∀ allowed, .tools allowed ∈ said →
    ∃ last, LastWord Setting.GivesTools (.tools last) said ∧ last ⊆ allowed

theorem not_lastWord_nil {against : α → Prop} {word : α} : ¬LastWord against word [] := by
  rintro ⟨before, after, h, -⟩
  exact List.append_ne_nil_of_right_ne_nil _ (List.cons_ne_nil _ _) h.symm

theorem lastWord_concat {against : α → Prop} {word next : α} {said : List α} :
    LastWord against word (said ++ [next]) ↔
      word = next ∨ ¬against next ∧ LastWord against word said := by
  constructor
  · rintro ⟨before, after, h, hafter⟩
    cases after using List.reverseRecOn with
    | nil =>
      have hlast := (List.append_inj' h rfl).2
      exact .inl (List.cons.inj hlast).1.symm
    | append_singleton after last =>
      rw [← List.cons_append, ← List.append_assoc] at h
      obtain ⟨rfl, hlast⟩ := List.append_inj' h rfl
      cases hlast
      refine .inr ⟨hafter _ (List.mem_append_right _ List.mem_cons_self), before, after, rfl, ?_⟩
      exact fun later hlater => hafter later (List.mem_append_left _ hlater)
  · rintro (rfl | ⟨hnext, before, after, rfl, hafter⟩)
    · exact ⟨said, [], rfl, List.forall_mem_nil _⟩
    · refine ⟨before, after ++ [next], by simp, ?_⟩
      intro later hlater
      obtain hlater | hlater := List.mem_append.mp hlater
      · exact hafter later hlater
      · exact List.mem_singleton.mp hlater ▸ hnext

theorem has_apply (policy : PrivacyPolicy) (flag flag' : Flag) (value : Bool) :
    (Setting.apply policy (.flag flag' value)).has flag =
      if flag' = flag then value else policy.has flag := by
  cases flag with
  | _ => cases flag' with
    | _ => rfl

/-- A flag is set when the last word on it asks for it. -/
theorem has_foldl_iff {flag : Flag} {said : List Setting} :
    (said.foldl Setting.apply {}).has flag = true ↔
      LastWord (· = .flag flag false) (.flag flag true) said := by
  induction said using List.reverseRecOn with
  | nil =>
    refine iff_of_false ?_ not_lastWord_nil
    cases flag with
    | _ => exact Bool.false_ne_true
  | append_singleton said setting ih =>
    rw [List.foldl_append, List.foldl_cons, List.foldl_nil, lastWord_concat, ← ih]
    cases setting with
    | flag flag' value =>
      rw [has_apply]
      by_cases hflag : flag' = flag
      · rw [if_pos hflag, hflag]
        cases value with
        | true => simp
        | false => simp
      · rw [if_neg hflag]
        simp [hflag, Ne.symm hflag]
    | tools allowed =>
      have hkept : (Setting.apply (said.foldl Setting.apply {}) (.tools allowed)).has flag =
          (said.foldl Setting.apply {}).has flag := by
        cases flag with
        | _ => rfl
      simp [hkept]

/-- The tools that are allowed are those of the last set. -/
theorem allowTools_foldl_iff {said : List Setting} {kept : SortedSet Symbol} :
    (said.foldl Setting.apply {}).allowTools = some kept ↔
      LastWord Setting.GivesTools (.tools kept) said := by
  induction said using List.reverseRecOn with
  | nil => exact iff_of_false nofun not_lastWord_nil
  | append_singleton said setting ih =>
    rw [List.foldl_append, List.foldl_cons, List.foldl_nil, lastWord_concat, ← ih]
    cases setting with
    | flag flag value =>
      have hkept : (Setting.apply (said.foldl Setting.apply {}) (.flag flag value)).allowTools =
          (said.foldl Setting.apply {}).allowTools := by
        cases flag with
        | _ => rfl
      simp [hkept, Setting.GivesTools]
    | tools allowed => simp [Setting.apply, Setting.GivesTools, eq_comm]

/-- A policy is as strict as everything that is said exactly when nothing is taken back. -/
theorem privacy_tightens_iff {access : Access Mode} {expr : Expr Mode} {policy : PrivacyPolicy}
    (h : PrivacyPolicy.fromRequestExpr access expr = .ok policy) :
    AsStrict policy (requestSettings access expr) ↔ Tightens (requestSettings access expr) := by
  rw [fromRequestExpr_eq h]
  constructor
  · intro hstrict
    refine ⟨fun flag hflag => has_foldl_iff.mp (hstrict.flags flag hflag), ?_⟩
    intro allowed hallowed
    obtain ⟨kept, hkept, hsub⟩ := hstrict.tools allowed hallowed
    exact ⟨kept, allowTools_foldl_iff.mp hkept, hsub⟩
  · intro htightens
    refine ⟨fun flag hflag => has_foldl_iff.mpr (htightens.flags flag hflag), ?_⟩
    intro allowed hallowed
    obtain ⟨last, hlast, hsub⟩ := htightens.tools allowed hallowed
    exact ⟨last, allowTools_foldl_iff.mpr hlast, hsub⟩

namespace PrivacySample

/-- The first entry under the bare symbol of the name. -/
def entryField (entries : List (Expr Unit × Expr Unit)) (name : String) : Option (Expr Unit) :=
  (entries.find? fun entry => keyName entry.1 == some name).map (·.2)

def access : Access Unit where
  entryField := entryField
  field
    | .map entries, name => entryField entries name
    | _, _ => none

def key (name : String) : Expr Unit := .symbol (.new name)

/-- Asks for `local-only` and then withdraws it. -/
def withdrawn : Expr Unit :=
  .map [(key "privacy", .list [key "local-only", .map [(key "local-only", .bool false)]])]

def kept : Expr Unit :=
  .map [(key "privacy", .list [.map [(key "no-raw", .bool false)], .string "no-raw"])]

end PrivacySample

open PrivacySample in
theorem privacy_tightens_kept :
    ∃ policy, PrivacyPolicy.fromRequestExpr access kept = .ok policy ∧
      (AsStrict policy (requestSettings access kept) ↔ Tightens (requestSettings access kept)) :=
  ⟨{ noRaw := true }, rfl, privacy_tightens_iff rfl⟩

open PrivacySample in
/-- `local-only` is asked for and not set. -/
theorem withdrawn_not_asStrict :
    ∃ policy, PrivacyPolicy.fromRequestExpr access withdrawn = .ok policy ∧
      ¬AsStrict policy (requestSettings access withdrawn) := by
  refine ⟨{}, rfl, fun h => ?_⟩
  exact Bool.false_ne_true (h.flags .localOnly List.mem_cons_self)

end SimAgentNet.Agent
