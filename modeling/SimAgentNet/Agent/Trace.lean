import SimAgentNet.Agent.RawRefs

/-! # Redacted trace entries

A trace entry is kept with the policy of its task. The registry holds one policy a task: that of
the last payload with a policy of its own. How an expression is hashed is a parameter. -/

namespace SimAgentNet.Agent
variable {Mode : Type}

/-- What is external to the redaction. -/
structure TraceContext (Mode : Type) extends Access Mode where
  hashExpr : Expr Mode → String

abbrev PolicyRegistry := SortedMap String PrivacyPolicy

def keyExpr (name : String) (value : Expr Mode) : Expr Mode × Expr Mode := Expr.entry name value

def keyBool (name : String) (value : Bool) : Expr Mode × Expr Mode := keyExpr name (.bool value)

def exprString : Expr Mode → Option String
  | .string text => some text
  | _ => none

section
variable (cx : TraceContext Mode)

def markerIsTrue (expr : Expr Mode) (name : String) : Bool :=
  match cx.field expr name with
  | some (.bool true) => true
  | _ => false

def isModelRequest (expr : Expr Mode) : Bool := markerIsTrue cx expr "model-request"

def PrivacyPolicy.fromPayload (payload : Expr Mode) : Except Error PrivacyPolicy :=
  if isModelRequest cx payload then
    fromRequestExpr cx.toAccess payload
  else
    match cx.field payload "expr" with
    | some expr => if isModelRequest cx expr then fromRequestExpr cx.toAccess expr else .ok {}
    | none => .ok {}

def PrivacyPolicy.toExpr (policy : PrivacyPolicy) : Expr Mode :=
  .map ((if policy.localOnly then [keyBool "local-only" true] else []) ++
    (if policy.metadataOnly then [keyBool "metadata-only" true] else []) ++
    (if policy.noRaw then [keyBool "no-raw" true] else []) ++
    (policy.allowTools.map fun tools =>
      keyExpr "allow-tools" (.list (tools.elems.map .symbol))).toList)

def hashField (expr : Expr Mode) (name hashed : String) : List (Expr Mode × Expr Mode) :=
  ((cx.field expr name).map fun value => keyExpr hashed (.string (cx.hashExpr value))).toList

def copyField (expr : Expr Mode) (name : String) : List (Expr Mode × Expr Mode) :=
  ((cx.field expr name).map (keyExpr name)).toList

def transcript (name : String) : Expr Mode × Expr Mode :=
  keyExpr "transcript" (.symbol (.new name))

def modelMetadata (expr : Expr Mode) : List (Expr Mode × Expr Mode) :=
  if isModelRequest cx expr then
    transcript "model-request" :: (hashField cx expr "task" "task-hash" ++
      hashField cx expr "messages" "messages-hash" ++ hashField cx expr "tools" "tools-hash")
  else if markerIsTrue cx expr "model-response" then
    transcript "model-response" ::
      (["runner", "model", "stop-reason", "usage", "market-decision", "cache-hit"].flatMap
        (copyField cx expr) ++ hashField cx expr "content" "content-hash")
  else if markerIsTrue cx expr "model-event" then
    transcript "model-event" :: (["event", "runner", "model", "span-id"].flatMap
      (copyField cx expr) ++ hashField cx expr "response" "response-hash")
  else if markerIsTrue cx expr "model-card" then
    transcript "model-card" ::
      ["runner", "model", "provider", "locality"].flatMap (copyField cx expr)
  else
    []

def metadataPayload (payload : Expr Mode) : Expr Mode :=
  let head := [keyBool "privacy-redacted" true,
    keyExpr "payload-hash" (.string (cx.hashExpr payload))]
  .map (head ++
    match cx.field payload "expr" with
    | some expr => keyExpr "expr-hash" (.string (cx.hashExpr expr)) :: modelMetadata cx expr
    | none =>
      match cx.field payload "value" with
      | some value => keyExpr "value-hash" (.string (cx.hashExpr value)) :: modelMetadata cx value
      | none => modelMetadata cx payload)

/-- The value under the first bare key of the name. -/
def fieldValue (entries : List (Expr Mode × Expr Mode)) (name : String) : Option (Expr Mode) :=
  (entries.find? fun entry => isField entry.1 name).map (·.2)

/-- Puts a value under the first bare key of the name. -/
def setField (name : String) (value : Expr Mode) :
    List (Expr Mode × Expr Mode) → List (Expr Mode × Expr Mode)
  | [] => []
  | entry :: entries =>
    if isField entry.1 name then (entry.1, value) :: entries
    else entry :: setField name value entries

def redactEntries (policy : PrivacyPolicy) (payload : Expr Mode)
    (entries : List (Expr Mode × Expr Mode)) : List (Expr Mode × Expr Mode) :=
  if policy.metadataOnly then
    let entries := setField "payload" (metadataPayload cx payload) entries
    if entries.any fun entry => isField entry.1 "privacy" then entries
    else entries ++ [keyExpr "privacy" policy.toExpr]
  else
    entries

def redactTraceEntry (registry : PolicyRegistry) :
    Expr Mode → Except Error (Expr Mode × PolicyRegistry)
  | .map entries =>
    let taskId := (cx.entryField entries "task-id").bind exprString
    match fieldValue entries "payload" with
    | none => .ok (.map entries, registry)
    | some payload => do
      let payloadPolicy ← PrivacyPolicy.fromPayload cx payload
      let registry := match taskId with
        | some taskId =>
          if payloadPolicy.isEmpty then registry else registry.insert taskId payloadPolicy
        | none => registry
      let policy := (taskId.bind registry.get?).getD payloadPolicy
      return (.map (redactEntries cx policy payload entries), registry)
  | entry => .ok (entry, registry)
end

section
variable {cx : TraceContext Mode}

/-! ## One entry -/

theorem fieldValue_setField {name : String} {value old : Expr Mode} :
    ∀ {entries : List (Expr Mode × Expr Mode)}, fieldValue entries name = some old →
      fieldValue (setField name value entries) name = some value
  | [], h => nomatch h
  | entry :: entries, h => by
    rw [fieldValue] at h
    rw [setField]
    by_cases hentry : isField entry.1 name = true
    · rw [if_pos hentry, fieldValue, List.find?_cons, hentry]
      rfl
    · have hskip := Bool.not_eq_true _ ▸ hentry
      rw [List.find?_cons, hskip] at h
      rw [if_neg hentry, fieldValue, List.find?_cons, hskip]
      exact fieldValue_setField h

theorem fieldValue_append {name : String} {value : Expr Mode}
    {entries entries' : List (Expr Mode × Expr Mode)} (h : fieldValue entries name = some value) :
    fieldValue (entries ++ entries') name = some value := by
  obtain ⟨entry, hfind, hvalue⟩ := Option.map_eq_some_iff.mp h
  rw [fieldValue, List.find?_append, hfind]
  exact congrArg some hvalue

theorem fieldValue_redactEntries {policy : PrivacyPolicy} {payload : Expr Mode}
    {entries : List (Expr Mode × Expr Mode)} (h : fieldValue entries "payload" = some payload) :
    fieldValue (redactEntries cx policy payload entries) "payload" =
      some (if policy.metadataOnly then metadataPayload cx payload else payload) := by
  rw [redactEntries]
  cases policy.metadataOnly with
  | true =>
    rw [if_pos rfl, if_pos rfl]
    dsimp only
    split
    · exact fieldValue_setField h
    · exact fieldValue_append (fieldValue_setField h)
  | false => exact h

/-- The task of a trace entry. -/
def entryTask (cx : TraceContext Mode) : Expr Mode → Option String
  | .map entries => (cx.entryField entries "task-id").bind exprString
  | _ => none

/-- The payload of a trace entry. -/
def entryPayload : Expr Mode → Option (Expr Mode)
  | .map entries => fieldValue entries "payload"
  | _ => none

/-- The entry is returned with metadata in the place of its payload. -/
def Redacted (cx : TraceContext Mode) (registry : PolicyRegistry) (entry : Expr Mode) : Prop :=
  ∀ payload, entryPayload entry = some payload → ∃ redacted registry',
    redactTraceEntry cx registry entry = .ok (redacted, registry') ∧
      entryPayload redacted = some (metadataPayload cx payload)

/-- The registry after a policy is read. -/
def remembered (registry : PolicyRegistry) (taskId : Option String) (policy : PrivacyPolicy) :
    PolicyRegistry :=
  match taskId with
  | some taskId => if policy.isEmpty then registry else registry.insert taskId policy
  | none => registry

/-- The policy under which an entry is kept. -/
def effective (registry : PolicyRegistry) (taskId : Option String) (policy : PrivacyPolicy) :
    PrivacyPolicy :=
  (taskId.bind (remembered registry taskId policy).get?).getD policy

theorem redactTraceEntry_of_policy (registry : PolicyRegistry) {entry payload : Expr Mode}
    {policy : PrivacyPolicy} (hpayload : entryPayload entry = some payload)
    (hpolicy : PrivacyPolicy.fromPayload cx payload = .ok policy) :
    ∃ redacted,
      redactTraceEntry cx registry entry =
        .ok (redacted, remembered registry (entryTask cx entry) policy) ∧
      entryPayload redacted = some
        (if (effective registry (entryTask cx entry) policy).metadataOnly then
          metadataPayload cx payload else payload) := by
  cases entry with
  | map entries =>
    simp only [entryPayload] at hpayload
    simp only [redactTraceEntry, hpayload, hpolicy]
    exact ⟨_, rfl, fieldValue_redactEntries hpayload⟩
  | _ => nomatch hpayload

theorem redactTraceEntry_error {registry : PolicyRegistry} {entry payload : Expr Mode}
    {error : Error} (hpayload : entryPayload entry = some payload)
    (herror : PrivacyPolicy.fromPayload cx payload = .error error) :
    redactTraceEntry cx registry entry = .error error := by
  cases entry with
  | map entries =>
    simp only [entryPayload] at hpayload
    simp only [redactTraceEntry, hpayload, herror]
    rfl
  | _ => nomatch hpayload

theorem redactTraceEntry_of_none {registry : PolicyRegistry} {entry : Expr Mode}
    (hpayload : entryPayload entry = none) :
    redactTraceEntry cx registry entry = .ok (entry, registry) := by
  cases entry with
  | map entries =>
    simp only [entryPayload] at hpayload
    simp only [redactTraceEntry, hpayload]
  | _ => rfl

/-- Reading an entry of another task changes nothing of the policy of a task. -/
theorem redactTraceEntry_other {registry registry' : PolicyRegistry} {entry redacted : Expr Mode}
    {taskId : String} (htask : entryTask cx entry ≠ some taskId)
    (h : redactTraceEntry cx registry entry = .ok (redacted, registry')) :
    registry'.get? taskId = registry.get? taskId := by
  cases hpayload : entryPayload entry with
  | none =>
    rw [redactTraceEntry_of_none hpayload] at h
    cases h
    rfl
  | some payload =>
    cases hpolicy : PrivacyPolicy.fromPayload cx payload with
    | error error => exact nomatch (redactTraceEntry_error hpayload hpolicy).symm.trans h
    | ok policy =>
      obtain ⟨redacted', hredacted, -⟩ :=
        redactTraceEntry_of_policy registry hpayload hpolicy
      cases hredacted.symm.trans h
      cases hother : entryTask cx entry with
      | none => rfl
      | some other =>
        rw [remembered]
        split
        · rfl
        · exact SortedMap.get?_insert_ne _ _ fun hsame => htask (hsame ▸ hother)

/-! ## Metadata says nothing about privacy -/

/-- A field is found only under its own name. -/
structure Access.Lawful (access : Access Mode) : Prop where
  field_none : ∀ {entries : List (Expr Mode × Expr Mode)} {name : String},
    (∀ entry ∈ entries, ∃ other, entry.1 = .symbol (.new other) ∧ other ≠ name) →
      access.field (.map entries) name = none

/-- No entry is under a key that is not bare, or one of the names. -/
def Avoids (names : List String) (entries : List (Expr Mode × Expr Mode)) : Prop :=
  ∀ entry ∈ entries, ∃ other, entry.1 = .symbol (.new other) ∧ other ∉ names

theorem Avoids.nil {names : List String} : Avoids names ([] : List (Expr Mode × Expr Mode)) :=
  nofun

theorem Avoids.cons {names : List String} {name : String} {value : Expr Mode}
    {entries : List (Expr Mode × Expr Mode)} (hname : name ∉ names) (h : Avoids names entries) :
    Avoids names (keyExpr name value :: entries) :=
  List.forall_mem_cons.mpr ⟨⟨name, rfl, hname⟩, h⟩

theorem Avoids.append {names : List String} {entries entries' : List (Expr Mode × Expr Mode)}
    (h : Avoids names entries) (h' : Avoids names entries') : Avoids names (entries ++ entries') :=
  List.forall_mem_append.mpr ⟨h, h'⟩

theorem Avoids.hashField {names : List String} {hashed : String} (hname : hashed ∉ names)
    (expr : Expr Mode) (name : String) : Avoids names (hashField cx expr name hashed) := by
  rw [Agent.hashField]
  cases cx.field expr name with
  | none => exact .nil
  | some value => exact .cons hname .nil

theorem Avoids.copyField {names copied : List String} (hcopied : ∀ name ∈ copied, name ∉ names)
    (expr : Expr Mode) : Avoids names (copied.flatMap (copyField cx expr)) := by
  intro entry hentry
  obtain ⟨name, hname, hmem⟩ := List.mem_flatMap.mp hentry
  rw [Agent.copyField] at hmem
  cases hfield : cx.field expr name with
  | none =>
    rw [hfield] at hmem
    exact nomatch hmem
  | some value =>
    rw [hfield] at hmem
    cases List.mem_singleton.mp hmem
    exact ⟨name, rfl, hcopied name hname⟩

/-- The fields that give a payload a policy. -/
def policyFields : List String := ["model-request", "expr"]

theorem avoids_modelMetadata (expr : Expr Mode) : Avoids policyFields (modelMetadata cx expr) := by
  rw [modelMetadata]
  split
  · exact .cons (by decide) (.append (.append (.hashField (by decide) _ _)
      (.hashField (by decide) _ _)) (.hashField (by decide) _ _))
  split
  · exact .cons (by decide) (.append (.copyField (by decide) _) (.hashField (by decide) _ _))
  split
  · exact .cons (by decide) (.append (.copyField (by decide) _) (.hashField (by decide) _ _))
  split
  · exact .cons (by decide) (.copyField (by decide) _)
  · exact .nil

theorem metadataPayload_avoids (cx : TraceContext Mode) (payload : Expr Mode) :
    ∃ entries, metadataPayload cx payload = .map entries ∧ Avoids policyFields entries := by
  refine ⟨_, rfl, .cons (by decide) (.cons (by decide) ?_)⟩
  split
  · exact .cons (by decide) (avoids_modelMetadata _)
  split
  · exact .cons (by decide) (avoids_modelMetadata _)
  · exact avoids_modelMetadata _

/-- Metadata has no policy of its own. -/
theorem fromPayload_metadataPayload (hlawful : cx.Lawful) (payload : Expr Mode) :
    PrivacyPolicy.fromPayload cx (metadataPayload cx payload) = .ok {} := by
  obtain ⟨entries, hentries, havoids⟩ := metadataPayload_avoids cx payload
  have hnone : ∀ name ∈ policyFields, cx.field (.map entries) name = none := by
    intro name hname
    refine hlawful.field_none fun entry hentry => ?_
    obtain ⟨other, hkey, hother⟩ := havoids entry hentry
    exact ⟨other, hkey, fun hsame => hother (hsame ▸ hname)⟩
  rw [hentries, PrivacyPolicy.fromPayload, isModelRequest, markerIsTrue,
    hnone _ List.mem_cons_self, hnone "expr" (by decide)]
  rfl

/-! ## A run of entries -/

/-- The registry after an entry. -/
def nextRegistry (cx : TraceContext Mode) (registry : PolicyRegistry) (entry : Expr Mode) :
    PolicyRegistry :=
  match redactTraceEntry cx registry entry with
  | .ok (_, registry) => registry
  | .error _ => registry

/-- The registry after a run of entries. -/
def registryAfter (cx : TraceContext Mode) (registry : PolicyRegistry)
    (entries : List (Expr Mode)) : PolicyRegistry :=
  entries.foldl (nextRegistry cx) registry

/-- The payload of the entry has a policy of its own, and it asks for metadata only. -/
def AsksMetadata (cx : TraceContext Mode) (entry : Expr Mode) : Prop :=
  ∃ payload policy, entryPayload entry = some payload ∧
    PrivacyPolicy.fromPayload cx payload = .ok policy ∧ policy.metadataOnly = true

/-- The payload of the entry can be read, and says nothing against metadata only. -/
def LeavesMetadata (cx : TraceContext Mode) (entry : Expr Mode) : Prop :=
  ∀ payload, entryPayload entry = some payload → ∃ policy,
    PrivacyPolicy.fromPayload cx payload = .ok policy ∧
      (policy.isEmpty = true ∨ policy.metadataOnly = true)

/-- Once an entry of a task asked for metadata only, it and every later entry of the task is
redacted. -/
def NeverBypassed (cx : TraceContext Mode) (registry : PolicyRegistry)
    (entries : List (Expr Mode)) : Prop :=
  ∀ before entry after taskId, entries = before ++ entry :: after →
    entryTask cx entry = some taskId → AsksMetadata cx entry →
      Redacted cx (registryAfter cx registry before) entry ∧
      ∀ mid later rest, after = mid ++ later :: rest → entryTask cx later = some taskId →
        Redacted cx (registryAfter cx registry (before ++ entry :: mid)) later

/-- Once an entry of a task asked for metadata only, no later entry of the task says otherwise. -/
def NeverLoosened (cx : TraceContext Mode) (entries : List (Expr Mode)) : Prop :=
  ∀ before entry after taskId, entries = before ++ entry :: after →
    entryTask cx entry = some taskId → AsksMetadata cx entry →
      ∀ later ∈ after, entryTask cx later = some taskId → LeavesMetadata cx later

/-- The registry holds a policy of the task that asks for metadata only. -/
def HoldsMetadata (registry : PolicyRegistry) (taskId : String) : Prop :=
  ∃ policy, registry.get? taskId = some policy ∧ policy.metadataOnly = true

theorem HoldsMetadata.remembered {registry : PolicyRegistry} {taskId : String}
    {policy : PrivacyPolicy} (h : HoldsMetadata registry taskId)
    (hpolicy : policy.isEmpty = true ∨ policy.metadataOnly = true) :
    HoldsMetadata (remembered registry (some taskId) policy) taskId := by
  rw [Agent.remembered]
  split
  · exact h
  · rename_i hempty
    exact ⟨policy, SortedMap.get?_insert_self _ _ _, hpolicy.resolve_left hempty⟩

theorem holdsMetadata_of_asks {registry : PolicyRegistry} {taskId : String}
    {policy : PrivacyPolicy} (hpolicy : policy.metadataOnly = true) :
    HoldsMetadata (remembered registry (some taskId) policy) taskId := by
  have hempty : policy.isEmpty = false := by simp [PrivacyPolicy.isEmpty, hpolicy]
  rw [remembered, hempty]
  exact ⟨policy, SortedMap.get?_insert_self _ _ _, hpolicy⟩

theorem HoldsMetadata.effective {registry : PolicyRegistry} {taskId : String}
    {policy : PrivacyPolicy}
    (h : HoldsMetadata (Agent.remembered registry (some taskId) policy) taskId) :
    (Agent.effective registry (some taskId) policy).metadataOnly = true := by
  obtain ⟨kept, hkept, hmetadata⟩ := h
  rw [Agent.effective, Option.bind_some, hkept]
  exact hmetadata

/-- An entry is redacted, and metadata only kept for its task, when the policy that it leaves in
the registry asks for it. -/
theorem redacted_of_holds (registry : PolicyRegistry) {taskId : String}
    {entry payload : Expr Mode} {policy : PrivacyPolicy} (htask : entryTask cx entry = some taskId)
    (hpayload : entryPayload entry = some payload)
    (hpolicy : PrivacyPolicy.fromPayload cx payload = .ok policy)
    (h : HoldsMetadata (remembered registry (some taskId) policy) taskId) :
    Redacted cx registry entry ∧ HoldsMetadata (nextRegistry cx registry entry) taskId := by
  obtain ⟨redacted, hredacted, hreplaced⟩ :=
    redactTraceEntry_of_policy registry hpayload hpolicy
  rw [htask] at hredacted hreplaced
  rw [if_pos h.effective] at hreplaced
  constructor
  · intro payload' hpayload'
    cases hpayload.symm.trans hpayload'
    exact ⟨redacted, _, hredacted, hreplaced⟩
  · rw [nextRegistry, hredacted]
    exact h

theorem HoldsMetadata.step {registry : PolicyRegistry} {taskId : String} {entry : Expr Mode}
    (h : HoldsMetadata registry taskId)
    (hentry : entryTask cx entry = some taskId → LeavesMetadata cx entry) :
    HoldsMetadata (nextRegistry cx registry entry) taskId := by
  by_cases htask : entryTask cx entry = some taskId
  · cases hpayload : entryPayload entry with
    | none =>
      rw [nextRegistry, redactTraceEntry_of_none hpayload]
      exact h
    | some payload =>
      obtain ⟨policy, hpolicy, hleaves⟩ := hentry htask payload hpayload
      exact (redacted_of_holds _ htask hpayload hpolicy (h.remembered hleaves)).2
  · rw [nextRegistry]
    split
    · rename_i hok
      obtain ⟨policy, hpolicy, hmetadata⟩ := h
      exact ⟨policy, (redactTraceEntry_other htask hok).trans hpolicy, hmetadata⟩
    · exact h

theorem HoldsMetadata.run {taskId : String} {entries : List (Expr Mode)} :
    ∀ {registry : PolicyRegistry}, HoldsMetadata registry taskId →
      (∀ entry ∈ entries, entryTask cx entry = some taskId → LeavesMetadata cx entry) →
        HoldsMetadata (registryAfter cx registry entries) taskId := by
  induction entries with
  | nil => exact fun h _ => h
  | cons entry entries ih =>
    intro registry h hentries
    obtain ⟨hentry, hrest⟩ := List.forall_mem_cons.mp hentries
    exact ih (h.step hentry) hrest

theorem registryAfter_append_cons {registry : PolicyRegistry} {before mid : List (Expr Mode)}
    {entry : Expr Mode} :
    registryAfter cx registry (before ++ entry :: mid) =
      registryAfter cx (nextRegistry cx (registryAfter cx registry before) entry) mid := by
  simp only [registryAfter, List.foldl_append, List.foldl_cons]

/-- Metadata only is never bypassed exactly when it is never loosened. -/
theorem neverBypassed_iff (hlawful : cx.Lawful) {registry : PolicyRegistry}
    {entries : List (Expr Mode)} :
    NeverBypassed cx registry entries ↔ NeverLoosened cx entries := by
  constructor
  · intro h before entry after taskId hentries htask hasks later hlater hsame payload hpayload
    obtain ⟨mid, rest, rfl⟩ := List.append_of_mem hlater
    obtain ⟨redacted, registry', hredacted, hreplaced⟩ :=
      (h before entry _ taskId hentries htask hasks).2 mid later rest rfl hsame payload hpayload
    cases hpolicy : PrivacyPolicy.fromPayload cx payload with
    | error error => exact nomatch (redactTraceEntry_error hpayload hpolicy).symm.trans hredacted
    | ok policy =>
      refine ⟨policy, rfl, ?_⟩
      by_contra hloosened
      obtain ⟨hempty, hmetadata⟩ := not_or.mp hloosened
      obtain ⟨redacted', hredacted', hreplaced'⟩ := redactTraceEntry_of_policy _ hpayload hpolicy
      cases hredacted'.symm.trans hredacted
      -- the policy of the payload is in force, so that the payload is still there
      rw [hsame, effective, remembered, if_neg hempty, Option.bind_some,
        SortedMap.get?_insert_self, Option.getD_some, if_neg hmetadata] at hreplaced'
      have hfixed : payload = metadataPayload cx payload :=
        Option.some.inj (hreplaced'.symm.trans hreplaced)
      have hnone := fromPayload_metadataPayload hlawful payload
      rw [← hfixed, hpolicy] at hnone
      cases hnone
      exact hempty rfl
  · intro h before entry after taskId hentries htask hasks
    obtain ⟨payload, policy, hpayload, hpolicy, hmetadata⟩ := id hasks
    obtain ⟨hredacted, hholds⟩ := redacted_of_holds (registryAfter cx registry before)
      htask hpayload hpolicy (holdsMetadata_of_asks hmetadata)
    refine ⟨hredacted, ?_⟩
    rintro mid later rest rfl hsame payload' hpayload'
    have hleaves := h before entry _ taskId hentries htask hasks
    have hheld : HoldsMetadata (registryAfter cx registry (before ++ entry :: mid)) taskId := by
      rw [registryAfter_append_cons]
      exact hholds.run fun entry hentry => hleaves entry (List.mem_append_left _ hentry)
    obtain ⟨policy', hpolicy', hkeeps⟩ :=
      hleaves later (List.mem_append_right _ List.mem_cons_self) hsame payload' hpayload'
    have hredacted := redacted_of_holds _ hsame hpayload' hpolicy' (hheld.remembered hkeeps)
    exact hredacted.1 payload' hpayload'

/-- Neither restriction is bypassed exactly when `raw-ref` is mentioned in sight and metadata only
is never loosened. -/
theorem privacy_not_bypassed_iff (hlawful : cx.Lawful) :
    (∀ (policy : PrivacyPolicy) (expr : Expr Mode), policy.noRaw = true →
      ((mentions expr ≠ [] → ∃ error, policy.ensureNoRawRefs expr = .error error) ↔
        mentions expr = [] ∨ InSight (mentions expr))) ∧
    ∀ registry entries, NeverBypassed cx registry entries ↔ NeverLoosened cx entries := by
  refine ⟨fun policy expr hraw => ?_, fun registry entries => neverBypassed_iff hlawful⟩
  rw [ensureNoRawRefs_iff hraw, ← or_iff_not_imp_left]
end

namespace TraceSample
open PrivacySample

def cx : TraceContext Unit where
  toAccess := access
  hashExpr := fun _ => "0123456789abcdef"

theorem lawful : cx.Lawful where
  field_none := by
    intro entries name h
    refine Option.map_eq_none_iff.mpr (List.find?_eq_none.mpr fun entry hentry hfound => ?_)
    obtain ⟨other, hkey, hother⟩ := h entry hentry
    rw [hkey] at hfound
    exact hother (Option.some.inj (beq_iff_eq.mp hfound))

def request (policy : String) : Expr Unit :=
  .map [(key "model-request", .bool true), (key "task", .string "the plan"),
    (key "privacy", key policy)]

def traced (policy : String) : Expr Unit :=
  .map [(key "task-id", .string "task-7"), (key "payload", request policy)]

/-- `raw-ref` as a key under a namespace. -/
def hiddenRef : Expr Unit := .map [(.symbol (.qualified "model" "raw-ref"), .string "blob:1")]

end TraceSample

open TraceSample in
theorem privacy_not_bypassed_sample :
    (∀ (policy : PrivacyPolicy) (expr : Expr Unit), policy.noRaw = true →
      ((mentions expr ≠ [] → ∃ error, policy.ensureNoRawRefs expr = .error error) ↔
        mentions expr = [] ∨ InSight (mentions expr))) ∧
    ∀ registry entries, NeverBypassed cx registry entries ↔ NeverLoosened cx entries :=
  privacy_not_bypassed_iff lawful

open TraceSample in
/-- A key under a namespace is not seen, and a later policy of the task takes the place of metadata
only. -/
theorem privacy_bypassed :
    (mentions hiddenRef ≠ [] ∧ PrivacyPolicy.ensureNoRawRefs { noRaw := true } hiddenRef = .ok ()) ∧
    ¬NeverBypassed cx ∅ [traced "metadata-only", traced "local-only"] := by
  refine ⟨⟨List.cons_ne_nil _ _, rfl⟩, fun h => ?_⟩
  obtain ⟨redacted, registry, hredacted, hreplaced⟩ :=
    (h [] (traced "metadata-only") _ "task-7" rfl rfl
      ⟨request "metadata-only", { metadataOnly := true }, rfl, rfl, rfl⟩).2
      [] (traced "local-only") [] rfl rfl (request "local-only") rfl
  have hpayload : entryPayload (traced "local-only") = some (request "local-only") := rfl
  have hpolicy : PrivacyPolicy.fromPayload cx (request "local-only") = .ok { localOnly := true } :=
    rfl
  obtain ⟨redacted', hredacted', hkept⟩ := redactTraceEntry_of_policy _ hpayload hpolicy
  cases hredacted'.symm.trans hredacted
  exact nomatch hkept.symm.trans hreplaced

end SimAgentNet.Agent
