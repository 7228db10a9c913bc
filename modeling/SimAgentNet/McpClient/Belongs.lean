import SimAgentNet.McpClient.Session

/-! # The origin of cached results

Every row of the shared cache comes from a call that is in the account, made under the key of the
row. A hit therefore repeats the value of an earlier call, which is a call of the same operation
when no two operations were called under one key. -/

namespace SimAgentNet.McpClient
open OpenaiServer (Json Serde)

/-! ## What a call does to the cache -/

def Served.key (serde : Serde) (r : Served) : CacheKey :=
  cacheKey serde r.endpoint r.discovery r.invocation r.parameters r.principalScope
    r.paginationCursor

/-- The row keeps what the call obtained, for as long as the server and the policy allow. -/
structure Served.Fills (serde : Serde) (o : Served) (key : CacheKey) (entry : Entry) : Prop where
  fresh : o.fromCache = false
  mayCache : o.invocation.mayCache = true
  key_eq : key = o.key serde
  value_eq : entry.value = o.value
  expires : entry.expiresAtMs ≤ o.nowMs + resultTtl o.ttlMs o.resultTtlMs

/-- A hit repeats a row that has not expired. -/
def Served.Repeats (serde : Serde) (r : Served) (cache : MemoryState) : Prop :=
  r.invocation.mayCache = true ∧ ∃ entry, cache.Has (r.key serde) entry ∧ entry.value = r.value ∧
    r.nowMs < entry.expiresAtMs

/-- No call was added to the account, and no row to the cache. -/
structure Kept {World : Type} (cache : MemoryState) (served : List Served) (s : Session World) :
    Prop where
  served_eq : s.served = served
  rows : ∀ k e, s.cache.Has k e → cache.Has k e

section Calls
variable {World : Type} {serde : Serde} {packageVersion : String} {capacity : Nat}
  {client : Client World} {cache : MemoryState} {served : List Served}

/-- The operation adds neither a call nor a row, whether it fails or not. -/
def Keeps (x : Call World α) : Prop := ∀ cache served,
  Effect.Triple (Kept cache served) x (fun _ => Kept cache served) (Kept cache served)

theorem Keeps.pure (a : α) : Keeps (pure a : Call World α) := fun _ _ => .pure fun _ h => h

theorem Keeps.fail (e : ClientError) : Keeps (.fail e : Call World α) := fun _ _ =>
  .fail fun _ h => h

theorem Keeps.bind {x : Call World α} {f : α → Call World β} (hx : Keeps x)
    (hf : ∀ a, Keeps (f a)) : Keeps (x >>= f) := fun cache served =>
  .bind (hx cache served) fun a => hf a cache served

theorem Keeps.fail_bind (e : ClientError) {f : α → Call World β} :
    Keeps (.fail e >>= f : Call World β) := fun _ _ _ h => h

theorem Keeps.ite {p : Prop} [Decidable p] {x y : Call World α} (hx : Keeps x) (hy : Keeps y) :
    Keeps (if p then x else y) := by
  split
  · exact hx
  · exact hy

theorem Keeps.observe (f : Session World → Except ClientError α) : Keeps (.observe f) :=
  fun _ _ => .observe (fun _ _ h _ => h) fun _ h => h

theorem Keeps.ofExcept (x : Except ClientError α) : Keeps (.ofExcept x : Call World α) :=
  .observe _

theorem Keeps.record (method phase : String) : Keeps (client.record method phase) := fun _ _ =>
  .modify fun _ h => ⟨h.served_eq, h.rows⟩

theorem Keeps.invalidate : Keeps client.invalidate := fun _ _ =>
  .modify fun _ h => ⟨h.served_eq, fun k e he => h.rows k e (MemoryState.clearEndpoint_spec he)⟩

theorem Keeps.incompatible (message : String) :
    Keeps (client.incompatible message : Call World α) := .bind .invalidate fun _ => .fail _

theorem Keeps.request (era : Era) (method : String) (params : Json) (deadlineMs : Nat) :
    Keeps (client.request era method params deadlineMs) := fun _ _ _ h => ⟨h.served_eq, h.rows⟩

theorem Keeps.probe (context : CallContext World) :
    Keeps (client.probe serde packageVersion context) := by
  refine .bind (.record _ _) fun _ => .bind (.request _ _ _ _) fun reply => ?_
  rcases reply with error | reply
  · dsimp only
    split
    · refine .bind (.record _ _) fun _ => .bind (.request _ _ _ _) fun reply => ?_
      rcases reply with error | reply
      · exact .fail _
      · cases reply with
        | complete => exact .ofExcept _
        | inputRequired | stream => exact .incompatible _
    · split
      · exact .bind .invalidate fun _ => .fail _
      · exact .fail _
  · cases reply with
    | complete => exact .ofExcept _
    | inputRequired | stream => exact .incompatible _

theorem Keeps.discover (context : CallContext World) :
    Keeps (client.discover serde packageVersion context) := by
  refine .bind (.observe _) fun _ => .bind (.observe _) fun s => ?_
  split
  · exact .pure _
  · refine .bind (.probe _) fun discovery => .bind ?_ fun _ => .pure _
    exact fun _ _ => .modify fun _ h => ⟨h.served_eq, h.rows⟩

theorem Keeps.acquireInputs (invocation : Invocation) (context : CallContext World)
    (requestState : Json) (requested : List (String × String)) (inputs bytes : Nat) :
    Keeps (client.acquireInputs serde invocation context requestState requested inputs bytes) := by
  have hfocus : ∀ x : Effect ClientError World (List (String × Json)),
      Keeps (.focus Session.world (fun world s => { s with world }) x) := by
    intro x cache served s h
    unfold Effect.focus
    cases (x s.world).1 with
    | ok => exact ⟨h.served_eq, h.rows⟩
    | error => exact ⟨h.served_eq, h.rows⟩
  unfold Client.acquireInputs
  dsimp only
  refine .ite (.fail_bind _) (.ite (.fail_bind _) (.bind (hfocus _) fun acquired => ?_))
  exact .ite (.fail_bind _) (.bind (.record _ _) fun _ => .pure _)

/-! ## Answers -/

/-- How a call returned its value: as a hit, or from the peer, whose result may have been kept. -/
inductive Answer (serde : Serde) (cache : MemoryState) (r : Served) (cache' : MemoryState) : Prop
  | hit (fromCache : r.fromCache = true) (repeats : r.Repeats serde cache)
      (rows : ∀ k e, cache'.Has k e → cache.Has k e)
  | obtained (fresh : r.fromCache = false)
      (rows : ∀ k e, cache'.Has k e → cache.Has k e ∨ r.Fills serde k e)

/-- The call that the outcome ends is the last of the account. -/
def Answers (serde : Serde) (client : Client World) (invocation : Invocation) (parameters : Value)
    (context : CallContext World) (endpoint : EndpointIdentity) (discovery : Discovery)
    (cache : MemoryState) (served : List Served) (outcome : Outcome) (s : Session World) : Prop :=
  ∃ fromCache,
    let r := client.account invocation endpoint discovery parameters context outcome.value
      outcome.ttlMs fromCache
    s.served = served ++ [r] ∧ Answer serde cache r s.cache

theorem complete_answers (invocation : Invocation) (endpoint : EndpointIdentity)
    (discovery : Discovery) (parameters : Value) (context : CallContext World) (reply : Json) :
    Effect.Triple (Kept cache served)
      (client.complete serde capacity invocation endpoint discovery parameters context reply)
      (Answers serde client invocation parameters context endpoint discovery cache served)
      (Kept cache served) := by
  refine .bind (.ofExcept (Q := fun _ => Kept cache served) (fun _ _ h _ => h) fun _ h => h) ?_
  rintro ⟨value, ttlMs⟩
  refine .bind (.ofExcept (Q := fun _ => Kept cache served) (fun _ _ h _ => h) fun _ h => h) ?_
  intro _
  refine .bind (Q := fun _ s => s.served = served ++ [client.account invocation endpoint discovery
    parameters context value ttlMs false] ∧ ∀ k e, s.cache.Has k e → cache.Has k e) ?_ ?_
  · exact .modify fun s h => ⟨congrArg (· ++ _) h.served_eq, h.rows⟩
  intro _
  -- The record at the end changes the world only.
  have hend : ∀ {P : Session World → Prop}, (∀ s, P s → Answers serde client invocation parameters
      context endpoint discovery cache served ⟨value, ttlMs⟩ s) → Effect.Triple P (do
        client.record invocation.method "complete"
        return ⟨value, ttlMs⟩)
      (Answers serde client invocation parameters context endpoint discovery cache served)
      (Kept cache served) :=
    fun hP s h => hP s h
  dsimp only
  split
  · rename_i hkept
    obtain ⟨hmay, -⟩ := Bool.and_eq_true_iff.mp hkept
    refine .bind (Q := fun _ => Answers serde client invocation parameters context endpoint
      discovery cache served ⟨value, ttlMs⟩) (.modify ?_) fun _ => hend fun _ h => h
    rintro s ⟨hserved, hrows⟩
    refine ⟨false, hserved, .obtained rfl fun k e he => ?_⟩
    rcases MemoryState.put_spec he with ⟨rfl, rfl⟩ | he
    · exact .inr ⟨rfl, hmay, rfl, rfl, min_le_left _ _⟩
    · exact .inl (hrows k e he)
  · exact hend fun s h => ⟨false, h.1, .obtained rfl fun k e he =>
      .inl (h.2 k e he)⟩

theorem turn_answers {invocation : Invocation} {endpoint : EndpointIdentity}
    {discovery : Discovery} {parameters : Value} {context : CallContext World} {params : Json}
    {more : Json → List (String × String) → Call World Outcome}
    (hmore : ∀ requestState requested, Effect.Triple (Kept cache served)
      (more requestState requested)
      (Answers serde client invocation parameters context endpoint discovery cache served)
      (Kept cache served)) :
    Effect.Triple (Kept cache served)
      (client.turn serde capacity invocation endpoint discovery parameters context params more)
      (Answers serde client invocation parameters context endpoint discovery cache served)
      (Kept cache served) := by
  refine .bind (Keeps.observe _ cache served) fun _ =>
    .bind (Keeps.request _ _ _ _ cache served) fun reply => ?_
  have hfail : ∀ e, Effect.Triple (Kept cache served) (do client.invalidate; .fail e)
      (Answers serde client invocation parameters context endpoint discovery cache served)
      (Kept cache served) :=
    fun e => .bind (Keeps.invalidate cache served) fun _ => .fail fun _ h => h
  rcases reply with error | reply
  · cases error with
    | incompatible | processExited => exact hfail _
    | timeout | http | rpc | cancelled => exact .fail fun _ h => h
  · cases reply with
    | complete => exact complete_answers invocation endpoint discovery parameters context _
    | inputRequired => exact hmore _ _
    | stream => exact hfail _

theorem exchange_answers (invocation : Invocation) (endpoint : EndpointIdentity)
    (discovery : Discovery) (parameters : Value) (context : CallContext World) {left : Nat}
    {params : Json} {inputs bytes : Nat} :
    Effect.Triple (Kept cache served)
      (client.exchange serde capacity invocation endpoint discovery parameters context left params
        inputs bytes)
      (Answers serde client invocation parameters context endpoint discovery cache served)
      (Kept cache served) := by
  induction left generalizing params inputs bytes with
  | zero =>
    refine turn_answers fun requestState requested => ?_
    exact .fail fun _ h => h
  | succ left ih =>
    refine turn_answers fun requestState requested => ?_
    split
    · exact .fail fun _ h => h
    · exact .bind (Keeps.acquireInputs _ _ _ _ _ _ cache served) fun _ => ih

theorem lookup_spec (invocation : Invocation) (key : CacheKey) (nowMs : Nat) :
    Effect.Triple (Kept cache served) (lookup invocation key nowMs : Call World (Option Json))
      (fun hit s => Kept cache served s ∧ ∀ value, hit = some value →
        invocation.mayCache = true ∧ ∃ entry, cache.Has key entry ∧ entry.value = value ∧
          nowMs < entry.expiresAtMs) (Kept cache served) := by
  intro s h
  unfold lookup
  by_cases hmay : invocation.mayCache = true
  · rw [if_pos hmay]
    obtain ⟨hread, hrows⟩ := @MemoryState.get_spec s.cache key nowMs
    refine ⟨⟨h.served_eq, fun k e he => h.rows k e (hrows k e he)⟩, fun value hvalue => ?_⟩
    obtain ⟨entry, hentry, hrest⟩ := hread value hvalue
    exact ⟨hmay, entry, h.rows _ _ hentry, hrest⟩
  · rw [if_neg hmay]
    exact ⟨h, nofun⟩

/-- The part of a call after its discovery. -/
theorem found_answers (invocation : Invocation) (parameters : Value) (context : CallContext World)
    (endpoint : EndpointIdentity) (discovery : Discovery) :
    Effect.Triple (Kept cache served)
      (client.answer serde capacity invocation parameters context endpoint discovery)
      (Answers serde client invocation parameters context endpoint discovery cache served)
      (Kept cache served) := by
  refine .bind (lookup_spec _ _ _) fun hit => ?_
  cases hit with
  | none =>
    refine .bind (Q := fun _ => Kept cache served) (.modify fun s h => ⟨h.1.1, h.1.2⟩) fun _ => ?_
    exact exchange_answers invocation endpoint discovery parameters context
  | some value =>
    refine .bind (.ofExcept (fun _ _ h _ => h) fun _ h => h.1) fun _ => ?_
    rintro s ⟨hkept, hhit⟩
    obtain ⟨hmay, hentry⟩ := hhit value rfl
    exact ⟨true, congrArg (· ++ _) hkept.served_eq, .hit rfl ⟨hmay, hentry⟩ hkept.rows⟩

/-- A call is answered under the discovery it made and the endpoint it then found. -/
theorem invoke_answers (invocation : Invocation) (parameters : Value)
    (context : CallContext World) (s₀ : Session World) (h₀ : Kept cache served s₀) :
    match client.invoke serde packageVersion capacity invocation parameters context s₀ with
    | (.ok outcome, s) => ∃ discovery s₁,
      client.discover serde packageVersion context s₀ = (.ok discovery, s₁) ∧
      Answers serde client invocation parameters context (client.host.endpoint s₁.world) discovery
        cache served outcome s
    | (.error _, s) => Kept cache served s := by
  unfold Client.invoke
  cases hinput : invocation.input parameters.1 with
  | error e => exact h₀
  | ok =>
    have hkeeps := @Keeps.discover World serde packageVersion client context cache served s₀ h₀
    rw [Effect.bind_apply, Effect.ofExcept_apply]
    dsimp only
    rw [Effect.bind_apply]
    rcases hdiscover : client.discover serde packageVersion context s₀ with ⟨e | discovery, s₁⟩
    · rw [hdiscover] at hkeeps
      exact hkeeps
    · rw [hdiscover] at hkeeps
      have hanswer := @found_answers World serde capacity client cache served invocation parameters
        context (client.host.endpoint s₁.world) discovery s₁ hkeeps
      show match client.answer serde capacity invocation parameters context _ discovery s₁ with
        | (.ok outcome, s) => _
        | (.error _, s) => _
      generalize client.answer serde capacity invocation parameters context _ discovery s₁ = result
        at hanswer
      obtain ⟨e | outcome, s⟩ := result
      · exact hanswer
      · exact ⟨discovery, s₁, rfl, hanswer⟩

end Calls

/-! ## Runs of the system -/

/-- Every row comes from a call of the account. -/
def Accounted (serde : Serde) (cache : MemoryState) (served : List Served) : Prop :=
  ∀ k e, cache.Has k e → ∃ o ∈ served, o.Fills serde k e

section System
variable {ι World : Type} [DecidableEq ι] {serde : Serde} {packageVersion : String}
  {capacity : Nat} {clients : ι → Client World} {sys : System ι World}

/-- A call that fails leaves the account as it was; one that returns is answered. -/
theorem System.invoke_cases (i : ι) (invocation : Invocation) (parameters : Value)
    (context : CallContext World)
    (h : sys.invoke serde packageVersion capacity clients i invocation parameters context =
      (out, sys')) :
    (∃ e, out = .error e ∧ sys'.served = sys.served ∧
      ∀ k e, sys'.cache.Has k e → sys.cache.Has k e) ∨
    ∃ outcome, out = .ok outcome ∧ ∃ discovery s₁ fromCache,
      (clients i).discover serde packageVersion context (sys.session i) = (.ok discovery, s₁) ∧
      let r := (clients i).account invocation ((clients i).host.endpoint s₁.world) discovery
        parameters context outcome.value outcome.ttlMs fromCache
      sys'.served = sys.served ++ [r] ∧ Answer serde sys.cache r sys'.cache := by
  have hspec := @invoke_answers World serde packageVersion capacity (clients i) _ _ invocation
    parameters context (sys.session i) ⟨rfl, fun _ _ h => h⟩
  unfold System.invoke at h
  generalize (clients i).invoke serde packageVersion capacity invocation parameters context
    (sys.session i) = result at h hspec
  obtain ⟨out, s⟩ := result
  obtain ⟨rfl, rfl⟩ := Prod.mk.inj h
  cases out with
  | ok outcome =>
    obtain ⟨discovery, s₁, hdiscover, fromCache, hserved, hanswer⟩ := hspec
    exact .inr ⟨outcome, rfl, discovery, s₁, fromCache, hdiscover, hserved, hanswer⟩
  | error e => exact .inl ⟨e, rfl, hspec.served_eq, hspec.rows⟩

theorem Accounted.mono (h : Accounted serde cache served)
    (hrows : ∀ k e, cache'.Has k e → cache.Has k e) (served' : List Served) :
    Accounted serde cache' (served ++ served') := by
  intro k e he
  obtain ⟨o, ho, hfills⟩ := h k e (hrows k e he)
  exact ⟨o, List.mem_append_left _ ho, hfills⟩

/-- A call keeps every row accounted for. -/
theorem Accounted.invoke (h : Accounted serde sys.cache sys.served)
    (hinvoke : sys.invoke serde packageVersion capacity clients i invocation parameters context =
      (out, sys')) : Accounted serde sys'.cache sys'.served := by
  rcases System.invoke_cases i invocation parameters context hinvoke with
    ⟨-, -, hserved, hrows⟩ | ⟨outcome, -, discovery, s₁, fromCache, -, hserved, hanswer⟩
  · have := h.mono hrows []
    rwa [List.append_nil, ← hserved] at this
  · rw [hserved]
    cases hanswer with
    | hit _ _ hrows => exact h.mono hrows _
    | obtained _ hrows =>
      intro k e he
      rcases hrows k e he with he | hfills
      · exact h.mono (fun _ _ h => h) _ k e he
      · exact ⟨_, List.mem_append_right _ List.mem_cons_self, hfills⟩

theorem System.Run.accounted (h : System.Run serde packageVersion capacity clients sys) :
    Accounted serde sys.cache sys.served := by
  induction h with
  | start => exact nofun
  | elapsed _ _ ih => exact ih
  | invoked _ i invocation parameters context ih => exact ih.invoke rfl

/-! ## Hits -/

/-- The value of the later call was obtained by the earlier one, which asked the same of the same
server for the same principal, and it had not expired. -/
structure Served.BelongsTo (o r : Served) : Prop where
  fresh : o.fromCache = false
  notEffecting : o.invocation.effecting = false
  operation : o.invocation.operation = r.invocation.operation
  method : o.invocation.method = r.invocation.method
  endpoint : o.endpoint = r.endpoint
  era : o.discovery.era = r.discovery.era
  version : o.discovery.version = r.discovery.version
  extensions : o.discovery.extensions = r.discovery.extensions
  principalScope : o.principalScope = r.principalScope
  paginationCursor : o.paginationCursor = r.paginationCursor
  parameters : SameUpToOrder o.parameters.1 r.parameters.1
  value : o.value = r.value
  withinPolicy : r.nowMs ≤ o.nowMs + o.resultTtlMs
  withinServer : ∀ ttl, o.ttlMs = some ttl → r.nowMs ≤ o.nowMs + ttl

/-- No two operations that may be cached were called under one key. -/
def OperationsTold (serde : Serde) (served : List Served) : Prop :=
  ∀ o ∈ served, ∀ r ∈ served, o.invocation.mayCache = true → r.invocation.mayCache = true →
    o.key serde = r.key serde → o.invocation.operation = r.invocation.operation

/-- A row that a call fills gives the value of that call to every call of the key. -/
theorem Served.Fills.belongsTo (hserde : ∀ json, serde.toText json = String.ofList json.text)
    {o r : Served} (h : o.Fills serde (r.key serde) entry) (hvalue : entry.value = r.value)
    (hnow : r.nowMs < entry.expiresAtMs)
    (hoperation : o.invocation.operation = r.invocation.operation) : o.BelongsTo r := by
  obtain ⟨hfresh, hmay, hkey, hentry, hexpires⟩ := h
  obtain ⟨hendpoint, hera, hversion, hscope, hextensions, hmethod, hparameters, hcursor⟩ :=
    CacheKey.mk.inj hkey
  have hage : r.nowMs ≤ o.nowMs + resultTtl o.ttlMs o.resultTtlMs := hnow.le.trans hexpires
  have hpolicy : resultTtl o.ttlMs o.resultTtlMs ≤ o.resultTtlMs :=
    (min_le_right _ _).trans (min_le_right _ _)
  exact {
    fresh := hfresh
    notEffecting := by simpa using (Bool.and_eq_true_iff.mp hmay).2
    operation := hoperation
    method := hmethod.symm
    endpoint := hendpoint.symm
    era := hera.symm
    version := hversion.symm
    extensions := hextensions.symm
    principalScope := hscope.symm
    paginationCursor := hcursor.symm
    parameters := same_of_canonical_text hserde hparameters.symm
    value := hentry.symm.trans hvalue
    withinPolicy := hage.trans (Nat.add_le_add_left hpolicy _)
    withinServer := by
      intro ttl httl
      refine hage.trans (Nat.add_le_add_left ?_ _)
      rw [httl]
      exact min_le_left _ _ }

/-- A call returns a cached value only if an earlier call for the same obtained it, in every run in
which no two operations are called under one key. -/
theorem cached_result_belongs (hserde : ∀ json, serde.toText json = String.ofList json.text)
    (hrun : System.Run serde packageVersion capacity clients sys) (i : ι) (invocation : Invocation)
    (parameters : Value) (context : CallContext World)
    (hinvoke : sys.invoke serde packageVersion capacity clients i invocation parameters context =
      (.ok outcome, sys'))
    (htold : OperationsTold serde sys'.served) :
    ∃ discovery s₁ fromCache,
      (clients i).discover serde packageVersion context (sys.session i) = (.ok discovery, s₁) ∧
      let r := (clients i).account invocation ((clients i).host.endpoint s₁.world) discovery
        parameters context outcome.value outcome.ttlMs fromCache
      sys'.served = sys.served ++ [r] ∧
      (fromCache = true → ∃ o ∈ sys.served, o.BelongsTo r) := by
  rcases System.invoke_cases i invocation parameters context hinvoke with
    ⟨e, he, -⟩ | ⟨_, he, discovery, s₁, fromCache, hdiscover, hserved, hanswer⟩
  · cases he
  · cases he
    refine ⟨discovery, s₁, fromCache, hdiscover, hserved, fun hcached => ?_⟩
    cases hanswer with
    | obtained hfresh => exact absurd (hfresh.symm.trans hcached) Bool.false_ne_true
    | hit _ hrepeats =>
      obtain ⟨hmay, entry, hrow, hvalue, hnow⟩ := hrepeats
      obtain ⟨o, ho, hfills⟩ := hrun.accounted _ _ hrow
      refine ⟨o, ho, hfills.belongsTo hserde hvalue hnow ?_⟩
      rw [hserved] at htold
      exact htold o (List.mem_append_left _ ho) _ (List.mem_append_right _ List.mem_cons_self)
        hfills.mayCache hmay hfills.key_eq.symm

end System

namespace Sample

def serde : Serde := ⟨fun _ => .error "", fun _ => [], fun json => String.ofList json.text⟩

def server : Json := .object [("resultType", .string "complete"),
  ("supportedVersions", .array [.string "2025-06-18"]),
  ("serverInfo", .object [("name", .string "notes"), ("version", .string "1")])]

/-- A server that answers every request with its number. -/
def client : Client Unit where
  host := {
    endpoint := fun _ => .processInstance "1"
    bindingKind := "stdio"
    request := fun _ id method _ _ => pure (.complete
      (if method = "server/discover" then server else .number (toString id)))
    acquire := fun _ _ _ => pure []
    record := fun _ _ _ world => world }
  policy := ⟨60000, 60000, 1, 100, 1⟩

def resource (name : String) : Invocation :=
  .ofCard name .resource (fun _ => .ok ()) (fun _ => .ok ()) (some true) none

def context (nowMs : Nat) : CallContext Unit := ⟨"alice", [], none, 1000, nowMs, fun _ => false⟩

def parameters : Value := ⟨.object [], trivial, .nil, trivial⟩

def read (name : String) (nowMs : Nat) (sys : System Unit Unit) :
    Except ClientError Outcome × System Unit Unit :=
  sys.invoke serde "0.1.0" 8 (fun _ => client) () (resource name) parameters
    (context nowMs)

def start : System Unit Unit := ⟨(), fun _ => none, fun _ => 1, .empty, []⟩

def Reached : System Unit Unit → Prop := System.Run serde "0.1.0" 8 fun _ => client

theorem reached_read_a : Reached (read "a" 0 start).2 :=
  .invoked (.start ()) () (resource "a") parameters (context 0)

theorem operation_eq (name : String) (n : Nat) {served : List Served}
    (h : served.map (·.invocation.operation) = List.replicate n name) (hr : r ∈ served) :
    r.invocation.operation = name :=
  List.eq_of_mem_replicate (h ▸ List.mem_map_of_mem hr)

end Sample

open Sample in
/-- The resource that is read again within the policy is that of the first reading. -/
theorem cached_result_belongs_reread :
    ∃ r ∈ (read "a" 10 (read "a" 0 start).2).2.served, r.fromCache = true ∧
      ∃ o ∈ (read "a" 0 start).2.served, o.BelongsTo r := by
  obtain ⟨discovery, s₁, fromCache, -, hserved, hbelongs⟩ := cached_result_belongs (fun _ => rfl)
    reached_read_a () (resource "a") parameters (context 10) (Prod.ext rfl rfl)
    (fun o ho r hr _ _ _ => (operation_eq "a" 2 rfl ho).trans (operation_eq "a" 2 rfl hr).symm)
  have hcached : fromCache = true := by
    have hlast : some true = _ := congrArg (·.getLast?.map (·.fromCache)) hserved
    rw [List.getLast?_concat] at hlast
    exact (Option.some.inj hlast).symm
  exact ⟨_, hserved ▸ List.mem_append_right _ List.mem_cons_self, hcached, hbelongs hcached⟩

open Sample in
/-- Two resources that are read without parameters share an entry: the second reading returns the
text of the first resource, though no call has obtained the second. -/
theorem second_resource_reads_first :
    Reached (read "a" 0 start).2 ∧ ∃ outcome r,
      (read "b" 10 (read "a" 0 start).2).1 = .ok outcome ∧
      (read "b" 10 (read "a" 0 start).2).2.served = (read "a" 0 start).2.served ++ [r] ∧
      r.fromCache = true ∧ r.value = outcome.value ∧ r.invocation = resource "b" ∧
      ¬∃ o ∈ (read "a" 0 start).2.served, o.BelongsTo r := by
  refine ⟨reached_read_a, _, _, rfl, rfl, rfl, rfl, rfl, ?_⟩
  rintro ⟨o, ho, hbelongs⟩
  have hoperation := (operation_eq "a" 1 rfl ho).symm.trans hbelongs.operation
  exact absurd hoperation (by decide)

end SimAgentNet.McpClient
