import SimAgentNet.McpClient.Trace

/-! # Dead servers

A peer answers that it exited or that it is incompatible. Some of these answers make the client
forget its discovery and the results of the endpoint; those to the probes and to the request for
cards do not all. -/

namespace SimAgentNet.McpClient
open OpenaiServer (Json Serde)

/-! ## What is asked for what -/

def BindingError.isDead : BindingError → Bool
  | .processExited _ | .incompatible _ => true
  | _ => false

/-- The peer exited, or is incompatible. -/
def Exchange.dead (e : Exchange) : Bool :=
  match e.reply with
  | .error error => error.isDead
  | .ok _ => false

inductive Purpose where
  | probe
  | legacyProbe
  | application
deriving DecidableEq

section
variable (serde : Serde) (bindingKind : String)

def Exchange.asksLegacy (e : Exchange) : Bool :=
  match e.reply with
  | .error error => recognizedLegacyProbe serde bindingKind error
  | .ok _ => false

/-- The exchanges of an operation with what each is for. Without a discovery that is fresh the first
is the probe, and one that asks for the old form is followed by the legacy probe. -/
def withPurposes (fresh : Bool) (asked : List Exchange) : List (Purpose × Exchange) :=
  match fresh, asked with
  | true, asked => asked.map (.application, ·)
  | false, [] => []
  | false, e :: asked =>
    (.probe, e) ::
      if e.asksLegacy serde bindingKind then
        match asked with
        | [] => []
        | e' :: asked => (.legacyProbe, e') :: asked.map (.application, ·)
      else asked.map (.application, ·)

end

/-- An answer of a dead server that the operation passes on and does nothing about. -/
def overlooked (importing : Bool) : Purpose × Exchange → Bool
  | (.probe, e) =>
    match e.reply with
    | .error (.incompatible _) => true
    | _ => false
  | (.legacyProbe, e) => e.dead
  | (.application, e) => importing && e.dead

def Operation.importing : Operation → Bool
  | .importCards => true
  | _ => false

/-- The client holds no discovery, and its cache nothing of the endpoint. -/
structure Forgotten (s : Session World) (endpoint : EndpointIdentity) : Prop where
  era : s.era = none
  cache : ∀ key entry, s.cache.Has key entry → key.endpoint ≠ endpoint

def Session.fresh (s : Session World) (nowMs : Nat) : Bool :=
  (s.era.filter (nowMs < ·.expiresAtMs)).isSome

section
variable {serde : Serde} {bindingKind : String} {importing : Bool}

theorem dead_of_overlooked {asked : Purpose × Exchange} (h : overlooked importing asked) :
    asked.2.dead := by
  obtain ⟨purpose, e⟩ := asked
  cases purpose with
  | probe =>
    unfold overlooked at h
    unfold Exchange.dead
    dsimp only at h ⊢
    split at h
    · rename_i hreply
      rw [hreply]
      rfl
    · cases h
  | legacyProbe => exact h
  | application => exact (Bool.and_eq_true_iff.mp h).2

theorem mem_of_mem_withPurposes {fresh : Bool} {es : List Exchange} {asked : Purpose × Exchange}
    (h : asked ∈ withPurposes serde bindingKind fresh es) : asked.2 ∈ es := by
  have hmap : ∀ {es : List Exchange}, asked ∈ es.map (Purpose.application, ·) → asked.2 ∈ es := by
    intro es h
    obtain ⟨e, he, rfl⟩ := List.mem_map.mp h
    exact he
  unfold withPurposes at h
  split at h
  · exact hmap h
  · cases h
  · rcases List.mem_cons.mp h with rfl | h
    · exact List.mem_cons_self
    apply List.mem_cons_of_mem
    split at h
    · split at h
      · cases h
      · rcases List.mem_cons.mp h with rfl | h
        · exact List.mem_cons_self
        · exact List.mem_cons_of_mem _ (hmap h)
    · exact hmap h

end

/-! ## What an operation leaves behind -/

section
variable {World : Type} {serde : Serde} {packageVersion : String} {capacity : Nat} {api : CardApi}
  {client : Client World} {context : CallContext World} {s₀ : Session (Traced World)}

/-- The operation asked for `es` since `s₀`. -/
def Noted (s₀ : Session (Traced World)) (es : List Exchange) (s : Session (Traced World)) : Prop :=
  ∃ log, s.trace = s₀.trace ++ log ∧ exchanges log = es

theorem Noted.concat {es : List Exchange} {e : Exchange} {s s' : Session (Traced World)}
    (h : Noted s₀ es s) (htrace : s'.trace = s.trace ++ [Event.asked e]) : Noted s₀ (es ++ [e]) s' := by
  obtain ⟨log, hlog, rfl⟩ := h
  exact ⟨log ++ [Event.asked e], by rw [htrace, hlog, List.append_assoc], exchanges_append ..⟩

variable (serde client context) in
/-- The exchanges since `s₀` with what each is for. -/
def asksOf (s₀ : Session (Traced World)) (es : List Exchange) : List (Purpose × Exchange) :=
  withPurposes serde client.host.bindingKind (s₀.fresh context.nowMs) es

/-- The operation has begun: it asked for `es`, and left the discovery and the cache as they
were. -/
structure Probing (s₀ : Session (Traced World)) (es : List Exchange) (s : Session (Traced World)) :
    Prop where
  noted : Noted s₀ es s
  era : s.era = s₀.era
  cache : s.cache = s₀.cache
  alive : ∀ e ∈ es, e.dead = false

variable (serde client context) in
/-- No answer was dead, and what the operation asks from now on is for the application. -/
def Probed (s₀ s : Session (Traced World)) : Prop :=
  ∃ es, Noted s₀ es s ∧ (∀ e ∈ es, e.dead = false) ∧
    ∀ more, asksOf serde client context s₀ (es ++ more) =
      asksOf serde client context s₀ es ++ more.map (Purpose.application, ·)

variable (serde client context) in
/-- How an operation ends: with every dead answer heeded, or with one that was passed on. -/
inductive Ended (importing : Bool) (s₀ s : Session (Traced World)) : Prop
  | heeded (es : List Exchange) (noted : Noted s₀ es s)
      (none : ∀ asked ∈ asksOf serde client context s₀ es, overlooked importing asked = false)
      (forgotten : ∀ e ∈ es, e.dead → Forgotten s e.endpoint)
  | passedOn (es : List Exchange) (purpose : Purpose) (e : Exchange)
      (noted : Noted s₀ (es ++ [e]) s)
      (alive : ∀ e ∈ es, e.dead = false)
      (last : asksOf serde client context s₀ (es ++ [e]) =
        asksOf serde client context s₀ es ++ [(purpose, e)])
      (overlooked : overlooked importing (purpose, e))
      (kept : if purpose = .application then s.era ≠ none else s.era = s₀.era ∧ s.cache = s₀.cache)

theorem asksOf_alive {importing : Bool} {es : List Exchange} (h : ∀ e ∈ es, e.dead = false) :
    ∀ asked ∈ asksOf serde client context s₀ es, overlooked importing asked = false := by
  intro asked hasked
  rw [← Bool.not_eq_true]
  intro hover
  have halive := h asked.2 (mem_of_mem_withPurposes hasked)
  exact Bool.false_ne_true (halive.symm.trans (dead_of_overlooked hover))

theorem Ended.ofAlive {importing : Bool} {es : List Exchange} {s : Session (Traced World)}
    (h : Noted s₀ es s) (halive : ∀ e ∈ es, e.dead = false) :
    Ended serde client context importing s₀ s :=
  .heeded es h (asksOf_alive halive) fun e he hdead => nomatch (halive e he).symm.trans hdead

theorem Ended.iff {importing : Bool} {s : Session (Traced World)}
    (h : Ended serde client context importing s₀ s) : ∃ log, s.trace = s₀.trace ++ log ∧
      ((∀ e ∈ exchanges log, e.dead → Forgotten s e.endpoint) ↔
        ∀ asked ∈ asksOf serde client context s₀ (exchanges log), overlooked importing asked →
          asked.1 ≠ .application ∧ Forgotten s₀ asked.2.endpoint) := by
  cases h with
  | heeded es noted hnone hforgotten =>
    obtain ⟨log, hlog, rfl⟩ := noted
    refine ⟨log, hlog, iff_of_true hforgotten fun asked hasked hover => ?_⟩
    rw [hnone asked hasked] at hover
    cases hover
  | passedOn es purpose e noted halive hlast hover hkept =>
    obtain ⟨log, hlog, hes⟩ := noted
    refine ⟨log, hlog, ?_⟩
    rw [hes]
    have hdead : e.dead := dead_of_overlooked hover
    calc (∀ e' ∈ es ++ [e], e'.dead → Forgotten s e'.endpoint)
      _ ↔ Forgotten s e.endpoint := ?_
      _ ↔ purpose ≠ .application ∧ Forgotten s₀ e.endpoint := ?_
      _ ↔ _ := ?_
    · constructor
      · intro h
        exact h e (List.mem_append_right _ (List.mem_singleton_self e)) hdead
      · intro h e' he' hdead'
        rcases List.mem_append.mp he' with he' | he'
        · cases (halive e' he').symm.trans hdead'
        · cases List.mem_singleton.mp he'
          exact h
    · split at hkept
      · rename_i happ
        exact iff_of_false (fun h => hkept h.era) fun h => h.1 happ
      · rename_i happ
        refine ⟨fun h => ⟨happ, hkept.1 ▸ h.era, hkept.2 ▸ h.cache⟩, fun h => ?_⟩
        exact ⟨hkept.1.trans h.2.era, hkept.2 ▸ h.2.cache⟩
    · rw [hlast]
      constructor
      · intro h asked hasked hover'
        rcases List.mem_append.mp hasked with hasked | hasked
        · cases (asksOf_alive halive asked hasked).symm.trans hover'
        · cases List.mem_singleton.mp hasked
          exact h
      · intro h
        exact h _ (List.mem_append_right _ (List.mem_singleton_self _)) hover

/-! ## Discovery -/

theorem Probing.record {es : List Exchange} (method phase : String)
    {E : Session (Traced World) → Prop} :
    Effect.Triple (Probing s₀ es) (client.traced.record method phase) (fun _ => Probing s₀ es) E :=
  .modify fun _ h => ⟨h.noted, h.era, h.cache, h.alive⟩

theorem Probing.request {es : List Exchange} (era : Era) (method : String) (params : Json)
    (deadlineMs : Nat) {E : Session (Traced World) → Prop} :
    Effect.Triple (Probing s₀ es) (client.traced.request era method params deadlineMs)
      (fun reply s => ∃ e : Exchange, e.reply = reply ∧ e.endpoint = client.traced.host.endpoint s.world ∧
        Noted s₀ (es ++ [e]) s ∧ s.era = s₀.era ∧ s.cache = s₀.cache ∧ ∀ e ∈ es, e.dead = false)
      E := by
  intro s h
  obtain ⟨e, reply, s', hrequest, hreply, hendpoint, htrace, hera, hcache, -⟩ :=
    @request_trace _ client era method params deadlineMs s
  rw [hrequest]
  exact ⟨e, hreply, hendpoint, h.noted.concat htrace, hera.trans h.era, hcache.trans h.cache,
    h.alive⟩

theorem asksOf_nil : asksOf serde client context s₀ [] = [] := by
  rw [asksOf]
  cases s₀.fresh context.nowMs with
  | true => rfl
  | false => rfl

theorem asksOf_first (hfresh : s₀.fresh context.nowMs = false) (e : Exchange) :
    asksOf serde client context s₀ [e] = [(.probe, e)] := by
  simp only [asksOf, hfresh, withPurposes, List.map_nil, ite_self]

theorem asksOf_modern (hfresh : s₀.fresh context.nowMs = false) {e : Exchange}
    (hlegacy : e.asksLegacy serde client.host.bindingKind = false) (more : List Exchange) :
    asksOf serde client context s₀ (e :: more) = (.probe, e) :: more.map (Purpose.application, ·) := by
  simp only [asksOf, hfresh, withPurposes, hlegacy, Bool.false_eq_true, if_false]

theorem asksOf_legacy (hfresh : s₀.fresh context.nowMs = false) {e : Exchange}
    (hlegacy : e.asksLegacy serde client.host.bindingKind = true) (e' : Exchange)
    (more : List Exchange) :
    asksOf serde client context s₀ (e :: e' :: more) =
      (.probe, e) :: (.legacyProbe, e') :: more.map (Purpose.application, ·) := by
  simp only [asksOf, hfresh, withPurposes, hlegacy, if_true]

theorem isDead_of_recognized {kind : String} {error : BindingError}
    (h : recognizedLegacyProbe serde kind error) : error.isDead = false := by
  cases error with
  | rpc | http => rfl
  | timeout | processExited | incompatible | cancelled => cases h

/-- What a request that nothing was dead before leaves, with its answer passed on. -/
theorem ended_of_reply {importing : Bool} {es : List Exchange} {e : Exchange} (purpose : Purpose)
    {s : Session (Traced World)} (hnoted : Noted s₀ (es ++ [e]) s)
    (halive : ∀ e ∈ es, e.dead = false)
    (hlast : asksOf serde client context s₀ (es ++ [e]) =
      asksOf serde client context s₀ es ++ [(purpose, e)])
    (hover : e.dead → overlooked importing (purpose, e))
    (hkept : if purpose = .application then s.era ≠ none else s.era = s₀.era ∧ s.cache = s₀.cache) :
    Ended serde client context importing s₀ s := by
  by_cases hdead : e.dead
  · exact .passedOn es purpose e hnoted halive hlast (hover hdead) hkept
  · refine .ofAlive hnoted fun e' he' => ?_
    rcases List.mem_append.mp he' with he' | he'
    · exact halive e' he'
    · cases List.mem_singleton.mp he'
      exact Bool.not_eq_true _ ▸ hdead

theorem legacy_probe_spec {importing : Bool} (hfresh : s₀.fresh context.nowMs = false)
    {e : Exchange} (hlegacy : e.asksLegacy serde client.host.bindingKind = true) :
    Effect.Triple (Probing s₀ [e]) (do
      client.traced.record "initialize" "legacy-probe"
      match ← client.traced.request .legacy "initialize" (legacyInitialize packageVersion)
        context.traced.deadlineMs with
      | .ok (.complete value) => .ofExcept (parseDiscovery .legacy value)
      | .ok _ => client.traced.incompatible "legacy initialize was not complete"
      | .error error => .fail (.binding error))
      (fun _ => Probed serde client context s₀) (Ended serde client context importing s₀) := by
  refine .bind (Probing.record _ _) fun _ => .bind (Probing.request _ _ _ _) fun reply => ?_
  rcases reply with error | reply
  · refine .fail ?_
    rintro s ⟨e', hreply, -, hnoted, hera, hcache, halive⟩
    refine ended_of_reply .legacyProbe hnoted halive ?_ (fun h => h) ?_
    · rw [asksOf_first hfresh]
      exact asksOf_legacy hfresh hlegacy e' []
    · rw [if_neg (by decide)]
      exact ⟨hera, hcache⟩
  have halive₂ : ∀ {e' : Exchange}, e'.reply = .ok reply → (∀ e' ∈ [e], e'.dead = false) →
      ∀ e'' ∈ [e, e'], e''.dead = false := by
    intro e' hreply halive e'' he''
    rcases List.mem_cons.mp he'' with rfl | he''
    · exact halive _ (List.mem_singleton_self _)
    · cases List.mem_singleton.mp he''
      rw [Exchange.dead, hreply]
  cases reply with
  | complete value =>
    refine .ofExcept ?_ ?_
    · rintro s discovery ⟨e', hreply, -, hnoted, -, -, halive⟩ -
      refine ⟨_, hnoted, halive₂ hreply halive, fun more => ?_⟩
      simp only [List.cons_append, List.nil_append, asksOf_legacy hfresh hlegacy, List.map_nil]
    · rintro s ⟨e', hreply, -, hnoted, -, -, halive⟩
      exact .ofAlive hnoted (halive₂ hreply halive)
  | inputRequired | stream =>
    rintro s ⟨e', hreply, -, hnoted, -, -, halive⟩
    exact .ofAlive hnoted (halive₂ hreply halive)

theorem clearEndpoint_ne {state : MemoryState} {endpoint : EndpointIdentity} {key : CacheKey}
    {entry : Entry} (h : (state.clearEndpoint endpoint).Has key entry) : key.endpoint ≠ endpoint :=
  of_decide_eq_true (List.mem_filter.mp h).2

/-- An answer that makes the client forget the endpoint. -/
theorem forget_spec {importing : Bool} {P : Session (Traced World) → Prop} (error : ClientError)
    (h : ∀ s, P s → ∃ (es : List Exchange) (e : Exchange), Noted s₀ (es ++ [e]) s ∧ (∀ e ∈ es, e.dead = false) ∧
      e.endpoint = client.traced.host.endpoint s.world ∧
      ∀ asked ∈ asksOf serde client context s₀ (es ++ [e]), overlooked importing asked = false) :
    Effect.Triple P (do client.traced.invalidate; .fail error : Call (Traced World) α)
      Q (Ended serde client context importing s₀) := by
  intro s hs
  obtain ⟨es, e, hnoted, halive, hendpoint, hnone⟩ := h s hs
  refine .heeded (es ++ [e]) hnoted hnone fun e' he' hdead => ?_
  rcases List.mem_append.mp he' with he' | he'
  · cases (halive e' he').symm.trans hdead
  · cases List.mem_singleton.mp he'
    exact ⟨rfl, fun key entry hrow => hendpoint ▸ clearEndpoint_ne hrow⟩

theorem probe_spec {importing : Bool} (hfresh : s₀.fresh context.nowMs = false) :
    Effect.Triple (Probing s₀ []) (client.traced.probe serde packageVersion context.traced)
      (fun _ => Probed serde client context s₀) (Ended serde client context importing s₀) := by
  refine .bind (Probing.record _ _) fun _ => .bind (Probing.request _ _ _ _) fun reply => ?_
  rcases reply with error | reply
  · dsimp only
    split
    · rename_i hlegacy
      rintro s ⟨e, hreply, -, hnoted, hera, hcache, -⟩
      have hasks : e.asksLegacy serde client.host.bindingKind = true := by
        rw [Exchange.asksLegacy, hreply]
        exact hlegacy
      refine legacy_probe_spec hfresh hasks s ⟨hnoted, hera, hcache, fun e' he' => ?_⟩
      cases List.mem_singleton.mp he'
      rw [Exchange.dead, hreply]
      exact isDead_of_recognized hlegacy
    · have hpassed : (∀ code, error ≠ .processExited code) → ∀ e', Effect.Triple
          (fun s => ∃ e : Exchange, e.reply = .error error ∧ e.endpoint = client.traced.host.endpoint s.world ∧
            Noted s₀ ([] ++ [e]) s ∧ s.era = s₀.era ∧ s.cache = s₀.cache ∧
            ∀ e ∈ ([] : List Exchange), e.dead = false)
          (.fail e' : Call (Traced World) Discovery) (fun _ => Probed serde client context s₀)
          (Ended serde client context importing s₀) := by
        intro hexited e'
        refine .fail ?_
        rintro s ⟨e, hreply, -, hnoted, hera, hcache, halive⟩
        refine ended_of_reply .probe hnoted halive ?_ (fun hdead => ?_) ?_
        · rw [asksOf_nil]
          exact asksOf_first hfresh e
        · rw [Exchange.dead, hreply] at hdead
          rw [overlooked, hreply]
          cases error with
          | incompatible => rfl
          | processExited code => cases hexited code rfl
          | timeout | http | rpc | cancelled => cases hdead
        · rw [if_neg (by decide)]
          exact ⟨hera, hcache⟩
      cases error with
      | processExited code =>
        refine forget_spec _ ?_
        rintro s ⟨e, hreply, hendpoint, hnoted, -, -, halive⟩
        refine ⟨[], e, hnoted, halive, hendpoint, fun asked hasked => ?_⟩
        rw [List.nil_append, asksOf_first hfresh] at hasked
        cases List.mem_singleton.mp hasked
        rw [overlooked, hreply]
      | timeout | http | rpc | incompatible | cancelled => exact hpassed nofun _
  have halive : ∀ {e : Exchange}, e.reply = .ok reply → ∀ e' ∈ [e], e'.dead = false := by
    intro e hreply e' he'
    cases List.mem_singleton.mp he'
    rw [Exchange.dead, hreply]
  cases reply with
  | complete value =>
    refine .ofExcept ?_ ?_
    · rintro s discovery ⟨e, hreply, -, hnoted, -⟩ -
      refine ⟨_, hnoted, halive hreply, fun more => ?_⟩
      have hasks : e.asksLegacy serde client.host.bindingKind = false := by
        rw [Exchange.asksLegacy, hreply]
      simp only [List.nil_append, List.cons_append, asksOf_modern hfresh hasks, List.map_nil]
    · rintro s ⟨e, hreply, -, hnoted, -⟩
      exact .ofAlive hnoted (halive hreply)
  | inputRequired | stream =>
    rintro s ⟨e, hreply, -, hnoted, -⟩
    exact .ofAlive hnoted (halive hreply)

theorem Noted.refl (s : Session (Traced World)) : Noted s [] s :=
  ⟨[], (List.append_nil _).symm, rfl⟩

variable (serde client context) in
/-- The operation has a discovery. -/
structure Settled (s₀ s : Session (Traced World)) : Prop where
  era : s.era ≠ none
  probed : Probed serde client context s₀ s

theorem discover_spec {importing : Bool} :
    Effect.Triple (· = s₀) (client.traced.discover serde packageVersion context.traced)
      (fun _ => Settled serde client context s₀) (Ended serde client context importing s₀) := by
  have hended : ∀ s, s = s₀ → Ended serde client context importing s₀ s := by
    rintro s rfl
    exact .ofAlive (.refl _) (List.forall_mem_nil _)
  refine .bind (Q := fun _ s => s = s₀) (.observe (fun _ _ h _ => h) hended) fun _ =>
    .bind (Q := fun t s => t = s₀ ∧ s = s₀) (.get fun s h => ⟨h, h⟩) fun t => ?_
  dsimp only
  rw [show context.traced.nowMs = context.nowMs from rfl]
  cases hentry : t.era.filter (context.nowMs < ·.expiresAtMs) with
  | some entry =>
    refine .pure ?_
    rintro s ⟨rfl, rfl⟩
    have hfresh : s.fresh context.nowMs = true := by rw [Session.fresh, hentry, Option.isSome_some]
    refine ⟨fun hera => ?_, [], .refl _, List.forall_mem_nil _, fun more => ?_⟩
    · rw [hera] at hentry
      cases hentry
    · rw [asksOf_nil, asksOf, hfresh]
      rfl
  | none =>
    rintro s ⟨rfl, rfl⟩
    have hfresh : s.fresh context.nowMs = false := by rw [Session.fresh, hentry, Option.isSome_none]
    have hprobe : Effect.Triple (Probing s []) (do
        let discovery ← client.traced.probe serde packageVersion context.traced
        let expiresAtMs := saturatingAdd context.nowMs
          (min u64Max (min discovery.ttlMs client.policy.discoveryTtlMs))
        .modify fun s => { s with era := some ⟨discovery, expiresAtMs⟩ }
        return discovery)
        (fun _ => Settled serde client context s) (Ended serde client context importing s) :=
      .bind (probe_spec hfresh) fun discovery =>
        .bind (.modify fun _ h => ⟨Option.some_ne_none _, h⟩) fun _ => .pure fun _ h => h
    exact hprobe s ⟨.refl _, rfl, rfl, List.forall_mem_nil _⟩

/-! ## Requests of the application -/

theorem Settled.ended {importing : Bool} {s : Session (Traced World)}
    (h : Settled serde client context s₀ s) : Ended serde client context importing s₀ s := by
  obtain ⟨es, hnoted, halive, -⟩ := h.probed
  exact .ofAlive hnoted halive

/-- The operation has a discovery, and asked for `e` last. -/
structure Answered (serde : Serde) (client : Client World) (context : CallContext World)
    (s₀ : Session (Traced World)) (reply : Except BindingError PeerReply)
    (s : Session (Traced World)) : Prop where
  era : s.era ≠ none
  asked : ∃ (es : List Exchange) (e : Exchange), e.reply = reply ∧ e.endpoint = client.traced.host.endpoint s.world ∧
    Noted s₀ (es ++ [e]) s ∧ (∀ e ∈ es, e.dead = false) ∧
    ∀ more, asksOf serde client context s₀ (es ++ more) =
      asksOf serde client context s₀ es ++ more.map (Purpose.application, ·)

theorem Settled.request (era : Era) (method : String) (params : Json) (deadlineMs : Nat)
    {E : Session (Traced World) → Prop} :
    Effect.Triple (Settled serde client context s₀)
      (client.traced.request era method params deadlineMs)
      (Answered serde client context s₀) E := by
  rintro s ⟨hera, es, hnoted, halive, happ⟩
  obtain ⟨e, reply, s', hrequest, hreply, hendpoint, htrace, hera', -⟩ :=
    @request_trace _ client era method params deadlineMs s
  rw [hrequest]
  exact ⟨hera' ▸ hera, es, e, hreply, hendpoint, hnoted.concat htrace, halive, happ⟩

/-- An answer that is not dead leaves the operation with its discovery. -/
theorem Answered.settled {reply : Except BindingError PeerReply} {s : Session (Traced World)}
    (h : Answered serde client context s₀ reply s)
    (halive : ∀ error, reply = .error error → error.isDead = false) :
    Settled serde client context s₀ s := by
  obtain ⟨hera, es, e, rfl, -, hnoted, hes, happ⟩ := h
  refine ⟨hera, es ++ [e], hnoted, fun e' he' => ?_, fun more => ?_⟩
  · rcases List.mem_append.mp he' with he' | he'
    · exact hes e' he'
    · cases List.mem_singleton.mp he'
      unfold Exchange.dead
      cases hreply : e.reply with
      | error error => exact halive error hreply
      | ok => rfl
  · rw [List.append_assoc, happ, happ [e], List.map_append, List.append_assoc]

/-- A dead answer on which the client forgets the endpoint. -/
theorem forget_application (reply : Except BindingError PeerReply) (error : ClientError) :
    Effect.Triple (Answered serde client context s₀ reply)
      (do client.traced.invalidate; .fail error : Call (Traced World) α)
      Q (Ended serde client context false s₀) := by
  refine forget_spec error ?_
  rintro s ⟨-, es, e, -, hendpoint, hnoted, halive, happ⟩
  refine ⟨es, e, hnoted, halive, hendpoint, fun asked hasked => ?_⟩
  rw [happ] at hasked
  rcases List.mem_append.mp hasked with hasked | hasked
  · exact asksOf_alive halive asked hasked
  · cases List.mem_singleton.mp hasked
    rfl

theorem importCards_spec :
    Effect.Triple (· = s₀) (client.traced.importCards serde packageVersion api context.traced)
      (fun _ => Ended serde client context true s₀) (Ended serde client context true s₀) := by
  refine .bind discover_spec fun discovery => .bind (Settled.request _ _ _ _) fun reply => ?_
  rcases reply with error | reply
  · refine .fail ?_
    rintro s ⟨hera, es, e, hreply, hendpoint, hnoted, halive, happ⟩
    refine ended_of_reply .application hnoted halive (happ [e]) (fun hdead => hdead) ?_
    rw [if_pos rfl]
    exact hera
  · have hsettled : ∀ s, Answered serde client context s₀ (.ok reply) s →
        Ended serde client context true s₀ s := fun s h => (h.settled nofun).ended
    exact .bind (.ofExcept (fun _ _ h _ => h) hsettled) fun value =>
      .bind (.ofExcept (fun _ _ h _ => h) hsettled) fun cards =>
        .bind (.observe (fun _ _ h _ => h) hsettled) fun endpoint =>
          .ofExcept (fun _ _ h _ => hsettled _ h) hsettled

theorem subscribe_spec (method : String) (parameters : Json) :
    Effect.Triple (· = s₀)
      (client.traced.subscribe serde packageVersion method parameters context.traced)
      (fun _ => Ended serde client context false s₀) (Ended serde client context false s₀) := by
  refine .bind discover_spec fun discovery => .bind (Settled.request _ _ _ _) fun reply => ?_
  rcases reply with error | reply
  · cases error with
    | processExited | incompatible => exact forget_application _ _
    | timeout | http | rpc | cancelled =>
      exact .fail fun s h => (h.settled fun _ h => Except.error.inj h ▸ rfl).ended
  · have hsettled : ∀ s, Answered serde client context s₀ (.ok reply) s →
        Ended serde client context false s₀ s := fun s h => (h.settled nofun).ended
    cases reply with
    | stream frames => exact .observe (fun s _ h _ => hsettled s h) hsettled
    | complete | inputRequired => exact .fail hsettled

/-! ## Invocation -/

/-- The discovery and the exchanges stay as they are. -/
theorem Settled.mono {s s' : Session (Traced World)} (h : Settled serde client context s₀ s)
    (hera : s'.era = s.era) {log : List Event} (htrace : s'.trace = s.trace ++ log)
    (hlog : exchanges log = []) : Settled serde client context s₀ s' := by
  obtain ⟨es, ⟨trace, hes, rfl⟩, hrest⟩ := h.probed
  refine ⟨hera ▸ h.era, _, ⟨trace ++ log, ?_, rfl⟩, ?_⟩
  · rw [htrace, hes, List.append_assoc]
  · rw [exchanges_append, hlog, List.append_nil]
    exact hrest

variable (serde client context s₀) in
/-- An operation of which no dead answer is passed on, once it has a discovery. -/
def Heeds (x : Call (Traced World) α) : Prop :=
  Effect.Triple (Settled serde client context s₀) x (fun _ => Settled serde client context s₀)
    (Ended serde client context false s₀)

theorem Heeds.fail (e : ClientError) :
    Heeds serde client context s₀ (.fail e : Call (Traced World) α) := fun _ h => h.ended

theorem Heeds.fail_bind (e : ClientError) {f : α → Call (Traced World) β} :
    Heeds serde client context s₀ (.fail e >>= f) := fun _ h => h.ended

theorem Heeds.ofExcept (x : Except ClientError α) :
    Heeds serde client context s₀ (.ofExcept x : Call (Traced World) α) :=
  Effect.Triple.ofExcept (fun _ _ h _ => h) fun _ h => h.ended

theorem Heeds.bind {x : Call (Traced World) α} {f : α → Call (Traced World) β}
    (hx : Heeds serde client context s₀ x) (hf : ∀ a, Heeds serde client context s₀ (f a)) :
    Heeds serde client context s₀ (x >>= f) := Effect.Triple.bind hx hf

theorem Heeds.ite {p : Prop} [Decidable p] {x y : Call (Traced World) α}
    (hx : Heeds serde client context s₀ x) (hy : Heeds serde client context s₀ y) :
    Heeds serde client context s₀ (if p then x else y) := by
  split
  · exact hx
  · exact hy

/-- A change of neither the discovery nor the trace. -/
theorem Heeds.modify {f : Session (Traced World) → Session (Traced World)}
    (hera : ∀ s, (f s).era = s.era) (htrace : ∀ s, (f s).trace = s.trace) :
    Heeds serde client context s₀ (.modify f) :=
  Effect.Triple.modify fun s h => h.mono (hera s) ((htrace s).trans (List.append_nil _).symm) rfl

theorem Heeds.record (method phase : String) :
    Heeds serde client context s₀ (client.traced.record method phase) :=
  .modify (fun _ => rfl) fun _ => rfl

theorem Heeds.complete (invocation : Invocation) (endpoint : EndpointIdentity)
    (discovery : Discovery) (parameters : Value) (reply : Json) :
    Heeds serde client context s₀ (client.traced.complete serde capacity invocation endpoint
      discovery parameters context.traced reply) := by
  refine .bind (.ofExcept _) fun (value, ttlMs) => .bind (.ofExcept _) fun _ =>
    .bind (.modify (fun _ => rfl) fun _ => rfl) fun _ => ?_
  have hend : Heeds serde client context s₀ (do
      client.traced.record invocation.method "complete"
      return (⟨value, ttlMs⟩ : Outcome)) := .bind (.record _ _) fun _ => .pure fun _ h => h
  exact .ite (.bind (.modify (fun _ => rfl) fun _ => rfl) fun _ => hend) hend

theorem Heeds.acquireInputs (invocation : Invocation) (requestState : Json)
    (requested : List (String × String)) (inputs bytes : Nat) :
    Heeds serde client context s₀ (client.traced.acquireInputs serde invocation context.traced
      requestState requested inputs bytes) := by
  have hacquire : ∀ remainingMs, Heeds serde client context s₀
      (.focus Session.world (fun world s => { s with world })
        (client.traced.host.acquire requested requestState remainingMs)) := by
    intro remainingMs s h
    have hmono : ∀ inputs world, Settled serde client context s₀
        { s with world := (world, s.trace ++ [.acquired requested requestState inputs]) } :=
      fun _ _ => h.mono rfl rfl rfl
    unfold Effect.focus
    cases hinputs : (client.traced.host.acquire requested requestState remainingMs s.world).1 with
    | ok => exact hmono _ _
    | error => exact (hmono _ _).ended
  unfold Client.acquireInputs
  dsimp only
  refine .ite (.fail_bind _) (.ite (.fail_bind _) (.bind (hacquire _) fun acquired => ?_))
  exact .ite (.fail_bind _) (.bind (.record _ _) fun _ => .pure fun _ h => h)

theorem Heeds.turn {invocation : Invocation} {endpoint : EndpointIdentity} {discovery : Discovery}
    {parameters : Value} {params : Json}
    {more : Json → List (String × String) → Call (Traced World) Outcome}
    (hmore : ∀ requestState requested,
      Heeds serde client context s₀ (more requestState requested)) :
    Heeds serde client context s₀ (client.traced.turn serde capacity invocation endpoint discovery
      parameters context.traced params more) := by
  refine .bind (.observe (fun _ _ h _ => h) fun _ h => h.ended) fun _ =>
    Effect.Triple.bind (Settled.request _ _ _ _) fun reply => ?_
  rcases reply with error | reply
  · cases error with
    | processExited | incompatible => exact forget_application _ _
    | timeout | http | rpc | cancelled =>
      exact fun s h => (h.settled fun _ h => Except.error.inj h ▸ rfl).ended
  · cases reply with
    | complete value => exact fun s h => Heeds.complete _ _ _ _ _ s (h.settled nofun)
    | inputRequired => exact fun s h => hmore _ _ s (h.settled nofun)
    | stream => exact forget_application _ _

theorem Heeds.exchange (invocation : Invocation) (endpoint : EndpointIdentity)
    (discovery : Discovery) (parameters : Value) (left : Nat) (params : Json) (inputs bytes : Nat) :
    Heeds serde client context s₀ (client.traced.exchange serde capacity invocation endpoint
      discovery parameters context.traced left params inputs bytes) := by
  induction left generalizing params inputs bytes with
  | zero => exact .turn fun _ _ => .fail _
  | succ left ih =>
    refine .turn fun requestState requested => ?_
    split
    · exact .fail _
    · exact .bind (.acquireInputs _ _ _ _ _) fun _ => ih _ _ _

theorem Heeds.answer (invocation : Invocation) (parameters : Value) (endpoint : EndpointIdentity)
    (discovery : Discovery) :
    Heeds serde client context s₀ (client.traced.answer serde capacity invocation parameters
      context.traced endpoint discovery) := by
  refine .bind ?_ fun hit => ?_
  · intro s h
    unfold lookup
    by_cases hmay : invocation.mayCache = true
    · rw [if_pos hmay]
      exact h.mono rfl (List.append_nil _).symm rfl
    · rw [if_neg hmay]
      exact h
  cases hit with
  | none => exact .bind (.record _ _) fun _ => .exchange _ _ _ _ _ _ _ _
  | some value =>
    exact .bind (.ofExcept _) fun _ => .bind (.record _ _) fun _ =>
      .bind (.modify (fun _ => rfl) fun _ => rfl) fun _ => .pure fun _ h => h

theorem invoke_spec (invocation : Invocation) (parameters : Value) :
    Effect.Triple (· = s₀)
      (client.traced.invoke serde packageVersion capacity invocation parameters context.traced)
      (fun _ => Ended serde client context false s₀) (Ended serde client context false s₀) := by
  have hended : ∀ s, s = s₀ → Ended serde client context false s₀ s := by
    rintro s rfl
    exact .ofAlive (.refl _) (List.forall_mem_nil _)
  refine .bind (Q := fun _ s => s = s₀) (.ofExcept (fun _ _ h _ => h) hended) fun _ =>
    .bind discover_spec fun discovery =>
      .bind (Q := fun _ => Settled serde client context s₀)
        (.observe (fun _ _ h _ => h) fun _ h => h.ended) fun endpoint => ?_
  have hanswer := @Heeds.answer World serde capacity client context s₀ invocation parameters
    endpoint discovery
  exact hanswer.weaken (fun _ h => h) (fun _ _ h => h.ended) fun _ h => h

theorem ended_after (operation : Operation) (s : Session (Traced World)) :
    Ended serde client context operation.importing s
      (client.traced.after serde packageVersion capacity api operation context.traced s) := by
  cases operation with
  | discover =>
    exact (discover_spec.weaken (fun _ h => h) (fun _ _ h => h.ended) fun _ h => h).final rfl
  | importCards => exact importCards_spec.final rfl
  | invoke => exact (invoke_spec _ _).final rfl
  | subscribe => exact (subscribe_spec _ _).final rfl

/-! ## The next operation -/

def Exchange.isProbe (e : Exchange) : Prop := e.era = .modern ∧ e.method = "server/discover"

variable (serde packageVersion capacity api client) in
/-- Whatever the client does next, it probes before it asks for anything else. -/
def ProbesNext (s : Session (Traced World)) : Prop :=
  ∀ (operation : Operation) (context : CallContext World) (t : Session (Traced World)),
    t.era = s.era → ∃ log,
      (client.traced.after serde packageVersion capacity api operation context.traced t).trace =
        t.trace ++ log ∧ ∀ e ∈ (exchanges log).head?, e.isProbe

theorem discover_probes {s : Session (Traced World)} (hera : s.era = none) :
    (∃ error, client.traced.discover serde packageVersion context.traced s = (.error error, s)) ∨
    ∃ (e : Exchange) (s₁ : Session (Traced World)), e.isProbe ∧ s₁.trace = s.trace ++ [Event.asked e] ∧
      Steps s₁ (client.traced.discover serde packageVersion context.traced s).2 := by
  unfold Client.discover Client.checkCancelled
  by_cases hcancelled : context.traced.isCancelled s.world
  · left
    refine ⟨.binding .cancelled, ?_⟩
    rw [Effect.bind_apply, Effect.observe_apply, if_pos hcancelled]
  · right
    obtain ⟨rest, hprobe, hrest⟩ :=
      @Stepwise.probe World serde packageVersion client context
    rw [Effect.bind_apply, Effect.observe_apply, if_neg hcancelled]
    dsimp only
    rw [Effect.bind_apply, Effect.get_apply]
    dsimp only
    rw [hera]
    obtain ⟨e, reply, s₁, hrequest, -, -, htrace, -, -, hera', hmethod, -⟩ :=
      @request_trace _ client .modern "server/discover" (.object []) context.deadlineMs
        (client.traced.record "server/discover" "probe" s).2
    have hprobed : client.traced.probe serde packageVersion context.traced s = rest reply s₁ := by
      rw [hprobe, Effect.bind_apply]
      show (client.traced.request .modern "server/discover" (.object []) context.deadlineMs >>=
        rest) (client.traced.record "server/discover" "probe" s).2 = _
      rw [Effect.bind_apply, hrequest]
    refine ⟨e, s₁, ⟨hera', hmethod⟩, htrace, ?_⟩
    show Steps s₁ ((client.traced.probe serde packageVersion context.traced >>= _) s).2
    rw [Effect.bind_apply, hprobed]
    have hrun := hrest reply s₁
    generalize rest reply s₁ = result at hrun ⊢
    obtain ⟨error | discovery, s₂⟩ := result
    · exact hrun
    · exact hrun.tail (.silent rfl rfl)

theorem probesNext {s : Session (Traced World)} (h : s.era = none) :
    ProbesNext serde packageVersion capacity api client s := by
  intro operation context t hera
  obtain ⟨first, α, rest, hrest, hafter⟩ :=
    @Stepwise.after World serde packageVersion capacity api client context operation
  rw [hafter]
  have hnothing : ∃ log, t.trace = t.trace ++ log ∧ ∀ e ∈ (exchanges log).head?, e.isProbe :=
    ⟨[], (List.append_nil _).symm, fun _ h => by cases h⟩
  cases first with
  | error => exact hnothing
  | ok =>
    rcases @discover_probes World serde packageVersion client context t (hera.trans h) with
      ⟨error, hdiscover⟩ | ⟨e, s₁, hprobe, htrace, hsteps⟩
    · rw [Effect.bind_apply, Effect.ofExcept_apply]
      dsimp only
      rw [Effect.bind_apply, hdiscover]
      exact hnothing
    · have hrun : Steps s₁ ((do
          rest (← client.traced.discover serde packageVersion context.traced) :
            Call (Traced World) α) t).2 := by
        rw [Effect.bind_apply]
        generalize client.traced.discover serde packageVersion context.traced t = result at hsteps ⊢
        obtain ⟨error | discovery, s₂⟩ := result
        · exact hsteps
        · exact hsteps.trans (hrest discovery s₂)
      obtain ⟨log, hlog⟩ := hrun.trace
      refine ⟨.asked e :: log, ?_, fun e' he' => ?_⟩
      · rw [htrace, List.append_assoc] at hlog
        exact hlog.symm
      · cases he'
        exact hprobe

/-- A client forgets a dead server, and then probes again, exactly when no dead answer is passed on,
or it had nothing to forget. -/
theorem dead_forgotten_iff (client : Client World) (context : CallContext World)
    (operation : Operation) (s : Session (Traced World)) :
    let s' := client.traced.after serde packageVersion capacity api operation context.traced s
    ∃ log, s'.trace = s.trace ++ log ∧
      ((∀ e ∈ exchanges log, e.dead →
          Forgotten s' e.endpoint ∧ ProbesNext serde packageVersion capacity api client s') ↔
        ∀ asked ∈ withPurposes serde client.host.bindingKind (s.fresh context.nowMs)
            (exchanges log), overlooked operation.importing asked →
            asked.1 ≠ .application ∧ Forgotten s asked.2.endpoint) := by
  intro s'
  obtain ⟨log, hlog, hiff⟩ :=
    (@ended_after World serde packageVersion capacity api client context operation s).iff
  refine ⟨log, hlog, Iff.trans ⟨fun h e he hdead => (h e he hdead).1, fun h e he hdead => ?_⟩ hiff⟩
  exact ⟨h e he hdead, probesNext (h e he hdead).era⟩

end

namespace DeadSample

def serde : Serde := ⟨fun _ => .error "", fun _ => [], fun _ => ""⟩

def api : CardApi := ⟨⟨8, 4096⟩, fun _ _ _ => .ok fun _ => .ok ()⟩

def server : Json := .object [("resultType", .string "complete"),
  ("supportedVersions", .array [.string "2025-06-18"]),
  ("serverInfo", .object [("name", .string "notes"), ("version", .string "1")])]

/-- A process that exits when it is asked for its cards. -/
def client : Client Unit where
  host := {
    endpoint := fun _ => .processInstance "1"
    bindingKind := "stdio"
    request := fun _ _ method _ _ =>
      if method = "server/discover" then pure (.complete server) else .fail (.processExited 1)
    acquire := fun _ _ _ => pure []
    record := fun _ _ _ world => world }
  policy := ⟨60000, 60000, 1, 100, 1⟩

def context : CallContext Unit := ⟨"alice", [], none, 1000, 0, fun _ => false⟩

def start : Session (Traced Unit) := ⟨((), []), none, 1, .empty, []⟩

end DeadSample

open DeadSample in
/-- The process exits on the request for cards, and the client keeps its discovery. -/
theorem exited_on_cards : ¬∀ (operation : Operation) (log : List Event),
    let s' := client.traced.after serde "0.1.0" 8 api operation context.traced start
    s'.trace = start.trace ++ log →
      ∀ e ∈ exchanges log, e.dead → Forgotten s' e.endpoint ∧
        ProbesNext serde "0.1.0" 8 api client s' := by
  intro h
  have hforgotten := h .importCards _ rfl _ (List.mem_cons_of_mem _ List.mem_cons_self) rfl
  cases hforgotten.1.era

end SimAgentNet.McpClient
