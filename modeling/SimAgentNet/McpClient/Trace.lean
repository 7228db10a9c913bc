import SimAgentNet.McpClient.Cards

/-! # What a client asks

A client is watched by putting a trace beside the world of its host: every request to the peer and
every demand of the broker is noted with its answer. A client does not see that it is watched. -/

namespace SimAgentNet.McpClient
open OpenaiServer (Json Serde)

/-- A request to the peer with its answer, and the endpoint that the peer then names. -/
structure Exchange where
  era : Era
  id : Nat
  method : String
  params : Json
  deadlineMs : Nat
  reply : Except BindingError PeerReply
  endpoint : EndpointIdentity

inductive Event where
  | asked (exchange : Exchange)
  | acquired (requested : List (String × String)) (requestState : Json)
    (inputs : Except ClientError (List (String × Json)))

def exchanges (trace : List Event) : List Exchange :=
  trace.filterMap fun
    | .asked e => some e
    | .acquired .. => none

theorem exchanges_append (trace more : List Event) :
    exchanges (trace ++ more) = exchanges trace ++ exchanges more := List.filterMap_append

abbrev Traced (World : Type) := World × List Event

section
variable {World : Type} {serde : Serde} {packageVersion : String} {capacity : Nat} {api : CardApi}

def ClientHost.traced (host : ClientHost World) : ClientHost (Traced World) where
  endpoint world := host.endpoint world.1
  bindingKind := host.bindingKind
  request era id method params deadlineMs := fun (world, trace) =>
    let (reply, world) := host.request era id method params deadlineMs world
    (reply, world, trace ++
      [.asked ⟨era, id, method, params, deadlineMs, reply, host.endpoint world⟩])
  acquire requested requestState remainingMs := fun (world, trace) =>
    let (inputs, world) := host.acquire requested requestState remainingMs world
    (inputs, world, trace ++ [.acquired requested requestState inputs])
  record endpoint method phase world := (host.record endpoint method phase world.1, world.2)

def Client.traced (client : Client World) : Client (Traced World) :=
  ⟨client.host.traced, client.policy⟩

def CallContext.traced (context : CallContext World) : CallContext (Traced World) where
  principalScope := context.principalScope
  inputCapabilities := context.inputCapabilities
  paginationCursor := context.paginationCursor
  deadlineMs := context.deadlineMs
  nowMs := context.nowMs
  isCancelled world := context.isCancelled world.1

namespace Session

def trace (s : Session (Traced World)) : List Event := s.world.2

/-- The state as the client sees it. -/
def seen (s : Session (Traced World)) : Session World :=
  ⟨s.world.1, s.era, s.nextId, s.cache, s.served⟩

end Session

/-! ## A client does not see the trace -/

/-- An operation on watched states does what the operation does on the states that are seen. -/
abbrev Unseen (x : Call World α) (y : Call (Traced World) α) : Prop := Effect.Lifts Session.seen x y

namespace Unseen
open Effect (Lifts)
variable (client : Client World) (context : CallContext World)

theorem record (method phase : String) :
    Unseen (client.record method phase) (client.traced.record method phase) :=
  .modify fun _ => rfl

theorem invalidate : Unseen client.invalidate client.traced.invalidate := .modify fun _ => rfl

theorem incompatible (message : String) :
    Unseen (client.incompatible message : Call World α) (client.traced.incompatible message) :=
  .bind (invalidate client) fun _ => .fail _

theorem request (era : Era) (method : String) (params : Json) (deadlineMs : Nat) :
    Unseen (client.request era method params deadlineMs)
      (client.traced.request era method params deadlineMs) := fun _ => rfl

theorem checkCancelled :
    Unseen (Client.checkCancelled context) (Client.checkCancelled context.traced) :=
  .observe fun _ => rfl

theorem probe : Unseen (client.probe serde packageVersion context)
    (client.traced.probe serde packageVersion context.traced) := by
  refine .bind (record _ _ _) fun _ => .bind (request _ _ _ _ _) fun reply => ?_
  rcases reply with error | reply
  · refine .ite (.bind (record _ _ _) fun _ => .bind (request _ _ _ _ _) fun reply => ?_) ?_
    · rcases reply with error | reply
      · exact .fail _
      · cases reply with
        | complete => exact .ofExcept _
        | inputRequired | stream => exact incompatible _ _
    · cases error with
      | processExited => exact .bind (invalidate _) fun _ => .fail _
      | timeout | http | rpc | incompatible | cancelled => exact .fail _
  · cases reply with
    | complete => exact .ofExcept _
    | inputRequired | stream => exact incompatible _ _

theorem discover : Unseen (client.discover serde packageVersion context)
    (client.traced.discover serde packageVersion context.traced) := by
  refine .bind (checkCancelled _) fun _ => .get_bind fun s => ?_
  dsimp only
  rw [show s.seen.era = s.era from rfl, show context.traced.nowMs = context.nowMs from rfl]
  cases s.era.filter (context.nowMs < ·.expiresAtMs) with
  | some entry => exact .pure _
  | none => exact .bind (probe _ _) fun _ => .bind (.modify fun _ => rfl) fun _ => .pure _

theorem complete (invocation : Invocation) (endpoint : EndpointIdentity) (discovery : Discovery)
    (parameters : Value) (reply : Json) :
    Unseen (client.complete serde capacity invocation endpoint discovery parameters context reply)
      (client.traced.complete serde capacity invocation endpoint discovery parameters
        context.traced reply) := by
  refine .bind (.ofExcept _) fun (value, ttlMs) => .bind (.ofExcept _) fun _ =>
    .bind (.modify fun _ => rfl) fun _ => ?_
  exact .ite (.bind (.modify fun _ => rfl) fun _ => .bind (record _ _ _) fun _ => .pure _)
    (.bind (record _ _ _) fun _ => .pure _)

theorem acquireInputs (invocation : Invocation) (requestState : Json)
    (requested : List (String × String)) (inputs bytes : Nat) :
    Unseen
      (client.acquireInputs serde invocation context requestState requested inputs bytes)
      (client.traced.acquireInputs serde invocation context.traced requestState requested inputs
        bytes) := by
  unfold Client.acquireInputs
  dsimp only
  refine .ite (.fail_bind _) (.ite (.fail_bind _) (.bind (fun _ => rfl) fun acquired => ?_))
  exact .ite (.fail_bind _) (.bind (record _ _ _) fun _ => .pure _)

theorem turn (invocation : Invocation) (endpoint : EndpointIdentity) (discovery : Discovery)
    (parameters : Value) (params : Json) {more : Json → List (String × String) → Call World Outcome}
    {more' : Json → List (String × String) → Call (Traced World) Outcome}
    (hmore : ∀ requestState requested,
      Unseen (more requestState requested) (more' requestState requested)) :
    Unseen
      (client.turn serde capacity invocation endpoint discovery parameters context params more)
      (client.traced.turn serde capacity invocation endpoint discovery parameters context.traced
        params more') := by
  refine .bind (checkCancelled _) fun _ => .bind (request _ _ _ _ _) fun reply => ?_
  rcases reply with error | reply
  · cases error with
    | incompatible | processExited => exact .bind (invalidate _) fun _ => .fail _
    | timeout | http | rpc | cancelled => exact .fail _
  · cases reply with
    | complete => exact complete _ _ _ _ _ _ _
    | inputRequired => exact hmore _ _
    | stream => exact incompatible _ _

theorem exchange (invocation : Invocation) (endpoint : EndpointIdentity) (discovery : Discovery)
    (parameters : Value) (left : Nat) (params : Json) (inputs bytes : Nat) :
    Unseen
      (client.exchange serde capacity invocation endpoint discovery parameters context left params
        inputs bytes)
      (client.traced.exchange serde capacity invocation endpoint discovery parameters
        context.traced left params inputs bytes) := by
  induction left generalizing params inputs bytes with
  | zero => exact turn _ _ _ _ _ _ _ fun _ _ => .fail _
  | succ left ih =>
    refine turn _ _ _ _ _ _ _ fun requestState requested => ?_
    split
    · exact .fail _
    · exact .bind (acquireInputs _ _ _ _ _ _ _) fun _ => ih _ _ _

theorem invoke (invocation : Invocation) (parameters : Value) :
    Unseen (client.invoke serde packageVersion capacity invocation parameters context)
      (client.traced.invoke serde packageVersion capacity invocation parameters
        context.traced) := by
  refine .bind (.ofExcept _) fun _ => .bind (discover _ _) fun discovery =>
    .bind (.observe fun _ => rfl) fun endpoint => .bind ?_ fun hit => ?_
  · intro s
    unfold lookup
    split
    · rfl
    · rfl
  cases hit with
  | none => exact .bind (record _ _ _) fun _ => exchange _ _ _ _ _ _ _ _ _ _
  | some value =>
    exact .bind (.ofExcept _) fun _ => .bind (record _ _ _) fun _ =>
      .bind (.modify fun _ => rfl) fun _ => .pure _

theorem importCards : Unseen (client.importCards serde packageVersion api context)
    (client.traced.importCards serde packageVersion api context.traced) := by
  refine .bind (discover _ _) fun discovery => .bind (request _ _ _ _ _) fun reply => ?_
  rcases reply with error | reply
  · exact .fail _
  · exact .bind (.ofExcept _) fun _ => .bind (.ofExcept _) fun _ =>
      .bind (.observe fun _ => rfl) fun _ => .ofExcept _

theorem subscribe (method : String) (parameters : Json) :
    Unseen (client.subscribe serde packageVersion method parameters context)
      (client.traced.subscribe serde packageVersion method parameters context.traced) := by
  refine .bind (discover _ _) fun discovery => .bind (request _ _ _ _ _) fun reply => ?_
  rcases reply with error | reply
  · cases error with
    | incompatible | processExited => exact .bind (invalidate _) fun _ => .fail _
    | timeout | http | rpc | cancelled => exact .fail _
  · cases reply with
    | stream => exact .observe fun _ => rfl
    | complete | inputRequired => exact .fail _

end Unseen

/-- What an operation leaves is the same whether the client is watched or not. -/
theorem seen_after (client : Client World) (context : CallContext World) (operation : Operation)
    (s : Session (Traced World)) :
    (client.traced.after serde packageVersion capacity api operation context.traced s).seen =
      client.after serde packageVersion capacity api operation context s.seen := by
  cases operation with
  | discover => exact (congrArg Prod.snd (Unseen.discover client context s)).symm
  | importCards => exact (congrArg Prod.snd (Unseen.importCards client context s)).symm
  | invoke => exact (congrArg Prod.snd (Unseen.invoke client context _ _ s)).symm
  | subscribe => exact (congrArg Prod.snd (Unseen.subscribe client context _ _ s)).symm

/-- A request adds one exchange to the trace. -/
theorem request_trace {client : Client World} (era : Era) (method : String) (params : Json)
    (deadlineMs : Nat) (s : Session (Traced World)) :
    ∃ (e : Exchange) (reply : Except BindingError PeerReply) (s' : Session (Traced World)),
      client.traced.request era method params deadlineMs s = (.ok reply, s') ∧
      e.reply = reply ∧ e.endpoint = client.traced.host.endpoint s'.world ∧
      s'.trace = s.trace ++ [Event.asked e] ∧ s'.era = s.era ∧ s'.cache = s.cache ∧
      e.era = era ∧ e.method = method ∧ e.params = params :=
  ⟨⟨era, s.nextId, method, params, deadlineMs, _, _⟩, _, _, rfl, rfl, rfl, rfl, rfl, rfl, rfl, rfl,
    rfl⟩

/-! ## Steps of a watched client -/

/-- What a watched client does next: it asks the peer under its next id, it asks the broker, or it
does nothing that is noted. -/
inductive Step (s s' : Session (Traced World)) : Prop
  | asked (e : Exchange) (id : e.id = s.nextId) (trace : s'.trace = s.trace ++ [Event.asked e])
    (nextId : s'.nextId = s.nextId + 1)
  | acquired (requested : List (String × String)) (requestState : Json)
    (inputs : Except ClientError (List (String × Json)))
    (trace : s'.trace = s.trace ++ [Event.acquired requested requestState inputs])
    (nextId : s'.nextId = s.nextId)
  | silent (trace : s'.trace = s.trace) (nextId : s'.nextId = s.nextId)

abbrev Steps : Session (Traced World) → Session (Traced World) → Prop := Relation.ReflTransGen Step

/-- The operation takes steps of a watched client, whether it fails or not. -/
def Stepwise (x : Call (Traced World) α) : Prop := ∀ s, Steps s (x s).2

namespace Stepwise

theorem pure (a : α) : Stepwise (pure a : Call (Traced World) α) := fun _ => .refl

theorem fail (e : ClientError) : Stepwise (.fail e : Call (Traced World) α) := fun _ => .refl

theorem observe (f : Session (Traced World) → Except ClientError α) : Stepwise (.observe f) :=
  fun _ => .refl

theorem ofExcept (x : Except ClientError α) :
    Stepwise (.ofExcept x : Call (Traced World) α) := fun _ => .refl

theorem modify {f : Session (Traced World) → Session (Traced World)}
    (htrace : ∀ s, (f s).trace = s.trace) (hnext : ∀ s, (f s).nextId = s.nextId) :
    Stepwise (.modify f) := fun s => .single (.silent (htrace s) (hnext s))

theorem bind {x : Call (Traced World) α} {f : α → Call (Traced World) β} (hx : Stepwise x)
    (hf : ∀ a, Stepwise (f a)) : Stepwise (x >>= f) := by
  intro s
  have hs := hx s
  rw [Effect.bind_apply]
  generalize x s = result at hs ⊢
  obtain ⟨e | a, t⟩ := result
  · exact hs
  · exact hs.trans (hf a t)

theorem get_bind {f : Session (Traced World) → Call (Traced World) β}
    (hf : ∀ s, Stepwise (f s)) : Stepwise (Effect.get >>= f) := bind (observe _) hf

theorem fail_bind (e : ClientError) {f : α → Call (Traced World) β} :
    Stepwise (.fail e >>= f) := fun _ => .refl

theorem ite {p : Prop} [Decidable p] {x y : Call (Traced World) α} (hx : Stepwise x)
    (hy : Stepwise y) : Stepwise (if p then x else y) := by
  split
  · exact hx
  · exact hy

variable {client : Client World} {context : CallContext World}

theorem record (method phase : String) : Stepwise (client.traced.record method phase) :=
  .modify (fun _ => rfl) fun _ => rfl

theorem invalidate : Stepwise client.traced.invalidate := .modify (fun _ => rfl) fun _ => rfl

theorem incompatible (message : String) :
    Stepwise (client.traced.incompatible message : Call (Traced World) α) :=
  .bind invalidate fun _ => .fail _

theorem request (era : Era) (method : String) (params : Json) (deadlineMs : Nat) :
    Stepwise (client.traced.request era method params deadlineMs) := fun s =>
  .single (.asked ⟨era, s.nextId, method, params, deadlineMs, _, _⟩ rfl rfl rfl)

/-- A probe begins with the request for a discovery in the new form. -/
theorem probe : ∃ rest : Except BindingError PeerReply → Call (Traced World) Discovery,
    client.traced.probe serde packageVersion context.traced = (do
      client.traced.record "server/discover" "probe"
      rest (← client.traced.request .modern "server/discover" (.object []) context.deadlineMs)) ∧
    ∀ reply, Stepwise (rest reply) := by
  refine ⟨_, rfl, fun reply => ?_⟩
  rcases reply with error | reply
  · refine .ite (.bind (.record _ _) fun _ => .bind (.request _ _ _ _) fun reply => ?_) ?_
    · rcases reply with error | reply
      · exact .fail _
      · cases reply with
        | complete => exact .ofExcept _
        | inputRequired | stream => exact .incompatible _
    · cases error with
      | processExited => exact .bind .invalidate fun _ => .fail _
      | timeout | http | rpc | incompatible | cancelled => exact .fail _
  · cases reply with
    | complete => exact .ofExcept _
    | inputRequired | stream => exact .incompatible _

theorem discover : Stepwise (client.traced.discover serde packageVersion context.traced) := by
  refine .bind (.observe _) fun _ => .get_bind fun s => ?_
  split
  · exact .pure _
  · obtain ⟨rest, hprobe, hrest⟩ := @probe World serde packageVersion client context
    rw [hprobe]
    exact .bind (.bind (.record _ _) fun _ => .bind (.request _ _ _ _) hrest) fun _ =>
      .bind (.modify (fun _ => rfl) fun _ => rfl) fun _ => .pure _

theorem complete (invocation : Invocation) (endpoint : EndpointIdentity) (discovery : Discovery)
    (parameters : Value) (reply : Json) :
    Stepwise (client.traced.complete serde capacity invocation endpoint discovery parameters
      context.traced reply) := by
  refine .bind (.ofExcept _) fun (value, ttlMs) => .bind (.ofExcept _) fun _ =>
    .bind (.modify (fun _ => rfl) fun _ => rfl) fun _ => ?_
  exact .ite
    (.bind (.modify (fun _ => rfl) fun _ => rfl) fun _ => .bind (.record _ _) fun _ => .pure _)
    (.bind (.record _ _) fun _ => .pure _)

theorem acquire (requested : List (String × String)) (requestState : Json) (remainingMs : Nat) :
    Stepwise (.focus Session.world (fun world s => { s with world })
      (client.traced.host.acquire requested requestState remainingMs)) := fun _ =>
  .single (.acquired requested requestState _ rfl rfl)

theorem acquireInputs (invocation : Invocation) (requestState : Json)
    (requested : List (String × String)) (inputs bytes : Nat) :
    Stepwise (client.traced.acquireInputs serde invocation context.traced requestState requested
      inputs bytes) := by
  unfold Client.acquireInputs
  dsimp only
  refine .ite (.fail_bind _) (.ite (.fail_bind _) (.bind (.acquire _ _ _) fun acquired => ?_))
  exact .ite (.fail_bind _) (.bind (.record _ _) fun _ => .pure _)

theorem turn {invocation : Invocation} {endpoint : EndpointIdentity} {discovery : Discovery}
    {parameters : Value} {params : Json}
    {more : Json → List (String × String) → Call (Traced World) Outcome}
    (hmore : ∀ requestState requested, Stepwise (more requestState requested)) :
    Stepwise (client.traced.turn serde capacity invocation endpoint discovery parameters
      context.traced params more) := by
  refine .bind (.observe _) fun _ => .bind (.request _ _ _ _) fun reply => ?_
  rcases reply with error | reply
  · cases error with
    | incompatible | processExited => exact .bind .invalidate fun _ => .fail _
    | timeout | http | rpc | cancelled => exact .fail _
  · cases reply with
    | complete => exact .complete _ _ _ _ _
    | inputRequired => exact hmore _ _
    | stream => exact .incompatible _

theorem exchange (invocation : Invocation) (endpoint : EndpointIdentity) (discovery : Discovery)
    (parameters : Value) (left : Nat) (params : Json) (inputs bytes : Nat) :
    Stepwise (client.traced.exchange serde capacity invocation endpoint discovery parameters
      context.traced left params inputs bytes) := by
  induction left generalizing params inputs bytes with
  | zero => exact .turn fun _ _ => .fail _
  | succ left ih =>
    refine .turn fun requestState requested => ?_
    split
    · exact .fail _
    · exact .bind (.acquireInputs _ _ _ _ _) fun _ => ih _ _ _

theorem answer (invocation : Invocation) (parameters : Value) (endpoint : EndpointIdentity)
    (discovery : Discovery) :
    Stepwise (client.traced.answer serde capacity invocation parameters context.traced endpoint
      discovery) := by
  refine .bind (fun s => .single (.silent ?_ ?_)) fun hit => ?_
  · unfold lookup
    split
    · rfl
    · rfl
  · unfold lookup
    split
    · rfl
    · rfl
  cases hit with
  | none => exact .bind (.record _ _) fun _ => .exchange _ _ _ _ _ _ _ _
  | some value =>
    exact .bind (.ofExcept _) fun _ => .bind (.record _ _) fun _ =>
      .bind (.modify (fun _ => rfl) fun _ => rfl) fun _ => .pure _

/-- An operation discovers first, unless it fails before that. -/
theorem after (operation : Operation) : ∃ (first : Except ClientError Unit) (α : Type)
    (rest : Discovery → Call (Traced World) α), (∀ discovery, Stepwise (rest discovery)) ∧
    ∀ s, client.traced.after serde packageVersion capacity api operation context.traced s = ((do
      .ofExcept first
      rest (← client.traced.discover serde packageVersion context.traced) :
        Call (Traced World) α) s).2 := by
  cases operation with
  | discover =>
    refine ⟨.ok (), _, Pure.pure, .pure, fun s => ?_⟩
    show (client.traced.discover serde packageVersion context.traced s).2 =
      (Effect.bind (client.traced.discover serde packageVersion context.traced) Pure.pure s).2
    unfold Effect.bind
    split
    · rename_i h
      exact congrArg Prod.snd h
    · rename_i h
      exact congrArg Prod.snd h
  | importCards =>
    refine ⟨.ok (), _, _, fun discovery => .bind (.request _ _ _ _) fun reply => ?_, fun s => rfl⟩
    rcases reply with error | reply
    · exact .fail _
    · exact .bind (.ofExcept _) fun _ => .bind (.ofExcept _) fun _ => .bind (.observe _) fun _ =>
        .ofExcept _
  | invoke invocation parameters =>
    exact ⟨invocation.input parameters.1, _, _,
      fun discovery => .bind (.observe _) fun endpoint => .answer _ _ _ _, fun s => rfl⟩
  | subscribe =>
    refine ⟨.ok (), _, _, fun discovery => .bind (.request _ _ _ _) fun reply => ?_, fun s => rfl⟩
    rcases reply with error | reply
    · cases error with
      | processExited | incompatible => exact .bind .invalidate fun _ => .fail _
      | timeout | http | rpc | cancelled => exact .fail _
    · cases reply with
      | stream => exact .observe _
      | complete | inputRequired => exact .fail _

end Stepwise

theorem steps_after (client : Client World) (context : CallContext World) (operation : Operation)
    (s : Session (Traced World)) :
    Steps s (client.traced.after serde packageVersion capacity api operation context.traced s) := by
  obtain ⟨first, α, rest, hrest, hafter⟩ :=
    @Stepwise.after World serde packageVersion capacity api client context operation
  rw [hafter]
  exact Stepwise.bind (.ofExcept first) (fun _ => .bind .discover hrest) s

/-- The trace only grows. -/
theorem Steps.trace {s s' : Session (Traced World)} (h : Steps s s') :
    s.trace <+: s'.trace := by
  induction h with
  | refl => exact List.prefix_refl _
  | tail _ hstep ih =>
    cases hstep with
    | asked e _ htrace => exact ih.trans ⟨_, htrace.symm⟩
    | acquired _ _ _ htrace => exact ih.trans ⟨_, htrace.symm⟩
    | silent htrace => exact htrace ▸ ih

end

end SimAgentNet.McpClient
