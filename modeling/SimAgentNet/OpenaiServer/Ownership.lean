import SimAgentNet.OpenaiServer.FreshIds

/-! # The owners of stored responses

A response is stored without an owner; the routes for responses and forks then write the key of
their caller into it. The routes that show or fork what was recorded for a response check the
owner. Three steps escape this: the items of a batch keep no owner, a stored response that could
not be streamed is not stamped, and plain retrieval checks nothing. -/

namespace SimAgentNet.OpenaiServer

open Effect (Triple)
open Relation (ReflTransGen)

variable {Mode Cache : Type}

/-- The responses that are in `s` and not in `base` belong to `owner`, the others are as in
`base`. -/
def Owned (owner : Option String) (base s : MemoryGatewayStore Mode) : Prop :=
  ∀ id record, s.responseObject id = some record →
    base.responseObject id = some record ∨
      ¬base.Has id .response ∧ record.ownerKeyId = owner

section
variable {base s s' : MemoryGatewayStore Mode} {owner : Option String}

theorem Owned.refl (owner : Option String) (s : MemoryGatewayStore Mode) : Owned owner s s :=
  fun _ _ h => .inl h

theorem Owned.of_eq (h : s.responseObjects = base.responseObjects) : Owned owner base s := by
  intro id record hrecord
  rw [MemoryGatewayStore.responseObject, h] at hrecord
  exact .inl hrecord

/-- A record with the owner, under an id that is not in use in `base`. -/
theorem Owned.put (h : Owned owner base s) {record : StoredGatewayResponse}
    (hnew : ¬base.Has record.responseId .response) (howner : record.ownerKeyId = owner) :
    Owned owner base (s.putResponseObject record) := by
  intro id record' hrecord'
  obtain ⟨rfl, rfl⟩ | hrecord' := get?_insert_inv hrecord'
  · exact .inr ⟨hnew, howner⟩
  · exact h id record' hrecord'

/-- A request that reserves no responses stores none. -/
theorem Created.responseObjects_eq {v : Reservation} (h : Created v base s s')
    (hwidth : v.width .response = 0) : s'.responseObjects = s.responseObjects := by
  have hnone {id : String} : ¬v.Mints .response id := by
    rintro ⟨n, ⟨hlow, hhigh⟩, -⟩
    omega
  induction h with
  | refl => rfl
  | tail _ hstep ih =>
    rw [← ih]
    cases hstep with
    | record h => exact h.responseObjects
    | file | batch | thread | vectorStore | completeBatch | cancelBatch => rfl
    | response record hid | adoptResponse record hid => exact absurd hid hnone

/-- What a request without a key stores has no owner. -/
theorem Created.owned {v : Reservation} (h : Created v base base s) (howner : v.owner = none)
    (hfree : ∀ k id, v.Mints k id → ¬base.Has id k) : Owned v.owner base s := by
  induction h with
  | refl => exact .refl _ _
  | tail _ hstep ih =>
    cases hstep with
    | record h =>
      intro id record hrecord
      rw [MemoryGatewayStore.responseObject, h.responseObjects] at hrecord
      exact ih id record hrecord
    | file | batch | thread | vectorStore | completeBatch | cancelBatch => exact ih
    | response record hid _ hnone => exact ih.put (hfree _ _ hid) (hnone.trans howner.symm)
    | adoptResponse record hid hbase hkey => exact ih.put hbase hkey

end

/-- Every log can be streamed. -/
def ResponseEngine.Streams (engine : ResponseEngine Mode Cache) : Prop :=
  ∀ events id ms, ∃ body, engine.encodeGatewayEventsSse events id ms = .ok body

section
variable {base s : MemoryGatewayStore Mode} {owner : Option String} {host : Host Mode}
  {engine : ResponseEngine Mode Cache} {request : GatewayRequest} {g g' : GatewayIdGenerator}
  {reported : Option String}

/-- An execution stores a response under the next id only, and reports it unless it could not be
streamed. -/
structure Reports (base s : MemoryGatewayStore Mode) (id : String) (reported : Option String) :
    Prop where
  new : ¬base.Has id .response
  only : ∀ id' record, s.responseObject id' = some record →
    base.responseObject id' = some record ∨ id' = id ∧ record.responseId = id
  reports : s.Has id .response → reported = some id
  same : ∀ id', reported = some id' → id' = id

theorem Executed.reports (h : Executed host engine request g base g' s reported)
    (hnew : ¬base.Has g.peek .response)
    (hstream : ¬StoresStream host engine base request ∨ engine.Streams) :
    Reports base s g.peek reported := by
  have hsame {s' : MemoryGatewayStore Mode} (h : SameObjects base s') (id : String)
      (record : StoredGatewayResponse) (hrecord : s'.responseObject id = some record) :
      base.responseObject id = some record := by
    rwa [MemoryGatewayStore.responseObject, h.responseObjects] at hrecord
  cases h with
  | refused h =>
    exact ⟨hnew, fun id record hr => .inl (hsame h id record hr),
      fun hhas => absurd (h.has_iff.mp hhas) hnew, fun _ hid => by cases hid⟩
  | minted h hid =>
    refine ⟨hnew, fun id record hr => .inl (hsame h id record hr),
      fun hhas => absurd (h.has_iff.mp hhas) hnew, fun id hreported => ?_⟩
    obtain hid | hid := hid
    · rw [hid] at hreported
      cases hreported
    · rw [hid] at hreported
      exact (Option.some.inj hreported).symm
  | stored h record hid _ =>
    refine ⟨hnew, fun id' record' hr => ?_, fun _ => rfl, fun _ hid => (Option.some.inj hid).symm⟩
    obtain ⟨rfl, rfl⟩ | hr := get?_insert_inv hr
    · exact .inr ⟨hid, hid⟩
    · exact .inl (hsame h id' record' hr)
  | unreported h record _ _ hstores hencode =>
    obtain hstream | hstream := hstream
    · exact absurd hstores hstream
    · obtain ⟨body, hbody⟩ := hstream _ _ _
      rw [hbody] at hencode
      cases hencode

namespace Reports
variable {id : String}

/-- Nothing was stored that is not reported. -/
theorem owned_of_absent (h : Reports base s id reported)
    (habsent : ∀ id', reported = some id' → s.responseObject id' = none) : Owned owner base s := by
  intro id' record hrecord
  obtain hbase | ⟨rfl, -⟩ := h.only id' record hrecord
  · exact .inl hbase
  · have hreported := h.reports (Option.isSome_of_eq_some hrecord)
    rw [habsent _ hreported] at hrecord
    cases hrecord

/-- The reported response is written again for its owner. -/
theorem owned_put (h : Reports base s id reported) {record record' : StoredGatewayResponse}
    {id' : String} (hid : reported = some id') (hrecord : s.responseObject id' = some record)
    (hsame : record'.responseId = record.responseId) (howner : record'.ownerKeyId = owner) :
    Owned owner base (s.putResponseObject record') := by
  cases h.same _ hid
  have hkey : record'.responseId = id := by
    obtain hbase | ⟨-, hkey⟩ := h.only _ _ hrecord
    · exact absurd (Option.isSome_of_eq_some hbase) h.new
    · exact hsame.trans hkey
  intro id₁ record₁ hrecord₁
  obtain ⟨rfl, rfl⟩ | hold := get?_insert_inv hrecord₁
  · exact .inr ⟨hkey ▸ h.new, howner⟩
  · obtain hbase | ⟨rfl, -⟩ := h.only _ _ hold
    · exact .inl hbase
    · rw [MemoryGatewayStore.responseObject, MemoryGatewayStore.putResponseObject, hkey,
        SortedMap.get?_insert_self] at hrecord₁
      cases hrecord₁
      exact .inr ⟨h.new, howner⟩

end Reports

theorem stampResponseOwner_owned {id : String} {execution : ResponseExecution Mode}
    (h : Reports base s id execution.responseId) :
    Owned owner base (stampResponseOwner owner execution s) := by
  rw [stampResponseOwner]
  split
  · rename_i hnone
    exact h.owned_of_absent fun id' hid => by rwa [hid] at hnone
  · rename_i record hrecord
    obtain ⟨id', hid, hrecord⟩ := Option.bind_eq_some_iff.mp hrecord
    exact h.owned_put hid hrecord rfl rfl

theorem adoptFork_owned {id responseId : String} (h : Reports base s id (some responseId))
    (parentResponseId : String) :
    Owned owner base (adoptFork parentResponseId owner responseId s) := by
  rw [adoptFork]
  split
  · rename_i hnone
    exact h.owned_of_absent fun id' hid => Option.some.inj hid ▸ hnone
  · rename_i record hrecord
    exact h.owned_put rfl hrecord rfl rfl

variable (host engine request) in
/-- An execution that reports a response answers with success. -/
theorem tryExecuteResponseRequest_status (capabilities : CapabilitySet) :
    Triple (fun _ => True) (tryExecuteResponseRequest host engine capabilities request)
      (fun x _ => x.response.status = 200) fun _ => True := by
  have htrue {α : Type} (x : Route Mode Cache ResponseIdGenerators α) :
      Triple (fun _ => True) x (fun _ _ => True) fun _ => True := by
    intro w _
    split <;> trivial
  refine (htrue _).bind fun r => ?_
  refine (htrue _).bind fun prologue => ?_
  refine (htrue _).bind fun recorded => ?_
  refine (htrue _).bind fun responseId => ?_
  refine (htrue _).bind fun createdAtMs => ?_
  refine (htrue _).bind fun body => ?_
  refine (htrue _).bind fun responseContentId => ?_
  refine Triple.bind (Q := fun response _ => response.status = 200) ?_ fun response =>
    .pure fun _ h => h
  cases r.stream with
  | false => exact .pure fun _ _ => rfl
  | true => exact (htrue _).bind fun sse => .pure fun _ _ => rfl

theorem executeResponseRequest_status {capabilities : CapabilitySet}
    {w : Work Mode Cache ResponseIdGenerators} {id : String}
    (h : (executeResponseRequest host engine capabilities request w).1.responseId = some id) :
    (executeResponseRequest host engine capabilities request w).1.response.status = 200 := by
  have hstatus := tryExecuteResponseRequest_status host engine request capabilities w trivial
  revert h
  rw [executeResponseRequest]
  split
  · rename_i hx
    rw [hx] at hstatus
    exact fun _ => hstatus
  · exact fun h => by cases h

theorem forkResponse_owned {capabilities : CapabilitySet} {ids : ResponseIdGenerators}
    (hnew : ¬base.Has ids.response.peek .response) (hstream : engine.Streams)
    (parentResponseId : String) (patch : JsonObject) {access : SimRouteAccess}
    (howner : access.callerKeyId = owner) :
    Triple (fun w => w.ids = ids ∧ w.store = base)
      (forkResponse host engine parentResponseId patch capabilities access)
      (fun _ w => Owned owner base w.store) fun w => Owned owner base w.store := by
  have hstart (w : Work Mode Cache ResponseIdGenerators) (h : w.ids = ids ∧ w.store = base) :
      Owned owner base w.store := by
    rw [h.2]
    exact .refl _ _
  let P (ids' : ResponseIdGenerators) (s : MemoryGatewayStore Mode) : Prop := ids' = ids ∧ s = base
  refine ((Route.Keeps.observe (P := P) _).within hstart).bind fun source => ?_
  refine ((Route.Keeps.ofExcept (P := P) _).within hstart).bind fun request => ?_
  refine Triple.bind (Q := fun execution w =>
    Reports base w.store ids.response.peek execution.responseId ∧
      ∀ id, execution.responseId = some id → execution.response.status = 200) ?_
    fun execution => ?_
  · rintro w ⟨rfl, rfl⟩
    have hexecuted := executeResponseRequest_executed host engine capabilities request w
    exact ⟨hexecuted.reports hnew (.inr hstream), fun _ => executeResponseRequest_status⟩
  split
  · rename_i hfailed
    refine .pure fun w h => h.1.owned_of_absent fun id hid => ?_
    rw [h.2 id hid] at hfailed
    exact absurd rfl hfailed
  · split
    · rename_i hnone
      refine .fail fun w h => h.1.owned_of_absent fun id hid => ?_
      rw [hnone] at hid
      cases hid
    · rename_i responseId hreported
      refine Triple.bind (Q := fun _ w => Owned owner base w.store) (.modify fun w h => ?_)
        fun _ => ?_
      · rw [howner]
        exact adoptFork_owned (hreported ▸ h.1) _
      · split
        · exact .fail fun _ h => h
        · exact .observe (fun _ _ h _ => h) fun _ h => h

end

/-! ## Requests -/

section
variable (gateway : Gateway Mode Cache)

/-- The key a request presents. -/
def Gateway.keyOf (request : GatewayRequest) : Option OpenAiGatewayKey :=
  gateway.keys.keyForRequest gateway.host request

/-- A request with a key does not run a batch, and what it stores and streams can be streamed. -/
def Gateway.Attributes (served : Served Mode Cache) : Prop :=
  gateway.keyOf served.request = none ∨
    match served.route with
    | .batches => ∀ r, readBatchRequest gateway.host served.state.store served.request = .ok r →
        deferred r.object
    | .responses => ¬StoresStream gateway.host gateway.engine served.state.store
        (gatewayRequestFromBody served.request.body) ∨ gateway.engine.Streams
    | .simFork => gateway.engine.Streams
    | _ => True

/-- A response was stored for a request. -/
def Gateway.Stores (served : Served Mode Cache) (id : String) : Prop :=
  ¬served.state.store.Has id .response ∧
    (gateway.handle served.request served.state served.route).2.store.Has id .response

theorem Gateway.owner_eq_none {request : GatewayRequest} {state : GatewayState Mode Cache}
    {route : GatewayRoute} (h : gateway.keyOf request = none) :
    (gateway.reserves request state route).owner = none := by
  show (gateway.keys.keyForRequest gateway.host request).map _ = none
  rw [show gateway.keys.keyForRequest gateway.host request = none from h]
  rfl

/-- Whatever a request stores belongs to its caller. -/
theorem Gateway.handle_owned {served : Served Mode Cache} (hkeyed : Keyed served.state.store)
    (hfree : ∀ k id, (gateway.reserved served).Mints k id → ¬served.state.store.Has id k)
    (h : gateway.Attributes served) :
    Owned (gateway.keys.callerKeyId gateway.host served.request) served.state.store
      (gateway.handle served.request served.state served.route).2.store := by
  obtain ⟨request, route, state⟩ := served
  have hcreated := gateway.handle_created request state route hkeyed hfree
  have hroom (hwidth : (gateway.reserves request state route).width .response = 1)
      (start : UInt64) (hstart : (gateway.reserves request state route).start = start.toNat) :
      ¬state.store.Has (GatewayIdGenerator.deterministic "resp" start).peek .response := by
    have := Room.deterministic (hfree .response) hstart
    rw [Gateway.reserved, hwidth] at this
    exact this.peek_unused
  obtain hnone | h := h
  · exact hcreated.owned (gateway.owner_eq_none hnone) hfree
  · cases route with
    | files | threads | vectorStores | threadPost | vectorStoreSearch | batchCancel | simReplay
    | responseEvents | responseSim | responseRetrieval =>
      exact .of_eq (hcreated.responseObjects_eq rfl)
    | batches =>
      refine .of_eq (hcreated.responseObjects_eq ?_)
      show batchWidth gateway.host request state.store .response = 0
      rw [batchWidth]
      cases hr : readBatchRequest gateway.host state.store request with
      | error e => rfl
      | ok r => exact if_pos (h r hr)
    | responses =>
      have hexecuted := executeResponseRequest_executed gateway.host gateway.engine
        (gateway.keys.effectiveCapabilities gateway.host request)
        (gatewayRequestFromBody request.body)
        ⟨state.store, state.cache, .deterministic (seedOf gateway.host state), state.ticks + 1⟩
      exact stampResponseOwner_owned (hexecuted.reports (hroom rfl (seedOf gateway.host state) rfl) h)
    | simFork =>
      simp only [handle, Handled.answer, handleSimFork]
      split
      · exact .refl _ _
      · rename_i fork hfork
        have howner := simRouteAccess_callerKeyId (readForkRequest_access hfork)
        let ids := GatewayRunIdGenerators.deterministic (forkSeed gateway.host state)
        have hnew : ¬state.store.Has ids.response.peek .response :=
          hroom rfl (forkSeed gateway.host state) rfl
        exact runRoute_spec (P := fun ids' s => ids' = ids ∧ s = state.store)
          (I := fun _ s => Owned _ state.store s) (forkResponse_owned hnew h _ _ howner) ⟨rfl, rfl⟩

end

/-! ## Refused requests -/

/-- The errors that tell a caller nothing of a response but that it is stored. -/
inductive Refusal : OpenAiRouteError → Prop
  | capability : Refusal (.forbidden
      "SIM response routes require openai-gateway.admin or sim.extension" "capability_denied")
  | owner : Refusal (.forbidden "stored response belongs to a different gateway key"
      "capability_denied")
  | missingEvent (responseId contentId : String) : Refusal (.internalMessage
      ("stored event is missing for response " ++ responseId ++ ": " ++ contentId))
  | missingPatch : Refusal (.missingRequired "patch")

section
variable {host : Host Mode} {store : MemoryGatewayStore Mode} {id : String}
  {record : StoredGatewayResponse} {access : SimRouteAccess}

end

section
variable {gateway : Gateway Mode Cache} {request : GatewayRequest} {route : GatewayRoute}
  {state : GatewayState Mode Cache} {id : String} {record : StoredGatewayResponse}

end

/-! ## Runs -/

section
variable {gateway : Gateway Mode Cache}

/-- In a run whose requests all attribute what they store, every response belongs to the caller it
was stored for. -/
theorem Gateway.Runs.owner {past : List (Served Mode Cache)} {state : GatewayState Mode Cache}
    (h : gateway.Runs past state) (hattributes : ∀ served ∈ past, gateway.Attributes served) :
    ∀ served ∈ past, ∀ id, gateway.Stores served id →
      ∃ record, state.store.responseObject id = some record ∧
        record.ownerKeyId = gateway.keys.callerKeyId gateway.host served.request := by
  induction h with
  | start => intro served hserved; cases hserved
  | @handle past state hruns request route hapart ih =>
    have hfree := hruns.accounted.free hapart
    have hkeyed := hruns.accounted.keyed
    have hkeeps := (gateway.handle_created request state route hkeyed hfree).keeps
    intro served hserved id hstores
    obtain rfl | hserved := List.mem_cons.mp hserved
    · -- the latest request has just stored it
      obtain ⟨record, hrecord⟩ := Option.isSome_iff_exists.mp hstores.2
      have howned := gateway.handle_owned hkeyed hfree (hattributes _ List.mem_cons_self)
      obtain hold | ⟨-, howner⟩ := howned id record hrecord
      · exact absurd (Option.isSome_of_eq_some hold) hstores.1
      · exact ⟨record, hrecord, howner⟩
    · obtain ⟨record, hrecord, howner⟩ :=
        ih (fun s hs => hattributes s (List.mem_cons_of_mem _ hs)) served hserved id hstores
      exact ⟨record, hkeeps.response hrecord, howner⟩

/-- One request to a new gateway is a run. -/
theorem Gateway.Runs.single (served : Served Mode Cache) {cache : Cache} {ticks : Nat}
    (hstate : served.state = ⟨.new, cache, ticks⟩) :
    gateway.Runs [served] (gateway.handle served.request served.state served.route).2 := by
  obtain ⟨request, route, state⟩ := served
  cases hstate
  exact Gateway.Runs.handle (.start cache ticks) request route (List.forall_mem_nil _)

end

/-! ## A response of one key -/

namespace Sample

/-- A request to store a response, authenticated by a key. -/
def keyedRequest : GatewayRequest :=
  .new "POST" "/v1/responses" [("x-api-key", "alpha")] body

def keyed : Served Unit Unit := ⟨keyedRequest, .responses, ⟨.new, (), 0⟩⟩

end Sample

end SimAgentNet.OpenaiServer
