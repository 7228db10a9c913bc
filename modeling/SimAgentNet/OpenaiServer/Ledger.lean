import SimAgentNet.OpenaiServer.RouteSteps

/-! # The ledger of the response route

Every stored response leads to the request, the run and the events that produced it, and what a
content id resolves to does not change. The one exception is the table of requests: a request is
stored under a content id that leaves out its id and its timestamp, so a repeated request replaces
the stored one. -/

namespace SimAgentNet.OpenaiServer

open SimAgentNet.Expr (entry)

variable {Mode Cache : Type}

/-! ## Content ids determine their values -/

/-- Expressions with the same content id are equal. -/
def Host.CollisionFree (host : Host Mode) : Prop :=
  ∀ e e' id, host.contentIdForExpr e = .ok id → host.contentIdForExpr e' = .ok id → e = e'

theorem toString_nat_inj {n m : Nat} (h : toString n = toString m) : n = m := by
  have h' := congrArg String.toNat? h
  simpa using h'

theorem GatewayRun.toExpr_injective (hexEncode : List UInt8 → String) :
    Function.Injective (GatewayRun.toExpr hexEncode : GatewayRun → Expr Mode) := by
  rintro ⟨id, rid, status, ms⟩ ⟨id', rid', status', ms'⟩ h
  simp only [toExpr, contentIdExpr, entry, Expr.map.injEq, List.cons.injEq, Prod.mk.injEq,
    Expr.string.injEq, Expr.symbol.injEq, Expr.bytes.injEq, true_and, and_true] at h
  obtain ⟨rfl, ⟨halg, hbytes, -⟩, rfl, hms⟩ := h
  have hrid : rid = rid' := by
    cases rid; cases rid'; cases halg; cases hbytes; rfl
  cases hrid
  cases UInt64.toNat_inj.mp (toString_nat_inj hms)
  rfl

theorem GatewayEvent.toExpr_injective : Function.Injective (GatewayEvent.toExpr : GatewayEvent Mode → Expr Mode) := by
  rintro ⟨id, runId, seq, kind, payload, ms⟩ ⟨id', runId', seq', kind', payload', ms'⟩ h
  simp only [toExpr, entry, Expr.map.injEq, List.cons.injEq, Prod.mk.injEq, Expr.string.injEq,
    Expr.symbol.injEq, true_and, and_true] at h
  obtain ⟨rfl, rfl, hseq, rfl, rfl, hms⟩ := h
  cases toString_nat_inj hseq
  cases UInt64.toNat_inj.mp (toString_nat_inj hms)
  rfl

/-- The expression of a JSON response determines it. -/
theorem GatewayResponse.json_eq_of_toExpr {status status' : UInt16} {body body' : List UInt8}
    (h : (json status body).toExpr = ((json status' body').toExpr : Expr Mode)) :
    json status body = json status' body' := by
  simp only [toExpr, json, new, entry, Expr.map.injEq, List.cons.injEq, Prod.mk.injEq,
    Expr.string.injEq, Expr.bytes.injEq, true_and, and_true] at h
  obtain ⟨hstatus, rfl⟩ := h
  cases UInt16.toNat_inj.mp (toString_nat_inj hstatus)
  rfl

/-! ## Requests that differ in their metadata only -/

/-- The headers in the order their expression has. -/
def sortHeaders (headers : List (String × String)) : List (String × String) :=
  headers.insertionSort fun a b =>
    (toLex (a.1.toLower, a.2) : String ×ₗ String) ≤ toLex (b.1.toLower, b.2)

/-- Two requests are alike up to their id, their timestamp and the order of their headers. -/
structure GatewayRequest.Alike (a b : GatewayRequest) : Prop where
  method : a.method = b.method
  path : a.path = b.path
  headers : sortHeaders a.headers = sortHeaders b.headers
  body : a.body = b.body

theorem headersExpr_eq_iff {as bs : List (String × String)} :
    (headersExpr as : Expr Mode) = headersExpr bs ↔ sortHeaders as = sortHeaders bs := by
  have hinj : Function.Injective fun h : String × String =>
      (.map [entry "name" (.string h.1), entry "value" (.string h.2)] : Expr Mode) := by
    rintro ⟨a, b⟩ ⟨a', b'⟩ h
    simp only [entry, Expr.map.injEq, List.cons.injEq, Prod.mk.injEq, Expr.string.injEq, true_and,
      and_true] at h
    rw [h.1, h.2]
  simp only [headersExpr, Expr.list.injEq]
  exact (List.map_injective_iff.mpr hinj).eq_iff

/-- The normalized expression is what the content id of a request is computed from. -/
theorem normalizeRequestExpr_toExpr (r : GatewayRequest) :
    normalizeRequestExpr (r.toExpr : Expr Mode) =
      .map [entry "object" (.string "openai-gateway/request"), entry "method" (.string r.method),
        entry "path" (.string r.path), entry "headers" (headersExpr r.headers),
        entry "body" (.bytes r.body)] := by
  simp [GatewayRequest.toExpr, normalizeRequestExpr, optionalStringField, optionalU64Field, entry,
    isVolatileRequestKey, volatileRequestFields, Symbol.new]

theorem normalizeRequestExpr_eq_iff {a b : GatewayRequest} :
    normalizeRequestExpr (a.toExpr : Expr Mode) = normalizeRequestExpr b.toExpr ↔ a.Alike b := by
  simp only [normalizeRequestExpr_toExpr, entry, Expr.map.injEq, List.cons.injEq, Prod.mk.injEq,
    Expr.string.injEq, Expr.bytes.injEq, true_and, and_true, headersExpr_eq_iff]
  exact ⟨fun ⟨h₁, h₂, h₃, h₄⟩ => ⟨h₁, h₂, h₃, h₄⟩, fun ⟨h₁, h₂, h₃, h₄⟩ => ⟨h₁, h₂, h₃, h₄⟩⟩

theorem GatewayRequest.alike_withMetadata (r : GatewayRequest) (id : String) (ms : UInt64) :
    (r.withMetadata id ms).Alike r := ⟨rfl, rfl, rfl, rfl⟩

/-! ## What a content id resolves to -/

/-- Whatever a content id resolves to stays. -/
structure Grows (s s' : MemoryGatewayStore Mode) : Prop where
  request : ∀ {id v}, s.request id = some v → s'.request id = some v
  run : ∀ {id v}, s.run id = some v → s'.run id = some v
  event : ∀ {id v}, s.event id = some v → s'.event id = some v
  response : ∀ {id v}, s.response id = some v → s'.response id = some v

theorem Grows.refl (s : MemoryGatewayStore Mode) : Grows s s := ⟨id, id, id, id⟩

theorem Grows.trans {s s' s'' : MemoryGatewayStore Mode} (h : Grows s s') (h' : Grows s' s'') :
    Grows s s'' :=
  ⟨h'.request ∘ h.request, h'.run ∘ h.run, h'.event ∘ h.event, h'.response ∘ h.response⟩

/-- Every record is stored under its own content id. -/
structure Addressed (host : Host Mode) (s : MemoryGatewayStore Mode) : Prop where
  request : ∀ {id v}, s.request id = some v → host.requestContentId v = .ok id
  run : ∀ {id v}, s.run id = some v → host.contentIdForExpr (v.toExpr host.hexEncode) = .ok id
  event : ∀ {id v}, s.event id = some v → host.contentIdForExpr v.toExpr = .ok id
  response : ∀ {id v}, s.response id = some v →
    host.contentIdForExpr v.toExpr = .ok id ∧ ∃ status body, v = .json status body

/-- A store an execution has reached from `base` before it stores its response. -/
structure Growing (host : Host Mode) (base s : MemoryGatewayStore Mode) : Prop where
  addressed : Addressed host s
  grows : Grows base s
  objects : s.responseObjects = base.responseObjects

/-- An insertion into a map keeps an entry, unless it gives its key another value. -/
theorem get?_insert_of_agree {α β : Type} [LinearOrder α] {m : SortedMap α β} {k k' : α} {v v' : β}
    (h : m.get? k' = some v') (hv : k' = k → v' = v) : (m.insert k v).get? k' = some v' := by
  rw [SortedMap.get?_insert]
  split
  · rename_i hk
    rw [hv hk]
  · exact h

/-- A lookup after an insertion finds the new value or an earlier one. -/
theorem get?_insert_inv {α β : Type} [LinearOrder α] {m : SortedMap α β} {k k' : α} {v v' : β}
    (h : (m.insert k v).get? k' = some v') : k' = k ∧ v' = v ∨ m.get? k' = some v' := by
  rw [SortedMap.get?_insert] at h
  split at h
  · rename_i hk
    cases h
    exact .inl ⟨hk, rfl⟩
  · exact .inr h

namespace Growing
variable {host : Host Mode} {base s : MemoryGatewayStore Mode}

theorem refl (h : Addressed host s) : Growing host s s := ⟨h, .refl s, rfl⟩

theorem trans {s' : MemoryGatewayStore Mode} (h : Growing host base s) (h' : Growing host s s') :
    Growing host base s' :=
  ⟨h'.addressed, h.grows.trans h'.grows, h'.objects.trans h.objects⟩

/-- A request is stored under a content id that no stored request has. -/
theorem putRequest (h : Growing host base s) {id : ContentId} {v : GatewayRequest}
    (hid : host.requestContentId v = .ok id) (hnew : s.request id = none) :
    Growing host base (s.putRequest id v) where
  addressed := { h.addressed with
    request := fun hv => (get?_insert_inv hv).elim (fun ⟨hk, he⟩ => hk ▸ he ▸ hid) h.addressed.request }
  grows := h.grows.trans
    { Grows.refl s with
      request := fun hv => get?_insert_of_agree hv fun e => by
        subst e
        exact absurd (hv.symm.trans hnew) nofun }
  objects := h.objects

theorem putRun (hcf : host.CollisionFree) (h : Growing host base s) {id : ContentId}
    {v : GatewayRun} (hid : host.contentIdForExpr (v.toExpr host.hexEncode) = .ok id) :
    Growing host base (s.putRun id v) where
  addressed := { h.addressed with
    run := fun hv => (get?_insert_inv hv).elim (fun ⟨hk, he⟩ => hk ▸ he ▸ hid) h.addressed.run }
  grows := h.grows.trans
    { Grows.refl s with
      run := fun hv => get?_insert_of_agree hv fun e =>
        GatewayRun.toExpr_injective _ (hcf _ _ _ (h.addressed.run hv) (e ▸ hid)) }
  objects := h.objects

theorem putEvent (hcf : host.CollisionFree) (h : Growing host base s) {id : ContentId}
    {v : GatewayEvent Mode} (hid : host.contentIdForExpr v.toExpr = .ok id) :
    Growing host base (s.putEvent id v) where
  addressed := { h.addressed with
    event := fun hv => (get?_insert_inv hv).elim (fun ⟨hk, he⟩ => hk ▸ he ▸ hid) h.addressed.event }
  grows := h.grows.trans
    { Grows.refl s with
      event := fun hv => get?_insert_of_agree hv fun e =>
        GatewayEvent.toExpr_injective (hcf _ _ _ (h.addressed.event hv) (e ▸ hid)) }
  objects := h.objects

/-- Storing a JSON response keeps the four tables of records. -/
theorem putResponseObject (hcf : host.CollisionFree) (h : Addressed host s)
    {r : StoredGatewayResponse} {body : List UInt8} {status : UInt16}
    (hr : r.response = .json status body)
    (hid : host.contentIdForExpr r.response.toExpr = .ok r.contentId) :
    Addressed host (s.putResponseObject r) ∧ Grows s (s.putResponseObject r) := by
  constructor
  · exact { h with
      response := fun hv => (get?_insert_inv hv).elim
        (fun ⟨hk, he⟩ => hk ▸ he ▸ ⟨hid, status, body, hr⟩) h.response }
  · exact { Grows.refl s with
      response := fun hv => get?_insert_of_agree hv fun e => by
        obtain ⟨hid', status', body', rfl⟩ := h.response hv
        rw [hr] at hid ⊢
        exact GatewayResponse.json_eq_of_toExpr (hcf _ _ _ hid' (e ▸ hid)) }

end Growing

/-! ## Complete records -/

/-- The ids of a log resolve to its events, which count up from zero and belong to one run. -/
structure Recorded (s : MemoryGatewayStore Mode) (runId : String) (log : EventLog Mode) : Prop where
  resolves : log.contentIds.map s.event = log.events.map some
  sequence : ∀ (i : Nat) (e : GatewayEvent Mode), log.events[i]? = some e →
    e.sequence = i ∧ e.runId = runId

/-- The first event of a log holds the request as it was minted for the run. -/
def Starts (request : GatewayRequest) (log : EventLog Mode) : Prop :=
  ∃ e : GatewayEvent Mode, log.events[0]? = some e ∧ e.kind = .new "request-start" ∧ e.payload = request.toExpr

/-- A stored response leads to its response, its run, the events of the run, and the request with
the id and the timestamp minted for that run. -/
structure Traces (s : MemoryGatewayStore Mode) (record : StoredGatewayResponse)
    (request : GatewayRequest) (run : GatewayRun) (log : EventLog Mode) : Prop where
  resolvesResponse : s.response record.contentId = some record.response
  resolvesRequest : record.requestContentId = some run.requestContentId ∧
    s.request run.requestContentId = some request
  resolvesRun : ∃ id, record.runContentId = some id ∧ s.run id = some run
  resolvesEvents : record.eventContentIds = log.contentIds ∧ Recorded s run.id log
  minted : request.id.isSome ∧ request.timestampMs.isSome
  starts : Starts request log

def Complete (s : MemoryGatewayStore Mode) : Prop :=
  ∀ x record, s.responseObject x = some record → ∃ request run log, Traces s record request run log

theorem Recorded.mono {s s' : MemoryGatewayStore Mode} {runId : String} {log : EventLog Mode}
    (h : Recorded s runId log) (hg : Grows s s') : Recorded s' runId log where
  resolves := by
    refine List.ext_getElem? fun i => ?_
    have hi := congrArg (·[i]?) h.resolves
    simp only [List.getElem?_map] at hi ⊢
    cases hid : log.contentIds[i]? with
    | none => rw [hid] at hi; exact hi
    | some id =>
      cases he : log.events[i]? with
      | none => rw [hid, he] at hi; cases hi
      | some e =>
        rw [hid, he] at hi
        simp only [Option.map_some, Option.some.injEq] at hi ⊢
        exact hg.event hi
  sequence := h.sequence

theorem Recorded.nil (s : MemoryGatewayStore Mode) (runId : String) :
    Recorded s runId EventLog.empty :=
  ⟨rfl, nofun⟩

/-- The next event of a run, with the next sequence number. -/
theorem Recorded.snoc {s : MemoryGatewayStore Mode} {runId : String} {log : EventLog Mode}
    (h : Recorded s runId log) {id : ContentId} {e : GatewayEvent Mode} (hid : s.event id = some e)
    (hseq : e.sequence = log.events.length) (hrun : e.runId = runId) :
    Recorded s runId ⟨log.contentIds ++ [id], log.events ++ [e]⟩ where
  resolves := by simp [h.resolves, hid]
  sequence := by
    intro i e' he
    rcases Nat.lt_trichotomy i log.events.length with hi | rfl | hi
    · rw [List.getElem?_append_left hi] at he
      exact h.sequence i e' he
    · simp only [List.getElem?_concat_length, Option.some.injEq] at he
      exact he ▸ ⟨hseq, hrun⟩
    · rw [List.getElem?_eq_none (by simp; omega)] at he
      cases he

theorem Starts.append {request : GatewayRequest} {log log' : EventLog Mode} (h : Starts request log)
    {events : List (GatewayEvent Mode)} (he : log'.events = log.events ++ events) :
    Starts request log' := by
  obtain ⟨e, h₀, hrest⟩ := h
  refine ⟨e, ?_, hrest⟩
  rw [he, List.getElem?_append_left]
  · exact h₀
  · exact (List.getElem?_eq_some_iff.mp h₀).1

theorem Traces.mono {s s' : MemoryGatewayStore Mode} {record : StoredGatewayResponse}
    {request : GatewayRequest} {run : GatewayRun} {log : EventLog Mode}
    (h : Traces s record request run log) (hg : Grows s s') : Traces s' record request run log where
  resolvesResponse := hg.response h.resolvesResponse
  resolvesRequest := ⟨h.resolvesRequest.1, hg.request h.resolvesRequest.2⟩
  resolvesRun := h.resolvesRun.imp fun _ hr => ⟨hr.1, hg.run hr.2⟩
  resolvesEvents := ⟨h.resolvesEvents.1, h.resolvesEvents.2.mono hg⟩
  minted := h.minted
  starts := h.starts

/-! ## What the steps of an execution keep -/

section
variable {host : Host Mode} {base : MemoryGatewayStore Mode} {Ids : Type}

open Effect (Triple)

/-- One event: the store grows, and a stored log stays recorded. -/
theorem appendEvent_spec (hcf : host.CollisionFree) (runId : String) (input : EventInput Mode)
    (stored : Bool) (log : EventLog Mode) :
    Triple
      (fun w : Work Mode Cache GatewayRunIdGenerators =>
        Growing host base w.store ∧ (stored → Recorded w.store runId log))
      (appendEvent host runId log.events.length input stored log)
      (fun log' w => (Growing host base w.store ∧ (stored → Recorded w.store runId log')) ∧
        ∃ e : GatewayEvent Mode, log'.events = log.events ++ [e] ∧ e.kind = input.kind ∧ e.payload = input.payload)
      (fun w => Growing host base w.store) := by
  have hweak (w : Work Mode Cache GatewayRunIdGenerators)
      (h : Growing host base w.store ∧ (stored → Recorded w.store runId log)) :
      Growing host base w.store := h.1
  let P (s : MemoryGatewayStore Mode) := Growing host base s ∧ (stored → Recorded s runId log)
  refine ((Route.Keeps.mint (P := fun _ => P) fun _ _ _ h => h).within hweak).bind fun id => ?_
  refine ((Route.Keeps.nowMs (P := fun _ => P) host).within hweak).bind fun ms => ?_
  refine (Route.kernel_spec (P := fun _ => P) hweak).bind fun cid => ?_
  cases stored with
  | false =>
    refine .pure fun w ⟨_, h⟩ => ⟨⟨h.1, nofun⟩, _, rfl, rfl, rfl⟩
  | true =>
    rintro w ⟨hcid, hg, hrec⟩
    have hput := hg.putEvent hcf hcid
    refine ⟨⟨hput, fun _ => ?_⟩, _, rfl, rfl, rfl⟩
    refine (Recorded.mono (hrec rfl) ((Growing.refl hg.addressed).putEvent hcf hcid).grows).snoc ?_
      rfl rfl
    exact SortedMap.get?_insert_self _ _ _

/-- A list of events, under consecutive sequence numbers. -/
theorem appendEvents_spec (hcf : host.CollisionFree) (runId : String) (stored : Bool)
    (inputs : List (EventInput Mode)) (log : EventLog Mode) :
    Triple
      (fun w : Work Mode Cache GatewayRunIdGenerators =>
        Growing host base w.store ∧ (stored → Recorded w.store runId log))
      (appendEvents host runId stored log.events.length inputs log)
      (fun log' w => (Growing host base w.store ∧ (stored → Recorded w.store runId log')) ∧
        ∃ es, log'.events = log.events ++ es ∧
          es.map (fun e => (e.kind, e.payload)) = inputs.map fun i => (i.kind, i.payload))
      (fun w => Growing host base w.store) := by
  induction inputs generalizing log with
  | nil => exact .pure fun w h => ⟨h, [], by simp, rfl⟩
  | cons input inputs ih =>
    refine (appendEvent_spec hcf runId input stored log).bind fun log' => ?_
    intro w ⟨h, e, he, hkind, hpayload⟩
    have hlen : log'.events.length = log.events.length + 1 := by rw [he]; simp
    have hrest := ih log' w h
    rw [hlen] at hrest
    revert hrest
    cases appendEvents host runId stored (log.events.length + 1) inputs log' w with
    | mk result w' =>
      cases result with
      | error _ => exact id
      | ok log'' =>
        rintro ⟨h', es, hes, hmap⟩
        refine ⟨h', e :: es, ?_, ?_⟩
        · rw [hes, he]; simp
        · simp [hmap, hkind, hpayload]

/-- The stored request and run of a prologue. -/
structure Opened (s : MemoryGatewayStore Mode) (p : RunPrologue) (run : GatewayRun) : Prop where
  resolvesRequest : s.request p.requestContentId = some p.recordedRequest
  resolvesRun : s.run p.runContentId = some run
  runId : run.id = p.runId
  requestContentId : run.requestContentId = p.requestContentId

theorem Opened.mono {s s' : MemoryGatewayStore Mode} {p : RunPrologue} {run : GatewayRun}
    (h : Opened s p run) (hg : Grows s s') : Opened s' p run :=
  { h with
    resolvesRequest := hg.request h.resolvesRequest
    resolvesRun := hg.run h.resolvesRun }

/-- No stored request is alike, so none has the content id of the request. -/
theorem request_eq_none_of_unlike (hcf : host.CollisionFree) (hbase : Addressed host base)
    {r : GatewayRequest} {id : ContentId} (hid : host.requestContentId r = .ok id)
    (hnew : ∀ id v, base.request id = some v → ¬v.Alike r) : base.request id = none := by
  cases hv : base.request id with
  | none => rfl
  | some v =>
    have heq := hcf _ _ _ (hbase.request hv) hid
    exact absurd (normalizeRequestExpr_eq_iff.mp heq) (hnew id v hv)

/-- What the prologue of a run does after its request. -/
def openRun (host : Host Mode) (status : Option Symbol) (stored : Bool) (recorded : GatewayRequest)
    (cid : ContentId) : Route Mode Cache GatewayRunIdGenerators RunPrologue := do
  let runId ← GatewayRunIdGenerators.nextRunId
  let createdAtMs ← Route.nowMs host
  let run := GatewayRun.new runId cid createdAtMs
  let run := match status with | some status => run.withStatus status | none => run
  let runContentId ← Route.kernel (host.contentIdForExpr (run.toExpr host.hexEncode))
  if stored then
    Route.write (·.putRun runContentId run)
  return ⟨recorded, cid, runId, runContentId⟩

/-- The prologue of a run stores its request and its run, unless a request alike is stored. -/
theorem beginRun_spec (hcf : host.CollisionFree) (hbase : Addressed host base)
    (request : GatewayRequest) (status : Option Symbol) (stored : Bool)
    (hnew : stored → ∀ id v, base.request id = some v → ¬v.Alike (redactedGatewayRequest request)) :
    Triple
      (fun w : Work Mode Cache GatewayRunIdGenerators => w.store = base)
      (beginRun host request status stored)
      (fun p w => (Growing host base w.store ∧ (stored → ∃ run, Opened w.store p run)) ∧
        p.recordedRequest.id.isSome ∧ p.recordedRequest.timestampMs.isSome)
      (fun w => Growing host base w.store) := by
  have hstart (w : Work Mode Cache GatewayRunIdGenerators) (h : w.store = base) :
      Growing host base w.store := by
    rw [h]
    exact .refl hbase
  refine ((Route.Keeps.mint (P := fun _ => (· = base)) fun _ _ _ h => h).within hstart).bind
    fun reqId => ?_
  refine ((Route.Keeps.nowMs (P := fun _ => (· = base)) host).within hstart).bind
    fun ms => ?_
  refine (Route.kernel_spec (P := fun _ => (· = base)) hstart).bind
    fun cid => ?_
  let recorded := (redactedGatewayRequest request).withMetadata reqId ms
  -- after the optional write of the request
  let Q (s : MemoryGatewayStore Mode) : Prop :=
    Growing host base s ∧ (stored → s.request cid = some recorded)
  have hrest : Triple (fun w : Work Mode Cache GatewayRunIdGenerators => Q w.store)
      (openRun host status stored recorded cid)
      (fun p w => (Growing host base w.store ∧ (stored → ∃ run, Opened w.store p run)) ∧
        p.recordedRequest.id.isSome ∧ p.recordedRequest.timestampMs.isSome)
      (fun w => Growing host base w.store) := by
    unfold openRun
    refine ((Route.Keeps.mint (P := fun _ => Q) fun _ _ _ h => h).within fun _ h => h.1).bind
      fun runId => ?_
    refine ((Route.Keeps.nowMs (P := fun _ => Q) host).within fun _ h => h.1).bind
      fun ms' => ?_
    refine (Route.kernel_spec (P := fun _ => Q) fun _ h => h.1).bind
      fun runCid => ?_
    cases stored with
    | false => exact .pure fun w h => ⟨⟨h.2.1, fun hstored => by cases hstored⟩, rfl, rfl⟩
    | true =>
      rintro w ⟨hrunCid, hg, hreq⟩
      refine ⟨⟨hg.putRun hcf hrunCid, fun _ => ⟨_, hreq rfl, SortedMap.get?_insert_self _ _ _, ?_, ?_⟩⟩,
        rfl, rfl⟩
      · cases status <;> rfl
      · cases status <;> rfl
  cases stored with
  | false =>
    refine hrest.weaken (fun w h => ⟨hstart w h.2, ?_⟩) (fun _ _ h => h) fun _ h => h
    intro hstored
    cases hstored
  | true =>
    refine Triple.bind (Q := fun _ w => Q w.store) (.modify fun w h => ?_) fun _ => hrest
    obtain ⟨hcid, hw⟩ := h
    have hnone : w.store.request cid = none := by
      rw [hw]
      refine request_eq_none_of_unlike hcf hbase hcid fun id v hv hlike => hnew rfl id v hv ?_
      exact ⟨hlike.method, hlike.path, hlike.headers, hlike.body⟩
    exact ⟨(hstart w hw).putRequest hcid hnone, fun _ => SortedMap.get?_insert_self _ _ _⟩

/-- The evaluation leaves the store. -/
theorem evaluatePlan_keeps {P : ResponseIdGenerators → MemoryGatewayStore Mode → Prop}
    (engine : ResponseEngine Mode Cache) (capabilities : CapabilitySet) (r : ResponseRequest Mode) :
    Route.Keeps P (evaluatePlan engine capabilities r) := by
  intro w hw
  simp only [evaluatePlan, Effect.focus]
  cases (Effect.mapError (OpenAiRouteError.model · r.model)
    (engine.evaluate capabilities r.plan r.requestExpr r.object) w.cache).1 <;> exact hw

/-- The events of a run: the store grows, and a stored log is recorded from the request on. -/
theorem recordRun_spec (hcf : host.CollisionFree) (engine : ResponseEngine Mode Cache)
    (capabilities : CapabilitySet) (r : ResponseRequest Mode) (p : RunPrologue) :
    Triple (fun w : Work Mode Cache ResponseIdGenerators => Growing host base w.store)
      (recordRun host engine capabilities r p)
      (fun x w => Growing host base w.store ∧
        (r.store → Recorded w.store p.runId x.1 ∧ Starts p.recordedRequest x.1))
      (fun w => Growing host base w.store) := by
  let R (log : EventLog Mode) (s : MemoryGatewayStore Mode) : Prop :=
    (Growing host base s ∧ (r.store → Recorded s p.runId log)) ∧ Starts p.recordedRequest log
  have hfirst : Triple (fun w : Work Mode Cache ResponseIdGenerators => Growing host base w.store)
      (appendEvents host p.runId r.store 0
        [⟨.new "request-start", p.recordedRequest.toExpr⟩, ⟨.new "plan-start", r.plan⟩,
          ⟨.new "model-start", .string r.model⟩] .empty)
      (fun log w => R log w.store ∧ log.events.length = 3)
      (fun w => Growing host base w.store) := by
    refine (appendEvents_spec hcf p.runId r.store _ .empty).weaken
      (fun w h => ⟨h, fun _ => .nil _ _⟩) ?_ fun _ h => h
    rintro log w ⟨h, es, hes, hmap⟩
    rw [EventLog.empty, List.nil_append] at hes
    have hlen : es.length = 3 := by simpa using congrArg List.length hmap
    obtain ⟨e, rest, rfl⟩ := List.exists_cons_of_length_pos (l := es) (by omega)
    simp only [List.map_cons, List.cons.injEq, Prod.mk.injEq] at hmap
    exact ⟨⟨h, e, by rw [hes]; rfl, hmap.1.1, hmap.1.2⟩, by rw [hes]; exact hlen⟩
  -- a further list of events keeps what is recorded so far
  have hmore (inputs : List (EventInput Mode)) (log : EventLog Mode) (n : Nat)
      (hn : log.events.length = n) :
      Triple (fun w : Work Mode Cache ResponseIdGenerators => R log w.store)
        (appendEvents host p.runId r.store n inputs log)
        (fun log' w => R log' w.store ∧ log'.events.length = n + inputs.length)
        (fun w => Growing host base w.store) := by
    subst hn
    intro w h
    have happend := appendEvents_spec hcf p.runId r.store inputs log w h.1
    revert happend
    cases appendEvents host p.runId r.store log.events.length inputs log w with
    | mk result w' =>
      cases result with
      | error _ => exact id
      | ok log' =>
        rintro ⟨h', es, hes, hmap⟩
        have hlen : es.length = inputs.length := by simpa using congrArg List.length hmap
        exact ⟨⟨h', h.2.append hes⟩, by rw [hes, List.length_append, hlen]⟩
  refine hfirst.bind fun log => ?_
  intro w ⟨h, hlen⟩
  refine ((evaluatePlan_keeps (P := fun _ => R log) engine capabilities r).within
    fun _ h => h.1.1).bind (fun report => ?_) w h
  refine (hmore report.events log 3 hlen).bind fun log₁ => ?_
  intro w₁ ⟨h₁, hlen₁⟩
  refine (Triple.ofExcept (Q := fun _ w => R log₁ w.store) (fun w _ h _ => h)
    fun _ h => h.1.1).bind (fun deltas => ?_) w₁ h₁
  refine (hmore _ log₁ _ hlen₁).bind fun log₂ => ?_
  intro w₂ ⟨h₂, hlen₂⟩
  rw [List.length_map] at hlen₂
  refine (hmore _ log₂ _ hlen₂).bind (fun log₃ => ?_) w₂ h₂
  exact .pure fun w h => ⟨h.1.1.1, fun hs => ⟨h.1.1.2 hs, h.1.2⟩⟩

/-- A request that is to be stored repeats a stored one: normalized and redacted, it is alike. -/
def Repeats (host : Host Mode) (engine : ResponseEngine Mode Cache) (s : MemoryGatewayStore Mode)
    (request : GatewayRequest) : Prop :=
  ∃ r, readResponseRequest host engine s request = .ok r ∧ r.store ∧
    ∃ id v, s.request id = some v ∧ v.Alike (redactedGatewayRequest r.request)

/-- The stored response of an execution completes the ledger. -/
theorem storeFinalResponse_spec (hcf : host.CollisionFree) {p : RunPrologue} {run : GatewayRun}
    {log : EventLog Mode} (responseId : String) (body : List UInt8)
    (hminted : p.recordedRequest.id.isSome ∧ p.recordedRequest.timestampMs.isSome)
    (hstarts : Starts p.recordedRequest log) :
    Triple
      (fun w : Work Mode Cache ResponseIdGenerators => Addressed host w.store ∧
        Complete w.store ∧ Grows base w.store ∧ Opened w.store p run ∧
        Recorded w.store p.runId log)
      (storeFinalResponse host p log responseId (.json 200 body))
      (fun _ w => Addressed host w.store ∧ Complete w.store ∧ Grows base w.store)
      (fun w => Addressed host w.store ∧ Complete w.store ∧ Grows base w.store) := by
  let P (s : MemoryGatewayStore Mode) : Prop := Addressed host s ∧ Complete s ∧ Grows base s ∧
    Opened s p run ∧ Recorded s p.runId log
  refine (Route.kernel_spec (P := fun _ => P) fun _ h => ⟨h.1, h.2.1, h.2.2.1⟩).bind fun cid => ?_
  rintro w ⟨hcid, haddr, hcomplete, hgrows, hopened, hrecorded⟩
  let record : StoredGatewayResponse :=
    { StoredGatewayResponse.new responseId cid (.json 200 body) with
      requestContentId := some p.requestContentId
      runContentId := some p.runContentId
      eventContentIds := log.contentIds }
  obtain ⟨haddr', hgrows'⟩ := Growing.putResponseObject hcf haddr (r := record) rfl hcid
  refine ⟨haddr', ?_, hgrows.trans hgrows'⟩
  intro x r hr
  rcases get?_insert_inv hr with ⟨-, rfl⟩ | hr
  · refine ⟨p.recordedRequest, run, log, ?_⟩
    exact {
      resolvesResponse := SortedMap.get?_insert_self _ _ _
      resolvesRequest := by
        rw [hopened.requestContentId]
        exact ⟨rfl, hgrows'.request hopened.resolvesRequest⟩
      resolvesRun := ⟨_, rfl, hgrows'.run hopened.resolvesRun⟩
      resolvesEvents := ⟨rfl, by rw [hopened.runId]; exact hrecorded.mono hgrows'⟩
      minted := hminted
      starts := hstarts }
  · obtain ⟨request, run', log', ht⟩ := hcomplete x r hr
    exact ⟨request, run', log', ht.mono hgrows'⟩

theorem Complete.of_growing {s : MemoryGatewayStore Mode} (h : Complete base)
    (hg : Growing host base s) : Complete s := by
  intro x record hr
  rw [MemoryGatewayStore.responseObject, hg.objects] at hr
  obtain ⟨request, run, log, ht⟩ := h x record hr
  exact ⟨request, run, log, ht.mono hg.grows⟩

/-- An execution that does not repeat a stored request keeps the ledger. -/
theorem tryExecuteResponseRequest_spec (hcf : host.CollisionFree)
    (engine : ResponseEngine Mode Cache) (capabilities : CapabilitySet) (request : GatewayRequest)
    (hbase : Addressed host base) (hcomplete : Complete base)
    (hnew : ¬Repeats host engine base request) :
    Triple (fun w : Work Mode Cache ResponseIdGenerators => w.store = base)
      (tryExecuteResponseRequest host engine capabilities request)
      (fun _ w => Addressed host w.store ∧ Complete w.store ∧ Grows base w.store)
      (fun w => Addressed host w.store ∧ Complete w.store ∧ Grows base w.store) := by
  have hdone (w : Work Mode Cache ResponseIdGenerators) (h : Growing host base w.store) :
      Addressed host w.store ∧ Complete w.store ∧ Grows base w.store :=
    ⟨h.addressed, hcomplete.of_growing h, h.grows⟩
  refine Triple.bind (Q := fun r w => readResponseRequest host engine base request = .ok r ∧
    w.store = base) (.observe (fun w r hw hr => ⟨hw ▸ hr, hw⟩) fun w hw => hdone w ?_) fun r => ?_
  · rw [hw]
    exact .refl hbase
  intro w ⟨hr, hw⟩
  have hunlike : r.store → ∀ id v, base.request id = some v →
      ¬v.Alike (redactedGatewayRequest r.request) :=
    fun hs id v hv hlike => hnew ⟨r, hr, hs, id, v, hv, hlike⟩
  refine ((beginRun_spec hcf hbase r.request none r.store hunlike).weaken (fun _ h => h)
    (fun _ _ h => h) hdone).bind (fun p => ?_) w hw
  rintro w₁ ⟨⟨hg₁, hopened⟩, hminted⟩
  -- the run grows from the store the prologue has left
  let R (x : EventLog Mode × Expr Mode) (s : MemoryGatewayStore Mode) : Prop :=
    Growing host w₁.store s ∧ (r.store → Recorded s p.runId x.1 ∧ Starts p.recordedRequest x.1)
  have herr {x : EventLog Mode × Expr Mode} (w : Work Mode Cache ResponseIdGenerators)
      (h : R x w.store) : Addressed host w.store ∧ Complete w.store ∧ Grows base w.store :=
    hdone w (hg₁.trans h.1)
  refine ((recordRun_spec hcf engine capabilities r p).weaken (fun _ h => h) (fun _ _ h => h)
    fun w h => hdone w (hg₁.trans h)).bind (fun x => ?_) w₁ (.refl hg₁.addressed)
  refine ((Route.Keeps.mint (P := fun _ => R x) fun _ _ _ h => h).within herr).bind
    fun responseId => ?_
  refine ((Route.Keeps.nowMs (P := fun _ => R x) host).within herr).bind
    fun ms => ?_
  refine (Route.kernel_spec (P := fun _ => R x) herr).bind
    fun body => ?_
  let D (s : MemoryGatewayStore Mode) : Prop := Addressed host s ∧ Complete s ∧ Grows base s
  refine Triple.bind (Q := fun _ w => D (Work.store w)) ?_ fun cid => ?_
  · cases hs : r.store with
    | false => exact .pure fun w ⟨_, h⟩ => herr w h
    | true =>
      rintro w₂ ⟨-, hg₂, hlog⟩
      obtain ⟨hrecorded, hstarts⟩ := hlog hs
      obtain ⟨run, hopened⟩ := hopened hs
      have hbase₂ := hdone w₂ (hg₁.trans hg₂)
      exact storeFinalResponse_spec hcf responseId body hminted hstarts w₂
        ⟨hbase₂.1, hbase₂.2.1, hbase₂.2.2, hopened.mono hg₂.grows, hrecorded⟩
  · refine Triple.bind (Q := fun _ w => D (Work.store w)) ?_ fun response => .pure fun _ h => h
    cases r.stream with
    | false => exact .pure fun _ h => h
    | true =>
      exact ((Route.Keeps.kernel (P := fun _ => D) _).within fun _ h => h).bind
        fun _ => .pure fun _ h => h

end

/-- One executed request that does not repeat a stored one, with any id generators, any cache and
any position of the clock. -/
inductive Executes (host : Host Mode) (engine : ResponseEngine Mode Cache) :
    MemoryGatewayStore Mode → MemoryGatewayStore Mode → Prop
  | execute (capabilities : CapabilitySet) (request : GatewayRequest)
      (w : Work Mode Cache ResponseIdGenerators) (h : ¬Repeats host engine w.store request) :
      Executes host engine w.store
        (executeResponseRequest host engine capabilities request w).2.store

/-- One request keeps the ledger. -/
theorem Executes.keeps {host : Host Mode} (hcf : host.CollisionFree)
    {engine : ResponseEngine Mode Cache} {s s' : MemoryGatewayStore Mode}
    (h : Executes host engine s s') (haddr : Addressed host s) (hcomplete : Complete s) :
    Addressed host s' ∧ Complete s' ∧ Grows s s' := by
  obtain ⟨capabilities, request, w, hnew⟩ := h
  have hspec := (tryExecuteResponseRequest_spec hcf engine capabilities request haddr hcomplete
    hnew).final rfl
  rw [executeResponseRequest]
  split
  · rename_i hx; rw [hx] at hspec; exact hspec
  · rename_i hx; rw [hx] at hspec; exact hspec

theorem Addressed.new (host : Host Mode) : Addressed host (.new : MemoryGatewayStore Mode) :=
  ⟨nofun, nofun, nofun, nofun⟩

theorem Executes.run_keeps {host : Host Mode} (hcf : host.CollisionFree)
    {engine : ResponseEngine Mode Cache} {s s' : MemoryGatewayStore Mode}
    (h : Relation.ReflTransGen (Executes host engine) s s') (haddr : Addressed host s)
    (hcomplete : Complete s) : Addressed host s' ∧ Complete s' ∧ Grows s s' := by
  induction h with
  | refl => exact ⟨haddr, hcomplete, .refl _⟩
  | tail _ hstep ih =>
    obtain ⟨haddr', hcomplete', hgrows⟩ := ih
    obtain ⟨haddr'', hcomplete'', hgrows'⟩ := hstep.keeps hcf haddr' hcomplete'
    exact ⟨haddr'', hcomplete'', hgrows.trans hgrows'⟩

/-- In every run of requests none of which repeats a stored one, every stored response leads to
its request, run and events, and what a content id resolves to never changes. -/
theorem ledger_complete_immutable {host : Host Mode} (hcf : host.CollisionFree)
    {engine : ResponseEngine Mode Cache} {s s' : MemoryGatewayStore Mode}
    (h : Relation.ReflTransGen (Executes host engine) .new s)
    (h' : Relation.ReflTransGen (Executes host engine) s s') : Complete s ∧ Grows s s' := by
  obtain ⟨haddr, hcomplete, -⟩ := Executes.run_keeps hcf h (.new host) fun _ _ h => by cases h
  exact ⟨hcomplete, (Executes.run_keeps hcf h' haddr hcomplete).2.2⟩

/-! ## A repeated request -/

namespace Sample

/-- A request to store the response of the echo model. -/
def body : List UInt8 := Text.utf8
  "\x7b\"input\":\"hi\",\"model\":\"fixture/echo\",\"store\":true\x7d"

def object : JsonObject :=
  [("input", .string "hi"), ("model", .string "fixture/echo"), ("store", .bool true)]

def request : GatewayRequest := .new "POST" "/v1/responses" [] body

def plan : Expr Unit := .list [.symbol (.new "plan/atom"), .string "fixture/echo"]

def modelResponse : Expr Unit :=
  .map [entry "content"
    (.list [.map [entry "type" (.symbol (.new "text")), entry "text" (.string "hi")]])]

def recorded (n : Nat) : GatewayRequest :=
  request.withMetadata (GatewayIdGenerator.format "gwreq" n) 7

def runId (n : Nat) : String := GatewayIdGenerator.format "gwrun" n

/-- The six events of the `n`-th run. -/
def events (n : Nat) : List (GatewayEvent Unit) :=
  let inputs : List (EventInput Unit) :=
    [⟨.new "request-start", (recorded n).toExpr⟩, ⟨.new "plan-start", plan⟩,
      ⟨.new "model-start", .string "fixture/echo"⟩, ⟨.new "delta", .string "hi"⟩,
      ⟨.new "usage", .nil⟩, ⟨.new "final", modelResponse⟩]
  inputs.mapIdx fun i input =>
    ⟨GatewayIdGenerator.format "gwevt" (6 * (n - 1) + i + 1), runId n, i, input.kind, input.payload,
      7⟩

def response (n : Nat) : GatewayResponse := .json 200 (Text.utf8 (toString n))

def requestId : ContentId := .ofByte (.new "sha256") 0

/-- Everything that gets a content id when the request is executed twice. -/
def known : List (Expr Unit) :=
  normalizeRequestExpr request.toExpr ::
    [1, 2].flatMap fun n =>
      (GatewayRun.new (runId n) requestId 7).toExpr Text.hex :: (response n).toExpr ::
        (events n).map GatewayEvent.toExpr

def host : Host Unit where
  encodeFrame e :=
    match known.findIdx? (· == e) with
    | some i => .ok [UInt8.ofNat i]
    | none => .error "unknown expression"
  contentId
    | .bytes [b] => .ok (.ofByte (.new "sha256") b)
    | _ => .error "unknown frame"
  hexEncode := Text.hex
  sha256 bytes := bytes
  serde := {
    fromSlice bytes := if bytes = body then .ok (.object object) else .error "expected value"
    canonicalJsonBytes _ := body
    toText _ := "" }
  utf8Error _ := "invalid utf-8"
  exprField
    | .map entries, name => (entriesNamed name entries).head?
    | _, _ => none
  clock _ := .ok 7
  embeddingForText _ := []
  searchVectorStore _ _ _ := []

def engine : ResponseEngine Unit Unit where
  decodeOpenaiRequest _ := .ok .nil
  parsePlan _ := .ok plan
  checkPlan _ := .ok ()
  evaluate _ _ _ _ := pure ⟨modelResponse, []⟩
  encodeOpenaiResponsesResponse _ responseId _ :=
    .ok (Text.utf8 (if responseId = GatewayIdGenerator.format "resp" 1 then "1" else "2"))
  encodeGatewayEventsSse _ _ _ := .ok []

def work : Work Unit Unit ResponseIdGenerators := ⟨.new, (), .deterministic 1, 0⟩

abbrev once : ResponseExecution Unit × Work Unit Unit ResponseIdGenerators :=
  executeResponseRequest host engine ∅ request work

abbrev twice : ResponseExecution Unit × Work Unit Unit ResponseIdGenerators :=
  executeResponseRequest host engine ∅ request once.2

/-- What the two executions answer and store. -/
theorem executed :
    once.2.store.responseObjects.size = 1 ∧ once.1.response.status = 200 ∧
      twice.1.response.status = 200 ∧ once.2.store.request requestId = some (recorded 1) ∧
      twice.2.store.request requestId = some (recorded 2) ∧ recorded 1 ≠ recorded 2 := by
  decide +kernel

theorem host_collisionFree : host.CollisionFree := by
  intro e e' id h h'
  have hframe {e : Expr Unit} (h : host.contentIdForExpr e = .ok id) :
      ∃ i, known[i]? = some e ∧ i < known.length ∧ id = .ofByte (.new "sha256") (UInt8.ofNat i) := by
    obtain ⟨frame, hf, hid⟩ := Except.bind_eq_ok_iff.mp h
    simp only [host] at hf
    split at hf
    · rename_i i hi
      cases hf
      cases hid
      obtain ⟨hlt, heq, -⟩ := List.findIdx?_eq_some_iff_getElem.mp hi
      exact ⟨i, by rw [List.getElem?_eq_getElem hlt, eq_of_beq heq], hlt, rfl⟩
    · cases hf
  obtain ⟨i, hi, hlt, rfl⟩ := hframe h
  obtain ⟨j, hj, hlt', heq⟩ := hframe h'
  have hlen : known.length = 17 := by decide +kernel
  have hij : i = j := by
    have hbytes := congrArg (fun id => (ContentId.bytes id).head?) heq
    simp only [ContentId.ofByte, List.head?_replicate, if_neg (by decide : ¬(32 : Nat) = 0),
      Option.some.injEq] at hbytes
    have := congrArg UInt8.toNat hbytes
    simp only [UInt8.toNat_ofNat'] at this
    omega
  subst hij
  exact Option.some.inj (hi.symm.trans hj)

end Sample

theorem ledger_complete_immutable_once :
    Sample.host.CollisionFree ∧ Sample.once.2.store.responseObjects.size = 1 ∧
      Complete Sample.once.2.store ∧ Grows Sample.once.2.store Sample.once.2.store := by
  have hnew : ¬Repeats Sample.host Sample.engine Sample.work.store Sample.request := by
    rintro ⟨r, -, -, id, v, hv, -⟩
    exact Option.some_ne_none v (hv.symm.trans (SortedMap.get?_empty id))
  have hstep := Executes.execute ∅ Sample.request Sample.work hnew
  have hsize := Sample.executed.1
  generalize Sample.once.2.store = s at hstep hsize ⊢
  exact ⟨Sample.host_collisionFree, hsize,
    ledger_complete_immutable Sample.host_collisionFree (.single hstep) .refl⟩

/-- Executed twice, the request resolves to what the second run minted, also for the first. -/
theorem repeated_request_replaced :
    Sample.host.CollisionFree ∧ Sample.once.1.response.status = 200 ∧
      Sample.twice.1.response.status = 200 ∧
      Sample.twice.2.store.request Sample.requestId = some (Sample.recorded 2) ∧
      ¬Grows Sample.once.2.store Sample.twice.2.store := by
  obtain ⟨-, honce, htwice, hfirst, hsecond, hne⟩ := Sample.executed
  refine ⟨Sample.host_collisionFree, honce, htwice, hsecond, fun hg => ?_⟩
  exact hne (Option.some.inj ((hg.request hfirst).symm.trans hsecond))

end SimAgentNet.OpenaiServer
