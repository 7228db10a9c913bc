import SimAgentNet.OpenaiServer.Ledger
import SimAgentNet.OpenaiServer.Replay

/-! # What a route writes

The durable objects are the files, batches, threads, vector stores and stored responses, each
under an id of its own. Most steps of a route leave them; this module says for each route which
objects it writes, and under which ids. -/

namespace SimAgentNet.OpenaiServer

open Effect (Triple)

variable {Mode Cache Ids : Type}

/-- The durable objects are the same; the tables of the ledger and of the thread messages may
differ. -/
structure SameObjects (s s' : MemoryGatewayStore Mode) : Prop where
  files : s'.files = s.files
  fileBytes : s'.fileBytes = s.fileBytes
  batches : s'.batches = s.batches
  threads : s'.threads = s.threads
  vectorStores : s'.vectorStores = s.vectorStores
  responseObjects : s'.responseObjects = s.responseObjects

theorem SameObjects.refl (s : MemoryGatewayStore Mode) : SameObjects s s :=
  ⟨rfl, rfl, rfl, rfl, rfl, rfl⟩

theorem SameObjects.trans {s s' s'' : MemoryGatewayStore Mode} (h : SameObjects s s')
    (h' : SameObjects s' s'') : SameObjects s s'' :=
  ⟨h'.files.trans h.files, h'.fileBytes.trans h.fileBytes, h'.batches.trans h.batches,
    h'.threads.trans h.threads, h'.vectorStores.trans h.vectorStores,
    h'.responseObjects.trans h.responseObjects⟩

/-! ## The ledger leaves the objects -/

/-- A property that depends on the durable objects and on the generator of response ids only. -/
structure Quiet (P : GatewayRunIdGenerators → MemoryGatewayStore Mode → Prop) : Prop where
  ids : ∀ {ids ids' s}, P ids s → ids'.response = ids.response → P ids' s
  records : ∀ {ids s s'}, P ids s → SameObjects s s' → P ids s'

namespace Quiet
variable {P : GatewayRunIdGenerators → MemoryGatewayStore Mode → Prop} {host : Host Mode}

theorem appendEvent (hP : Quiet P) (runId : String) (sequence : Nat) (input : EventInput Mode)
    (stored : Bool) (log : EventLog Mode) :
    Route.Keeps P (appendEvent host runId sequence input stored log :
      Route Mode Cache GatewayRunIdGenerators (EventLog Mode)) := by
  refine .bind (.mint fun _ _ _ h => hP.ids h rfl) fun id => ?_
  refine .bind (.nowMs host) fun ms => ?_
  refine .bind (.kernel _) fun cid => ?_
  cases stored with
  | false => exact .pure _
  | true => exact .bind (.write fun _ s h => hP.records h ⟨rfl, rfl, rfl, rfl, rfl, rfl⟩) fun _ => .pure _

theorem appendEvents (hP : Quiet P) (runId : String) (stored : Bool) (sequence : Nat)
    (inputs : List (EventInput Mode)) (log : EventLog Mode) :
    Route.Keeps P (appendEvents host runId stored sequence inputs log :
      Route Mode Cache GatewayRunIdGenerators (EventLog Mode)) := by
  induction inputs generalizing sequence log with
  | nil => exact .pure _
  | cons input inputs ih => exact .bind (hP.appendEvent _ _ _ _ _) fun log' => ih _ _

theorem beginRun (hP : Quiet P) (request : GatewayRequest) (status : Option Symbol)
    (stored : Bool) :
    Route.Keeps P (beginRun host request status stored :
      Route Mode Cache GatewayRunIdGenerators RunPrologue) := by
  refine .bind (.mint fun _ _ _ h => hP.ids h rfl) fun reqId => ?_
  refine .bind (.nowMs host) fun ms => ?_
  refine .bind (.kernel _) fun cid => ?_
  have hrest (p : GatewayRequest) : Route.Keeps P (openRun host status stored p cid :
      Route Mode Cache GatewayRunIdGenerators RunPrologue) := by
    unfold openRun
    refine .bind (.mint fun _ _ _ h => hP.ids h rfl) fun runId => ?_
    refine .bind (.nowMs host) fun ms => ?_
    refine .bind (.kernel _) fun runCid => ?_
    cases stored with
    | false => exact .pure _
    | true => exact .bind (.write fun _ s h => hP.records h ⟨rfl, rfl, rfl, rfl, rfl, rfl⟩) fun _ => .pure _
  cases stored with
  | false => exact hrest _
  | true => exact .bind (.write fun _ s h => hP.records h ⟨rfl, rfl, rfl, rfl, rfl, rfl⟩) fun _ => hrest _

theorem recordRun (hP : Quiet P) (engine : ResponseEngine Mode Cache) (capabilities : CapabilitySet)
    (r : ResponseRequest Mode) (p : RunPrologue) :
    Route.Keeps P (recordRun host engine capabilities r p) := by
  refine .bind (hP.appendEvents _ _ _ _ _) fun log => ?_
  refine .bind (evaluatePlan_keeps _ _ _) fun report => ?_
  refine .bind (hP.appendEvents _ _ _ _ _) fun log => ?_
  refine .bind (.ofExcept _) fun deltas => ?_
  refine .bind (hP.appendEvents _ _ _ _ _) fun log => ?_
  exact .bind (hP.appendEvents _ _ _ _ _) fun log => .pure _

theorem recordRouteExecution (hP : Quiet P) (request : GatewayRequest)
    (record : RouteRunRecord Mode) :
    Route.Keeps P (recordRouteExecution host request record :
      Route Mode Cache GatewayRunIdGenerators GatewayResponse) := by
  refine .bind (hP.beginRun _ _ _) fun prologue => ?_
  refine .bind (hP.appendEvents _ _ _ _ _) fun log => ?_
  refine .bind (hP.appendEvent _ _ _ _ _) fun _ => ?_
  cases record.storeRecord with
  | false => exact .pure _
  | true =>
    refine .bind (.kernel _) fun id => ?_
    exact .bind (.write fun _ s h => hP.records h ⟨rfl, rfl, rfl, rfl, rfl, rfl⟩) fun _ => .pure _

end Quiet

/-! ## Executions -/

/-- The generator after the next id. -/
def GatewayIdGenerator.succ (g : GatewayIdGenerator) : GatewayIdGenerator :=
  { g with next := g.next + 1 }

/-- The next id of a generator. -/
def GatewayIdGenerator.peek (g : GatewayIdGenerator) : String := format g.stem g.next

/-- A request whose response is to be stored and streamed. -/
def StoresStream (host : Host Mode) (engine : ResponseEngine Mode Cache)
    (s : MemoryGatewayStore Mode) (request : GatewayRequest) : Prop :=
  ∃ r, readResponseRequest host engine s request = .ok r ∧ r.store ∧ r.stream

/-- What an execution does to the durable objects, with the response id it reports. A request is
refused or fails before an id is minted; or an id is minted, and the response is stored under it
or not. A stored response that could not be streamed is not reported. -/
inductive Executed (host : Host Mode) (engine : ResponseEngine Mode Cache)
    (request : GatewayRequest) (g : GatewayIdGenerator) (s : MemoryGatewayStore Mode) :
    GatewayIdGenerator → MemoryGatewayStore Mode → Option String → Prop
  | refused (h : SameObjects s s') : Executed host engine request g s g s' none
  | minted (h : SameObjects s s') (hid : reported = none ∨ reported = some g.peek) :
      Executed host engine request g s g.succ s' reported
  | stored (h : SameObjects s s') (record : StoredGatewayResponse)
      (hrecord : record.responseId = g.peek) (howner : record.ownerKeyId = none) :
      Executed host engine request g s g.succ (s'.putResponseObject record) (some g.peek)
  | unreported (h : SameObjects s s') (record : StoredGatewayResponse)
      (hrecord : record.responseId = g.peek) (howner : record.ownerKeyId = none)
      (hstream : StoresStream host engine s request)
      (hencode : engine.encodeGatewayEventsSse events g.peek ms = .error e) :
      Executed host engine request g s g.succ (s'.putResponseObject record) none

section
variable (host : Host Mode) (engine : ResponseEngine Mode Cache) (capabilities : CapabilitySet)
  (request : GatewayRequest) {g : GatewayIdGenerator} {s : MemoryGatewayStore Mode}

theorem quiet_sameObjects (g : GatewayIdGenerator) (s : MemoryGatewayStore Mode) :
    Quiet fun ids s' => ids.response = g ∧ SameObjects s s' where
  ids h hids := ⟨hids.trans h.1, h.2⟩
  records h hs := ⟨h.1, h.2.trans hs⟩

theorem tryExecuteResponseRequest_executed :
    Triple (fun w => w.ids.response = g ∧ w.store = s)
      (tryExecuteResponseRequest host engine capabilities request)
      (fun x w => Executed host engine request g s w.ids.response w.store x.responseId)
      fun w => Executed host engine request g s w.ids.response w.store none := by
  have hrefused (w : Work Mode Cache ResponseIdGenerators)
      (h : w.ids.response = g ∧ SameObjects s w.store) :
      Executed host engine request g s w.ids.response w.store none := by
    rw [h.1]
    exact .refused h.2
  let P (ids : GatewayRunIdGenerators) (s' : MemoryGatewayStore Mode) : Prop :=
    ids.response = g ∧ SameObjects s s'
  -- after the id has been minted
  let Q (ids : GatewayRunIdGenerators) (s' : MemoryGatewayStore Mode) : Prop :=
    ids.response = g.succ ∧ SameObjects s s'
  have hP : Quiet P := quiet_sameObjects g s
  have hminted (w : Work Mode Cache ResponseIdGenerators) (h : Q w.ids w.store) :
      Executed host engine request g s w.ids.response w.store none := by
    rw [h.1]
    exact .minted h.2 (.inl rfl)
  refine Triple.bind (Q := fun r w => readResponseRequest host engine s request = .ok r ∧
    P w.ids w.store) (.observe ?_ ?_) fun r => ?_
  · rintro w r ⟨hids, rfl⟩ hr
    exact ⟨hr, hids, .refl _⟩
  · rintro w ⟨hids, rfl⟩
    exact hrefused w ⟨hids, .refl _⟩
  rintro w ⟨hr, hw⟩
  refine ((hP.beginRun _ _ _).within hrefused).bind (fun p => ?_) w hw
  refine ((hP.recordRun _ _ _ _).within hrefused).bind fun x => ?_
  refine Triple.bind (Q := fun id w => id = g.peek ∧ Q w.ids w.store) (Route.mint_spec
    (P := P) (Q := fun id ids s' => id = g.peek ∧ Q ids s')
    (E := fun ids s' => Executed host engine request g s ids.response s' none) ?_ ?_) fun responseId => ?_
  · rintro ids s' ⟨rfl, hs⟩
    exact ⟨rfl, rfl, hs⟩
  · rintro ids s' ⟨rfl, hs⟩
    exact .refused hs
  rintro w ⟨rfl, hw⟩
  refine ((Route.Keeps.nowMs (P := Q) host).within hminted).bind (fun ms => ?_) w hw
  refine ((Route.Keeps.kernel (P := Q) _).within hminted).bind fun body => ?_
  -- the response is stored or not, then streamed or not
  let R (w : Work Mode Cache ResponseIdGenerators) : Prop :=
    w.ids.response = g.succ ∧ ∃ s', SameObjects s s' ∧ (w.store = s' ∨ r.store ∧ ∃ record,
      record.responseId = g.peek ∧ record.ownerKeyId = none ∧ w.store = s'.putResponseObject record)
  refine Triple.bind (Q := fun _ w => R w) ?_ fun cid => ?_
  · cases hstored : r.store with
    | false => exact .pure fun w ⟨hids, hs⟩ => ⟨hids, _, hs, .inl rfl⟩
    | true =>
      refine ((Route.Keeps.kernel (P := Q) _).within hminted).bind fun id => ?_
      refine Triple.bind (Q := fun _ w => R w) (.modify fun w ⟨hids, hs⟩ => ?_) fun _ => .pure fun _ h => h
      exact ⟨hids, _, hs, .inr ⟨hstored, _, rfl, rfl, rfl⟩⟩
  · have hdone (response : GatewayResponse) : Triple R
        (pure {
          response, requestContentId := some p.requestContentId
          runContentId := some p.runContentId, eventContentIds := x.1.contentIds
          events := x.1.events, responseId := some g.peek
          responseCreatedAtMs := some ms, responseContentId := cid } :
          Route Mode Cache ResponseIdGenerators (ResponseExecution Mode))
        (fun x w => Executed host engine request g s w.ids.response w.store x.responseId)
        fun w => Executed host engine request g s w.ids.response w.store none := by
      refine .pure ?_
      rintro w ⟨hids, s', hs, hstore⟩
      rw [hids]
      obtain rfl | ⟨-, record, hid, howner, hstore⟩ := hstore
      · exact .minted hs (.inr rfl)
      · rw [hstore]
        exact .stored hs record hid howner
    refine Triple.bind (Q := fun _ w => R w) ?_ hdone
    cases hstream : r.stream with
    | false => exact .pure fun _ h => h
    | true =>
      intro w hw
      obtain ⟨hids, s', hs, hstore⟩ := hw
      rw [if_pos rfl, streamResponse, Route.kernel, Effect.bind_apply, Effect.ofExcept_apply]
      cases hencode : engine.encodeGatewayEventsSse x.1.events g.peek ms with
      | ok body => exact ⟨hids, s', hs, hstore⟩
      | error e =>
        rw [Except.mapError]
        dsimp only
        rw [hids]
        obtain rfl | ⟨hstored, record, hid, howner, hstore⟩ := hstore
        · exact .minted hs (.inl rfl)
        · rw [hstore]
          exact .unreported hs record hid howner ⟨r, hr, hstored, hstream⟩ hencode

theorem executeResponseRequest_executed (w : Work Mode Cache ResponseIdGenerators) :
    Executed host engine request w.ids.response w.store
      (executeResponseRequest host engine capabilities request w).2.ids.response
      (executeResponseRequest host engine capabilities request w).2.store
      (executeResponseRequest host engine capabilities request w).1.responseId := by
  have h := tryExecuteResponseRequest_executed host engine capabilities request w ⟨rfl, rfl⟩
  rw [executeResponseRequest]
  split
  · rename_i hx
    rw [hx] at h
    exact h
  · rename_i hx
    rw [hx] at h
    exact h

end

end SimAgentNet.OpenaiServer
