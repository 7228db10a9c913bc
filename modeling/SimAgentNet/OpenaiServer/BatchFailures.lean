import SimAgentNet.OpenaiServer.Batches
import SimAgentNet.OpenaiServer.JsonText

/-! # Batches that fail

Nothing fails on the way to the end of a batch but the clock and the counter of the files. Where
one of them does, the batch has been stored and stays queued. -/

namespace SimAgentNet.OpenaiServer

open Effect (Triple)

variable {Mode Cache Ids : Type}

/-- What the route takes from the printers: an object that is printed is read as an object, with
the flag that keeps it from being streamed; the encoder of responses prints an object; and bytes
have a content id. -/
structure Prints (host : Host Mode) (engine : ResponseEngine Mode Cache) : Prop where
  object : ∀ object : JsonObject, ∃ object' : JsonObject,
    host.serde.fromSlice (host.serde.canonicalJsonBytes (.object object)) = .ok (.object object') ∧
      (object.get "stream" = some (.bool false) → object'.get "stream" = some (.bool false))
  response : ∀ {response id ms body}, engine.encodeOpenaiResponsesResponse response id ms = .ok body →
    ∃ object, body = host.serde.canonicalJsonBytes (.object object)
  bytes : ∀ bytes, ∃ id, host.contentIdForExpr (.bytes bytes) = .ok id

namespace Route

/-- The readings of the clock are counted up. -/
def Later (x : Route Mode Cache Ids α) : Prop := ∀ w, w.ticks ≤ (x w).2.ticks

theorem Later.pure (a : α) : Later (Pure.pure a : Route Mode Cache Ids α) := fun _ => le_rfl

theorem Later.ofExcept (x : RouteResult α) : Later (Effect.ofExcept x : Route Mode Cache Ids α) :=
  fun _ => le_rfl

theorem Later.observe (f : Work Mode Cache Ids → RouteResult α) : Later (Effect.observe f) :=
  fun _ => le_rfl

theorem Later.kernel (x : Except String α) : Later (Route.kernel x : Route Mode Cache Ids α) :=
  fun _ => le_rfl

theorem Later.nowMs (host : Host Mode) : Later (Route.nowMs host : Route Mode Cache Ids UInt64) :=
  fun w => Nat.le_succ w.ticks

theorem Later.mint (part : Ids → GatewayIdGenerator) (put : GatewayIdGenerator → Ids → Ids) :
    Later (Route.mint part put : Route Mode Cache Ids String) := fun _ => le_rfl

theorem Later.write (f : MemoryGatewayStore Mode → MemoryGatewayStore Mode) :
    Later (Route.write f : Route Mode Cache Ids Unit) := fun _ => le_rfl

theorem Later.bind {x : Route Mode Cache Ids α} {f : α → Route Mode Cache Ids β} (hx : Later x)
    (hf : ∀ a, Later (f a)) : Later (x >>= f) := by
  intro w
  have hle := hx w
  rw [Effect.bind_apply]
  cases h : x w with
  | mk result w' =>
    rw [h] at hle
    cases result with
    | ok a => exact hle.trans (hf a w')
    | error e => exact hle

theorem Later.ite {p : Prop} [Decidable p] {x y : Route Mode Cache Ids α} (hx : Later x)
    (hy : Later y) : Later (if p then x else y) := by
  split
  · exact hx
  · exact hy

end Route

section
variable {host : Host Mode} {engine : ResponseEngine Mode Cache} {capabilities : CapabilitySet}

theorem appendEvent_later (runId : String) (sequence : Nat) (input : EventInput Mode)
    (stored : Bool) (log : EventLog Mode) :
    Route.Later (appendEvent host runId sequence input stored log :
      Route Mode Cache GatewayRunIdGenerators (EventLog Mode)) := by
  refine .bind (.mint _ _) fun id => .bind (.nowMs host) fun ms => .bind (.kernel _) fun cid => ?_
  cases stored with
  | false => exact .pure _
  | true => exact .bind (.write _) fun _ => .pure _

theorem appendEvents_later (runId : String) (stored : Bool) (sequence : Nat)
    (inputs : List (EventInput Mode)) (log : EventLog Mode) :
    Route.Later (appendEvents host runId stored sequence inputs log :
      Route Mode Cache GatewayRunIdGenerators (EventLog Mode)) := by
  induction inputs generalizing sequence log with
  | nil => exact .pure _
  | cons input inputs ih => exact .bind (appendEvent_later _ _ _ _ _) fun log' => ih _ _

theorem beginRun_later (request : GatewayRequest) (status : Option Symbol) (stored : Bool) :
    Route.Later (beginRun host request status stored :
      Route Mode Cache GatewayRunIdGenerators RunPrologue) := by
  refine .bind (.mint _ _) fun id => .bind (.nowMs host) fun ms => .bind (.kernel _) fun cid => ?_
  cases stored with
  | false =>
    exact .bind (.mint _ _) fun id => .bind (.nowMs host) fun ms => .bind (.kernel _) fun cid =>
      .pure _
  | true =>
    exact .bind (.write _) fun _ => .bind (.mint _ _) fun id => .bind (.nowMs host) fun ms =>
      .bind (.kernel _) fun cid => .bind (.write _) fun _ => .pure _

theorem recordRun_later (r : ResponseRequest Mode) (p : RunPrologue) :
    Route.Later (recordRun host engine capabilities r p) :=
  have hevaluate : Route.Later (evaluatePlan engine capabilities r) := fun _ => le_rfl
  .bind (appendEvents_later _ _ _ _ _) fun _ => .bind hevaluate fun _ =>
    .bind (appendEvents_later _ _ _ _ _) fun _ => .bind (.ofExcept _) fun _ =>
    .bind (appendEvents_later _ _ _ _ _) fun _ => .bind (appendEvents_later _ _ _ _ _) fun _ =>
    .pure _

theorem executeRoute_later (request : GatewayRequest) :
    Route.Later (onResponse (executeRoute host engine capabilities request)) := by
  have htry : Route.Later (tryExecuteResponseRequest host engine capabilities request) := by
    refine .bind (.observe _) fun r => .bind (beginRun_later _ _ _) fun p =>
      .bind (recordRun_later r p) fun x => .bind (.mint _ _) fun id => .bind (.nowMs host) fun ms =>
      .bind (.kernel _) fun body => .bind (.ite ?_ (.pure _)) fun cid =>
      .bind (.ite ?_ (.pure _)) fun response => .pure _
    · exact .bind (.kernel _) fun id => .bind (.write _) fun _ => .pure _
    · exact .bind (.kernel _) fun body => .pure _
  intro w
  have hle := htry { w with ids := w.ids.response }
  simp only [onResponse, Route.onIds, Effect.focus, executeRoute, executeResponseRequest]
  revert hle
  cases tryExecuteResponseRequest host engine capabilities request { w with ids := w.ids.response } with
  | mk result w' =>
    cases result with
    | ok execution => exact id
    | error e => exact id

theorem JsonObject.get_insert (object : JsonObject) (name name' : String) (v : Json) :
    (object.insert name v).get name' = if name' = name then some v else object.get name' :=
  SortedMap.lookup_insertEntry name name' v object

theorem JsonObject.get_remove (object : JsonObject) (name name' : String) :
    (object.remove name).get name' = if name' = name then none else object.get name' :=
  SortedMap.lookup_filter_ne name name' object

/-- The messages of a thread leave the flags of a request. -/
theorem withThreadMessages_get {s : MemoryGatewayStore Mode} {object object' : JsonObject}
    (h : withThreadMessages s object = .ok object') {name : String} (hinput : name ≠ "input")
    (hmessages : name ≠ "messages") : object'.get name = object.get name := by
  simp only [withThreadMessages] at h
  split at h
  · cases h
    rfl
  · split at h
    · cases h
    · split at h
      · cases h
        rfl
      · split at h
        · cases h
          rw [JsonObject.get_insert, if_neg hmessages, JsonObject.get_remove, if_neg hmessages]
        · split at h
          · cases h
          · cases h
            rw [JsonObject.get_insert, if_neg hmessages, JsonObject.get_remove, if_neg hinput,
              JsonObject.get_remove, if_neg hmessages]
          · cases h

/-- A batched request is not streamed. -/
theorem itemRequest_stream (hprints : Prints host engine) {item : BatchItem}
    {s : MemoryGatewayStore Mode} {r : ResponseRequest Mode}
    (h : readResponseRequest host engine s (itemRequest host item) = .ok r) : r.stream = false := by
  obtain ⟨normalized, hnormalized, h⟩ := Except.bind_eq_ok_iff.mp h
  obtain ⟨model, -, h⟩ := Except.bind_eq_ok_iff.mp h
  obtain ⟨-, -, h⟩ := Except.bind_eq_ok_iff.mp h
  obtain ⟨requestExpr, -, h⟩ := Except.bind_eq_ok_iff.mp h
  obtain ⟨plan, -, h⟩ := Except.bind_eq_ok_iff.mp h
  obtain ⟨-, -, h⟩ := Except.bind_eq_ok_iff.mp h
  cases h
  obtain ⟨object, hobject, hnormalized⟩ := Except.bind_eq_ok_iff.mp hnormalized
  obtain ⟨object', hobject', hnormalized⟩ := Except.bind_eq_ok_iff.mp hnormalized
  cases hnormalized
  let body : JsonObject := (item.body.insert "store" (.bool true)).insert "stream" (.bool false)
  have hbody : body.get "stream" = some (.bool false) :=
    (JsonObject.get_insert _ _ _ _).trans (if_pos rfl)
  obtain ⟨read, hread, hflag⟩ := hprints.object body
  have heq : object = read := by
    rw [requestObject, show (itemRequest host item).body =
      host.serde.canonicalJsonBytes (.object body) from rfl, hread] at hobject
    exact (Except.ok.inj hobject).symm
  have hget := withThreadMessages_get hobject' (by decide : "stream" ≠ "input") (by decide)
  rw [heq, hflag hbody] at hget
  simp only [hget]
  rfl

theorem responseJson_json (hprints : Prints host engine) (status : UInt16) (object : JsonObject) :
    ∃ v, responseJson host (.json status (host.serde.canonicalJsonBytes (.object object))) = .ok v := by
  obtain ⟨object', hobject, -⟩ := hprints.object object
  exact ⟨.object object', by rw [responseJson, GatewayResponse.json, GatewayResponse.new, hobject]⟩

/-- Whatever becomes of a batched request, it is answered with JSON. -/
theorem executeResponseRequest_json (hprints : Prints host engine) (item : BatchItem)
    (w : Work Mode Cache ResponseIdGenerators) :
    ∃ v, responseJson host (executeResponseRequest host engine capabilities
      (itemRequest host item) w).1.response = .ok v := by
  cases hx : tryExecuteResponseRequest host engine capabilities (itemRequest host item) w with
  | mk result w' =>
    cases result with
    | error e =>
      rw [executeResponseRequest, hx]
      exact responseJson_json hprints _ _
    | ok execution =>
      have hexecution : ∃ status object, execution.response =
          .json status (host.serde.canonicalJsonBytes (.object object)) := by
        obtain ⟨r, w₁, hr, hx⟩ := Effect.bind_eq_ok_iff.mp hx
        obtain ⟨p, w₂, -, hx⟩ := Effect.bind_eq_ok_iff.mp hx
        obtain ⟨x, w₃, -, hx⟩ := Effect.bind_eq_ok_iff.mp hx
        obtain ⟨responseId, w₄, -, hx⟩ := Effect.bind_eq_ok_iff.mp hx
        obtain ⟨ms, w₅, -, hx⟩ := Effect.bind_eq_ok_iff.mp hx
        obtain ⟨body, w₆, hbody, hx⟩ := Effect.bind_eq_ok_iff.mp hx
        obtain ⟨cid, w₇, -, hx⟩ := Effect.bind_eq_ok_iff.mp hx
        obtain ⟨response, w₈, hresponse, hx⟩ := Effect.bind_eq_ok_iff.mp hx
        cases hx
        have hstream := itemRequest_stream hprints (Effect.observe_eq_ok_iff.mp hr).1
        rw [hstream, if_neg Bool.false_ne_true] at hresponse
        cases hresponse
        have hencode := Except.mapError_eq_ok_iff.mp (Effect.ofExcept_eq_ok_iff.mp hbody).1
        obtain ⟨object, rfl⟩ := hprints.response hencode
        exact ⟨200, object, rfl⟩
      rw [executeResponseRequest, hx]
      obtain ⟨status, object, hobject⟩ := hexecution
      rw [hobject]
      exact responseJson_json hprints status object

/-- From here on the clock can be read, and the next `n` ids of files can be minted. -/
structure Ready (host : Host Mode) (n : Nat) (w : Work Mode Cache BatchIdGenerators) : Prop where
  clock : ∀ tick, w.ticks ≤ tick → ∃ ms, host.clock tick = .ok ms
  ids : w.ids.file.next + n < 2 ^ 64

theorem Ready.later {n m : Nat} {w w' : Work Mode Cache BatchIdGenerators} (h : Ready host n w)
    (hticks : w.ticks ≤ w'.ticks) (hids : w'.ids.file.next + m ≤ w.ids.file.next + n) :
    Ready host m w' :=
  ⟨fun tick htick => h.clock tick (hticks.trans htick), hids.trans_lt h.ids⟩

theorem lineErrorRecord_ok (hprints : Prints host engine) (lineNumber : Nat) (e : OpenAiRouteError) :
    ∃ record, lineErrorRecord host lineNumber e = .ok record := by
  obtain ⟨v, hv⟩ : ∃ v, responseJson host (e.intoResponse host.serde) = .ok v :=
    responseJson_json hprints _ _
  exact ⟨_, by rw [lineErrorRecord, hv]; rfl⟩

theorem runBatchItem_ready (hprints : Prints host engine) (endpoint : String)
    (result : BatchRunResult) (line : Nat × String) (n : Nat) :
    Triple (Ready host n) (runBatchItem host engine capabilities endpoint result line)
      (fun _ w => Ready host n w) (fun _ => False) := by
  have hrecord {x : RouteResult Json} (hx : ∃ record, x = .ok record) (f : Json → BatchRunResult) :
      Triple (Ready host n) (Effect.ofExcept x >>= fun record => pure (f record) :
        Route Mode Cache BatchIdGenerators BatchRunResult) (fun _ w => Ready host n w)
        (fun _ => False) := by
    obtain ⟨record, rfl⟩ := hx
    exact fun w h => h
  rw [runBatchItem]
  split
  · rename_i item _
    let answered (execution : ResponseExecution Mode) : Prop :=
      ∃ v, responseJson host execution.response = .ok v
    refine Triple.bind (Q := fun execution w => answered execution ∧ Ready host n w) ?_
      fun execution => ?_
    · intro w h
      exact ⟨executeResponseRequest_json hprints item _, h.later (executeRoute_later _ w) le_rfl⟩
    rintro w ⟨⟨v, hv⟩, h⟩
    cases isSuccess execution.response.status with
    | true => exact hrecord ⟨_, by rw [outputRecord, hv]; rfl⟩ _ w h
    | false => exact hrecord ⟨_, by rw [responseErrorRecord, hv]; rfl⟩ _ w h
  · exact hrecord (lineErrorRecord_ok hprints _ _) _

theorem runBatchItems_ready (hprints : Prints host engine) (endpoint : String)
    (lines : List (Nat × String)) (result : BatchRunResult) (n : Nat) :
    Triple (Ready host n) (runBatchItems host engine capabilities endpoint lines result)
      (fun _ w => Ready host n w) (fun _ => False) := by
  induction lines generalizing result with
  | nil => exact .pure fun _ h => h
  | cons line lines ih =>
    exact (runBatchItem_ready hprints endpoint result line n).bind fun result' => ih result'

theorem nowMs_ready (n : Nat) :
    Triple (Ready host n) (Route.nowMs host : Route Mode Cache BatchIdGenerators UInt64)
      (fun _ w => Ready host n w) (fun _ => False) := by
  intro w h
  obtain ⟨ms, hms⟩ := h.clock w.ticks le_rfl
  rw [Route.nowMs, hms]
  exact h.later (Nat.le_succ _) le_rfl

theorem storeJsonlFile_ready (hprints : Prints host engine) (batchId ending purpose : String)
    (records : List Json) (n : Nat) :
    Triple (Ready host (n + 1)) (storeJsonlFile host batchId ending purpose records)
      (fun _ (w : Work Mode Cache BatchIdGenerators) => Ready host n w) (fun _ => False) := by
  rw [storeJsonlFile]
  split
  · exact .pure fun w h => h.later le_rfl (by omega)
  · obtain ⟨contentId, hcontent⟩ :=
      hprints.bytes (Text.utf8 ("\n".intercalate (records.map host.serde.toText) ++ "\n"))
    refine Triple.bind (Q := fun _ w => Ready host (n + 1) w) ?_ fun _ => ?_
    · simp only [hcontent]
      exact fun w h => h
    refine Triple.bind (Q := fun _ w => Ready host n w) ?_ fun id => ?_
    · intro w h
      have hroom : w.ids.file.next + 1 < 2 ^ 64 := by
        have := h.ids
        omega
      simp only [nextBatchFileId, Route.mint, GatewayIdGenerator.nextId, if_pos hroom]
      exact h.later le_rfl (by simp only; omega)
    · exact (nowMs_ready n).bind fun ms => .bind (Q := fun _ w => Ready host n w)
        (.modify fun w h => h.later le_rfl le_rfl) fun _ => .pure fun _ h => h

theorem completeBatch_ready (hprints : Prints host engine) (batch : GatewayBatch)
    (lines : List (Nat × String)) :
    Triple (Ready host 2) (completeBatch host engine capabilities batch lines)
      (fun _ w => Ready host 0 w) (fun _ => False) := by
  refine (runBatchItems_ready hprints batch.endpoint lines _ 2).bind fun result => ?_
  refine (storeJsonlFile_ready hprints _ _ _ _ 1).bind fun outputFileId => ?_
  refine (storeJsonlFile_ready hprints _ _ _ _ 0).bind fun errorFileId => ?_
  refine (nowMs_ready 0).bind fun ms => ?_
  exact .bind (Q := fun _ w => Ready host 0 w) (.modify fun w h => h.later le_rfl le_rfl)
    fun _ => .pure fun _ h => h

/-- Unless the batch is deferred, the clock can be read after the batch is queued, and two ids of
files can be minted. -/
def Lasts (host : Host Mode) (request : GatewayRequest) (w : Work Mode Cache BatchIdGenerators) :
    Prop :=
  ∀ r, readBatchRequest host w.store request = .ok r → deferred r.object = false →
    (∀ tick, w.ticks < tick → ∃ ms, host.clock tick = .ok ms) ∧ w.ids.file.next + 2 < 2 ^ 64

/-- A batch that lasts is not left behind. -/
theorem createBatch_error (hprints : Prints host engine) {request : GatewayRequest}
    {w w' : Work Mode Cache BatchIdGenerators} {e : OpenAiRouteError} (hlasts : Lasts host request w)
    (h : createBatch host engine capabilities request w = (.error e, w')) : w'.store = w.store := by
  have hqueues : Triple (fun w' => w' = w) (createBatch host engine capabilities request)
      (fun _ _ => True) fun w' => w'.store = w.store := by
    refine createBatch_queues request w (fun _ h => h) (fun _ _ _ _ _ _ => trivial)
      fun r ms hr hrun => ?_
    obtain ⟨hclock, hids⟩ := hlasts r hr hrun
    refine (completeBatch_ready hprints _ _).weaken ?_ (fun _ _ _ => trivial) nofun
    rintro w₁ ⟨-, hfile, hticks⟩
    exact ⟨fun tick htick => hclock tick (by omega), by rwa [hfile]⟩
  have hfinal := hqueues w rfl
  rw [h] at hfinal
  exact hfinal

/-- In every run in which no batch takes the id of a file that another one names, the accounts of
every stored batch balance; a batch that cannot be created leaves nothing behind while the clock
and the ids last; and a cancellation leaves completed batches and is repeated without effect. -/
theorem batches_balance (hprints : Prints host engine) {s : MemoryGatewayStore Mode}
    (h : BatchRuns host engine s) :
    (∀ id batch, s.batch id = some batch → Balanced host engine s batch) ∧
    (∀ capabilities request (w w' : Work Mode Cache BatchIdGenerators) e, w.store = s →
      Lasts host request w → createBatch host engine capabilities request w = (.error e, w') →
      w'.store = s) ∧
    ∀ batchId (w : Work Mode Cache Unit), w.store = s →
      (∀ id batch, s.batch id = some batch → batch.status = .completed →
        (cancelBatch host batchId w).2.store.batch id = some batch) ∧
      ∀ response w', cancelBatch host batchId w = (.ok response, w') →
        ∀ w₂ : Work Mode Cache Unit, w₂.store = w'.store →
          cancelBatch host batchId w₂ = (.ok response, w₂) := by
  have hbalances := h.balances
  refine ⟨fun id batch hb => hbalances.balanced hb, ?_, ?_⟩
  · rintro capabilities request w w' e rfl hlasts hx
    exact createBatch_error hprints hlasts hx
  · rintro batchId w rfl
    constructor
    · intro id batch hb hcompleted
      cases hx : cancelBatch host batchId w with
      | mk result w' =>
        cases result with
        | error e => rwa [cancelBatch_error hx]
        | ok response =>
          obtain ⟨batch₁, batch₂, hbatch₁, hsettles, -, hstore⟩ := cancelBatch_ok hx
          rw [hstore, MemoryGatewayStore.batch, MemoryGatewayStore.putBatch, SortedMap.get?_insert]
          split
          · rename_i heq
            have hid : id = batchId := by rw [heq, hsettles.id_eq, hbalances.keyed hbatch₁]
            rw [hid, hbatch₁] at hb
            cases hb
            cases hsettles with
            | settled => rfl
            | cancel hopen => exact absurd (.inl hcompleted) hopen
          · exact hb
    · intro response w' hx w₂ hw₂
      obtain ⟨batch, batch', hbatch, hsettles, rfl, hstore⟩ := cancelBatch_ok hx
      have hid : batch'.id = batchId := hsettles.id_eq.trans (hbalances.keyed hbatch)
      have hbatch' : w₂.store.batch batchId = some batch' := by
        rw [hw₂, hstore, ← hid]
        exact SortedMap.get?_insert_self _ _ _
      rw [cancelBatch_settled hbatch' hsettles.settled_right]
      have hsame : w₂.store.putBatch batch' = w₂.store := by
        have hbatches : w₂.store.batches.insert batch'.id batch' = w₂.store.batches := by
          refine SortedMap.ext fun k => ?_
          rw [SortedMap.get?_insert]
          split
          · rename_i heq
            rw [heq, hid]
            exact hbatch'.symm
          · rfl
        rw [MemoryGatewayStore.putBatch, hbatches]
      rw [hsame]

end

/-! ## Two batches -/

namespace Sample

def printJson (v : Json) : List UInt8 := Text.utf8 (.ofList v.text)

def batchFields (defer : Bool) : JsonObject :=
  [("defer", .bool defer), ("endpoint", .string "/v1/responses"),
    ("input_file_id", .string "file_000001"), ("stream", .bool false)]

def batchRequest (defer : Bool) : GatewayRequest :=
  .new "POST" "/v1/batches" [] (printJson (.object (batchFields defer)))

/-- A host that reads the two requests. -/
def batchHost (clock : Nat → Except String UInt64) : Host Unit :=
  { host with
    encodeFrame := fun
      | .bytes bytes => .ok bytes
      | _ => .error "unknown expression"
    contentId := fun _ => .ok (.ofByte (.new "sha256") 0)
    serde := {
      fromSlice := fun bytes =>
        .ok (.object (batchFields (bytes = printJson (.object (batchFields true)))))
      canonicalJsonBytes := printJson
      toText := fun v => .ofList v.text }
    clock }

def batchEngine : ResponseEngine Unit Unit :=
  { engine with
    encodeOpenaiResponsesResponse := fun _ responseId _ =>
      .ok (printJson (.object [("id", .string responseId)])) }

theorem batchHost_canonicalJsonBytes (clock : Nat → Except String UInt64) :
    (batchHost clock).serde.canonicalJsonBytes = printJson := rfl

theorem batchHost_prints (clock : Nat → Except String UInt64) :
    Prints (batchHost clock) batchEngine where
  object _ := ⟨_, rfl, fun _ => rfl⟩
  response {_ id _ body} h := by
    change Except.ok (printJson (.object [("id", .string id)])) = .ok body at h
    rw [batchHost_canonicalJsonBytes]
    exact ⟨_, (Except.ok.inj h).symm⟩
  bytes _ := ⟨_, rfl⟩

/-- A store with the given input file. -/
def inputStore (input : String) : MemoryGatewayStore Unit :=
  MemoryGatewayStore.new.putFile
    ⟨"file_000001", "in.jsonl", "batch", 0, 1, .memory (.ofByte (.new "sha256") 0)⟩ (Text.utf8 input)

def batchWork (input : String) : Work Unit Unit BatchIdGenerators :=
  ⟨inputStore input, (), .deterministic 7, 0⟩

def steady (_ : Nat) : Except String UInt64 := .ok 7

/-- A deferred batch over two lines. -/
abbrev deferredBatch : Work Unit Unit BatchIdGenerators :=
  (createBatch (batchHost steady) batchEngine ∅ (batchRequest true) (batchWork "x\n\ny\n")).2

abbrev cancelledBatch : Work Unit Unit Unit :=
  (cancelBatch (batchHost steady) "batch_000007" ⟨deferredBatch.store, (), (), 1⟩).2

/-- A clock that is set back after its first reading. -/
def setBack : Nat → Except String UInt64
  | 0 => .ok 7
  | _ + 1 => .error "system clock before unix epoch"

abbrev failedBatch : RouteResult GatewayResponse × Work Unit Unit BatchIdGenerators :=
  createBatch (batchHost setBack) batchEngine ∅ (batchRequest false) (batchWork "")

/-- The first batch is deferred, and what is stored of it once it is cancelled. -/
theorem cancelled_evaluated :
    (readBatchRequest (batchHost steady) (inputStore "x\n\ny\n")
      (batchRequest true)).toOption.map (deferred ·.object) = some true ∧
    cancelledBatch.store.batch "batch_000007" = some
      ⟨"batch_000007", "file_000001", "/v1/responses", .cancelled, none, none, 7, none, some 7,
        ⟨2, 0, 0, 2⟩⟩ := by
  decide +kernel

theorem inputStore_runs {clock : Nat → Except String UInt64} (input : String) :
    BatchRuns (batchHost clock) batchEngine (inputStore input) := .start fun _ => rfl

end Sample

theorem batches_balance_cancelled :
    ∃ batch, Sample.cancelledBatch.store.batch "batch_000007" = some batch ∧
      batch.status = .cancelled ∧ batch.requestCounts = ⟨2, 0, 0, 2⟩ ∧
      Balanced (Sample.batchHost Sample.steady) Sample.batchEngine Sample.cancelledBatch.store batch := by
  obtain ⟨hdefer, hbatch⟩ := Sample.cancelled_evaluated
  have hunclaimed : Unclaimed (Sample.batchHost Sample.steady) (Sample.batchRequest true)
      (Sample.batchWork "x\n\ny\n").ids (Sample.inputStore "x\n\ny\n") := by
    intro r hr hrun
    rw [hr] at hdefer
    exact nomatch hrun.symm.trans (Option.some.inj hdefer)
  have hdeferred : BatchRuns (Sample.batchHost Sample.steady) Sample.batchEngine
      Sample.deferredBatch.store :=
    .create (Sample.batchWork "x\n\ny\n") (Sample.inputStore_runs _) ∅ (Sample.batchRequest true)
      hunclaimed
  have hruns : BatchRuns (Sample.batchHost Sample.steady) Sample.batchEngine
      Sample.cancelledBatch.store :=
    .cancel ⟨Sample.deferredBatch.store, (), (), 1⟩ hdeferred "batch_000007"
  exact ⟨_, hbatch, rfl, rfl, (batches_balance (Sample.batchHost_prints _) hruns).1 _ _ hbatch⟩

/-- When the clock fails while a batch runs, the creation is refused and the batch stays queued. -/
theorem failed_batch_stays_queued :
    Prints (Sample.batchHost Sample.setBack) Sample.batchEngine ∧
      BatchRuns (Sample.batchHost Sample.setBack) Sample.batchEngine (Sample.batchWork "").store ∧
      (Sample.batchWork "").store.batch "batch_000007" = none ∧
      Sample.failedBatch.1 = .error (.internal "system clock before unix epoch") ∧
      ∃ batch, Sample.failedBatch.2.store.batch "batch_000007" = some batch ∧
        batch.status = .queued := by
  have hbatch : Sample.failedBatch.2.store.batch "batch_000007" = some
      ⟨"batch_000007", "file_000001", "/v1/responses", .queued, none, none, 7, none, none,
        ⟨0, 0, 0, 0⟩⟩ := by
    decide +kernel
  exact ⟨Sample.batchHost_prints _, Sample.inputStore_runs _, rfl, rfl, _, hbatch, rfl⟩

end SimAgentNet.OpenaiServer
