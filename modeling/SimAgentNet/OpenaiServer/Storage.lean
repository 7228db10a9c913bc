import SimAgentNet.Data.Keyed
import SimAgentNet.OpenaiServer.Objects

/-! # The two gateway stores

`MemoryGatewayStore` keeps its records in ordered maps, `TableGatewayStore` in SIM tables, which
are finite maps from symbols to values. The eval records have content ids as keys. The memory map
uses the whole id, the table a symbol for the hexadecimal text of the digest. The hexadecimal
encoder is a parameter. -/

namespace SimAgentNet.OpenaiServer

variable {Mode : Type}

/-- In-memory gateway store. -/
structure MemoryGatewayStore (Mode : Type) where
  requests : SortedMap ContentId GatewayRequest
  runs : SortedMap ContentId GatewayRun
  events : SortedMap ContentId (GatewayEvent Mode)
  responses : SortedMap ContentId GatewayResponse
  responseObjects : SortedMap String StoredGatewayResponse
  files : SortedMap String GatewayFile
  fileBytes : SortedMap String (List UInt8)
  batches : SortedMap String GatewayBatch
  threads : SortedMap String GatewayThread
  threadMessages : SortedMap String (List GatewayThreadMessage)
  vectorStores : SortedMap String GatewayVectorStore

namespace MemoryGatewayStore

def new : MemoryGatewayStore Mode := ⟨∅, ∅, ∅, ∅, ∅, ∅, ∅, ∅, ∅, ∅, ∅⟩

def putRequest (s : MemoryGatewayStore Mode) (id : ContentId) (request : GatewayRequest) :
    MemoryGatewayStore Mode :=
  { s with requests := s.requests.insert id request }

def request (s : MemoryGatewayStore Mode) (id : ContentId) : Option GatewayRequest :=
  s.requests.get? id

def putRun (s : MemoryGatewayStore Mode) (id : ContentId) (run : GatewayRun) :
    MemoryGatewayStore Mode :=
  { s with runs := s.runs.insert id run }

def run (s : MemoryGatewayStore Mode) (id : ContentId) : Option GatewayRun := s.runs.get? id

def putEvent (s : MemoryGatewayStore Mode) (id : ContentId) (event : GatewayEvent Mode) :
    MemoryGatewayStore Mode :=
  { s with events := s.events.insert id event }

def event (s : MemoryGatewayStore Mode) (id : ContentId) : Option (GatewayEvent Mode) :=
  s.events.get? id

def putResponse (s : MemoryGatewayStore Mode) (id : ContentId) (response : GatewayResponse) :
    MemoryGatewayStore Mode :=
  { s with responses := s.responses.insert id response }

def response (s : MemoryGatewayStore Mode) (id : ContentId) : Option GatewayResponse :=
  s.responses.get? id

/-- Stores the response under its content id and the object under its public id. -/
def putResponseObject (s : MemoryGatewayStore Mode) (response : StoredGatewayResponse) :
    MemoryGatewayStore Mode :=
  { s with
    responses := s.responses.insert response.contentId response.response
    responseObjects := s.responseObjects.insert response.responseId response }

def responseObject (s : MemoryGatewayStore Mode) (responseId : String) :
    Option StoredGatewayResponse :=
  s.responseObjects.get? responseId

def putFile (s : MemoryGatewayStore Mode) (file : GatewayFile) (bytes : List UInt8) :
    MemoryGatewayStore Mode :=
  { s with
    fileBytes := s.fileBytes.insert file.id bytes
    files := s.files.insert file.id file }

def file (s : MemoryGatewayStore Mode) (fileId : String) : Option GatewayFile := s.files.get? fileId

def fileBytesOf (s : MemoryGatewayStore Mode) (fileId : String) : Option (List UInt8) :=
  s.fileBytes.get? fileId

def putBatch (s : MemoryGatewayStore Mode) (batch : GatewayBatch) : MemoryGatewayStore Mode :=
  { s with batches := s.batches.insert batch.id batch }

def batch (s : MemoryGatewayStore Mode) (batchId : String) : Option GatewayBatch :=
  s.batches.get? batchId

def putThread (s : MemoryGatewayStore Mode) (thread : GatewayThread) : MemoryGatewayStore Mode :=
  { s with threads := s.threads.insert thread.id thread }

def thread (s : MemoryGatewayStore Mode) (threadId : String) : Option GatewayThread :=
  s.threads.get? threadId

/-- Appends to the entry of the thread, which starts out empty. -/
def putThreadMessage (s : MemoryGatewayStore Mode) (message : GatewayThreadMessage) :
    MemoryGatewayStore Mode :=
  let messages := (s.threadMessages.get? message.threadId).getD []
  { s with threadMessages := s.threadMessages.insert message.threadId (messages ++ [message]) }

def threadMessagesOf (s : MemoryGatewayStore Mode) (threadId : String) :
    List GatewayThreadMessage :=
  (s.threadMessages.get? threadId).getD []

def putVectorStore (s : MemoryGatewayStore Mode) (vectorStore : GatewayVectorStore) :
    MemoryGatewayStore Mode :=
  { s with vectorStores := s.vectorStores.insert vectorStore.id vectorStore }

def vectorStore (s : MemoryGatewayStore Mode) (vectorStoreId : String) :
    Option GatewayVectorStore :=
  s.vectorStores.get? vectorStoreId

end MemoryGatewayStore

/-- The store over SIM tables, one table for each kind of record. -/
structure TableGatewayStore (Mode : Type) where
  requests : SortedMap Symbol GatewayRequest
  runs : SortedMap Symbol GatewayRun
  events : SortedMap Symbol (GatewayEvent Mode)
  responses : SortedMap Symbol GatewayResponse
  responseObjects : SortedMap Symbol StoredGatewayResponse
  files : SortedMap Symbol GatewayFile
  fileBytes : SortedMap Symbol (List UInt8)
  batches : SortedMap Symbol GatewayBatch
  threads : SortedMap Symbol GatewayThread
  threadMessages : SortedMap Symbol (List GatewayThreadMessage)
  vectorStores : SortedMap Symbol GatewayVectorStore

namespace TableGatewayStore

def new : TableGatewayStore Mode := ⟨∅, ∅, ∅, ∅, ∅, ∅, ∅, ∅, ∅, ∅, ∅⟩

section
variable (hexEncode : List UInt8 → String)

def contentIdHex (id : ContentId) : String := hexEncode id.bytes

/-- The key of an eval record: the algorithm of the id is not part of it. -/
def contentKey (id : ContentId) : Symbol := .new (contentIdHex hexEncode id)

def putRequest (s : TableGatewayStore Mode) (id : ContentId) (request : GatewayRequest) :
    TableGatewayStore Mode :=
  { s with requests := s.requests.insert (contentKey hexEncode id) request }

def request (s : TableGatewayStore Mode) (id : ContentId) : Option GatewayRequest :=
  s.requests.get? (contentKey hexEncode id)

def putRun (s : TableGatewayStore Mode) (id : ContentId) (run : GatewayRun) :
    TableGatewayStore Mode :=
  { s with runs := s.runs.insert (contentKey hexEncode id) run }

def run (s : TableGatewayStore Mode) (id : ContentId) : Option GatewayRun :=
  s.runs.get? (contentKey hexEncode id)

def putEvent (s : TableGatewayStore Mode) (id : ContentId) (event : GatewayEvent Mode) :
    TableGatewayStore Mode :=
  { s with events := s.events.insert (contentKey hexEncode id) event }

def event (s : TableGatewayStore Mode) (id : ContentId) : Option (GatewayEvent Mode) :=
  s.events.get? (contentKey hexEncode id)

def putResponse (s : TableGatewayStore Mode) (id : ContentId) (response : GatewayResponse) :
    TableGatewayStore Mode :=
  { s with responses := s.responses.insert (contentKey hexEncode id) response }

def response (s : TableGatewayStore Mode) (id : ContentId) : Option GatewayResponse :=
  s.responses.get? (contentKey hexEncode id)

def putResponseObject (s : TableGatewayStore Mode) (response : StoredGatewayResponse) :
    TableGatewayStore Mode :=
  { s with
    responses := s.responses.insert (contentKey hexEncode response.contentId) response.response
    responseObjects := s.responseObjects.insert (.new response.responseId) response }

end

def responseObject (s : TableGatewayStore Mode) (responseId : String) :
    Option StoredGatewayResponse :=
  s.responseObjects.get? (.new responseId)

def putFile (s : TableGatewayStore Mode) (file : GatewayFile) (bytes : List UInt8) :
    TableGatewayStore Mode :=
  { s with
    fileBytes := s.fileBytes.insert (.new file.id) bytes
    files := s.files.insert (.new file.id) file }

def file (s : TableGatewayStore Mode) (fileId : String) : Option GatewayFile :=
  s.files.get? (.new fileId)

def fileBytesOf (s : TableGatewayStore Mode) (fileId : String) : Option (List UInt8) :=
  s.fileBytes.get? (.new fileId)

def putBatch (s : TableGatewayStore Mode) (batch : GatewayBatch) : TableGatewayStore Mode :=
  { s with batches := s.batches.insert (.new batch.id) batch }

def batch (s : TableGatewayStore Mode) (batchId : String) : Option GatewayBatch :=
  s.batches.get? (.new batchId)

def putThread (s : TableGatewayStore Mode) (thread : GatewayThread) : TableGatewayStore Mode :=
  { s with threads := s.threads.insert (.new thread.id) thread }

def thread (s : TableGatewayStore Mode) (threadId : String) : Option GatewayThread :=
  s.threads.get? (.new threadId)

def threadMessagesOf (s : TableGatewayStore Mode) (threadId : String) :
    List GatewayThreadMessage :=
  (s.threadMessages.get? (.new threadId)).getD []

/-- Reads the messages of the thread, appends and writes the list back. -/
def putThreadMessage (s : TableGatewayStore Mode) (message : GatewayThreadMessage) :
    TableGatewayStore Mode :=
  let messages := s.threadMessagesOf message.threadId ++ [message]
  { s with threadMessages := s.threadMessages.insert (.new message.threadId) messages }

def putVectorStore (s : TableGatewayStore Mode) (vectorStore : GatewayVectorStore) :
    TableGatewayStore Mode :=
  { s with vectorStores := s.vectorStores.insert (.new vectorStore.id) vectorStore }

def vectorStore (s : TableGatewayStore Mode) (vectorStoreId : String) :
    Option GatewayVectorStore :=
  s.vectorStores.get? (.new vectorStoreId)

end TableGatewayStore

/-! ## Operations

The writing and the reading operations of the three store traits. A read leaves a store as it
is, so what it returns depends on the writes before it. -/

inductive Put (Mode : Type) where
  | request (id : ContentId) (request : GatewayRequest)
  | run (id : ContentId) (run : GatewayRun)
  | event (id : ContentId) (event : GatewayEvent Mode)
  | response (id : ContentId) (response : GatewayResponse)
  | responseObject (response : StoredGatewayResponse)
  | file (file : GatewayFile) (bytes : List UInt8)
  | batch (batch : GatewayBatch)
  | thread (thread : GatewayThread)
  | threadMessage (message : GatewayThreadMessage)
  | vectorStore (vectorStore : GatewayVectorStore)

inductive Read where
  | request (id : ContentId)
  | run (id : ContentId)
  | event (id : ContentId)
  | response (id : ContentId)
  | responseObject (responseId : String)
  | file (fileId : String)
  | fileBytes (fileId : String)
  | batch (batchId : String)
  | thread (threadId : String)
  | threadMessages (threadId : String)
  | vectorStore (vectorStoreId : String)

/-- What a read returns. -/
def Read.Result (Mode : Type) : Read → Type
  | .request _ => Option GatewayRequest
  | .run _ => Option GatewayRun
  | .event _ => Option (GatewayEvent Mode)
  | .response _ => Option GatewayResponse
  | .responseObject _ => Option StoredGatewayResponse
  | .file _ => Option GatewayFile
  | .fileBytes _ => Option (List UInt8)
  | .batch _ => Option GatewayBatch
  | .thread _ => Option GatewayThread
  | .threadMessages _ => List GatewayThreadMessage
  | .vectorStore _ => Option GatewayVectorStore

namespace MemoryGatewayStore

def put (s : MemoryGatewayStore Mode) : Put Mode → MemoryGatewayStore Mode
  | .request id request => s.putRequest id request
  | .run id run => s.putRun id run
  | .event id event => s.putEvent id event
  | .response id response => s.putResponse id response
  | .responseObject response => s.putResponseObject response
  | .file file bytes => s.putFile file bytes
  | .batch batch => s.putBatch batch
  | .thread thread => s.putThread thread
  | .threadMessage message => s.putThreadMessage message
  | .vectorStore vectorStore => s.putVectorStore vectorStore

def putAll (puts : List (Put Mode)) : MemoryGatewayStore Mode := puts.foldl put new

def read (s : MemoryGatewayStore Mode) : (r : Read) → r.Result Mode
  | .request id => s.request id
  | .run id => s.run id
  | .event id => s.event id
  | .response id => s.response id
  | .responseObject responseId => s.responseObject responseId
  | .file fileId => s.file fileId
  | .fileBytes fileId => s.fileBytesOf fileId
  | .batch batchId => s.batch batchId
  | .thread threadId => s.thread threadId
  | .threadMessages threadId => s.threadMessagesOf threadId
  | .vectorStore vectorStoreId => s.vectorStore vectorStoreId

end MemoryGatewayStore

namespace TableGatewayStore
variable (hexEncode : List UInt8 → String)

def put (s : TableGatewayStore Mode) : Put Mode → TableGatewayStore Mode
  | .request id request => s.putRequest hexEncode id request
  | .run id run => s.putRun hexEncode id run
  | .event id event => s.putEvent hexEncode id event
  | .response id response => s.putResponse hexEncode id response
  | .responseObject response => s.putResponseObject hexEncode response
  | .file file bytes => s.putFile file bytes
  | .batch batch => s.putBatch batch
  | .thread thread => s.putThread thread
  | .threadMessage message => s.putThreadMessage message
  | .vectorStore vectorStore => s.putVectorStore vectorStore

def putAll (puts : List (Put Mode)) : TableGatewayStore Mode := puts.foldl (put hexEncode) new

def read (s : TableGatewayStore Mode) : (r : Read) → r.Result Mode
  | .request id => s.request hexEncode id
  | .run id => s.run hexEncode id
  | .event id => s.event hexEncode id
  | .response id => s.response hexEncode id
  | .responseObject responseId => s.responseObject responseId
  | .file fileId => s.file fileId
  | .fileBytes fileId => s.fileBytesOf fileId
  | .batch batchId => s.batch batchId
  | .thread threadId => s.thread threadId
  | .threadMessages threadId => s.threadMessagesOf threadId
  | .vectorStore vectorStoreId => s.vectorStore vectorStoreId

end TableGatewayStore

/-! ## The tables of the eval records -/

namespace Put

/-- The writes into the table of requests. -/
def requestWrites : Put Mode → List (ContentId × GatewayRequest)
  | .request id value => [(id, value)]
  | _ => []

def runWrites : Put Mode → List (ContentId × GatewayRun)
  | .run id value => [(id, value)]
  | _ => []

def eventWrites : Put Mode → List (ContentId × GatewayEvent Mode)
  | .event id value => [(id, value)]
  | _ => []

/-- A stored response object is also a write into the table of responses. -/
def responseWrites : Put Mode → List (ContentId × GatewayResponse)
  | .response id value => [(id, value)]
  | .responseObject value => [(value.contentId, value.response)]
  | _ => []

end Put

/-- A read by content id is covered when the last write into its table with the digest of the id
is under another algorithm, and is not the value the id itself was last given. -/
def Read.Covered (puts : List (Put Mode)) : Read → Prop
  | .request id => Keyed.Shadowed ContentId.bytes id (puts.flatMap Put.requestWrites)
  | .run id => Keyed.Shadowed ContentId.bytes id (puts.flatMap Put.runWrites)
  | .event id => Keyed.Shadowed ContentId.bytes id (puts.flatMap Put.eventWrites)
  | .response id => Keyed.Shadowed ContentId.bytes id (puts.flatMap Put.responseWrites)
  | _ => False

/-- What the four maps of eval records hold after some writes. -/
theorem MemoryGatewayStore.putAll_records (puts : List (Put Mode)) :
    (putAll puts).requests = .ofList (puts.flatMap Put.requestWrites) ∧
    (putAll puts).runs = .ofList (puts.flatMap Put.runWrites) ∧
    (putAll puts).events = .ofList (puts.flatMap Put.eventWrites) ∧
    (putAll puts).responses = .ofList (puts.flatMap Put.responseWrites) := by
  induction puts using List.reverseRecOn with
  | nil => exact ⟨rfl, rfl, rfl, rfl⟩
  | append_singleton puts p ih =>
    obtain ⟨hrequests, hruns, hevents, hresponses⟩ := ih
    have hput : putAll (puts ++ [p]) = (putAll puts).put p := by simp [putAll]
    rw [hput]
    cases p with
    | request | run | event | response | responseObject =>
      simp [put, putRequest, putRun, putEvent, putResponse, putResponseObject, hrequests, hruns,
        hevents, hresponses, Put.requestWrites, Put.runWrites, Put.eventWrites, Put.responseWrites,
        Keyed.ofList_snoc]
    | file | batch | thread | threadMessage | vectorStore =>
      simpa [put, putFile, putBatch, putThread, putThreadMessage, putVectorStore,
        Put.requestWrites, Put.runWrites, Put.eventWrites, Put.responseWrites]
        using ⟨hrequests, hruns, hevents, hresponses⟩

namespace TableGatewayStore
variable {hexEncode : List UInt8 → String}

/-- The same writes under the symbols of their digests. -/
def keyed (hexEncode : List UInt8 → String) (ws : List (ContentId × α)) : List (Symbol × α) :=
  ws.map fun w => (contentKey hexEncode w.1, w.2)

theorem putAll_records (hexEncode : List UInt8 → String) (puts : List (Put Mode)) :
    (putAll hexEncode puts).requests = .ofList (keyed hexEncode (puts.flatMap Put.requestWrites)) ∧
    (putAll hexEncode puts).runs = .ofList (keyed hexEncode (puts.flatMap Put.runWrites)) ∧
    (putAll hexEncode puts).events = .ofList (keyed hexEncode (puts.flatMap Put.eventWrites)) ∧
    (putAll hexEncode puts).responses =
      .ofList (keyed hexEncode (puts.flatMap Put.responseWrites)) := by
  induction puts using List.reverseRecOn with
  | nil => exact ⟨rfl, rfl, rfl, rfl⟩
  | append_singleton puts p ih =>
    obtain ⟨hrequests, hruns, hevents, hresponses⟩ := ih
    have hput : putAll hexEncode (puts ++ [p]) = (putAll hexEncode puts).put hexEncode p := by
      simp [putAll]
    rw [hput]
    cases p with
    | request | run | event | response | responseObject =>
      simp [put, putRequest, putRun, putEvent, putResponse, putResponseObject, hrequests, hruns,
        hevents, hresponses, Put.requestWrites, Put.runWrites, Put.eventWrites, Put.responseWrites,
        keyed, Keyed.ofList_snoc]
    | file | batch | thread | threadMessage | vectorStore =>
      simpa [put, putFile, putBatch, putThread, putThreadMessage, putVectorStore,
        Put.requestWrites, Put.runWrites, Put.eventWrites, Put.responseWrites]
        using ⟨hrequests, hruns, hevents, hresponses⟩

/-- Two ids share a key exactly when they share their digest. -/
theorem contentKey_eq_iff (hhex : Function.Injective hexEncode) (a b : ContentId) :
    contentKey hexEncode a = contentKey hexEncode b ↔ a.bytes = b.bytes := by
  simp [contentKey, contentIdHex, Symbol.new, hhex.eq_iff]

end TableGatewayStore

/-! ## The tables with string ids -/

theorem Symbol.new_injective : Function.Injective Symbol.new := fun _ _ h => (Symbol.mk.inj h).2

/-- The tables with string ids answer as the maps do. -/
structure Mirrored (t : TableGatewayStore Mode) (m : MemoryGatewayStore Mode) : Prop where
  responseObjects : Keyed.Mirrors Symbol.new t.responseObjects m.responseObjects
  files : Keyed.Mirrors Symbol.new t.files m.files
  fileBytes : Keyed.Mirrors Symbol.new t.fileBytes m.fileBytes
  batches : Keyed.Mirrors Symbol.new t.batches m.batches
  threads : Keyed.Mirrors Symbol.new t.threads m.threads
  threadMessages : Keyed.Mirrors Symbol.new t.threadMessages m.threadMessages
  vectorStores : Keyed.Mirrors Symbol.new t.vectorStores m.vectorStores

theorem Mirrored.put {hexEncode : List UInt8 → String} {t : TableGatewayStore Mode}
    {m : MemoryGatewayStore Mode} (h : Mirrored t m) (p : Put Mode) :
    Mirrored (t.put hexEncode p) (m.put p) := by
  cases p with
  | request | run | event | response =>
    exact ⟨h.responseObjects, h.files, h.fileBytes, h.batches, h.threads, h.threadMessages,
      h.vectorStores⟩
  | responseObject r =>
    exact { h with responseObjects := h.responseObjects.insert Symbol.new_injective _ _ }
  | file f bs =>
    exact { h with
      files := h.files.insert Symbol.new_injective _ _
      fileBytes := h.fileBytes.insert Symbol.new_injective _ _ }
  | batch b => exact { h with batches := h.batches.insert Symbol.new_injective _ _ }
  | thread th => exact { h with threads := h.threads.insert Symbol.new_injective _ _ }
  | threadMessage msg =>
    have hread : t.threadMessagesOf msg.threadId = (m.threadMessages.get? msg.threadId).getD [] := by
      rw [TableGatewayStore.threadMessagesOf, h.threadMessages]
    refine { h with threadMessages := ?_ }
    simp only [TableGatewayStore.put, TableGatewayStore.putThreadMessage, hread]
    exact h.threadMessages.insert Symbol.new_injective _ _
  | vectorStore v =>
    exact { h with vectorStores := h.vectorStores.insert Symbol.new_injective _ _ }

theorem mirrored_putAll (hexEncode : List UInt8 → String) (puts : List (Put Mode)) :
    Mirrored (TableGatewayStore.putAll hexEncode puts) (MemoryGatewayStore.putAll puts) := by
  induction puts using List.reverseRecOn with
  | nil =>
    exact ⟨Keyed.mirrors_empty _, Keyed.mirrors_empty _, Keyed.mirrors_empty _,
      Keyed.mirrors_empty _, Keyed.mirrors_empty _, Keyed.mirrors_empty _, Keyed.mirrors_empty _⟩
  | append_singleton puts p ih =>
    simp only [TableGatewayStore.putAll, MemoryGatewayStore.putAll, List.foldl_append,
      List.foldl_cons, List.foldl_nil]
    exact ih.put p

/-- After any writes, the two stores return the same for a read exactly when the read is not
covered by a write under another algorithm. -/
theorem table_read_eq_memory_read_iff {hexEncode : List UInt8 → String}
    (hhex : Function.Injective hexEncode) (puts : List (Put Mode)) (r : Read) :
    (TableGatewayStore.putAll hexEncode puts).read hexEncode r =
      (MemoryGatewayStore.putAll puts).read r ↔ ¬r.Covered puts := by
  obtain ⟨hreq, hrun, hev, hresp⟩ := MemoryGatewayStore.putAll_records puts
  obtain ⟨treq, trun, tev, tresp⟩ := TableGatewayStore.putAll_records hexEncode puts
  have hkey := TableGatewayStore.contentKey_eq_iff hhex
  have hm := mirrored_putAll hexEncode puts
  cases r with
  | request id =>
    simp only [TableGatewayStore.read, TableGatewayStore.request, treq, MemoryGatewayStore.read,
      MemoryGatewayStore.request, hreq]
    exact Keyed.get?_map_eq_iff hkey id
  | run id =>
    simp only [TableGatewayStore.read, TableGatewayStore.run, trun, MemoryGatewayStore.read,
      MemoryGatewayStore.run, hrun]
    exact Keyed.get?_map_eq_iff hkey id
  | event id =>
    simp only [TableGatewayStore.read, TableGatewayStore.event, tev, MemoryGatewayStore.read,
      MemoryGatewayStore.event, hev]
    exact Keyed.get?_map_eq_iff hkey id
  | response id =>
    simp only [TableGatewayStore.read, TableGatewayStore.response, tresp, MemoryGatewayStore.read,
      MemoryGatewayStore.response, hresp]
    exact Keyed.get?_map_eq_iff hkey id
  | responseObject id => exact iff_of_true (hm.responseObjects id) not_false
  | file id => exact iff_of_true (hm.files id) not_false
  | fileBytes id => exact iff_of_true (hm.fileBytes id) not_false
  | batch id => exact iff_of_true (hm.batches id) not_false
  | thread id => exact iff_of_true (hm.threads id) not_false
  | threadMessages id => exact iff_of_true (congrArg (·.getD []) (hm.threadMessages id)) not_false
  | vectorStore id => exact iff_of_true (hm.vectorStores id) not_false

/-- One stored request. -/
def Sample.puts : List (Put Unit) :=
  [.request (.ofByte (.new "sha256") 7) (.new "GET" "/v1/models" [] [])]

theorem table_read_eq_memory_read_same_id :
    Function.Injective Text.hex ∧
      (TableGatewayStore.putAll Text.hex Sample.puts).read Text.hex
        (.request (.ofByte (.new "sha256") 7)) =
      (MemoryGatewayStore.putAll Sample.puts).read (.request (.ofByte (.new "sha256") 7)) := by
  refine ⟨Text.hex_injective, (table_read_eq_memory_read_iff Text.hex_injective _ _).mpr ?_⟩
  rintro ⟨id, v, hl, hne, -⟩
  have hmem := hl.mem
  simp only [Sample.puts, List.flatMap_cons, List.flatMap_nil, Put.requestWrites,
    List.append_nil, List.mem_singleton, Prod.mk.injEq] at hmem
  exact hne hmem.1

/-- The table finds a request under an algorithm it was never stored under. -/
theorem table_read_ne_other_algorithm :
    (TableGatewayStore.putAll Text.hex Sample.puts).read Text.hex
        (.request (.ofByte (.new "blake3") 7)) ≠
      (MemoryGatewayStore.putAll Sample.puts).read (.request (.ofByte (.new "blake3") 7)) := by
  intro h
  have htable : (TableGatewayStore.putAll Text.hex Sample.puts).request Text.hex
      (.ofByte (.new "blake3") 7) = some (.new "GET" "/v1/models" [] []) := by decide +kernel
  have hmemory : (MemoryGatewayStore.putAll Sample.puts).request (.ofByte (.new "blake3") 7) =
      none := by decide +kernel
  exact Option.some_ne_none _ (htable.symm.trans (Eq.trans h hmemory))

end SimAgentNet.OpenaiServer
