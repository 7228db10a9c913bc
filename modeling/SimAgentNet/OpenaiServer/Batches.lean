import SimAgentNet.OpenaiServer.Writes

/-! # The accounts of a batch

A batch counts the lines of its input as completed, failed or cancelled, and its two files hold the
records of the completed and of the failed lines. -/

namespace SimAgentNet.OpenaiServer

open Effect (Triple)

variable {Mode Cache Ids : Type}

/-! ## Lines -/

/-- The number of lines of a text that are not blank. -/
def nonBlankLines (text : String) : Nat :=
  (text.toList.splitOn '\n').countP fun line => !line.all Char.isUnicodeWhitespace

theorem trim_eq_nil_iff {line : List Char} :
    trim line = [] ↔ line.all Char.isUnicodeWhitespace = true := by
  rw [trim, List.reverse_eq_nil_iff, List.dropWhile_eq_nil_iff, List.all_eq_true]
  constructor
  · intro h
    have hnil : line.dropWhile Char.isUnicodeWhitespace = [] := by
      by_contra hne
      have hhead := List.head_dropWhile_not Char.isUnicodeWhitespace hne
      rw [h _ (List.mem_reverse.mpr (List.head_mem hne))] at hhead
      cases hhead
    exact List.dropWhile_eq_nil_iff.mp hnil
  · intro h c hc
    exact h c ((List.dropWhile_sublist _).subset (List.mem_reverse.mp hc))

theorem countP_mapIdx {α β : Type} {f : Nat → α → β} {p : β → Bool} {q : α → Bool}
    (h : ∀ i a, p (f i a) = q a) (l : List α) : (l.mapIdx f).countP p = l.countP q := by
  induction l generalizing f with
  | nil => rfl
  | cons a l ih =>
    rw [List.mapIdx_cons, List.countP_cons, List.countP_cons, ih fun i a => h (i + 1) a, h]

/-- Every line that is not blank is read. -/
theorem jsonlLines_length {host : Host Mode} {bytes : List UInt8} {lines : List (Nat × String)}
    (h : jsonlLines host bytes = .ok lines) :
    ∃ text, Text.ofUtf8 bytes = some text ∧ lines.length = nonBlankLines text := by
  rw [jsonlLines] at h
  split at h
  · cases h
  · rename_i text htext
    cases h
    refine ⟨text, htext, ?_⟩
    rw [List.length_map, nonBlankLines, ← List.countP_eq_length_filter]
    refine countP_mapIdx (fun i line => ?_) _
    rw [Bool.eq_iff_iff, decide_eq_true_iff, Bool.not_eq_true', ← Bool.not_eq_true,
      not_iff_not]
    exact trim_eq_nil_iff

section
variable (host : Host Mode) (engine : ResponseEngine Mode Cache)

/-- What becomes of a line: the record of its completed execution on the left, that of its failure
on the right. -/
inductive LineRecord (endpoint : String) (line : Nat × String) : Json ⊕ Json → Prop
  | completed (hitem : batchItem host line.2 endpoint = .ok item)
      (hexecuted : (executeResponseRequest host engine capabilities (itemRequest host item) w).1 =
        execution)
      (hstatus : isSuccess execution.response.status = true)
      (hrecord : outputRecord host item execution.response = .ok record) :
      LineRecord endpoint line (.inl record)
  | failed (hitem : batchItem host line.2 endpoint = .ok item)
      (hexecuted : (executeResponseRequest host engine capabilities (itemRequest host item) w).1 =
        execution)
      (hstatus : isSuccess execution.response.status = false)
      (hrecord : responseErrorRecord host item.customId execution.response = .ok record) :
      LineRecord endpoint line (.inr record)
  | invalid (hitem : batchItem host line.2 endpoint = .error e)
      (hrecord : lineErrorRecord host line.1 e = .ok record) :
      LineRecord endpoint line (.inr record)

end

def completedRecords (records : List (Json ⊕ Json)) : List Json := records.filterMap Sum.getLeft?

def failedRecords (records : List (Json ⊕ Json)) : List Json := records.filterMap Sum.getRight?

/-- Every record is a completed or a failed one. -/
theorem length_records (records : List (Json ⊕ Json)) :
    (completedRecords records).length + (failedRecords records).length = records.length := by
  induction records with
  | nil => rfl
  | cons record records ih =>
    cases record <;>
      simp only [completedRecords, failedRecords, List.filterMap_cons, Sum.getLeft?_inl,
        Sum.getLeft?_inr, Sum.getRight?_inl, Sum.getRight?_inr, List.length_cons] at ih ⊢ <;>
      omega

/-- The result after the records of further lines. -/
def BatchRunResult.record (result : BatchRunResult) (records : List (Json ⊕ Json)) :
    BatchRunResult where
  outputRecords := result.outputRecords ++ completedRecords records
  errorRecords := result.errorRecords ++ failedRecords records
  completed := result.completed + (completedRecords records).length
  failed := result.failed + (failedRecords records).length

theorem BatchRunResult.record_nil (result : BatchRunResult) : result.record [] = result := by
  simp [record, completedRecords, failedRecords]

theorem BatchRunResult.record_completed (result : BatchRunResult) (record : Json) :
    result.record [.inl record] = { result with
      completed := result.completed + 1, outputRecords := result.outputRecords ++ [record] } := by
  simp [BatchRunResult.record, completedRecords, failedRecords]

theorem BatchRunResult.record_failed (result : BatchRunResult) (record : Json) :
    result.record [.inr record] = { result with
      failed := result.failed + 1, errorRecords := result.errorRecords ++ [record] } := by
  simp [BatchRunResult.record, completedRecords, failedRecords]

theorem BatchRunResult.record_cons (result : BatchRunResult) (record : Json ⊕ Json)
    (records : List (Json ⊕ Json)) :
    result.record (record :: records) = (result.record [record]).record records := by
  cases record <;>
    simp [BatchRunResult.record, completedRecords, failedRecords, List.filterMap_cons, Nat.add_assoc,
      Nat.add_comm]

/-! ## Running the items -/

/-- The work has the batches and the bytes of the files of `base`, and the generators of batch and
file ids are at `ids`. -/
structure Beside (base : MemoryGatewayStore Mode) (ids : BatchIdGenerators)
    (w : Work Mode Cache BatchIdGenerators) : Prop where
  batches : w.store.batches = base.batches
  fileBytes : w.store.fileBytes = base.fileBytes
  file : w.ids.file = ids.file

section
variable {host : Host Mode} {engine : ResponseEngine Mode Cache} {capabilities : CapabilitySet}
  {base : MemoryGatewayStore Mode} {ids : BatchIdGenerators}

/-- An execution writes no batch and no file. -/
theorem Executed.beside {request : GatewayRequest} {g g' : GatewayIdGenerator}
    {s s' : MemoryGatewayStore Mode} {reported : Option String}
    (h : Executed host engine request g s g' s' reported) :
    s'.batches = s.batches ∧ s'.fileBytes = s.fileBytes := by
  cases h with
  | refused h | minted h | stored h | unreported h => exact ⟨h.batches, h.fileBytes⟩

theorem runBatchItem_records (endpoint : String) (result : BatchRunResult)
    (line : Nat × String) :
    Triple (Beside base ids) (runBatchItem host engine capabilities endpoint result line)
      (fun result' w => Beside base ids w ∧
        ∃ record, LineRecord host engine endpoint line record ∧ result' = result.record [record])
      (Beside base ids) := by
  rw [runBatchItem]
  split
  · rename_i item hitem
    let execute : Route Mode Cache BatchIdGenerators (ResponseExecution Mode) :=
      onResponse (executeRoute host engine capabilities (itemRequest host item))
    have hexecute : Triple (Beside base ids) execute
        (fun execution w => Beside base ids w ∧ ∃ w',
          (executeResponseRequest host engine capabilities (itemRequest host item) w').1 = execution)
        (Beside base ids) := by
      intro w h
      obtain ⟨hbatches, hfiles⟩ := (executeResponseRequest_executed host engine capabilities
        (itemRequest host item) { w with ids := w.ids.response }).beside
      exact ⟨⟨hbatches.trans h.batches, hfiles.trans h.fileBytes, h.file⟩, _, rfl⟩
    refine hexecute.bind fun execution => ?_
    cases hstatus : isSuccess execution.response.status with
    | true =>
      refine Triple.bind (Q := fun record w => Beside base ids w ∧
        LineRecord host engine endpoint line (.inl record)) (.ofExcept ?_ fun _ h => h.1)
        fun record => .pure fun w h => ⟨h.1, _, h.2, (result.record_completed record).symm⟩
      rintro w record ⟨h, w', hexecuted⟩ hrecord
      exact ⟨h, .completed hitem hexecuted hstatus hrecord⟩
    | false =>
      refine Triple.bind (Q := fun record w => Beside base ids w ∧
        LineRecord host engine endpoint line (.inr record)) (.ofExcept ?_ fun _ h => h.1)
        fun record => .pure fun w h => ⟨h.1, _, h.2, (result.record_failed record).symm⟩
      rintro w record ⟨h, w', hexecuted⟩ hrecord
      exact ⟨h, .failed hitem hexecuted hstatus hrecord⟩
  · rename_i e hitem
    refine Triple.bind (Q := fun record w => Beside base ids w ∧
      LineRecord host engine endpoint line (.inr record)) (.ofExcept ?_ fun _ h => h)
      fun record => .pure fun w h => ⟨h.1, _, h.2, (result.record_failed record).symm⟩
    exact fun w record h hrecord => ⟨h, .invalid hitem hrecord⟩

theorem runBatchItems_records (endpoint : String) (lines : List (Nat × String))
    (result : BatchRunResult) :
    Triple (Beside base ids) (runBatchItems host engine capabilities endpoint lines result)
      (fun result' w => Beside base ids w ∧ ∃ records,
        List.Forall₂ (LineRecord host engine endpoint) lines records ∧
          result' = result.record records)
      (Beside base ids) := by
  induction lines generalizing result with
  | nil => exact .pure fun w h => ⟨h, [], .nil, result.record_nil.symm⟩
  | cons line lines ih =>
    refine (runBatchItem_records endpoint result line).bind fun result' => ?_
    rintro w ⟨hw, record, hrecord, rfl⟩
    refine (ih (result.record [record])).weaken (fun _ h => h) ?_ (fun _ h => h) w hw
    rintro result'' w' ⟨hw', records, hrecords, rfl⟩
    exact ⟨hw', record :: records, .cons hrecord hrecords, (result.record_cons _ _).symm⟩

end

/-! ## Files of records -/

/-- The text of records, one a line. -/
def jsonl (host : Host Mode) (records : List Json) : List UInt8 :=
  Text.utf8 ("\n".intercalate (records.map host.serde.toText) ++ "\n")

/-- A file holds exactly the records; without records there is no file. -/
def HoldsRecords (host : Host Mode) (s : MemoryGatewayStore Mode) : Option String → List Json → Prop
  | none, records => records = []
  | some id, records => records ≠ [] ∧ s.fileBytesOf id = some (jsonl host records)

theorem HoldsRecords.mono {host : Host Mode} {s s' : MemoryGatewayStore Mode}
    {fileId : Option String} {records : List Json} (h : HoldsRecords host s fileId records)
    (hs : ∀ id, fileId = some id → s'.fileBytesOf id = s.fileBytesOf id) :
    HoldsRecords host s' fileId records := by
  cases fileId with
  | none => exact h
  | some id => exact ⟨h.1, (hs id rfl).trans h.2⟩

/-- Records are stored under the next id of a file, if there are any. -/
structure StoresRecords (host : Host Mode) (records : List Json)
    (w : Work Mode Cache BatchIdGenerators) (fileId : Option String)
    (w' : Work Mode Cache BatchIdGenerators) : Prop where
  batches : w'.store.batches = w.store.batches
  holds : HoldsRecords host w'.store fileId records
  others : ∀ id, id ≠ w.ids.file.peek → w'.store.fileBytesOf id = w.store.fileBytesOf id
  minted : fileId = none ∧ w'.ids.file = w.ids.file ∨
    fileId = some w.ids.file.peek ∧ w'.ids.file = w.ids.file.succ

section
variable {host : Host Mode} {engine : ResponseEngine Mode Cache} {capabilities : CapabilitySet}

theorem storeJsonlFile_stores (batchId ending purpose : String) (records : List Json)
    (w₀ : Work Mode Cache BatchIdGenerators) :
    Triple (fun w => w = w₀) (storeJsonlFile host batchId ending purpose records)
      (fun fileId w => StoresRecords host records w₀ fileId w)
      (fun w => w.store = w₀.store) := by
  have hstart (w : Work Mode Cache BatchIdGenerators) (h : w = w₀) : w.store = w₀.store := by rw [h]
  rw [storeJsonlFile]
  split
  · rename_i hnil
    refine .pure ?_
    rintro w rfl
    exact ⟨rfl, List.isEmpty_iff.mp hnil, fun _ _ => rfl, .inl ⟨rfl, rfl⟩⟩
  · rename_i hne
    have hne' : records ≠ [] := fun h => hne (List.isEmpty_iff.mpr h)
    let P (ids : BatchIdGenerators) (s : MemoryGatewayStore Mode) : Prop :=
      ids.file = w₀.ids.file ∧ s = w₀.store
    refine Triple.bind (Q := fun _ w => P w.ids w.store) (.ofExcept ?_ hstart) fun contentId => ?_
    · rintro w _ rfl _
      exact ⟨rfl, rfl⟩
    let Q (id : String) (ids : BatchIdGenerators) (s : MemoryGatewayStore Mode) : Prop :=
      id = w₀.ids.file.peek ∧ ids.file = w₀.ids.file.succ ∧ s = w₀.store
    refine Triple.bind (Q := fun id w => Q id w.ids w.store) (Route.mint_spec (P := P) (Q := Q)
      (E := fun _ s => s = w₀.store) ?_ fun _ _ h => h.2) fun id => ?_
    · rintro ids s ⟨hids, hs⟩
      rw [hids]
      exact ⟨rfl, rfl, hs⟩
    refine ((Route.Keeps.nowMs (P := Q id) host).within fun _ h => h.2.2).bind fun ms => ?_
    refine Triple.bind (Q := fun _ w => StoresRecords host records w₀ (some id) w) (.modify ?_)
      fun _ => .pure fun _ h => h
    rintro w ⟨rfl, hids, hs⟩
    refine ⟨?_, ⟨hne', ?_⟩, fun id hid => ?_, .inr ⟨rfl, hids⟩⟩
    · rw [hs]
      rfl
    · exact SortedMap.get?_insert_self _ _ _
    · rw [hs]
      exact SortedMap.get?_insert_ne _ _ hid

/-- A batch that has run is completed with the records of its lines. -/
structure Completes (host : Host Mode) (engine : ResponseEngine Mode Cache) (batch : GatewayBatch)
    (lines : List (Nat × String)) (s : MemoryGatewayStore Mode) (completed : GatewayBatch) : Prop where
  runs : ∃ records, List.Forall₂ (LineRecord host engine batch.endpoint) lines records ∧
    completed.requestCounts = ⟨lines.length, (completedRecords records).length,
      (failedRecords records).length, 0⟩ ∧
    HoldsRecords host s completed.outputFileId (completedRecords records) ∧
    HoldsRecords host s completed.errorFileId (failedRecords records)
  status : completed.status = .completed
  id : completed.id = batch.id
  inputFileId : completed.inputFileId = batch.inputFileId
  endpoint : completed.endpoint = batch.endpoint

/-- The files of `s'` and `s` differ under the next two ids of files only. -/
def SameFiles (g : GatewayIdGenerator) (s s' : MemoryGatewayStore Mode) : Prop :=
  ∀ id, id ≠ g.peek → id ≠ g.succ.peek → s'.fileBytesOf id = s.fileBytesOf id

theorem GatewayIdGenerator.peek_succ_ne (g : GatewayIdGenerator) : g.succ.peek ≠ g.peek := by
  intro h
  have hnext := GatewayIdGenerator.format_injective _ h
  exact Nat.succ_ne_self _ hnext

theorem completeBatch_completes (batch : GatewayBatch) (lines : List (Nat × String))
    (w₀ : Work Mode Cache BatchIdGenerators) :
    Triple (fun w => w = w₀) (completeBatch host engine capabilities batch lines)
      (fun _ w => SameFiles w₀.ids.file w₀.store w.store ∧ ∃ completed,
        Completes host engine batch lines w.store completed ∧
          w.store.batches = w₀.store.batches.insert batch.id completed)
      (fun w => SameFiles w₀.ids.file w₀.store w.store ∧ w.store.batches = w₀.store.batches) := by
  rw [completeBatch]
  have hbeside (w : Work Mode Cache BatchIdGenerators) (h : Beside w₀.store w₀.ids w) :
      SameFiles w₀.ids.file w₀.store w.store ∧ w.store.batches = w₀.store.batches :=
    ⟨fun id _ _ => congrArg (SortedMap.get? · id) h.fileBytes, h.batches⟩
  refine Triple.bind ((runBatchItems_records batch.endpoint lines _).weaken ?_ (fun _ _ h => h)
    hbeside) fun result => ?_
  · rintro w rfl
    exact ⟨rfl, rfl, rfl⟩
  rintro w₁ ⟨h₁, records, hrecords, rfl⟩
  obtain ⟨hfiles₁, hbatches₁⟩ := hbeside w₁ h₁
  refine Triple.bind (P := fun w => w = w₁) ((storeJsonlFile_stores _ _ _ _ w₁).weaken
    (fun _ h => h) (fun _ _ h => h) fun w h => ?_) (fun outputFileId => ?_) w₁ rfl
  · rw [h]
    exact ⟨hfiles₁, hbatches₁⟩
  rintro w₂ h₂
  have hfiles₂ : SameFiles w₀.ids.file w₀.store w₂.store := fun id hid hid' =>
    (h₂.others id (by rwa [h₁.file])).trans (hfiles₁ id hid hid')
  have hbatches₂ := h₂.batches.trans hbatches₁
  refine Triple.bind (P := fun w => w = w₂) ((storeJsonlFile_stores _ _ _ _ w₂).weaken
    (fun _ h => h) (fun _ _ h => h) fun w h => ?_) (fun errorFileId => ?_) w₂ rfl
  · rw [h]
    exact ⟨hfiles₂, hbatches₂⟩
  rintro w₃ h₃
  have hpeek : w₂.ids.file.peek = w₀.ids.file.peek ∨ w₂.ids.file.peek = w₀.ids.file.succ.peek := by
    obtain ⟨-, hids⟩ | ⟨-, hids⟩ := h₂.minted
    · exact .inl (by rw [hids, h₁.file])
    · exact .inr (by rw [hids, h₁.file])
  have hfiles₃ : SameFiles w₀.ids.file w₀.store w₃.store := by
    intro id hid hid'
    refine (h₃.others id fun h => ?_).trans (hfiles₂ id hid hid')
    obtain hpeek | hpeek := hpeek
    · exact hid (h.trans hpeek)
    · exact hid' (h.trans hpeek)
  have hbatches₃ := h₃.batches.trans hbatches₂
  -- the file of the errors is not that of the output
  have houtput : HoldsRecords host w₃.store outputFileId (completedRecords records) := by
    refine h₂.holds.mono fun id hid => h₃.others id ?_
    rintro rfl
    obtain ⟨rfl, -⟩ | ⟨rfl, hids⟩ := h₂.minted
    · cases hid
    · rw [hids, Option.some.injEq] at hid
      exact GatewayIdGenerator.peek_succ_ne _ hid.symm
  refine ((Route.Keeps.nowMs (P := fun _ s => s = w₃.store) host).within fun w h => ?_).bind
    (fun ms => ?_) w₃ rfl
  · rw [h]
    exact ⟨hfiles₃, hbatches₃⟩
  refine Triple.bind (.modify fun w h => ?_) fun _ => .pure fun _ h => h
  rw [h]
  have hlength : (completedRecords records).length + (failedRecords records).length =
      lines.length := (length_records records).trans hrecords.length_eq.symm
  let completed := batch.complete outputFileId errorFileId ms
    ⟨0 + (completedRecords records).length + (0 + (failedRecords records).length),
      0 + (completedRecords records).length, 0 + (failedRecords records).length, 0⟩
  have hcompletes : Completes host engine batch lines (w₃.store.putBatch completed) completed := by
    refine ⟨⟨records, hrecords, ?_, houtput.mono fun _ _ => rfl, h₃.holds.mono fun _ _ => rfl⟩,
      rfl, rfl, rfl, rfl⟩
    simp only [completed, GatewayBatch.complete, Nat.zero_add, hlength]
  exact ⟨hfiles₃, completed, hcompletes, congrArg (·.insert batch.id completed) hbatches₃⟩

/-- The batch that a request queues, with the files it reads and the lines it counts. -/
def queuedBatch (g : BatchIdGenerators) (r : BatchRequest) (createdAtMs : UInt64) : GatewayBatch :=
  .new g.batch.peek r.inputFileId r.endpoint createdAtMs ⟨r.lines.length, 0, 0, 0⟩

/-- What the creation of a batch does: nothing, or a batch is queued, or it is completed. -/
inductive Submits (host : Host Mode) (engine : ResponseEngine Mode Cache) (request : GatewayRequest)
    (g : BatchIdGenerators) (s : MemoryGatewayStore Mode) : MemoryGatewayStore Mode → Prop
  | refused : Submits host engine request g s s
  | deferred (hr : readBatchRequest host s request = .ok r) :
      Submits host engine request g s (s.putBatch (queuedBatch g r ms))
  | queued (hr : readBatchRequest host s request = .ok r) (hrun : deferred r.object = false)
      (hfiles : SameFiles g.file s s')
      (hbatches : s'.batches = s.batches.insert g.batch.peek (queuedBatch g r ms)) :
      Submits host engine request g s s'
  | completed (hr : readBatchRequest host s request = .ok r) (hrun : deferred r.object = false)
      (hfiles : SameFiles g.file s s')
      (hcompletes : Completes host engine (queuedBatch g r ms) r.lines s' batch)
      (hbatches : s'.batches = s.batches.insert g.batch.peek batch) :
      Submits host engine request g s s'

/-- Up to the point where it is queued, the creation of a batch changes nothing. -/
theorem createBatch_queues (request : GatewayRequest) (w₀ : Work Mode Cache BatchIdGenerators)
    {R : GatewayResponse → Work Mode Cache BatchIdGenerators → Prop}
    {E : Work Mode Cache BatchIdGenerators → Prop} (hE : ∀ w, w.store = w₀.store → E w)
    (hdeferred : ∀ r ms w, readBatchRequest host w₀.store request = .ok r → deferred r.object = true →
      w.store = w₀.store.putBatch (queuedBatch w₀.ids r ms) →
      R (.jsonValue host.serde 200 (batchJson (queuedBatch w₀.ids r ms))) w)
    (hrun : ∀ r ms, readBatchRequest host w₀.store request = .ok r → deferred r.object = false →
      Triple (fun w => w.store = w₀.store.putBatch (queuedBatch w₀.ids r ms) ∧
          w.ids.file = w₀.ids.file ∧ w.ticks = w₀.ticks + 1)
        (completeBatch host engine capabilities (queuedBatch w₀.ids r ms) r.lines) R E) :
    Triple (fun w => w = w₀) (createBatch host engine capabilities request) R E := by
  rintro w rfl
  let P (r : BatchRequest) (w' : Work Mode Cache BatchIdGenerators) : Prop :=
    readBatchRequest host w.store request = .ok r ∧ w' = w
  refine Triple.bind (P := fun w' => w' = w) (Q := P) (.observe ?_ ?_) (fun r => ?_) w rfl
  · rintro w' r rfl hr
    exact ⟨hr, rfl⟩
  · rintro w' rfl
    exact hE _ rfl
  rintro w' ⟨hr, rfl⟩
  let Q (ms : UInt64) (w₁ : Work Mode Cache BatchIdGenerators) : Prop :=
    w₁.store = w'.store ∧ w₁.ids = w'.ids ∧ w₁.ticks = w'.ticks + 1
  refine Triple.bind (P := fun w₁ => w₁ = w') (Q := Q) ?_ (fun ms => ?_) w' rfl
  · rintro w₁ rfl
    simp only [Route.nowMs]
    cases host.clock w₁.ticks with
    | ok ms => exact ⟨rfl, rfl, rfl⟩
    | error e => exact hE _ rfl
  let Q' (id : String) (w₁ : Work Mode Cache BatchIdGenerators) : Prop :=
    id = w'.ids.batch.peek ∧ w₁.store = w'.store ∧ w₁.ids.file = w'.ids.file ∧
      w₁.ticks = w'.ticks + 1
  refine Triple.bind (Q := Q') ?_ fun id => ?_
  · rintro w₁ ⟨hstore, hids, hticks⟩
    by_cases hroom : w₁.ids.batch.next + 1 < 2 ^ 64
    · simp only [Route.mint, GatewayIdGenerator.nextId, if_pos hroom]
      exact ⟨by rw [hids]; rfl, hstore, by rw [hids], hticks⟩
    · simp only [Route.mint, GatewayIdGenerator.nextId, if_neg hroom]
      exact hE _ hstore
  rintro w₁ ⟨rfl, hstore, hfile, hticks⟩
  refine Triple.bind (P := fun w₂ => w₂ = w₁) (Q := fun _ w₂ =>
    w₂.store = w'.store.putBatch (queuedBatch w'.ids r ms) ∧ w₂.ids.file = w'.ids.file ∧
      w₂.ticks = w'.ticks + 1) (.modify ?_) (fun _ => ?_) w₁ rfl
  · rintro w₂ rfl
    exact ⟨congrArg (·.putBatch (queuedBatch w'.ids r ms)) hstore, hfile, hticks⟩
  cases hdefer : deferred r.object with
  | true => exact .pure fun w₂ h => hdeferred r ms w₂ hr hdefer h.1
  | false => exact hrun r ms hr hdefer

theorem createBatch_submits (request : GatewayRequest) (w : Work Mode Cache BatchIdGenerators) :
    Submits host engine request w.ids w.store
      (createBatch host engine capabilities request w).2.store := by
  refine Triple.final (P := fun w' => w' = w)
    (I := fun w' => Submits host engine request w.ids w.store w'.store)
    (createBatch_queues request w ?_ ?_ fun r ms hr hrun => ?_) rfl
  · intro w' hw
    rw [hw]
    exact .refused
  · intro r ms w' hr _ hw
    rw [hw]
    exact .deferred hr
  rintro w₁ ⟨hstore, hfile, -⟩
  have hinsert (batch : GatewayBatch) :
      (w.store.putBatch (queuedBatch w.ids r ms)).batches.insert (queuedBatch w.ids r ms).id batch =
        w.store.batches.insert w.ids.batch.peek batch := by
    refine SortedMap.ext fun k => ?_
    simp only [MemoryGatewayStore.putBatch, queuedBatch, GatewayBatch.new, SortedMap.get?_insert]
    split <;> rfl
  refine (completeBatch_completes (queuedBatch w.ids r ms) r.lines w₁).weaken (fun _ h => h) ?_ ?_
    w₁ rfl
  · rintro _ w₂ ⟨hfiles, batch, hcompletes, hbatches⟩
    rw [hstore, hfile] at hfiles
    rw [hstore] at hbatches
    exact .completed hr hrun hfiles hcompletes (hbatches.trans (hinsert batch))
  · rintro w₂ ⟨hfiles, hbatches⟩
    rw [hstore, hfile] at hfiles
    rw [hstore] at hbatches
    exact .queued hr hrun hfiles hbatches

end

/-! ## Cancelling -/

def GatewayBatch.Settled (batch : GatewayBatch) : Prop :=
  batch.status = .completed ∨ batch.status = .cancelled

/-- What a cancellation makes of a batch. -/
inductive Settles : GatewayBatch → GatewayBatch → Prop
  | settled (h : batch.Settled) : Settles batch batch
  | cancel (h : ¬batch.Settled) : Settles batch (batch.cancel ms)

theorem Settles.settled_right {batch batch' : GatewayBatch} (h : Settles batch batch') :
    batch'.Settled := by
  cases h with
  | settled h => exact h
  | cancel => exact .inr rfl

theorem Settles.id_eq {batch batch' : GatewayBatch} (h : Settles batch batch') :
    batch'.id = batch.id := by
  cases h <;> rfl

section
variable {host : Host Mode} {batchId : String} {w w' : Work Mode Cache Unit}

/-- A settled batch is written back as it is. -/
theorem cancelBatch_settled {batch : GatewayBatch} (hbatch : w.store.batch batchId = some batch)
    (h : batch.Settled) :
    cancelBatch host batchId w = (.ok (.jsonValue host.serde 200 (batchJson batch)),
      { w with store := w.store.putBatch batch }) := by
  simp only [cancelBatch, Effect.bind_apply, Effect.observe_apply, hbatch]
  obtain h | h := h <;> rw [h] <;> rfl

theorem cancelBatch_ok {response : GatewayResponse}
    (h : cancelBatch host batchId w = (.ok response, w')) :
    ∃ batch batch', w.store.batch batchId = some batch ∧ Settles batch batch' ∧
      response = .jsonValue host.serde 200 (batchJson batch') ∧
      w'.store = w.store.putBatch batch' := by
  cases hbatch : w.store.batch batchId with
  | none =>
    simp only [cancelBatch, Effect.bind_apply, Effect.observe_apply, hbatch] at h
    cases h
  | some batch =>
    by_cases hsettled : batch.Settled
    · rw [cancelBatch_settled hbatch hsettled] at h
      cases h
      exact ⟨batch, batch, rfl, .settled hsettled, rfl, rfl⟩
    · have hrun : batch.status = .queued ∨ batch.status = .inProgress := by
        cases hs : batch.status with
        | queued => exact .inl rfl
        | inProgress => exact .inr rfl
        | completed => exact absurd (.inl hs) hsettled
        | cancelled => exact absurd (.inr hs) hsettled
      simp only [cancelBatch, Effect.bind_apply, Effect.observe_apply, hbatch] at h
      cases hms : host.clock w.ticks with
      | error e =>
        obtain hs | hs := hrun <;>
          simp only [hs, Effect.bind_apply, Route.nowMs, hms, Except.mapError] at h <;> cases h
      | ok ms =>
        refine ⟨batch, batch.cancel ms, rfl, .cancel hsettled, ?_⟩
        obtain hs | hs := hrun <;>
          simp only [hs, Effect.bind_apply, Route.nowMs, hms, Except.mapError] at h <;> cases h <;>
          exact ⟨rfl, rfl⟩

theorem cancelBatch_error {e : OpenAiRouteError}
    (h : cancelBatch host batchId w = (.error e, w')) : w'.store = w.store := by
  have hstart : Triple (fun w₁ => w₁.store = w.store) (cancelBatch host batchId)
      (fun _ (_ : Work Mode Cache Unit) => True) fun w₁ => w₁.store = w.store := by
    refine Triple.bind (Q := fun _ w₁ => w₁.store = w.store) (.observe (fun _ _ h _ => h) fun _ h => h)
      fun batch => ?_
    refine Triple.bind (Q := fun _ w₁ => w₁.store = w.store) ?_ fun batch' => ?_
    · cases batch.status with
      | queued | inProgress =>
        exact (Route.Keeps.nowMs (P := fun _ s => s = w.store) host).bind fun ms => .pure _
      | completed | cancelled => exact .pure fun _ h => h
    · exact Triple.bind (Q := fun _ _ => True) (.modify fun _ _ => trivial) fun _ => .pure fun _ _ => trivial
  have hfinal := hstart w rfl
  rw [h] at hfinal
  exact hfinal

end

/-! ## Accounts -/

/-- The files that a batch names. -/
def GatewayBatch.files (batch : GatewayBatch) : List String :=
  batch.inputFileId :: (batch.outputFileId.toList ++ batch.errorFileId.toList)

/-- The accounts of a batch balance: it counts the lines of its input that are not blank, all of
them once it is settled, and when it is completed its files hold the records of the lines. -/
structure Balanced (host : Host Mode) (engine : ResponseEngine Mode Cache)
    (s : MemoryGatewayStore Mode) (batch : GatewayBatch) : Prop where
  total : ∃ bytes text, s.fileBytesOf batch.inputFileId = some bytes ∧
    Text.ofUtf8 bytes = some text ∧ batch.requestCounts.total = nonBlankLines text
  bounded : batch.requestCounts.completed + batch.requestCounts.failed +
    batch.requestCounts.cancelled ≤ batch.requestCounts.total
  settled : batch.Settled → batch.requestCounts.completed + batch.requestCounts.failed +
    batch.requestCounts.cancelled = batch.requestCounts.total
  completed : batch.status = .completed → ∃ bytes lines records,
    s.fileBytesOf batch.inputFileId = some bytes ∧ jsonlLines host bytes = .ok lines ∧
    List.Forall₂ (LineRecord host engine batch.endpoint) lines records ∧
    batch.requestCounts.completed = (completedRecords records).length ∧
    batch.requestCounts.failed = (failedRecords records).length ∧
    HoldsRecords host s batch.outputFileId (completedRecords records) ∧
    HoldsRecords host s batch.errorFileId (failedRecords records)

/-- Every stored batch has its own id as its key, and balances. -/
structure Balances (host : Host Mode) (engine : ResponseEngine Mode Cache)
    (s : MemoryGatewayStore Mode) : Prop where
  keyed : ∀ {id batch}, s.batch id = some batch → batch.id = id
  balanced : ∀ {id batch}, s.batch id = some batch → Balanced host engine s batch

section
variable {host : Host Mode} {engine : ResponseEngine Mode Cache} {s s' : MemoryGatewayStore Mode}
  {batch batch' : GatewayBatch}

/-- A balance depends on the files that the batch names. -/
theorem Balanced.mono (h : Balanced host engine s batch)
    (hs : ∀ f ∈ batch.files, s'.fileBytesOf f = s.fileBytesOf f) :
    Balanced host engine s' batch := by
  have hinput := hs batch.inputFileId List.mem_cons_self
  refine ⟨?_, h.bounded, h.settled, fun hcompleted => ?_⟩
  · rw [hinput]
    exact h.total
  · obtain ⟨bytes, lines, records, hbytes, hlines, hrecords, hc, hf, ho, he⟩ := h.completed hcompleted
    refine ⟨bytes, lines, records, hinput.trans hbytes, hlines, hrecords, hc, hf,
      ho.mono fun id hid => hs id ?_, he.mono fun id hid => hs id ?_⟩
    · simp [GatewayBatch.files, hid]
    · simp [GatewayBatch.files, hid]

theorem Balanced.settle (h : Balanced host engine s batch) (hsettles : Settles batch batch') :
    Balanced host engine s batch' := by
  cases hsettles with
  | settled => exact h
  | @cancel ms hopen =>
    have hsum := h.bounded
    refine ⟨h.total, ?_, fun _ => ?_, nofun⟩
    · simp only [GatewayBatch.cancel]
      omega
    · simp only [GatewayBatch.cancel]
      omega

/-- A batch over the lines of a file in the store, none of them settled. -/
theorem balanced_queued {g : BatchIdGenerators} {r : BatchRequest} {ms : UInt64}
    (hinput : ∃ bytes, s.fileBytesOf r.inputFileId = some bytes ∧
      jsonlLines host bytes = .ok r.lines) :
    Balanced host engine s (queuedBatch g r ms) := by
  obtain ⟨bytes, hbytes, hlines⟩ := hinput
  obtain ⟨text, htext, hlength⟩ := jsonlLines_length hlines
  refine ⟨⟨bytes, text, hbytes, htext, hlength⟩, Nat.zero_le _, ?_, nofun⟩
  rintro (h | h) <;> cases h

theorem Completes.balanced {g : BatchIdGenerators} {r : BatchRequest} {ms : UInt64}
    (h : Completes host engine (queuedBatch g r ms) r.lines s batch)
    (hinput : ∃ bytes, s.fileBytesOf r.inputFileId = some bytes ∧
      jsonlLines host bytes = .ok r.lines) :
    Balanced host engine s batch := by
  obtain ⟨bytes, hbytes, hlines⟩ := hinput
  obtain ⟨text, htext, hlength⟩ := jsonlLines_length hlines
  obtain ⟨records, hrecords, hcounts, ho, he⟩ := h.runs
  have hbytes' : s.fileBytesOf batch.inputFileId = some bytes := by rwa [h.inputFileId]
  have hsum := (length_records records).trans hrecords.length_eq.symm
  refine ⟨⟨bytes, text, hbytes', htext, ?_⟩, ?_, fun _ => ?_, fun _ => ?_⟩
  · rw [hcounts]
    exact hlength
  · rw [hcounts]
    exact hsum.le
  · rw [hcounts]
    exact hsum
  · refine ⟨bytes, r.lines, records, hbytes', hlines, ?_, ?_, ?_, ho, he⟩
    · rw [h.endpoint]
      exact hrecords
    · rw [hcounts]
    · rw [hcounts]

end

/-! ## Runs -/

/-- The next two ids of files are not those of the input, or of a file that another batch names. -/
def Unclaimed (host : Host Mode) (request : GatewayRequest) (g : BatchIdGenerators)
    (s : MemoryGatewayStore Mode) : Prop :=
  ∀ r, readBatchRequest host s request = .ok r → deferred r.object = false → ∀ f,
    (f = r.inputFileId ∨ ∃ id batch, s.batch id = some batch ∧ id ≠ g.batch.peek ∧
      f ∈ batch.files) → f ≠ g.file.peek ∧ f ≠ g.file.succ.peek

/-- A run from a store without batches. Between the calls other operations may do anything but write
the batches and the files that they name. -/
inductive BatchRuns (host : Host Mode) (engine : ResponseEngine Mode Cache) :
    MemoryGatewayStore Mode → Prop
  | start (h : ∀ id, s.batch id = none) : BatchRuns host engine s
  | create (w : Work Mode Cache BatchIdGenerators) (h : BatchRuns host engine w.store)
      (capabilities : CapabilitySet) (request : GatewayRequest)
      (hfiles : Unclaimed host request w.ids w.store) :
      BatchRuns host engine (createBatch host engine capabilities request w).2.store
  | cancel (w : Work Mode Cache Unit) (h : BatchRuns host engine w.store) (batchId : String) :
      BatchRuns host engine (cancelBatch host batchId w).2.store
  | other (h : BatchRuns host engine s) (hbatches : ∀ id, s'.batch id = s.batch id)
      (hfiles : ∀ id batch f, s.batch id = some batch → f ∈ batch.files →
        s'.fileBytesOf f = s.fileBytesOf f) : BatchRuns host engine s'

section
variable {host : Host Mode} {engine : ResponseEngine Mode Cache} {s s' : MemoryGatewayStore Mode}
  {request : GatewayRequest} {g : BatchIdGenerators}

theorem readBatchRequest_input {r : BatchRequest} (h : readBatchRequest host s request = .ok r) :
    ∃ bytes, s.fileBytesOf r.inputFileId = some bytes ∧ jsonlLines host bytes = .ok r.lines := by
  obtain ⟨object, -, h⟩ := Except.bind_eq_ok_iff.mp h
  obtain ⟨inputFileId, -, h⟩ := Except.bind_eq_ok_iff.mp h
  obtain ⟨endpoint, -, h⟩ := Except.bind_eq_ok_iff.mp h
  cases hbytes : s.fileBytesOf inputFileId with
  | none =>
    simp only [hbytes] at h
    split at h <;> cases h
  | some bytes =>
    simp only [hbytes] at h
    split at h
    · cases h
    · obtain ⟨lines, hlines, h⟩ := Except.bind_eq_ok_iff.mp h
      cases h
      exact ⟨bytes, hbytes, hlines⟩

/-- A batch is stored, and the files of the others are as they were. -/
theorem Balances.insert (h : Balances host engine s) {id : String} {batch : GatewayBatch}
    (hbatches : s'.batches = s.batches.insert id batch) (hid : batch.id = id)
    (hbatch : Balanced host engine s' batch)
    (hfiles : ∀ id' batch' f, s.batch id' = some batch' → id' ≠ id → f ∈ batch'.files →
      s'.fileBytesOf f = s.fileBytesOf f) : Balances host engine s' := by
  have hcases {id' : String} {batch' : GatewayBatch} (hb : s'.batch id' = some batch') :
      id' = id ∧ batch' = batch ∨ id' ≠ id ∧ s.batch id' = some batch' := by
    rw [MemoryGatewayStore.batch, hbatches, SortedMap.get?_insert] at hb
    split at hb
    · rename_i heq
      exact .inl ⟨heq, (Option.some.inj hb).symm⟩
    · rename_i hne
      exact .inr ⟨hne, hb⟩
  constructor
  · intro id' batch' hb
    obtain ⟨rfl, rfl⟩ | ⟨-, hb⟩ := hcases hb
    · exact hid
    · exact h.keyed hb
  · intro id' batch' hb
    obtain ⟨rfl, rfl⟩ | ⟨hne, hb⟩ := hcases hb
    · exact hbatch
    · exact (h.balanced hb).mono fun f hf => hfiles id' batch' f hb hne hf

theorem Balances.submit (h : Balances host engine s) (hsubmits : Submits host engine request g s s')
    (hunclaimed : Unclaimed host request g s) : Balances host engine s' := by
  cases hsubmits with
  | refused => exact h
  | deferred hr =>
    exact h.insert rfl rfl (balanced_queued (readBatchRequest_input hr)) fun _ _ _ _ _ _ => rfl
  | @queued r s' ms hr hrun hfiles hbatches =>
    have hsame (f : String) (hf : f = r.inputFileId ∨ ∃ id batch, s.batch id = some batch ∧
        id ≠ g.batch.peek ∧ f ∈ batch.files) : s'.fileBytesOf f = s.fileBytesOf f :=
      have hne := hunclaimed r hr hrun f hf
      hfiles f hne.1 hne.2
    refine h.insert hbatches rfl (balanced_queued ?_) fun id batch f hb hne hf =>
      hsame f (.inr ⟨id, batch, hb, hne, hf⟩)
    rw [hsame _ (.inl rfl)]
    exact readBatchRequest_input hr
  | @completed r s' ms batch hr hrun hfiles hcompletes hbatches =>
    have hsame (f : String) (hf : f = r.inputFileId ∨ ∃ id batch, s.batch id = some batch ∧
        id ≠ g.batch.peek ∧ f ∈ batch.files) : s'.fileBytesOf f = s.fileBytesOf f :=
      have hne := hunclaimed r hr hrun f hf
      hfiles f hne.1 hne.2
    refine h.insert hbatches hcompletes.id (hcompletes.balanced ?_) fun id batch f hb hne hf =>
      hsame f (.inr ⟨id, batch, hb, hne, hf⟩)
    rw [hsame _ (.inl rfl)]
    exact readBatchRequest_input hr

theorem Balances.cancel {w : Work Mode Cache Unit} (h : Balances host engine w.store)
    (batchId : String) : Balances host engine (cancelBatch host batchId w).2.store := by
  cases hx : cancelBatch host batchId w with
  | mk result w' =>
    cases result with
    | error e =>
      rw [cancelBatch_error hx]
      exact h
    | ok response =>
      obtain ⟨batch, batch', hbatch, hsettles, -, hstore⟩ := cancelBatch_ok hx
      rw [hstore]
      have hbalanced : Balanced host engine (w.store.putBatch batch') batch' :=
        ((h.balanced hbatch).settle hsettles).mono fun _ _ => rfl
      exact h.insert rfl rfl hbalanced fun _ _ _ _ _ _ => rfl

theorem BatchRuns.balances (h : BatchRuns host engine s) : Balances host engine s := by
  induction h with
  | start h =>
    constructor
    · intro id batch hb
      rw [h id] at hb
      cases hb
    · intro id batch hb
      rw [h id] at hb
      cases hb
  | create w _ capabilities request hfiles ih =>
    exact ih.submit (createBatch_submits request w) hfiles
  | cancel w _ batchId ih => exact ih.cancel batchId
  | other _ hbatches hfiles ih =>
    constructor
    · intro id batch hb
      rw [hbatches id] at hb
      exact ih.keyed hb
    · intro id batch hb
      rw [hbatches id] at hb
      exact (ih.balanced hb).mono fun f hf => hfiles id batch f hb hf

end

end SimAgentNet.OpenaiServer
