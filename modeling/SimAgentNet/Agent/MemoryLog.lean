import SimAgentNet.Data.Effect
import SimAgentNet.Data.Records
import SimAgentNet.Kernel.Expr

/-! # Memory logs

Memories keep their entries in a file, one record an entry. The binary codec, the disk and the
errors of the kernel are parameters. -/

namespace SimAgentNet.Agent.Memory

inductive MemoryError (ε : Type) where
  | hostError (message : String)
  | typeMismatch (expected found : String)
  | kernel (e : ε)
deriving DecidableEq

/-- The binary frame codec. -/
structure FrameCodec (Mode ε : Type) where
  encodeFrame : Expr Mode → Except ε (List UInt8)
  decodeFrame : List UInt8 → Except ε (Expr Mode)

/-- What is encoded is decoded again. -/
def FrameCodec.Inverse {Mode ε : Type} (codec : FrameCodec Mode ε) : Prop :=
  ∀ expr payload, codec.encodeFrame expr = .ok payload → codec.decodeFrame payload = .ok expr

/-- A log file, where there is one. -/
abbrev LogFile := Option (List UInt8)

/-- Nothing is in a file that is not there. -/
def LogFile.content (file : LogFile) : List UInt8 := file.getD []

/-- The operations of the disk on the directory of a log and on the log, opened for appending or
created anew. -/
structure Disk (ε : Type) where
  parent : String → Option String
  createDirAll : String → Except ε Unit
  openAppend : Effect ε LogFile Unit
  create : Effect ε LogFile Unit
  writeAll : List UInt8 → Effect ε LogFile Unit

/-- An operation of the disk that succeeds has done what it says. -/
structure Disk.Honest {ε : Type} (disk : Disk ε) : Prop where
  openAppend : disk.openAppend file = (.ok (), file') → file' = some file.content
  create : disk.create file = (.ok (), file') → file' = some []
  writeAll : ∀ {bytes file file'}, disk.writeAll bytes file = (.ok (), file') →
    file' = some (file.content ++ bytes)

def u64Bytes : Nat := 8

section
variable {Mode ε : Type} (codec : FrameCodec Mode ε) (disk : Disk ε)

def createParent (path : String) : Effect (MemoryError ε) LogFile Unit :=
  match disk.parent path with
  | some parent => Effect.ofExcept ((disk.createDirAll parent).mapError .kernel)
  | none => pure ()

def writeRecord (expr : Expr Mode) : Effect (MemoryError ε) LogFile Unit := do
  let payload ← Effect.ofExcept ((codec.encodeFrame expr).mapError .kernel)
  if 256 ^ u64Bytes ≤ payload.length then
    Effect.fail (.hostError "memory log payload too large")
  else do
    (disk.writeAll (Records.header u64Bytes payload.length)).mapError .kernel
    (disk.writeAll payload).mapError .kernel

def appendMemoryLog (path : String) (expr : Expr Mode) : Effect (MemoryError ε) LogFile Unit := do
  createParent disk path
  disk.openAppend.mapError .kernel
  writeRecord codec disk expr

def writeRecords : List (Expr Mode) → Effect (MemoryError ε) LogFile Unit
  | [] => pure ()
  | entry :: entries => do
    writeRecord codec disk entry
    writeRecords entries

def rewriteMemoryLog (path : String) (entries : List (Expr Mode)) :
    Effect (MemoryError ε) LogFile Unit := do
  createParent disk path
  disk.create.mapError .kernel
  writeRecords codec disk entries

/-- The error for a fault in the log under `path`. -/
def logError (path : String) : Records.Fault ε → MemoryError ε
  | .partialHeader => .hostError ("memory log " ++ path ++ " ended with a partial length header")
  | .partialRecord => .hostError ("memory log " ++ path ++ " ended with a partial record")
  | .payload e => .kernel e

def loadMemoryLog (path : String) (file : LogFile) : Except (MemoryError ε) (List (Expr Mode)) :=
  match file with
  | none => .ok []
  | some bytes => (Records.read u64Bytes codec.decodeFrame bytes).mapError (logError path)

variable {codec} {disk}

theorem createParent_eq {file : LogFile} (h : createParent disk path file = (result, file')) :
    file' = file := by
  unfold createParent at h
  cases hparent : disk.parent path with
  | none =>
    rw [hparent] at h
    exact (Prod.mk.inj h).2.symm
  | some parent =>
    rw [hparent] at h
    exact (Prod.mk.inj h).2.symm

/-- A payload that is written for an expression. -/
structure Encodes (codec : FrameCodec Mode ε) (expr : Expr Mode) (payload : List UInt8) : Prop where
  encode : codec.encodeFrame expr = .ok payload
  length : payload.length < 256 ^ u64Bytes

theorem Encodes.holds (hcodec : codec.Inverse) (h : Encodes codec expr payload) :
    Records.Holds u64Bytes codec.decodeFrame expr payload :=
  ⟨h.length, hcodec expr payload h.encode⟩

theorem writeRecord_eq_ok (hdisk : disk.Honest) {file : LogFile}
    (h : writeRecord codec disk expr file = (.ok (), file')) :
    ∃ payload, Encodes codec expr payload ∧
      file' = some (file.content ++ Records.record u64Bytes payload) := by
  obtain ⟨payload, file₁, hencode, hwrite⟩ := Effect.bind_eq_ok_iff.mp h
  obtain ⟨hpayload, rfl⟩ := Effect.ofExcept_eq_ok_iff.mp hencode
  by_cases hlarge : 256 ^ u64Bytes ≤ payload.length
  · rw [if_pos hlarge] at hwrite
    cases hwrite
  · rw [if_neg hlarge] at hwrite
    obtain ⟨_, file₂, hheader, hbody⟩ := Effect.bind_eq_ok_iff.mp hwrite
    refine ⟨payload, ⟨Except.mapError_eq_ok_iff.mp hpayload, Nat.lt_of_not_le hlarge⟩, ?_⟩
    rw [hdisk.writeAll (Effect.mapError_eq_ok_iff.mp hbody),
      hdisk.writeAll (Effect.mapError_eq_ok_iff.mp hheader), LogFile.content, Option.getD_some,
      List.append_assoc]
    rfl

theorem writeRecords_eq_ok (hdisk : disk.Honest) {bytes : List UInt8}
    (h : writeRecords codec disk entries (some bytes) = (.ok (), file')) :
    ∃ payloads, List.Forall₂ (Encodes codec) entries payloads ∧
      file' = some (bytes ++ Records.log u64Bytes payloads) := by
  induction entries generalizing bytes with
  | nil =>
    cases h
    exact ⟨[], .nil, by rw [Records.log, List.flatMap_nil, List.append_nil]⟩
  | cons entry entries ih =>
    obtain ⟨_, file₁, hrecord, hrecords⟩ := Effect.bind_eq_ok_iff.mp h
    obtain ⟨payload, hpayload, rfl⟩ := writeRecord_eq_ok hdisk hrecord
    obtain ⟨payloads, hpayloads, rfl⟩ := ih hrecords
    refine ⟨payload :: payloads, .cons hpayload hpayloads, ?_⟩
    rw [LogFile.content, Option.getD_some, List.append_assoc]
    rfl

/-- What a successful append leaves in the file. -/
theorem appendMemoryLog_eq_ok (hdisk : disk.Honest) {file : LogFile}
    (h : appendMemoryLog codec disk path expr file = (.ok (), file')) :
    ∃ payload, Encodes codec expr payload ∧
      file' = some (file.content ++ Records.record u64Bytes payload) := by
  obtain ⟨_, file₁, hparent, hrest⟩ := Effect.bind_eq_ok_iff.mp h
  cases createParent_eq hparent
  obtain ⟨_, file₂, hopen, hrecord⟩ := Effect.bind_eq_ok_iff.mp hrest
  cases hdisk.openAppend (Effect.mapError_eq_ok_iff.mp hopen)
  obtain ⟨payload, hpayload, rfl⟩ := writeRecord_eq_ok hdisk hrecord
  exact ⟨payload, hpayload, rfl⟩

/-- What a successful rewrite leaves in the file. -/
theorem rewriteMemoryLog_eq_ok (hdisk : disk.Honest) {file : LogFile}
    (h : rewriteMemoryLog codec disk path entries file = (.ok (), file')) :
    ∃ payloads, List.Forall₂ (Encodes codec) entries payloads ∧
      file' = some (Records.log u64Bytes payloads) := by
  obtain ⟨_, file₁, -, hrest⟩ := Effect.bind_eq_ok_iff.mp h
  obtain ⟨_, file₂, hcreate, hrecords⟩ := Effect.bind_eq_ok_iff.mp hrest
  cases hdisk.create (Effect.mapError_eq_ok_iff.mp hcreate)
  exact writeRecords_eq_ok hdisk hrecords

/-- A file and the content of a file are loaded alike. -/
theorem loadMemoryLog_eq (path : String) (file : LogFile) : loadMemoryLog codec path file =
    (Records.read u64Bytes codec.decodeFrame file.content).mapError (logError path) := by
  cases file with
  | none => rfl
  | some bytes => rfl

theorem u64Bytes_pos : 0 < u64Bytes := by decide

/-- After an append the entry is loaded behind those before it. -/
theorem load_append (hcodec : codec.Inverse) (hdisk : disk.Honest) {file : LogFile}
    (hload : loadMemoryLog codec path file = .ok entries)
    (h : appendMemoryLog codec disk path expr file = (.ok (), file')) :
    loadMemoryLog codec path file' = .ok (entries ++ [expr]) := by
  obtain ⟨payload, hpayload, rfl⟩ := appendMemoryLog_eq_ok hdisk h
  rw [loadMemoryLog_eq, Except.mapError_eq_ok_iff] at hload
  have hrecord := Records.read_log u64Bytes_pos
    (.cons (hpayload.holds hcodec) (.nil : List.Forall₂ _ [] []))
  rw [Records.log, List.flatMap_singleton] at hrecord
  rw [loadMemoryLog_eq, LogFile.content, Option.getD_some, Except.mapError_eq_ok_iff,
    Records.read_append u64Bytes_pos hload, hrecord]
  rfl

/-- After a rewrite its entries are loaded. -/
theorem load_rewrite (hcodec : codec.Inverse) (hdisk : disk.Honest) {file : LogFile}
    (h : rewriteMemoryLog codec disk path entries file = (.ok (), file')) :
    loadMemoryLog codec path file' = .ok entries := by
  obtain ⟨payloads, hpayloads, rfl⟩ := rewriteMemoryLog_eq_ok hdisk h
  rw [loadMemoryLog_eq, Except.mapError_eq_ok_iff]
  exact Records.read_log u64Bytes_pos (hpayloads.imp fun _ _ h => h.holds hcodec)

/-- A log write that fails leaves the content of the log as it was. -/
def Whole (x : Effect (MemoryError ε) LogFile Unit) (file : LogFile) : Prop :=
  ∀ e file', x file = (.error e, file') → file'.content = file.content

theorem load_of_whole {x : Effect (MemoryError ε) LogFile Unit} {file : LogFile}
    (hx : Whole x file) (h : x file = (.error e, file')) :
    loadMemoryLog codec path file' = loadMemoryLog codec path file := by
  rw [loadMemoryLog_eq, loadMemoryLog_eq, hx e file' h]

/-- An append to a log, at a time when the disk works so. -/
structure LogAppend (Mode ε : Type) where
  disk : Disk ε
  expr : Expr Mode

def LogAppend.write (append : LogAppend Mode ε) (codec : FrameCodec Mode ε) (path : String) :
    Effect (MemoryError ε) LogFile Unit :=
  appendMemoryLog codec append.disk path append.expr

/-- Appends one after another: the expressions whose append succeeds, and the log. -/
def appendAll (codec : FrameCodec Mode ε) (path : String) :
    List (LogAppend Mode ε) → LogFile → List (Expr Mode) × LogFile
  | [], file => ([], file)
  | append :: appends, file =>
    match append.write codec path file with
    | (.ok (), file') =>
      (append.expr :: (appendAll codec path appends file').1,
        (appendAll codec path appends file').2)
    | (.error _, file') => appendAll codec path appends file'

/-- The appends find a disk that does what it says, and take full effect or none. -/
def Appendable (codec : FrameCodec Mode ε) (path : String) : LogFile → LogAppend Mode ε → Prop :=
  fun file append => append.disk.Honest ∧ Whole (append.write codec path) file

/-- What is loaded after some appends: what was loaded before them, and the expressions that have
been appended, in order. -/
theorem load_appendAll (hcodec : codec.Inverse) {appends : List (LogAppend Mode ε)}
    {file : LogFile} (hload : loadMemoryLog codec path file = .ok entries)
    (h : Run.Along (fun file append => (append.write codec path file).2)
      (Appendable codec path) file appends) :
    loadMemoryLog codec path (appendAll codec path appends file).2 =
      .ok (entries ++ (appendAll codec path appends file).1) := by
  induction appends generalizing file entries with
  | nil => exact hload.trans (congrArg Except.ok (List.append_nil _).symm)
  | cons append appends ih =>
    obtain ⟨⟨hdisk, hwhole⟩, hrest⟩ := h
    unfold appendAll
    cases hwrite : append.write codec path file with
    | mk result file' =>
      dsimp only at hrest
      rw [hwrite] at hrest
      cases result with
      | error e => exact ih ((load_of_whole hwhole hwrite).trans hload) hrest
      | ok =>
        have hnext := load_append hcodec hdisk hload hwrite
        have hall := ih hnext hrest
        rwa [List.append_assoc] at hall

/-- A log that is cut within a record is refused. -/
theorem load_cut (hcodec : codec.Inverse) (path : String)
    (h : List.Forall₂ (Encodes codec) entries payloads) {k : Nat}
    (hk : k < (Records.log u64Bytes payloads).length)
    (hcut : ∀ i ≤ payloads.length, k ≠ (Records.log u64Bytes (payloads.take i)).length) :
    ∃ e, loadMemoryLog codec path (some ((Records.log u64Bytes payloads).take k)) = .error e := by
  obtain ⟨e, he⟩ := Records.read_cut u64Bytes_pos (h.imp fun _ _ h => h.holds hcodec) hk hcut
  refine ⟨logError path e, ?_⟩
  rw [loadMemoryLog_eq, LogFile.content, Option.getD_some, he]
  rfl

end

end SimAgentNet.Agent.Memory
