import SimAgentNet.Agent.MemoryLog

/-! # Memories that keep a log

A vector memory logs its entries one by one, a persona memory its whole state. Both take an entry
in before they log it, and log what they restore before they take it in. Embeddings are a
parameter. -/

namespace SimAgentNet.Agent.Memory

/-- A memory in the agent, and the file its log is kept in. -/
structure World (M : Type) where
  memory : M
  file : LogFile

/-- What a call finds: whether it may write, how values are read, and the disk. -/
structure Host (Value Mode ε : Type) where
  requireFsWriteCapability : Except (MemoryError ε) Unit
  valueToSnapshotExpr : Value → Except (MemoryError ε) (Expr Mode)
  disk : Disk ε

section
variable {Value Mode ε M Embedding : Type} (codec : FrameCodec Mode ε)
  (host : Host Value Mode ε)

def onFile (x : Effect (MemoryError ε) LogFile Unit) : Effect (MemoryError ε) (World M) Unit :=
  Effect.focus World.file (fun file world => { world with file }) x

/-- A memory with a log is written to by those who may write files. -/
def requireWrite (path : Option String) : Effect (MemoryError ε) (World M) Unit :=
  if path.isSome then Effect.ofExcept host.requireFsWriteCapability else pure ()

/-- How a memory is opened, what its path is, how it takes an entry in and what it then writes to
the log, and how a snapshot is read and logged. -/
structure Kind (M Mode ε : Type) where
  «open» : Option String → LogFile → Except (MemoryError ε) M
  path : M → Option String
  push : M → Expr Mode → M
  write : Disk ε → String → M → Expr Mode → Effect (MemoryError ε) LogFile Unit
  parse : M → Expr Mode → Except (MemoryError ε) M
  rewrite : Disk ε → String → M → Effect (MemoryError ε) LogFile Unit

namespace Kind
variable (kind : Kind M Mode ε)

/-- A new entry is taken in, and then the log is written. -/
def append (msg : Value) : Effect (MemoryError ε) (World M) Unit := do
  let world ← Effect.get
  requireWrite host (kind.path world.memory)
  let expr ← Effect.ofExcept (host.valueToSnapshotExpr msg)
  Effect.modify fun world => { world with memory := kind.push world.memory expr }
  match kind.path world.memory with
  | some path => onFile (kind.write host.disk path (kind.push world.memory expr) expr)
  | none => pure ()

/-- The log is written anew, and then what it holds is taken in. -/
def restore (snap : Expr Mode) : Effect (MemoryError ε) (World M) Unit := do
  let world ← Effect.get
  requireWrite host (kind.path world.memory)
  let memory ← Effect.ofExcept (kind.parse world.memory snap)
  match kind.path world.memory with
  | some path => onFile (kind.rewrite host.disk path memory)
  | none => pure ()
  Effect.modify fun world => { world with memory }

end Kind

def snapshotEntries : Expr Mode → Except (MemoryError ε) (List (Expr Mode))
  | .nil => .ok []
  | .list items | .vector items => .ok items
  | _ => .error (.typeMismatch "memory snapshot list" "non-list")

/-! ## Vector memories -/

structure VectorEntry (Mode Embedding : Type) where
  expr : Expr Mode
  embedding : Embedding

def VectorEntry.fromExpr (embed : Expr Mode → Embedding) (expr : Expr Mode) :
    VectorEntry Mode Embedding where
  expr := expr
  embedding := embed expr

structure VectorMemory (Mode Embedding : Type) where
  path : Option String
  entries : List (VectorEntry Mode Embedding)

namespace VectorMemory
variable (embed : Expr Mode → Embedding)

def «open» (path : Option String) (file : LogFile) :
    Except (MemoryError ε) (VectorMemory Mode Embedding) := do
  let entries ← match path with
    | some path => loadMemoryLog codec path file
    | none => .ok []
  return { path, entries := entries.map (VectorEntry.fromExpr embed) }

def push (memory : VectorMemory Mode Embedding) (expr : Expr Mode) : VectorMemory Mode Embedding :=
  { memory with entries := memory.entries ++ [VectorEntry.fromExpr embed expr] }

def parse (memory : VectorMemory Mode Embedding) (snap : Expr Mode) :
    Except (MemoryError ε) (VectorMemory Mode Embedding) := do
  let items ← snapshotEntries snap
  return { memory with entries := items.map (VectorEntry.fromExpr embed) }

def exprs (memory : VectorMemory Mode Embedding) : List (Expr Mode) := memory.entries.map (·.expr)

def kind : Kind (VectorMemory Mode Embedding) Mode ε where
  «open» := VectorMemory.open codec embed
  path := VectorMemory.path
  push := push embed
  write disk path _ expr := appendMemoryLog codec disk path expr
  parse := parse embed
  rewrite disk path memory := rewriteMemoryLog codec disk path memory.exprs

def append : Value → Effect (MemoryError ε) (World (VectorMemory Mode Embedding)) Unit :=
  (kind codec embed).append host

def restore : Expr Mode → Effect (MemoryError ε) (World (VectorMemory Mode Embedding)) Unit :=
  (kind codec embed).restore host

end VectorMemory

/-! ## Persona memories -/

structure PersonaState (Mode : Type) where
  profile : List (Expr Mode × Expr Mode) := []
  notes : List (Expr Mode) := []

def PersonaState.snapshot (state : PersonaState Mode) : Expr Mode :=
  .list [.map [Expr.entry "state" (.map state.profile), Expr.entry "notes" (.list state.notes)]]

def readPersonaEntry (state : PersonaState Mode) :
    Expr Mode × Expr Mode → Except (MemoryError ε) (PersonaState Mode)
  | (.symbol symbol, value) =>
    if symbol.name = "state" then
      match value with
      | .map profile => .ok { state with profile }
      | _ => .error (.typeMismatch "persona state map" "non-map")
    else if symbol.name = "notes" then do
      let notes ← snapshotEntries value
      return { state with notes }
    else .ok state
  | _ => .ok state

def personaStateFromSnapshot (snapshot : Expr Mode) :
    Except (MemoryError ε) (PersonaState Mode) := do
  let items ← match snapshot with
    | .list items | .vector items => .ok items
    | _ => .error (.typeMismatch "persona snapshot list" "non-list")
  match items with
  | [] => .ok {}
  | .map entries :: _ => entries.foldlM readPersonaEntry {}
  | _ :: _ => .error (.typeMismatch "persona snapshot map" "non-map")

/-- What a persona memory opens from the entries of its log. -/
def personaStateFromEntries (path : String) :
    List (Expr Mode) → Except (MemoryError ε) (PersonaState Mode)
  | [] => .ok {}
  | [snapshot] => personaStateFromSnapshot snapshot
  | _ => .error (.hostError ("persona memory " ++ path ++ " expected at most one snapshot entry"))

structure PersonaMemory (Mode : Type) where
  path : Option String
  state : PersonaState Mode

namespace PersonaMemory

def «open» (path : Option String) (file : LogFile) :
    Except (MemoryError ε) (PersonaMemory Mode) :=
  let state := match path with
    | some path => loadMemoryLog codec path file >>= personaStateFromEntries path
    | none => .ok {}
  PersonaMemory.mk path <$> state

def push (memory : PersonaMemory Mode) (note : Expr Mode) : PersonaMemory Mode :=
  { memory with state := { memory.state with notes := memory.state.notes ++ [note] } }

def entries (memory : PersonaMemory Mode) : List (Expr Mode) := [memory.state.snapshot]

def parse (memory : PersonaMemory Mode) (snap : Expr Mode) :
    Except (MemoryError ε) (PersonaMemory Mode) := do
  let state ← personaStateFromSnapshot snap
  return { memory with state }

def kind : Kind (PersonaMemory Mode) Mode ε where
  «open» := PersonaMemory.open codec
  path := PersonaMemory.path
  push := push
  write disk path memory _ := rewriteMemoryLog codec disk path memory.entries
  parse := parse
  rewrite disk path memory := rewriteMemoryLog codec disk path memory.entries

def append : Value → Effect (MemoryError ε) (World (PersonaMemory Mode)) Unit :=
  (kind codec).append host

def restore : Expr Mode → Effect (MemoryError ε) (World (PersonaMemory Mode)) Unit :=
  (kind codec).restore host

end PersonaMemory

/-! ## Calls -/

inductive Call (Value Mode : Type) where
  | append (msg : Value)
  | restore (snap : Expr Mode)

/-- A call, and what it finds. -/
structure Request (Value Mode ε : Type) where
  host : Host Value Mode ε
  call : Call Value Mode

namespace Kind
variable (kind : Kind M Mode ε)

def step (request : Request Value Mode ε) : Effect (MemoryError ε) (World M) Unit :=
  match request.call with
  | .append msg => kind.append request.host msg
  | .restore snap => kind.restore request.host snap

/-- The state a call leaves, whatever it returns. -/
def next (world : World M) (request : Request Value Mode ε) : World M :=
  (kind.step request world).2

/-- What is in the agent is what would be loaded. -/
def Agrees (path : String) (world : World M) : Prop :=
  kind.open (some path) world.file = .ok world.memory

/-- The log write of a call takes full effect or none, on a disk that does what it says. -/
def WholeWrite (path : String) (world : World M) (request : Request Value Mode ε) : Prop :=
  request.host.disk.Honest ∧
    match request.call with
    | .append msg => ∀ expr, request.host.valueToSnapshotExpr msg = .ok expr →
      Whole (kind.write request.host.disk path (kind.push world.memory expr) expr) world.file
    | .restore snap => ∀ memory, kind.parse world.memory snap = .ok memory →
      Whole (kind.rewrite request.host.disk path memory) world.file

/-- An append that gets as far as the log can write to it. -/
def AppendLogged (path : String) (world : World M) (request : Request Value Mode ε) : Prop :=
  match request.call with
  | .append msg => request.host.requireFsWriteCapability = .ok () →
    ∀ expr, request.host.valueToSnapshotExpr msg = .ok expr →
      (kind.write request.host.disk path (kind.push world.memory expr) expr world.file).1 = .ok ()
  | .restore _ => True

/-- What the log of a memory is worth. -/
structure Lawful (kind : Kind M Mode ε) : Prop where
  path_of_open : ∀ {path : String} {file memory}, kind.open (some path) file = .ok memory →
    kind.path memory = some path
  open_congr : ∀ {path : String} {file file' : LogFile}, file'.content = file.content →
    kind.open (some path) file' = kind.open (some path) file
  push_ne : ∀ memory expr, kind.push memory expr ≠ memory
  open_write : ∀ {disk : Disk ε} {path : String} {file memory expr file'}, disk.Honest →
    kind.open (some path) file = .ok memory →
    kind.write disk path (kind.push memory expr) expr file = (.ok (), file') →
    kind.open (some path) file' = .ok (kind.push memory expr)
  open_rewrite : ∀ {disk : Disk ε} {path : String} {file memory snap memory' file'}, disk.Honest →
    kind.open (some path) file = .ok memory → kind.parse memory snap = .ok memory' →
    kind.rewrite disk path memory' file = (.ok (), file') →
    kind.open (some path) file' = .ok memory'

variable {kind} {host}

section
variable {path : String} {world : World M}

theorem requireWrite_some : requireWrite host (some path) world =
    (host.requireFsWriteCapability, world) := rfl

/-- What an append does, step by step. -/
theorem append_apply (hpath : kind.path world.memory = some path) :
    kind.append host msg world =
      match host.requireFsWriteCapability with
      | .error e => (.error e, world)
      | .ok () =>
        match host.valueToSnapshotExpr msg with
        | .error e => (.error e, world)
        | .ok expr =>
          ((kind.write host.disk path (kind.push world.memory expr) expr world.file).1,
            { memory := kind.push world.memory expr
              file :=
                (kind.write host.disk path (kind.push world.memory expr) expr world.file).2 }) := by
  simp only [append, Effect.bind_apply, Effect.get_apply, hpath, requireWrite_some,
    Effect.ofExcept_apply, Effect.modify_apply]
  cases host.requireFsWriteCapability with
  | error e => rfl
  | ok =>
    cases host.valueToSnapshotExpr msg with
    | error e => rfl
    | ok expr => rfl

/-- What a restore does, step by step. -/
theorem restore_apply (hpath : kind.path world.memory = some path) :
    kind.restore host snap world =
      match host.requireFsWriteCapability with
      | .error e => (.error e, world)
      | .ok () =>
        match kind.parse world.memory snap with
        | .error e => (.error e, world)
        | .ok memory =>
          match kind.rewrite host.disk path memory world.file with
          | (.error e, file) => (.error e, { world with file })
          | (.ok (), file) => (.ok (), { memory, file }) := by
  simp only [restore, Effect.bind_apply, Effect.get_apply, hpath, requireWrite_some,
    Effect.ofExcept_apply, Effect.modify_apply, onFile, Effect.focus]
  cases host.requireFsWriteCapability with
  | error e => rfl
  | ok =>
    cases kind.parse world.memory snap with
    | error e => rfl
    | ok memory =>
      dsimp only
      cases kind.rewrite host.disk path memory world.file with
      | mk result file => cases result <;> rfl

/-- One call: agreement is kept unless an append fails at the log. -/
theorem Lawful.agrees_next_iff (h : kind.Lawful) {request : Request Value Mode ε}
    (hagrees : kind.Agrees path world) (hwhole : kind.WholeWrite path world request) :
    kind.Agrees path (kind.next world request) ↔ kind.AppendLogged path world request := by
  obtain ⟨host, call⟩ := request
  obtain ⟨hdisk, hwhole⟩ := hwhole
  have hpath : kind.path world.memory = some path := h.path_of_open hagrees
  cases call with
  | append msg =>
    unfold next step AppendLogged
    dsimp only at hwhole ⊢
    rw [append_apply hpath]
    cases hhost : host.requireFsWriteCapability with
    | error e => exact iff_of_true hagrees nofun
    | ok =>
      dsimp only
      cases hmsg : host.valueToSnapshotExpr msg with
      | error e => exact iff_of_true hagrees fun _ => nofun
      | ok expr =>
        unfold Agrees
        dsimp only
        cases hwrite : kind.write host.disk path (kind.push world.memory expr) expr world.file with
        | mk result file =>
          cases result with
          | ok =>
            refine iff_of_true (h.open_write hdisk hagrees hwrite) ?_
            rintro - _ ⟨⟩
            exact congrArg Prod.fst hwrite
          | error e =>
            refine iff_of_false (fun hopen => ?_) fun hlogged => ?_
            · have hsame : kind.open (some path) _ = kind.open (some path) _ :=
                h.open_congr (hwhole expr hmsg e file hwrite)
              have heq : (.ok (kind.push world.memory expr) : Except (MemoryError ε) M) =
                  .ok world.memory := (hopen.symm.trans hsame).trans hagrees
              exact h.push_ne _ _ (Except.ok.inj heq)
            · have hok := hlogged rfl expr rfl
              rw [hwrite] at hok
              cases hok
  | restore snap =>
    refine iff_of_true ?_ trivial
    unfold next step
    dsimp only at hwhole ⊢
    rw [restore_apply hpath]
    cases hhost : host.requireFsWriteCapability with
    | error e => exact hagrees
    | ok =>
      dsimp only
      cases hsnap : kind.parse world.memory snap with
      | error e => exact hagrees
      | ok memory =>
        dsimp only
        cases hwrite : kind.rewrite host.disk path memory world.file with
        | mk result file =>
          cases result with
          | ok => exact h.open_rewrite hdisk hagrees hsnap hwrite
          | error e => exact (h.open_congr (hwhole memory hsnap e file hwrite)).trans hagrees

/-- All along a run agreement is kept exactly when no append fails at the log. -/
theorem Lawful.agrees_along_iff (h : kind.Lawful) {requests : List (Request Value Mode ε)}
    (hagrees : kind.Agrees path world)
    (hwhole : Run.Along kind.next (kind.WholeWrite path) world requests) :
    Run.Along kind.next (fun world request => kind.Agrees path (kind.next world request)) world
        requests ↔
      Run.Along kind.next (kind.AppendLogged path) world requests :=
  Run.along_iff (fun _ _ => h.agrees_next_iff) hagrees hwhole

end

end Kind

/-! ## The two memories -/

section
variable {codec}

theorem VectorMemory.open_eq_ok_iff {embed : Expr Mode → Embedding} {path : String} :
    VectorMemory.open codec embed (some path) file = .ok memory ↔
      ∃ exprs, loadMemoryLog codec path file = .ok exprs ∧
        memory = ⟨some path, exprs.map (VectorEntry.fromExpr embed)⟩ := by
  unfold VectorMemory.open
  rw [Except.bind_eq_ok_iff]
  exact exists_congr fun exprs => and_congr_right fun _ =>
    ⟨fun h => (Except.ok.inj h).symm, fun h => congrArg Except.ok h.symm⟩

theorem VectorMemory.lawful (hcodec : codec.Inverse) (embed : Expr Mode → Embedding) :
    (VectorMemory.kind codec embed).Lawful := by
  constructor
  case path_of_open =>
    intro path file memory h
    obtain ⟨exprs, -, rfl⟩ := open_eq_ok_iff.mp h
    rfl
  case open_congr =>
    intro path file file' h
    unfold VectorMemory.kind VectorMemory.open
    dsimp only
    rw [loadMemoryLog_eq, loadMemoryLog_eq, h]
  case push_ne =>
    intro memory expr h
    have hlen := congrArg (fun memory : VectorMemory Mode Embedding => memory.entries.length) h
    simp [kind, push] at hlen
  case open_write =>
    intro disk path file memory expr file' hdisk hopen hwrite
    obtain ⟨exprs, hload, rfl⟩ := open_eq_ok_iff.mp hopen
    refine open_eq_ok_iff.mpr ⟨exprs ++ [expr], load_append hcodec hdisk hload hwrite, ?_⟩
    rw [List.map_append]
    rfl
  case open_rewrite =>
    intro disk path file memory snap memory' file' hdisk hopen hparse hwrite
    obtain ⟨exprs, -, rfl⟩ := open_eq_ok_iff.mp hopen
    obtain ⟨items, hitems, hmemory⟩ := Except.bind_eq_ok_iff.mp hparse
    cases hmemory
    refine open_eq_ok_iff.mpr ⟨items, ?_, rfl⟩
    have hexprs : (items.map (VectorEntry.fromExpr embed)).map (·.expr) = items := by
      simp [VectorEntry.fromExpr, Function.comp_def]
    have hload : loadMemoryLog codec path _ = .ok _ := load_rewrite hcodec hdisk hwrite
    unfold VectorMemory.exprs at hload
    rwa [hexprs] at hload

theorem PersonaMemory.open_eq_ok_iff {path : String} :
    PersonaMemory.open codec (some path) file = .ok memory ↔
      ∃ entries state, loadMemoryLog codec path file = .ok entries ∧
        personaStateFromEntries path entries = (.ok state : Except (MemoryError ε) _) ∧
        memory = ⟨some path, state⟩ := by
  unfold PersonaMemory.open
  dsimp only
  rw [Except.map_eq_ok_iff]
  constructor
  · rintro ⟨state, h, rfl⟩
    obtain ⟨entries, hentries, hstate⟩ := Except.bind_eq_ok_iff.mp h
    exact ⟨entries, state, hentries, hstate, rfl⟩
  · rintro ⟨entries, state, hentries, hstate, rfl⟩
    exact ⟨state, Except.bind_eq_ok_iff.mpr ⟨entries, hentries, hstate⟩, rfl⟩

/-- The snapshot of a persona is read as that persona. -/
theorem personaStateFromSnapshot_snapshot (state : PersonaState Mode) :
    personaStateFromSnapshot state.snapshot = (.ok state : Except (MemoryError ε) _) := by
  rfl

/-- A persona memory that has been logged is opened as it was. -/
theorem PersonaMemory.open_of_rewrite (hcodec : codec.Inverse) {disk : Disk ε}
    (hdisk : disk.Honest) {path : String} {memory : PersonaMemory Mode} (hpath : memory.path = some path)
    (h : rewriteMemoryLog codec disk path memory.entries file = (.ok (), file')) :
    PersonaMemory.open codec (some path) file' = .ok memory :=
  open_eq_ok_iff.mpr ⟨_, memory.state, load_rewrite hcodec hdisk h,
    personaStateFromSnapshot_snapshot memory.state, by rw [← hpath]⟩

theorem PersonaMemory.lawful (hcodec : codec.Inverse) : (PersonaMemory.kind codec).Lawful := by
  constructor
  case path_of_open =>
    intro path file memory h
    obtain ⟨_, state, -, -, rfl⟩ := open_eq_ok_iff.mp h
    rfl
  case open_congr =>
    intro path file file' h
    unfold PersonaMemory.kind PersonaMemory.open
    dsimp only
    rw [loadMemoryLog_eq, loadMemoryLog_eq, h]
  case push_ne =>
    intro memory note h
    have hlen := congrArg (fun memory : PersonaMemory Mode => memory.state.notes.length) h
    simp [kind, push] at hlen
  case open_write =>
    intro disk path file memory note file' hdisk hopen hwrite
    obtain ⟨_, state, -, -, rfl⟩ := open_eq_ok_iff.mp hopen
    exact open_of_rewrite hcodec hdisk rfl hwrite
  case open_rewrite =>
    intro disk path file memory snap memory' file' hdisk hopen hparse hwrite
    obtain ⟨_, state, -, -, rfl⟩ := open_eq_ok_iff.mp hopen
    obtain ⟨state', -, hmemory⟩ := Except.bind_eq_ok_iff.mp hparse
    cases hmemory
    exact open_of_rewrite hcodec hdisk rfl hwrite

/-- What is asked of a memory and its log: agreement after every call of every run. -/
def AgreesAlong (kind : Kind M Mode ε) (path : String) (world : World M)
    (requests : List (Request Value Mode ε)) : Prop :=
  Run.Along kind.next (fun world request => kind.Agrees path (kind.next world request)) world
    requests

/-- The memories agree with their logs after every call exactly when no append fails at the log;
a log that has been written anew and appended to is loaded as it was written; and a log that is
cut within a record is refused. -/
theorem memory_and_log (hcodec : codec.Inverse) (path : String) :
    (∀ (embed : Expr Mode → Embedding) (world : World (VectorMemory Mode Embedding))
      (requests : List (Request Value Mode ε)),
      (VectorMemory.kind codec embed).Agrees path world →
      Run.Along (VectorMemory.kind codec embed).next
        ((VectorMemory.kind codec embed).WholeWrite path) world requests →
      (AgreesAlong (VectorMemory.kind codec embed) path world requests ↔
        Run.Along (VectorMemory.kind codec embed).next
          ((VectorMemory.kind codec embed).AppendLogged path) world requests)) ∧
    (∀ (world : World (PersonaMemory Mode)) (requests : List (Request Value Mode ε)),
      (PersonaMemory.kind codec).Agrees path world →
      Run.Along (PersonaMemory.kind codec).next
        ((PersonaMemory.kind codec).WholeWrite path) world requests →
      (AgreesAlong (PersonaMemory.kind codec) path world requests ↔
        Run.Along (PersonaMemory.kind codec).next
          ((PersonaMemory.kind codec).AppendLogged path) world requests)) ∧
    (∀ (disk : Disk ε) (entries : List (Expr Mode)) (appends : List (LogAppend Mode ε))
      (file file' : LogFile), disk.Honest →
      rewriteMemoryLog codec disk path entries file = (.ok (), file') →
      Run.Along (fun file append => (append.write codec path file).2) (Appendable codec path)
        file' appends →
      loadMemoryLog codec path (appendAll codec path appends file').2 =
        .ok (entries ++ (appendAll codec path appends file').1)) ∧
    ∀ (entries : List (Expr Mode)) (payloads : List (List UInt8)) (k : Nat),
      List.Forall₂ (Encodes codec) entries payloads →
      k < (Records.log u64Bytes payloads).length →
      (∀ i ≤ payloads.length, k ≠ (Records.log u64Bytes (payloads.take i)).length) →
      ∃ e, loadMemoryLog codec path (some ((Records.log u64Bytes payloads).take k)) =
        .error e := by
  refine ⟨fun embed world requests => ?_, fun world requests => ?_, ?_, ?_⟩
  · exact (VectorMemory.lawful hcodec embed).agrees_along_iff
  · exact (PersonaMemory.lawful hcodec).agrees_along_iff
  · intro disk entries appends file file' hdisk hwrite hwhole
    exact load_appendAll hcodec (load_rewrite hcodec hdisk hwrite) hwhole
  · intro entries payloads k h hk hcut
    exact load_cut hcodec path h hk hcut

end

end

namespace MemorySample

def codec : FrameCodec Unit Unit where
  encodeFrame
    | .nil => .ok [0]
    | _ => .error ()
  decodeFrame payload := if payload = [0] then .ok .nil else .error ()

theorem codec_inverse : codec.Inverse := by
  intro expr payload h
  cases expr with
  | nil =>
    cases h
    rfl
  | _ => cases h

/-- A disk where a log can be opened, or not. -/
def disk (opens : Bool) : Disk Unit where
  parent _ := none
  createDirAll _ := .ok ()
  openAppend file := if opens then (.ok (), some file.content) else (.error (), file)
  create _ := (.ok (), some [])
  writeAll bytes file := (.ok (), some (file.content ++ bytes))

theorem disk_honest (opens : Bool) : (disk opens).Honest := by
  constructor
  case openAppend =>
    intro file file' h
    cases opens <;> cases h
    rfl
  case create =>
    intro file file' h
    cases h
    rfl
  case writeAll =>
    intro bytes file file' h
    cases h
    rfl

def kind : Kind (VectorMemory Unit Unit) Unit Unit := VectorMemory.kind codec fun _ => ()

def empty : World (VectorMemory Unit Unit) := ⟨⟨some "log", []⟩, none⟩

/-- An append of `nil`. -/
def request (opens : Bool) : Request (Expr Unit) Unit Unit where
  host := ⟨.ok (), .ok, disk opens⟩
  call := .append .nil

theorem request_whole (opens : Bool) : kind.WholeWrite "log" empty (request opens) := by
  refine ⟨disk_honest opens, ?_⟩
  rintro expr ⟨⟩ e file h
  cases opens <;> cases h
  rfl

/-- The log cannot be opened; the entry stays in the memory. -/
theorem entry_not_logged :
    codec.Inverse ∧ kind.WholeWrite "log" empty (request false) ∧ kind.Agrees "log" empty ∧
      ¬kind.Agrees "log" (kind.next empty (request false)) := by
  refine ⟨codec_inverse, request_whole false, rfl, fun h => ?_⟩
  cases h

theorem logged_entry_agrees :
    AgreesAlong (VectorMemory.kind codec fun _ => ()) "log" empty [request true] :=
  ((memory_and_log codec_inverse "log").1 _ empty [request true] rfl
    ⟨request_whole true, trivial⟩).mpr ⟨fun _ _ h => by cases h; rfl, trivial⟩

end MemorySample

end SimAgentNet.Agent.Memory
