import SimAgentNet.Data.Effect
import SimAgentNet.Data.Lines

/-! # File-tail triggers

A poll reads the whole file and delivers the lines that have ended since the last one. How far the
file has been read is noted before the first line is delivered. -/

namespace SimAgentNet.Server.FileTail

def newline : UInt8 := 10
def carriageReturn : UInt8 := 13

def isAsciiWhitespace (b : UInt8) : Bool := b == 9 || b == 10 || b == 12 || b == 13 || b == 32

structure TriggerState where
  fileOffset : Nat := 0
  fileRemainder : List UInt8 := []
  delivered : Nat := 0
deriving DecidableEq

/-- What the delivery of an event goes through: the capability of the source, the decoder, the
frame with its time, and the server. -/
structure Delivery (ε σ Event Frame : Type) where
  requireSourceCapability : Effect ε σ Unit
  decodeEvent : List UInt8 → Effect ε σ Event
  triggerFrame : Event → Effect ε σ Frame
  deliverTriggerFrame : Frame → Effect ε σ Unit

/-- A trigger, the world it delivers to, and the lines that have been delivered, in order. The
lines are noted for the statements; nothing reads them. -/
structure Tail (σ : Type) where
  state : TriggerState
  world : σ
  log : List (List UInt8)
deriving DecidableEq

def isBlank (line : List UInt8) : Bool := line.all isAsciiWhitespace

/-- A line without its carriage return. -/
def chomp (line : List UInt8) : List UInt8 :=
  if line.getLast? = some carriageReturn then line.dropLast else line

/-- The lines that have ended, and the state that has them read. -/
def takeLines (state : TriggerState) (bytes : List UInt8) : List (List UInt8) × TriggerState :=
  let state := if state.fileOffset > bytes.length then
    { state with fileOffset := 0, fileRemainder := [] } else state
  let pending := state.fileRemainder ++ bytes.drop state.fileOffset
  let lines := Lines.split newline [] pending
  (lines.1.map chomp, { state with fileOffset := bytes.length, fileRemainder := lines.2 })

section
variable {ε σ Event Frame : Type}

namespace Delivery

/-- What an event does to the world. -/
def deliver (delivery : Delivery ε σ Event Frame) (raw : List UInt8) : Effect ε σ Unit := do
  delivery.requireSourceCapability
  let event ← delivery.decodeEvent raw
  let frame ← delivery.triggerFrame event
  delivery.deliverTriggerFrame frame

def injectEvent (delivery : Delivery ε σ Event Frame) (raw : List UInt8) :
    Effect ε (Tail σ) Unit := do
  Effect.focus Tail.world (fun world tail => { tail with world }) (delivery.deliver raw)
  Effect.modify fun tail =>
    { tail with
      state := { tail.state with delivered := tail.state.delivered + 1 }
      log := tail.log ++ [raw] }

def deliverLines (delivery : Delivery ε σ Event Frame) (delivered : Nat) :
    List (List UInt8) → Effect ε (Tail σ) Nat
  | [] => pure delivered
  | line :: lines =>
    if isBlank line then delivery.deliverLines delivered lines
    else do
      delivery.injectEvent line
      delivery.deliverLines (delivered + 1) lines

/-- One poll; `read` is what reading the file gives. -/
def pollFileTail (delivery : Delivery ε σ Event Frame) (read : Except ε (List UInt8)) :
    Effect ε (Tail σ) Nat := do
  let bytes ← Effect.ofExcept read
  let tail ← Effect.get
  let (lines, state) := takeLines tail.state bytes
  Effect.modify fun tail => { tail with state }
  delivery.deliverLines 0 lines

end Delivery

/-- What a poll finds: the file, and how events are delivered at that time. -/
structure Poll (ε σ Event Frame : Type) where
  read : Except ε (List UInt8)
  delivery : Delivery ε σ Event Frame

def Poll.poll (poll : Poll ε σ Event Frame) : Effect ε (Tail σ) Nat :=
  poll.delivery.pollFileTail poll.read

/-- The thread of a trigger: it polls until a poll fails. -/
def run : List (Poll ε σ Event Frame) → Tail σ → Tail σ
  | [], tail => tail
  | poll :: polls, tail =>
    match poll.poll tail with
    | (.ok _, tail) => run polls tail
    | (.error _, tail) => tail

/-- Polls one after another, whatever each of them returns. -/
def pollAll (polls : List (Poll ε σ Event Frame)) (tail : Tail σ) : Tail σ :=
  polls.foldl (fun tail poll => (poll.poll tail).2) tail

/-- A thread makes some of the polls, the first ones. -/
theorem run_eq_pollAll (polls : List (Poll ε σ Event Frame)) (tail : Tail σ) :
    ∃ n, run polls tail = pollAll (polls.take n) tail := by
  induction polls generalizing tail with
  | nil => exact ⟨0, rfl⟩
  | cons poll polls ih =>
    rw [run]
    split
    · rename_i h
      obtain ⟨n, hn⟩ := ih _
      refine ⟨n + 1, ?_⟩
      rw [List.take_succ_cons, pollAll, List.foldl_cons, h]
      exact hn
    · rename_i h
      refine ⟨1, ?_⟩
      rw [List.take_succ_cons, pollAll, List.foldl_cons, h]
      rfl

end

/-! ## The lines of a file -/

/-- The lines of a file that have ended and are not blank, without their endings. -/
def fileLines (file : List UInt8) : List (List UInt8) :=
  ((file.splitOn newline).dropLast.map chomp).filter fun line => !isBlank line

/-- The lines of a file that had not ended when less of it was there. -/
def newLines (seen file : List UInt8) : List (List UInt8) :=
  (fileLines file).drop (fileLines seen).length

theorem fileLines_eq (file : List UInt8) : fileLines file =
    ((Lines.split newline [] file).1.map chomp).filter fun line => !isBlank line := by
  have hsplit := Lines.split_eq_splitOn newline List.not_mem_nil file
  rw [List.nil_append] at hsplit
  rw [fileLines, ← hsplit, List.dropLast_concat]

/-- What has been read of a file is noted in the state. -/
structure Seen (state : TriggerState) (seen : List UInt8) : Prop where
  fileOffset : state.fileOffset = seen.length
  fileRemainder : state.fileRemainder = (Lines.split newline [] seen).2

theorem fileLines_append (seen rest : List UInt8) : fileLines (seen ++ rest) =
    fileLines seen ++
      ((Lines.split newline (Lines.split newline [] seen).2 rest).1.map chomp).filter
        fun line => !isBlank line := by
  rw [fileLines_eq, fileLines_eq, Lines.split_append, List.map_append, List.filter_append]

theorem fileLines_eq_append_newLines {seen file : List UInt8} (h : seen <+: file) :
    fileLines file = fileLines seen ++ newLines seen file := by
  obtain ⟨rest, rfl⟩ := h
  rw [newLines, fileLines_append, List.drop_left]

theorem newLines_trans {seen file last : List UInt8} (h : seen <+: file) (h' : file <+: last) :
    newLines seen last = newLines seen file ++ newLines file last := by
  have hlast := fileLines_eq_append_newLines h'
  rw [fileLines_eq_append_newLines h, List.append_assoc,
    fileLines_eq_append_newLines (h.trans h')] at hlast
  exact List.append_cancel_left hlast

theorem newLines_self (file : List UInt8) : newLines file file = [] := List.drop_length

/-- The lines taken from a file that has grown are those that have ended since. -/
theorem takeLines_of_seen {state : TriggerState} {seen file : List UInt8} (h : Seen state seen)
    (hgrown : seen <+: file) :
    ((takeLines state file).1.filter fun line => !isBlank line) = newLines seen file ∧
      Seen (takeLines state file).2 file := by
  obtain ⟨rest, rfl⟩ := hgrown
  have hoffset : ¬state.fileOffset > (seen ++ rest).length := by
    rw [h.fileOffset, List.length_append]
    omega
  have hpending : Lines.split newline [] (state.fileRemainder ++
      (seen ++ rest).drop state.fileOffset) =
        Lines.split newline (Lines.split newline [] seen).2 rest := by
    rw [h.fileOffset, List.drop_left, h.fileRemainder,
      Lines.split_append_of_not_mem _ (Lines.not_mem_begun _ List.not_mem_nil seen),
      List.nil_append]
  unfold takeLines
  rw [if_neg hoffset]
  dsimp only
  rw [hpending]
  refine ⟨?_, rfl, ?_⟩
  · rw [newLines, fileLines_append, List.drop_left]
  · rw [Lines.split_append]

/-! ## What a poll delivers -/

section
variable {ε σ Event Frame : Type}

/-- Events delivered one after another. -/
def Delivery.deliverAll (delivery : Delivery ε σ Event Frame) :
    List (List UInt8) → Effect ε σ Unit
  | [] => pure ()
  | raw :: raws => do
    delivery.deliver raw
    delivery.deliverAll raws

/-- Some of the lines have been delivered, the first ones; all of them exactly when no delivery
fails. -/
structure Landed (delivery : Delivery ε σ Event Frame) (lines : List (List UInt8))
    (tail tail' : Tail σ) (k : Nat) : Prop where
  log : tail'.log = tail.log ++ lines.take k
  all : lines.length ≤ k ↔ ∃ world, delivery.deliverAll lines tail.world = (.ok (), world)
  world : ∀ world, delivery.deliverAll lines tail.world = (.ok (), world) → tail'.world = world

theorem deliverLines_of_delivered {delivery : Delivery ε σ Event Frame} {tail : Tail σ}
    (hline : isBlank line = false) (h : delivery.deliver line tail.world = (.ok (), world)) :
    delivery.deliverLines n (line :: lines) tail =
      delivery.deliverLines (n + 1) lines
        { state := { tail.state with delivered := tail.state.delivered + 1 }
          world
          log := tail.log ++ [line] } := by
  rw [Delivery.deliverLines, if_neg (Bool.not_eq_true _ ▸ hline), Effect.bind_apply,
    Delivery.injectEvent, Effect.bind_apply, Effect.focus, h]
  rfl

theorem deliverLines_of_failed {delivery : Delivery ε σ Event Frame} {tail : Tail σ}
    (hline : isBlank line = false) (h : delivery.deliver line tail.world = (.error e, world)) :
    delivery.deliverLines n (line :: lines) tail = (.error e, { tail with world }) := by
  rw [Delivery.deliverLines, if_neg (Bool.not_eq_true _ ▸ hline), Effect.bind_apply,
    Delivery.injectEvent, Effect.bind_apply, Effect.focus, h]

theorem deliverLines_landed (delivery : Delivery ε σ Event Frame) (lines : List (List UInt8))
    (n : Nat) (tail : Tail σ) :
    (∀ seen, Seen tail.state seen → Seen (delivery.deliverLines n lines tail).2.state seen) ∧
    ∃ k, Landed delivery (lines.filter fun line => !isBlank line) tail
      (delivery.deliverLines n lines tail).2 k := by
  induction lines generalizing n tail with
  | nil =>
    refine ⟨fun _ => id, 0, (List.append_nil _).symm, iff_of_true le_rfl ⟨_, rfl⟩, ?_⟩
    rintro world ⟨⟩
    rfl
  | cons line lines ih =>
    cases hline : isBlank line with
    | true =>
      rw [List.filter_cons_of_neg (by simp [hline]), Delivery.deliverLines, if_pos hline]
      exact ih n tail
    | false =>
      rw [List.filter_cons_of_pos (by simp [hline])]
      generalize hraws : (lines.filter fun line => !isBlank line) = raws at ih ⊢
      have hall : delivery.deliverAll (line :: raws) tail.world =
          (delivery.deliver line >>= fun _ => delivery.deliverAll raws) tail.world := rfl
      rw [Effect.bind_apply] at hall
      cases h : delivery.deliver line tail.world with
      | mk result world =>
        rw [h] at hall
        cases result with
        | error e =>
          rw [deliverLines_of_failed hline h]
          refine ⟨fun _ => id, 0, (List.append_nil _).symm, iff_of_false nofun ?_, ?_⟩
          · rintro ⟨world', hworld⟩
            cases hall.symm.trans hworld
          · intro world' hworld
            cases hall.symm.trans hworld
        | ok =>
          rw [deliverLines_of_delivered hline h]
          obtain ⟨hseen, k, hlog, hk, hworld⟩ := ih (n + 1)
            { state := { tail.state with delivered := tail.state.delivered + 1 }
              world
              log := tail.log ++ [line] }
          refine ⟨fun seen hs => hseen seen ⟨hs.1, hs.2⟩, k + 1, ?_, ?_, ?_⟩
          · rw [hlog, List.take_succ_cons, List.append_assoc]
            rfl
          · rw [hall, ← hk, List.length_cons, Nat.succ_le_succ_iff]
          · rw [hall]
            exact hworld

/-- What one poll does to a trigger that has read the file up to `seen`. -/
theorem poll_landed {poll : Poll ε σ Event Frame} {tail : Tail σ} {seen file : List UInt8}
    (hseen : Seen tail.state seen) (hread : poll.read = .ok file) (hgrown : seen <+: file) :
    Seen (poll.poll tail).2.state file ∧
      ∃ k, Landed poll.delivery (newLines seen file) tail (poll.poll tail).2 k := by
  obtain ⟨hlines, hstate⟩ := takeLines_of_seen hseen hgrown
  have hpoll : poll.poll tail = poll.delivery.deliverLines 0 (takeLines tail.state file).1
      { tail with state := (takeLines tail.state file).2 } := by
    unfold Poll.poll Delivery.pollFileTail
    rw [hread]
    rfl
  obtain ⟨hkept, hlanded⟩ := deliverLines_landed poll.delivery (takeLines tail.state file).1 0
    { tail with state := (takeLines tail.state file).2 }
  rw [hpoll]
  rw [hlines] at hlanded
  obtain ⟨k, hlog, hall, hworld⟩ := hlanded
  exact ⟨hkept file hstate, k, hlog, hall, hworld⟩

theorem poll_of_error {poll : Poll ε σ Event Frame} (tail : Tail σ) (h : poll.read = .error e) :
    (poll.poll tail).2 = tail := by
  unfold Poll.poll Delivery.pollFileTail
  rw [h]
  rfl

/-! ## Runs -/

/-- The file that the last poll to read one has read. -/
def lastRead (seen : List UInt8) : List (Poll ε σ Event Frame) → List UInt8
  | [] => seen
  | poll :: polls =>
    match poll.read with
    | .ok file => lastRead file polls
    | .error _ => lastRead seen polls

/-- The file only grows. -/
def Grows (seen : List UInt8) : List (Poll ε σ Event Frame) → Prop
  | [] => True
  | poll :: polls =>
    match poll.read with
    | .ok file => seen <+: file ∧ Grows file polls
    | .error _ => Grows seen polls

/-- Whenever the file is read, the lines that have ended since can be delivered, one after the
other. -/
def Smooth (seen : List UInt8) (world : σ) : List (Poll ε σ Event Frame) → Prop
  | [] => True
  | poll :: polls =>
    match poll.read with
    | .ok file => ∃ world', poll.delivery.deliverAll (newLines seen file) world = (.ok (), world') ∧
      Smooth file world' polls
    | .error _ => Smooth seen world polls

theorem Grows.prefix_lastRead {polls : List (Poll ε σ Event Frame)} (h : Grows seen polls) :
    seen <+: lastRead seen polls := by
  induction polls generalizing seen with
  | nil => exact List.prefix_rfl
  | cons poll polls ih =>
    unfold Grows at h
    unfold lastRead
    split at h
    · exact h.1.trans (ih h.2)
    · exact ih h

/-- A run delivers some of the lines that end in it, in order and each once, and all of them
exactly when no delivery fails. -/
theorem pollAll_landed {polls : List (Poll ε σ Event Frame)} (tail : Tail σ)
    (hseen : Seen tail.state seen) (h : Grows seen polls) :
    ∃ landed, (pollAll polls tail).log = tail.log ++ landed ∧
      landed.Sublist (newLines seen (lastRead seen polls)) ∧
      (landed = newLines seen (lastRead seen polls) ↔ Smooth seen tail.world polls) := by
  induction polls generalizing seen tail with
  | nil =>
    refine ⟨[], (List.append_nil _).symm, List.nil_sublist _, iff_of_true ?_ trivial⟩
    exact (newLines_self seen).symm
  | cons poll polls ih =>
    unfold Grows at h
    unfold lastRead Smooth
    rw [pollAll, List.foldl_cons]
    cases hread : poll.read with
    | error e =>
      rw [hread] at h
      rw [poll_of_error tail hread]
      exact ih tail hseen h
    | ok file =>
      rw [hread] at h
      dsimp only
      obtain ⟨hseen', k, hlog, hall, hworld⟩ := poll_landed hseen hread h.1
      obtain ⟨landed, hlog', hsub, hiff⟩ := ih _ hseen' h.2
      refine ⟨(newLines seen file).take k ++ landed, ?_, ?_, ?_⟩
      · rw [← List.append_assoc, ← hlog]
        exact hlog'
      · rw [newLines_trans h.1 h.2.prefix_lastRead]
        exact (List.take_sublist _ _).append hsub
      · rw [newLines_trans h.1 h.2.prefix_lastRead]
        constructor
        · intro heq
          have hlen := congrArg List.length heq
          have hle := hsub.length_le
          rw [List.length_append, List.length_append, List.length_take] at hlen
          obtain ⟨world, hdelivered⟩ := hall.mp (by omega)
          refine ⟨world, hdelivered, ?_⟩
          rw [← hworld world hdelivered, ← hiff]
          exact hsub.eq_of_length (by omega)
        · rintro ⟨world, hdelivered, hsmooth⟩
          rw [← hworld world hdelivered, ← hiff] at hsmooth
          rw [hsmooth, List.take_of_length_le (hall.mpr ⟨world, hdelivered⟩)]

/-- From a fresh trigger the lines delivered are those of the file exactly when no delivery
fails. -/
theorem delivered_iff (polls : List (Poll ε σ Event Frame)) (world : σ) (h : Grows [] polls) :
    (pollAll polls { state := {}, world, log := [] }).log = fileLines (lastRead [] polls) ↔
      Smooth [] world polls := by
  have hseen : Seen ({} : TriggerState) [] := ⟨rfl, rfl⟩
  obtain ⟨landed, hlog, -, hiff⟩ :=
    pollAll_landed { state := {}, world, log := [] } hseen h
  rw [hlog, List.nil_append, ← hiff]
  rfl

/-- No line is delivered twice or out of turn. -/
theorem delivered_sublist (polls : List (Poll ε σ Event Frame)) (world : σ) (h : Grows [] polls) :
    (pollAll polls { state := {}, world, log := [] }).log.Sublist
      (fileLines (lastRead [] polls)) := by
  have hseen : Seen ({} : TriggerState) [] := ⟨rfl, rfl⟩
  obtain ⟨landed, hlog, hsub, -⟩ :=
    pollAll_landed { state := {}, world, log := [] } hseen h
  rw [hlog, List.nil_append]
  exact hsub

end

namespace TailSample

/-- A delivery that cannot decode some lines. -/
def delivery (refuses : List UInt8 → Bool) : Delivery Unit Unit (List UInt8) (List UInt8) where
  requireSourceCapability := pure ()
  decodeEvent raw := if refuses raw then Effect.fail () else pure raw
  triggerFrame := pure
  deliverTriggerFrame _ := pure ()

/-- The lines `a`, `b` and `c`. -/
def file : List UInt8 := [97, 10, 98, 10, 99, 10]

def fresh : Tail Unit := { state := {}, world := (), log := [] }

/-- `b` cannot be decoded at first. -/
def first : Poll Unit Unit (List UInt8) (List UInt8) := ⟨.ok file, delivery (· == [98])⟩
def second : Poll Unit Unit (List UInt8) (List UInt8) := ⟨.ok file, delivery fun _ => false⟩

/-- The first poll fails at `b`, the second one succeeds; `b` and `c` are lost. -/
theorem lines_lost :
    (first.poll fresh).1.isOk = false ∧ (second.poll (first.poll fresh).2).1.isOk = true ∧
      (pollAll [first, second] fresh).log = [[97]] ∧
      fileLines (lastRead [] [first, second]) = [[97], [98], [99]] := by
  decide

/-- A file that is read between the carriage return and the newline of its first line. -/
theorem cut_line_delivered :
    (pollAll [⟨.ok [97, 13], delivery fun _ => false⟩,
      ⟨.ok [97, 13, 10, 98, 10], delivery fun _ => false⟩] fresh).log = [[97], [98]] :=
  (delivered_iff [⟨.ok [97, 13], delivery fun _ => false⟩,
    ⟨.ok [97, 13, 10, 98, 10], delivery fun _ => false⟩] ()
    ⟨List.nil_prefix, ⟨[10, 98, 10], rfl⟩, trivial⟩).mpr ⟨(), rfl, (), rfl, trivial⟩

end TailSample

end SimAgentNet.Server.FileTail
