import SimAgentNet.RoadmapRunner.Journal
import SimAgentNet.RoadmapRunner.Proof

/-! # Journaled proofs

The execution of a proof leaf under the journal: the intent is journaled before the launcher runs
and the receipt after it. `ProofCall` cuts the function at the points where another worker can act or
the process can stop, and `run_eq_executeJournaledProof` says that a call that is left alone does
what the function does. -/

namespace SimAgentNet.RoadmapRunner

variable {σ ρ L R P : Type}

/-- The store in which launchers keep their receipts. -/
structure ProofReceiptStore (ρ : Type) where
  inspect : ρ → String → Option TypedProofReceipt
  record : String → TypedProofReceipt → ρ → ρ

/-- The inputs of one execution; the launcher answers a request, also when it is cancelled. -/
structure JournaledProofExecution (L R P : Type) where
  catalog : ProofCatalog L
  name : String
  launcher : R → SandboxAttempt P
  observedAt : String

/-- What the workers share, with a log of the launches (by effect) and of the records that were
appended to the journal. -/
structure World (σ ρ : Type) where
  backend : σ
  receipts : ρ
  launches : List String
  appended : List ExecutionRecord

/-- A worker: the world and the state of the journal that it holds. -/
structure ProofWorker (σ ρ : Type) where
  world : World σ ρ
  state : RebuiltExecution

abbrev ProofEffect (σ ρ α : Type) := Effect ProofError (ProofWorker σ ρ) α

/-- The state after a record was appended. -/
def RebuiltExecution.advance (st : RebuiltExecution) (head : JournalHead)
    (record : ExecutionRecord) : RebuiltExecution :=
  { st with head, records := st.records ++ [record] }

def intentRecord (effectId : String) : ExecutionRecord :=
  .effectRequested effectId "sandbox-proof" none

def receiptRecord (effectId : String) (receipt : TypedProofReceipt) : ExecutionRecord :=
  .effectReceipt effectId receipt.disposition.outcome none

/-! ## The function -/

section
variable (api : JournalApi σ) (j : ExecutionJournal) (sandbox : SandboxApi L R P)
  (store : ProofReceiptStore ρ)

def launch (launcher : R → SandboxAttempt P) (effectId : String) (request : R) :
    ProofEffect σ ρ (SandboxAttempt P) := do
  .modify fun k => { k with world := { k.world with launches := k.world.launches ++ [effectId] } }
  return launcher request

def equalityReceipt (x : JournaledProofExecution L R P) (left right : List UInt8) :
    TypedProofReceipt :=
  pureReceipt x.name (left == right) x.observedAt "byte-for-byte artifact equality"

def deckReceipt (x : JournaledProofExecution L R P) (actualDeck expectedDeck : String)
    (requiredClaims presentClaims : SortedSet String) : TypedProofReceipt :=
  pureReceipt x.name (actualDeck == expectedDeck && decide (requiredClaims ⊆ presentClaims))
    x.observedAt "exact deck identity and required claims"

/-- Executes one leaf; pure leaves never consult the launcher. -/
def executeProofLeaf (x : JournaledProofExecution L R P) :
    ProofEffect σ ρ TypedProofReceipt := do
  match ← .ofExcept (x.catalog.leaf x.name) with
  | .command command =>
    let request ← .ofExcept (command.sandboxRequest sandbox)
    let attempt ← launch x.launcher command.effectId request
    return normalize sandbox command request attempt x.observedAt
  | .artifactEquality _ left right => return equalityReceipt x left right
  | .sourceDeckPredicate _ actualDeck expectedDeck requiredClaims presentClaims =>
    return deckReceipt x actualDeck expectedDeck requiredClaims presentClaims

/-- Appends at the head that the worker holds and moves its state along. -/
def appendNext (record : ExecutionRecord) : ProofEffect σ ρ Unit := do
  let k ← .get
  let head ← .mapError .journal (.focus (·.world.backend)
    (fun backend k => { k with world := { k.world with backend } })
    (j.append api (some k.state.head) record []))
  .modify fun k => {
    world := { k.world with appended := k.world.appended ++ [record] }
    state := k.state.advance head record }

/-- Journals the intent before dispatch and the receipt after it. An intent without receipt is
reconciled from the receipt store and never launched again. -/
def executeJournaledProof (x : JournaledProofExecution L R P) :
    ProofEffect σ ρ TypedProofReceipt := do
  match ← .ofExcept (x.catalog.leaf x.name) with
  | .command command =>
    let k ← .get
    let effectId := command.effectId
    let requested := k.state.records.any (·.requests effectId)
    let journaledReceipt := k.state.records.any (·.receives effectId)
    if requested then
      match store.inspect k.world.receipts effectId with
      | none => .fail .ambiguousEffect
      | some receipt =>
        if !journaledReceipt then appendNext api j (receiptRecord effectId receipt)
        return receipt
    else
      appendNext api j (intentRecord effectId)
      let receipt ← executeProofLeaf sandbox x
      .modify fun k => { k with world := { k.world with
        receipts := store.record effectId receipt k.world.receipts } }
      appendNext api j (receiptRecord effectId receipt)
      return receipt
  | _ => executeProofLeaf sandbox x

end

/-! ## The function in steps -/

/-- Where a call stands: what it does next. -/
inductive ProofPoint (L : Type) where
  | begin
  | admitIntent (command : CommandProof L)
  | publishIntent (command : CommandProof L) (objects : List JournalObject) (entry : JournalEntry)
  | launch (command : CommandProof L)
  | store (command : CommandProof L) (receipt : TypedProofReceipt)
  | admitReceipt (command : CommandProof L) (receipt : TypedProofReceipt)
  | publishReceipt (command : CommandProof L) (receipt : TypedProofReceipt)
      (objects : List JournalObject) (entry : JournalEntry)
  | done (result : Except ProofError TypedProofReceipt)

structure ProofCall (L R P : Type) where
  execution : JournaledProofExecution L R P
  state : RebuiltExecution
  point : ProofPoint L

namespace ProofCall
variable (api : JournalApi σ) (j : ExecutionJournal) (sandbox : SandboxApi L R P)
  (store : ProofReceiptStore ρ)

/-- The call has ended. -/
def finish (c : ProofCall L R P) (result : Except ProofError TypedProofReceipt) : ProofCall L R P :=
  { c with point := .done result }

/-- Reads the journal and checks the record: the first half of an append. -/
def admitRecord (c : ProofCall L R P) (record : ExecutionRecord)
    (next : List JournalObject → JournalEntry → ProofPoint L) (w : World σ ρ) : ProofCall L R P :=
  match j.admitRecord api (some c.state.head) record [] w.backend with
  | .error e => c.finish (.error (.journal e))
  | .ok (objects, entry) => { c with point := next objects entry }

/-- Publishes at the head that was read: the second half. -/
def publish (c : ProofCall L R P) (record : ExecutionRecord) (objects : List JournalObject)
    (entry : JournalEntry) (next : ProofPoint L) (w : World σ ρ) : ProofCall L R P × World σ ρ :=
  match api.publish (some c.state.head) objects [entry] w.backend with
  | (.error e, backend) => (c.finish (.error (.journal (.journal e))), { w with backend })
  | (.ok head, backend) =>
    ({ c with state := c.state.advance head record, point := next },
      { w with backend, appended := w.appended ++ [record] })

/-- The decision that a call takes from the state it holds. -/
def choose (c : ProofCall L R P) (command : CommandProof L) (receipts : ρ) : ProofPoint L :=
  if c.state.records.any (·.requests command.effectId) then
    match store.inspect receipts command.effectId with
    | none => .done (.error .ambiguousEffect)
    | some receipt =>
      if !c.state.records.any (·.receives command.effectId) then .admitReceipt command receipt
      else .done (.ok receipt)
  else .admitIntent command

def step (c : ProofCall L R P) (w : World σ ρ) : ProofCall L R P × World σ ρ :=
  match c.point with
  | .begin =>
    match c.execution.catalog.leaf c.execution.name with
    | .error e => (c.finish (.error e), w)
    | .ok (.command command) => ({ c with point := c.choose store command w.receipts }, w)
    | .ok (.artifactEquality _ left right) =>
      (c.finish (.ok (equalityReceipt c.execution left right)), w)
    | .ok (.sourceDeckPredicate _ actualDeck expectedDeck requiredClaims presentClaims) =>
      (c.finish (.ok
        (deckReceipt c.execution actualDeck expectedDeck requiredClaims presentClaims)), w)
  | .admitIntent command =>
    (c.admitRecord api j (intentRecord command.effectId) (.publishIntent command) w, w)
  | .publishIntent command objects entry =>
    c.publish api (intentRecord command.effectId) objects entry (.launch command) w
  | .launch command =>
    match command.sandboxRequest sandbox with
    | .error e => (c.finish (.error e), w)
    | .ok request =>
      ({ c with point := .store command (normalize sandbox command request
          (c.execution.launcher request) c.execution.observedAt) },
        { w with launches := w.launches ++ [command.effectId] })
  | .store command receipt =>
    ({ c with point := .admitReceipt command receipt },
      { w with receipts := store.record command.effectId receipt w.receipts })
  | .admitReceipt command receipt =>
    (c.admitRecord api j (receiptRecord command.effectId receipt) (.publishReceipt command receipt) w, w)
  | .publishReceipt command receipt objects entry =>
    c.publish api (receiptRecord command.effectId receipt) objects entry (.done (.ok receipt)) w
  | .done _ => (c, w)

/-- Takes `n` steps without interruption. -/
def run : Nat → ProofCall L R P × World σ ρ → ProofCall L R P × World σ ρ
  | 0, cw => cw
  | n + 1, cw => run n (cw.1.step api j sandbox store cw.2)

end ProofCall

/-! ## A call that is left alone -/

section
variable {api : JournalApi σ} {j : ExecutionJournal} {sandbox : SandboxApi L R P}
  {store : ProofReceiptStore ρ}

variable (api j) in
theorem appendNext_apply (record : ExecutionRecord) (w : World σ ρ) (st : RebuiltExecution) :
    appendNext api j record ⟨w, st⟩ =
      match j.admitRecord api (some st.head) record [] w.backend with
      | .error e => (.error (.journal e), ⟨w, st⟩)
      | .ok (objects, entry) =>
        match api.publish (some st.head) objects [entry] w.backend with
        | (.error e, backend) => (.error (.journal (.journal e)), ⟨{ w with backend }, st⟩)
        | (.ok head, backend) =>
          (.ok (), ⟨{ w with backend, appended := w.appended ++ [record] },
            st.advance head record⟩) := by
  simp only [appendNext, Bind.bind, Effect.bind, Effect.get, Effect.observe, Effect.mapError,
    Effect.focus, ExecutionJournal.append]
  cases j.admitRecord api (some st.head) record [] w.backend with
  | error e => rfl
  | ok admitted =>
    obtain ⟨objects, entry⟩ := admitted
    rcases hp : api.publish (some st.head) objects [entry] w.backend with ⟨_ | head, backend⟩
    · simp only [hp]
      rfl
    · simp only [hp]
      rfl

namespace ProofCall

theorem run_done (n : Nat) (c : ProofCall L R P) (w : World σ ρ) (h : c.point = .done result) :
    run api j sandbox store n (c, w) = (c, w) := by
  induction n with
  | zero => rfl
  | succ n ih =>
    have hstep : c.step api j sandbox store w = (c, w) := by
      unfold step
      rw [h]
    rw [run, hstep, ih]

/-- The outcome of a function on a worker, as the call that it leaves. -/
def ended (x : JournaledProofExecution L R P)
    (out : Except ProofError TypedProofReceipt × ProofWorker σ ρ) : ProofCall L R P × World σ ρ :=
  (⟨x, out.2.state, .done out.1⟩, out.2.world)

/-- The two steps that journal the receipt. -/
theorem run_receipt (x : JournaledProofExecution L R P) (st : RebuiltExecution)
    (command : CommandProof L) (receipt : TypedProofReceipt) (w : World σ ρ) :
    run api j sandbox store (n + 2) (⟨x, st, .admitReceipt command receipt⟩, w) =
      ended x ((do
        appendNext api j (receiptRecord command.effectId receipt)
        return receipt : ProofEffect σ ρ TypedProofReceipt) ⟨w, st⟩) := by
  have happ := appendNext_apply api j
    (receiptRecord command.effectId receipt) w st
  rw [run, step]
  simp only [admitRecord, Bind.bind, Effect.bind, happ]
  cases j.admitRecord api (some st.head) (receiptRecord command.effectId receipt) [] w.backend with
  | error e => exact run_done _ _ _ rfl
  | ok admitted =>
    obtain ⟨objects, entry⟩ := admitted
    rw [run, step]
    simp only [publish]
    rcases api.publish (some st.head) objects [entry] w.backend with ⟨_ | head, backend⟩
    · exact run_done _ _ _ rfl
    · exact run_done _ _ _ rfl

/-- The function on a command, with each part applied to the worker. -/
theorem executeJournaledProof_command (hleaf : x.catalog.leaf x.name = .ok (.command command))
    (k : ProofWorker σ ρ) :
    executeJournaledProof api j sandbox store x k =
      if k.state.records.any (·.requests command.effectId) then
        match store.inspect k.world.receipts command.effectId with
        | none => (.error .ambiguousEffect, k)
        | some receipt =>
          if k.state.records.any (·.receives command.effectId) then (.ok receipt, k)
          else (do
            appendNext api j (receiptRecord command.effectId receipt)
            return receipt : ProofEffect σ ρ TypedProofReceipt) k
      else match appendNext api j (intentRecord command.effectId) k with
        | (.error e, k) => (.error e, k)
        | (.ok _, k) =>
          match command.sandboxRequest sandbox with
          | .error e => (.error e, k)
          | .ok request =>
            let receipt := normalize sandbox command request (x.launcher request) x.observedAt
            (do
              appendNext api j (receiptRecord command.effectId receipt)
              return receipt : ProofEffect σ ρ TypedProofReceipt)
              { k with world := { k.world with
                launches := k.world.launches ++ [command.effectId]
                receipts := store.record command.effectId receipt k.world.receipts } } := by
  rw [executeJournaledProof, Effect.bind_apply, Effect.ofExcept_apply, hleaf]
  simp only [Effect.bind_apply, Effect.get_apply]
  split
  · cases store.inspect k.world.receipts command.effectId with
    | none => rfl
    | some receipt =>
      cases k.state.records.any (·.receives command.effectId) with
      | true => rfl
      | false => rfl
  · rw [Effect.bind_apply]
    rcases appendNext api j (intentRecord command.effectId) k with ⟨_ | u, k'⟩
    · rfl
    · simp only [executeProofLeaf, Effect.bind_apply, Effect.ofExcept_apply, hleaf]
      cases command.sandboxRequest sandbox with
      | error e => rfl
      | ok request => rfl

/-- A call that is left alone ends after at most seven steps with the outcome of the function. -/
theorem run_eq_executeJournaledProof (x : JournaledProofExecution L R P) (st : RebuiltExecution)
    (w : World σ ρ) :
    run api j sandbox store 7 (⟨x, st, .begin⟩, w) =
      ended x (executeJournaledProof api j sandbox store x ⟨w, st⟩) := by
  rw [run, step]
  cases hleaf : x.catalog.leaf x.name with
  | error e =>
    simp only [executeJournaledProof, Effect.bind_apply, Effect.ofExcept_apply, hleaf]
    exact run_done _ _ _ rfl
  | ok leaf =>
    cases leaf with
    | artifactEquality name left right =>
      simp only [executeJournaledProof, executeProofLeaf, Effect.bind_apply,
        Effect.ofExcept_apply, hleaf]
      exact run_done _ _ _ rfl
    | sourceDeckPredicate name actual expected required present =>
      simp only [executeJournaledProof, executeProofLeaf, Effect.bind_apply,
        Effect.ofExcept_apply, hleaf]
      exact run_done _ _ _ rfl
    | command command =>
      rw [executeJournaledProof_command hleaf]
      simp only [choose]
      split
      · split
        · exact run_done _ _ _ rfl
        · rename_i receipt hr
          cases hrec : st.records.any (·.receives command.effectId) with
          | true => exact run_done _ _ _ rfl
          | false => exact run_receipt x st command receipt w
      · rw [run, step, appendNext_apply]
        simp only [admitRecord]
        cases j.admitRecord api (some st.head) (intentRecord command.effectId) [] w.backend with
        | error e => exact run_done _ _ _ rfl
        | ok admitted =>
          obtain ⟨objects, entry⟩ := admitted
          rw [run, step]
          simp only [publish]
          rcases api.publish (some st.head) objects [entry] w.backend with ⟨_ | head, backend⟩
          · exact run_done _ _ _ rfl
          · rw [run, step]
            simp only
            cases command.sandboxRequest sandbox with
            | error e => exact run_done _ _ _ rfl
            | ok request =>
              rw [run, step]
              exact run_receipt x _ command _ _

end ProofCall

end

end SimAgentNet.RoadmapRunner
