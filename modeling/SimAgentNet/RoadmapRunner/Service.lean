import SimAgentNet.RoadmapExecCore.Reduce
import SimAgentNet.RoadmapRunner.Rebuild

/-! # The runner service

One service advances one execution: it journals an intent, lets an adapter run the effect, hands
the observation to the pure reducer and journals the receipt and the state change. The ports are
the outside world; each call may meet another one. `journal_accepts_iff` compares the reducer's
table with the journal's list of state changes. -/

namespace SimAgentNet.RoadmapRunner
open RoadmapCore RoadmapExecCore

/-! ## Authority -/

structure OwnedLimit where
  owner : Symbol
  unit : Symbol
  amount : Nat
deriving DecidableEq

structure EffectiveLimit where
  unit : Symbol
  amount : Nat
  sources : List OwnedLimit
deriving DecidableEq

structure EffectiveCeiling where
  limits : List EffectiveLimit
deriving DecidableEq

def EffectiveCeiling.isNarrowerThan (c prior : EffectiveCeiling) : Bool :=
  prior.limits.all fun old =>
    match c.limits.find? (·.unit == old.unit) with
    | none => false
    | some new =>
      new.amount ≤ old.amount && old.sources.all fun oldSource =>
        new.sources.any fun newSource =>
          newSource.owner == oldSource.owner && newSource.amount ≤ oldSource.amount

structure ExecutionIdentity where
  execution : ExecutionId
  policy : ExecutionPolicyId
  roadmap : ContentId
  sourceDeck : ContentId
  conduct : ContentId
  model : ContentId
  launcher : ContentId
  runner : ContentId
deriving DecidableEq

structure AuthorityGrant where
  identity : ExecutionIdentity
  ceiling : EffectiveCeiling
  grant : ContentId
deriving DecidableEq

structure OpenRequest where
  authority : AuthorityGrant
  phase : PhaseId
  attempt : AttemptId
  policy : ExecutionPolicy
  mutation : MutationPlan
deriving DecidableEq

structure Inspection where
  journal : RebuiltExecution
  transition : Transition
deriving DecidableEq

inductive ServiceError where
  | journal (error : ExecutionJournalError)
  | reducer (error : ExecutionFailure)
  | notReady | wrongLeaf | identityDrift | freshAuthorityRequired | budgetWidening
  | adapter (message : String)
deriving DecidableEq

/-- The answers of the outside world during one call. -/
structure Ports where
  admittedLeaf : ContentId → Except ServiceError (Option PhaseId)
  invoke : ExecutionIdentity → PhaseId → Transition → Except ServiceError ExecutionEvent
  receipts : ExecutionIdentity → Except ServiceError (List ExecutionEvent)
  cancellationRequested : ExecutionId → Bool

/-! ## The service -/

structure RoadmapRunnerService (σ : Type) where
  journal : ExecutionJournal
  backend : σ
  request : OpenRequest
  transition : Transition
  openingHead : ContentId
  openingGrant : ContentId

def stateText : PhaseRunState → String
  | .planned => "planned"
  | .running => "running"
  | .reconciling => "reconciling"
  | .succeeded => "succeeded"
  | .failed => "failed"
  | .cancelled => "cancelled"

def requestPins (request : OpenRequest) : ExecutionPins :=
  let id := request.authority.identity
  { conduct := contentIdText id.conduct
    policy := id.policy.display
    sourceDeck := id.sourceDeck
    modelPick := contentIdText id.model
    runnerGeneration := contentIdText id.runner }

def validateRequest (request : OpenRequest) : Except ServiceError Unit :=
  let id := request.authority.identity
  if id.policy ≠ request.policy.id ∨ id.sourceDeck ≠ request.policy.sourceDeck then
    .error .identityDrift
  else .ok ()

namespace RoadmapRunnerService
variable {σ : Type} (api : JournalApi σ)

abbrev ServiceEffect (σ α : Type) := Effect ServiceError (RoadmapRunnerService σ) α

/-- An operation of the service's journal. -/
def onJournal (x : ExecutionJournal → JournalEffect σ α) : ServiceEffect σ α := do
  let service ← .get
  .mapError .journal (.focus (·.backend) (fun backend s => { s with backend }) (x service.journal))

def rebuild : ServiceEffect σ RebuiltExecution :=
  onJournal fun j => .observe (j.rebuild api)

def append (expected : JournalHead) (record : ExecutionRecord) : ServiceEffect σ JournalHead :=
  onJournal fun j => j.append api (some expected) record []

def «open» (backend : σ) (request : OpenRequest) (limits : Limits) :
    Except ServiceError (RoadmapRunnerService σ) := do
  validateRequest request
  let journal : ExecutionJournal := ⟨request.authority.identity.execution.display, limits⟩
  match journal.open api (requestPins request) none backend with
  | (.error e, _) => .error (.journal e)
  | (.ok opened, backend) =>
    return {
      journal, backend, request
      transition := .planned opened.openingHead.entry
      openingHead := opened.openingHead.entry
      openingGrant := request.authority.grant }

def inspect : ServiceEffect σ Inspection := do
  let journal ← rebuild api
  let service ← .get
  return ⟨journal, service.transition⟩

def proposeTransition (service : RoadmapRunnerService σ) (event : ExecutionEvent) :
    Except ServiceError Transition :=
  let r := service.request
  (reduce r.policy r.mutation r.authority.identity.execution r.phase r.attempt service.transition
    event).mapError .reducer

/-- Journals the change into `next`, and only then makes it. -/
def enter (expected : JournalHead) (target : PhaseRunState) (next : Transition) :
    ServiceEffect σ Inspection := do
  let service ← .get
  let _ ← append api expected
    (.stateTransition (stateText service.transition.state) (stateText target))
  .modify fun s => { s with transition := next }
  inspect api

def cancel : ServiceEffect σ Inspection := do
  let state ← rebuild api
  let service ← .get
  let event : ExecutionEvent := {
    execution := service.request.authority.identity.execution
    phase := service.request.phase
    attempt := service.request.attempt
    observation := { kind := .new "cancel", journalHead := state.head.entry } }
  let next ← .ofExcept (service.proposeTransition event)
  enter api state.head .cancelled next

def advanceOneEffect (ports : Ports) : ServiceEffect σ Inspection := do
  let service ← .get
  let identity := service.request.authority.identity
  if ports.cancellationRequested identity.execution then cancel api else
  match ← .ofExcept (ports.admittedLeaf identity.roadmap) with
  | none => .fail .notReady
  | some leaf =>
    if leaf ≠ service.request.phase then .fail .wrongLeaf else
    let before ← rebuild api
    let effectId := leaf.text ++ ":" ++ toString before.records.length
    let intentHead ← append api before.head (.effectRequested effectId "admitted-leaf" none)
    let event ← .ofExcept (ports.invoke identity leaf service.transition)
    let next ← .ofExcept (service.proposeTransition event)
    let receiptHead ← append api intentHead
      (.effectReceipt effectId event.observation.kind.display none)
    enter api receiptHead next.state next

def replay (ports : Ports) (service : RoadmapRunnerService σ) : Except ServiceError Transition := do
  let r := service.request
  let events ← ports.receipts r.authority.identity
  (RoadmapExecCore.replay r.policy r.mutation r.authority.identity.execution r.phase r.attempt
    (.planned service.openingHead) events).mapError .reducer

def resume (ports : Ports) (authority : AuthorityGrant) : ServiceEffect σ Inspection := do
  let service ← .get
  let prior := service.request.authority
  if authority.identity ≠ prior.identity then .fail .identityDrift
  else if authority.grant = service.openingGrant then .fail .freshAuthorityRequired
  else if !authority.ceiling.isNarrowerThan prior.ceiling then .fail .budgetWidening
  else do
    let transition ← .ofExcept (service.replay ports)
    .modify fun s => { s with transition, request := { s.request with authority } }
    inspect api

/-! ## The journal follows the reducer -/

/-- The journal's last state change entered the state the reducer is in. -/
structure Agrees (s : RoadmapRunnerService σ) : Prop where
  named : FitsText s.journal.executionId
  state : s.journal.rebuild api s.backend = .ok st →
    currentState st.records = stateText s.transition.state

/-- The services that runs lead to: opened in the state the journal records, then advanced with
any answers of the outside world, resumed into the state the journal records, and with other
writers appending anything but state changes. -/
inductive Reaches (api : JournalApi σ) : RoadmapRunnerService σ → Prop
  | opened {r : OpenRequest} : RoadmapRunnerService.open api b r limits = .ok s →
    (∀ st, s.journal.rebuild api s.backend = .ok st → currentState st.records = "planned") →
    Reaches api s
  | advanced : Reaches api s → Reaches api (advanceOneEffect api ports s).2
  | resumed : Reaches api s →
    (∀ st, s'.journal.rebuild api s'.backend = .ok st →
      currentState st.records = stateText s'.transition.state) →
    (resume api ports authority s).2 = s' → Reaches api s'
  | written : Reaches api s → record.target? = none → record.isOpened = false →
    s.journal.append api expected record objects s.backend = (x, b) →
    Reaches api { s with backend := b }

variable {api} {s : RoadmapRunnerService σ}

theorem append_apply (expected : JournalHead) (record : ExecutionRecord)
    (s : RoadmapRunnerService σ) :
    append api expected record s =
      let (x, backend) := s.journal.append api (some expected) record [] s.backend
      (x.mapError .journal, { s with backend }) := rfl

/-- Appending anything but a state change keeps the agreement, accepted or refused. -/
theorem Agrees.append {objects : List PreparedObject} (hf : api.Faithful) (hs : Agrees api s)
    (ht : record.target? = none) (ho : record.isOpened = false)
    (ha : s.journal.append api expected record objects s.backend = (x, b)) :
    Agrees api { s with backend := b } where
  named := hs.named
  state := by
    intro st' hst'
    cases x with
    | error e => exact hs.state ((rebuild_of_append_error hf ha).symm.trans hst')
    | ok head =>
      obtain ⟨st, hst, hnext⟩ := rebuild_of_append_ok hf ha ho
      obtain ⟨record', hdec, hrec⟩ := hnext st' hst'
      rw [hrec, currentState_append_of_none (target?_eq_none_of_tag (tag_of_decodeDatum hdec) ht)]
      exact hs.state hst

theorem append_keeps (hf : api.Faithful) (ht : record.target? = none)
    (ho : record.isOpened = false) :
    Effect.Triple (Agrees api) (append api expected record) (fun _ => Agrees api) (Agrees api) := by
  intro s hs
  rw [append_apply]
  cases ha : s.journal.append api (some expected) record [] s.backend with
  | mk x b => cases x <;> exact hs.append hf ht ho ha

theorem fitsText_stateText (state : PhaseRunState) : FitsText (stateText state) := by
  cases state <;> decide

theorem rebuild_triple {P : RoadmapRunnerService σ → Prop} :
    Effect.Triple P (rebuild api)
      (fun st s => P s ∧ s.journal.rebuild api s.backend = .ok st) P := by
  intro s hs
  have h : rebuild api s = ((s.journal.rebuild api s.backend).mapError .journal, s) := rfl
  rw [h]
  cases hst : s.journal.rebuild api s.backend with
  | error e => exact hs
  | ok st => exact ⟨hs, hst⟩

theorem inspect_keeps :
    Effect.Triple (Agrees api) (inspect api) (fun _ => Agrees api) (Agrees api) := by
  refine .bind rebuild_triple fun st => ?_
  refine .bind (Q := fun _ => Agrees api) (.get fun s hs => hs.1) fun _ => ?_
  exact .pure fun s hs => hs

/-- Entering a state keeps the agreement: the transition moves only when the journal did. -/
theorem enter_keeps (hf : api.Faithful) {target : PhaseRunState} {next : Transition}
    (ht : next.state = target) :
    Effect.Triple (Agrees api) (enter api expected target next) (fun _ => Agrees api)
      (Agrees api) := by
  refine .bind (Q := fun service s => s = service ∧ Agrees api s) (.get fun s hs => ⟨rfl, hs⟩) ?_
  intro service
  refine .bind (Q := fun _ s => Agrees api { s with transition := next }) ?_ ?_
  · intro s hs
    obtain ⟨rfl, hs⟩ := hs
    rw [append_apply]
    cases ha : s.journal.append api (some expected)
        (.stateTransition (stateText s.transition.state) (stateText target)) [] s.backend with
    | mk x backend =>
      cases x with
      | error e =>
        refine ⟨hs.named, ?_⟩
        intro st hst
        exact hs.state ((rebuild_of_append_error hf ha).symm.trans hst)
      | ok head =>
        refine ⟨hs.named, ?_⟩
        intro st' hst'
        obtain ⟨st, -, hnext⟩ := rebuild_of_append_ok hf ha rfl
        obtain ⟨record', hdec, hrec⟩ := hnext st' hst'
        have hfits := (decodeDatum_encodeDatum_iff s.journal.executionId
          (.stateTransition (stateText s.transition.state) (stateText target))).mpr
          ⟨hs.named, fitsText_stateText _, fitsText_stateText _⟩
        cases hdec.symm.trans hfits
        rw [hrec, currentState_append_of_target rfl, ht]
  · intro _
    exact .bind (Q := fun _ => Agrees api) (.modify fun s hs => hs) fun _ => inspect_keeps

theorem reduce_of_proposeTransition (h : s.proposeTransition event = .ok next) :
    reduce s.request.policy s.request.mutation s.request.authority.identity.execution
      s.request.phase s.request.attempt s.transition event = .ok next :=
  Except.mapError_eq_ok_iff.mp h

theorem state_of_cancel {service : RoadmapRunnerService σ} {event : ExecutionEvent}
    (hk : event.kindText = "cancel") (h : service.proposeTransition event = .ok next) :
    next.state = .cancelled := by
  obtain ⟨-, hstep⟩ := reduce_cases (reduce_of_proposeTransition h)
  cases hstep with
  | cancel => rfl
  | start _ hk' | committed _ hk' | discharge _ hk' | unresolved _ hk' | deck _ hk' | parent _ hk'
  | succeed _ hk' | fail _ hk' | image _ hk' =>
    rw [hk] at hk'
    simp at hk'

theorem cancel_keeps (hf : api.Faithful) :
    Effect.Triple (Agrees api) (cancel api) (fun _ => Agrees api) (Agrees api) := by
  refine .bind rebuild_triple fun state => ?_
  refine .bind (Q := fun _ => Agrees api) (.get fun s hs => hs.1) fun service => ?_
  refine .bind (Q := fun next s => next.state = .cancelled ∧ Agrees api s) ?_ fun next => ?_
  · refine .ofExcept (fun s next hs hn => ⟨?_, hs⟩) fun s hs => hs
    exact state_of_cancel rfl hn
  · intro s hs
    exact enter_keeps hf hs.1 s hs.2

/-- One call keeps the agreement, however far it gets. -/
theorem advance_keeps (hf : api.Faithful) (ports : Ports) :
    Effect.Triple (Agrees api) (advanceOneEffect api ports) (fun _ => Agrees api)
      (Agrees api) := by
  refine .bind (Q := fun _ => Agrees api) (.get fun s hs => hs) fun service => ?_
  dsimp only
  split
  · exact cancel_keeps hf
  refine .bind (Q := fun _ => Agrees api) (.ofExcept (fun s _ hs _ => hs) fun s hs => hs)
    fun leaf => ?_
  split
  · exact .fail fun s hs => hs
  split
  · exact .fail fun s hs => hs
  refine .bind (Q := fun _ => Agrees api)
    (rebuild_triple.weaken (fun s hs => hs) (fun _ _ h => h.1) fun s hs => hs) fun before => ?_
  refine .bind (append_keeps hf rfl rfl) fun intentHead => ?_
  refine .bind (Q := fun _ => Agrees api) (.ofExcept (fun s _ hs _ => hs) fun s hs => hs)
    fun event => ?_
  refine .bind (Q := fun _ => Agrees api) (.ofExcept (fun s _ hs _ => hs) fun s hs => hs)
    fun next => ?_
  exact .bind (append_keeps hf rfl rfl) fun receiptHead => enter_keeps hf rfl

theorem fitsText_display (id : ExecTextId k) : FitsText id.display := by
  obtain ⟨text, -, hlen, -⟩ := id
  simp only [FitsText, ExecTextId.display, Symbol.display, Symbol.qualified,
    String.utf8ByteSize_append, Reader.textBound]
  have h₁ : "roadmap-exec".utf8ByteSize = 12 := by decide
  have h₂ : "/".utf8ByteSize = 1 := by decide
  omega

theorem resume_journal (ports : Ports) (authority : AuthorityGrant) :
    Effect.Triple (fun s => FitsText s.journal.executionId) (resume api ports authority)
      (fun _ s => FitsText s.journal.executionId) (fun s => FitsText s.journal.executionId) := by
  refine .bind (Q := fun _ s => FitsText s.journal.executionId) (.get fun s hs => hs)
    fun service => ?_
  dsimp only
  split
  · exact .fail fun s hs => hs
  split
  · exact .fail fun s hs => hs
  split
  · exact .fail fun s hs => hs
  refine .bind (Q := fun _ s => FitsText s.journal.executionId)
    (.ofExcept (fun s _ hs _ => hs) fun s hs => hs) fun transition => ?_
  refine .bind (Q := fun _ s => FitsText s.journal.executionId) (.modify fun s hs => hs)
    fun _ => ?_
  refine .bind rebuild_triple fun st => ?_
  refine .bind (Q := fun _ s => FitsText s.journal.executionId) (.get fun s hs => hs.1)
    fun _ => ?_
  exact .pure fun s hs => hs

/-- In every service that a run leads to, journal and reducer agree. -/
theorem Reaches.agrees (hf : api.Faithful) (h : Reaches api s) : Agrees api s := by
  induction h with
  | opened ho hst =>
    obtain ⟨_, -, ho⟩ := Except.bind_eq_ok_iff.mp ho
    dsimp only at ho
    split at ho
    · cases ho
    · cases ho
      exact ⟨fitsText_display _, fun h => hst _ h⟩
  | advanced _ ih => exact (advance_keeps hf _).final ih
  | resumed _ hst hs ih =>
    refine ⟨?_, fun h => hst _ h⟩
    rw [← hs]
    exact (resume_journal _ _).final ih.named
  | written _ ht ho ha ih => exact ih.append hf ht ho ha

/-- The observations that change the state in a way the journal's law lists. -/
def Journaled (event : ExecutionEvent) : Prop :=
  event.kindText ∈ ["start", "mutation-committed", "succeed", "fail"]

instance (event : ExecutionEvent) : Decidable (Journaled event) :=
  inferInstanceAs (Decidable (_ ∈ _))

/-- The rows of the reducer: state, observation and the state entered. -/
def reducerTable : List (PhaseRunState × String × PhaseRunState) := [
  (.planned, "start", .running),
  (.running, "image-observed", .running),
  (.reconciling, "image-observed", .reconciling),
  (.running, "mutation-committed", .reconciling),
  (.reconciling, "promise-discharged", .reconciling),
  (.reconciling, "proof-unresolved", .reconciling),
  (.reconciling, "source-deck-current", .reconciling),
  (.reconciling, "parent-accepted", .reconciling),
  (.reconciling, "succeed", .succeeded),
  (.running, "fail", .failed),
  (.reconciling, "fail", .failed),
  (.planned, "cancel", .cancelled),
  (.running, "cancel", .cancelled),
  (.reconciling, "cancel", .cancelled)]

theorem mem_reducerTable (h : reduce policy plan execution phase attempt t event = .ok next) :
    (t.state, event.kindText, next.state) ∈ reducerTable := by
  obtain ⟨-, hstep⟩ := reduce_cases h
  have row {a k} (b : PhaseRunState) (hs : t.state = a) (hk : event.kindText = k) (hn : next.state = b)
      (hm : (a, k, b) ∈ reducerTable) : (t.state, event.kindText, next.state) ∈ reducerTable := by
    rw [hs, hk, hn]
    exact hm
  cases hstep with
  | start hs hk => exact row .running hs hk rfl (by decide)
  | image hs hk _ hi =>
    have hstate : next.state = t.state := by
      obtain rfl | rfl := observeImage_cases hi <;> rfl
    rcases hs with hs | hs
    · exact row _ hs hk (hstate.trans hs) (by decide)
    · exact row _ hs hk (hstate.trans hs) (by decide)
  | committed hs hk => exact row .reconciling hs hk rfl (by decide)
  | discharge hs hk | unresolved hs hk | deck hs hk | parent hs hk =>
    exact row .reconciling hs hk hs (by decide)
  | succeed hs hk hsucc =>
    obtain ⟨-, -, -, -, -, rfl⟩ := succeed_cases hsucc
    exact row .succeeded hs hk rfl (by decide)
  | fail hs hk =>
    rcases hs with hs | hs
    · exact row .failed hs hk rfl (by decide)
    · exact row .failed hs hk rfl (by decide)
  | cancel hs hk =>
    rcases hs with hs | hs | hs
    · exact row .cancelled hs hk rfl (by decide)
    · exact row .cancelled hs hk rfl (by decide)
    · exact row .cancelled hs hk rfl (by decide)

/-- Of the changes the reducer makes, the journal's law allows exactly the journaled ones: it has
no pair for an observation that keeps the state, and none for a cancellation. -/
theorem allowedTransition_iff (h : reduce policy plan execution phase attempt t event = .ok next) :
    allowedTransition (stateText t.state) (stateText next.state) = true ↔ Journaled event := by
  have hall : ∀ row ∈ reducerTable, allowedTransition (stateText row.1) (stateText row.2.2) = true ↔
      row.2.1 ∈ ["start", "mutation-committed", "succeed", "fail"] := by decide
  exact hall _ (mem_reducerTable h)

/-- In every service that a run leads to, the journal accepts the state change of an observation
that the reducer accepts, after the request and the receipt of its effect, exactly when the
observation is a journaled one. The change that a cancellation appends is always refused. -/
theorem journal_accepts_iff (hf : api.Faithful) (h : Reaches api s)
    (hst : s.journal.rebuild api s.backend = .ok st)
    (hr : reduce s.request.policy s.request.mutation s.request.authority.identity.execution
      s.request.phase s.request.attempt s.transition event = .ok next) :
    currentState st.records = stateText s.transition.state ∧
      (∀ effectId outcome n,
        validateNext true (st.records ++
            [.effectRequested effectId "admitted-leaf" none, .effectReceipt effectId outcome none])
          (.stateTransition (stateText s.transition.state) (stateText next.state)) n = .ok () ↔
        Journaled event) ∧
      (event.kindText = "cancel" → ∀ n,
        validateNext true st.records
          (.stateTransition (stateText s.transition.state) (stateText next.state)) n ≠ .ok ()) := by
  have hcur := (h.agrees hf).state hst
  refine ⟨hcur, ?_, ?_⟩
  · intro effectId outcome n
    have hlast : currentState (st.records ++
        [.effectRequested effectId "admitted-leaf" none, .effectReceipt effectId outcome none]) =
        stateText s.transition.state := by
      rw [List.append_cons, currentState_append_of_none rfl, currentState_append_of_none rfl, hcur]
    rw [validateNext_ok_iff, ← allowedTransition_iff hr]
    simp [Follows, ExecutionRecord.Admissible, hlast, ExecutionRecord.isTerminal]
  · intro hk n hn
    have hadm := validateNext_ok_iff.mp hn
    simp only [Follows, ↓reduceIte, ExecutionRecord.Admissible] at hadm
    have := (allowedTransition_iff hr).mp hadm.2.2
    unfold Journaled at this
    rw [hk] at this
    revert this
    decide

end RoadmapRunnerService

/-! ## A service -/

namespace Sample
open RoadmapRunnerService

def contentId (n : UInt8) : ContentId := .ofByte (.qualified "core" "sha256-datum-v1") n

theorem policy_valid : ValidExecId "policy" := by decide
theorem execution_valid : ValidExecId "execution" := by decide
theorem leaf_valid : ValidId "leaf" := by decide
theorem attempt_valid : ValidExecId "attempt" := by decide
theorem mutation_valid : ValidExecId "mutation" := by decide

def policy : ExecutionPolicy where
  id := ⟨"policy", policy_valid⟩
  sourceDeck := contentId 2
  requiredPromises := []
  requiredProofs := []

def image : FileImage := ⟨"src/lib.rs", some (contentId 30)⟩

def openRequest : OpenRequest where
  authority := {
    identity := {
      execution := ⟨"execution", execution_valid⟩
      policy := policy.id
      roadmap := contentId 1
      sourceDeck := policy.sourceDeck
      conduct := contentId 3
      model := contentId 4
      launcher := contentId 5
      runner := contentId 6 }
    ceiling := ⟨[]⟩
    grant := contentId 10 }
  phase := ⟨"leaf", leaf_valid⟩
  attempt := ⟨"attempt", attempt_valid⟩
  policy := policy
  mutation := ⟨⟨"mutation", mutation_valid⟩, [], [image]⟩

/-- The adapter answers with the given observation. -/
def answering (observation : Observation) : Ports where
  admittedLeaf _ := .ok (some openRequest.phase)
  invoke identity phase _ := .ok {
    execution := identity.execution
    phase
    attempt := openRequest.attempt
    observation }
  receipts _ := .ok []
  cancellationRequested _ := false

def event (observation : Observation) : ExecutionEvent where
  execution := openRequest.authority.identity.execution
  phase := openRequest.phase
  attempt := openRequest.attempt
  observation := observation

def start : Observation := { kind := .new "start", journalHead := contentId 20 }

def seeImage : Observation :=
  { kind := .new "image-observed", journalHead := contentId 21, image := some image }

def opening : Except ServiceError (RoadmapRunnerService Memory.Backend) :=
  RoadmapRunnerService.open Memory.api .empty openRequest .default

def service : RoadmapRunnerService Memory.Backend :=
  match opening with
  | .ok s => s
  | .error _ => ⟨journal, .empty, openRequest, .planned (contentId 0), contentId 0, contentId 0⟩

def running : RoadmapRunnerService Memory.Backend :=
  (advanceOneEffect Memory.api (answering start) service).2

def nextState (s : RoadmapRunnerService Memory.Backend) (o : Observation) :
    Except ServiceError PhaseRunState := do
  return (← s.proposeTransition (event o)).state

/-- The opened service is planned and takes the start; the running one takes the image, and its
journal refuses to. -/
theorem evaluated :
    opening.map (fun s => (s.journal.rebuild Memory.api s.backend).map (currentState ·.records)) =
      .ok (.ok "planned") ∧
    (service.journal.rebuild Memory.api service.backend).isOk ∧
    (service.proposeTransition (event start)).isOk ∧
    nextState running seeImage = .ok .running ∧
    (advanceOneEffect Memory.api (answering seeImage) running).1 =
      .error (.journal (.illegal 6 "invalid state transition")) := by
  decide +kernel

theorem opening_planned :
    opening.map (fun s => (s.journal.rebuild Memory.api s.backend).map (currentState ·.records)) =
      .ok (.ok "planned") := evaluated.1

theorem opening_service : opening = .ok service := by
  have hp := opening_planned
  unfold service
  cases hs : opening with
  | error e => rw [hs] at hp; cases hp
  | ok s => rfl

theorem reaches_service : Reaches Memory.api service := by
  have hp := opening_planned
  rw [opening_service] at hp
  refine .opened opening_service ?_
  intro st hst
  have hp : (service.journal.rebuild Memory.api service.backend).map (currentState ·.records) =
      .ok "planned" := Except.ok.inj hp
  rw [hst] at hp
  exact Except.ok.inj hp

theorem reaches_running : Reaches Memory.api running := by
  rw [running]
  exact .advanced reaches_service

end Sample

theorem journal_accepts_start :
    ∃ st next, Sample.service.journal.rebuild Memory.api Sample.service.backend = .ok st ∧
      Sample.service.proposeTransition (Sample.event Sample.start) = .ok next ∧
      validateNext true (st.records ++
          [.effectRequested "leaf:1" "admitted-leaf" none, .effectReceipt "leaf:1" "start" none])
        (.stateTransition (stateText Sample.service.transition.state) (stateText next.state)) 4 =
        .ok () := by
  have hok : (Sample.service.journal.rebuild Memory.api Sample.service.backend).isOk ∧
      (Sample.service.proposeTransition (Sample.event Sample.start)).isOk :=
    ⟨Sample.evaluated.2.1, Sample.evaluated.2.2.1⟩
  obtain ⟨st, hst⟩ := Except.exists_of_isOk hok.1
  obtain ⟨next, hnext⟩ := Except.exists_of_isOk hok.2
  have h := RoadmapRunnerService.journal_accepts_iff Memory.faithful Sample.reaches_service hst
    (RoadmapRunnerService.reduce_of_proposeTransition hnext)
  exact ⟨st, next, hst, hnext, (h.2.1 "leaf:1" "start" 4).mpr (by decide)⟩

/-- A running service observes an image. The reducer accepts the observation and stays in its
state; the effect has run and its receipt is journaled when the journal refuses the change. -/
theorem image_observation_refused :
    Memory.api.Faithful ∧ RoadmapRunnerService.Reaches Memory.api Sample.running ∧
      Sample.nextState Sample.running Sample.seeImage = .ok .running ∧
      (RoadmapRunnerService.advanceOneEffect Memory.api (Sample.answering Sample.seeImage)
        Sample.running).1 = .error (.journal (.illegal 6 "invalid state transition")) :=
  ⟨Memory.faithful, Sample.reaches_running, Sample.evaluated.2.2.2⟩

end SimAgentNet.RoadmapRunner
