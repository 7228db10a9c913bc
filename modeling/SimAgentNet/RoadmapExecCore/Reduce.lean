import SimAgentNet.Data.Run
import SimAgentNet.RoadmapExecCore.Model

/-! # The execution reducer

`reduce` turns one correlated observation into the next reducer state or refuses it. `replay`
folds it over a list of events. `reduce_cases` says once what an accepted observation can do; the
lemmas about runs are derived from it. -/

namespace SimAgentNet.RoadmapExecCore
open RoadmapCore

def correlate (plan : MutationPlan) (execution : ExecutionId) (phase : PhaseId)
    (attempt : AttemptId) (current : Transition) (event : ExecutionEvent) :
    Except ExecutionFailure Unit :=
  let o := event.observation
  if event.execution ≠ execution then .error .wrongExecution
  else if event.phase ≠ phase then .error .wrongPhase
  else if event.attempt ≠ attempt then .error .wrongAttempt
  else if o.journalHead = current.journalHead then .error .wrongJournalHead
  else if o.mutation.any (· ≠ plan.id) then .error .wrongMutation
  else if o.proofCursor.any fun c => c.journalHead ≠ current.journalHead ∨ c.sequence = 0 then
    .error .wrongProofCursor
  else .ok ()

def observeImage (plan : MutationPlan) (next : Transition) (image : FileImage) :
    Except ExecutionFailure Transition :=
  match plan.classify image with
  | .postimage | .preAndPost =>
    .ok { next with committedPostimages := sortedUnique (next.committedPostimages ++ [image]) }
  | .preimage => .ok next
  | .foreign => .error .foreignImage

def request (next : Transition) (kind : String) (execution : ExecutionId) (phase : PhaseId)
    (mutation : Option MutationId) (proofCursor : Option ProofCursor) : Transition :=
  { next with requestedEffects := next.requestedEffects ++
      [{ kind := Symbol.new kind, execution, phase, mutation, proofCursor }] }

def succeed (policy : ExecutionPolicy) (plan : MutationPlan) (execution : ExecutionId)
    (phase : PhaseId) (next : Transition) : Except ExecutionFailure Transition :=
  if next.committedPostimages ≠ plan.postimages then
    .error (.successInvariant "postimages not committed")
  else if next.currentSourceDeck ≠ some policy.sourceDeck then
    .error (.successInvariant "source deck is stale")
  else if policy.requiredPromises.any
      fun p => !next.discharges.any fun d => d.promise == p && d.proven then
    .error (.successInvariant "required promise is not proven")
  else if !next.parentAcceptanceRetained then
    .error (.successInvariant "parent acceptance not retained")
  else if next.unresolved.any (·.mandatory) ||
      policy.requiredProofs.any fun p => next.unresolved.any fun u => u.mandatory && u.proof == p
  then .error (.successInvariant "mandatory proof unresolved")
  else .ok { next with
    state := .succeeded
    receipt := some {
      execution, phase
      sourceDeck := policy.sourceDeck
      journalHead := next.journalHead
      committedPostimages := next.committedPostimages
      discharges := next.discharges
      parentAcceptanceRetained := true } }

/-- Replaces the discharge of one promise and keeps the list sorted by promise. -/
def discharge (next : Transition) (d : PromiseDischarge) : Transition :=
  let kept := next.discharges.filter (·.promise ≠ d.promise)
  { next with discharges := (kept ++ [d]).insertionSort fun a b => a.promise ≤ b.promise }

/-- The state an observation starts from: requests cleared, head moved to the observation's. -/
def Transition.advance (current : Transition) (event : ExecutionEvent) : Transition :=
  { current with requestedEffects := [], journalHead := event.observation.journalHead }

def reduce (policy : ExecutionPolicy) (plan : MutationPlan) (execution : ExecutionId)
    (phase : PhaseId) (attempt : AttemptId) (current : Transition) (event : ExecutionEvent) :
    Except ExecutionFailure Transition := do
  correlate plan execution phase attempt current event
  let o := event.observation
  let next := current.advance event
  match current.state, o.kind.display with
  | .planned, "start" =>
    .ok (request { next with state := .running } "apply-mutation" execution phase
      (some plan.id) none)
  | .running, "image-observed" | .reconciling, "image-observed" =>
    match o.image with
    | some image => observeImage plan next image
    | none => .error (.invalidObservation o.kind)
  | .running, "mutation-committed" =>
    .ok (request { next with state := .reconciling } "run-proof" execution phase
      (some plan.id) o.proofCursor)
  | .reconciling, "promise-discharged" =>
    match o.discharge with
    | some d => .ok (discharge next d)
    | none => .error (.invalidObservation o.kind)
  | .reconciling, "proof-unresolved" =>
    match o.unresolved with
    | some u => .ok { next with unresolved := sortedUnique (next.unresolved ++ [u]) }
    | none => .error (.invalidObservation o.kind)
  | .reconciling, "source-deck-current" => .ok { next with currentSourceDeck := o.sourceDeck }
  | .reconciling, "parent-accepted" => .ok { next with parentAcceptanceRetained := true }
  | .reconciling, "succeed" => succeed policy plan execution phase next
  | .running, "fail" | .reconciling, "fail" => .ok { next with state := .failed }
  | .planned, "cancel" | .running, "cancel" | .reconciling, "cancel" =>
    .ok { next with state := .cancelled }
  | _, _ => .error .invalidState

def replay (policy : ExecutionPolicy) (plan : MutationPlan) (execution : ExecutionId)
    (phase : PhaseId) (attempt : AttemptId) (initial : Transition) (events : List ExecutionEvent) :
    Except ExecutionFailure Transition :=
  events.foldlM (reduce policy plan execution phase attempt) initial

/-! ## What an accepted observation does -/

/-- The text a match on an event's kind sees. -/
def ExecutionEvent.kindText (e : ExecutionEvent) : String := e.observation.kind.display

section
variable (policy : ExecutionPolicy) (plan : MutationPlan) (execution : ExecutionId)
  (phase : PhaseId)

/-- One constructor for each row of the reducer's state and observation table. -/
inductive Step : Transition → ExecutionEvent → Transition → Prop
  | start : t.state = .planned → e.kindText = "start" →
    Step t e (request { t.advance e with state := .running } "apply-mutation" execution phase
      (some plan.id) none)
  | image : t.state = .running ∨ t.state = .reconciling → e.kindText = "image-observed" →
    e.observation.image = some image → observeImage plan (t.advance e) image = .ok t' →
    Step t e t'
  | committed : t.state = .running → e.kindText = "mutation-committed" →
    Step t e (request { t.advance e with state := .reconciling } "run-proof" execution phase
      (some plan.id) e.observation.proofCursor)
  | discharge : t.state = .reconciling → e.kindText = "promise-discharged" →
    e.observation.discharge = some d → Step t e (discharge (t.advance e) d)
  | unresolved : t.state = .reconciling → e.kindText = "proof-unresolved" →
    e.observation.unresolved = some u →
    Step t e { t.advance e with unresolved := sortedUnique ((t.advance e).unresolved ++ [u]) }
  | deck : t.state = .reconciling → e.kindText = "source-deck-current" →
    Step t e { t.advance e with currentSourceDeck := e.observation.sourceDeck }
  | parent : t.state = .reconciling → e.kindText = "parent-accepted" →
    Step t e { t.advance e with parentAcceptanceRetained := true }
  | succeed : t.state = .reconciling → e.kindText = "succeed" →
    succeed policy plan execution phase (t.advance e) = .ok t' → Step t e t'
  | fail : t.state = .running ∨ t.state = .reconciling → e.kindText = "fail" →
    Step t e { t.advance e with state := .failed }
  | cancel : t.state = .planned ∨ t.state = .running ∨ t.state = .reconciling →
    e.kindText = "cancel" → Step t e { t.advance e with state := .cancelled }

end

variable {policy : ExecutionPolicy} {plan : MutationPlan} {execution : ExecutionId}
  {phase : PhaseId} {attempt : AttemptId} {t t' : Transition} {e : ExecutionEvent}

theorem reduce_cases (h : reduce policy plan execution phase attempt t e = .ok t') :
    correlate plan execution phase attempt t e = .ok () ∧
      Step policy plan execution phase t e t' := by
  obtain ⟨⟨⟩, hc, h⟩ := Except.bind_eq_ok_iff.mp h
  refine ⟨hc, ?_⟩
  dsimp only at h
  split at h
  · rename_i hs hk; cases h; exact .start hs hk
  · rename_i hs hk
    split at h
    · rename_i hi; exact .image (.inl hs) hk hi h
    · cases h
  · rename_i hs hk
    split at h
    · rename_i hi; exact .image (.inr hs) hk hi h
    · cases h
  · rename_i hs hk; cases h; exact .committed hs hk
  · rename_i hs hk
    split at h
    · rename_i hd; cases h; exact .discharge hs hk hd
    · cases h
  · rename_i hs hk
    split at h
    · rename_i hu; cases h; exact .unresolved hs hk hu
    · cases h
  · rename_i hs hk; cases h; exact .deck hs hk
  · rename_i hs hk; cases h; exact .parent hs hk
  · rename_i hs hk; exact .succeed hs hk h
  · rename_i hs hk; cases h; exact .fail (.inl hs) hk
  · rename_i hs hk; cases h; exact .fail (.inr hs) hk
  · rename_i hs hk; cases h; exact .cancel (.inl hs) hk
  · rename_i hs hk; cases h; exact .cancel (.inr (.inl hs)) hk
  · rename_i hs hk; cases h; exact .cancel (.inr (.inr hs)) hk
  · cases h

/-- No observation is accepted in a terminal state. -/
theorem not_terminal_of_reduce (h : reduce policy plan execution phase attempt t e = .ok t') :
    ¬t.state.Terminal := by
  intro ht
  cases (reduce_cases h).2 with
  | start hs | committed hs | discharge hs | unresolved hs | deck hs | parent hs | succeed hs =>
    rw [hs] at ht; exact ht
  | image hs | fail hs => rcases hs with hs | hs <;> rw [hs] at ht <;> exact ht
  | cancel hs => rcases hs with hs | hs | hs <;> rw [hs] at ht <;> exact ht

/-- What `succeed` checked, and the state it returns. -/
theorem succeed_cases (h : succeed policy plan execution phase t = .ok t') :
    t.committedPostimages = plan.postimages ∧ t.currentSourceDeck = some policy.sourceDeck ∧
    (∀ p ∈ policy.requiredPromises, ∃ d ∈ t.discharges, d.promise = p ∧ d.proven = true) ∧
    t.parentAcceptanceRetained = true ∧ (∀ u ∈ t.unresolved, u.mandatory = false) ∧
    t' = { t with
      state := .succeeded
      receipt := some {
        execution, phase
        sourceDeck := policy.sourceDeck
        journalHead := t.journalHead
        committedPostimages := t.committedPostimages
        discharges := t.discharges
        parentAcceptanceRetained := true } } := by
  simp only [succeed, Except.guard_eq_ok_iff, ne_eq, Decidable.not_not, Except.ok.injEq] at h
  obtain ⟨hpost, hdeck, hprom, hpar, hproof, rfl⟩ := h
  refine ⟨hpost, hdeck, fun p hp => ?_, by simpa using hpar, fun u hu => ?_, rfl⟩
  · by_contra hno
    refine hprom (List.any_eq_true.mpr ⟨p, hp, ?_⟩)
    simp only [Bool.not_eq_true', List.any_eq_false, Bool.and_eq_true, beq_iff_eq]
    exact fun d hd hpd => hno ⟨d, hd, hpd⟩
  · by_contra hm
    refine hproof (Bool.or_eq_true _ _ ▸ .inl (List.any_eq_true.mpr ⟨u, hu, ?_⟩))
    simpa using hm

/-- What an observed image does: a postimage joins the committed ones, a mere preimage changes
nothing. -/
theorem observeImage_cases (h : observeImage plan t image = .ok t') :
    t' = t ∨
      t' = { t with committedPostimages := sortedUnique (t.committedPostimages ++ [image]) } := by
  unfold observeImage at h
  split at h
  · cases h; exact .inr rfl
  · cases h; exact .inr rfl
  · cases h; exact .inl rfl
  · cases h

theorem mem_discharge {d d' : PromiseDischarge} :
    d' ∈ (discharge t d).discharges ↔ d' = d ∨ (d' ∈ t.discharges ∧ d'.promise ≠ d.promise) := by
  simp only [discharge, List.mem_insertionSort, List.mem_append, List.mem_filter,
    List.mem_singleton, decide_eq_true_eq]
  exact Or.comm

end SimAgentNet.RoadmapExecCore
