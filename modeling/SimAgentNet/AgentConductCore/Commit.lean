import SimAgentNet.AgentConductCore.Durable

/-! # Failed commits

A commit extends the chain in memory before it asks the store. `commit_atomic_iff`: a commit that
fails leaves the run as it was exactly when it is not the store that refuses the record. -/

namespace SimAgentNet.AgentConductCore
open AgentJournal
open DurableAgentRun (appendStep commitStep)

variable {Mode σ : Type} [DecidableEq Mode] {debug : Mode → String}
  {digestHex : List UInt8 → String} {citizens : Citizens Mode}

/-! ## Stores and reached runs -/

/-- A store that holds the records `records`: loading returns them, in their order, an append
adds the record or finds it there, and a failed append changes nothing. -/
structure AgentJournalStore.Lawful (api : AgentJournalStore Mode σ)
    (records : σ → Symbol → List (AgentJournalRecord Mode)) : Prop where
  load_records : api.load s runId = .ok rs → rs = records s runId
  ordered : Ordered (records s runId)
  append_ok {r : AgentJournalRecord Mode} : api.append runId r s = (.ok (), s') →
    records s' runId = if (records s runId)[r.sequence]? = some r then records s runId
      else records s runId ++ [r]
  append_error : api.append runId r s = (.error e, s') → records s' = records s

variable (debug digestHex citizens) in
/-- The store accepts the record of the step, if the step is one of the run and has a record. -/
def Accepted (api : AgentJournalStore Mode σ) (run : DurableAgentRun Mode σ) (step : Step Mode) :
    Prop :=
  step.frame.runId = run.frame.runId → ∀ j' r,
    appendStep debug digestHex citizens run.journal step = .ok j' →
    j'.records.getLast? = some r →
      (api.append step.frame.runId r run.store).1 = .ok ()

/-- The step that a run is advanced by. -/
def producedBy (run : DurableAgentRun Mode σ) (productionStep : AgentRunFrame Mode →
    Option (Expr Mode) → Except LifecycleError (Step Mode)) :
    Except LifecycleError (Step Mode) :=
  productionStep run.frame (if run.continuation = .nil then none else some run.continuation)

variable (debug digestHex citizens) in
/-- The runs that starting, resuming and committing lead to, where the store has accepted every
record it was given. -/
inductive Reached (api : AgentJournalStore Mode σ) : DurableAgentRun Mode σ → Prop
  | start : DurableAgentRun.start api s frame g b = .ok run → Reached api run
  | resume : DurableAgentRun.resume debug digestHex api s handle g b frame = .ok run →
      Reached api run
  | commit : Reached api run → Accepted debug digestHex citizens api run step →
      Reached api (commitStep debug digestHex citizens api step run).2
  | advance : Reached api run →
      (∀ step, producedBy run p = .ok step → Accepted debug digestHex citizens api run step) →
      Reached api (DurableAgentRun.advance debug digestHex citizens api p run).2

section
variable {api : AgentJournalStore Mode σ} {records : σ → Symbol → List (AgentJournalRecord Mode)}
  {run run' : DurableAgentRun Mode σ}

variable (debug digestHex records) in
/-- The chain in memory is a chain and is the one in the store. -/
structure Mirrors (run : DurableAgentRun Mode σ) : Prop where
  chained : run.journal.Chained debug digestHex
  stored : run.journal.records = records run.store run.frame.runId

variable (debug digestHex citizens api) in
/-- The outcomes of a commit. -/
theorem commitStep_cases (step : Step Mode) (run : DurableAgentRun Mode σ) :
    (∃ e, commitStep debug digestHex citizens api step run = (.error e, run) ∧
      (step.frame.runId = run.frame.runId → ∀ j',
        appendStep debug digestHex citizens run.journal step ≠ .ok j')) ∨
    ∃ r j', step.frame.runId = run.frame.runId ∧
      appendStep debug digestHex citizens run.journal step = .ok j' ∧
      j' = { run.journal with records := run.journal.records ++ [r] } ∧
      r.sequence = run.journal.records.length ∧
      r.graphFingerprint = run.journal.graphFingerprint ∧
      r.bindingFingerprint = run.journal.bindingFingerprint ∧
      run.journal.insert debug digestHex r = .ok j' ∧
      commitStep debug digestHex citizens api step run =
        match api.append step.frame.runId r run.store with
        | (.ok _, s') =>
          (.ok (handleOf step.frame.runId r), ⟨s', j', step.frame, step.continuation⟩)
        | (.error e, s') => (.error e, ⟨s', j', run.frame, run.continuation⟩) := by
  by_cases hid : step.frame.runId = run.frame.runId
  · cases hj : appendStep debug digestHex citizens run.journal step with
    | error e =>
      refine .inl ⟨.journal e, ?_, fun _ j' => nofun⟩
      simp [commitStep, Bind.bind, Effect.bind, Effect.get, Effect.observe, hid, Effect.ofExcept,
        hj, Except.mapError]
    | ok j' =>
      obtain ⟨r, hj', hseq, hg, hb, hins⟩ := appendStep_ok hj
      have hlast : j'.records.getLast? = some r := by simp [hj']
      exact .inr ⟨r, j', hid, rfl, hj', hseq, hg, hb, hins, commitStep_of_append api hid hj hlast⟩
  · refine .inl ⟨.runIdentityDrift, ?_, fun h => absurd h hid⟩
    simp [commitStep, Bind.bind, Effect.bind, Effect.get, Effect.observe, hid, Effect.fail]

theorem accepted_of_commit (hid : step.frame.runId = run.frame.runId)
    (hj : appendStep debug digestHex citizens run.journal step = .ok j')
    (hj' : j' = { run.journal with records := run.journal.records ++ [r] }) :
    Accepted debug digestHex citizens api run step ↔
      (api.append step.frame.runId r run.store).1 = .ok () := by
  constructor
  · intro h
    exact h hid j' r hj (by simp [hj'])
  · intro h _ j'' r' hj'' hr'
    cases hj.symm.trans hj''
    rw [hj', List.getLast?_concat] at hr'
    cases hr'
    exact h

theorem Mirrors.commit (hlaw : api.Lawful records) (h : Mirrors debug digestHex records run)
    (hacc : Accepted debug digestHex citizens api run step) :
    Mirrors debug digestHex records (commitStep debug digestHex citizens api step run).2 := by
  obtain ⟨e, hrun, -⟩ | ⟨r, j', hid, hj, hj', hseq, hg, hb, hins, hrun⟩ :=
    commitStep_cases debug digestHex citizens api step run
  · rw [hrun]
    exact h
  · have hok := (accepted_of_commit hid hj hj').mp hacc
    rcases happ : api.append step.frame.runId r run.store with ⟨res, s'⟩
    rw [happ] at hok
    cases hok
    rw [hrun, happ]
    subst hj'
    refine ⟨h.chained.next hg hb hins, ?_⟩
    have hstored := hlaw.append_ok happ
    rw [hid, ← h.stored, if_neg (by simp [hseq])] at hstored
    rw [show step.frame.runId = run.frame.runId from hid, hstored]

theorem advance_eq (run : DurableAgentRun Mode σ) (p : AgentRunFrame Mode → Option (Expr Mode) →
      Except LifecycleError (Step Mode)) :
    DurableAgentRun.advance debug digestHex citizens api p run =
      match producedBy run p with
      | .ok step => commitStep debug digestHex citizens api step run
      | .error e => (.error e, run) := by
  simp only [DurableAgentRun.advance, Bind.bind, Effect.bind, Effect.get, Effect.observe,
    Effect.ofExcept, producedBy]
  cases p run.frame (if run.continuation = .nil then none else some run.continuation) with
  | ok step => rfl
  | error e => rfl

theorem Reached.mirrors (hlaw : api.Lawful records)
    (h : Reached debug digestHex citizens api run) : Mirrors debug digestHex records run := by
  induction h with
  | @start s frame g b run h =>
    simp only [DurableAgentRun.start, Except.bind_eq_ok_iff, Except.guard_eq_ok_iff] at h
    obtain ⟨rs, hrs, hempty, h⟩ := h
    cases h
    refine ⟨chained_new g b, ?_⟩
    have : rs = [] := by simpa using hempty
    rw [← hlaw.load_records hrs, this]
    rfl
  | @resume s handle g b frame run h =>
    simp only [DurableAgentRun.resume, Except.guard_eq_ok_iff, not_not, Except.bind_eq_ok_iff,
      Except.mapError_eq_ok_iff] at h
    obtain ⟨rfl, rfl, rs, hrs, j, hj, h⟩ := h
    have hrec := hlaw.load_records hrs
    subst hrec
    cases fromRecords_ordered hlaw.ordered hj
    split at h
    · cases h
    · rw [Except.guard_eq_ok_iff, Except.guard_eq_ok_iff, not_not] at h
      obtain ⟨-, hid, h⟩ := h
      cases h
      exact ⟨hj, by rw [hid]⟩
  | commit _ hacc ih => exact ih.commit hlaw hacc
  | @advance run p _ hacc ih =>
    rw [advance_eq]
    split
    · rename_i step hstep
      exact ih.commit hlaw (hacc step hstep)
    · exact ih

/-! ## Atomic commits -/

variable (debug digestHex api records) in
/-- A failed call has left the run as it was: its journal, its frame and its continuation, and its
handle, which names the last record in the store and from which the run can be resumed. -/
structure Kept (run run' : DurableAgentRun Mode σ) : Prop where
  journal : run'.journal = run.journal
  frame : run'.frame = run.frame
  continuation : run'.continuation = run.continuation
  handle : run'.suspend = match (records run'.store run'.frame.runId).getLast? with
    | none => .error .emptyJournal
    | some last => .ok (handleOf run'.frame.runId last)
  resumes : run'.suspend = .ok h → api.load run'.store run'.frame.runId = .ok rs →
    ∃ resumed, DurableAgentRun.resume debug digestHex api run'.store h
      run'.journal.graphFingerprint run'.journal.bindingFingerprint run'.frame = .ok resumed

theorem Mirrors.kept (hlaw : api.Lawful records) (h : Mirrors debug digestHex records run) :
    Kept debug digestHex api records run run where
  journal := rfl
  frame := rfl
  continuation := rfl
  handle := by
    cases hlast : (records run.store run.frame.runId).getLast? with
    | none | some last => rw [DurableAgentRun.suspend, DurableAgentRun.handle, h.stored, hlast]
  resumes {handle rs} hh hload := by
    rw [DurableAgentRun.suspend, DurableAgentRun.handle] at hh
    split at hh
    · cases hh
    · rename_i last hlast
      cases hh
      have hchain := h.chained
      unfold Chained at hchain
      obtain ⟨hg, hb⟩ := (fromRecords_fingerprints hchain).2 last (List.mem_of_getLast? hlast)
      have hrs : rs = run.journal.records := (hlaw.load_records hload).trans h.stored.symm
      simp only [DurableAgentRun.resume, handleOf, hg, hb, ne_eq, not_true_eq_false, if_false,
        hload, Except.ok_bind, hrs, hchain, Except.mapError, hlast, or_self]
      exact ⟨_, rfl⟩

theorem kept_commit_iff (hlaw : api.Lawful records)
    (h : Reached debug digestHex citizens api run) (step : Step Mode) :
    (∀ e run', commitStep debug digestHex citizens api step run = (.error e, run') →
      Kept debug digestHex api records run run') ↔
    Accepted debug digestHex citizens api run step := by
  obtain ⟨e, hrun, hnone⟩ | ⟨r, j', hid, hj, hj', -, -, -, -, hrun⟩ :=
    commitStep_cases debug digestHex citizens api step run
  · constructor
    · intro _ hid j' r hj
      exact absurd hj (hnone hid j')
    · intro _ e' run' he
      cases hrun.symm.trans he
      exact (h.mirrors hlaw).kept hlaw
  · rw [accepted_of_commit hid hj hj']
    rcases happ : api.append step.frame.runId r run.store with ⟨res, s'⟩
    rw [happ] at hrun
    cases res with
    | ok u =>
      refine ⟨fun _ => rfl, fun _ e' run' he => ?_⟩
      cases hrun.symm.trans he
    | error e =>
      -- The record that the store has refused stays in memory.
      refine ⟨fun hkept => ?_, nofun⟩
      have hjournal := (hkept e _ hrun).journal
      have hlen := congrArg (·.records.length) (hj'.symm.trans hjournal)
      simp at hlen

end

/-! ## The store in memory is lawful -/

namespace InMemoryJournalStore
variable {s s' : InMemoryJournalStore Mode}

omit [DecidableEq Mode] in
/-- Writing the records of a run back changes none. -/
theorem records_put_records (s : InMemoryJournalStore Mode) (runId : Symbol) :
    (s.put runId (s.records runId)).records = s.records := by
  funext other
  by_cases h : other = runId
  · rw [h, records_put_self]
  · exact records_put_ne _ _ h

theorem append_ok_records (h : append debug digestHex runId r s = (.ok (), s')) :
    s'.records runId = if (s.records runId)[r.sequence]? = some r then s.records runId
      else s.records runId ++ [r] := by
  simp only [append] at h
  split at h
  · rename_i existing hlook
    split at h
    · rename_i heq
      cases h
      rw [if_pos (heq ▸ hlook), records_put_self]
    · cases h
  · rename_i hlook
    rw [if_neg (by simp [hlook])]
    split at h
    · cases h
    · split at h
      · cases h
      · cases h
        exact records_put_self ..

theorem append_error_records (h : append debug digestHex runId r s = (.error e, s')) :
    s'.records = s.records := by
  have hs : s' = (append debug digestHex runId r s).2 := by rw [h]
  obtain heq | ⟨-, j, hj, hlook, hok⟩ :=
    append_cases debug digestHex s runId r
  · rw [hs, heq]
    exact records_put_records s runId
  · obtain ⟨j', hj'⟩ := Except.exists_of_isOk hok
    simp only [append, hlook, hj, hj'] at h
    cases h

end InMemoryJournalStore

/-- In every run whose records the store has accepted so far, a call that commits a step fails
without a trace exactly when it does not fail because the store refuses the step's record. -/
theorem commit_atomic_iff {api : AgentJournalStore Mode σ}
    {records : σ → Symbol → List (AgentJournalRecord Mode)} (hlaw : api.Lawful records)
    {run : DurableAgentRun Mode σ} (h : Reached debug digestHex citizens api run) :
    (∀ step, (∀ e run', commitStep debug digestHex citizens api step run = (.error e, run') →
        Kept debug digestHex api records run run') ↔
      Accepted debug digestHex citizens api run step) ∧
    ∀ p, (∀ e run', DurableAgentRun.advance debug digestHex citizens api p run = (.error e, run') →
        Kept debug digestHex api records run run') ↔
      ∀ step, producedBy run p = .ok step → Accepted debug digestHex citizens api run step := by
  refine ⟨kept_commit_iff hlaw h, ?_⟩
  intro p
  rw [advance_eq]
  cases hp : producedBy run p with
  | ok step =>
    simp only [Except.ok.injEq, forall_eq']
    exact kept_commit_iff hlaw h step
  | error e =>
    refine ⟨fun _ => nofun, fun _ e' run' he => ?_⟩
    cases he
    exact (h.mirrors hlaw).kept hlaw

namespace Sample

/-- A store in memory that refuses records while it is down. -/
structure FlakyStore where
  store : InMemoryJournalStore Unit
  reachable : store.Reachable (fun _ => "Quote") digest
  down : Bool

namespace FlakyStore

def records (s : FlakyStore) (runId : Symbol) : List (AgentJournalRecord Unit) :=
  s.store.records runId

def api : AgentJournalStore Unit FlakyStore where
  load s runId := .ok (s.records runId)
  append runId record := fun s =>
    if s.down then (.error (.store "down"), s)
    else ((InMemoryJournalStore.append (fun _ => "Quote") digest runId record s.store).1,
      { s with
        store := (InMemoryJournalStore.append (fun _ => "Quote") digest runId record s.store).2
        reachable := .append s.reachable })

theorem lawful : api.Lawful records where
  load_records h := (Except.ok.inj h).symm
  ordered {s runId} := s.reachable.ordered runId
  append_ok {runId s s' r} h := by
    simp only [api] at h
    split at h
    · cases h
    · obtain ⟨h₁, rfl⟩ := Prod.mk.inj h
      exact InMemoryJournalStore.append_ok_records (Prod.ext h₁ rfl)
  append_error {runId r s e s'} h := by
    simp only [api] at h
    split at h
    · cases h
      rfl
    · obtain ⟨h₁, rfl⟩ := Prod.mk.inj h
      funext id
      exact congrFun (InMemoryJournalStore.append_error_records (Prod.ext h₁ rfl)) id

/-- A run that has just been started on an empty store. -/
def started (down : Bool) : DurableAgentRun Unit FlakyStore where
  store := ⟨⟨∅⟩, .empty, down⟩
  journal := .new "graph" "bindings"
  frame := frame "initial"
  continuation := .nil

theorem reached_started (down : Bool) :
    Reached (fun _ => "Quote") digest encodings api (started down) :=
  Reached.start (show DurableAgentRun.start api ⟨⟨∅⟩, .empty, down⟩ (frame "initial") "graph" "bindings" =
    .ok (started down) from rfl)

end FlakyStore

end Sample

open Sample FlakyStore in
/-- A step of another run is refused before the store is asked, and leaves the run. -/
theorem commit_atomic_iff_other_run :
    let step : Step Unit := { step "other" with
      frame := { frame "other" with runId := .qualified "test-run" "other" } }
    ∃ e run', commitStep (fun _ => "Quote") digest encodings api step (started true) =
      (.error e, run') ∧ Kept (fun _ => "Quote") digest api records (started true) run' := by
  intro step
  have hiff := (commit_atomic_iff lawful (reached_started true)).1 step
  exact ⟨.runIdentityDrift, started true, rfl,
    hiff.mpr (fun hid => absurd hid (by decide)) _ _ rfl⟩

open Sample FlakyStore in
/-- The store is down: the commit fails, and the run has a record that is not in the store, which
its next handle names. -/
theorem failed_append_extends_journal :
    Reached (fun _ => "Quote") digest encodings api (started true) ∧
      ∃ e run' h, commitStep (fun _ => "Quote") digest encodings api (step "one")
        (started true) = (.error e, run') ∧ run'.journal ≠ (started true).journal ∧
        run'.suspend = .ok h ∧ h.sequence = 1 ∧ run'.store.records h.runId = [] := by
  have hok : (appendStep (fun _ => "Quote") digest encodings (started true).journal
      (step "one")).isOk := by decide +kernel
  obtain ⟨j', hj⟩ := Except.exists_of_isOk hok
  obtain ⟨r, hj', hseq, -⟩ := appendStep_ok hj
  have hlast : j'.records.getLast? = some r := by simp [hj']
  have hid : (step "one").frame.runId = (started true).frame.runId := rfl
  have hrun := commitStep_of_append api hid hj hlast
  refine ⟨reached_started true, .store "down", _, handleOf (started true).frame.runId r, hrun,
    ?_, ?_, ?_, rfl⟩
  · intro hjournal
    have hlen := congrArg (·.records.length) (hj'.symm.trans hjournal)
    simp at hlen
  · simp only [DurableAgentRun.suspend, DurableAgentRun.handle, hlast]
  · simp [handleOf, hseq, started, AgentJournal.new]

end SimAgentNet.AgentConductCore
