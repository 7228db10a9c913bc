import SimAgentNet.Data.Run
import SimAgentNet.AgentConductCore.Lifecycle

/-! # Laws of durable runs

The chain in memory and the chain in the store stay equal over every run, suspended and resumed
or not (`resumed_run_same`). -/

namespace SimAgentNet.AgentConductCore
variable {Mode σ : Type} [DecidableEq Mode] {debug : Mode → String}
  {digestHex : List UInt8 → String} {citizens : Citizens Mode}

/-! ## Chains -/

namespace AgentJournal

theorem insert_cases {j j' : AgentJournal Mode} (h : j.insert debug digestHex r = .ok j') :
    (j.records[r.sequence]? = some r ∧ j' = j) ∨
    (r.sequence = j.records.length ∧ r.priorHash = j.records.getLast?.map (·.hash) ∧
      r.hash = recordHash debug digestHex r ∧ j' = { j with records := j.records ++ [r] }) := by
  unfold insert at h
  split at h
  · rename_i existing hlook
    split at h
    · rename_i heq
      cases h
      exact .inl ⟨heq ▸ hlook, rfl⟩
    · cases h
  · simp only [Except.guard_eq_ok_iff, not_not, Except.ok.injEq] at h
    obtain ⟨hseq, hprior, hhash, rfl⟩ := h
    exact .inr ⟨hseq, hprior, hhash, rfl⟩

theorem insert_next {j : AgentJournal Mode} (hseq : r.sequence = j.records.length)
    (hprior : r.priorHash = j.records.getLast?.map (·.hash))
    (hhash : r.hash = recordHash debug digestHex r) :
    j.insert debug digestHex r = .ok { j with records := j.records ++ [r] } := by
  have hlook : j.records[r.sequence]? = none := by simp [hseq]
  simp only [insert, hlook]
  simp [hseq, hprior, ← hhash]

/-- The records stand at their sequence numbers. -/
def Ordered (rs : List (AgentJournalRecord Mode)) : Prop :=
  ∀ (i : Nat) (r : AgentJournalRecord Mode), rs[i]? = some r → r.sequence = i

omit [DecidableEq Mode] in
theorem Ordered.concat_iff {rs : List (AgentJournalRecord Mode)} {r : AgentJournalRecord Mode} :
    Ordered (rs ++ [r]) ↔ Ordered rs ∧ r.sequence = rs.length := by
  constructor
  · intro h
    refine ⟨fun i r' hr' => h i r' ?_, h rs.length r (by simp)⟩
    rw [List.getElem?_append_left (List.getElem?_eq_some_iff.mp hr').1]
    exact hr'
  · intro ⟨h, hr⟩ i r' hr'
    obtain hi | hi := Nat.lt_or_ge i rs.length
    · exact h i r' (by rwa [List.getElem?_append_left hi] at hr')
    · rw [List.getElem?_append_right hi, List.getElem?_singleton] at hr'
      split at hr'
      · cases hr'
        omega
      · cases hr'

variable (debug digestHex) in
/-- A journal that loading its own records gives back. -/
def Chained (j : AgentJournal Mode) : Prop :=
  fromRecords debug digestHex j.graphFingerprint j.bindingFingerprint j.records = .ok j

theorem chained_new (g b : String) : Chained debug digestHex (new g b : AgentJournal Mode) := rfl

/-- Records in their order are loaded as they are. -/
theorem fromRecords_ordered (ho : Ordered rs)
    (h : fromRecords debug digestHex g b rs = .ok j) : j = ⟨g, b, rs⟩ := by
  induction rs using List.reverseRecOn generalizing j with
  | nil => cases h; rfl
  | append_singleton rs r ih =>
    obtain ⟨hrs, hr⟩ := Ordered.concat_iff.mp ho
    obtain ⟨u, hu, hstep⟩ := Run.foldlM_concat_eq_ok_iff.mp h
    cases ih hrs hu
    rw [Except.guard_eq_ok_iff] at hstep
    obtain ⟨hlook, -⟩ | ⟨-, -, -, rfl⟩ := insert_cases hstep.2
    · simp [hr] at hlook
    · rfl

/-- A journal is loaded from records of its own fingerprints. -/
theorem fromRecords_fingerprints (h : fromRecords debug digestHex g b rs = .ok j) :
    (j.graphFingerprint = g ∧ j.bindingFingerprint = b) ∧
      ∀ r ∈ rs, r.graphFingerprint = g ∧ r.bindingFingerprint = b := by
  refine Run.induct (P := fun (es : List (AgentJournalRecord Mode)) (t : AgentJournal Mode) =>
    (t.graphFingerprint = g ∧ t.bindingFingerprint = b) ∧
      ∀ r ∈ es, r.graphFingerprint = g ∧ r.bindingFingerprint = b) ⟨⟨rfl, rfl⟩, nofun⟩ ?_ h
  intro es t r t' ht hstep
  rw [Except.guard_eq_ok_iff, not_or, not_not, not_not] at hstep
  obtain ⟨⟨hg, hb⟩, hins⟩ := hstep
  have hsame : t'.graphFingerprint = t.graphFingerprint ∧
      t'.bindingFingerprint = t.bindingFingerprint := by
    obtain ⟨-, rfl⟩ | ⟨-, -, -, rfl⟩ := insert_cases hins
    · exact ⟨rfl, rfl⟩
    · exact ⟨rfl, rfl⟩
  refine ⟨⟨hsame.1.trans ht.1.1, hsame.2.trans ht.1.2⟩, ?_⟩
  intro r' hr'
  obtain hr' | hr' := List.mem_append.mp hr'
  · exact ht.2 r' hr'
  · cases List.mem_singleton.mp hr'
    exact ⟨hg.trans ht.1.1, hb.trans ht.1.2⟩

theorem Chained.next {j : AgentJournal Mode} (hj : j.Chained debug digestHex)
    (hg : r.graphFingerprint = j.graphFingerprint)
    (hb : r.bindingFingerprint = j.bindingFingerprint)
    (h : j.insert debug digestHex r = .ok { j with records := j.records ++ [r] }) :
    Chained debug digestHex { j with records := j.records ++ [r] } := by
  refine Run.foldlM_concat_eq_ok_iff.mpr ⟨j, hj, ?_⟩
  rw [Except.guard_eq_ok_iff]
  exact ⟨by simp [hg, hb], h⟩

end AgentJournal

open AgentJournal

/-! ## Appending a step -/

variable (citizens) in
/-- The event, the frame and the usage of the step have encodings. -/
def Step.Encodes (step : Step Mode) : Prop :=
  (citizens.event step.event).isOk ∧ (citizens.frame step.frame).isOk ∧
    (citizens.usage step.frame.usage).isOk

open DurableAgentRun (appendStep commitStep)

/-- A step is appended as one record of the journal's own fingerprints. -/
theorem appendStep_ok {j : AgentJournal Mode}
    (h : appendStep debug digestHex citizens j step = .ok j') :
    ∃ r, j' = { j with records := j.records ++ [r] } ∧ r.sequence = j.records.length ∧
      r.graphFingerprint = j.graphFingerprint ∧ r.bindingFingerprint = j.bindingFingerprint ∧
      j.insert debug digestHex r = .ok j' := by
  simp only [appendStep, AgentJournal.append, Except.bind_eq_ok_iff] at h
  obtain ⟨e, -, f, -, u, -, h⟩ := h
  refine ⟨_, ?_, rfl, rfl, rfl, h⟩
  obtain ⟨hlook, -⟩ | ⟨-, -, -, rfl⟩ := insert_cases h
  · simp at hlook
  · rfl

variable (debug digestHex) in
theorem appendStep_of_encodes (j : AgentJournal Mode) (h : step.Encodes citizens) :
    ∃ j', appendStep debug digestHex citizens j step = .ok j' := by
  obtain ⟨he, hf, hu⟩ := h
  obtain ⟨e, he⟩ := Except.exists_of_isOk he
  obtain ⟨f, hf⟩ := Except.exists_of_isOk hf
  obtain ⟨u, hu⟩ := Except.exists_of_isOk hu
  unfold appendStep AgentJournal.append
  rw [he, hf, hu]
  exact ⟨_, insert_next rfl rfl rfl⟩

/-- What committing a step of the run does once it has been appended in memory. -/
theorem commitStep_of_append (api : AgentJournalStore Mode σ) {run : DurableAgentRun Mode σ}
    (hid : step.frame.runId = run.frame.runId)
    (hj : appendStep debug digestHex citizens run.journal step = .ok j')
    (hlast : j'.records.getLast? = some r) :
    commitStep debug digestHex citizens api step run =
      match api.append step.frame.runId r run.store with
      | (.ok _, s') =>
        (.ok (handleOf step.frame.runId r), ⟨s', j', step.frame, step.continuation⟩)
      | (.error e, s') => (.error e, ⟨s', j', run.frame, run.continuation⟩) := by
  simp only [commitStep, Bind.bind, Effect.bind, Effect.get, Effect.observe, hid, ne_eq,
    not_true_eq_false, if_false, Effect.ofExcept, hj, Except.mapError, Effect.modify, hlast,
    Effect.focus]
  rcases api.append run.frame.runId r run.store with ⟨_ | _, s'⟩
  · rfl
  · simp [DurableAgentRun.handle, hlast, hid]

/-! ## The store in memory -/

namespace InMemoryJournalStore

omit [DecidableEq Mode] in
theorem records_put_self (store : InMemoryJournalStore Mode) (runId : Symbol)
    (rs : List (AgentJournalRecord Mode)) : (store.put runId rs).records runId = rs := by
  simp [records, put]

omit [DecidableEq Mode] in
theorem records_put_ne (store : InMemoryJournalStore Mode)
    (rs : List (AgentJournalRecord Mode)) (h : other ≠ runId) :
    (store.put runId rs).records other = store.records other := by
  simp [records, put, h]

omit [DecidableEq Mode] in
theorem put_put (store : InMemoryJournalStore Mode) (runId : Symbol)
    (rs rs' : List (AgentJournalRecord Mode)) :
    (store.put runId rs).put runId rs' = store.put runId rs' := by
  unfold put
  congr 1
  apply SortedMap.ext
  intro k
  simp only [SortedMap.get?_insert]
  split <;> rfl

variable (debug digestHex) in
/-- The stores that appending arbitrary records to an empty store leads to. -/
inductive Reachable : InMemoryJournalStore Mode → Prop
  | empty : Reachable ⟨∅⟩
  | append : Reachable s →
      Reachable (InMemoryJournalStore.append debug digestHex runId record s).2

variable (debug digestHex) in
/-- An append leaves the records of its run or adds the record behind them. -/
theorem append_cases (store : InMemoryJournalStore Mode) (runId : Symbol)
    (record : AgentJournalRecord Mode) :
    ((append debug digestHex runId record store).2 = store.put runId (store.records runId)) ∨
    ((append debug digestHex runId record store).2 =
        store.put runId (store.records runId ++ [record]) ∧
      ∃ j, fromRecords debug digestHex record.graphFingerprint record.bindingFingerprint
          (store.records runId) = .ok j ∧
        (store.records runId)[record.sequence]? = none ∧
        (j.insert debug digestHex record).isOk) := by
  simp only [append]
  split
  · split
    · exact .inl rfl
    · exact .inl rfl
  · rename_i hlook
    split
    · exact .inl rfl
    · rename_i j hj
      split
      · exact .inl rfl
      · rename_i j' hj'
        exact .inr ⟨put_put _ _ _ _, j, hj, hlook, by rw [hj']; rfl⟩

/-- Records are stored in their order. -/
theorem Reachable.ordered {store : InMemoryJournalStore Mode}
    (h : store.Reachable debug digestHex) (runId : Symbol) : Ordered (store.records runId) := by
  induction h generalizing runId with
  | empty => nofun
  | @append store target record _ ih =>
    have hput : ∀ rs, Ordered rs → Ordered ((store.put target rs).records runId) := by
      intro rs hrs
      by_cases heq : runId = target
      · rw [heq, records_put_self]; exact hrs
      · rw [records_put_ne _ _ heq]; exact ih runId
    obtain heq | ⟨heq, j, hj, hlook, hok⟩ :=
      append_cases debug digestHex store target record
    · rw [heq]
      exact hput _ (ih target)
    · rw [heq]
      refine hput _ (Ordered.concat_iff.mpr ⟨ih target, ?_⟩)
      obtain ⟨j', hj'⟩ := Except.exists_of_isOk hok
      cases fromRecords_ordered (ih target) hj
      obtain ⟨hsome, -⟩ | ⟨hseq, -⟩ := insert_cases hj'
      · exact nomatch hlook.symm.trans hsome
      · exact hseq

/-- The next record of a stored chain is accepted. -/
theorem append_next {store : InMemoryJournalStore Mode} {j : AgentJournal Mode}
    (hj : j.Chained debug digestHex) (hs : store.records runId = j.records)
    (hseq : r.sequence = j.records.length) (hg : r.graphFingerprint = j.graphFingerprint)
    (hb : r.bindingFingerprint = j.bindingFingerprint)
    (hok : j.insert debug digestHex r = .ok j') :
    append debug digestHex runId r store = (.ok (), store.put runId (j.records ++ [r])) := by
  have hlook : j.records[r.sequence]? = none := by simp [hseq]
  have hchain := hj
  unfold Chained at hchain
  simp only [append, hs, hlook, hg, hb, hchain, hok, put_put]

end InMemoryJournalStore

/-! ## Suspended and resumed runs -/

/-- What a client does with a run: commit a step, or drop the run and resume it. -/
inductive Action (Mode : Type) where
  | commit (step : Step Mode)
  | resume (frame : AgentRunFrame Mode)

/-- A run and the handle it returned last. -/
structure Session (Mode σ : Type) where
  run : DurableAgentRun Mode σ
  handle : Option DurableRunHandle

variable (debug digestHex citizens) in
def Session.act (api : AgentJournalStore Mode σ) (g b : String) (s : Session Mode σ) :
    Action Mode → Except LifecycleError (Session Mode σ)
  | .commit step =>
    match commitStep debug digestHex citizens api step s.run with
    | (.ok handle, run) => .ok ⟨run, some handle⟩
    | (.error e, _) => .error e
  | .resume frame =>
    match s.handle with
    | none => .error .emptyJournal
    | some handle => do
      let run ← DurableAgentRun.resume debug digestHex api s.run.store handle g b frame
      return ⟨run, some handle⟩

/-- The steps that are committed. -/
def commits : List (Action Mode) → List (Step Mode)
  | [] => []
  | .commit step :: actions => step :: commits actions
  | .resume _ :: actions => commits actions

variable (citizens) in
/-- Actions on one run: every step and every frame has its run id, the steps have encodings, and a
step has been committed before the run is resumed. -/
structure ForRun (runId : Symbol) (actions : List (Action Mode)) : Prop where
  step : .commit st ∈ actions → st.frame.runId = runId ∧ st.Encodes citizens
  frame {f : AgentRunFrame Mode} : .resume f ∈ actions → f.runId = runId
  handle {f : AgentRunFrame Mode} : actions = before ++ Action.resume f :: after → commits before ≠ []

omit [DecidableEq Mode] in
theorem commits_append (as bs : List (Action Mode)) :
    commits (as ++ bs) = commits as ++ commits bs := by
  induction as with
  | nil => rfl
  | cons a as ih =>
    cases a with
    | commit step => exact congrArg (step :: ·) ih
    | resume frame => exact ih

omit [DecidableEq Mode] in
theorem commits_map_commit (steps : List (Step Mode)) :
    commits (steps.map .commit) = steps := by
  induction steps with
  | nil => rfl
  | cons s ss ih => exact congrArg (s :: ·) ih

omit [DecidableEq Mode] in
theorem ForRun.left {runId : Symbol} {as bs : List (Action Mode)}
    (h : ForRun citizens runId (as ++ bs)) : ForRun citizens runId as where
  step hst := h.step (List.mem_append_left _ hst)
  frame hf := h.frame (List.mem_append_left _ hf)
  handle {before after f} heq :=
    have happ : as ++ bs = before ++ .resume f :: (after ++ bs) := by
      rw [heq, List.append_assoc, List.cons_append]
    h.handle happ

omit [DecidableEq Mode] in
/-- The commits of a run are themselves actions on it. -/
theorem ForRun.commits {runId : Symbol} {actions : List (Action Mode)}
    (h : ForRun citizens runId actions) :
    ForRun citizens runId ((commits actions).map .commit) where
  step {st} hst := by
    obtain ⟨st', hmem, heq⟩ := List.mem_map.mp hst
    cases heq
    apply h.step
    clear h hst
    induction actions with
    | nil => cases hmem
    | cons a as ih =>
      cases a with
      | commit s =>
        obtain rfl | hmem := List.mem_cons.mp hmem
        · exact List.mem_cons_self
        · exact List.mem_cons_of_mem _ (ih hmem)
      | resume f => exact List.mem_cons_of_mem _ (ih hmem)
  frame hf := by
    obtain ⟨_, _, heq⟩ := List.mem_map.mp hf
    cases heq
  handle {before after f} heq := by
    have hmem : Action.resume f ∈ (AgentConductCore.commits actions).map Action.commit := by
      rw [heq]
      simp
    obtain ⟨_, _, heq⟩ := List.mem_map.mp hmem
    cases heq

section
variable {g b : String} {runId : Symbol} {store : InMemoryJournalStore Mode}

variable (debug digestHex citizens) in
/-- The session after some steps: the chain in memory, the chain in the store and the handle are
those of the steps. -/
structure Synced (g b : String) (runId : Symbol) (store : InMemoryJournalStore Mode)
    (ss : List (Step Mode)) (j : AgentJournal Mode)
    (s : Session Mode (InMemoryJournalStore Mode)) : Prop where
  steps : ss.foldlM (appendStep debug digestHex citizens) (.new g b) = .ok j
  length : j.records.length = ss.length
  graph : j.graphFingerprint = g
  binding : j.bindingFingerprint = b
  chained : j.Chained debug digestHex
  journal : s.run.journal = j
  frame : s.run.frame.runId = runId
  stored : s.run.store = if j.records = [] then store else store.put runId j.records
  handle : s.handle = j.records.getLast?.map (handleOf runId)

theorem Synced.records (hfresh : store.records runId = [])
    (h : Synced debug digestHex citizens g b runId store ss j s) :
    s.run.store.records runId = j.records := by
  rw [h.stored]
  split
  · rename_i hnil
    rw [hnil, hfresh]
  · exact InMemoryJournalStore.records_put_self ..

theorem Synced.put (h : Synced debug digestHex citizens g b runId store ss j s)
    (rs : List (AgentJournalRecord Mode)) : s.run.store.put runId rs = store.put runId rs := by
  rw [h.stored]
  split
  · rfl
  · exact InMemoryJournalStore.put_put ..

/-- A step that has an encoding is committed. -/
theorem Synced.commit (hfresh : store.records runId = [])
    (h : Synced debug digestHex citizens g b runId store ss j s)
    (hid : step.frame.runId = runId) (hok : step.Encodes citizens) :
    ∃ j' s', s.act debug digestHex citizens (InMemoryJournalStore.api debug digestHex) g b
      (.commit step) = .ok s' ∧
        Synced debug digestHex citizens g b runId store (ss ++ [step]) j' s' := by
  obtain ⟨j', hj'⟩ := appendStep_of_encodes debug digestHex j hok
  obtain ⟨r, rfl, hseq, hg, hb, hins⟩ := appendStep_ok hj'
  have happ := InMemoryJournalStore.append_next h.chained (h.records hfresh) hseq hg hb hins
  refine ⟨{ j with records := j.records ++ [r] }, ⟨⟨s.run.store.put runId (j.records ++ [r]), { j with records := j.records ++ [r] },
    step.frame, step.continuation⟩, some (handleOf runId r)⟩, ?_, ?_⟩
  · have hcommit : commitStep debug digestHex citizens (InMemoryJournalStore.api debug digestHex)
        step s.run = (.ok (handleOf runId r), ⟨s.run.store.put runId (j.records ++ [r]),
          { j with records := j.records ++ [r] }, step.frame, step.continuation⟩) := by
      rw [commitStep_of_append _ (hid.trans h.frame.symm) (h.journal ▸ hj') (r := r) (by simp), hid]
      simp only [InMemoryJournalStore.api, happ, h.journal]
    simp only [Session.act, hcommit]
  · exact
      { steps := Run.foldlM_concat_eq_ok_iff.mpr ⟨j, h.steps, hj'⟩
        length := by simp [h.length]
        graph := h.graph
        binding := h.binding
        chained := h.chained.next hg hb hins
        journal := rfl
        frame := hid
        stored := by simpa using h.put _
        handle := by simp }

/-- Resuming from the handle returned last gives the session back. -/
theorem Synced.resume (hfresh : store.records runId = [])
    (h : Synced debug digestHex citizens g b runId store ss j s) (hne : j.records ≠ [])
    {f : AgentRunFrame Mode} (hid : f.runId = runId) :
    ∃ s', s.act debug digestHex citizens (InMemoryJournalStore.api debug digestHex) g b
      (.resume f) = .ok s' ∧
        Synced debug digestHex citizens g b runId store ss j s' := by
  obtain ⟨last, hlast⟩ := Option.ne_none_iff_exists'.mp fun hnone =>
    hne (List.getLast?_eq_none_iff.mp hnone)
  have hhandle : s.handle = some (handleOf runId last) := by rw [h.handle, hlast]; rfl
  have hchain := h.chained
  unfold Chained at hchain
  rw [h.graph, h.binding] at hchain
  obtain ⟨hg, hb⟩ := (fromRecords_fingerprints hchain).2 last (List.mem_of_getLast? hlast)
  refine ⟨⟨⟨s.run.store, j, f, last.continuation⟩, some (handleOf runId last)⟩, ?_, ?_⟩
  · simp only [Session.act, hhandle, DurableAgentRun.resume, InMemoryJournalStore.api, handleOf,
      hg, hb, ne_eq, not_true_eq_false, if_false, h.records hfresh, Except.ok_bind, hchain,
      Except.mapError, hlast, hid, or_self]
    rfl
  · exact { h with journal := rfl, frame := hid, handle := by rw [hlast]; rfl }

/-- Every admissible action succeeds, and the session is that of the steps committed so far. -/
theorem Synced.run (hfresh : store.records runId = [])
    (h : Synced debug digestHex citizens g b runId store [] (.new g b) s)
    (hactions : ForRun citizens runId actions) :
    ∃ j s', actions.foldlM (Session.act debug digestHex citizens
      (InMemoryJournalStore.api debug digestHex) g b) s = .ok s' ∧
        Synced debug digestHex citizens g b runId store (commits actions) j s' := by
  induction actions using List.reverseRecOn with
  | nil => exact ⟨.new g b, s, rfl, h⟩
  | append_singleton actions a ih =>
    obtain ⟨j, s', hrun, hs'⟩ := ih hactions.left
    cases a with
    | commit step =>
      obtain ⟨hid, hok⟩ := hactions.step (List.mem_append_right _ List.mem_cons_self)
      obtain ⟨j', s'', hact, hs''⟩ := hs'.commit hfresh hid hok
      refine ⟨j', s'', Run.foldlM_concat_eq_ok_iff.mpr ⟨s', hrun, hact⟩, ?_⟩
      rwa [commits_append]
    | resume f =>
      have hid := hactions.frame (List.mem_append_right _ List.mem_cons_self)
      have hne : j.records ≠ [] := by
        have hcommits : commits actions ≠ [] := hactions.handle rfl
        have hlen := hs'.length
        intro hnil
        rw [hnil] at hlen
        exact hcommits (List.length_eq_zero_iff.mp hlen.symm)
      obtain ⟨s'', hact, hs''⟩ := hs'.resume hfresh hne hid
      refine ⟨j, s'', Run.foldlM_concat_eq_ok_iff.mpr ⟨s', hrun, hact⟩, ?_⟩
      rw [commits_append]
      simpa [commits] using hs''

theorem resume_names_last (hstore : store.Reachable debug digestHex)
    (h : DurableAgentRun.resume debug digestHex (InMemoryJournalStore.api debug digestHex) store
      handle g b frame = .ok run) :
    ∃ last, (store.records handle.runId).getLast? = some last ∧
      handle = handleOf handle.runId last := by
  simp only [DurableAgentRun.resume, Except.guard_eq_ok_iff, not_not, Except.bind_eq_ok_iff,
    Except.mapError_eq_ok_iff, InMemoryJournalStore.api, Except.ok.injEq] at h
  obtain ⟨rfl, rfl, records, rfl, journal, hj, h⟩ := h
  cases fromRecords_ordered (hstore.ordered _) hj
  split at h
  · cases h
  · rename_i last hlast
    rw [Except.guard_eq_ok_iff, not_or, not_not, not_not] at h
    obtain ⟨⟨hseq, hhash⟩, -⟩ := h
    refine ⟨last, hlast, ?_⟩
    obtain ⟨hg, hb⟩ := (fromRecords_fingerprints hj).2 last (List.mem_of_getLast? hlast)
    obtain ⟨_, _, _, _, _⟩ := handle
    simp only at hseq hhash hg hb
    simp [handleOf, hseq, hhash, hg, hb]

end

/-- Suspending and resuming is invisible: a run that is dropped and resumed from the handle it
returned last, wherever and however often, leaves the store and the handle that committing its
steps without interruption leaves. A resume succeeds only from the handle that names the last
record of the run. -/
theorem resumed_run_same (store : InMemoryJournalStore Mode) (g b : String)
    (frame : AgentRunFrame Mode) (hfresh : store.records frame.runId = []) (actions : List (Action Mode))
    (hactions : ForRun citizens frame.runId actions) :
    (∃ run s t,
      DurableAgentRun.start (InMemoryJournalStore.api debug digestHex) store frame g b = .ok run ∧
      actions.foldlM (Session.act debug digestHex citizens
        (InMemoryJournalStore.api debug digestHex) g b) ⟨run, none⟩ = .ok s ∧
      ((commits actions).map .commit).foldlM (Session.act debug digestHex citizens
        (InMemoryJournalStore.api debug digestHex) g b) ⟨run, none⟩ = .ok t ∧
      s.run.store = t.run.store ∧ s.handle = t.handle) ∧
    ∀ (store : InMemoryJournalStore Mode) handle g b frame run,
      store.Reachable debug digestHex →
      DurableAgentRun.resume debug digestHex (InMemoryJournalStore.api debug digestHex) store
        handle g b frame = .ok run →
        ∃ last, (store.records handle.runId).getLast? = some last ∧
          handle = handleOf handle.runId last := by
  refine ⟨?_, fun _ _ _ _ _ _ hs h => resume_names_last hs h⟩
  let run : DurableAgentRun Mode (InMemoryJournalStore Mode) := ⟨store, .new g b, frame, .nil⟩
  have hstart : DurableAgentRun.start (InMemoryJournalStore.api debug digestHex) store frame g b =
      .ok run := by
    simp only [DurableAgentRun.start, InMemoryJournalStore.api, hfresh]
    rfl
  have hinit : Synced debug digestHex citizens g b frame.runId store [] (.new g b)
      ⟨run, none⟩ :=
    { steps := rfl, length := rfl, graph := rfl, binding := rfl, chained := chained_new g b
      journal := rfl, frame := rfl, stored := rfl, handle := rfl }
  obtain ⟨j, s, hs, hsync⟩ := hinit.run hfresh hactions
  obtain ⟨j', t, ht, htsync⟩ := hinit.run hfresh hactions.commits
  rw [commits_map_commit] at htsync
  cases hsync.steps.symm.trans htsync.steps
  exact ⟨run, s, t, hstart, hs, ht, hsync.stored.trans htsync.stored.symm,
    hsync.handle.trans htsync.handle.symm⟩

namespace Sample

def encodings : Citizens Unit where
  event e := .ok (.list [.symbol e.kind, e.redacted])
  frame f := .ok (.list [.symbol f.runId, f.working])
  usage u := .ok (.list (u.quantities.map fun q => .symbol q.unit))

def digest (bytes : List UInt8) : String :=
  Text.hex (BigEndian.bytes 32 (bytes.foldl (fun h b => 257 * h + b.toNat + 1) 7))

def frame (working : String) : AgentRunFrame Unit where
  runId := .qualified "test-run" "equal"
  input := .nil
  working := .string working
  outcome := .new "continue"
  state := ⟨[]⟩
  usage := ⟨[]⟩
  journal := ⟨0, none⟩

def step (working : String) : Step Unit where
  frame := frame working
  event := ⟨.qualified "agent-event" "step-completed", .string working⟩
  effectReceipts := []
  continuation := .string working

def actions : List (Action Unit) :=
  [.commit (step "one"), .resume (frame "resumed"), .commit (step "two"), .resume (frame "again")]

theorem actions_forRun : ForRun encodings (frame "initial").runId actions where
  step {st} h := by
    have hst : ∀ a ∈ actions, ∀ st, a = .commit st →
        st.frame.runId = (frame "initial").runId ∧ st.Encodes encodings := by
      simp [actions, Step.Encodes, encodings, step, frame, Except.isOk, Except.toBool]
    exact hst _ h st rfl
  frame {f} h := by
    have hf : ∀ a ∈ actions, ∀ f, a = .resume f → f.runId = (frame "initial").runId := by
      simp [actions, frame]
    exact hf _ h f rfl
  handle {before after f} h := by
    cases before with
    | nil => cases h
    | cons a rest =>
      rw [← (List.cons.inj h).1]
      nofun

end Sample

/-- Two steps with a resume after each of them. -/
theorem resumed_run_same_two_steps :
    ∃ run s t,
      DurableAgentRun.start (InMemoryJournalStore.api (fun _ => "Quote") Sample.digest) ⟨∅⟩
        (Sample.frame "initial") "graph" "bindings" = .ok run ∧
      Sample.actions.foldlM (Session.act (fun _ => "Quote") Sample.digest Sample.encodings
        (InMemoryJournalStore.api (fun _ => "Quote") Sample.digest) "graph" "bindings")
        ⟨run, none⟩ = .ok s ∧
      ((commits Sample.actions).map .commit).foldlM (Session.act (fun _ => "Quote")
        Sample.digest Sample.encodings
        (InMemoryJournalStore.api (fun _ => "Quote") Sample.digest) "graph" "bindings")
        ⟨run, none⟩ = .ok t ∧
      s.run.store = t.run.store ∧ s.handle = t.handle :=
  (resumed_run_same ⟨∅⟩ "graph" "bindings" (Sample.frame "initial") rfl Sample.actions
    Sample.actions_forRun).1

/-! ## Loading and verifying -/

section Verify

variable (debug digestHex) in
/-- The records go on from a chain by their sequence numbers, prior hashes and own hashes, or
repeat a record of it. Fingerprints do not matter. -/
inductive Linked : List (AgentJournalRecord Mode) → List (AgentJournalRecord Mode) → Prop
  | nil : Linked chain []
  | again : chain[r.sequence]? = some r → Linked chain rs → Linked chain (r :: rs)
  | next : r.sequence = chain.length → r.priorHash = chain.getLast?.map (·.hash) →
      r.hash = recordHash debug digestHex r → Linked (chain ++ [r]) rs → Linked chain (r :: rs)

variable {chain rs : List (AgentJournalRecord Mode)} {g b : String}

/-- The record carries the fingerprints. -/
def Carries (g b : String) (r : AgentJournalRecord Mode) : Prop :=
  r.graphFingerprint = g ∧ r.bindingFingerprint = b

theorem insert_again {j : AgentJournal Mode} (h : j.records[r.sequence]? = some r) :
    j.insert debug digestHex r = .ok j := by
  simp [AgentJournal.insert, h]

/-- `insert` accepts the linked records, whatever fingerprints they carry. -/
theorem foldlM_insert_isOk_iff :
    (∃ j, rs.foldlM (AgentJournal.insert debug digestHex) ⟨g, b, chain⟩ = .ok j) ↔
      Linked debug digestHex chain rs := by
  constructor
  · intro ⟨j, h⟩
    induction rs generalizing chain with
    | nil => exact .nil
    | cons r rs ih =>
      obtain ⟨u, hu, h⟩ := Run.foldlM_cons_eq_ok_iff.mp h
      obtain ⟨hlook, rfl⟩ | ⟨hseq, hprior, hhash, rfl⟩ := insert_cases hu
      · exact .again hlook (ih h)
      · exact .next hseq hprior hhash (ih h)
  · intro h
    induction h with
    | nil => exact ⟨_, rfl⟩
    | again hlook _ ih =>
      obtain ⟨j, hj⟩ := ih
      exact ⟨j, Run.foldlM_cons_eq_ok_iff.mpr ⟨_, insert_again hlook, hj⟩⟩
    | next hseq hprior hhash _ ih =>
      obtain ⟨j, hj⟩ := ih
      exact ⟨j, Run.foldlM_cons_eq_ok_iff.mpr ⟨_, insert_next hseq hprior hhash, hj⟩⟩

theorem verify_eq_ok_iff :
    AgentJournal.verify debug digestHex ⟨g, b, rs⟩ = .ok () ↔ Linked debug digestHex [] rs := by
  rw [← foldlM_insert_isOk_iff (g := g) (b := b)]
  unfold AgentJournal.verify
  rw [Except.bind_eq_ok_iff]
  exact ⟨fun ⟨j, hj, _⟩ => ⟨j, hj⟩, fun ⟨j, hj⟩ => ⟨j, hj, rfl⟩⟩

/-- Behind the check of the fingerprints, loading inserts as verifying does. -/
theorem foldlM_own (hown : ∀ r ∈ rs, Carries g b r) :
    rs.foldlM (fun (journal : AgentJournal Mode) record =>
      if record.graphFingerprint ≠ journal.graphFingerprint ∨
          record.bindingFingerprint ≠ journal.bindingFingerprint then
        .error (.fingerprint record.sequence)
      else journal.insert debug digestHex record) ⟨g, b, chain⟩ =
    rs.foldlM (AgentJournal.insert debug digestHex) ⟨g, b, chain⟩ := by
  induction rs generalizing chain with
  | nil => rfl
  | cons r rs ih =>
    obtain ⟨hg, hb⟩ := hown r List.mem_cons_self
    have hrest : ∀ r ∈ rs, Carries g b r := fun r hr => hown r (List.mem_cons_of_mem _ hr)
    simp only [List.foldlM_cons, hg, hb, ne_eq, not_true_eq_false, or_self, if_false]
    cases hins : AgentJournal.insert debug digestHex ⟨g, b, chain⟩ r with
    | error e => rfl
    | ok j =>
      obtain ⟨-, rfl⟩ | ⟨-, -, -, rfl⟩ := insert_cases hins
      · exact ih hrest
      · exact ih hrest

theorem fromRecords_isOk_iff :
    (∃ j, AgentJournal.fromRecords debug digestHex g b rs = .ok j) ↔
      Linked debug digestHex [] rs ∧ ∀ r ∈ rs, Carries g b r := by
  constructor
  · intro ⟨j, h⟩
    have hown := (fromRecords_fingerprints h).2
    exact ⟨foldlM_insert_isOk_iff.mp ⟨j, (foldlM_own hown).symm.trans h⟩, hown⟩
  · intro ⟨h, hown⟩
    obtain ⟨j, hj⟩ := foldlM_insert_isOk_iff.mpr h
    exact ⟨j, (foldlM_own hown).trans hj⟩

/-- The two verifiers agree, and records of other fingerprints never verify, exactly where linked
records carry the journal's fingerprints. -/
theorem verify_iff_fromRecords_iff (g b : String) (rs : List (AgentJournalRecord Mode)) :
    ((AgentJournal.verify debug digestHex ⟨g, b, rs⟩ = .ok () ↔
        ∃ j, AgentJournal.fromRecords debug digestHex g b rs = .ok j) ∧
      ((∃ r ∈ rs, ¬Carries g b r) → AgentJournal.verify debug digestHex ⟨g, b, rs⟩ ≠ .ok ())) ↔
    (Linked debug digestHex [] rs → ∀ r ∈ rs, Carries g b r) := by
  rw [fromRecords_isOk_iff, ne_eq, verify_eq_ok_iff]
  constructor
  · rintro ⟨hagree, -⟩ hl
    exact (hagree.mp hl).2
  · intro h
    refine ⟨⟨fun hl => ⟨hl, h hl⟩, fun hl => hl.1⟩, ?_⟩
    rintro ⟨r, hr, hother⟩ hl
    exact hother (h hl r hr)

end Verify

namespace Sample

/-- A correctly hashed record made for another graph. -/
def foreign : AgentJournalRecord Unit :=
  let record : AgentJournalRecord Unit := {
    sequence := 0
    priorHash := none
    graphFingerprint := "other-graph"
    bindingFingerprint := "bindings"
    event := .nil
    frame := .nil
    usage := .nil
    effectReceipts := []
    continuation := .nil
    hash := "" }
  { record with hash := recordHash (fun _ => "Quote") digest record }

end Sample

/-- A new journal takes the record of another graph and verifies; loading refuses it. -/
theorem foreign_record_verifies :
    ∃ j, (AgentJournal.new "graph" "bindings").insert (fun _ => "Quote") Sample.digest
        Sample.foreign = .ok j ∧
      j.verify (fun _ => "Quote") Sample.digest = .ok () ∧
      AgentJournal.fromRecords (fun _ => "Quote") Sample.digest "graph" "bindings" j.records =
        .error (.fingerprint 0) := by
  refine ⟨⟨"graph", "bindings", [Sample.foreign]⟩, by decide +kernel, by decide +kernel,
    by decide +kernel⟩

end SimAgentNet.AgentConductCore
