import SimAgentNet.Data.StableSort
import SimAgentNet.RoadmapExecCore.History

/-! # Independent observations

While a phase is reconciled, an observation of evidence is accepted or refused for itself, and what
it adds is independent of what others add. Batches of such observations may come in any order. -/

namespace SimAgentNet.RoadmapExecCore
open RoadmapCore

/-- The event offers evidence: an image, a discharge, an unresolved proof or the acceptance of the
parent, without a proof cursor. -/
structure ExecutionEvent.Evidence (e : ExecutionEvent) : Prop where
  kind : e.kindText ∈
    ["image-observed", "promise-discharged", "proof-unresolved", "parent-accepted"]
  cursor : e.observation.proofCursor = none

/-- Both events discharge one promise. -/
def SamePromise (a b : ExecutionEvent) : Prop :=
  a.kindText = "promise-discharged" ∧ b.kindText = "promise-discharged" ∧
    ∃ d d', a.observation.discharge = some d ∧ b.observation.discharge = some d' ∧
      d.promise = d'.promise

/-- The events name different journal heads and do not discharge one promise. -/
def Independent (a b : ExecutionEvent) : Prop :=
  a.observation.journalHead ≠ b.observation.journalHead ∧ ¬SamePromise a b

/-- Both results are failures, or they are the same but for the journal head. -/
def Agree (x y : Except ExecutionFailure Transition) : Prop :=
  (∃ f f', x = .error f ∧ y = .error f') ∨
    ∃ t t', x = .ok t ∧ y = .ok t' ∧ t' = { t with journalHead := t'.journalHead }

/-! ## What an observation adds -/

/-- What an observation of evidence adds, if it is accepted. -/
def addEvidence (plan : MutationPlan) (e : ExecutionEvent) : Option (Transition → Transition) :=
  match e.kindText with
  | "image-observed" => e.observation.image.bind fun image =>
    match plan.classify image with
    | .postimage | .preAndPost => some fun t =>
      { t with committedPostimages := sortedUnique (t.committedPostimages ++ [image]) }
    | .preimage => some fun t => t
    | .foreign => none
  | "promise-discharged" => e.observation.discharge.map fun d t => discharge t d
  | "proof-unresolved" => e.observation.unresolved.map fun u t =>
    { t with unresolved := sortedUnique (t.unresolved ++ [u]) }
  | _ => some fun t => { t with parentAcceptanceRetained := true }

/-- The event is for the run and for no other mutation. -/
def Addressed (plan : MutationPlan) (execution : ExecutionId) (phase : PhaseId)
    (attempt : AttemptId) (e : ExecutionEvent) : Prop :=
  e.execution = execution ∧ e.phase = phase ∧ e.attempt = attempt ∧
    e.observation.mutation.any (· ≠ plan.id) = false

instance : Decidable (Addressed plan execution phase attempt e) := by
  unfold Addressed
  infer_instance

/-- Adds one observation to what was gathered. -/
def gather (plan : MutationPlan) (execution : ExecutionId) (phase : PhaseId) (attempt : AttemptId)
    (gathered : Option Transition) (e : ExecutionEvent) : Option Transition :=
  gathered.bind fun t =>
    if Addressed plan execution phase attempt e then (addEvidence plan e).map (· t) else none

/-- The additions of the reducer. -/
inductive Adds (plan : MutationPlan) (e : ExecutionEvent) : (Transition → Transition) → Prop
  | image : e.kindText = "image-observed" → e.observation.image = some image →
    Adds plan e fun t =>
      { t with committedPostimages := sortedUnique (t.committedPostimages ++ [image]) }
  | preimage : e.kindText = "image-observed" → Adds plan e fun t => t
  | discharge : e.kindText = "promise-discharged" → e.observation.discharge = some d →
    Adds plan e fun t => discharge t d
  | unresolved : e.kindText = "proof-unresolved" → e.observation.unresolved = some u →
    Adds plan e fun t => { t with unresolved := sortedUnique (t.unresolved ++ [u]) }
  | parent : Adds plan e fun t => { t with parentAcceptanceRetained := true }

variable {policy : ExecutionPolicy} {plan : MutationPlan} {execution : ExecutionId}
  {phase : PhaseId} {attempt : AttemptId} {t : Transition} {e : ExecutionEvent}

theorem adds_of_addEvidence (h : addEvidence plan e = some f) : Adds plan e f := by
  unfold addEvidence at h
  split at h
  · rename_i hk
    obtain ⟨image, himage, h⟩ := Option.bind_eq_some_iff.mp h
    split at h
    · cases h; exact .image hk himage
    · cases h; exact .image hk himage
    · cases h; exact .preimage hk
    · cases h
  · rename_i hk
    obtain ⟨d, hd, rfl⟩ := Option.map_eq_some_iff.mp h
    exact .discharge hk hd
  · rename_i hk
    obtain ⟨u, hu, rfl⟩ := Option.map_eq_some_iff.mp h
    exact .unresolved hk hu
  · cases h
    exact .parent

theorem Adds.state (h : Adds plan e f) (t : Transition) : (f t).state = t.state := by
  cases h <;> rfl

theorem Adds.advance (h : Adds plan e f) (t : Transition) (e' : ExecutionEvent) :
    f (t.advance e') = (f t).advance e' := by
  cases h <;> rfl

theorem sortedUnique_comm [LinearOrder α] (l : List α) (a b : α) :
    sortedUnique (sortedUnique (l ++ [a]) ++ [b]) =
      sortedUnique (sortedUnique (l ++ [b]) ++ [a]) := by
  refine congrArg SortedSet.elems (SortedSet.ext fun c => ?_)
  simp only [SortedSet.mem_ofList, List.mem_append, mem_sortedUnique, List.mem_singleton]
  tauto

theorem discharge_eq (t : Transition) (d : PromiseDischarge) :
    discharge t d =
      { t with discharges := StableSort.replace PromiseDischarge.promise t.discharges d } := by
  unfold discharge StableSort.replace StableSort.sortBy
  congr!

/-- Discharges of different promises may be exchanged. -/
theorem discharge_comm (t : Transition) {d d' : PromiseDischarge} (h : d.promise ≠ d'.promise) :
    discharge (discharge t d) d' = discharge (discharge t d') d := by
  rw [discharge_eq, discharge_eq, discharge_eq, discharge_eq]
  exact congrArg (fun l => { t with discharges := l }) (StableSort.replace_comm t.discharges h)

/-- Additions of independent events may be exchanged. -/
theorem Adds.comm (h : Adds plan a f) (h' : Adds plan b g) (hab : ¬SamePromise a b)
    (t : Transition) : g (f t) = f (g t) := by
  cases h with
  | image =>
    cases h' with
    | image =>
      exact congrArg (fun l => { t with committedPostimages := l }) (sortedUnique_comm _ _ _)
    | preimage | discharge | unresolved | parent => rfl
  | discharge hk hd =>
    cases h' with
    | discharge hk' hd' =>
      exact discharge_comm t fun hp => hab ⟨hk, hk', _, _, hd, hd', hp⟩
    | image | preimage | unresolved | parent => rfl
  | unresolved =>
    cases h' with
    | unresolved => exact congrArg (fun l => { t with unresolved := l }) (sortedUnique_comm _ _ _)
    | image | preimage | discharge | parent => rfl
  | preimage | parent => cases h' <;> rfl

/-! ## Runs of evidence -/

theorem correlate_eq_ok_iff (hcursor : e.observation.proofCursor = none)
    (hhead : e.observation.journalHead ≠ t.journalHead) {u : Unit} :
    correlate plan execution phase attempt t e = .ok u ↔
      Addressed plan execution phase attempt e := by
  simp only [correlate, Except.guard_eq_ok_iff, Addressed, hcursor, hhead, Option.any_none,
    Bool.false_eq_true, not_false_eq_true, not_not, Bool.not_eq_true, true_and, and_true]

/-- While reconciling, an observation of evidence is accepted for itself. -/
theorem reduce_evidence (hs : t.state = .reconciling) (he : e.Evidence)
    (hhead : e.observation.journalHead ≠ t.journalHead) :
    (reduce policy plan execution phase attempt t e).toOption =
      (gather plan execution phase attempt (some t) e).map (·.advance e) := by
  unfold gather
  rw [Option.bind_some]
  by_cases ha : Addressed plan execution phase attempt e
  · rw [if_pos ha, reduce, (correlate_eq_ok_iff (u := ()) he.cursor hhead).mpr ha, Except.ok_bind,
      hs]
    have hk := he.kind
    simp only [List.mem_cons, List.not_mem_nil, or_false] at hk
    rcases hk with hk | hk | hk | hk
    · simp only [addEvidence, hk, show e.observation.kind.display = _ from hk]
      cases e.observation.image with
      | none => rfl
      | some image =>
        simp only [observeImage, Option.bind_some]
        cases plan.classify image <;> rfl
    · simp only [addEvidence, hk, show e.observation.kind.display = _ from hk]
      cases e.observation.discharge <;> rfl
    · simp only [addEvidence, hk, show e.observation.kind.display = _ from hk]
      cases e.observation.unresolved <;> rfl
    · simp only [addEvidence, hk, show e.observation.kind.display = _ from hk]
      rfl
  · rw [if_neg ha]
    cases hc : correlate plan execution phase attempt t e with
    | ok => exact absurd ((correlate_eq_ok_iff he.cursor hhead).mp hc) ha
    | error f =>
      rw [reduce, hc]
      rfl

/-- An observation is refused in every state or adds the same in every state. -/
theorem gather_cases (plan : MutationPlan) (execution : ExecutionId) (phase : PhaseId)
    (attempt : AttemptId) (e : ExecutionEvent) :
    (∀ t, gather plan execution phase attempt (some t) e = none) ∨
      ∃ f, Adds plan e f ∧ ∀ t, gather plan execution phase attempt (some t) e = some (f t) := by
  unfold gather
  simp only [Option.bind_some]
  by_cases ha : Addressed plan execution phase attempt e
  · simp only [if_pos ha]
    cases hadd : addEvidence plan e with
    | none => exact .inl fun _ => rfl
    | some f => exact .inr ⟨f, adds_of_addEvidence hadd, fun _ => rfl⟩
  · exact .inl fun _ => if_neg ha

theorem gather_none (es : List ExecutionEvent) :
    es.foldl (gather plan execution phase attempt) none = none := by
  induction es with
  | nil => rfl
  | cons e es ih => exact ih

/-- What is gathered does not depend on the head that the gathering starts from. -/
theorem gather_advance (es : List ExecutionEvent) (t : Transition) (e : ExecutionEvent) :
    es.foldl (gather plan execution phase attempt) (some (t.advance e)) =
      (es.foldl (gather plan execution phase attempt) (some t)).map (·.advance e) := by
  induction es generalizing t with
  | nil => rfl
  | cons e' es ih =>
    rw [List.foldl_cons, List.foldl_cons]
    rcases gather_cases plan execution phase attempt e' with hnone | ⟨f, hadds, hf⟩
    · rw [hnone, hnone, gather_none, Option.map_none]
    · rw [hf, hf, hadds.advance]
      exact ih (f t)

/-- A run of evidence gathers what its events add, and ends at the head of the last one. -/
theorem replay_evidence {es : List ExecutionEvent} (hs : t.state = .reconciling)
    (he : ∀ e ∈ es, e.Evidence) (hhead : ∀ e ∈ es, e.observation.journalHead ≠ t.journalHead)
    (hdistinct : es.Pairwise fun a b => a.observation.journalHead ≠ b.observation.journalHead) :
    (replay policy plan execution phase attempt t es).toOption =
      (es.foldl (gather plan execution phase attempt) (some t)).map fun t' =>
        (es.getLast?.map t'.advance).getD t' := by
  induction es generalizing t with
  | nil => rfl
  | cons e es ih =>
    obtain ⟨hrest, hdistinct⟩ := List.pairwise_cons.mp hdistinct
    have hstep := @reduce_evidence policy plan execution phase attempt t e hs
      (he e List.mem_cons_self) (hhead e List.mem_cons_self)
    rw [replay, List.foldlM_cons, List.foldl_cons]
    rcases gather_cases plan execution phase attempt e with hnone | ⟨f, hadds, hf⟩
    · rw [hnone] at hstep
      cases hreduce : reduce policy plan execution phase attempt t e with
      | ok t' =>
        rw [hreduce] at hstep
        cases hstep
      | error f =>
        rw [hnone, gather_none]
        rfl
    · rw [hf] at hstep
      cases hreduce : reduce policy plan execution phase attempt t e with
      | error f =>
        rw [hreduce] at hstep
        cases hstep
      | ok t' =>
        rw [hreduce] at hstep
        cases hstep
        have hrun := @ih ((f t).advance e) ((hadds.state t).trans hs)
          (fun e' he' => he e' (List.mem_cons_of_mem _ he'))
          (fun e' he' => (hrest e' he').symm) hdistinct
        rw [gather_advance] at hrun
        rw [hf, Except.ok_bind]
        refine hrun.trans ?_
        cases es.foldl (gather plan execution phase attempt) (some (f t)) with
        | none => rfl
        | some u =>
          cases hlast : es.getLast? with
          | none =>
            cases List.getLast?_eq_none_iff.mp hlast
            rfl
          | some last =>
            rw [List.getLast?_cons, hlast]
            rfl

theorem gather_comm {a b : ExecutionEvent} (h : a = b ∨ ¬SamePromise a b) (gathered : Option Transition) :
    gather plan execution phase attempt (gather plan execution phase attempt gathered a) b =
      gather plan execution phase attempt (gather plan execution phase attempt gathered b) a := by
  rcases h with rfl | h
  · rfl
  cases gathered with
  | none => rfl
  | some t =>
    rcases gather_cases plan execution phase attempt a with ha | ⟨f, hadds, hf⟩
    · rcases gather_cases plan execution phase attempt b with hb | ⟨g, -, hg⟩
      · rw [ha, hb]
        rfl
      · rw [ha, hg, ha]
        rfl
    · rcases gather_cases plan execution phase attempt b with hb | ⟨g, hadds', hg⟩
      · rw [hf, hb, hb]
        rfl
      · rw [hf, hg, hg, hf, hadds.comm hadds' h]

theorem Independent.symm (h : Independent a b) : Independent b a := by
  refine ⟨h.1.symm, fun hpromise => h.2 ?_⟩
  obtain ⟨hb, ha, d, d', hd, hd', hp⟩ := hpromise
  exact ⟨ha, hb, d', d, hd', hd, hp.symm⟩

/-- Runs that gather the same and end at the head of some event agree. -/
theorem agree_of_gathered {x y : Except ExecutionFailure Transition} {gathered : Option Transition}
    {last last' : ExecutionEvent} (hx : x.toOption = gathered.map (·.advance last))
    (hy : y.toOption = gathered.map (·.advance last')) : Agree x y := by
  cases gathered with
  | none =>
    cases x with
    | ok t => cases hx
    | error f =>
      cases y with
      | ok t => cases hy
      | error f' => exact .inl ⟨f, f', rfl, rfl⟩
  | some u =>
    cases x with
    | error f => cases hx
    | ok t =>
      cases y with
      | error f => cases hy
      | ok t' =>
        cases hx
        cases hy
        exact .inr ⟨_, _, rfl, rfl, rfl⟩

/-- Batches of independent evidence may come in any order. -/
theorem replay_perm {es es' : List ExecutionEvent} (hs : t.state = .reconciling)
    (hperm : es.Perm es')
    (he : ∀ e ∈ es, e.Evidence ∧ e.observation.journalHead ≠ t.journalHead)
    (hindep : es.Pairwise Independent) :
    Agree (replay policy plan execution phase attempt t es)
      (replay policy plan execution phase attempt t es') := by
  have hcomm : ∀ a ∈ es, ∀ b ∈ es, a = b ∨ ¬SamePromise a b := by
    have : Std.Symm Independent := ⟨fun _ _ => Independent.symm⟩
    intro a ha b hb
    by_cases hab : a = b
    · exact .inl hab
    · exact .inr (hindep.forall ha hb hab).2
  have hfold := hperm.foldl_eq' (f := gather plan execution phase attempt)
    (fun a ha b hb gathered => gather_comm (hcomm a ha b hb) gathered) (some t)
  have hrun := @replay_evidence policy plan execution phase attempt t es hs (fun e h => (he e h).1)
    (fun e h => (he e h).2) (hindep.imp And.left)
  have hrun' := @replay_evidence policy plan execution phase attempt t es' hs
    (fun e h => (he e (hperm.mem_iff.mpr h)).1) (fun e h => (he e (hperm.mem_iff.mpr h)).2)
    ((hperm.pairwise hindep Independent.symm).imp And.left)
  rw [← hfold] at hrun'
  cases hlast : es.getLast? with
  | none =>
    cases List.getLast?_eq_none_iff.mp hlast
    cases hperm.symm.eq_nil
    exact .inr ⟨t, t, rfl, rfl, rfl⟩
  | some last =>
    cases hlast' : es'.getLast? with
    | none =>
      cases List.getLast?_eq_none_iff.mp hlast'
      cases hperm.eq_nil
      cases hlast
    | some last' =>
      simp only [hlast, hlast', Option.map_some, Option.getD_some] at hrun hrun'
      exact agree_of_gathered hrun hrun'

/-- Two independent observations of evidence may come in either order, and so may a batch of them in
any order. -/
theorem evidence_order_irrelevant (hs : t.state = .reconciling) :
    (∀ a b : ExecutionEvent, a.Evidence → b.Evidence → Independent a b →
      a.observation.journalHead ≠ t.journalHead → b.observation.journalHead ≠ t.journalHead →
      Agree (replay policy plan execution phase attempt t [a, b])
        (replay policy plan execution phase attempt t [b, a])) ∧
    ∀ es es' : List ExecutionEvent, es.Perm es' →
      (∀ e ∈ es, e.Evidence ∧ e.observation.journalHead ≠ t.journalHead) →
      es.Pairwise Independent →
      Agree (replay policy plan execution phase attempt t es)
        (replay policy plan execution phase attempt t es') := by
  refine ⟨fun a b ha hb hab hhead hhead' => ?_, fun es es' hperm => replay_perm hs hperm⟩
  refine replay_perm hs (.swap b a []) (fun e he => ?_) ?_
  · rcases List.mem_cons.mp he with rfl | he
    · exact ⟨ha, hhead⟩
    · cases List.mem_singleton.mp he
      exact ⟨hb, hhead'⟩
  · exact List.pairwise_pair.mpr hab

namespace Sample

def reconciling : Transition := { Transition.planned (cid 1) with state := .reconciling }

def observed : ExecutionEvent :=
  event { kind := .new "image-observed", journalHead := cid 21, image := some image }

def discharged : ExecutionEvent :=
  event { kind := .new "promise-discharged", journalHead := cid 24,
          discharge := some ⟨promise, .new "proven", some (cid 7)⟩ }

end Sample

open Sample in
theorem evidence_order_irrelevant_swap : observed.Evidence ∧ discharged.Evidence ∧
    Independent observed discharged ∧
    Agree
      (replay Sample.policy Sample.plan Sample.execution Sample.phase Sample.attempt reconciling
        [observed, discharged])
      (replay Sample.policy Sample.plan Sample.execution Sample.phase Sample.attempt reconciling
        [discharged, observed]) := by
  have hobserved : observed.Evidence := ⟨by decide, rfl⟩
  have hdischarged : discharged.Evidence := ⟨by decide, rfl⟩
  have hindep : Independent observed discharged :=
    ⟨by decide, fun h => absurd h.1 (by decide)⟩
  exact ⟨hobserved, hdischarged, hindep,
    (evidence_order_irrelevant rfl).1 _ _ hobserved hdischarged hindep (by decide) (by decide)⟩

end SimAgentNet.RoadmapExecCore
