import SimAgentNet.RoadmapExecCore.Reduce

/-! # Receipts and the event history

The five fields that the reducer accumulates, read back from the events of the run
(`Transition.Recorded`), and what a receipt says about that history (`ReceiptJustified`). -/

namespace SimAgentNet.RoadmapExecCore
open RoadmapCore

/-- The events of a kind, in order. -/
def ofKind (kind : String) (es : List ExecutionEvent) : List ExecutionEvent :=
  es.filter (·.kindText = kind)

/-- The discharge that an event offers for a promise. -/
def dischargeFor (p : PromiseId) (e : ExecutionEvent) : Option PromiseDischarge :=
  if e.kindText = "promise-discharged" then e.observation.discharge.filter (·.promise = p)
  else none

/-- The discharge carried by the last `promise-discharged` event for a promise. -/
def lastDischarge (es : List ExecutionEvent) (p : PromiseId) : Option PromiseDischarge :=
  (es.filterMap (dischargeFor p)).getLast?

/-- What a receipt of a run with the events `es`, ending in `t`, says about the run. -/
structure ReceiptJustified (policy : ExecutionPolicy) (plan : MutationPlan)
    (execution : ExecutionId) (phase : PhaseId) (es : List ExecutionEvent) (t : Transition) :
    Prop where
  postimages : t.committedPostimages = plan.postimages
  observed : ∀ i ∈ plan.postimages,
    ∃ e ∈ es, e.kindText = "image-observed" ∧ e.observation.image = some i
  deck : ∃ e, (ofKind "source-deck-current" es).getLast? = some e ∧
    e.observation.sourceDeck = some policy.sourceDeck
  promises : ∀ p ∈ policy.requiredPromises, ∃ d, lastDischarge es p = some d ∧
    d.status = Symbol.new "proven" ∧ ∃ evidence, d.evidence = some evidence
  parent : ∃ e ∈ es, e.kindText = "parent-accepted"
  proofs : ∀ e ∈ es, e.kindText = "proof-unresolved" →
    ∃ u, e.observation.unresolved = some u ∧ u.mandatory = false
  last : ∃ e, es.getLast? = some e ∧ e.kindText = "succeed" ∧
    t.journalHead = e.observation.journalHead
  discharges : ∀ d, d ∈ t.discharges ↔ lastDischarge es d.promise = some d
  receipt : t.receipt = some {
    execution, phase
    sourceDeck := policy.sourceDeck
    journalHead := t.journalHead
    committedPostimages := t.committedPostimages
    discharges := t.discharges
    parentAcceptanceRetained := true }

/-- The accumulated fields of a reducer state are determined by the events of its run. -/
structure Transition.Recorded (es : List ExecutionEvent) (t : Transition) : Prop where
  observed : ∀ i ∈ t.committedPostimages,
    ∃ e ∈ es, e.kindText = "image-observed" ∧ e.observation.image = some i
  deck : t.currentSourceDeck =
    (ofKind "source-deck-current" es).getLast?.bind (·.observation.sourceDeck)
  discharges : ∀ d, d ∈ t.discharges ↔ lastDischarge es d.promise = some d
  parent : t.parentAcceptanceRetained = true → ∃ e ∈ es, e.kindText = "parent-accepted"
  unresolved : ∀ e ∈ es, e.kindText = "proof-unresolved" →
    ∃ u ∈ t.unresolved, e.observation.unresolved = some u

/-! ## The history after one more event -/

section
variable {es : List ExecutionEvent} {e : ExecutionEvent}

theorem ofKind_concat_of_ne (h : e.kindText ≠ kind) :
    ofKind kind (es ++ [e]) = ofKind kind es := by
  simp [ofKind, h]

theorem getLast?_ofKind_concat (h : e.kindText = kind) :
    (ofKind kind (es ++ [e])).getLast? = some e := by
  simp [ofKind, h]

theorem lastDischarge_concat_of_none (h : dischargeFor p e = none) :
    lastDischarge (es ++ [e]) p = lastDischarge es p := by
  simp [lastDischarge, h]

theorem lastDischarge_concat_of_some (h : dischargeFor p e = some d) :
    lastDischarge (es ++ [e]) p = some d := by
  simp [lastDischarge, h]

theorem dischargeFor_of_kind_ne (h : e.kindText ≠ "promise-discharged") :
    dischargeFor p e = none := if_neg h

theorem dischargeFor_eq (hk : e.kindText = "promise-discharged")
    (hd : e.observation.discharge = some d) :
    dischargeFor p e = if d.promise = p then some d else none := by
  simp [dischargeFor, hk, hd, Option.filter]

/-- A discharge found for a promise names that promise. -/
theorem promise_of_lastDischarge (h : lastDischarge es p = some d) : d.promise = p := by
  have hm := List.mem_of_getLast? h
  obtain ⟨e, -, he⟩ := List.mem_filterMap.mp hm
  unfold dischargeFor at he
  split at he
  · simpa using (Option.filter_eq_some_iff.mp he).2
  · cases he

end

/-! ## One step -/

namespace Transition.Recorded
variable {es : List ExecutionEvent} {t t' : Transition} {e : ExecutionEvent}

theorem planned (h : ContentId) : (Transition.planned h).Recorded [] where
  observed i hi := by simp [Transition.planned] at hi
  deck := rfl
  discharges d := by simp [Transition.planned, lastDischarge]
  parent hp := by simp [Transition.planned] at hp
  unresolved e he := by simp at he

/-! What the earlier events record stays recorded. -/

theorem observed_concat (R : t.Recorded es) (h : i ∈ t.committedPostimages) :
    ∃ e' ∈ es ++ [e], e'.kindText = "image-observed" ∧ e'.observation.image = some i := by
  obtain ⟨e', he', h⟩ := R.observed i h
  exact ⟨e', List.mem_append_left _ he', h⟩

theorem parent_concat (R : t.Recorded es) (h : t.parentAcceptanceRetained = true) :
    ∃ e' ∈ es ++ [e], e'.kindText = "parent-accepted" := by
  obtain ⟨e', he', h⟩ := R.parent h
  exact ⟨e', List.mem_append_left _ he', h⟩

theorem deck_concat (R : t.Recorded es) (hne : e.kindText ≠ "source-deck-current") :
    t.currentSourceDeck =
      (ofKind "source-deck-current" (es ++ [e])).getLast?.bind (·.observation.sourceDeck) := by
  rw [ofKind_concat_of_ne hne]
  exact R.deck

theorem discharges_concat (R : t.Recorded es) (hne : e.kindText ≠ "promise-discharged")
    (d : PromiseDischarge) : d ∈ t.discharges ↔ lastDischarge (es ++ [e]) d.promise = some d := by
  rw [lastDischarge_concat_of_none (dischargeFor_of_kind_ne hne)]
  exact R.discharges d

theorem unresolved_concat (R : t.Recorded es) (hne : e.kindText ≠ "proof-unresolved")
    (he' : e' ∈ es ++ [e]) (hk : e'.kindText = "proof-unresolved") :
    ∃ u ∈ t.unresolved, e'.observation.unresolved = some u := by
  rcases List.mem_append.mp he' with he' | he'
  · exact R.unresolved e' he' hk
  · cases List.mem_singleton.mp he'; exact absurd hk hne

/-! The accumulating observations. -/

theorem moved (R : t.Recorded es) (h₁ : e.kindText ≠ "source-deck-current")
    (h₂ : e.kindText ≠ "promise-discharged") (h₃ : e.kindText ≠ "proof-unresolved") :
    (t.advance e).Recorded (es ++ [e]) where
  observed _ := R.observed_concat
  deck := R.deck_concat h₁
  discharges := R.discharges_concat h₂
  parent := R.parent_concat
  unresolved _ := R.unresolved_concat h₃

theorem imageObserved (R : t.Recorded es) (hk : e.kindText = "image-observed")
    (hi : e.observation.image = some image) :
    Transition.Recorded (es ++ [e])
      { t.advance e with
        committedPostimages := sortedUnique ((t.advance e).committedPostimages ++ [image]) } where
  observed i h := by
    rcases List.mem_append.mp (mem_sortedUnique.mp h) with h | h
    · exact R.observed_concat h
    · cases List.mem_singleton.mp h; exact ⟨e, by simp, hk, hi⟩
  deck := R.deck_concat (by rw [hk]; decide)
  discharges := R.discharges_concat (by rw [hk]; decide)
  parent := R.parent_concat
  unresolved _ := R.unresolved_concat (by rw [hk]; decide)

theorem discharge (R : t.Recorded es) (hk : e.kindText = "promise-discharged")
    (hd : e.observation.discharge = some d) :
    (RoadmapExecCore.discharge (t.advance e) d).Recorded (es ++ [e]) where
  observed _ := R.observed_concat
  deck := R.deck_concat (by rw [hk]; decide)
  discharges d' := by
    rw [mem_discharge]
    by_cases hp : d.promise = d'.promise
    · rw [lastDischarge_concat_of_some (d := d) (by rw [dischargeFor_eq hk hd, if_pos hp])]
      constructor
      · rintro (rfl | ⟨-, h⟩)
        · rfl
        · exact absurd hp.symm h
      · intro h; exact .inl (Option.some.inj h).symm
    · rw [lastDischarge_concat_of_none (by rw [dischargeFor_eq hk hd, if_neg hp]),
        ← R.discharges]
      constructor
      · rintro (rfl | ⟨h, -⟩)
        · exact absurd rfl hp
        · exact h
      · intro h; exact .inr ⟨h, Ne.symm hp⟩
  parent := R.parent_concat
  unresolved _ := R.unresolved_concat (by rw [hk]; decide)

theorem proofUnresolved (R : t.Recorded es) (hk : e.kindText = "proof-unresolved")
    (hu : e.observation.unresolved = some u) :
    Transition.Recorded (es ++ [e])
      { t.advance e with unresolved := sortedUnique ((t.advance e).unresolved ++ [u]) } where
  observed _ := R.observed_concat
  deck := R.deck_concat (by rw [hk]; decide)
  discharges := R.discharges_concat (by rw [hk]; decide)
  parent := R.parent_concat
  unresolved e' he' hk' := by
    rcases List.mem_append.mp he' with he' | he'
    · obtain ⟨u', hu', h⟩ := R.unresolved e' he' hk'
      exact ⟨u', mem_sortedUnique.mpr (List.mem_append_left _ hu'), h⟩
    · cases List.mem_singleton.mp he'
      exact ⟨u, by simp, hu⟩

theorem sourceDeck (R : t.Recorded es) (hk : e.kindText = "source-deck-current") :
    Transition.Recorded (es ++ [e])
      { t.advance e with currentSourceDeck := e.observation.sourceDeck } where
  observed _ := R.observed_concat
  deck := by rw [getLast?_ofKind_concat hk]; rfl
  discharges := R.discharges_concat (by rw [hk]; decide)
  parent := R.parent_concat
  unresolved _ := R.unresolved_concat (by rw [hk]; decide)

theorem parentAccepted (R : t.Recorded es) (hk : e.kindText = "parent-accepted") :
    Transition.Recorded (es ++ [e]) { t.advance e with parentAcceptanceRetained := true } where
  observed _ := R.observed_concat
  deck := R.deck_concat (by rw [hk]; decide)
  discharges := R.discharges_concat (by rw [hk]; decide)
  parent _ := ⟨e, by simp, hk⟩
  unresolved _ := R.unresolved_concat (by rw [hk]; decide)

/-- The recorded fields depend on nothing but the five fields themselves. -/
theorem congr (R : t.Recorded es) (h₁ : t'.committedPostimages = t.committedPostimages)
    (h₂ : t'.currentSourceDeck = t.currentSourceDeck) (h₃ : t'.discharges = t.discharges)
    (h₄ : t'.parentAcceptanceRetained = t.parentAcceptanceRetained)
    (h₅ : t'.unresolved = t.unresolved) : t'.Recorded es where
  observed := h₁ ▸ R.observed
  deck := h₂ ▸ R.deck
  discharges := h₃ ▸ R.discharges
  parent := h₄ ▸ R.parent
  unresolved := h₅ ▸ R.unresolved

theorem step (R : t.Recorded es) (h : Step policy plan execution phase t e t') :
    t'.Recorded (es ++ [e]) := by
  have hmoved : e.kindText ≠ "source-deck-current" → e.kindText ≠ "promise-discharged" →
      e.kindText ≠ "proof-unresolved" → (t.advance e).Recorded (es ++ [e]) := R.moved
  cases h with
  | start _ hk | committed _ hk | fail _ hk | cancel _ hk =>
    rw [hk] at hmoved
    exact (hmoved (by decide) (by decide) (by decide)).congr rfl rfl rfl rfl rfl
  | image _ hk hi ho =>
    rcases observeImage_cases ho with rfl | rfl
    · rw [hk] at hmoved
      exact hmoved (by decide) (by decide) (by decide)
    · exact R.imageObserved hk hi
  | discharge _ hk hd => exact R.discharge hk hd
  | unresolved _ hk hu => exact R.proofUnresolved hk hu
  | deck _ hk => exact R.sourceDeck hk
  | parent _ hk => exact R.parentAccepted hk
  | succeed _ hk hs =>
    obtain ⟨-, -, -, -, -, rfl⟩ := succeed_cases hs
    rw [hk] at hmoved
    exact (hmoved (by decide) (by decide) (by decide)).congr rfl rfl rfl rfl rfl

/-- Success at a recorded state is justified by the events. -/
theorem justified (R' : t'.Recorded (es ++ [e])) (hk : e.kindText = "succeed")
    (hs : succeed policy plan execution phase (t.advance e) = .ok t') :
    ReceiptJustified policy plan execution phase (es ++ [e]) t' := by
  obtain ⟨hpost, hdeck, hprom, hpar, hproof, rfl⟩ := succeed_cases hs
  refine ⟨hpost, fun i hi => R'.observed i (hpost ▸ hi), ?_, fun p hp => ?_, R'.parent hpar,
    fun e' he' hk' => ?_, ⟨e, by simp, hk, rfl⟩, R'.discharges, rfl⟩
  · have hd := R'.deck
    rw [show _ = some policy.sourceDeck from hdeck] at hd
    exact Option.bind_eq_some_iff.mp hd.symm
  · obtain ⟨d, hd, rfl, hproven⟩ := hprom p hp
    simp only [PromiseDischarge.proven, Bool.and_eq_true, beq_iff_eq,
      Option.isSome_iff_exists] at hproven
    exact ⟨d, (R'.discharges d).mp hd, hproven.1, hproven.2⟩
  · obtain ⟨u, hu, h⟩ := R'.unresolved e' he' hk'
    exact ⟨u, h, hproof u hu⟩

end Transition.Recorded

/-! ## Whole runs -/

section
variable {policy : ExecutionPolicy} {plan : MutationPlan} {execution : ExecutionId}
  {phase : PhaseId} {attempt : AttemptId}

/-- What holds of the events and the state of every accepted run. -/
structure RunInv (policy : ExecutionPolicy) (plan : MutationPlan) (execution : ExecutionId)
    (phase : PhaseId) (es : List ExecutionEvent) (t : Transition) : Prop where
  recorded : t.Recorded es
  open_ : t.state ≠ .succeeded → t.receipt = none
  succeeded : t.state = .succeeded → ReceiptJustified policy plan execution phase es t

theorem RunInv.step {es : List ExecutionEvent} {t t' : Transition} {e : ExecutionEvent}
    (I : RunInv policy plan execution phase es t)
    (h : reduce policy plan execution phase attempt t e = .ok t') :
    RunInv policy plan execution phase (es ++ [e]) t' := by
  have hs := (reduce_cases h).2
  have R' := I.recorded.step hs
  have hrec : t.receipt = none := I.open_ fun ht =>
    not_terminal_of_reduce h (by rw [ht]; trivial)
  refine ⟨R', fun hne => ?_, fun heq => ?_⟩
  · cases hs with
    | image _ _ _ ho => rcases observeImage_cases ho with rfl | rfl <;> exact hrec
    | succeed _ _ ho => obtain ⟨-, -, -, -, -, rfl⟩ := succeed_cases ho; exact absurd rfl hne
    | _ => exact hrec
  · cases hs with
    | start | committed | fail | cancel => cases heq
    | image hst _ _ ho =>
      rcases observeImage_cases ho with rfl | rfl <;>
        rcases hst with hst | hst <;> cases hst.symm.trans heq
    | discharge hst | unresolved hst | deck hst | parent hst => cases hst.symm.trans heq
    | succeed _ hk ho => exact R'.justified hk ho

theorem replay_runInv {h : ContentId} {es : List ExecutionEvent} {t : Transition}
    (hr : replay policy plan execution phase attempt (Transition.planned h) es = .ok t) :
    RunInv policy plan execution phase es t :=
  Run.induct (P := RunInv policy plan execution phase)
    ⟨.planned h, fun _ => rfl, nofun⟩ (fun _ _ _ _ I h => I.step h) hr

/-- A receipt is present exactly in the success state, it is justified by the events of the run,
and no event is accepted after a terminal state. -/
theorem replay_sound {h : ContentId} {es : List ExecutionEvent} {t : Transition}
    (hr : replay policy plan execution phase attempt (Transition.planned h) es = .ok t) :
    (t.receipt.isSome = true ↔ t.state = .succeeded) ∧
    (t.state = .succeeded → ReceiptJustified policy plan execution phase es t) ∧
    (t.state.Terminal → ∀ e t',
      replay policy plan execution phase attempt (Transition.planned h) (es ++ [e]) ≠ .ok t') := by
  have I := replay_runInv hr
  refine ⟨⟨fun hsome => ?_, fun ht => ?_⟩, I.succeeded, fun ht e t' hr' => ?_⟩
  · by_contra hne
    rw [I.open_ hne] at hsome
    exact absurd hsome (by decide)
  · rw [(I.succeeded ht).receipt]; rfl
  · obtain ⟨u, hu, he⟩ := Run.foldlM_concat_eq_ok_iff.mp hr'
    cases (show Except.ok u = Except.ok t from hu.symm.trans hr)
    exact not_terminal_of_reduce he ht

end

/-! ## A run that earns its receipt -/

namespace Sample

def cid (n : UInt8) : ContentId := .ofByte (.qualified "core" "sha256-datum-v1") n
def execution : ExecutionId := ⟨"execution", by decide⟩
def phase : PhaseId := ⟨"leaf", by decide⟩
def attempt : AttemptId := ⟨"attempt", by decide⟩
def promise : PromiseId := ⟨"promise", by decide⟩
def image : FileImage := ⟨"src/lib.rs", some (cid 9)⟩

def policy : ExecutionPolicy where
  id := ⟨"policy", by decide⟩
  sourceDeck := cid 2
  requiredPromises := [promise]
  requiredProofs := []

def plan : MutationPlan := ⟨⟨"mutation", by decide⟩, [⟨"src/lib.rs", none⟩], [image]⟩

def event (o : Observation) : ExecutionEvent := ⟨execution, phase, attempt, o⟩

def run : List ExecutionEvent := [
  event { kind := .new "start", journalHead := cid 20 },
  event { kind := .new "image-observed", journalHead := cid 21, image := some image },
  event { kind := .new "mutation-committed", journalHead := cid 22 },
  event { kind := .new "source-deck-current", journalHead := cid 23, sourceDeck := some (cid 2) },
  event { kind := .new "promise-discharged", journalHead := cid 24,
          discharge := some ⟨promise, .new "proven", some (cid 7)⟩ },
  event { kind := .new "parent-accepted", journalHead := cid 25 },
  event { kind := .new "succeed", journalHead := cid 26 }]

end Sample

theorem replay_sound_run : ∃ t,
    replay Sample.policy Sample.plan Sample.execution Sample.phase Sample.attempt
      (Transition.planned (Sample.cid 1)) Sample.run = .ok t ∧ t.state = .succeeded ∧
    ReceiptJustified Sample.policy Sample.plan Sample.execution Sample.phase Sample.run t := by
  have hrun : (replay Sample.policy Sample.plan Sample.execution Sample.phase Sample.attempt
      (Transition.planned (Sample.cid 1)) Sample.run).isOk = true := rfl
  obtain ⟨t, ht⟩ := Except.exists_of_isOk hrun
  have hstate : t.state = .succeeded := by cases ht; rfl
  exact ⟨t, ht, hstate, (replay_sound ht).2.1 hstate⟩

end SimAgentNet.RoadmapExecCore
