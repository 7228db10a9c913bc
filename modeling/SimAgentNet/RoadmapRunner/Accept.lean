import SimAgentNet.Data.Effect
import SimAgentNet.RoadmapExecCore.Model
import SimAgentNet.RoadmapRunner.Proof

/-! # Acceptance of promises

Decisions about promises from proof receipts, and their acceptance as a whole. `acceptAll` checks
the last decision for each promise that is listed or contributes to a parent and discharges the
whole list: `acceptAll_discharged_iff` says when nothing refuted gets through. -/

namespace SimAgentNet.RoadmapRunner
open RoadmapCore (PromiseId)
open RoadmapExecCore (PromiseDischarge)

structure ProofAuthority where
  plan : ContentId
  deck : ContentId
  mutation : ContentId
  launcher : String
  policy : ContentId
  proofDefinition : ContentId
deriving DecidableEq

structure GroundedPromise where
  id : PromiseId
  admittedProofs : SortedMap String ContentId
  /-- The one proof that may replace an inconclusive one. -/
  inconclusiveFallback : Option String
deriving DecidableEq

structure CorrelatedProof where
  authority : ProofAuthority
  receipt : TypedProofReceipt
  evidence : ContentId
deriving DecidableEq

inductive Disposition where
  | proven | refuted | inconclusive
deriving DecidableEq

structure PromiseDecision where
  promise : PromiseId
  disposition : Disposition
  evidence : Option ContentId
  proof : String
deriving DecidableEq

inductive AcceptanceFailure where
  | foreignAuthority
  | unadmittedProof (proof : String)
  | changedProofDefinition (proof : String)
  | missingFallback (promise : PromiseId)
  | exhaustedFallbackBudget
  | refuted (promise : PromiseId)
  | inconclusive (promise : PromiseId)
  | missingPromise (promise : PromiseId)
  | parentCoverageHole (parent : PromiseId)
deriving DecidableEq

/-! ## Deciding one promise -/

def validateReceipt (promise : GroundedPromise) (expected : ProofAuthority)
    (proof : CorrelatedProof) : Except AcceptanceFailure Unit :=
  if proof.authority ≠ expected ∨ proof.receipt.launcherIdentity.any (· ≠ expected.launcher) then
    .error .foreignAuthority
  else match promise.admittedProofs.get? proof.receipt.proof with
    | none => .error (.unadmittedProof proof.receipt.proof)
    | some definition =>
      if definition ≠ expected.proofDefinition then
        .error (.changedProofDefinition proof.receipt.proof)
      else .ok ()

def decision (promise : GroundedPromise) (proof : CorrelatedProof) (disposition : Disposition) :
    PromiseDecision where
  promise := promise.id
  disposition := disposition
  evidence := if disposition = .proven then some proof.evidence else none
  proof := proof.receipt.proof

def fallbackDisposition : ProofDisposition → Disposition
  | .passed => .proven
  | .failed => .refuted
  | .ambiguous => .inconclusive

/-- Judges the receipts of a promise; the state is the budget of fallbacks. -/
def decidePromise (promise : GroundedPromise) (expected : ProofAuthority)
    (primary : CorrelatedProof) (fallback : Option CorrelatedProof) :
    Effect AcceptanceFailure Nat PromiseDecision := do
  .ofExcept (validateReceipt promise expected primary)
  match primary.receipt.disposition with
  | .passed => return decision promise primary .proven
  | .failed => return decision promise primary .refuted
  | .ambiguous =>
    match promise.inconclusiveFallback with
    | none => .fail (.missingFallback promise.id)
    | some name =>
      let budget ← .get
      if budget = 0 then .fail .exhaustedFallbackBudget else
      match fallback.filter (·.receipt.proof == name) with
      | none => .fail (.missingFallback promise.id)
      | some proof =>
        .ofExcept (validateReceipt promise expected proof)
        .modify (· - 1)
        return decision promise proof (fallbackDisposition proof.receipt.disposition)

/-- A decision carries evidence exactly when it is a proof. -/
theorem decidePromise_evidence
    (h : decidePromise promise expected primary fallback budget = (.ok d, budget')) :
    d.promise = promise.id ∧ (d.evidence.isSome ↔ d.disposition = .proven) := by
  have hdecision (proof : CorrelatedProof) (disposition : Disposition) :
      (decision promise proof disposition).promise = promise.id ∧
        ((decision promise proof disposition).evidence.isSome ↔ disposition = .proven) := by
    refine ⟨rfl, ?_⟩
    simp only [decision]
    split <;> simp [*]
  rw [decidePromise, Effect.bind_eq_ok_iff] at h
  obtain ⟨_, _, -, h⟩ := h
  cases hdisp : primary.receipt.disposition with
  | passed =>
    rw [hdisp] at h
    cases h
    exact hdecision primary .proven
  | failed =>
    rw [hdisp] at h
    cases h
    exact hdecision primary .refuted
  | ambiguous =>
    rw [hdisp] at h
    cases hname : promise.inconclusiveFallback with
    | none =>
      simp only [hname] at h
      cases h
    | some name =>
      simp only [hname, Effect.bind_eq_ok_iff] at h
      obtain ⟨n, _, -, h⟩ := h
      by_cases hn : n = 0
      · rw [if_pos hn] at h
        cases h
      · rw [if_neg hn] at h
        cases hproof : fallback.filter (·.receipt.proof == name) with
        | none =>
          rw [hproof] at h
          cases h
        | some proof =>
          simp only [hproof, Effect.bind_eq_ok_iff] at h
          obtain ⟨_, _, -, _, _, -, h⟩ := h
          cases h
          exact hdecision proof _

/-! ## Accepting all -/

/-- A parent promise names the child promises whose evidence contributes to it. -/
structure ParentAcceptance where
  required : SortedMap PromiseId (SortedSet PromiseId)
deriving DecidableEq

/-- The last decision for each promise. -/
def byId (decisions : List PromiseDecision) : SortedMap PromiseId PromiseDecision :=
  .ofList (decisions.map fun d => (d.promise, d))

def checkPromise (decided : SortedMap PromiseId PromiseDecision) (promise : GroundedPromise) :
    Except AcceptanceFailure Unit :=
  match decided.get? promise.id with
  | none => .error (.missingPromise promise.id)
  | some d =>
    match d.disposition with
    | .proven => .ok ()
    | .refuted => .error (.refuted promise.id)
    | .inconclusive => .error (.inconclusive promise.id)

def checkParent (decided : SortedMap PromiseId PromiseDecision)
    (row : PromiseId × SortedSet PromiseId) : Except AcceptanceFailure Unit :=
  if row.2.elems.isEmpty || row.2.elems.any fun id =>
      (decided.get? id).all (·.disposition ≠ .proven) then
    .error (.parentCoverageHole row.1)
  else .ok ()

def discharged (d : PromiseDecision) : PromiseDischarge where
  promise := d.promise
  status := .new "proven"
  evidence := d.evidence

def acceptAll (promises : List GroundedPromise) (decisions : List PromiseDecision)
    (parent : ParentAcceptance) : Except AcceptanceFailure (List PromiseDischarge) := do
  promises.forM (checkPromise (byId decisions))
  parent.required.entries.forM (checkParent (byId decisions))
  return decisions.map discharged

/-! ## What the checks look at -/

variable {promises : List GroundedPromise} {decisions : List PromiseDecision}
  {parent : ParentAcceptance}

/-- The promise is listed or contributes to a parent. -/
def Checked (promises : List GroundedPromise) (parent : ParentAcceptance) (id : PromiseId) : Prop :=
  (∃ p ∈ promises, p.id = id) ∨ ∃ row ∈ parent.required.entries, id ∈ row.2

/-- The last decision for a promise. -/
def lastFor (decisions : List PromiseDecision) (id : PromiseId) : Option PromiseDecision :=
  decisions.reverse.find? (·.promise = id)

theorem get?_byId (decisions : List PromiseDecision) (id : PromiseId) :
    (byId decisions).get? id = lastFor decisions id := by
  induction decisions using List.reverseRecOn with
  | nil => rfl
  | append_singleton ds d ih =>
    simp only [byId, SortedMap.ofList, lastFor, List.map_append, List.map_cons, List.map_nil,
      List.foldl_append, List.foldl_cons, List.foldl_nil, SortedMap.get?_insert,
      List.reverse_append, List.reverse_cons, List.reverse_nil, List.nil_append,
      List.singleton_append, List.find?_cons] at ih ⊢
    by_cases h : d.promise = id
    · simp [h]
    · simp [h, Ne.symm h, ih]

theorem mem_of_lastFor {id : PromiseId} (h : lastFor decisions id = some d) :
    d ∈ decisions ∧ d.promise = id := by
  obtain ⟨hp, -⟩ := List.find?_eq_some_iff_append.mp h
  exact ⟨List.mem_reverse.mp (List.mem_of_find?_eq_some h), by simpa using hp⟩

/-- The last decision for the promise is a proof. -/
def Settled (decisions : List PromiseDecision) (id : PromiseId) : Prop :=
  ∃ d, lastFor decisions id = some d ∧ d.disposition = .proven

theorem checkPromise_ok_iff :
    checkPromise (byId decisions) p = .ok () ↔ Settled decisions p.id := by
  simp only [checkPromise, get?_byId, Settled]
  cases lastFor decisions p.id with
  | none => simp
  | some d => cases hd : d.disposition <;> simp [hd]

theorem checkParent_ok_iff :
    checkParent (byId decisions) row = .ok () ↔
      row.2.elems ≠ [] ∧ ∀ id ∈ row.2, Settled decisions id := by
  simp only [checkParent, get?_byId, Settled, Except.guard_eq_ok_iff, Bool.or_eq_true, not_or,
    and_true, List.isEmpty_iff, ne_eq]
  refine and_congr .rfl ?_
  rw [Bool.not_eq_true, List.any_eq_false]
  refine forall₂_congr fun id _ => ?_
  cases lastFor decisions id <;> simp

/-- Acceptance asks for a proof as the last decision for each checked promise, and for a
contributor to each parent. -/
theorem acceptAll_ok_iff : acceptAll promises decisions parent = .ok ds ↔
    (∀ id, Checked promises parent id → Settled decisions id) ∧
    (∀ row ∈ parent.required.entries, row.2.elems ≠ []) ∧ ds = decisions.map discharged := by
  simp only [acceptAll, Except.bind_eq_ok_iff]
  constructor
  · rintro ⟨⟨⟩, hlisted, ⟨⟩, hparents, hds⟩
    replace hlisted := Except.forM_eq_ok_iff.mp hlisted
    replace hparents := Except.forM_eq_ok_iff.mp hparents
    simp only [checkPromise_ok_iff] at hlisted
    simp only [checkParent_ok_iff] at hparents
    refine ⟨?_, fun row hrow => (hparents row hrow).1, (Except.ok.inj hds).symm⟩
    rintro id (⟨p, hp, rfl⟩ | ⟨row, hrow, hid⟩)
    · exact hlisted p hp
    · exact (hparents row hrow).2 id hid
  · rintro ⟨hchecked, hrows, rfl⟩
    refine ⟨(), Except.forM_eq_ok_iff.mpr fun p hp => checkPromise_ok_iff.mpr ?_, (),
      Except.forM_eq_ok_iff.mpr fun row hrow => checkParent_ok_iff.mpr ⟨hrows row hrow, ?_⟩, rfl⟩
    · exact hchecked _ (.inl ⟨p, hp, rfl⟩)
    · intro id hid
      exact hchecked id (.inr ⟨row, hrow, hid⟩)

/-! ## What acceptance stands for -/

/-- No discharge stands for anything but a proof. -/
structure Discharged (promises : List GroundedPromise) (decisions : List PromiseDecision)
    (parent : ParentAcceptance) (ds : List PromiseDischarge) : Prop where
  decisions_proven : ∀ d ∈ decisions, d.disposition = .proven
  evidence : ∀ x ∈ ds, x.status = .new "proven" ∧ ∃ d ∈ decisions, ∃ e,
    d.promise = x.promise ∧ d.disposition = .proven ∧ d.evidence = some e ∧ x.evidence = some e
  listed : ∀ p ∈ promises, ∃ x ∈ ds, x.promise = p.id
  contributors : ∀ row ∈ parent.required.entries, ∀ id ∈ row.2,
    ∃ d ∈ decisions, d.promise = id ∧ d.disposition = .proven

/-- The decision is not one that the checks look at: it is for a promise that is neither listed
nor contributes, or a later decision for the same promise replaces it. -/
def Unchecked (promises : List GroundedPromise) (decisions : List PromiseDecision)
    (parent : ParentAcceptance) (d : PromiseDecision) : Prop :=
  ¬Checked promises parent d.promise ∨ lastFor decisions d.promise ≠ some d

/-- Acceptance lets nothing but proofs through exactly when, in case every check passes, the
decisions that no check looks at are proofs and every decision carries evidence. -/
theorem acceptAll_discharged_iff (promises : List GroundedPromise)
    (decisions : List PromiseDecision) (parent : ParentAcceptance) :
    (∀ ds, acceptAll promises decisions parent = .ok ds →
      Discharged promises decisions parent ds) ↔
    ((∀ id, Checked promises parent id → Settled decisions id) →
      (∀ row ∈ parent.required.entries, row.2.elems ≠ []) →
      (∀ d ∈ decisions, Unchecked promises decisions parent d → d.disposition = .proven) ∧
        ∀ d ∈ decisions, d.evidence.isSome) := by
  simp only [acceptAll_ok_iff]
  constructor
  · intro h hchecked hrows
    have hd := h _ ⟨hchecked, hrows, rfl⟩
    refine ⟨fun d hmem _ => hd.decisions_proven d hmem, fun d hmem => ?_⟩
    obtain ⟨-, -, -, e, -, -, -, he⟩ := hd.evidence _ (List.mem_map_of_mem hmem)
    exact Option.isSome_of_eq_some he
  · rintro h ds ⟨hchecked, hrows, rfl⟩
    obtain ⟨hunchecked, hevidence⟩ := h hchecked hrows
    have hproven : ∀ d ∈ decisions, d.disposition = .proven := by
      intro d hmem
      by_cases hd : Unchecked promises decisions parent d
      · exact hunchecked d hmem hd
      · obtain ⟨hc, hlast⟩ : Checked promises parent d.promise ∧
            lastFor decisions d.promise = some d := by
          simpa only [Unchecked, not_or, not_not] using hd
        obtain ⟨d', hd', hdisp⟩ := hchecked _ hc
        cases hlast.symm.trans hd'
        exact hdisp
    have hsettled : ∀ id, Checked promises parent id → ∃ d ∈ decisions, d.promise = id := by
      intro id hid
      obtain ⟨d, hd, -⟩ := hchecked id hid
      obtain ⟨hmem, hp⟩ := mem_of_lastFor hd
      exact ⟨d, hmem, hp⟩
    refine ⟨hproven, ?_, ?_, ?_⟩
    · intro x hx
      obtain ⟨d, hmem, rfl⟩ := List.mem_map.mp hx
      obtain ⟨e, he⟩ := Option.isSome_iff_exists.mp (hevidence d hmem)
      exact ⟨rfl, d, hmem, e, rfl, hproven d hmem, he, he⟩
    · intro p hp
      obtain ⟨d, hmem, hid⟩ := hsettled p.id (.inl ⟨p, hp, rfl⟩)
      exact ⟨discharged d, List.mem_map_of_mem hmem, hid⟩
    · intro row hrow id hid
      obtain ⟨d, hmem, hp⟩ := hsettled id (.inr ⟨row, hrow, hid⟩)
      exact ⟨d, hmem, hp, hproven d hmem⟩

namespace AcceptSample

def content (b : UInt8) : ContentId := .ofByte (.qualified "core" "sha256-datum-v1") b

def promise : GroundedPromise where
  id := ⟨"public-signature", by decide⟩
  admittedProofs := (∅ : SortedMap String ContentId).insert "exact-source" (content 5)
  inconclusiveFallback := none

def authority : ProofAuthority where
  plan := content 1
  deck := content 2
  mutation := content 3
  launcher := "networkless-v1"
  policy := content 4
  proofDefinition := content 5

def proof (disposition : ProofDisposition) : CorrelatedProof where
  authority := authority
  receipt := {
    proof := "exact-source"
    effectId := none
    disposition
    exitCode := some 0
    timeout := false
    signal := none
    truncated := false
    launcherIdentity := some "networkless-v1"
    sandboxIdentity := some "sandbox"
    stdoutObject := none
    stderrObject := none
    observedAt := "logical:1"
    semanticDetail := "typed predicate" }
  evidence := content 9

end AcceptSample

open AcceptSample in
/-- A refutation that a proof of the same promise follows is discharged as proven, without
evidence. -/
theorem refuted_decision_discharged : ∃ refuted proven ds,
    decidePromise promise authority (proof .failed) none 0 = (.ok refuted, 0) ∧
    decidePromise promise authority (proof .passed) none 0 = (.ok proven, 0) ∧
    acceptAll [promise] [refuted, proven] ⟨∅⟩ = .ok ds ∧ ds.head?.map (·.evidence) = some none ∧
    ¬Discharged [promise] [refuted, proven] ⟨∅⟩ ds := by
  refine ⟨decision promise (proof .failed) .refuted, decision promise (proof .passed) .proven, _,
    by decide +kernel, by decide +kernel, rfl, rfl, fun h => ?_⟩
  have hproven := h.decisions_proven _ List.mem_cons_self
  exact absurd hproven (by decide)

end SimAgentNet.RoadmapRunner
