import SimAgentNet.RoadmapExecCore.History

/-! # What a receipt leaves open

The reducer keeps a postimage once it was observed, so a path may be back at its preimage when the
phase succeeds; and it passes over a required proof that is unresolved when the event does not call
it mandatory. -/

namespace SimAgentNet.RoadmapExecCore
open RoadmapCore

/-- The image of a path that an event observes. -/
def imageAt (p : String) (e : ExecutionEvent) : Option FileImage :=
  if e.kindText = "image-observed" then e.observation.image.filter (·.path = p) else none

/-- The image carried by the last `image-observed` event for a path. -/
def lastImage (es : List ExecutionEvent) (p : String) : Option FileImage :=
  (es.filterMap (imageAt p)).getLast?

/-- After another image was observed at the path of a postimage, the postimage is observed again. -/
def Restored (plan : MutationPlan) (es : List ExecutionEvent) : Prop :=
  ∀ i ∈ plan.postimages, ∀ before e after j, es = before ++ e :: after →
    imageAt i.path e = some j → j ≠ i → ∃ e' ∈ after, imageAt i.path e' = some i

/-- The events that name a required proof as unresolved call it mandatory. -/
def RequiredFlagged (policy : ExecutionPolicy) (es : List ExecutionEvent) : Prop :=
  ∀ e ∈ es, e.kindText = "proof-unresolved" → ∀ u, e.observation.unresolved = some u →
    u.proof ∈ policy.requiredProofs → u.mandatory = true

section
variable {policy : ExecutionPolicy} {plan : MutationPlan} {execution : ExecutionId}
  {phase : PhaseId} {attempt : AttemptId} {h : ContentId} {es : List ExecutionEvent}
  {t : Transition}

theorem imageAt_eq (hk : e.kindText = "image-observed") (hi : e.observation.image = some i) :
    imageAt i.path e = some i := by
  simp [imageAt, hk, hi, Option.filter]

/-- The last value of a list that a function gives comes from an element after which it gives
none. -/
theorem getLast?_filterMap {f : α → Option β} {l : List α} {b : β}
    (hb : (l.filterMap f).getLast? = some b) :
    ∃ before a after, l = before ++ a :: after ∧ f a = some b ∧ ∀ a' ∈ after, f a' = none := by
  induction l using List.reverseRecOn with
  | nil => cases hb
  | append_singleton l a ih =>
    rw [List.filterMap_append] at hb
    cases ha : f a with
    | none =>
      rw [List.filterMap_cons_none ha, List.filterMap_nil, List.append_nil] at hb
      obtain ⟨before, a', after, rfl, ha', hafter⟩ := ih hb
      refine ⟨before, a', after ++ [a], by simp, ha', fun c hc => ?_⟩
      rcases List.mem_append.mp hc with hc | hc
      · exact hafter c hc
      · cases List.mem_singleton.mp hc
        exact ha
    | some b' =>
      rw [List.filterMap_cons_some ha, List.filterMap_nil, List.getLast?_concat] at hb
      cases hb
      exact ⟨l, a, [], rfl, ha, nofun⟩

/-- An image that is observed in a list of events is the last one or observed before it. -/
theorem exists_lastImage (he : e ∈ es) (hi : imageAt p e = some i) :
    ∃ j, lastImage es p = some j := by
  have hne : es.filterMap (imageAt p) ≠ [] :=
    List.ne_nil_of_mem (List.mem_filterMap.mpr ⟨e, he, hi⟩)
  exact ⟨_, List.getLast?_eq_some_getLast hne⟩

/-- A phase that succeeds was last seen with its postimages exactly when no path was left at another
image. -/
theorem receipt_reflects_last_images_iff
    (hr : replay policy plan execution phase attempt (Transition.planned h) es = .ok t)
    (hreceipt : t.receipt.isSome = true) :
    (∀ i ∈ plan.postimages, lastImage es i.path = some i) ↔ Restored plan es := by
  have hjust := (replay_runInv hr).succeeded ((replay_sound hr).1.mp hreceipt)
  constructor
  · intro hlast i hi before e after j hes hj hne
    obtain ⟨before', a, after', hes', ha, hafter⟩ := getLast?_filterMap (hlast i hi)
    have hsplit := hes.symm.trans hes'
    rcases List.append_eq_append_iff.mp hsplit with ⟨mid, rfl, hmid⟩ | ⟨mid, rfl, hmid⟩
    · cases mid with
      | nil =>
        obtain ⟨rfl, rfl⟩ := List.cons.inj hmid
        exact absurd (Option.some.inj (hj.symm.trans ha)) hne
      | cons b mid =>
        obtain ⟨rfl, rfl⟩ := List.cons.inj hmid
        exact ⟨a, List.mem_append_right _ List.mem_cons_self, ha⟩
    · cases mid with
      | nil =>
        obtain ⟨rfl, rfl⟩ := List.cons.inj hmid
        exact absurd (Option.some.inj (hj.symm.trans ha)) hne
      | cons b mid =>
        obtain ⟨rfl, rfl⟩ := List.cons.inj hmid
        exact nomatch hj.symm.trans (hafter e (List.mem_append_right _ List.mem_cons_self))
  · intro hrestored i hi
    obtain ⟨e, he, hk, himage⟩ := hjust.observed i hi
    obtain ⟨j, hj⟩ := exists_lastImage he (imageAt_eq hk himage)
    obtain ⟨before, a, after, hes, ha, hafter⟩ := getLast?_filterMap hj
    by_contra hne
    have hji : j ≠ i := fun heq => hne (heq ▸ hj)
    obtain ⟨e', he', hagain⟩ := hrestored i hi before a after j hes ha hji
    exact nomatch hagain.symm.trans (hafter e' he')

/-- A phase that succeeds has no required proof unresolved exactly when every event that named one
called it mandatory. -/
theorem no_required_proof_unresolved_iff
    (hr : replay policy plan execution phase attempt (Transition.planned h) es = .ok t)
    (hs : t.state = .succeeded) :
    (∀ e ∈ es, e.kindText = "proof-unresolved" → ∀ u, e.observation.unresolved = some u →
      u.proof ∉ policy.requiredProofs) ↔ RequiredFlagged policy es := by
  have hjust := (replay_runInv hr).succeeded hs
  constructor
  · exact fun hnone e he hk u hu hp => absurd hp (hnone e he hk u hu)
  · intro hflag e he hk u hu hp
    obtain ⟨u', hu', hfalse⟩ := hjust.proofs e he hk
    cases hu.symm.trans hu'
    exact Bool.false_ne_true (hfalse.symm.trans (hflag e he hk u hu hp))

end

namespace Sample

def preimage : FileImage := ⟨"src/lib.rs", none⟩

/-- A run in which the path is seen back at its preimage before the phase succeeds. -/
def revertedRun : List ExecutionEvent :=
  run.dropLast ++ [
    event { kind := .new "image-observed", journalHead := cid 30, image := some preimage },
    event { kind := .new "succeed", journalHead := cid 31 }]

def testsPolicy : ExecutionPolicy := { policy with requiredProofs := [.new "tests"] }

/-- A required proof is unresolved, and the event does not call it mandatory. -/
def unresolvedTests : ExecutionEvent :=
  event { kind := .new "proof-unresolved", journalHead := cid 30,
          unresolved := some ⟨.new "tests", false, .new "timeout"⟩ }

def unresolvedRun : List ExecutionEvent :=
  run.dropLast ++ [unresolvedTests, event { kind := .new "succeed", journalHead := cid 31 }]

/-- The state that a run of the sample reaches. -/
def outcome (policy : ExecutionPolicy) (es : List ExecutionEvent) :
    Except ExecutionFailure Transition :=
  replay policy plan execution phase attempt (Transition.planned (cid 1)) es

end Sample

open Sample in
theorem receipt_reflects_last_images_run : ∃ t, outcome policy run = .ok t ∧
    t.receipt.isSome = true ∧ Restored plan run := by
  obtain ⟨t, ht⟩ := Except.exists_of_isOk (show (outcome policy run).isOk = true from rfl)
  have hreceipt : t.receipt.isSome = true := by cases ht; rfl
  refine ⟨t, ht, hreceipt, (receipt_reflects_last_images_iff ht hreceipt).mp fun i hi => ?_⟩
  cases List.mem_singleton.mp hi
  rfl

open Sample in
/-- The phase succeeds though its path was last seen at the preimage. -/
theorem succeeds_back_at_preimage : ∃ t, outcome policy revertedRun = .ok t ∧
    t.receipt.isSome = true ∧ image ∈ plan.postimages ∧
    lastImage revertedRun image.path = some preimage ∧ preimage ≠ image := by
  obtain ⟨t, ht⟩ := Except.exists_of_isOk (show (outcome policy revertedRun).isOk = true from rfl)
  have hreceipt : t.receipt.isSome = true := by cases ht; rfl
  exact ⟨t, ht, hreceipt, List.mem_cons_self, rfl, nofun⟩

open Sample in
theorem no_required_proof_unresolved_run : ∃ t, outcome testsPolicy run = .ok t ∧
    t.state = .succeeded ∧ RequiredFlagged testsPolicy run := by
  obtain ⟨t, ht⟩ := Except.exists_of_isOk (show (outcome testsPolicy run).isOk = true from rfl)
  have hs : t.state = .succeeded := by cases ht; rfl
  refine ⟨t, ht, hs, (no_required_proof_unresolved_iff ht hs).mp fun e he hk => ?_⟩
  exact absurd hk ((show ∀ e ∈ run, e.kindText ≠ "proof-unresolved" by decide) e he)

open Sample in
/-- The phase succeeds though a proof that the policy requires is unresolved. -/
theorem succeeds_with_required_proof_unresolved : ∃ t, outcome testsPolicy unresolvedRun = .ok t ∧
    t.state = .succeeded ∧ ∃ e ∈ unresolvedRun, e.kindText = "proof-unresolved" ∧
      ∃ u, e.observation.unresolved = some u ∧ u.proof ∈ testsPolicy.requiredProofs := by
  obtain ⟨t, ht⟩ :=
    Except.exists_of_isOk (show (outcome testsPolicy unresolvedRun).isOk = true from rfl)
  have hs : t.state = .succeeded := by cases ht; rfl
  have hmem : unresolvedTests ∈ unresolvedRun := List.mem_append_right _ List.mem_cons_self
  exact ⟨t, ht, hs, unresolvedTests, hmem, rfl, _, rfl, by decide⟩

end SimAgentNet.RoadmapExecCore
