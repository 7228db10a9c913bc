import SimAgentNet.RoadmapRunner.ProofLaunch

/-! # Execution status

The bounded status of a rebuilt execution. A request is entered under its display text and a
receipt takes away its effect id, so `outstanding_exact_iff` says which journals are reported
exactly. -/

namespace SimAgentNet.RoadmapRunner

def MAX_ROWS : Nat := 256
def MAX_TEXT : Nat := 240

/-- The display text: the first characters, without control characters. -/
def bounded (value : String) : String :=
  .ofList ((value.toList.take MAX_TEXT).filter fun c => !c.isUnicodeControl)

def redactedMarks : List String := ["token", "secret", "api_key", "credential"]

/-- A text that may be shown, or the mark that it is redacted. -/
def publicText (value : String) : String :=
  let lower := (Text.utf8 value).map Text.asciiLower
  if startsWithSlash value ∨ redactedMarks.any (Text.containsBytes lower <| Text.utf8 ·) then
    "[redacted]"
  else bounded value

def redactedPins (p : ExecutionPins) : ExecutionPins where
  conduct := publicText p.conduct
  policy := publicText p.policy
  sourceDeck := p.sourceDeck
  modelPick := publicText p.modelPick
  runnerGeneration := publicText p.runnerGeneration

structure ConductTraceRef where
  topology : String
  agent : String
  step : String
  evidence : Option ContentId
deriving DecidableEq

structure ExecutionStatus where
  executionId : String
  head : JournalHead
  state : String
  selectedBecause : String
  pins : ExecutionPins
  lastEvent : String
  outstandingEffects : List String
  openPromises : List String
  ambiguities : List String
  remainingRecordBytes : Nat
  safeNextActions : List String
  conductTrace : List ConductTraceRef
deriving DecidableEq

/-- What is collected from the records. -/
structure StatusFold where
  state : String
  requested : SortedSet String
  promises : SortedSet String
  ambiguities : SortedSet String

namespace StatusFold

def init : StatusFold := ⟨"planned", ∅, ∅, ∅⟩

def step (f : StatusFold) : ExecutionRecord → StatusFold
  | .stateTransition _ target => { f with state := bounded target }
  | .effectRequested effectId _ _ => { f with requested := f.requested.insert (bounded effectId) }
  | .effectReceipt effectId _ _ => { f with requested := f.requested.erase effectId }
  | .discharge obligation => { f with promises := f.promises.erase obligation }
  | .proofResult proof false _ => { f with promises := f.promises.insert (bounded proof) }
  | .ambiguity reason => { f with ambiguities := f.ambiguities.insert (bounded reason) }
  | _ => f

def safeNextActions (f : StatusFold) : List String :=
  if ¬f.ambiguities.elems.isEmpty then
    ["reconcile from verified evidence", "do not repeat an uncertain effect"]
  else if ¬f.requested.elems.isEmpty then ["observe the outstanding effect"]
  else if f.state = "succeeded" then ["inspect the terminal receipt"]
  else ["advance one admitted effect"]

end StatusFold

def ExecutionStatus.fromRebuilt (run : RebuiltExecution) (maxExecutionBytes : Nat) :
    ExecutionStatus :=
  let f := run.records.foldl StatusFold.step .init
  { executionId := bounded run.executionId
    head := run.head
    state := f.state
    selectedBecause := "compiled roadmap admitted this leaf after its dependencies"
    pins := redactedPins run.pins
    lastEvent := (run.records.getLast?.map (·.tag)).getD "none"
    outstandingEffects := f.requested.elems.take MAX_ROWS
    openPromises := f.promises.elems.take MAX_ROWS
    ambiguities := f.ambiguities.elems.take MAX_ROWS
    remainingRecordBytes := maxExecutionBytes - run.totalBytes
    safeNextActions := f.safeNextActions
    conductTrace := [] }

/-! ## Display texts -/

theorem toList_bounded (value : String) :
    (bounded value).toList = (value.toList.take MAX_TEXT).filter fun c => !c.isUnicodeControl :=
  String.toList_ofList

/-- Bounding a display text again changes nothing. -/
theorem bounded_bounded (value : String) : bounded (bounded value) = bounded value := by
  apply String.toList_injective
  have hlen : (bounded value).toList.length ≤ MAX_TEXT := by
    rw [toList_bounded]
    exact (List.length_filter_le _ _).trans (List.length_take_le _ _)
  rw [toList_bounded (bounded value), List.take_of_length_le hlen, toList_bounded,
    List.filter_filter]
  simp only [Bool.and_self]

/-! ## What is collected -/

/-- The journal has a request of the effect and no receipt. -/
def Outstanding (records : List ExecutionRecord) (e : String) : Prop :=
  (∃ r ∈ records, r.requests e = true) ∧ ∀ r ∈ records, r.receives e = false

/-- A request that is shown as `text` and that no receipt of `text` follows. -/
def Shown (records : List ExecutionRecord) (text : String) : Prop :=
  ∃ before e kind input after, records = before ++ ExecutionRecord.effectRequested e kind input :: after ∧
    bounded e = text ∧ ∀ r ∈ after, ExecutionRecord.receives text r = false

theorem shown_concat_iff {records : List ExecutionRecord} {r : ExecutionRecord} {text : String} :
    Shown (records ++ [r]) text ↔
      (∃ e kind input, r = .effectRequested e kind input ∧ bounded e = text) ∨
        (Shown records text ∧ r.receives text = false) := by
  constructor
  · rintro ⟨before, e, kind, input, after, heq, htext, hafter⟩
    rcases List.eq_nil_or_concat after with rfl | ⟨after, last, rfl⟩
    · obtain ⟨-, hr⟩ := List.append_inj' heq rfl
      exact .inl ⟨e, kind, input, List.singleton_inj.mp hr, htext⟩
    · rw [List.concat_eq_append, ← List.cons_append, ← List.append_assoc] at heq
      obtain ⟨hrecords, hr⟩ := List.append_inj' heq rfl
      cases List.singleton_inj.mp hr
      rw [List.concat_eq_append] at hafter
      refine .inr ⟨⟨before, e, kind, input, after, hrecords, htext, fun x hx => ?_⟩, ?_⟩
      · exact hafter x (List.mem_append_left _ hx)
      · exact hafter r (List.mem_append_right _ List.mem_cons_self)
  · rintro (⟨e, kind, input, rfl, htext⟩ | ⟨⟨before, e, kind, input, after, rfl, htext, hafter⟩, hr⟩)
    · exact ⟨records, e, kind, input, [], rfl, htext, List.forall_mem_nil _⟩
    · refine ⟨before, e, kind, input, after ++ [r], by simp, htext, fun x hx => ?_⟩
      rcases List.mem_append.mp hx with hx | hx
      · exact hafter x hx
      · exact List.mem_singleton.mp hx ▸ hr

theorem mem_requested_iff (records : List ExecutionRecord) (text : String) :
    text ∈ (records.foldl StatusFold.step .init).requested ↔ Shown records text := by
  induction records using List.reverseRecOn with
  | nil =>
    constructor
    · intro h
      cases h
    · rintro ⟨before, e, kind, input, after, heq, -⟩
      cases before <;> cases heq
  | append_singleton records r ih =>
    rw [List.foldl_concat, shown_concat_iff, ← ih]
    cases r with
    | effectRequested e kind input =>
      simp only [StatusFold.step, SortedSet.mem_insert, ExecutionRecord.receives, and_true]
      refine or_congr_left ⟨?_, ?_⟩
      · intro h
        exact ⟨e, kind, input, rfl, h.symm⟩
      · rintro ⟨e', kind', input', heq, htext⟩
        cases heq
        exact htext.symm
    | effectReceipt e outcome output =>
      simp only [StatusFold.step, SortedSet.mem_erase, ExecutionRecord.receives, beq_eq_false_iff_ne,
        reduceCtorEq, false_and, exists_false, false_or]
      exact and_congr_right fun _ => ne_comm
    | proofResult proof passed evidence =>
      cases passed <;> simp [StatusFold.step, ExecutionRecord.receives]
    | _ => simp [StatusFold.step, ExecutionRecord.receives]

/-! ## What is reported -/

def requestedId? : ExecutionRecord → Option String
  | .effectRequested e _ _ => some e
  | _ => none

theorem requestedId?_eq_some_iff {r : ExecutionRecord} :
    requestedId? r = some e ↔ r.requests e = true := by
  cases r <;> simp [requestedId?, ExecutionRecord.requests]

/-- The ids of the outstanding effects. -/
def outstandingIds (records : List ExecutionRecord) : SortedSet String :=
  let asked := SortedSet.ofList (records.filterMap requestedId?)
  ⟨asked.elems.filter fun e => records.all fun r => !r.receives e, asked.sorted.filter _⟩

theorem mem_outstandingIds {records : List ExecutionRecord} :
    e ∈ outstandingIds records ↔ Outstanding records e := by
  simp only [outstandingIds, SortedSet.mem_def, List.mem_filter, SortedSet.mem_elems_ofList,
    List.mem_filterMap, requestedId?_eq_some_iff, List.all_eq_true, Bool.not_eq_true', Outstanding]

/-- The journals of which the display loses nothing. Every outstanding effect is shown under its
id, there is a row for each of them, and a request is no longer shown unless its text is the id of
an outstanding effect: a receipt of this text follows it, or the rows end before it. -/
structure Trackable (records : List ExecutionRecord) : Prop where
  shown : ∀ e, Outstanding records e → bounded e = e
  rows : (outstandingIds records).card ≤ MAX_ROWS
  answered : ∀ before e kind input after,
    records = before ++ ExecutionRecord.effectRequested e kind input :: after →
      Outstanding records (bounded e) ∨ (∃ r ∈ after, ExecutionRecord.receives (bounded e) r = true) ∨
        MAX_ROWS ≤ (outstandingIds records).card ∧
          ∀ other, Outstanding records other → other < bounded e

theorem shown_of_outstanding {records : List ExecutionRecord} (h : Outstanding records e)
    (hshown : bounded e = e) : Shown records e := by
  obtain ⟨⟨r, hr, hreq⟩, hno⟩ := h
  obtain ⟨before, after, rfl⟩ := List.append_of_mem hr
  cases r with
  | effectRequested e' kind input =>
    cases beq_iff_eq.mp hreq
    refine ⟨before, _, kind, input, after, rfl, hshown, fun x hx => hno x ?_⟩
    exact List.mem_append_right _ (List.mem_cons_of_mem _ hx)
  | _ => cases hreq

theorem bounded_of_shown (h : Shown records text) : bounded text = text := by
  obtain ⟨before, e, kind, input, after, -, rfl, -⟩ := h
  exact bounded_bounded e

/-- The status reports exactly the effects that the journal has a request and no receipt of, when
the display loses nothing and only then. -/
theorem outstanding_exact_iff (run : RebuiltExecution) (maxExecutionBytes : Nat) :
    (∀ e, e ∈ (ExecutionStatus.fromRebuilt run maxExecutionBytes).outstandingEffects ↔
      Outstanding run.records e) ↔ Trackable run.records := by
  have hlist : (∀ e, e ∈ (ExecutionStatus.fromRebuilt run maxExecutionBytes).outstandingEffects ↔
      Outstanding run.records e) ↔
        (run.records.foldl StatusFold.step .init).requested.elems.take MAX_ROWS =
          (outstandingIds run.records).elems := by
    constructor
    · intro h
      have hsorted := (run.records.foldl StatusFold.step .init).requested.sorted
      have hset : (⟨_, hsorted.sublist (List.take_sublist MAX_ROWS _)⟩ : SortedSet String) =
          outstandingIds run.records :=
        SortedSet.ext fun e => (h e).trans mem_outstandingIds.symm
      exact congrArg SortedSet.elems hset
    · intro h e
      rw [← mem_outstandingIds, SortedSet.mem_def, ← h]
      exact Iff.rfl
  rw [hlist, SortedSet.take_eq_iff]
  constructor
  · rintro ⟨hsub, hrows, hall⟩
    refine ⟨fun e he => ?_, hrows, ?_⟩
    · have hmem := hsub e (mem_outstandingIds.mpr he)
      exact bounded_of_shown ((mem_requested_iff _ _).mp hmem)
    · intro before e kind input after heq
      by_cases hreceipt : ∃ r ∈ after, r.receives (bounded e) = true
      · exact .inr (.inl hreceipt)
      · have hshown : Shown run.records (bounded e) :=
          ⟨before, e, kind, input, after, heq, rfl, fun r hr =>
            Bool.eq_false_iff.mpr fun hrec => hreceipt ⟨r, hr, hrec⟩⟩
        obtain hout | ⟨hfull, hafter⟩ := hall _ ((mem_requested_iff _ _).mpr hshown)
        · exact .inl (mem_outstandingIds.mp hout)
        · exact .inr (.inr ⟨hfull, fun other ho => hafter other (mem_outstandingIds.mpr ho)⟩)
  · intro htrack
    refine ⟨fun e he => ?_, htrack.rows, fun text htext => ?_⟩
    · have hout := mem_outstandingIds.mp he
      exact (mem_requested_iff _ _).mpr (shown_of_outstanding hout (htrack.shown e hout))
    · obtain ⟨before, e, kind, input, after, heq, rfl, hafter⟩ := (mem_requested_iff _ _).mp htext
      obtain hout | ⟨r, hr, hrec⟩ | ⟨hfull, hlast⟩ := htrack.answered before e kind input after heq
      · exact .inl (mem_outstandingIds.mpr hout)
      · rw [hafter r hr] at hrec
        cases hrec
      · exact .inr ⟨hfull, fun other ho => hlast other (mem_outstandingIds.mp ho)⟩

/-! ## A receipt that is not seen -/

namespace StatusSample
open Sample

/-- An effect id with a line feed, which is not displayed. -/
def brokenId : String := "build\n"

def ask : ExecutionRecord := .effectRequested brokenId "sandbox-proof" none

def answer : ExecutionRecord := .effectReceipt brokenId "passed" none

def withRequest : Memory.Backend := (append ask [] written).2

def withReceipt : Memory.Backend := (append answer [] withRequest).2

end StatusSample

open Sample StatusSample in
/-- The journal has one effect, with its receipt, and the status reports another one. -/
theorem answered_effect_reported :
    ∃ run, journal.rebuild Memory.api withReceipt = .ok run ∧
      (∀ e, ¬Outstanding run.records e) ∧
      (ExecutionStatus.fromRebuilt run 0).outstandingEffects = ["build"] := by
  have hrun : (journal.rebuild Memory.api withReceipt).map (fun run =>
      (run.records, (ExecutionStatus.fromRebuilt run 0).outstandingEffects)) =
        .ok ([genesis, ask, answer], ["build"]) := by decide +kernel
  obtain ⟨run, hrebuild, h⟩ := Except.map_eq_ok_iff.mp hrun
  obtain ⟨hrecords, hreported⟩ := Prod.mk.inj h
  refine ⟨run, hrebuild, ?_, hreported⟩
  rintro e ⟨⟨r, hr, hreq⟩, hno⟩
  rw [hrecords] at hr hno
  have hid : brokenId = e := by
    obtain rfl | hr := List.mem_cons.mp hr
    · cases hreq
    obtain rfl | hr := List.mem_cons.mp hr
    · exact beq_iff_eq.mp hreq
    · cases List.mem_singleton.mp hr
      cases hreq
  have hanswer := hno answer (List.mem_cons_of_mem _ (List.mem_cons_of_mem _ List.mem_cons_self))
  rw [answer, ExecutionRecord.receives, hid, beq_self_eq_true] at hanswer
  cases hanswer

end SimAgentNet.RoadmapRunner
