import SimAgentNet.RoadmapRunner.Ledger

/-! # The shape of a rebuilt journal

`validateNext` looks at one record and the history before it. `WellFormed` says what this makes
of the whole history of a journal that `rebuild` accepts: one genesis, receipts after their
requests, one path through the state machine, and nothing after a terminal receipt. -/

namespace SimAgentNet.RoadmapRunner

namespace ExecutionRecord

def receiptId? : ExecutionRecord → Option String
  | .effectReceipt effectId _ _ => some effectId
  | _ => none

def transition? : ExecutionRecord → Option (String × String)
  | .stateTransition source target => some (source, target)
  | _ => none

theorem receives_iff {r : ExecutionRecord} : r.receives effectId ↔ r.receiptId? = some effectId := by
  cases r <;> simp [receives, receiptId?]

theorem requests_iff {r : ExecutionRecord} :
    r.requests effectId ↔ ∃ kind input, r = .effectRequested effectId kind input := by
  cases r <;> simp [requests]

end ExecutionRecord

/-- A path through the state machine, given by its steps. -/
inductive Transits : String → List (String × String) → String → Prop
  | nil : Transits s [] s
  | snoc : Transits s steps t → allowedTransition t u → Transits s (steps ++ [(t, u)]) u

structure WellFormed (records : List ExecutionRecord) : Prop where
  opens : ∃ pins parent later, records = .executionOpened pins parent :: later ∧
    ∀ r ∈ later, ¬r.isOpened
  requested : records = before ++ ExecutionRecord.effectReceipt effectId outcome output :: after →
    ∃ kind input, ExecutionRecord.effectRequested effectId kind input ∈ before
  resolvedOnce : (records.filterMap ExecutionRecord.receiptId?).Nodup
  path : Transits "planned" (records.filterMap ExecutionRecord.transition?) (currentState records)
  sealed : records = before ++ ExecutionRecord.terminalReceipt outcome :: after → after = []

/-- A record in a history with one more record is the new one or stands in the old history. -/
theorem concat_eq_append_cons {l : List α} (h : l ++ [b] = before ++ a :: after) :
    (before = l ∧ a = b ∧ after = []) ∨ ∃ rest, after = rest ++ [b] ∧ l = before ++ a :: rest := by
  rcases List.eq_nil_or_concat after with rfl | ⟨rest, c, rfl⟩
  · obtain ⟨hl, hb⟩ := List.append_inj' h rfl
    exact .inl ⟨hl.symm, (List.cons.inj hb).1.symm, rfl⟩
  · rw [List.concat_eq_append, ← List.cons_append, ← List.append_assoc] at h
    obtain ⟨hl, hb⟩ := List.append_inj' h rfl
    exact .inr ⟨rest, by rw [List.concat_eq_append, (List.cons.inj hb).1], hl⟩

theorem WellFormed.genesis (h : Follows false records record) : WellFormed [record] := by
  cases record with
  | executionOpened pins parent =>
    refine ⟨⟨pins, parent, [], rfl, List.forall_mem_nil _⟩, ?_, List.nodup_nil, .nil, ?_⟩
    · intro before effectId outcome output after h
      cases before <;> simp at h
    · intro before outcome after h
      cases before <;> simp at h
  | _ => cases h

section Step
variable {records : List ExecutionRecord} {record : ExecutionRecord}

theorem Follows.admissible (h : Follows true records record) :
    (∀ r ∈ records.getLast?, ¬r.isTerminal) ∧ record.Admissible records := by
  simpa [Follows] using h

theorem WellFormed.opens_concat (h : WellFormed records) (hf : Follows true records record) :
    ∃ pins parent later, records ++ [record] = .executionOpened pins parent :: later ∧
      ∀ r ∈ later, ¬r.isOpened := by
  obtain ⟨pins, parent, later, rfl, hl⟩ := h.opens
  refine ⟨pins, parent, later ++ [record], rfl, ?_⟩
  intro r hr
  rcases List.mem_append.mp hr with hr | hr
  · exact hl r hr
  · obtain rfl := List.mem_singleton.mp hr
    simp [hf.isOpened_eq]

theorem WellFormed.requested_concat (h : WellFormed records) (hf : Follows true records record)
    (he : records ++ [record] = before ++ ExecutionRecord.effectReceipt effectId outcome output :: after) :
    ∃ kind input, ExecutionRecord.effectRequested effectId kind input ∈ before := by
  rcases concat_eq_append_cons he with ⟨rfl, rfl, -⟩ | ⟨rest, -, hr⟩
  · obtain ⟨⟨r, hr, hq⟩, -⟩ := hf.admissible.2
    obtain ⟨kind, input, rfl⟩ := ExecutionRecord.requests_iff.mp hq
    exact ⟨kind, input, hr⟩
  · exact h.requested hr

theorem WellFormed.resolvedOnce_concat (h : WellFormed records)
    (hf : Follows true records record) :
    ((records ++ [record]).filterMap ExecutionRecord.receiptId?).Nodup := by
  rw [List.filterMap_append]
  cases hr : record.receiptId? with
  | none => simpa [hr] using h.resolvedOnce
  | some effectId =>
    have hfresh : ∀ r ∈ records, r.receiptId? ≠ some effectId := by
      cases record with
      | effectReceipt id outcome output =>
        cases hr
        intro r hmem hid
        exact hf.admissible.2.2 r hmem (ExecutionRecord.receives_iff.mpr hid)
      | _ => cases hr
    simp only [List.filterMap_cons, hr, List.filterMap_nil, List.nodup_append, List.mem_filterMap,
      List.mem_singleton]
    refine ⟨h.resolvedOnce, List.nodup_singleton _, ?_⟩
    rintro a ⟨r, hmem, hid⟩ b rfl rfl
    exact hfresh r hmem hid

theorem WellFormed.path_concat (h : WellFormed records) (hf : Follows true records record) :
    Transits "planned" ((records ++ [record]).filterMap ExecutionRecord.transition?)
      (currentState (records ++ [record])) := by
  rw [List.filterMap_append]
  cases record with
  | stateTransition source target =>
    obtain ⟨hs, ha⟩ := hf.admissible.2
    rw [currentState_append_of_target rfl]
    exact .snoc (hs ▸ h.path) ha
  | _ =>
    rw [currentState_append_of_none rfl]
    exact (List.append_nil _).symm ▸ h.path

theorem WellFormed.sealed_concat (h : WellFormed records) (hf : Follows true records record)
    (he : records ++ [record] = before ++ ExecutionRecord.terminalReceipt outcome :: after) : after = [] := by
  rcases concat_eq_append_cons he with ⟨-, -, hnil⟩ | ⟨rest, -, hr⟩
  · exact hnil
  · -- the old history ends with a terminal receipt, so no record follows it
    obtain rfl := h.sealed hr
    have hlast := hf.admissible.1 (.terminalReceipt outcome) (by simp [hr])
    simp [ExecutionRecord.isTerminal] at hlast

theorem WellFormed.concat (h : WellFormed records) (hf : Follows true records record) :
    WellFormed (records ++ [record]) where
  opens := h.opens_concat hf
  requested := h.requested_concat hf
  resolvedOnce := h.resolvedOnce_concat hf
  path := h.path_concat hf
  sealed := h.sealed_concat hf

end Step

section Rebuild
variable {σ : Type} {api : JournalApi σ} {j : ExecutionJournal}

/-- An accepted entry adds a record that follows the records read before. -/
theorem Replay.Sound.follows {r r' : Replay} (hr : r.Sound emptySet)
    (h : Replay.step api state executionId r entry = .ok r') :
    ∃ record, r'.records = r.records ++ [record] ∧
      Follows (!r.records.isEmpty) r.records record := by
  obtain ⟨first, rest, value, bytes, record, cause, h⟩ := Replay.step_eq_ok_iff.mp h
  refine ⟨record, by rw [h.result], ?_⟩
  rw [← hr.opened]
  exact h.follows

theorem Replay.wellFormed_of_run
    (h : List.foldlM (Replay.step api state executionId) (Replay.init emptySet) entries = .ok r) :
    r.Sound emptySet ∧ (r.records = [] ∨ WellFormed r.records) := by
  refine Run.induct (P := fun _ r => Replay.Sound emptySet r ∧ (r.records = [] ∨ WellFormed r.records))
    ⟨.init emptySet, .inl rfl⟩ ?_ h
  intro _ r _ r' ⟨hr, hw⟩ hs
  obtain ⟨record, hrec, hf⟩ := hr.follows hs
  refine ⟨hr.step hs, .inr ?_⟩
  rw [hrec]
  rcases hw with hnil | hw
  · rw [hnil] at hf ⊢
    exact .genesis hf
  · obtain ⟨pins, parent, later, hopen, -⟩ := hw.opens
    have hne : (!r.records.isEmpty) = true := by rw [hopen]; rfl
    exact hw.concat (hne ▸ hf)

/-- Every journal that can be rebuilt has well-formed records. -/
theorem rebuild_wellFormed (h : j.rebuild api s = .ok st) : WellFormed st.records := by
  obtain ⟨state, v, emptySet, r, hl, -, hfin⟩ := ExecutionJournal.loaded_of_rebuild h
  obtain ⟨-, opening, pins, -, hpins, hst⟩ := ExecutionJournal.finish_eq_ok_iff.mp hfin
  rw [hst]
  obtain ⟨hr, hnil | hw⟩ := Replay.wellFormed_of_run hl.run
  · have hopen := hr.opened
    rw [hpins, hnil] at hopen
    cases hopen
  · exact hw

end Rebuild

/-- The journal that opens, observes and takes a snapshot. -/
theorem rebuild_wellFormed_observed :
    ∃ st, Sample.journal.rebuild Memory.api (Sample.performed Sample.takeSnapshot Sample.observed) =
      .ok st ∧ WellFormed st.records := by
  obtain ⟨st, hst⟩ := Except.exists_of_isOk (x := Sample.journal.rebuild Memory.api
    (Sample.performed Sample.takeSnapshot Sample.observed)) (by decide +kernel)
  exact ⟨st, hst, rebuild_wellFormed hst⟩

end SimAgentNet.RoadmapRunner
