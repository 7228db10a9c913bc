import SimAgentNet.Continuity.Model
import SimAgentNet.Data.Run

/-! # Journals and states of whole sessions

`History` says, without the reducer, which turn lists a plan allows, and `derived` which state
belongs to one. A session of offered events keeps its journal a history and its state the derived
one; the reader also accepts histories whose turns are repeated in place. -/

namespace SimAgentNet.Continuity
variable {Mode : Type}

/-! ## Histories -/

/-- The event may be the next turn after `ts`. -/
structure Admits (plan : ContinuityPlan) (ts : List (ContinuityTurn Mode))
    (e : ContinuityEvent Mode) (intents : List (ContinuityIntent Mode)) : Prop where
  sequence : e.sequence = ts.length
  fresh : ∀ t ∈ ts, t.eventId.display ≠ e.eventId.display
  uncancelled : ∀ t ∈ ts, ¬t.event.cancels
  permitted : intentsOf plan e = .ok intents

inductive History (plan : ContinuityPlan) : List (ContinuityTurn Mode) → Prop
  | nil : History plan []
  | snoc : History plan ts → Admits plan ts e intents → History plan (ts ++ [e.turn intents])

/-- `ts` is `hs` with turns repeated in place. -/
inductive Repeats : List α → List α → Prop
  | nil : Repeats [] []
  | snoc : Repeats hs ts → Repeats (hs ++ [t]) (ts ++ [t])
  | again : Repeats (hs ++ [t]) ts → Repeats (hs ++ [t]) (ts ++ [t])

/-- The state that belongs to a turn list. -/
def derived (plan : ContinuityPlan) (ts : List (ContinuityTurn Mode)) : ContinuityState Mode where
  turns := ts.rtake plan.retentionTurns
  cancelled := ts.getLast?.any (·.event.cancels)
  nextSequence := ts.length
  seen := .ofList (ts.map (·.eventId.display))

variable {plan : ContinuityPlan} {errorText : String → String}
  {ts hs : List (ContinuityTurn Mode)} {t : ContinuityTurn Mode} {e : ContinuityEvent Mode}
  {intents : List (ContinuityIntent Mode)}

theorem History.of_concat (h : History plan (ts ++ [t])) :
    History plan ts ∧ ∃ e intents, t = e.turn intents ∧ Admits plan ts e intents := by
  generalize hu : ts ++ [t] = us at h
  cases h with
  | nil => simp at hu
  | snoc hold ha =>
    obtain ⟨rfl, ht⟩ := List.append_inj' hu rfl
    exact ⟨hold, _, _, (List.cons.inj ht).1, ha⟩

theorem History.sequences (h : History plan ts) : ts.map (·.sequence) = List.range ts.length := by
  induction h with
  | nil => rfl
  | snoc _ ha ih =>
    rw [List.map_append, ih, List.length_append, List.length_singleton, List.range_succ]
    simp [ContinuityEvent.turn, ha.sequence]

theorem History.nodup_ids (h : History plan ts) : (ts.map (·.eventId)).Nodup := by
  induction h with
  | nil => exact List.nodup_nil
  | snoc _ ha ih =>
    rw [List.map_append, List.nodup_append]
    refine ⟨ih, List.nodup_singleton _, ?_⟩
    intro a hmem b hb hab
    obtain ⟨t, ht, rfl⟩ := List.mem_map.mp hmem
    rw [List.map_singleton, List.mem_singleton] at hb
    exact ha.fresh t ht (by rw [hab, hb]; rfl)

theorem History.eventId_eq (h : History plan ts) (ht : t ∈ ts) :
    t.eventId = t.event.eventId := by
  induction h with
  | nil => cases ht
  | snoc _ _ ih =>
    rcases List.mem_append.mp ht with ht | ht
    · exact ih ht
    · rw [List.mem_singleton.mp ht]
      rfl

/-- Only the last turn of a history may cancel. -/
theorem History.uncancelled (h : History plan ts)
    (hlast : ts.getLast?.any (·.event.cancels) = false) : ∀ t ∈ ts, ¬t.event.cancels := by
  cases h with
  | nil => exact List.forall_mem_nil _
  | snoc _ ha =>
    intro t ht
    rcases List.mem_append.mp ht with ht | ht
    · exact ha.uncancelled t ht
    · obtain rfl := List.mem_singleton.mp ht
      simpa using hlast

theorem History.sealed (h : History plan ts) (hts : ts = before ++ t :: after)
    (hc : t.event.cancels) : after = [] := by
  cases h with
  | nil => simp at hts
  | snoc _ ha =>
    rcases List.eq_nil_or_concat after with rfl | ⟨rest, c, rfl⟩
    · rfl
    · rw [List.concat_eq_append, ← List.cons_append, ← List.append_assoc] at hts
      obtain ⟨hold, -⟩ := List.append_inj' hts rfl
      exact absurd hc (ha.uncancelled t (by simp [hold]))

/-! ## The derived state -/

section Derived
variable (hr : 0 < plan.retentionTurns)
include hr

theorem derived_getLast? : (derived plan ts).turns.getLast? = ts.getLast? := by
  rcases List.eq_nil_or_concat ts with rfl | ⟨rest, t, rfl⟩
  · simp [derived]
  · obtain ⟨n, hn⟩ : ∃ n, plan.retentionTurns = n + 1 := ⟨_, (Nat.succ_pred_eq_of_pos hr).symm⟩
    simp [derived, hn, List.rtake_concat_succ]

theorem retain_rtake :
    retain plan (ts.rtake plan.retentionTurns ++ [t]) = (ts ++ [t]).rtake plan.retentionTurns := by
  unfold retain List.rtake
  simp only [List.length_append, List.length_drop, List.length_singleton]
  split
  · rw [List.drop_append_of_le_length (by simp; omega), List.drop_append_of_le_length (by omega),
      List.drop_drop]
    congr 2
    omega
  · rw [List.drop_append_of_le_length (by omega)]
    congr 2
    omega

theorem derived_push :
    (derived plan ts).push plan e intents = derived plan (ts ++ [e.turn intents]) := by
  unfold ContinuityState.push derived
  simp only [retain_rtake hr, List.map_append, List.length_append, List.length_singleton,
    List.getLast?_append, List.map_singleton]
  congr 1
  exact SortedSet.ext fun a => by simp [ContinuityEvent.turn, or_comm]

end Derived

/-! ## The reducer and the reader -/

theorem ContinuityPlan.retention_pos (hv : plan.validate = .ok ()) : 0 < plan.retentionTurns := by
  simp only [ContinuityPlan.validate, Except.guard_eq_ok_iff] at hv
  omega

section Reduce
variable (hv : plan.validate = .ok ())
include hv

theorem apply_eq_ok_iff {state next : ContinuityState Mode} :
    apply errorText plan state e = .ok next ↔
      (e.eventId.display ∈ state.seen ∧ next = state) ∨
      (e.eventId.display ∉ state.seen ∧ e.sequence = state.nextSequence ∧
        state.cancelled = false ∧ ∃ intents, intentsOf plan e = .ok intents ∧
          next = state.push plan e intents) := by
  unfold apply
  rw [hv]
  simp only [Except.mapError, Except.ok_bind]
  by_cases hseen : e.eventId.display ∈ state.seen
  · simp only [hseen, if_true, true_and, not_true_eq_false, false_and, or_false]
    exact ⟨fun h => (Except.ok.inj h).symm, fun h => congrArg _ h.symm⟩
  · simp only [hseen, if_false, Except.guard_eq_ok_iff, Except.bind_eq_ok_iff, false_and, false_or,
      not_false_eq_true, true_and, not_not, Bool.not_eq_true]
    refine and_congr_right fun _ => and_congr_right fun _ => exists_congr fun intents => ?_
    exact and_congr_right fun _ => ⟨fun h => (Except.ok.inj h).symm, fun h => congrArg _ h.symm⟩

/-- On the state of a history, an event is a repetition or the next turn. -/
theorem History.apply_eq_ok_iff (h : History plan ts) {next : ContinuityState Mode} :
    apply errorText plan (derived plan ts) e = .ok next ↔
      ((∃ t ∈ ts, t.eventId.display = e.eventId.display) ∧ next = derived plan ts) ∨
      ∃ intents, Admits plan ts e intents ∧ next = derived plan (ts ++ [e.turn intents]) := by
  have hr := plan.retention_pos hv
  have hseen : e.eventId.display ∈ (derived plan ts).seen ↔
      ∃ t ∈ ts, t.eventId.display = e.eventId.display := by
    simp [derived]
  rw [Continuity.apply_eq_ok_iff hv, hseen]
  refine or_congr .rfl ?_
  constructor
  · rintro ⟨hfresh, hseq, hopen, intents, hi, rfl⟩
    refine ⟨intents, ⟨hseq, ?_, h.uncancelled hopen, hi⟩, derived_push hr⟩
    intro t ht heq
    exact hfresh ⟨t, ht, heq⟩
  · rintro ⟨intents, ha, rfl⟩
    refine ⟨?_, ha.sequence, ?_, intents, ha.permitted, (derived_push hr).symm⟩
    · rintro ⟨t, ht, heq⟩
      exact ha.fresh t ht heq
    · cases hlast : ts.getLast? with
      | none => simp [derived, hlast]
      | some t => simpa [derived, hlast] using ha.uncancelled t (List.mem_of_getLast? hlast)

variable [DecidableEq Mode]

/-- On the state of a history, the reader takes the last turn again or the next one. -/
theorem History.rebuildTurn_eq_ok_iff (h : History plan ts) {next : ContinuityState Mode} :
    rebuildTurn errorText plan (derived plan ts) t = .ok next ↔
      (ts.getLast? = some t ∧ next = derived plan ts) ∨
      ∃ e intents, t = e.turn intents ∧ Admits plan ts e intents ∧
        next = derived plan (ts ++ [t]) := by
  have hr := plan.retention_pos hv
  unfold rebuildTurn
  simp only [Except.bind_eq_ok_iff, Except.guard_eq_ok_iff, not_not, h.apply_eq_ok_iff hv]
  constructor
  · rintro ⟨_, ⟨-, rfl⟩ | ⟨intents, ha, rfl⟩, hlast, hn⟩
    · rw [derived_getLast? hr] at hlast
      exact .inl ⟨hlast, (Except.ok.inj hn).symm⟩
    · rw [derived_getLast? hr, List.getLast?_concat] at hlast
      have ht := Option.some.inj hlast
      exact .inr ⟨t.event, intents, ht.symm, ha, by rw [← Except.ok.inj hn, ht]⟩
  · rintro (⟨hlast, rfl⟩ | ⟨e, intents, rfl, ha, rfl⟩)
    · refine ⟨_, .inl ⟨⟨t, List.mem_of_getLast? hlast, ?_⟩, rfl⟩, ?_, rfl⟩
      · exact congrArg Symbol.display (h.eventId_eq (List.mem_of_getLast? hlast))
      · rw [derived_getLast? hr, hlast]
    · refine ⟨_, .inr ⟨intents, ha, rfl⟩, ?_, rfl⟩
      rw [derived_getLast? hr, List.getLast?_concat]
      rfl

end Reduce

/-- The reader accepts exactly the histories with turns repeated in place. -/
theorem rebuild_eq_ok_iff [DecidableEq Mode] (hv : plan.validate = .ok ())
    {st : ContinuityState Mode} :
    rebuild errorText plan ts = .ok st ↔
      ∃ hs, History plan hs ∧ Repeats hs ts ∧ st = derived plan hs := by
  constructor
  · intro h
    refine Run.induct (P := fun ts st => ∃ hs, History plan hs ∧ Repeats hs ts ∧
      st = derived plan hs) ⟨[], .nil, .nil, by simp [derived, ContinuityState.default]; rfl⟩ ?_ h
    rintro ts _ t next ⟨hs, hh, hrep, rfl⟩ hstep
    rcases (hh.rebuildTurn_eq_ok_iff hv).mp hstep with ⟨hlast, rfl⟩ | ⟨e, intents, rfl, ha, rfl⟩
    · obtain ⟨rest, rfl⟩ := List.getLast?_eq_some_iff.mp hlast
      exact ⟨_, hh, .again hrep, rfl⟩
    · exact ⟨_, .snoc hh ha, .snoc hrep, rfl⟩
  · rintro ⟨hs, hh, hrep, rfl⟩
    induction hrep with
    | nil => simp [rebuild, derived, ContinuityState.default]; rfl
    | snoc hrep ih =>
      obtain ⟨hold, e, intents, rfl, ha⟩ := hh.of_concat
      exact Run.foldlM_concat_eq_ok_iff.mpr ⟨_, ih hold,
        (hold.rebuildTurn_eq_ok_iff hv).mpr (.inr ⟨e, intents, rfl, ha, rfl⟩)⟩
    | again hrep ih =>
      exact Run.foldlM_concat_eq_ok_iff.mpr ⟨_, ih hh,
        (hh.rebuildTurn_eq_ok_iff hv).mpr (.inl ⟨List.getLast?_concat, rfl⟩)⟩

theorem Repeats.refl (ts : List α) : Repeats ts ts := by
  induction ts using List.reverseRecOn with
  | nil => exact .nil
  | append_singleton ts t ih => exact .snoc ih

theorem Repeats.subset {hs ts : List α} (h : Repeats hs ts) : hs ⊆ ts := by
  induction h with
  | nil => exact List.Subset.refl _
  | snoc _ ih =>
    exact List.append_subset.mpr ⟨fun a ha => List.mem_append_left _ (ih ha), by simp⟩
  | again _ ih => exact fun a ha => List.mem_append_left _ (ih ha)

/-- A list in which something is repeated has a duplicate. -/
theorem Repeats.eq_of_nodup {hs ts : List α} (h : Repeats hs ts) (hnd : ts.Nodup) : hs = ts := by
  induction h with
  | nil => rfl
  | snoc _ ih => rw [ih (List.nodup_append.mp hnd).1]
  | again h _ =>
    -- the repeated element stands before its repetition
    have hmem := h.subset (List.mem_append_right _ (List.mem_singleton_self _))
    exact absurd rfl ((List.nodup_append.mp hnd).2.2 _ hmem _ (List.mem_singleton_self _))

/-! ## Sessions -/

structure Session (Mode : Type) where
  journal : MemoryJournal Mode
  state : ContinuityState Mode

namespace Session
variable [DecidableEq Mode]

def initial : Session Mode := ⟨.default, .default⟩

/-- Offers an event; the current state is replaced when the journal accepts. -/
def offer (errorText : String → String) (plan : ContinuityPlan) (s : Session Mode)
    (e : ContinuityEvent Mode) : Session Mode :=
  match MemoryJournal.accept errorText plan s.state e s.journal with
  | (.ok state, journal) => ⟨journal, state⟩
  | (.error _, journal) => ⟨journal, s.state⟩

def run (errorText : String → String) (plan : ContinuityPlan) (es : List (ContinuityEvent Mode)) :
    Session Mode :=
  es.foldl (offer errorText plan) initial

/-- The session of a history. -/
def of (plan : ContinuityPlan) (ts : List (ContinuityTurn Mode)) : Session Mode :=
  ⟨⟨ts⟩, derived plan ts⟩

end Session

section Accept
variable [DecidableEq Mode] (hv : plan.validate = .ok ()) (h : History plan ts)
include hv h

theorem History.rebuild_eq : rebuild errorText plan ts = .ok (derived plan ts) :=
  (rebuild_eq_ok_iff hv).mpr ⟨ts, h, .refl ts, rfl⟩

/-- What `accept` does in the session of a history. -/
theorem History.accept_cases (errorText : String → String) (e : ContinuityEvent Mode) :
    ((∃ r, MemoryJournal.accept errorText plan (derived plan ts) e ⟨ts⟩ =
        (.error (.failure (.refused r)), ⟨ts⟩)) ∧ ∀ intents, ¬Admits plan ts e intents) ∨
    (MemoryJournal.accept errorText plan (derived plan ts) e ⟨ts⟩ = (.ok (derived plan ts), ⟨ts⟩) ∧
      ∃ t ∈ ts, t.eventId.display = e.eventId.display) ∨
    ∃ intents, Admits plan ts e intents ∧
      MemoryJournal.accept errorText plan (derived plan ts) e ⟨ts⟩ =
        (.ok (derived plan (ts ++ [e.turn intents])), ⟨ts ++ [e.turn intents]⟩) := by
  have hr := plan.retention_pos hv
  unfold MemoryJournal.accept
  simp only [Effect.bind_apply, Effect.observe_apply, MemoryJournal.turns, h.rebuild_eq hv,
    Except.mapError, ne_eq, not_true_eq_false, if_false, Effect.ofExcept_apply]
  cases ha : apply errorText plan (derived plan ts) e with
  | error r =>
    refine .inl ⟨⟨r, rfl⟩, ?_⟩
    intro intents hadm
    rw [(h.apply_eq_ok_iff hv).mpr (.inr ⟨intents, hadm, rfl⟩)] at ha
    cases ha
  | ok next =>
    refine .inr ?_
    rcases (h.apply_eq_ok_iff hv).mp ha with ⟨hseen, rfl⟩ | ⟨intents, hadm, rfl⟩
    · exact .inl ⟨by simp [MemoryJournal.record, Effect.bind_apply, Effect.get_apply], hseen⟩
    · have hne : derived plan (ts ++ [e.turn intents]) ≠ derived plan ts := by
        intro heq
        have := congrArg ContinuityState.nextSequence heq
        simp [derived] at this
      refine .inr ⟨intents, hadm, ?_⟩
      simp [MemoryJournal.record, MemoryJournal.appendFenced, Effect.bind_apply, Effect.get_apply,
        Effect.modify_apply, hne, derived_getLast? hr]

theorem History.offer_next (hadm : Admits plan ts e intents) :
    (Session.of plan ts).offer errorText plan e = .of plan (ts ++ [e.turn intents]) := by
  unfold Session.offer Session.of
  rcases h.accept_cases hv errorText e with ⟨-, hno⟩ | ⟨-, t, ht, heq⟩ | ⟨intents', hadm', hr⟩
  · exact absurd hadm (hno intents)
  · exact absurd heq (hadm.fresh t ht)
  · obtain rfl := Except.ok.inj (hadm.permitted.symm.trans hadm'.permitted)
    simp only [hr]

theorem History.offer_cases (errorText : String → String) (e : ContinuityEvent Mode) :
    (Session.of plan ts).offer errorText plan e = .of plan ts ∨
    ∃ intents, Admits plan ts e intents ∧
      (Session.of plan ts).offer errorText plan e = .of plan (ts ++ [e.turn intents]) := by
  rcases h.accept_cases hv errorText e with ⟨⟨r, hr⟩, -⟩ | ⟨hr, -⟩ | ⟨intents, hadm, -⟩
  · exact .inl (by simp only [Session.offer, Session.of, hr])
  · exact .inl (by simp only [Session.offer, Session.of, hr])
  · exact .inr ⟨intents, hadm, h.offer_next hv hadm⟩

/-- A refused event and one whose id is in the journal change nothing. -/
theorem History.offer_eq_self
    (hno : (∃ x, (MemoryJournal.accept errorText plan (derived plan ts) e ⟨ts⟩).1 = .error x) ∨
      ∃ t ∈ ts, t.eventId = e.eventId) :
    (Session.of plan ts).offer errorText plan e = .of plan ts := by
  rcases h.accept_cases hv errorText e with ⟨⟨r, hr⟩, -⟩ | ⟨hr, -⟩ | ⟨intents, hadm, hr⟩
  · simp only [Session.offer, Session.of, hr]
  · simp only [Session.offer, Session.of, hr]
  · rcases hno with ⟨x, hx⟩ | ⟨t, ht, heq⟩
    · rw [hr] at hx
      cases hx
    · exact absurd (congrArg Symbol.display heq) (hadm.fresh t ht)

end Accept

section Run

theorem Session.initial_eq : (Session.initial : Session Mode) = .of plan [] := by
  simp [initial, of, derived, MemoryJournal.default, ContinuityState.default]
  rfl

variable [DecidableEq Mode]

theorem Session.run_concat (es : List (ContinuityEvent Mode)) (e : ContinuityEvent Mode) :
    run errorText plan (es ++ [e]) = (run errorText plan es).offer errorText plan e := by
  rw [run, List.foldl_append]
  rfl

variable (hv : plan.validate = .ok ())
include hv

theorem Session.run_history (errorText : String → String) (es : List (ContinuityEvent Mode)) :
    ∃ ts, History plan ts ∧ run errorText plan es = .of plan ts := by
  induction es using List.reverseRecOn with
  | nil => exact ⟨[], .nil, initial_eq⟩
  | append_singleton es e ih =>
    obtain ⟨ts, hh, hrun⟩ := ih
    rw [run_concat, hrun]
    rcases hh.offer_cases hv errorText e with hsame | ⟨intents, hadm, hnext⟩
    · exact ⟨ts, hh, hsame⟩
    · exact ⟨_, .snoc hh hadm, hnext⟩

/-- Every history is the journal of the session of its events. -/
theorem History.run_eq (h : History plan ts) :
    Session.run errorText plan (ts.map (·.event)) = .of plan ts := by
  induction h with
  | nil => exact Session.initial_eq
  | snoc hh hadm ih =>
    rw [List.map_append, List.map_singleton, Session.run_concat, ih]
    exact hh.offer_next hv hadm

theorem exists_run_iff :
    (∃ es, (Session.run errorText plan es).journal.turns = ts) ↔ History plan ts := by
  constructor
  · rintro ⟨es, rfl⟩
    obtain ⟨ts, hh, hrun⟩ := Session.run_history hv errorText es
    rw [hrun]
    exact hh
  · intro h
    exact ⟨_, by rw [h.run_eq hv]; rfl⟩

end Run

/-- What holds of the journal and the state of a session, and of the next event offered. -/
structure Session.Coherent [DecidableEq Mode] (errorText : String → String)
    (plan : ContinuityPlan) (s : Session Mode) : Prop where
  rebuilt : rebuild errorText plan s.journal.turns = .ok s.state
  sequences : s.journal.turns.map (·.sequence) = List.range s.journal.turns.length
  ids : (s.journal.turns.map (·.eventId)).Nodup
  sealed : ∀ before (t : ContinuityTurn Mode) after, s.journal.turns = before ++ t :: after →
    t.event.kind.display = "cancel" → after = []
  window : s.state.turns = s.journal.turns.rtake plan.retentionTurns
  refused : ∀ e x, (MemoryJournal.accept errorText plan s.state e s.journal).1 = .error x →
    s.offer errorText plan e = s
  again : ∀ t ∈ s.journal.turns, ∀ e, t.eventId = e.eventId → s.offer errorText plan e = s

theorem History.coherent [DecidableEq Mode] (hv : plan.validate = .ok ()) (h : History plan ts) :
    (Session.of plan ts).Coherent errorText plan where
  rebuilt := h.rebuild_eq hv
  sequences := h.sequences
  ids := h.nodup_ids
  sealed _ _ _ hts hc := h.sealed hts (by simp [ContinuityEvent.cancels, hc])
  window := rfl
  refused _ x hx := h.offer_eq_self hv (.inl ⟨x, hx⟩)
  again t ht _ heq := h.offer_eq_self hv (.inr ⟨t, ht, heq⟩)

theorem History.nodup (h : History plan ts) : ts.Nodup := .of_map _ h.nodup_ids

/-- Every session is coherent. The reader accepts just the journals of sessions, except on a
history some of whose turns are repeated in place. -/
theorem session_coherent [DecidableEq Mode] (hv : plan.validate = .ok ()) :
    (∀ es : List (ContinuityEvent Mode),
      (Session.run errorText plan es).Coherent errorText plan) ∧
    ∀ ts : List (ContinuityTurn Mode),
      ((∃ st, rebuild errorText plan ts = .ok st) ↔
        ∃ es, (Session.run errorText plan es).journal.turns = ts) ↔
      ¬∃ hs, History plan hs ∧ Repeats hs ts ∧ hs ≠ ts := by
  constructor
  · intro es
    obtain ⟨ts, hh, hrun⟩ := Session.run_history hv errorText es
    rw [hrun]
    exact hh.coherent hv
  · intro ts
    rw [exists_run_iff hv]
    constructor
    · rintro hiff ⟨hs, hh, hrep, hne⟩
      have hts := hiff.mp ⟨_, (rebuild_eq_ok_iff hv).mpr ⟨hs, hh, hrep, rfl⟩⟩
      exact hne (hrep.eq_of_nodup hts.nodup)
    · intro hno
      constructor
      · rintro ⟨st, hst⟩
        obtain ⟨hs, hh, hrep, -⟩ := (rebuild_eq_ok_iff hv).mp hst
        by_cases heq : hs = ts
        · exact heq ▸ hh
        · exact absurd ⟨hs, hh, hrep, heq⟩ hno
      · intro h
        exact ⟨_, h.rebuild_eq hv⟩

namespace Sample

/-- The plan of the crate's tests. -/
def hostile : ContinuityPlan where
  schemaVersion := 1
  planId := .qualified "continuity.plan" "hostile"
  roles := [⟨.new "root", true, [.new "voice"], []⟩]
  availableServices := [.new "voice"]
  maxFreshness := 3
  retentionTurns := 16
  disclosure := []
  network := .offline
  allowedNetworkRoutes := []

def event (id : String) (sequence : Nat) (kind : String) : ContinuityEvent Unit where
  eventId := .qualified "event" id
  sequence
  logicalTime := sequence
  kind := .new kind
  role := .new "root"
  lease := none
  payload := .nil
  disclosure := none

def observed : ContinuityTurn Unit :=
  (event "a" 0 "observed").turn [intent "record" (.new "root") none]

end Sample

theorem session_coherent_hostile :
    Sample.hostile.validate = .ok () ∧
      (Session.run id Sample.hostile [Sample.event "a" 0 "observed", Sample.event "future" 3 "observed",
        Sample.event "cancel" 1 "cancel", Sample.event "late" 2 "observed"]).Coherent id
          Sample.hostile :=
  ⟨by decide +kernel, (session_coherent (by decide +kernel)).1 _⟩

/-- The reader accepts a turn twice in a row, which no session writes. -/
theorem rebuild_repeated_turn :
    Sample.hostile.validate = .ok () ∧
      (∃ st, rebuild id Sample.hostile [Sample.observed, Sample.observed] = .ok st) ∧
      ∀ es, (Session.run id Sample.hostile es).journal.turns ≠ [Sample.observed, Sample.observed] := by
  refine ⟨by decide +kernel, Except.exists_of_isOk (by decide +kernel), ?_⟩
  intro es hes
  have hv : Sample.hostile.validate = .ok () := by decide +kernel
  have hh := (exists_run_iff hv).mp ⟨es, hes⟩
  exact absurd hh.sequences (by decide +kernel)

end SimAgentNet.Continuity
