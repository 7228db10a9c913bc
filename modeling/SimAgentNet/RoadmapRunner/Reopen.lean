import SimAgentNet.RoadmapRunner.Ledger
import SimAgentNet.RoadmapRunner.Service

/-! # Opening an existing execution

A journal begins with the record that pins the identity of its execution, and opening it again
compares the pins. `open_detects_iff` says which changes of identity the pins show;
`state_follows_journal` says when a service that was opened or resumed is in the state the journal
records. -/

namespace SimAgentNet.RoadmapRunner
open RoadmapExecCore
open ByteReader (Forces)

/-! ## The first entry -/

section Genesis
variable {σ : Type} {api : JournalApi σ} {j : ExecutionJournal}

/-- The entry carries a record that opens the execution. -/
def Opens (state : StoredState) (executionId : String) (entry : JournalEntry)
    (pins : ExecutionPins) (parent : Option String) : Prop :=
  ∃ first rest value, entry.payloads = first :: rest ∧ state.datums.get? first = some value ∧
    decodeDatum value = .ok (executionId, .executionOpened pins parent)

/-- The first entry of a journal opens it, and the loop keeps its pins. -/
theorem Replay.opens_of_run
    (h : List.foldlM (Replay.step api state executionId) (Replay.init emptySet) entries = .ok r) :
    (entries = [] ∧ r = .init emptySet) ∨ ∃ e rest pins parent records, entries = e :: rest ∧
      Opens state executionId e pins parent ∧ r.pins = some pins ∧
      r.records = .executionOpened pins parent :: records ∧ records.length = rest.length := by
  refine Run.induct (P := fun entries r => (entries = [] ∧ r = Replay.init emptySet) ∨
    ∃ e rest pins parent records, entries = e :: rest ∧ Opens state executionId e pins parent ∧
      r.pins = some pins ∧ r.records = .executionOpened pins parent :: records ∧
      records.length = rest.length) (.inl ⟨rfl, rfl⟩) ?_ h
  intro es u e t hu hstep
  obtain ⟨first, rest, value, bytes, record, cause, hacc⟩ := Replay.step_eq_ok_iff.mp hstep
  have hopened := hacc.follows.isOpened_eq
  right
  rcases hu with ⟨rfl, rfl⟩ | ⟨e₀, rest₀, pins, parent, records, rfl, ho, hp, hr, hlen⟩
  · cases record with
    | executionOpened pins parent =>
      exact ⟨e, [], pins, parent, [], rfl,
        ⟨first, rest, value, hacc.payloads, hacc.datum, hacc.decoded⟩, by rw [hacc.result]; rfl,
        by rw [hacc.result]; rfl, rfl⟩
    | _ => cases hopened
  · refine ⟨e₀, rest₀ ++ [e], pins, parent, records ++ [record], rfl, ho, ?_, ?_, ?_⟩
    · rw [hacc.result]
      rw [hp] at hopened
      cases record with
      | executionOpened => cases hopened
      | _ => exact hp
    · rw [hacc.result, hr]
      rfl
    · simp [hlen]

/-- The journal begins with the record that opens the execution with these pins. -/
def Begun (api : JournalApi σ) (s : σ) (executionId : String) (pins : ExecutionPins) : Prop :=
  ∃ v state e entries first rest, api.verify s = .ok v ∧ api.readState s = .ok state ∧
    v.entries = e :: entries ∧ e.payloads = first :: rest ∧
    state.datums.get? first = some (encodeDatum executionId (.executionOpened pins none))

/-- Backends that publications and stored datums, by whatever writer, lead to. -/
inductive Later (api : JournalApi σ) (s : σ) : σ → Prop
  | refl : Later api s s
  | publish : Later api s s' → api.publish expected objects entries s' = (x, s'') →
    Later api s s''
  | put : Later api s s' → (api.put value s').2 = s'' → Later api s s''

theorem Begun.publish (hf : api.Faithful) (h : Begun api s executionId pins)
    (hp : api.publish expected objects entries s = (x, s')) : Begun api s' executionId pins := by
  obtain ⟨v, state, e, es, first, rest, hv, hr, he, hpay, hd⟩ := h
  cases x with
  | ok head =>
    obtain ⟨state', hr', hle, -⟩ := hf.publish_read hp hr
    exact ⟨_, state', e, es ++ entries, first, rest, hf.publish_verify hp hv, hr',
      by rw [he]; rfl, hpay, hle.datums hd⟩
  | error err =>
    obtain ⟨hv', hr'⟩ := hf.publish_refused hp
    exact ⟨v, state, e, es, first, rest, hv'.trans hv, hr'.trans hr, he, hpay, hd⟩

theorem Begun.later (hf : api.Faithful) (h : Begun api s executionId pins)
    (hl : Later api s s') : Begun api s' executionId pins := by
  induction hl with
  | refl => exact h
  | publish _ hp ih => exact ih.publish hf hp
  | put _ hs ih =>
    obtain ⟨v, state, e, es, first, rest, hv, hr, he, hpay, hd⟩ := ih
    obtain ⟨state', hr', hle⟩ := hf.put_read hs hr
    exact ⟨v, state', e, es, first, rest, (hf.put_verify hs).trans hv, hr', he, hpay,
      hle.datums hd⟩

/-- Whoever rebuilds the journal reads the pins that the codec gives back. -/
theorem Begun.rebuild (h : Begun api s j.executionId pins) (hst : j.rebuild api s = .ok st) :
    ∃ parent, decodeDatum (encodeDatum j.executionId (.executionOpened pins none)) =
      .ok (j.executionId, .executionOpened st.pins parent) := by
  obtain ⟨v, state, e, es, first, rest, hv, hr, he, hpay, hd⟩ := h
  obtain ⟨state', v', emptySet, r, hl, -, hfin⟩ := ExecutionJournal.loaded_of_rebuild hst
  cases hl.verify.symm.trans hv
  cases hl.read.symm.trans hr
  obtain ⟨-, _, pins', -, hpins, hst⟩ := ExecutionJournal.finish_eq_ok_iff.mp hfin
  rcases Replay.opens_of_run hl.run with
    ⟨hnil, -⟩ | ⟨e', rest', pins'', parent, _, hcons, ⟨first', _, value, hp, hv', hdec⟩, hp', -⟩
  · cases he.symm.trans hnil
  · cases hpins.symm.trans hp'
    cases he.symm.trans hcons
    cases hpay.symm.trans hp
    cases hd.symm.trans hv'
    rw [hst]
    exact ⟨parent, hdec⟩

theorem Fresh.begun (hf : api.Faithful) (h : Fresh api s)
    (ha : j.append api expected (.executionOpened pins none) [] s = (.ok head, s')) :
    Begun api s' j.executionId pins := by
  obtain ⟨state, hread⟩ := h.read
  obtain ⟨⟨published, entry⟩, s₁, hadm, hp⟩ := Effect.bind_eq_ok_iff.mp ha
  obtain ⟨hadm, rfl⟩ := Effect.observe_eq_ok_iff.mp hadm
  replace hp := Effect.mapError_eq_ok_iff.mp hp
  simp only [ExecutionJournal.admitRecord, Except.bind_eq_ok_iff, Except.guard_eq_ok_iff,
    Except.mapError_eq_ok_iff] at hadm
  obtain ⟨_, -, _, -, o, ho, -, _, -, _, -, -, -, -, he⟩ := hadm
  obtain ⟨⟨i, bytes⟩, hd, ho⟩ := Except.bind_eq_ok_iff.mp ho
  cases ho
  cases he
  obtain ⟨state', hread', -, hholds⟩ := hf.publish_read hp hread
  exact ⟨_, state', _, [], i, [], hf.publish_verify hp h.verify, hread', rfl, rfl,
    (hholds _ List.mem_cons_self).datums⟩

/-- A journal that has begun is not opened a second time: what is there is compared. -/
theorem Begun.open_ok (hf : api.Faithful) (h : Begun api s executionId pins)
    (ho : j.open api pins' none s = (.ok st, s')) :
    j.rebuild api s = .ok st ∧ st.pins = pins' ∧ s' = s := by
  obtain ⟨x, s₁, hx, ho⟩ := Effect.bind_eq_ok_iff.mp ho
  obtain ⟨hx, rfl⟩ := Effect.observe_eq_ok_iff.mp hx
  cases Except.ok.inj hx
  cases hst : j.rebuild api s₁ with
  | ok existing =>
    rw [hst] at ho
    by_cases hpins : existing.pins = pins'
    · simp only [if_pos hpins] at ho
      cases ho
      exact ⟨rfl, hpins, rfl⟩
    · simp only [if_neg hpins] at ho
      cases ho
  | error err =>
    rw [hst] at ho
    cases err with
    | empty => ?_
    | _ => cases ho
    -- an append at no head is refused, for there is a head
    obtain ⟨head, s₂, happ, -⟩ := Effect.bind_eq_ok_iff.mp ho
    obtain ⟨⟨published, entry⟩, s₃, hadm, hp⟩ := Effect.bind_eq_ok_iff.mp happ
    obtain ⟨-, rfl⟩ := Effect.observe_eq_ok_iff.mp hadm
    replace hp := Effect.mapError_eq_ok_iff.mp hp
    obtain ⟨v, _, e, es, _, _, hv, -, he, -⟩ := h
    have hhead := (hf.verify_head hv).symm.trans (hf.publish_head hp hv)
    rw [he, Option.map_eq_none_iff, List.getLast?_eq_none_iff] at hhead
    cases hhead

end Genesis

/-! ## The pins that the codec gives back -/

/-- The algorithm of the source deck comes back split at the first slash of its text. -/
def ExecutionPins.readBack (p : ExecutionPins) : ExecutionPins :=
  { p with sourceDeck := { p.sourceDeck with
      algorithm := Reader.symbol p.sourceDeck.algorithm.display } }

/-- The texts of a pins record, shorter than their length field can count. -/
structure ExecutionPins.Counted (p : ExecutionPins) : Prop where
  conduct : p.conduct.utf8ByteSize < 2 ^ 32
  policy : p.policy.utf8ByteSize < 2 ^ 32
  sourceDeck : p.sourceDeck.algorithm.display.utf8ByteSize < 2 ^ 32
  modelPick : p.modelPick.utf8ByteSize < 2 ^ 32
  runnerGeneration : p.runnerGeneration.utf8ByteSize < 2 ^ 32

namespace Reader

theorem forces_id (i : ContentId) (h : i.algorithm.display.utf8ByteSize < 2 ^ 32) :
    Forces id (Writer.id i) { i with algorithm := symbol i.algorithm.display } := by
  have htake : Forces (take 32 >>= digest (symbol i.algorithm.display)) i.bytes
      { i with algorithm := symbol i.algorithm.display } := by
    refine (ByteReader.Gives.take i.size_bytes).forces.bind_pure ?_
    simp [digest, i.size_bytes]
  exact (forces_text h).bind htake

theorem forces_pins {p : ExecutionPins} (h : p.Counted) :
    Forces pins (Writer.pins p) p.readBack :=
  (forces_text h.conduct).bind ((forces_text h.policy).bind ((forces_id p.sourceDeck
    h.sourceDeck).bind ((forces_text h.modelPick).bind
      ((forces_text h.runnerGeneration).bind_pure rfl))))

theorem forces_opened {p : ExecutionPins} (h : p.Counted) :
    Forces (record RECORD_VERSION "execution-opened")
      (Writer.record (.executionOpened p none)) (.executionOpened p.readBack none) := by
  refine (forces_pins h).bind (Forces.bind_pure (ByteReader.Gives.forces (a := none) ?_) rfl)
  exact ByteReader.Gives.bind_pure (gives_u8 (n := 0) (by omega)) rfl

end Reader

theorem counted_of_length (h : (Writer.record (.executionOpened p none)).length ≤
    Reader.recordBound) : p.Counted := by
  have hrecord : Reader.recordBound = 6 * (4 + Reader.textBound) + 33 := rfl
  have htext : Reader.textBound = 65536 := rfl
  simp only [Writer.record, Writer.pins, Writer.id, List.length_append, Reader.length_text] at h
  constructor <;> omega

/-- A record that opens an execution is read with the pins that its codec gives back. -/
theorem decodeDatum_opened
    (h : decodeDatum (encodeDatum execution (.executionOpened p none)) =
      .ok (execution', .executionOpened p' parent)) : p' = p.readBack := by
  obtain ⟨hread, hlen⟩ := record_of_decodeDatum (by simp [ExecutionRecord.tag]) h
  rw [← List.append_nil (Writer.record _)] at hread
  cases Reader.forces_opened (counted_of_length hlen) _ _ hread
  rfl

/-! ## What the pins show of an identity -/

theorem length_hex (bytes : List UInt8) : (Text.hex bytes).toList.length = 2 * bytes.length := by
  simp [Text.hex, List.length_flatMap, Nat.mul_comm]

/-- The text of a content identity tells its digest and the text of its algorithm. -/
theorem contentIdText_eq_iff {a b : ContentId} : contentIdText a = contentIdText b ↔
    a.algorithm.display = b.algorithm.display ∧ a.bytes = b.bytes := by
  constructor
  · intro h
    have hlist := congrArg String.toList h
    simp only [contentIdText, String.toList_append] at hlist
    obtain ⟨hname, hhex⟩ := List.append_inj' hlist (by
      rw [length_hex, length_hex, a.size_bytes, b.size_bytes])
    exact ⟨String.toList_injective (List.append_inj_left' hname rfl),
      Text.hex_injective (String.toList_injective hhex)⟩
  · rintro ⟨hname, hbytes⟩
    rw [contentIdText, contentIdText, hname, hbytes]

theorem display_injective {a b : ExecTextId k} (h : a.display = b.display) : a = b := by
  obtain ⟨s, hs⟩ := a
  obtain ⟨t, ht⟩ := b
  have hlist := congrArg String.toList h
  simp only [ExecTextId.display, Symbol.qualified, Symbol.display, String.toList_append] at hlist
  cases String.toList_injective (List.append_cancel_left hlist)
  rfl

theorem ContentId.eq_of {a b : ContentId} (h : a.algorithm = b.algorithm)
    (h' : a.bytes = b.bytes) : a = b := by
  obtain ⟨_, _, _⟩ := a
  cases h
  cases h'
  rfl

/-- The two identities agree on all that the journal keeps of the first. -/
structure SamePinned (a b : ExecutionIdentity) : Prop where
  policy : a.policy = b.policy
  sourceDeck : Reader.symbol a.sourceDeck.algorithm.display = b.sourceDeck.algorithm ∧
    a.sourceDeck.bytes = b.sourceDeck.bytes
  conduct : a.conduct.algorithm.display = b.conduct.algorithm.display ∧
    a.conduct.bytes = b.conduct.bytes
  model : a.model.algorithm.display = b.model.algorithm.display ∧ a.model.bytes = b.model.bytes
  runner : a.runner.algorithm.display = b.runner.algorithm.display ∧
    a.runner.bytes = b.runner.bytes

/-- The two identities agree on all that the journal loses. -/
structure SameUnpinned (a b : ExecutionIdentity) : Prop where
  roadmap : a.roadmap = b.roadmap
  launcher : a.launcher = b.launcher
  sourceDeck : a.sourceDeck.algorithm = b.sourceDeck.algorithm
  conduct : a.conduct.algorithm = b.conduct.algorithm
  model : a.model.algorithm = b.model.algorithm
  runner : a.runner.algorithm = b.runner.algorithm

theorem readBack_eq_iff {a b : OpenRequest} : (requestPins a).readBack = requestPins b ↔
    SamePinned a.authority.identity b.authority.identity := by
  constructor
  · intro h
    obtain ⟨hconduct, hpolicy, hdeck, hmodel, hrunner⟩ := ExecutionPins.mk.inj h
    obtain ⟨halg, hbytes⟩ := ContentId.mk.inj hdeck
    exact ⟨display_injective hpolicy, ⟨halg, hbytes⟩, contentIdText_eq_iff.mp hconduct,
      contentIdText_eq_iff.mp hmodel, contentIdText_eq_iff.mp hrunner⟩
  · intro h
    simp only [requestPins, ExecutionPins.readBack, ExecutionPins.mk.injEq]
    exact ⟨contentIdText_eq_iff.mpr h.conduct, by rw [h.policy],
      ContentId.eq_of h.sourceDeck.1 h.sourceDeck.2, contentIdText_eq_iff.mpr h.model,
      contentIdText_eq_iff.mpr h.runner⟩

theorem identity_eq {a b : ExecutionIdentity} (he : a.execution = b.execution)
    (hp : SamePinned a b) (hu : SameUnpinned a b) : a = b := by
  have hdeck := ContentId.eq_of hu.sourceDeck hp.sourceDeck.2
  have hconduct := ContentId.eq_of hu.conduct hp.conduct.2
  have hmodel := ContentId.eq_of hu.model hp.model.2
  have hrunner := ContentId.eq_of hu.runner hp.runner.2
  obtain ⟨_, _, _, _, _, _, _, _⟩ := a
  cases he
  cases hp.policy
  cases hu.roadmap
  cases hu.launcher
  cases hdeck
  cases hconduct
  cases hmodel
  cases hrunner
  rfl

namespace RoadmapRunnerService
variable {σ : Type} {api : JournalApi σ}

theorem open_eq_ok_iff {r : OpenRequest} : RoadmapRunnerService.open api b r limits = .ok s ↔
    validateRequest r = .ok () ∧ ∃ opened b',
      (⟨r.authority.identity.execution.display, limits⟩ : ExecutionJournal).open api
        (requestPins r) none b = (.ok opened, b') ∧
      s = {
        journal := ⟨r.authority.identity.execution.display, limits⟩
        backend := b'
        request := r
        transition := .planned opened.openingHead.entry
        openingHead := opened.openingHead.entry
        openingGrant := r.authority.grant } := by
  simp only [RoadmapRunnerService.open, Except.bind_eq_ok_iff]
  rcases ExecutionJournal.open api
    (⟨r.authority.identity.execution.display, limits⟩ : ExecutionJournal) (requestPins r) none b
    with ⟨x | opened, b'⟩
  · simp
  · constructor
    · rintro ⟨⟨⟩, hv, hs⟩
      exact ⟨hv, opened, b', rfl, (Except.ok.inj hs).symm⟩
    · rintro ⟨hv, opened', b'', he, rfl⟩
      cases he
      exact ⟨(), hv, rfl⟩

/-- The service that opened a fresh backend has begun its journal and can rebuild it. -/
theorem begun_of_open (hf : api.Faithful) (hfresh : Fresh api b)
    (h : RoadmapRunnerService.open api b r limits = .ok s) :
    s.journal = ⟨r.authority.identity.execution.display, limits⟩ ∧
      Begun api s.backend s.journal.executionId (requestPins r) ∧
      ∃ st, s.journal.rebuild api s.backend = .ok st := by
  obtain ⟨-, opened, b', ho, rfl⟩ := open_eq_ok_iff.mp h
  obtain ⟨x, b₁, hx, ho⟩ := Effect.bind_eq_ok_iff.mp ho
  obtain ⟨hx, rfl⟩ := Effect.observe_eq_ok_iff.mp hx
  cases Except.ok.inj hx
  rw [hfresh.rebuild_eq] at ho
  obtain ⟨head, b₂, happ, ho⟩ := Effect.bind_eq_ok_iff.mp ho
  obtain ⟨hst, rfl⟩ := Effect.observe_eq_ok_iff.mp ho
  exact ⟨rfl, hfresh.begun hf happ, opened, hst⟩

/-- Opening the journal of a first request with a second one, at any later time, detects every
change of identity exactly when the two do not agree on all that the journal keeps while they
differ in what it loses: the roadmap, the launcher, or where an algorithm's text is split. -/
theorem open_detects_iff (hf : api.Faithful) (hfresh : Fresh api b) {r₁ r₂ : OpenRequest}
    (h₁ : RoadmapRunnerService.open api b r₁ limits = .ok s₁)
    (hvalid : validateRequest r₂ = .ok ())
    (hexec : r₁.authority.identity.execution = r₂.authority.identity.execution) :
    (∀ b' limits' s₂, Later api s₁.backend b' →
      RoadmapRunnerService.open api b' r₂ limits' = .ok s₂ →
        r₁.authority.identity = r₂.authority.identity) ↔
    (SamePinned r₁.authority.identity r₂.authority.identity →
      SameUnpinned r₁.authority.identity r₂.authority.identity) := by
  obtain ⟨hj, hbegun, st, hst⟩ := begun_of_open hf hfresh h₁
  have hback {b' st'} (limits' : Limits) (hb : Begun api b' s₁.journal.executionId (requestPins r₁))
      (hst' : ExecutionJournal.rebuild api ⟨s₁.journal.executionId, limits'⟩ b' = .ok st') :
      st'.pins = (requestPins r₁).readBack := by
    obtain ⟨parent, hdec⟩ := Begun.rebuild (j := ⟨s₁.journal.executionId, limits'⟩) hb hst'
    exact decodeDatum_opened hdec
  constructor
  · intro h hsame
    have hpins : st.pins = requestPins r₂ :=
      (hback s₁.journal.limits hbegun hst).trans (readBack_eq_iff.mpr hsame)
    obtain ⟨s₂, hopen⟩ : ∃ s₂, RoadmapRunnerService.open api s₁.backend r₂ limits = .ok s₂ := by
      refine ⟨_, open_eq_ok_iff.mpr ⟨hvalid, st, s₁.backend, ?_, rfl⟩⟩
      rw [hj, hexec] at hst
      simp only [ExecutionJournal.open, Bind.bind, Effect.bind, Effect.observe, hst, if_pos hpins]
      rfl
    rw [h _ _ _ .refl hopen]
    exact ⟨rfl, rfl, rfl, rfl, rfl, rfl⟩
  · intro h b' limits' s₂ hlater h₂
    obtain ⟨-, st', b'', ho, -⟩ := open_eq_ok_iff.mp h₂
    have hb := hbegun.later hf hlater
    obtain ⟨hst', hpins, -⟩ := hb.open_ok hf ho
    rw [← hexec, show r₁.authority.identity.execution.display = s₁.journal.executionId by
      rw [hj]] at hst'
    have hsame := readBack_eq_iff.mp ((hback limits' hb hst').symm.trans hpins)
    exact identity_eq hexec hsame (h hsame)

/-! ## The state of an opened or resumed service -/

/-- The backend holds no journal, or one that records no state but the first. -/
def RecordsPlanned (api : JournalApi σ) (j : ExecutionJournal) (b : σ) : Prop :=
  ∀ st, j.rebuild api b = .ok st → currentState st.records = "planned"

/-- Resuming is refused, or the receipts of the adapter replay to the state that the journal
records. -/
def Replays (api : JournalApi σ) (ports : Ports) (authority : AuthorityGrant)
    (s : RoadmapRunnerService σ) : Prop :=
  authority.identity = s.request.authority.identity → authority.grant ≠ s.openingGrant →
    authority.ceiling.isNarrowerThan s.request.authority.ceiling →
    ∀ t st, s.replay ports = .ok t → s.journal.rebuild api s.backend = .ok st →
      currentState st.records = stateText t.state

/-- The services that opening, advancing (which also cancels) and resuming lead to, when each
opening finds a journal in the first state and each resume replays to the recorded state. -/
inductive Ran (api : JournalApi σ) : RoadmapRunnerService σ → Prop
  | opened {r : OpenRequest} : RoadmapRunnerService.open api b r limits = .ok s →
    RecordsPlanned api s.journal b → Ran api s
  | advanced : Ran api s → Ran api (advanceOneEffect api ports s).2
  | resumed : Ran api s → Replays api ports authority s → Ran api (resume api ports authority s).2

theorem isOpened_of_tag {r : ExecutionRecord} (h : r.tag = "execution-opened") :
    r.isOpened = true := by
  cases r with
  | executionOpened => rfl
  | _ => simp [ExecutionRecord.tag] at h

/-- The journal that an accepted opening leaves records no state. -/
theorem currentState_of_opened (hf : api.Faithful) {j : ExecutionJournal}
    (hempty : j.rebuild api b = .error .empty)
    (ha : j.append api none (.executionOpened pins none) [] b = (.ok head, b'))
    (hst : j.rebuild api b' = .ok st) : currentState st.records = "planned" := by
  obtain ⟨state, v, hread, hv⟩ : ∃ state v, api.readState b = .ok state ∧ api.verify b = .ok v := by
    simp only [ExecutionJournal.rebuild] at hempty
    cases hr : api.readState b with
    | error e => rw [hr] at hempty; cases hempty
    | ok state =>
      cases hv : api.verify b with
      | error e => rw [hr, hv] at hempty; cases hempty
      | ok v => exact ⟨state, v, rfl, rfl⟩
  obtain ⟨⟨published, entry⟩, b₁, hadm, hp⟩ := Effect.bind_eq_ok_iff.mp ha
  obtain ⟨hadm, rfl⟩ := Effect.observe_eq_ok_iff.mp hadm
  replace hp := Effect.mapError_eq_ok_iff.mp hp
  simp only [ExecutionJournal.admitRecord, Except.bind_eq_ok_iff, Except.guard_eq_ok_iff,
    Except.mapError_eq_ok_iff] at hadm
  obtain ⟨_, -, _, -, o, ho, -, _, -, _, -, -, -, -, he⟩ := hadm
  obtain ⟨⟨i, bytes⟩, -, ho⟩ := Except.bind_eq_ok_iff.mp ho
  cases ho
  cases he
  obtain ⟨state', v', emptySet, r, hl, -, hfin⟩ := ExecutionJournal.loaded_of_rebuild hst
  cases hl.verify.symm.trans (hf.publish_verify hp hv)
  obtain ⟨u, hu, hstep⟩ := Run.foldlM_concat_eq_ok_iff.mp hl.run
  obtain ⟨first, rest, value, _, record, cause, hacc⟩ := Replay.step_eq_ok_iff.mp hstep
  obtain ⟨state'', hread', -, hholds⟩ := hf.publish_read hp hread
  cases hl.read.symm.trans hread'
  have hdatum := (hholds _ List.mem_cons_self).datums
  cases hacc.payloads
  cases hdatum.symm.trans hacc.datum
  have hopened := isOpened_of_tag (tag_of_decodeDatum hacc.decoded)
  have hpins := hacc.follows.isOpened_eq
  rw [hopened] at hpins
  obtain ⟨-, _, _, -, -, hrec⟩ := ExecutionJournal.finish_eq_ok_iff.mp hfin
  rcases Replay.opens_of_run hu with ⟨-, rfl⟩ | ⟨_, _, _, _, _, -, -, hsome, -⟩
  · rw [hrec, hacc.result]
    cases record with
    | executionOpened => rfl
    | _ => cases hopened
  · rw [hsome] at hpins
    cases hpins

theorem open_agrees_iff (hf : api.Faithful) {r : OpenRequest}
    (h : RoadmapRunnerService.open api b r limits = .ok s) :
    Agrees api s ↔ RecordsPlanned api s.journal b := by
  obtain ⟨-, opened, b', ho, rfl⟩ := open_eq_ok_iff.mp h
  obtain ⟨x, b₁, hx, ho⟩ := Effect.bind_eq_ok_iff.mp ho
  obtain ⟨hx, rfl⟩ := Effect.observe_eq_ok_iff.mp hx
  cases Except.ok.inj hx
  set j : ExecutionJournal := ⟨r.authority.identity.execution.display, limits⟩ with hj
  cases hst : j.rebuild api b₁ with
  | ok existing =>
    rw [hst] at ho
    by_cases hpins : existing.pins = requestPins r
    · simp only [if_pos hpins] at ho
      cases ho
      exact ⟨fun hs st hst' => hs.state hst', fun hp => ⟨fitsText_display _, fun {st} => hp st⟩⟩
    · simp only [if_neg hpins] at ho
      cases ho
  | error err =>
    rw [hst] at ho
    cases err with
    | empty => ?_
    | _ => cases ho
    obtain ⟨head, b₂, happ, ho⟩ := Effect.bind_eq_ok_iff.mp ho
    obtain ⟨hst', rfl⟩ := Effect.observe_eq_ok_iff.mp ho
    refine ⟨fun _ st hok => ?_, fun _ => ⟨fitsText_display _, fun {st} hok => ?_⟩⟩
    · cases hst.symm.trans hok
    · exact currentState_of_opened hf hst happ hok

variable (api) in
/-- A resume that is refused leaves the service; one that is not sets the transition. -/
theorem resume_cases (ports : Ports) (authority : AuthorityGrant) (s : RoadmapRunnerService σ) :
    ((resume api ports authority s).2 = s ∧
      (authority.identity = s.request.authority.identity → authority.grant ≠ s.openingGrant →
        authority.ceiling.isNarrowerThan s.request.authority.ceiling →
        ∀ t, s.replay ports ≠ .ok t)) ∨
    ∃ t, s.replay ports = .ok t ∧ authority.identity = s.request.authority.identity ∧
      authority.grant ≠ s.openingGrant ∧
      authority.ceiling.isNarrowerThan s.request.authority.ceiling = true ∧
      (resume api ports authority s).2 =
        { s with transition := t, request := { s.request with authority } } := by
  by_cases hid : authority.identity = s.request.authority.identity
  swap
  · refine .inl ⟨?_, fun h => absurd h hid⟩
    simp [resume, Bind.bind, Effect.bind, Effect.get, Effect.observe, hid]
  by_cases hgrant : authority.grant = s.openingGrant
  · refine .inl ⟨?_, fun _ h => absurd hgrant h⟩
    simp [resume, Bind.bind, Effect.bind, Effect.get, Effect.observe, hid, hgrant]
  by_cases hceil : authority.ceiling.isNarrowerThan s.request.authority.ceiling
  swap
  · refine .inl ⟨?_, fun _ _ h => absurd h hceil⟩
    simp [resume, Bind.bind, Effect.bind, Effect.get, Effect.observe, hid, hgrant,
      hceil]
  cases ht : s.replay ports with
  | error e =>
    refine .inl ⟨?_, fun _ _ _ t h => nomatch h⟩
    simp [resume, Bind.bind, Effect.bind, Effect.get, Effect.observe, Effect.ofExcept, hid, hgrant,
      hceil, ht]
  | ok t =>
    refine .inr ⟨t, rfl, hid, hgrant, hceil, ?_⟩
    simp only [resume, Bind.bind, Effect.bind, Effect.get, Effect.observe, hid, ne_eq,
      not_true_eq_false, if_false, hgrant, hceil, Bool.not_true, Bool.false_eq_true,
      Effect.ofExcept, ht, Effect.modify]
    have hkeeps (s : RoadmapRunnerService σ) : (inspect api s).2 = s := by
      simp only [inspect, rebuild, onJournal, Bind.bind, Effect.bind, Effect.get, Effect.observe,
        Effect.mapError, Effect.focus]
      cases s.journal.rebuild api s.backend <;> rfl
    rw [hkeeps]

theorem resume_agrees_iff (hs : Agrees api s) (ports : Ports) (authority : AuthorityGrant) :
    Agrees api (resume api ports authority s).2 ↔ Replays api ports authority s := by
  obtain ⟨heq, hnone⟩ | ⟨t, ht, hid, hgrant, hceil, heq⟩ :=
    resume_cases api ports authority s
  · rw [heq]
    exact ⟨fun _ hid hg hc t st ht => absurd ht (hnone hid hg hc t), fun _ => hs⟩
  · rw [heq]
    constructor
    · intro h _ _ _ t' st ht' hst
      cases ht.symm.trans ht'
      exact h.state hst
    · intro h
      exact ⟨hs.named, fun {st} hst => h hid hgrant hceil t st ht hst⟩

theorem Ran.agrees (hf : api.Faithful) (h : Ran api s) : Agrees api s := by
  induction h with
  | opened ho hp => exact (open_agrees_iff hf ho).mpr hp
  | advanced _ ih => exact (advance_keeps hf _).final ih
  | resumed _ hr ih => exact (resume_agrees_iff ih _ _).mpr hr

/-- The state of a service is the one that the journal records, in every service that runs lead
to, whether their calls succeed or fail; and this needs each opening to find a journal in the
first state and each resume to replay to the recorded state. -/
theorem state_follows_journal (hf : api.Faithful) :
    (∀ s, Ran api s → Agrees api s) ∧
    (∀ b r limits s, RoadmapRunnerService.open api b r limits = .ok s →
      (Agrees api s ↔ RecordsPlanned api s.journal b)) ∧
    ∀ s ports authority, Ran api s →
      (Agrees api (resume api ports authority s).2 ↔ Replays api ports authority s) :=
  ⟨fun _ h => h.agrees hf, fun _ _ _ _ h => open_agrees_iff hf h,
    fun _ ports authority h => resume_agrees_iff (h.agrees hf) ports authority⟩

end RoadmapRunnerService

namespace Sample
open RoadmapRunnerService

def reopened (r : OpenRequest) (b : Memory.Backend) :
    Except ServiceError (RoadmapRunnerService Memory.Backend) :=
  RoadmapRunnerService.open Memory.api b r .default

/-- The request with another identity. -/
def withIdentity (identity : ExecutionIdentity) : OpenRequest :=
  { openRequest with authority := { openRequest.authority with identity } }

def otherConduct : OpenRequest :=
  withIdentity { openRequest.authority.identity with conduct := contentId 8 }

def otherLauncher : OpenRequest :=
  withIdentity { openRequest.authority.identity with launcher := contentId 8 }

theorem fresh_empty : Fresh Memory.api .empty := ⟨⟨_, rfl⟩, rfl⟩

theorem ran_service : Ran Memory.api service := by
  have hopen : RoadmapRunnerService.open Memory.api .empty openRequest .default = .ok service :=
    opening_service
  refine .opened hopen ?_
  intro st hst
  rw [fresh_empty.rebuild_eq] at hst
  cases hst

theorem ran_running : Ran Memory.api running := by
  rw [running]
  exact .advanced ran_service

/-- The journals of the first and of the second state are opened, for another launcher and
again. -/
theorem reopened_evaluated :
    (reopened otherLauncher service.backend).isOk ∧
    (reopened openRequest running.backend).map (fun s =>
      (s.transition.state, (s.journal.rebuild Memory.api s.backend).map (currentState ·.records))) =
      .ok (.planned, .ok "running") := by
  decide +kernel

end Sample

open Sample RoadmapRunnerService in
/-- A change of the conduct is detected, whatever has been journaled since. -/
theorem open_detects_other_conduct :
    RoadmapRunnerService.open Memory.api .empty openRequest .default = .ok service ∧
      ∀ b' limits' s₂, Later Memory.api service.backend b' →
        RoadmapRunnerService.open Memory.api b' otherConduct limits' ≠ .ok s₂ := by
  refine ⟨opening_service, ?_⟩
  intro b' limits' s₂ hlater h₂
  have hvalid : validateRequest otherConduct = .ok () := rfl
  have hiff := open_detects_iff Memory.faithful fresh_empty opening_service hvalid rfl
  have hsame := hiff.mpr (fun h => absurd h.conduct.2 (by decide)) b' limits' s₂ hlater h₂
  exact absurd hsame (by decide)

open Sample in
/-- The journal of one launcher opens for another. -/
theorem other_launcher_opens :
    opening = .ok service ∧ validateRequest openRequest = .ok () ∧
      validateRequest otherLauncher = .ok () ∧
      otherLauncher.authority.identity.execution = openRequest.authority.identity.execution ∧
      otherLauncher.authority.identity ≠ openRequest.authority.identity ∧
      ∃ s, reopened otherLauncher service.backend = .ok s := by
  exact ⟨opening_service, rfl, rfl, rfl, by decide, Except.exists_of_isOk reopened_evaluated.1⟩

open Sample RoadmapRunnerService in
theorem state_follows_journal_running :
    Ran Memory.api running ∧ RoadmapRunnerService.Agrees Memory.api running :=
  ⟨ran_running, (state_follows_journal Memory.faithful).1 running ran_running⟩

open Sample RoadmapRunnerService in
/-- The journal of a running execution is opened again: the service is in the first state, and
the journal records the second. -/
theorem reopened_service_planned :
    Ran Memory.api running ∧ ∃ s st, reopened openRequest running.backend = .ok s ∧
      s.journal.rebuild Memory.api s.backend = .ok st ∧ s.transition.state = .planned ∧
      currentState st.records = "running" := by
  refine ⟨ran_running, ?_⟩
  obtain ⟨s, hs, hpair⟩ := Except.map_eq_ok_iff.mp reopened_evaluated.2
  obtain ⟨hplanned, hrec⟩ := Prod.mk.inj hpair
  obtain ⟨st, hst, hcur⟩ := Except.map_eq_ok_iff.mp hrec
  exact ⟨s, st, hs, hst, hplanned, hcur⟩

end SimAgentNet.RoadmapRunner
