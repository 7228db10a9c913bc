import SimAgentNet.RoadmapRunner.Rebuild

/-! # The causal ledger

What the checked writers are for: a ledger of facts and evidence that deltas extend and snapshots
record. A session is a sequence of successful calls of `open`, `appendDelta` and `snapshot` on one
journal. `Session.refines` shows that rebuilding the journal gives the ledger of the session's
answers, as long as what is written fits the codec. -/

namespace SimAgentNet.RoadmapRunner

/-! ## The abstract ledger -/

inductive Call where
  | «open» (pins : ExecutionPins) (expected : Option JournalHead)
  | delta (expected : JournalHead) (cause : String) (changes : List SemanticChange)
    (evidence : SortedSet ContentId)
  | snapshot (expected : JournalHead)

inductive Answer where
  | opened (state : RebuiltExecution)
  | delta (result : DeltaAppend)
  | snapshot (snapshot : VerifiedSnapshot)

/-- Facts and evidence, and for each snapshot the entry it covers with the state it was made in. -/
structure Ledger where
  causal : CausalState
  snapshots : List (ContentId × CausalState)

namespace Ledger

def init : Ledger := ⟨.default, []⟩

/-- One answered call: an appended delta sets its facts and adds its evidence. -/
def step (l : Ledger) : Call × Answer → Ledger
  | (.delta _ _ changes evidence, .delta (.appended _)) =>
    { l with causal := ⟨changes.foldl setFact l.causal.facts, l.causal.evidence ∪ evidence⟩ }
  | (.snapshot expected, .snapshot _) =>
    { l with snapshots := l.snapshots ++ [(expected.entry, l.causal)] }
  | _ => l

def ofLog (log : List (Call × Answer)) : Ledger := log.foldl step init

end Ledger

/-- Every appended delta found the prior values of its changes. -/
def PriorsMatched : Ledger → List (Call × Answer) → Prop
  | _, [] => True
  | l, (c, a) :: log =>
    (match c, a with
      | .delta _ _ changes _, .delta (.appended _) => BeforeMatches l.causal.facts changes
      | _, _ => True) ∧ PriorsMatched (l.step (c, a)) log

theorem PriorsMatched.concat (h : PriorsMatched l log)
    (hc : PriorsMatched (log.foldl Ledger.step l) [e]) : PriorsMatched l (log ++ [e]) := by
  induction log generalizing l with
  | nil => exact hc
  | cons e' log ih => exact ⟨h.1, ih h.2 hc⟩

section Writers
variable {σ : Type} {api : JournalApi σ} {j : ExecutionJournal}

/-! ## What each writer leaves -/

/-- A journal that loads and is rebuilt as `st`. -/
structure Ready (api : JournalApi σ) (j : ExecutionJournal) (s : σ) (state : StoredState)
    (v : Verification) (emptySet : ContentId) (r : Replay) (st : RebuiltExecution) : Prop
    extends Loaded api j s state v emptySet r where
  atHead : v.head = some st.head
  finished : j.finish st.head v.entries r = .ok st

theorem Ready.rebuild (h : Ready api j s state v emptySet r st) : j.rebuild api s = .ok st := by
  rw [h.toLoaded.rebuild_eq, h.atHead]
  exact h.finished

theorem Ready.causal (h : Ready api j s state v emptySet r st) : st.causal = r.cause.causal := by
  obtain ⟨-, _, _, -, -, he⟩ := ExecutionJournal.finish_eq_ok_iff.mp h.finished
  rw [he]

theorem Ready.snapshots (h : Ready api j s state v emptySet r st) :
    st.snapshots = r.cause.snapshots := by
  obtain ⟨-, _, _, -, -, he⟩ := ExecutionJournal.finish_eq_ok_iff.mp h.finished
  rw [he]

theorem Loaded.put (hf : api.Faithful) (h : Loaded api j s state v emptySet r)
    (hp : (api.put d s).2 = s') : ∃ state', Loaded api j s' state' v emptySet r := by
  obtain ⟨state', hread, hle⟩ := hf.put_read hp h.read
  exact ⟨state', hread, by rw [hf.put_verify hp, h.verify], h.root, Replay.run_mono hle h.run⟩

/-- A prepared datum is an object with the datum's identity; the chain is not touched. -/
theorem Loaded.prepareDatum (hf : api.Faithful) (h : Loaded api j s state v emptySet r)
    (hp : j.prepareDatum api kind value summary s = (.ok p, s')) :
    p.object.datum = value ∧ api.contentId value = some p.object.id ∧
      p.reference.content = p.object.id ∧ ∃ state', Loaded api j s' state' v emptySet r := by
  obtain ⟨o, s₁, ho, hp⟩ := Effect.bind_eq_ok_iff.mp hp
  obtain ⟨hobj, rfl⟩ := Effect.ofExcept_eq_ok_iff.mp ho
  obtain ⟨⟨i, bytes⟩, hd, ho'⟩ := Except.bind_eq_ok_iff.mp (Except.mapError_eq_ok_iff.mp hobj)
  cases ho'
  split at hp
  · cases hp
  · obtain ⟨stored, s₂, hs, hp⟩ := Effect.bind_eq_ok_iff.mp hp
    have hs := Effect.mapError_eq_ok_iff.mp hs
    split at hp
    · cases hp
    · cases hp
      exact ⟨rfl, hf.datum_id hd, rfl, h.put hf (by rw [hs])⟩

/-- An accepted append whose record fits, whose objects are supplied and whose cause is accepted
leaves a journal that is rebuilt with that record and that cause. -/
theorem Loaded.append_ready (hf : api.Faithful) (h : Loaded api j s state v emptySet r)
    {objects : List PreparedObject}
    (ha : j.append api expected record objects s = (.ok head, s'))
    (hfits : FitsText j.executionId ∧ record.Fits)
    (hsub : recordRefs record ⊆ .ofList (objects.map (·.object.id))) (cause : CausalReplay)
    (hcause : ∀ state' entry, (∀ p ∈ objects, StoredState.Holds state' p.object) →
      entry.previous = v.head.map (·.entry) →
      replayCause api state' r.cause entry record = .ok cause) :
    ∃ state' v' r' st', Ready api j s' state' v' emptySet r' st' ∧ st'.head = head ∧
      (∃ n previous kind payloads, head.entry = api.entryId n previous kind payloads) ∧
      r'.cause = cause := by
  obtain ⟨state', o, entry, happ⟩ := h.append hf ha
  have hs := Replay.sound_of_run h.run
  have hprev : entry.previous = v.head.map (·.entry) := by
    rw [happ.admitted.previous, happ.expected_eq]
  obtain ⟨r', hr', hrec, hc⟩ :=
    (happ.step_iff hs).mpr ⟨hfits, hsub, hcause state' entry happ.holds hprev⟩
  obtain ⟨st', hfin⟩ := happ.finish_ok hs hr' hrec
  have hhead : st'.head = head := by
    obtain ⟨-, _, _, -, -, he⟩ := ExecutionJournal.finish_eq_ok_iff.mp hfin
    rw [he]
  have hentry : head = ⟨entry.sequence, entry.id⟩ := by
    have := hf.verify_head happ.verify
    simpa using this
  exact ⟨state', _, r', st', ⟨happ.loaded hr', by rw [hhead], by rw [hhead]; exact hfin⟩, hhead,
    ⟨_, _, _, _, by rw [hentry]; exact happ.admitted.id⟩, hc⟩

def FitsDelta (cause : String) (changes : List SemanticChange) : Prop :=
  FitsText cause ∧ changes.length ≤ Reader.changeBound ∧ ∀ c ∈ changes, FitsChange c

/-- A delta that returns was made at the head, with prior values that match. It answers
`unchanged` and writes nothing, or it appends one record with the root of the joined evidence. -/
theorem Ready.appendDelta (h : Ready api j s state v emptySet r st)
    (hd : j.appendDelta api expected cause changes evidence s = (.ok a, s')) :
    st.head = expected ∧ (∀ c ∈ changes, c.key ≠ "") ∧ (changes.map (·.key)).Nodup ∧
      BeforeMatches st.causal.facts changes ∧
      ((a = .unchanged st.head ∧ s' = s ∧ anyChange changes = false ∧
          evidence ⊆ st.causal.evidence) ∨
        ∃ head p s₁, a = .appended head ∧ (anyChange changes ∨ ¬evidence ⊆ st.causal.evidence) ∧
          j.prepareDatum api .evidenceSet (evidenceSetDatum (st.causal.evidence ∪ evidence))
            "persistent evidence set root" s = (.ok p, s₁) ∧
          j.append api (some expected) (.semanticDelta cause changes p.reference.content) [p] s₁ =
            (.ok head, s')) := by
  unfold ExecutionJournal.appendDelta at hd
  split at hd
  · cases hd
  · obtain ⟨st₁, s₁, hst, hd⟩ := Effect.bind_eq_ok_iff.mp hd
    obtain ⟨hst, rfl⟩ := Effect.observe_eq_ok_iff.mp hst
    cases hst.symm.trans h.rebuild
    split at hd
    · cases hd
    · rename_i hhead
      obtain ⟨⟨facts, changed⟩, s₂, hap, hd⟩ := Effect.bind_eq_ok_iff.mp hd
      obtain ⟨happlied, rfl⟩ := Effect.ofExcept_eq_ok_iff.mp hap
      obtain ⟨hk, hnd, hb, -, rfl⟩ := applyChanges_ok_iff.mp happlied
      refine ⟨not_not.mp hhead, hk, hnd, hb, ?_⟩
      simp only [SortedSet.card_union_eq_iff] at hd
      split at hd
      · rename_i hc
        cases hd
        exact .inl ⟨rfl, rfl, by simpa using hc.1, hc.2⟩
      · rename_i hc
        obtain ⟨p, s₃, hp, hd⟩ := Effect.bind_eq_ok_iff.mp hd
        obtain ⟨head, s₄, hh, hd⟩ := Effect.bind_eq_ok_iff.mp hd
        cases hd
        refine .inr ⟨head, p, s₃, rfl, ?_, hp, hh⟩
        rcases not_and_or.mp hc with hc | hc
        · exact .inl (by simpa using hc)
        · exact .inr hc

/-- An appended delta that fits is rebuilt as the changes applied and the evidence joined. -/
theorem Ready.appendDelta_ready (hf : api.Faithful) (hids : api.PlainIds)
    (h : Ready api j s state v emptySet r st) (hid : FitsText j.executionId)
    (hfits : FitsDelta cause changes)
    (hd : j.appendDelta api expected cause changes evidence s = (.ok (.appended head), s')) :
    ∃ state' v' r' st' root, Ready api j s' state' v' emptySet r' st' ∧ st'.head = head ∧
      FitsId head.entry ∧
      api.contentId (evidenceSetDatum (st.causal.evidence ∪ evidence)) = some root ∧
      r'.cause = { r.cause with
        causal := ⟨changes.foldl setFact st.causal.facts, st.causal.evidence ∪ evidence⟩
        evidenceSet := root } := by
  obtain ⟨hhead, hk, hnd, hb, hcase⟩ := h.appendDelta hd
  obtain ⟨ha, -⟩ | ⟨_, p, s₁, ha, hch, hp, happ⟩ := hcase
  · cases ha
  · cases ha
    obtain ⟨hdat, hroot, href, state₁, hl⟩ := h.toLoaded.prepareDatum hf hp
    have hmem : p.object.id ∈ SortedSet.ofList ([p].map (·.object.id)) := by simp
    have hsub : recordRefs (.semanticDelta cause changes p.reference.content) ⊆
        .ofList ([p].map (·.object.id)) := by
      intro i hi
      rcases SortedSet.mem_insert.mp hi with rfl | hi
      · rw [href]; exact hmem
      · exact absurd hi (SortedSet.not_mem_empty i)
    have hne : anyChange changes ∨ st.causal.evidence ∪ evidence ≠ st.causal.evidence := by
      refine hch.imp id fun hsub he => hsub ?_
      rw [← he]
      exact fun a ha => SortedSet.mem_union.mpr (.inr ha)
    obtain ⟨state', v', r', st', hr, hh, ⟨n, previous, kind, payloads, hent⟩, hc⟩ :=
      hl.append_ready hf happ ⟨hid, hfits.1, hfits.2, href ▸ hids.content hroot⟩ hsub
        { r.cause with
          causal := ⟨changes.foldl setFact st.causal.facts, st.causal.evidence ∪ evidence⟩
          evidenceSet := p.object.id }
        (by
          intro state' entry hholds _
          refine replayDelta_eq_ok_iff.mpr ⟨_, _, _, st.causal.evidence ∪ evidence,
            applyChanges_ok_iff.mpr ⟨hk, hnd, h.causal ▸ hb, rfl, rfl⟩, ?_,
            parseEvidenceSet_evidenceSetDatum _, ?_, ?_, ?_⟩
          · rw [href, ← hdat]
            exact (hholds p List.mem_cons_self).datums
          · rw [← h.causal]
            exact SortedSet.subset_union_left _ _
          · rw [← h.causal]
            exact hne
          · rw [h.causal, href])
    exact ⟨state', v', r', st', p.object.id, hr, hh, hent ▸ hids.entry, hroot, hc⟩

/-- A snapshot that returns is rebuilt as one more snapshot, of the head it was made at. -/
theorem Ready.snapshot_ready (hf : api.Faithful) (hids : api.PlainIds)
    (h : Ready api j s state v emptySet r st) (hid : FitsText j.executionId)
    (hentry : FitsId st.head.entry)
    (hroot : api.contentId (evidenceSetDatum st.causal.evidence) = some r.cause.evidenceSet)
    (hs : j.snapshot api expected s = (.ok snap, s')) :
    st.head = expected ∧ snap.covers = expected.entry ∧
      snap.evidenceSet = r.cause.evidenceSet ∧
      api.contentId (causalStateDatum st.causal snap.evidenceSet) = some snap.state ∧
      ∃ state' v' r' st', Ready api j s' state' v' emptySet r' st' ∧ FitsId st'.head.entry ∧
        r'.cause = { r.cause with snapshots := r.cause.snapshots ++ [snap] } := by
  obtain ⟨st₁, s₁, hobs, hs₁⟩ := Effect.bind_eq_ok_iff.mp hs
  obtain ⟨hst, rfl⟩ := Effect.observe_eq_ok_iff.mp hobs
  cases hst.symm.trans h.rebuild
  split at hs₁
  · cases hs₁
  · rename_i hhead
    obtain ⟨root, s₂, hobs₂, hs₂⟩ := Effect.bind_eq_ok_iff.mp hs₁
    obtain ⟨hr, rfl⟩ := Effect.ofExcept_eq_ok_iff.mp hobs₂
    have hroot' : root = r.cause.evidenceSet := by
      rw [ExecutionJournal.rootOf, hroot] at hr
      exact (Except.ok.inj hr).symm
    obtain ⟨p, s₃, hp, hs₃⟩ := Effect.bind_eq_ok_iff.mp hs₂
    obtain ⟨head, s₄, happ, hs₄⟩ := Effect.bind_eq_ok_iff.mp hs₃
    cases hs₄
    have hhead : st.head = expected := not_not.mp hhead
    obtain ⟨hdat, hstate, href, state₁, hl⟩ := h.toLoaded.prepareDatum hf hp
    have hsub : recordRefs (.snapshot expected.entry p.reference.content root) ⊆
        .ofList ([p].map (·.object.id)) := by
      intro i hi
      rcases SortedSet.mem_insert.mp hi with rfl | hi
      · rw [href]; simp
      · exact absurd hi (SortedSet.not_mem_empty i)
    have hfits : FitsId expected.entry ∧ FitsId p.reference.content ∧ FitsId root :=
      ⟨hhead ▸ hentry, href ▸ hids.content hstate, hroot' ▸ hids.content hroot⟩
    refine ⟨hhead, rfl, hroot', by rw [href]; exact hstate, ?_⟩
    obtain ⟨state', v', r', st', hready, hh, ⟨n, previous, kind, payloads, hent⟩, hc⟩ :=
      hl.append_ready hf happ ⟨hid, hfits⟩ hsub
        { r.cause with
          snapshots := r.cause.snapshots ++ [⟨expected.entry, p.reference.content, root⟩] }
        (by
          intro state' entry hholds hprev
          refine replaySnapshot_eq_ok_iff.mpr ⟨?_, hroot', ?_, ?_, rfl⟩
          · rw [hprev, h.atHead, hhead]; rfl
          · rw [href, ← h.causal, ← hdat]
            exact (hholds p List.mem_cons_self).datums
          · rw [href, ← h.causal]
            exact hstate)
    exact ⟨state', v', r', st', hready, by rw [hh, hent]; exact hids.entry, hc⟩

/-- Opening a journal that is rebuilt already returns that state and writes nothing. -/
theorem Ready.open_eq (h : Ready api j s state v emptySet r st)
    (ho : j.open api pins expected s = (.ok a, s')) : a = st ∧ s' = s := by
  obtain ⟨x, s₁, hx, ho⟩ := Effect.bind_eq_ok_iff.mp ho
  obtain ⟨hx, rfl⟩ := Effect.observe_eq_ok_iff.mp hx
  cases Except.ok.inj hx
  rw [h.rebuild] at ho
  simp only at ho
  split at ho
  · cases ho; exact ⟨rfl, rfl⟩
  · cases ho

/-- A backend without entries. -/
structure Fresh (api : JournalApi σ) (s : σ) : Prop where
  read : ∃ state, api.readState s = .ok state
  verify : api.verify s = .ok ⟨[], none⟩

theorem Fresh.rebuild_eq (h : Fresh api s) : j.rebuild api s = .error .empty := by
  obtain ⟨state, hread⟩ := h.read
  simp [ExecutionJournal.rebuild, hread, h.verify, Except.mapError, Except.ok_bind]

/-- Opening a fresh journal leaves one that is rebuilt without facts, evidence or snapshots. -/
theorem Fresh.open_ready (hf : api.Faithful) (hids : api.PlainIds) (h : Fresh api s)
    (hid : FitsText j.executionId) (hpins : FitsPins pins)
    (ho : j.open api pins expected s = (.ok st, s')) :
    ∃ state v emptySet r, Ready api j s' state v emptySet r st ∧ FitsId st.head.entry ∧
      r.cause = { causal := .default, snapshots := [], evidenceSet := emptySet } := by
  obtain ⟨state, hread⟩ := h.read
  obtain ⟨x, s₁, hx, ho⟩ := Effect.bind_eq_ok_iff.mp ho
  obtain ⟨hx, rfl⟩ := Effect.observe_eq_ok_iff.mp hx
  cases Except.ok.inj hx
  rw [h.rebuild_eq] at ho
  obtain ⟨head, s₂, happ, ho⟩ := Effect.bind_eq_ok_iff.mp ho
  obtain ⟨hst, rfl⟩ := Effect.observe_eq_ok_iff.mp ho
  obtain ⟨_, _, emptySet, _, hloaded, -, -⟩ := ExecutionJournal.loaded_of_rebuild hst
  have hl : Loaded api j s₁ state ⟨[], none⟩ emptySet (.init emptySet) :=
    ⟨hread, h.verify, hloaded.root, rfl⟩
  obtain ⟨state', v', r', st', hready, hh, ⟨n, previous, kind, payloads, hent⟩, hc⟩ :=
    hl.append_ready hf happ ⟨hid, hpins, nofun⟩ nofun _ (fun _ _ _ _ => rfl)
  cases hst.symm.trans hready.rebuild
  exact ⟨state', v', emptySet, r', hready, by rw [hh, hent]; exact hids.entry, hc⟩

end Writers

/-! ## Sessions -/

section Sessions
variable {σ : Type} {api : JournalApi σ} {j : ExecutionJournal}

def Call.perform (api : JournalApi σ) (j : ExecutionJournal) : Call → JournalEffect σ Answer
  | .open pins expected => do return .opened (← j.open api pins expected)
  | .delta expected cause changes evidence => do
    return .delta (← j.appendDelta api expected cause changes evidence)
  | .snapshot expected => do return .snapshot (← j.snapshot api expected)

/-- What the call writes in the current state, if anything, fits the codec. -/
def Call.FitsIn (current : Option RebuiltExecution) : Call → Prop
  | .open pins _ => current = none → FitsPins pins
  | .delta _ cause changes evidence => ∀ st ∈ current,
    anyChange changes ∨ ¬evidence ⊆ st.causal.evidence → FitsDelta cause changes
  | .snapshot _ => True

/-- Successful calls on one journal, with their answers. -/
inductive Session (api : JournalApi σ) (j : ExecutionJournal) (s₀ : σ) :
    List (Call × Answer) → σ → Prop
  | nil : Session api j s₀ [] s₀
  | snoc {c : Call} {a : Answer} : Session api j s₀ log s → j.current api s = .ok current →
    c.FitsIn current → c.perform api j s = (.ok a, s') → Session api j s₀ (log ++ [(c, a)]) s'

/-- The snapshot names the covered entry, and the identities are those of the ledger's state when
it was made. -/
structure Describes (api : JournalApi σ) (snap : VerifiedSnapshot)
    (e : ContentId × CausalState) : Prop where
  covers : snap.covers = e.1
  root : api.contentId (evidenceSetDatum e.2.evidence) = some snap.evidenceSet
  state : api.contentId (causalStateDatum e.2 snap.evidenceSet) = some snap.state

/-- The invariant of a session: the journal is rebuilt as the ledger of the answers. -/
structure Tracks (api : JournalApi σ) (j : ExecutionJournal) (log : List (Call × Answer)) (s : σ)
    (state : StoredState) (v : Verification) (emptySet : ContentId) (r : Replay)
    (st : RebuiltExecution) : Prop extends Ready api j s state v emptySet r st where
  entryFits : FitsId st.head.entry
  ledger : st.causal = (Ledger.ofLog log).causal
  rootOf : api.contentId (evidenceSetDatum st.causal.evidence) = some r.cause.evidenceSet
  described : List.Forall₂ (Describes api) st.snapshots (Ledger.ofLog log).snapshots
  priors : PriorsMatched .init log

theorem Ledger.ofLog_concat (log : List (Call × Answer)) (e : Call × Answer) :
    ofLog (log ++ [e]) = (ofLog log).step e := by
  simp [ofLog]

/-- The current state of a journal that is rebuilt. -/
theorem Ready.current (h : Ready api j s state v emptySet r st) (hc : j.current api s = .ok c) :
    c = some st := by
  rw [ExecutionJournal.current, h.rebuild] at hc
  exact (Except.ok.inj hc).symm

theorem Tracks.delta (hf : api.Faithful) (hids : api.PlainIds) (hid : FitsText j.executionId)
    (h : Tracks api j log s state v emptySet r st)
    (hfits : anyChange changes ∨ ¬evidence ⊆ st.causal.evidence → FitsDelta cause changes)
    (hd : j.appendDelta api expected cause changes evidence s = (.ok a, s')) :
    ∃ state' v' r' st', Tracks api j
      (log ++ [(Call.delta expected cause changes evidence, Answer.delta a)]) s' state' v' emptySet r' st' := by
  obtain ⟨-, -, -, hb, hcase⟩ := h.toReady.appendDelta hd
  obtain ⟨rfl, rfl, -, -⟩ | ⟨head, p, s₁, rfl, hch, -, -⟩ := hcase
  · refine ⟨state, v, r, st, h.toReady, h.entryFits, ?_, h.rootOf, ?_, h.priors.concat ⟨trivial, trivial⟩⟩
    · rw [Ledger.ofLog_concat]; exact h.ledger
    · rw [Ledger.ofLog_concat]; exact h.described
  · obtain ⟨state', v', r', st', root, hready, hh, hent, hroot, hc⟩ :=
      h.toReady.appendDelta_ready hf hids hid (hfits hch) hd
    refine ⟨state', v', r', st', hready, hh ▸ hent, ?_, ?_, ?_, ?_⟩
    · rw [hready.causal, hc, Ledger.ofLog_concat, h.ledger]; rfl
    · rw [hready.causal, hc]; exact hroot
    · rw [hready.snapshots, hc, ← h.toReady.snapshots, Ledger.ofLog_concat]
      exact h.described
    · refine h.priors.concat ⟨?_, trivial⟩
      show BeforeMatches (Ledger.ofLog log).causal.facts changes
      rw [← h.ledger]
      exact hb

theorem Tracks.snapshot (hf : api.Faithful) (hids : api.PlainIds) (hid : FitsText j.executionId)
    (h : Tracks api j log s state v emptySet r st)
    (hs : j.snapshot api expected s = (.ok snap, s')) :
    ∃ state' v' r' st', Tracks api j (log ++ [(Call.snapshot expected, Answer.snapshot snap)]) s' state' v'
      emptySet r' st' := by
  obtain ⟨-, hcov, hset, hstate, state', v', r', st', hready, hent, hc⟩ :=
    h.toReady.snapshot_ready hf hids hid h.entryFits h.rootOf hs
  refine ⟨state', v', r', st', hready, hent, ?_, ?_, ?_, h.priors.concat ⟨trivial, trivial⟩⟩
  · rw [hready.causal, hc, ← h.toReady.causal, Ledger.ofLog_concat]
    exact h.ledger
  · rw [hready.causal, hc, ← h.toReady.causal]
    exact h.rootOf
  · rw [hready.snapshots, hc, ← h.toReady.snapshots, Ledger.ofLog_concat]
    refine List.rel_append h.described (.cons ⟨hcov, ?_, ?_⟩ .nil)
    · rw [← h.ledger, hset]; exact h.rootOf
    · rw [← h.ledger]; exact hstate

/-- The first call of a session opens the journal. -/
theorem Fresh.tracks_first (hf : api.Faithful) (hids : api.PlainIds)
    (hid : FitsText j.executionId) (h : Fresh api s) (hcur : j.current api s = .ok current)
    (hfit : c.FitsIn current) (hp : c.perform api j s = (.ok a, s')) :
    ∃ state v emptySet r st, Tracks api j [(c, a)] s' state v emptySet r st := by
  cases c with
  | «open» pins expected =>
    have hnone : current = none := by
      rw [ExecutionJournal.current, h.rebuild_eq] at hcur
      exact (Except.ok.inj hcur).symm
    obtain ⟨st, s₁, ho, hp⟩ := Effect.bind_eq_ok_iff.mp hp
    cases hp
    obtain ⟨state, v, emptySet, r, hready, hent, hc⟩ :=
      h.open_ready hf hids hid (hfit hnone) ho
    refine ⟨state, v, emptySet, r, st, hready, hent, ?_, ?_, ?_, trivial, trivial⟩
    · rw [hready.causal, hc]; rfl
    · rw [hready.causal, hc]; exact hready.root
    · rw [hready.snapshots, hc]; exact .nil
  | delta expected cause changes evidence =>
    obtain ⟨_, _, hd, -⟩ := Effect.bind_eq_ok_iff.mp hp
    unfold ExecutionJournal.appendDelta at hd
    split at hd
    · cases hd
    · obtain ⟨_, _, hr, -⟩ := Effect.bind_eq_ok_iff.mp hd
      rw [Effect.observe_eq_ok_iff, h.rebuild_eq] at hr
      cases hr.1
  | snapshot expected =>
    obtain ⟨_, _, hs, -⟩ := Effect.bind_eq_ok_iff.mp hp
    obtain ⟨_, _, hr, -⟩ := Effect.bind_eq_ok_iff.mp hs
    rw [Effect.observe_eq_ok_iff, h.rebuild_eq] at hr
    cases hr.1

/-- Every session keeps the invariant. -/
theorem Session.tracks (hf : api.Faithful) (hids : api.PlainIds) (hid : FitsText j.executionId)
    (hfresh : Fresh api s₀) (h : Session api j s₀ log s) :
    (log = [] ∧ s = s₀) ∨
      ∃ state v emptySet r st, Tracks api j log s state v emptySet r st := by
  induction h with
  | nil => exact .inl ⟨rfl, rfl⟩
  | @snoc log s current s' c a _ hcur hfit hp ih =>
    apply Or.inr
    obtain ⟨rfl, rfl⟩ | ⟨state, v, emptySet, r, st, ht⟩ := ih
    · exact hfresh.tracks_first hf hids hid hcur hfit hp
    · cases c with
      | «open» pins expected =>
        obtain ⟨st', s₁, ho, hp⟩ := Effect.bind_eq_ok_iff.mp hp
        cases hp
        obtain ⟨rfl, rfl⟩ := ht.toReady.open_eq ho
        refine ⟨state, v, emptySet, r, st', ht.toReady, ht.entryFits, ?_, ht.rootOf, ?_,
          ht.priors.concat ⟨trivial, trivial⟩⟩
        · rw [Ledger.ofLog_concat]; exact ht.ledger
        · rw [Ledger.ofLog_concat]; exact ht.described
      | delta expected cause changes evidence =>
        obtain ⟨a', s₁, hd, hp⟩ := Effect.bind_eq_ok_iff.mp hp
        cases hp
        obtain ⟨state', v', r', st', ht'⟩ :=
          ht.delta hf hids hid (hfit st (ht.toReady.current hcur ▸ rfl)) hd
        exact ⟨state', v', emptySet, r', st', ht'⟩
      | snapshot expected =>
        obtain ⟨snap, s₁, hs, hp⟩ := Effect.bind_eq_ok_iff.mp hp
        cases hp
        obtain ⟨state', v', r', st', ht'⟩ := ht.snapshot hf hids hid hs
        exact ⟨state', v', emptySet, r', st', ht'⟩

/-- Rebuilding after a session gives the ledger of its answers. A further delta that answers
`unchanged` leaves the journal as it is, one that answers `appended` changed facts or evidence,
and a further snapshot covers the head. -/
theorem session_refines (hf : api.Faithful) (hids : api.PlainIds) (hfresh : Fresh api s₀)
    (hid : FitsText j.executionId) (h : Session api j s₀ log s) (hne : log ≠ []) :
    ∃ st, j.rebuild api s = .ok st ∧ st.causal = (Ledger.ofLog log).causal ∧
      PriorsMatched .init log ∧
      List.Forall₂ (Describes api) st.snapshots (Ledger.ofLog log).snapshots ∧
      (∀ expected cause changes evidence head s',
        j.appendDelta api expected cause changes evidence s = (.ok (.unchanged head), s') →
        head = st.head ∧ j.rebuild api s' = .ok st) ∧
      (∀ expected cause changes evidence head s',
        j.appendDelta api expected cause changes evidence s = (.ok (.appended head), s') →
        FitsDelta cause changes →
        ∃ st', j.rebuild api s' = .ok st' ∧ st'.head = head ∧ st'.causal ≠ st.causal) ∧
      ∀ expected snap s', j.snapshot api expected s = (.ok snap, s') →
        snap.covers = st.head.entry := by
  obtain ⟨rfl, -⟩ | ⟨state, v, emptySet, r, st, ht⟩ := h.tracks hf hids hid hfresh
  · exact absurd rfl hne
  refine ⟨st, ht.toReady.rebuild, ht.ledger, ht.priors, ht.described, ?_, ?_, ?_⟩
  · intro expected cause changes evidence head s' hd
    obtain ⟨-, -, -, -, ⟨ha, rfl, -⟩ | ⟨_, _, _, ha, -⟩⟩ := ht.toReady.appendDelta hd
    · cases ha
      exact ⟨rfl, ht.toReady.rebuild⟩
    · cases ha
  · intro expected cause changes evidence head s' hd hfits
    obtain ⟨-, -, hnd, hb, ⟨ha, -⟩ | ⟨_, _, _, ha, hch, -⟩⟩ := ht.toReady.appendDelta hd
    · cases ha
    · obtain ⟨state', v', r', st', root, hready, hh, -, -, hc⟩ :=
        ht.toReady.appendDelta_ready hf hids hid hfits hd
      refine ⟨st', hready.rebuild, hh, ?_⟩
      rw [hready.causal, hc]
      intro he
      rcases hch with hch | hch
      · have := (foldl_setFact_eq_self_iff hb hnd).mp (congrArg CausalState.facts he)
        simp [hch] at this
      · have : st.causal.evidence ∪ evidence = st.causal.evidence := congrArg CausalState.evidence he
        exact hch fun a hm => this ▸ SortedSet.mem_union.mpr (.inr hm)
  · intro expected snap s' hs
    obtain ⟨hh, hcov, -⟩ := ht.toReady.snapshot_ready hf hids hid ht.entryFits ht.rootOf hs
    rw [hcov, hh]

end Sessions

/-! ## A session -/

namespace Sample

def performed (c : Call) (s : Memory.Backend) : Memory.Backend := (c.perform Memory.api journal s).2

def headOf (s : Memory.Backend) : JournalHead :=
  (Memory.headOf s.entries).getD ⟨0, Memory.digest []⟩

def observation : SemanticChange := ⟨"phase/leaf", none, some (.ofByte (.new "fact") 8)⟩
def seen : SortedSet ContentId := (∅ : SortedSet ContentId).insert (.ofByte (.new "receipt") 9)

def openCall : Call := .open pins none
def begun : Memory.Backend := performed openCall .empty
def observe : Call := .delta (headOf begun) "observation" [observation] seen
def observed : Memory.Backend := performed observe begun
def takeSnapshot : Call := .snapshot (headOf observed)

theorem performs {c : Call} {s : Memory.Backend} (hs : Session Memory.api journal .empty log s)
    (hok : (c.perform Memory.api journal s).1.isOk) (hcur : (journal.current Memory.api s).isOk)
    (hfit : ∀ current, c.FitsIn current) :
    ∃ a, Session Memory.api journal .empty (log ++ [(c, a)]) (performed c s) := by
  obtain ⟨a, ha⟩ := Except.exists_of_isOk hok
  obtain ⟨current, hcurrent⟩ := Except.exists_of_isOk hcur
  exact ⟨a, hs.snoc hcurrent (hfit current) (Prod.ext ha rfl)⟩

/-- A fact whose digest algorithm is the unqualified symbol `dir/edit`. -/
def slashed : SemanticChange := ⟨"answer", none, some (.ofByte (.new "dir/edit") 4)⟩

def appendSlashed (s : Memory.Backend) :=
  journal.appendDelta Memory.api (headOf s) "observation" [slashed] ∅ s

/-- The session and the delta with the slashed algorithm succeed, and what is rebuilt after it. -/
theorem session_evaluated :
    ((openCall.perform Memory.api journal .empty).1.isOk ∧
      (journal.current Memory.api .empty).isOk) ∧
    ((observe.perform Memory.api journal begun).1.isOk ∧
      (journal.current Memory.api begun).isOk) ∧
    ((takeSnapshot.perform Memory.api journal observed).1.isOk ∧
      (journal.current Memory.api observed).isOk) ∧
    (appendSlashed begun).1 = .ok (.appended (headOf (appendSlashed begun).2)) ∧
    (journal.rebuild Memory.api (appendSlashed begun).2).map (·.causal.facts) =
      .ok ([⟨"answer", none, some (.ofByte (.qualified "dir" "edit") 4)⟩].foldl setFact ∅) := by
  decide +kernel

end Sample

theorem session_refines_observed :
    ∃ a b c st, Session Memory.api Sample.journal .empty
        [(Sample.openCall, a), (Sample.observe, b), (Sample.takeSnapshot, c)]
        (Sample.performed Sample.takeSnapshot Sample.observed) ∧
      Sample.journal.rebuild Memory.api (Sample.performed Sample.takeSnapshot Sample.observed) =
        .ok st ∧
      st.causal = (Ledger.ofLog
        [(Sample.openCall, a), (Sample.observe, b), (Sample.takeSnapshot, c)]).causal := by
  obtain ⟨hopen, hobserve, hsnapshot, -⟩ := Sample.session_evaluated
  obtain ⟨a, h₁⟩ := Sample.performs (c := Sample.openCall) .nil hopen.1 hopen.2
    fun _ _ => by decide +kernel
  obtain ⟨b, h₂⟩ := Sample.performs (c := Sample.observe) h₁ hobserve.1 hobserve.2
    fun _ _ _ _ => ⟨by decide, by decide, by decide +kernel⟩
  obtain ⟨c, h₃⟩ := Sample.performs (c := Sample.takeSnapshot) h₂ hsnapshot.1 hsnapshot.2
    fun _ => trivial
  obtain ⟨st, hst, hcausal, -⟩ := session_refines Memory.faithful Memory.plainIds
    ⟨⟨_, rfl⟩, rfl⟩ (by decide) h₃ (List.cons_ne_nil _ _)
  exact ⟨a, b, c, st, h₃, hst, hcausal⟩

/-- The codec writes the symbol `dir/edit` as the text of the symbol `edit` in `dir` and reads
that one, so the journal is rebuilt with another fact than the delta set. -/
theorem slashed_algorithm_misread :
    Memory.api.Faithful ∧ Memory.api.PlainIds ∧ Fresh Memory.api .empty ∧
      (Sample.openCall.perform Memory.api Sample.journal .empty).1.isOk ∧
      (∃ head, (Sample.appendSlashed Sample.begun).1 = .ok (.appended head)) ∧
      ∃ facts, (Sample.journal.rebuild Memory.api (Sample.appendSlashed Sample.begun).2).map
          (·.causal.facts) = .ok facts ∧
        facts.get? "answer" = some (.ofByte (.qualified "dir" "edit") 4) ∧
        facts ≠ [Sample.slashed].foldl setFact ∅ := by
  obtain ⟨hopen, -, -, hslashed, hfacts⟩ := Sample.session_evaluated
  exact ⟨Memory.faithful, Memory.plainIds, ⟨⟨_, rfl⟩, rfl⟩, hopen.1, ⟨_, hslashed⟩, _, hfacts,
    by decide +kernel, by decide +kernel⟩

end SimAgentNet.RoadmapRunner
