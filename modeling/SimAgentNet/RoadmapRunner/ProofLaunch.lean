import SimAgentNet.RoadmapRunner.JournaledProof
import SimAgentNet.RoadmapRunner.Ledger

/-! # Launches of a proof

Any number of workers execute journaled proofs over one journal, each from a state that it has read
at some time, and any of them may stop anywhere. `launched_at_most_once`: however their steps
interleave, the launcher runs at most once for an effect, and the journal gets at most one receipt
of it. -/

namespace SimAgentNet.RoadmapRunner

variable {σ ρ L R P : Type} {api : JournalApi σ} {j : ExecutionJournal}

/-! ## What is read of requests and receipts -/

theorem requests_of_decodeDatum {r : ExecutionRecord} (hr : r.requests e = true)
    (h : decodeDatum (encodeDatum execution r) = .ok (execution', r')) : r'.requests e = true := by
  cases r with
  | effectRequested effectId kind input =>
    obtain ⟨hread, hlen⟩ := record_of_decodeDatum (by simp [ExecutionRecord.tag]) h
    obtain ⟨t, mid, ht, hread⟩ := ByteReader.bind_eq_ok_iff.mp hread
    cases Reader.forces_text (Reader.counted_of_le hlen) _ _ ht
    obtain ⟨_, _, -, hread⟩ := ByteReader.bind_eq_ok_iff.mp hread
    obtain ⟨_, _, -, hread⟩ := ByteReader.bind_eq_ok_iff.mp hread
    cases hread
    exact hr
  | _ => cases hr

theorem receives_of_decodeDatum {r : ExecutionRecord} (hr : r.receives e = true)
    (h : decodeDatum (encodeDatum execution r) = .ok (execution', r')) : r'.receives e = true := by
  cases r with
  | effectReceipt effectId outcome output =>
    obtain ⟨hread, hlen⟩ := record_of_decodeDatum (by simp [ExecutionRecord.tag]) h
    obtain ⟨t, mid, ht, hread⟩ := ByteReader.bind_eq_ok_iff.mp hread
    cases Reader.forces_text (Reader.counted_of_le hlen) _ _ ht
    obtain ⟨_, _, -, hread⟩ := ByteReader.bind_eq_ok_iff.mp hread
    obtain ⟨_, _, -, hread⟩ := ByteReader.bind_eq_ok_iff.mp hread
    cases hread
    exact hr
  | _ => cases hr

/-! ## The journal behind the log -/

/-- The entry carries the record. -/
def Carries (j : ExecutionJournal) (state : StoredState) (entry : JournalEntry)
    (record : ExecutionRecord) : Prop :=
  ∃ first rest, entry.payloads = first :: rest ∧
    state.datums.get? first = some (encodeDatum j.executionId record)

/-- The entries of the journal carry the records of the log, with increasing sequence numbers. -/
structure Logged (api : JournalApi σ) (j : ExecutionJournal) (s : σ) (v : Verification)
    (state : StoredState) (appended : List ExecutionRecord) : Prop where
  verify : api.verify s = .ok v
  read : api.readState s = .ok state
  increasing : v.entries.Pairwise (·.sequence < ·.sequence)
  carries : List.Forall₂ (Carries j state) v.entries appended

theorem Carries.mono (hle : state.Le state') (h : Carries j state entry record) :
    Carries j state' entry record := by
  obtain ⟨first, rest, hp, hd⟩ := h
  exact ⟨first, rest, hp, hle.datums hd⟩

theorem mem_records_of_run {r₀ r : Replay}
    (h : List.foldlM (Replay.step api state executionId) r₀ entries = .ok r)
    (hx : x ∈ r₀.records) : x ∈ r.records := by
  induction entries generalizing r₀ with
  | nil => cases h; exact hx
  | cons entry entries ih =>
    obtain ⟨u, hu, h⟩ := Run.foldlM_cons_eq_ok_iff.mp h
    obtain ⟨_, _, _, _, record, _, hacc⟩ := Replay.step_eq_ok_iff.mp hu
    refine ih h ?_
    rw [hacc.result]
    exact List.mem_append_left _ hx

/-- A property of logged records that the codec keeps is one of the records that are read. -/
theorem exists_of_run {p : ExecutionRecord → Bool}
    (hp : ∀ {r r' execution'}, p r = true →
      decodeDatum (encodeDatum j.executionId r) = .ok (execution', r') → p r' = true)
    {r₀ r : Replay} (hc : List.Forall₂ (Carries j state) entries appended)
    (h : List.foldlM (Replay.step api state j.executionId) r₀ entries = .ok r)
    (hx : appended.any p = true) : r.records.any p = true := by
  induction hc generalizing r₀ with
  | nil => cases hx
  | @cons entry record entries appended hentry _ ih =>
    obtain ⟨u, hu, h⟩ := Run.foldlM_cons_eq_ok_iff.mp h
    rw [List.any_cons, Bool.or_eq_true] at hx
    rcases hx with hx | hx
    · obtain ⟨first, rest, value, bytes, record', cause, hacc⟩ := Replay.step_eq_ok_iff.mp hu
      obtain ⟨first', rest', hpay, hd⟩ := hentry
      cases hacc.payloads.symm.trans hpay
      cases hacc.datum.symm.trans hd
      refine List.any_eq_true.mpr ⟨record', mem_records_of_run h ?_, hp hx hacc.decoded⟩
      rw [hacc.result]
      exact List.mem_append_right _ List.mem_cons_self
    · exact ih h hx

/-! ## Heads and prefixes -/

/-- The head is that of a prefix of the entries. -/
def HeadIn (entries : List JournalEntry) (head : JournalHead) : Prop :=
  ∃ x ∈ entries, head = ⟨x.sequence, x.id⟩

/-- A prefix with the last head is the whole. -/
theorem eq_of_headIn {entries pre : List JournalEntry}
    (hinc : entries.Pairwise (·.sequence < ·.sequence)) (hpre : pre <+: entries)
    (hin : HeadIn pre head)
    (hlast : some head = entries.getLast?.map fun e => ⟨e.sequence, e.id⟩) : pre = entries := by
  obtain ⟨suffix, rfl⟩ := hpre
  obtain ⟨x, hx, rfl⟩ := hin
  rcases List.eq_nil_or_concat suffix with rfl | ⟨init, last, rfl⟩
  · exact (List.append_nil pre).symm
  · rw [List.concat_eq_append, ← List.append_assoc, List.getLast?_concat, Option.map_some] at hlast
    have hseq := congrArg JournalHead.sequence (Option.some.inj hlast)
    have hlt := (List.pairwise_append.mp hinc).2.2 x hx last (by simp)
    simp only at hseq
    omega

theorem sequence_le_of_last {entries : List JournalEntry} {head : JournalHead}
    (hinc : entries.Pairwise (·.sequence < ·.sequence))
    (hlast : some head = entries.getLast?.map fun e => ⟨e.sequence, e.id⟩) :
    ∀ x ∈ entries, x.sequence ≤ head.sequence := by
  intro x hx
  rcases List.eq_nil_or_concat entries with rfl | ⟨init, last, rfl⟩
  · cases hx
  · rw [List.concat_eq_append] at hinc hx hlast
    rw [List.getLast?_concat, Option.map_some] at hlast
    cases Option.some.inj hlast
    rcases List.mem_append.mp hx with hx | hx
    · exact ((List.pairwise_append.mp hinc).2.2 x hx last List.mem_cons_self).le
    · rw [List.mem_singleton.mp hx]

/-- The journal of `s'` extends that of `s`. -/
def Grows (api : JournalApi σ) (s s' : σ) : Prop :=
  ∀ v state, api.verify s = .ok v → api.readState s = .ok state → ∃ v' state',
    api.verify s' = .ok v' ∧ api.readState s' = .ok state' ∧ v.entries <+: v'.entries ∧
    state.Le state'

theorem StoredState.Le.refl (state : StoredState) : state.Le state := ⟨fun h => h, fun h => h⟩

theorem StoredState.Le.trans {a b c : StoredState} (h : a.Le b) (h' : b.Le c) : a.Le c :=
  ⟨fun hx => h'.objects (h.objects hx), fun hx => h'.datums (h.datums hx)⟩

theorem Grows.refl (s : σ) : Grows api s s := fun v state hv hr =>
  ⟨v, state, hv, hr, List.prefix_refl _, .refl state⟩

theorem Grows.trans (h : Grows api s s') (h' : Grows api s' s'') : Grows api s s'' := by
  intro v state hv hr
  obtain ⟨v', state', hv', hr', hpre, hle⟩ := h v state hv hr
  obtain ⟨v'', state'', hv'', hr'', hpre', hle'⟩ := h' v' state' hv' hr'
  exact ⟨v'', state'', hv'', hr'', hpre.trans hpre', hle.trans hle'⟩

theorem Grows.publish (hf : api.Faithful)
    (h : api.publish expected objects entries s = (x, s')) : Grows api s s' := by
  intro v state hv hr
  cases x with
  | ok head =>
    obtain ⟨state', hr', hle, -⟩ := hf.publish_read h hr
    exact ⟨_, state', hf.publish_verify h hv, hr', List.prefix_append _ _, hle⟩
  | error e =>
    obtain ⟨hv', hr'⟩ := hf.publish_refused h
    exact ⟨v, state, hv'.trans hv, hr'.trans hr, List.prefix_refl _, .refl state⟩

theorem Grows.put (hf : api.Faithful) (h : (api.put value s).2 = s') : Grows api s s' := by
  intro v state hv hr
  obtain ⟨state', hr', hle⟩ := hf.put_read h hr
  exact ⟨v, state', (hf.put_verify h).trans hv, hr', List.prefix_refl _, hle⟩

/-- The records and the head are those of a prefix of the journal. -/
def HoldsPrefix (api : JournalApi σ) (j : ExecutionJournal) (s : σ) (st : RebuiltExecution) :
    Prop :=
  ∃ v state emptySet entries last r, api.verify s = .ok v ∧ api.readState s = .ok state ∧
    entries <+: v.entries ∧ entries.getLast? = some last ∧ st.head = ⟨last.sequence, last.id⟩ ∧
    entries.foldlM (Replay.step api state j.executionId) (.init emptySet) = .ok r ∧
    st.records = r.records

/-- What is rebuilt is held. -/
theorem holdsPrefix_of_rebuild (hf : api.Faithful) (h : j.rebuild api s = .ok st) :
    HoldsPrefix api j s st := by
  obtain ⟨state, v, emptySet, r, hl, hhead, hfin⟩ := ExecutionJournal.loaded_of_rebuild h
  obtain ⟨-, _, _, -, -, hst⟩ := ExecutionJournal.finish_eq_ok_iff.mp hfin
  rw [hf.verify_head hl.verify, Option.map_eq_some_iff] at hhead
  obtain ⟨last, hlast, hhead⟩ := hhead
  exact ⟨v, state, emptySet, v.entries, last, r, hl.verify, hl.read, List.prefix_refl _, hlast,
    hhead.symm, hl.run, by rw [hst]⟩

theorem HoldsPrefix.mono (hg : Grows api s s') (h : HoldsPrefix api j s st) :
    HoldsPrefix api j s' st := by
  obtain ⟨v, state, emptySet, entries, last, r, hv, hr, hpre, hlast, hhead, hrun, hrec⟩ := h
  obtain ⟨v', state', hv', hr', hpre', hle⟩ := hg v state hv hr
  exact ⟨v', state', emptySet, entries, last, r, hv', hr', hpre.trans hpre', hlast, hhead,
    Replay.run_mono hle hrun, hrec⟩

/-- The head is one of the journal. -/
def HeadAt (api : JournalApi σ) (s : σ) (head : JournalHead) : Prop :=
  ∃ v state, api.verify s = .ok v ∧ api.readState s = .ok state ∧ HeadIn v.entries head

theorem HeadAt.mono (hg : Grows api s s') (h : HeadAt api s head) : HeadAt api s' head := by
  obtain ⟨v, state, hv, hr, x, hx, hhead⟩ := h
  obtain ⟨v', state', hv', hr', hpre, -⟩ := hg v state hv hr
  exact ⟨v', state', hv', hr', x, hpre.subset hx, hhead⟩

theorem HoldsPrefix.headAt (h : HoldsPrefix api j s st) : HeadAt api s st.head := by
  obtain ⟨v, state, _, entries, last, _, hv, hr, hpre, hlast, hhead, -⟩ := h
  exact ⟨v, state, hv, hr, last, hpre.subset (List.mem_of_getLast? hlast), hhead⟩

/-! ## Publishing an admitted record -/

/-- What was checked and what is published for an admitted record. -/
theorem admitRecord_spec (h : j.admitRecord api expected record objects s = .ok (published, entry)) :
    ∃ c o, j.current api s = .ok c ∧
      Follows (!((c.map (·.records)).getD []).isEmpty) ((c.map (·.records)).getD []) record ∧
      published = o :: objects.map (·.object) ∧ o.datum = encodeDatum j.executionId record ∧
      entry.payloads = o.id :: objects.map (·.object.id) ∧
      entry.sequence = (expected.map (·.sequence + 1)).getD 0 := by
  simp only [ExecutionJournal.admitRecord, Except.bind_eq_ok_iff, Except.guard_eq_ok_iff,
    Except.mapError_eq_ok_iff] at h
  obtain ⟨c, hc, _, hn, o, ho, -, _, -, _, -, -, -, -, he⟩ := h
  obtain ⟨⟨i, bytes⟩, -, ho⟩ := Except.bind_eq_ok_iff.mp ho
  cases ho
  cases he
  exact ⟨c, _, hc, validateNext_ok_iff.mp hn, rfl, rfl, rfl, rfl⟩

/-- A receipt is admitted only where the journal has none of its effect. -/
theorem no_receipt_of_admitRecord (hlog : Logged api j s v state appended)
    (hv₁ : api.verify s₁ = .ok v₁) (hr₁ : api.readState s₁ = .ok state₁)
    (hle : state₁.Le state) (heq : v₁.entries = v.entries)
    (h : j.admitRecord api expected record objects s₁ = .ok (published, entry))
    (hrec : record.receives e = true) : appended.any (·.receives e) = false := by
  obtain ⟨c, -, hc, hfollows, -⟩ := admitRecord_spec h
  obtain ⟨st, hst, rfl⟩ : ∃ st, j.rebuild api s₁ = .ok st ∧ c = some st := by
    unfold ExecutionJournal.current at hc
    split at hc
    · cases hc
      exact ⟨_, ‹_›, rfl⟩
    · cases hc
      -- without a state only the genesis is admitted, which is no receipt
      cases record with
      | effectReceipt => cases hfollows
      | _ => cases hrec
    · cases hc
  obtain ⟨_, _, emptySet, r, hl, -, hfin⟩ := ExecutionJournal.loaded_of_rebuild hst
  cases hl.verify.symm.trans hv₁
  cases hl.read.symm.trans hr₁
  obtain ⟨-, _, _, -, -, hst'⟩ := ExecutionJournal.finish_eq_ok_iff.mp hfin
  have hrun := Replay.run_mono hle hl.run
  rw [heq] at hrun
  by_contra hany
  have hread := exists_of_run receives_of_decodeDatum hlog.carries hrun (by simpa using hany)
  obtain ⟨x, hx, hxe⟩ := List.any_eq_true.mp hread
  have hmem : x ∈ st.records := by rw [hst']; exact hx
  cases record with
  | effectReceipt effectId outcome output =>
    have heq : effectId = e := by simpa [ExecutionRecord.receives] using hrec
    subst heq
    have hne : st.records ≠ [] := List.ne_nil_of_mem hmem
    simp only [Option.map_some, Option.getD_some, Follows, List.isEmpty_eq_false_iff.mpr hne,
      Bool.not_false, if_true, ExecutionRecord.Admissible] at hfollows
    exact hfollows.2.2 x hmem hxe
  | _ => cases hrec

/-- Publishing a record that was admitted over the same entries extends the log. -/
theorem Logged.publish (hf : api.Faithful) (hlog : Logged api j s v state appended)
    (ha : j.admitRecord api expected record objects s₁ = .ok (published, entry))
    (h : api.publish expected published [entry] s = (.ok head, s')) :
    (∃ v' state', Logged api j s' v' state' (appended ++ [record])) ∧ HeadAt api s' head := by
  obtain ⟨-, o, -, -, rfl, hdatum, hpay, hseq⟩ := admitRecord_spec ha
  have hv' := hf.publish_verify h hlog.verify
  obtain ⟨state', hr', hle, hholds⟩ := hf.publish_read h hlog.read
  have hlast := hf.publish_head h hlog.verify
  rw [hf.verify_head hlog.verify] at hlast
  have hentry : Carries j state' entry record :=
    ⟨o.id, _, hpay, hdatum ▸ (hholds o List.mem_cons_self).datums⟩
  constructor
  · refine ⟨_, state', hv', hr', ?_, ?_⟩
    · refine List.pairwise_append.mpr ⟨hlog.increasing, List.pairwise_singleton _ _, ?_⟩
      intro x hx y hy
      rw [List.mem_singleton.mp hy, hseq]
      cases expected with
      | none =>
        rw [Option.map_eq_none_iff, List.getLast?_eq_none_iff] at hlast
        rw [hlast] at hx
        cases hx
      | some head =>
        have := sequence_le_of_last hlog.increasing hlast.symm x hx
        simp only [Option.map_some, Option.getD_some]
        omega
    · exact List.rel_append (hlog.carries.imp fun _ _ hc => hc.mono hle) (.cons hentry .nil)
  · have hhead := hf.verify_head hv'
    rw [List.getLast?_concat, Option.map_some] at hhead
    exact ⟨_, state', hv', hr', entry, List.mem_append_right _ List.mem_cons_self,
      Option.some.inj hhead⟩

/-- The record was admitted at a head of the journal, at some time before. -/
def Pending (api : JournalApi σ) (j : ExecutionJournal) (s : σ) (head : JournalHead)
    (record : ExecutionRecord) (published : List JournalObject) (entry : JournalEntry) : Prop :=
  ∃ s₁, Grows api s₁ s ∧ HeadAt api s₁ head ∧
    j.admitRecord api (some head) record [] s₁ = .ok (published, entry)

theorem Pending.mono (hg : Grows api s s')
    (h : Pending api j s head record published entry) :
    Pending api j s' head record published entry := by
  obtain ⟨s₁, hg₁, hrest⟩ := h
  exact ⟨s₁, hg₁.trans hg, hrest⟩

/-- When the head is still the last one, a pending receipt is the first of its effect. -/
theorem Pending.no_receipt (hf : api.Faithful) (hlog : Logged api j s v state appended)
    (hp : Pending api j s head record published entry)
    (h : api.publish (some head) published [entry] s = (.ok head', s'))
    (hrec : record.receives e = true) : appended.any (·.receives e) = false := by
  obtain ⟨s₁, hg, ⟨v₁, state₁, hv₁, hr₁, hin⟩, ha⟩ := hp
  obtain ⟨v', state', hv', hr', hpre, hle⟩ := hg v₁ state₁ hv₁ hr₁
  cases hlog.verify.symm.trans hv'
  cases hlog.read.symm.trans hr'
  have hlast := hf.publish_head h hlog.verify
  rw [hf.verify_head hlog.verify] at hlast
  exact no_receipt_of_admitRecord hlog hv₁ hr₁ hle
    (eq_of_headIn hlog.increasing hpre hin hlast.symm) ha hrec

/-- When the head is still the last one, the records held are those of the whole journal. -/
theorem HoldsPrefix.no_request (hf : api.Faithful) (hlog : Logged api j s v state appended)
    (hst : HoldsPrefix api j s st)
    (h : api.publish (some st.head) published entries s = (.ok head', s'))
    (hno : st.records.any (·.requests e) = false) : appended.any (·.requests e) = false := by
  obtain ⟨_, _, emptySet, pre, last, r, hv, hr, hpre, hlast', hhead, hrun, hrec⟩ := hst
  cases hlog.verify.symm.trans hv
  cases hlog.read.symm.trans hr
  have hlast := hf.publish_head h hlog.verify
  rw [hf.verify_head hlog.verify] at hlast
  cases eq_of_headIn hlog.increasing hpre ⟨last, List.mem_of_getLast? hlast', hhead⟩ hlast.symm
  by_contra hany
  have hread := exists_of_run requests_of_decodeDatum hlog.carries hrun (by simpa using hany)
  rw [hrec, hread] at hno
  cases hno

/-! ## Workers -/

/-- The world and the calls in progress. -/
structure LaunchSystem (σ ρ L R P : Type) where
  world : World σ ρ
  calls : List (ProofCall L R P)

/-- What can happen: a worker begins a call with a state that it has read, a call takes a step or
stops for good, and other writers append records (or are refused) and store datums. -/
inductive Moves (api : JournalApi σ) (j : ExecutionJournal) (sandbox : SandboxApi L R P)
    (store : ProofReceiptStore ρ) : LaunchSystem σ ρ L R P → LaunchSystem σ ρ L R P → Prop
  | begin {x : JournaledProofExecution L R P} : HoldsPrefix api j w.backend st →
    Moves api j sandbox store ⟨w, calls⟩ ⟨w, ⟨x, st, .begin⟩ :: calls⟩
  | step {c : ProofCall L R P} : c.step api j sandbox store w = (c', w') →
    Moves api j sandbox store ⟨w, pre ++ c :: post⟩ ⟨w', pre ++ c' :: post⟩
  | stop : Moves api j sandbox store ⟨w, pre ++ c :: post⟩ ⟨w, pre ++ post⟩
  | write : j.append api expected record objects w.backend = (.ok head, backend) →
    Moves api j sandbox store ⟨w, calls⟩
      ⟨{ w with backend, appended := w.appended ++ [record] }, calls⟩
  | refused : j.append api expected record objects w.backend = (.error e, backend) →
    Moves api j sandbox store ⟨w, calls⟩ ⟨{ w with backend }, calls⟩
  | put : (api.put value w.backend).2 = backend →
    Moves api j sandbox store ⟨w, calls⟩ ⟨{ w with backend }, calls⟩

namespace ProofCall

/-- The call is about to launch the effect. -/
def holds (e : String) (c : ProofCall L R P) : Bool :=
  match c.point with
  | .launch command => command.effectId == e
  | _ => false

/-- What a call knows about the journal where it stands. -/
def Sound (api : JournalApi σ) (j : ExecutionJournal) (s : σ) (c : ProofCall L R P) : Prop :=
  match c.point with
  | .begin => HoldsPrefix api j s c.state
  | .admitIntent command =>
    HoldsPrefix api j s c.state ∧ c.state.records.any (·.requests command.effectId) = false
  | .publishIntent command published entry =>
    HoldsPrefix api j s c.state ∧ c.state.records.any (·.requests command.effectId) = false ∧
      Pending api j s c.state.head (intentRecord command.effectId) published entry
  | .launch _ | .store .. | .admitReceipt .. => HeadAt api s c.state.head
  | .publishReceipt command receipt published entry =>
    Pending api j s c.state.head (receiptRecord command.effectId receipt) published entry
  | .done _ => True

theorem Sound.mono {c : ProofCall L R P} (hg : Grows api s s') (h : c.Sound api j s) :
    c.Sound api j s' := by
  unfold Sound at h ⊢
  split
  · simp only [*] at h; exact h.mono hg
  · simp only [*] at h; exact ⟨h.1.mono hg, h.2⟩
  · simp only [*] at h; exact ⟨h.1.mono hg, h.2.1, h.2.2.mono hg⟩
  · simp only [*] at h; exact h.mono hg
  · simp only [*] at h; exact h.mono hg
  · simp only [*] at h; exact h.mono hg
  · simp only [*] at h; exact h.mono hg
  · trivial

end ProofCall

/-- The journal has at most one receipt of each effect, and a launch, past or imminent, only of an
effect that it has a request of. -/
structure Safe (api : JournalApi σ) (j : ExecutionJournal) (y : LaunchSystem σ ρ L R P) :
    Prop where
  logged : ∃ v state, Logged api j y.world.backend v state y.world.appended
  once : ∀ e, y.world.launches.count e + y.calls.countP (·.holds e) ≤
    (y.world.appended.any (·.requests e)).toNat
  receipts : ∀ e, y.world.appended.countP (·.receives e) ≤ 1
  sound : ∀ c ∈ y.calls, c.Sound api j y.world.backend

section
variable {sandbox : SandboxApi L R P} {store : ProofReceiptStore ρ} {w w' : World σ ρ}
  {calls pre post : List (ProofCall L R P)} {c c' : ProofCall L R P}

/-- A step of one call, from what it does to the logs and where the call stands afterwards. -/
theorem Safe.move (h : Safe api j ⟨w, pre ++ c :: post⟩) (hg : Grows api w.backend w'.backend)
    (hlog : ∃ v state, Logged api j w'.backend v state w'.appended)
    (honce : ∀ e n, w.launches.count e + (c.holds e).toNat + n ≤
        (w.appended.any (·.requests e)).toNat →
      w'.launches.count e + (c'.holds e).toNat + n ≤ (w'.appended.any (·.requests e)).toNat)
    (hrec : ∀ e, w'.appended.countP (·.receives e) ≤ 1) (hc : c'.Sound api j w'.backend) :
    Safe api j ⟨w', pre ++ c' :: post⟩ where
  logged := hlog
  once := by
    intro e
    have hcount (x : ProofCall L R P) : (pre ++ x :: post).countP (·.holds e) =
        (x.holds e).toNat + (pre.countP (·.holds e) + post.countP (·.holds e)) := by
      rw [List.countP_append, List.countP_cons]
      cases x.holds e with
      | false => simp
      | true => simp; omega
    have hold := h.once e
    simp only [hcount] at hold ⊢
    have := honce e _ (by rw [Nat.add_assoc]; exact hold)
    omega
  receipts := hrec
  sound := by
    intro x hx
    rcases List.mem_append.mp hx with hx | hx
    · exact (h.sound x (List.mem_append_left _ hx)).mono hg
    · rcases List.mem_cons.mp hx with rfl | hx
      · exact hc
      · exact (h.sound x (List.mem_append_right _ (List.mem_cons_of_mem _ hx))).mono hg

/-- A step that neither launches nor appends. -/
theorem Safe.keep (h : Safe api j ⟨w, pre ++ c :: post⟩) (hg : Grows api w.backend w'.backend)
    (hlog : ∃ v state, Logged api j w'.backend v state w'.appended)
    (hl : w'.launches = w.launches) (ha : w'.appended = w.appended)
    (hholds : ∀ e, c'.holds e = false) (hc : c'.Sound api j w'.backend) :
    Safe api j ⟨w', pre ++ c' :: post⟩ := by
  refine h.move hg hlog (fun e n hn => ?_) (by rw [ha]; exact h.receipts) hc
  rw [hl, ha, hholds]
  simp only [Bool.toNat_false, Nat.add_zero]
  omega

theorem Logged.refused (hf : api.Faithful) (hlog : Logged api j s v state appended)
    (h : api.publish expected published entries s = (.error e, s')) :
    Logged api j s' v state appended := by
  obtain ⟨hv, hr⟩ := hf.publish_refused h
  exact ⟨hv.trans hlog.verify, hr.trans hlog.read, hlog.increasing, hlog.carries⟩

theorem countP_append_receipt {appended : List ExecutionRecord} {record : ExecutionRecord}
    (h : appended.countP (·.receives e) ≤ 1)
    (hnew : record.receives e = true → appended.any (·.receives e) = false) :
    (appended ++ [record]).countP (·.receives e) ≤ 1 := by
  rw [List.countP_append, List.countP_singleton]
  split
  · rename_i hrec
    have hzero : appended.countP (·.receives e) = 0 := by
      rw [List.countP_eq_zero]
      intro x hx
      have := List.any_eq_false.mp (hnew hrec) x hx
      simpa using this
    omega
  · omega

theorem intent_requests (effectId e : String) :
    (intentRecord effectId).requests e = (effectId == e) := rfl

theorem receipt_requests (effectId e : String) (receipt : TypedProofReceipt) :
    (receiptRecord effectId receipt).requests e = false := rfl

theorem finish_sound (c : ProofCall L R P) (result : Except ProofError TypedProofReceipt) :
    (c.finish result).Sound api j s := by
  simp [ProofCall.Sound, ProofCall.finish]

/-- Reading the journal for an append; nothing is written. -/
theorem Safe.admitRecord (h : Safe api j ⟨w, pre ++ c :: post⟩) {record : ExecutionRecord}
    {next : List JournalObject → JournalEntry → ProofPoint L}
    (hhead : HeadAt api w.backend c.state.head)
    (hnext : ∀ published entry, Pending api j w.backend c.state.head record published entry →
      ({ c with point := next published entry } : ProofCall L R P).Sound api j w.backend ∧
      ∀ e, ({ c with point := next published entry } : ProofCall L R P).holds e = false) :
    Safe api j ⟨w, pre ++ c.admitRecord api j record next w :: post⟩ := by
  unfold ProofCall.admitRecord
  cases ha : j.admitRecord api (some c.state.head) record [] w.backend with
  | error e => exact h.keep (.refl _) h.logged rfl rfl (fun _ => rfl) (finish_sound ..)
  | ok admitted =>
    obtain ⟨published, entry⟩ := admitted
    obtain ⟨hsound, hholds⟩ := hnext published entry ⟨w.backend, .refl _, hhead, ha⟩
    exact h.keep (.refl _) h.logged rfl rfl hholds hsound

/-- Publishing the intent: the one request of the effect, and the right to launch it. -/
theorem Safe.publishIntent (hf : api.Faithful) (h : Safe api j ⟨w, pre ++ c :: post⟩)
    (hp : c.point = .publishIntent command published entry) :
    Safe api j ⟨(c.publish api (intentRecord command.effectId) published entry (.launch command)
        w).2,
      pre ++ (c.publish api (intentRecord command.effectId) published entry (.launch command)
        w).1 :: post⟩ := by
  have hsound := h.sound c (List.mem_append_right _ List.mem_cons_self)
  simp only [ProofCall.Sound, hp] at hsound
  obtain ⟨hpre, hno, hpending⟩ := hsound
  obtain ⟨v, state, hlog⟩ : ∃ v state, Logged api j w.backend v state w.appended := h.logged
  unfold ProofCall.publish
  rcases hpub : api.publish (some c.state.head) published [entry] w.backend with ⟨e | head, b⟩
  · exact h.keep (.publish hf hpub) ⟨v, state, hlog.refused hf hpub⟩ rfl rfl (fun _ => rfl)
      (finish_sound ..)
  · have hfresh := hpre.no_request hf hlog hpub hno
    obtain ⟨_, -, -, ha⟩ := hpending
    obtain ⟨hlog', hhead⟩ := hlog.publish hf ha hpub
    refine h.move (.publish hf hpub) hlog' ?_ ?_ hhead
    · intro e n hn
      simp only [List.any_append, List.any_cons, List.any_nil, Bool.or_false, intent_requests,
        ProofCall.holds, hp] at hn ⊢
      by_cases he : command.effectId = e
      · subst he
        rw [hfresh] at hn
        simp at hn ⊢
        omega
      · have hbeq : (command.effectId == e) = false := by simpa using he
        rw [hbeq, Bool.or_false]
        exact hn
    · intro e
      exact countP_append_receipt (h.receipts e) nofun

theorem Safe.publishReceipt (hf : api.Faithful) (h : Safe api j ⟨w, pre ++ c :: post⟩)
    (hp : c.point = .publishReceipt command receipt published entry) :
    Safe api j ⟨(c.publish api (receiptRecord command.effectId receipt) published entry
        (.done (.ok receipt)) w).2,
      pre ++ (c.publish api (receiptRecord command.effectId receipt) published entry
        (.done (.ok receipt)) w).1 :: post⟩ := by
  have hsound := h.sound c (List.mem_append_right _ List.mem_cons_self)
  simp only [ProofCall.Sound, hp] at hsound
  obtain ⟨v, state, hlog⟩ : ∃ v state, Logged api j w.backend v state w.appended := h.logged
  unfold ProofCall.publish
  rcases hpub : api.publish (some c.state.head) published [entry] w.backend with ⟨e | head, b⟩
  · exact h.keep (.publish hf hpub) ⟨v, state, hlog.refused hf hpub⟩ rfl rfl (fun _ => rfl)
      (finish_sound ..)
  · have hpending := hsound
    obtain ⟨_, -, -, ha⟩ := hpending
    obtain ⟨hlog', -⟩ := hlog.publish hf ha hpub
    refine h.move (.publish hf hpub) hlog' ?_ ?_ trivial
    · intro e n hn
      simp only [List.any_append, List.any_cons, List.any_nil, Bool.or_false, receipt_requests,
        ProofCall.holds, hp] at hn ⊢
      exact hn
    · intro e
      exact countP_append_receipt (h.receipts e)
        (hsound.no_receipt hf hlog hpub)

theorem choose_sound (store : ProofReceiptStore ρ) (receipts : ρ) (command : CommandProof L)
    (h : HoldsPrefix api j s c.state) :
    ({ c with point := c.choose store command receipts } : ProofCall L R P).Sound api j s ∧
      ∀ e, ({ c with point := c.choose store command receipts } : ProofCall L R P).holds e =
        false := by
  unfold ProofCall.choose
  split
  · split
    · exact ⟨trivial, fun _ => rfl⟩
    · split
      · exact ⟨h.headAt, fun _ => rfl⟩
      · exact ⟨trivial, fun _ => rfl⟩
  · rename_i hno
    exact ⟨⟨h, Bool.not_eq_true _ ▸ hno⟩, fun _ => rfl⟩

/-- Whatever a call does next keeps the system safe. -/
theorem Safe.step (hf : api.Faithful) (h : Safe api j ⟨w, pre ++ c :: post⟩)
    (hs : c.step api j sandbox store w = (c', w')) : Safe api j ⟨w', pre ++ c' :: post⟩ := by
  have hsound := h.sound c (List.mem_append_right _ List.mem_cons_self)
  have hkeep {c'' : ProofCall L R P} (hholds : ∀ e, c''.holds e = false)
      (hc : c''.Sound api j w.backend) : Safe api j ⟨w, pre ++ c'' :: post⟩ :=
    h.keep (.refl _) h.logged rfl rfl hholds hc
  unfold ProofCall.step at hs
  cases hp : c.point with
  | begin =>
    simp only [hp, ProofCall.Sound] at hs hsound
    split at hs
    · cases hs
      exact hkeep (fun _ => rfl) (finish_sound ..)
    · rename_i command _
      cases hs
      obtain ⟨hs, hh⟩ := choose_sound store w.receipts command hsound
      exact hkeep hh hs
    · cases hs
      exact hkeep (fun _ => rfl) (finish_sound ..)
    · cases hs
      exact hkeep (fun _ => rfl) (finish_sound ..)
  | admitIntent command =>
    simp only [hp, ProofCall.Sound] at hs hsound
    cases hs
    refine h.admitRecord hsound.1.headAt fun published entry hpending => ⟨?_, fun _ => rfl⟩
    exact ⟨hsound.1, hsound.2, hpending⟩
  | publishIntent command published entry =>
    simp only [hp] at hs
    have := h.publishIntent hf hp
    rwa [hs] at this
  | launch command =>
    simp only [hp, ProofCall.Sound] at hs hsound
    split at hs
    · cases hs
      exact hkeep (fun _ => rfl) (finish_sound ..)
    · cases hs
      refine h.move (.refl _) h.logged ?_ h.receipts hsound
      intro e n hn
      simp only [ProofCall.holds, hp, List.count_append, List.count_singleton] at hn ⊢
      cases hbeq : command.effectId == e with
      | false => simp only [hbeq, Bool.toNat_false, Bool.false_eq_true, if_false] at hn ⊢; exact hn
      | true =>
        simp only [hbeq, Bool.toNat_true, Bool.toNat_false, if_true] at hn ⊢
        omega
  | store command receipt =>
    simp only [hp, ProofCall.Sound] at hs hsound
    cases hs
    exact h.keep (.refl _) h.logged rfl rfl (fun _ => rfl) hsound
  | admitReceipt command receipt =>
    simp only [hp, ProofCall.Sound] at hs hsound
    cases hs
    exact h.admitRecord hsound fun published entry hpending => ⟨hpending, fun _ => rfl⟩
  | publishReceipt command receipt published entry =>
    simp only [hp] at hs
    have := h.publishReceipt hf hp
    rwa [hs] at this
  | done result =>
    simp only [hp] at hs
    cases hs
    exact h

/-- Whatever happens keeps the system safe. -/
theorem Safe.moves (hf : api.Faithful) (h : Safe api j y)
    (hm : Moves api j sandbox store y y') : Safe api j y' := by
  cases hm with
  | begin hpre =>
    refine ⟨h.logged, ?_, h.receipts, ?_⟩
    · intro e
      have := h.once e
      rwa [List.countP_cons_of_neg (by simp [ProofCall.holds])]
    · intro c hc
      rcases List.mem_cons.mp hc with rfl | hc
      · exact hpre
      · exact h.sound c hc
  | step hs => exact h.step hf hs
  | stop =>
    refine ⟨h.logged, ?_, h.receipts, ?_⟩
    · intro e
      have := h.once e
      simp only [List.countP_append, List.countP_cons] at this ⊢
      omega
    · intro x hx
      refine h.sound x ?_
      rcases List.mem_append.mp hx with hx | hx
      · exact List.mem_append_left _ hx
      · exact List.mem_append_right _ (List.mem_cons_of_mem _ hx)
  | write ha =>
    obtain ⟨v, state, hlog⟩ := h.logged
    simp only at hlog
    obtain ⟨⟨published, entry⟩, _, hobserve, hpub⟩ := Effect.bind_eq_ok_iff.mp ha
    obtain ⟨hadm, rfl⟩ := Effect.observe_eq_ok_iff.mp hobserve
    replace hpub := Effect.mapError_eq_ok_iff.mp hpub
    obtain ⟨hlog', -⟩ := hlog.publish hf hadm hpub
    refine ⟨hlog', ?_, ?_, fun c hc => (h.sound c hc).mono (.publish hf hpub)⟩
    · intro e
      refine (h.once e).trans ?_
      rw [List.any_append]
      generalize List.any _ _ = old
      cases old
      · exact Nat.zero_le _
      · exact Nat.le_refl 1
    · intro e
      exact countP_append_receipt (h.receipts e)
        (no_receipt_of_admitRecord hlog hlog.verify hlog.read (.refl _) rfl hadm)
  | refused ha =>
    obtain ⟨v, state, hlog⟩ := h.logged
    simp only at hlog
    obtain hadm | ⟨⟨published, entry⟩, _, hadm, hpub⟩ := Effect.bind_eq_error_iff.mp ha
    · obtain ⟨-, rfl⟩ := Effect.observe_eq_error_iff.mp hadm
      exact h
    · obtain ⟨-, rfl⟩ := Effect.observe_eq_ok_iff.mp hadm
      obtain ⟨_, hpub⟩ := Effect.mapError_eq_error hpub
      exact ⟨⟨v, state, hlog.refused hf hpub⟩, h.once, h.receipts,
        fun c hc => (h.sound c hc).mono (.publish hf hpub)⟩
  | put hput =>
    obtain ⟨v, state, hlog⟩ := h.logged
    simp only at hlog
    obtain ⟨state', hr', hle⟩ := hf.put_read hput hlog.read
    refine ⟨⟨v, state', (hf.put_verify hput).trans hlog.verify, hr', hlog.increasing,
      hlog.carries.imp fun _ _ hc => hc.mono hle⟩, h.once, h.receipts,
      fun c hc => (h.sound c hc).mono (.put hf hput)⟩

/-- Nothing has been written and nobody has called. -/
def LaunchSystem.initial (backend : σ) (receipts : ρ) : LaunchSystem σ ρ L R P :=
  ⟨⟨backend, receipts, [], []⟩, []⟩

theorem safe_initial (hfresh : Fresh api s) (receipts : ρ) :
    Safe api j (LaunchSystem.initial s receipts : LaunchSystem σ ρ L R P) := by
  obtain ⟨state, hr⟩ := hfresh.read
  refine ⟨⟨⟨[], none⟩, state, hfresh.verify, hr, .nil, .nil⟩, ?_, ?_, ?_⟩
  · intro e
    exact Nat.le_refl 0
  · intro e
    exact Nat.zero_le 1
  · intro c hc
    cases hc

/-- A call that is left alone is a sequence of moves. -/
theorem moves_run (n : Nat) (pre : List (ProofCall L R P)) (c : ProofCall L R P)
    (post : List (ProofCall L R P)) (w : World σ ρ) :
    Relation.ReflTransGen (Moves api j sandbox store) ⟨w, pre ++ c :: post⟩
      ⟨(ProofCall.run api j sandbox store n (c, w)).2,
        pre ++ (ProofCall.run api j sandbox store n (c, w)).1 :: post⟩ := by
  induction n generalizing c w with
  | zero => exact .refl
  | succ n ih => exact .head (.step rfl) (ih _ _)

/-- In every interleaving of workers over one journal the launcher runs at most once for an
effect, and the journal gets at most one receipt of it. -/
theorem launched_at_most_once (hf : api.Faithful) (hfresh : Fresh api s)
    (h : Relation.ReflTransGen (Moves api j sandbox store) (LaunchSystem.initial s receipts) y)
    (e : String) :
    y.world.launches.count e ≤ 1 ∧ y.world.appended.countP (·.receives e) ≤ 1 := by
  have hsafe : Safe api j y := by
    induction h with
    | refl => exact safe_initial hfresh receipts
    | tail _ hm ih => exact ih.moves hf hm
  refine ⟨?_, hsafe.receipts e⟩
  have hbool : (y.world.appended.any (·.requests e)).toNat ≤ 1 := Bool.toNat_le _
  have := hsafe.once e
  omega

end

/-! ## Two workers -/

namespace Sample

/-- A sandbox that admits every request and proves every control. -/
def sandbox : SandboxApi Unit (SandboxDraft Unit) Unit where
  request := .ok
  provesRequired _ _ := true
  sha256 bytes := ⟨.qualified "core" "sha256", (Memory.digest bytes).bytes,
    (Memory.digest bytes).size_bytes⟩

def receiptStore : ProofReceiptStore (SortedMap String TypedProofReceipt) where
  inspect receipts effectId := receipts.get? effectId
  record effectId receipt receipts := receipts.insert effectId receipt

def command : CommandProof Unit where
  name := "build"
  effectId := "effect"
  program := "builder"
  argv := ["check"]
  workingDirectory := SOURCE_ROOT
  environment := ∅
  allowedEnvironmentKeys := ∅
  sourceMount := "source"
  scratchMount := none
  sourceReadOnly := true
  limits := ()
  expected := ⟨⟨sandbox.sha256 []⟩, 0⟩

theorem validate_command : (ProofLeaf.command command).validate = .ok () := by decide +kernel

def execution : JournaledProofExecution Unit (SandboxDraft Unit) Unit where
  catalog := {
    leaves := SortedMap.insert ∅ "build" (.command command)
    valid := by
      intro k leaf h
      rw [SortedMap.get?_insert] at h
      split at h
      · cases h
        exact ⟨Eq.symm ‹_›, validate_command⟩
      · cases h }
  name := "build"
  launcher _ := .completed ⟨0, [], [], ⟨"launcher", "cleanup", false, ()⟩⟩
  observedAt := "now"

abbrev ProofWorld := World Memory.Backend (SortedMap String TypedProofReceipt)

def runProof (st : RebuiltExecution) (w : ProofWorld) :=
  ProofCall.run Memory.api journal sandbox receiptStore 7 (⟨execution, st, .begin⟩, w)

def genesis : ExecutionRecord := .executionOpened pins none

def written : Memory.Backend := (append genesis [] .empty).2

def afterGenesis (backend : Memory.Backend) : ProofWorld := ⟨backend, ∅, [], [genesis]⟩

/-- The launches of two workers that have both read the genesis, one after the other. -/
def launchesOfTwo (backend : Memory.Backend) : Except ExecutionJournalError (List String) :=
  (journal.rebuild Memory.api backend).map fun st =>
    (runProof st (runProof st (afterGenesis backend)).2).2.launches

end Sample

theorem launched_at_most_once_two_workers :
    ∃ y, Relation.ReflTransGen
        (Moves Memory.api Sample.journal Sample.sandbox Sample.receiptStore)
        (LaunchSystem.initial .empty ∅) y ∧
      y.calls.length = 2 ∧ "effect" ∈ y.world.launches ∧
      y.world.launches.count "effect" ≤ 1 ∧
      y.world.appended.countP (·.receives "effect") ≤ 1 := by
  have hlaunches : Sample.launchesOfTwo Sample.written = .ok ["effect"] := by decide +kernel
  obtain ⟨head, hhead⟩ := Except.exists_of_isOk
    (x := (Sample.append Sample.genesis [] .empty).1) (by decide +kernel)
  have hwrite : Sample.append Sample.genesis [] .empty = (.ok head, Sample.written) := by
    rw [← hhead, Sample.written]
  generalize Sample.written = backend at hlaunches hwrite
  obtain ⟨st, hst, hmap⟩ := Except.map_eq_ok_iff.mp hlaunches
  have hholds := holdsPrefix_of_rebuild Memory.faithful hst
  have hwritten : Moves Memory.api Sample.journal Sample.sandbox Sample.receiptStore
      (LaunchSystem.initial .empty ∅) ⟨Sample.afterGenesis backend, []⟩ := .write hwrite
  -- both workers begin before either of them takes a step
  have hbegin : Relation.ReflTransGen
      (Moves Memory.api Sample.journal Sample.sandbox Sample.receiptStore)
      (LaunchSystem.initial .empty ∅) ⟨Sample.afterGenesis backend,
        [⟨Sample.execution, st, .begin⟩, ⟨Sample.execution, st, .begin⟩]⟩ :=
    ((Relation.ReflTransGen.single hwritten).tail (.begin hholds)).tail (.begin hholds)
  have hfirst := hbegin.trans (moves_run 7 [] _ [_] _)
  have hreach := hfirst.trans (moves_run 7 [_] _ [] _)
  refine ⟨_, hreach, rfl, ?_, launched_at_most_once Memory.faithful ⟨⟨_, rfl⟩, rfl⟩ hreach "effect"⟩
  exact hmap ▸ List.mem_cons_self

end SimAgentNet.RoadmapRunner
