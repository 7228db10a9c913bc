import SimAgentNet.RoadmapRunner.Memory

/-! # Rebuilding after an append

What one entry contributes to the loop of `rebuild`, that the loop does not depend on objects
stored later, and what an accepted append leaves for the next loop. From these follows exactly
which appends leave a journal that can be rebuilt. -/

namespace SimAgentNet.RoadmapRunner

theorem present_eq_ok_iff {v : Option α} : present v = .ok a ↔ v = some a := by
  cases v <;> simp [present]

theorem budgeted_eq_ok_iff : budgeted (checkedAdd a b) = .ok n ↔ a + b < 2 ^ 64 ∧ n = a + b := by
  unfold checkedAdd
  split <;> simp_all [budgeted, eq_comm]

section Objects
variable {state state' : StoredState}

/-- The bytes of the listed objects, all present. -/
def sizeOf (state : StoredState) (ids : List ContentId) : Nat :=
  (ids.map fun i => ((state.objects.get? i).map List.length).getD 0).sum

theorem addObject_eq_ok_iff :
    addObject state total i = .ok n ↔
      ∃ b, state.objects.get? i = some b ∧ total + b.length < 2 ^ 64 ∧ n = total + b.length := by
  simp only [addObject, Except.bind_eq_ok_iff, present_eq_ok_iff, budgeted_eq_ok_iff]

theorem foldlM_addObject_eq_ok_iff {ids : List ContentId} (ht : total < 2 ^ 64) :
    ids.foldlM (addObject state) total = .ok n ↔
      (∀ i ∈ ids, ∃ b, state.objects.get? i = some b) ∧ total + sizeOf state ids < 2 ^ 64 ∧
        n = total + sizeOf state ids := by
  induction ids generalizing total with
  | nil =>
    simp only [List.foldlM_nil, sizeOf, List.map_nil, List.sum_nil]
    constructor
    · intro h; cases h; simpa using ht
    · intro h; rw [h.2.2]; rfl
  | cons i ids ih =>
    rw [Run.foldlM_cons_eq_ok_iff]
    constructor
    · intro ⟨m, hm, h⟩
      obtain ⟨b, hb, hlt, rfl⟩ := addObject_eq_ok_iff.mp hm
      obtain ⟨hall, hsum, rfl⟩ := (ih hlt).mp h
      have hs : sizeOf state (i :: ids) = b.length + sizeOf state ids := by simp [sizeOf, hb]
      refine ⟨?_, by omega, by omega⟩
      intro k hk
      rcases List.mem_cons.mp hk with rfl | hk
      · exact ⟨b, hb⟩
      · exact hall k hk
    · intro ⟨hall, hsum, hn⟩
      obtain ⟨b, hb⟩ := hall i List.mem_cons_self
      have hs : sizeOf state (i :: ids) = b.length + sizeOf state ids := by simp [sizeOf, hb]
      have hlt : total + b.length < 2 ^ 64 := by omega
      exact ⟨_, addObject_eq_ok_iff.mpr ⟨b, hb, hlt, rfl⟩, (ih hlt).mpr
        ⟨fun k hk => hall k (List.mem_cons_of_mem _ hk), by omega, by omega⟩⟩

theorem sizeOf_congr {ids : List ContentId} (hle : state.Le state')
    (h : ∀ i ∈ ids, ∃ b, state.objects.get? i = some b) : sizeOf state' ids = sizeOf state ids := by
  unfold sizeOf
  congr 1
  apply List.map_congr_left
  intro i hi
  obtain ⟨b, hb⟩ := h i hi
  rw [hb, hle.objects hb]

end Objects

section Step
variable {σ : Type} {api : JournalApi σ} {state state' : StoredState} {executionId : String}

theorem replayDelta_eq_ok_iff {c c' : CausalReplay} :
    replayDelta state c n changes root = .ok c' ↔
      ∃ facts changed d evidence, applyChanges c.causal.facts changes n = .ok (facts, changed) ∧
        state.datums.get? root = some d ∧ parseEvidenceSet d = .ok evidence ∧
        c.causal.evidence ⊆ evidence ∧ (changed ∨ evidence ≠ c.causal.evidence) ∧
        c' = { c with causal := ⟨facts, evidence⟩, evidenceSet := root } := by
  simp only [replayDelta, Except.bind_eq_ok_iff, present_eq_ok_iff, Except.guard_eq_ok_iff,
    Prod.exists, not_not, not_and_or, Except.ok.injEq]
  constructor
  · intro ⟨facts, changed, ha, d, hd, evidence, hp, hs, hc, he⟩
    exact ⟨facts, changed, d, evidence, ha, hd, hp, hs, hc, he.symm⟩
  · intro ⟨facts, changed, d, evidence, ha, hd, hp, hs, hc, he⟩
    exact ⟨facts, changed, ha, d, hd, evidence, hp, hs, hc, he.symm⟩

theorem replaySnapshot_eq_ok_iff {c c' : CausalReplay} :
    replaySnapshot api state c previous covers i root = .ok c' ↔
      previous = some covers ∧ root = c.evidenceSet ∧
        state.datums.get? i = some (causalStateDatum c.causal root) ∧
        api.contentId (causalStateDatum c.causal root) = some i ∧
        c' = { c with snapshots := c.snapshots ++ [⟨covers, i, root⟩] } := by
  simp only [replaySnapshot, Except.bind_eq_ok_iff, present_eq_ok_iff, Except.guard_eq_ok_iff,
    not_or, not_not, ne_eq, and_assoc]
  refine and_congr .rfl (and_congr .rfl ?_)
  constructor
  · rintro ⟨d, hd, he, h⟩
    split at h
    · cases h
    · rename_i k hk
      obtain ⟨rfl, h⟩ := Except.guard_eq_ok_iff.mp h |>.imp_left not_not.mp
      exact ⟨he ▸ hd, hk, (Except.ok.inj h).symm⟩
  · rintro ⟨hd, hk, h⟩
    refine ⟨_, hd, rfl, ?_⟩
    rw [hk]
    simp [h]

/-- What an accepted entry consists of and what it makes of the loop's variables. -/
structure Replay.Accepts (api : JournalApi σ) (state : StoredState) (executionId : String)
    (r : Replay) (entry : JournalEntry) (r' : Replay) (first : ContentId) (rest : List ContentId)
    (value : Datum) (bytes : List UInt8) (record : ExecutionRecord) (cause : CausalReplay) :
    Prop where
  payloads : entry.payloads = first :: rest
  kind : entry.kind.ns = some "roadmap-execution"
  datum : state.datums.get? first = some value
  object : state.objects.get? first = some bytes
  decoded : decodeDatum value = .ok (executionId, record)
  refs : recordRefs record = .ofList rest
  present : ∀ i ∈ recordRefs record, ∃ b, state.objects.get? i = some b
  bound : r.total + bytes.length + sizeOf state (recordRefs record).elems < 2 ^ 64
  follows : Follows r.pins.isSome r.records record
  caused : replayCause api state r.cause entry record = .ok cause
  result : r' = {
    records := r.records ++ [record]
    pins := openedPins r.pins record
    total := r.total + bytes.length + sizeOf state (recordRefs record).elems
    cause
    retention := {
      entries := r.retention.entries.insert entry.id
      objects := r.retention.objects ∪ .ofList entry.payloads } }

theorem Replay.step_eq_ok_iff {r r' : Replay} :
    Replay.step api state executionId r entry = .ok r' ↔
      ∃ first rest value bytes record cause,
        Replay.Accepts api state executionId r entry r' first rest value bytes record cause := by
  unfold Replay.step
  constructor
  · intro h
    split at h
    · cases h
    · rename_i first rest hp
      obtain ⟨hk, h⟩ := Except.guard_eq_ok_iff.mp h
      simp only [Except.bind_eq_ok_iff, present_eq_ok_iff, budgeted_eq_ok_iff,
        Except.guard_eq_ok_iff, not_not] at h
      obtain ⟨value, hv, bytes, hb, total, ⟨hlt, rfl⟩, ⟨execution, record⟩, hd, he, hr, t, ht,
        _, hn, cause, hc, h⟩ := h
      subst he
      obtain ⟨hpres, hbound, rfl⟩ := (foldlM_addObject_eq_ok_iff hlt).mp ht
      exact ⟨first, rest, value, bytes, record, cause, hp, not_not.mp hk, hv, hb, hd, hr, hpres,
        hbound, validateNext_ok_iff.mp hn, hc, (Except.ok.inj h).symm⟩
  · intro ⟨first, rest, value, bytes, record, cause, h⟩
    rw [h.payloads]
    have hlt : r.total + bytes.length < 2 ^ 64 := by have := h.bound; omega
    simp only [Except.bind_eq_ok_iff, present_eq_ok_iff, budgeted_eq_ok_iff,
      Except.guard_eq_ok_iff, not_not]
    refine ⟨h.kind, value, h.datum, bytes, h.object, _, ⟨hlt, rfl⟩, _, h.decoded, rfl, h.refs, _,
      (foldlM_addObject_eq_ok_iff hlt).mpr ⟨h.present, h.bound, rfl⟩, (),
      validateNext_ok_iff.mpr h.follows, cause, h.caused, ?_⟩
    rw [h.result, h.payloads]
    rfl

/-- Storing more objects does not change what an accepted record causes. -/
theorem replayCause_mono (hle : state.Le state')
    (h : replayCause api state c entry record = .ok c') :
    replayCause api state' c entry record = .ok c' := by
  cases record with
  | semanticDelta cause changes root =>
    obtain ⟨facts, changed, d, evidence, ha, hd, hrest⟩ := replayDelta_eq_ok_iff.mp h
    exact replayDelta_eq_ok_iff.mpr ⟨facts, changed, d, evidence, ha, hle.datums hd, hrest⟩
  | snapshot covers i root =>
    obtain ⟨hp, hr, hd, hrest⟩ := replaySnapshot_eq_ok_iff.mp h
    exact replaySnapshot_eq_ok_iff.mpr ⟨hp, hr, hle.datums hd, hrest⟩
  | _ => exact h

theorem Replay.step_mono {r r' : Replay} (hle : state.Le state')
    (h : Replay.step api state executionId r entry = .ok r') :
    Replay.step api state' executionId r entry = .ok r' := by
  obtain ⟨first, rest, value, bytes, record, cause, h⟩ := Replay.step_eq_ok_iff.mp h
  have hs := sizeOf_congr hle h.present
  refine Replay.step_eq_ok_iff.mpr ⟨first, rest, value, bytes, record, cause, {
    payloads := h.payloads
    kind := h.kind
    datum := hle.datums h.datum
    object := hle.objects h.object
    decoded := h.decoded
    refs := h.refs
    present := fun i hi => (h.present i hi).imp fun b hb => hle.objects hb
    bound := by rw [hs]; exact h.bound
    follows := h.follows
    caused := replayCause_mono hle h.caused
    result := by rw [hs]; exact h.result }⟩

theorem Replay.run_mono {r r' : Replay} (hle : state.Le state')
    (h : List.foldlM (Replay.step api state executionId) r entries = .ok r') :
    List.foldlM (Replay.step api state' executionId) r entries = .ok r' := by
  induction entries generalizing r with
  | nil => exact h
  | cons e es ih =>
    obtain ⟨u, hu, he⟩ := Run.foldlM_cons_eq_ok_iff.mp h
    exact Run.foldlM_cons_eq_ok_iff.mpr ⟨u, Replay.step_mono hle hu, ih he⟩

/-- The root of the evidence set a history leaves: that of its last delta. -/
def evidenceRoot (emptySet : ContentId) (records : List ExecutionRecord) : ContentId :=
  (records.reverse.findSome? fun r => match r with
    | .semanticDelta _ _ root => some root
    | _ => none).getD emptySet

/-- What the loop's variables say about the records read so far. -/
structure Replay.Sound (emptySet : ContentId) (r : Replay) : Prop where
  opened : r.pins.isSome = !r.records.isEmpty
  root : r.cause.evidenceSet = evidenceRoot emptySet r.records
  bound : r.total < 2 ^ 64

theorem Replay.Sound.init (emptySet : ContentId) : (Replay.init emptySet).Sound emptySet where
  opened := rfl
  root := rfl
  bound := Nat.two_pow_pos 64

theorem evidenceSet_of_replayCause {c c' : CausalReplay}
    (h : replayCause api state c entry record = .ok c')
    (hc : c.evidenceSet = evidenceRoot emptySet records) :
    c'.evidenceSet = evidenceRoot emptySet (records ++ [record]) := by
  cases record with
  | semanticDelta cause changes root =>
    obtain ⟨_, _, _, _, -, -, -, -, -, rfl⟩ := replayDelta_eq_ok_iff.mp h
    simp [evidenceRoot]
  | snapshot covers i root =>
    obtain ⟨-, -, -, -, rfl⟩ := replaySnapshot_eq_ok_iff.mp h
    simpa [evidenceRoot] using hc
  | _ => cases h; simpa [evidenceRoot] using hc

theorem Replay.Sound.step {r r' : Replay} (hr : r.Sound emptySet)
    (h : Replay.step api state executionId r entry = .ok r') : r'.Sound emptySet := by
  obtain ⟨first, rest, value, bytes, record, cause, h⟩ := Replay.step_eq_ok_iff.mp h
  rw [h.result]
  refine ⟨?_, evidenceSet_of_replayCause h.caused hr.root, h.bound⟩
  have ho := h.follows.isOpened_eq
  have hne : (r.records ++ [record]).isEmpty = false := by simp
  rw [hne]
  cases record with
  | executionOpened => rfl
  | _ => simpa [openedPins, ExecutionRecord.isOpened] using ho

theorem Replay.sound_of_run
    (h : List.foldlM (Replay.step api state executionId) (Replay.init emptySet) entries = .ok r) :
    r.Sound emptySet :=
  Run.induct (P := fun _ r => Replay.Sound emptySet r) (.init emptySet)
    (fun _ _ _ _ hr hs => hr.step hs) h

end Step

/-! ## Loading a journal -/

section Load
variable {σ : Type} {api : JournalApi σ} {j : ExecutionJournal}

/-- The backend is readable and its entries replay. -/
structure Loaded (api : JournalApi σ) (j : ExecutionJournal) (s : σ) (state : StoredState)
    (v : Verification) (emptySet : ContentId) (r : Replay) : Prop where
  read : api.readState s = .ok state
  verify : api.verify s = .ok v
  root : api.contentId (evidenceSetDatum ∅) = some emptySet
  run : v.entries.foldlM (Replay.step api state j.executionId) (.init emptySet) = .ok r

theorem Loaded.rebuild_eq (h : Loaded api j s state v emptySet r) :
    j.rebuild api s = match v.head with
      | none => .error .empty
      | some head => j.finish head v.entries r := by
  unfold ExecutionJournal.rebuild
  rw [h.read, h.verify]
  cases hhead : v.head with
  | none | some head => simp only [Except.mapError, Except.ok_bind, h.root, h.run, hhead]

theorem ExecutionJournal.finish_eq_ok_iff :
    finish j head entries r = .ok st ↔
      r.total ≤ j.limits.maxExecutionBytes ∧ ∃ opening pins, entries.head? = some opening ∧
        r.pins = some pins ∧ st = {
          executionId := j.executionId
          pins
          records := r.records
          openingHead := ⟨opening.sequence, opening.id⟩
          head
          totalBytes := r.total
          causal := r.cause.causal
          snapshots := r.cause.snapshots
          retention := r.retention } := by
  unfold finish
  rw [Except.guard_eq_ok_iff, not_lt]
  refine and_congr .rfl ?_
  cases entries.head? with
  | none => simp
  | some opening =>
    cases r.pins with
    | none => simp
    | some pins => simp [eq_comm]

/-- A rebuilt state comes from a loaded journal. -/
theorem ExecutionJournal.loaded_of_rebuild (h : j.rebuild api s = .ok st) :
    ∃ state v emptySet r, Loaded api j s state v emptySet r ∧ v.head = some st.head ∧
      j.finish st.head v.entries r = .ok st := by
  simp only [rebuild, Except.bind_eq_ok_iff, Except.mapError_eq_ok_iff] at h
  obtain ⟨state, hs, v, hv, h⟩ := h
  split at h
  · cases h
  · rename_i head hh
    split at h
    · cases h
    · rename_i emptySet he
      obtain ⟨r, hr, h⟩ := Except.bind_eq_ok_iff.mp h
      have hhead : st.head = head := by
        obtain ⟨-, _, _, -, -, rfl⟩ := finish_eq_ok_iff.mp h
        rfl
      exact ⟨state, v, emptySet, r, ⟨hs, hv, he, hr⟩, hhead ▸ hh, hhead ▸ h⟩

/-- What is read before an append agrees with the loop's variables, also on an empty journal. -/
theorem Loaded.current (hf : api.Faithful) (h : Loaded api j s state v emptySet r)
    (hc : j.current api s = .ok c) :
    (c.map (·.records)).getD [] = r.records ∧ (c.map (·.totalBytes)).getD 0 = r.total ∧
      (c.map (·.retention.objects)).getD ∅ = r.retention.objects := by
  unfold ExecutionJournal.current at hc
  rw [h.rebuild_eq] at hc
  have hempty : v.entries = [] → r = .init emptySet := by
    intro he
    have := h.run
    rw [he] at this
    cases this; rfl
  split at hc
  · rename_i st hst
    cases hc
    split at hst
    · cases hst
    · obtain ⟨-, _, _, -, -, rfl⟩ := ExecutionJournal.finish_eq_ok_iff.mp hst
      exact ⟨rfl, rfl, rfl⟩
  · rename_i hst
    cases hc
    suffices v.entries = [] by rw [hempty this]; exact ⟨rfl, rfl, rfl⟩
    split at hst
    · rename_i hh
      rw [hf.verify_head h.verify] at hh
      simpa using hh
    · unfold ExecutionJournal.finish at hst
      split at hst
      · cases hst
      · split at hst
        · rename_i hn; simpa using hn
        · split at hst <;> cases hst
  · cases hc

end Load

/-! ## Appending -/

section Append
variable {σ : Type} {api : JournalApi σ} {j : ExecutionJournal}

/-- What the checks of an accepted append establish. -/
structure Admitted (api : JournalApi σ) (j : ExecutionJournal) (expected : Option JournalHead)
    (record : ExecutionRecord) (objects : List PreparedObject) (r : Replay)
    (o : JournalObject) (entry : JournalEntry) : Prop where
  follows : Follows (!r.records.isEmpty) r.records record
  object : api.datumObject (encodeDatum j.executionId record) = .ok (o.id, o.bytes)
  datum : o.datum = encodeDatum j.executionId record
  bound : r.total + (o.bytes.length + (objects.map (·.object.bytes.length)).sum) < 2 ^ 64
  budget : r.total + (o.bytes.length + (objects.map (·.object.bytes.length)).sum) ≤
    j.limits.maxExecutionBytes
  available : recordRefs record ⊆
    .ofList (objects.map (·.reference.content)) ∪ r.retention.objects
  matching : ∀ p ∈ objects, ExecutionJournal.objectMatches (recordRefs record) p
  id : entry.id = api.entryId entry.sequence entry.previous entry.kind entry.payloads
  payloads : entry.payloads = o.id :: objects.map (·.object.id)
  kind : entry.kind = .qualified "roadmap-execution" record.tag
  previous : entry.previous = expected.map (·.entry)

theorem Loaded.admitted (hf : api.Faithful) (h : Loaded api j s state v emptySet r)
    (ha : j.admitRecord api expected record objects s = .ok (published, entry)) :
    ∃ o, published = o :: objects.map (·.object) ∧
      Admitted api j expected record objects r o entry := by
  simp only [ExecutionJournal.admitRecord, Except.bind_eq_ok_iff, Except.guard_eq_ok_iff,
    Except.mapError_eq_ok_iff, budgeted_eq_ok_iff, not_lt, not_not] at ha
  obtain ⟨c, hc, _, hn, o, ho, -, added, ⟨-, rfl⟩, total, ⟨hlt, rfl⟩, hmax, hsub, hobj, he⟩ := ha
  obtain ⟨hrec, htot, hret⟩ := h.current hf hc
  rw [hrec] at hn
  rw [htot] at hlt hmax
  rw [hret] at hsub
  obtain ⟨⟨i, bytes⟩, hd, ho⟩ := Except.bind_eq_ok_iff.mp ho
  cases ho
  cases he
  exact ⟨_, rfl, {
    follows := validateNext_ok_iff.mp hn
    object := hd
    datum := rfl
    bound := hlt
    budget := hmax
    available := hsub
    matching := hobj
    id := rfl
    payloads := rfl
    kind := rfl
    previous := rfl }⟩

/-- The journal an accepted append leaves: one more entry, the objects stored, and the entries
before it replaying as they did. -/
structure Appended (api : JournalApi σ) (j : ExecutionJournal) (expected : Option JournalHead)
    (record : ExecutionRecord) (objects : List PreparedObject) (v : Verification)
    (emptySet : ContentId) (r : Replay) (head : JournalHead) (s' : σ) (state' : StoredState)
    (o : JournalObject) (entry : JournalEntry) : Prop where
  admitted : Admitted api j expected record objects r o entry
  expected_eq : v.head = expected
  read : api.readState s' = .ok state'
  verify : api.verify s' = .ok ⟨v.entries ++ [entry], some head⟩
  root : api.contentId (evidenceSetDatum ∅) = some emptySet
  run : v.entries.foldlM (Replay.step api state' j.executionId) (.init emptySet) = .ok r
  recorded : state'.Holds o
  holds : ∀ p ∈ objects, state'.Holds p.object

theorem Loaded.append (hf : api.Faithful) (h : Loaded api j s state v emptySet r)
    (ha : j.append api expected record objects s = (.ok head, s')) :
    ∃ state' o entry, Appended api j expected record objects v emptySet r head s' state' o entry := by
  obtain ⟨⟨published, entry⟩, s₁, hadm, hp⟩ := Effect.bind_eq_ok_iff.mp ha
  obtain ⟨hadm, rfl⟩ := Effect.observe_eq_ok_iff.mp hadm
  obtain ⟨o, rfl, ha⟩ := h.admitted hf hadm
  have hp := Effect.mapError_eq_ok_iff.mp hp
  obtain ⟨state', hread, hle, hholds⟩ := hf.publish_read hp h.read
  exact ⟨state', o, entry, {
    admitted := ha
    expected_eq := hf.publish_head hp h.verify
    read := hread
    verify := hf.publish_verify hp h.verify
    root := h.root
    run := Replay.run_mono hle h.run
    recorded := hholds o List.mem_cons_self
    holds := fun p hp => hholds _ (List.mem_cons_of_mem _ (List.mem_map.mpr ⟨p, hp, rfl⟩)) }⟩

/-- Rebuilding after an append replays one entry more. -/
theorem Appended.rebuild_eq
    (h : Appended api j expected record objects v emptySet r head s' state' o entry) :
    j.rebuild api s' = (do
      let r' ← Replay.step api state' j.executionId r entry
      j.finish head (v.entries ++ [entry]) r') := by
  unfold ExecutionJournal.rebuild
  rw [h.read, h.verify]
  simp only [Except.mapError, Except.ok_bind, h.root, List.foldlM_append, h.run, List.foldlM_cons,
    List.foldlM_nil]
  cases Replay.step api state' j.executionId r entry <;> rfl

theorem recordRefs_elems (record : ExecutionRecord) :
    (recordRefs record).elems = [] ∨ ∃ i, (recordRefs record).elems = [i] := by
  have hrefs (v : Option ObjectRef) : (refsOf v).elems = [] ∨ ∃ i, (refsOf v).elems = [i] := by
    cases v with
    | none => exact .inl rfl
    | some v => exact .inr ⟨v.content, rfl⟩
  cases record with
  | effectRequested _ _ input => exact hrefs input
  | effectReceipt _ _ output => exact hrefs output
  | proofResult _ _ evidence => exact hrefs evidence
  | semanticDelta _ _ root => exact .inr ⟨root, rfl⟩
  | snapshot _ i _ => exact .inr ⟨i, rfl⟩
  | _ => exact .inl rfl

section Spec
variable {record : ExecutionRecord} {objects : List PreparedObject} {o : JournalObject}
  {entry : JournalEntry} {r : Replay}

/-- Supplied objects are referenced, so they are all of the references or miss one. -/
theorem Admitted.refs_eq_iff (h : Admitted api j expected record objects r o entry) :
    recordRefs record = .ofList (objects.map (·.object.id)) ↔
      recordRefs record ⊆ .ofList (objects.map (·.object.id)) := by
  constructor
  · intro he
    rw [← he]
    exact SortedSet.subset_refl _
  · intro hsub
    apply SortedSet.ext
    intro i
    refine ⟨hsub i, ?_⟩
    intro hi
    obtain ⟨p, hp, rfl⟩ := List.mem_map.mp (SortedSet.mem_ofList.mp hi)
    obtain ⟨hm, he, -⟩ := h.matching p hp
    exact he ▸ hm

/-- The objects a record references do not outweigh the supplied ones. -/
theorem Appended.sizeOf_le
    (h : Appended api j expected record objects v emptySet r head s' state' o entry)
    (hsub : recordRefs record ⊆ .ofList (objects.map (·.object.id))) :
    sizeOf state' (recordRefs record).elems ≤ (objects.map (·.object.bytes.length)).sum := by
  rcases recordRefs_elems record with he | ⟨i, he⟩
  · rw [he]
    exact Nat.zero_le _
  · have hi : i ∈ recordRefs record := by
      rw [SortedSet.mem_def, he]
      exact List.mem_cons_self
    obtain ⟨p, hp, rfl⟩ := List.mem_map.mp (SortedSet.mem_ofList.mp (hsub i hi))
    have hb := (h.holds p hp).objects
    have hs : sizeOf state' [p.object.id] = p.object.bytes.length := by simp [sizeOf, hb]
    rw [he, hs]
    exact List.single_le_sum (fun _ _ => Nat.zero_le _) _ (List.mem_map.mpr ⟨p, hp, rfl⟩)

/-- The new entry replays to the record exactly when that record is read back, its objects are
all supplied and its cause is accepted. -/
theorem Appended.step_iff (hs : r.Sound emptySet)
    (h : Appended api j expected record objects v emptySet r head s' state' o entry) :
    (∃ r', Replay.step api state' j.executionId r entry = .ok r' ∧
        r'.records = r.records ++ [record] ∧ r'.cause = cause) ↔
      (FitsText j.executionId ∧ record.Fits) ∧
        recordRefs record ⊆ .ofList (objects.map (·.object.id)) ∧
        replayCause api state' r.cause entry record = .ok cause := by
  rw [← decodeDatum_encodeDatum_iff, ← h.admitted.refs_eq_iff]
  have hpay := h.admitted.payloads
  have hdat := h.admitted.datum ▸ h.recorded.datums
  constructor
  · intro ⟨r', hr, hrec, hcause⟩
    obtain ⟨first, rest, value, bytes, record', cause', ha⟩ := Replay.step_eq_ok_iff.mp hr
    rw [ha.result] at hrec hcause
    cases List.append_cancel_left hrec
    cases hcause
    obtain ⟨rfl, rfl⟩ := List.cons.inj (ha.payloads.symm.trans hpay)
    cases Option.some.inj (ha.datum.symm.trans hdat)
    exact ⟨ha.decoded, ha.refs, ha.caused⟩
  · intro ⟨hdec, href, hc⟩
    have hsz := h.sizeOf_le (h.admitted.refs_eq_iff.mp href)
    refine ⟨_, Replay.step_eq_ok_iff.mpr ⟨_, _, _, _, record, cause, {
      payloads := hpay
      kind := by rw [h.admitted.kind]; rfl
      datum := hdat
      object := h.recorded.objects
      decoded := hdec
      refs := href
      present := ?_
      bound := by have := h.admitted.bound; omega
      follows := by rw [hs.opened]; exact h.admitted.follows
      caused := hc
      result := rfl }⟩, rfl, rfl⟩
    intro i hi
    rw [href] at hi
    obtain ⟨p, hp, rfl⟩ := List.mem_map.mp (SortedSet.mem_ofList.mp hi)
    exact ⟨_, (h.holds p hp).objects⟩

theorem Appended.loaded
    (h : Appended api j expected record objects v emptySet r head s' state' o entry)
    (hr : Replay.step api state' j.executionId r entry = .ok r') :
    Loaded api j s' state' ⟨v.entries ++ [entry], some head⟩ emptySet r' where
  read := h.read
  verify := h.verify
  root := h.root
  run := Run.foldlM_concat_eq_ok_iff.mpr ⟨r, h.run, hr⟩

/-- A replay of the new entry as the appended record stays within the budget. -/
theorem Appended.finish_ok (hs : r.Sound emptySet)
    (h : Appended api j expected record objects v emptySet r head s' state' o entry)
    (hr : Replay.step api state' j.executionId r entry = .ok r')
    (hrec : r'.records = r.records ++ [record]) :
    ∃ st', j.finish head (v.entries ++ [entry]) r' = .ok st' := by
  have hsz := h.sizeOf_le ((h.step_iff hs).mp ⟨r', hr, hrec, rfl⟩).2.1
  have hopen : r'.pins.isSome = true := by
    rw [(hs.step hr).opened, hrec]
    simp
  obtain ⟨pins, hpins⟩ := Option.isSome_iff_exists.mp hopen
  obtain ⟨opening, hopening⟩ : ∃ e, (v.entries ++ [entry]).head? = some e := by
    cases v.entries <;> exact ⟨_, rfl⟩
  obtain ⟨first, rest, value, bytes, record', cause, ha⟩ := Replay.step_eq_ok_iff.mp hr
  refine ⟨_, ExecutionJournal.finish_eq_ok_iff.mpr ⟨?_, opening, pins, hopening, hpins, rfl⟩⟩
  obtain ⟨rfl, rfl⟩ := List.cons.inj (ha.payloads.symm.trans h.admitted.payloads)
  cases Option.some.inj (ha.object.symm.trans h.recorded.objects)
  have hrec' : record' = record := by
    rw [ha.result] at hrec
    cases List.append_cancel_left hrec
    rfl
  have := h.admitted.budget
  rw [ha.result, hrec']
  show r.total + o.bytes.length + sizeOf state' (recordRefs record).elems ≤ _
  omega

end Spec

/-! ## Which appends can be rebuilt -/

/-- What a delta or a snapshot needs beyond the checks of `append`, in the state before it. -/
def CauseHolds (api : JournalApi σ) (st : RebuiltExecution) (objects : List PreparedObject) :
    ExecutionRecord → Prop
  | .semanticDelta _ changes root =>
    (∀ c ∈ changes, c.key ≠ "") ∧ BeforeMatches st.causal.facts changes ∧
      ∃ p ∈ objects, p.object.id = root ∧
        ∃ evidence, parseEvidenceSet p.object.datum = .ok evidence ∧
          st.causal.evidence ⊆ evidence ∧ (anyChange changes ∨ evidence ≠ st.causal.evidence)
  | .snapshot covers i root =>
    covers = st.head.entry ∧
      (∃ emptySet, api.contentId (evidenceSetDatum ∅) = some emptySet ∧
        root = evidenceRoot emptySet st.records) ∧
      (∃ p ∈ objects, p.object.id = i ∧ p.object.datum = causalStateDatum st.causal root) ∧
      api.contentId (causalStateDatum st.causal root) = some i
  | _ => True

/-- The appends that leave a journal that can be rebuilt: the codec gives the record back, every
referenced object is supplied again, and a delta or snapshot agrees with the causal state. -/
structure Rebuildable (api : JournalApi σ) (j : ExecutionJournal) (st : RebuiltExecution)
    (record : ExecutionRecord) (objects : List PreparedObject) : Prop where
  fits : FitsText j.executionId ∧ record.Fits
  supplied : recordRefs record ⊆ .ofList (objects.map (·.object.id))
  cause : CauseHolds api st objects record

theorem Appended.datum_iff {record : ExecutionRecord} {objects : List PreparedObject}
    (h : Appended api j expected record objects v emptySet r head s' state' o entry)
    (hi : i ∈ recordRefs record)
    (hsub : recordRefs record ⊆ .ofList (objects.map (·.object.id))) :
    state'.datums.get? i = some d ↔ ∃ p ∈ objects, p.object.id = i ∧ p.object.datum = d := by
  constructor
  · intro hd
    obtain ⟨p, hp, rfl⟩ := List.mem_map.mp (SortedSet.mem_ofList.mp (hsub i hi))
    exact ⟨p, hp, rfl, Option.some.inj ((h.holds p hp).datums.symm.trans hd)⟩
  · intro ⟨p, hp, he, hd⟩
    rw [← he, ← hd]
    exact (h.holds p hp).datums

/-- Replaying the cause of the new entry succeeds exactly under `CauseHolds`. -/
theorem Appended.cause_iff {record : ExecutionRecord} {objects : List PreparedObject}
    {r : Replay} {st : RebuiltExecution}
    (h : Appended api j expected record objects v emptySet r head s' state' o entry)
    (hs : r.Sound emptySet) (hst : j.finish st.head v.entries r = .ok st)
    (hhead : v.head = some st.head)
    (hsub : recordRefs record ⊆ .ofList (objects.map (·.object.id))) :
    (∃ cause, replayCause api state' r.cause entry record = .ok cause) ↔
      CauseHolds api st objects record := by
  have hcausal : st.causal = r.cause.causal := by
    obtain ⟨-, _, _, -, -, he⟩ := ExecutionJournal.finish_eq_ok_iff.mp hst
    rw [he]
  have hrecords : st.records = r.records := by
    obtain ⟨-, _, _, -, -, he⟩ := ExecutionJournal.finish_eq_ok_iff.mp hst
    rw [he]
  cases record with
  | semanticDelta cause changes root =>
    have hroot : root ∈ recordRefs (.semanticDelta cause changes root) :=
      SortedSet.mem_insert.mpr (.inl rfl)
    have hnd : (changes.map (·.key)).Nodup := by
      have hf := h.admitted.follows
      unfold Follows at hf
      split at hf
      · exact hf.2.2
      · cases hf
    simp only [replayCause, replayDelta_eq_ok_iff, CauseHolds, hcausal, applyChanges_ok_iff,
      h.datum_iff hroot hsub]
    constructor
    · rintro ⟨_, _, _, d, evidence, ⟨hk, _, hb, _, hc⟩, ⟨p, hp, hi, hd⟩, he, hle, hch, _⟩
      exact ⟨hk, hb, p, hp, hi, evidence, hd ▸ he, hle, hc ▸ hch⟩
    · rintro ⟨hk, hb, p, hp, hi, evidence, he, hle, hch⟩
      exact ⟨_, _, _, _, evidence, ⟨hk, hnd, hb, rfl, rfl⟩, ⟨p, hp, hi, rfl⟩, he, hle, hch, rfl⟩
  | snapshot covers i root =>
    have hi : i ∈ recordRefs (.snapshot covers i root) := SortedSet.mem_insert.mpr (.inl rfl)
    simp only [replayCause, replaySnapshot_eq_ok_iff, CauseHolds, hcausal, hrecords,
      h.datum_iff hi hsub, h.root, hs.root, h.admitted.previous, ← h.expected_eq, hhead]
    simp [eq_comm]
  | _ => exact ⟨fun _ => trivial, fun _ => ⟨_, rfl⟩⟩

/-- After an accepted append the journal is rebuilt to one record more, at the head returned,
exactly when the append is `Rebuildable`. -/
theorem rebuild_append_iff (hf : api.Faithful) {st : RebuiltExecution}
    {objects : List PreparedObject} (h : j.rebuild api s = .ok st)
    (ha : j.append api expected record objects s = (.ok head, s')) :
    (∃ st', j.rebuild api s' = .ok st' ∧ st'.records = st.records ++ [record] ∧
      st'.head = head) ↔ Rebuildable api j st record objects := by
  obtain ⟨state, v, emptySet, r, hl, hhead, hst⟩ := ExecutionJournal.loaded_of_rebuild h
  obtain ⟨state', o, entry, happ⟩ := hl.append hf ha
  have hs := Replay.sound_of_run hl.run
  have hrecords : st.records = r.records := by
    obtain ⟨-, _, _, -, -, he⟩ := ExecutionJournal.finish_eq_ok_iff.mp hst
    rw [he]
  rw [hrecords]
  constructor
  · intro ⟨st', hst', hrec, hh⟩
    rw [happ.rebuild_eq, Except.bind_eq_ok_iff] at hst'
    obtain ⟨r', hr', hfin⟩ := hst'
    have hrec' : r'.records = r.records ++ [record] := by
      obtain ⟨-, _, _, -, -, he⟩ := ExecutionJournal.finish_eq_ok_iff.mp hfin
      rw [← hrec, he]
    obtain ⟨hfits, hsub, hcause⟩ := (happ.step_iff hs).mp ⟨r', hr', hrec', rfl⟩
    exact ⟨hfits, hsub, (happ.cause_iff hs hst hhead hsub).mp ⟨_, hcause⟩⟩
  · intro hr
    obtain ⟨cause, hcause⟩ := (happ.cause_iff hs hst hhead hr.supplied).mpr hr.cause
    obtain ⟨r', hr', hrec, -⟩ := (happ.step_iff hs).mpr ⟨hr.fits, hr.supplied, hcause⟩
    obtain ⟨st', hfin⟩ := happ.finish_ok hs hr' hrec
    refine ⟨st', ?_, ?_, ?_⟩
    · rw [happ.rebuild_eq, hr']
      exact hfin
    · obtain ⟨-, _, _, -, -, he⟩ := ExecutionJournal.finish_eq_ok_iff.mp hfin
      rw [he, ← hrec]
    · obtain ⟨-, _, _, -, -, he⟩ := ExecutionJournal.finish_eq_ok_iff.mp hfin
      rw [he]

theorem rebuild_congr {s s' : σ} (hv : api.verify s' = api.verify s)
    (hr : api.readState s' = api.readState s) : j.rebuild api s' = j.rebuild api s := by
  unfold ExecutionJournal.rebuild
  rw [hv, hr]

/-- A refused append leaves the journal as it was. -/
theorem rebuild_of_append_error (hf : api.Faithful)
    (ha : j.append api expected record objects s = (.error e, s')) :
    j.rebuild api s' = j.rebuild api s := by
  obtain hadm | ⟨⟨published, entry⟩, s₁, hadm, hp⟩ := Effect.bind_eq_error_iff.mp ha
  · obtain ⟨-, rfl⟩ := Effect.observe_eq_error_iff.mp hadm
    rfl
  · obtain ⟨-, rfl⟩ := Effect.observe_eq_ok_iff.mp hadm
    obtain ⟨e', hp⟩ := Effect.mapError_eq_error hp
    obtain ⟨hv, hr⟩ := hf.publish_refused hp
    exact rebuild_congr hv hr

/-- An accepted append of a record that does not open was made to a journal that is rebuilt. When
it is rebuilt again, it has one record more, the one the codec reads for the appended one. -/
theorem rebuild_of_append_ok (hf : api.Faithful)
    (ha : j.append api expected record objects s = (.ok head, s')) (ho : record.isOpened = false) :
    ∃ st, j.rebuild api s = .ok st ∧ ∀ st', j.rebuild api s' = .ok st' →
      ∃ record', decodeDatum (encodeDatum j.executionId record) = .ok (j.executionId, record') ∧
        st'.records = st.records ++ [record'] := by
  have hst : ∃ st, j.rebuild api s = .ok st := by
    obtain ⟨⟨published, entry⟩, s₁, hadm, -⟩ := Effect.bind_eq_ok_iff.mp ha
    obtain ⟨hadm, rfl⟩ := Effect.observe_eq_ok_iff.mp hadm
    obtain ⟨c, hc, hrest⟩ := Except.bind_eq_ok_iff.mp hadm
    obtain ⟨_, hn, -⟩ := Except.bind_eq_ok_iff.mp hrest
    -- without a state only the genesis is accepted
    unfold ExecutionJournal.current at hc
    split at hc
    · exact ⟨_, ‹_›⟩
    · cases hc
      have hopen := (validateNext_ok_iff.mp hn).isOpened_eq
      rw [ho] at hopen
      cases hopen
    · cases hc
  obtain ⟨st, hst⟩ := hst
  refine ⟨st, hst, ?_⟩
  intro st' hst'
  obtain ⟨state, v, emptySet, r, hl, hhead, hfin⟩ := ExecutionJournal.loaded_of_rebuild hst
  obtain ⟨state', o, entry, happ⟩ := hl.append hf ha
  rw [happ.rebuild_eq, Except.bind_eq_ok_iff] at hst'
  obtain ⟨r', hr', hfin'⟩ := hst'
  obtain ⟨-, _, _, -, -, he⟩ := ExecutionJournal.finish_eq_ok_iff.mp hfin
  obtain ⟨-, _, _, -, -, he'⟩ := ExecutionJournal.finish_eq_ok_iff.mp hfin'
  obtain ⟨first, rest, value, bytes, record', cause, hacc⟩ := Replay.step_eq_ok_iff.mp hr'
  obtain ⟨rfl, rfl⟩ := List.cons.inj (hacc.payloads.symm.trans happ.admitted.payloads)
  cases Option.some.inj
    (hacc.datum.symm.trans (happ.admitted.datum ▸ happ.recorded.datums))
  refine ⟨record', hacc.decoded, ?_⟩
  rw [he', he, hacc.result]

/-- Accepted appends, each of them rebuildable in the state it was made in. -/
inductive AppendRun (api : JournalApi σ) (j : ExecutionJournal) (s : σ) :
    List ExecutionRecord → σ → Prop
  | nil : AppendRun api j s [] s
  | snoc : AppendRun api j s records s' → j.rebuild api s' = .ok st →
    j.append api expected record objects s' = (.ok head, s'') →
    Rebuildable api j st record objects → AppendRun api j s (records ++ [record]) s''

/-- Along every such run the journal is rebuilt with the records appended so far, and the next
accepted append is rebuilt too exactly when it is rebuildable in the state reached. -/
theorem rebuild_appendRun (hf : api.Faithful) (h : j.rebuild api s = .ok st)
    (hrun : AppendRun api j s records s') :
    ∃ st', j.rebuild api s' = .ok st' ∧ st'.records = st.records ++ records ∧
      ∀ expected record objects head s'',
        j.append api expected record objects s' = (.ok head, s'') →
        ((∃ st'', j.rebuild api s'' = .ok st'' ∧ st''.records = st'.records ++ [record] ∧
          st''.head = head) ↔ Rebuildable api j st' record objects) := by
  suffices ∃ st', j.rebuild api s' = .ok st' ∧ st'.records = st.records ++ records by
    obtain ⟨st', hst', hrec⟩ := this
    exact ⟨st', hst', hrec, fun _ _ _ _ _ ha => rebuild_append_iff hf hst' ha⟩
  induction hrun with
  | nil => exact ⟨st, h, by simp⟩
  | snoc _ hst₁ ha hr ih =>
    obtain ⟨st', hst', hrec⟩ := ih
    cases hst'.symm.trans hst₁
    obtain ⟨st'', hst'', hrec'', -⟩ := (rebuild_append_iff hf hst' ha).mpr hr
    exact ⟨st'', hst'', by rw [hrec'', hrec, List.append_assoc]⟩

end Append

/-! ## A journal with a retained packet -/

namespace Sample
open ExecutionJournal

def journal : ExecutionJournal := ⟨"execution", .default⟩

def pins : ExecutionPins where
  conduct := "conduct"
  policy := "policy"
  sourceDeck := .ofByte (.qualified "deck" "sha256-v1") 1
  modelPick := "model"
  runnerGeneration := "runner"

def opened : Memory.Backend := (journal.open Memory.api pins none .empty).2

def packet : PreparedObject where
  reference := {
    kind := .packet
    content := (Memory.api.objectFromBytes [1, 2, 3]).id
    bytes := 3
    summary := "packet" }
  object := Memory.api.objectFromBytes [1, 2, 3]

def request : ExecutionRecord := .effectRequested "effect" "leaf" (some packet.reference)
def receipt : ExecutionRecord := .effectReceipt "effect" "done" (some packet.reference)

def append (record : ExecutionRecord) (objects : List PreparedObject) (s : Memory.Backend) :=
  journal.append Memory.api (Memory.headOf s.entries) record objects s

/-- The packet is supplied with the request and retained from then on. -/
def requested : Memory.Backend := (append request [packet] opened).2

/-- The journal is rebuilt until it holds the receipt. -/
theorem retained_evaluated :
    (journal.rebuild Memory.api opened).isOk ∧ (append request [packet] opened).1.isOk ∧
    (journal.rebuild Memory.api requested).isOk ∧ (append receipt [] requested).1.isOk ∧
    journal.rebuild Memory.api (append receipt [] requested).2 = .error .missingObject := by
  decide +kernel

end Sample

theorem rebuild_appendRun_request :
    ∃ st st', Sample.journal.rebuild Memory.api Sample.opened = .ok st ∧
      Sample.journal.rebuild Memory.api Sample.requested = .ok st' ∧
      st'.records = st.records ++ [Sample.request] := by
  obtain ⟨st, hst⟩ := Except.exists_of_isOk Sample.retained_evaluated.1
  obtain ⟨head, hhead⟩ := Except.exists_of_isOk Sample.retained_evaluated.2.1
  have hr : Rebuildable Memory.api Sample.journal st Sample.request [Sample.packet] :=
    ⟨by decide +kernel, by decide +kernel, trivial⟩
  have ha : Sample.append Sample.request [Sample.packet] Sample.opened =
      (.ok head, Sample.requested) := by
    rw [← hhead, Sample.requested]
  obtain ⟨st', hst', hrec, -⟩ := rebuild_appendRun Memory.faithful hst (.snoc .nil hst ha hr)
  exact ⟨st, st', hst, hst', hrec⟩

/-- A receipt that references the retained packet without supplying it again is accepted, and no
rebuild succeeds after it. -/
theorem receipt_of_retained_packet_lost :
    Memory.api.Faithful ∧
      (Sample.journal.rebuild Memory.api Sample.requested).isOk ∧
      (Sample.append Sample.receipt [] Sample.requested).1.isOk ∧
      Sample.journal.rebuild Memory.api (Sample.append Sample.receipt [] Sample.requested).2 =
        .error .missingObject :=
  ⟨Memory.faithful, Sample.retained_evaluated.2.2⟩

end SimAgentNet.RoadmapRunner
