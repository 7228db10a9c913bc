import SimAgentNet.RoadmapRunner.Journal

/-! # A journal in memory

The generic journal over a backend that keeps everything in memory, with a polynomial digest in
place of the cryptographic one. `Memory.faithful` shows that the laws the execution journal relies
on can be met together. -/

namespace SimAgentNet.RoadmapRunner.Memory

mutual
/-- The stored bytes of a datum. -/
def serialize : Datum → List UInt8
  | .nil => [0]
  | .bool v => [1, v.toUInt8]
  | .number v => 2 :: (Text.utf8 v.domain.display ++ Text.utf8 v.canonical)
  | .symbol v => 3 :: Text.utf8 v.display
  | .string v => 4 :: Text.utf8 v
  | .bytes v => 5 :: v
  | .list vs => 6 :: serializeList vs
  | .vector vs => 7 :: serializeList vs
  | .map vs => 8 :: serializePairs vs
  | .set vs => 9 :: serializeList vs
  | .node tag fields => 10 :: (Text.utf8 tag.display ++ serializeFields fields)
termination_by structural d => d

def serializeList : List Datum → List UInt8
  | [] => [11]
  | d :: ds => serialize d ++ serializeList ds
termination_by structural ds => ds

def serializePairs : List (Datum × Datum) → List UInt8
  | [] => [11]
  | (k, v) :: ds => serialize k ++ serialize v ++ serializePairs ds
termination_by structural ds => ds

def serializeFields : List (Symbol × Datum) → List UInt8
  | [] => [11]
  | (n, v) :: ds => Text.utf8 n.display ++ serialize v ++ serializeFields ds
termination_by structural ds => ds
end

def digest (bytes : List UInt8) : ContentId where
  algorithm := .qualified "core" "digest-v1"
  bytes := BigEndian.bytes 32 (bytes.foldl (fun h b => 257 * h + b.toNat + 1) 7)
  size_bytes := BigEndian.length_bytes 32 _

structure Backend where
  state : StoredState
  entries : List JournalEntry
deriving DecidableEq

def Backend.empty : Backend := ⟨⟨∅, ∅⟩, []⟩

def headOf (entries : List JournalEntry) : Option JournalHead :=
  entries.getLast?.map fun e => ⟨e.sequence, e.id⟩

/-- Stores an object; another object under its identity is a conflict. -/
def store (st : StoredState) (o : JournalObject) : Except JournalError StoredState :=
  if (∀ b ∈ st.objects.get? o.id, b = o.bytes) ∧ ∀ d ∈ st.datums.get? o.id, d = o.datum then
    .ok ⟨st.objects.insert o.id o.bytes, st.datums.insert o.id o.datum⟩
  else .error (.other "conflicting object")

def object (value : Datum) : JournalObject := ⟨digest (serialize value), serialize value, value⟩

def publish (expected : Option JournalHead) (objects : List JournalObject)
    (entries : List JournalEntry) : Effect JournalError Backend JournalHead := fun s =>
  if headOf s.entries ≠ expected then (.error .wrongHead, s)
  else match headOf (s.entries ++ entries), objects.foldlM store s.state with
    | some head, .ok state =>
      if entries.isEmpty then (.error .wrongHead, s)
      else (.ok head, ⟨state, s.entries ++ entries⟩)
    | _, .error e => (.error e, s)
    | none, _ => (.error .wrongHead, s)

def put (value : Datum) : Effect JournalError Backend ContentId := fun s =>
  match store s.state (object value) with
  | .ok state => (.ok (object value).id, { s with state })
  | .error e => (.error e, s)

def api : JournalApi Backend where
  readState s := .ok s.state
  verify s := .ok ⟨s.entries, headOf s.entries⟩
  publish := publish
  put := put
  entryId sequence previous kind payloads :=
    digest (serialize (.list [.string (toString sequence), .symbol kind,
      .list (payloads.map fun i => .bytes i.bytes), .list (previous.toList.map (.bytes ·.bytes))]))
  datumObject value := .ok (digest (serialize value), serialize value)
  objectFromBytes bytes :=
    let value := .node (.qualified "journal" "exact-bytes-v1") [(.new "bytes", .bytes bytes)]
    ⟨digest (serialize value), bytes, value⟩
  contentId value := some (digest (serialize value))

theorem store_ok (h : store st o = .ok st') : st.Le st' ∧ st'.Holds o := by
  unfold store at h
  split at h
  · rename_i hc
    cases h
    refine ⟨⟨?_, ?_⟩, ⟨SortedMap.get?_insert_self .., SortedMap.get?_insert_self ..⟩⟩
    · intro k b hb
      rw [SortedMap.get?_insert]
      split
      · rename_i hk
        subst hk
        rw [hc.1 b hb]
      · exact hb
    · intro k d hd
      rw [SortedMap.get?_insert]
      split
      · rename_i hk
        subst hk
        rw [hc.2 d hd]
      · exact hd
  · cases h

theorem foldlM_store_ok {objects : List JournalObject} {st st' : StoredState}
    (h : objects.foldlM store st = .ok st') : st.Le st' ∧ ∀ o ∈ objects, st'.Holds o := by
  induction objects generalizing st with
  | nil => cases h; exact ⟨⟨id, id⟩, nofun⟩
  | cons o os ih =>
    obtain ⟨u, hu, h⟩ := Run.foldlM_cons_eq_ok_iff.mp h
    obtain ⟨hle, ho⟩ := store_ok hu
    obtain ⟨hle', hos⟩ := ih h
    refine ⟨⟨fun hb => hle'.objects (hle.objects hb), fun hd => hle'.datums (hle.datums hd)⟩, ?_⟩
    intro p hp
    rcases List.mem_cons.mp hp with rfl | hp
    · exact ⟨hle'.objects ho.objects, hle'.datums ho.datums⟩
    · exact hos p hp

theorem publish_ok (h : publish expected objects entries s = (.ok head, s')) :
    headOf s.entries = expected ∧ s'.entries = s.entries ++ entries ∧
      headOf s'.entries = some head ∧ objects.foldlM store s.state = .ok s'.state := by
  unfold publish at h
  split at h
  · cases h
  · rename_i he
    split at h
    · rename_i hh hs
      split at h
      · cases h
      · cases h
        exact ⟨not_not.mp he, rfl, hh, hs⟩
    · cases h
    · cases h

theorem publish_refused (h : publish expected objects entries s = (.error e, s')) : s' = s := by
  unfold publish at h
  split at h
  · cases h; rfl
  · split at h
    · split at h
      · cases h; rfl
      · cases h
    · cases h; rfl
    · cases h; rfl

theorem faithful : api.Faithful where
  verify_head h := by cases h; rfl
  publish_head h hv := by
    cases hv
    exact (publish_ok h).1
  publish_verify h hv := by
    cases hv
    obtain ⟨-, he, hh, -⟩ := publish_ok h
    show Except.ok _ = _
    rw [hh, he]
  publish_read h hr := by
    cases hr
    obtain ⟨-, -, -, hs⟩ := publish_ok h
    exact ⟨_, rfl, foldlM_store_ok hs⟩
  publish_refused h := by
    cases publish_refused h
    exact ⟨rfl, rfl⟩
  put_verify h := by
    subst h
    show Except.ok _ = Except.ok _
    simp only [api, put]
    split <;> rfl
  put_read h hr := by
    subst h
    cases hr
    simp only [api, put]
    split
    · rename_i state hs
      exact ⟨state, rfl, (store_ok hs).1⟩
    · exact ⟨_, rfl, id, id⟩
  datum_id h := by cases h; rfl

theorem fitsId_digest (bytes : List UInt8) : FitsId (digest bytes) := by
  have h : FitsText (Symbol.qualified "core" "digest-v1").display ∧
      (Symbol.qualified "core" "digest-v1").Plain := by decide
  exact h

theorem plainIds : api.PlainIds where
  content h := by
    cases h
    exact fitsId_digest _
  entry := fitsId_digest _

end SimAgentNet.RoadmapRunner.Memory
