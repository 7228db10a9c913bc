import SimAgentNet.Data.Run
import SimAgentNet.RoadmapRunner.Model

/-! # Causal state

The compare-and-set application of semantic changes, and the datums of evidence sets and causal
states. `applyChanges_ok_iff` reads the loop as a fold of `setFact` over changes whose prior
values match. -/

namespace SimAgentNet.RoadmapRunner

/-! ## Semantic changes -/

/-- Sets or removes one fact. -/
def setFact (facts : SortedMap String ContentId) (c : SemanticChange) :
    SortedMap String ContentId :=
  match c.after with
  | some value => facts.insert c.key value
  | none => facts.erase c.key

/-- The variables of the loop over changes. -/
structure Applying where
  facts : SortedMap String ContentId
  keys : SortedSet String
  changed : Bool

def applyChange (sequence : Nat) (s : Applying) (c : SemanticChange) :
    Except ExecutionJournalError Applying :=
  if c.key.isEmpty ∨ c.key ∈ s.keys then
    .error (.illegal sequence "semantic delta key is empty or repeated")
  else if s.facts.get? c.key ≠ c.before then
    .error (.illegal sequence "semantic delta before value disagrees")
  else
    let keys := s.keys.insert c.key
    if c.before ≠ c.after then .ok { facts := setFact s.facts c, keys, changed := true }
    else .ok { s with keys }

def applyChanges (facts : SortedMap String ContentId) (changes : List SemanticChange)
    (sequence : Nat) : Except ExecutionJournalError (SortedMap String ContentId × Bool) := do
  let s ← changes.foldlM (applyChange sequence) { facts, keys := ∅, changed := false }
  return (s.facts, s.changed)

/-- Each change finds its prior value, in the order in which they are applied. -/
def BeforeMatches (facts : SortedMap String ContentId) : List SemanticChange → Prop
  | [] => True
  | c :: cs => facts.get? c.key = c.before ∧ BeforeMatches (setFact facts c) cs

/-- Some change replaces its prior value by another one. -/
def anyChange (changes : List SemanticChange) : Bool := changes.any fun c => c.before ≠ c.after

variable {facts facts' : SortedMap String ContentId} {changes : List SemanticChange}

theorem get?_setFact (facts : SortedMap String ContentId) (c : SemanticChange) (k : String) :
    (setFact facts c).get? k = if k = c.key then c.after else facts.get? k := by
  unfold setFact
  cases c.after with
  | some v => rw [SortedMap.get?_insert]
  | none => rw [SortedMap.get?_erase]

/-- Writing the value that is there changes nothing. -/
theorem setFact_eq_self {c : SemanticChange} (h : facts.get? c.key = c.before)
    (he : c.before = c.after) : setFact facts c = facts := by
  apply SortedMap.ext
  intro k
  rw [get?_setFact]
  split
  · rename_i hk; rw [hk, h, he]
  · rfl

/-- One accepted change, with the test for a value that stays folded into `setFact`. -/
theorem applyChange_ok_iff :
    applyChange n s c = .ok s' ↔
      c.key ≠ "" ∧ ¬c.key ∈ s.keys ∧ s.facts.get? c.key = c.before ∧
        s' = ⟨setFact s.facts c, s.keys.insert c.key, s.changed || decide (c.before ≠ c.after)⟩ := by
  have hk : c.key.isEmpty = true ↔ c.key = "" := by simp
  simp only [applyChange, Except.guard_eq_ok_iff, not_or, hk, and_assoc, ne_eq, not_not]
  refine and_congr .rfl (and_congr .rfl (and_congr_right fun hb => ?_))
  by_cases he : c.before = c.after
  · rw [if_neg (by simpa using he), setFact_eq_self hb he]
    simp [he, eq_comm]
  · rw [if_pos he]
    simp [he, eq_comm]

/-- The loop from any of its states. -/
theorem foldlM_applyChange_ok_iff {s s' : Applying} :
    changes.foldlM (applyChange n) s = .ok s' ↔
      (∀ c ∈ changes, c.key ≠ "" ∧ ¬c.key ∈ s.keys) ∧ (changes.map (·.key)).Nodup ∧
        BeforeMatches s.facts changes ∧ s'.facts = changes.foldl setFact s.facts ∧
        s'.changed = (s.changed || anyChange changes) ∧
        s'.keys = changes.foldl (fun ks c => ks.insert c.key) s.keys := by
  induction changes generalizing s with
  | nil =>
    obtain ⟨facts, keys, changed⟩ := s
    obtain ⟨facts', keys', changed'⟩ := s'
    simp only [List.foldlM_nil, BeforeMatches, anyChange]
    constructor
    · intro h; cases h; simp
    · intro h
      obtain ⟨-, -, -, h₁, h₂, h₃⟩ := h
      simp at h₁ h₂ h₃
      subst h₁ h₂ h₃; rfl
  | cons c cs ih =>
    rw [Run.foldlM_cons_eq_ok_iff]
    constructor
    · intro ⟨t, ht, h⟩
      obtain ⟨hne, hk, hb, rfl⟩ := applyChange_ok_iff.mp ht
      obtain ⟨hkeys, hnd, hbm, hf, hc, hs⟩ := ih.mp h
      refine ⟨?_, ?_, ⟨hb, hbm⟩, hf, ?_, hs⟩
      · intro d hd
        rcases List.mem_cons.mp hd with rfl | hd
        · exact ⟨hne, hk⟩
        · exact ⟨(hkeys d hd).1, fun hm => (hkeys d hd).2 (SortedSet.mem_insert.mpr (.inr hm))⟩
      · refine List.nodup_cons.mpr ⟨?_, hnd⟩
        intro hm
        obtain ⟨d, hd, hdk⟩ := List.mem_map.mp hm
        exact (hkeys d hd).2 (SortedSet.mem_insert.mpr (.inl hdk))
      · rw [hc, Bool.or_assoc]; rfl
    · intro ⟨hkeys, hnd, ⟨hb, hbm⟩, hf, hc, hs⟩
      obtain ⟨hfst, hnd⟩ := List.nodup_cons.mp hnd
      refine ⟨_, applyChange_ok_iff.mpr ⟨(hkeys c (by simp)).1, (hkeys c (by simp)).2, hb, rfl⟩,
        ih.mpr ⟨?_, hnd, hbm, hf, ?_, hs⟩⟩
      · intro d hd
        refine ⟨(hkeys d (List.mem_cons_of_mem _ hd)).1, ?_⟩
        intro hm
        rcases SortedSet.mem_insert.mp hm with he | hm
        · exact hfst (List.mem_map.mpr ⟨d, hd, he⟩)
        · exact (hkeys d (List.mem_cons_of_mem _ hd)).2 hm
      · rw [hc, Bool.or_assoc]; rfl

/-- The changes of a delta are applied exactly when their keys are distinct and not empty and
every prior value matches; the result is the fold of the single changes. -/
theorem applyChanges_ok_iff :
    applyChanges facts changes n = .ok (facts', changed) ↔
      (∀ c ∈ changes, c.key ≠ "") ∧ (changes.map (·.key)).Nodup ∧ BeforeMatches facts changes ∧
        facts' = changes.foldl setFact facts ∧ changed = anyChange changes := by
  simp only [applyChanges, Except.bind_eq_ok_iff, foldlM_applyChange_ok_iff]
  constructor
  · intro ⟨s, ⟨hk, hnd, hb, hf, hc, _⟩, he⟩
    cases he
    exact ⟨fun c h => (hk c h).1, hnd, hb, hf, by simpa using hc⟩
  · intro ⟨hk, hnd, hb, hf, hc⟩
    refine ⟨⟨facts', changes.foldl (fun ks c => ks.insert c.key) ∅, changed⟩,
      ⟨?_, hnd, hb, hf, by simpa using hc, rfl⟩, rfl⟩
    exact fun c h => ⟨hk c h, SortedSet.not_mem_empty _⟩

theorem get?_foldl_setFact_of_notMem {k : String} (h : k ∉ changes.map (·.key)) :
    (changes.foldl setFact facts).get? k = facts.get? k := by
  induction changes generalizing facts with
  | nil => rfl
  | cons c cs ih =>
    simp only [List.map_cons, List.mem_cons, not_or] at h
    rw [List.foldl_cons, ih h.2, get?_setFact, if_neg h.1]

/-- An applied delta leaves the facts as they were exactly when none of its changes changes
anything. -/
theorem foldl_setFact_eq_self_iff (hb : BeforeMatches facts changes)
    (hnd : (changes.map (·.key)).Nodup) :
    changes.foldl setFact facts = facts ↔ anyChange changes = false := by
  induction changes generalizing facts with
  | nil => simp [anyChange]
  | cons c cs ih =>
    obtain ⟨hc, hcs⟩ := hb
    obtain ⟨hfst, hnd⟩ := List.nodup_cons.mp hnd
    have hany : anyChange (c :: cs) = false ↔ c.before = c.after ∧ anyChange cs = false := by
      simp [anyChange]
    rw [hany, List.foldl_cons]
    constructor
    · intro h
      have hk := congrArg (·.get? c.key) h
      simp only [get?_foldl_setFact_of_notMem hfst, get?_setFact, if_true, hc] at hk
      rw [setFact_eq_self hc hk.symm] at h hcs
      exact ⟨hk.symm, (ih hcs hnd).mp h⟩
    · intro ⟨he, ha⟩
      rw [setFact_eq_self hc he] at hcs ⊢
      exact (ih hcs hnd).mpr ha

/-! ## Datums -/

def contentIdDatum (id : ContentId) : Datum :=
  .node (.qualified "roadmap-execution" "content-id-v1")
    [(.new "algorithm", .symbol id.algorithm), (.new "digest", .bytes id.bytes)]

def fieldOf (fields : List (Symbol × Datum)) (name : String) : Option Datum :=
  (fields.find? (·.1 = .new name)).map (·.2)

def contentIdFromDatum : Datum → Except ExecutionJournalError ContentId
  | .node tag fields =>
    if tag ≠ .qualified "roadmap-execution" "content-id-v1" ∨ fields.length ≠ 2 then
      .error (.semantic "content id shape")
    else
      match fieldOf fields "algorithm", fieldOf fields "digest" with
      | some (.symbol algorithm), some (.bytes digest) =>
        if h : digest.length = 32 then .ok ⟨algorithm, digest, h⟩
        else .error (.semantic "content id digest")
      | _, _ => .error (.semantic "content id fields")
  | _ => .error (.semantic "content id shape")

def evidenceSetDatum (evidence : SortedSet ContentId) : Datum :=
  .node (.qualified "roadmap-execution" "evidence-set-v1")
    [(.new "members", .set (evidence.elems.map contentIdDatum))]

def parseEvidenceSet : Datum → Except ExecutionJournalError (SortedSet ContentId)
  | .node tag fields =>
    if tag ≠ .qualified "roadmap-execution" "evidence-set-v1" ∨ fields.length ≠ 1 then
      .error (.semantic "evidence set shape")
    else
      match fields with
      | (name, .set members) :: _ =>
        if name ≠ .new "members" then .error (.semantic "evidence set members")
        else SortedSet.ofList <$> members.mapM contentIdFromDatum
      | _ => .error (.semantic "evidence set members")
  | _ => .error (.semantic "evidence set shape")

def causalStateDatum (state : CausalState) (evidenceSet : ContentId) : Datum :=
  .node (.qualified "roadmap-execution" "snapshot-v1") [
    (.new "facts", .map (state.facts.entries.map fun (k, v) => (.string k, contentIdDatum v))),
    (.new "evidence-set", contentIdDatum evidenceSet)]

theorem contentIdFromDatum_contentIdDatum (id : ContentId) :
    contentIdFromDatum (contentIdDatum id) = .ok id := by
  have ha : fieldOf [(.new "algorithm", .symbol id.algorithm), (.new "digest", .bytes id.bytes)]
      "algorithm" = some (.symbol id.algorithm) := by simp [fieldOf]
  have hd : fieldOf [(.new "algorithm", .symbol id.algorithm), (.new "digest", .bytes id.bytes)]
      "digest" = some (.bytes id.bytes) := by simp [fieldOf, Symbol.new]
  simp [contentIdFromDatum, contentIdDatum, ha, hd, id.size_bytes]

/-- The root of an evidence set is read back as that set. -/
theorem parseEvidenceSet_evidenceSetDatum (evidence : SortedSet ContentId) :
    parseEvidenceSet (evidenceSetDatum evidence) = .ok evidence := by
  have hm : ∀ l : List ContentId, (l.map contentIdDatum).mapM contentIdFromDatum = .ok l := by
    intro l
    induction l with
    | nil => rfl
    | cons a l ih =>
      rw [List.map_cons, List.mapM_cons, contentIdFromDatum_contentIdDatum, Except.ok_bind, ih]
      rfl
  have hs : SortedSet.ofList evidence.elems = evidence :=
    SortedSet.ext fun a => SortedSet.mem_ofList
  simp only [parseEvidenceSet, evidenceSetDatum, hm]
  simp [hs]

end SimAgentNet.RoadmapRunner
