import SimAgentNet.Data.Refusal
import SimAgentNet.RoadmapPlan.Compile
import SimAgentNet.RoadmapRefine.Ceilings
import SimAgentNet.RoadmapRefine.Framed

/-! # Owners of evidence

Evidence is compared with the owners that a phase authors, not with those it has after
inheritance. -/

namespace SimAgentNet.RoadmapPlan

open RoadmapCore
open RoadmapRefine (InheritsFrom inheritsFrom_of_compiles)
open SourceDecks (SourceQuery GroundedEvidence SourceDeck ContentIdOf)

/-- The text is the one of an owner of the envelope. -/
def Owned (owners : OwnerEnvelope) (text : String) : Prop :=
  ∃ owner, (owner ∈ owners.mutable ∨ owner ∈ owners.readOnly) ∧ owner.text = text

/-- Every query of the phase has evidence of an owner of the envelope. -/
def Grounds (owners : OwnerEnvelope) (phase : PhaseSpec) (deck : SourceDeck) : Prop :=
  ∀ query ∈ phase.guide.uses, ∃ row, deck.evidence.find? (matchesQuery · query) = some row ∧
    Owned owners (evidenceOwner row)

section
variable {phase : PhaseSpec} {deck : SourceDeck} {contentId : ContentIdOf}

theorem groundQuery_eq_ok_iff : groundQuery phase deck query = .ok row ↔
    deck.evidence.find? (matchesQuery · query) = some row ∧ Owned phase.owners (evidenceOwner row) := by
  have hallowed (row : GroundedEvidence) :
      (phase.owners.mutable.elems ++ phase.owners.readOnly.elems).any
        (·.text = evidenceOwner row) = true ↔ Owned phase.owners (evidenceOwner row) := by
    simp only [List.any_eq_true, List.mem_append, decide_eq_true_iff, Owned, SortedSet.mem_def]
  rw [groundQuery]
  split
  · rename_i hnone
    exact ⟨nofun, fun h => nomatch hnone.symm.trans h.1⟩
  · rename_i witness hfound
    rw [hfound]
    split
    · rename_i hany
      constructor
      · intro h
        cases h
        exact ⟨rfl, (hallowed row).mp hany⟩
      · rintro ⟨h, -⟩
        cases h
        rfl
    · rename_i hany
      refine ⟨nofun, ?_⟩
      rintro ⟨h, howned⟩
      cases h
      exact absurd ((hallowed row).mpr howned) hany

theorem groundPhase_isOk_iff (hid : ∀ datum, ∃ id, contentId datum = .ok id) :
    (∃ grounding, groundPhase contentId phase deck = .ok grounding) ↔
      Grounds phase.owners phase deck := by
  have hnew (uses) : ∃ grounding, RoadmapRefine.Grounding.new contentId uses = .ok grounding := by
    obtain ⟨id, h⟩ := hid (.node (.qualified "roadmap-refine" "grounding-v1")
      [(.new "resolved", .vector (uses.map RoadmapRefine.sourceQueryDatum))])
    exact ⟨_, by rw [RoadmapRefine.Grounding.new, h]; rfl⟩
  have hrun : (∃ grounding, groundPhase contentId phase deck = .ok grounding) ↔
      ∃ rows, phase.guide.uses.mapM (groundQuery phase deck) = .ok rows := by
    simp only [groundPhase, Except.bind_eq_ok_iff, Except.mapError_eq_ok_iff]
    constructor
    · rintro ⟨_, rows, hrows, -⟩
      exact ⟨rows, hrows⟩
    · rintro ⟨rows, hrows⟩
      obtain ⟨grounding, hgrounding⟩ := hnew phase.guide.uses
      exact ⟨_, rows, hrows, grounding, hgrounding, rfl⟩
  rw [hrun, Except.mapM_isOk_iff]
  simp only [groundQuery_eq_ok_iff, Grounds]

end

/-! ## Inherited owners -/

/-- What the phase leaves to its ancestors brings in no owner that it does not author itself. -/
structure SpelledOut (phase : PhaseSpec) (a : AdmittedPhase) : Prop where
  mutable : phase.owners.mutable = ∅ → a.effectiveOwners.mutable ⊆ phase.owners.readOnly
  readOnly : phase.owners.readOnly = ∅ → a.effectiveOwners.readOnly ⊆ phase.owners.mutable

theorem owned_congr_iff {phase : PhaseSpec} (h : InheritsFrom phase a) :
    (∀ text, Owned a.effectiveOwners text → Owned phase.owners text) ↔ SpelledOut phase a := by
  have hauthored {owner : OwnerId} (howned : Owned phase.owners owner.text) :
      owner ∈ phase.owners.mutable ∨ owner ∈ phase.owners.readOnly := by
    obtain ⟨owner', hmem, htext⟩ := howned
    rwa [TextId.text_injective htext] at hmem
  constructor
  · intro hall
    refine ⟨fun hempty owner howner => ?_, fun hempty owner howner => ?_⟩
    · refine (hauthored (hall _ ⟨owner, .inl howner, rfl⟩)).resolve_left fun hmem => ?_
      rw [hempty] at hmem
      cases hmem
    · refine (hauthored (hall _ ⟨owner, .inr howner, rfl⟩)).resolve_right fun hmem => ?_
      rw [hempty] at hmem
      cases hmem
  · rintro hspelled text ⟨owner, howner | howner, rfl⟩
    · by_cases hempty : phase.owners.mutable = ∅
      · exact ⟨owner, .inr (hspelled.mutable hempty owner howner), rfl⟩
      · exact ⟨owner, .inl (h.mutable hempty ▸ howner), rfl⟩
    · by_cases hempty : phase.owners.readOnly = ∅
      · exact ⟨owner, .inl (hspelled.readOnly hempty owner howner), rfl⟩
      · exact ⟨owner, .inr (h.readOnly hempty ▸ howner), rfl⟩

/-- Evidence of the owner for a query. -/
def evidenceOf (owner : OwnerId) : SourceQuery → GroundedEvidence
  | .anchor id => .anchor ⟨id, owner.text, none⟩
  | .excerpt id => .excerpt ⟨id, owner.text, "", 0, 0, []⟩
  | .specimen id => .specimen ⟨id, owner.text, [], ⟨⟨.new "", List.replicate 32 0, rfl⟩⟩⟩

/-- A deck with evidence of the owner for each of the queries. -/
def deckOf (owner : OwnerId) (queries : List SourceQuery) : SourceDeck where
  id := ⟨⟨.new "", List.replicate 32 0, rfl⟩⟩
  repositories := []
  fragments := []
  files := []
  evidence := queries.map (evidenceOf owner)
  limitations := []

theorem find?_deckOf {owner : OwnerId} {queries : List SourceQuery} {query : SourceQuery}
    (h : query ∈ queries) :
    ∃ row, (deckOf owner queries).evidence.find? (matchesQuery · query) = some row ∧
      evidenceOwner row = owner.text := by
  have hsome : ((deckOf owner queries).evidence.find? (matchesQuery · query)).isSome := by
    refine List.find?_isSome.mpr ⟨evidenceOf owner query, List.mem_map_of_mem h, ?_⟩
    cases query <;> simp [evidenceOf, matchesQuery]
  obtain ⟨row, hrow⟩ := Option.isSome_iff_exists.mp hsome
  obtain ⟨query', -, rfl⟩ := List.mem_map.mp (List.mem_of_find?_eq_some hrow)
  refine ⟨_, hrow, ?_⟩
  cases query' <;> rfl

/-- Grounding agrees with the effective owners, whatever the deck, exactly for the phases that ask
for nothing or spell their owners out. -/
theorem grounds_effective_iff {spec : RoadmapSpec} {phase : PhaseSpec} {contentId : ContentIdOf}
    (h : AdmittedRoadmap.compile spec = .ok roadmap) (hphase : spec.phases.get? k = some phase)
    (ha : roadmap.phases.get? k = some a) (hid : ∀ datum, ∃ id, contentId datum = .ok id) :
    (∀ deck, (∃ grounding, groundPhase contentId phase deck = .ok grounding) ↔
        Grounds a.effectiveOwners phase deck) ↔
      phase.guide.uses = [] ∨ SpelledOut phase a := by
  obtain ⟨tree, hadmitted⟩ := admitted_of_compile h
  have hinherits := inheritsFrom_of_compiles (hadmitted.compiles ha) hphase
  simp only [groundPhase_isOk_iff hid]
  rw [← owned_congr_iff hinherits]
  constructor
  · intro hall
    by_cases hnone : phase.guide.uses = []
    · exact .inl hnone
    · refine .inr ?_
      rintro text ⟨owner, howner, rfl⟩
      obtain ⟨query, hquery⟩ := List.exists_mem_of_ne_nil _ hnone
      have heffective : Grounds a.effectiveOwners phase (deckOf owner phase.guide.uses) := by
        intro query hquery
        obtain ⟨row, hrow, htext⟩ := find?_deckOf hquery
        exact ⟨row, hrow, owner, howner, htext.symm⟩
      obtain ⟨row, hrow, howned⟩ := (hall _).mpr heffective query hquery
      obtain ⟨row', hrow', htext⟩ := @find?_deckOf owner _ _ hquery
      cases hrow.symm.trans hrow'
      rwa [htext] at howned
  · rintro (hnone | hspelled) deck
    · simp [Grounds, hnone]
    · refine ⟨fun hg query hquery => ?_, fun hg query hquery => ?_⟩
      · obtain ⟨row, hrow, owner, howner, htext⟩ := hg query hquery
        refine ⟨row, hrow, owner, ?_, htext⟩
        exact howner.imp (hinherits.mutable.subset owner ·) (hinherits.readOnly.subset owner ·)
      · obtain ⟨row, hrow, howned⟩ := hg query hquery
        exact ⟨row, hrow, hspelled _ howned⟩

/-! ## A leaf that inherits the owner of its evidence -/

namespace Sample
open RoadmapCore.Sample RoadmapRefine.Sample

def anyId : ContentIdOf := fun _ => .ok (mark 1)

def asking (phase : PhaseSpec) : PhaseSpec :=
  { phase with guide := { noGuide with uses := [.specimen "sample"] } }

/-- The root, which authors its owner, and the left leaf, which inherits it, ask for a specimen. -/
def askingSpec : RoadmapSpec :=
  { spec [] [] with
    phases := ((spec [] []).phases.insert rootId (asking root)).insert leftId
      (asking (leaf leftId [])) }

end Sample

theorem grounds_effective_iff_root :
    ∃ roadmap a, AdmittedRoadmap.compile Sample.askingSpec = .ok roadmap ∧
      roadmap.phases.get? RoadmapCore.Sample.rootId = some a ∧
      ∀ deck, (∃ grounding, groundPhase Sample.anyId (Sample.asking RoadmapCore.Sample.root) deck =
        .ok grounding) ↔ Grounds a.effectiveOwners (Sample.asking RoadmapCore.Sample.root) deck := by
  have hrun : ((AdmittedRoadmap.compile Sample.askingSpec).map fun roadmap =>
      (roadmap.phases.get? RoadmapCore.Sample.rootId).map (·.effectiveOwners.readOnly)) =
      .ok (some ∅) := by decide +kernel
  obtain ⟨roadmap, h, hget⟩ := Except.map_eq_ok_iff.mp hrun
  obtain ⟨a, ha, hreadOnly⟩ := Option.map_eq_some_iff.mp hget
  refine ⟨roadmap, a, h, ha, (grounds_effective_iff h (by decide +kernel) ha
    fun datum => ⟨_, rfl⟩).mpr (.inr ⟨fun hempty => absurd hempty (by decide), fun _ => ?_⟩)⟩
  rw [hreadOnly]
  exact RoadmapRefine.empty_subset _

/-- The evidence of an inherited owner is refused. -/
theorem inherited_owner_ungrounded :
    ∃ roadmap a, AdmittedRoadmap.compile Sample.askingSpec = .ok roadmap ∧
      Sample.askingSpec.phases.get? RoadmapCore.Sample.leftId =
        some (Sample.asking (RoadmapCore.Sample.leaf RoadmapCore.Sample.leftId [])) ∧
      roadmap.phases.get? RoadmapCore.Sample.leftId = some a ∧
      RoadmapCore.Sample.textId "owner" ∈ a.effectiveOwners.mutable ∧
      Grounds a.effectiveOwners
        (Sample.asking (RoadmapCore.Sample.leaf RoadmapCore.Sample.leftId []))
        (deckOf (RoadmapCore.Sample.textId "owner") [.specimen "sample"]) ∧
      groundPhase Sample.anyId
          (Sample.asking (RoadmapCore.Sample.leaf RoadmapCore.Sample.leftId []))
          (deckOf (RoadmapCore.Sample.textId "owner") [.specimen "sample"]) =
        .error (.outOfOwner (.specimen "sample")) := by
  have hrun : ((AdmittedRoadmap.compile Sample.askingSpec).map fun roadmap =>
      (roadmap.phases.get? RoadmapCore.Sample.leftId).map (·.effectiveOwners.mutable)) =
      .ok (some RoadmapCore.Sample.root.owners.mutable) := by decide +kernel
  obtain ⟨roadmap, h, hget⟩ := Except.map_eq_ok_iff.mp hrun
  obtain ⟨a, ha, hmutable⟩ := Option.map_eq_some_iff.mp hget
  have howner : RoadmapCore.Sample.textId "owner" ∈ a.effectiveOwners.mutable := by
    rw [hmutable]
    decide
  refine ⟨roadmap, a, h, by decide +kernel, ha, howner, ?_, by decide +kernel⟩
  intro query hquery
  cases List.mem_singleton.mp hquery
  exact ⟨_, rfl, _, .inl howner, rfl⟩

end SimAgentNet.RoadmapPlan
