import SimAgentNet.Data.StableSort
import SimAgentNet.Data.Index
import SimAgentNet.RoadmapRunner.Reopen

/-! # Ceilings only narrow

A ceiling is narrower when each limit of the other one is covered by its first limit of that unit,
authority by authority. `ceilings_narrow` carries this to what is effective, to the intersection
of layers and to runs of resumes. -/

namespace SimAgentNet.RoadmapRunner
open RoadmapCore RoadmapExecCore

/-! ## Covering limits -/

/-- A limit that is at most the other one, also for each of its authorities. -/
def EffectiveLimit.Covers (new old : EffectiveLimit) : Prop :=
  new.amount ≤ old.amount ∧ ∀ oldSource ∈ old.sources, ∃ newSource ∈ new.sources,
    newSource.owner = oldSource.owner ∧ newSource.amount ≤ oldSource.amount

theorem EffectiveLimit.Covers.refl (limit : EffectiveLimit) : limit.Covers limit :=
  ⟨le_rfl, fun source hsource => ⟨source, hsource, rfl, le_rfl⟩⟩

theorem EffectiveLimit.Covers.trans {a b c : EffectiveLimit} (hab : a.Covers b) (hbc : b.Covers c) :
    a.Covers c := by
  refine ⟨hab.1.trans hbc.1, fun source hsource => ?_⟩
  obtain ⟨source', hsource', howner', hle'⟩ := hbc.2 source hsource
  obtain ⟨source'', hsource'', howner'', hle''⟩ := hab.2 source' hsource'
  exact ⟨source'', hsource'', howner''.trans howner', hle''.trans hle'⟩

namespace EffectiveCeiling
variable {c prior : EffectiveCeiling} {unit : Symbol}

/-- The limit that holds for a unit. -/
def limit? (c : EffectiveCeiling) (unit : Symbol) : Option EffectiveLimit :=
  c.limits.find? (·.unit = unit)

/-- What may be spent of a unit. -/
def effective (c : EffectiveCeiling) (unit : Symbol) : WithTop Nat :=
  (c.limit? unit).elim ⊤ fun limit => limit.amount

/-- No unit is listed twice. -/
def Keyed (c : EffectiveCeiling) : Prop := (c.limits.map (·.unit)).Nodup

theorem unit_of_limit? (h : c.limit? unit = some limit) : limit.unit = unit :=
  of_decide_eq_true (List.find?_some h :)

theorem mem_of_limit? (h : c.limit? unit = some limit) : limit ∈ c.limits :=
  List.mem_of_find?_eq_some h

theorem isNarrowerThan_iff : c.isNarrowerThan prior = true ↔
    ∀ old ∈ prior.limits, ∃ new, c.limit? old.unit = some new ∧ new.Covers old := by
  rw [isNarrowerThan, List.all_eq_true]
  refine forall₂_congr fun old _ => ?_
  have hfind : c.limits.find? (·.unit == old.unit) = c.limit? old.unit := by
    rw [limit?]
    congr
  rw [hfind]
  cases c.limit? old.unit with
  | none => simp
  | some new => simp [EffectiveLimit.Covers]

theorem Keyed.limit?_of_mem (h : c.Keyed) (hlimit : limit ∈ c.limits) :
    c.limit? limit.unit = some limit := Index.find?_of_nodup h hlimit

theorem Keyed.isNarrowerThan_self (h : c.Keyed) : c.isNarrowerThan c = true :=
  isNarrowerThan_iff.mpr fun old hold => ⟨old, h.limit?_of_mem hold, .refl old⟩

theorem isNarrowerThan_trans {a b c : EffectiveCeiling} (hab : a.isNarrowerThan b = true)
    (hbc : b.isNarrowerThan c = true) : a.isNarrowerThan c = true := by
  refine isNarrowerThan_iff.mpr fun old hold => ?_
  obtain ⟨limit, hlimit, hcovers⟩ := isNarrowerThan_iff.mp hbc old hold
  obtain ⟨new, hnew, hcovers'⟩ := isNarrowerThan_iff.mp hab limit (mem_of_limit? hlimit)
  rw [unit_of_limit? hlimit] at hnew
  exact ⟨new, hnew, hcovers'.trans hcovers⟩

theorem effective_le_of_isNarrowerThan (h : c.isNarrowerThan prior = true) (unit : Symbol) :
    c.effective unit ≤ prior.effective unit := by
  rw [effective, effective]
  cases hold : prior.limit? unit with
  | none => exact le_top
  | some old =>
    obtain ⟨new, hnew, hcovers⟩ := isNarrowerThan_iff.mp h old (mem_of_limit? hold)
    rw [unit_of_limit? hold] at hnew
    rw [hnew]
    exact WithTop.coe_le_coe.mpr hcovers.1

/-! ## Intersections -/

/-- The limit of a unit that some authorities own. -/
def limitOf (unit : Symbol) (sources : List OwnedLimit) : EffectiveLimit :=
  let sources := StableSort.sortBy (·.owner.display) sources
  ⟨unit, (sources.map (·.amount)).min?.getD 0, sources⟩

/-- Intersects the layers of all authorities, keeping who owns which limit. -/
def intersect (layers : List OwnedLimit) : EffectiveCeiling :=
  ⟨(layers.foldl (Index.push (·.unit)) ∅).entries.map fun e => limitOf e.1 e.2⟩

/-- The layers that limit a unit. -/
def layersOf (layers : List OwnedLimit) (unit : Symbol) : List OwnedLimit :=
  layers.filter (·.unit = unit)

theorem mem_layersOf_iff {layers : List OwnedLimit} :
    layer ∈ layersOf layers unit ↔ layer ∈ layers ∧ layer.unit = unit := by
  rw [layersOf, List.mem_filter, decide_eq_true_iff]

theorem le_amount_limitOf_iff {sources : List OwnedLimit} (h : sources ≠ []) {n : Nat} :
    n ≤ (limitOf unit sources).amount ↔ ∀ source ∈ sources, n ≤ source.amount := by
  have hperm : (StableSort.sortBy (·.owner.display) sources).Perm sources :=
    StableSort.perm_sortBy sources
  rw [limitOf]
  cases hmin : ((StableSort.sortBy (·.owner.display) sources).map (·.amount)).min? with
  | none =>
    rw [List.min?_eq_none_iff, List.map_eq_nil_iff] at hmin
    rw [hmin] at hperm
    exact absurd hperm.symm.eq_nil h
  | some least =>
    rw [Option.getD_some, List.le_min?_iff hmin, List.forall_mem_map]
    exact forall_congr' fun source => imp_congr_left hperm.mem_iff

theorem keyed_intersect (layers : List OwnedLimit) : (intersect layers).Keyed := by
  rw [Keyed, intersect, List.map_map]
  exact SortedMap.nodup_keys _

theorem groups_layersOf (layers : List OwnedLimit) :
    (∀ unit, layersOf layers unit = ((layers.foldl (Index.push (·.unit)) ∅).get? unit).getD []) ∧
      ∀ unit group, (layers.foldl (Index.push (·.unit)) ∅).get? unit = some group →
        group ≠ [] := by
  have hgroups := Index.Groups.ofList (fun limit : OwnedLimit => limit.unit) layers
  refine ⟨fun unit => ?_, hgroups.nonempty⟩
  rw [← hgroups.rows unit, layersOf]
  exact List.filter_congr fun layer _ => decide_eq_decide.mpr .rfl

/-- The limits of a ceiling are those of the units that some layer limits. -/
theorem mem_limits_intersect {layers : List OwnedLimit} {limit : EffectiveLimit} :
    limit ∈ (intersect layers).limits ↔
      layersOf layers limit.unit ≠ [] ∧ limit = limitOf limit.unit (layersOf layers limit.unit) := by
  obtain ⟨hrows, hnonempty⟩ := groups_layersOf layers
  rw [intersect, List.mem_map]
  constructor
  · rintro ⟨⟨unit, group⟩, hmem, rfl⟩
    have hget := SortedMap.get?_eq_some_iff.mpr hmem
    have hgroup : layersOf layers unit = group := by
      rw [hrows, hget, Option.getD_some]
    change layersOf layers unit ≠ [] ∧ _ = limitOf unit (layersOf layers unit)
    rw [hgroup]
    exact ⟨hnonempty unit group hget, rfl⟩
  · rintro ⟨hne, heq⟩
    cases hget : (layers.foldl (Index.push (·.unit)) ∅).get? limit.unit with
    | none =>
      rw [hrows, hget] at hne
      exact absurd rfl hne
    | some group =>
      rw [hrows, hget, Option.getD_some] at heq
      exact ⟨(limit.unit, group), SortedMap.get?_eq_some_iff.mp hget, heq.symm⟩

theorem limit?_intersect {layers : List OwnedLimit} (hne : layersOf layers unit ≠ []) :
    (intersect layers).limit? unit = some (limitOf unit (layersOf layers unit)) := by
  have hmem : limitOf unit (layersOf layers unit) ∈ (intersect layers).limits :=
    mem_limits_intersect.mpr ⟨hne, rfl⟩
  exact (keyed_intersect layers).limit?_of_mem hmem

/-- What is effective is the greatest bound below all layers. -/
theorem le_effective_intersect_iff {layers : List OwnedLimit} {n : WithTop Nat} :
    n ≤ (intersect layers).effective unit ↔
      ∀ layer ∈ layers, layer.unit = unit → n ≤ layer.amount := by
  by_cases hne : layersOf layers unit = []
  · have hnone : (intersect layers).limit? unit = none := by
      refine List.find?_eq_none.mpr fun limit hlimit hunit => ?_
      have hunit : limit.unit = unit := of_decide_eq_true hunit
      rw [mem_limits_intersect, hunit] at hlimit
      exact hlimit.1 hne
    rw [effective, hnone]
    refine iff_of_true le_top fun layer hlayer hunit => ?_
    rw [List.eq_nil_iff_forall_not_mem] at hne
    exact absurd (mem_layersOf_iff.mpr ⟨hlayer, hunit⟩) (hne layer)
  · rw [effective, limit?_intersect hne, Option.elim_some]
    have hall : (∀ layer ∈ layers, layer.unit = unit → n ≤ (layer.amount : WithTop Nat)) ↔
        ∀ source ∈ layersOf layers unit, n ≤ (source.amount : WithTop Nat) := by
      simp only [mem_layersOf_iff, and_imp]
    rw [hall]
    cases n with
    | top =>
      obtain ⟨source, hsource⟩ := List.exists_mem_of_ne_nil _ hne
      refine iff_of_false (WithTop.coe_lt_top _).not_ge fun h => ?_
      exact (WithTop.coe_lt_top _).not_ge (h source hsource)
    | coe n =>
      exact WithTop.coe_le_coe.trans ((le_amount_limitOf_iff hne).trans
        (forall₂_congr fun source _ => WithTop.coe_le_coe.symm))

theorem effective_intersect_perm {layers layers' : List OwnedLimit} (h : layers.Perm layers')
    (unit : Symbol) : (intersect layers).effective unit = (intersect layers').effective unit := by
  refine eq_of_forall_le_iff fun n => ?_
  rw [le_effective_intersect_iff, le_effective_intersect_iff]
  exact forall_congr' fun layer => imp_congr_left h.mem_iff

/-- Further layers make the intersection narrower, wherever they stand. -/
theorem intersect_isNarrowerThan {layers layers' : List OwnedLimit} (h : layers ⊆ layers') :
    (intersect layers').isNarrowerThan (intersect layers) = true := by
  refine isNarrowerThan_iff.mpr fun old hold => ?_
  obtain ⟨hne, hold⟩ := mem_limits_intersect.mp hold
  have hsub : layersOf layers old.unit ⊆ layersOf layers' old.unit :=
    fun layer hlayer => mem_layersOf_iff.mpr ⟨h (mem_layersOf_iff.mp hlayer).1,
      (mem_layersOf_iff.mp hlayer).2⟩
  have hne' : layersOf layers' old.unit ≠ [] :=
    fun hnil => hne (List.subset_nil.mp (hnil ▸ hsub))
  refine ⟨_, limit?_intersect hne', ?_⟩
  rw [hold]
  refine ⟨(le_amount_limitOf_iff hne).mpr fun source hsource => ?_, fun source hsource => ?_⟩
  · exact (le_amount_limitOf_iff hne').mp le_rfl source (hsub hsource)
  · have hmem := (StableSort.perm_sortBy _).subset hsource
    exact ⟨source, (StableSort.perm_sortBy _).symm.subset (hsub hmem), rfl, le_rfl⟩

end EffectiveCeiling

/-! ## Resumes -/

namespace RoadmapRunnerService
variable {σ : Type} {api : JournalApi σ} {s s' : RoadmapRunnerService σ}

/-- A resume that succeeds takes an authority whose ceiling is narrower. -/
theorem resume_ok (h : resume api ports authority s = (.ok inspection, s')) :
    s'.request.authority.ceiling.isNarrowerThan s.request.authority.ceiling = true := by
  obtain ⟨heq, hnone⟩ | ⟨t, -, -, -, hceil, heq⟩ := resume_cases api ports authority s
  · obtain ⟨service, b, hget, h⟩ := Effect.bind_eq_ok_iff.mp h
    cases hget
    by_cases hid : authority.identity = s.request.authority.identity
    swap
    · rw [if_pos hid] at h
      cases h
    rw [if_neg (not_not.mpr hid)] at h
    by_cases hgrant : authority.grant = s.openingGrant
    · rw [if_pos hgrant] at h
      cases h
    rw [if_neg hgrant] at h
    by_cases hceil : authority.ceiling.isNarrowerThan s.request.authority.ceiling = true
    swap
    · rw [if_pos (by simpa using hceil)] at h
      cases h
    rw [if_neg (by simpa using hceil)] at h
    obtain ⟨t, b, ht, h⟩ := Effect.bind_eq_ok_iff.mp h
    obtain ⟨ht, -⟩ := Effect.ofExcept_eq_ok_iff.mp ht
    exact absurd ht (hnone hid hgrant hceil t)
  · rw [h] at heq
    cases heq
    exact hceil

variable (api) in
/-- One resume that succeeds. -/
def Resumes (s s' : RoadmapRunnerService σ) : Prop :=
  ∃ ports authority inspection, resume api ports authority s = (.ok inspection, s')

/-- Over resumes that succeed, each ceiling is narrower than all before it. -/
theorem pairwise_of_resumes {services : List (RoadmapRunnerService σ)}
    (h : services.IsChain (Resumes api)) :
    services.Pairwise fun s s' =>
      s'.request.authority.ceiling.isNarrowerThan s.request.authority.ceiling = true := by
  have htrans : IsTrans (RoadmapRunnerService σ) fun s s' =>
      s'.request.authority.ceiling.isNarrowerThan s.request.authority.ceiling = true :=
    ⟨fun _ _ _ hab hbc => EffectiveCeiling.isNarrowerThan_trans hbc hab⟩
  refine List.isChain_iff_pairwise.mp (h.imp fun s s' hresumes => ?_)
  obtain ⟨ports, authority, inspection, hresume⟩ := hresumes
  exact resume_ok hresume

end RoadmapRunnerService

namespace EffectiveCeiling

variable {σ : Type} in
/-- Being narrower is a preorder on ceilings that list no unit twice, as all intersections do; it
bounds what is effective; it holds of intersections with further layers, and along all resumes. -/
theorem ceilings_narrow (api : JournalApi σ) :
    (∀ c : EffectiveCeiling, (c.limits.map (·.unit)).Nodup → c.isNarrowerThan c = true) ∧
      (∀ layers, ((intersect layers).limits.map (·.unit)).Nodup) ∧
      (∀ a b c : EffectiveCeiling, a.isNarrowerThan b = true → b.isNarrowerThan c = true →
        a.isNarrowerThan c = true) ∧
      (∀ c prior : EffectiveCeiling, c.isNarrowerThan prior = true →
        ∀ unit, c.effective unit ≤ prior.effective unit) ∧
      (∀ layers layers' : List OwnedLimit, layers ⊆ layers' →
        (intersect layers').isNarrowerThan (intersect layers) = true) ∧
      (∀ layers layers' : List OwnedLimit, layers.Perm layers' →
        ∀ unit, (intersect layers).effective unit = (intersect layers').effective unit) ∧
      ∀ services : List (RoadmapRunnerService σ),
        services.IsChain (RoadmapRunnerService.Resumes api) →
        services.Pairwise fun s s' =>
          s'.request.authority.ceiling.isNarrowerThan s.request.authority.ceiling = true :=
  ⟨fun _ => Keyed.isNarrowerThan_self, keyed_intersect, fun _ _ _ => isNarrowerThan_trans,
    fun _ _ => effective_le_of_isNarrowerThan, fun _ _ => intersect_isNarrowerThan,
    fun _ _ => effective_intersect_perm, fun _ => RoadmapRunnerService.pairwise_of_resumes⟩

/-- A ceiling that lists a unit twice, the higher limit first, is not narrower than itself. -/
theorem twice_not_narrower :
    let tokens := Symbol.new "tokens"
    let c : EffectiveCeiling := ⟨[⟨tokens, 5, []⟩, ⟨tokens, 3, []⟩]⟩
    c.isNarrowerThan c = false := by
  decide +kernel

end EffectiveCeiling

end SimAgentNet.RoadmapRunner
