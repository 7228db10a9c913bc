import SimAgentNet.AgentConductCore.Usage

/-! # Narrowing budgets

A budget bounds each unit, by nothing where it does not list the unit. Narrowing takes the meet of
the bounds (`bound_narrow`), and the laws of the meet carry over. The units of the result are
distinct as symbols; `narrow_meet_iff` says when they are distinct as texts too. -/

namespace SimAgentNet.AgentConductCore
namespace AgentUsageBudget

/-- The limits by unit. -/
def map (values : List UsageQuantity) : SortedMap Symbol UInt64 :=
  .ofList (values.map fun q => (q.unit, q.amount))

/-- Narrows two layers pointwise; absence stays unbounded only where both are absent. -/
def narrow (budget later : AgentUsageBudget) : AgentUsageBudget :=
  let values := (map budget.limits).merge min (map later.limits)
  ⟨values.entries.map fun e => ⟨e.1, e.2⟩⟩

/-! ## Bounds -/

/-- What the budget leaves of each unit. -/
def bound (budget : AgentUsageBudget) (unit : Symbol) : WithTop Nat :=
  ((map budget.limits).get? unit).elim ⊤ fun amount => (amount.toNat : WithTop Nat)

/-- No unit is listed twice. -/
def Keyed (budget : AgentUsageBudget) : Prop := (budget.limits.map (·.unit)).Nodup

variable {a b c budget : AgentUsageBudget}

theorem keyed_of_new {limits : List UsageQuantity} (h : new limits = .ok budget) : budget.Keyed := by
  obtain ⟨_, hunique, h⟩ := Except.bind_eq_ok_iff.mp h
  cases h
  have hnodup : ((limits.map (·.unit)).map Symbol.display).Nodup := by
    rw [List.map_map]
    exact unique_eq_ok_iff.mp hunique
  exact hnodup.of_map _

theorem map_eq_iff : map a.limits = map b.limits ↔ a.bound = b.bound := by
  constructor
  · intro h
    funext unit
    rw [bound, bound, h]
  · intro h
    refine SortedMap.ext fun unit => ?_
    have hunit := congrFun h unit
    unfold bound at hunit
    cases ha : (map a.limits).get? unit with
    | none =>
      cases hb : (map b.limits).get? unit with
      | none => rfl
      | some n =>
        rw [ha, hb] at hunit
        exact absurd hunit.symm (WithTop.coe_ne_top)
    | some m =>
      cases hb : (map b.limits).get? unit with
      | none =>
        rw [ha, hb] at hunit
        exact absurd hunit (WithTop.coe_ne_top)
      | some n =>
        rw [ha, hb] at hunit
        exact congrArg some (UInt64.toNat_inj.mp (WithTop.coe_injective hunit))

theorem map_limits_narrow :
    map (narrow a b).limits = (map a.limits).merge min (map b.limits) := by
  have hself (m : SortedMap Symbol UInt64) : SortedMap.ofList m.entries = m := by
    refine SortedMap.ext fun unit => Option.ext fun n => ?_
    rw [Keyed.get?_ofList_of_nodup m.nodup_keys, SortedMap.get?_eq_some_iff]
  rw [map, narrow, List.map_map]
  exact (congrArg SortedMap.ofList (List.map_id _)).trans (hself _)

/-- Narrowing is the meet of the bounds. -/
theorem bound_narrow (a b : AgentUsageBudget) : (narrow a b).bound = a.bound ⊓ b.bound := by
  funext unit
  rw [Pi.inf_apply, bound, bound, bound, map_limits_narrow, SortedMap.get?_merge]
  cases (map a.limits).get? unit with
  | none => cases (map b.limits).get? unit <;> simp
  | some m =>
    cases (map b.limits).get? unit with
    | none => simp
    | some n =>
      simp only [Option.merge_some_some, Option.elim_some]
      have hmin : min m n = if m ≤ n then m else n := rfl
      by_cases h : m ≤ n
      · rw [hmin, if_pos h]
        exact (inf_eq_left.mpr (WithTop.coe_le_coe.mpr (UInt64.le_iff_toNat_le.mp h))).symm
      · have hle : n.toNat ≤ m.toNat := by
          rw [UInt64.le_iff_toNat_le] at h
          omega
        rw [hmin, if_neg h]
        exact (inf_eq_right.mpr (WithTop.coe_le_coe.mpr hle)).symm

theorem get?_map_limits (h : budget.Keyed) (unit : Symbol) :
    (map budget.limits).get? unit = (quantityOf budget.limits unit).map (·.amount) := by
  have hnodup : ((budget.limits.map fun q => (q.unit, q.amount)).map (·.1)).Nodup := by
    rw [List.map_map]
    exact h
  refine Option.ext fun n => ?_
  rw [map, Keyed.get?_ofList_of_nodup hnodup, List.mem_map]
  constructor
  · rintro ⟨q, hq, heq⟩
    cases heq
    rw [quantityOf, Index.find?_of_nodup h hq]
    rfl
  · intro hn
    obtain ⟨q, hfind, rfl⟩ := Option.map_eq_some_iff.mp hn
    have hunit : q.unit = unit := of_decide_eq_true (List.find?_some hfind :)
    exact ⟨q, List.mem_of_find?_eq_some hfind, by rw [hunit]⟩

/-- A charge is admitted when the usage with it is within the bound. -/
theorem admit_iff_le_bound (h : budget.Keyed) (usage : AgentUsage) (charge : UsageQuantity) :
    budget.admits usage charge = .ok () ↔
      (((usage.amount charge.unit).toNat + charge.amount.toNat : Nat) : WithTop Nat) ≤
        budget.bound charge.unit := by
  rw [AgentUsage.admit_eq_ok_iff, bound, get?_map_limits h]
  cases quantityOf budget.limits charge.unit with
  | none => simp
  | some limit =>
    simp only [Option.some.injEq, forall_eq', Option.map_some, Option.elim_some]
    exact WithTop.coe_le_coe.symm

theorem exists_get?_map_iff {values : List UsageQuantity} {unit : Symbol} :
    (∃ n, (map values).get? unit = some n) ↔ ∃ q ∈ values, q.unit = unit := by
  simp only [map, Keyed.get?_ofList_iff]
  constructor
  · rintro ⟨n, h⟩
    obtain ⟨q, hq, heq⟩ := List.mem_map.mp h.mem
    cases heq
    exact ⟨q, hq, rfl⟩
  · rintro ⟨q, hq, rfl⟩
    obtain ⟨w, hw⟩ := Keyed.exists_latest (p := (· = q.unit))
      (List.mem_map_of_mem (f := fun q : UsageQuantity => (q.unit, q.amount)) hq) rfl
    obtain ⟨unit, n⟩ := w
    obtain rfl : unit = q.unit := hw.holds
    exact ⟨n, hw⟩

theorem exists_mem_narrow_iff {unit : Symbol} :
    (∃ q ∈ (narrow a b).limits, q.unit = unit) ↔
      (∃ q ∈ a.limits, q.unit = unit) ∨ ∃ q ∈ b.limits, q.unit = unit := by
  rw [← exists_get?_map_iff, ← exists_get?_map_iff, ← exists_get?_map_iff, map_limits_narrow]
  simp only [SortedMap.get?_merge]
  cases (map a.limits).get? unit with
  | none => cases (map b.limits).get? unit <;> simp
  | some m => cases (map b.limits).get? unit <;> simp

theorem keyed_narrow (a b : AgentUsageBudget) : (narrow a b).Keyed := by
  have hnodup := SortedMap.nodup_keys ((map a.limits).merge min (map b.limits))
  rw [Keyed, narrow, List.map_map]
  exact hnodup

/-! ## The laws of narrowing -/

/-- The units of the result have different texts when no unit of one layer has the text of a
different unit of the other. -/
theorem unique_narrow_iff {limits limits' : List UsageQuantity} (ha : new limits = .ok a)
    (hb : new limits' = .ok b) :
    unique (narrow a b).limits = .ok () ↔
      ∀ p ∈ a.limits, ∀ q ∈ b.limits, p.unit.display = q.unit.display → p.unit = q.unit := by
  have hinj {budget : AgentUsageBudget} {limits : List UsageQuantity}
      (h : new limits = .ok budget) (p : UsageQuantity) (hp : p ∈ budget.limits)
      (q : UsageQuantity) (hq : q ∈ budget.limits) (htext : p.unit.display = q.unit.display) :
      p.unit = q.unit := by
    obtain ⟨_, hunique, h⟩ := Except.bind_eq_ok_iff.mp h
    cases h
    rw [List.inj_on_of_nodup_map (unique_eq_ok_iff.mp hunique) hp hq htext]
  have hkeyed := keyed_narrow a b
  rw [unique_eq_ok_iff]
  constructor
  · intro h p hp q hq htext
    obtain ⟨p', hp', hpunit⟩ := exists_mem_narrow_iff.mpr (.inl ⟨p, hp, rfl⟩ : _ ∨ ∃ q ∈ b.limits, _)
    obtain ⟨q', hq', hqunit⟩ := exists_mem_narrow_iff.mpr (.inr ⟨q, hq, rfl⟩ : (∃ q ∈ a.limits, _) ∨ _)
    rw [← hpunit, ← hqunit] at htext ⊢
    rw [List.inj_on_of_nodup_map h hp' hq' htext]
  · intro h
    refine (List.nodup_map_iff_inj_on (hkeyed.of_map _)).mpr ?_
    intro p hp q hq htext
    refine List.inj_on_of_nodup_map hkeyed hp hq ?_
    obtain ⟨p', hp', hpunit⟩ | ⟨p', hp', hpunit⟩ := exists_mem_narrow_iff.mp ⟨p, hp, rfl⟩
    · obtain ⟨q', hq', hqunit⟩ | ⟨q', hq', hqunit⟩ := exists_mem_narrow_iff.mp ⟨q, hq, rfl⟩
      · rw [← hpunit, ← hqunit] at htext ⊢
        exact hinj ha p' hp' q' hq' htext
      · rw [← hpunit, ← hqunit] at htext ⊢
        exact h p' hp' q' hq' htext
    · obtain ⟨q', hq', hqunit⟩ | ⟨q', hq', hqunit⟩ := exists_mem_narrow_iff.mp ⟨q, hq, rfl⟩
      · rw [← hpunit, ← hqunit] at htext ⊢
        exact (h q' hq' p' hp' htext.symm).symm
      · rw [← hpunit, ← hqunit] at htext ⊢
        exact hinj hb p' hp' q' hq' htext

theorem admit_narrow_iff (ha : a.Keyed) (hb : b.Keyed) (usage : AgentUsage)
    (charge : UsageQuantity) :
    (narrow a b).admits usage charge = .ok () ↔
      a.admits usage charge = .ok () ∧ b.admits usage charge = .ok () := by
  rw [admit_iff_le_bound (keyed_narrow a b), admit_iff_le_bound ha, admit_iff_le_bound hb,
    bound_narrow, Pi.inf_apply, le_inf_iff]

/-- What all layers together admit, each of them admits. -/
theorem admit_of_admit_layers (ha : a.Keyed) {layers : List AgentUsageBudget}
    (hlayers : ∀ layer ∈ layers, layer.Keyed)
    (h : (layers.foldl narrow a).admits usage charge = .ok ()) :
    a.admits usage charge = .ok () ∧ ∀ layer ∈ layers, layer.admits usage charge = .ok () := by
  induction layers generalizing a with
  | nil => exact ⟨h, nofun⟩
  | cons layer layers ih =>
    obtain ⟨hfirst, hrest⟩ := ih (keyed_narrow a layer)
      (fun l hl => hlayers l (List.mem_cons_of_mem _ hl)) h
    obtain ⟨ha, hlayer⟩ := (admit_narrow_iff ha (hlayers layer List.mem_cons_self) _ _).mp hfirst
    refine ⟨ha, fun l hl => ?_⟩
    obtain rfl | hl := List.mem_cons.mp hl
    · exact hlayer
    · exact hrest l hl

/-- Narrowing is a meet, and its result is a budget that `new` accepts exactly when no unit of one
layer has the text of a different unit of the other. -/
theorem narrow_meet_iff {limits limits' : List UsageQuantity} (ha : new limits = .ok a)
    (hb : new limits' = .ok b) :
    ((∀ usage charge, (narrow a b).admits usage charge = .ok () ↔
          a.admits usage charge = .ok () ∧ b.admits usage charge = .ok ()) ∧
        map (narrow a b).limits = map (narrow b a).limits ∧
        (∀ c, map (narrow (narrow a b) c).limits = map (narrow a (narrow b c)).limits) ∧
        map (narrow a a).limits = map a.limits ∧
        unique (narrow a b).limits = .ok () ∧
        ∀ layers : List AgentUsageBudget, (∀ layer ∈ layers, ∃ ls, new ls = .ok layer) →
          ∀ usage charge, (layers.foldl narrow a).admits usage charge = .ok () →
            a.admits usage charge = .ok () ∧ ∀ layer ∈ layers, layer.admits usage charge = .ok ()) ↔
      ∀ p ∈ a.limits, ∀ q ∈ b.limits, p.unit.display = q.unit.display → p.unit = q.unit := by
  rw [← unique_narrow_iff ha hb]
  constructor
  · rintro ⟨-, -, -, -, hunique, -⟩
    exact hunique
  · intro hunique
    refine ⟨admit_narrow_iff (keyed_of_new ha) (keyed_of_new hb), ?_, fun c => ?_, ?_, hunique, ?_⟩
    · rw [map_eq_iff, bound_narrow, bound_narrow, inf_comm]
    · simp only [map_eq_iff, bound_narrow, inf_assoc]
    · rw [map_eq_iff, bound_narrow, inf_idem]
    · intro layers hlayers usage charge h
      refine admit_of_admit_layers (keyed_of_new ha) (fun layer hlayer => ?_) h
      obtain ⟨ls, hls⟩ := hlayers layer hlayer
      exact keyed_of_new hls

namespace Sample

def layer (unit : Symbol) : AgentUsageBudget := ⟨[⟨unit, 1⟩]⟩

end Sample

/-- A unit in a namespace and a bare unit of the same text: each layer is accepted by `new`, and
their narrowing is not. -/
theorem narrow_texts_meet :
    let a := Sample.layer (.qualified "model" "tokens")
    let b := Sample.layer (.new "model/tokens")
    new a.limits = .ok a ∧ new b.limits = .ok b ∧
      unique (narrow a b).limits = .error (.duplicate (.qualified "model" "tokens")) := by
  decide +kernel

theorem narrow_meet_iff_tokens :
    unique (narrow (Sample.layer (.new "tokens")) (Sample.layer (.new "calls"))).limits =
      .ok () := by
  have ha : new [⟨.new "tokens", 1⟩] = .ok (Sample.layer (.new "tokens")) := by decide +kernel
  have hb : new [⟨.new "calls", 1⟩] = .ok (Sample.layer (.new "calls")) := by decide +kernel
  obtain ⟨-, -, -, -, hunique, -⟩ := (narrow_meet_iff ha hb).mpr (by decide +kernel)
  exact hunique

end AgentUsageBudget

end SimAgentNet.AgentConductCore
