import SimAgentNet.Data.Merge
import SimAgentNet.Data.StableSort
import SimAgentNet.AgentConductCore.Lifecycle

/-! # Usage and budgets

Quantities of open units, what a budget admits and what a charge does. Additions of amounts wrap
around or panic, as the build has it. `charges_exact_iff` says when a run of charges accounts for
everything. -/

namespace SimAgentNet.AgentConductCore

inductive UsageError where
  | duplicate (unit : Symbol)
  | exceeded (unit : Symbol) (used charge limit : UInt64)
  | malformed (message : String)
deriving DecidableEq

def UsageError.message : UsageError → String
  | .duplicate unit => "duplicate usage dimension " ++ unit.display
  | .exceeded unit used charge limit => "usage " ++ unit.display ++ " would exceed " ++
    toString limit.toNat ++ ": " ++ toString used.toNat ++ " + " ++ toString charge.toNat
  | .malformed message => message

/-- No two units have the same text. -/
def unique (values : List UsageQuantity) : Except UsageError Unit := do
  let _ ← values.foldlM
    (Keyed.addFresh (·.unit.display) fun value => .duplicate value.unit) ∅

theorem unique_eq_ok_iff {values : List UsageQuantity} :
    unique values = .ok () ↔ (values.map (·.unit.display)).Nodup := by
  have hfold := Keyed.isOk_addFresh_iff (fun value : UsageQuantity => value.unit.display)
    (fun value => UsageError.duplicate value.unit) values
  rw [← hfold, unique, Except.bind_eq_ok_iff]
  constructor
  · rintro ⟨seen, hseen, -⟩
    rw [hseen]
    rfl
  · intro h
    obtain ⟨seen, hseen⟩ := Except.exists_of_isOk h
    exact ⟨seen, hseen, rfl⟩

/-- The quantity of a unit, the first one where there are more. -/
def quantityOf (values : List UsageQuantity) (unit : Symbol) : Option UsageQuantity :=
  values.find? (·.unit = unit)

/-- Pointwise budget of a domain. Missing dimensions are unbounded at this layer. -/
structure AgentUsageBudget where
  limits : List UsageQuantity
deriving DecidableEq

def checkedAdd (a b : UInt64) : Option UInt64 :=
  if a.toNat + b.toNat < 2 ^ 64 then some (a + b) else none

namespace AgentUsage

def new (quantities : List UsageQuantity) : Except UsageError AgentUsage := do
  unique quantities
  return ⟨quantities⟩

/-- The quantity of a dimension, or zero when it is absent. -/
def amount (usage : AgentUsage) (unit : Symbol) : UInt64 :=
  ((quantityOf usage.quantities unit).map (·.amount)).getD 0

end AgentUsage

namespace AgentUsageBudget

def new (limits : List UsageQuantity) : Except UsageError AgentUsageBudget := do
  unique limits
  return ⟨limits⟩

/-- Whether the usage and a charge fit this layer. -/
def admits (budget : AgentUsageBudget) (usage : AgentUsage) (charge : UsageQuantity) :
    Except UsageError Unit :=
  match quantityOf budget.limits charge.unit with
  | none => .ok ()
  | some limit =>
    let used := usage.amount charge.unit
    if (checkedAdd used charge.amount).all (· > limit.amount) then
      .error (.exceeded charge.unit used charge.amount limit.amount)
    else .ok ()

end AgentUsageBudget

/-- Adds to the first quantity of a unit. -/
def raise (unit : Symbol) (amount : UInt64) : List UsageQuantity → List UsageQuantity
  | [] => []
  | value :: values =>
    if value.unit = unit then { value with amount := value.amount + amount } :: values
    else value :: raise unit amount values

/-- Applies an admitted charge. Where the build checks for overflow, an addition that overflows
panics, and it wraps around where it does not. -/
def AgentUsage.charge (checks : Bool) (budget : AgentUsageBudget) (charge : UsageQuantity) :
    Effect (Halt UsageError) AgentUsage Unit := do
  let usage ← .get
  .ofExcept ((budget.admits usage charge).mapError .failure)
  match quantityOf usage.quantities charge.unit with
  | some value =>
    if checks ∧ checkedAdd value.amount charge.amount = none then .fail .panicked
    else .modify fun usage => ⟨raise charge.unit charge.amount usage.quantities⟩
  | none =>
    .modify fun usage => ⟨StableSort.sortBy (·.unit.display) (usage.quantities ++ [charge])⟩

/-! ## One charge -/

theorem quantityOf_raise (values : List UsageQuantity) (unit other : Symbol) (amount : UInt64) :
    quantityOf (raise unit amount values) other =
      if other = unit then
        (quantityOf values unit).map fun value => { value with amount := value.amount + amount }
      else quantityOf values other := by
  induction values with
  | nil => simp [quantityOf, raise]
  | cons value values ih =>
    unfold quantityOf at ih ⊢
    by_cases hunit : value.unit = unit
    · by_cases hother : other = unit
      · simp [raise, hunit, hother]
      · simp [raise, hunit, hother, Ne.symm hother]
    · by_cases hvalue : value.unit = other
      · have hother : other ≠ unit := hvalue ▸ hunit
        simp [raise, hvalue, hother]
      · simp only [raise, hunit, if_false, List.find?_cons, hvalue, decide_false, ih]

theorem quantityOf_concat_sort (values : List UsageQuantity) (charge : UsageQuantity)
    (hnone : quantityOf values charge.unit = none) (unit : Symbol) :
    quantityOf (StableSort.sortBy (·.unit.display) (values ++ [charge])) unit =
      if unit = charge.unit then some charge else quantityOf values unit := by
  unfold quantityOf at hnone ⊢
  rw [StableSort.find?_sortBy (k := unit.display) fun a ha => by rw [of_decide_eq_true ha],
    List.find?_append]
  by_cases hunit : unit = charge.unit
  · rw [if_pos hunit, hunit, hnone]
    simp
  · rw [if_neg hunit]
    simp [Ne.symm hunit]

namespace AgentUsage
variable {checks : Bool} {budget : AgentUsageBudget} {usage usage' : AgentUsage}
  {charge : UsageQuantity}

/-- What a charge does. -/
theorem charge_cases (checks : Bool) (budget : AgentUsageBudget) (charge : UsageQuantity)
    (usage : AgentUsage) :
    (∃ e, budget.admits usage charge = .error e ∧
      AgentUsage.charge checks budget charge usage = (.error (.failure e), usage)) ∨
    budget.admits usage charge = .ok () ∧
      ((∃ value, quantityOf usage.quantities charge.unit = some value ∧ checks = true ∧
          checkedAdd value.amount charge.amount = none ∧
          AgentUsage.charge checks budget charge usage = (.error .panicked, usage)) ∨
        (∃ value, quantityOf usage.quantities charge.unit = some value ∧
          (checks = true → checkedAdd value.amount charge.amount ≠ none) ∧
          AgentUsage.charge checks budget charge usage =
            (.ok (), ⟨raise charge.unit charge.amount usage.quantities⟩)) ∨
        (quantityOf usage.quantities charge.unit = none ∧
          AgentUsage.charge checks budget charge usage =
            (.ok (), ⟨StableSort.sortBy (·.unit.display) (usage.quantities ++ [charge])⟩))) := by
  cases hadmits : budget.admits usage charge with
  | error e =>
    refine .inl ⟨e, rfl, ?_⟩
    simp [AgentUsage.charge, Bind.bind, Effect.bind, Effect.get, Effect.observe, Effect.ofExcept,
      hadmits, Except.mapError]
  | ok u =>
    refine .inr ⟨rfl, ?_⟩
    cases hvalue : quantityOf usage.quantities charge.unit with
    | none =>
      refine .inr (.inr ⟨rfl, ?_⟩)
      simp [AgentUsage.charge, Bind.bind, Effect.bind, Effect.get, Effect.observe,
        Effect.ofExcept, hadmits, Except.mapError, hvalue, Effect.modify]
    | some value =>
      by_cases hpanic : checks = true ∧ checkedAdd value.amount charge.amount = none
      · refine .inl ⟨value, rfl, hpanic.1, hpanic.2, ?_⟩
        simp [AgentUsage.charge, Bind.bind, Effect.bind, Effect.get, Effect.observe,
          Effect.ofExcept, hadmits, Except.mapError, hvalue, Effect.fail, hpanic]
      · refine .inr (.inl ⟨value, rfl, fun hc hn => hpanic ⟨hc, hn⟩, ?_⟩)
        simp [AgentUsage.charge, Bind.bind, Effect.bind, Effect.get, Effect.observe,
          Effect.ofExcept, hadmits, Except.mapError, hvalue, Effect.modify, hpanic]

/-- The accounting of one call: a refusal leaves the usage, and a charge that is applied is added
to its unit as a natural number and leaves the other units. -/
structure Exact (usage : AgentUsage) (charge : UsageQuantity)
    (out : Except (Halt UsageError) Unit × AgentUsage) : Prop where
  returns : out.1 ≠ .error .panicked
  refused : ∀ e, out.1 = .error e → out.2 = usage
  charged : out.1 = .ok () →
    (out.2.amount charge.unit).toNat = (usage.amount charge.unit).toNat + charge.amount.toNat
  others : out.1 = .ok () → ∀ unit, unit ≠ charge.unit → out.2.amount unit = usage.amount unit

/-- The budget bounds the unit, or the sum is an amount. -/
def Fits (budget : AgentUsageBudget) (usage : AgentUsage) (charge : UsageQuantity) : Prop :=
  (quantityOf budget.limits charge.unit).isSome ∨
    (usage.amount charge.unit).toNat + charge.amount.toNat < 2 ^ 64

theorem admit_eq_ok_iff : budget.admits usage charge = .ok () ↔
    ∀ limit, quantityOf budget.limits charge.unit = some limit →
      (usage.amount charge.unit).toNat + charge.amount.toNat ≤ limit.amount.toNat := by
  unfold AgentUsageBudget.admits
  cases hlimit : quantityOf budget.limits charge.unit with
  | none => simp
  | some limit =>
    have hbound := limit.amount.toNat_lt
    simp only [Option.some.injEq, forall_eq']
    unfold checkedAdd
    split
    · rename_i hsum
      have hadd : (usage.amount charge.unit + charge.amount).toNat =
          (usage.amount charge.unit).toNat + charge.amount.toNat := by
        rw [UInt64.toNat_add, Nat.mod_eq_of_lt hsum]
      simp only [Option.all_some, decide_eq_true_eq, gt_iff_lt, UInt64.lt_iff_toNat_lt, hadd]
      constructor
      · intro h
        split at h
        · cases h
        · omega
      · intro h
        rw [if_neg (by omega)]
    · simp only [Option.all_none, if_true]
      constructor
      · exact nofun
      · intro h
        omega

theorem amount_eq_of_quantityOf (h : quantityOf usage.quantities unit = some value) :
    usage.amount unit = value.amount := by
  rw [amount, h, Option.map_some, Option.getD_some]

theorem amount_eq_zero (h : quantityOf usage.quantities unit = none) : usage.amount unit = 0 := by
  rw [amount, h, Option.map_none, Option.getD_none]

theorem amount_raise (h : quantityOf usage.quantities charge.unit = some value) (unit : Symbol) :
    (AgentUsage.mk (raise charge.unit charge.amount usage.quantities)).amount unit =
      if unit = charge.unit then usage.amount charge.unit + charge.amount
      else usage.amount unit := by
  rw [amount_eq_of_quantityOf h, amount, amount, quantityOf_raise]
  by_cases hunit : unit = charge.unit
  · rw [if_pos hunit, if_pos hunit, h]
    rfl
  · rw [if_neg hunit, if_neg hunit]

theorem amount_concat_sort (h : quantityOf usage.quantities charge.unit = none) (unit : Symbol) :
    (AgentUsage.mk (StableSort.sortBy (·.unit.display) (usage.quantities ++ [charge]))).amount
        unit =
      if unit = charge.unit then usage.amount charge.unit + charge.amount
      else usage.amount unit := by
  rw [amount_eq_zero h, UInt64.zero_add, amount, amount, quantityOf_concat_sort _ _ h]
  by_cases hunit : unit = charge.unit
  · rw [if_pos hunit, if_pos hunit]
    rfl
  · rw [if_neg hunit, if_neg hunit]

/-- A charge that is applied adds to its unit, wrapping around, and leaves the other units. -/
theorem charge_ok (h : AgentUsage.charge checks budget charge usage = (.ok (), usage')) :
    budget.admits usage charge = .ok () ∧
      (checks = true → checkedAdd (usage.amount charge.unit) charge.amount ≠ none) ∧
      ∀ unit, usage'.amount unit =
        if unit = charge.unit then usage.amount charge.unit + charge.amount
        else usage.amount unit := by
  obtain ⟨e, -, hcharge⟩ | ⟨hadmits, ⟨value, -, -, -, hcharge⟩ | ⟨value, hvalue, hno, hcharge⟩ |
      ⟨hnone, hcharge⟩⟩ := charge_cases checks budget charge usage
  · cases hcharge.symm.trans h
  · cases hcharge.symm.trans h
  · cases hcharge.symm.trans h
    refine ⟨hadmits, ?_, amount_raise hvalue⟩
    rwa [amount_eq_of_quantityOf hvalue]
  · cases hcharge.symm.trans h
    refine ⟨hadmits, fun _ => ?_, amount_concat_sort hnone⟩
    have hbound := charge.amount.toNat_lt
    rw [amount_eq_zero hnone, checkedAdd, if_pos (by simpa using hbound)]
    exact Option.some_ne_none _

theorem charge_error (h : AgentUsage.charge checks budget charge usage = (.error e, usage')) :
    usage' = usage ∧ (e = .panicked →
      budget.admits usage charge = .ok () ∧ checks = true ∧
        checkedAdd (usage.amount charge.unit) charge.amount = none) := by
  obtain ⟨e', -, hcharge⟩ | ⟨hadmits, ⟨value, hvalue, hchecks, hnone, hcharge⟩ |
      ⟨value, -, -, hcharge⟩ | ⟨-, hcharge⟩⟩ := charge_cases checks budget charge usage
  · cases hcharge.symm.trans h
    exact ⟨rfl, nofun⟩
  · cases hcharge.symm.trans h
    exact ⟨rfl, fun _ => ⟨hadmits, hchecks, by rwa [amount_eq_of_quantityOf hvalue]⟩⟩
  · cases hcharge.symm.trans h
  · cases hcharge.symm.trans h

theorem checkedAdd_eq_none_iff {a b : UInt64} :
    checkedAdd a b = none ↔ 2 ^ 64 ≤ a.toNat + b.toNat := by
  unfold checkedAdd
  split
  · simp only [reduceCtorEq, false_iff]
    omega
  · simp only [true_iff]
    omega

/-- An admitted charge that fits is an amount. -/
theorem Fits.sum_lt (h : Fits budget usage charge) (hadmits : budget.admits usage charge = .ok ()) :
    (usage.amount charge.unit).toNat + charge.amount.toNat < 2 ^ 64 := by
  obtain hlimit | hsum := h
  · obtain ⟨limit, hlimit⟩ := Option.isSome_iff_exists.mp hlimit
    exact (admit_eq_ok_iff.mp hadmits limit hlimit).trans_lt limit.amount.toNat_lt
  · exact hsum

/-- One charge is accounted for exactly when it fits. -/
theorem exact_iff :
    Exact usage charge (AgentUsage.charge checks budget charge usage) ↔
      Fits budget usage charge := by
  constructor
  · intro h
    by_contra hfits
    obtain ⟨hunbudgeted, hsum⟩ := not_or.mp hfits
    rw [Option.not_isSome_iff_eq_none] at hunbudgeted
    rcases hout : AgentUsage.charge checks budget charge usage with ⟨_ | _, usage'⟩
    · rename_i e
      obtain ⟨e', hadmits, -⟩ | ⟨-, ⟨value, -, -, -, hcharge⟩ | ⟨value, -, -, hcharge⟩ |
          ⟨-, hcharge⟩⟩ := charge_cases checks budget charge usage
      · rw [AgentUsageBudget.admits, hunbudgeted] at hadmits
        cases hadmits
      · exact h.returns (by rw [hcharge])
      · cases hcharge.symm.trans hout
      · cases hcharge.symm.trans hout
    · have hcharged := h.charged (by rw [hout])
      rw [hout, (charge_ok hout).2.2, if_pos rfl] at hcharged
      have hbound := (usage.amount charge.unit + charge.amount).toNat_lt
      omega
  · intro hfits
    refine ⟨?_, ?_, ?_, ?_⟩
    · intro hpanic
      obtain ⟨hadmits, -, hnone⟩ := (charge_error (Prod.ext hpanic rfl)).2 rfl
      exact absurd (hfits.sum_lt hadmits) (not_lt.mpr (checkedAdd_eq_none_iff.mp hnone))
    · intro e he
      exact (charge_error (Prod.ext he rfl)).1
    · intro hok
      obtain ⟨hadmits, -, hamount⟩ := charge_ok (Prod.ext hok rfl)
      rw [hamount, if_pos rfl, UInt64.toNat_add, Nat.mod_eq_of_lt (hfits.sum_lt hadmits)]
    · intro hok unit hunit
      rw [(charge_ok (Prod.ext hok rfl)).2.2, if_neg hunit]

/-! ## Runs of charges -/

variable (checks budget) in
/-- The usage after some charges, refused or not. -/
def spend (usage : AgentUsage) (charges : List UsageQuantity) : AgentUsage :=
  charges.foldl (fun usage charge => (AgentUsage.charge checks budget charge usage).2) usage

/-- A call takes no budgeted unit over its limit. -/
theorem amount_charge_le (hlimit : quantityOf budget.limits unit = some limit)
    (h : usage.amount unit ≤ limit.amount) :
    (AgentUsage.charge checks budget charge usage).2.amount unit ≤ limit.amount := by
  rcases hout : AgentUsage.charge checks budget charge usage with ⟨_ | _, usage'⟩
  · rw [(charge_error hout).1]
    exact h
  · obtain ⟨hadmits, -, hamount⟩ := charge_ok hout
    rw [hamount]
    by_cases hunit : unit = charge.unit
    · subst hunit
      have hle := admit_eq_ok_iff.mp hadmits limit hlimit
      have hbound := limit.amount.toNat_lt
      rw [if_pos rfl, UInt64.le_iff_toNat_le, UInt64.toNat_add, Nat.mod_eq_of_lt (by omega)]
      exact hle
    · rwa [if_neg hunit]

theorem amount_spend_le (hlimit : quantityOf budget.limits unit = some limit)
    (h : usage.amount unit ≤ limit.amount) (charges : List UsageQuantity) :
    (spend checks budget usage charges).amount unit ≤ limit.amount := by
  induction charges generalizing usage with
  | nil => exact h
  | cons charge charges ih => exact ih (amount_charge_le hlimit h)

/-- In a run of charges every call accounts for everything, and no budgeted unit exceeds its limit,
exactly when every charge of an unbudgeted unit has an amount for its sum. -/
theorem charges_exact_iff (checks : Bool) (budget : AgentUsageBudget) (usage : AgentUsage)
    (charges : List UsageQuantity) :
    ((∀ before charge after, charges = before ++ charge :: after →
        Exact (spend checks budget usage before) charge
          (AgentUsage.charge checks budget charge (spend checks budget usage before))) ∧
      ∀ before, before <+: charges → ∀ unit limit, quantityOf budget.limits unit = some limit →
        usage.amount unit ≤ limit.amount →
          (spend checks budget usage before).amount unit ≤ limit.amount) ↔
    ∀ before charge after, charges = before ++ charge :: after →
      Fits budget (spend checks budget usage before) charge := by
  constructor
  · intro h before charge after hcharges
    exact exact_iff.mp (h.1 before charge after hcharges)
  · intro h
    refine ⟨?_, ?_⟩
    · intro before charge after hcharges
      exact exact_iff.mpr (h before charge after hcharges)
    · intro before _ unit limit hlimit hle
      exact amount_spend_le hlimit hle before

namespace Sample

def tokens (amount : UInt64) : UsageQuantity := ⟨.new "tokens", amount⟩

end Sample

/-- Without a budget for its unit, a charge of one on top of the largest amount wraps around to zero
and is accepted, or panics. -/
theorem unbudgeted_charge_wraps :
    AgentUsage.new [Sample.tokens (2 ^ 64 - 1)] = .ok ⟨[Sample.tokens (2 ^ 64 - 1)]⟩ ∧
      AgentUsage.charge false ⟨[]⟩ (Sample.tokens 1) ⟨[Sample.tokens (2 ^ 64 - 1)]⟩ =
        (.ok (), ⟨[Sample.tokens 0]⟩) ∧
      AgentUsage.charge true ⟨[]⟩ (Sample.tokens 1) ⟨[Sample.tokens (2 ^ 64 - 1)]⟩ =
        (.error .panicked, ⟨[Sample.tokens (2 ^ 64 - 1)]⟩) ∧
      ∀ checks, ¬Exact ⟨[Sample.tokens (2 ^ 64 - 1)]⟩ (Sample.tokens 1)
        (AgentUsage.charge checks ⟨[]⟩ (Sample.tokens 1) ⟨[Sample.tokens (2 ^ 64 - 1)]⟩) := by
  refine ⟨by decide +kernel, by decide +kernel, by decide +kernel, fun checks h => ?_⟩
  cases checks with
  | false => exact absurd (h.charged (by decide +kernel)) (by decide +kernel)
  | true => exact h.returns (by decide +kernel)

end AgentUsage

end SimAgentNet.AgentConductCore
